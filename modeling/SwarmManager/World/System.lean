import SwarmManager.Membership.Endpoint
import SwarmManager.Membership.Url

/-!
# The system under a program

A program asks the system it runs on which addresses a host has, and to bind a
port of an address for it.  What a system answers is its own affair, but for what
every program relies on: a port that is bound was free, a port that was asked for
is the one that is bound, and where none was asked for the one that is chosen is
not zero.

`System.ofHosts` is a system without a name service that chooses the next free one
of a range of ports.
-/

namespace SwarmManager

set_option autoImplicit false

/-- What a program relies on.  Ports are asked for by their number, or by zero if
any will do; `memory` is what the system remembers of the ports it chose. -/
structure System where
  /-- The addresses that are listened on for a host of some name, the first first. -/
  addresses : String → List HostAddress
  /-- The address that is called for a host of some name in a URL. -/
  called? : String → Option HostAddress
  /-- The port that is bound at an address, and the memory after it, if a port is asked
  for while some are taken. -/
  bind (address : HostAddress) (asked : UInt16) (isTaken : UInt16 → Bool) (memory : Nat) :
    Option (UInt16 × Nat)
  /-- A port is bound once. -/
  bind_free : ∀ {address asked isTaken memory port later},
    bind address asked isTaken memory = some (port, later) → isTaken port = false
  /-- A port that is asked for is used as it is. -/
  bind_asked : ∀ {address asked isTaken memory port later},
    bind address asked isTaken memory = some (port, later) → asked ≠ 0 → port = asked
  /-- A port that is chosen is a port. -/
  bind_chosen : ∀ {address isTaken memory port later},
    bind address 0 isTaken memory = some (port, later) → port ≠ 0

namespace System

/-- The endpoint that is listened on for a host and a port, and the memory after it:
that of the first address of the host where the port can be bound. -/
def listen (system : System) (host : String) (asked : UInt16) (isTaken : Endpoint → Bool)
    (memory : Nat) : Option (Endpoint × Nat) :=
  (system.addresses host).findSome? fun address =>
    (system.bind address asked (fun port => isTaken ⟨address, port⟩) memory).map
      fun (port, later) => (⟨address, port⟩, later)

/-- What is listened on is an address of the host at a port that was free, the one that
was asked for or else one that is not zero. -/
theorem listen_eq_some {system : System} {host : String} {asked : UInt16}
    {isTaken : Endpoint → Bool} {memory later : Nat} {endpoint : Endpoint}
    (bound : system.listen host asked isTaken memory = some (endpoint, later)) :
    endpoint.host ∈ system.addresses host ∧ isTaken endpoint = false ∧
      (asked ≠ 0 → endpoint.port = asked) ∧ (asked = 0 → endpoint.port ≠ 0) := by
  obtain ⟨address, listed, found⟩ := List.exists_of_findSome?_eq_some bound
  obtain ⟨⟨port, memory⟩, chosen, same⟩ := Option.map_eq_some_iff.mp found
  cases same
  refine ⟨listed, system.bind_free chosen, system.bind_asked chosen, ?_⟩
  rintro rfl
  exact system.bind_chosen chosen

/-! ## Names without a name service -/

/-- The host a text names: `localhost`, in whatever letters, or numerals. -/
def hostOfName? (name : String) : Option HostAddress :=
  if name.toList.map Char.toLower = "localhost".toList then some .loopback
  else HostAddress.ofNumerals? name.toList

/-- The host that the host of a URL names, which may hold percent escapes.  Numerals
may have a dot after them. -/
def hostOfUrl? (host : String) : Option HostAddress := do
  let name ← Url.unescaped? host.toList
  match Text.splitLast '.' name with
  | some (numerals, []) => HostAddress.ofNumerals? numerals
  | _ => hostOfName? (String.ofList name)

/-! ## Ports in a cycle -/

/-- The first port that is chosen. -/
def firstChosenPort : Nat := 32768

/-- The number of ports to choose from. -/
def chosenPorts : Nat := 28232

/-- A free port, the first from a position on in the cycle of ports to choose from,
and the position after it. -/
def choosePort (isTaken : UInt16 → Bool) : (attempts position : Nat) → Option (UInt16 × Nat)
  | 0, _ => none
  | attempts + 1, position =>
      let port := UInt16.ofNat (firstChosenPort + position % chosenPorts)
      if isTaken port then choosePort isTaken attempts (position + 1)
      else some (port, position + 1)

/-- A port that is asked for if it is free, and otherwise one that is chosen. -/
def bindPort (asked : UInt16) (isTaken : UInt16 → Bool) (position : Nat) : Option (UInt16 × Nat) :=
  if asked = 0 then choosePort isTaken chosenPorts position
  else if isTaken asked then none
  else some (asked, position)

variable {isTaken : UInt16 → Bool} {position later : Nat} {port asked : UInt16}

/-- A chosen port is free and none of those below the range. -/
theorem choosePort_eq_some {attempts : Nat}
    (chosen : choosePort isTaken attempts position = some (port, later)) :
    isTaken port = false ∧ firstChosenPort ≤ port.toNat := by
  induction attempts generalizing position with
  | zero => cases chosen
  | succ attempts ih =>
      simp only [choosePort] at chosen
      split at chosen
      next => exact ih chosen
      next free =>
        obtain ⟨rfl, _⟩ := Prod.mk.inj (Option.some.inj chosen)
        have inside : position % chosenPorts < chosenPorts := Nat.mod_lt _ (by decide)
        have small : firstChosenPort + position % chosenPorts < 65536 :=
          Nat.lt_of_lt_of_le (Nat.add_lt_add_left inside _) (by decide)
        rw [UInt16.toNat_ofNat_of_lt' small]
        exact ⟨by simpa using free, Nat.le_add_right _ _⟩

theorem bindPort_free (bound : bindPort asked isTaken position = some (port, later)) :
    isTaken port = false := by
  simp only [bindPort] at bound
  split at bound
  next => exact (choosePort_eq_some bound).1
  next =>
    split at bound
    next => cases bound
    next free =>
      obtain ⟨rfl, _⟩ := Prod.mk.inj (Option.some.inj bound)
      simpa using free

theorem bindPort_asked (bound : bindPort asked isTaken position = some (port, later))
    (given : asked ≠ 0) : port = asked := by
  rw [bindPort, if_neg given] at bound
  split at bound
  next => cases bound
  next => exact (Prod.mk.inj (Option.some.inj bound)).1.symm

theorem bindPort_chosen (bound : bindPort 0 isTaken position = some (port, later)) : port ≠ 0 := by
  rintro rfl
  exact absurd (choosePort_eq_some bound).2 (by decide)

/-- A system without a name service, on which some hosts can be listened on. -/
def ofHosts (hosts : HostAddress → Bool) : System where
  addresses name := (hostOfName? name).toList.filter hosts
  called? := hostOfUrl?
  bind _ asked isTaken position := bindPort asked isTaken position
  bind_free := bindPort_free
  bind_asked := bindPort_asked
  bind_chosen := bindPort_chosen

end System

end SwarmManager
