import SwarmManager.World.Command

/-!
# Where runs start

A run starts from members that have done nothing yet (`World.start`), with a supply
each.  What later modules say of runs needs that draws do not repeat: those of one
member (`Supply.Distinct`), or those of all members together (`Apart`).  Supplies
like that exist (`apart_tally`).
-/

namespace SwarmManager

set_option autoImplicit false

variable {n : Nat}

/-! ## Supplies of several members -/

/-- No two draws of some supplies share an identifier. -/
def Supply.Apart (supply : Fin n → Supply) : Prop :=
  ∀ first second position other,
    ((supply first).source position).id = ((supply second).source other).id →
      first = second ∧ position = other

/-- Of supplies that are apart, each is without repetition. -/
theorem Supply.Apart.distinct {supply : Fin n → Supply} (apart : Apart supply) (index : Fin n) :
    (supply index).Distinct :=
  fun position other same => (apart index index position other same).2

/-- A supply that counts with a mark: its identifiers are the mark once, twice, and
so on. -/
def Supply.tally (mark : Char) : Supply where
  source position := ⟨String.ofList (List.replicate (position + 1) mark), .epoch, 0⟩
  drawn := 0

/-- Supplies that count with different marks are apart. -/
theorem Supply.apart_tally {mark : Fin n → Char} (different : Function.Injective mark) :
    Apart fun index => tally (mark index) := by
  intro first second position other same
  obtain ⟨lengths, marks⟩ := List.replicate_inj.mp (String.ofList_injective same)
  refine ⟨?_, Nat.succ.inj lengths⟩
  rcases marks with none | equal
  · exact absurd none (Nat.succ_ne_zero position)
  · exact different equal

theorem Supply.distinct_tally (mark : Char) : (tally mark).Distinct := by
  have different : Function.Injective fun _ : Fin 1 => mark := fun _ _ _ => Subsingleton.elim _ _
  exact (apart_tally different).distinct 0

/-- A supply that counts in strokes: its identifiers end in one one, two ones, and so on, and
are filled up with zeros to thirty-two digits. -/
def Supply.strokes : Supply where
  source position :=
    ⟨String.ofList (List.replicate (31 - position) '0' ++ List.replicate (position + 1) '1'),
      .epoch, 0⟩
  drawn := 0

theorem Supply.distinct_strokes : strokes.Distinct := by
  intro first second same
  have ones := congrArg (List.count '1') (String.ofList_injective same)
  simpa [List.count_append, List.count_replicate] using ones

/-! ## Worlds -/

namespace Network

/-- A network that delivers every exchange, where nobody listens yet, on any host. -/
def idle : Network n where
  system := .ofHosts fun _ => true
  fates := .always .delivered
  sockets := []
  outsiders := []
  portsChosen := 0

end Network

namespace World

/-- A world of members that have done nothing yet. -/
def start (settings : Fin n → Settings) (machine : Fin n → Machine) (observer : Fin n → Observer)
    (supply : Fin n → Supply) (network : Network n) : World n where
  members := .ofFn fun index =>
    .start (settings index) (machine index) (observer index) (supply index)
  network := network

@[simp] theorem member_start (settings : Fin n → Settings) (machine : Fin n → Machine)
    (observer : Fin n → Observer) (supply : Fin n → Supply) (network : Network n) (index : Fin n) :
    (start settings machine observer supply network).member index =
      .start (settings index) (machine index) (observer index) (supply index) := by
  simp only [member, start, Fin.getElem_fin, Vector.getElem_ofFn, Fin.eta]

/-- Two members that were told nothing, on a network without outsiders. -/
def twoMembers : World 2 :=
  start (fun _ => {}) (fun _ => default) (fun _ => .listening)
    (fun index => .tally (if index = 0 then 'a' else 'b')) .idle

/-- Four members that were told nothing, on a network without outsiders. -/
def fourMembers : World 4 :=
  start (fun _ => {}) (fun _ => default) (fun _ => .listening)
    (fun index => .tally (['a', 'b', 'c', 'd'].getD index 'e')) .idle

/-- Requests to two members: the first starts a swarm that the second joins, and has
a service on both nodes and one that is updated. -/
def twoServices : List (Fin 2 × Command) :=
  [(0, .initCluster "" ""), (0, .createService { name := "web" }),
    (1, .joinCluster ["127.0.0.1:32768"] "" ""),
    (0, .createService { name := "log", mode := some { global := some {} } }),
    (0, .updateService "web" { name := "site" })]

/-- Requests to a member: it starts a swarm with two services, and gives the first the
identifier of the second for its name. -/
def namedLikeAnother : List (Fin 2 × Command) :=
  [(0, .initCluster "" ""), (0, .createService { name := "first" }),
    (0, .createService { name := "second" }), (0, .updateService "first" { name := "aaaaaaaa" })]

/-- Two members that were told nothing, whose draws are counted in strokes. -/
def countingMembers : World 2 :=
  start (fun _ => {}) (fun _ => default) (fun _ => .listening) (fun _ => .strokes) .idle

/-- Requests to a member: it starts a swarm with three services, one without a name and two
whose instances might share one, and updates one of these. -/
def namedAlike : List (Fin 2 × Command) :=
  [(0, .initCluster "" ""), (0, .createService {}), (0, .createService { name := "web" }),
    (0, .createService { name := "web-0", mode := some { global := some {} } }),
    (0, .updateService "web" { name := "web-0-updated" }), (0, .updateService "web-0" {})]

/-- The second of two members joins the swarm of the first, renames the node of the
first, is removed by it, leaves and joins again. -/
def comingAndGoing : List (Fin 2 × Command) :=
  [(1, .joinCluster ["127.0.0.1:32768"] "" ""), (1, .updateNode "a" { name := "first" }),
    (0, .deleteNode "b"), (1, .leaveCluster), (1, .joinCluster ["127.0.0.1:32768"] "" "")]

/-- The second of two members joins the swarm of the first, and gives the node of the first a
name that is longer than a body may be. -/
def longName : List (Fin 2 × Command) :=
  [(1, .joinCluster ["127.0.0.1:32768"] "" ""),
    (1, .updateNode "a" { name := String.ofList (List.replicate 2097153 'x') })]

/-- The second of two members fails to join a swarm, and joins it once the first has started it.
The first removes the second, whose peer sends it an operation once more, and the second
leaves. -/
def secondAttempt : List (Fin 2 × Command) :=
  [(1, .joinCluster ["127.0.0.1:4000"] "" ""), (0, .initCluster ":4000" ""),
    (1, .joinCluster ["127.0.0.1:4000"] "" ""), (0, .deleteNode "bb"),
    (1, .handleOperation (.delete (.manager ⟨"bb", .epoch, 0⟩ default "" "" false)) .terminal),
    (1, .leaveCluster)]

/-- The first of two members in a swarm is removed, fails to remove itself once more, leaves, and
joins again through the second. -/
def removedAndBack : List (Fin 2 × Command) :=
  [(1, .deleteNode "a"), (0, .deleteNode "a"), (0, .leaveCluster),
    (0, .joinCluster ["127.0.0.1:32769"] "" "")]

/-- Requests to a member with a service `log`: it creates a service, fails to create it again,
takes its tasks away, deletes `log`, and creates a service without a name on all nodes. -/
def rescheduling : List (Fin 2 × Command) :=
  [(0, .createService { name := "db", mode := some { replicated := some ⟨some 3⟩ } }),
    (0, .createService { name := "db" }),
    (0, .updateService "db" { mode := some { replicated := some ⟨some 0⟩ } }),
    (0, .deleteService "log"), (0, .createService { mode := some { global := some {} } })]

/-- Requests to a member: it starts a swarm with a service that has a label, one without labels and
one with another value of the label. -/
def labelled : List (Fin 2 × Command) :=
  [(0, .initCluster "" ""),
    (0, .createService { name := "web", labels := StringMap.empty.insert "tier" "a=b",
                         mode := some { replicated := some ⟨some 2⟩ } }),
    (0, .createService { name := "log" }),
    (0, .createService { name := "db", labels := StringMap.empty.insert "tier" "a" })]

/-- Requests to a member: it starts a swarm with a service whose name has to be escaped in a path,
and one named like a route. -/
def namedForPaths : List (Fin 2 × Command) :=
  [(0, .initCluster "" ""), (0, .createService { name := "50% a/b?é" }),
    (0, .createService { name := "create" })]

/-- Requests to a member: it starts a swarm with two services and removes its own node. -/
def withoutNodes : List (Fin 2 × Command) :=
  [(0, .initCluster "" ""), (0, .createService { name := "web" }),
    (0, .createService { name := "log", mode := some { global := some {} } }),
    (0, .deleteNode "a")]

/-- The last three of four members join the swarm of the first, one after the other. -/
def gathering : List (Fin 4 × Command) :=
  [(0, .initCluster "" ""), (1, .joinCluster ["127.0.0.1:32768"] "" ""),
    (2, .joinCluster ["127.0.0.1:32768"] "" ""), (3, .joinCluster ["127.0.0.1:32768"] "" "")]

/-- A swarm of two members, of which the second left without being removed. -/
def deserted : World 2 :=
  twoMembers.after
    [(0, .initCluster "" ""), (1, .joinCluster ["127.0.0.1:32768"] "" ""), (1, .leaveCluster)]

/-- The third of four members leaves, and is removed from the second only.  It joins again
through the second, at the same address, and then the fourth joins through the first, which
lists the third twice. -/
def listedTwice : List (Fin 4 × Command) :=
  [(0, .initCluster "" ""), (1, .joinCluster ["127.0.0.1:32768"] "" ""),
    (2, .joinCluster ["127.0.0.1:32768"] ":4001" ""), (2, .leaveCluster), (0, .deleteNode "c"),
    (2, .joinCluster ["127.0.0.1:32769"] ":4001" ""),
    (3, .joinCluster ["127.0.0.1:32768"] "" "")]

/-- The second of four members joins the swarm of the first and leaves, and is not removed. -/
def desertion : List (Fin 4 × Command) :=
  [(0, .initCluster "" ""), (1, .joinCluster ["127.0.0.1:32768"] ":4001" ""), (1, .leaveCluster)]

/-- The second of four members joins the swarm of the first, is removed, and leaves. -/
def removal : List (Fin 4 × Command) :=
  [(0, .initCluster "" ""), (1, .joinCluster ["127.0.0.1:32768"] ":4001" ""),
    (0, .deleteNode "b"), (1, .leaveCluster)]

/-- The third of four members joins the swarm of the first, and the fourth that of the second. -/
def sidesTaken : List (Fin 4 × Command) :=
  [(2, .joinCluster ["127.0.0.1:32768"] "" ""), (3, .joinCluster ["127.0.0.1:4001"] "" "")]

end World

end SwarmManager
