import SwarmManager.World.Fanout
import SwarmManager.Proofs.Actions

/-!
# What exchanges with peers leave alone

An exchange changes how many exchanges have met their fate, what outsiders were
sent, and the node registries of members that serve.  A relation between worlds
that overlooks these is respected by every way of sending an operation
(`keeps_announce`, `keeps_handle`, `keeps_send`), whatever becomes of the exchanges
and however they fail.

A member that waits for its peers serves nobody, so the relation may look at its
registry as well.
-/

namespace SwarmManager.World

set_option autoImplicit false

variable {n : Nat}

theorem run_meetFate (world : World n) :
    (meetFate : Action n Fate).run.run world =
      (.ok world.network.fates.next, { world with network := world.network.advanceFate }) := rfl

/-- A relation between worlds that does not see what exchanges change: the fates
met, the outsiders, and the registries of the members that serve. -/
structure Overlooks (related : World n → World n → Prop) (serves : Fin n → Prop) : Prop where
  refl : ∀ world, related world world
  trans : ∀ first second third, related first second → related second third →
    related first third
  network : ∀ (world : World n) (fates : Fates) (outsiders : List Outsider),
    related world { world with
      network := { world.network with fates := fates, outsiders := outsiders } }
  registry : ∀ (world : World n) (index : Fin n) (nodes : List Node), serves index →
    related world (world.setMember index { world.member index with nodes := nodes })

/-- The system is always the same. -/
theorem overlooks_system (serves : Fin n → Prop) :
    Overlooks (fun before after : World n => after.network.system = before.network.system)
      serves where
  refl _ := rfl
  trans _ _ _ early late := late.trans early
  network _ _ _ := rfl
  registry _ _ _ _ := rfl

section Exchange

variable {related : World n → World n → Prop} {serves : Fin n → Prop}
  (overlooks : Overlooks related serves)
include overlooks

/-- A failure changes nothing. -/
theorem keeps_fail {α : Type} (error : Error) : Keeps related (fail error : Action n α) :=
  .of_run overlooks.refl fun world => run_fail error world

theorem keeps_throw {α : Type} (halt : Halt) : Keeps related (throw halt : Action n α) :=
  .of_run overlooks.refl fun world => run_throw halt world

theorem keeps_pure {α : Type} (value : α) : Keeps related (pure value : Action n α) :=
  .of_run overlooks.refl fun world => run_pure value world

theorem keeps_look (index : Fin n) : Keeps related (look index) :=
  .of_run overlooks.refl fun world => run_look index world

theorem keeps_found {α : Type} (result : Except Error α) :
    Keeps related (found result : Action n α) :=
  .of_run overlooks.refl fun world => run_found result world

/-- Looking something up changes nothing. -/
theorem keeps_lookUp {α β : Type} (index : Fin n) (view : Member → Except Error α) (shown : α → β) :
    Keeps related (do return shown (← found (view (← look index))) : Action n β) :=
  .bind overlooks.trans (keeps_look overlooks index) fun _ =>
    .bind overlooks.trans (keeps_found overlooks _) fun _ => keeps_pure overlooks _

/-- What an action is answered with is no matter. -/
theorem keeps_answer {α β : Type} {action : Action n α} (keeps : Keeps related action)
    (shown : α → β) : Keeps related (do return shown (← action) : Action n β) :=
  .bind overlooks.trans keeps fun _ => keeps_pure overlooks _

/-- Receiving an operation changes the registry of the receiver. -/
theorem keeps_receive {index : Fin n} (serving : serves index) (operation : NodeOperation) :
    Keeps related (receive index operation) := by
  refine .bind overlooks.trans (fun world => ?_) fun _ => ?_
  · exact overlooks.registry world index _ serving
  · exact .bind overlooks.trans (keeps_look overlooks index) fun member =>
      keeps_pure overlooks member.nodes

/-- An outsider records what it was sent, whatever it answers. -/
theorem keeps_consult (peer : String) (outsider : Nat) (received : Received) :
    Keeps related (consult peer outsider received : Action n (List Node)) := by
  intro world
  simp only [consult, run_bind, run_get]
  cases world.network.outsiders[outsider]? with
  | none => exact overlooks.refl world
  | some scripted =>
    simp only [run_bind, run_set]
    have recorded := overlooks.network world world.network.fates
      (world.network.outsiders.set outsider (scripted.answer received).2)
    refine overlooks.trans _ _ _ recorded ?_
    cases (scripted.answer received).1 with
    | none => exact keeps_fail overlooks _ _
    | some reply => exact keeps_found overlooks _ _

theorem keeps_relay {α : Type} (peer : String) {answer : Action n α}
    (keeps : Keeps related answer) : Keeps related (relay peer answer) := by
  refine .tryCatch overlooks.trans keeps fun halt => ?_
  cases halt with
  | failed error => exact keeps_fail overlooks _
  | stalled => exact keeps_throw overlooks _

theorem keeps_unseen {α : Type} (peer : String) {answer : Action n α}
    (keeps : Keeps related answer) : Keeps related (unseen peer answer) := by
  refine .tryCatch overlooks.trans ?_ fun halt => ?_
  · exact .bind overlooks.trans keeps fun _ => keeps_fail overlooks _
  · cases halt with
    | failed error => exact keeps_fail overlooks _
    | stalled => exact keeps_throw overlooks _

/-- Contacting a peer is respected if serving by any member but the one that waits
is. -/
theorem keeps_contact {waiting : Option (Fin n)} {serve : Serve n}
    (keeps : ∀ index asked, waiting ≠ some index → Keeps related (serve index asked))
    (peer : String) (delivery : Delivery) (operation : NodeOperation) :
    Keeps related (contact waiting serve peer delivery operation) := by
  refine .bind overlooks.trans (.of_run overlooks.refl run_get) fun world => ?_
  cases world.network.reach peer with
  | none => exact keeps_fail overlooks _
  | some reached =>
    obtain ⟨owner, target⟩ := reached
    cases owner with
    | outsider outsider => exact keeps_consult overlooks peer outsider _
    | member index =>
      simp only []
      cases Http.PeerEndpoint.accept "POST" (target.asking delivery) operation.isTooLong with
      | error response => exact keeps_fail overlooks _
      | ok asked =>
        simp only []
        split
        · exact keeps_throw overlooks _
        next free => exact keeps_relay overlooks peer (keeps index asked free)

/-- The fate of an exchange decides whether it is carried out and seen. -/
theorem keeps_exchange {waiting : Option (Fin n)} {serve : Serve n}
    (keeps : ∀ index asked, waiting ≠ some index → Keeps related (serve index asked))
    (peer : String) (delivery : Delivery) (operation : NodeOperation) :
    Keeps related (exchange waiting serve peer delivery operation) := by
  have carried := keeps_contact overlooks keeps peer delivery operation
  refine .bind overlooks.trans (fun world => ?_) fun fate => ?_
  · exact overlooks.network world world.network.fates.advance world.network.outsiders
  · cases fate with
    | delivered => exact carried
    | requestLost => exact keeps_fail overlooks _
    | replyLost => exact keeps_unseen overlooks peer carried

section Sending

variable {waiting : Option (Fin n)} (free : ∀ index, waiting ≠ some index → serves index)
include free

theorem keeps_sendTerminal (peer : String) (operation : NodeOperation) :
    Keeps related (sendTerminal waiting peer operation) :=
  keeps_exchange overlooks
    (fun index _ apart => keeps_receive overlooks (free index apart) operation)
    peer .terminal operation

/-- An announcement is a sequence of terminal deliveries, up to the first that
fails. -/
theorem keeps_announce (operation : NodeOperation) (selfId : Option String) (nodes : List Node) :
    Keeps related (announce waiting operation selfId nodes) := by
  induction nodes with
  | nil => exact keeps_pure overlooks _
  | cons node rest ih =>
    simp only [announce]
    split
    · split
      · exact ih
      · exact .bind overlooks.trans (keeps_sendTerminal overlooks free _ operation) fun _ => ih
    · exact ih

theorem keeps_handle {index : Fin n} (serving : serves index) (operation : NodeOperation)
    (delivery : Delivery) : Keeps related (handle waiting index operation delivery) := by
  have applied := keeps_receive overlooks serving operation
  simp only [handle]
  split
  · refine .bind overlooks.trans (keeps_look overlooks index) fun looked => ?_
    exact .bind overlooks.trans
      (keeps_announce overlooks free operation looked.nodeId looked.nodes) fun _ => applied
  · exact applied

theorem keeps_send (peer : String) (operation : NodeOperation) (delivery : Delivery) :
    Keeps related (send waiting peer operation delivery) :=
  keeps_exchange overlooks
    (fun index asked apart => keeps_handle overlooks free (free index apart) operation asked)
    peer delivery operation

end Sending

end Exchange

end SwarmManager.World
