import SwarmManager.Proofs.ComingBack

/-!
# What a failed request leaves

A request may fail early or late: before anything was done, after an endpoint was
opened, or when some peers already changed.  Whatever becomes of the peers, the
member itself is as before but for draws, and the same endpoints are open
(`Intact`).  So it is for every request (`intact_perform_failed`), unless an operation
that the member passes on comes back to it.
-/

namespace SwarmManager

set_option autoImplicit false

variable {n : Nat}

/-! ## Open sockets -/

namespace Network

/-- The endpoints on which somebody listens, and who. -/
def openSockets (network : Network n) : List (Socket n) := network.sockets.filter Socket.isOpen

theorem openSockets_opened (network : Network n) (endpoint : Endpoint) (owner : Owner n) :
    (network.opened endpoint owner).openSockets =
      network.openSockets ++ [⟨endpoint, owner, true⟩] := by
  simp only [openSockets, opened, List.filter_append]
  rfl

theorem openSockets_shut (network : Network n) (endpoint : Endpoint) :
    (network.shut endpoint).openSockets =
      network.openSockets.filter fun socket => socket.endpoint != endpoint := by
  simp only [openSockets, shut]
  induction network.sockets with
  | nil => rfl
  | cons socket rest ih =>
    by_cases here : socket.endpoint = endpoint
    · by_cases isOpen : socket.isOpen <;> simp [here, isOpen, ih]
    · by_cases isOpen : socket.isOpen <;> simp [here, isOpen, ih]

/-- Only what was shut is given up when the network settles. -/
theorem openSockets_settle (network earlier : Network n) :
    (network.settle earlier).openSockets = network.openSockets := by
  simp only [openSockets, settle, List.filter_filter]
  refine List.filter_congr fun socket _ => ?_
  cases socket.isOpen <;> rfl

/-- Shutting a free endpoint that was opened leaves the open sockets of before. -/
theorem openSockets_shut_opened {network : Network n} {endpoint : Endpoint} (owner : Owner n)
    (free : network.isTaken endpoint = false) :
    (network.openSockets ++ [Socket.mk endpoint owner true]).filter
      (fun socket => socket.endpoint != endpoint) = network.openSockets := by
  rw [List.filter_append, List.filter_cons_of_neg (by simp), List.filter_nil, List.append_nil]
  refine List.filter_eq_self.mpr fun socket present => ?_
  simpa using endpoint_ne_of_isTaken free (List.mem_of_mem_filter present)

/-- Endpoints that are shut still belong to their owners. -/
theorem exists_of_mem_shut {network : Network n} {endpoint : Endpoint} {socket : Socket n}
    (present : socket ∈ (network.shut endpoint).sockets) :
    ∃ earlier ∈ network.sockets,
      earlier.endpoint = socket.endpoint ∧ earlier.owner = socket.owner := by
  obtain ⟨earlier, known, rfl⟩ := List.mem_map.mp present
  refine ⟨earlier, known, ?_⟩
  split <;> exact ⟨rfl, rfl⟩

/-- Whom an address reaches is up to the system and the open sockets. -/
theorem reach_eq_of_openSockets {one other : Network n} (system : one.system = other.system)
    (same : one.openSockets = other.openSockets) (address : String) :
    one.reach address = other.reach address := by
  have searched (network : Network n) (suits : Endpoint → Bool) :
      (network.sockets.find? fun socket => socket.isOpen && suits socket.endpoint) =
        network.openSockets.find? fun socket => suits socket.endpoint := by
    rw [Network.openSockets, List.find?_filter]
    simp only [Bool.decide_and, Bool.decide_eq_true]
  have located : one.locate address = other.locate address := by simp only [locate, system]
  simp only [reach, located]
  cases other.locate address with
  | none => rfl
  | some place =>
    obtain ⟨called, target⟩ := place
    simp only [Option.bind_eq_bind, Option.bind_some]
    rw [searched one (·.takes called), searched other (·.takes called), same]

end Network

namespace World

/-! ## What a failure leaves -/

/-- A member is as before, but for draws, and so are the open sockets. -/
structure Intact (index : Fin n) (before after : World n) : Prop where
  member_eq : ∃ count, after.member index = (before.member index).drew count
  openSockets_eq : after.network.openSockets = before.network.openSockets

namespace Intact

variable {index : Fin n}

theorem refl (world : World n) : Intact index world world := ⟨⟨0, rfl⟩, rfl⟩

theorem trans (first second third : World n) (early : Intact index first second)
    (late : Intact index second third) : Intact index first third := by
  obtain ⟨⟨earlier, one⟩, before⟩ := early
  obtain ⟨⟨later, two⟩, after⟩ := late
  exact ⟨⟨earlier + later, by rw [two, one, Member.drew_drew]⟩, after.trans before⟩

/-- A member may draw. -/
theorem drew (world : World n) (count : Nat) :
    Intact index world (world.setMember index ((world.member index).drew count)) :=
  ⟨⟨count, member_setMember_self _ _ _⟩, rfl⟩

theorem settle {before after : World n} (intact : Intact index before after) :
    Intact index before { after with network := after.network.settle before.network } :=
  ⟨intact.member_eq, (Network.openSockets_settle _ _).trans intact.openSockets_eq⟩

end Intact

/-- What is sent to other members leaves a member intact. -/
theorem overlooks_intact (index : Fin n) : Overlooks (Intact index) (· ≠ index) where
  refl := Intact.refl
  trans := Intact.trans
  network _ _ _ := ⟨⟨0, rfl⟩, rfl⟩
  registry world _ _ apart :=
    ⟨⟨0, member_setMember_of_ne world (Ne.symm apart) _⟩, rfl⟩

/-- A member that waits serves nobody. -/
theorem ne_of_waiting {index : Fin n} (other : Fin n) (free : some index ≠ some other) :
    other ≠ index := by
  rintro rfl
  exact free rfl

theorem intact_announce (world : World n) (index : Fin n) (operation : NodeOperation)
    (selfId : Option String) (nodes : List Node) :
    Intact index world ((announce (some index) operation selfId nodes).run.run world).2 :=
  keeps_announce (overlooks_intact index) ne_of_waiting operation selfId nodes world

/-! ## Entering a swarm -/

variable {index : Fin n} {world after : World n} {error : Error}

theorem intact_initCluster_failed {address advertise : String}
    (failed : (initCluster index address advertise).run.run world =
      (.error (.failed error), after)) : Intact index world after := by
  rw [run_initCluster] at failed
  split at failed
  · cases failed
    exact .refl world
  · split at failed
    · cases failed
      exact .refl world
    · cases failed

/-- Of a join that failed after listening, only draws are left. -/
theorem intact_joinCluster_failed {remotes : List String} {address advertise : String}
    (failed : (joinCluster index remotes address advertise).run.run world =
      (.error (.failed error), after)) : Intact index world after := by
  rw [run_joinCluster] at failed
  split at failed
  · cases failed
    exact .refl world
  split at failed
  · cases failed
    exact .refl world
  next remote _ =>
  split at failed
  · cases failed
    exact .refl world
  next endpoint network listened =>
  have sent := keeps_send (overlooks_intact index) ne_of_waiting remote
    (.add ((world.member index).asNode advertise endpoint false))
    .propagate (world.listening index network)
  dsimp only at failed
  split at failed
  next => cases failed
  next refused next run =>
    rw [run] at sent
    cases failed
    obtain ⟨⟨count, same⟩, sockets⟩ := sent
    obtain ⟨free, portsChosen, rfl⟩ := Network.listen_eq_ok listened
    refine ⟨⟨1 + count, ?_⟩, ?_⟩
    · rw [listening, member_setMember_self, Member.drew_drew] at same
      exact same
    · -- The endpoint was free, so shutting it again takes nothing away from others.
      have opened : (next.network).openSockets =
          world.network.openSockets ++ [⟨endpoint, .member index, true⟩] :=
        sockets.trans (Network.openSockets_opened world.network endpoint (.member index))
      rw [Network.openSockets_shut, opened]
      exact Network.openSockets_shut_opened _ free
  next => cases failed

theorem intact_leaveCluster_failed
    (failed : (leaveCluster index).run.run world = (.error (.failed error), after)) :
    Intact index world after := by
  rw [run_leaveCluster] at failed
  split at failed
  · cases failed
  · cases failed
    exact .refl world

/-! ## Changing nodes -/

/-- A member applies what it spreads last, so it is intact if an exchange fails. -/
theorem intact_spread_failed {operation : NodeOperation} {halt : Halt}
    (failed : (spread index operation).run.run world = (.error halt, after)) :
    Intact index world after := by
  have announced := intact_announce world index operation (world.member index).nodeId
    (world.member index).nodes
  rw [run_spread] at failed
  split at failed
  next => cases failed
  next run =>
    rw [run] at announced
    cases failed
    exact announced

theorem intact_updateNode_failed {id : String} {spec : NodeSpec}
    (failed : (updateNode index id spec).run.run world = (.error (.failed error), after)) :
    Intact index world after := by
  rw [run_updateNode] at failed
  split at failed
  · cases failed
    exact .refl world
  · dsimp only at failed
    split at failed
    next => cases failed
    next run =>
      cases failed
      exact .trans _ _ _ (.drew world 1) (intact_spread_failed run)

theorem intact_deleteNode_failed {id : String}
    (failed : (deleteNode index id).run.run world = (.error (.failed error), after)) :
    Intact index world after := by
  rw [run_deleteNode] at failed
  split at failed
  · cases failed
    exact .refl world
  · exact intact_spread_failed failed

/-! ## Passing an operation on -/

/-- A member that is sent an operation applies it last, unless passing it on comes
back. -/
theorem intact_handle_failed {operation : NodeOperation} {delivery : Delivery}
    (away : delivery = .propagate → ¬ world.comesBack index operation)
    (failed : (handle none index operation delivery).run.run world =
      (.error (.failed error), after)) : Intact index world after := by
  simp only [handle] at failed
  split at failed
  next passedOn =>
    have announced := intact_announce world index operation (world.member index).nodeId
      (world.member index).nodes
    -- What does not come back runs as if the member served nobody in the meantime.
    rw [← alike_announce operation _ _ world (away passedOn)] at announced
    simp only [run_bind, run_look, run_receive] at failed
    split at failed
    next => cases failed
    next run =>
      cases failed
      rw [run] at announced
      exact announced
  next =>
    rw [run_receive] at failed
    cases failed

/-! ## All requests -/

/-- What fails with an answer to be shown fails without it. -/
theorem run_answer_failed {α β : Type} {action : Action n α} {shown : α → β} {halt : Halt}
    (failed : (do return shown (← action) : Action n β).run.run world = (.error halt, after)) :
    action.run.run world = (.error halt, after) := by
  rw [run_answer] at failed
  rcases run : action.run.run world with ⟨failure | value, next⟩
  · rw [run] at failed
    cases failed
    rfl
  · rw [run] at failed
    cases failed

/-- A member that fails at something by itself is in the state in which it failed. -/
theorem intact_act_failed {α : Type} {action : Member.Action α}
    (drew : ∀ {error member}, action.run.run (world.member index) = (.error error, member) →
      ∃ count, member = (world.member index).drew count)
    (failed : (act index action).run.run world = (.error (.failed error), after)) :
    Intact index world after := by
  rw [run_act] at failed
  rcases run : action.run.run (world.member index) with ⟨failure | value, member⟩
  · rw [run] at failed
    cases failed
    obtain ⟨count, rfl⟩ := drew run
    exact .drew world count
  · rw [run] at failed
    cases failed

theorem intact_perform_failed {command : Command} (away : ¬ world.CallsBack index command)
    (failed : (perform index command).run.run world = (.error (.failed error), after)) :
    Intact index world after := by
  have overlooks := overlooks_intact index
  have ofKeeps : ∀ {α : Type} {action : Action n α}, Keeps (Intact index) action →
      action.run.run world = (.error (.failed error), after) → Intact index world after := by
    intro α action keeps run
    have kept := keeps world
    rw [run] at kept
    exact kept
  cases command with
  | initCluster listen advertise => exact intact_initCluster_failed (run_answer_failed failed)
  | joinCluster remotes listen advertise =>
    exact intact_joinCluster_failed (run_answer_failed failed)
  | leaveCluster => exact intact_leaveCluster_failed (run_answer_failed failed)
  | updateNode id spec => exact intact_updateNode_failed (run_answer_failed failed)
  | deleteNode id => exact intact_deleteNode_failed (run_answer_failed failed)
  | handleOperation operation delivery =>
    refine intact_handle_failed ?_ (run_answer_failed failed)
    rintro rfl
    exact away
  | createService spec =>
    refine intact_act_failed ?_ (run_answer_failed failed)
    intro refused member run
    rcases Member.run_createService (world.member index) spec with
      ⟨_, count, _, fails⟩ | ⟨_, _, _, _, _, succeeds⟩
    · exact ⟨count, (Prod.mk.inj (run.symm.trans fails)).2⟩
    · cases run.symm.trans succeeds
  | updateService asked spec =>
    refine intact_act_failed ?_ (run_answer_failed failed)
    intro refused member run
    rcases Member.run_updateService (world.member index) asked spec with
      ⟨_, count, _, fails⟩ | ⟨_, _, _, _, _, succeeds⟩
    · exact ⟨count, (Prod.mk.inj (run.symm.trans fails)).2⟩
    · cases run.symm.trans succeeds
  | deleteService asked =>
    refine intact_act_failed ?_ (run_answer_failed failed)
    intro refused member run
    rcases Member.run_deleteService (world.member index) asked with ⟨_, fails⟩ | ⟨_, _, _, succeeds⟩
    · exact ⟨0, (Prod.mk.inj (run.symm.trans fails)).2⟩
    · cases run.symm.trans succeeds
  | inspectSwarm => exact ofKeeps (keeps_lookUp overlooks index Member.inspectSwarm _) failed
  | inspectNode id =>
    exact ofKeeps (keeps_lookUp overlooks index (Member.inspectNode · id) _) failed
  | listNodes => exact ofKeeps (keeps_lookUp overlooks index Member.listNodes _) failed
  | inspectService asked =>
    exact ofKeeps (keeps_lookUp overlooks index (Member.inspectService · asked) _) failed
  | listServices filters =>
    exact ofKeeps (keeps_lookUp overlooks index (Member.listServices · filters) _) failed
  | inspectTask id =>
    exact ofKeeps (keeps_lookUp overlooks index (Member.inspectTask · id) _) failed
  | listTasks filters =>
    exact ofKeeps (keeps_lookUp overlooks index (Member.listTasks · filters) _) failed
  | inspectInstance asked =>
    exact ofKeeps (keeps_lookUp overlooks index (Member.inspectInstance · asked) _) failed
  | nodeId | peerAddress | listInstances =>
    exact ofKeeps (keeps_answer overlooks (keeps_look overlooks index) _) failed

end World

end SwarmManager
