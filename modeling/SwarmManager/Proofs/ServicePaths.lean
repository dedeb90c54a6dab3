import SwarmManager.Http.Api
import SwarmManager.Proofs.Refusals
import SwarmManager.Proofs.Separation
import Mathlib.Data.List.TakeWhile

/-!
# Services by their paths

Clients reach a service over HTTP by its identifier or its name, written as one segment of a
path.  A name may hold any character, so it is escaped, and whatever segment decodes to it
(`Spells`) will do.  Such a request is answered as the member answers the command itself, and
leaves the same world (`Carries`).

One segment leads elsewhere: `create` names the route that creates services, which is for `POST`
only.  A service of this name is not reached by the segment as it is
(`service_named_create`), though by a path that goes on after it, or by another spelling.
-/

namespace SwarmManager.Http

set_option autoImplicit false

/-! ## Paths -/

/-- A segment of a path stands for a text. -/
structure Spells (segment text : String) : Prop where
  whole : '/' ∉ segment.toList
  decoded : Percent.decodeSegment? segment = some text

/-- Every text is written as a segment. -/
theorem spells_encodeSegment (text : String) : Spells (Percent.encodeSegment text) text where
  whole slash := by
    obtain ⟨byte, written, same⟩ := Percent.exists_byte_of_mem_encodeSegment slash
    exact Percent.of_each_byte
      (fun byte => Percent.isWritten byte → '/' ≠ Char.ofNat byte.toNat) (by decide +kernel) byte
      written same
  decoded := Percent.decodeSegment?_encodeSegment text

/-- Only one text is written `create`. -/
theorem encodeSegment_eq_create {text : String} :
    Percent.encodeSegment text = "create" ↔ text = "create" := by
  have same : Percent.encodeSegment "create" = "create" := by decide +kernel
  constructor
  · intro written
    exact Percent.encodeSegment_inj (written.trans same.symm)
  · rintro rfl
    exact same

namespace Spells

variable {segment text : String} (spells : Spells segment text)
include spells

theorem ne_empty (given : text ≠ "") : segment ≠ "" := by
  rintro rfl
  have empty : Percent.decodeSegment? "" = some "" := by decide +kernel
  exact given (Option.some.inj (spells.decoded.symm.trans empty))

/-- The segments of a path to a service, and of what follows it. -/
theorem splitAll_path :
    Text.splitAll '/' ("services/" ++ segment).toList =
        ["services".toList, segment.toList] ∧
      Text.splitAll '/' ("services/" ++ segment ++ "/update").toList =
        ["services".toList, segment.toList, "update".toList] := by
  have start : "services/".toList = "services".toList ++ ['/'] := rfl
  have ending : "/update".toList = '/' :: "update".toList := rfl
  constructor
  · rw [String.toList_append, start, List.append_assoc, List.singleton_append,
      Text.splitAll_append (by decide), Text.splitAll_of_notMem spells.whole]
  · rw [String.toList_append, String.toList_append, start, ending, List.append_assoc,
      List.append_assoc, List.singleton_append, Text.splitAll_append (by decide),
      Text.splitAll_append spells.whole, Text.splitAll_of_notMem (by decide)]

theorem ofPath_service (given : text ≠ "") (other : segment ≠ "create") :
    Route.ofPath ("/services/" ++ segment) = some (.service segment) := by
  have path : ("/services/" ++ segment).toList = '/' :: ("services/" ++ segment).toList := by
    simp [String.toList_append]
  rw [Route.ofPath, path]
  simp only [spells.splitAll_path.1, List.map_cons, List.map_nil, String.ofList_toList,
    Route.ofSegments, Route.ending, String.isEmpty_iff, spells.ne_empty given]
  rfl

theorem ofPath_serviceUpdate :
    Route.ofPath ("/services/" ++ segment ++ "/update") = some (.serviceUpdate segment) := by
  have path : ("/services/" ++ segment ++ "/update").toList =
      '/' :: ("services/" ++ segment ++ "/update").toList := by
    simp [String.toList_append]
  rw [Route.ofPath, path]
  simp only [spells.splitAll_path.2, List.map_cons, List.map_nil, String.ofList_toList,
    Route.ofSegments]

end Spells

/-! ## Targets -/

/-- A path of characters that may stand there is a target without a query. -/
theorem ofText?_path {path : String} (rooted : ∃ rest, path.toList = '/' :: rest)
    (short : path.utf8ByteSize ≤ Target.maxLength)
    (fitting : ∀ character ∈ path.toList, Target.isPathCharacter character) :
    Target.ofText? path = some ⟨path, ""⟩ := by
  obtain ⟨rest, rooted⟩ := rooted
  have notEnd : ∀ ending, Target.isPathCharacter ending = false →
      ∀ character ∈ '/' :: rest, (character != ending) = true := by
    intro ending unfit character listed
    refine bne_iff_ne.mpr ?_
    rintro rfl
    rw [fitting character (rooted ▸ listed)] at unfit
    cases unfit
  have whole : ('/' :: rest).takeWhile (· != '#') = '/' :: rest :=
    List.takeWhile_eq_self_iff.mpr (notEnd '#' (by decide))
  have all : ('/' :: rest).takeWhile (· != '?') = '/' :: rest :=
    List.takeWhile_eq_self_iff.mpr (notEnd '?' (by decide))
  have none : ('/' :: rest).dropWhile (· != '?') = [] :=
    List.dropWhile_eq_nil_iff.mpr (notEnd '?' (by decide))
  have fit : ('/' :: rest).all Target.isPathCharacter :=
    List.all_eq_true.mpr (rooted ▸ fitting)
  have text : String.ofList ('/' :: rest) = path := by rw [← rooted, String.ofList_toList]
  rw [Target.ofText?, if_neg (Nat.not_lt.mpr short), rooted]
  change Target.ofPathAndQuery? ('/' :: rest) = _
  rw [Target.ofPathAndQuery?, whole, all, none, fit, text]
  rfl

/-- The characters of a written segment may stand in a path. -/
theorem isPathCharacter_of_mem_encodeSegment {text : String} {character : Char}
    (listed : character ∈ (Percent.encodeSegment text).toList) :
    Target.isPathCharacter character := by
  obtain ⟨byte, written, rfl⟩ := Percent.exists_byte_of_mem_encodeSegment listed
  exact Percent.of_each_byte
    (fun byte => Percent.isWritten byte → Target.isPathCharacter (Char.ofNat byte.toNat))
    (by decide +kernel) byte written

/-- The paths to a service are targets, unless they are too long. -/
theorem ofText?_servicePath (text : String) {ending : String}
    (fitting : ∀ character ∈ ending.toList, Target.isPathCharacter character)
    (short : ("/services/" ++ Percent.encodeSegment text ++ ending).utf8ByteSize ≤
      Target.maxLength) :
    Target.ofText? ("/services/" ++ Percent.encodeSegment text ++ ending) =
      some ⟨"/services/" ++ Percent.encodeSegment text ++ ending, ""⟩ := by
  have parts : ("/services/" ++ Percent.encodeSegment text ++ ending).toList =
      "/services/".toList ++ ((Percent.encodeSegment text).toList ++ ending.toList) := by
    simp only [String.toList_append, List.append_assoc]
  refine ofText?_path ⟨_, parts⟩ short fun character listed => ?_
  rw [parts] at listed
  rcases List.mem_append.mp listed with start | later
  · have each : "/services/".toList.all Target.isPathCharacter := by decide +kernel
    exact List.all_eq_true.mp each character start
  rcases List.mem_append.mp later with inside | last
  · exact isPathCharacter_of_mem_encodeSegment inside
  · exact fitting character last

/-! ## Meanings -/

section Meaning

variable {segment asked : String} (spells : Spells segment asked) (query : String)
  (body : ByteArray)
include spells

theorem ofRequest_inspect (given : asked ≠ "") (other : segment ≠ "create") :
    Meaning.ofRequest ⟨"GET", ⟨"/services/" ++ segment, query⟩, body⟩ =
      .command (.inspectService asked) := by
  simp only [Meaning.ofRequest, spells.ofPath_service given other, Meaning.ofRoute, Meaning.withId,
    spells.decoded]
  rfl

theorem ofRequest_delete (given : asked ≠ "") (other : segment ≠ "create") :
    Meaning.ofRequest ⟨"DELETE", ⟨"/services/" ++ segment, query⟩, body⟩ =
      .command (.deleteService asked) := by
  simp only [Meaning.ofRequest, spells.ofPath_service given other, Meaning.ofRoute, Meaning.withId,
    spells.decoded]
  rfl

theorem ofRequest_update :
    let request : Request := ⟨"POST", ⟨"/services/" ++ segment ++ "/update", query⟩, body⟩
    Meaning.ofRequest request =
      Meaning.withBody ServiceSpec.codec request fun spec =>
        .command (.updateService asked spec) := by
  simp only [Meaning.ofRequest, spells.ofPath_serviceUpdate, Meaning.ofRoute, Meaning.withId,
    spells.decoded]
  rfl

/-- A body that is too long is refused before anything is carried out. -/
theorem ofRequest_tooLong (long : maxBody < body.size) :
    Meaning.ofRequest ⟨"POST", ⟨"/services/" ++ segment ++ "/update", query⟩, body⟩ =
      .response .tooLong := by
  have meaning := ofRequest_update spells query body
  simpa only [Meaning.withBody, Meaning.withBytes, if_pos long] using meaning

end Meaning

/-- The route that creates services is not for looking at one or removing it. -/
theorem ofRequest_create (query : String) (body : ByteArray) {method : String}
    (asks : method = "GET" ∨ method = "DELETE") :
    Meaning.ofRequest ⟨method, ⟨"/services/create", query⟩, body⟩ = .response (.bare 405) := by
  have route : Route.ofPath "/services/create" = some .serviceCreate := by decide +kernel
  simp only [Meaning.ofRequest, route]
  rcases asks with rfl | rfl <;> rfl

/-! ## Carrying out -/

variable {n : Nat} (world : World n) (index : Fin n)

/-- The response to a command, from how it ended. -/
def Response.ofEnd : Except Halt Answer → Except Halt Response
  | .ok answer => .ok (.ofAnswer answer)
  | .error (.failed error) => .ok (.ofError error)
  | .error .stalled => .error .stalled

/-- A request that stands for a command carries it out. -/
theorem step_answer {request : Request} {command : Command}
    (meaning : Meaning.ofRequest request = .command command) (method : request.method ≠ "HEAD") :
    world.step (answer index request) =
      (Response.ofEnd (world.step (World.perform index command)).1,
        (world.step (World.perform index command)).2) := by
  simp only [World.step, answer, meaning, answerMeaning, respond, run_bind, run_tryCatch,
    if_neg method]
  rcases (World.perform index command).run.run world with ⟨(error | _) | answer, after⟩ <;> rfl

/-- A request is answered as a command ends, with status 200 and what it answers or with the status
and the text of its error, and leaves the same world. -/
structure Carries (request : Request) (command : Command) : Prop where
  ends : (world.step (World.perform index command)).1 ≠ .error .stalled
  succeeds : ∀ answer, (world.step (World.perform index command)).1 = .ok answer →
    (world.step (Http.answer index request)).1 = .ok (.ofAnswer answer)
  fails : ∀ error, (world.step (World.perform index command)).1 = .error (.failed error) →
    (world.step (Http.answer index request)).1 = .ok (.ofError error)
  leaves : (world.step (Http.answer index request)).2 =
    (world.step (World.perform index command)).2

theorem carries_of_meaning {request : Request} {command : Command}
    (meaning : Meaning.ofRequest request = .command command) (method : request.method ≠ "HEAD")
    (ends : (world.step (World.perform index command)).1 ≠ .error .stalled) :
    Carries world index request command := by
  have answered := step_answer world index meaning method
  refine ⟨ends, fun answer ended => ?_, fun error ended => ?_, by rw [answered]⟩ <;>
    rw [answered, ended] <;> rfl

/-- A request that is answered at once changes no member. -/
theorem step_refused {request : Request} {response : Response}
    (meaning : Meaning.ofRequest request = .response response) (method : request.method ≠ "HEAD") :
    (world.step (answer index request)).1 = .ok response ∧
      ∀ probe, (world.step (answer index request)).2.member probe = world.member probe := by
  have run : (answer index request).run.run world = (.ok response, world) := by
    simp only [answer, meaning, answerMeaning, run_bind, run_pure, if_neg method]
  constructor
  · rw [World.step, run]
  · intro probe
    rw [World.member_step, run]

/-- What a member only looks up does not stall. -/
theorem step_view_ne_stalled {α : Type} (view : Member → Except Error α) (shown : α → Answer) :
    (world.step (do return shown (← World.found (view (← World.look index))) :
      World.Action n Answer)).1 ≠ .error .stalled := by
  rw [World.outcome_view]
  cases view (world.member index) <;> simp [Except.map, Except.mapError]

/-- What a member does by itself does not stall. -/
theorem step_act_ne_stalled {α : Type} (action : Member.Action α) (shown : α → Answer) :
    (world.step (do return shown (← World.act index action) : World.Action n Answer)).1 ≠
      .error .stalled := by
  rcases run : action.run.run (world.member index) with ⟨result, after⟩
  rw [(World.step_act shown run).1]
  cases result <;> simp [Except.map, Except.mapError]

section Service

variable {segment asked : String} (spells : Spells segment asked) (query : String)
  (body : ByteArray)
include spells

section Segment

variable (given : asked ≠ "") (other : segment ≠ "create")
include given other

theorem carries_inspect : Carries world index ⟨"GET", ⟨"/services/" ++ segment, query⟩, body⟩
    (.inspectService asked) := by
  refine carries_of_meaning world index (ofRequest_inspect spells query body given other)
    (by simp) ?_
  exact step_view_ne_stalled world index (Member.inspectService · asked) .service

theorem carries_delete : Carries world index ⟨"DELETE", ⟨"/services/" ++ segment, query⟩, body⟩
    (.deleteService asked) := by
  refine carries_of_meaning world index (ofRequest_delete spells query body given other)
    (by simp) ?_
  exact step_act_ne_stalled world index (Member.deleteService asked) fun _ => .done

end Segment

theorem carries_update {spec : ServiceSpec} (read : ServiceSpec.codec.ofBytes body = .ok spec)
    (short : body.size ≤ maxBody) :
    Carries world index ⟨"POST", ⟨"/services/" ++ segment ++ "/update", query⟩, body⟩
      (.updateService asked spec) := by
  have meaning := ofRequest_update spells query body
  simp only [Meaning.withBody, Meaning.withBytes, if_neg (Nat.not_lt.mpr short), read] at meaning
  refine carries_of_meaning world index meaning (by simp) ?_
  exact step_act_ne_stalled world index (Member.updateService asked spec) .service

end Service

/-- In a swarm whoever answers to what is asked is found and removed. -/
theorem registered_found (asked : String) {service : Service}
    (inSwarm : (world.member index).swarm.isSome)
    (registered : service ∈ (world.member index).services) (answers : service.answersTo asked) :
    ∃ found, ((world.member index).services.find? fun other => other.answersTo asked) = some found ∧
      (world.step (World.perform index (.inspectService asked))).1 = .ok (.service found) ∧
      (world.step (World.perform index (.deleteService asked))).1 = .ok .done := by
  have some : ((world.member index).services.find? fun other => other.answersTo asked).isSome :=
    List.find?_isSome.mpr ⟨service, registered, answers⟩
  obtain ⟨found, first⟩ := Option.isSome_iff_exists.mp some
  obtain ⟨place, located, _⟩ := Member.locateService_of_find? first
  exact ⟨found, first, World.step_inspectService inSwarm first,
    (World.step_act (fun _ => Answer.done) (Member.run_deleteService_located inSwarm located)).1⟩

end SwarmManager.Http

namespace SwarmManager

open Http

/-- **Services are reached by their paths.**  A path to a service ends in a segment that stands
for its identifier or its name, however that is spelled; every text has a spelling, which may
stand in a target.  `GET` and `DELETE` of such a path inspect and delete the service and `POST`
of the path that goes on with `update` updates it: the request is answered as the command ends
and leaves the same world.  So in a swarm every service that is registered is seen and removed.

Two things are refused: a body that is too long, and `GET` and `DELETE` of the segment `create`,
which names another route. -/
theorem services_reached_by_paths {n : Nat} (world : World n) (index : Fin n) (asked : String)
    (given : asked ≠ "") :
    (∀ segment, Spells segment asked → ∀ query body,
      let inspecting : Request := ⟨"GET", ⟨"/services/" ++ segment, query⟩, body⟩
      let deleting : Request := ⟨"DELETE", ⟨"/services/" ++ segment, query⟩, body⟩
      let updating : Request := ⟨"POST", ⟨"/services/" ++ segment ++ "/update", query⟩, body⟩
      (segment ≠ "create" → Carries world index inspecting (.inspectService asked) ∧
        Carries world index deleting (.deleteService asked) ∧
        ((world.member index).swarm.isSome → ∀ service ∈ (world.member index).services,
          service.answersTo asked → ∃ found,
            ((world.member index).services.find? fun other => other.answersTo asked) =
              some found ∧
            (world.step (Http.answer index inspecting)).1 =
              .ok (.ofValue (Service.codec.encode found)) ∧
            (world.step (Http.answer index deleting)).1 = .ok (.bare 200))) ∧
      (∀ spec, ServiceSpec.codec.ofBytes body = .ok spec → body.size ≤ maxBody →
        Carries world index updating (.updateService asked spec)) ∧
      (maxBody < body.size → (world.step (Http.answer index updating)).1 = .ok .tooLong ∧
        ∀ probe, (world.step (Http.answer index updating)).2.member probe = world.member probe)) ∧
    Spells (Percent.encodeSegment asked) asked ∧
    (Percent.encodeSegment asked = "create" ↔ asked = "create") ∧
    ∀ ending ∈ ["", "/update"],
      let path := "/services/" ++ Percent.encodeSegment asked ++ ending
      path.utf8ByteSize ≤ Target.maxLength → Target.ofText? path = some ⟨path, ""⟩ := by
  refine ⟨?_, spells_encodeSegment asked, encodeSegment_eq_create, ?_⟩
  · intro segment spells query body inspecting deleting updating
    refine ⟨fun other => ?_,
      fun spec read short => carries_update world index spells query body read short,
      fun long =>
        step_refused world index (ofRequest_tooLong spells query body long) (by simp [updating])⟩
    have inspects := carries_inspect world index spells query body given other
    have deletes := carries_delete world index spells query body given other
    refine ⟨inspects, deletes, fun inSwarm service registered answers => ?_⟩
    obtain ⟨found, first, inspected, deleted⟩ :=
      registered_found world index asked inSwarm registered answers
    exact ⟨found, first, inspects.succeeds _ inspected, deletes.succeeds _ deleted⟩
  · intro ending listed path short
    refine ofText?_servicePath asked ?_ short
    have each : ["", "/update"].all fun ending => ending.toList.all Target.isPathCharacter := by
      decide +kernel
    exact List.all_eq_true.mp (List.all_eq_true.mp each ending listed)

/-- A service whose name has to be escaped is inspected, deleted and updated by its name. -/
theorem services_reached_by_paths_namedForPaths :
    let world := World.twoMembers.after World.namedForPaths
    let name := "50% a/b?é"
    let segment := "50%25%20a%2Fb%3F%C3%A9"
    Percent.encodeSegment name = segment ∧
      (∃ found, ((world.member 0).services.find? fun other => other.answersTo name) = some found ∧
        found.spec.name = name ∧
        (world.step (Http.answer 0 ⟨"GET", ⟨"/services/" ++ segment, ""⟩, .empty⟩)).1 =
          .ok (.ofValue (Service.codec.encode found)) ∧
        (world.step (Http.answer 0 ⟨"DELETE", ⟨"/services/" ++ segment, ""⟩, .empty⟩)).1 =
          .ok (.bare 200)) ∧
      Carries world 0 ⟨"POST", ⟨"/services/" ++ segment ++ "/update", ""⟩, "\x7b\x7d".toUTF8⟩
        (.updateService name {}) := by
  intro world name segment
  have spelled : Percent.encodeSegment name = segment := by decide +kernel
  obtain ⟨spellings, spells, _⟩ := services_reached_by_paths world 0 name (by decide)
  rw [spelled] at spells
  obtain ⟨service, registered, named⟩ : ∃ service ∈ (world.member 0).services,
      service.spec.name = name := by decide +kernel
  have only : ∀ service ∈ (world.member 0).services, service.answersTo name →
      service.spec.name = name := by decide +kernel
  refine ⟨spelled, ?_, ?_⟩
  · obtain ⟨reaches, _⟩ := spellings segment spells "" .empty
    obtain ⟨_, _, reached⟩ := reaches (by decide)
    obtain ⟨found, first, inspected, deleted⟩ :=
      reached (by decide +kernel) service registered (by simp [Service.answersTo, named])
    have answers := List.find?_some (p := fun other : Service => other.answersTo name) first
    exact ⟨found, first, only found (List.mem_of_find?_eq_some first) answers, inspected, deleted⟩
  · obtain ⟨_, updates, _⟩ := spellings segment spells "" "\x7b\x7d".toUTF8
    exact updates {} (by decide +kernel) (by decide +kernel)

/-- A service named `create` is found by its name, but `GET` and `DELETE` of the path with its
name are refused. -/
theorem service_named_create :
    let world := World.twoMembers.after World.namedForPaths
    let inspecting : Request := ⟨"GET", ⟨"/services/create", ""⟩, .empty⟩
    let deleting : Request := ⟨"DELETE", ⟨"/services/create", ""⟩, .empty⟩
    Percent.encodeSegment "create" = "create" ∧
      (∃ service ∈ (world.member 0).services, service.spec.name = "create" ∧
        (world.step (World.perform 0 (.inspectService "create"))).1 = .ok (.service service)) ∧
      (world.step (Http.answer 0 inspecting)).1 = .ok (.bare 405) ∧
      (world.step (World.perform 0 (.deleteService "create"))).1 = .ok .done ∧
      (world.step (Http.answer 0 deleting)).1 = .ok (.bare 405) ∧
      ((world.step (Http.answer 0 deleting)).2.member 0).services = (world.member 0).services ∧
      ¬ Carries world 0 inspecting (.inspectService "create") ∧
      ¬ Carries world 0 deleting (.deleteService "create") := by
  intro world inspecting deleting
  obtain ⟨service, registered, named⟩ : ∃ service ∈ (world.member 0).services,
      service.spec.name = "create" := by decide +kernel
  have only : ∀ service ∈ (world.member 0).services, service.answersTo "create" →
      service.spec.name = "create" := by decide +kernel
  obtain ⟨found, first, inspected, deleted⟩ := registered_found world 0 "create" (by decide +kernel)
    registered (by simp [Service.answersTo, named])
  have listed := List.mem_of_find?_eq_some first
  have answers := List.find?_some (p := fun other : Service => other.answersTo "create") first
  have inspectRefused := step_refused world 0 (ofRequest_create "" .empty (.inl rfl)) (by simp)
  have deleteRefused := step_refused world 0 (ofRequest_create "" .empty (.inr rfl)) (by simp)
  refine ⟨by decide +kernel, ⟨found, listed, only found listed answers, inspected⟩,
    inspectRefused.1, deleted, deleteRefused.1, by rw [deleteRefused.2 0], ?_, ?_⟩
  · intro carries
    cases (carries.succeeds _ inspected).symm.trans inspectRefused.1
  · intro carries
    cases (carries.succeeds _ deleted).symm.trans deleteRefused.1

end SwarmManager
