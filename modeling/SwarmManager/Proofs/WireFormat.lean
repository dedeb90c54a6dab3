import SwarmManager.Http.Bodies
import SwarmManager.Instance.Codec
import SwarmManager.Membership.Operation
import SwarmManager.Proofs.Codecs
import SwarmManager.Proofs.Timestamps
import SwarmManager.Service.Codec
import SwarmManager.Swarm
import SwarmManager.Task.Codec

/-!
# The wire format

Whatever the members and their clients tell each other about nodes, services,
tasks, swarms and instances is read back as it was written:
`wire_format_loses_nothing`.

There is one lemma for each record, and its fields stand in it in the order of
the layout.  A record of other records uses the lemmas about those.
-/

namespace SwarmManager

set_option autoImplicit false

open Json (Codec Layout Field)

/-! ## Instants -/

theorem Instant.codec_faithful : Instant.codec.Faithful :=
  .through .string Rfc3339.read?_write

/-! ## Nodes -/

theorem NodeRole.codec_faithful : NodeRole.codec.Faithful :=
  .variants (by intro role; cases role <;> rfl)

theorem NodeState.codec_faithful : NodeState.codec.Faithful :=
  .variants (by intro state; cases state <;> rfl)

theorem NodeAvailability.codec_faithful : NodeAvailability.codec.Faithful :=
  .variants (by intro availability; cases availability <;> rfl)

theorem NodeSpec.codec_faithful : NodeSpec.codec.Faithful :=
  Layout.codec_faithful (by decide)
    (.field (.defaulted .string) <|
      .field (.defaulted (.map .string)) <|
      .field (.defaulted NodeRole.codec_faithful) <|
      .field (.defaulted NodeAvailability.codec_faithful) <|
      .done)
    (fun _ => rfl)

theorem Platform.codec_faithful : Platform.codec.Faithful :=
  Layout.codec_faithful (by decide)
    (.field (.required .string) <| .field (.required .string) .done)
    (fun _ => rfl)

theorem Resources.codec_faithful : Resources.codec.Faithful :=
  Layout.codec_faithful (by decide)
    (.field (.required .int64) <| .field (.required .int64) .done)
    (fun _ => rfl)

theorem NodeDescription.codec_faithful : NodeDescription.codec.Faithful :=
  Layout.codec_faithful (by decide)
    (.field (.required .string) <|
      .field (.required Platform.codec_faithful) <|
      .field (.required Resources.codec_faithful) <|
      .done)
    (fun _ => rfl)

theorem NodeStatus.codec_faithful : NodeStatus.codec.Faithful :=
  Layout.codec_faithful (by decide)
    (.field (.required NodeState.codec_faithful) <|
      .field (.defaulted .string) <|
      .field (.required .string) <|
      .done)
    (fun _ => rfl)

theorem ManagerStatus.codec_faithful : ManagerStatus.codec.Faithful :=
  Layout.codec_faithful (by decide)
    (.field (.required .bool) <| .field (.required .string) <| .field (.required .string) .done)
    (fun _ => rfl)

theorem Node.codec_faithful : Node.codec.Faithful :=
  Layout.codec_faithful (by decide)
    (.field (.required .string) <|
      .field (.required NodeSpec.codec_faithful) <|
      .field (.defaulted NodeDescription.codec_faithful) <|
      .field (.defaulted NodeStatus.codec_faithful) <|
      .field (.nullable ManagerStatus.codec_faithful (Layout.codec_solid _ _ _)) <|
      .field (.required Instant.codec_faithful) <|
      .field (.required Instant.codec_faithful) <|
      .done)
    (fun _ => rfl)

theorem NodeOpKind.codec_faithful : NodeOpKind.codec.Faithful :=
  .variants (by intro kind; cases kind <;> rfl)

theorem NodeOperation.codec_faithful : NodeOperation.codec.Faithful :=
  Layout.codec_faithful (by decide)
    (.field (.required NodeOpKind.codec_faithful) <|
      .field (.required Node.codec_faithful) .done)
    (fun _ => rfl)

/-! ## Services -/

theorem ContainerSpec.codec_faithful : ContainerSpec.codec.Faithful :=
  Layout.codec_faithful (by decide)
    (.field (.defaulted .string) <|
      .field (.defaulted (.map .string)) <|
      .field (.defaulted (.list .string)) <|
      .field (.defaulted (.list .string)) <|
      .field (.defaulted (.list .string)) <|
      .field (.optional .string nofun) <|
      .field (.optional .string nofun) <|
      .done)
    (fun _ => rfl)

theorem TaskSpec.codec_faithful : TaskSpec.codec.Faithful :=
  Layout.codec_faithful (by decide)
    (.field (.optional ContainerSpec.codec_faithful (Layout.codec_solid _ _ _)) .done)
    (fun _ => rfl)

theorem ReplicatedService.codec_faithful : ReplicatedService.codec.Faithful :=
  Layout.codec_faithful (by decide) (.field (.optional .uint64 nofun) .done)
    (fun _ => rfl)

theorem GlobalService.codec_faithful : GlobalService.codec.Faithful :=
  Layout.codec_faithful (by decide) .done (fun _ => rfl)

theorem ServiceMode.codec_faithful : ServiceMode.codec.Faithful :=
  Layout.codec_faithful (by decide)
    (.field (.optional ReplicatedService.codec_faithful (Layout.codec_solid _ _ _)) <|
      .field (.optional GlobalService.codec_faithful (Layout.codec_solid _ _ _)) .done)
    (fun _ => rfl)

theorem PortConfig.codec_faithful : PortConfig.codec.Faithful :=
  Layout.codec_faithful (by decide)
    (.field (.optional .string nofun) <|
      .field (.optional .string nofun) <|
      .field (.required .uint16) <|
      .field (.optional .uint16 nofun) <|
      .field (.optional .string nofun) <|
      .done)
    (fun _ => rfl)

theorem EndpointSpec.codec_faithful : EndpointSpec.codec.Faithful :=
  Layout.codec_faithful (by decide)
    (.field (.optional .string nofun) <|
      .field (.defaulted (.list PortConfig.codec_faithful)) .done)
    (fun _ => rfl)

theorem ServiceSpec.codec_faithful : ServiceSpec.codec.Faithful :=
  Layout.codec_faithful (by decide)
    (.field (.defaulted .string) <|
      .field (.defaulted (.map .string)) <|
      .field (.defaulted TaskSpec.codec_faithful) <|
      .field (.optional ServiceMode.codec_faithful (Layout.codec_solid _ _ _)) <|
      .field (.optional EndpointSpec.codec_faithful (Layout.codec_solid _ _ _)) <|
      .done)
    (fun _ => rfl)

theorem ServiceVersion.codec_faithful : ServiceVersion.codec.Faithful :=
  Layout.codec_faithful (by decide) (.field (.required .uint64) .done)
    (fun _ => rfl)

theorem Service.codec_faithful : Service.codec.Faithful :=
  Layout.codec_faithful (by decide)
    (.field (.required .string) <|
      .field (.required ServiceSpec.codec_faithful) <|
      .field (.required ServiceVersion.codec_faithful) <|
      .field (.required Instant.codec_faithful) <|
      .field (.required Instant.codec_faithful) <|
      .done)
    (fun _ => rfl)

/-! ## Tasks -/

theorem TaskState.codec_faithful : TaskState.codec.Faithful :=
  .variants (by intro state; cases state <;> rfl)

theorem ContainerStatus.codec_faithful : ContainerStatus.codec.Faithful :=
  Layout.codec_faithful (by decide) (.field (.required .string) .done)
    (fun _ => rfl)

theorem TaskStatus.codec_faithful : TaskStatus.codec.Faithful :=
  Layout.codec_faithful (by decide)
    (.field (.required Instant.codec_faithful) <|
      .field (.required TaskState.codec_faithful) <|
      .field (.defaulted .string) <|
      .field (.required ContainerStatus.codec_faithful) <|
      .done)
    (fun _ => rfl)

theorem Task.codec_faithful : Task.codec.Faithful :=
  Layout.codec_faithful (by decide)
    (.field (.required .string) <|
      .field (.required .string) <|
      .field (.required .string) <|
      .field (.optional .uint64 nofun) <|
      .field (.required TaskSpec.codec_faithful) <|
      .field (.required TaskStatus.codec_faithful) <|
      .field (.required TaskState.codec_faithful) <|
      .field (.required Instant.codec_faithful) <|
      .done)
    (fun _ => rfl)

/-! ## Swarms and requests -/

theorem JoinTokens.codec_faithful : JoinTokens.codec.Faithful :=
  Layout.codec_faithful (by decide)
    (.field (.required .string) <| .field (.required .string) .done)
    (fun _ => rfl)

theorem Swarm.codec_faithful : Swarm.codec.Faithful :=
  Layout.codec_faithful (by decide)
    (.field (.required .string) <|
      .field (.required JoinTokens.codec_faithful) <|
      .field (.required Instant.codec_faithful) <|
      .done)
    (fun _ => rfl)

theorem InitRequest.codec_faithful : InitRequest.codec.Faithful :=
  Layout.codec_faithful (by decide)
    (.field (.defaulted .string) <| .field (.defaulted .string) .done)
    (fun _ => rfl)

theorem JoinRequest.codec_faithful : JoinRequest.codec.Faithful :=
  Layout.codec_faithful (by decide)
    (.field (.defaulted .string) <|
      .field (.defaulted .string) <|
      .field (.defaulted (.list .string)) <|
      .field (.defaulted .string) <|
      .done)
    (fun _ => rfl)

/-! ## Instances -/

theorem ExposedPort.codec_faithful : ExposedPort.codec.Faithful :=
  Layout.codec_faithful (by decide) .done (fun _ => rfl)

theorem ContainerConfig.codec_faithful : ContainerConfig.codec.Faithful :=
  Layout.codec_faithful (by decide)
    (.field (.defaulted (.list .string)) <|
      .field (.defaulted (.list .string)) <|
      .field (.defaulted (.list .string)) <|
      .field (.defaulted (.map ExposedPort.codec_faithful)) <|
      .done)
    (fun _ => rfl)

theorem PortBinding.codec_faithful : PortBinding.codec.Faithful :=
  Layout.codec_faithful (by decide)
    (.field (.required .string) <| .field (.required .string) .done)
    (fun _ => rfl)

theorem HostConfig.codec_faithful : HostConfig.codec.Faithful :=
  Layout.codec_faithful (by decide)
    (.field (.defaulted (.map (.list PortBinding.codec_faithful))) .done)
    (fun _ => rfl)

theorem ContainerState.codec_faithful : ContainerState.codec.Faithful :=
  Layout.codec_faithful (by decide)
    (.field (.required .bool) <|
      .field (.required Instant.codec_faithful) <|
      .field (.required .uint32) <|
      .field (.required .int32) <|
      .done)
    (fun _ => rfl)

theorem ProcessInstance.codec_faithful : ProcessInstance.codec.Faithful :=
  Layout.codec_faithful (by decide)
    (.field (.required .string) <|
      .field (.required .string) <|
      .field (.required .string) <|
      .field (.required Instant.codec_faithful) <|
      .field (.required ContainerConfig.codec_faithful) <|
      .field (.required HostConfig.codec_faithful) <|
      .field (.required ContainerState.codec_faithful) <|
      .done)
    (fun _ => rfl)

/-! ## Everything on the wire -/

/-- The modes that name no number of tasks: no mode, one with neither member, one
that is replicated, and one that is global. -/
def ServiceMode.countless : List (Option ServiceMode) :=
  [none, some {}, some { replicated := some {} }, some { global := some {} }]

/-- **The wire format loses nothing.**  Every record is read back from its text as it was
written, in whatever order the members of objects stand; different records have
different texts; and what is read from any text can be written and read again.  In
particular a mode, an endpoint, a container and a manager status that are absent are
told from ones that are given and hold nothing. -/
theorem wire_format_loses_nothing :
    (NodeOperation.codec.LosesNothing ∧ Node.codec.LosesNothing ∧ NodeSpec.codec.LosesNothing ∧
      Service.codec.LosesNothing ∧ ServiceSpec.codec.LosesNothing ∧ Task.codec.LosesNothing ∧
      Swarm.codec.LosesNothing ∧ ProcessInstance.codec.LosesNothing ∧
      InitRequest.codec.LosesNothing ∧ JoinRequest.codec.LosesNothing) ∧
    (∀ spec : ServiceSpec, ServiceMode.countless.Pairwise fun left right =>
      ServiceSpec.codec.TellsApart { spec with mode := left } { spec with mode := right }) ∧
    (∀ (spec : ServiceSpec) (mode : Option String), ServiceSpec.codec.TellsApart
      { spec with endpointSpec := none } { spec with endpointSpec := some ⟨mode, []⟩ }) ∧
    (∀ spec : ServiceSpec, ServiceSpec.codec.TellsApart
      { spec with taskTemplate := ⟨none⟩ } { spec with taskTemplate := ⟨some {}⟩ }) ∧
    (∀ (node : Node) (status : ManagerStatus), Node.codec.TellsApart
      { node with managerStatus := none } { node with managerStatus := some status }) := by
  have specs := ServiceSpec.codec_faithful.losesNothing
  have nodes := Node.codec_faithful.losesNothing
  refine ⟨⟨NodeOperation.codec_faithful.losesNothing, nodes,
    NodeSpec.codec_faithful.losesNothing, Service.codec_faithful.losesNothing, specs,
    Task.codec_faithful.losesNothing, Swarm.codec_faithful.losesNothing,
    ProcessInstance.codec_faithful.losesNothing, InitRequest.codec_faithful.losesNothing,
    JoinRequest.codec_faithful.losesNothing⟩, ?_, ?_, ?_, ?_⟩
  · intro spec
    have distinct : ServiceMode.countless.Nodup := by decide
    refine distinct.imp fun different => specs.apart _ _ fun same => different ?_
    exact congrArg ServiceSpec.mode same
  · intro spec mode
    refine specs.apart _ _ fun same => ?_
    cases congrArg ServiceSpec.endpointSpec same
  · intro spec
    refine specs.apart _ _ fun same => ?_
    cases congrArg ServiceSpec.taskTemplate same
  · intro node status
    refine nodes.apart { node with managerStatus := none }
      { node with managerStatus := some status } fun same => ?_
    cases congrArg Node.managerStatus same

/-- The last half second of the year 2016, which lies in a leap second. -/
def Instant.leapSecond : Instant :=
  ⟨⟨2016, 12, 31, by decide, by decide⟩,
    ⟨23, 59, 59, 1500000000, by decide, by decide, by decide, by decide, by decide⟩, by decide⟩

/-- A node that is no manager, was created in a leap second, and is labelled with a
quote, a line break and a control character. -/
def Node.createdInLeapSecond : Node where
  id := "n1"
  spec := { labels := StringMap.empty.insert "a\"b" "\n\x01" }
  description := {}
  status := {}
  managerStatus := none
  createdAt := .leapSecond
  updatedAt := .epoch

theorem wire_format_loses_nothing_leapSecond :
    Node.codec.ReadsAs (Node.codec.toText .createdInLeapSecond) .createdInLeapSecond ∧
      ∀ status : ManagerStatus, Node.codec.TellsApart
        { Node.createdInLeapSecond with managerStatus := none }
        { Node.createdInLeapSecond with managerStatus := some status } := by
  obtain ⟨⟨_, nodes, _⟩, _, _, _, managers⟩ := wire_format_loses_nothing
  exact ⟨nodes.toText _, managers _⟩

end SwarmManager
