import SwarmManager.Instance.Basic
import SwarmManager.Text.Split

/-!
# The ports of instances

An instance has two maps of ports, those it exposes and those it binds, and one pass over the
configured ports of its service fills both.  A key of these maps is a port and a protocol, and the
first slash tells the two apart (`portKey_eq_iff`).

Ports of different keys do not meet in these maps.  Of ports that share a key the last one is
bound, and it alone (`find?_portBindings`): a published port is bound unless a later port of its key
takes its place.

The main statements are `published_ports_bound` and `port_maps_name_same_ports`.
-/

namespace SwarmManager

set_option autoImplicit false

/-! ## Maps that are filled in a loop -/

namespace StringMap

variable {α β γ : Type}

theorem mem_keys {map : StringMap α} {key : String} :
    key ∈ map.keys ↔ ∃ value, map.find? key = some value := by
  rw [← Option.isSome_iff_exists, find?, List.lookup_isSome_iff, keys, List.mem_map]
  exact exists_congr fun entry => and_congr_right fun _ => by rw [beq_iff_eq, eq_comm]

/-- Of items that are put into a map one after the other, the last of a key counts. -/
theorem find?_foldl (items : List γ) (key : γ → String) (value : γ → α) (map : StringMap α)
    (probe : String) :
    (items.foldl (fun map item => map.insert (key item) (value item)) map).find? probe =
      ((items.findRev? fun item => key item == probe).map value).or (map.find? probe) := by
  induction items generalizing map with
  | nil => rfl
  | cons item rest ih =>
    rw [List.foldl_cons, ih, List.findRev?]
    cases rest.findRev? fun item => key item == probe with
    | some later => rfl
    | none =>
      rw [find?_insert]
      by_cases here : key item = probe
      · subst here
        simp
      · simp [here, Ne.symm here]

/-- Where an entry is put depends on the keys only. -/
theorem map_fst_insertEntry_congr {one : List (String × α)} {other : List (String × β)}
    (same : one.map Prod.fst = other.map Prod.fst) (key : String) (value : α) (given : β) :
    (insertEntry key value one).map Prod.fst = (insertEntry key given other).map Prod.fst := by
  induction one generalizing other with
  | nil =>
    obtain rfl := List.map_eq_nil_iff.mp same.symm
    rfl
  | cons entry rest ih =>
    obtain ⟨first, more, rfl, here, later⟩ := List.map_eq_cons_iff.mp same.symm
    simp only [insertEntry, here]
    split
    · simp only [List.map_cons, later]
    · split
      · simp only [List.map_cons, later]
      · simp only [List.map_cons, ih later.symm]

/-- Maps stay in step while they are given entries of the same keys. -/
theorem keys_foldl_congr (items : List γ) (key : γ → String) (value : γ → α) (given : γ → β)
    {one : StringMap α} {other : StringMap β} (same : one.keys = other.keys) :
    (items.foldl (fun map item => map.insert (key item) (value item)) one).keys =
      (items.foldl (fun map item => map.insert (key item) (given item)) other).keys := by
  induction items generalizing one other with
  | nil => exact same
  | cons item rest ih => exact ih (map_fst_insertEntry_congr same _ _ _)

end StringMap

/-! ## Keys of ports -/

/-- A protocol that is absent or empty is read as `tcp`. -/
theorem portProtocol_eq (protocol : Option String) :
    portProtocol protocol = (protocol.filter (· ≠ "")).getD "tcp" := by
  cases protocol with
  | none => rfl
  | some name => by_cases empty : name = "" <;> simp [portProtocol, Option.filter, empty]

theorem toList_portKey (port : UInt16) (protocol : Option String) :
    (portKey port protocol).toList =
      Decimal.digits port.toNat ++ '/' :: (portProtocol protocol).toList := by
  simp only [portKey, Decimal.text, String.toList_append, String.toList_ofList, List.append_assoc]
  rfl

/-- Keys are equal only if ports and protocols are: the first slash ends the port, whatever slashes
the protocol holds. -/
theorem portKey_eq_iff {port other : UInt16} {protocol given : Option String} :
    portKey port protocol = portKey other given ↔
      port = other ∧ portProtocol protocol = portProtocol given := by
  constructor
  · intro same
    have texts := congrArg String.toList same
    rw [toList_portKey, toList_portKey] at texts
    obtain ⟨numerals, protocols⟩ := Text.append_first_inj (Decimal.notMem_digits rfl port.toNat)
      (Decimal.notMem_digits rfl other.toNat) texts
    exact ⟨UInt16.toNat_inj.mp (Decimal.digits_inj numerals), String.toList_inj.mp protocols⟩
  · rintro ⟨rfl, same⟩
    rw [portKey, portKey, same]

namespace PortConfig

/-- A binding tells which port is published. -/
theorem binding_eq_iff {port : PortConfig} {published : UInt16} :
    port.binding = ⟨"0.0.0.0", Decimal.text published.toNat⟩ ↔
      port.publishedPort = some published := by
  rw [binding, PortBinding.mk.injEq, and_iff_right rfl]
  cases port.publishedPort with
  | none =>
    have written : "" ≠ Decimal.text published.toNat := fun empty =>
      Decimal.digits_ne_nil _ (String.ofList_eq_empty_iff.mp empty.symm)
    exact iff_of_false written nofun
  | some other =>
    simp only [Decimal.text, String.ofList_inj, Option.some.injEq]
    exact ⟨fun same => UInt16.toNat_inj.mp (Decimal.digits_inj same), fun same => by rw [same]⟩

/-- The last of some ports that has a key. -/
def last? (ports : List PortConfig) (key : String) : Option PortConfig :=
  ports.findRev? fun port => port.key == key

variable {ports before after : List PortConfig} {port : PortConfig} {key : String}

/-- From a port on, the last of its key is the last one after it, or the port itself. -/
theorem last?_append_cons :
    last? (before ++ port :: after) port.key = some ((last? after port.key).getD port) := by
  simp only [last?, List.findRev?_eq_find?_reverse, List.reverse_append, List.reverse_cons,
    List.append_assoc, List.find?_append, List.singleton_append, beq_self_eq_true,
    List.find?_cons_of_pos]
  cases after.reverse.find? fun later => later.key == port.key <;> rfl

theorem exists_last?_iff :
    (∃ last, last? ports key = some last) ↔ ∃ port ∈ ports, port.key = key := by
  simp only [← Option.isSome_iff_exists, last?, List.findRev?_eq_find?_reverse, List.find?_isSome,
    List.mem_reverse, beq_iff_eq]

end PortConfig

/-! ## The maps of an instance -/

namespace ProcessInstance

/-- Whether an instance binds a port of the host, on all its addresses, to a target port. -/
def Binds (process : ProcessInstance) (target : UInt16) (protocol : Option String)
    (published : UInt16) : Prop :=
  ∃ bindings, process.hostConfig.portBindings.find? (portKey target protocol) = some bindings ∧
    ⟨"0.0.0.0", Decimal.text published.toNat⟩ ∈ bindings

variable (draw : Draw) (service : Service) (name : String)

/-- Under a key stands one binding, that of the last port that has the key. -/
theorem find?_portBindings (key : String) :
    (forService draw service name).hostConfig.portBindings.find? key =
      (PortConfig.last? service.spec.ports key).map fun last => [last.binding] := by
  change (StringMap.ofList (service.spec.ports.map fun port => (port.key, [port.binding]))).find?
    key = _
  rw [StringMap.ofList, List.foldl_map, StringMap.find?_foldl, StringMap.find?_empty,
    Option.or_none, PortConfig.last?]

/-- What is bound to a target port is what its last port publishes. -/
theorem binds_iff {target : UInt16} {protocol : Option String} {published : UInt16} :
    (forService draw service name).Binds target protocol published ↔
      ∃ last, PortConfig.last? service.spec.ports (portKey target protocol) = some last ∧
        last.publishedPort = some published := by
  simp only [Binds, find?_portBindings, Option.map_eq_some_iff]
  constructor
  · rintro ⟨_, ⟨last, found, rfl⟩, listed⟩
    exact ⟨last, found, PortConfig.binding_eq_iff.mp (List.mem_singleton.mp listed).symm⟩
  · rintro ⟨last, found, publishes⟩
    refine ⟨_, ⟨last, found, rfl⟩, List.mem_singleton.mpr ?_⟩
    exact (PortConfig.binding_eq_iff.mpr publishes).symm

/-- Both maps are filled in one pass, so their keys are the same all the time. -/
theorem keys_exposedPorts :
    (forService draw service name).config.exposedPorts.keys =
      (forService draw service name).hostConfig.portBindings.keys := by
  change (StringMap.ofList (service.spec.ports.map fun port => (port.key, ExposedPort.mk))).keys =
    (StringMap.ofList (service.spec.ports.map fun port => (port.key, [port.binding]))).keys
  rw [StringMap.ofList, StringMap.ofList, List.foldl_map, List.foldl_map]
  exact StringMap.keys_foldl_congr _ PortConfig.key _ _ rfl

theorem mem_keys_portBindings {key : String} :
    key ∈ (forService draw service name).hostConfig.portBindings.keys ↔
      ∃ port ∈ service.spec.ports, port.key = key := by
  rw [StringMap.mem_keys, ← PortConfig.exists_last?_iff, find?_portBindings]
  simp only [← Option.isSome_iff_exists, Option.isSome_map]

/-! ## Published ports -/

/-- **A published port is bound unless a later port takes its place**: one that has the same key
and, being the last that has it, publishes another port or none. -/
theorem published_ports_bound {before after : List PortConfig} {port : PortConfig}
    {published : UInt16} (configured : service.spec.ports = before ++ port :: after)
    (publishes : port.publishedPort = some published) :
    (forService draw service name).Binds port.targetPort port.protocol published ↔
      ∀ last, PortConfig.last? after port.key = some last →
        last.publishedPort = some published := by
  rw [binds_iff, configured, ← PortConfig.key, PortConfig.last?_append_cons]
  cases PortConfig.last? after port.key with
  | none => simp [publishes]
  | some last => simp

/-- A port that is configured twice, with a protocol and without, and published at the same place
both times. -/
theorem published_ports_bound_listedTwice :
    let web : PortConfig := { targetPort := 80, publishedPort := some 8080 }
    let names : PortConfig := { protocol := some "udp", targetPort := 53, publishedPort := some 53 }
    let again : PortConfig := { web with protocol := some "tcp" }
    let service := Service.create ⟨"a", .epoch, 0⟩
      { endpointSpec := some { ports := [names, web, names, again] } }
    service.spec.ports = [names] ++ web :: [names, again] ∧ web.publishedPort = some 8080 ∧
      (forService ⟨"b", .epoch, 0⟩ service "web-0").Binds web.targetPort web.protocol 8080 := by
  intro web names again service
  have last : PortConfig.last? [names, again] web.key = some again := by decide +kernel
  have bound := @published_ports_bound ⟨"b", .epoch, 0⟩ service "web-0" [names] [names, again] web
    8080 rfl rfl
  refine ⟨rfl, rfl, bound.mpr ?_⟩
  intro other found
  obtain rfl := Option.some.inj (last.symm.trans found)
  rfl

/-- A port that is published at two places is bound at the second one only. -/
theorem published_port_lost :
    let first : PortConfig := { targetPort := 80, publishedPort := some 8080 }
    let second : PortConfig :=
      { protocol := some "tcp", targetPort := 80, publishedPort := some 8081 }
    let service := Service.create ⟨"a", .epoch, 0⟩
      { endpointSpec := some { ports := [first, second] } }
    let process := forService ⟨"b", .epoch, 0⟩ service "web-0"
    first ∈ service.spec.ports ∧ first.publishedPort = some 8080 ∧
      process.hostConfig.portBindings.find? "80/tcp" = some [⟨"0.0.0.0", "8081"⟩] ∧
      ¬ process.Binds first.targetPort first.protocol 8080 := by
  intro first second service process
  have bound : process.hostConfig.portBindings.find? "80/tcp" = some [⟨"0.0.0.0", "8081"⟩] := by
    decide +kernel
  have last : PortConfig.last? service.spec.ports first.key = some second := by decide +kernel
  refine ⟨List.mem_cons_self, rfl, bound, fun binds => ?_⟩
  obtain ⟨other, found, publishes⟩ := (binds_iff _ _ _).mp binds
  obtain rfl := Option.some.inj (last.symm.trans found)
  exact absurd publishes (by decide)

/-! ## Keys -/

/-- **Both maps of an instance name the same ports**, those of its service, with a binding for each,
and two ports have one name only if they are one port. -/
theorem port_maps_name_same_ports :
    (∀ (draw : Draw) (service : Service) (name : String),
      let process := forService draw service name
      process.config.exposedPorts.keys = process.hostConfig.portBindings.keys ∧
      (∀ key, key ∈ process.hostConfig.portBindings.keys ↔
        ∃ port ∈ service.spec.ports, portKey port.targetPort port.protocol = key) ∧
      ∀ key ∈ process.hostConfig.portBindings.keys, ∃ first rest,
        process.hostConfig.portBindings.find? key = some (first :: rest)) ∧
    ∀ (port other : UInt16) (protocol given : Option String),
      portKey port protocol = portKey other given ↔
        port = other ∧
          (protocol.filter (· ≠ "")).getD "tcp" = (given.filter (· ≠ "")).getD "tcp" := by
  refine ⟨fun draw service name => ⟨keys_exposedPorts draw service name, ?_, ?_⟩, ?_⟩
  · exact fun key => mem_keys_portBindings draw service name
  · intro key present
    obtain ⟨bindings, found⟩ := StringMap.mem_keys.mp present
    rw [find?_portBindings] at found ⊢
    obtain ⟨last, _, rfl⟩ := Option.map_eq_some_iff.mp found
    exact ⟨last.binding, [], found⟩
  · intro port other protocol given
    rw [portKey_eq_iff, portProtocol_eq, portProtocol_eq]

/-- Of three ports two have one key, and the third has a slash in its protocol. -/
theorem port_maps_name_same_ports_slash :
    let ports : List PortConfig :=
      [{ targetPort := 80 }, { targetPort := 8, protocol := some "0/tcp" },
        { targetPort := 80, protocol := some "", publishedPort := some 8080 }]
    let service := Service.create ⟨"a", .epoch, 0⟩ { endpointSpec := some { ports := ports } }
    let process := forService ⟨"b", .epoch, 0⟩ service "web-0"
    process.config.exposedPorts.keys = ["8/0/tcp", "80/tcp"] ∧
      "80/tcp" ∈ process.hostConfig.portBindings.keys ∧
      (∃ first rest, process.hostConfig.portBindings.find? "80/tcp" = some (first :: rest)) ∧
      portKey 80 none ≠ portKey 8 (some "0/tcp") := by
  intro ports service process
  obtain ⟨_, named, bound⟩ := port_maps_name_same_ports.1 ⟨"b", .epoch, 0⟩ service "web-0"
  have exposed : process.config.exposedPorts.keys = ["8/0/tcp", "80/tcp"] := by decide +kernel
  have present : "80/tcp" ∈ process.hostConfig.portBindings.keys :=
    (named "80/tcp").mpr ⟨{ targetPort := 80 }, List.mem_cons_self, by decide +kernel⟩
  refine ⟨exposed, present, bound "80/tcp" present, fun same => ?_⟩
  exact absurd ((port_maps_name_same_ports.2 _ _ _ _).mp same).1 (by decide)

end ProcessInstance

end SwarmManager
