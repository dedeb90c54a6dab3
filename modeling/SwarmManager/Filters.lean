import SwarmManager.Service.Basic
import SwarmManager.Task.Basic
import SwarmManager.Text.Split

/-!
# List filters

A filter maps categories to accepted values.  Something passes if one of the
values of one of its categories fits it; a filter without categories lets nothing
pass, and no filter at all lets everything pass.

A label value is either the key of a label, or a key and a value with an equals
sign between them, cut at the first one.
-/

namespace SwarmManager

set_option autoImplicit false

/-- The accepted values by category, if there is a filter. -/
structure Filters where
  accepted : Option (StringMap (List String))
  deriving DecidableEq

namespace Filters

/-- No filter. -/
def none : Filters := ⟨Option.none⟩

/-- How the values of a filter are written. -/
def codec : Json.Codec (Option (StringMap (List String))) := .optional (.map (.list .string))

/-- The filter in a query.  What cannot be read filters nothing. -/
def parse (raw : Option String) : Filters :=
  match raw with
  | Option.none => none
  | some text =>
      match codec.ofText text with
      | .ok accepted => ⟨accepted⟩
      | .error _ => none

/-- Whether there is a filter. -/
def isActive (filters : Filters) : Bool := filters.accepted.isSome

/-- The accepted values of a category. -/
def values (filters : Filters) (category : String) : List String :=
  match filters.accepted.bind fun accepted => accepted.find? category with
  | some values => values
  | Option.none => []

/-- Whether a category accepts a value. -/
def accepts (filters : Filters) (category value : String) : Bool :=
  (filters.values category).contains value

/-- Whether a label value fits labels. -/
def labelFits (labels : StringMap String) (wanted : String) : Bool :=
  match Text.splitAtFirst '=' wanted with
  | some (key, value) => labels.find? key == some value
  | Option.none => labels.contains wanted

/-- Whether the labels of a service are accepted. -/
def acceptsLabels (filters : Filters) (labels : StringMap String) : Bool :=
  (filters.values "label").any (labelFits labels)

/-- Whether a service passes. -/
def passesService (filters : Filters) (service : Service) : Bool :=
  !filters.isActive ||
    (filters.accepts "id" service.id || filters.accepts "name" service.spec.name)

/-- Whether a task of a service passes. -/
def passesTask (filters : Filters) (task : Task) (owner : Service) : Bool :=
  !filters.isActive ||
    (filters.accepts "id" task.id || filters.accepts "service" task.serviceId ||
      filters.accepts "service" owner.spec.name || filters.accepts "node" task.nodeId ||
      filters.accepts "desired-state" task.desiredState.name ||
      filters.acceptsLabels owner.spec.labels)

end Filters

end SwarmManager
