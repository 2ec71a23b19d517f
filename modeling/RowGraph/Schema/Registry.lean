import RowGraph.Keyed
import RowGraph.Schema.Resolution

/-!
The registry: descriptors by model, each made on first use.

Registering a model makes its declaration count for the models that are described later; it
describes nothing.  A descriptor that has been given out stays as it is, whatever is registered
afterwards, and a description that fails leaves no trace.
-/

namespace RowGraph

structure Registry where
  catalogue : Catalogue
  registered : List String
  /-- The descriptors given out so far. -/
  described : Keyed String Descriptor

namespace Registry

def ofCatalogue (c : Catalogue) : Registry := ⟨c, [], []⟩

def register (r : Registry) (model : String) : Registry :=
  if r.registered.contains model then r else { r with registered := r.registered ++ [model] }

/-- The descriptor of a model: the one given out before, or else the one its declarations yield
now. -/
def descriptor (r : Registry) (model : String) : Outcome Descriptor :=
  match r.described.find? model with
  | some d => .ok d
  | none => r.catalogue.resolve r.registered model

/-- The descriptor of a model, and the registry that will give it out from now on. -/
def describe (r : Registry) (model : String) : Outcome Descriptor × Registry :=
  match r.descriptor model with
  | .ok d => (.ok d, { r with described := r.described.putNew model d })
  | .error e => (.error e, r)

/-- The descriptor of a model that was registered or described before, and of no other. -/
def describeKnown (r : Registry) (model : String) : Outcome (Option Descriptor) × Registry :=
  if r.described.has model || r.registered.contains model then
    let (outcome, r') := r.describe model
    (outcome.map some, r')
  else (.ok none, r)

end Registry
end RowGraph
