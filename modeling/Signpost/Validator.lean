import Signpost.Json.Value
import Signpost.Text.Quoted

/-!
# Validators

A validator is a named type of parameter values. Given the arguments written after its name it
either refuses them or gives a conversion, which turns a raw value into a typed one or rejects it.
-/
namespace Signpost

open Json

/-- The typed form of a raw value, or nothing if the value is rejected. -/
abbrev Conversion := Value → Option Value

/-- The conversion for a list of arguments, or nothing if they are not acceptable. -/
abbrev Validator := List String → Option Conversion

/-- Validators by name. -/
structure Registry where
  validators : Dict Validator

namespace Registry

def empty : Registry := ⟨{}⟩

/-- Add a validator, over one of the same name. -/
def register (r : Registry) (name : String) (v : Validator) : Registry :=
  ⟨r.validators.insert name v⟩

def contains (r : Registry) (name : String) : Bool := r.validators.contains name

/-- The conversion of the type `name(arguments)`. -/
def resolve (r : Registry) (name : String) (arguments : List String) : Option Conversion :=
  (r.validators.get? name).bind (· arguments)

/-- The names in order, as they are shown to people. -/
def describe (r : Registry) : String :=
  "ValidatorRegistry \x7b validators: " ++ Text.quotedList r.validators.keys ++ " \x7d"

end Registry

end Signpost
