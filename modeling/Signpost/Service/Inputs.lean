import Signpost.Endpoint.Match
import Signpost.Service.Refusal

/-!
# Inputs and outputs of an endpoint

The inputs that are not captured from the path are taken from the raw parameters and validated, in
the order of their keys, until one of them is refused. The declared outputs are taken out of what a
handler produces, and each of them has to be there.
-/
namespace Signpost

open Json

namespace Parameter

/-- What comes of reading one input. -/
inductive Reading where
  | absent
  | value (v : Value)
  | refused (reason : Refusal)

/-- Read a parameter from the raw parameters of its source. -/
def readFrom (types : Registry) (raw : Dict Value) (p : Parameter) : Reading :=
  match raw.get? p.name with
  | none => if p.optional then .absent else .refused (.missingParam p.rename)
  | some v =>
    match p.conversion types with
    | none => .refused (.internal ("no validator for `" ++ p.rename ++ "`"))
    | some convert =>
      match convert v with
      | some w => .value w
      | none => .refused (.invalidParam p.rename)

/-- Read a parameter from the query or the body; captures have been read already. -/
def read (types : Registry) (query form : Dict Value) (p : Parameter) : Reading :=
  match p.source with
  | .uri => .absent
  | .query => p.readFrom types query
  | .form => p.readFrom types form

/-- Read parameters in order. Gives the values read so far, and why reading stopped if it did. -/
def readAll (types : Registry) (query form : Dict Value) :
    List Parameter → Dict Value → Dict Value × Option Refusal
  | [], values => (values, none)
  | p :: rest, values =>
    match p.read types query form with
    | .absent => readAll types query form rest values
    | .value v => readAll types query form rest (values.insert p.rename v)
    | .refused reason => (values, some reason)

/-- The refusal of a reply that lacks an output. -/
def missingOutput (p : Parameter) : Refusal := .internal ("missing output `" ++ p.rename ++ "`")

/-- Take outputs one after another out of what is left, and keep each of them with its value. -/
def takeAll : List Parameter → (left kept : Dict Value) → Except Refusal (Dict Value)
  | [], _, kept => .ok kept
  | p :: rest, left, kept =>
    match left.get? p.rename with
    | some v => takeAll rest (left.erase p.rename) (kept.insert p.rename v)
    | none => .error p.missingOutput

end Parameter

namespace Endpoint

/-- Add the inputs of an endpoint to the values captured. -/
def readInputs (types : Registry) (e : Endpoint) (query form values : Dict Value) :
    Dict Value × Option Refusal :=
  Parameter.readAll types query form e.input.values values

/-- Take the declared outputs, under their names outside, out of what a handler has produced. -/
def takeOutputs (e : Endpoint) (produced : Dict Value) : Except Refusal (Dict Value) :=
  Parameter.takeAll e.output.values produced {}

/-- Look the declared outputs up, which comes to the same. -/
def selectOutputs (e : Endpoint) (produced : Dict Value) : Except Refusal (Dict Value) :=
  e.output.values.foldlM (fun kept p =>
    match produced.get? p.rename with
    | some v => .ok (kept.insert p.rename v)
    | none => .error p.missingOutput) {}

end Endpoint

end Signpost
