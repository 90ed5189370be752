/-!
# Refusals

The reasons for which a request is not served, with the status and the text of the reply.
-/
namespace Signpost

inductive Refusal where
  | unknownService
  | forbidden
  | missingParam (name : String)
  | invalidParam (name : String)
  | malformedBody
  | unsupportedMedia
  | tooLarge
  | notImplemented
  | notFound (what : String)
  | conflict (what : String)
  | internal (what : String)
  deriving DecidableEq, Repr

namespace Refusal

def message : Refusal → String
  | unknownService => "unknown service"
  | forbidden => "permission denied"
  | missingParam name => "missing parameter `" ++ name ++ "`"
  | invalidParam name => "invalid parameter `" ++ name ++ "`"
  | malformedBody => "malformed request body"
  | unsupportedMedia => "unsupported media type"
  | tooLarge => "payload too large"
  | notImplemented => "not implemented"
  | notFound what => "not found: " ++ what
  | conflict what => "conflict: " ++ what
  | internal what => "internal failure: " ++ what

def status : Refusal → Nat
  | unknownService | notFound _ => 404
  | forbidden => 403
  | missingParam _ | invalidParam _ | malformedBody => 400
  | unsupportedMedia => 415
  | tooLarge => 413
  | notImplemented => 501
  | conflict _ => 409
  | internal _ => 500

/-- The label under which refusals are counted. -/
def outcome : Refusal → String
  | unknownService => "unknown_service"
  | forbidden => "forbidden"
  | missingParam _ | invalidParam _ | malformedBody | unsupportedMedia | tooLarge => "bad_request"
  | notImplemented => "not_implemented"
  | notFound _ | conflict _ | internal _ => "error"

end Refusal

end Signpost
