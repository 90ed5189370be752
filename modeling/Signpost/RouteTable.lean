import Signpost.Endpoint.Match

/-!
# Route tables

A route table holds endpoints in the order of their declaration, and those with one method and one
number of segments together, so that a request is matched against these alone.
-/
namespace Signpost

/-- The endpoints in order, and by dispatch key. -/
structure RouteTable where
  endpoints : List Endpoint
  buckets : List (Nat × List Endpoint)
  deriving DecidableEq, Repr

/-- A number of its own for each method and number of segments; methods that no endpoint can have
share theirs. -/
def dispatchKey (method : String) (count : Nat) : Nat :=
  ((Method.ofText? method).map Method.ordinal).getD 0 + 10 * count

namespace RouteTable

/-- Add an endpoint at the end of the bucket with a key, which is made if there is none. -/
def addTo (e : Endpoint) (key : Nat) : List (Nat × List Endpoint) → List (Nat × List Endpoint)
  | [] => [(key, [e])]
  | (k, es) :: rest => if k = key then (k, es ++ [e]) :: rest else (k, es) :: addTo e key rest

def build (endpoints : List Endpoint) : RouteTable :=
  ⟨endpoints, endpoints.foldl (fun bs e => addTo e (dispatchKey e.method.text e.arity) bs) []⟩

/-- The endpoints with a method and a number of segments. -/
def bucket (t : RouteTable) (method : String) (count : Nat) : List Endpoint :=
  (t.buckets.lookup (dispatchKey method count)).getD []

theorem lookup_addTo (e : Endpoint) (key other : Nat) (bs : List (Nat × List Endpoint)) :
    ((addTo e key bs).lookup other).getD [] =
      (bs.lookup other).getD [] ++ if key = other then [e] else [] := by
  induction bs with
  | nil =>
    by_cases h : other = key
    · simp [addTo, h]
    · simp [addTo, List.lookup_cons, beq_eq_false_iff_ne.2 h, Ne.symm h]
  | cons b bs ih =>
    obtain ⟨k, es⟩ := b
    unfold addTo
    split
    next hk =>
      subst hk
      by_cases h : other = k
      · simp [h]
      · simp [List.lookup_cons, beq_eq_false_iff_ne.2 h, Ne.symm h]
    next hk =>
      by_cases h : other = k
      · simp [h, Ne.symm hk]
      · simpa [List.lookup_cons, beq_eq_false_iff_ne.2 h] using ih

/-- A bucket holds, in order, the endpoints that share its dispatch key. -/
theorem bucket_build (endpoints : List Endpoint) (method : String) (count : Nat) :
    (build endpoints).bucket method count =
      endpoints.filter fun e => dispatchKey e.method.text e.arity = dispatchKey method count := by
  suffices h : ∀ bs : List (Nat × List Endpoint), ∀ key,
      ((endpoints.foldl (fun bs e => addTo e (dispatchKey e.method.text e.arity) bs) bs).lookup
        key).getD [] =
      (bs.lookup key).getD [] ++ endpoints.filter fun e => dispatchKey e.method.text e.arity = key by
    simpa [build, bucket] using h [] (dispatchKey method count)
  induction endpoints with
  | nil => simp
  | cons e rest ih =>
    intro bs key
    rw [List.foldl_cons, ih, lookup_addTo, List.append_assoc]
    by_cases h : dispatchKey e.method.text e.arity = key <;> simp [h]

/-- The endpoint that serves a request. -/
def find (t : RouteTable) (types : Registry) (method : String) (segments : List String) :
    Option Match :=
  Match.first types (t.bucket method segments.length) segments

/-- The endpoint declared with a method and a pattern. -/
def get? (t : RouteTable) (method : Method) (pattern : String) : Option Endpoint :=
  t.endpoints.find? fun e => e.method = method && e.pattern = pattern

def size (t : RouteTable) : Nat := t.endpoints.length

end RouteTable

end Signpost
