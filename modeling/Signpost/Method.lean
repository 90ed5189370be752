/-!
# Request methods

The methods that an endpoint can be declared for.
-/
namespace Signpost

inductive Method where
  | get
  | post
  | put
  | delete
  deriving DecidableEq, Repr

namespace Method

def all : List Method := [get, post, put, delete]

def text : Method → String
  | get => "GET"
  | post => "POST"
  | put => "PUT"
  | delete => "DELETE"

/-- Methods are written in capitals. -/
def ofText? (s : String) : Option Method := all.find? (·.text = s)

/-- A number of its own for each method, other than zero. -/
def ordinal : Method → Nat
  | get => 1
  | post => 2
  | put => 3
  | delete => 4

@[simp] theorem ofText?_text (m : Method) : ofText? m.text = some m := by
  cases m <;> decide

theorem text_of_ofText? {s : String} {m : Method} (h : ofText? s = some m) : m.text = s := by
  simpa using List.find?_some h

end Method

end Signpost
