/-!
# Decimal integers

An integer is written as one or more decimal digits, with any number of leading zeros, after a sign
that may be left out. An unsigned integer takes `+` alone.
-/
namespace Signpost.Text.Integer

def isDigit (c : Char) : Bool := '0' ≤ c && c ≤ '9'

def digitValue (c : Char) : Nat := c.toNat - '0'.toNat

/-- The number that a row of digits writes. -/
def ofDigits (cs : List Char) : Nat := cs.foldl (fun n c => 10 * n + digitValue c) 0

/-- The number that a row of digits writes, or `cap` where it is greater. -/
def ofDigitsUpTo (cap : Nat) (cs : List Char) : Nat :=
  cs.foldl (fun n c => min (10 * n + digitValue c) cap) 0

theorem ofDigitsUpTo_eq (cap : Nat) (cs : List Char) :
    ofDigitsUpTo cap cs = min (ofDigits cs) cap := by
  suffices h : ∀ n, cs.foldl (fun n c => min (10 * n + digitValue c) cap) (min n cap) =
      min (cs.foldl (fun n c => 10 * n + digitValue c) n) cap by
    simpa [ofDigitsUpTo, ofDigits] using h 0
  induction cs with
  | nil => simp
  | cons c cs ih =>
    intro n
    rw [List.foldl_cons, List.foldl_cons, ← ih (10 * n + digitValue c)]
    congr 1
    omega

/-- One or more digits and nothing else, for a number below `bound`. -/
def digits? (bound : Nat) (cs : List Char) : Option Nat :=
  if cs ≠ [] ∧ cs.all isDigit then (some (ofDigitsUpTo bound cs)).filter (· < bound) else none

theorem digits?_eq_some_iff {bound n : Nat} {cs : List Char} :
    digits? bound cs = some n ↔ (cs ≠ [] ∧ cs.all isDigit) ∧ ofDigits cs = n ∧ n < bound := by
  unfold digits?
  rw [ofDigitsUpTo_eq]
  split
  next h =>
    simp only [Option.filter_some, decide_eq_true_eq]
    split
    · rw [Option.some.injEq]
      exact ⟨fun hn => ⟨h, by omega, by omega⟩, fun ⟨_, hn, hb⟩ => by omega⟩
    · exact ⟨nofun, fun ⟨_, hn, hb⟩ => by omega⟩
  next h => exact ⟨nofun, fun hn => absurd hn.1 h⟩

/-- An unsigned integer below `bound`. -/
def unsigned? (bound : Nat) (cs : List Char) : Option Nat :=
  digits? bound (match cs with | '+' :: rest => rest | _ => cs)

/-- A signed integer `n` with `-bound ≤ n < bound`. -/
def signed? (bound : Nat) (cs : List Char) : Option Int :=
  match cs with
  | '-' :: rest => (digits? (bound + 1) rest).map fun n => -(n : Int)
  | _ => (unsigned? bound cs).map fun n => (n : Int)

end Signpost.Text.Integer
