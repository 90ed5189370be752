import Signpost.Json.Shape
import Signpost.Proofs.Dict
import Signpost.Proofs.Json.Document
import Signpost.Proofs.Outcome

/-!
# Reading back what was written

A reader reads a writer back if it gives every value again from the tree of what was written for it.
Lists and dictionaries are read back if their elements are.
-/
namespace Signpost.Json

theorem itemsTrees_eq (items : List Value) : itemsTrees items = items.map Value.tree := by
  induction items with
  | nil => rfl
  | cons v rest ih => rw [itemsTrees, ih, List.map_cons]

theorem fieldsTrees_eq (fields : List (String × Value)) :
    fieldsTrees fields = fields.map fun f => (f.1, f.2.tree) := by
  induction fields with
  | nil => rfl
  | cons f rest ih => rw [fieldsTrees, ih, List.map_cons]

namespace Tree

/-- What `write` writes, `read` reads again. -/
def ReadsBack (read : Tree → Except Fault α) (write : α → Value) : Prop :=
  ∀ a, read (write a).tree = .ok a

variable {α : Type} {read : Tree → Except Fault α} {write : α → Value}

theorem readsBack_text : ReadsBack text .string := fun _ => rfl

theorem ReadsBack.list (h : ReadsBack read write) :
    ReadsBack (list read) fun items => .array (items.map write) := by
  intro items
  have hitems : (itemsTrees (items.map write)).mapM read = .ok items := by
    rw [itemsTrees_eq, mapM_eq_ok_iff, List.map_map, List.forall₂_map_left_iff, List.forall₂_same]
    exact fun a _ => h a
  rw [Value.tree, Tree.list, hitems]
  rfl

/-- The entries of a dictionary are written in their order, and so none takes another's place. -/
theorem ReadsBack.dict (h : ReadsBack read write) :
    ReadsBack (dict read) fun d => .ofDict (d.map write) := by
  intro d
  have hentries : (fieldsTrees (d.map write).entries).mapM
      (fun m => (read m.2).map fun a => (m.1, a)) = .ok d.entries := by
    rw [fieldsTrees_eq, mapM_eq_ok_iff, List.forall₂_map_left_iff, Dict.map,
      List.forall₂_map_left_iff, List.forall₂_same]
    intro e _
    rw [h e.2]
    rfl
  change Tree.dict read (Value.object (d.map write).entries).tree = .ok d
  rw [Value.tree, Tree.dict, hentries]
  exact congrArg Except.ok (Dict.ofList_entries d)

end Tree

end Signpost.Json
