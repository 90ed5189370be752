import Signpost.Proofs.Role.Reading
import Signpost.Proofs.Validator.Scalar

/-!
# Roles of different resources

The text put in for a reference is followed by the closing bracket of the reference. If no such text
has a closing bracket of its own, the role tells where each of them ends, and if all references are
to one capture, the length of the role does. So from a concrete role the captured texts can be read
back, and requests for different resources require different roles.
-/
namespace Signpost

open Json

/-- The characters of parts, with a text for each capture. -/
def Part.written (text : String → String) (parts : List Part) : List Char :=
  parts.flatMap fun p => (p.write text).toList

namespace Part

@[simp] theorem written_cons (text : String → String) (p : Part) (parts : List Part) :
    written text (p :: parts) = (p.write text).toList ++ written text parts := rfl

theorem written_append (text : String → String) (parts parts' : List Part) :
    written text (parts ++ parts') = written text parts ++ written text parts' :=
  List.flatMap_append

/-- Texts for one capture make parts longer by what they are longer themselves, once for each
reference. -/
theorem length_written {f g : String → String} {parts : List Part} {name : String}
    (h : ∀ other, .capture other ∈ parts → other = name) :
    (written f parts).length + (parts.filterMap name?).length * (g name).toList.length =
      (written g parts).length + (parts.filterMap name?).length * (f name).toList.length := by
  induction parts with
  | nil => simp [written]
  | cons p parts ih =>
    have hrest := ih fun other hother => h other (List.mem_cons_of_mem _ hother)
    cases p with
    | literal s =>
      simp only [written_cons, write_literal, List.length_append, List.filterMap_cons, name?]
      omega
    | capture other =>
      obtain rfl := h other List.mem_cons_self
      simp only [written_cons, write_capture, List.length_append, List.filterMap_cons, name?,
        List.length_cons, Nat.succ_mul]
      omega

/-- A role whose references are all to one capture tells the text of the capture by its length. -/
theorem eq_of_written_eq_of_single {f g : String → String} {parts : List Part} {name : String}
    (h : ∀ other, .capture other ∈ parts → other = name) (hname : .capture name ∈ parts)
    (heq : written f parts = written g parts) : f name = g name := by
  have hlength : (f name).toList.length = (g name).toList.length := by
    have hwritten := length_written (f := f) (g := g) h
    have hpos : 0 < (parts.filterMap name?).length :=
      List.length_pos_of_mem (List.mem_filterMap.2 ⟨_, hname, rfl⟩)
    rw [heq] at hwritten
    exact (Nat.eq_of_mul_eq_mul_left hpos (Nat.add_left_cancel hwritten)).symm
  obtain ⟨before, after, rfl⟩ := List.append_of_mem hname
  have hbefore : (written f before).length = (written g before).length := by
    have honly : ∀ other, .capture other ∈ before → other = name :=
      fun other hother => h other (List.mem_append_left _ hother)
    have hwritten := length_written (f := f) (g := g) honly
    rw [hlength] at hwritten
    exact Nat.add_right_cancel hwritten
  simp only [written_append, written_cons, write_capture] at heq
  have hrest := (List.append_inj heq hbefore).2
  exact String.toList_injective (List.append_inj hrest hlength).1

end Part

namespace Template

variable {isCapture : String → Bool} {f g : String → String}

theorem written_literalPart (text : String → String) (latest : List Char) :
    Part.written text (literalPart latest) = latest.reverse :=
  write_literalPart text latest

/-- What is written begins as the text does, since a reference stands after its opening bracket. -/
theorem Reading.exists_written_eq_cons {c : Char} {cs : List Char} {parts : List Part}
    (h : Reading isCapture (c :: cs) parts) (text : String → String) :
    ∃ rest, Part.written text parts = c :: rest := by
  generalize hwhole : c :: cs = whole at h
  cases h with
  | plain quiet => exact ⟨cs, by rw [written_literalPart, List.reverse_reverse, hwhole]⟩
  | @reference before token rest parts quiet closed captured tail =>
    cases before with
    | nil =>
      obtain rfl : c = '[' := by simpa using (List.cons.inj hwhole).1
      exact ⟨_, by simp; rfl⟩
    | cons d before =>
      obtain rfl : c = d := by simpa using (List.cons.inj hwhole).1
      exact ⟨_, by simp; rfl⟩

/-- Texts without closing brackets are told by the role that they are written into. -/
theorem Reading.eq_of_written_eq {cs : List Char} {parts : List Part}
    (h : Reading isCapture cs parts)
    (hf : ∀ name, .capture name ∈ parts → ']' ∉ (f name).toList)
    (hg : ∀ name, .capture name ∈ parts → ']' ∉ (g name).toList)
    (heq : Part.written f parts = Part.written g parts) {name : String}
    (hname : .capture name ∈ parts) : f name = g name := by
  induction h with
  | @plain text quiet =>
    exfalso
    obtain ⟨before, after, hparts⟩ := List.append_of_mem hname
    exact not_referenceAt_literalPart ⟨before, after, hparts, rfl⟩
  | @reference before token rest parts quiet closed captured tail ih =>
    obtain ⟨x, hx⟩ := tail.exists_written_eq_cons f
    obtain ⟨y, hy⟩ := tail.exists_written_eq_cons g
    have hboth : (f (String.ofList token)).toList ++ ']' :: x =
        (g (String.ofList token)).toList ++ ']' :: y := by
      simpa [hx, hy] using heq
    have hftoken := token?_append (hf (String.ofList token) (by simp)) x
    have hgtoken := token?_append (hg (String.ofList token) (by simp)) y
    rw [hboth, hgtoken] at hftoken
    have htoken := Option.some.inj hftoken
    rw [htoken] at hboth
    rcases List.mem_cons.1 hname with hliteral | hname
    · cases hliteral
    · rcases List.mem_cons.1 hname with hcapture | hname
      · obtain rfl := Part.capture.inj hcapture
        exact (String.toList_injective htoken).symm
      · refine ih (fun other hother => hf other (by simp [hother]))
          (fun other hother => hg other (by simp [hother])) ?_ hname
        rw [hx, hy, List.append_cancel_left hboth]

theorem toList_render (raw : String) (isCapture : String → Bool) (values : Dict Value) :
    ((compile raw isCapture).render values).toList =
      Part.written (valueText values) (compile raw isCapture).parts := by
  rw [render_eq_join, String.toList_join, List.flatMap_map]
  rfl

theorem mem_captures_iff {t : Template} {name : String} :
    name ∈ t.captures ↔ .capture name ∈ t.parts := by
  rw [captures, List.mem_filterMap]
  constructor
  · intro hleft
    obtain ⟨p, hp, hname⟩ := hleft
    cases p with
    | literal s => simp [Part.name?] at hname
    | capture other =>
      obtain rfl := Option.some.inj hname
      exact hp
  · intro hp
    exact ⟨_, hp, rfl⟩

/-- Every reference has a value. -/
def Valued (t : Template) (values : Dict Value) : Prop :=
  ∀ name ∈ t.captures, ∃ v, values.get? name = some v

/-- No referenced value closes a bracket, or there is only one capture referred to. -/
def Separable (t : Template) (values values' : Dict Value) : Prop :=
  (∀ name ∈ t.captures, ∀ v, values.get? name = some v ∨ values'.get? name = some v →
    Unbracketed v) ∨
  ∀ name ∈ t.captures, ∀ other ∈ t.captures, name = other

theorem valueText_eq {values : Dict Value} {name : String} {v : Value}
    (h : values.get? name = some v) : valueText values name = roleText v := by
  simp [valueText, h]

/-- A rendered role tells the texts of the captures that it refers to. -/
theorem text_eq_of_render_eq {raw : String} {values values' : Dict Value}
    (hvalued : (compile raw isCapture).Valued values)
    (hvalued' : (compile raw isCapture).Valued values')
    (hseparable : (compile raw isCapture).Separable values values')
    (hrender : (compile raw isCapture).render values = (compile raw isCapture).render values')
    {name : String} (hname : name ∈ (compile raw isCapture).captures) :
    (values.get? name).map roleText = (values'.get? name).map roleText := by
  have hwritten : Part.written (valueText values) (compile raw isCapture).parts =
      Part.written (valueText values') (compile raw isCapture).parts := by
    rw [← toList_render, ← toList_render, hrender]
  have htext : valueText values name = valueText values' name := by
    rcases hseparable with hplain | hsingle
    · refine (reading_compile raw isCapture).eq_of_written_eq (fun other hother => ?_)
        (fun other hother => ?_) hwritten (mem_captures_iff.1 hname)
      · obtain ⟨v, hv⟩ := hvalued other (mem_captures_iff.2 hother)
        rw [valueText_eq hv]
        exact hplain other (mem_captures_iff.2 hother) v (.inl hv)
      · obtain ⟨v, hv⟩ := hvalued' other (mem_captures_iff.2 hother)
        rw [valueText_eq hv]
        exact hplain other (mem_captures_iff.2 hother) v (.inr hv)
    · exact Part.eq_of_written_eq_of_single
        (fun other hother => hsingle other (mem_captures_iff.2 hother) name hname)
        (mem_captures_iff.1 hname) hwritten
  obtain ⟨v, hv⟩ := hvalued name hname
  obtain ⟨v', hv'⟩ := hvalued' name hname
  rw [valueText_eq hv, valueText_eq hv'] at htext
  simp [hv, hv', htext]

end Template

end Signpost
