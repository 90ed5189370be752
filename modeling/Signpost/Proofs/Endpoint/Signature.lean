import Signpost.Proofs.Endpoint.Compile
import Signpost.Proofs.Endpoint.Overlap
import Signpost.RouteTable

/-!
# Endpoints by method and pattern

Endpoints with one pattern have the same segments, so two of them with one method overlap. In a set
that has passed the check a method and a pattern therefore stand for one endpoint.
-/
namespace Signpost

namespace Endpoint

variable {types : Registry} {a b : Endpoint} {endpoints : List Endpoint}

/-- The method and the pattern that an endpoint is declared with. -/
def signature (e : Endpoint) : Method × String := (e.method, e.pattern)

theorem parse_pattern {entry : Manifest.Entry} {e : Endpoint} (h : compile entry = .ok e) :
    Pattern.parse e.pattern =
      .ok ⟨e.segments, e.captures.map fun c => (c.name, c.position)⟩ := by
  obtain ⟨_, -, -, -, -, -, -, hpattern, -⟩ := compile_eq_ok_iff.1 h
  rw [hpattern]
  exact parse_path h

theorem segments_eq_of_pattern {entry other : Manifest.Entry} (ha : compile entry = .ok a)
    (hb : compile other = .ok b) (h : a.pattern = b.pattern) : a.segments = b.segments := by
  have hleft := parse_pattern ha
  rw [h] at hleft
  have hsame := Except.ok.inj (hleft.symm.trans (parse_pattern hb))
  exact congrArg Pattern.segments hsame

theorem overlaps_of_segments_eq (hmethod : a.method = b.method)
    (hsegments : a.segments = b.segments) : overlaps types a b = .ok true := by
  have harity : a.arity = b.arity := congrArg List.length hsegments
  refine (overlaps_eq_ok_true_iff a b).2 ⟨hmethod, harity, fun n x y hx hy => ?_⟩
  rw [hsegments] at hx
  obtain rfl := Option.some.inj (hx.symm.trans hy)
  cases x with
  | literal text => simp [meetAt]
  | capture i => rfl

theorem overlaps_of_signature_eq {entry other : Manifest.Entry} (ha : compile entry = .ok a)
    (hb : compile other = .ok b) (h : a.signature = b.signature) :
    overlaps types a b = .ok true := by
  obtain ⟨hmethod, hpattern⟩ := Prod.mk.inj h
  exact overlaps_of_segments_eq hmethod (segments_eq_of_pattern ha hb hpattern)

/-- No two endpoints of a set that has passed the check have one method and one pattern. -/
theorem nodup_signatures {entries : List Manifest.Entry}
    (hcompile : Manifest.compile entries = .ok endpoints)
    (ok : checkAll types endpoints = .ok ()) : (endpoints.map signature).Nodup := by
  refine List.pairwise_map.2 (((checkAll_eq_ok_iff endpoints).1 ok).2.imp_of_mem ?_)
  intro a b ha hb hdisjoint hsame
  obtain ⟨entry, -, hentry⟩ := Manifest.exists_entry_of_compile hcompile ha
  obtain ⟨other, -, hother⟩ := Manifest.exists_entry_of_compile hcompile hb
  rw [overlaps_of_signature_eq hentry hother hsame] at hdisjoint
  cases hdisjoint

end Endpoint

namespace RouteTable

variable {endpoints : List Endpoint} {method : Method} {pattern : String}

theorem get?_build_eq_none_iff :
    (build endpoints).get? method pattern = none ↔
      (method, pattern) ∉ endpoints.map Endpoint.signature := by
  simp [get?, build, Endpoint.signature]

theorem mem_of_get?_build {e : Endpoint} (h : (build endpoints).get? method pattern = some e) :
    e ∈ endpoints ∧ e.signature = (method, pattern) := by
  refine ⟨List.mem_of_find?_eq_some h, ?_⟩
  simpa [Endpoint.signature] using List.find?_some h

/-- Where signatures are unique, the endpoint with a signature is found. -/
theorem get?_build_eq_some_iff (hunique : (endpoints.map Endpoint.signature).Nodup)
    {e : Endpoint} :
    (build endpoints).get? method pattern = some e ↔
      e ∈ endpoints ∧ e.signature = (method, pattern) := by
  refine ⟨mem_of_get?_build, fun hright => ?_⟩
  obtain ⟨he, hsignature⟩ := hright
  cases hget : (build endpoints).get? method pattern with
  | none =>
    rw [get?_build_eq_none_iff, ← hsignature] at hget
    exact absurd (List.mem_map_of_mem he) hget
  | some e' =>
    obtain ⟨he', hsignature'⟩ := mem_of_get?_build hget
    rw [List.inj_on_of_nodup_map hunique he' he (hsignature'.trans hsignature.symm)]

end RouteTable

end Signpost
