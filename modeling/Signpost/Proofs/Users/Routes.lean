import Signpost.Proofs.Json.Text
import Signpost.Proofs.Path
import Signpost.Proofs.Role.Scope
import Signpost.Proofs.RouteTable
import Signpost.Proofs.Service.Outputs
import Signpost.Proofs.Service.Run
import Signpost.Proofs.Users.Handlers
import Signpost.Proofs.Users.Server

/-!
# The endpoints of the users service

One user is asked for by an id in the path, which may be written with a sign and leading zeros and
with any of its characters percent-encoded. The roles that are required follow from the number, not
from the way it is written. What the handlers produce is what the endpoints declare.
-/
namespace Signpost.Users

open Json

theorem convert_idCapture : idCapture.param.convert .builtin = Validator.toUint := rfl

theorem toUint_string_eq_some_iff {text : String} {v : Value} :
    Validator.toUint (.string text) = some v ↔
      ∃ i, Text.Integer.unsigned? (Nat.pow 2 64) text.toList = some i ∧ v = .ofNat i := by
  simp only [Validator.toUint, Option.map_eq_some_iff, eq_comm (a := v)]

theorem slash_notMem_of_unsigned? {bound n : Nat} {cs : List Char}
    (h : Text.Integer.unsigned? bound cs = some n) : cs ≠ [] ∧ '/' ∉ cs := by
  have hplain : ∀ ds : List Char, ds.all Text.Integer.isDigit → '/' ∉ ds := by
    intro ds hall hmem
    have := List.all_eq_true.1 hall _ hmem
    simp [Text.Integer.isDigit] at this
  obtain ⟨⟨hne, hall⟩, -⟩ := Text.Integer.digits?_eq_some_iff.1 h
  have hslash := hplain _ hall
  split at hslash
  · exact ⟨by simp, by simpa using hslash⟩
  · refine ⟨?_, hslash⟩
    rintro rfl
    exact hne rfl

/-- Whatever writes the id of a user is a segment of its own behind `/users`. -/
theorem decode?_userPath {segment text : String} (hdecode : Path.decodeSegment? segment = some text)
    {i : Nat} (hid : Validator.toUint (.string text) = some (.ofNat i)) :
    Path.decode? (Path.split ("/users/" ++ segment)) = some ["users", text] := by
  obtain ⟨j, hj, -⟩ := toUint_string_eq_some_iff.1 hid
  obtain ⟨hne, hslash⟩ := slash_notMem_of_unsigned? hj
  have hsegment : '/' ∉ segment.toList := fun hmem =>
    hslash (Path.slash_mem_of_decodeSegment? hdecode hmem)
  have hsome : segment.toList ≠ [] := by
    intro hnil
    obtain rfl : segment = "" := String.toList_injective hnil
    obtain rfl := Option.some.inj (hdecode.symm.trans Path.decodeSegment?_empty)
    exact hne rfl
  have hpath : "/users/" ++ segment =
      String.ofList ('/' :: "users".toList ++ '/' :: segment.toList) := by
    apply String.toList_injective
    simp
  have husers : Path.decodeSegment? "users" = some "users" := by decide +kernel
  rw [hpath, Path.split_pair (by decide) hsome (by decide) hsegment]
  simp [Path.decode?, husers, hdecode]

theorem createUser_mem : createUser ∈ endpoints := by simp [endpoints]

theorem fetchUser_mem : fetchUser ∈ endpoints := by simp [endpoints]

theorem deleteUser_mem : deleteUser ∈ endpoints := by simp [endpoints]

theorem eq_of_method_of_pattern :
    ∀ e ∈ endpoints, ∀ e' ∈ endpoints, e.method = e'.method → e.pattern = e'.pattern → e = e' := by
  decide +kernel

section Endpoints

variable {e : Endpoint} {segments : List String} {values : Dict Value}

theorem segments_of_accept (h : e.segments = [.literal "users"])
    (ha : e.accept .builtin segments = some values) : segments = ["users"] := by
  obtain ⟨hlength, hfits, -⟩ := Endpoint.accept_eq_some_iff.1 ha
  rw [h] at hlength hfits
  match segments, hlength with
  | [first], _ =>
    have hfirst : "users" = first := hfits (.literal "users", first) (by simp)
    rw [hfirst]

theorem accept_user_eq_some_iff (hs : e.segments = [.literal "users", .capture 0])
    (hc : e.captures = [idCapture]) :
    e.accept .builtin segments = some values ↔
      ∃ text v, segments = ["users", text] ∧ Validator.toUint (.string text) = some v ∧
        values = .ofList [("ID", v)] := by
  rw [Endpoint.accept, hs]
  match segments with
  | [] => simp
  | [_] => simp
  | [first, text] =>
    by_cases hfirst : "users" = first
    · subst hfirst
      cases h : Validator.toUint (.string text) with
      | none => simp [Endpoint.take, hc, convert_idCapture, h]
      | some v =>
        have htaken : ([Segment.literal "users", .capture 0].zip ["users", text]).foldlM
            (Endpoint.take .builtin e) {} = some (.ofList [("ID", v)]) := by
          have hv : idCapture.param.convert .builtin (.string text) = some v := h
          simp only [List.zip_cons_cons, List.zip_nil_right, List.foldlM_cons, List.foldlM_nil,
            Endpoint.take, hc, List.getElem?_cons_zero, hv]
          rfl
        rw [if_pos (by simp), htaken]
        simp [h, eq_comm (a := values)]
    · simp [Endpoint.take, hfirst, Ne.symm hfirst]
  | _ :: _ :: _ :: _ => simp

theorem resolve_fetchUser (values : Dict Value) :
    fetchUser.scope.resolve values =
      [["admin"], ["user[" ++ Template.valueText values "ID" ++ "]"]] := by
  have hgroups : fetchUser.scope.groups = [[⟨"admin", [.literal "admin"]⟩],
      [⟨"user[ID]", [.literal "user[", .capture "ID", .literal "]"]⟩]] := by decide +kernel
  have hjoin := Scope.resolve_eq_join [["admin"], ["user[ID]"]] ["ID"] values
  rw [show Scope.compile [["admin"], ["user[ID]"]] ["ID"] = fetchUser.scope from rfl,
    hgroups] at hjoin
  simpa [String.append_assoc] using hjoin

/-- A user is told to administrators and to the user. -/
theorem granted_fetchUser_iff (i : Nat) (active : List String) :
    (Grant.forScope fetchUser.scope (.ofList [("ID", .ofNat i)]) active).granted = true ↔
      "admin" ∈ active ∨ ("user[" ++ toString i ++ "]") ∈ active := by
  have htext : Template.valueText (.ofList [("ID", .ofNat i)]) "ID" = toString i := by
    rw [← text_ofNat]
    rfl
  rw [Grant.granted_iff, Grant.forScope, resolve_fetchUser, htext]
  simp

end Endpoints

theorem takeOutputs_createUser (id : Nat) :
    createUser.takeOutputs (created id) = .ok (created id) := by
  have hnames : createUser.outputNames = ["ID"] := by decide +kernel
  refine Endpoint.takeOutputs_of_names fun name => ?_
  rw [← Dict.mem_keys_iff, created, Dict.mem_keys_ofList, hnames]
  rfl

theorem takeOutputs_fetchUser (id : Nat) (name : String) :
    fetchUser.takeOutputs (fetched id name) = .ok (fetched id name) := by
  have hnames : fetchUser.outputNames = ["ID", "Name"] := by decide +kernel
  refine Endpoint.takeOutputs_of_names fun other => ?_
  rw [← Dict.mem_keys_iff, fetched, Dict.mem_keys_ofList, hnames]
  rfl

/-- No input of a request for one user is read after the match. -/
theorem readInputs_user {e : Endpoint}
    (h : e.input = .ofList [("\x7bid\x7d", idCapture.param)]) (query form values : Dict Value) :
    e.readInputs .builtin query form values = (values, none) := by
  rw [Endpoint.readInputs, h]
  rfl

theorem convert_nameInput :
    nameInput.convert .builtin = Validator.toText (.between 1 64) := by
  rfl

theorem eq_of_toText {length : Validator.Length} {v w : Value}
    (h : Validator.toText length v = some w) : v = w := by
  cases v <;> simp_all [Validator.toText]

theorem name_of_readInputs {segments : List String} {query form values params : Dict Value}
    (ha : createUser.accept .builtin segments = some values)
    (hread : createUser.readInputs .builtin query form values = (params, none)) {name : String}
    (hname : params.get? "Name" = some (.string name)) :
    form.get? "name" = some (.string name) := by
  obtain ⟨entry, -, hentry⟩ := Manifest.exists_entry_of_compile compile_entries createUser_mem
  rcases (Endpoint.get?_of_readInputs hentry ha hread).1 hname with
    ⟨c, hc, -⟩ | ⟨p, hp, hrename, raw, hraw, hconvert⟩
  · simp [createUser] at hc
  · have hvalues : createUser.input.values = [ageInput, nameInput] := by decide +kernel
    rw [hvalues, List.mem_cons, List.mem_singleton] at hp
    rcases hp with rfl | rfl
    · simp [ageInput] at hrename
    · rw [convert_nameInput] at hconvert
      rw [← eq_of_toText hconvert]
      exact hraw

end Signpost.Users
