import Signpost.Proofs.Service.Handlers
import Signpost.Proofs.Service.Outputs
import Signpost.Proofs.Service.Run

/-!
# Replies with the declared outputs

The declared outputs are taken out of what a handler has produced, and the reply consists of them. A
handler that was bound with its outputs and keeps to them is answered with exactly what it has
produced, as long as the endpoints with its method and pattern declare the same outputs.
-/
namespace Signpost

open Json

namespace Endpoint

/-- The endpoints with one method and one pattern declare the same outputs. -/
def SameOutputs (endpoints : List Endpoint) (signature : Method × String) : Prop :=
  ∀ a ∈ endpoints, ∀ b ∈ endpoints, a.signature = signature → b.signature = signature →
    ∀ name, name ∈ a.outputNames ↔ name ∈ b.outputNames

theorem sameOutputs_of_nodup {endpoints : List Endpoint}
    (h : (endpoints.map Endpoint.signature).Nodup) (signature : Method × String) :
    SameOutputs endpoints signature := by
  intro a ha b hb hleft hright name
  rw [List.inj_on_of_nodup_map h ha hb (hleft.trans hright.symm)]

end Endpoint

namespace Registration

variable {σ : Type}

/-- Whatever the handler produces when it succeeds has exactly these names. -/
def Keeps (r : Registration σ) (names : List String) : Prop :=
  ∀ context state fields, (r.handler context state).1 = .ok fields →
    ∀ name, (fields.get? name).isSome ↔ name ∈ names

end Registration

namespace Service

variable {σ : Type} {s : Service σ} {m : Message} {freshId : String} {handler : Handler σ}
  {context : Context} {endpoints : List Endpoint} {registrations : List (Registration σ)}
  {r : Registration σ} {names : List String}

theorem method_ne_head_of_serves (htable : s.table = .build endpoints)
    (h : s.Serves freshId m handler context) : m.method ≠ "HEAD" := by
  have hmethod := (exists_form_of_serves htable h).1.1
  have hmem := context.endpoint.method.text_mem
  rw [hmethod]
  intro heq
  simp [heq] at hmem

theorem resultReply_ok (h : m.method ≠ "HEAD") (fields : Dict Value) :
    resultReply freshId m (.ok fields) = ⟨200, some "application/json", idBytes freshId m.headers,
      (Value.ofDict fields).text⟩ := by
  rw [resultReply, if_neg h]
  rfl

section Registered

variable (htable : s.table = .build endpoints)
  (hbind : Handlers.bind (.build endpoints) registrations = .ok s.handlers)
  (hr : r ∈ registrations) (h : s.Serves freshId m handler context)
  (hsignature : context.endpoint.signature = r.signature)
include hbind hr h hsignature

/-- The handler of an endpoint is the one that was registered for it. -/
theorem handler_of_serves : handler = r.handler := by
  have hget := (Handlers.get?_eq_some_iff_of_bind hbind).2 ⟨r, hr, hsignature.symm, rfl⟩
  exact Option.some.inj ((get?_of_serves h).symm.trans hget)

include htable

/-- What a handler produces that keeps to its outputs is what its endpoint declares. -/
theorem takeOutputs_of_serves (hsame : Endpoint.SameOutputs endpoints r.signature)
    (hnames : r.outputs = some names) (hkeeps : r.Keeps names) {state : σ} {fields : Dict Value}
    (hfields : (r.handler context state).1 = .ok fields) :
    context.endpoint.takeOutputs fields = .ok fields := by
  obtain ⟨e, hget, hproduces⟩ := Handlers.produces_of_bind hbind hr
  obtain ⟨he, hdeclared⟩ := RouteTable.mem_of_get?_build hget
  have hmem := endpoint_mem_of_serves htable h
  refine Endpoint.takeOutputs_of_names fun name => ?_
  rw [hkeeps context state fields hfields name, hproduces names hnames name]
  exact hsame e he _ hmem hdeclared hsignature name

end Registered

/-- Of what a handler produces the declared outputs are the reply, with the values that they have,
and where one is missing, the reply names the one with the least key. So a handler that was bound
with its outputs and keeps to them gives the reply as it is, as long as the endpoints with its
method and pattern declare the same outputs. In a set that has passed the check they do. -/
theorem declared_outputs_decide {entries : List Manifest.Entry}
    (hcompile : Manifest.compile entries = .ok endpoints) :
    (∀ e ∈ endpoints, ∀ produced,
      e.takeOutputs produced = e.selectOutputs produced ∧
      (∀ fields, e.selectOutputs produced = .ok fields ↔
        (∀ name ∈ e.outputNames, (produced.get? name).isSome) ∧
          fields = produced.restrict e.outputNames) ∧
      ∀ reason, e.selectOutputs produced = .error reason ↔
        ∃ key p, e.output.Least (fun p => produced.get? p.rename = none) key p ∧
          reason = .internal ("missing output `" ++ p.rename ++ "`")) ∧
    (∀ (s : Service σ) (registrations : List (Registration σ)), s.table = .build endpoints →
      Handlers.bind (.build endpoints) registrations = .ok s.handlers →
      ∀ r ∈ registrations, Endpoint.SameOutputs endpoints r.signature →
      ∀ names, r.outputs = some names → r.Keeps names →
      ∀ freshId m handler context, s.Serves freshId m handler context →
      context.endpoint.signature = r.signature → ∀ state,
        (∀ reason next, r.handler context state = (.error reason, next) →
          s.respond freshId m state = (reason.reply freshId m, next)) ∧
        ∀ fields next, r.handler context state = (.ok fields, next) →
          s.respond freshId m state = (⟨200, some "application/json", idBytes freshId m.headers,
            (Value.ofDict fields).text⟩, next)) ∧
    ∀ types, Endpoint.checkAll types endpoints = .ok () →
      ∀ signature, Endpoint.SameOutputs endpoints signature := by
  refine ⟨fun e _ produced => ?_, ?_, ?_⟩
  · exact ⟨e.takeOutputs_eq_selectOutputs produced,
      fun _ => Endpoint.selectOutputs_eq_ok_iff_restrict,
      fun _ => Endpoint.selectOutputs_eq_error_iff_least⟩
  · intro s registrations htable hbind r hr hsame names hnames hkeeps freshId m handler context h
      hsignature state
    obtain rfl := handler_of_serves hbind hr h hsignature
    refine ⟨fun reason next hresult => ?_, fun fields next hresult => ?_⟩
    · rw [respond_of_serves h, hresult]
      rfl
    · have hfields : (r.handler context state).1 = .ok fields := congrArg Prod.fst hresult
      have htake : (Except.ok fields : Except Refusal (Dict Value)).bind
          context.endpoint.takeOutputs = .ok fields :=
        takeOutputs_of_serves htable hbind hr h hsignature hsame hnames hkeeps hfields
      rw [respond_of_serves h, hresult, htake, resultReply_ok (method_ne_head_of_serves htable h)]
  · intro types ok signature
    exact Endpoint.sameOutputs_of_nodup (Endpoint.nodup_signatures hcompile ok) signature

/-- An endpoint that is declared twice, for ids that are numbers and for all others. -/
def twins : List Manifest.Entry :=
  [{ method := "GET", path := "/items/\x7bid\x7d",
     input := .ofList [("\x7bid\x7d", { typeText := "uint", name := some "ID" })],
     output := .ofList [("a", { typeText := "uint" })] },
   { method := "GET", path := "/items/\x7bid\x7d",
     input := .ofList [("\x7bid\x7d", { typeText := "string", name := some "ID" })],
     output := .ofList [("b", { typeText := "uint" })] }]

def twin : Registration Unit where
  method := .get
  pattern := "/items/\x7bid\x7d"
  outputs := some ["a"]
  handler := fun _ state => (.ok (.ofList [("a", .ofNat 1)]), state)

theorem twin_keeps : twin.Keeps ["a"] := by
  intro context state fields h name
  obtain rfl : Dict.ofList [("a", Value.ofNat 1)] = fields := by simpa [twin] using h
  rw [← Dict.mem_keys_iff, Dict.mem_keys_ofList]
  simp

def twinService (endpoints : List Endpoint) (handlers : Handlers Unit) : Service Unit :=
  ⟨.build endpoints, .builtin, handlers, {}, 64⟩

def itemMessage (id : String) : Message where
  method := "GET"
  target := .path ("/items/" ++ id) none
  headers := []
  body := .empty

/-- The first of them alone has what it declares. -/
theorem declared_outputs_decide_item :
    ∃ endpoints handlers, Manifest.compile (twins.take 1) = .ok endpoints ∧
      Handlers.bind (.build endpoints) [twin] = .ok handlers ∧
      (twinService endpoints handlers).respond "f" (itemMessage "7") () =
        (⟨200, some "application/json", idBytes "f" [],
          (Value.ofDict (.ofList [("a", .ofNat 1)])).text⟩, ()) := by
  have hrun : (Manifest.compile (twins.take 1)).toOption.any (fun endpoints =>
      decide (Endpoint.checkAll .builtin endpoints = .ok ()) &&
        (Handlers.bind (.build endpoints) [twin]).toOption.any fun handlers =>
          ((twinService endpoints handlers).prepare
            ((twinService endpoints handlers).requestOf "f" (itemMessage "7") "/items/7"
              none)).toOption.any fun found =>
                decide (found.2.endpoint.signature = twin.signature)) = true := by
    decide +kernel
  obtain ⟨endpoints, hcompile, hrun⟩ := exists_of_any_toOption hrun
  rw [Bool.and_eq_true, decide_eq_true_eq] at hrun
  obtain ⟨handlers, hbind, hserve⟩ := exists_of_any_toOption hrun.2
  obtain ⟨⟨handler, context⟩, hprepare, hsignature⟩ := exists_of_any_toOption hserve
  obtain ⟨-, hreply, hsame⟩ := declared_outputs_decide (σ := Unit) hcompile
  have hlength : (itemMessage "7").headers.contentLength?.getD 0 ≤ 64 := by decide
  have hserves : (twinService endpoints handlers).Serves "f" (itemMessage "7") handler context :=
    ⟨hlength, _, _, rfl, hprepare⟩
  exact ⟨endpoints, handlers, hcompile, hbind,
    (hreply (twinService endpoints handlers) [twin] rfl hbind twin (by simp) (hsame _ hrun.1 _)
      ["a"] rfl twin_keeps "f" (itemMessage "7") handler context hserves
      (of_decide_eq_true hsignature) ()).2 _ () rfl⟩

/-- Where the check was left out, the handler is bound with the outputs of the first endpoint, and
what the second one declares is missing when that is asked for. -/
theorem missing_output_of_twins :
    ∃ endpoints handlers context, Manifest.compile twins = .ok endpoints ∧
      Handlers.bind (.build endpoints) [twin] = .ok handlers ∧
      twin.outputs = some ["a"] ∧ twin.Keeps ["a"] ∧
      (twinService endpoints handlers).Serves "f" (itemMessage "x") twin.handler context ∧
      context.endpoint.signature = twin.signature ∧
      twin.handler context () = (.ok (.ofList [("a", .ofNat 1)]), ()) ∧
      (twinService endpoints handlers).respond "f" (itemMessage "x") () =
        ((Refusal.internal "missing output `b`").reply "f" (itemMessage "x"), ()) := by
  have hrun : (Manifest.compile twins).toOption.any (fun endpoints =>
      (Handlers.bind (.build endpoints) [twin]).toOption.any fun handlers =>
        ((twinService endpoints handlers).prepare
          ((twinService endpoints handlers).requestOf "f" (itemMessage "x") "/items/x"
            none)).toOption.any fun found =>
              decide (found.2.endpoint.signature = twin.signature) &&
                decide (((twinService endpoints handlers).respond "f" (itemMessage "x") ()).1 =
                  (Refusal.internal "missing output `b`").reply "f" (itemMessage "x"))) = true := by
    decide +kernel
  obtain ⟨endpoints, hcompile, hrun⟩ := exists_of_any_toOption hrun
  obtain ⟨handlers, hbind, hserve⟩ := exists_of_any_toOption hrun
  obtain ⟨⟨handler, context⟩, hprepare, hreply⟩ := exists_of_any_toOption hserve
  simp only [Bool.and_eq_true, decide_eq_true_eq] at hreply
  have hlength : (itemMessage "x").headers.contentLength?.getD 0 ≤ 64 := by decide
  have hserves : (twinService endpoints handlers).Serves "f" (itemMessage "x") handler context :=
    ⟨hlength, _, _, rfl, hprepare⟩
  have hhandler : handler = twin.handler :=
    handler_of_serves (s := twinService endpoints handlers) hbind (r := twin) (by simp) hserves
      hreply.1
  rw [hhandler] at hserves
  exact ⟨endpoints, handlers, context, hcompile, hbind, rfl, twin_keeps, hserves, hreply.1, rfl,
    Prod.ext hreply.2 rfl⟩

end Service

end Signpost
