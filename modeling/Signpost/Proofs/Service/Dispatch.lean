import Signpost.Proofs.RouteTable
import Signpost.Proofs.Service.Inputs
import Signpost.Service.Dispatch
import Signpost.Validator.Builtin

/-!
# What a handler is told

A handler is called after every stage of the preparation of its request has succeeded. From the
table that was built of a manifest it follows which inputs it is told, and what each of them is.
-/
namespace Signpost.Service

open Json

variable {σ : Type} {s : Service σ} {request : Request}

theorem route_eq_ok_iff {method path : String} {r : Routed} :
    s.route method path = .ok r ↔
      Path.decode? (Path.split path) = some r.segments ∧
        s.table.find s.types method r.segments = some r.found := by
  obtain ⟨segments, found⟩ := r
  unfold route
  cases hd : Path.decode? (Path.split path) with
  | none => simp
  | some decoded =>
    cases hf : s.table.find s.types method decoded with
    | none =>
      simp only [hf, reduceCtorEq, Option.some.injEq, false_iff, not_and]
      rintro rfl
      simp [hf]
    | some m =>
      simp only [hf, Except.ok.injEq, Routed.mk.injEq, Option.some.injEq]
      constructor
      · intro hleft
        obtain ⟨rfl, rfl⟩ := hleft
        exact ⟨rfl, hf⟩
      · intro hright
        obtain ⟨rfl, hfound⟩ := hright
        exact ⟨rfl, Option.some.inj (hf.symm.trans hfound)⟩

theorem endpoint_mem_of_route {endpoints : List Endpoint} (htable : s.table = .build endpoints)
    {method path : String} {r : Routed} (h : s.route method path = .ok r) :
    r.found.endpoint ∈ endpoints := by
  have hfind := (route_eq_ok_iff.1 h).2
  rw [htable] at hfind
  exact (RouteTable.accept_of_find hfind).1

theorem params_eq_ok_iff {r : Routed} {values : Dict Value} :
    s.params r request = .ok values ↔
      ∃ bytes form, request.body.read s.maxBodySize = .ok bytes ∧
        Form.decodeBody (request.headers.textOf? "content-type") bytes = .ok form ∧
        r.found.endpoint.readInputs s.types (Form.decodeQuery request.query) form r.found.values =
          (values, none) := by
  unfold params
  cases hb : request.body.read s.maxBodySize with
  | error reason => simp
  | ok bytes =>
    cases hf : Form.decodeBody (request.headers.textOf? "content-type") bytes with
    | error reason => simp [hf]
    | ok form =>
      rcases hr : r.found.endpoint.readInputs s.types (Form.decodeQuery request.query) form
        r.found.values with ⟨read, reason⟩
      cases reason <;> simp [hf, hr]

/-- A handler is called if every stage before it succeeds, and is told what they have found. -/
theorem prepare_eq_ok_iff {handler : Handler σ} {context : Context} :
    s.prepare request = .ok (handler, context) ↔
      ∃ routed, s.route request.method request.path = .ok routed ∧
        s.authorize routed request.headers = .ok context.grant ∧
        s.params routed request = .ok context.params ∧
        s.handlers.get? routed.found.endpoint = some handler ∧
        context.requestId = request.requestId ∧ context.endpoint = routed.found.endpoint ∧
        context.segments = routed.segments := by
  obtain ⟨requestId, endpoint, segments, params, grant⟩ := context
  simp only [prepare, bind_eq_ok_iff]
  constructor
  · intro hleft
    obtain ⟨routed, hroute, found, hgrant, values, hparams, hcall⟩ := hleft
    cases hh : s.handlers.get? routed.found.endpoint with
    | none => simp [hh] at hcall
    | some bound =>
      simp only [hh, Except.ok.injEq, Prod.mk.injEq, Context.mk.injEq] at hcall
      obtain ⟨rfl, rfl, rfl, rfl, rfl, rfl⟩ := hcall
      exact ⟨routed, hroute, hgrant, hparams, hh, rfl, rfl, rfl⟩
  · intro hright
    obtain ⟨routed, hroute, hgrant, hparams, hh, rfl, rfl, rfl⟩ := hright
    exact ⟨routed, hroute, grant, hgrant, params, hparams, by simp [hh]⟩

/-- A handler of a compiled manifest is told the declared inputs of its endpoint and nothing else.
Each is typed by itself: a capture from its decoded segment, the others from the query or the body,
whichever is their source. -/
theorem typedInputs_of_prepare {entries : List Manifest.Entry} {endpoints : List Endpoint}
    (hcompile : Manifest.compile entries = .ok endpoints)
    (htable : s.table = RouteTable.build endpoints) {handler : Handler σ} {context : Context}
    (h : s.prepare request = .ok (handler, context)) :
    context.endpoint ∈ endpoints ∧
      Path.decode? (Path.split request.path) = some context.segments ∧
      ∃ bytes form, request.body.read s.maxBodySize = .ok bytes ∧
        Form.decodeBody (request.headers.textOf? "content-type") bytes = .ok form ∧
        context.endpoint.TypedInputs s.types context.segments (Form.decodeQuery request.query) form
          context.params := by
  obtain ⟨routed, hroute, -, hparams, -, -, hendpoint, hsegments⟩ := prepare_eq_ok_iff.1 h
  obtain ⟨hdecoded, hfind⟩ := route_eq_ok_iff.1 hroute
  obtain ⟨bytes, form, hbody, hform, hread⟩ := params_eq_ok_iff.1 hparams
  rw [htable] at hfind
  obtain ⟨hmem, -, haccept⟩ := RouteTable.accept_of_find hfind
  obtain ⟨entry, -, hentry⟩ := Manifest.exists_entry_of_compile hcompile hmem
  rw [hendpoint, hsegments]
  have htyped := Endpoint.typedInputs_of_readInputs hentry haccept hread
  exact ⟨hmem, hdecoded, bytes, form, hbody, hform, htyped⟩

/-- A service whose one endpoint has an input from each source. -/
def renameService (endpoints : List Endpoint) : Service Unit where
  table := .build endpoints
  types := .builtin
  handlers := ⟨[((.put, "/users/\x7bid\x7d"), fun _ state => (.ok {}, state))], []⟩
  keys := .ofList [("k", ["user[7]"])]
  maxBodySize := 64

def renameRequest : Request where
  requestId := "r"
  method := "PUT"
  path := "/users/7"
  query := some "notify=1&other=2"
  headers := [("Authorization", Text.Utf8.encode "Bearer k".toList),
    ("Content-Type", Text.Utf8.encode "application/x-www-form-urlencoded".toList)]
  body := .ofBytes (Text.Utf8.encode "name=ada".toList)

theorem typedInputs_of_prepare_renameRequest :
    ∃ endpoints, Manifest.compile [Endpoint.renameUser] = .ok endpoints ∧
      ∃ handler context, (renameService endpoints).prepare renameRequest = .ok (handler, context) ∧
        context.endpoint ∈ endpoints ∧
        ∃ form, context.endpoint.TypedInputs .builtin context.segments
          (Form.decodeQuery renameRequest.query) form context.params := by
  have hrun : (Manifest.compile [Endpoint.renameUser]).toOption.any (fun endpoints =>
      ((renameService endpoints).prepare renameRequest).isOk) = true := by decide +kernel
  obtain ⟨endpoints, hsome, hok⟩ := (Option.any_eq_true _ _).1 hrun
  have hcompile := toOption_eq_some_iff.1 hsome
  obtain ⟨⟨handler, context⟩, hprepare⟩ := isOk_iff.1 hok
  obtain ⟨hmem, -, -, form, -, -, htyped⟩ := typedInputs_of_prepare hcompile rfl hprepare
  exact ⟨endpoints, hcompile, handler, context, hprepare, hmem, form, htyped⟩

end Signpost.Service
