import Mathlib.Data.List.Induction
import Signpost.Proofs.Service.Handlers
import Signpost.Proofs.Service.Refusals

/-!
# Which handlers can be bound

Whether registrations can be bound depends on what they say about each endpoint, and not on their
order. Once a set of endpoints has passed the check, a handler is bound to one endpoint, and of the
registrations that cannot be bound the first one with a fault is reported.
-/
namespace Signpost

open Json

variable {σ : Type}

namespace Handlers

variable {endpoints : List Endpoint} {registrations earlier : List (Registration σ)}
  {r : Registration σ}

/-- Each registration is for an endpoint, whose outputs it produces, and no other is for the
same. -/
structure Bindable (endpoints : List Endpoint) (registrations : List (Registration σ)) : Prop where
  declared : ∀ r ∈ registrations, r.signature ∈ endpoints.map Endpoint.signature
  outputs : ∀ r ∈ registrations, ∀ e ∈ endpoints, e.signature = r.signature → r.Produces e
  distinct : (registrations.map Registration.signature).Nodup

/-- What is wrong with a registration that follows others. -/
inductive Fault (endpoints : List Endpoint) (earlier : List (Registration σ))
    (r : Registration σ) : BindError → Prop
  | unknown (hr : r.signature ∉ endpoints.map Endpoint.signature) :
    Fault endpoints earlier r (.unknownEndpoint r.method r.pattern)
  | mismatched {e : Endpoint} {names declared produced : List String} (he : e ∈ endpoints)
      (hr : e.signature = r.signature) (hnames : r.outputs = some names)
      (hdeclared : Lists declared e.outputNames) (hproduced : Lists produced names)
      (hne : declared ≠ produced) :
    Fault endpoints earlier r (.outputMismatch r.method r.pattern declared produced)
  | repeated {e : Endpoint} (he : e ∈ endpoints) (hr : e.signature = r.signature)
      (houtputs : r.Produces e) (hagain : r.signature ∈ earlier.map Registration.signature) :
    Fault endpoints earlier r (.repeated r.method r.pattern)

theorem Bindable.perm {reordered : List (Registration σ)} (h : Bindable endpoints registrations)
    (hperm : registrations.Perm reordered) : Bindable endpoints reordered where
  declared r hr := h.declared r (hperm.mem_iff.2 hr)
  outputs r hr := h.outputs r (hperm.mem_iff.2 hr)
  distinct := (hperm.map _).nodup_iff.1 h.distinct

/-- What is required of a registration that follows others. -/
structure Admissible (endpoints : List Endpoint) (earlier : List (Registration σ))
    (r : Registration σ) : Prop where
  declared : r.signature ∈ endpoints.map Endpoint.signature
  outputs : ∀ e ∈ endpoints, e.signature = r.signature → r.Produces e
  fresh : r.signature ∉ earlier.map Registration.signature

theorem bindable_append_iff :
    Bindable endpoints (earlier ++ [r]) ↔
      Bindable endpoints earlier ∧ Admissible endpoints earlier r := by
  constructor
  · intro h
    obtain ⟨hdistinct, hfresh⟩ := nodup_append_iff.1 h.distinct
    obtain ⟨hdeclared, hlast⟩ := List.forall_mem_append.1 h.declared
    obtain ⟨houtputs, hlast'⟩ := List.forall_mem_append.1 h.outputs
    exact ⟨⟨hdeclared, houtputs, hdistinct⟩, ⟨hlast r (by simp), hlast' r (by simp), hfresh⟩⟩
  · intro ⟨h, hr⟩
    exact ⟨List.forall_mem_append.2 ⟨h.declared, List.forall_mem_singleton.2 hr.declared⟩,
      List.forall_mem_append.2 ⟨h.outputs, List.forall_mem_singleton.2 hr.outputs⟩,
      nodup_append_iff.2 ⟨h.distinct, hr.fresh⟩⟩

section Unique

variable (hunique : (endpoints.map Endpoint.signature).Nodup)
include hunique

theorem bindOne_of_admissible (h : Admissible endpoints earlier r) :
    bindOne (.build endpoints) (earlier.map entryOf) r = .ok ((earlier ++ [r]).map entryOf) := by
  obtain ⟨e, he, hsignature⟩ := List.mem_map.1 h.declared
  have hget := (RouteTable.get?_build_eq_some_iff hunique).2 ⟨he, hsignature⟩
  exact bindOne_eq_ok_iff.2 ⟨⟨e, hget, h.outputs e he hsignature⟩, h.fresh, rfl⟩

theorem bindOne_of_fault {err : BindError} (h : Fault endpoints earlier r err) :
    bindOne (.build endpoints) (earlier.map entryOf) r = .error err := by
  cases h with
  | unknown hr => simp only [bindOne, RouteTable.get?_build_eq_none_iff.2 hr]
  | @mismatched e names declared produced he hr hnames hdeclared hproduced hne =>
    have hget := (RouteTable.get?_build_eq_some_iff hunique).2 ⟨he, hr⟩
    obtain rfl := (hdeclared.eq_iff (lists_distinctNames _)).2 fun _ => Iff.rfl
    obtain rfl := (hproduced.eq_iff (lists_distinctNames _)).2 fun _ => Iff.rfl
    simp only [bindOne, hget, hnames, Option.map_some, Option.getD_some, if_pos hne.symm]
  | @repeated e he hr houtputs hagain =>
    have hget := (RouteTable.get?_build_eq_some_iff hunique).2 ⟨he, hr⟩
    have hproduced := (r.produced_eq_declared_iff e).2 houtputs
    have hfound := isSome_find?_iff.2 hagain
    rw [Registration.signature] at hfound
    simp only [bindOne, hget, hproduced, ne_eq, not_true_eq_false, if_false, if_pos hfound]

theorem admissible_or_fault (earlier : List (Registration σ)) (r : Registration σ) :
    Admissible endpoints earlier r ∨ ∃ err, Fault endpoints earlier r err := by
  by_cases hdeclared : r.signature ∈ endpoints.map Endpoint.signature
  · obtain ⟨e, he, hr⟩ := List.mem_map.1 hdeclared
    by_cases houtputs : r.Produces e
    · by_cases hagain : r.signature ∈ earlier.map Registration.signature
      · exact .inr ⟨_, .repeated he hr houtputs hagain⟩
      · refine .inl ⟨hdeclared, fun e' he' hr' => ?_, hagain⟩
        rwa [List.inj_on_of_nodup_map hunique he' he (hr'.trans hr.symm)]
    · cases hnames : r.outputs with
      | none => simp [Registration.Produces, hnames] at houtputs
      | some names =>
        have hdeclared := lists_distinctNames e.outputNames
        have hproduced := lists_distinctNames names
        refine .inr ⟨_, .mismatched he hr hnames hdeclared hproduced fun heq => houtputs ?_⟩
        intro names' hnames'
        obtain rfl := Option.some.inj (hnames.symm.trans hnames')
        exact (hproduced.eq_iff hdeclared).1 heq.symm
  · exact .inr ⟨_, .unknown hdeclared⟩

theorem foldlM_of_bindable (h : Bindable endpoints registrations) :
    registrations.foldlM (bindOne (.build endpoints)) [] = .ok (registrations.map entryOf) := by
  induction registrations using List.reverseRecOn with
  | nil => rfl
  | append_singleton earlier r ih =>
    obtain ⟨hearlier, hr⟩ := bindable_append_iff.1 h
    rw [List.foldlM_append]
    refine bind_eq_ok_iff.2 ⟨_, ih hearlier, ?_⟩
    rw [List.foldlM_cons]
    exact bind_eq_ok_iff.2 ⟨_, bindOne_of_admissible hunique hr, rfl⟩

theorem foldlM_of_fault {err : BindError} {after : List (Registration σ)}
    (hearlier : Bindable endpoints earlier) (h : Fault endpoints earlier r err) :
    (earlier ++ r :: after).foldlM (bindOne (.build endpoints)) [] = .error err := by
  rw [List.foldlM_append]
  refine bind_eq_error_iff.2 (.inr ⟨_, foldlM_of_bindable hunique hearlier, ?_⟩)
  rw [List.foldlM_cons]
  exact bind_eq_error_iff.2 (.inl (bindOne_of_fault hunique h))

/-- Either all registrations can be bound, or there is a first one that cannot. -/
theorem bindable_or_fault (registrations : List (Registration σ)) :
    Bindable endpoints registrations ∨
      ∃ earlier r after err, registrations = earlier ++ r :: after ∧
        Bindable endpoints earlier ∧ Fault endpoints earlier r err := by
  -- At the end of the list, so that the fault of a new registration is the first if there is none.
  induction registrations using List.reverseRecOn with
  | nil => exact .inl ⟨by simp, by simp, by simp⟩
  | append_singleton init last ih =>
    rcases ih with hinit | ⟨earlier, r, after, err, rfl, hearlier, hfault⟩
    · rcases admissible_or_fault hunique init last with hlast | ⟨err, hfault⟩
      · exact .inl (bindable_append_iff.2 ⟨hinit, hlast⟩)
      · exact .inr ⟨init, last, [], err, rfl, hinit, hfault⟩
    · exact .inr ⟨earlier, r, after ++ [last], err, by simp, hearlier, hfault⟩

theorem bind_of_bindable (h : Bindable endpoints registrations) :
    ∃ handlers, bind (.build endpoints) registrations = .ok handlers := by
  simp [bind, foldlM_of_bindable hunique h, Except.map]

theorem bind_of_fault {err : BindError} {after : List (Registration σ)}
    (hearlier : Bindable endpoints earlier) (h : Fault endpoints earlier r err) :
    bind (.build endpoints) (earlier ++ r :: after) = .error err := by
  rw [bind, foldlM_of_fault hunique hearlier h]
  rfl

theorem isOk_bind_iff :
    (bind (.build endpoints) registrations).isOk = true ↔ Bindable endpoints registrations := by
  refine ⟨fun h => ?_, fun h => isOk_iff.2 (bind_of_bindable hunique h)⟩
  rcases bindable_or_fault hunique registrations with hbindable | hfault
  · exact hbindable
  · obtain ⟨earlier, r, after, err, rfl, hearlier, hfault⟩ := hfault
    rw [bind_of_fault hunique hearlier hfault] at h
    cases h

theorem bind_fails_iff {err : BindError} :
    bind (.build endpoints) registrations = .error err ↔
      ∃ earlier r after, registrations = earlier ++ r :: after ∧
        Bindable endpoints earlier ∧ Fault endpoints earlier r err := by
  constructor
  · intro h
    rcases bindable_or_fault hunique registrations with hbindable | hfault
    · obtain ⟨handlers, hok⟩ := bind_of_bindable hunique hbindable
      rw [hok] at h
      cases h
    · obtain ⟨earlier, r, after, err', hsplit, hearlier, hfault⟩ := hfault
      have hfails : bind (.build endpoints) (earlier ++ r :: after) = .error err' :=
        bind_of_fault hunique hearlier hfault
      rw [← hsplit, h] at hfails
      obtain rfl := Except.error.inj hfails
      exact ⟨earlier, r, after, hsplit, hearlier, hfault⟩
  · rintro ⟨earlier, r, after, rfl, hearlier, hfault⟩
    exact bind_of_fault hunique hearlier hfault

end Unique

/-- Each endpoint has the handler that was registered for it, or is listed as having none. -/
structure Serving (endpoints : List Endpoint) (registrations : List (Registration σ))
    (h : Handlers σ) : Prop where
  get?_iff : ∀ e handler, h.get? e = some handler ↔
    ∃ r ∈ registrations, r.signature = e.signature ∧ r.handler = handler
  apart : endpoints.Pairwise fun a b =>
    ∀ r ∈ registrations, r.signature = a.signature → r.signature ≠ b.signature
  unbound : h.unbound = (endpoints.filter fun e =>
    e.signature ∉ registrations.map Registration.signature).map Endpoint.title

theorem serving_of_bind (hunique : (endpoints.map Endpoint.signature).Nodup) {h : Handlers σ}
    (hbind : bind (.build endpoints) registrations = .ok h) :
    Serving endpoints registrations h := by
  have hbindable := (isOk_bind_iff hunique).1 (isOk_iff.2 ⟨h, hbind⟩)
  constructor
  · exact fun e handler => get?_eq_some_iff_of_bind hbind
  · refine (List.pairwise_map.1 hunique).imp fun hne r _ ha hb => hne ?_
    rw [← ha, hb]
  · obtain ⟨bound, hbound, rfl⟩ := map_eq_ok_iff.1 hbind
    rw [foldlM_of_bindable hunique hbindable] at hbound
    obtain rfl := Except.ok.inj hbound
    refine congrArg (List.map Endpoint.title) (List.filter_congr fun e _ => ?_)
    have hfind : (find? (registrations.map entryOf) (e.method, e.pattern)).isSome ↔
        e.signature ∈ registrations.map Registration.signature := isSome_find?_iff
    rw [Bool.eq_iff_iff, decide_eq_true_iff, ← hfind]
    simp

theorem Serving.isSome_get? {h : Handlers σ} (hserving : Serving endpoints registrations h)
    (hnone : h.unbound = []) {e : Endpoint} (he : e ∈ endpoints) : (h.get? e).isSome := by
  have hempty := hserving.unbound.symm.trans hnone
  rw [List.map_eq_nil_iff, List.filter_eq_nil_iff] at hempty
  have hmem : e.signature ∈ registrations.map Registration.signature := by
    simpa using hempty e he
  obtain ⟨r, hr, hsignature⟩ := List.mem_map.1 hmem
  rw [(hserving.get?_iff e r.handler).2 ⟨r, hr, hsignature, rfl⟩]
  rfl

end Handlers

namespace Service

variable {s : Service σ} {request : Request}

theorem params_ne_notImplemented (r : Routed) :
    s.params r request ≠ .error .notImplemented := by
  intro h
  rcases refusal_of_params h with hbody | ⟨p, -, query, form, hrefused⟩
  · simp at hbody
  · simpa using Parameter.refusal_of_input hrefused

/-- A request is refused for want of a handler only if its endpoint has none. -/
theorem get?_eq_none_of_prepare (h : s.prepare request = .error .notImplemented) :
    ∃ routed, s.route request.method request.path = .ok routed ∧
      s.handlers.get? routed.found.endpoint = none := by
  rcases refusal_of_prepare h with hadmission | ⟨routed, hroute, hparams | ⟨hnone, -⟩⟩
  · simpa using admission_eq_error_iff.1 hadmission
  · exact absurd hparams (params_ne_notImplemented routed)
  · exact ⟨routed, hroute, hnone⟩

/-- Where every endpoint has a handler, a request is never refused for want of one. -/
theorem implemented {endpoints : List Endpoint} (htable : s.table = .build endpoints)
    (hsome : ∀ e ∈ endpoints, (s.handlers.get? e).isSome) (request : Request) :
    s.prepare request ≠ .error .notImplemented ∧
      ∀ state, (s.dispatch request state).1 = .error .notImplemented →
        ∃ handler context, s.prepare request = .ok (handler, context) ∧
          (handler context state).1 = .error .notImplemented := by
  have hprepare : s.prepare request ≠ .error .notImplemented := by
    intro h
    obtain ⟨routed, hroute, hnone⟩ := get?_eq_none_of_prepare h
    simpa [hnone] using hsome _ (endpoint_mem_of_route htable hroute)
  refine ⟨hprepare, fun state h => ?_⟩
  rcases refusal_of_dispatch h with herror | ⟨handler, context, hcall, hown | ⟨p, -, hmissing⟩⟩
  · exact absurd herror hprepare
  · exact ⟨handler, context, hcall, hown⟩
  · cases hmissing

end Service

/-- Whether handlers can be bound does not depend on their order. If they can be, every endpoint has
the handler that was registered for it and shares it with no other, and where none is left without
one, the dispatcher itself never answers that something is not implemented. If they cannot be, the
first registration with a fault is reported. -/
theorem Handlers.bind_decides {entries : List Manifest.Entry} {endpoints : List Endpoint}
    {types : Registry} (hcompile : Manifest.compile entries = .ok endpoints)
    (ok : Endpoint.checkAll types endpoints = .ok ()) (registrations : List (Registration σ)) :
    ((bind (.build endpoints) registrations).isOk = true ↔ Bindable endpoints registrations) ∧
    (∀ reordered : List (Registration σ), reordered.Perm registrations →
      (bind (.build endpoints) reordered).isOk = (bind (.build endpoints) registrations).isOk) ∧
    (∀ h, bind (.build endpoints) registrations = .ok h →
      Serving endpoints registrations h ∧
      (h.unbound = [] → ∀ s : Service σ, s.table = .build endpoints → s.handlers = h →
        ∀ request, s.prepare request ≠ .error .notImplemented ∧
          ∀ state, (s.dispatch request state).1 = .error .notImplemented →
            ∃ handler context, s.prepare request = .ok (handler, context) ∧
              (handler context state).1 = .error .notImplemented)) ∧
    ∀ err, bind (.build endpoints) registrations = .error err ↔
      ∃ earlier r after, registrations = earlier ++ r :: after ∧
        Bindable endpoints earlier ∧ Fault endpoints earlier r err := by
  have hunique := Endpoint.nodup_signatures hcompile ok
  refine ⟨isOk_bind_iff hunique, fun reordered hperm => ?_, fun h hbind => ?_,
    fun err => bind_fails_iff hunique⟩
  · rw [Bool.eq_iff_iff, isOk_bind_iff hunique, isOk_bind_iff hunique]
    exact ⟨fun h => h.perm hperm, fun h => h.perm hperm.symm⟩
  · have hserving := serving_of_bind hunique hbind
    refine ⟨hserving, fun hnone s htable hhandlers => ?_⟩
    exact Service.implemented htable fun e he => hhandlers ▸ hserving.isSome_get? hnone he

/-- A handler that renames a user, with the outputs of the endpoint. -/
def Registration.rename : Registration Unit where
  method := .put
  pattern := "/users/\x7bid\x7d"
  outputs := some ["ID", "ID"]
  handler := fun context state => (.ok (.ofList [("ID", .ofNat context.params.size)]), state)

theorem Handlers.bind_decides_rename :
    ∃ endpoints, Manifest.compile [Endpoint.renameUser] = .ok endpoints ∧
      Bindable endpoints [Registration.rename] ∧
      ∃ earlier r after, [Registration.rename, .rename] = earlier ++ r :: after ∧
        Bindable endpoints earlier ∧
          Fault endpoints earlier r (.repeated .put "/users/\x7bid\x7d") := by
  have hrun : (Manifest.compile [Endpoint.renameUser]).toOption.any (fun endpoints =>
      decide (Endpoint.checkAll .builtin endpoints = .ok ()) &&
        (bind (.build endpoints) [Registration.rename]).isOk &&
        decide (failure? (bind (.build endpoints) [Registration.rename, .rename]) =
          some (.repeated .put "/users/\x7bid\x7d"))) = true := by decide +kernel
  obtain ⟨endpoints, hcompile, hrun⟩ := exists_of_any_toOption hrun
  simp only [Bool.and_eq_true, decide_eq_true_eq] at hrun
  obtain ⟨⟨hcheck, hok⟩, hfails⟩ := hrun
  have hone := bind_decides hcompile hcheck [Registration.rename]
  have htwice := bind_decides hcompile hcheck [Registration.rename, .rename]
  exact ⟨endpoints, hcompile, hone.1.1 hok, (htwice.2.2.2 _).1 (failure?_eq_some_iff.1 hfails)⟩

end Signpost
