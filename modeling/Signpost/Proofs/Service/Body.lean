import Signpost.Service.Body

/-!
# How much of a body is read

A body is read if its bytes are within the limit, however they are cut into chunks, and a limiter in
front of the reader only lowers its limit. A body that is not read is too long, or within the limit
and broken off by the transport.
-/
namespace Signpost

namespace BodyError

/-- An error of the transport, however often it has been wrapped. -/
inductive FromTransport : BodyError → Prop
  | transport : FromTransport transport
  | wrapped {source : BodyError} (h : source.FromTransport) : FromTransport source.wrapped

/-- A limiter is found among the sources of all errors but those of the transport. -/
theorem isOverLimit_eq_false_iff {e : BodyError} : e.isOverLimit = false ↔ e.FromTransport := by
  constructor
  · intro h
    induction e with
    | transport => exact .transport
    | overLimit => cases h
    | wrapped source ih => exact .wrapped (ih h)
  · intro h
    induction h with
    | transport => rfl
    | wrapped _ ih => exact ih

theorem refusal_of_isOverLimit {e : BodyError} (h : e.isOverLimit = true) :
    e.refusal = .tooLarge := by
  simp [refusal, h]

theorem refusal_of_fromTransport {e : BodyError} (h : e.FromTransport) :
    e.refusal = .malformedBody := by
  simp [refusal, isOverLimit_eq_false_iff.2 h]

end BodyError

namespace Body

/-- The number of bytes that arrive. -/
def length (b : Body) : Nat := b.chunks.flatten.length

theorem within_of_le {limit : Nat} {chunks : List (List UInt8)}
    (h : chunks.flatten.length ≤ limit) : within limit chunks = (chunks, false) := by
  induction chunks generalizing limit with
  | nil => rfl
  | cons chunk rest ih =>
    simp only [List.flatten_cons, List.length_append] at h
    have hchunk : ¬ limit < chunk.length := by omega
    have hrest : within (limit - chunk.length) rest = (rest, false) := ih (by omega)
    simp [within, hchunk, hrest]

theorem more_of_lt {limit : Nat} {chunks : List (List UInt8)}
    (h : limit < chunks.flatten.length) : (within limit chunks).2 = true := by
  induction chunks generalizing limit with
  | nil => simp at h
  | cons chunk rest ih =>
    simp only [List.flatten_cons, List.length_append] at h
    by_cases hchunk : limit < chunk.length
    · simp [within, hchunk]
    · have hrest : (within (limit - chunk.length) rest).2 = true := ih (by omega)
      simp [within, hchunk, hrest]

/-- A limiter is among the sources of the error that the body ends with. -/
def CutShort (b : Body) : Prop := ∃ e, b.ending = .failed e ∧ e.isOverLimit = true

theorem length_wrapped (b : Body) : b.wrapped.length = b.length := rfl

theorem collect_wrapped (b : Body) : b.wrapped.collect = b.collect := by
  obtain ⟨chunks, ending⟩ := b
  cases ending with
  | complete => rfl
  | failed e => rfl

theorem cap_of_le {limit : Nat} {b : Body} (h : b.length ≤ limit) : b.cap limit = b.wrapped := by
  simp [cap, within_of_le h]

theorem cutShort_cap_of_lt {limit : Nat} {b : Body} (h : limit < b.length) :
    (b.cap limit).CutShort := by
  have hending : (b.cap limit).ending = .failed (.wrapped .overLimit) := by
    simp [cap, wrapped, BodyEnd.wrapped, more_of_lt h]
  exact ⟨_, hending, rfl⟩

theorem collect_of_cutShort {b : Body} (h : b.CutShort) : b.collect = .error .tooLarge := by
  obtain ⟨e, hending, hover⟩ := h
  simp [collect, hending, BodyError.refusal_of_isOverLimit hover]

theorem collect_eq_ok_iff {b : Body} {bytes : List UInt8} :
    b.collect = .ok bytes ↔ b.ending = .complete ∧ b.chunks.flatten = bytes := by
  obtain ⟨chunks, ending⟩ := b
  cases ending with
  | complete => simp [collect]
  | failed e => simp [collect]

/-- A body within the limit is read to its end, and no other is. -/
theorem read_eq_ite (limit : Nat) (b : Body) :
    b.read limit = if b.length ≤ limit then b.collect else .error .tooLarge := by
  rw [read]
  split
  next h => rw [cap_of_le h, collect_wrapped]
  next h => exact collect_of_cutShort (cutShort_cap_of_lt (by omega))

theorem read_of_cutShort {b : Body} (limit : Nat) (h : b.CutShort) :
    b.read limit = .error .tooLarge := by
  rw [read_eq_ite, collect_of_cutShort h, ite_self]

theorem read_wrapped (limit : Nat) (b : Body) : b.wrapped.read limit = b.read limit := by
  rw [read_eq_ite, read_eq_ite, length_wrapped, collect_wrapped]

/-- A reader behind a limiter keeps the smaller limit of the two. -/
theorem read_cap (first second : Nat) (b : Body) :
    (b.cap first).read second = b.read (first.min second) := by
  -- Past the first limit the body is cut at the end of a chunk, maybe within the second.
  by_cases h : b.length ≤ first
  · have hmin : b.length ≤ first.min second ↔ b.length ≤ second := by
      rw [Nat.le_min]
      exact and_iff_right h
    rw [cap_of_le h, read_wrapped, read_eq_ite, read_eq_ite]
    simp only [hmin]
  · have hlong : ¬ b.length ≤ first.min second := by
      rw [Nat.le_min]
      omega
    rw [read_of_cutShort second (cutShort_cap_of_lt (by omega)), read_eq_ite, if_neg hlong]

theorem read_eq_ok_iff {limit : Nat} {b : Body} {bytes : List UInt8} :
    b.read limit = .ok bytes ↔
      b.ending = .complete ∧ b.length ≤ limit ∧ b.chunks.flatten = bytes := by
  rw [read_eq_ite]
  split
  next h => simp [collect_eq_ok_iff, h]
  next h => simp [h]

/-- A body as the transport delivers it: to its end, or until the transport fails. -/
inductive Delivered : Body → Prop
  | complete (chunks : List (List UInt8)) : Delivered ⟨chunks, .complete⟩
  | broken (chunks : List (List UInt8)) {e : BodyError} (h : e.FromTransport) :
      Delivered ⟨chunks, .failed e⟩

theorem collect_of_delivered {b : Body} (h : b.Delivered) :
    b.collect = if b.ending = .complete then .ok b.chunks.flatten else .error .malformedBody := by
  cases h with
  | complete chunks => rfl
  | broken chunks he => simp [collect, BodyError.refusal_of_fromTransport he]

theorem collect_ne_tooLarge {b : Body} (h : b.Delivered) : b.collect ≠ .error .tooLarge := by
  rw [collect_of_delivered h]
  split <;> simp

theorem collect_eq_malformedBody_iff {b : Body} (h : b.Delivered) :
    b.collect = .error .malformedBody ↔ b.ending ≠ .complete := by
  rw [collect_of_delivered h]
  split <;> simp_all

theorem read_eq_tooLarge_iff {b : Body} (h : b.Delivered) {limit : Nat} :
    b.read limit = .error .tooLarge ↔ limit < b.length := by
  rw [read_eq_ite]
  split
  next hle => simp [collect_ne_tooLarge h, hle]
  next hlong => simpa using hlong

theorem read_eq_malformedBody_iff {b : Body} (h : b.Delivered) {limit : Nat} :
    b.read limit = .error .malformedBody ↔ b.length ≤ limit ∧ b.ending ≠ .complete := by
  rw [read_eq_ite]
  split
  next hle => simp [collect_eq_malformedBody_iff h, hle]
  next hlong => simp [hlong]

/-- What is read of a body that is delivered depends on its bytes and on whether it is complete. -/
theorem read_congr {b b' : Body} (h : b.Delivered) (h' : b'.Delivered)
    (hbytes : b'.chunks.flatten = b.chunks.flatten)
    (hending : b'.ending = .complete ↔ b.ending = .complete) (limit : Nat) :
    b'.read limit = b.read limit := by
  have hlength : b'.length = b.length := by rw [length, length, hbytes]
  rw [read_eq_ite, read_eq_ite, collect_of_delivered h, collect_of_delivered h', hlength, hbytes]
  simp only [hending]

/-- A body is read if all of it arrives and is within the limit, and what is read are its bytes. A
longer one is refused as too large, even if the transport fails after it, and one that breaks off
within the limit as malformed. It makes no difference how the bytes are cut into chunks, nor whether
the body has passed another limiter of that limit. -/
theorem read_exactly_within {b : Body} (h : b.Delivered) (limit : Nat) :
    (∀ bytes, b.read limit = .ok bytes ↔
      b.ending = .complete ∧ b.length ≤ limit ∧ b.chunks.flatten = bytes) ∧
    (b.read limit = .error .tooLarge ↔ limit < b.length) ∧
    (b.read limit = .error .malformedBody ↔ b.length ≤ limit ∧ b.ending ≠ .complete) ∧
    (∀ b' : Body, b'.Delivered → b'.chunks.flatten = b.chunks.flatten →
      (b'.ending = .complete ↔ b.ending = .complete) → b'.read limit = b.read limit) ∧
    (b.cap limit).read limit = b.read limit := by
  have hcap : (b.cap limit).read limit = b.read limit := by
    rw [read_cap]
    congr 1
    exact Nat.min_self limit
  exact ⟨fun bytes => read_eq_ok_iff, read_eq_tooLarge_iff h, read_eq_malformedBody_iff h,
    fun b' h' hbytes hending => read_congr h h' hbytes hending limit, hcap⟩

/-- Five bytes in four chunks, and then an error of the transport that has been handed on twice. -/
def brokenBody : Body :=
  ⟨[[1, 2], [], [3, 4], [5]], .failed (.wrapped (.wrapped .transport))⟩

/-- The fifth byte decides why that body is refused. -/
theorem read_exactly_within_brokenBody :
    brokenBody.Delivered ∧ brokenBody.read 4 = .error .tooLarge ∧
      brokenBody.read 5 = .error .malformedBody := by
  have h : brokenBody.Delivered := .broken _ (.wrapped (.wrapped .transport))
  obtain ⟨-, hlarge, -⟩ := read_exactly_within h 4
  obtain ⟨-, -, hmalformed, -⟩ := read_exactly_within h 5
  exact ⟨h, hlarge.2 (by decide), hmalformed.2 (by decide)⟩

end Body

end Signpost
