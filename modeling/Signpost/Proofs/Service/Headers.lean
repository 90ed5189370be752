import Signpost.Service.Headers

/-!
# Looking up headers

Of the headers with one name only the first counts, and headers of other names make no difference.
-/
namespace Signpost

namespace Headers

variable {headers other : Headers} {name : String}

/-- The values of the headers with a name, in the order sent. -/
def valuesOf (headers : Headers) (name : String) : List (List UInt8) :=
  (headers.filter fun h => lowerCase h.1 = lowerCase name).map (·.2)

/-- The headers of all other names. -/
def without (headers : Headers) (name : String) : Headers :=
  headers.filter fun h => lowerCase h.1 ≠ lowerCase name

theorem first?_eq_head? : headers.first? name = (headers.valuesOf name).head? := by
  simp [first?, valuesOf]

theorem first?_congr (h : headers.valuesOf name = other.valuesOf name) :
    headers.first? name = other.first? name := by
  rw [first?_eq_head?, first?_eq_head?, h]

theorem textOf?_congr (h : headers.valuesOf name = other.valuesOf name) :
    headers.textOf? name = other.textOf? name := by
  rw [textOf?, textOf?, first?_congr h]

theorem bearerKey?_congr (h : headers.valuesOf "authorization" = other.valuesOf "authorization") :
    headers.bearerKey? = other.bearerKey? := by
  rw [bearerKey?, bearerKey?, textOf?_congr h]

theorem valuesOf_without_self : (headers.without name).valuesOf name = [] := by
  simp [valuesOf, without]

theorem valuesOf_without_of_ne {removed : String} (h : lowerCase name ≠ lowerCase removed) :
    (headers.without removed).valuesOf name = headers.valuesOf name := by
  rw [valuesOf, without, List.filter_filter, valuesOf]
  congr 1
  refine List.filter_congr fun x _ => ?_
  by_cases hx : lowerCase x.1 = lowerCase name
  · simp [hx, h]
  · simp [hx]

theorem contentLength?_without : (headers.without "content-length").contentLength? = none := by
  rw [contentLength?, textOf?, first?_eq_head?, valuesOf_without_self]
  rfl

end Headers

theorem ApiKeys.roles_congr (keys : ApiKeys) {headers other : Headers}
    (h : headers.valuesOf "authorization" = other.valuesOf "authorization") :
    keys.roles headers = keys.roles other := by
  rw [roles, roles, Headers.bearerKey?_congr h]

end Signpost
