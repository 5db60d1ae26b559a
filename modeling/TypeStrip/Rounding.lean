/-!
# Rounded quotients

* `roundDiv`   the nearest natural number to a quotient, a half to the even one.
-/

namespace TypeStrip

/-- The natural number nearest to `num / den`; of two that are equally near, the even one. -/
def roundDiv (num den : Nat) : Nat :=
  let q := num / den
  let r := num % den
  if 2 * r < den then q
  else if den < 2 * r then q + 1
  else if q % 2 = 0 then q
  else q + 1

end TypeStrip
