import Mathlib.Algebra.Field.Basic
import Mathlib.Algebra.Group.Even
import Mathlib.Tactic.FieldSimp
import Mathlib.Tactic.LinearCombination
import Mathlib.Tactic.Ring

/-!
# The group of an Edwards curve

The points of `y² - x² = 1 + d·x²·y²` over a field where -1 is a square and `d` is none, with the
addition `((x·y' + x'·y) / (1 + e), (y·y' + x·x') / (1 - e))` for `e = d·x·x'·y·y'`.

* `EdwardsCurve.Point.one_add_cross_ne_zero` and `one_sub_cross_ne_zero` say that no denominator of
  a sum is zero, so that the addition law has no exceptions.
* The instance of `AddCommGroup` at the end is the group. The one long identity that it needs is
  `sumX3_mul_den3`, for the first coordinate of a sum of three points. The second coordinate is the
  first one after the sum is turned by a point of order four (`EdwardsCurve.Point.turn`).
-/

namespace StakeLedger

/-- A curve `y² - x² = 1 + d·x²·y²` on which any two points can be added. -/
structure EdwardsCurve (K : Type) [Field K] where
  /-- The coefficient. -/
  d : K
  /-- A square root of minus one. -/
  i : K
  i_sq : i ^ 2 = -1
  not_isSquare_d : ¬ IsSquare d

namespace EdwardsCurve

variable {K : Type} [Field K]

/-- A point of the curve. -/
@[ext]
structure Point (E : EdwardsCurve K) where
  x : K
  y : K
  on_curve : y ^ 2 - x ^ 2 = 1 + E.d * x ^ 2 * y ^ 2

namespace Point

variable {E : EdwardsCurve K} (P Q R : E.Point)

/-- The neutral element. -/
instance : Zero E.Point := ⟨⟨0, 1, by ring⟩⟩

/-- The negative of a point. -/
instance : Neg E.Point := ⟨fun P => ⟨-P.x, P.y, by linear_combination P.on_curve⟩⟩

@[simp]
theorem x_zero : (0 : E.Point).x = 0 := rfl

@[simp]
theorem y_zero : (0 : E.Point).y = 1 := rfl

@[simp]
theorem x_neg : (-P).x = -P.x := rfl

@[simp]
theorem y_neg : (-P).y = P.y := rfl

/-- What decides about the denominators of a sum. -/
def cross : K := E.d * (P.x * Q.x) * (P.y * Q.y)

/-- The numerator of the first coordinate of a sum. -/
def sumX : K := P.x * Q.y + Q.x * P.y

/-- The numerator of the second coordinate of a sum. -/
def sumY : K := P.y * Q.y + P.x * Q.x

theorem cross_comm : P.cross Q = Q.cross P := by
  rw [cross, cross]
  ring

/-! ## Denominators -/

/-- If a denominator were zero, then the coefficient would be a square, or a coordinate zero. -/
theorem add_mul_eq_zero {j : K} (hj : j ^ 2 = -1) (h : P.cross Q ^ 2 = 1) :
    Q.y + j * Q.x = 0 := by
  by_contra hne
  have hcross : P.cross Q ≠ 0 := by
    rintro h0
    rw [h0] at h
    simp at h
  have hxy : P.x * P.y ≠ 0 := by
    rintro h0
    refine hcross ?_
    rw [cross]
    linear_combination E.d * Q.x * Q.y * h0
  -- the square of `e·y + j·x` is `d` times that of `x·y·(y' + j·x')`
  have hsquare : (P.cross Q * P.y + j * P.x) ^ 2 = E.d * (P.x * P.y * (Q.y + j * Q.x)) ^ 2 := by
    have hP := P.on_curve
    have hQ := Q.on_curve
    rw [cross] at h ⊢
    linear_combination (P.x ^ 2 - E.d * P.x ^ 2 * P.y ^ 2 * Q.x ^ 2) * hj + (P.y ^ 2 - 1) * h +
      hP - E.d * P.x ^ 2 * P.y ^ 2 * hQ
  refine E.not_isSquare_d ⟨(P.cross Q * P.y + j * P.x) / (P.x * P.y * (Q.y + j * Q.x)), ?_⟩
  have hne' : P.x * P.y * (Q.y + j * Q.x) ≠ 0 := mul_ne_zero hxy hne
  rw [← sq, div_pow, hsquare, mul_div_cancel_right₀ _ (pow_ne_zero 2 hne')]

theorem cross_sq_ne_one [NeZero (2 : K)] : P.cross Q ^ 2 ≠ 1 := by
  intro h
  have hneg : (-E.i) ^ 2 = -1 := by rw [neg_sq, E.i_sq]
  have hplus := add_mul_eq_zero P Q E.i_sq h
  have hminus := add_mul_eq_zero P Q hneg h
  have hy : 2 * Q.y = 0 := by linear_combination hplus + hminus
  have hy : Q.y = 0 := (mul_eq_zero.mp hy).resolve_left two_ne_zero
  rw [cross, hy] at h
  simp at h

theorem one_add_cross_ne_zero [NeZero (2 : K)] : 1 + P.cross Q ≠ 0 := by
  intro h
  exact cross_sq_ne_one P Q (by linear_combination (P.cross Q - 1) * h)

theorem one_sub_cross_ne_zero [NeZero (2 : K)] : 1 - P.cross Q ≠ 0 := by
  intro h
  exact cross_sq_ne_one P Q (by linear_combination (-P.cross Q - 1) * h)

/-! ## Points with one second coordinate -/

theorem one_add_mul_sq_ne_zero (E : EdwardsCurve K) (y : K) : 1 + E.d * y ^ 2 ≠ 0 := by
  intro h
  have hy : y ≠ 0 := by
    rintro rfl
    simp at h
  refine E.not_isSquare_d ⟨E.i / y, ?_⟩
  have hi := E.i_sq
  field_simp
  linear_combination h - hi

theorem eq_or_eq_neg_of_y_eq {P Q : E.Point} (h : P.y = Q.y) : P = Q ∨ P = -Q := by
  have hsq : P.x ^ 2 = Q.x ^ 2 := by
    have hP := P.on_curve
    have hQ := Q.on_curve
    rw [h] at hP
    refine mul_right_cancel₀ (one_add_mul_sq_ne_zero E Q.y) ?_
    linear_combination hQ - hP
  rcases sq_eq_sq_iff_eq_or_eq_neg.mp hsq with hx | hx
  · exact .inl (Point.ext hx h)
  · exact .inr (Point.ext hx h)

/-! ## The sum -/

/-- The numerators and denominators of a sum fulfil the equation of the curve. -/
theorem sumY_sq_sub_sumX_sq :
    P.sumY Q ^ 2 * (1 + P.cross Q) ^ 2 - P.sumX Q ^ 2 * (1 - P.cross Q) ^ 2 =
      (1 + P.cross Q) ^ 2 * (1 - P.cross Q) ^ 2 + E.d * P.sumX Q ^ 2 * P.sumY Q ^ 2 := by
  have hP := P.on_curve
  have hQ := Q.on_curve
  rw [cross, sumX, sumY]
  -- with `c = y² - x²` and `u = d·x²·y²`, both sides differ by
  -- `(c - u·c') · (c' - u'·c) - (1 - u·u')²`
  let c := P.y ^ 2 - P.x ^ 2
  let u := E.d * P.x ^ 2 * P.y ^ 2
  let c' := Q.y ^ 2 - Q.x ^ 2
  let u' := E.d * Q.x ^ 2 * Q.y ^ 2
  linear_combination (c' - u' * c - u' * (1 - u * u')) * hP +
    (1 - u * u' - u * (c' - u' * c)) * hQ

variable [NeZero (2 : K)]

/-- The sum of two points. -/
instance : Add E.Point where
  add P Q := ⟨P.sumX Q / (1 + P.cross Q), P.sumY Q / (1 - P.cross Q), by
    have hadd := one_add_cross_ne_zero P Q
    have hsub := one_sub_cross_ne_zero P Q
    field_simp
    linear_combination sumY_sq_sub_sumX_sq P Q⟩

theorem x_add : (P + Q).x = P.sumX Q / (1 + P.cross Q) := rfl

theorem y_add : (P + Q).y = P.sumY Q / (1 - P.cross Q) := rfl

/-! ## Three points -/

/-- The numerator of the first coordinate of a sum of three points. -/
def sumX3 : K :=
  P.sumX Q * (1 - P.cross Q) * R.y + R.x * P.sumY Q * (1 + P.cross Q)

/-- The denominator of the first coordinate of a sum of three points. -/
def den3 : K :=
  (1 + P.cross Q) * (1 - P.cross Q) + E.d * P.sumX Q * P.sumY Q * R.x * R.y

theorem den3_eq : P.den3 Q R = (1 + P.cross Q) * (1 - P.cross Q) * (1 + (P + Q).cross R) := by
  have hadd := one_add_cross_ne_zero P Q
  have hsub := one_sub_cross_ne_zero P Q
  have hcross : (P + Q).cross R =
      E.d * (P.sumX Q / (1 + P.cross Q) * R.x) * (P.sumY Q / (1 - P.cross Q) * R.y) := rfl
  rw [den3, hcross]
  field_simp

theorem den3_ne_zero : P.den3 Q R ≠ 0 := by
  rw [den3_eq]
  exact mul_ne_zero (mul_ne_zero (one_add_cross_ne_zero P Q) (one_sub_cross_ne_zero P Q))
    (one_add_cross_ne_zero (P + Q) R)

theorem x_add_add : (P + Q + R).x = P.sumX3 Q R / P.den3 Q R := by
  have hadd := one_add_cross_ne_zero P Q
  have hsub := one_sub_cross_ne_zero P Q
  have hden := one_add_cross_ne_zero (P + Q) R
  have hsum : (P + Q).sumX R =
      P.sumX Q / (1 + P.cross Q) * R.y + R.x * (P.sumY Q / (1 - P.cross Q)) := rfl
  rw [x_add, den3_eq, hsum, sumX3]
  field_simp

omit [NeZero (2 : K)] in
/-- The two ways to add three points agree, as far as the first coordinate is concerned. -/
theorem sumX3_mul_den3 : P.sumX3 Q R * R.den3 Q P = R.sumX3 Q P * P.den3 Q R := by
  have hP := P.on_curve
  have hQ := Q.on_curve
  have hR := R.on_curve
  simp only [sumX3, den3, sumX, sumY, cross]
  let s := P.x * Q.x * R.x + P.x * Q.y * R.y + P.y * Q.x * R.y + P.y * Q.y * R.x
  let u := P.x * Q.x * R.x - P.x * Q.y * R.y - P.y * Q.x * R.y + P.y * Q.y * R.x
  let w := -P.x * Q.x * R.x - P.x * Q.y * R.y + P.y * Q.x * R.y + P.y * Q.y * R.x
  let p := P.x * P.y
  let q := Q.x * Q.y
  let r := R.x * R.y
  linear_combination E.d * q *
    ((q * (R.y ^ 2 - R.x ^ 2 - 1) * s - r * w) * hP + E.d * p * r * (p * w + r * u) * hQ -
      (p * u + q * (P.y ^ 2 - P.x ^ 2 - 1) * s) * hR)

/-! ## The group -/

/-- The sum with the point `(i, 0)`, which is of order four. -/
def turn : E.Point := ⟨E.i * P.y, E.i * P.x, by
  have hi := E.i_sq
  linear_combination P.on_curve + (P.x ^ 2 - P.y ^ 2 -
    E.d * P.x ^ 2 * P.y ^ 2 * (E.i ^ 2 - 1)) * hi⟩

theorem turn_add : P.turn + Q = (P + Q).turn := by
  have hi := E.i_sq
  have hcross : P.turn.cross Q = -P.cross Q := by
    simp only [cross, turn]
    linear_combination E.d * P.x * P.y * Q.x * Q.y * hi
  have hx : P.turn.sumX Q = E.i * P.sumY Q := by
    simp only [sumX, sumY, turn]
    ring
  have hy : P.turn.sumY Q = E.i * P.sumX Q := by
    simp only [sumX, sumY, turn]
    ring
  ext
  · rw [x_add, hcross, hx, ← sub_eq_add_neg, mul_div_assoc]
    rfl
  · rw [y_add, hcross, hy, sub_neg_eq_add, mul_div_assoc]
    rfl

theorem sum_comm : P + Q = Q + P := by
  ext
  · rw [x_add, x_add, cross_comm, sumX, sumX, add_comm]
  · rw [y_add, y_add, cross_comm, sumY, sumY, mul_comm P.y, mul_comm P.x]

theorem x_sum_assoc : (P + Q + R).x = (P + (Q + R)).x := by
  rw [sum_comm P (Q + R), sum_comm Q R, x_add_add, x_add_add,
    div_eq_div_iff (den3_ne_zero P Q R) (den3_ne_zero R Q P), sumX3_mul_den3]

theorem sum_assoc : P + Q + R = P + (Q + R) := by
  ext
  · exact x_sum_assoc P Q R
  · have hi : E.i ≠ 0 := by
      intro h0
      have hsq := E.i_sq
      rw [h0] at hsq
      simp at hsq
    refine mul_left_cancel₀ hi ?_
    calc E.i * (P + Q + R).y = (P.turn + Q + R).x := by rw [turn_add, turn_add]; rfl
      _ = (P.turn + (Q + R)).x := x_sum_assoc P.turn Q R
      _ = E.i * (P + (Q + R)).y := by rw [turn_add]; rfl

theorem zero_sum : 0 + P = P := by
  have hcross : (0 : E.Point).cross P = 0 := by simp [cross]
  ext
  · rw [x_add, hcross, sumX, x_zero, y_zero]
    ring
  · rw [y_add, hcross, sumY, x_zero, y_zero]
    ring

theorem neg_sum : -P + P = 0 := by
  have hP := P.on_curve
  have hsub := one_sub_cross_ne_zero (-P) P
  ext
  · rw [x_add, sumX, x_neg, y_neg, x_zero, neg_mul, neg_add_cancel, zero_div]
  · rw [y_add, div_eq_iff hsub, sumY, cross, x_neg, y_neg, y_zero]
    linear_combination hP

/-- **The points are a group.** -/
instance : AddCommGroup E.Point where
  add_assoc P Q R := sum_assoc P Q R
  zero_add P := zero_sum P
  add_zero P := by rw [sum_comm, zero_sum]
  nsmul := nsmulRec
  zsmul := zsmulRec
  neg_add_cancel P := neg_sum P
  add_comm P Q := sum_comm P Q

end Point

end EdwardsCurve

end StakeLedger
