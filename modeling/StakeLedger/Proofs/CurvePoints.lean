import Mathlib.FieldTheory.Finite.Basic
import Mathlib.NumberTheory.LegendreSymbol.Basic
import StakeLedger.Bytes.Lemmas
import StakeLedger.Proofs.EdwardsCurve
import StakeLedger.Proofs.Primality

/-!
# Coordinates and points

The arithmetic on natural numbers is that of the field with `prime` elements, and the arithmetic on
extended coordinates is that of the group of the curve.

* `curve` is the curve of Ed25519. Its coefficient is no square by Euler's criterion.
* `Point.Represents` relates coordinates to a point. It is kept by `Point.add`, `Point.neg` and
  `Point.multiple`, and whatever `Point.decompress?` reads represents a point.
* `Point.compress_eq_iff` says that coordinates are written as the same bytes exactly if they
  represent the same point.
-/

namespace StakeLedger.Ed25519

instance : Fact prime.Prime := ⟨prime_prime⟩

/-- The field of Curve25519. -/
abbrev FieldElement := ZMod prime

namespace Field

/-! ## Field elements -/

@[simp]
theorem cast_add (x y : Nat) : (add x y : FieldElement) = x + y := by
  rw [add, ZMod.natCast_mod, Nat.cast_add]

@[simp]
theorem cast_sub (x y : Nat) : (sub x y : FieldElement) = x - y := by
  have hle : y % prime ≤ prime := Nat.le_of_lt (Nat.mod_lt _ prime_prime.pos)
  rw [sub, ZMod.natCast_mod, Nat.cast_add, Nat.cast_sub hle, ZMod.natCast_self, ZMod.natCast_mod,
    zero_sub, sub_eq_add_neg]

@[simp]
theorem cast_neg (x : Nat) : (neg x : FieldElement) = -x := by
  rw [neg, cast_sub, Nat.cast_zero, zero_sub]

@[simp]
theorem cast_mul (x y : Nat) : (mul x y : FieldElement) = x * y := by
  rw [mul, ZMod.natCast_mod, Nat.cast_mul]

@[simp]
theorem cast_square (x : Nat) : (square x : FieldElement) = x ^ 2 := by
  rw [square, cast_mul, sq]

theorem cast_pow (x : Nat) {n : Nat} (hn : n < 2 ^ 256) : (pow x n : FieldElement) = x ^ n := by
  rw [pow_eq x hn, ZMod.natCast_mod, Nat.cast_pow]

@[simp]
theorem cast_inverse (x : Nat) : (inverse x : FieldElement) = (x : FieldElement)⁻¹ := by
  rw [inverse, cast_pow x (by decide)]
  by_cases hx : (x : FieldElement) = 0
  · rw [hx, inv_zero]
    exact zero_pow (by decide)
  · refine eq_inv_of_mul_eq_one_right ?_
    rw [← pow_succ']
    exact ZMod.pow_card_sub_one_eq_one hx

/-- A product is the number below the prime that stands for it. -/
theorem mul_eq_val (x y : Nat) : mul x y = (x * y : FieldElement).val := by
  rw [← cast_mul, ZMod.val_natCast_of_lt]
  exact Nat.mod_lt _ prime_prime.pos

theorem rootOfMinusOne_sq : (rootOfMinusOne : FieldElement) ^ 2 = -1 := by
  have h : square rootOfMinusOne = neg 1 := by decide +kernel
  rw [← cast_square, h, cast_neg, Nat.cast_one]

/-- The square root of a quotient. -/
theorem mul_sq_of_sqrtRatio? {u v root : Nat} (h : sqrtRatio? u v = some root) :
    (v : FieldElement) * root ^ 2 = u := by
  rw [sqrtRatio?] at h
  obtain ⟨candidate, hcandidate, hroot⟩ := Option.map_eq_some_iff.mp h
  have hsq : (root : FieldElement) ^ 2 = (candidate : FieldElement) ^ 2 := by
    rw [← hroot]
    split
    · rw [cast_neg, neg_sq]
    · rfl
  rw [hsq]
  split at hcandidate
  · next hcheck =>
    obtain rfl := Option.some.inj hcandidate
    rw [← cast_square, ← cast_mul, hcheck]
  · split at hcandidate
    · next hcheck =>
      obtain rfl := Option.some.inj hcandidate
      have hneg := congrArg (Nat.cast : Nat → FieldElement) hcheck
      rw [cast_mul, cast_square, cast_neg] at hneg
      rw [cast_mul, mul_pow, ← mul_assoc, hneg, rootOfMinusOne_sq, neg_mul_neg, mul_one]
    · cases hcandidate

end Field

/-! ## The curve -/

instance : NeZero (2 : FieldElement) := ⟨by
  have h : ((2 : Nat) : FieldElement) ≠ 0 := by
    rw [ne_eq, ZMod.natCast_eq_zero_iff]
    decide
  exact h⟩

theorem not_isSquare_coefficient : ¬ IsSquare (coefficient : FieldElement) := by
  have hpow : Field.pow coefficient (prime / 2) = Field.neg 1 := by decide +kernel
  have hne : (coefficient : FieldElement) ≠ 0 := by
    rw [ne_eq, ZMod.natCast_eq_zero_iff]
    decide +kernel
  rw [ZMod.euler_criterion prime hne, ← Field.cast_pow _ (by decide), hpow, Field.cast_neg,
    Nat.cast_one]
  intro h
  have htwo : (2 : FieldElement) = 0 := by linear_combination -h
  exact two_ne_zero htwo

/-- The curve of Ed25519. -/
def curve : EdwardsCurve FieldElement where
  d := coefficient
  i := Field.rootOfMinusOne
  i_sq := Field.rootOfMinusOne_sq
  not_isSquare_d := not_isSquare_coefficient

namespace Point

/-- Whether coordinates are those of a point. -/
structure Represents (p : Point) (P : curve.Point) : Prop where
  z_ne_zero : (p.z : FieldElement) ≠ 0
  x_eq : (p.x : FieldElement) = P.x * p.z
  y_eq : (p.y : FieldElement) = P.y * p.z
  t_eq : (p.t : FieldElement) = P.x * P.y * p.z

variable {p q : Point} {P Q : curve.Point}

theorem represents_affine {x y : Nat} (hx : (x : FieldElement) = P.x)
    (hy : (y : FieldElement) = P.y) : (affine x y).Represents P where
  z_ne_zero := by simp [affine]
  x_eq := by simp [affine, hx]
  y_eq := by simp [affine, hy]
  t_eq := by simp [affine, hx, hy]

/-- Numbers that fulfil the equation of the curve are the coordinates of a point. -/
theorem exists_represents_affine {x y : Nat}
    (h : Field.sub (Field.square y) (Field.square x) =
      Field.add 1 (Field.mul (Field.mul coefficient (Field.square x)) (Field.square y))) :
    ∃ P, (affine x y).Represents P := by
  have hcast := congrArg (Nat.cast : Nat → FieldElement) h
  simp only [Field.cast_sub, Field.cast_add, Field.cast_mul, Field.cast_square, Nat.cast_one]
    at hcast
  exact ⟨⟨x, y, hcast⟩, represents_affine rfl rfl⟩

theorem represents_identity : identity.Represents 0 :=
  represents_affine (by simp) (by simp)

theorem exists_represents_base : ∃ B, base.Represents B :=
  exists_represents_affine (by decide +kernel)

theorem Represents.neg (hp : p.Represents P) : p.neg.Represents (-P) where
  z_ne_zero := hp.z_ne_zero
  x_eq := by simp [Point.neg, hp.x_eq]
  y_eq := by simp [Point.neg, hp.y_eq]
  t_eq := by simp [Point.neg, hp.t_eq]

/-- The coordinates of a sum, up to a factor that is not zero. -/
theorem Represents.cast_add (hp : p.Represents P) (hq : q.Represents Q) :
    ((p.add q).x : FieldElement) =
        (2 * p.z * q.z) ^ 2 * (P.sumX Q * (1 - P.cross Q)) ∧
      ((p.add q).y : FieldElement) = (2 * p.z * q.z) ^ 2 * (P.sumY Q * (1 + P.cross Q)) ∧
      ((p.add q).z : FieldElement) =
        (2 * p.z * q.z) ^ 2 * ((1 + P.cross Q) * (1 - P.cross Q)) ∧
      ((p.add q).t : FieldElement) = (2 * p.z * q.z) ^ 2 * (P.sumX Q * P.sumY Q) := by
  have hd : curve.d = coefficient := rfl
  simp only [Point.add, Field.cast_mul, Field.cast_sub, Field.cast_add, hp.x_eq, hp.y_eq, hp.t_eq,
    hq.x_eq, hq.y_eq, hq.t_eq, EdwardsCurve.Point.sumX, EdwardsCurve.Point.sumY,
    EdwardsCurve.Point.cross, hd]
  refine ⟨?_, ?_, ?_, ?_⟩ <;> ring

/-- **The sum of coordinates is the sum of the points.** -/
theorem Represents.add (hp : p.Represents P) (hq : q.Represents Q) :
    (p.add q).Represents (P + Q) := by
  have hadd := EdwardsCurve.Point.one_add_cross_ne_zero P Q
  have hsub := EdwardsCurve.Point.one_sub_cross_ne_zero P Q
  obtain ⟨hx, hy, hz, ht⟩ := hp.cast_add hq
  have hfactor : (2 * p.z * q.z : FieldElement) ^ 2 ≠ 0 :=
    pow_ne_zero 2 (mul_ne_zero (mul_ne_zero two_ne_zero hp.z_ne_zero) hq.z_ne_zero)
  refine ⟨?_, ?_, ?_, ?_⟩
  · rw [hz]
    exact mul_ne_zero hfactor (mul_ne_zero hadd hsub)
  · rw [hx, hz, EdwardsCurve.Point.x_add]
    field_simp
  · rw [hy, hz, EdwardsCurve.Point.y_add]
    field_simp
  · rw [ht, hz, EdwardsCurve.Point.x_add, EdwardsCurve.Point.y_add]
    field_simp

/-- **A multiple of coordinates is the multiple of the point.** -/
theorem Represents.multiple (hp : p.Represents P) {n : Nat} (hn : n < 2 ^ 256) :
    (Point.multiple n p).Represents (n • P) := by
  refine Field.foldr_bits (R := fun n (acc : Point) => acc.Represents (n • P)) ?_ ?_ hn
  · rw [zero_smul]
    exact represents_identity
  · intro n acc bit hacc
    have hdouble : (acc.add acc).Represents ((2 * n) • P) := by
      rw [two_mul, add_smul]
      exact hacc.add hacc
    cases bit with
    | false => exact hdouble
    | true =>
      rw [Bool.toNat_true, succ_nsmul]
      exact hdouble.add hp

/-! ## Bytes -/

/-- The number that is written for a point: its `y`, and the sign of its `x`. -/
def code (P : curve.Point) : Nat :=
  if Field.isNegative P.x.val then P.y.val + signWeight else P.y.val

theorem code_lt (P : curve.Point) : code P < 256 ^ 32 := by
  have hy : P.y.val < prime := P.y.val_lt
  have hprime : prime < signWeight := by decide
  have hweight : signWeight + signWeight = 256 ^ 32 := by decide
  rw [code]
  split <;> omega

/-- A point is determined by its `y` and the sign of its `x`. -/
theorem code_injective : Function.Injective code := by
  intro P Q h
  have hP : P.y.val < signWeight := P.y.val_lt.trans (by decide)
  have hQ : Q.y.val < signWeight := Q.y.val_lt.trans (by decide)
  have hsplit : P.y.val = Q.y.val ∧ Field.isNegative P.x.val = Field.isNegative Q.x.val := by
    rw [code, code] at h
    cases hs : Field.isNegative P.x.val <;> cases ht : Field.isNegative Q.x.val <;>
      simp only [hs, ht, if_true, Bool.false_eq_true, if_false] at h
    · exact ⟨h, rfl⟩
    · omega
    · omega
    · exact ⟨Nat.add_right_cancel h, rfl⟩
  have hy : P.y = Q.y := ZMod.val_injective _ hsplit.1
  rcases EdwardsCurve.Point.eq_or_eq_neg_of_y_eq hy with heq | hneg
  · exact heq
  · -- a negative has the other sign, unless it is zero
    have hx : P.x = -Q.x := by rw [hneg]; rfl
    by_cases hzero : Q.x = 0
    · refine EdwardsCurve.Point.ext ?_ hy
      rw [hx, hzero, neg_zero]
    · have hsign := hsplit.2
      have hval : P.x.val = prime - Q.x.val := by rw [hx, ZMod.neg_val, if_neg hzero]
      have hlt : Q.x.val < prime := Q.x.val_lt
      have hodd : prime % 2 = 1 := by decide
      rw [hval, Field.isNegative, Field.isNegative] at hsign
      rw [Bool.eq_iff_iff, beq_iff_eq, beq_iff_eq] at hsign
      omega

theorem Represents.compress_eq (hp : p.Represents P) :
    p.compress = Bytes.littleEndian 32 (code P) := by
  have hx : Field.mul p.x (Field.inverse p.z) = P.x.val := by
    rw [Field.mul_eq_val, Field.cast_inverse, hp.x_eq, mul_inv_cancel_right₀ hp.z_ne_zero]
  have hy : Field.mul p.y (Field.inverse p.z) = P.y.val := by
    rw [Field.mul_eq_val, Field.cast_inverse, hp.y_eq, mul_inv_cancel_right₀ hp.z_ne_zero]
  simp only [compress, hx, hy, code]

/-- **Coordinates are written as the same bytes exactly if they represent the same point.** -/
theorem compress_eq_iff (hp : p.Represents P) (hq : q.Represents Q) :
    p.compress = q.compress ↔ P = Q := by
  rw [hp.compress_eq, hq.compress_eq]
  refine ⟨fun h => code_injective ?_, fun h => by rw [h]⟩
  have hcode := congrArg Bytes.ofLittleEndian h
  rwa [Bytes.ofLittleEndian_littleEndian (code_lt P),
    Bytes.ofLittleEndian_littleEndian (code_lt Q)] at hcode

/-- **Whatever is read is a point.** -/
theorem exists_represents_of_decompress? {bytes : Bytes} (h : decompress? bytes = some p) :
    ∃ P, p.Represents P := by
  rw [decompress?] at h
  obtain ⟨root, hroot, rfl⟩ := Option.map_eq_some_iff.mp h
  have hsq := Field.mul_sq_of_sqrtRatio? hroot
  simp only [Field.cast_add, Field.cast_sub, Field.cast_mul, Field.cast_square, Nat.cast_one] at hsq
  -- either sign of the root gives a point
  have hpoint {x : Nat} (hx : (x : FieldElement) ^ 2 = (root : FieldElement) ^ 2) :
      ∃ P, (affine x (Bytes.ofLittleEndian bytes % signWeight % prime)).Represents P := by
    refine ⟨⟨x, (Bytes.ofLittleEndian bytes % signWeight % prime : Nat), ?_⟩,
      represents_affine rfl rfl⟩
    have hd : curve.d = coefficient := rfl
    rw [hd, hx]
    linear_combination -hsq
  split
  · exact hpoint (by rw [Field.cast_neg, neg_sq])
  · exact hpoint rfl

end Point

end StakeLedger.Ed25519
