import Mathlib.GroupTheory.OrderOfElement
import StakeLedger.Proofs.CurvePoints

/-!
# The order of the curve

The curve has `8 * order` points. The base point has order `order` and another point has order
eight, so that this number divides that of the points; and there are no more of them than byte
strings to write them.

* `natCard_curve` is the number of points.
* `Point.eight_nsmul_eq_zero` is what follows for multiples: if two different factors below `order`
  give the same multiple of a point, then the point is of small order.
-/

namespace StakeLedger.Ed25519

namespace Point

/-! ## Points of known order -/

/-- A point of order eight. -/
def eighth : Point :=
  affine 0x1fd5b9a006394a28e933993238de4abb5c193c7013e5e238dea14646c545d14a
    0x7a03ac9277fdc74ec6cc392cfa53202a0f67100d760b3cba4fd84d3d706a17c7

theorem exists_represents_eighth : ∃ T, eighth.Represents T :=
  exists_represents_affine (by decide +kernel)

variable {p : Point} {P : curve.Point}

theorem nsmul_eq_zero_iff (hp : p.Represents P) {n : Nat} (hn : n < 2 ^ 256) :
    n • P = 0 ↔ (multiple n p).compress = identity.compress :=
  (compress_eq_iff (hp.multiple hn) represents_identity).symm

theorem addOrderOf_base {B : curve.Point} (hB : base.Represents B) : addOrderOf B = order := by
  have hprime : Fact order.Prime := ⟨prime_order⟩
  refine addOrderOf_eq_prime ?_ ?_
  · rw [nsmul_eq_zero_iff hB (by decide)]
    decide +kernel
  · rw [ne_eq, ← compress_eq_iff hB represents_identity]
    decide +kernel

theorem addOrderOf_eighth {T : curve.Point} (hT : eighth.Represents T) : addOrderOf T = 8 := by
  have hfour : ¬ 2 ^ 2 • T = 0 := by
    rw [nsmul_eq_zero_iff hT (by decide)]
    decide +kernel
  have height : 2 ^ (2 + 1) • T = 0 := by
    rw [nsmul_eq_zero_iff hT (by decide)]
    decide +kernel
  exact addOrderOf_eq_prime_pow hfour height

end Point

/-! ## All points -/

instance : Finite curve.Point :=
  .of_injective (fun P => (⟨Point.code P, Point.code_lt P⟩ : Fin (256 ^ 32)))
    fun _ _ h => Point.code_injective (Fin.val_eq_of_eq h)

theorem natCard_curve_le : Nat.card curve.Point ≤ 256 ^ 32 := by
  have h := Nat.card_le_card_of_injective
    (fun P : curve.Point => (⟨Point.code P, Point.code_lt P⟩ : Fin (256 ^ 32)))
    fun _ _ h => Point.code_injective (Fin.val_eq_of_eq h)
  rwa [Nat.card_fin] at h

/-- **The number of points.** -/
theorem natCard_curve : Nat.card curve.Point = 8 * order := by
  obtain ⟨B, hB⟩ := Point.exists_represents_base
  obtain ⟨T, hT⟩ := Point.exists_represents_eighth
  have hbase : order ∣ Nat.card curve.Point :=
    Point.addOrderOf_base hB ▸ addOrderOf_dvd_natCard B
  have height : 8 ∣ Nat.card curve.Point := Point.addOrderOf_eighth hT ▸ addOrderOf_dvd_natCard T
  have hcoprime : Nat.Coprime 8 order := by decide +kernel
  obtain ⟨m, hm⟩ := hcoprime.mul_dvd_of_dvd_of_dvd height hbase
  have hpos : 0 < Nat.card curve.Point := Nat.card_pos
  have hlt : 256 ^ 32 < 8 * order * 2 := by decide
  have hle := natCard_curve_le
  -- twice as many points would be more than there are byte strings
  have hone : m = 1 := by
    rcases Nat.lt_or_ge m 2 with hm2 | hm2
    · rcases Nat.eq_zero_or_pos m with rfl | hm0
      · omega
      · omega
    · have := Nat.mul_le_mul_left (8 * order) hm2
      omega
  rw [hm, hone, Nat.mul_one]

namespace Point

/-- **Only a point of small order has the same multiple for two factors below the order of the base
point.** -/
theorem eight_nsmul_eq_zero {P : curve.Point} {m n : Nat} (hm : m < order) (hn : n < order)
    (hne : m ≠ n) (h : m • P = n • P) : 8 • P = 0 := by
  wlog hlt : m < n generalizing m n
  · exact this hn hm hne.symm h.symm (by omega)
  have hzero : (n - m) • P = 0 := by
    have hsplit : n • P = (n - m) • P + m • P := by rw [← add_nsmul, Nat.sub_add_cancel hlt.le]
    rw [hsplit] at h
    exact right_eq_add.mp h
  have hdvd : addOrderOf P ∣ n - m := addOrderOf_dvd_of_nsmul_eq_zero hzero
  have hcard : addOrderOf P ∣ 8 * order := natCard_curve ▸ addOrderOf_dvd_natCard P
  have hcoprime : Nat.Coprime (addOrderOf P) order := by
    refine (Nat.Prime.coprime_iff_not_dvd prime_order).mpr ?_ |>.symm
    intro hbad
    have := Nat.le_of_dvd (by omega) (hbad.trans hdvd)
    omega
  exact addOrderOf_dvd_iff_nsmul_eq_zero.mp (hcoprime.dvd_of_dvd_mul_right hcard)

end Point

end StakeLedger.Ed25519
