import Mathlib.NumberTheory.LucasPrimality
import StakeLedger.Ed25519.Curve

/-!
# The two primes of Ed25519

The field has 2^255 - 19 elements, and the base point generates a subgroup of order `order`. Both
numbers are prime, by Lucas's test: `p` is prime if some `a` has order `p - 1` modulo `p`, which the
prime factors of `p - 1` decide. The large ones among these are primes by the same test, and the
small ones by division.

* `Field.foldr_bits` is the induction over the bits of a factor or an exponent.
* `powMod` is the power modulo a number, by squaring. `Field.pow_eq` is the case of the field.
* `Entry.passes` is Lucas's test, and `prime_of_check` turns a list of entries that pass it into
  primes.
* `prime_prime` and `prime_order` are the results.
-/

namespace StakeLedger.Ed25519

open StakeLedger.Ed25519.Field (bits)

/-! ## Powers -/

namespace Field

/-- What goes through the lowest bits of a number, the highest one first, doubles and adds: a
relation that each step keeps relates the end to the number. -/
theorem foldr_testBit {β : Type} {R : Nat → β → Prop} {step : Bool → β → β} {start : β}
    (hstart : R 0 start) (hstep : ∀ n acc bit, R n acc → R (2 * n + bit.toNat) (step bit acc))
    (width n : Nat) :
    R (n % 2 ^ width) (((List.range width).map n.testBit).foldr step start) := by
  induction width generalizing n with
  | zero => rwa [Nat.pow_zero, Nat.mod_one]
  | succ width ih =>
    have htail : (List.range width).map (n.testBit ∘ Nat.succ) =
        (List.range width).map (n / 2).testBit :=
      List.map_congr_left fun i _ => Nat.testBit_succ n i
    have hmod : n % 2 ^ (width + 1) = 2 * (n / 2 % 2 ^ width) + (n.testBit 0).toNat := by
      rw [Nat.pow_succ', Nat.mod_mul, Nat.testBit_zero, Nat.add_comm]
      rcases Nat.mod_two_eq_zero_or_one n with h | h <;> rw [h] <;> rfl
    rw [List.range_succ_eq_map, List.map_cons, List.map_map, htail, List.foldr_cons, hmod]
    exact hstep _ _ _ (ih (n / 2))

/-- The relation of `foldr_testBit` for all 256 bits. -/
theorem foldr_bits {β : Type} {R : Nat → β → Prop} {step : Bool → β → β} {start : β}
    (hstart : R 0 start) (hstep : ∀ n acc bit, R n acc → R (2 * n + bit.toNat) (step bit acc))
    {n : Nat} (hn : n < 2 ^ 256) : R n ((bits n).foldr step start) := by
  have h := foldr_testBit hstart hstep 256 n
  rwa [Nat.mod_eq_of_lt hn] at h

end Field

/-- A power modulo a number, for an exponent of at most 256 bits. -/
def powMod (m a n : Nat) : Nat :=
  (bits n).foldr (fun bit acc => if bit then acc * acc % m * a % m else acc * acc % m) (1 % m)

theorem powMod_eq (m a : Nat) {n : Nat} (hn : n < 2 ^ 256) : powMod m a n = a ^ n % m := by
  refine Field.foldr_bits (R := fun n acc => acc = a ^ n % m) rfl ?_ hn
  rintro n _ bit rfl
  have hsquare : a ^ n % m * (a ^ n % m) % m = a ^ (2 * n) % m := by
    rw [← Nat.mul_mod, two_mul, pow_add]
  cases bit with
  | false => exact hsquare
  | true =>
    rw [if_pos rfl, hsquare, Nat.mod_mul_mod]
    rfl

namespace Field

/-- **The power by squaring is the power modulo the prime.** -/
theorem pow_eq (x : Nat) {exponent : Nat} (h : exponent < 2 ^ 256) :
    pow x exponent = x ^ exponent % prime :=
  powMod_eq prime x h

end Field

/-! ## Lucas's test -/

/-- Whether a number below `bound ^ 2` is prime, by division. -/
def isPrimeBelow (bound q : Nat) : Bool :=
  2 ≤ q && q < bound * bound && (List.range bound).all fun d => d < 2 || q ≤ d || q % d != 0

theorem prime_of_isPrimeBelow {bound q : Nat} (h : isPrimeBelow bound q = true) : q.Prime := by
  simp only [isPrimeBelow, Bool.and_eq_true, decide_eq_true_eq, List.all_eq_true, List.mem_range,
    Bool.or_eq_true, bne_iff_ne, ne_eq] at h
  obtain ⟨⟨htwo, hlt⟩, hdivisors⟩ := h
  by_contra hprime
  -- a composite number has a divisor up to its square root
  have hle : q.minFac * q.minFac ≤ q := by
    rw [← sq]
    exact Nat.minFac_sq_le_self (by omega) hprime
  have hmin : 2 ≤ q.minFac := (Nat.minFac_prime (by omega)).two_le
  have hsmall : q.minFac < bound := Nat.mul_self_lt_mul_self_iff.mp (hle.trans_lt hlt)
  rcases hdivisors _ hsmall with (hlow | hhigh) | hmod
  · omega
  · have := Nat.mul_le_mul hmin (Nat.le_refl q.minFac)
    omega
  · exact hmod (Nat.mod_eq_zero_of_dvd q.minFac_dvd)

/-- Whether a number below 2^20 is prime. -/
def isSmallPrime (q : Nat) : Bool :=
  isPrimeBelow 32 q || isPrimeBelow 1024 q

theorem prime_of_isSmallPrime {q : Nat} (h : isSmallPrime q = true) : q.Prime := by
  rcases Bool.or_eq_true_iff.mp h with h | h
  · exact prime_of_isPrimeBelow h
  · exact prime_of_isPrimeBelow h

/-- A number with what Lucas's test needs. -/
structure Entry where
  /-- The number to be tested. -/
  p : Nat
  /-- A number that generates the units modulo `p`. -/
  generator : Nat
  /-- The prime factors of `p - 1`. -/
  factors : List Nat

namespace Entry

/-- Lucas's test, given that the factors are primes. -/
def passes (e : Entry) : Bool :=
  2 ≤ e.p && e.p < 2 ^ 256 && e.factors.prod == e.p - 1 &&
    powMod e.p e.generator (e.p - 1) == 1 &&
    e.factors.all fun q => powMod e.p e.generator ((e.p - 1) / q) != 1

theorem prime_of_passes {e : Entry} (hfactors : ∀ q ∈ e.factors, q.Prime) (h : e.passes = true) :
    e.p.Prime := by
  simp only [passes, Bool.and_eq_true, decide_eq_true_eq, List.all_eq_true, beq_iff_eq,
    bne_iff_ne, ne_eq] at h
  obtain ⟨⟨⟨⟨htwo, hlt⟩, hprod⟩, hfull⟩, hparts⟩ := h
  have hcast (n : Nat) (hn : n ≤ e.p - 1) :
      (e.generator : ZMod e.p) ^ n = 1 ↔ powMod e.p e.generator n = 1 := by
    rw [powMod_eq _ _ (show n < 2 ^ 256 by omega), ← Nat.cast_pow, ← Nat.cast_one,
      ZMod.natCast_eq_natCast_iff', Nat.mod_eq_of_lt (show 1 < e.p by omega)]
  refine lucas_primality e.p e.generator ((hcast _ le_rfl).mpr hfull) fun q hq hdvd => ?_
  rw [ne_eq, hcast _ (Nat.div_le_self _ _)]
  refine hparts q ?_
  rw [← hprod] at hdvd
  obtain ⟨r, hr, hqr⟩ := (Prime.dvd_prod_iff hq.prime).mp hdvd
  rwa [(Nat.prime_dvd_prime_iff_eq hq (hfactors r hr)).mp hqr]

/-- Whether all entries pass the test, the factors of each being small primes or the numbers of
later entries. -/
def check : List Entry → Bool
  | [] => true
  | e :: rest =>
    e.passes && (e.factors.all fun q => isSmallPrime q || (rest.map p).contains q) && check rest

theorem prime_of_check (entries : List Entry) (h : check entries = true) :
    ∀ e ∈ entries, e.p.Prime := by
  induction entries with
  | nil => nofun
  | cons e rest ih =>
    simp only [check, Bool.and_eq_true, List.all_eq_true, Bool.or_eq_true,
      List.contains_iff_mem] at h
    obtain ⟨⟨hpasses, hfactors⟩, hrest⟩ := h
    refine List.forall_mem_cons.mpr ⟨prime_of_passes (fun q hq => ?_) hpasses, ih hrest⟩
    rcases hfactors q hq with hsmall | hmem
    · exact prime_of_isSmallPrime hsmall
    · obtain ⟨f, hf, rfl⟩ := List.mem_map.mp hmem
      exact ih hrest f hf

end Entry

/-! ## The primes -/

/-- The entries for the prime of the field. -/
def primeEntries : List Entry := [
  ⟨prime, 2,
    [2, 2, 3, 65147,
      74058212732561358302231226437062788676166966415465897661863160754340907]⟩,
  ⟨74058212732561358302231226437062788676166966415465897661863160754340907, 2,
    [2, 3, 353, 57467, 132049, 1923133, 31757755568855353, 75445702479781427272750846543864801]⟩,
  ⟨75445702479781427272750846543864801, 7,
    [2, 2, 2, 2, 2, 3, 3, 5, 5, 75707, 72106336199, 1919519569386763]⟩,
  ⟨31757755568855353, 10, [2, 2, 2, 3, 31, 107, 223, 4153, 430751]⟩,
  ⟨1919519569386763, 2, [2, 3, 7, 19, 47, 47, 127, 8574133]⟩,
  ⟨72106336199, 7, [2, 13, 2773320623]⟩,
  ⟨2773320623, 5, [2, 2437, 569003]⟩,
  ⟨8574133, 2, [2, 2, 3, 7, 103, 991]⟩,
  ⟨1923133, 2, [2, 2, 3, 43, 3727]⟩]

/-- **2^255 - 19 is prime.** -/
theorem prime_prime : prime.Prime :=
  Entry.prime_of_check primeEntries (by decide +kernel) _ List.mem_cons_self

/-- The entries for the order of the base point. -/
def orderEntries : List Entry := [
  ⟨order, 2,
    [2, 2, 3, 11, 198211423230930754013084525763697, 276602624281642239937218680557139826668747]⟩,
  ⟨276602624281642239937218680557139826668747, 2,
    [2, 7, 19757330305831588566944191468367130476339]⟩,
  ⟨19757330305831588566944191468367130476339, 2,
    [2, 269, 213441916511, 172054593956031949258510691]⟩,
  ⟨198211423230930754013084525763697, 5, [2, 2, 2, 2, 3, 23, 58964693, 3044861653679985063343]⟩,
  ⟨172054593956031949258510691, 2, [2, 5, 1361, 2851, 4434155615661930479]⟩,
  ⟨3044861653679985063343, 5, [2, 3, 11, 30703, 82163, 132667, 137849]⟩,
  ⟨4434155615661930479, 17, [2, 41, 43, 1257559732178653]⟩,
  ⟨1257559732178653, 2, [2, 2, 3, 7, 23, 531581, 1224481]⟩,
  ⟨213441916511, 13, [2, 5, 73, 292386187]⟩,
  ⟨292386187, 2, [2, 3, 3, 3, 3, 307, 5879]⟩,
  ⟨58964693, 2, [2, 2, 14741173]⟩,
  ⟨14741173, 2, [2, 2, 3, 3, 409477]⟩,
  ⟨1224481, 13, [2, 2, 2, 2, 2, 3, 5, 2551]⟩]

/-- **The order of the base point is prime.** -/
theorem prime_order : order.Prime :=
  Entry.prime_of_check orderEntries (by decide +kernel) _ List.mem_cons_self

end StakeLedger.Ed25519
