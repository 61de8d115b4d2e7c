/-!
# Positional numerals

* `digits base n` are the digits of a number, most significant first and without leading
  zeros, so that zero has none.
* `ofDigits base` is the number that a list of digits denotes.

The two undo each other: `ofDigits_digits`, and `digits_ofDigits` for digits below the base
that do not start with a zero.
-/

namespace StakeLedger.Radix

/-- The digits of a number, most significant first. Below base two there are none. -/
def digits (base n : Nat) : List Nat :=
  if 2 ≤ base ∧ n ≠ 0 then digits base (n / base) ++ [n % base] else []
termination_by n
decreasing_by exact Nat.div_lt_self (by omega) (by omega)

/-- The number denoted by digits that are given most significant first. -/
def ofDigits (base : Nat) (ds : List Nat) : Nat :=
  ds.foldl (fun n d => n * base + d) 0

@[simp]
theorem digits_zero (base : Nat) : digits base 0 = [] := by
  rw [digits]; simp

theorem digits_of_ne_zero {base n : Nat} (hb : 2 ≤ base) (hn : n ≠ 0) :
    digits base n = digits base (n / base) ++ [n % base] := by
  rw [digits, if_pos ⟨hb, hn⟩]

@[simp]
theorem ofDigits_nil (base : Nat) : ofDigits base [] = 0 := rfl

@[simp]
theorem ofDigits_concat (base : Nat) (ds : List Nat) (d : Nat) :
    ofDigits base (ds ++ [d]) = ofDigits base ds * base + d := by
  simp [ofDigits]

theorem ofDigits_digits {base : Nat} (hb : 2 ≤ base) (n : Nat) :
    ofDigits base (digits base n) = n := by
  induction n using Nat.strongRecOn with
  | ind n ih =>
    by_cases hn : n = 0
    · simp [hn]
    · rw [digits_of_ne_zero hb hn, ofDigits_concat, ih _ (Nat.div_lt_self (by omega) (by omega))]
      exact Nat.div_add_mod' n base

theorem lt_of_mem_digits {base n d : Nat} (h : d ∈ digits base n) : d < base := by
  induction n using Nat.strongRecOn with
  | ind n ih =>
    rw [digits] at h
    split at h
    · next hb =>
      rcases List.mem_append.mp h with h | h
      · exact ih _ (Nat.div_lt_self (by omega) (by omega)) h
      · rw [List.mem_singleton.mp h]
        exact Nat.mod_lt _ (by omega)
    · simp at h

theorem head?_digits_ne_zero (base n : Nat) : (digits base n).head? ≠ some 0 := by
  induction n using Nat.strongRecOn with
  | ind n ih =>
    rw [digits]
    split
    · next hb =>
      have := ih _ (Nat.div_lt_self (n := n) (k := base) (by omega) (by omega))
      cases hd : digits base (n / base) with
      | nil =>
        have hq : n / base = 0 := by
          have := ofDigits_digits hb.1 (n / base)
          rw [hd] at this
          exact this.symm
        simp only [List.nil_append, List.head?_cons, ne_eq, Option.some.injEq]
        have := Nat.div_add_mod n base
        rw [hq] at this
        omega
      | cons a rest => simpa [hd] using this
    · simp

theorem digits_ofDigits {base : Nat} (hb : 2 ≤ base) (ds : List Nat) (hlt : ∀ d ∈ ds, d < base)
    (hhead : ds.head? ≠ some 0) : digits base (ofDigits base ds) = ds := by
  suffices h : ∀ (n : Nat) (ds : List Nat), ds.length = n → (∀ d ∈ ds, d < base) →
      ds.head? ≠ some 0 → digits base (ofDigits base ds) = ds ∧ (ds ≠ [] → ofDigits base ds ≠ 0) from
    (h ds.length ds rfl hlt hhead).1
  intro n
  induction n with
  | zero =>
    intro ds hlen _ _
    rw [List.length_eq_zero_iff.mp hlen]
    simp
  | succ n ih =>
    intro ds hlen hlt hhead
    have hne : ds ≠ [] := by rintro rfl; simp at hlen
    obtain ⟨init, last, rfl⟩ : ∃ init last, ds = init ++ [last] :=
      ⟨ds.dropLast, ds.getLast hne, (List.dropLast_concat_getLast hne).symm⟩
    have hlast : last < base := hlt last (by simp)
    obtain ⟨hi, hi0⟩ := ih init (by simpa using hlen) (fun d hd => hlt d (by simp [hd])) (by
      cases init with
      | nil => simp
      | cons a rest => simpa using hhead)
    have hval : ofDigits base (init ++ [last]) ≠ 0 := by
      rw [ofDigits_concat]
      cases init with
      | nil => simpa using hhead
      | cons a rest =>
        have := hi0 (by simp)
        have := Nat.mul_pos (Nat.pos_of_ne_zero this) (show 0 < base by omega)
        omega
    refine ⟨?_, fun _ => hval⟩
    rw [digits_of_ne_zero hb hval]
    have hq : ofDigits base (init ++ [last]) / base = ofDigits base init := by
      rw [ofDigits_concat, Nat.mul_comm, Nat.mul_add_div (by omega), Nat.div_eq_of_lt hlast, Nat.add_zero]
    have hr : ofDigits base (init ++ [last]) % base = last := by
      rw [ofDigits_concat, Nat.mul_comm, Nat.mul_add_mod, Nat.mod_eq_of_lt hlast]
    rw [hq, hr, hi]

end StakeLedger.Radix
