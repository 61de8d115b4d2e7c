import Mathlib.Algebra.Order.BigOperators.Group.List
import Mathlib.Algebra.Order.Ring.Nat
import StakeLedger.Snapshot

/-!
# Replacing an account

A transfer replaces accounts by others with the same identifier. In a sorted collection the
new item takes exactly the place of the old one (`items_insert_of_find?`), so whatever the two
agree in stays as it was all over the collection (`map_insert_of_find?`), and a sum over the
items changes by their difference (`sum_map_insert_of_find?`).

* `Accounts.supply` is the sum of all balances, as an exact number.
* `Account.standing` is what no transfer changes: identifier, stake and public key.
* `SnapshotBuilder.replace` is a builder with an account replaced, which is what
  `SnapshotBuilder.update` makes of it (`update_of_account?`).
-/

namespace StakeLedger

namespace SortedBy

variable {α κ : Type} [Ord κ] [Std.TransOrd κ] [Std.LawfulEqOrd κ] [DecidableEq κ] {key : α → κ}

/-- **An item takes the place of the one with its key.** -/
theorem items_insert_of_find? {s : SortedBy key} {a old : α} (h : s.find? (key a) = some old) :
    ∃ before after, s.items = before ++ old :: after ∧
      (s.insert a).items = before ++ a :: after := by
  obtain ⟨items, hs⟩ := s
  simp only [find?] at h
  simp only [insert]
  induction items with
  | nil => cases h
  | cons b rest ih =>
    rw [List.pairwise_cons] at hs
    unfold place
    split
    · next hc =>
      -- all the keys are greater, so there is no item with the key
      obtain ⟨hm, hk⟩ : old ∈ b :: rest ∧ key old = key a :=
        ⟨List.mem_of_find?_eq_some h, by simpa using List.find?_some h⟩
      have hlt : compare (key a) (key old) = .lt := by
        rcases List.mem_cons.mp hm with rfl | hm
        · exact hc
        · exact Std.TransCmp.lt_trans hc (hs.1 old hm)
      simp [hk] at hlt
    · next hc =>
      have hk : key b = key a := (Std.LawfulEqOrd.compare_eq_iff_eq.mp hc).symm
      simp only [List.find?_cons, hk, decide_true, Option.some.injEq] at h
      exact ⟨[], rest, by rw [h]; rfl, rfl⟩
    · next hc =>
      have hk : key b ≠ key a := fun he => by simp [he] at hc
      simp only [List.find?_cons, hk, decide_false] at h
      obtain ⟨before, after, h₁, h₂⟩ := ih hs.2 h
      exact ⟨b :: before, after, by rw [h₁]; rfl, by rw [h₂]; rfl⟩

theorem map_insert_of_find? {β : Type} (f : α → β) {s : SortedBy key} {a old : α}
    (h : s.find? (key a) = some old) (hf : f a = f old) :
    (s.insert a).items.map f = s.items.map f := by
  obtain ⟨before, after, h₁, h₂⟩ := items_insert_of_find? h
  rw [h₁, h₂, List.map_append, List.map_append, List.map_cons, List.map_cons, hf]

theorem sum_map_insert_of_find? (f : α → Nat) {s : SortedBy key} {a old : α}
    (h : s.find? (key a) = some old) :
    ((s.insert a).items.map f).sum + f old = (s.items.map f).sum + f a := by
  obtain ⟨before, after, h₁, h₂⟩ := items_insert_of_find? h
  simp only [h₁, h₂, List.map_append, List.map_cons, List.sum_append, List.sum_cons]
  omega

end SortedBy

/-- What no transfer changes of an account. -/
def Account.standing (a : Account) : Identifier × UInt64 × EncodedPublicKey :=
  (a.identifier, a.stake, a.publicKey)

/-- The sum of all balances, as an exact number. -/
def Accounts.supply (s : Accounts) : Nat :=
  (s.items.map (·.balance.toNat)).sum

/-- The sum of all balances of a snapshot. -/
def AccountSnapshot.supply (s : AccountSnapshot) : Nat := s.accounts.supply

theorem Accounts.balance_le_supply {s : Accounts} {a : Account} (h : a ∈ s.items) :
    a.balance.toNat ≤ s.supply :=
  List.le_sum_of_mem (List.mem_map_of_mem h)

namespace SnapshotBuilder

/-- The builder with an account in place of the one with its identifier. -/
def replace (b : SnapshotBuilder) (a : Account) : SnapshotBuilder :=
  { b with accounts := b.accounts.insert a }

variable {b : SnapshotBuilder} {a old : Account} {id : Identifier}

@[simp]
theorem blockId_replace : (b.replace a).blockId = b.blockId := rfl

@[simp]
theorem height_replace : (b.replace a).height = b.height := rfl

theorem account?_replace :
    (b.replace a).account? id = if a.identifier = id then some a else b.account? id :=
  SortedBy.find?_insert b.accounts a id

theorem identifier_of_account? (h : b.account? id = some a) : a.identifier = id :=
  SortedBy.key_of_find? h

theorem update_of_account? (h : b.account? a.identifier = some old) :
    b.update a = .ok (b.replace a) := by
  have hc : b.accounts.contains a.identifier = true := by
    rw [SortedBy.contains, show b.accounts.find? a.identifier = some old from h]
    rfl
  rw [update, if_pos hc]
  rfl

theorem supply_replace (h : b.account? a.identifier = some old) :
    (b.replace a).accounts.supply + old.balance.toNat = b.accounts.supply + a.balance.toNat :=
  SortedBy.sum_map_insert_of_find? (fun a : Account => a.balance.toNat) h

theorem standings_replace (h : b.account? a.identifier = some old)
    (hs : a.standing = old.standing) :
    (b.replace a).accounts.items.map Account.standing = b.accounts.items.map Account.standing :=
  SortedBy.map_insert_of_find? Account.standing h hs

theorem balance_le_supply (h : b.account? id = some a) : a.balance.toNat ≤ b.accounts.supply :=
  Accounts.balance_le_supply (SortedBy.mem_of_find? h)

end SnapshotBuilder

end StakeLedger
