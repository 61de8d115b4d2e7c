import Mathlib.Data.List.DropRight
import Mathlib.Data.List.Sort
import Mathlib.Data.Set.Card
import StakeLedger.BlockStore
import StakeLedger.Proofs.Identity

/-!
# The block store as a map

Blocks are added to a store and removed from it. What the store holds under an identifier is the
first block that was added under it since it was last removed, and the index by heights tells
nothing else.

* `BlockStore.Call` is a call that changes a store and `BlockStore.held?` the map that calls leave
  behind, in terms of the calls alone.
* `BlockStore.Represents` says that a store holds what its calls say and that the index lists each
  block once, at its height. Every call keeps this (`Represents.after`).
* `represents_of_calls` says what can then be seen of the store.
-/

namespace StakeLedger

namespace BlockStore

/-! ## Calls -/

/-- A call that may change a store. -/
inductive Call
  /-- To add a block. -/
  | add (b : Block)
  /-- To remove the block of an identifier. -/
  | remove (id : Identifier)

/-- Whether a call removes what is held under an identifier. -/
def Call.removes (id : Identifier) : Call → Bool
  | add _ => false
  | remove id' => id' = id

/-- The block that a call adds, if it adds one. -/
def Call.block? : Call → Option Block
  | add b => some b
  | remove _ => none

/-- The first block that calls add under an identifier since they last removed what was held
there. -/
def held? (h : Hasher) (calls : List Call) (id : Identifier) : Option Block :=
  ((calls.rtakeWhile fun x => !x.removes id).filterMap Call.block?).find? fun b => h.blockId b = id

/-- The store after a call. -/
def after (s : BlockStore) : Call → BlockStore
  | .add b =>
    match s.add b with
    | .ok (s', _) => s'
    | .error _ => s
  | .remove id => (s.remove id).1

/-- The store after calls, one after the other. -/
def afterAll (s : BlockStore) (calls : List Call) : BlockStore :=
  calls.foldl after s

variable {h : Hasher} {s : BlockStore} {calls : List Call}

theorem held?_add (h : Hasher) (calls : List Call) (b : Block) (id : Identifier) :
    held? h (calls ++ [.add b]) id =
      (held? h calls id).or (if h.blockId b = id then some b else none) := by
  rw [held?, List.rtakeWhile_concat_pos _ _ _ rfl, List.filterMap_append, List.find?_append]
  by_cases hb : h.blockId b = id <;> simp [held?, Call.block?, hb]

theorem held?_remove (h : Hasher) (calls : List Call) (id id' : Identifier) :
    held? h (calls ++ [.remove id]) id' = if id = id' then none else held? h calls id' := by
  rw [held?, List.rtakeWhile_concat]
  by_cases hid : id = id' <;> simp [held?, Call.block?, Call.removes, hid]

theorem blockId_of_held? {id : Identifier} {b : Block} (hb : held? h calls id = some b) :
    h.blockId b = id := by
  simpa using List.find?_some hb

/-! ## Looking up -/

theorem has_eq (s : BlockStore) (id : Identifier) : s.has id = (s.byId? id).isSome := by
  rw [has, SortedBy.contains, byId?, Option.isSome_map]

theorem idsAt_eq (s : BlockStore) (height : UInt64) :
    s.idsAt height = ((s.heights.find? height).map Prod.snd).getD .empty := by
  rw [idsAt]
  cases s.heights.find? height <;> rfl

theorem idsAt_of_mem {bucket : UInt64 × SortedBy fun x : Identifier => x}
    (hb : bucket ∈ s.heights.items) : s.idsAt bucket.1 = bucket.2 := by
  rw [idsAt, SortedBy.find?_of_mem hb]

/-- Where there are identifiers at a height, there is a bucket for it. -/
theorem mem_heights_of_mem_idsAt {height : UInt64} {id : Identifier}
    (hid : id ∈ (s.idsAt height).keys) : (height, s.idsAt height) ∈ s.heights.items := by
  unfold idsAt at hid ⊢
  cases hf : s.heights.find? height with
  | none =>
    rw [hf] at hid
    cases hid
  | some bucket =>
    obtain ⟨hm, rfl⟩ := SortedBy.find?_eq_some_iff.mp hf
    exact hm

/-! ## What a call does -/

/-- The store with a block put in under an identifier and at its height. -/
def put (s : BlockStore) (id : Identifier) (b : Block) : BlockStore :=
  { s with
    blocks := s.blocks.insert (id, b)
    heights := s.heights.insert (b.height, (s.idsAt b.height).insert id) }

/-- The store with a block taken out that is held under an identifier. -/
def drop (s : BlockStore) (id : Identifier) (b : Block) : BlockStore :=
  { s with blocks := s.blocks.erase id, heights := s.forget b.height id }

theorem add_eq (s : BlockStore) (b : Block) :
    s.add b = if (s.byId? (s.hasher.blockId b)).isSome then .ok (s, false)
      else .ok (s.put (s.hasher.blockId b) b, true) := by
  rw [add, s.hasher.entityId_block, ← has_eq]
  rfl

theorem remove_of_none {id : Identifier} (hid : s.byId? id = none) : s.remove id = (s, false) := by
  rw [remove, hid]

theorem remove_of_some {id : Identifier} {b : Block} (hid : s.byId? id = some b) :
    s.remove id = (s.drop id b, true) := by
  rw [remove, hid]
  rfl

theorem byId?_put (s : BlockStore) (id : Identifier) (b : Block) (id' : Identifier) :
    (s.put id b).byId? id' = if id = id' then some b else s.byId? id' := by
  rw [byId?, put, SortedBy.find?_insert]
  split <;> rfl

theorem byId?_drop (s : BlockStore) (id : Identifier) (b : Block) (id' : Identifier) :
    (s.drop id b).byId? id' = if id = id' then none else s.byId? id' := by
  rw [byId?, drop, SortedBy.find?_erase]
  split <;> rfl

theorem mem_idsAt_put {id id' : Identifier} {b : Block} {height : UInt64} :
    id' ∈ ((s.put id b).idsAt height).keys ↔
      (id' = id ∧ b.height = height) ∨ id' ∈ (s.idsAt height).keys := by
  rw [idsAt_eq, put]
  simp only [SortedBy.find?_insert]
  split
  · next heq => simp [SortedBy.mem_keys_insert, heq]
  · next hne => simp [← idsAt_eq, hne]

/-- It makes no difference whether a bucket is empty or absent. -/
theorem mem_idsAt_drop {id id' : Identifier} {b : Block} {height : UInt64} :
    id' ∈ ((s.drop id b).idsAt height).keys ↔
      ¬ (id' = id ∧ b.height = height) ∧ id' ∈ (s.idsAt height).keys := by
  rw [idsAt_eq, show (s.drop id b).heights = s.forget b.height id from rfl, forget]
  by_cases hh : b.height = height
  · subst hh
    rw [and_iff_left rfl, ← SortedBy.mem_keys_erase]
    split
    · next hempty =>
      rw [SortedBy.find?_erase, if_pos rfl, SortedBy.keys, SortedBy.keys,
        List.isEmpty_iff.mp hempty]
      rfl
    · rw [SortedBy.find?_insert, if_pos rfl]
      rfl
  · split <;> simp [SortedBy.find?_erase, SortedBy.find?_insert, hh, ← idsAt_eq]

/-- What is put in leaves no height without blocks. -/
theorem inhabited_put {id : Identifier} {b : Block}
    (hs : ∀ bucket ∈ s.heights.items, bucket.2.isEmpty = false) :
    ∀ bucket ∈ (s.put id b).heights.items, bucket.2.isEmpty = false := by
  intro bucket hb
  rcases SortedBy.mem_of_mem_place hb with rfl | hb
  · have hmem : id ∈ ((s.idsAt b.height).insert id).keys := SortedBy.mem_keys_insert.mpr (.inl rfl)
    obtain ⟨id', hid', -⟩ := List.mem_map.mp hmem
    exact List.isEmpty_eq_false_iff.mpr (List.ne_nil_of_mem hid')
  · exact hs bucket hb

/-- What is taken out leaves no height without blocks. -/
theorem inhabited_drop {id : Identifier} {b : Block}
    (hs : ∀ bucket ∈ s.heights.items, bucket.2.isEmpty = false) :
    ∀ bucket ∈ (s.drop id b).heights.items, bucket.2.isEmpty = false := by
  rw [show (s.drop id b).heights = s.forget b.height id from rfl, forget]
  intro bucket hb
  split at hb
  · exact hs bucket (List.mem_filter.mp hb).1
  · next hne =>
    rcases SortedBy.mem_of_mem_place hb with rfl | hb
    · exact Bool.eq_false_iff.mpr hne
    · exact hs bucket hb

/-! ## What a store holds -/

/-- The store holds what its calls say, and its index has each block at its height and no height
without blocks. -/
structure Represents (s : BlockStore) (h : Hasher) (calls : List Call) : Prop where
  hasher : s.hasher = h
  byId?_eq : ∀ id, s.byId? id = held? h calls id
  mem_idsAt_iff : ∀ height id,
    id ∈ (s.idsAt height).keys ↔ ∃ b, s.byId? id = some b ∧ b.height = height
  inhabited : ∀ bucket ∈ s.heights.items, bucket.2.isEmpty = false

theorem represents_empty (h : Hasher) : (empty h).Represents h [] where
  hasher := rfl
  byId?_eq _ := rfl
  mem_idsAt_iff _ _ := ⟨nofun, nofun⟩
  inhabited := nofun

namespace Represents

theorem add (hs : s.Represents h calls) (b : Block) :
    s.add b = .ok (s.after (.add b), (held? h calls (h.blockId b)).isNone) := by
  rw [after, add_eq, hs.hasher, hs.byId?_eq]
  cases held? h calls (h.blockId b) <;> rfl

theorem remove (hs : s.Represents h calls) (id : Identifier) :
    s.remove id = (s.after (.remove id), (held? h calls id).isSome) := by
  rw [after, ← hs.byId?_eq]
  cases hid : s.byId? id with
  | none => rw [remove_of_none hid]; rfl
  | some b => rw [remove_of_some hid]; rfl

theorem after_add (hs : s.Represents h calls) (b : Block) :
    (s.after (.add b)).Represents h (calls ++ [.add b]) := by
  rw [after, add_eq, hs.hasher]
  cases hid : s.byId? (h.blockId b) with
  | some existing =>
    simp only [Option.isSome_some, if_true]
    refine { hs with byId?_eq := fun id => ?_ }
    rw [held?_add, ← hs.byId?_eq]
    split
    · next heq => rw [← heq, hid, Option.some_or]
    · rw [Option.or_none]
  | none =>
    simp only [Option.isSome_none, Bool.false_eq_true, if_false]
    refine ⟨hs.hasher, fun id => ?_, fun height id => ?_, inhabited_put hs.inhabited⟩
    · rw [byId?_put, held?_add, ← hs.byId?_eq]
      split
      · next heq => rw [← heq, hid, Option.none_or]
      · rw [Option.or_none]
    · rw [mem_idsAt_put, hs.mem_idsAt_iff, byId?_put]
      by_cases heq : h.blockId b = id
      · simp [← heq, hid]
      · simp [heq, Ne.symm heq]

theorem after_remove (hs : s.Represents h calls) (id : Identifier) :
    (s.after (.remove id)).Represents h (calls ++ [.remove id]) := by
  rw [after]
  cases hid : s.byId? id with
  | none =>
    rw [remove_of_none hid]
    refine { hs with byId?_eq := fun id' => ?_ }
    rw [held?_remove, ← hs.byId?_eq]
    split
    · next heq => rw [← heq, hid]
    · rfl
  | some b =>
    rw [remove_of_some hid]
    refine ⟨hs.hasher, fun id' => ?_, fun height id' => ?_, inhabited_drop hs.inhabited⟩
    · rw [byId?_drop, held?_remove, ← hs.byId?_eq]
    · rw [mem_idsAt_drop, hs.mem_idsAt_iff, byId?_drop]
      by_cases heq : id = id'
      · simp [← heq, hid]
      · simp [heq, Ne.symm heq]

theorem after (hs : s.Represents h calls) : ∀ x, (s.after x).Represents h (calls ++ [x])
  | .add b => hs.after_add b
  | .remove id => hs.after_remove id

end Represents

/-- **A store holds what its calls say.** -/
theorem represents_afterAll (h : Hasher) (calls : List Call) :
    ((empty h).afterAll calls).Represents h calls := by
  induction calls using List.reverseRecOn with
  | nil => exact represents_empty h
  | append_singleton calls x ih =>
    rw [afterAll, List.foldl_append]
    exact ih.after x

/-! ## Lists of blocks -/

/-- A block comes before another one if it is lower, or as high and of a smaller identifier. -/
def Precedes (h : Hasher) (a b : Block) : Prop :=
  a.height < b.height ∨ a.height = b.height ∧ compare (h.blockId a) (h.blockId b) = .lt

instance (h : Hasher) : Std.Irrefl (Precedes h) where
  irrefl b hb := by simp [Precedes] at hb

instance (h : Hasher) : Std.Antisymm (Precedes h) where
  antisymm a b hab hba := by
    exfalso
    rcases hab with hlt | ⟨he, hlt⟩ <;> rcases hba with hlt' | ⟨he', hlt'⟩
    · exact UInt64.lt_asymm hlt hlt'
    · exact UInt64.lt_irrefl _ (he' ▸ hlt)
    · exact UInt64.lt_irrefl _ (he ▸ hlt')
    · exact Std.OrientedCmp.not_lt_of_lt hlt hlt'

/-- All the blocks are those of one height after the other. -/
theorem all_eq (s : BlockStore) : s.all = s.heights.items.flatMap fun bucket => s.atHeight bucket.1 := by
  refine List.flatMap_congr fun bucket hb => ?_
  rw [atHeight, idsAt_of_mem hb]

namespace Represents

theorem mem_atHeight_iff (hs : s.Represents h calls) {height : UInt64} {b : Block} :
    b ∈ s.atHeight height ↔ held? h calls (h.blockId b) = some b ∧ b.height = height := by
  have hkeys := hs.mem_idsAt_iff height
  simp only [SortedBy.keys, List.map_id'] at hkeys
  simp only [atHeight, List.mem_filterMap, hkeys, hs.byId?_eq]
  constructor
  · rintro ⟨id, ⟨b', hb', hh⟩, hb⟩
    obtain rfl : b' = b := Option.some.inj (hb'.symm.trans hb)
    rw [blockId_of_held? hb]
    exact ⟨hb, hh⟩
  · rintro ⟨hb, hh⟩
    exact ⟨h.blockId b, ⟨b, hb, hh⟩, hb⟩

theorem pairwise_atHeight (hs : s.Represents h calls) (height : UInt64) :
    (s.atHeight height).Pairwise (Precedes h) := by
  refine List.pairwise_filterMap.mpr ((s.idsAt height).ascending.imp_of_mem ?_)
  intro id id' hid hid' hlt b hb b' hb'
  have hheight : ∀ id ∈ (s.idsAt height).items, ∀ b, s.byId? id = some b →
      b.height = height ∧ h.blockId b = id := by
    intro id hid b hb
    have hmem : b ∈ s.atHeight height := List.mem_filterMap.mpr ⟨id, hid, hb⟩
    exact ⟨(hs.mem_atHeight_iff.mp hmem).2, blockId_of_held? (hs.byId?_eq id ▸ hb)⟩
  obtain ⟨hh, rfl⟩ := hheight id hid b hb
  obtain ⟨hh', rfl⟩ := hheight id' hid' b' hb'
  exact .inr ⟨hh.trans hh'.symm, hlt⟩

theorem mem_all_iff (hs : s.Represents h calls) {b : Block} :
    b ∈ s.all ↔ held? h calls (h.blockId b) = some b := by
  rw [all_eq, List.mem_flatMap]
  constructor
  · rintro ⟨bucket, -, hb⟩
    exact (hs.mem_atHeight_iff.mp hb).1
  · intro hb
    have hid : h.blockId b ∈ (s.idsAt b.height).keys :=
      (hs.mem_idsAt_iff _ _).mpr ⟨b, (hs.byId?_eq _).trans hb, rfl⟩
    exact ⟨_, mem_heights_of_mem_idsAt hid, hs.mem_atHeight_iff.mpr ⟨hb, rfl⟩⟩

theorem pairwise_all (hs : s.Represents h calls) : s.all.Pairwise (Precedes h) := by
  rw [all_eq, List.pairwise_flatMap]
  refine ⟨fun bucket _ => hs.pairwise_atHeight bucket.1, s.heights.ascending.imp ?_⟩
  intro bucket bucket' hlt b hb b' hb'
  rw [← (hs.mem_atHeight_iff.mp hb).2, ← (hs.mem_atHeight_iff.mp hb').2] at hlt
  exact .inl (Std.compare_eq_lt.mp hlt)

/-- **The blocks at a height are those among all.** -/
theorem atHeight_eq (hs : s.Represents h calls) (height : UInt64) :
    s.atHeight height = s.all.filter fun b => b.height = height := by
  refine (hs.pairwise_atHeight height).eq_of_mem_iff (hs.pairwise_all.filter _) fun b => ?_
  rw [hs.mem_atHeight_iff, List.mem_filter, hs.mem_all_iff, decide_eq_true_eq]

theorem size_eq (hs : s.Represents h calls) :
    s.size = {id | (held? h calls id).isSome}.ncard := by
  have hkeys : {id | (held? h calls id).isSome} = (s.blocks.keys.toFinset : Set Identifier) := by
    ext id
    rw [Set.mem_ofPred_eq, ← hs.byId?_eq, byId?, Option.isSome_map, Finset.mem_coe, List.mem_toFinset,
      SortedBy.mem_keys_iff]
  rw [hkeys, Set.ncard_coe_finset, List.toFinset_card_of_nodup s.blocks.nodup_keys, SortedBy.keys,
    List.length_map]
  rfl

end Represents

/-- **What can be seen of a store after any calls.** To add a block succeeds, and tells whether
nothing was held under its identifier; to remove one tells whether something was. Look-ups and the
size tell what is held. All the blocks come once each, by height and then by identifier, those of a
height are the ones of this height among them, and no height is kept that has no blocks. -/
theorem represents_of_calls (h : Hasher) (calls : List Call) :
    let s := (empty h).afterAll calls
    let held := held? h calls
    (∀ b, s.add b = .ok ((empty h).afterAll (calls ++ [.add b]), (held (h.blockId b)).isNone)) ∧
      (∀ id, s.remove id = ((empty h).afterAll (calls ++ [.remove id]), (held id).isSome)) ∧
      (∀ id, s.byId? id = held id ∧ s.has id = (held id).isSome) ∧
      s.size = {id | (held id).isSome}.ncard ∧ s.all.Pairwise (Precedes h) ∧
      (∀ b, b ∈ s.all ↔ ∃ id, held id = some b) ∧
      (∀ height, s.atHeight height = s.all.filter fun b => b.height = height) ∧
      ∀ bucket ∈ s.heights.items, bucket.2.isEmpty = false := by
  intro s held
  have hs : s.Represents h calls := represents_afterAll h calls
  have hstep : ∀ x, (empty h).afterAll (calls ++ [x]) = s.after x := fun x => List.foldl_append
  refine ⟨fun b => ?add, fun id => ?remove, fun id => ⟨hs.byId?_eq id, ?has⟩, hs.size_eq,
    hs.pairwise_all, fun b => ?all, hs.atHeight_eq, hs.inhabited⟩
  case add => rw [hs.add, hstep]
  case remove => rw [hs.remove, hstep]
  case has => rw [has_eq, hs.byId?_eq]
  case all =>
    rw [hs.mem_all_iff]
    exact ⟨fun hb => ⟨_, hb⟩, fun ⟨id, hb⟩ => (blockId_of_held? hb).symm ▸ hb⟩

/-- Two blocks of one identifier and of different heights. The second one is kept only once the
first is removed, and then the first is not kept any more. -/
theorem represents_of_calls_sample :
    let h : Hasher := ⟨"constant", fun _ => .zero⟩
    let low : Block := ⟨.zero, .zero, 1, [], none⟩
    let high : Block := ⟨.zero, .zero, 2, [], none⟩
    let s := (empty h).afterAll [.add low, .add high, .remove .zero, .add high, .add low]
    s.byId? .zero = some high ∧ high ∈ s.all ∧ low ∉ s.all ∧
      ∃ bucket ∈ s.heights.items, bucket.1 = 2 ∧ bucket.2.isEmpty = false := by
  intro h low high s
  obtain ⟨-, -, hlook, -, -, hall, -, hinhabited⟩ := represents_of_calls h
    [.add low, .add high, .remove .zero, .add high, .add low]
  have hheld : s.byId? .zero = some high := (hlook .zero).1.trans (by decide)
  have hid : .zero ∈ (s.idsAt 2).keys := by decide
  have hbucket : (2, s.idsAt 2) ∈ s.heights.items := mem_heights_of_mem_idsAt hid
  refine ⟨hheld, (hall high).mpr ⟨.zero, by decide⟩, fun hlow => ?_, _, hbucket, rfl,
    hinhabited _ hbucket⟩
  obtain ⟨id, hid⟩ := (hall low).mp hlow
  obtain rfl : Identifier.zero = id := blockId_of_held? hid
  exact absurd hid (by decide)

end BlockStore

end StakeLedger
