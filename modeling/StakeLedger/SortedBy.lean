/-!
# Collections sorted by a key

`SortedBy key` is a finite collection of items with at most one item to a key, kept in
ascending order of the keys. With the item itself as key it is a finite set, with the first
component of a pair as key a finite map.

* `find?` looks a key up; `insert` adds an item and replaces the one with its key; `erase`
  removes the item with a key. What they do to a look-up is said by `find?_insert` and
  `find?_erase`.
* Two collections with the same items or the same look-ups are equal (`ext_mem`,
  `ext_find?`), so the order in which items were inserted leaves no trace.
-/

namespace StakeLedger

/-- Items in strictly ascending order of their keys. -/
structure SortedBy {α κ : Type} [Ord κ] (key : α → κ) where
  /-- The items, smallest key first. -/
  items : List α
  /-- Each key is smaller than those after it. -/
  ascending : items.Pairwise fun a b => compare (key a) (key b) = .lt

namespace SortedBy

variable {α κ : Type} [Ord κ] {key : α → κ}

@[ext]
theorem ext {s t : SortedBy key} (h : s.items = t.items) : s = t := by
  cases s; cases t; cases h; rfl

/-- The collection without items. -/
def empty : SortedBy key := ⟨[], .nil⟩

instance : EmptyCollection (SortedBy key) := ⟨empty⟩

instance : Inhabited (SortedBy key) := ⟨empty⟩

@[simp]
theorem items_empty : (empty : SortedBy key).items = [] := rfl

/-- The number of items. -/
def size (s : SortedBy key) : Nat := s.items.length

/-- Whether there is no item. -/
def isEmpty (s : SortedBy key) : Bool := s.items.isEmpty

/-- The keys in ascending order. -/
def keys (s : SortedBy key) : List κ := s.items.map key

/-- An item placed into a sorted list; it replaces one with the same key. -/
def place (key : α → κ) (a : α) : List α → List α
  | [] => [a]
  | b :: rest =>
    match compare (key a) (key b) with
    | .lt => a :: b :: rest
    | .eq => a :: rest
    | .gt => b :: place key a rest

theorem mem_of_mem_place {a c : α} {items : List α} (h : c ∈ place key a items) :
    c = a ∨ c ∈ items := by
  induction items with
  | nil => exact .inl (List.mem_singleton.mp h)
  | cons b rest ih =>
    rw [place] at h
    split at h
    · exact List.mem_cons.mp h
    · rcases List.mem_cons.mp h with h | h
      · exact .inl h
      · exact .inr (List.mem_cons_of_mem _ h)
    · rcases List.mem_cons.mp h with h | h
      · exact .inr (h ▸ List.mem_cons_self)
      · exact (ih h).imp_right (List.mem_cons_of_mem _)

theorem ascending_place [Std.TransOrd κ] (a : α) {items : List α}
    (h : items.Pairwise fun a b => compare (key a) (key b) = .lt) :
    (place key a items).Pairwise fun a b => compare (key a) (key b) = .lt := by
  induction items with
  | nil => simp [place]
  | cons b rest ih =>
    rw [List.pairwise_cons] at h
    rw [place]
    split
    · next hc =>
      refine .cons (fun c hm => ?_) (.cons h.1 h.2)
      rcases List.mem_cons.mp hm with rfl | hm
      · exact hc
      · exact Std.TransCmp.lt_trans hc (h.1 c hm)
    · next hc =>
      exact .cons (fun c hm => Std.TransCmp.lt_of_eq_of_lt hc (h.1 c hm)) h.2
    · next hc =>
      refine .cons (fun c hm => ?_) (ih h.2)
      rcases mem_of_mem_place hm with rfl | hm
      · exact Std.OrientedCmp.gt_iff_lt.mp hc
      · exact h.1 c hm

/-- The collection with an item added, in place of the one with its key if there is one. -/
def insert [Std.TransOrd κ] (s : SortedBy key) (a : α) : SortedBy key :=
  ⟨place key a s.items, ascending_place a s.ascending⟩

/-- The collection with all the items of a list added, one after the other. -/
def insertAll [Std.TransOrd κ] (s : SortedBy key) (items : List α) : SortedBy key :=
  items.foldl insert s

/-- The collection of the items of a list; of several with one key the last is kept. -/
def ofList [Std.TransOrd κ] (items : List α) : SortedBy key :=
  empty.insertAll items

theorem mem_of_mem_insertAll [Std.TransOrd κ] {s : SortedBy key} {items : List α} {c : α}
    (h : c ∈ (s.insertAll items).items) : c ∈ s.items ∨ c ∈ items := by
  induction items generalizing s with
  | nil => exact .inl h
  | cons a rest ih =>
    rcases ih (s := s.insert a) h with h | h
    · rcases mem_of_mem_place h with rfl | h
      · exact .inr List.mem_cons_self
      · exact .inl h
    · exact .inr (List.mem_cons_of_mem _ h)

variable [DecidableEq κ]

/-- The item with a key. -/
def find? (s : SortedBy key) (k : κ) : Option α :=
  s.items.find? fun a => key a = k

/-- Whether there is an item with a key. -/
def contains (s : SortedBy key) (k : κ) : Bool :=
  (s.find? k).isSome

/-- The collection without the item that has a key. -/
def erase (s : SortedBy key) (k : κ) : SortedBy key :=
  ⟨s.items.filter fun a => key a ≠ k, s.ascending.filter _⟩

/-! ## Look-ups -/

@[simp]
theorem find?_empty (k : κ) : (empty : SortedBy key).find? k = none := rfl

theorem mem_of_find? {s : SortedBy key} {k : κ} {a : α} (h : s.find? k = some a) : a ∈ s.items :=
  List.mem_of_find?_eq_some h

theorem key_of_find? {s : SortedBy key} {k : κ} {a : α} (h : s.find? k = some a) : key a = k := by
  simpa using List.find?_some h

theorem find?_erase (s : SortedBy key) (k k' : κ) :
    (s.erase k).find? k' = if k = k' then none else s.find? k' := by
  simp only [erase, find?, List.find?_filter]
  split
  · next h =>
    rw [List.find?_eq_none]
    simp [h]
  · next h =>
    congr 1
    funext a
    by_cases he : key a = k'
    · simp [he, Ne.symm h]
    · simp [he]

variable [Std.TransOrd κ] [Std.LawfulEqOrd κ]

theorem find?_insert (s : SortedBy key) (a : α) (k : κ) :
    (s.insert a).find? k = if key a = k then some a else s.find? k := by
  obtain ⟨items, hs⟩ := s
  simp only [insert, find?]
  induction items with
  | nil => simp only [place, List.find?_cons, List.find?_nil]; split <;> simp_all
  | cons b rest ih =>
    rw [List.pairwise_cons] at hs
    rw [place]
    split
    · by_cases he : key a = k <;> simp [he]
    · next hc =>
      rw [Std.LawfulEqOrd.compare_eq_iff_eq] at hc
      by_cases he : key a = k
      · simp [he]
      · simp [he, ← hc]
    · next hc =>
      have hne : key a ≠ key b := fun he => by
        simp [he] at hc
      by_cases hb : key b = k
      · subst hb; simp [hne]
      · simp only [List.find?_cons, hb, decide_false]
        simpa using ih hs.2

omit [Std.TransOrd κ] in
theorem find?_of_mem {s : SortedBy key} {a : α} (h : a ∈ s.items) : s.find? (key a) = some a := by
  obtain ⟨items, hs⟩ := s
  simp only at h
  simp only [find?]
  induction items with
  | nil => cases h
  | cons b rest ih =>
    rw [List.pairwise_cons] at hs
    rcases List.mem_cons.mp h with rfl | h
    · simp
    · have hlt := hs.1 a h
      have hne : key b ≠ key a := fun he => by
        simp [he] at hlt
      simp only [List.find?_cons, hne, decide_false]
      exact ih hs.2 h

omit [Std.TransOrd κ] in
theorem find?_eq_some_iff {s : SortedBy key} {k : κ} {a : α} :
    s.find? k = some a ↔ a ∈ s.items ∧ key a = k := by
  constructor
  · exact fun h => ⟨mem_of_find? h, key_of_find? h⟩
  · rintro ⟨h, rfl⟩
    exact find?_of_mem h

omit [Std.TransOrd κ] in
theorem mem_keys_iff {s : SortedBy key} {k : κ} : k ∈ s.keys ↔ (s.find? k).isSome := by
  rw [keys, List.mem_map, Option.isSome_iff_exists]
  simp only [find?_eq_some_iff]

theorem mem_keys_insert {s : SortedBy key} {a : α} {k : κ} :
    k ∈ (s.insert a).keys ↔ k = key a ∨ k ∈ s.keys := by
  rw [mem_keys_iff, mem_keys_iff, find?_insert]
  split
  · next heq => simp [heq]
  · next hne => simp [Ne.symm hne]

omit [Std.TransOrd κ] in
theorem mem_keys_erase {s : SortedBy key} {k k' : κ} :
    k' ∈ (s.erase k).keys ↔ k' ≠ k ∧ k' ∈ s.keys := by
  rw [mem_keys_iff, mem_keys_iff, find?_erase]
  split
  · next heq => simp [heq]
  · next hne => simp [Ne.symm hne]

theorem mem_keys_insertAll {s : SortedBy key} {items : List α} {k : κ} :
    k ∈ (s.insertAll items).keys ↔ k ∈ items.map key ∨ k ∈ s.keys := by
  induction items generalizing s with
  | nil => simp [insertAll]
  | cons a rest ih =>
    rw [insertAll, List.foldl_cons, ← insertAll, ih, mem_keys_insert, List.map_cons, List.mem_cons,
      or_left_comm, or_assoc]

/-- The last of several items with one key is found. -/
theorem find?_insertAll {s : SortedBy key} {items : List α} {k : κ} :
    (s.insertAll items).find? k = (items.reverse.find? fun a => key a = k).or (s.find? k) := by
  induction items generalizing s with
  | nil => rfl
  | cons a rest ih =>
    rw [insertAll, List.foldl_cons, ← insertAll, ih, find?_insert, List.reverse_cons,
      List.find?_append, Option.or_assoc]
    congr 1
    by_cases hk : key a = k <;> simp [hk]

omit [DecidableEq κ] [Std.TransOrd κ] in
/-- Each key comes once. -/
theorem nodup_keys (s : SortedBy key) : s.keys.Nodup := by
  refine List.pairwise_map.mpr (s.ascending.imp fun {a b} hlt heq => ?_)
  simp [heq] at hlt

omit [DecidableEq κ] in
/-- Collections with the same items are equal. -/
theorem ext_mem {s t : SortedBy key} (h : ∀ a, a ∈ s.items ↔ a ∈ t.items) : s = t := by
  have hirr : ∀ a : α, compare (key a) (key a) ≠ .lt := fun a ha => by
    simp at ha
  have hnodup : ∀ u : SortedBy key, u.items.Nodup := fun u =>
    List.Pairwise.of_map key (fun _ _ hne heq => hne (congrArg key heq)) u.nodup_keys
  apply ext
  have hperm : s.items.Perm t.items :=
    (List.perm_ext_iff_of_nodup (hnodup s) (hnodup t)).mpr h
  refine hperm.eq_of_pairwise (fun a b _ _ hab hba => ?_) s.ascending t.ascending
  exact absurd (Std.TransCmp.lt_trans hab hba) (hirr a)

/-- The items of a collection make it up. -/
theorem ofList_items (s : SortedBy key) : ofList s.items = s := by
  have hmem {a : α} (ha : a ∈ (ofList s.items : SortedBy key).items) : a ∈ s.items :=
    (mem_of_mem_insertAll ha).resolve_left nofun
  refine ext_mem fun a => ⟨hmem, fun ha => ?_⟩
  have hkey : key a ∈ (ofList s.items : SortedBy key).keys :=
    mem_keys_insertAll.mpr (.inl (List.mem_map_of_mem ha))
  obtain ⟨b, hb, hkey⟩ := List.mem_map.mp hkey
  have hba : some b = some a := by
    rw [← find?_of_mem (hmem hb), hkey, find?_of_mem ha]
  exact Option.some.inj hba ▸ hb

/-- Collections with the same look-ups are equal. -/
theorem ext_find? {s t : SortedBy key} (h : ∀ k, s.find? k = t.find? k) : s = t := by
  refine ext_mem fun a => ⟨fun ha => ?_, fun ha => ?_⟩
  · exact (find?_eq_some_iff.mp (h (key a) ▸ find?_of_mem ha)).1
  · exact (find?_eq_some_iff.mp ((h (key a)).symm ▸ find?_of_mem ha)).1

end SortedBy

end StakeLedger
