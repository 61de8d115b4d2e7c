import Mathlib.Data.List.Find
import StakeLedger.Proofs.Retrieval

/-!
# Adding many entities at once

The entities of a list are added to a tree one after the other, or all at once. Either way the same
tree comes out, or the same entity is refused. What differs is what a refusal leaves behind: when
they are added at once, nothing is stored before the last of them has its identifier.

* `Entity.IsWellFormed` are the entities that get an identifier. Of the others,
  `Entity.IsMalformed` are those whose identity is empty or cannot be encoded, which are invalid
  arguments.
* `MerkleTree.store` and `MerkleTree.storeAll` add entities in place, the first one before the
  proof is looked up. They do what `MerkleTree.put` and `MerkleTree.putAll` do (`put_eq_store`,
  `putAll_eq_storeAll`). A refusal always comes before anything is stored.
* `MerkleTree.putEach` adds entities one after the other (`putEach_eq_putAll`).
* `MerkleTree.putAll_eq_of_perm`: the order does not matter where entities that get the same
  identifier are the same.
* `MerkleTree.putAll_agrees_or_refuses` is the main statement.
-/

namespace StakeLedger

/-! ## Malformed entities -/

namespace Entity

variable {α : Type} [Entity α] {h : Hasher} {x : α}

/-- Whether an entity has an identity: identity bytes, and at least one of them. -/
def IsWellFormed (x : α) : Prop :=
  ∃ payload, identityBytes x = .ok payload ∧ payload ≠ []

/-- Whether an entity is malformed. One that is neither well-formed nor malformed refuses its
identity for another cause, which is handed on. -/
inductive IsMalformed (x : α) : Prop
  /-- Its identity is empty. -/
  | empty (hx : identityBytes x = .ok [])
  /-- Its identity cannot be encoded. -/
  | unencodable (fault : CodecFault) (hx : identityBytes x = .error (.codec fault))

/-- The well-formed entities are those that have an identifier. -/
theorem isOk_entityId_iff : (h.entityId x).isOk = true ↔ IsWellFormed x := by
  unfold Hasher.entityId IsWellFormed
  cases identityBytes x with
  | error e => simp [Except.isOk, Except.toBool]
  | ok payload => cases payload <;> simp [Except.isOk, Except.toBool]

theorem IsWellFormed.exists_identify (hx : IsWellFormed x) :
    ∃ id, MerkleTree.identify h x = .ok id := by
  obtain ⟨payload, hpayload, hne⟩ := hx
  exact ⟨_, MerkleTree.identify_eq_ok_iff.mpr (h.entityId_of_identityBytes hpayload hne)⟩

theorem exists_identify_of_not_isWellFormed (hx : ¬ IsWellFormed x) :
    ∃ e, MerkleTree.identify h x = .error e := by
  cases hid : MerkleTree.identify h x with
  | error e => exact ⟨e, rfl⟩
  | ok id =>
    refine absurd (isOk_entityId_iff (h := h).mp ?_) hx
    rw [MerkleTree.identify_eq_ok_iff.mp hid]
    rfl

/-- **A malformed entity is an invalid argument.** -/
theorem IsMalformed.exists_identify (hx : IsMalformed x) :
    ∃ fault, MerkleTree.identify h x = .error (.invalidArgument fault) := by
  unfold MerkleTree.identify Hasher.entityId
  cases hx with
  | empty hx => exact ⟨.emptyPayload (typeTag α), by rw [hx]⟩
  | unencodable fault hx => exact ⟨.malformedEntity fault.message, by rw [hx]⟩

end Entity

/-- A parcel, for examples. What is in a sealed one cannot be encoded. -/
structure Parcel where
  content : Option Bytes
  deriving DecidableEq

instance : Codec Parcel := Codec.via Parcel.content Parcel.mk

instance : Entity Parcel where
  typeTag := "parcel"
  identityBytes x :=
    match x.content with
    | none => .error (.codec (.unencodable "sealed"))
    | some bytes => .ok bytes

namespace MerkleTree

open Entity (IsWellFormed IsMalformed isOk_entityId_iff exists_identify_of_not_isWellFormed)

variable {α : Type} [Entity α] {h : Hasher} {t u : MerkleTree α} {x : α} {xs ys : List α}

/-! ## Adding in place -/

/-- The tree after an attempt to add an entity in place, and what the attempt gives. The entity is
stored before its proof is looked up. -/
def store (t : MerkleTree α) (x : α) : MerkleTree α × Except LedgerError (Authenticated α) :=
  match identify t.hasher x with
  | .error e => (t, .error e)
  | .ok id =>
    let next := ofEntries t.hasher (t.entries.insert (id, x))
    (next, next.get id)

theorem put_eq_store (t : MerkleTree α) (x : α) :
    t.put x = (t.store x).2.map fun a => ((t.store x).1, a) := by
  rw [put, store]
  cases identify t.hasher x <;> rfl

/-- **A well-formed entity is stored and handed out.** -/
theorem store_of_isWellFormed (t : MerkleTree α) (hx : IsWellFormed x) :
    ∃ next a, t.put x = .ok (next, a) ∧ t.store x = (next, .ok a) := by
  obtain ⟨id, hid⟩ := hx.exists_identify (h := t.hasher)
  obtain ⟨proof, hput⟩ := put_of_entityId (identify_eq_ok_iff.mp hid)
  refine ⟨_, _, hput, ?_⟩
  rw [put, hid] at hput
  obtain ⟨a, hget, heq⟩ := exists_of_map_eq_ok hput
  rw [store, hid]
  simp only [hget]
  rw [(Prod.mk.inj heq).2]

/-- **Another one is refused, and nothing is stored.** -/
theorem store_of_not_isWellFormed (t : MerkleTree α) (hx : ¬ IsWellFormed x) :
    ∃ e, identify t.hasher x = .error e ∧ t.put x = .error e ∧ t.store x = (t, .error e) := by
  obtain ⟨e, he⟩ := exists_identify_of_not_isWellFormed (h := t.hasher) hx
  exact ⟨e, he, by rw [put, he], by rw [store, he]⟩

/-- The tree after an attempt to add the entities of a list in place, and whether it succeeds. All
of them are identified before the first one is stored. -/
def storeAll (t : MerkleTree α) (xs : List α) : MerkleTree α × Except LedgerError Unit :=
  match identifyAll t.hasher xs with
  | .error e => (t, .error e)
  | .ok staged => (ofEntries t.hasher (t.entries.insertAll staged), .ok ())

theorem putAll_eq_storeAll (t : MerkleTree α) (xs : List α) :
    t.putAll xs = (t.storeAll xs).2.map fun _ => (t.storeAll xs).1 := by
  rw [putAll, storeAll]
  cases identifyAll t.hasher xs <;> rfl

theorem attempt_eq_storeAll (t : MerkleTree α) (a : Addition α) :
    t.attempt a = (t.storeAll a.entities).1 := by
  rw [attempt_eq, attempt, putAll, storeAll]
  cases identifyAll t.hasher a.entities <;> rfl

/-! ## One after the other -/

/-- The tree with the entities of a list added one after the other, unless one is refused. -/
def putEach (t : MerkleTree α) : List α → Except LedgerError (MerkleTree α)
  | [] => .ok t
  | x :: rest =>
    match t.put x with
    | .error e => .error e
    | .ok (next, _) => next.putEach rest

/-- The first of the entities can be added before the others. -/
theorem putAll_cons (t : MerkleTree α) (x : α) (rest : List α) :
    t.putAll (x :: rest) =
      match t.put x with
      | .error e => .error e
      | .ok (next, _) => next.putAll rest := by
  cases hid : identify t.hasher x with
  | error e =>
    rw [putAll, identifyAll, put, hid]
    rfl
  | ok id =>
    obtain ⟨proof, hput⟩ := put_of_entityId (identify_eq_ok_iff.mp hid)
    rw [hput, putAll, identifyAll, hid]
    simp only [putAll]
    rw [show (ofEntries t.hasher (t.entries.insert (id, x))).hasher = t.hasher from rfl]
    cases identifyAll t.hasher rest <;> rfl

omit [Entity α] in
theorem ofEntries_entries (t : MerkleTree α) : ofEntries t.hasher t.entries = t := by
  obtain ⟨h, entries, levels, rfl⟩ := t
  rfl

/-- **It makes no difference whether entities are added at once or one after the other:** the same
tree comes out, or the same error. -/
theorem putEach_eq_putAll (t : MerkleTree α) (xs : List α) : t.putEach xs = t.putAll xs := by
  induction xs generalizing t with
  | nil => exact congrArg Except.ok t.ofEntries_entries.symm
  | cons x rest ih =>
    rw [putEach, putAll_cons]
    cases t.put x with
    | error e => rfl
    | ok r => exact ih r.1

/-! ## All at once -/

omit [Entity α] in
/-- The hash function and the look-ups make up a tree. -/
theorem ext_find? (hhasher : t.hasher = u.hasher)
    (hfind : ∀ id, t.entries.find? id = u.entries.find? id) : t = u := by
  rw [← t.ofEntries_entries, ← u.ofEntries_entries, hhasher, SortedBy.ext_find? hfind]

theorem all_isOk_iff : (xs.all fun x => (h.entityId x).isOk) = true ↔ ∀ x ∈ xs, IsWellFormed x := by
  simp only [List.all_eq_true, isOk_entityId_iff]

/-- **Well-formed entities are all added,** and of several under one identifier the last is found
there. -/
theorem exists_putAll_of_isWellFormed (t : MerkleTree α) (hxs : ∀ x ∈ xs, IsWellFormed x) :
    ∃ next, t.putAll xs = .ok next ∧ t.storeAll xs = (next, .ok ()) ∧ next.hasher = t.hasher ∧
      ∀ id, next.entries.find? id =
        ((xs.reverse.find? fun x => (t.hasher.entityId x).toOption = some id).map (id, ·)).or
          (t.entries.find? id) := by
  obtain ⟨staged, hstaged, hfind⟩ := exists_identifyAll (all_isOk_iff (h := t.hasher).mpr hxs)
  refine ⟨ofEntries t.hasher (t.entries.insertAll staged), ?_, ?_, rfl, fun id => ?_⟩
  · rw [putAll, hstaged]
    rfl
  · rw [storeAll, hstaged]
  · rw [← hfind]
    exact SortedBy.find?_insertAll

/-- **The order does not matter** where entities that get the same identifier are the same. -/
theorem putAll_eq_of_perm (t : MerkleTree α) (hxs : ∀ x ∈ xs, IsWellFormed x) (hperm : ys.Perm xs)
    (hsame : ∀ x ∈ xs, ∀ y ∈ xs, t.hasher.entityId x = t.hasher.entityId y → x = y) :
    t.putAll ys = t.putAll xs := by
  obtain ⟨next, hnext, -, hhasher, hfind⟩ := t.exists_putAll_of_isWellFormed hxs
  obtain ⟨next', hnext', -, hhasher', hfind'⟩ :=
    t.exists_putAll_of_isWellFormed fun y hy => hxs y (hperm.subset hy)
  have hrev : ys.reverse.Perm xs.reverse :=
    (ys.reverse_perm.trans hperm).trans xs.reverse_perm.symm
  have hlast (id : Identifier) :
      (ys.reverse.find? fun x => (t.hasher.entityId x).toOption = some id) =
        xs.reverse.find? fun x => (t.hasher.entityId x).toOption = some id := by
    refine List.find?_eq_find?_of_perm hrev ?_
    rintro x ⟨hx, hxid⟩ y ⟨hy, hyid⟩
    refine hsame x (hperm.subset (List.mem_reverse.mp hx)) y
      (hperm.subset (List.mem_reverse.mp hy)) ?_
    rw [toOption_eq_some_iff.mp (of_decide_eq_true hxid),
      toOption_eq_some_iff.mp (of_decide_eq_true hyid)]
  have heq : next' = next := by
    apply ext_find? (hhasher'.trans hhasher.symm)
    intro id
    rw [hfind', hfind, hlast]
  rw [hnext, hnext', heq]

/-- A list is refused for the first of its entities that is not well-formed. -/
theorem exists_identifyAll_eq_error (hxs : ¬ ∀ x ∈ xs, IsWellFormed x) :
    ∃ before x after e, xs = before ++ x :: after ∧ (∀ y ∈ before, IsWellFormed y) ∧
      ¬ IsWellFormed x ∧ identify h x = .error e ∧ identifyAll h xs = .error e := by
  induction xs with
  | nil => exact absurd nofun hxs
  | cons x rest ih =>
    by_cases hx : IsWellFormed x
    · obtain ⟨before, y, after, e, rfl, hbefore, hy, he, hrest⟩ :=
        ih fun hrest => hxs (List.forall_mem_cons.mpr ⟨hx, hrest⟩)
      obtain ⟨id, hid⟩ := hx.exists_identify (h := h)
      refine ⟨x :: before, y, after, e, rfl, List.forall_mem_cons.mpr ⟨hx, hbefore⟩, hy, he, ?_⟩
      rw [identifyAll, hid]
      simp only [hrest]
      rfl
    · obtain ⟨e, he⟩ := exists_identify_of_not_isWellFormed (h := h) hx
      exact ⟨[], x, rest, e, rfl, nofun, hx, he, by rw [identifyAll, he]⟩

/-- **A list that is refused leaves the tree as it is.** -/
theorem exists_putAll_eq_error (t : MerkleTree α) (hxs : ¬ ∀ x ∈ xs, IsWellFormed x) :
    ∃ before x after e, xs = before ++ x :: after ∧ (∀ y ∈ before, IsWellFormed y) ∧
      ¬ IsWellFormed x ∧ identify t.hasher x = .error e ∧ t.putAll xs = .error e ∧
      t.storeAll xs = (t, .error e) := by
  obtain ⟨before, x, after, e, hsplit, hbefore, hx, he, hall⟩ :=
    exists_identifyAll_eq_error (h := t.hasher) hxs
  refine ⟨before, x, after, e, hsplit, hbefore, hx, he, ?_, ?_⟩
  · rw [putAll, hall]
    rfl
  · rw [storeAll, hall]

/-- **So does an entity that is refused by itself,** also if the tree is shared. -/
theorem store_of_put_eq_error {e : LedgerError} (hput : t.put x = .error e) :
    t.store x = (t, .error e) ∧ (⟨t⟩ : SharedMerkleTree α).put x = (⟨t⟩, .error e) := by
  constructor
  · by_cases hwf : IsWellFormed x
    · obtain ⟨next, a, hok, -⟩ := t.store_of_isWellFormed hwf
      cases hput.symm.trans hok
    · obtain ⟨e', -, he', hstore⟩ := t.store_of_not_isWellFormed hwf
      cases hput.symm.trans he'
      exact hstore
  · rw [SharedMerkleTree.put, hput]

/-- **Entities are added at once as they are one after the other, or none of them is.**

* Well-formed entities are all added. The same tree comes out when they are added one after the
  other, and in every other order if those with one identifier are the same. Of several under one
  identifier the last is found there.
* If one is not well-formed, none is added, and the error is the one that comes when they are added
  one after the other. It is an invalid argument if those that are not well-formed are malformed.
* An entity that is refused by itself leaves the tree as it is, also one that is shared. A
  malformed one is an invalid argument. -/
theorem putAll_agrees_or_refuses (t : MerkleTree α) (xs : List α) :
    ((∀ x ∈ xs, IsWellFormed x) →
      ∃ next, t.putAll xs = .ok next ∧ t.storeAll xs = (next, .ok ()) ∧ t.putEach xs = .ok next ∧
        (∀ id, next.entries.find? id =
          ((xs.reverse.find? fun x => (t.hasher.entityId x).toOption = some id).map (id, ·)).or
            (t.entries.find? id)) ∧
        ∀ ys : List α, ys.Perm xs →
          (∀ x ∈ xs, ∀ y ∈ xs, t.hasher.entityId x = t.hasher.entityId y → x = y) →
          t.putAll ys = .ok next) ∧
    ((∃ x ∈ xs, ¬ IsWellFormed x) →
      ∃ e, t.putAll xs = .error e ∧ t.storeAll xs = (t, .error e) ∧ t.putEach xs = .error e ∧
        ((∀ x ∈ xs, IsWellFormed x ∨ IsMalformed x) → ∃ fault, e = .invalidArgument fault)) ∧
    (∀ x e, t.put x = .error e →
      t.store x = (t, .error e) ∧ (⟨t⟩ : SharedMerkleTree α).put x = (⟨t⟩, .error e)) ∧
    ∀ x, IsMalformed x → ∃ fault, t.put x = .error (.invalidArgument fault) := by
  refine ⟨fun hxs => ?_, fun hxs => ?_, fun x e => store_of_put_eq_error, fun x hx => ?_⟩
  · obtain ⟨next, hnext, hstore, -, hfind⟩ := t.exists_putAll_of_isWellFormed hxs
    refine ⟨next, hnext, hstore, t.putEach_eq_putAll xs ▸ hnext, hfind, fun ys hperm hsame => ?_⟩
    exact (t.putAll_eq_of_perm hxs hperm hsame).trans hnext
  · obtain ⟨before, x, after, e, hsplit, -, hwf, he, hput, hstore⟩ :=
      t.exists_putAll_eq_error (by simpa using hxs)
    refine ⟨e, hput, hstore, t.putEach_eq_putAll xs ▸ hput, fun hmal => ?_⟩
    have hx : x ∈ xs := hsplit ▸ List.mem_append_right _ List.mem_cons_self
    obtain ⟨fault, hfault⟩ := ((hmal x hx).resolve_left hwf).exists_identify (h := t.hasher)
    exact ⟨fault, Except.error.inj (he.symm.trans hfault)⟩
  · obtain ⟨fault, hfault⟩ := hx.exists_identify (h := t.hasher)
    exact ⟨fault, by rw [put, hfault]⟩

/-- Parcels in two orders, of which one comes twice, and some with a sealed one among them. -/
theorem putAll_agrees_or_refuses_sample :
    let t : MerkleTree Parcel := empty .numeral
    let xs : List Parcel := [⟨some [1]⟩, ⟨some [2]⟩, ⟨some [1]⟩]
    let refused : List Parcel := [⟨some [1]⟩, ⟨none⟩, ⟨some []⟩]
    (∃ next, t.putAll xs = .ok next ∧ t.putEach xs = .ok next ∧
      t.putAll [⟨some [2]⟩, ⟨some [1]⟩, ⟨some [1]⟩] = .ok next) ∧
    (∃ fault, t.putEach refused = .error (.invalidArgument fault) ∧
      t.storeAll refused = (t, .error (.invalidArgument fault))) ∧
    ∃ fault, t.store ⟨some []⟩ = (t, .error (.invalidArgument fault)) := by
  intro t xs refused
  have hempty : IsMalformed (⟨some []⟩ : Parcel) := .empty rfl
  have hsealed : IsMalformed (⟨none⟩ : Parcel) := .unencodable (.unencodable "sealed") rfl
  have hxs : ∀ x ∈ xs, IsWellFormed x := by
    rw [← all_isOk_iff (h := .numeral)]
    decide +kernel
  have hsame : ∀ x ∈ xs, ∀ y ∈ xs, t.hasher.entityId x = t.hasher.entityId y → x = y := by
    decide +kernel
  have hrefused : ∀ x ∈ refused, IsWellFormed x ∨ IsMalformed x :=
    List.forall_mem_cons.mpr ⟨.inl (hxs _ List.mem_cons_self), by simp [hempty, hsealed]⟩
  have hnone : ¬ IsWellFormed (⟨none⟩ : Parcel) := nofun
  refine ⟨?_, ?_, ?_⟩
  · obtain ⟨next, hput, -, heach, -, horder⟩ := (putAll_agrees_or_refuses t xs).1 hxs
    exact ⟨next, hput, heach, horder _ (by decide) hsame⟩
  · obtain ⟨e, -, hstore, heach, hfault⟩ :=
      (putAll_agrees_or_refuses t refused).2.1 ⟨⟨none⟩, by simp [refused], hnone⟩
    obtain ⟨fault, rfl⟩ := hfault hrefused
    exact ⟨fault, heach, hstore⟩
  · obtain ⟨fault, hput⟩ := (putAll_agrees_or_refuses t []).2.2.2 _ hempty
    exact ⟨fault, ((putAll_agrees_or_refuses t []).2.2.1 _ _ hput).1⟩

end MerkleTree

end StakeLedger
