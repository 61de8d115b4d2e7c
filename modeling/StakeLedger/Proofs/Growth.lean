import Mathlib.Data.List.MinMax
import Mathlib.Data.List.Nodup
import StakeLedger.Proofs.Finalization

/-!
# How a chain grows

Snapshots come to a chain in any order, at any height and on any predecessor: they are added as
they are, or blocks are finalized. The chain remembers which it was given, and in what order.

* `Chain.Call` is such a call and `Chain.afterAll` the chain after a list of them. A call fails, or
  gives a snapshot that was there already, or adds one whose name was not taken (`perform_cases`).
* `Chain.Grown` relates a chain to the snapshots that were added to it in order. The latest one is
  the first of those of greatest height, which is what `List.argmax` gives. Every chain grows from
  the empty one by what its calls add (`Grown.afterAll`).
* `grown_of_calls` says what can be seen of a chain after calls, and what one more call does.
-/

namespace StakeLedger

namespace AccountSnapshot

/-- The first of the snapshots of greatest height. -/
def highest? (history : List AccountSnapshot) : Option AccountSnapshot :=
  history.argmax fun s => s.height.toNat

theorem highest?_concat (history : List AccountSnapshot) (s : AccountSnapshot) :
    highest? (history ++ [s]) =
      match highest? history with
      | some t => if t.height < s.height then some s else some t
      | none => some s := by
  simp only [highest?, List.argmax_concat, UInt64.lt_iff_toNat_lt]
  cases history.argmax fun s => s.height.toNat <;> rfl

theorem sameAs_self (s : AccountSnapshot) : s.sameAs s = true := by
  simp [sameAs]

end AccountSnapshot

namespace Chain

open AccountSnapshot (highest? highest?_concat)

/-- A call that may add a snapshot to a chain. -/
inductive Call
  /-- To add a snapshot. -/
  | add (s : AccountSnapshot)
  /-- To finalize a block. -/
  | finalize (h : Hasher) (b : Block)

/-- The chain after a call that succeeds, and the snapshot that the call gives. -/
def perform (c : Chain) : Call → Except FinalizeFault (Chain × AccountSnapshot)
  | .add s => (c.addSnapshot s).mapError .refused
  | .finalize h b => c.finalizeBlock h b

/-- The chain after a call, whether it succeeds or not. -/
def after (c : Chain) (x : Call) : Chain :=
  match c.perform x with
  | .ok (c', _) => c'
  | .error _ => c

/-- The chain after calls, one after the other. -/
def afterAll (c : Chain) (calls : List Call) : Chain :=
  calls.foldl after c

/-- The snapshot that a call adds. One that is there already is not added. -/
def added? (c : Chain) (x : Call) : Option AccountSnapshot :=
  match c.perform x with
  | .ok (_, s) => if c.contains s.blockId then none else some s
  | .error _ => none

/-- The snapshots that calls add, in order. -/
def additions (c : Chain) : List Call → List AccountSnapshot
  | [] => []
  | x :: rest => (c.added? x).toList ++ additions (c.after x) rest

/-- The chain with a snapshot on top, whose name is not taken. -/
def extended (c : Chain) (s : AccountSnapshot) : Chain :=
  ⟨s :: c.snapshots, if c.advances s.height then some s.blockId else c.lastFinalized⟩

variable {c : Chain} {s : AccountSnapshot} {history : List AccountSnapshot}

@[simp]
theorem afterAll_nil (c : Chain) : c.afterAll [] = c := rfl

@[simp]
theorem afterAll_cons (c : Chain) (x : Call) (rest : List Call) :
    c.afterAll (x :: rest) = (c.after x).afterAll rest := rfl

@[simp]
theorem additions_nil (c : Chain) : c.additions [] = [] := rfl

@[simp]
theorem additions_cons (c : Chain) (x : Call) (rest : List Call) :
    c.additions (x :: rest) = (c.added? x).toList ++ (c.after x).additions rest := rfl

/-! ## What one call does -/

theorem blockId_of_snapshot? {id : Identifier} (h : c.snapshot? id = some s) : s.blockId = id := by
  simpa using List.find?_some h

theorem addSnapshot_of_known {existing : AccountSnapshot}
    (h : c.snapshot? s.blockId = some existing) :
    c.addSnapshot s = if existing.sameAs s then .ok (c, existing)
      else .error (.invalidArgument (.conflictingSnapshot s.blockId)) := by
  simp only [addSnapshot, h]

theorem addSnapshot_of_fresh (h : c.snapshot? s.blockId = none) :
    c.addSnapshot s = .ok (c.extended s, s) := by
  simp only [addSnapshot, h, extended]

/-- A snapshot that is added is refused, or is there already, or has a name that is not taken. -/
theorem addSnapshot_cases (c : Chain) (s : AccountSnapshot) :
    (∃ cause, c.addSnapshot s = .error cause) ∨
    (∃ t, c.addSnapshot s = .ok (c, t) ∧ c.snapshot? t.blockId = some t) ∨
    (c.addSnapshot s = .ok (c.extended s, s) ∧ c.snapshot? s.blockId = none) := by
  cases hs : c.snapshot? s.blockId with
  | none => exact .inr (.inr ⟨addSnapshot_of_fresh hs, rfl⟩)
  | some existing =>
    rw [addSnapshot_of_known hs]
    split
    · exact .inr (.inl ⟨existing, rfl, by rw [blockId_of_snapshot? hs, hs]⟩)
    · exact .inl ⟨_, rfl⟩

/-- Whatever call succeeds, all it does is to add a snapshot. -/
theorem exists_addSnapshot_of_perform {x : Call} {r : Chain × AccountSnapshot}
    (h : c.perform x = .ok r) : ∃ s, c.addSnapshot s = .ok r := by
  cases x with
  | add s =>
    refine ⟨s, ?_⟩
    rw [perform] at h
    cases hs : c.addSnapshot s with
    | error cause => simp [hs, Except.mapError] at h
    | ok r' => simpa [hs, Except.mapError] using h
  | finalize hasher b =>
    obtain ⟨-, builder, -, -, -, ha⟩ := finalizeBlock_eq_ok_iff.mp h
    exact ⟨builder.sealed hasher, ha⟩

/-- **What a call does.** It fails, or gives a snapshot that is there already and changes
nothing, or puts a snapshot on top whose name is not taken. -/
theorem perform_cases (c : Chain) (x : Call) :
    (∃ fault, c.perform x = .error fault) ∨
    (∃ s, c.perform x = .ok (c, s) ∧ c.snapshot? s.blockId = some s) ∨
    ∃ s, c.perform x = .ok (c.extended s, s) ∧ c.snapshot? s.blockId = none := by
  cases hx : c.perform x with
  | error fault => exact .inl ⟨fault, rfl⟩
  | ok r =>
    obtain ⟨s, hs⟩ := exists_addSnapshot_of_perform hx
    rcases addSnapshot_cases c s with ⟨cause, he⟩ | ⟨t, he, ht⟩ | ⟨he, hf⟩ <;> rw [he] at hs
    · cases hs
    · cases hs
      exact .inr (.inl ⟨t, rfl, ht⟩)
    · cases hs
      exact .inr (.inr ⟨s, rfl, hf⟩)

theorem after_of_error {x : Call} {fault : FinalizeFault} (h : c.perform x = .error fault) :
    c.after x = c := by
  rw [after, h]

theorem after_of_ok {x : Call} {c' : Chain} (h : c.perform x = .ok (c', s)) : c.after x = c' := by
  rw [after, h]

/-- The chain after a call: as it was, or with the snapshot on top that the call adds. -/
theorem after_cases (c : Chain) (x : Call) :
    (c.after x = c ∧ c.added? x = none) ∨
    ∃ s, c.after x = c.extended s ∧ c.added? x = some s ∧ c.snapshot? s.blockId = none := by
  rcases perform_cases c x with ⟨fault, hx⟩ | ⟨s, hx, hs⟩ | ⟨s, hx, hs⟩
  · exact .inl ⟨after_of_error hx, by rw [added?, hx]⟩
  · exact .inl ⟨after_of_ok hx, by simp [added?, hx, contains, hs]⟩
  · exact .inr ⟨s, after_of_ok hx, by simp [added?, hx, contains, hs], hs⟩

/-! ## Snapshots stay -/

theorem snapshot?_extended (c : Chain) (s : AccountSnapshot) (id : Identifier) :
    (c.extended s).snapshot? id = if s.blockId = id then some s else c.snapshot? id :=
  snapshot?_cons s c.snapshots _ c.lastFinalized id

/-- A new snapshot leaves the others where they are. -/
theorem snapshot?_of_extended {id : Identifier} {t : AccountSnapshot}
    (ht : c.snapshot? t.blockId = none) (h : c.snapshot? id = some s) :
    (c.extended t).snapshot? id = some s := by
  have hne : t.blockId ≠ id := fun he => by
    rw [he, h] at ht
    cases ht
  rw [snapshot?_extended, if_neg hne, h]

/-- A call leaves the snapshots where they are. -/
theorem snapshot?_after {id : Identifier} (x : Call) (h : c.snapshot? id = some s) :
    (c.after x).snapshot? id = some s := by
  rcases after_cases c x with ⟨hx, -⟩ | ⟨t, hx, -, ht⟩
  · rw [hx, h]
  · rw [hx, snapshot?_of_extended ht h]

/-- **Calls leave the snapshots where they are.** -/
theorem snapshot?_afterAll {id : Identifier} (calls : List Call) (h : c.snapshot? id = some s) :
    (c.afterAll calls).snapshot? id = some s := by
  induction calls generalizing c with
  | nil => exact h
  | cons x rest ih => exact ih (snapshot?_after x h)

/-! ## The history of a chain -/

/-- The chain consists of the snapshots of a history, the first one added first. They have names of
their own, and the latest is the first of those of greatest height. -/
structure Grown (c : Chain) (history : List AccountSnapshot) : Prop where
  snapshots : c.snapshots = history.reverse
  named : (history.map AccountSnapshot.blockId).Nodup
  latest : c.lastFinalized = (highest? history).map AccountSnapshot.blockId

theorem grown_empty : empty.Grown [] :=
  ⟨rfl, List.nodup_nil, rfl⟩

namespace Grown

theorem snapshot?_of_mem (hc : c.Grown history) (hs : s ∈ history) :
    c.snapshot? s.blockId = some s := by
  have hmem : s ∈ c.snapshots := by
    rw [hc.snapshots]
    exact List.mem_reverse.mpr hs
  have hsome : (c.snapshot? s.blockId).isSome := by
    rw [snapshot?, List.find?_isSome]
    exact ⟨s, hmem, by simp⟩
  obtain ⟨t, ht⟩ := Option.isSome_iff_exists.mp hsome
  have hth : t ∈ history := by
    have hm := mem_of_snapshot? ht
    rwa [hc.snapshots, List.mem_reverse] at hm
  rw [ht, List.inj_on_of_nodup_map hc.named hth hs (blockId_of_snapshot? ht)]

/-- **A snapshot is found under its own name,** and nothing else is. -/
theorem snapshot?_eq_some_iff (hc : c.Grown history) {id : Identifier} :
    c.snapshot? id = some s ↔ s ∈ history ∧ s.blockId = id := by
  constructor
  · intro h
    have hm := mem_of_snapshot? h
    rw [hc.snapshots, List.mem_reverse] at hm
    exact ⟨hm, blockId_of_snapshot? h⟩
  · rintro ⟨hs, rfl⟩
    exact hc.snapshot?_of_mem hs

/-- **The latest snapshot is the first of those of greatest height.** -/
theorem last?_eq (hc : c.Grown history) : c.last? = highest? history := by
  rw [last?, hc.latest]
  cases hh : highest? history with
  | none => rfl
  | some s => exact hc.snapshot?_of_mem (List.argmax_mem hh)

theorem extended (hc : c.Grown history) (hs : c.snapshot? s.blockId = none) :
    (c.extended s).Grown (history ++ [s]) := by
  refine ⟨?_, ?_, ?_⟩
  · rw [Chain.extended, hc.snapshots, List.reverse_append]
    rfl
  · have hfresh : s.blockId ∉ history.map AccountSnapshot.blockId := by
      intro hmem
      obtain ⟨t, ht, he⟩ := List.mem_map.mp hmem
      have hsome := hc.snapshot?_of_mem ht
      rw [he, hs] at hsome
      cases hsome
    rw [List.map_append, List.map_singleton]
    exact List.concat_eq_append ▸ hc.named.concat hfresh
  · rw [Chain.extended, advances, hc.last?_eq, hc.latest, highest?_concat]
    cases highest? history with
    | none => rfl
    | some t => by_cases hlt : t.height < s.height <;> simp [hlt]

theorem after (hc : c.Grown history) (x : Call) :
    (c.after x).Grown (history ++ (c.added? x).toList) := by
  rcases after_cases c x with ⟨hx, ha⟩ | ⟨s, hx, ha, hs⟩ <;> rw [hx, ha]
  · rwa [Option.toList_none, List.append_nil]
  · exact hc.extended hs

/-- **A chain grows by what the calls add.** -/
theorem afterAll (hc : c.Grown history) (calls : List Call) :
    (c.afterAll calls).Grown (history ++ c.additions calls) := by
  induction calls generalizing c history with
  | nil => rwa [afterAll_nil, additions_nil, List.append_nil]
  | cons x rest ih =>
    rw [afterAll_cons, additions_cons, ← List.append_assoc]
    exact ih (hc.after x)

end Grown

theorem additions_append (c : Chain) (calls later : List Call) :
    c.additions (calls ++ later) = c.additions calls ++ (c.afterAll calls).additions later := by
  induction calls generalizing c with
  | nil => rfl
  | cons x rest ih =>
    rw [List.cons_append, additions_cons, ih, additions_cons, afterAll_cons, List.append_assoc]

/-- **What a chain is after any calls.** A snapshot is stored exactly if it was added, and then
under its own name, and no two have the same name. There is a latest snapshot unless there is
none at all, and it is the first of those of greatest height. Whatever calls follow, a stored
snapshot stays where it is. A snapshot of a known block is not added: the stored one is given if
the two agree, and an invalid argument is reported if they do not. A call that fails, or gives a
snapshot of a known block, leaves the chain as it is, and the snapshot it gives is the stored
one; any other call adds the snapshot that it gives. -/
theorem grown_of_calls (calls : List Call) :
    let c := empty.afterAll calls
    let history := empty.additions calls
    (∀ id s, c.snapshot? id = some s ↔ s ∈ history ∧ s.blockId = id) ∧
      (history.map AccountSnapshot.blockId).Nodup ∧ c.size = history.length ∧
      (c.last? = none ↔ c.isEmpty = true) ∧ c.last? = highest? history ∧
      (∀ later id s, c.snapshot? id = some s → (c.afterAll later).snapshot? id = some s) ∧
      (∀ s existing, c.snapshot? s.blockId = some existing →
        c.addSnapshot s = if existing.sameAs s then .ok (c, existing)
          else .error (.invalidArgument (.conflictingSnapshot s.blockId))) ∧
      ∀ x, (∃ fault, c.perform x = .error fault ∧ c.after x = c) ∨
        ∃ s, c.perform x = .ok (c.after x, s) ∧
          if c.contains s.blockId then c.after x = c ∧ c.snapshot? s.blockId = some s
          else empty.additions (calls ++ [x]) = history ++ [s] := by
  intro c history
  have hc : c.Grown history := grown_empty.afterAll calls
  refine ⟨fun id s => hc.snapshot?_eq_some_iff, hc.named, ?size, ?empty, hc.last?_eq,
    fun later id s => snapshot?_afterAll later, fun s existing => addSnapshot_of_known, ?call⟩
  case size => rw [size, hc.snapshots, List.length_reverse]
  case empty => rw [hc.last?_eq, highest?, List.argmax_eq_none, isEmpty, hc.snapshots,
    List.isEmpty_iff, List.reverse_eq_nil_iff]
  case call =>
    intro x
    rcases perform_cases c x with ⟨fault, hx⟩ | ⟨s, hx, hs⟩ | ⟨s, hx, hs⟩
    · exact .inl ⟨fault, hx, after_of_error hx⟩
    · refine .inr ⟨s, by rw [hx, after_of_ok hx], ?_⟩
      rw [contains, hs]
      exact ⟨after_of_ok hx, rfl⟩
    · refine .inr ⟨s, by rw [hx, after_of_ok hx], ?_⟩
      have ha : c.added? x = some s := by simp [added?, hx, contains, hs]
      rw [contains, hs, additions_append, additions_cons, ha]
      rfl

/-- A snapshot without accounts. -/
def blank (name : Nat) (height : UInt64) : AccountSnapshot :=
  SnapshotBuilder.sealed
    ⟨⟨Bytes.bigEndian 32 name, Bytes.length_bigEndian 32 name⟩, height, .empty⟩ .blake3

/-- Three snapshots are added, two of them at the greatest height, and a fourth is refused. The
first one stays the latest, and stays when a higher one comes. To add it again changes nothing,
and what contradicts it is refused. -/
theorem grown_of_calls_sample :
    let c := empty.afterAll
      [.add (blank 2 2), .add (blank 1 1), .add (blank 3 2), .add (blank 1 3)]
    c.size = 3 ∧ c.last? = some (blank 2 2) ∧
      c.snapshot? (blank 2 2).blockId = some (blank 2 2) ∧
      (c.afterAll [.add (blank 4 4)]).snapshot? (blank 2 2).blockId = some (blank 2 2) ∧
      c.addSnapshot (blank 2 2) = .ok (c, blank 2 2) ∧
      c.addSnapshot (blank 2 4) =
        .error (.invalidArgument (.conflictingSnapshot (blank 2 4).blockId)) := by
  intro c
  obtain ⟨-, -, hsize, -, hlast, hkept, hknown, -⟩ := grown_of_calls
    [.add (blank 2 2), .add (blank 1 1), .add (blank 3 2), .add (blank 1 3)]
  have hs : c.snapshot? (blank 2 2).blockId = some (blank 2 2) := rfl
  refine ⟨hsize, hlast, hs, hkept _ _ _ hs, ?_, ?_⟩
  · rw [hknown _ _ hs, if_pos (AccountSnapshot.sameAs_self _)]
  · exact hknown (blank 2 4) _ hs

end Chain

end StakeLedger
