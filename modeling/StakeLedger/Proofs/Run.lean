import StakeLedger.Node.Engine
import StakeLedger.Proofs.Finalization

/-!
# Runs of an engine

An engine that starts with one snapshot and gets entities one after the other only ever adds
the snapshots of the blocks that it accepts.

* `Engine.run` is the chain after a list of entities, and `Engine.accepted` are the blocks that
  are accepted on the way. What one entity does is one of two things (`process_cases`).
* `Engine.Extends` relates a genesis snapshot, a chain and the blocks that lead from one to the
  other. Every run is of this form (`extends_run`), so that a property of all runs is proved by
  induction on it.
-/

namespace StakeLedger

namespace Engine

/-- The chain after entities, processed one after the other. -/
def run (e : Engine) (c : Chain) (inputs : List EncodedEntity) : Chain :=
  inputs.foldl (fun c x => (e.process c x).1) c

/-- The block that an entity is, if an engine accepts it. -/
def accepts? (e : Engine) (c : Chain) (x : EncodedEntity) : Option Block :=
  match (x.decode (Entity.typeTag Block) : Except LedgerError Block) with
  | .error _ => none
  | .ok b => if (e.process c x).2 = .ok .accepted then some b else none

/-- The blocks among entities that an engine accepts, in order. -/
def accepted (e : Engine) (c : Chain) : List EncodedEntity → List Block
  | [] => []
  | x :: rest => (e.accepts? c x).toList ++ accepted e (e.process c x).1 rest

variable {e : Engine} {c : Chain} {x : EncodedEntity} {b : Block} {genesis : AccountSnapshot}

@[simp]
theorem run_nil (e : Engine) (c : Chain) : e.run c [] = c := rfl

@[simp]
theorem run_cons (e : Engine) (c : Chain) (x : EncodedEntity) (rest : List EncodedEntity) :
    e.run c (x :: rest) = e.run (e.process c x).1 rest := rfl

@[simp]
theorem accepted_nil (e : Engine) (c : Chain) : e.accepted c [] = [] := rfl

@[simp]
theorem accepted_cons (e : Engine) (c : Chain) (x : EncodedEntity) (rest : List EncodedEntity) :
    e.accepted c (x :: rest) = (e.accepts? c x).toList ++ e.accepted (e.process c x).1 rest := rfl

/-! ## What one entity does -/

theorem decode_error_of_typeTag_ne {α : Type} [Codec α] [Codec.Robust α] {expected : String}
    (h : x.typeTag ≠ expected) :
    (x.decode expected : Except LedgerError α) =
      .error (.invalidArgument (.tagMismatch expected x.typeTag)) := by
  rw [EncodedEntity.decode, if_pos h]

theorem process_of_decode
    (h : (x.decode (Entity.typeTag Block) : Except LedgerError Block) = .ok b) :
    e.process c x = e.processBlock c b := by
  have htag : x.typeTag = Entity.typeTag Block := by
    by_contra hne
    rw [decode_error_of_typeTag_ne hne] at h
    cases h
  have h₁ : Entity.typeTag Block ≠ Entity.typeTag Transaction := by decide
  have h₂ : Entity.typeTag Block ≠ Entity.typeTag ValidatedTransaction := by decide
  rw [process, htag, if_neg h₁, if_neg h₂, if_pos rfl]
  simp only [h]

/-- What is no block leaves the chain as it is. -/
theorem process_of_decode_error {cause : LedgerError}
    (h : (x.decode (Entity.typeTag Block) : Except LedgerError Block) = .error cause) :
    (e.process c x).1 = c := by
  unfold process
  split
  · split <;> rfl
  · split
    · split <;> rfl
    · split
      · simp only [h]
      · rfl

theorem processBlock_of_finalizeBlock {next : Chain} {s : AccountSnapshot}
    (hb : b.admission e.hasher e.parameters c = .ok (.ok ()))
    (hf : c.finalizeBlock e.hasher b = .ok (next, s)) :
    e.processBlock c b = (next, .ok .accepted) := by
  simp only [processBlock, hb, hf]

/-- **What a block does.** Either it is admitted and finalized, or it is not accepted and the
chain stays as it is. -/
theorem processBlock_cases (e : Engine) (c : Chain) (b : Block) :
    (∃ next s, b.admission e.hasher e.parameters c = .ok (.ok ()) ∧
      c.finalizeBlock e.hasher b = .ok (next, s) ∧ e.processBlock c b = (next, .ok .accepted)) ∨
    ((e.processBlock c b).1 = c ∧ (e.processBlock c b).2 ≠ .ok .accepted) := by
  unfold processBlock
  rcases b.admission e.hasher e.parameters c with ⟨⟩ | reason | ⟨⟩
  · exact .inr ⟨rfl, by simp⟩
  · exact .inr ⟨rfl, by simp⟩
  · rcases hf : c.finalizeBlock e.hasher b with (⟨⟩ | cause) | ⟨next, s⟩
    · exact .inr ⟨rfl, by simp⟩
    · exact .inr ⟨rfl, by simp⟩
    · exact .inl ⟨next, s, rfl, rfl, rfl⟩

/-- **What an entity does.** Either it is a block that is admitted and finalized, or nothing is
accepted and the chain stays as it is. -/
theorem process_cases (e : Engine) (c : Chain) (x : EncodedEntity) :
    (∃ b next s, e.accepts? c x = some b ∧ b.admission e.hasher e.parameters c = .ok (.ok ()) ∧
      c.finalizeBlock e.hasher b = .ok (next, s) ∧ (e.process c x).1 = next) ∨
    (e.accepts? c x = none ∧ (e.process c x).1 = c) := by
  unfold accepts?
  cases hd : (x.decode (Entity.typeTag Block) : Except LedgerError Block) with
  | error cause => exact .inr ⟨rfl, process_of_decode_error hd⟩
  | ok b =>
    simp only [process_of_decode hd]
    rcases processBlock_cases e c b with ⟨next, s, hb, hf, hp⟩ | ⟨hc, hv⟩
    · exact .inl ⟨b, next, s, by rw [hp, if_pos rfl], hb, hf, by rw [hp]⟩
    · exact .inr ⟨if_neg hv, hc⟩

/-- **A block is accepted exactly if it is admitted and finalized.** -/
theorem accepts?_eq_some_iff :
    e.accepts? c x = some b ↔ (x.decode (Entity.typeTag Block) : Except LedgerError Block) = .ok b ∧
      b.admission e.hasher e.parameters c = .ok (.ok ()) ∧
      ∃ next s, c.finalizeBlock e.hasher b = .ok (next, s) := by
  unfold accepts?
  cases hd : (x.decode (Entity.typeTag Block) : Except LedgerError Block) with
  | error cause => simp
  | ok b' =>
    simp only [process_of_decode hd, Except.ok.injEq]
    constructor
    · intro h
      split at h
      · next hv =>
        obtain rfl : b' = b := Option.some.inj h
        rcases processBlock_cases e c b' with ⟨next, s, hb, hf, -⟩ | ⟨-, hn⟩
        · exact ⟨rfl, hb, next, s, hf⟩
        · exact absurd hv hn
      · cases h
    · rintro ⟨rfl, hb, next, s, hf⟩
      rw [processBlock_of_finalizeBlock hb hf, if_pos rfl]

/-! ## What a list of entities does -/

/-- An admitted block on a linear chain appends its snapshot when it is finalized. -/
theorem appends_of_admission {p : Parameters} {h : Hasher} {c' : Chain} {next : AccountSnapshot}
    (hc : c.Linear) (hb : b.admission h p c = .ok (.ok ()))
    (hf : c.finalizeBlock h b = .ok (c', next)) :
    ∃ previous, c.Appends h b previous next c' := by
  obtain ⟨previous, hl, hp, -⟩ := hc.parent_of_admission hb
  exact ⟨previous, hc.appends_of_finalizeBlock hl hp hf⟩

/-- Blocks, each admitted and appended after the other, lead from a genesis snapshot to a
chain. -/
inductive Extends (e : Engine) (genesis : AccountSnapshot) : Chain → List Block → Prop
  | genesis : Extends e genesis (.ofGenesis genesis) []
  | block {c c' : Chain} {blocks : List Block} {b : Block} {previous next : AccountSnapshot} :
    Extends e genesis c blocks → b.admission e.hasher e.parameters c = .ok (.ok ()) →
    c.Appends e.hasher b previous next c' → Extends e genesis c' (blocks ++ [b])

theorem Extends.linear {blocks : List Block} (h : e.Extends genesis c blocks) : c.Linear := by
  induction h with
  | genesis => exact Chain.linear_ofGenesis genesis
  | block _ _ ha ih => exact ha.linear ih

/-- The accounts of a run are those of its genesis, with the same stakes and public keys and the
same sum of all balances. -/
theorem Extends.standings_and_supply {blocks : List Block} (h : e.Extends genesis c blocks) :
    ∀ s ∈ c.snapshots, s.all.map Account.standing = genesis.all.map Account.standing ∧
      s.supply = genesis.supply := by
  induction h with
  | genesis =>
    intro s hs
    rw [List.mem_singleton.mp hs]
    exact ⟨rfl, rfl⟩
  | block h' _ ha ih =>
    intro s hs
    rcases ha.mem_iff.mp hs with rfl | hs
    · obtain ⟨hst, hsu⟩ := ih _ (h'.linear.mem_of_last? ha.last)
      exact ⟨ha.standings.trans hst, ha.supply.trans hsu⟩
    · exact ih s hs

/-- What holds of a block when it is appended, and is kept by what is appended later, holds of
every block on the way to a chain. -/
theorem Extends.forall_mem {P : Chain → Block → Prop} {blocks : List Block}
    (h : e.Extends genesis c blocks)
    (hnew : ∀ {c c' : Chain} {blocks : List Block} {b : Block} {previous next : AccountSnapshot},
      e.Extends genesis c blocks → b.admission e.hasher e.parameters c = .ok (.ok ()) →
      c.Appends e.hasher b previous next c' → P c' b)
    (hkept : ∀ {c c' : Chain} {b b' : Block} {previous next : AccountSnapshot},
      c.Appends e.hasher b previous next c' → P c b' → P c' b') :
    ∀ b ∈ blocks, P c b := by
  induction h with
  | genesis => simp
  | block h' hadm ha ih =>
    intro b hb
    rcases List.mem_append.mp hb with hb | hb
    · exact hkept ha (ih b hb)
    · rw [List.mem_singleton.mp hb]
      exact hnew h' hadm ha

theorem Extends.run {blocks : List Block} (h : e.Extends genesis c blocks)
    (inputs : List EncodedEntity) :
    e.Extends genesis (e.run c inputs) (blocks ++ e.accepted c inputs) := by
  induction inputs generalizing c blocks with
  | nil =>
    rw [run_nil, accepted_nil, List.append_nil]
    exact h
  | cons x rest ih =>
    rw [run_cons, accepted_cons]
    rcases process_cases e c x with ⟨b, next, s, ha, hb, hf, hc⟩ | ⟨ha, hc⟩
    · obtain ⟨previous, happ⟩ := appends_of_admission h.linear hb hf
      rw [ha, hc, ← List.append_assoc]
      exact ih (.block h hb happ)
    · rw [ha, hc]
      exact ih h

/-- **Every run extends its genesis by the blocks that it accepts.** -/
theorem extends_run (e : Engine) (genesis : AccountSnapshot) (inputs : List EncodedEntity) :
    e.Extends genesis (e.run (.ofGenesis genesis) inputs)
      (e.accepted (.ofGenesis genesis) inputs) :=
  Extends.genesis.run inputs

end Engine

end StakeLedger
