import Mathlib.Logic.Relation
import StakeLedger.Proofs.Growth
import StakeLedger.Proofs.Payment

/-!
# Verdicts that last

A chain grows while transactions are judged by it. What a predicate found in it is found again
later, so a predicate that holds goes on holding. A predicate that fails may come to hold only if
a snapshot was missing, which the first two predicates notice.

* `Chain.Grows` is a step by which a chain grows, a call or an entity that an engine processes.
  `Chain.Reaches` are any number of them. All that matters of them is that the snapshots stay
  (`Chain.Keeps`, `Chain.Reaches.keeps`).
* `Transaction.verdict` is the verdict from the answers of the four predicates, wherever they come
  from.
* `Transaction.admission_of_keeps`: a transaction that is correct and sound is judged for good.
  `Transaction.admission_of_known` says so of one whose snapshots are all known.
* `Transaction.admission_stable` is the main statement.
-/

namespace StakeLedger

namespace Chain

open Relation (ReflTransGen)

/-- A step by which a chain grows, if it does not fail. -/
inductive Grows : Chain → Chain → Prop
  /-- A snapshot is added, or a block is finalized. -/
  | call (c : Chain) (x : Call) : Grows c (c.after x)
  /-- An engine processes an entity. -/
  | process (c : Chain) (e : Engine) (x : EncodedEntity) : Grows c (e.process c x).1

/-- Whether a chain grows to another one in any number of steps. -/
def Reaches : Chain → Chain → Prop := ReflTransGen Grows

/-- Whether the snapshots of a chain are found in another one. -/
def Keeps (c c' : Chain) : Prop :=
  ∀ id s, c.snapshot? id = some s → c'.snapshot? id = some s

variable {c c' c'' : Chain}

theorem Keeps.trans (h : c.Keeps c') (h' : c'.Keeps c'') : c.Keeps c'' :=
  fun id s hs => h' id s (h id s hs)

theorem keeps_after (c : Chain) (x : Call) : c.Keeps (c.after x) :=
  fun _ _ => snapshot?_after x

/-- What an entity does to a chain can be done by a call. -/
theorem process_eq_self_or_after (e : Engine) (c : Chain) (x : EncodedEntity) :
    (e.process c x).1 = c ∨ ∃ b, (e.process c x).1 = c.after (.finalize e.hasher b) := by
  rcases e.process_cases c x with ⟨b, next, s, -, -, hb, hc⟩ | ⟨-, hc⟩
  · have hperform : c.perform (.finalize e.hasher b) = .ok (next, s) := hb
    exact .inr ⟨b, by rw [hc, after_of_ok hperform]⟩
  · exact .inl hc

/-- A step leaves the snapshots where they are. -/
theorem Grows.keeps (h : c.Grows c') : c.Keeps c' := by
  cases h with
  | call x => exact keeps_after c x
  | process e x =>
    rcases process_eq_self_or_after e c x with hc | ⟨b, hc⟩ <;> rw [hc]
    · exact fun _ _ hs => hs
    · exact keeps_after c _

/-- **However a chain grows, the snapshots stay where they are.** -/
theorem Reaches.keeps (h : c.Reaches c') : c.Keeps c' := by
  induction h with
  | refl => exact fun _ _ hs => hs
  | tail _ hstep ih => exact ih.trans hstep.keeps

end Chain

namespace Transaction

open Chain (Keeps)

variable {tx : Transaction} {h : Hasher} {c c' : Chain}

/-! ## Predicates that hold -/

theorem isCorrect_of_keeps (hk : c.Keeps c') (hc : tx.isCorrect c = true) :
    tx.isCorrect c' = true := by
  obtain ⟨reference, sender, receiver, hr, hparties⟩ := isCorrect_eq_true_iff.mp hc
  exact isCorrect_eq_true_iff.mpr ⟨reference, sender, receiver, hk _ _ hr, hparties⟩

theorem isSound_of_keeps (hk : c.Keeps c') (hc : tx.isSound c = true) : tx.isSound c' = true := by
  obtain ⟨reference, sender, last, hr, hs, hl, hlt⟩ := isSound_eq_true_iff.mp hc
  exact isSound_eq_true_iff.mpr ⟨reference, sender, last, hk _ _ hr, hs, hk _ _ hl, hlt⟩

theorem senderAccount?_of_keeps {sender : Account} (hk : c.Keeps c')
    (hs : tx.senderAccount? c = some sender) : tx.senderAccount? c' = some sender := by
  obtain ⟨reference, hr, hs⟩ := Option.bind_eq_some_iff.mp hs
  rw [senderAccount?_eq (hk _ _ hr), hs]

theorem isAuthenticated_of_keeps (hk : c.Keeps c') (hc : tx.isAuthenticated h c = true) :
    tx.isAuthenticated h c' = true := by
  obtain ⟨signature, sender, key, hsig, hsigner, hs, hkey⟩ := isAuthenticated_eq_true_iff.mp hc
  exact isAuthenticated_eq_true_iff.mpr
    ⟨signature, sender, key, hsig, hsigner, senderAccount?_of_keeps hk hs, hkey⟩

theorem isCovered_of_keeps (hk : c.Keeps c') (hc : tx.isCovered c = true) :
    tx.isCovered c' = true := by
  obtain ⟨sender, hs, hle⟩ := isCovered_eq_true_iff.mp hc
  exact isCovered_eq_true_iff.mpr ⟨sender, senderAccount?_of_keeps hk hs, hle⟩

/-! ## Predicates that fail -/

section Known

variable {reference : AccountSnapshot} (hk : c.Keeps c')
  (hr : c.snapshot? tx.referenceBlockId = some reference)

include hk hr

/-- The sender's account at a known reference block stays the same. -/
theorem senderAccount?_of_known : tx.senderAccount? c' = tx.senderAccount? c := by
  rw [senderAccount?_eq (hk _ _ hr), senderAccount?_eq hr]

theorem isCorrect_of_known : tx.isCorrect c' = tx.isCorrect c := by
  rw [isCorrect, isCorrect, hk _ _ hr, hr]

theorem isAuthenticated_of_known : tx.isAuthenticated h c' = tx.isAuthenticated h c := by
  rw [Bool.eq_iff_iff, isAuthenticated_eq_true_iff, isAuthenticated_eq_true_iff,
    senderAccount?_of_known hk hr]

theorem isCovered_of_known : tx.isCovered c' = tx.isCovered c := by
  rw [Bool.eq_iff_iff, isCovered_eq_true_iff, isCovered_eq_true_iff, senderAccount?_of_known hk hr]

end Known

/-- Whether a transaction is sound, if the reference block is looked up in one chain and the block
that last changed the sender's account in another one. -/
def isSoundBetween (tx : Transaction) (c c' : Chain) : Bool :=
  match c.snapshot? tx.referenceBlockId with
  | none => false
  | some reference =>
    match reference.account? tx.sender with
    | none => false
    | some sender =>
      match c'.snapshot? sender.lastBlockId with
      | none => false
      | some last => last.height < reference.height

theorem isSoundBetween_eq_true_iff :
    tx.isSoundBetween c c' = true ↔
    ∃ reference sender last, c.snapshot? tx.referenceBlockId = some reference ∧
      reference.account? tx.sender = some sender ∧ c'.snapshot? sender.lastBlockId = some last ∧
      last.height < reference.height := by
  unfold isSoundBetween
  cases c.snapshot? tx.referenceBlockId with
  | none => simp
  | some reference =>
    cases hs : reference.account? tx.sender with
    | none => simp [hs]
    | some sender => cases hl : c'.snapshot? sender.lastBlockId <;> simp [hs, hl]

/-- A chain that grows between the look-ups of a predicate does not matter. -/
theorem isSoundBetween_of_keeps (hk : c.Keeps c') :
    tx.isSoundBetween c c' = tx.isSound c ∨ tx.isSoundBetween c c' = tx.isSound c' := by
  cases hr : c.snapshot? tx.referenceBlockId with
  | none =>
    left
    rw [Bool.eq_iff_iff, isSoundBetween_eq_true_iff, isSound_eq_true_iff, hr]
    simp
  | some reference =>
    right
    rw [Bool.eq_iff_iff, isSoundBetween_eq_true_iff, isSound_eq_true_iff, hk _ _ hr, hr]

/-! ## Verdicts -/

/-- The verdict from what the four predicates say. -/
def verdict (correct sound authenticated covered : Bool) : Except TransactionRejection Unit :=
  if !correct then .error .incorrect
  else if !sound then .error .unsound
  else if !authenticated then .error .unauthenticated
  else if !covered then .error .insufficientBalance
  else .ok ()

theorem admission_eq_verdict (tx : Transaction) (h : Hasher) (c : Chain) :
    tx.admission h c =
      verdict (tx.isCorrect c) (tx.isSound c) (tx.isAuthenticated h c) (tx.isCovered c) := rfl

/-- **A transaction that is correct and sound is judged for good.** -/
theorem admission_of_keeps (hk : c.Keeps c') (hcorrect : tx.isCorrect c = true)
    (hsound : tx.isSound c = true) : tx.admission h c' = tx.admission h c := by
  obtain ⟨reference, -, -, hr, -⟩ := isCorrect_eq_true_iff.mp hcorrect
  rw [admission_eq_verdict, admission_eq_verdict, hcorrect, hsound, isCorrect_of_keeps hk hcorrect,
    isSound_of_keeps hk hsound, isAuthenticated_of_known hk hr, isCovered_of_known hk hr]

/-- **So is one whose snapshots are known:** that of its reference block, and that of the block
which last changed the sender's account. -/
theorem admission_of_known {reference : AccountSnapshot} (hk : c.Keeps c')
    (hr : c.snapshot? tx.referenceBlockId = some reference)
    (hl : ∀ sender, reference.account? tx.sender = some sender →
      c.contains sender.lastBlockId = true) : tx.admission h c' = tx.admission h c := by
  have hsound : tx.isSound c' = tx.isSound c := by
    cases hs : reference.account? tx.sender with
    | none => simp only [isSound, hk _ _ hr, hr, hs]
    | some sender =>
      obtain ⟨last, hlast⟩ := Option.isSome_iff_exists.mp (hl sender hs)
      simp only [isSound, hk _ _ hr, hr, hs, hk _ _ hlast, hlast]
  rw [admission_eq_verdict, admission_eq_verdict, hsound, isCorrect_of_known hk hr,
    isAuthenticated_of_known hk hr, isCovered_of_known hk hr]

/-- The verdicts after which no snapshot is missing. -/
def lasting : List (Except TransactionRejection Unit) :=
  [.ok (), .error .unauthenticated, .error .insufficientBalance]

theorem correct_and_sound_of_lasting {correct sound authenticated covered : Bool}
    (hv : verdict correct sound authenticated covered ∈ lasting) :
    correct = true ∧ sound = true := by
  cases correct with
  | false => simp [verdict, lasting] at hv
  | true =>
    cases sound with
    | false => simp [verdict, lasting] at hv
    | true => exact ⟨rfl, rfl⟩

/-- **What is evaluated while the chain grows is the verdict at some time.** The first predicate
that fails is the first one to fail in the chain that it is evaluated in, as those before it go on
holding. -/
theorem exists_verdict_eq_admission {c₁ c₂ c₃ c₄ : Chain} (h₂ : c₁.Keeps c₂) (h₃ : c₂.Keeps c₃)
    (h₄ : c₃.Keeps c₄) :
    ∃ c ∈ [c₁, c₂, c₃, c₄],
      verdict (tx.isCorrect c₁) (tx.isSound c₂) (tx.isAuthenticated h c₃) (tx.isCovered c₄) =
        tx.admission h c := by
  cases hcorrect : tx.isCorrect c₁ with
  | false => exact ⟨c₁, by simp, by rw [admission_eq_verdict, hcorrect]; rfl⟩
  | true =>
    have hcorrect₂ := isCorrect_of_keeps h₂ hcorrect
    cases hsound : tx.isSound c₂ with
    | false => exact ⟨c₂, by simp, by rw [admission_eq_verdict, hcorrect₂, hsound]; rfl⟩
    | true =>
      have hcorrect₃ := isCorrect_of_keeps h₃ hcorrect₂
      have hsound₃ := isSound_of_keeps h₃ hsound
      cases hauth : tx.isAuthenticated h c₃ with
      | false =>
        exact ⟨c₃, by simp, by rw [admission_eq_verdict, hcorrect₃, hsound₃, hauth]; rfl⟩
      | true =>
        refine ⟨c₄, by simp, ?_⟩
        rw [admission_eq_verdict, isCorrect_of_keeps h₄ hcorrect₃, isSound_of_keeps h₄ hsound₃,
          isAuthenticated_of_keeps h₄ hauth]

/-- **Verdicts last while the chain grows.**

* A predicate that holds goes on holding.
* The transaction stays admitted, or unauthenticated, or without the balance for it.
* If the chain grows between the look-ups of a predicate, the predicate says what it says before
  or after.
* If the chain grows between the predicates, the verdict is the one in a chain that one of them is
  evaluated in. -/
theorem admission_stable (tx : Transaction) (h : Hasher) :
    (∀ c c' : Chain, c.Reaches c' →
      (tx.isCorrect c = true → tx.isCorrect c' = true) ∧
      (tx.isSound c = true → tx.isSound c' = true) ∧
      (tx.isAuthenticated h c = true → tx.isAuthenticated h c' = true) ∧
      (tx.isCovered c = true → tx.isCovered c' = true) ∧
      (∀ v ∈ lasting, tx.admission h c = v → tx.admission h c' = v) ∧
      (tx.isSoundBetween c c' = tx.isSound c ∨ tx.isSoundBetween c c' = tx.isSound c')) ∧
    ∀ c₁ c₂ c₃ c₄ : Chain, c₁.Reaches c₂ → c₂.Reaches c₃ → c₃.Reaches c₄ →
      ∃ c ∈ [c₁, c₂, c₃, c₄],
        verdict (tx.isCorrect c₁) (tx.isSound c₂) (tx.isAuthenticated h c₃) (tx.isCovered c₄) =
          tx.admission h c := by
  refine ⟨fun c c' hc => ?_, fun c₁ c₂ c₃ c₄ h₂ h₃ h₄ => ?_⟩
  · have hk := hc.keeps
    refine ⟨isCorrect_of_keeps hk, isSound_of_keeps hk, isAuthenticated_of_keeps hk,
      isCovered_of_keeps hk, ?_, isSoundBetween_of_keeps hk⟩
    rintro v hv rfl
    obtain ⟨hcorrect, hsound⟩ := correct_and_sound_of_lasting hv
    exact admission_of_keeps hk hcorrect hsound
  · exact exists_verdict_eq_admission h₂.keeps h₃.keeps h₄.keeps

/-- After a run, a transfer is admitted, and stays so when its own block and then a snapshot are
added. -/
theorem admission_stable_sample :
    let m := Payment.series
    let tx := m.again
    let h := m.hasher
    let c := m.engine.run (.ofGenesis m.genesis) (m.history.map .ofEntity)
    let c' := (m.engine.process c (.ofEntity m.settled)).1
    let c'' := c'.after (.add (Chain.blank 9 9))
    m.engine.accepts? c (.ofEntity m.settled) = some m.settled ∧
      c.Reaches c' ∧ c'.Reaches c'' ∧ tx.admission h c = .ok () ∧ tx.admission h c' = .ok () ∧
      tx.isCovered c'' = true ∧
      ∃ d ∈ [c, c', c', c''],
        verdict (tx.isCorrect c) (tx.isSound c') (tx.isAuthenticated h c') (tx.isCovered c'') =
          tx.admission h d := by
  intro m tx h c c' c''
  have hreach : c.Reaches c' := .single (.process c _ _)
  have hreach' : c'.Reaches c'' := .single (.call c' _)
  have hsettled := Payment.accepts?_settled
  obtain ⟨-, -, -, -, hall, -⟩ :=
    Block.admission_eq_ok_iff.mp (Engine.accepts?_eq_some_iff.mp hsettled).2.1
  have hadmitted : tx.admission h c = .ok () :=
    Block.admissionOfAll_eq_ok_iff.mp hall ⟨tx, [.neutral Payment.payee]⟩ List.mem_cons_self
  have hcovered : tx.isCovered c = true := (admission_eq_ok_iff.mp hadmitted).2.2.2
  obtain ⟨-, -, -, -, hlasting, -⟩ := (admission_stable tx h).1 c c' hreach
  obtain ⟨-, -, -, hcovered', -⟩ := (admission_stable tx h).1 c c'' (hreach.trans hreach')
  exact ⟨hsettled, hreach, hreach', hadmitted, hlasting _ (by simp [lasting]) hadmitted,
    hcovered' hcovered, (admission_stable tx h).2 c c' c' c'' hreach .refl hreach'⟩

end Transaction

end StakeLedger
