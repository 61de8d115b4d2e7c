import StakeLedger.Proofs.Kinds
import StakeLedger.Proofs.NeutralKey
import StakeLedger.Proofs.Run

/-!
# Payments

Runs that move money between two accounts, with as little as it takes. Only the payee has the stake
to validate and propose, so no assignment depends on a digest, and the key of both is the neutral
one, under which everything can be signed. Hence what a run comes to can be evaluated.

* `Payment` is a genesis snapshot with two accounts of any balances, and an amount.
* `Payment.Endorsed` are the blocks with all the signatures and certificates that they need.
  `Hosts.admission_eq_ok_iff` says what is left of their admission, and `play_eq` that a run of such
  blocks can be evaluated without a signature.
* `first` is a block without transfers, and `second` one with a transfer that refers to it. The
  second one is admitted whenever the payer covers the amount (`admission_second`). If the payee has
  room for the amount, it is accepted (`accepts?_second`). If not, it cannot be finalized
  (`finalizeBlock_second_of_full`).
* `history` and `settled` are a longer run. The payer spends twice, once with a reference that is
  older than the previous block, and an attempt to spend one transfer again is refused
  (`accepted_history`, `accepts?_settled`).
-/

namespace StakeLedger

open Codec (Fits)

/-! ## Assignments out of one candidate -/

theorem Assigner.assign_of_single {a : Assigner} {accounts : List Account} {candidate : Identifier}
    (h : a.candidates accounts = .ofList [candidate]) (id : Identifier) (tag : String) :
    a.assign id tag accounts 1 = .ok ⟨[candidate]⟩ := by
  have hpick : ∀ target, pick? target (.ofList [candidate]) = some candidate := fun target => by
    have hitems : (SortedBy.ofList [candidate] : IdentifierSet).items = [candidate] := rfl
    rw [pick?, hitems]
    cases hle : candidate.le target <;> simp [hle]
  have hsize : ¬ (SortedBy.ofList [candidate] : IdentifierSet).size < 1 := by
    have hs : (SortedBy.ofList [candidate] : IdentifierSet).size = 1 := rfl
    omega
  simp only [assign, h, if_neg one_ne_zero, if_neg hsize, select, hpick]
  rfl

/-- Who is a candidate does not depend on balances and stamps. -/
theorem Assigner.candidates_eq_of_standings {a : Assigner} {accounts accounts' : List Account}
    (h : accounts.map Account.standing = accounts'.map Account.standing) :
    a.candidates accounts = a.candidates accounts' := by
  have hstandings (l : List Account) :
      (l.filter (·.isStakeEligible a.minStake)).map Account.identifier =
        ((l.map Account.standing).filter fun p => a.minStake ≤ p.2.1).map Prod.fst := by
    rw [List.filter_map, List.map_map]
    rfl
  rw [candidates, candidates, hstandings, hstandings, h]

/-- A hash function that reads the bytes as a numeral to the base 257, for examples. -/
def Hasher.numeral : Hasher :=
  ⟨"numeral", fun bytes =>
    ⟨Bytes.bigEndian 32 (bytes.foldl (fun n b => 257 * n + b.toNat + 1) 0),
      Bytes.length_bigEndian 32 _⟩⟩

/-- A payment between two accounts. -/
structure Payment where
  hasher : Hasher
  /-- What the payer has. -/
  payerBalance : UInt64
  /-- What the payee has. -/
  payeeBalance : UInt64
  amount : UInt64

namespace Payment

/-- The payer's account. -/
def payer : Identifier := ⟨Bytes.bigEndian 32 1, Bytes.length_bigEndian 32 1⟩

/-- The payee's account. -/
def payee : Identifier := ⟨Bytes.bigEndian 32 2, Bytes.length_bigEndian 32 2⟩

/-- The block of the genesis snapshot. -/
def origin : Identifier := ⟨Bytes.bigEndian 32 7, Bytes.length_bigEndian 32 7⟩

/-- One validator suffices. -/
def parameters : Parameters := { validatorsPerEntity := 1, signatureThreshold := 1 }

/-- A transfer, signed by its sender. -/
def transfer (reference sender receiver : Identifier) (amount : UInt64) : Transaction :=
  ⟨reference, sender, receiver, amount, some (.neutral sender)⟩

/-- A block of transfers, certified, proposed and signed by the payee. -/
def block (previous : Identifier) (height : UInt64) (transfers : List Transaction) : Block where
  previousBlockId := previous
  proposer := payee
  height := height
  transactions := transfers.map fun tx => ⟨tx, [.neutral payee]⟩
  signature := some (.neutral payee)

variable (m : Payment)

/-- The payer's account at the genesis. It may not validate or propose. -/
def payerAccount : Account := ⟨payer, 0, .neutral, origin, m.payerBalance⟩

/-- The payee's account at the genesis. -/
def payeeAccount : Account := ⟨payee, 10, .neutral, origin, m.payeeBalance⟩

/-- The genesis snapshot. -/
def genesis : AccountSnapshot :=
  SnapshotBuilder.sealed ⟨origin, 0, .ofList [m.payerAccount, m.payeeAccount]⟩ m.hasher

/-- The engine that processes the blocks. -/
def engine : Engine := ⟨m.hasher, parameters⟩

theorem account?_payer : m.genesis.account? payer = some m.payerAccount := rfl

theorem account?_payee : m.genesis.account? payee = some m.payeeAccount := rfl

theorem snapshot?_ofGenesis : (Chain.ofGenesis m.genesis).snapshot? origin = some m.genesis :=
  Chain.snapshot?_ofGenesis m.genesis

/-! ## Blocks with all their signatures -/

/-- Whether a block has all the signatures and certificates that it needs, and not so many
transactions that it would not be read back. -/
structure Endorsed (b : Block) : Prop where
  proposer : b.proposer = payee
  signature : b.signature = some (.neutral payee)
  certificates : ∀ v ∈ b.transactions, v.certificates = [.neutral payee]
  transfers : ∀ v ∈ b.transactions, v.transaction.signature = some (.neutral v.transaction.sender)
  length_lt : b.transactions.length < 2 ^ 64

theorem endorsed_block {previous : Identifier} {height : UInt64} {transfers : List Transaction}
    (hsigned : ∀ tx ∈ transfers, tx.signature = some (.neutral tx.sender))
    (hlt : transfers.length < 2 ^ 64) : Endorsed (block previous height transfers) where
  proposer := rfl
  signature := rfl
  certificates := by simp [block]
  transfers := by simpa [block] using hsigned
  length_lt := by simpa [block] using hlt

theorem Endorsed.decode_ofEntity {b : Block} (hb : Endorsed b) :
    ((EncodedEntity.ofEntity b).decode (Entity.typeTag Block) : Except LedgerError Block) =
      .ok b := by
  have hlength : (Bytes.littleEndian 64 1).length < 2 ^ 64 := by decide
  have hneutral : ∀ signer, Fits (Signature.neutral signer) := fun _ =>
    ⟨trivial, trivial, hlength, fun _ _ => trivial⟩
  have hsome : ∀ signer, Fits (some (Signature.neutral signer)) := fun signer _ hs =>
    Option.some.inj hs ▸ hneutral signer
  have hcertificates : Fits [Signature.neutral payee] := ⟨by decide, by simpa using hneutral payee⟩
  have htransactions : ∀ v ∈ b.transactions, Fits v := fun v hv => by
    refine ⟨⟨trivial, trivial, trivial, trivial, ?signature⟩, ?certificates⟩
    case signature =>
      show Fits v.transaction.signature
      rw [hb.transfers v hv]
      exact hsome v.transaction.sender
    case certificates =>
      show Fits v.certificates
      rw [hb.certificates v hv]
      exact hcertificates
  have hfits : Fits b := by
    refine ⟨trivial, trivial, trivial, ⟨hb.length_lt, htransactions⟩, ?_⟩
    show Fits b.signature
    rw [hb.signature]
    exact hsome payee
  exact Codec.decode_ofEntity hfits

/-! ## Chains of the two accounts -/

/-- Whether all the snapshots of a chain have the two accounts, with any balances and stamps. -/
def Hosts (c : Chain) : Prop :=
  ∀ s ∈ c.snapshots, s.all.map Account.standing = m.genesis.all.map Account.standing

variable {m}

theorem hosts_of_extends {c : Chain} {blocks : List Block}
    (h : m.engine.Extends m.genesis c blocks) : m.Hosts c :=
  fun s hs => (h.standings_and_supply s hs).1

theorem hosts_ofGenesis : m.Hosts (.ofGenesis m.genesis) :=
  hosts_of_extends .genesis

namespace Hosts

variable {c : Chain} {s : AccountSnapshot} {id : Identifier} {b : Block}

theorem standings (hc : m.Hosts c) (hs : c.snapshot? id = some s) :
    s.all.map Account.standing = [(payer, 0, .neutral), (payee, 10, .neutral)] :=
  hc s (Chain.mem_of_snapshot? hs)

/-- The key of every account is the neutral element. -/
theorem decode_publicKey (hc : m.Hosts c) (hs : c.snapshot? id = some s) {x : Identifier}
    {a : Account} (ha : s.account? x = some a) :
    a.publicKey.decode = .ok (.ed25519 .neutral) := by
  have hmem : a.standing ∈ s.all.map Account.standing :=
    List.mem_map_of_mem (SortedBy.mem_of_find? ha)
  rw [hc.standings hs, List.mem_cons, List.mem_singleton] at hmem
  have hneutral : a.publicKey = .neutral := by
    rcases hmem with h | h <;> exact congrArg (·.2.2) h
  rw [hneutral, EncodedPublicKey.decode_neutral]

theorem exists_payee (hc : m.Hosts c) (hs : c.snapshot? id = some s) :
    ∃ a, s.account? payee = some a := by
  have hmem : (payee, 10, EncodedPublicKey.neutral) ∈ s.all.map Account.standing := by
    rw [hc.standings hs]
    exact List.mem_cons_of_mem _ (List.mem_singleton_self _)
  obtain ⟨a, ha, heq⟩ := List.mem_map.mp hmem
  have hid : a.identifier = payee := congrArg Prod.fst heq
  exact ⟨a, hid ▸ SortedBy.find?_of_mem ha⟩

theorem assign_eq (hc : m.Hosts c) (hs : c.snapshot? id = some s) (x : Identifier) (tag : String) :
    (Assigner.mk m.hasher parameters.minStake).assign x tag s.all 1 = .ok ⟨[payee]⟩ := by
  have hcandidates := Assigner.candidates_eq_of_standings
    (a := ⟨m.hasher, parameters.minStake⟩) (hc s (Chain.mem_of_snapshot? hs))
  exact Assigner.assign_of_single (hcandidates.trans rfl) x tag

/-- The payee proposes the next block. -/
theorem isAuthenticated_block (hc : m.Hosts c) (hb : Endorsed b)
    (hs : c.snapshot? b.previousBlockId = some s) :
    b.isAuthenticated m.hasher parameters c = true := by
  obtain ⟨a, ha⟩ := hc.exists_payee hs
  have hproposer : (Assigner.mk m.hasher parameters.minStake).assignProposer b.previousBlockId
      s.all = .ok b.proposer := by
    rw [Assigner.assignProposer, hc.assign_eq hs, hb.proposer]
  exact Block.isAuthenticated_eq_true_iff.mpr ⟨.neutral payee, s, a, _, hb.signature, hs,
    hb.proposer.symm, hproposer, hb.proposer ▸ ha, hc.decode_publicKey hs ha,
    PublicKey.verifyEntity_neutral (m.hasher.entityId_block b) payee⟩

/-- The payee is the one validator of a transaction. -/
theorem isCertified (hc : m.Hosts c) {v : ValidatedTransaction}
    (hv : v.certificates = [.neutral payee])
    (hs : c.snapshot? v.transaction.referenceBlockId = some s) :
    v.isCertified m.hasher parameters c = true := by
  obtain ⟨a, ha⟩ := hc.exists_payee hs
  refine ValidatedTransaction.isCertified_eq_true_iff.mpr
    ⟨s, ⟨[payee]⟩, hs, hc.assign_eq hs _ _, ?_⟩
  have hcertifies :
      ValidatedTransaction.certifies m.hasher s v.transaction (.neutral payee) = true :=
    ValidatedTransaction.certifies_eq_true_iff.mpr ⟨a, _, ha, hc.decode_publicKey hs ha,
      PublicKey.verifyEntity_neutral (m.hasher.entityId_transaction v.transaction) payee⟩
  have hassigned : Assignment.has ⟨[payee]⟩ (Signature.neutral payee).signer = true := by decide
  simp only [hv, ValidatedTransaction.signers, hassigned, hcertifies]
  decide

theorem isAuthenticated (hc : m.Hosts c) {tx : Transaction}
    (hsigned : tx.signature = some (.neutral tx.sender)) (hcorrect : tx.isCorrect c = true) :
    tx.isAuthenticated m.hasher c = true := by
  obtain ⟨s, a, -, hs, ha, -, -⟩ := Transaction.isCorrect_eq_true_iff.mp hcorrect
  exact Transaction.isAuthenticated_eq_true_iff.mpr ⟨_, a, _, hsigned, rfl,
    (Transaction.senderAccount?_eq hs).trans ha, hc.decode_publicKey hs ha,
    PublicKey.verifyEntity_neutral (m.hasher.entityId_transaction tx) tx.sender⟩

/-- **What is left of admission** where all the signatures and certificates are there. -/
theorem admission_eq_ok_iff (hc : m.Hosts c) (hb : Endorsed b) :
    b.admission m.hasher parameters c = .ok (.ok ()) ↔
      b.isCorrect m.hasher parameters c = .ok true ∧ b.isConsistent c = true ∧
        (∀ tx ∈ b.transfers, tx.isCorrect c = true ∧ tx.isSound c = true ∧ tx.isCovered c = true) ∧
        b.isSpendable c = true := by
  rw [Block.admission_eq_ok_iff, Block.admissionOfAll_eq_ok_iff]
  simp only [Transaction.admission_eq_ok_iff, Block.transfers, List.forall_mem_map]
  constructor
  · rintro ⟨hcorrect, hconsistent, -, -, hall, hspendable⟩
    exact ⟨hcorrect, hconsistent,
      fun v hv => ⟨(hall v hv).1, (hall v hv).2.1, (hall v hv).2.2.2⟩, hspendable⟩
  · rintro ⟨hcorrect, hconsistent, hall, hspendable⟩
    obtain ⟨s, hs, -⟩ := Block.isCorrect_eq_ok_true_iff.mp hcorrect
    refine ⟨hcorrect, hconsistent, hc.isAuthenticated_block hb hs, ?_, fun v hv => ?_, hspendable⟩
    · refine List.all_eq_true.mpr fun v hv => ?_
      obtain ⟨r, _, _, hr, -⟩ := Transaction.isCorrect_eq_true_iff.mp (hall v hv).1
      exact hc.isCertified (hb.certificates v hv) hr
    · obtain ⟨hcorrect, hsound, hcovered⟩ := hall v hv
      exact ⟨hcorrect, hsound, hc.isAuthenticated (hb.transfers v hv) hcorrect, hcovered⟩

end Hosts

/-! ## Runs without signatures -/

/-- Whether a block passes what is left of admission. -/
def passes (m : Payment) (c : Chain) (b : Block) : Bool :=
  match b.isCorrect m.hasher parameters c with
  | .ok true =>
    b.isConsistent c &&
      (b.transfers.all fun tx => tx.isCorrect c && tx.isSound c && tx.isCovered c) &&
      b.isSpendable c
  | _ => false

/-- The chain with a block, if it passes and is finalized. -/
def extend? (m : Payment) (c : Chain) (b : Block) : Option Chain :=
  if m.passes c b then (c.finalizeBlock m.hasher b).toOption.map Prod.fst else none

/-- The chain after blocks, and those among them by which it was extended. -/
def play (m : Payment) (c : Chain) : List Block → Chain × List Block
  | [] => (c, [])
  | b :: rest =>
    match m.extend? c b with
    | none => m.play c rest
    | some next => (m.play next rest).map id (b :: ·)

section Play

variable {c next : Chain} {b : Block}

theorem Hosts.passes_iff (hc : m.Hosts c) (hb : Endorsed b) :
    m.passes c b = true ↔ b.admission m.hasher parameters c = .ok (.ok ()) := by
  rw [hc.admission_eq_ok_iff hb, passes]
  rcases b.isCorrect m.hasher parameters c with e | _ | _
  · simp
  · simp
  · simp only [Bool.and_eq_true, List.all_eq_true, and_assoc, true_and]

theorem extend?_eq_some_iff : m.extend? c b = some next ↔
    m.passes c b = true ∧ ∃ s, c.finalizeBlock m.hasher b = .ok (next, s) := by
  unfold extend?
  split
  · next hpasses =>
    rcases c.finalizeBlock m.hasher b with e | ⟨c', s⟩ <;> simp [Except.toOption, hpasses]
  · next hpasses => simp [hpasses]

/-- **One block.** An engine extends the chain as is evaluated, and accepts no other block. -/
theorem Hosts.process_eq (hc : m.Hosts c) (hb : Endorsed b) :
    (m.engine.process c (.ofEntity b)).1 = (m.extend? c b).getD c ∧
      m.engine.accepts? c (.ofEntity b) = (m.extend? c b).map fun _ => b := by
  rcases m.engine.process_cases c (.ofEntity b) with
    ⟨b', next, s, haccepts, hadmission, hfinalized, hprocess⟩ | ⟨haccepts, hprocess⟩
  · have hdecode := (Engine.accepts?_eq_some_iff.mp haccepts).1
    obtain rfl : b = b' := Except.ok.inj (hb.decode_ofEntity.symm.trans hdecode)
    have hextend : m.extend? c b = some next :=
      extend?_eq_some_iff.mpr ⟨(hc.passes_iff hb).mpr hadmission, s, hfinalized⟩
    rw [hextend]
    exact ⟨hprocess, haccepts⟩
  · have hextend : m.extend? c b = none := by
      rw [Option.eq_none_iff_forall_ne_some]
      intro next hnext
      obtain ⟨hpasses, s, hfinalized⟩ := extend?_eq_some_iff.mp hnext
      have hsome : m.engine.accepts? c (.ofEntity b) = some b := Engine.accepts?_eq_some_iff.mpr
        ⟨hb.decode_ofEntity, (hc.passes_iff hb).mp hpasses, next, s, hfinalized⟩
      rw [haccepts] at hsome
      cases hsome
    rw [hextend]
    exact ⟨hprocess, haccepts⟩

/-- **Any run.** What blocks with all their signatures come to can be evaluated without them. -/
theorem play_eq {blocks : List Block} (h : m.engine.Extends m.genesis c blocks) {bs : List Block}
    (hbs : ∀ b ∈ bs, Endorsed b) :
    m.engine.run c (bs.map .ofEntity) = (m.play c bs).1 ∧
      m.engine.accepted c (bs.map .ofEntity) = (m.play c bs).2 := by
  induction bs generalizing c blocks with
  | nil => exact ⟨rfl, rfl⟩
  | cons b rest ih =>
    have hextends := h.run [.ofEntity b]
    rw [Engine.run_cons, Engine.run_nil] at hextends
    obtain ⟨hrun, haccepted⟩ := ih hextends fun b' hb' => hbs b' (List.mem_cons_of_mem b hb')
    obtain ⟨hprocess, haccepts⟩ :=
      (hosts_of_extends h).process_eq (hbs b List.mem_cons_self)
    rw [List.map_cons, Engine.run_cons, Engine.accepted_cons, hrun, haccepted, hprocess, haccepts,
      play]
    cases m.extend? c b with
    | none => exact ⟨rfl, rfl⟩
    | some next => exact ⟨rfl, rfl⟩

/-- A block is accepted after others if it extends the chain that they come to. -/
theorem accepts?_of_play {bs : List Block} (hbs : ∀ b ∈ bs, Endorsed b) (hb : Endorsed b)
    (hextend : (m.extend? (m.play (.ofGenesis m.genesis) bs).1 b).isSome = true) :
    m.engine.accepts? (m.engine.run (.ofGenesis m.genesis) (bs.map .ofEntity)) (.ofEntity b) =
      some b := by
  have hrun := m.engine.extends_run m.genesis (bs.map .ofEntity)
  rw [((hosts_of_extends hrun).process_eq hb).2, (play_eq .genesis hbs).1]
  obtain ⟨next, hnext⟩ := Option.isSome_iff_exists.mp hextend
  rw [hnext, Option.map_some]

end Play

/-! ## The first block -/

variable (m)

/-- The first block, which has no transactions. -/
def first : Block := block origin 1 []

/-- The identifier of the first block. -/
def firstId : Identifier := m.hasher.blockId first

/-- The snapshot of the first block. -/
def afterFirst : AccountSnapshot := (m.genesis.successor m.firstId 1).sealed m.hasher

/-- The chain after the first block. -/
def chain : Chain := ⟨[m.afterFirst, m.genesis], some m.firstId⟩

/-- The transfer. -/
def transaction : Transaction := transfer m.firstId payer payee m.amount

/-- The second block, which has the transfer. -/
def second : Block := block m.firstId 2 [m.transaction]

theorem endorsed_first : Endorsed first :=
  endorsed_block (by simp) (by simp)

theorem endorsed_second : Endorsed m.second :=
  endorsed_block (by simp [transaction, transfer]) (by simp)

/-- **The first block is admitted.** -/
theorem admission_first :
    first.admission m.hasher parameters (.ofGenesis m.genesis) = .ok (.ok ()) := by
  have hsnapshot := m.snapshot?_ofGenesis
  refine (hosts_ofGenesis.admission_eq_ok_iff endorsed_first).mpr
    ⟨?correct, ?consistent, by simp [first, block, Block.transfers], ?spendable⟩
  case correct =>
    exact Block.isCorrect_eq_ok_true_iff.mpr
      ⟨m.genesis, hsnapshot, rfl, Nat.zero_le _, Nat.zero_le _, List.nodup_nil⟩
  case consistent => exact Block.isConsistent_eq_true_iff.mpr ⟨m.genesis, hsnapshot, rfl⟩
  case spendable =>
    exact Block.isSpendable_eq_true_iff.mpr
      ⟨m.genesis, hsnapshot, List.nodup_nil, by simp [first, block]⟩

variable {m}

theorem finalizeBlock_first (h : m.firstId ≠ origin) :
    (Chain.ofGenesis m.genesis).finalizeBlock m.hasher first = .ok (m.chain, m.afterFirst) := by
  have hlinear := Chain.linear_ofGenesis m.genesis
  have hfresh : (Chain.ofGenesis m.genesis).snapshot? m.firstId = none := by
    have hne : m.genesis.blockId ≠ m.firstId := h.symm
    rw [Chain.ofGenesis, Chain.snapshot?_cons _ _ _ none, if_neg hne]
    rfl
  refine Chain.finalizeBlock_eq_ok_iff.mpr
    ⟨m.genesis, m.genesis.successor m.firstId 1, m.snapshot?_ofGenesis, rfl, rfl, ?_⟩
  have hheight : m.genesis.height.toNat < m.afterFirst.height.toNat := Nat.zero_lt_one
  exact (hlinear.addSnapshot_eq_ok_iff m.snapshot?_ofGenesis hheight).mpr ⟨hfresh, rfl⟩

/-- **The engine accepts the first block.** -/
theorem run_first (h : m.firstId ≠ origin) :
    m.engine.run (.ofGenesis m.genesis) [.ofEntity first] = m.chain := by
  rw [Engine.run_cons, Engine.run_nil, Engine.process_of_decode endorsed_first.decode_ofEntity,
    Engine.processBlock_of_finalizeBlock m.admission_first (finalizeBlock_first h)]

/-! ## The second block -/

theorem hosts_chain : m.Hosts m.chain := by
  intro s hs
  rcases List.mem_cons.mp hs with rfl | hs
  · rfl
  · rw [List.mem_singleton.mp hs]

theorem snapshot?_firstId : m.chain.snapshot? m.firstId = some m.afterFirst := by
  rw [chain, Chain.snapshot?_cons _ _ _ none]
  exact if_pos rfl

theorem genesis_height_lt : m.genesis.height < m.afterFirst.height := by
  have hlt : (0 : UInt64) < 1 := by decide
  exact hlt

theorem snapshot?_origin (h : m.firstId ≠ origin) : m.chain.snapshot? origin = some m.genesis := by
  have hne : m.afterFirst.blockId ≠ origin := h
  rw [chain, Chain.snapshot?_cons _ _ _ (some origin), if_neg hne]
  exact m.snapshot?_ofGenesis

theorem transaction_admissibleAt (h : m.firstId ≠ origin) (hpos : 0 < m.amount)
    (hle : m.amount ≤ m.payerBalance) :
    m.transaction.AdmissibleAt m.hasher m.chain m.afterFirst where
  amount_pos := hpos
  receiver := ⟨m.payeeAccount, m.account?_payee⟩
  sender :=
    ⟨m.payerAccount, m.genesis, .neutral payer, _, m.account?_payer, hle, snapshot?_origin h,
      genesis_height_lt, rfl, rfl, EncodedPublicKey.decode_neutral,
      PublicKey.verifyEntity_neutral (m.hasher.entityId_transaction m.transaction) payer⟩

theorem isCertified_second : m.second.isCertified m.hasher parameters m.chain = true := by
  refine List.all_eq_true.mpr fun v hv => ?_
  rw [List.mem_singleton.mp hv]
  exact hosts_chain.isCertified rfl m.snapshot?_firstId

/-- **The second block is admitted,** whatever the payee has. -/
theorem admission_second (h : m.firstId ≠ origin) (hpos : 0 < m.amount)
    (hle : m.amount ≤ m.payerBalance) :
    m.second.admission m.hasher parameters m.chain = .ok (.ok ()) := by
  have hsnapshot := snapshot?_firstId (m := m)
  refine (hosts_chain.admission_eq_ok_iff m.endorsed_second).mpr
    ⟨?correct, ?consistent, ?admitted, ?spendable⟩
  case correct =>
    exact Block.isCorrect_eq_ok_true_iff.mpr ⟨m.afterFirst, hsnapshot, rfl, Nat.zero_le _,
      Nat.le_of_ble_eq_true rfl, by simp [second, block]⟩
  case consistent => exact Block.isConsistent_eq_true_iff.mpr ⟨m.afterFirst, hsnapshot, rfl⟩
  case admitted =>
    intro tx htx
    obtain rfl : tx = m.transaction := List.mem_singleton.mp htx
    have hadmission := Transaction.admission_eq_ok_iff_admissibleAt.mpr
      ⟨m.afterFirst, hsnapshot, transaction_admissibleAt h hpos hle⟩
    obtain ⟨hcorrect, hsound, -, hcovered⟩ := Transaction.admission_eq_ok_iff.mp hadmission
    exact ⟨hcorrect, hsound, hcovered⟩
  case spendable =>
    refine Block.isSpendable_eq_true_iff.mpr
      ⟨m.afterFirst, hsnapshot, by simp [second, block], fun v hv => ?_⟩
    rw [List.mem_singleton.mp hv]
    exact Block.isSpendableAt_eq_true_iff.mpr
      ⟨m.payeeAccount, m.payerAccount, m.genesis, m.afterFirst, m.account?_payee,
        m.account?_payer, snapshot?_origin h, hsnapshot, genesis_height_lt, hle⟩

/-! ## Finalizing the second block -/

/-- The builder from which the second block starts. -/
def start (m : Payment) : SnapshotBuilder := m.afterFirst.successor (m.hasher.blockId m.second) 2

/-- The builder after the withdrawal. -/
def between (m : Payment) : SnapshotBuilder :=
  m.start.replace (m.payerAccount.debited (m.hasher.blockId m.second) m.amount)

theorem debit_eq (hle : m.amount ≤ m.payerBalance) :
    m.start.debit (m.hasher.blockId m.second) payer m.amount = .ok m.between :=
  SnapshotBuilder.debit_eq_ok_iff.mpr ⟨m.payerAccount, m.account?_payer, hle, rfl⟩

theorem account?_payee_between : m.between.account? payee = some m.payeeAccount := by
  have hne : payer ≠ payee := by decide
  rw [between, SnapshotBuilder.account?_replace, Account.identifier_debited]
  exact (if_neg hne).trans m.account?_payee

theorem exists_transferAll_second (hle : m.amount ≤ m.payerBalance)
    (hroom : m.payeeBalance.toNat + m.amount.toNat < UInt64.size) :
    ∃ builder,
      m.start.transferAll (m.hasher.blockId m.second) m.second.transfers = .ok builder := by
  obtain ⟨after, hcredit⟩ :
      ∃ after, m.between.credit (m.hasher.blockId m.second) payee m.amount = .ok after :=
    ⟨_, SnapshotBuilder.credit_eq_ok_iff.mpr ⟨m.payeeAccount, m.account?_payee_between, hroom, rfl⟩⟩
  have htransfer : m.start.transfer (m.hasher.blockId m.second) m.transaction = .ok after :=
    SnapshotBuilder.transfer_eq_ok_iff.mpr ⟨m.between, debit_eq hle, hcredit⟩
  exact ⟨after, SnapshotBuilder.transferAll_singleton.trans htransfer⟩

theorem transferAll_second_of_full (hle : m.amount ≤ m.payerBalance)
    (hfull : UInt64.size ≤ m.payeeBalance.toNat + m.amount.toNat) :
    m.start.transferAll (m.hasher.blockId m.second) m.second.transfers =
      .error (.invalidArgument (.balanceOverflow payee)) := by
  have hdebit : m.start.debit (m.hasher.blockId m.second) m.transaction.sender
      m.transaction.amount = .ok m.between := debit_eq hle
  have hpayee : m.between.account? m.transaction.receiver = some m.payeeAccount :=
    m.account?_payee_between
  show m.start.transferAll _ [m.transaction] = _
  rw [SnapshotBuilder.transferAll_singleton, SnapshotBuilder.transfer, hdebit]
  simp only [SnapshotBuilder.credit, hpayee]
  exact if_neg (Nat.not_lt.mpr hfull)

/-- **The second block cannot be finalized** if the payee has no room for the amount. -/
theorem finalizeBlock_second_of_full (hle : m.amount ≤ m.payerBalance)
    (hfull : UInt64.size ≤ m.payeeBalance.toNat + m.amount.toNat) :
    m.chain.finalizeBlock m.hasher m.second =
      .error (.refused (.invalidArgument (.balanceOverflow payee))) := by
  have hsuccessor : successorHeight? m.afterFirst.height = some m.second.height := rfl
  have hsucceed : Chain.succeed m.afterFirst m.hasher m.second =
      .error (.invalidArgument (.balanceOverflow payee)) := by
    rw [Chain.succeed_eq]
    exact congrArg (Except.map _) (transferAll_second_of_full hle hfull)
  have hprevious : m.chain.snapshot? m.second.previousBlockId = some m.afterFirst :=
    m.snapshot?_firstId
  rw [Chain.finalizeBlock, hprevious]
  simp only [hsuccessor, hsucceed]
  exact if_neg (not_not_intro rfl)

theorem chain_linear (h : m.firstId ≠ origin) : m.chain.Linear := by
  have hrun := Engine.extends_run m.engine m.genesis [.ofEntity first]
  rw [run_first h] at hrun
  exact hrun.linear

/-- **The engine accepts the second block** if the payee has room for the amount and the block
has a name of its own. -/
theorem accepts?_second (h : m.firstId ≠ origin) (hpos : 0 < m.amount)
    (hle : m.amount ≤ m.payerBalance) (hroom : m.payeeBalance.toNat + m.amount.toNat < UInt64.size)
    (hfresh : m.chain.snapshot? (m.hasher.blockId m.second) = none) :
    m.engine.accepts? m.chain (.ofEntity m.second) = some m.second := by
  have hfinalized := ((chain_linear h).finalizeBlock_isOk_iff (h := m.hasher) (b := m.second)
    m.snapshot?_firstId rfl rfl).mpr ⟨hfresh, exists_transferAll_second hle hroom⟩
  exact Engine.accepts?_eq_some_iff.mpr
    ⟨m.endorsed_second.decode_ofEntity, admission_second h hpos hle, hfinalized⟩

/-- A payment of 3 under a digest that counts bytes. -/
def sample : Payment where
  hasher := ⟨"length", fun bytes =>
    ⟨Bytes.bigEndian 32 bytes.length, Bytes.length_bigEndian 32 bytes.length⟩⟩
  payerBalance := 100
  payeeBalance := 50
  amount := 3

theorem firstId_sample : sample.firstId ≠ origin := by decide +kernel

theorem accepts?_second_sample :
    sample.engine.accepts? (sample.engine.run (.ofGenesis sample.genesis) [.ofEntity first])
      (.ofEntity sample.second) = some sample.second := by
  rw [run_first firstId_sample]
  exact accepts?_second firstId_sample (by decide) (by decide) (by decide) (by decide +kernel)

/-! ## A longer run -/

variable (m)

/-- A second block in which only the payee spends. The payer's account stays as it is. -/
def detour : Block := block m.firstId 2 [transfer m.firstId payee payee 1]

/-- A third block with the transfer, which still refers to the first one. -/
def delayed : Block := block (m.hasher.blockId m.detour) 3 [m.transaction]

/-- A fourth block that has the transfer again. -/
def replayed : Block := block (m.hasher.blockId m.delayed) 4 [m.transaction]

/-- A fourth block without transfers. -/
def pause : Block := block (m.hasher.blockId m.delayed) 4 []

/-- Another transfer of the payer. -/
def again : Transaction := transfer (m.hasher.blockId m.pause) payer payee m.amount

/-- A transfer of the payee to the payer. -/
def change : Transaction := transfer (m.hasher.blockId m.pause) payee payer 1

/-- A fifth block, in which both spend. -/
def settled : Block := block (m.hasher.blockId m.pause) 5 [m.again, m.change]

/-- Five blocks in the order in which an engine gets them. -/
def history : List Block := [first, m.detour, m.delayed, m.replayed, m.pause]

theorem endorsed_history : ∀ b ∈ m.history, Endorsed b := by
  simp only [history, List.forall_mem_cons]
  refine ⟨endorsed_first, endorsed_block ?_ ?_, endorsed_block ?_ ?_, endorsed_block ?_ ?_,
    endorsed_block ?_ ?_, by simp⟩ <;> simp [transaction, transfer]

theorem endorsed_settled : Endorsed m.settled :=
  endorsed_block (by simp [again, change, transfer]) (by simp)

/-- A payment under a digest that tells blocks apart. -/
def series : Payment := { sample with hasher := .numeral }

/-- Four of the five blocks are accepted. -/
theorem accepted_history :
    series.engine.accepted (.ofGenesis series.genesis) (series.history.map .ofEntity) =
      [first, series.detour, series.delayed, series.pause] := by
  rw [(play_eq .genesis series.endorsed_history).2]
  decide +kernel

/-- **The payer spends twice,** but not one transfer twice. -/
theorem accepts?_settled :
    series.engine.accepts? (series.engine.run (.ofGenesis series.genesis)
      (series.history.map .ofEntity)) (.ofEntity series.settled) = some series.settled :=
  accepts?_of_play series.endorsed_history series.endorsed_settled (by decide +kernel)

end Payment

end StakeLedger
