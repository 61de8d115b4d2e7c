import Mathlib.Data.List.Forall2
import StakeLedger.Proofs.Payment
import StakeLedger.Proofs.Selection

/-!
# Which certificates count

The certificates of a transaction are looked at one after the other, and the signers of those that
hold are noted. What is noted in the end is a set: the assigned validators for whom at least one
certificate holds. So a certificate that does not hold neither counts nor stands in the way of a
later one, one that holds counts once, and the order does not matter.

* `ValidatedTransaction.Endorsed` says that one of the certificates holds for an account, and
  `ValidatedTransaction.endorsers` are the assigned validators for whom one does.
* `ValidatedTransaction.noted` is one step of the loop. `mem_signers_iff` and `nodup_signers` follow
  from what a step does, and `length_signers` counts.
* `ValidatedTransaction.Counts` says that a certificate can count. No other has any effect
  (`isCertified_of_counts`).
* `Block.isCertified_by_members` is the main statement.
-/

namespace StakeLedger

/-- What does not have 64 bytes is no signature. -/
theorem PublicKey.verifyEntity_of_length_ne {α : Type} [Entity α] {key : PublicKey} {h : Hasher}
    {entity : α} {signature : Signature} (hlength : signature.bytes.length ≠ 64) :
    key.verifyEntity h entity signature = false := by
  obtain ⟨key⟩ := key
  have hdigest (digest : Identifier) :
      (PublicKey.ed25519 key).verifyDigest digest signature = false :=
    if_neg hlength
  rw [verifyEntity]
  cases h.entityId entity <;> simp [hdigest]

namespace ValidatedTransaction

variable {h : Hasher} {reference : AccountSnapshot} {assignment : Assignment} {tx : Transaction}
  {certificate : Signature} {certificates others : List Signature} {found : List Identifier}
  {x : Identifier}

/-! ## The loop over the certificates -/

/-- The signers noted after one more certificate. -/
def noted (h : Hasher) (reference : AccountSnapshot) (assignment : Assignment) (tx : Transaction)
    (certificate : Signature) (found : List Identifier) : List Identifier :=
  if assignment.has certificate.signer && !found.contains certificate.signer &&
      certifies h reference tx certificate then
    certificate.signer :: found
  else found

theorem signers_cons :
    signers h reference assignment tx (certificate :: certificates) found =
      signers h reference assignment tx certificates
        (noted h reference assignment tx certificate found) := by
  rw [signers, noted]
  split <;> rfl

/-- A certificate adds its signer, if that is a member and the certificate holds. -/
theorem mem_noted : x ∈ noted h reference assignment tx certificate found ↔
    x ∈ found ∨
      x ∈ assignment.members ∧ certificate.signer = x ∧
        certifies h reference tx certificate = true := by
  simp only [noted, Assignment.has, Bool.and_eq_true, Bool.not_eq_true', List.contains_eq_mem,
    decide_eq_true_eq, decide_eq_false_iff_not]
  split
  · next hnew =>
    obtain ⟨⟨hmember, -⟩, hholds⟩ := hnew
    rw [List.mem_cons, or_comm]
    refine or_congr_right ⟨?_, fun hx => hx.2.1.symm⟩
    rintro rfl
    exact ⟨hmember, rfl, hholds⟩
  · next hold =>
    refine ⟨.inl, fun hx => hx.elim id ?_⟩
    rintro ⟨hmember, rfl, hholds⟩
    by_contra hfresh
    exact hold ⟨⟨hmember, hfresh⟩, hholds⟩

theorem nodup_noted (hfound : found.Nodup) :
    (noted h reference assignment tx certificate found).Nodup := by
  rw [noted]
  split
  · next hnew =>
    refine List.nodup_cons.mpr ⟨fun hmem => ?_, hfound⟩
    simp [hmem] at hnew
  · exact hfound

/-- **Who is noted in the end.** -/
theorem mem_signers_iff : x ∈ signers h reference assignment tx certificates found ↔
    x ∈ found ∨
      x ∈ assignment.members ∧ ∃ certificate ∈ certificates, certificate.signer = x ∧
        certifies h reference tx certificate = true := by
  induction certificates generalizing found with
  | nil => simp [signers]
  | cons certificate rest ih =>
    rw [signers_cons, ih, mem_noted, or_assoc, ← and_or_left]
    simp only [List.exists_mem_cons_iff]

/-- Nobody is noted twice. -/
theorem nodup_signers (hfound : found.Nodup) :
    (signers h reference assignment tx certificates found).Nodup := by
  induction certificates generalizing found with
  | nil => exact hfound
  | cons certificate rest ih =>
    rw [signers_cons]
    exact ih (nodup_noted hfound)

/-! ## Endorsed accounts -/

/-- One of the certificates names the account as its signer, and verifies over the transaction under
the key that the account has in the reference snapshot. -/
def Endorsed (h : Hasher) (reference : AccountSnapshot) (tx : Transaction)
    (certificates : List Signature) (id : Identifier) : Prop :=
  ∃ certificate ∈ certificates, certificate.signer = id ∧ ∃ account key,
    reference.account? id = some account ∧ account.publicKey.decode = .ok key ∧
      key.verifyEntity h tx certificate = true

theorem endorsed_iff : Endorsed h reference tx certificates x ↔
    ∃ certificate ∈ certificates, certificate.signer = x ∧
      certifies h reference tx certificate = true := by
  refine exists_congr fun certificate => and_congr_right fun _ => and_congr_right fun hsigner => ?_
  rw [certifies_eq_true_iff, hsigner]

instance : Decidable (Endorsed h reference tx certificates x) :=
  decidable_of_iff _ endorsed_iff.symm

/-- The members of an assignment for whom one of the certificates holds. -/
def endorsers (h : Hasher) (reference : AccountSnapshot) (assignment : Assignment)
    (tx : Transaction) (certificates : List Signature) : Finset Identifier :=
  assignment.members.toFinset.filter (Endorsed h reference tx certificates)

/-- **The loop counts the endorsers.** -/
theorem length_signers : (signers h reference assignment tx certificates []).length =
    (endorsers h reference assignment tx certificates).card := by
  rw [← List.toFinset_card_of_nodup (nodup_signers List.nodup_nil)]
  congr 1
  ext x
  rw [List.mem_toFinset, mem_signers_iff, endorsers, Finset.mem_filter, List.mem_toFinset,
    endorsed_iff]
  simp only [List.not_mem_nil, false_or]

theorem endorsers_subset (hsub : ∀ certificate ∈ certificates,
    certificate.signer ∈ assignment.members → certifies h reference tx certificate = true →
      certificate ∈ others) :
    endorsers h reference assignment tx certificates ⊆
      endorsers h reference assignment tx others := by
  intro x hx
  rw [endorsers, Finset.mem_filter, List.mem_toFinset, endorsed_iff] at hx ⊢
  obtain ⟨hmember, certificate, hmem, rfl, hholds⟩ := hx
  exact ⟨hmember, certificate, hsub certificate hmem hmember hholds, rfl, hholds⟩

/-! ## Certificates that count -/

/-- A certificate can count for a transaction: its signer is a validator assigned to the
transaction, and it verifies over the transaction under the key that the signer has in the reference
snapshot. -/
def Counts (h : Hasher) (p : Parameters) (c : Chain) (tx : Transaction)
    (certificate : Signature) : Prop :=
  ∃ reference assignment account key, c.snapshot? tx.referenceBlockId = some reference ∧
    (Assigner.mk h p.minStake).assignValidators (h.transactionId tx) reference.all
      p.validatorsPerEntity.toNat = .ok assignment ∧
    certificate.signer ∈ assignment.members ∧
    reference.account? certificate.signer = some account ∧ account.publicKey.decode = .ok key ∧
      key.verifyEntity h tx certificate = true

variable {v v' : ValidatedTransaction} {p : Parameters} {c : Chain}

theorem isCertified_iff_endorsers :
    v.isCertified h p c = true ↔ ∃ reference assignment,
      c.snapshot? v.transaction.referenceBlockId = some reference ∧
      (Assigner.mk h p.minStake).assignValidators (h.transactionId v.transaction) reference.all
        p.validatorsPerEntity.toNat = .ok assignment ∧
      p.signatureThreshold.toNat ≤
        (endorsers h reference assignment v.transaction v.certificates).card := by
  rw [isCertified_eq_true_iff]
  simp only [length_signers]

/-- **Only certificates that count have an effect.** A transaction that is certified stays so with
other certificates, if those that count are among them. -/
theorem isCertified_of_counts (htx : v'.transaction = v.transaction)
    (hcounts : ∀ certificate ∈ v.certificates, Counts h p c v.transaction certificate →
      certificate ∈ v'.certificates)
    (hv : v.isCertified h p c = true) : v'.isCertified h p c = true := by
  obtain ⟨reference, assignment, href, hassign, hle⟩ := isCertified_iff_endorsers.mp hv
  rw [isCertified_iff_endorsers, htx]
  refine ⟨reference, assignment, href, hassign, hle.trans (Finset.card_le_card ?_)⟩
  refine endorsers_subset fun certificate hmem hmember hholds => hcounts certificate hmem ?_
  obtain ⟨account, key, haccount, hkey, hverify⟩ := certifies_eq_true_iff.mp hholds
  exact ⟨reference, assignment, account, key, href, hassign, hmember, haccount, hkey, hverify⟩

end ValidatedTransaction

namespace Block

open ValidatedTransaction (Counts Endorsed)

variable {h : Hasher} {p : Parameters} {c : Chain} {b b' : Block}

/-- A block that is certified stays so if the transactions keep the certificates that count. -/
theorem isCertified_of_forall₂
    (hb : List.Forall₂ (fun v v' : ValidatedTransaction => v'.transaction = v.transaction ∧
      ∀ certificate ∈ v.certificates, Counts h p c v.transaction certificate →
        certificate ∈ v'.certificates) b.transactions b'.transactions)
    (hcertified : b.isCertified h p c = true) : b'.isCertified h p c = true := by
  rw [isCertified] at hcertified ⊢
  generalize b.transactions = txs at hb hcertified
  generalize b'.transactions = txs' at hb
  induction hb with
  | nil => rfl
  | cons hv _ ih =>
    rw [List.all_cons, Bool.and_eq_true] at hcertified ⊢
    exact ⟨ValidatedTransaction.isCertified_of_counts hv.1 hv.2 hcertified.1, ih hcertified.2⟩

/-- **Certificates count by members.** A block is certified exactly if for each of its transactions
the reference snapshot is known, the assignment of validators is made, and at least as many members
of it as the threshold says have a certificate that holds for them. So the outcome is the same with
any other lists that have the same certificates among those that count: in another order, repeated,
or with some that do not verify or whose signers are not assigned. And with more certificates,
whatever they are, a certified block stays certified. -/
theorem isCertified_by_members (h : Hasher) (p : Parameters) (c : Chain) (b : Block) :
    (b.isCertified h p c = true ↔ ∀ v ∈ b.transactions, ∃ reference assignment,
      c.snapshot? v.transaction.referenceBlockId = some reference ∧
      (Assigner.mk h p.minStake).assignValidators (h.transactionId v.transaction) reference.all
        p.validatorsPerEntity.toNat = .ok assignment ∧
      p.signatureThreshold.toNat ≤ (assignment.members.toFinset.filter
        (Endorsed h reference v.transaction v.certificates)).card) ∧
    (∀ b' : Block, List.Forall₂ (fun v v' : ValidatedTransaction =>
        v'.transaction = v.transaction ∧ ∀ certificate, Counts h p c v.transaction certificate →
          (certificate ∈ v.certificates ↔ certificate ∈ v'.certificates))
        b.transactions b'.transactions →
      b'.isCertified h p c = b.isCertified h p c) ∧
    (∀ b' : Block, List.Forall₂ (fun v v' : ValidatedTransaction =>
        v'.transaction = v.transaction ∧ v.certificates ⊆ v'.certificates)
        b.transactions b'.transactions →
      b.isCertified h p c = true → b'.isCertified h p c = true) := by
  refine ⟨?iff, fun b' hb => ?same, fun b' hb => ?more⟩
  case iff =>
    rw [isCertified, List.all_eq_true]
    exact forall₂_congr fun v _ => ValidatedTransaction.isCertified_iff_endorsers
  case same =>
    rw [Bool.eq_iff_iff]
    refine ⟨isCertified_of_forall₂ (.flip (hb.imp fun v v' hv => ?_)),
      isCertified_of_forall₂ (hb.imp fun v v' hv => ?_)⟩
    · refine ⟨hv.1.symm, fun certificate hmem hcounts => ?_⟩
      rw [hv.1] at hcounts
      exact (hv.2 certificate hcounts).mpr hmem
    · exact ⟨hv.1, fun certificate hmem hcounts => (hv.2 certificate hcounts).mp hmem⟩
  case more =>
    exact isCertified_of_forall₂ (hb.imp fun v v' hv => ⟨hv.1, fun _ hmem _ => hv.2 hmem⟩)

/-- The sample payment is as well certified with two more certificates before the one that counts, of
an account that is not assigned and of the assigned one without a signature, and with that one
twice. -/
theorem isCertified_by_members_sample :
    let m := Payment.sample
    let more : Block := { m.second with transactions :=
      [⟨m.transaction, [.neutral Payment.payer, ⟨Payment.payee, .ed25519, []⟩,
        .neutral Payment.payee, .neutral Payment.payee]⟩] }
    let same (v v' : ValidatedTransaction) := v'.transaction = v.transaction ∧
      ∀ certificate, Counts m.hasher Payment.parameters m.chain v.transaction certificate →
        (certificate ∈ v.certificates ↔ certificate ∈ v'.certificates)
    List.Forall₂ same m.second.transactions more.transactions ∧
      m.second.isCertified m.hasher Payment.parameters m.chain = true ∧
      more.isCertified m.hasher Payment.parameters m.chain = true := by
  intro m more same
  have hsecond : m.second.isCertified m.hasher Payment.parameters m.chain = true :=
    Payment.isCertified_second
  have hsame : List.Forall₂ same m.second.transactions more.transactions := by
    refine .cons ⟨rfl, fun certificate hcounts => ?_⟩ .nil
    obtain ⟨reference, assignment, account, key, href, hassign, hmember, -, -, hverify⟩ := hcounts
    obtain rfl : m.afterFirst = reference :=
      Option.some.inj (Payment.snapshot?_firstId.symm.trans href)
    have hpayee := Payment.hosts_chain.assign_eq (m := m) Payment.snapshot?_firstId
    obtain rfl : ⟨[Payment.payee]⟩ = assignment :=
      Except.ok.inj ((hpayee _ _).symm.trans hassign)
    have hsigner : certificate.signer = Payment.payee := List.mem_singleton.mp hmember
    have hpayer : certificate ≠ .neutral Payment.payer := by
      rintro rfl
      exact absurd hsigner (by decide)
    have hbroken : certificate ≠ ⟨Payment.payee, .ed25519, []⟩ := by
      rintro rfl
      rw [PublicKey.verifyEntity_of_length_ne (by decide)] at hverify
      cases hverify
    simp [hpayer, hbroken]
  have hmore := (isCertified_by_members m.hasher Payment.parameters m.chain m.second).2.1 more hsame
  exact ⟨hsame, hsecond, hmore.trans hsecond⟩

end Block

end StakeLedger
