import StakeLedger.Proofs.Encoding
import StakeLedger.Proofs.Identity
import StakeLedger.Proofs.Payment

/-!
# What an identifier binds

The tag of a kind has no colon in it, so the first colon of what is digested ends the tag: two
entities with the same digested string are of one kind and have the same identity bytes. The
identity bytes in turn determine all that they cover.

* `EntityKind` lists the four kinds, `EntityKind.Carrier` their entities and `Entity.input` what
  is digested for an entity. It is never as long as the string of an inner node of a tree
  (`EntityKind.length_input_ne`).
* `EntityKind.SameContent` says what entities with the same identifier have in common.
* `EntityKind.entityId_eq_iff`: two entities have the same identifier exactly if they have the
  same content, or else the hash function gives two different strings the same digest.
-/

namespace StakeLedger

open Codec (encode Fits)

/-- What is digested for the identifier of an entity. -/
def Entity.input {α : Type} [Entity α] (x : α) : Bytes :=
  match Entity.identityBytes x with
  | .ok payload => Hasher.tagged (Entity.typeTag α) payload
  | .error _ => []

namespace Hasher

/-- The tag ends at the first colon. -/
theorem takeWhile_tagged {tag : String} (htag : 0x3A ∉ Utf8.ofString tag) (payload : Bytes) :
    (tagged tag payload).takeWhile (· ≠ 0x3A) = Utf8.ofString tag := by
  have hall : ∀ b ∈ Utf8.ofString tag, decide (b ≠ 0x3A) = true := fun b hb =>
    decide_eq_true fun heq => htag (heq ▸ hb)
  rw [tagged, List.takeWhile_append_of_pos hall, List.takeWhile_cons_of_neg (by simp),
    List.append_nil]

theorem tagged_inj {s t : String} {p q : Bytes} (hs : 0x3A ∉ Utf8.ofString s)
    (ht : 0x3A ∉ Utf8.ofString t) (h : tagged s p = tagged t q) :
    Utf8.ofString s = Utf8.ofString t ∧ p = q := by
  have htag : Utf8.ofString s = Utf8.ofString t := by
    rw [← takeWhile_tagged hs p, h, takeWhile_tagged ht q]
  rw [tagged, tagged, htag, List.append_cancel_left_eq, List.cons.injEq] at h
  exact ⟨htag, h.2⟩

/-- An identifier is the digest of the entity's string. -/
theorem entityId_eq_ok {α : Type} [Entity α] {h : Hasher} {x : α} {id : Identifier}
    (hx : h.entityId x = .ok id) : id = h.digestBytes (Entity.input x) := by
  unfold entityId at hx
  unfold Entity.input
  split at hx
  · cases hx
  · cases hx
  · next payload _ he =>
    rw [he]
    cases hx
    rfl

end Hasher

theorem Transaction.encode_body_eq_iff {x y : Transaction} :
    encode x.body = encode y.body ↔ { x with signature := none } = { y with signature := none } := by
  have hfits : ∀ tx : Transaction, Fits tx.body := fun _ => ⟨trivial, trivial, trivial, trivial⟩
  constructor
  · intro h
    have hbody := Codec.encode_inj (hfits x) (hfits y) h
    simpa [body] using hbody
  · intro h
    have hbody : x.body = y.body := by simpa [body] using h
    rw [hbody]

theorem Block.body_eq_iff {b c : Block} :
    b.body = c.body ↔ { b with signature := none } = { c with signature := none } := by
  simp [body]

/-- The kinds of entities that a ledger deals with. -/
inductive EntityKind
  | account
  | transaction
  | validatedTransaction
  | block
  deriving DecidableEq

namespace EntityKind

/-- The entities of a kind. -/
def Carrier : EntityKind → Type
  | account => Account
  | transaction => Transaction
  | validatedTransaction => ValidatedTransaction
  | block => Block

instance : (k : EntityKind) → Entity k.Carrier
  | account => inferInstanceAs (Entity Account)
  | transaction => inferInstanceAs (Entity Transaction)
  | validatedTransaction => inferInstanceAs (Entity ValidatedTransaction)
  | block => inferInstanceAs (Entity Block)

instance : (k : EntityKind) → DecidableEq k.Carrier
  | account => inferInstanceAs (DecidableEq Account)
  | transaction => inferInstanceAs (DecidableEq Transaction)
  | validatedTransaction => inferInstanceAs (DecidableEq ValidatedTransaction)
  | block => inferInstanceAs (DecidableEq Block)

/-- The identity bytes of an entity. -/
def payload : {k : EntityKind} → k.Carrier → Bytes
  | account, (a : Account) => encode a
  | transaction, (tx : Transaction) => encode tx.body
  | validatedTransaction, (v : ValidatedTransaction) => encode v.transaction.body
  | block, (b : Block) => encode b.body

/-- Whether two entities are of one kind and agree on all that their identity covers. That is
all of an account, and a transaction or a block up to the signature on it. The signatures and
certificates on the transactions of a block are part of its content. -/
def SameContent : {k l : EntityKind} → k.Carrier → l.Carrier → Prop
  | account, account, (a : Account), (b : Account) => a = b
  | transaction, transaction, (x : Transaction), (y : Transaction) =>
    { x with signature := none } = { y with signature := none }
  | validatedTransaction, validatedTransaction, (v : ValidatedTransaction),
      (w : ValidatedTransaction) =>
    { v.transaction with signature := none } = { w.transaction with signature := none }
  | block, block, (b : Block), (c : Block) =>
    { b with signature := none } = { c with signature := none }
  | _, _, _, _ => False

/-- Whether the lists in what the identity covers have fewer than 2^64 elements, as all lists in
a memory have. Only a block has lists there. -/
def Representable : {k : EntityKind} → k.Carrier → Prop
  | block, (b : Block) => Fits b.body
  | _, _ => True

variable {k l : EntityKind}

/-! ## The digested string -/

theorem identityBytes_eq (x : k.Carrier) : Entity.identityBytes x = .ok (payload x) := by
  cases k <;> rfl

theorem input_eq (x : k.Carrier) :
    Entity.input x = Hasher.tagged (Entity.typeTag k.Carrier) (payload x) := by
  rw [Entity.input, identityBytes_eq]

/-- No identity bytes are as short as a pair of identifiers. -/
theorem lt_length_payload (x : k.Carrier) : 64 < (payload x).length := by
  have hid : ∀ id : Identifier, (encode id).length = 32 := fun id => id.length_eq
  have hpair : ∀ {α β : Type} [Codec α] [Codec β] (a : α) (b : β),
      (encode (a, b)).length = (encode a).length + (encode b).length := fun a b =>
    List.length_append
  have hnat : ∀ n : UInt64, 0 < (encode n).length := fun n => Varint.length_encode_pos n.toNat
  cases k with
  | account =>
    change 64 < (encode (Account.identifier x, Account.stake x, Account.publicKey x,
      Account.lastBlockId x, Account.balance x)).length
    have hstake := hnat (Account.stake x)
    simp only [hpair, hid]
    omega
  | transaction =>
    change 64 < (encode (Transaction.body x)).length
    simp only [Transaction.body, hpair, hid]
    omega
  | validatedTransaction =>
    change 64 < (encode (ValidatedTransaction.transaction x).body).length
    simp only [Transaction.body, hpair, hid]
    omega
  | block =>
    change 64 < (encode (Block.body x)).length
    have hheight := hnat (Block.height x)
    simp only [Block.body, hpair, hid]
    omega

/-- **What is digested for an entity is longer than an inner node of a tree.** -/
theorem length_input_ne (x : k.Carrier) : (Entity.input x).length ≠ 64 := by
  have hlt := lt_length_payload x
  rw [input_eq, Hasher.tagged, List.length_append, List.length_cons]
  omega

/-- Every entity of these kinds has an identifier. -/
theorem entityId_eq (h : Hasher) (x : k.Carrier) :
    h.entityId x = .ok (h.digestBytes (Entity.input x)) := by
  have hne : payload x ≠ [] := List.ne_nil_of_length_pos (by have := lt_length_payload x; omega)
  rw [h.entityId_of_identityBytes (identityBytes_eq x) hne, input_eq, Hasher.digest]

/-! ## Its kind and content -/

theorem colon_notMem_typeTag (k : EntityKind) : 0x3A ∉ Utf8.ofString (Entity.typeTag k.Carrier) := by
  cases k <;> decide

theorem eq_of_typeTag_eq
    (h : Utf8.ofString (Entity.typeTag k.Carrier) = Utf8.ofString (Entity.typeTag l.Carrier)) :
    k = l := by
  revert h
  cases k <;> cases l <;> decide

theorem eq_of_sameContent {x : k.Carrier} {y : l.Carrier} (h : SameContent x y) : k = l := by
  cases k <;> cases l <;> first | rfl | exact h.elim

theorem payload_eq_iff {x y : k.Carrier} (hx : Representable x) (hy : Representable y) :
    payload x = payload y ↔ SameContent x y := by
  cases k with
  | account => exact ⟨Account.encode_injective, congrArg _⟩
  | transaction => exact Transaction.encode_body_eq_iff
  | validatedTransaction => exact Transaction.encode_body_eq_iff
  | block =>
    constructor
    · exact fun h => Block.body_eq_iff.mp (Codec.encode_inj hx hy h)
    · exact fun h => congrArg encode (Block.body_eq_iff.mpr h)

theorem payload_eq_of_input_eq {x y : k.Carrier} (h : Entity.input x = Entity.input y) :
    payload x = payload y := by
  rw [input_eq, input_eq] at h
  exact (Hasher.tagged_inj (colon_notMem_typeTag k) (colon_notMem_typeTag k) h).2

/-- The digested string holds the kind and the content, and no more. -/
theorem input_eq_iff {x : k.Carrier} {y : l.Carrier} (hx : Representable x)
    (hy : Representable y) : Entity.input x = Entity.input y ↔ SameContent x y := by
  constructor
  · intro h
    rw [input_eq, input_eq] at h
    obtain ⟨htag, hpayload⟩ :=
      Hasher.tagged_inj (colon_notMem_typeTag k) (colon_notMem_typeTag l) h
    obtain rfl := eq_of_typeTag_eq htag
    exact (payload_eq_iff hx hy).mp hpayload
  · intro h
    obtain rfl := eq_of_sameContent h
    rw [input_eq, input_eq, (payload_eq_iff hx hy).mpr h]

/-- **An identifier binds the kind and the content.** Two entities have the same identifier
exactly if they are of one kind and agree on all that their identity covers, or if the hash
function gives their two strings, which are different, the same digest. -/
theorem entityId_eq_iff (h : Hasher) {x : k.Carrier} {y : l.Carrier} (hx : Representable x)
    (hy : Representable y) :
    (∃ id, h.entityId x = .ok id ∧ h.entityId y = .ok id) ↔
      SameContent x y ∨
        (Entity.input x ≠ Entity.input y ∧
          h.digestBytes (Entity.input x) = h.digestBytes (Entity.input y)) := by
  simp only [entityId_eq, Except.ok.injEq, exists_eq_left', ← input_eq_iff hx hy]
  constructor
  · intro hid
    by_cases heq : Entity.input x = Entity.input y
    · exact .inl heq
    · exact .inr ⟨heq, hid.symm⟩
  · rintro (heq | ⟨_, hid⟩)
    · rw [heq]
    · exact hid.symm

/-- A block has the same identifier with and without its signature. Under a digest that counts
bytes, so do two accounts, whose strings differ. -/
theorem entityId_eq_iff_sample :
    let h := Payment.sample.hasher
    let signed : block.Carrier := Payment.sample.second
    let unsigned : block.Carrier := { Payment.sample.second with signature := none }
    let payer : account.Carrier := Payment.sample.payerAccount
    let payee : account.Carrier := Payment.sample.payeeAccount
    (Representable signed ∧ Representable unsigned ∧
      ∃ id, h.entityId signed = .ok id ∧ h.entityId unsigned = .ok id) ∧
    (Representable payer ∧ Representable payee ∧
      Entity.input payer ≠ Entity.input payee ∧
      h.digestBytes (Entity.input payer) = h.digestBytes (Entity.input payee)) := by
  intro h signed unsigned payer payee
  have hsignature : ∀ signer, Fits (Signature.neutral signer) := fun signer =>
    ⟨trivial, trivial, (by decide : 64 < 2 ^ 64), fun _ _ => trivial⟩
  have hfits : Fits Payment.sample.second.body := by
    refine ⟨trivial, trivial, trivial, by decide, ?_⟩
    rintro v (_ | ⟨_, ⟨⟩⟩)
    refine ⟨⟨trivial, trivial, trivial, trivial, ?_⟩, by decide, ?_⟩
    · rintro _ ⟨⟩
      exact hsignature _
    · rintro _ (_ | ⟨_, ⟨⟩⟩)
      exact hsignature _
  have hsigned : Representable signed := hfits
  have hunsigned : Representable unsigned := hfits
  refine ⟨⟨hsigned, hunsigned, (entityId_eq_iff h hsigned hunsigned).mpr (.inl rfl)⟩, ?_⟩
  have hpayer : Representable payer := trivial
  have hpayee : Representable payee := trivial
  have hid : h.entityId payer = h.entityId payee := by
    have hdigest : Payment.sample.hasher.accountId Payment.sample.payerAccount =
        Payment.sample.hasher.accountId Payment.sample.payeeAccount := by decide +kernel
    exact congrArg Except.ok hdigest
  have hboth := (entityId_eq_iff h hpayer hpayee).mp ⟨_, hid, entityId_eq h payee⟩
  have hne : Payment.sample.payerAccount ≠ Payment.sample.payeeAccount := by decide +kernel
  exact ⟨hpayer, hpayee, hboth.resolve_left hne⟩

end EntityKind

end StakeLedger
