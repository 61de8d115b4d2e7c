import Mathlib.Data.List.Basic
import StakeLedger.Proofs.IdentifierText
import StakeLedger.Proofs.JsonText
import StakeLedger.Snapshot.Fixture

/-!
# Values are read back from JSON

The forms of which snapshot fixtures consist are plain, and each is read as the value that it was
made from.

* `JsonForm.Lawful` is the class of these forms. A record is one if its fields are, because its
  names differ (`Json.fields?_ofMembers`).
* `Json.read?_of_spells` reads a value from each text of its form.
-/

namespace StakeLedger

namespace Json

/-! ## Plain strings -/

/-- Whether a character is ASCII and needs no escape within a string. -/
def IsPlainChar (c : Char) : Prop :=
  0x20 ≤ c.toNat ∧ c.toNat < 0x80 ∧ c ≠ '"' ∧ c ≠ '\\'

instance (c : Char) : Decidable (IsPlainChar c) :=
  inferInstanceAs (Decidable (_ ∧ _))

/-- Whether all characters of a text are plain. -/
def IsPlainText (s : String) : Prop :=
  ∀ c ∈ s.toList, IsPlainChar c

instance (s : String) : Decidable (IsPlainText s) :=
  List.decidableBAll _ _

theorem utf8EncodeChar_of_lt {c : Char} (h : c.toNat < 0x80) :
    String.utf8EncodeChar c = [UInt8.ofNat c.toNat] := by
  have hle : c.val.toNat ≤ 0x7F := Nat.le_of_lt_succ h
  rw [String.utf8EncodeChar, if_pos hle]
  rfl

theorem toNat_of_lt {c : Char} (h : c.toNat < 0x80) : (UInt8.ofNat c.toNat).toNat = c.toNat := by
  rw [UInt8.toNat_ofNat']
  omega

/-- The byte of a plain character. -/
theorem isPlainByte_of_isPlainChar {c : Char} (h : IsPlainChar c) :
    IsPlainByte (UInt8.ofNat c.toNat) := by
  obtain ⟨hlow, hhigh, hquote, hescape⟩ := h
  have hb := toNat_of_lt hhigh
  have hne {d : Char} (hd : d.toNat < 0x80) (hcd : c ≠ d) :
      UInt8.ofNat c.toNat ≠ UInt8.ofNat d.toNat := by
    intro heq
    refine hcd (Char.toNat_inj.mp ?_)
    rw [← hb, heq, toNat_of_lt hd]
  exact ⟨UInt8.le_iff_toNat_le.mpr (hb.symm ▸ hlow), UInt8.lt_iff_toNat_lt.mpr (hb.symm ▸ hhigh),
    hne (d := '"') (by decide) hquote, hne (d := '\\') (by decide) hescape⟩

theorem escapeChar_of_isPlainChar {c : Char} (h : IsPlainChar c) :
    escapeChar c = [UInt8.ofNat c.toNat] := by
  obtain ⟨hlow, hhigh, hquote, hescape⟩ := h
  have hne {d : Char} (hd : d.toNat < 0x20) : c ≠ d := by
    rintro rfl
    omega
  rw [escapeChar, if_neg hquote, if_neg hescape, if_neg (hne (by decide)), if_neg (hne (by decide)),
    if_neg (hne (by decide)), if_neg (hne (by decide)), if_neg (hne (by decide)),
    if_neg (Nat.not_lt.mpr hlow), utf8EncodeChar_of_lt hhigh]

/-- A plain text stands for itself in a string. -/
theorem escape_eq {s : String} (h : IsPlainText s) :
    escape s = s.toList.map fun c => UInt8.ofNat c.toNat := by
  rw [escape, List.map_eq_flatMap]
  exact List.flatMap_congr fun c hc => escapeChar_of_isPlainChar (h c hc)

theorem isPlainByte_of_mem_escape {s : String} (h : IsPlainText s) :
    ∀ b ∈ escape s, IsPlainByte b := by
  rw [escape_eq h]
  intro b hb
  obtain ⟨c, hc, rfl⟩ := List.mem_map.mp hb
  exact isPlainByte_of_isPlainChar (h c hc)

theorem unescape_of_isPlainByte {body : Bytes} (h : ∀ b ∈ body, IsPlainByte b) :
    unescape body = some body := by
  induction body with
  | nil => rw [unescape]
  | cons b body ih =>
    obtain ⟨⟨-, -, -, hescape⟩, hbody⟩ := List.forall_mem_cons.mp h
    rw [unescape, ih hbody]
    · rfl
    · exact fun _ _ _ _ _ heq _ => hescape heq
    · exact fun _ _ heq _ => hescape heq
    · exact fun heq _ => hescape heq

theorem decodeFrom_of_lt {text : List Char} (h : ∀ c ∈ text, c.toNat < 0x80) (position : Nat) :
    Utf8.decodeFrom position (text.map fun c => UInt8.ofNat c.toNat) = .ok text := by
  induction text generalizing position with
  | nil => rw [List.map_nil, Utf8.decodeFrom]
  | cons c text ih =>
    obtain ⟨hc, htext⟩ := List.forall_mem_cons.mp h
    have hb := toNat_of_lt hc
    have hlt : UInt8.ofNat c.toNat < 0x80 := UInt8.lt_iff_toNat_lt.mpr (hb.symm ▸ hc)
    rw [List.map_cons, Utf8.decodeFrom.eq_def]
    simp only [if_pos hlt, ih htext, hb, Char.ofNat_toNat, Except.map]

/-- **A plain text is read from a string.** -/
theorem bodyText?_escape {s : String} (h : IsPlainText s) :
    bodyText? (escape s) = some s := by
  rw [bodyText?, unescape_of_isPlainByte (isPlainByte_of_mem_escape h), escape_eq h]
  simp only [Utf8.toString?, Utf8.decode, decodeFrom_of_lt fun c hc => (h c hc).2.1,
    String.ofList_toList]

/-! ## Objects -/

/-- Whether a record can have fields of the given names: these are plain, and they differ. -/
def AreFields (names : List String) : Prop :=
  (∀ name ∈ names, IsPlainText name) ∧ names.Nodup

instance (names : List String) : Decidable (AreFields names) :=
  inferInstanceAs (Decidable (_ ∧ _))

theorem isPlain_ofMembers {names : List String} (hnames : AreFields names)
    {members : List (String × Json)} (hmembers : members.map Prod.fst = names)
    (hvalues : ∀ m ∈ members, m.2.IsPlain) : (ofMembers members).IsPlain := by
  replace hnames := hnames.1
  rw [← hmembers] at hnames
  clear hmembers
  rw [ofMembers, IsPlain]
  induction members with
  | nil => trivial
  | cons m members ih =>
    rw [List.map_cons, List.forall_mem_cons] at hnames
    rw [List.forall_mem_cons] at hvalues
    exact ⟨isPlainByte_of_mem_escape hnames.1, hvalues.1, ih hvalues.2 hnames.2⟩

theorem isPlain_array {items : List Json} (h : ∀ item ∈ items, item.IsPlain) :
    (array items).IsPlain := by
  rw [IsPlain]
  induction items with
  | nil => trivial
  | cons item items ih =>
    rw [List.forall_mem_cons] at h
    exact ⟨h.1, ih h.2⟩

theorem named?_map {members : List (String × Json)}
    (hnames : ∀ name ∈ members.map Prod.fst, IsPlainText name) :
    named? (members.map fun (name, value) => (escape name, value)) = some members := by
  induction members with
  | nil => rfl
  | cons m members ih =>
    rw [List.map_cons, List.forall_mem_cons] at hnames
    rw [List.map_cons, named?, bodyText?_escape hnames.1, ih hnames.2]

theorem mapM_map {α β γ : Type} {f : α → Option β} {g : γ → α} {k : γ → β} {cs : List γ}
    (h : ∀ c ∈ cs, f (g c) = some (k c)) : (cs.map g).mapM f = some (cs.map k) := by
  induction cs with
  | nil => rfl
  | cons c cs ih =>
    rw [List.forall_mem_cons] at h
    rw [List.map_cons, List.mapM_cons, h.1, ih h.2]
    rfl

/-- A member is found by its name, if no other has it. -/
theorem member?_of_mem {members : List (String × Json)} (hnodup : (members.map Prod.fst).Nodup)
    {m : String × Json} (hm : m ∈ members) : member? members m.1 = some (some m.2) := by
  obtain ⟨front, back, rfl⟩ := List.append_of_mem hm
  rw [List.map_append, List.map_cons, List.nodup_append, List.nodup_cons] at hnodup
  obtain ⟨-, ⟨hback, -⟩, hfront⟩ := hnodup
  have hfilter : (front ++ m :: back).filter (fun n => n.1 == m.1) = [m] := by
    have hnone : front.filter (fun n => n.1 == m.1) = [] := by
      refine List.filter_eq_nil_iff.mpr fun n hn => ?_
      rw [beq_iff_eq]
      exact hfront _ (List.mem_map_of_mem hn) _ List.mem_cons_self
    have hnone' : back.filter (fun n => n.1 == m.1) = [] := by
      refine List.filter_eq_nil_iff.mpr fun n hn => ?_
      rw [beq_iff_eq]
      exact fun heq => hback (heq ▸ List.mem_map_of_mem hn)
    have hself : (m.1 == m.1) = true := beq_self_eq_true _
    simp only [List.filter_append, hnone, List.filter_cons, hself, if_true, hnone', List.nil_append]
  rw [member?, hfilter]

/-- **A record's fields are read from its members.** -/
theorem fields?_ofMembers {names : List String} (hnames : AreFields names)
    (members : List (String × Json)) (hmembers : members.map Prod.fst = names) (short : Bool) :
    fields? short names (ofMembers members) = some (members.map fun m => some m.2) := by
  obtain rfl := hmembers
  simp only [fields?, ofMembers, named?_map hnames.1]
  exact mapM_map fun m hm => member?_of_mem hnames.2 hm

end Json

/-! ## Forms -/

/-- A JSON form that is plain and read back. -/
class JsonForm.Lawful (α : Type) [JsonForm α] : Prop where
  /-- A form needs no escapes. -/
  isPlain_toJson (a : α) : (toJson a).IsPlain
  /-- A value is read from its form. -/
  ofJson?_toJson (a : α) : ofJson? (toJson a) = some a

namespace JsonForm

export Lawful (isPlain_toJson ofJson?_toJson)

open Json (IsPlainChar IsPlainText)

attribute [simp] isPlain_toJson ofJson?_toJson

theorem nat?_ofNat (n : Nat) : (Json.ofNat n).nat? = some n :=
  Json.decimalValue?_decimal n

instance : Lawful UInt64 where
  isPlain_toJson n := ⟨n.toNat, rfl⟩
  ofJson?_toJson n := by
    have hn : n.toNat < UInt64.size := n.toNat_lt
    simp only [toJson, ofJson?, nat?_ofNat, Option.bind_some, if_pos hn, UInt64.ofNat_toNat]

instance : Lawful UInt8 where
  isPlain_toJson b := ⟨b.toNat, rfl⟩
  ofJson?_toJson b := by
    have hb : b.toNat < UInt8.size := b.toNat_lt
    simp only [toJson, ofJson?, nat?_ofNat, Option.bind_some, if_pos hb, UInt8.ofNat_toNat]

theorem isPlainChar_symbol : ∀ v < 58, IsPlainChar (Base58.symbol v) := by decide +kernel

theorem isPlainText_text (x : Identifier) : IsPlainText x.text := by
  rw [IsPlainText, Identifier.text, String.toList_ofList, Base58.encode_eq]
  refine List.forall_mem_cons.mpr ⟨by decide, fun c hc => ?_⟩
  obtain ⟨v, hv, rfl⟩ := List.mem_map.mp hc
  exact isPlainChar_symbol v (Base58.lt_of_mem_digits hv)

instance : Lawful Identifier where
  isPlain_toJson _ := Json.isPlainByte_of_mem_escape (isPlainText_text _)
  ofJson?_toJson x := by
    simp only [toJson, ofJson?, Json.ofString, Json.text?,
      Json.bodyText?_escape (isPlainText_text x), Option.bind_some, Identifier.parse_text]
    rfl

instance {α : Type} [JsonForm α] [Lawful α] : Lawful (List α) where
  isPlain_toJson as := by
    refine Json.isPlain_array fun item hitem => ?_
    obtain ⟨a, -, rfl⟩ := List.mem_map.mp hitem
    exact isPlain_toJson a
  ofJson?_toJson as := by
    have hmap : (as.map toJson).mapM ofJson? = some (as.map id) :=
      Json.mapM_map fun a _ => ofJson?_toJson a
    rw [List.map_id] at hmap
    exact hmap

theorem isPlainText_ed25519 : IsPlainText "Ed25519" := by decide

instance : Lawful SignatureAlgorithm where
  isPlain_toJson
    | .ed25519 => Json.isPlainByte_of_mem_escape isPlainText_ed25519
  ofJson?_toJson
    | .ed25519 => by
      have hname := Json.bodyText?_escape isPlainText_ed25519
      simp only [toJson, ofJson?, Json.ofString, Json.alternative?, hname, Option.bind_some]
      rfl

theorem required?_toJson {α : Type} [JsonForm α] [Lawful α] (a : α) :
    Json.required? (some (toJson a)) = some a :=
  ofJson?_toJson a

theorem areFields_publicKey : Json.AreFields EncodedPublicKey.fieldNames := by decide +kernel

theorem areFields_account : Json.AreFields Account.fieldNames := by decide +kernel

theorem areFields_fixture : Json.AreFields SnapshotFixture.fieldNames := by decide +kernel

instance : Lawful EncodedPublicKey where
  isPlain_toJson k := Json.isPlain_ofMembers areFields_publicKey rfl (by simp)
  ofJson?_toJson k := by
    have hfields := Json.fields?_ofMembers areFields_publicKey
      [("algorithm", toJson k.algorithm), ("bytes", toJson k.bytes)] rfl false
    rw [ofJson?, EncodedPublicKey.instJsonForm]
    simp only [hfields, List.map_cons, List.map_nil, required?_toJson, Option.bind_eq_bind,
      Option.bind_some, pure]

instance : Lawful Account where
  isPlain_toJson a := Json.isPlain_ofMembers areFields_account rfl (by simp)
  ofJson?_toJson a := by
    have hfields := Json.fields?_ofMembers areFields_account
      [("identifier", toJson a.identifier), ("stake", toJson a.stake),
        ("public_key", toJson a.publicKey), ("last_block_id", toJson a.lastBlockId),
        ("balance", toJson a.balance)] rfl false
    rw [ofJson?, Account.instJsonForm]
    simp only [hfields, List.map_cons, List.map_nil, required?_toJson, Option.bind_eq_bind,
      Option.bind_some, pure]

instance : Lawful SnapshotFixture where
  isPlain_toJson f := Json.isPlain_ofMembers areFields_fixture rfl (by simp)
  ofJson?_toJson f := by
    have hfields := Json.fields?_ofMembers areFields_fixture
      [("reference_block_id", toJson f.blockId), ("reference_block_height", toJson f.height),
        ("accounts", toJson f.accounts)] rfl false
    rw [ofJson?, SnapshotFixture.instJsonForm]
    simp only [hfields, List.map_cons, List.map_nil, required?_toJson, Option.bind_eq_bind,
      Option.bind_some, pure]

end JsonForm

namespace Json

/-- **A value is read from each text of its form,** blanks behind it included. -/
theorem read?_of_spells {α : Type} [JsonForm α] [JsonForm.Lawful α] {a : α} {text back : Bytes}
    (h : Spells (toJson a) text) (hback : Blanks back) : read? (text ++ back) = some a := by
  rw [read?, parse_of_spells h hback, Option.bind_some, JsonForm.ofJson?_toJson]

end Json

end StakeLedger
