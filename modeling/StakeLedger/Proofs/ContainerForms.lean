import StakeLedger.Proofs.ContainerGrammar
import StakeLedger.Proofs.ShortestEncoding

/-!
# The containers of one snapshot

A container is read with its records in any order, and with the numbers in a record in any form that
is read, so that many files are read as one snapshot. One of them is what is written: the records
in the order of the identifiers, each of them the encoding of its account. Of the files that are
read as the snapshot it is one of the shortest, and every other file is no longer written once it
was read.

* `Container.Parts.ofSnapshot` are the parts of the container that is written
  (`encode_eq_ok_iff`).
* `Container.IsCanonical` says of a file that it has the records in order and in short form.
* `Container.encode_of_decode` is the main statement: what becomes of a file that is read and
  written again.
-/

namespace StakeLedger.Container

variable {input : Bytes} {h : Hasher} {s : AccountSnapshot}

/-! ## What is written -/

/-- The parts of the container of a snapshot. -/
def Parts.ofSnapshot (s : AccountSnapshot) : Parts :=
  ⟨s.blockId, s.height, s.all.map Codec.encode, s.accountsRoot⟩

theorem encodeRecords_eq {accounts : List Account}
    (hlengths : ∀ a ∈ accounts, (Codec.encode a).length < UInt32.size) :
    encodeRecords accounts = .ok ((accounts.map Codec.encode).flatMap frame) := by
  induction accounts with
  | nil => rfl
  | cons a accounts ih =>
    obtain ⟨ha, hrest⟩ := List.forall_mem_cons.mp hlengths
    have hrecord : encodeRecord a = .ok (frame (Codec.encode a)) :=
      encodeRecord_eq_ok_iff.mpr ⟨ha, rfl⟩
    rw [encodeRecords, hrecord, ih hrest]
    rfl

/-- **What is written is the container of the snapshot's parts,** if it is written at all. -/
theorem encode_eq_ok_iff {file : Bytes} :
    encode s = .ok file ↔ file = (Parts.ofSnapshot s).bytes ∧ s.all.length < UInt32.size ∧
      ∀ a ∈ s.all, (Codec.encode a).length < UInt32.size := by
  have hencode (hcount : s.all.length < UInt32.size)
      (hlengths : ∀ a ∈ s.all, (Codec.encode a).length < UInt32.size) :
      encode s = .ok (Parts.ofSnapshot s).bytes := by
    rw [encode, lengthField_eq_ok_iff.mpr ⟨hcount, rfl⟩, encodeRecords_eq hlengths]
    simp [Except.map, Parts.bytes, Parts.ofSnapshot, front]
  constructor
  · intro hfile
    obtain ⟨hcount, hlengths⟩ := encode_isOk_iff.mp ⟨file, hfile⟩
    rw [hencode hcount hlengths] at hfile
    exact ⟨(Except.ok.inj hfile).symm, hcount, hlengths⟩
  · rintro ⟨rfl, hcount, hlengths⟩
    exact hencode hcount hlengths

/-- An account that is short enough for a record is read from its encoding. -/
theorem holdsAccount_encode {a : Account} (ha : (Codec.encode a).length < UInt32.size) :
    HoldsAccount (Codec.encode a) a := by
  have hfits := Account.fits_of_length_lt (ha.trans (by decide))
  exact ⟨ha, Codec.ofBytes_of_decode_append (Codec.decode_encode_append hfits)⟩

/-! ## Canonical files -/

/-- Whether a file is a container with the records in the order of the identifiers, each of them the
encoding of its account. -/
def IsCanonical (input : Bytes) : Prop :=
  ∃ (p : Parts) (accounts : List Account), input = p.bytes ∧ p.Holds accounts ∧
    p.records = accounts.map Codec.encode ∧
      accounts.Pairwise fun a c => compare a.identifier c.identifier = .lt

theorem isCanonical_of_encode {file : Bytes} (hfile : encode s = .ok file) : IsCanonical file := by
  obtain ⟨rfl, hcount, hlengths⟩ := encode_eq_ok_iff.mp hfile
  have hholds : (Parts.ofSnapshot s).Holds s.all := by
    refine ⟨?_, ?_, s.accounts.nodup_keys⟩
    · rwa [Parts.ofSnapshot, List.length_map]
    · exact List.forall₂_map_left_iff.mpr
        (List.forall₂_same.mpr fun a ha => holdsAccount_encode (hlengths a ha))
  exact ⟨.ofSnapshot s, s.all, rfl, hholds, rfl, s.accounts.ascending⟩

/-- The accounts of a snapshot are those of the records that it was read from, in another order. -/
theorem perm_of_describes {p : Parts} {accounts : List Account} (hp : p.Holds accounts)
    (hall : ∀ a, a ∈ s.all ↔ a ∈ accounts) : s.all.Perm accounts := by
  have hs : (s.all.map Account.identifier).Nodup := s.accounts.nodup_keys
  exact (List.perm_ext_iff_of_nodup hs.of_map hp.nodup.of_map).mpr hall

theorem accountsRoot_eq (s : AccountSnapshot) :
    s.accountsRoot = (MerkleTree.ofAccounts s.hasher s.all).root :=
  congrArg MerkleTree.root s.tree_eq_ofAccounts

/-- A canonical file is what is written for the snapshot that it is read as. -/
theorem eq_bytes_of_isCanonical (hs : decode input h = .ok s) (hinput : IsCanonical input) :
    input = (Parts.ofSnapshot s).bytes := by
  obtain ⟨p, accounts, rfl, hp, hrecords, hordered⟩ := hinput
  rw [Parts.bytes, decode_of_holds hp, describes_iff hp] at hs
  obtain ⟨hroot, rfl, hblock, hheight, hall⟩ := hs
  have haccounts : s.all = accounts := by
    refine (perm_of_describes hp hall).eq_of_pairwise (fun a c _ _ hac hca => ?_)
      s.accounts.ascending hordered
    exact absurd (Std.TransCmp.lt_trans hac hca) (by simp)
  have hp : p = .ofSnapshot s := by
    obtain ⟨blockId, height, records, root⟩ := p
    simp only at hroot hblock hheight hrecords
    rw [Parts.ofSnapshot, accountsRoot_eq, haccounts, hblock, hheight, hrecords, hroot]
  rw [hp]

/-! ## Lengths -/

theorem length_front (blockId : Identifier) (height : UInt64) (count : Nat) :
    (front blockId height count).length = 52 := by
  simp [front, magic, blockId.length_eq]

theorem length_frame (record : Bytes) : (frame record).length = 4 + record.length := by
  rw [frame, List.length_append, Bytes.length_littleEndian]

theorem length_bytes (p : Parts) : p.bytes.length = 84 + (p.records.flatMap frame).length := by
  rw [Parts.bytes, List.length_append, List.length_append, length_front, p.root.length_eq]
  omega

/-- Encodings are at most as long as the records that their accounts were read from. -/
theorem length_frames_le {records : List Bytes} {accounts : List Account}
    (hrecords : List.Forall₂ HoldsAccount records accounts) :
    (∀ a ∈ accounts, (Codec.encode a).length < UInt32.size) ∧
      ((accounts.map Codec.encode).flatMap frame).length ≤ (records.flatMap frame).length := by
  induction hrecords with
  | nil => exact ⟨nofun, Nat.le_refl 0⟩
  | cons ha _ ih =>
    have hle := (Codec.encode_atMost_of_ofBytes ha.2).length_le
    refine ⟨List.forall_mem_cons.mpr ⟨Nat.lt_of_le_of_lt hle ha.1, ih.1⟩, ?_⟩
    have hrest := ih.2
    simp only [List.map_cons, List.flatMap_cons, List.length_append, length_frame]
    omega

/-! ## Two files that are not canonical -/

/-- An account without a key, of which all numbers are zero. -/
def blank (id : Identifier) : Account := ⟨id, 0, ⟨.ed25519, []⟩, .zero, 0⟩

/-- The identifier after the one that is zero. -/
def one : Identifier := ⟨List.replicate 31 0 ++ [1], by simp⟩

/-- A container with one account, the stake of which takes three bytes where one is enough. -/
def loose (h : Hasher) : Parts where
  blockId := .zero
  height := 0
  records := [List.replicate 32 0 ++ [251, 0, 0] ++ List.replicate 35 0]
  root := (MerkleTree.ofAccounts h [blank .zero]).root

theorem holds_loose (h : Hasher) : (loose h).Holds [blank .zero] where
  count_lt := (by decide : 1 < UInt32.size)
  records := .cons ⟨by decide, rfl⟩ .nil
  nodup := List.nodup_singleton _

/-- A container with two accounts, the greater identifier in front. -/
def descending (h : Hasher) : Parts where
  blockId := .zero
  height := 0
  records := [Codec.encode (blank one), Codec.encode (blank .zero)]
  root := (MerkleTree.ofAccounts h [blank one, blank .zero]).root

theorem holds_descending (h : Hasher) : (descending h).Holds [blank one, blank .zero] where
  count_lt := (by decide : 2 < UInt32.size)
  records := .cons (holdsAccount_encode (by decide)) (.cons (holdsAccount_encode (by decide)) .nil)
  nodup := by decide

/-! ## Writing again -/

/-- A snapshot that was read is written in at most as many bytes. -/
theorem exists_encode_of_decode (hs : decode input h = .ok s) :
    ∃ output, encode s = .ok output ∧ output.length ≤ input.length := by
  obtain ⟨p, rfl, accounts, hp, -, -, -, -, hall⟩ := decode_eq_ok_iff.mp hs
  have hperm := perm_of_describes hp hall
  obtain ⟨hlengths, hframes⟩ := length_frames_le hp.records
  have hcount : s.all.length < UInt32.size := by
    rw [hperm.length_eq, ← hp.records.length_eq]
    exact hp.count_lt
  refine ⟨_, encode_eq_ok_iff.mpr ⟨rfl, hcount, fun a ha => hlengths a ((hall a).mp ha)⟩, ?_⟩
  have hsame : ((s.all.map Codec.encode).flatMap frame).length =
      ((accounts.map Codec.encode).flatMap frame).length :=
    ((hperm.map Codec.encode).flatMap_right frame).length_eq
  rw [length_bytes, length_bytes, Parts.ofSnapshot, hsame]
  exact Nat.add_le_add_left hframes 84

theorem hasher_of_decode (hs : decode input h = .ok s) : s.hasher = h := by
  obtain ⟨p, rfl, accounts, -, -, hhasher, -⟩ := decode_eq_ok_iff.mp hs
  exact hhasher

/-- **What becomes of a file that is read and written again.** The snapshot is written, as a file
that is read as it and is no longer than the first one. The two files are equal exactly if the first
one is canonical, with the records in order and each of them the encoding of its account; and no
other canonical file is read as the snapshot. -/
theorem encode_of_decode (hs : decode input h = .ok s) :
    ∃ output, encode s = .ok output ∧ decode output h = .ok s ∧ IsCanonical output ∧
      output.length ≤ input.length ∧ (output = input ↔ IsCanonical input) ∧
      (∀ other, decode other h = .ok s → IsCanonical other → other = output) := by
  obtain ⟨output, houtput, hle⟩ := exists_encode_of_decode hs
  obtain ⟨rfl, -⟩ := encode_eq_ok_iff.mp houtput
  have hback : decode (Parts.ofSnapshot s).bytes h = .ok s := by
    have hread := decode_encode houtput
    rwa [hasher_of_decode hs] at hread
  have hcanonical := isCanonical_of_encode houtput
  refine ⟨_, houtput, hback, hcanonical, hle, ⟨fun heq => ?_, fun hinput => ?_⟩,
    fun other hother => ?_⟩
  · exact heq ▸ hcanonical
  · exact (eq_bytes_of_isCanonical hs hinput).symm
  · exact eq_bytes_of_isCanonical hother

/-- The file with the number in three bytes is written in fewer. -/
theorem encode_of_decode_loose :
    ∃ s output, decode (loose .blake3).bytes .blake3 = .ok s ∧ encode s = .ok output ∧
      decode output .blake3 = .ok s ∧ output.length ≤ (loose .blake3).bytes.length := by
  have hread := decode_bytes (holds_loose .blake3) rfl
  obtain ⟨output, houtput, hback, -, hle, -⟩ := encode_of_decode hread
  exact ⟨_, output, hread, houtput, hback, hle⟩

/-- **A file that is accepted is not always what is written for its snapshot:** neither if a number
in a record takes more bytes than it needs, nor if the records are in another order. -/
theorem encode_ne_of_decode :
    (∃ s, decode (loose .blake3).bytes .blake3 = .ok s ∧ encode s ≠ .ok (loose .blake3).bytes) ∧
      ∃ s, decode (descending .blake3).bytes .blake3 = .ok s ∧
        encode s ≠ .ok (descending .blake3).bytes := by
  refine ⟨⟨_, decode_bytes (holds_loose .blake3) rfl, fun hwritten => ?_⟩,
    ⟨_, decode_bytes (holds_descending .blake3) rfl, fun hwritten => ?_⟩⟩
  · have hlength := congrArg List.length (encode_eq_ok_iff.mp hwritten).1
    have hlt : ([Codec.encode (blank .zero)].flatMap frame).length <
        ((loose .blake3).records.flatMap frame).length := by decide
    rw [length_bytes, length_bytes, Nat.add_left_cancel_iff] at hlength
    exact absurd hlength (Nat.ne_of_gt hlt)
  · have hbytes := (encode_eq_ok_iff.mp hwritten).1
    have hne : [Codec.encode (blank one), Codec.encode (blank .zero)].flatMap frame ≠
        [Codec.encode (blank .zero), Codec.encode (blank one)].flatMap frame := by decide
    have hlength : ([Codec.encode (blank one), Codec.encode (blank .zero)].flatMap frame).length =
        ([Codec.encode (blank .zero), Codec.encode (blank one)].flatMap frame).length :=
      ((List.Perm.swap _ _ []).flatMap_right frame).length_eq
    rw [Parts.bytes, Parts.bytes] at hbytes
    obtain ⟨-, hrest⟩ := List.append_inj hbytes (by rw [length_front, length_front])
    exact hne (List.append_inj_left hrest hlength)

end StakeLedger.Container
