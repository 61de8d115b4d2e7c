import StakeLedger.Offline.Report
import StakeLedger.Proofs.AccountsRoot
import StakeLedger.Proofs.JsonForms

/-!
# Snapshot files are read back

A snapshot is written as a container or as the JSON of a fixture. Both hold the accounts alone; the
leaves, the levels and the root are computed anew when a file is read. All the same, what is read is
the snapshot that was written, and which form a file has is never in doubt.

* `SnapshotBuilder.addAll_all` collects the accounts of a snapshot again.
* `Container.decode_encode` reads a container and `SnapshotFixture.build_ofSnapshot` builds a
  fixture; `Container.encode_isOk_iff` says which snapshots fit into a container.
* `Json.parse_of_magic` and `Container.magic_of_decode` tell the two forms apart.
* `AccountSnapshot.ofFile_pack_and_ofFile_json` is the main statement.
-/

namespace StakeLedger

open Codec (decode_encode_append)

/-! ## Accounts -/

namespace SnapshotBuilder

/-- Accounts of different identifiers are added, unless there is one with such an identifier. -/
theorem addAll_of_nodup {b : SnapshotBuilder} {accounts : List Account}
    (hnodup : (accounts.map Account.identifier).Nodup)
    (hnew : ∀ a ∈ accounts, b.accounts.find? a.identifier = none) :
    b.addAll accounts = .ok { b with accounts := b.accounts.insertAll accounts } := by
  induction accounts generalizing b with
  | nil => rfl
  | cons a accounts ih =>
    rw [List.map_cons, List.nodup_cons] at hnodup
    obtain ⟨ha, hnew⟩ := List.forall_mem_cons.mp hnew
    have hadd : b.add a = .ok { b with accounts := b.accounts.insert a } := by
      rw [add, SortedBy.contains, ha]
      rfl
    rw [addAll, hadd]
    refine ih hnodup.2 fun c hc => ?_
    have hne : a.identifier ≠ c.identifier := fun heq =>
      hnodup.1 (heq ▸ List.mem_map_of_mem hc)
    rw [SortedBy.find?_insert, if_neg hne, hnew c hc]

/-- **The accounts of a snapshot are collected again.** -/
theorem addAll_all (s : AccountSnapshot) (blockId : Identifier) (height : UInt64) :
    addAll ⟨blockId, height, .empty⟩ s.all = .ok ⟨blockId, height, s.accounts⟩ := by
  have hnodup : (s.all.map Account.identifier).Nodup := s.accounts.nodup_keys
  rw [addAll_of_nodup hnodup fun _ _ => rfl]
  have hlist : SortedBy.insertAll .empty s.all = s.accounts := s.accounts.ofList_items
  simp only [hlist]

/-- The tree and its root are computed again. -/
theorem build_accounts (s : AccountSnapshot) :
    build ⟨s.blockId, s.height, s.accounts⟩ s.hasher = .ok s := by
  rw [build_eq]
  exact congrArg Except.ok (AccountSnapshot.eq_of_accounts_eq rfl rfl rfl rfl)

end SnapshotBuilder

/-- **A snapshot is that of its fixture.** -/
theorem SnapshotFixture.build_ofSnapshot (s : AccountSnapshot) :
    (ofSnapshot s).build s.hasher = .ok s := by
  rw [build, ofSnapshot, SnapshotBuilder.addAll_all]
  exact SnapshotBuilder.build_accounts s

/-! ## Containers -/

namespace Container

theorem take_append {n : Nat} {front : Bytes} (h : front.length = n) (rest : Bytes) :
    take n (front ++ rest) = .ok (front, rest) := by
  rw [take, Bytes.split?_eq_some_iff.mpr ⟨rfl, h⟩]

theorem takeNumber_append (width n : Nat) (rest : Bytes) :
    takeNumber width (Bytes.littleEndian width n ++ rest) = .ok (n % 256 ^ width, rest) := by
  simp only [takeNumber, take_append (Bytes.length_littleEndian width n), Except.map,
    Bytes.ofLittleEndian_littleEndian_mod]

theorem takeNumber_append_of_lt {width n : Nat} (h : n < 256 ^ width) (rest : Bytes) :
    takeNumber width (Bytes.littleEndian width n ++ rest) = .ok (n, rest) := by
  rw [takeNumber_append, Nat.mod_eq_of_lt h]

theorem takeIdentifier_append (x : Identifier) (rest : Bytes) :
    takeIdentifier (x.bytes ++ rest) = .ok (x, rest) := by
  simp only [takeIdentifier, List.take_left' x.length_eq, List.drop_left' x.length_eq,
    Identifier.ofBytes?_bytes]

theorem takeHeader_append (rest : Bytes) :
    takeHeader (magic ++ (Bytes.littleEndian 4 schemaVersion ++ rest)) = .ok rest := by
  rw [takeHeader, take_append (show magic.length = 4 from rfl)]
  simp only [bind, Except.bind, ne_eq, not_true_eq_false, if_false,
    takeNumber_append_of_lt (show schemaVersion < 256 ^ 4 by decide), pure, Except.pure]

theorem lengthField_eq_ok_iff {what : String} {n : Nat} {field : Bytes} :
    lengthField what n = .ok field ↔ n < UInt32.size ∧ field = Bytes.littleEndian 4 n := by
  rw [lengthField]
  split
  · next h => simp [h, eq_comm]
  · next h => simp [h]

theorem encodeRecord_eq_ok_iff {a : Account} {record : Bytes} :
    encodeRecord a = .ok record ↔ (Codec.encode a).length < UInt32.size ∧
      record = Bytes.littleEndian 4 (Codec.encode a).length ++ Codec.encode a := by
  rw [encodeRecord]
  by_cases h : (Codec.encode a).length < UInt32.size
  · rw [lengthField_eq_ok_iff.mpr ⟨h, rfl⟩]
    simp [Except.map, h, eq_comm]
  · simp [lengthField, h, Except.map]

/-- **An account is read from its record.** -/
theorem takeRecord_append {a : Account} {record : Bytes} (h : encodeRecord a = .ok record)
    (rest : Bytes) : takeRecord (record ++ rest) = .ok (a, rest) := by
  obtain ⟨hlength, rfl⟩ := encodeRecord_eq_ok_iff.mp h
  have hfits := Account.fits_of_length_lt (hlength.trans (by decide))
  have hread : Codec.read (Codec.encode a) = .ok a := by
    have hdecode := decode_encode_append hfits []
    rw [List.append_nil] at hdecode
    rw [Codec.read_eq_ok_iff, Codec.ofBytes, hdecode]
  rw [takeRecord, List.append_assoc, takeNumber_append_of_lt hlength]
  simp only [bind, Except.bind, Bytes.split?_eq_some_iff.mpr ⟨rfl, rfl⟩, hread, pure, Except.pure]

/-- Reading the records of accounts is adding the accounts. -/
theorem takeRecords_append {accounts : List Account} {records : Bytes}
    (h : encodeRecords accounts = .ok records) (b : SnapshotBuilder) (rest : Bytes) :
    takeRecords b accounts.length (records ++ rest) = (b.addAll accounts).map (·, rest) := by
  induction accounts generalizing b records with
  | nil =>
    obtain rfl := Except.ok.inj h
    rfl
  | cons a accounts ih =>
    rw [encodeRecords] at h
    cases ha : encodeRecord a with
    | error e => rw [ha] at h; cases h
    | ok record =>
      cases hrest : encodeRecords accounts with
      | error e => rw [ha, hrest] at h; cases h
      | ok others =>
        rw [ha, hrest] at h
        obtain rfl := Except.ok.inj h
        rw [List.length_cons, takeRecords, List.append_assoc, takeRecord_append ha,
          SnapshotBuilder.addAll]
        simp only [bind, Except.bind]
        cases b.add a with
        | error e => rfl
        | ok b => exact ih hrest b

/-- The accounts whose records can be written. -/
theorem encodeRecords_isOk_iff {accounts : List Account} :
    (∃ records, encodeRecords accounts = .ok records) ↔
      ∀ a ∈ accounts, (Codec.encode a).length < UInt32.size := by
  induction accounts with
  | nil => simp [encodeRecords]
  | cons a accounts ih =>
    rw [List.forall_mem_cons, ← ih, encodeRecords]
    by_cases ha : (Codec.encode a).length < UInt32.size
    · rw [encodeRecord_eq_ok_iff.mpr ⟨ha, rfl⟩]
      cases encodeRecords accounts <;> simp [Except.map, ha]
    · cases hrecord : encodeRecord a with
      | error e => simp [ha]
      | ok record => exact absurd (encodeRecord_eq_ok_iff.mp hrecord).1 ha

/-- **Which snapshots fit into a container:** those with fewer than 2^32 accounts, each of fewer
than 2^32 bytes. -/
theorem encode_isOk_iff {s : AccountSnapshot} :
    (∃ file, encode s = .ok file) ↔ s.all.length < UInt32.size ∧
      ∀ a ∈ s.all, (Codec.encode a).length < UInt32.size := by
  rw [← encodeRecords_isOk_iff, encode]
  by_cases h : s.all.length < UInt32.size
  · rw [lengthField_eq_ok_iff.mpr ⟨h, rfl⟩]
    cases encodeRecords s.all <;> simp [Except.map, h]
  · simp [lengthField, h]

/-- **A snapshot is read from its container.** -/
theorem decode_encode {s : AccountSnapshot} {file : Bytes} (h : encode s = .ok file) :
    decode file s.hasher = .ok s := by
  have hcount : s.all.length < 256 ^ 4 := (encode_isOk_iff.mp ⟨file, h⟩).1
  rw [encode, lengthField_eq_ok_iff.mpr ⟨hcount, rfl⟩] at h
  cases hrecords : encodeRecords s.all with
  | error e => rw [hrecords] at h; cases h
  | ok records =>
    rw [hrecords] at h
    obtain rfl := Except.ok.inj h
    have hheight : s.height.toNat < 256 ^ 8 := s.height.toNat_lt
    have hread := takeRecords_append hrecords ⟨s.blockId, s.height, .empty⟩
      (s.accountsRoot.bytes ++ [])
    rw [SnapshotBuilder.addAll_all] at hread
    rw [← List.append_nil s.accountsRoot.bytes]
    simp only [List.append_assoc, decode, takeHeader_append, takeIdentifier_append,
      takeNumber_append_of_lt hheight, takeNumber_append_of_lt hcount, UInt64.ofNat_toNat, hread,
      bind, Except.bind, Except.map]
    simp [SnapshotBuilder.build_accounts, pure, Except.pure]

/-- A container starts with the four bytes that mark it. -/
theorem magic_of_decode {input : Bytes} {h : Hasher} {s : AccountSnapshot}
    (hs : decode input h = .ok s) : magic.isPrefixOf input = true := by
  cases hfront : take 4 input with
  | error e =>
    rw [decode, takeHeader, hfront] at hs
    cases hs
  | ok parts =>
    obtain ⟨front, rest⟩ := parts
    by_cases hmagic : front = magic
    · rw [take] at hfront
      split at hfront
      · next parts hparts =>
        obtain rfl := Except.ok.inj hfront
        obtain ⟨rfl, -⟩ := Bytes.split?_eq_some_iff.mp hparts
        exact List.isPrefixOf_iff_prefix.mpr (hmagic ▸ List.prefix_append front rest)
      · cases hfront
    · simp only [decode, takeHeader, hfront, bind, Except.bind, ne_eq, hmagic, not_false_eq_true,
        if_true] at hs
      cases hs

end Container

/-- **No JSON text starts like a container.** -/
theorem Json.parse_of_magic {input : Bytes} (h : Container.magic.isPrefixOf input = true) :
    parse input = none := by
  obtain ⟨rest, rfl⟩ := List.isPrefixOf_iff_prefix.mp h
  have hword (rest : Bytes) : word? (0x4C :: rest) = none := rfl
  have hnone (fuel : Nat) : value? fuel (Container.magic ++ rest) = none := by
    cases fuel with
    | zero => rfl
    | succ fuel =>
      rw [value?, Container.magic, List.cons_append, skipBlanks_cons (by decide)]
      exact hword _
  rw [parse, hnone]

/-! ## Files -/

namespace AccountSnapshot

/-- A file that holds a text of a snapshot's fixture, with blanks behind it, is read as the
snapshot. -/
theorem ofFile_of_spells {s : AccountSnapshot} {text back : Bytes}
    (h : Json.Spells (toJson (SnapshotFixture.ofSnapshot s)) text) (hback : Json.Blanks back) :
    ofFile (some (text ++ back)) s.hasher = .ok s := by
  have hmagic : ¬ Container.magic.isPrefixOf (text ++ back) = true := by
    intro hmagic
    have hparse := Json.parse_of_magic hmagic
    rw [Json.parse_of_spells h hback] at hparse
    cases hparse
  rw [ofFile]
  simp only [if_neg hmagic, Json.read?_of_spells h hback, SnapshotFixture.build_ofSnapshot,
    Except.mapError]

theorem ofFile_pack {s : AccountSnapshot} {file : Bytes} (h : s.pack = .ok file) :
    ofFile (some file) s.hasher = .ok s := by
  have hencode : Container.encode s = .ok file := by
    rw [pack] at h
    cases hencode : Container.encode s with
    | error e => rw [hencode] at h; cases h
    | ok file =>
      rw [hencode] at h
      obtain rfl := Except.ok.inj h
      rfl
  have hdecode := Container.decode_encode hencode
  rw [ofFile]
  simp only [if_pos (Container.magic_of_decode hdecode), hdecode, Except.mapError]

/-- **Both forms of a snapshot's file are read back, and neither is taken for the other.** A
snapshot with fewer than 2^32 accounts, each of fewer than 2^32 bytes, can be written as a
container, and the file is read as that very snapshot: its block, height, accounts, leaves and tree.
So is a file with the JSON of its fixture, without blanks or with a line for each element. Whatever
a file holds, one that starts like a container is no JSON, and no other is a container. -/
theorem ofFile_pack_and_ofFile_json (s : AccountSnapshot) (hcount : s.all.length < UInt32.size)
    (hlengths : ∀ a ∈ s.all, (Codec.encode a).length < UInt32.size) :
    (∃ file, s.pack = .ok file ∧ ofFile (some file) s.hasher = .ok s) ∧
    (∀ text ∈ [(toJson (SnapshotFixture.ofSnapshot s)).compact,
        (toJson (SnapshotFixture.ofSnapshot s)).pretty], ∀ back, Json.Blanks back →
      ofFile (some (text ++ back)) s.hasher = .ok s) ∧
    (∀ input, (Container.magic.isPrefixOf input = true → Json.parse input = none) ∧
      (Container.magic.isPrefixOf input = false →
        ∀ h t, Container.decode input h ≠ .ok t)) := by
  refine ⟨?_, fun text htext back hback => ofFile_of_spells ?_ hback,
    fun input => ⟨Json.parse_of_magic, fun hmagic h t ht => ?_⟩⟩
  · obtain ⟨file, hfile⟩ := Container.encode_isOk_iff.mpr ⟨hcount, hlengths⟩
    have hpack : s.pack = .ok file := by rw [pack, hfile, Except.mapError]
    exact ⟨file, hpack, ofFile_pack hpack⟩
  · have hplain := JsonForm.isPlain_toJson (SnapshotFixture.ofSnapshot s)
    rcases List.mem_pair.mp htext with rfl | rfl
    · exact Json.spells_compact _ hplain
    · exact Json.spells_prettyAt 0 _ hplain
  · rw [Container.magic_of_decode ht] at hmagic
    cases hmagic

/-- The sample payment starts from a snapshot of two accounts. -/
theorem ofFile_pack_and_ofFile_json_sample :
    let s := Payment.sample.genesis
    s.size = 2 ∧ ∃ file, s.pack = .ok file ∧ ofFile (some file) s.hasher = .ok s ∧
      ofFile (some (toJson (SnapshotFixture.ofSnapshot s)).compact) s.hasher = .ok s := by
  have hlengths : ∀ a ∈ Payment.sample.genesis.all, (Codec.encode a).length < UInt32.size := by
    decide +kernel
  have hsize : Payment.sample.genesis.size = 2 := by decide +kernel
  have hcount : Payment.sample.genesis.all.length < UInt32.size := by decide +kernel
  obtain ⟨⟨file, hpack, hfile⟩, hjson, -⟩ :=
    ofFile_pack_and_ofFile_json Payment.sample.genesis hcount hlengths
  refine ⟨hsize, file, hpack, hfile, ?_⟩
  have hread := hjson _ List.mem_cons_self [] Json.blanks_nil
  rwa [List.append_nil] at hread

end AccountSnapshot

end StakeLedger
