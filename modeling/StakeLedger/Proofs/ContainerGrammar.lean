import Mathlib.Data.List.Forall2
import StakeLedger.Proofs.Readers
import StakeLedger.Proofs.SnapshotFiles

/-!
# Which files are snapshot containers

A container is accepted exactly if it is built as it should be: its parts stand one after the
other, each record is read as an account, no two accounts have the same identifier, and the stored
root is that of the accounts. Everything else is refused, and the kind of the refusal says whether
an identifier was repeated or whether bytes could not be read.

* `Container.Parts` are the parts of a container and `Container.Parts.bytes` is the file that they
  make up; `Container.Parts.Holds` says that the records are those of some accounts.
* `Container.decode_eq` divides the reader into front, records and end. Each of the three has an
  equivalence that says what it accepts (`takeFront_eq_ok_iff`, `exists_records` with
  `takeRecords_frames`, `finish_eq_ok_iff`).
* `Container.decode_grammar` is the main statement.
-/

namespace StakeLedger

/-! ## Collecting accounts -/

namespace SnapshotBuilder

theorem addAll_cons (b : SnapshotBuilder) (a : Account) (accounts : List Account) :
    b.addAll (a :: accounts) = b.add a >>= fun b => b.addAll accounts := by
  rw [addAll]
  cases b.add a <;> rfl

theorem add_eq_ok_iff {b b' : SnapshotBuilder} {a : Account} :
    b.add a = .ok b' ↔ b.accounts.find? a.identifier = none ∧
      b' = { b with accounts := b.accounts.insert a } := by
  rw [add, SortedBy.contains]
  cases b.accounts.find? a.identifier <;> simp [eq_comm]

theorem add_eq_error {b : SnapshotBuilder} {a : Account} {e : LedgerError}
    (h : b.add a = .error e) : e = .invalidArgument (.duplicateAccount a.identifier) := by
  rw [add] at h
  split at h
  · exact (Except.error.inj h).symm
  · cases h

/-- Accounts are collected only if their identifiers are new and differ. -/
theorem nodup_of_addAll {b b' : SnapshotBuilder} {accounts : List Account}
    (h : b.addAll accounts = .ok b') :
    (accounts.map Account.identifier).Nodup ∧
      ∀ a ∈ accounts, b.accounts.find? a.identifier = none := by
  induction accounts generalizing b with
  | nil => exact ⟨.nil, nofun⟩
  | cons a accounts ih =>
    rw [addAll_cons, bind_eq_ok_iff] at h
    obtain ⟨next, hadd, hrest⟩ := h
    obtain ⟨hnew, rfl⟩ := add_eq_ok_iff.mp hadd
    obtain ⟨hnodup, hlater⟩ := ih hrest
    simp only [SortedBy.find?_insert] at hlater
    have hne : ∀ c ∈ accounts, a.identifier ≠ c.identifier := fun c hc heq => by
      have hnone := hlater c hc
      rw [if_pos heq] at hnone
      cases hnone
    rw [List.map_cons, List.nodup_cons, List.forall_mem_cons]
    refine ⟨⟨?_, hnodup⟩, hnew, fun c hc => ?_⟩
    · intro hmem
      obtain ⟨c, hc, heq⟩ := List.mem_map.mp hmem
      exact hne c hc heq.symm
    · have hnone := hlater c hc
      rwa [if_neg (hne c hc)] at hnone

theorem addAll_eq_error {b : SnapshotBuilder} {accounts : List Account} {e : LedgerError}
    (h : b.addAll accounts = .error e) : ∃ id, e = .invalidArgument (.duplicateAccount id) := by
  induction accounts generalizing b with
  | nil => cases h
  | cons a accounts ih =>
    rw [addAll_cons, bind_eq_error_iff] at h
    rcases h with hadd | ⟨next, -, hrest⟩
    · exact ⟨a.identifier, add_eq_error hadd⟩
    · exact ih hrest

theorem addAll_empty_of_nodup (blockId : Identifier) (height : UInt64) {accounts : List Account}
    (hnodup : (accounts.map Account.identifier).Nodup) :
    addAll ⟨blockId, height, .empty⟩ accounts = .ok ⟨blockId, height, .ofList accounts⟩ :=
  addAll_of_nodup hnodup fun _ _ => rfl

theorem addAll_of_not_nodup (b : SnapshotBuilder) {accounts : List Account}
    (hrepeat : ¬ (accounts.map Account.identifier).Nodup) :
    ∃ id, b.addAll accounts = .error (.invalidArgument (.duplicateAccount id)) := by
  cases h : b.addAll accounts with
  | ok b' => exact absurd (nodup_of_addAll h).1 hrepeat
  | error e =>
    obtain ⟨id, rfl⟩ := addAll_eq_error h
    exact ⟨id, rfl⟩

end SnapshotBuilder

/-! ## Accounts in any order -/

namespace SortedBy

variable {α κ : Type} [Ord κ] [Std.TransOrd κ] [Std.LawfulEqOrd κ] [DecidableEq κ] {key : α → κ}

theorem mem_ofList_iff {items : List α} (hnodup : (items.map key).Nodup) {a : α} :
    a ∈ (ofList items : SortedBy key).items ↔ a ∈ items := by
  have hmem {b : α} (hb : b ∈ (ofList items : SortedBy key).items) : b ∈ items :=
    (mem_of_mem_insertAll hb).resolve_left nofun
  refine ⟨hmem, fun ha => ?_⟩
  have hkey : key a ∈ (ofList items : SortedBy key).keys :=
    mem_keys_insertAll.mpr (.inl (List.mem_map_of_mem ha))
  obtain ⟨b, hb, heq⟩ := List.mem_map.mp hkey
  rwa [List.inj_on_of_nodup_map hnodup (hmem hb) ha heq] at hb

/-- Of items with different keys none is lost. -/
theorem perm_ofList {items : List α} (hnodup : (items.map key).Nodup) :
    (ofList items : SortedBy key).items.Perm items :=
  (List.perm_ext_iff_of_nodup (nodup_keys _).of_map hnodup.of_map).mpr fun _ =>
    mem_ofList_iff hnodup

omit [Std.TransOrd κ] [Std.LawfulEqOrd κ] [DecidableEq κ] in
theorem pairwise_keys (s : SortedBy key) : s.keys.Pairwise fun k l => compare k l = .lt :=
  List.pairwise_map.mpr s.ascending

omit [DecidableEq κ] in
/-- Collections with the same keys have them in the same order. -/
theorem keys_eq_of_mem_iff {s t : SortedBy key} (h : ∀ k, k ∈ s.keys ↔ k ∈ t.keys) :
    s.keys = t.keys := by
  have hperm : s.keys.Perm t.keys :=
    (List.perm_ext_iff_of_nodup s.nodup_keys t.nodup_keys).mpr h
  refine hperm.eq_of_pairwise (fun k l _ _ hkl hlk => ?_) s.pairwise_keys t.pairwise_keys
  exact absurd (Std.TransCmp.lt_trans hkl hlk) (by simp)

end SortedBy

/-- The root over accounts does not depend on their order. -/
theorem MerkleTree.root_ofAccounts_congr (h : Hasher) {accounts others : List Account}
    (hmem : ∀ a, a ∈ accounts ↔ a ∈ others) :
    (ofAccounts h accounts).root = (ofAccounts h others).root := by
  have hkeys : (ofAccounts h accounts).entries.keys = (ofAccounts h others).entries.keys := by
    refine SortedBy.keys_eq_of_mem_iff fun id => ?_
    simp only [ofAccounts, ofEntries, SortedBy.ofList, SortedBy.mem_keys_insertAll, List.map_map,
      List.mem_map, hmem]
  calc (ofAccounts h accounts).root
      = Merkle.top (Merkle.levels h (ofAccounts h accounts).entries.keys) := rfl
    _ = Merkle.top (Merkle.levels h (ofAccounts h others).entries.keys) := by rw [hkeys]
    _ = (ofAccounts h others).root := rfl

namespace Container

/-! ## The parts of a container -/

/-- A record with its length in front. -/
def frame (record : Bytes) : Bytes :=
  Bytes.littleEndian 4 record.length ++ record

/-- What stands before the records. -/
def front (blockId : Identifier) (height : UInt64) (count : Nat) : Bytes :=
  magic ++ (Bytes.littleEndian 4 schemaVersion ++
    (blockId.bytes ++ (Bytes.littleEndian 8 height.toNat ++ Bytes.littleEndian 4 count)))

/-- The parts of a container. -/
structure Parts where
  blockId : Identifier
  height : UInt64
  /-- The records without their lengths. -/
  records : List Bytes
  root : Identifier

/-- The container with the given parts. -/
def Parts.bytes (p : Parts) : Bytes :=
  front p.blockId p.height p.records.length ++ (p.records.flatMap frame ++ p.root.bytes)

/-- Whether a record is short enough for its length to be written, and all of it is read as an
account. -/
def HoldsAccount (record : Bytes) (a : Account) : Prop :=
  record.length < UInt32.size ∧ Codec.ofBytes record = .ok a

/-- Whether the records of a container are those of the given accounts, in this order, and no two of
these have the same identifier. -/
structure Parts.Holds (p : Parts) (accounts : List Account) : Prop where
  count_lt : p.records.length < UInt32.size
  records : List.Forall₂ HoldsAccount p.records accounts
  nodup : (accounts.map Account.identifier).Nodup

/-- Whether the records of a file, or the first ones of them, are those of accounts of which two
have the same identifier. -/
def RepeatsIdentifier (input : Bytes) : Prop :=
  ∃ blockId height count records accounts rest,
    input = front blockId height count ++ (records.flatMap frame ++ rest) ∧
      count < UInt32.size ∧ records.length ≤ count ∧
      List.Forall₂ HoldsAccount records accounts ∧
      ¬ (accounts.map Account.identifier).Nodup

/-! ## What is taken from the front -/

section Steps

variable {input rest : Bytes}

theorem take_eq_ok_iff {n : Nat} {first : Bytes} :
    take n input = .ok (first, rest) ↔ input = first ++ rest ∧ first.length = n := by
  rw [← Bytes.split?_eq_some_iff, take]
  cases Bytes.split? n input <;> simp

theorem takeNumber_eq_ok_iff {width n : Nat} :
    takeNumber width input = .ok (n, rest) ↔
      n < 256 ^ width ∧ input = Bytes.littleEndian width n ++ rest := by
  constructor
  · intro h
    obtain ⟨⟨digits, left⟩, hdigits, heq⟩ := exists_of_map_eq_ok h
    obtain ⟨rfl, rfl⟩ := Prod.mk.inj heq
    obtain ⟨rfl, rfl⟩ := take_eq_ok_iff.mp hdigits
    exact ⟨Bytes.ofLittleEndian_lt digits, by rw [Bytes.littleEndian_ofLittleEndian]⟩
  · rintro ⟨hn, rfl⟩
    exact takeNumber_append_of_lt hn rest

theorem takeIdentifier_eq_ok_iff {x : Identifier} :
    takeIdentifier input = .ok (x, rest) ↔ input = x.bytes ++ rest := by
  constructor
  · intro h
    rw [takeIdentifier] at h
    split at h
    · next y hy =>
      cases h
      rw [Identifier.bytes_of_ofBytes? hy, List.take_append_drop]
    · cases h
  · rintro rfl
    exact takeIdentifier_append x rest

theorem takeHeader_eq_ok_iff :
    takeHeader input = .ok rest ↔
      input = magic ++ (Bytes.littleEndian 4 schemaVersion ++ rest) := by
  constructor
  · intro h
    rw [takeHeader, bind_eq_ok_iff] at h
    obtain ⟨⟨first, left⟩, hfirst, h⟩ := h
    obtain ⟨rfl, -⟩ := take_eq_ok_iff.mp hfirst
    simp only at h
    split at h
    · cases h
    · next hmagic =>
      rw [bind_eq_ok_iff] at h
      obtain ⟨⟨version, left⟩, hversion, h⟩ := h
      obtain ⟨-, rfl⟩ := takeNumber_eq_ok_iff.mp hversion
      simp only at h
      split at h
      · cases h
      · next hschema =>
        cases h
        rw [not_not.mp hmagic, not_not.mp hschema]
  · rintro rfl
    exact takeHeader_append rest

theorem takeRecord_eq_ok_iff {a : Account} :
    takeRecord input = .ok (a, rest) ↔
      ∃ record, HoldsAccount record a ∧ input = frame record ++ rest := by
  constructor
  · intro h
    rw [takeRecord, bind_eq_ok_iff] at h
    obtain ⟨⟨length, left⟩, hlength, h⟩ := h
    obtain ⟨hlt, rfl⟩ := takeNumber_eq_ok_iff.mp hlength
    simp only at h
    split at h
    · cases h
    · next record left hsplit =>
      obtain ⟨rfl, rfl⟩ := Bytes.split?_eq_some_iff.mp hsplit
      rw [bind_eq_ok_iff] at h
      obtain ⟨a', ha, h⟩ := h
      cases h
      exact ⟨record, ⟨hlt, Codec.read_eq_ok_iff.mp ha⟩, by rw [frame, List.append_assoc]⟩
  · rintro ⟨record, ⟨hlt, ha⟩, rfl⟩
    have hlength : record.length < 256 ^ 4 := hlt
    rw [takeRecord, frame, List.append_assoc, takeNumber_append_of_lt hlength]
    simp only [bind, Except.bind, Bytes.split?_eq_some_iff.mpr ⟨rfl, rfl⟩,
      Codec.read_eq_ok_iff.mpr ha, pure, Except.pure]

end Steps

/-! ## Front, records and end -/

/-- What stands before the records, and what follows it. -/
def takeFront (input : Bytes) : Except LedgerError ((Identifier × UInt64 × Nat) × Bytes) := do
  let rest ← takeHeader input
  let (blockId, rest) ← takeIdentifier rest
  let (height, rest) ← takeNumber 8 rest
  let (count, rest) ← takeNumber 4 rest
  return ((blockId, UInt64.ofNat height, count), rest)

/-- The snapshot of the collected accounts, if the stored root is its root and ends the file. -/
def finish (h : Hasher) (b : SnapshotBuilder) (input : Bytes) :
    Except LedgerError AccountSnapshot := do
  let (stored, rest) ← takeIdentifier input
  if !rest.isEmpty then .error (.codec .containerTrailing)
  else if (b.sealed h).accountsRoot ≠ stored then
    .error (.codec (.rootMismatch stored (b.sealed h).accountsRoot))
  else return b.sealed h

theorem decode_eq (input : Bytes) (h : Hasher) :
    decode input h = (do
      let ((blockId, height, count), rest) ← takeFront input
      let (b, rest) ← takeRecords ⟨blockId, height, .empty⟩ count rest
      finish h b rest) := by
  simp only [decode, takeFront, finish, SnapshotBuilder.build_eq, bind_assoc, pure_bind]
  rfl

variable {input rest : Bytes} {h : Hasher} {b : SnapshotBuilder}

theorem takeFront_eq_ok_iff {blockId : Identifier} {height : UInt64} {count : Nat} :
    takeFront input = .ok ((blockId, height, count), rest) ↔
      count < UInt32.size ∧ input = front blockId height count ++ rest := by
  constructor
  · intro h
    rw [takeFront, bind_eq_ok_iff] at h
    obtain ⟨left, hheader, h⟩ := h
    rw [bind_eq_ok_iff] at h
    obtain ⟨⟨x, left⟩, hx, h⟩ := h
    rw [bind_eq_ok_iff] at h
    obtain ⟨⟨digits, left⟩, hdigits, h⟩ := h
    rw [bind_eq_ok_iff] at h
    obtain ⟨⟨n, left⟩, hn, h⟩ := h
    cases h
    obtain rfl := takeHeader_eq_ok_iff.mp hheader
    obtain rfl := takeIdentifier_eq_ok_iff.mp hx
    obtain ⟨hlt, rfl⟩ := takeNumber_eq_ok_iff.mp hdigits
    obtain ⟨hcount, rfl⟩ := takeNumber_eq_ok_iff.mp hn
    have hheight : (UInt64.ofNat digits).toNat = digits := UInt64.toNat_ofNat_of_lt' hlt
    exact ⟨hcount, by simp only [front, hheight, List.append_assoc]⟩
  · rintro ⟨hcount, rfl⟩
    have hheight : height.toNat < 256 ^ 8 := height.toNat_lt
    have hlt : count < 256 ^ 4 := hcount
    simp only [takeFront, front, List.append_assoc, takeHeader_append, takeIdentifier_append,
      takeNumber_append_of_lt hheight, takeNumber_append_of_lt hlt, bind, Except.bind, pure,
      Except.pure, UInt64.ofNat_toNat]

theorem finish_eq_ok_iff {s : AccountSnapshot} :
    finish h b input = .ok s ↔ input = (b.sealed h).accountsRoot.bytes ∧ s = b.sealed h := by
  constructor
  · intro hs
    rw [finish, bind_eq_ok_iff] at hs
    obtain ⟨⟨stored, rest⟩, hstored, hs⟩ := hs
    obtain rfl := takeIdentifier_eq_ok_iff.mp hstored
    simp only at hs
    split at hs
    · cases hs
    · next hrest =>
      split at hs
      · cases hs
      · next hroot =>
        cases hs
        rw [not_not.mp hroot]
        simpa using hrest
  · rintro ⟨rfl, rfl⟩
    rw [finish, ← List.append_nil (Identifier.bytes _), takeIdentifier_append]
    simp [bind, Except.bind, pure, Except.pure]

/-- Bytes after the stored root are refused. -/
theorem finish_append (root : Identifier) (hrest : rest ≠ []) :
    finish h b (root.bytes ++ rest) = .error (.codec .containerTrailing) := by
  rw [finish, takeIdentifier_append]
  simp [bind, Except.bind, hrest]

/-- The records of accounts are read by adding the accounts. -/
theorem takeRecords_frames {records : List Bytes} {accounts : List Account}
    (hrecords : List.Forall₂ HoldsAccount records accounts) (b : SnapshotBuilder) {n : Nat}
    (hn : records.length ≤ n) (rest : Bytes) :
    takeRecords b n (records.flatMap frame ++ rest) =
      b.addAll accounts >>= fun b => takeRecords b (n - records.length) rest := by
  induction hrecords generalizing b n with
  | nil => rfl
  | @cons record a records accounts ha hrest ih =>
    cases n with
    | zero => cases hn
    | succ n =>
      have hread : takeRecord (frame record ++ (records.flatMap frame ++ rest)) =
          .ok (a, records.flatMap frame ++ rest) := takeRecord_eq_ok_iff.mpr ⟨record, ha, rfl⟩
      have hadd (b : SnapshotBuilder) : takeRecords b n (records.flatMap frame ++ rest) =
          b.addAll accounts >>= fun b => takeRecords b (n + 1 - (records.length + 1)) rest := by
        rw [ih b (Nat.le_of_succ_le_succ hn), Nat.add_sub_add_right]
      rw [List.flatMap_cons, List.append_assoc, takeRecords, hread, SnapshotBuilder.addAll_cons,
        bind_assoc, List.length_cons]
      exact congrArg (b.add a >>= ·) (funext hadd)

/-! ## Refusals -/

/-- Whether a step fails only because something cannot be read. -/
def FailsByCodec {α : Type} (x : Except LedgerError α) : Prop :=
  ∀ e, x = .error e → ∃ fault, e = .codec fault

namespace FailsByCodec

variable {α β : Type} {x : Except LedgerError α}

theorem of_ok (a : α) : FailsByCodec (.ok a) := nofun

theorem of_fault (fault : CodecFault) : FailsByCodec (α := α) (.error (.codec fault)) := by
  intro e he
  cases he
  exact ⟨fault, rfl⟩

theorem bind {f : α → Except LedgerError β} (hx : FailsByCodec x) (hf : ∀ a, FailsByCodec (f a)) :
    FailsByCodec (x >>= f) := by
  intro e he
  rcases bind_eq_error_iff.mp he with he | ⟨a, -, he⟩
  · exact hx e he
  · exact hf a e he

theorem take (n : Nat) (input : Bytes) : FailsByCodec (take n input) := by
  unfold Container.take
  split
  · exact .of_ok _
  · exact .of_fault _

theorem takeNumber (width : Nat) (input : Bytes) : FailsByCodec (takeNumber width input) :=
  (take width input).bind fun parts => .of_ok (Bytes.ofLittleEndian parts.1, parts.2)

theorem takeIdentifier (input : Bytes) : FailsByCodec (takeIdentifier input) := by
  unfold Container.takeIdentifier
  split
  · exact .of_ok _
  · exact .of_fault _

theorem read [Codec α] [Codec.Robust α] (bytes : Bytes) :
    FailsByCodec (Codec.read (α := α) bytes) := by
  intro e he
  have hread := Codec.read_eq_error_iff.mp he
  rw [Codec.ofBytes] at hread
  split at hread
  · next fault _ =>
    cases fault with
    | unaddressable length => cases hread
    | refused cause =>
      cases hread
      exact ⟨_, rfl⟩
  · cases hread
  · cases hread
    exact ⟨_, rfl⟩

theorem takeHeader (input : Bytes) : FailsByCodec (takeHeader input) := by
  refine (take 4 input).bind fun parts => ?_
  obtain ⟨first, rest⟩ := parts
  simp only
  split
  · exact .of_fault _
  · refine (takeNumber 4 rest).bind fun version => ?_
    split
    · exact .of_fault _
    · exact .of_ok _

theorem takeFront (input : Bytes) : FailsByCodec (takeFront input) :=
  (takeHeader input).bind fun rest => (takeIdentifier rest).bind fun blockId =>
    (takeNumber 8 blockId.2).bind fun height => (takeNumber 4 height.2).bind fun _ => .of_ok _

theorem takeRecord (input : Bytes) : FailsByCodec (takeRecord input) := by
  refine (takeNumber 4 input).bind fun parts => ?_
  obtain ⟨length, rest⟩ := parts
  simp only
  split
  · exact .of_fault _
  · exact (read _).bind fun _ => .of_ok _

theorem finish (h : Hasher) (b : SnapshotBuilder) (input : Bytes) :
    FailsByCodec (finish h b input) := by
  refine (takeIdentifier input).bind fun parts => ?_
  obtain ⟨stored, rest⟩ := parts
  simp only
  split
  · exact .of_fault _
  · split
    · exact .of_fault _
    · exact .of_ok _

end FailsByCodec

/-! ## What happens to a file -/

/-- **What stands at the front is read as records as far as possible:** up to the given number, or
until what follows is none. -/
theorem exists_records (n : Nat) (input : Bytes) :
    ∃ records accounts rest, input = records.flatMap frame ++ rest ∧
      List.Forall₂ HoldsAccount records accounts ∧
        (records.length = n ∨
          records.length < n ∧ ∃ fault, takeRecord rest = .error (.codec fault)) := by
  induction n generalizing input with
  | zero => exact ⟨[], [], input, rfl, .nil, .inl rfl⟩
  | succ n ih =>
    cases hrecord : takeRecord input with
    | error e =>
      obtain ⟨fault, rfl⟩ := FailsByCodec.takeRecord input e hrecord
      exact ⟨[], [], input, rfl, .nil, .inr ⟨Nat.zero_lt_succ n, fault, hrecord⟩⟩
    | ok parts =>
      obtain ⟨a, rest⟩ := parts
      obtain ⟨record, ha, rfl⟩ := takeRecord_eq_ok_iff.mp hrecord
      obtain ⟨records, accounts, left, rfl, hrecords, hend⟩ := ih rest
      refine ⟨record :: records, a :: accounts, left, ?_, .cons ha hrecords, ?_⟩
      · rw [List.flatMap_cons, List.append_assoc]
      · exact hend.imp (congrArg Nat.succ) (And.imp_left Nat.succ_lt_succ)

/-- A container with records that can be read is judged by what follows them. -/
theorem decode_of_holds {p : Parts} {accounts : List Account} (hp : p.Holds accounts)
    (h : Hasher) (rest : Bytes) :
    decode (front p.blockId p.height p.records.length ++ (p.records.flatMap frame ++ rest)) h =
      finish h ⟨p.blockId, p.height, .ofList accounts⟩ rest := by
  rw [decode_eq, takeFront_eq_ok_iff.mpr ⟨hp.count_lt, rfl⟩]
  simp only [bind, Except.bind]
  rw [takeRecords_frames hp.records _ (Nat.le_refl _),
    SnapshotBuilder.addAll_empty_of_nodup p.blockId p.height hp.nodup, Nat.sub_self]
  rfl

theorem decode_of_repeatsIdentifier (hinput : RepeatsIdentifier input) (h : Hasher) :
    ∃ id, decode input h = .error (.invalidArgument (.duplicateAccount id)) := by
  obtain ⟨blockId, height, count, records, accounts, rest, rfl, hcount, hle, hrecords, hrepeat⟩ :=
    hinput
  obtain ⟨id, hadd⟩ := SnapshotBuilder.addAll_of_not_nodup ⟨blockId, height, .empty⟩ hrepeat
  refine ⟨id, ?_⟩
  rw [decode_eq, takeFront_eq_ok_iff.mpr ⟨hcount, rfl⟩]
  simp only [bind, Except.bind]
  rw [takeRecords_frames hrecords _ hle, hadd]
  rfl

/-- **A file cannot be read, or repeats an identifier, or has as many records as it says.** -/
theorem decode_cases (input : Bytes) (h : Hasher) :
    (∃ fault, decode input h = .error (.codec fault)) ∨ RepeatsIdentifier input ∨
      ∃ p accounts rest, Parts.Holds p accounts ∧
        input = front p.blockId p.height p.records.length ++ (p.records.flatMap frame ++ rest) := by
  cases hfront : takeFront input with
  | error e =>
    obtain ⟨fault, rfl⟩ := FailsByCodec.takeFront input e hfront
    exact .inl ⟨fault, by rw [decode_eq, hfront]; rfl⟩
  | ok parts =>
    obtain ⟨⟨blockId, height, count⟩, rest⟩ := parts
    obtain ⟨hcount, rfl⟩ := takeFront_eq_ok_iff.mp hfront
    obtain ⟨records, accounts, left, rfl, hrecords, hend⟩ := exists_records count rest
    by_cases hnodup : (accounts.map Account.identifier).Nodup
    · rcases hend with rfl | ⟨hlt, fault, hrecord⟩
      · exact .inr (.inr ⟨⟨blockId, height, records, .zero⟩, accounts, left,
          ⟨hcount, hrecords, hnodup⟩, rfl⟩)
      · obtain ⟨missing, hmissing⟩ : ∃ missing, count - records.length = missing + 1 :=
          ⟨count - records.length - 1, by omega⟩
        refine .inl ⟨fault, ?_⟩
        rw [decode_eq, hfront]
        simp only [bind, Except.bind]
        rw [takeRecords_frames hrecords _ (Nat.le_of_lt hlt),
          SnapshotBuilder.addAll_empty_of_nodup blockId height hnodup, hmissing]
        simp only [bind, Except.bind, takeRecords, hrecord]
    · have hle : records.length ≤ count := by omega
      exact .inr (.inl ⟨blockId, height, count, records, accounts, left, rfl, hcount, hle, hrecords,
        hnodup⟩)

/-! ## What is accepted -/

/-- Whether a container is accepted as a snapshot under a hash function: its records are those of
accounts, no two with the same identifier, the root is the root over them, and the snapshot has the
block and the height of the container and exactly these accounts. -/
def Parts.Describes (p : Parts) (h : Hasher) (s : AccountSnapshot) : Prop :=
  ∃ accounts, p.Holds accounts ∧ p.root = (MerkleTree.ofAccounts h accounts).root ∧
    s.hasher = h ∧ s.blockId = p.blockId ∧ s.height = p.height ∧ ∀ a, a ∈ s.all ↔ a ∈ accounts

theorem accountsRoot_sealed_ofList {blockId : Identifier} {height : UInt64}
    {accounts : List Account} (hnodup : (accounts.map Account.identifier).Nodup) :
    (SnapshotBuilder.sealed ⟨blockId, height, .ofList accounts⟩ h).accountsRoot =
      (MerkleTree.ofAccounts h accounts).root :=
  MerkleTree.root_ofAccounts_congr h fun _ => SortedBy.mem_ofList_iff hnodup

theorem describes_iff {p : Parts} {accounts : List Account} (hp : p.Holds accounts)
    {s : AccountSnapshot} :
    finish h ⟨p.blockId, p.height, .ofList accounts⟩ p.root.bytes = .ok s ↔
      p.root = (MerkleTree.ofAccounts h accounts).root ∧ s.hasher = h ∧ s.blockId = p.blockId ∧
        s.height = p.height ∧ ∀ a, a ∈ s.all ↔ a ∈ accounts := by
  have hmem (a : Account) : a ∈ (SortedBy.ofList accounts : Accounts).items ↔ a ∈ accounts :=
    SortedBy.mem_ofList_iff hp.nodup
  rw [finish_eq_ok_iff, accountsRoot_sealed_ofList hp.nodup]
  constructor
  · rintro ⟨hroot, rfl⟩
    exact ⟨Identifier.ext_bytes hroot, rfl, rfl, rfl, hmem⟩
  · rintro ⟨hroot, hhasher, hblock, hheight, hall⟩
    refine ⟨congrArg Identifier.bytes hroot, ?_⟩
    exact AccountSnapshot.eq_of_accounts_eq hhasher hblock hheight
      (SortedBy.ext_mem fun a => (hall a).trans (hmem a).symm)

theorem decode_bytes {p : Parts} {accounts : List Account} (hp : p.Holds accounts)
    (hroot : p.root = (MerkleTree.ofAccounts h accounts).root) :
    decode p.bytes h = .ok (SnapshotBuilder.sealed ⟨p.blockId, p.height, .ofList accounts⟩ h) := by
  rw [Parts.bytes, decode_of_holds hp, finish_eq_ok_iff, accountsRoot_sealed_ofList hp.nodup, hroot]
  exact ⟨rfl, rfl⟩

theorem decode_eq_ok_iff {s : AccountSnapshot} :
    decode input h = .ok s ↔ ∃ p : Parts, input = p.bytes ∧ p.Describes h s := by
  constructor
  · intro hs
    rcases decode_cases input h with ⟨fault, hfault⟩ | hrepeats | ⟨p, accounts, rest, hp, rfl⟩
    · rw [hfault] at hs
      cases hs
    · obtain ⟨id, hid⟩ := decode_of_repeatsIdentifier hrepeats h
      rw [hid] at hs
      cases hs
    · rw [decode_of_holds hp] at hs
      obtain ⟨hroot, -⟩ := finish_eq_ok_iff.mp hs
      obtain ⟨root, rfl⟩ : ∃ root : Identifier, rest = root.bytes := ⟨_, hroot⟩
      have hholds : Parts.Holds { p with root := root } accounts :=
        ⟨hp.count_lt, hp.records, hp.nodup⟩
      exact ⟨{ p with root := root }, rfl, accounts, hholds, (describes_iff hholds).mp hs⟩
  · rintro ⟨p, rfl, accounts, hp, hs⟩
    rw [Parts.bytes, decode_of_holds hp]
    exact (describes_iff hp).mpr hs

theorem decode_append_of_ok {s : AccountSnapshot} (hs : decode input h = .ok s) {back : Bytes}
    (hback : back ≠ []) : decode (input ++ back) h = .error (.codec .containerTrailing) := by
  obtain ⟨p, rfl, accounts, hp, -⟩ := decode_eq_ok_iff.mp hs
  rw [Parts.bytes, List.append_assoc, List.append_assoc, decode_of_holds hp]
  exact finish_append p.root hback

theorem RepeatsIdentifier.append (hinput : RepeatsIdentifier input) (back : Bytes) :
    RepeatsIdentifier (input ++ back) := by
  obtain ⟨blockId, height, count, records, accounts, rest, rfl, hrepeat⟩ := hinput
  exact ⟨blockId, height, count, records, accounts, rest ++ back, by simp only [List.append_assoc],
    hrepeat⟩

theorem decode_error_cases (input : Bytes) (h : Hasher) {e : LedgerError}
    (he : decode input h = .error e) :
    (∃ fault, e = .codec fault) ∨
      RepeatsIdentifier input ∧ ∃ id, e = .invalidArgument (.duplicateAccount id) := by
  rcases decode_cases input h with ⟨fault, hfault⟩ | hrepeats | ⟨p, accounts, rest, hp, rfl⟩
  · rw [hfault] at he
    exact .inl ⟨fault, (Except.error.inj he).symm⟩
  · obtain ⟨id, hid⟩ := decode_of_repeatsIdentifier hrepeats h
    rw [hid] at he
    exact .inr ⟨hrepeats, id, (Except.error.inj he).symm⟩
  · rw [decode_of_holds hp] at he
    exact .inl (FailsByCodec.finish _ _ _ e he)

/-- **Which files are accepted, and how the others are refused.** A file is read as a snapshot
exactly if it is a container of which the records are those of accounts with different identifiers,
and the root is the root over these; the snapshot then has the block, the height and the accounts of
the container. A file is refused because it cannot be read or because its records, as far as they
can be read, repeat an identifier, and the error says which. Of an accepted file no proper part at
the front is accepted, and nothing that goes on after it. -/
theorem decode_grammar (input : Bytes) (h : Hasher) :
    (∀ s, decode input h = .ok s ↔ ∃ p : Parts, input = p.bytes ∧ p.Describes h s) ∧
    (∀ e, decode input h = .error e →
      (∃ fault, e = .codec fault) ∨ ∃ id, e = .invalidArgument (.duplicateAccount id)) ∧
    ((∃ id, decode input h = .error (.invalidArgument (.duplicateAccount id))) ↔
      RepeatsIdentifier input) ∧
    (∀ s, decode input h = .ok s →
      (∀ back, back ≠ [] → decode (input ++ back) h = .error (.codec .containerTrailing)) ∧
      (∀ front back, input = front ++ back → back ≠ [] →
        ∃ fault, decode front h = .error (.codec fault))) := by
  refine ⟨fun s => decode_eq_ok_iff, fun e he => ?_, ⟨fun ⟨id, hid⟩ => ?_, fun hrepeats => ?_⟩,
    fun s hs => ⟨fun back hback => decode_append_of_ok hs hback, ?_⟩⟩
  · exact (decode_error_cases input h he).imp_right And.right
  · rcases decode_error_cases input h hid with ⟨fault, hfault⟩ | ⟨hrepeats, -⟩
    · cases hfault
    · exact hrepeats
  · exact decode_of_repeatsIdentifier hrepeats h
  · rintro front back rfl hback
    cases hfront : decode front h with
    | ok t =>
      rw [decode_append_of_ok hfront hback] at hs
      cases hs
    | error e =>
      rcases decode_error_cases front h hfront with ⟨fault, rfl⟩ | ⟨hrepeats, -⟩
      · exact ⟨fault, rfl⟩
      · obtain ⟨id, hid⟩ := decode_of_repeatsIdentifier (hrepeats.append back) h
        rw [hid] at hs
        cases hs

end Container

end StakeLedger
