import StakeLedger.Proofs.CanonicalText
import StakeLedger.Proofs.Readers
import StakeLedger.Proofs.Selection

/-!
# When the members of an assignment are distinct

A member is added only once, so the assignments that are built have distinct members, however they
are built. One that is read has the members that are listed, as often as they are listed: reading
does not add them.

* `Assignment.offer` adds a member in place, which is what `Assignment.add` does
  (`add_eq_offer`). `Assignment.offers` does so for each identifier of a list, and keeps the first
  of each (`members_offers_empty`).
* `Assignment.listedBytes` and `Assignment.listedTexts` are the identifiers that bytes and JSON
  texts list. An assignment that is read from them has these (`map_bytes_of_ofBytes`,
  `map_text_of_read?`).
* `Assignment.nodup_members` is the main statement, and `Assignment.not_nodup_of_read` are bytes
  and a JSON text that list a member twice.
-/

namespace StakeLedger

namespace Assignment

variable {a b : Assignment} {id : Identifier} {ids : List Identifier} {e : LedgerError}

/-! ## Members that are added -/

/-- The assignment after an attempt to add a member in place, and whether it succeeds. -/
def offer (a : Assignment) (id : Identifier) : Assignment × Except LedgerError Unit :=
  if a.has id then (a, .error (.invalidArgument (.alreadyAssigned id)))
  else (⟨a.members ++ [id]⟩, .ok ())

/-- The assignment after an attempt to add each of some members, one after the other. -/
def offers (a : Assignment) (ids : List Identifier) : Assignment :=
  ids.foldl (fun a id => (a.offer id).1) a

theorem add_eq_offer (a : Assignment) (id : Identifier) :
    a.add id = (a.offer id).2.map fun _ => (a.offer id).1 := by
  rw [add, offer]
  split <;> rfl

theorem has_eq_true_iff : a.has id = true ↔ id ∈ a.members :=
  List.contains_iff_mem

/-- What is a member already is refused, and nothing changes. -/
theorem offer_of_mem (h : id ∈ a.members) :
    a.offer id = (a, .error (.invalidArgument (.alreadyAssigned id))) :=
  if_pos (has_eq_true_iff.mpr h)

theorem offer_of_notMem (h : id ∉ a.members) : a.offer id = (⟨a.members ++ [id]⟩, .ok ()) :=
  if_neg (mt has_eq_true_iff.mp h)

/-- **An attempt that fails leaves the members and their order as they are.** -/
theorem offer_of_add_eq_error (h : a.add id = .error e) : a.offer id = (a, .error e) := by
  by_cases hid : id ∈ a.members
  · rw [add_eq_offer, offer_of_mem hid] at h
    cases h
    exact offer_of_mem hid
  · rw [add_eq_offer, offer_of_notMem hid] at h
    cases h

/-- An attempt keeps the members distinct. -/
theorem nodup_offer (ha : a.members.Nodup) (id : Identifier) : (a.offer id).1.members.Nodup := by
  by_cases hid : id ∈ a.members
  · rw [offer_of_mem hid]
    exact ha
  · rw [offer_of_notMem hid]
    exact List.concat_eq_append ▸ ha.concat hid

/-- **So do any attempts.** -/
theorem nodup_offers (ha : a.members.Nodup) (ids : List Identifier) :
    (a.offers ids).members.Nodup := by
  induction ids generalizing a with
  | nil => exact ha
  | cons id rest ih => exact ih (nodup_offer ha id)

theorem offers_concat (a : Assignment) (ids : List Identifier) (id : Identifier) :
    a.offers (ids ++ [id]) = ((a.offers ids).offer id).1 := by
  rw [offers, offers, List.foldl_append, List.foldl_cons, List.foldl_nil]

/-- **The members are what was offered, each where it came first.** -/
theorem members_offers_empty (ids : List Identifier) :
    (empty.offers ids).members = ids.eraseDups := by
  induction ids using List.reverseRecOn with
  | nil => rfl
  | append_singleton ids id ih =>
    rw [offers_concat, List.eraseDups_append]
    by_cases hid : id ∈ ids
    · have hmem : id ∈ (empty.offers ids).members := by rw [ih, List.mem_eraseDups]; exact hid
      rw [offer_of_mem hmem, ih]
      simp [List.removeAll, hid]
    · have hmem : id ∉ (empty.offers ids).members := by rw [ih, List.mem_eraseDups]; exact hid
      rw [offer_of_notMem hmem, ih]
      simp [List.removeAll, hid, List.eraseDups_cons]

/-- **Members that are selected are distinct.** -/
theorem nodup_of_assign {g : Assigner} {tag : String} {accounts : List Account} {count : Nat}
    (h : g.assign id tag accounts count = .ok a) : a.members.Nodup :=
  (Assigner.assign_eq_ok_iff.mp h).2.2.nodup

/-! ## Members that are listed -/

/-- The records of so many identifiers at the front of bytes. -/
def records : Nat → Bytes → List Bytes
  | 0, _ => []
  | n + 1, input => input.take 32 :: records n (input.drop 32)

/-- The records of the identifiers that bytes list: their number, and then the records. -/
def listedBytes (bytes : Bytes) : List Bytes :=
  match Varint.decode .length bytes with
  | .ok (count, body) => records count body
  | .error _ => []

theorem map_bytes_of_decodeMany {n : Nat} {input rest : Bytes}
    (h : Codec.decodeMany Identifier n input = .ok (ids, rest)) :
    ids.map Identifier.bytes = records n input := by
  induction n generalizing input ids with
  | zero =>
    cases h
    rfl
  | succ n ih =>
    rw [Codec.decodeMany_succ] at h
    obtain ⟨id, middle, hid, h⟩ := Codec.Reader.andThen_eq_ok_iff.mp h
    obtain ⟨more, hmore, rfl⟩ := Codec.Reader.mapValue_eq_ok_iff.mp h
    rw [Codec.decode_identifier_eq_ok_iff.mp hid, List.map_cons, records, ih hmore,
      List.take_left' id.length_eq, List.drop_left' id.length_eq]

/-- **What is read from bytes is what they list.** -/
theorem map_bytes_of_ofBytes {bytes : Bytes} (h : Codec.ofBytes bytes = .ok a) :
    a.members.map Identifier.bytes = listedBytes bytes := by
  have hread := Codec.ofBytes_eq_ok_iff.mp h
  obtain ⟨ids, hids, rfl⟩ := Codec.Reader.mapValue_eq_ok_iff.mp hread
  rw [Codec.decode_list] at hids
  obtain ⟨count, body, hcount, hbody⟩ := Codec.Reader.andThen_eq_ok_iff.mp hids
  rw [map_bytes_of_decodeMany hbody, listedBytes, hcount]

/-- The texts of the identifiers that the form of an assignment lists. -/
def texts? (j : Json) : Option (List String) :=
  match Json.fields? false fieldNames j with
  | some [some (.array items)] => items.mapM Json.text?
  | _ => none

/-- The texts of the identifiers that a JSON text lists. -/
def listedTexts (input : Bytes) : List String :=
  ((Json.parse input).bind texts?).getD []

theorem mapM_text?_of_mapM_ofJson? {items : List Json} (h : items.mapM ofJson? = some ids) :
    items.mapM Json.text? = some (ids.map Identifier.text) := by
  induction items generalizing ids with
  | nil =>
    cases h
    rfl
  | cons item rest ih =>
    rw [List.mapM_cons] at h ⊢
    obtain ⟨id, hid, h⟩ := Option.bind_eq_some_iff.mp h
    obtain ⟨more, hmore, heq⟩ := Option.bind_eq_some_iff.mp h
    cases heq
    rw [Identifier.ofJson?_eq_some_iff.mp hid, ih hmore]
    rfl

/-- Only an array is read as a list. -/
theorem exists_array_of_required? {α : Type} [JsonForm α] {field : Option Json} {as : List α}
    (h : Json.required? field = some as) :
    ∃ items, field = some (.array items) ∧ items.mapM ofJson? = some as := by
  obtain ⟨j, rfl, hj⟩ := Option.bind_eq_some_iff.mp h
  cases j with
  | array items => exact ⟨items, rfl, hj⟩
  | _ => cases hj

theorem texts?_of_ofJson? {j : Json} (h : ofJson? j = some a) :
    texts? j = some (a.members.map Identifier.text) := by
  rw [ofJson?, instJsonForm] at h
  obtain ⟨fields, hfields, h⟩ := Option.bind_eq_some_iff.mp h
  split at h
  · next members =>
    obtain ⟨ids, hids, heq⟩ := Option.bind_eq_some_iff.mp h
    obtain ⟨items, rfl, hitems⟩ := exists_array_of_required? hids
    cases heq
    rw [texts?, hfields]
    exact mapM_text?_of_mapM_ofJson? hitems
  · cases h

/-- **What is read from a JSON text is what it lists.** -/
theorem map_text_of_read? {input : Bytes} (h : Json.read? input = some a) :
    a.members.map Identifier.text = listedTexts input := by
  obtain ⟨j, hj, ha⟩ := Option.bind_eq_some_iff.mp h
  rw [listedTexts, hj, Option.bind_some, texts?_of_ofJson? ha, Option.getD_some]

/-- **When the members of an assignment are distinct.**

* Whatever is added to the empty assignment, its members are distinct: they are what was added,
  each where it came first. To add a member that fails leaves the members and their order as they
  are.
* The members that are selected are distinct.
* The members that are read from bytes or from a JSON text are what is listed there, so they are
  distinct if and only if they are listed once each. -/
theorem nodup_members (a : Assignment) (ids : List Identifier) (input : Bytes) :
    ((empty.offers ids).members.Nodup ∧ (empty.offers ids).members = ids.eraseDups) ∧
    (∀ id e, a.add id = .error e → a.offer id = (a, .error e)) ∧
    (∀ (g : Assigner) id tag accounts count,
      g.assign id tag accounts count = .ok a → a.members.Nodup) ∧
    (Codec.ofBytes input = .ok a →
      a.members.map Identifier.bytes = listedBytes input ∧
        (a.members.Nodup ↔ (listedBytes input).Nodup)) ∧
    (Json.read? input = some a →
      a.members.map Identifier.text = listedTexts input ∧
        (a.members.Nodup ↔ (listedTexts input).Nodup)) := by
  refine ⟨⟨nodup_offers List.nodup_nil ids, members_offers_empty ids⟩,
    fun _ _ => offer_of_add_eq_error, fun _ _ _ _ _ => nodup_of_assign, fun h => ?_, fun h => ?_⟩
  · have hmap := map_bytes_of_ofBytes h
    exact ⟨hmap, hmap ▸ (List.nodup_map_iff fun _ _ => Identifier.ext_bytes).symm⟩
  · have hmap := map_text_of_read? h
    exact ⟨hmap, hmap ▸ (List.nodup_map_iff Identifier.text_injective).symm⟩

/-- Two members that are added, three that are selected, and two that are read. -/
theorem nodup_members_sample :
    let bytes : Bytes := 2 :: (List.replicate 63 0 ++ [1])
    let text := Utf8.ofString ("\x7b\"members\":[\"z11111111111111111111111111111112\"," ++
      "\"z11111111111111111111111111111111\"]\x7d")
    (empty.offers [.zero, Assigner.numeral 1, .zero]).members = [.zero, Assigner.numeral 1] ∧
      (⟨[.zero]⟩ : Assignment).offer .zero =
        (⟨[.zero]⟩, .error (.invalidArgument (.alreadyAssigned .zero))) ∧
      (∃ a, Assigner.counting.assign .zero "tag" Assigner.electorate 3 = .ok a ∧
        a.members.Nodup) ∧
      (∃ a : Assignment, Codec.ofBytes bytes = .ok a ∧ a.members.Nodup) ∧
      ∃ a : Assignment, Json.read? text = some a ∧ a.members.Nodup := by
  intro bytes text
  have hbytes : Codec.ofBytes bytes = .ok (⟨[.zero, Assigner.numeral 1]⟩ : Assignment) := by
    decide +kernel
  have htext : Json.read? text = some (⟨[Assigner.numeral 1, .zero]⟩ : Assignment) := by
    decide +kernel
  have hassign : Assigner.counting.assign .zero "tag" Assigner.electorate 3 =
      .ok ⟨[Assigner.numeral 7, Assigner.numeral 2, Assigner.numeral 5]⟩ := by decide +kernel
  obtain ⟨⟨-, hmembers⟩, hadd, -⟩ :=
    nodup_members ⟨[.zero]⟩ [.zero, Assigner.numeral 1, .zero] []
  obtain ⟨-, -, hselected, -⟩ := nodup_members _ [] []
  obtain ⟨-, -, -, hlisted, -⟩ := nodup_members _ [] bytes
  obtain ⟨-, -, -, -, htexts⟩ := nodup_members _ [] text
  refine ⟨hmembers.trans (by decide), hadd _ _ (by decide),
    ⟨_, hassign, hselected _ _ _ _ _ hassign⟩, ⟨_, hbytes, ?_⟩, _, htext, ?_⟩
  · exact (hlisted hbytes).2.mpr (by decide +kernel)
  · exact (htexts htext).2.mpr (by decide +kernel)

/-- **A member that is listed twice is read twice.** -/
theorem not_nodup_of_read :
    ∃ a : Assignment, Codec.ofBytes (2 :: List.replicate 64 0) = .ok a ∧
      Json.read? (Utf8.ofString ("\x7b\"members\":[\"z11111111111111111111111111111111\"," ++
        "\"z11111111111111111111111111111111\"]\x7d")) = some a ∧
      ¬ a.members.Nodup :=
  ⟨⟨[.zero, .zero]⟩, by decide +kernel, by decide +kernel, by decide⟩

end Assignment

end StakeLedger
