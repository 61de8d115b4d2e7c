import Mathlib.Data.List.TakeWhile
import StakeLedger.Identifier.Parse
import StakeLedger.Proofs.Outcomes

/-!
# The text of an identifier is read back

* `Radix.convert` writes a numeral to another base. Leading zeros and the number that the other
  digits denote are written apart from each other, and come back apart from each other
  (`Radix.convert_convert`).
* `Base58.decode_encode` reads any byte string back, and `Base58.encode_eq_of_decode` says that
  nothing but its text is read as it.
* `Identifier.parse_text` reads an identifier back, `Identifier.parse_eq_ok_iff` says that nothing
  but its text is read as it, and `Identifier.exists_invalidEncoding_iff` that every other text is
  an invalid encoding.
-/

namespace StakeLedger

namespace Radix

/-- Leading zeros do not count. -/
theorem ofDigits_dropWhile_zero (base : Nat) (ds : List Nat) :
    ofDigits base (ds.dropWhile (· == 0)) = ofDigits base ds := by
  induction ds with
  | nil => rfl
  | cons d rest ih =>
    by_cases hd : d = 0
    · rw [List.dropWhile_cons_of_pos (by simp [hd]), ih, hd, ofDigits, ofDigits, List.foldl_cons,
        Nat.zero_mul]
    · rw [List.dropWhile_cons_of_neg (by simp [hd])]

/-- The digits of the number that a list of digits denotes are that list without leading zeros. -/
theorem digits_ofDigits_eq_dropWhile {base : Nat} (hb : 2 ≤ base) {ds : List Nat}
    (hlt : ∀ d ∈ ds, d < base) : digits base (ofDigits base ds) = ds.dropWhile (· == 0) := by
  rw [← ofDigits_dropWhile_zero]
  refine digits_ofDigits hb _ (fun d hd => hlt d (List.dropWhile_subset _ hd)) fun hhead => ?_
  have hne : ds.dropWhile (· == 0) ≠ [] := fun hnil => by
    rw [hnil] at hhead
    cases hhead
  have hzero := List.head_dropWhile_not (p := (· == 0)) hne
  rw [List.head?_eq_some_head hne, Option.some.injEq] at hhead
  simp [hhead] at hzero

theorem takeWhile_digits (base n : Nat) : (digits base n).takeWhile (· == 0) = [] := by
  have hhead := head?_digits_ne_zero base n
  cases hd : digits base n with
  | nil => rfl
  | cons d rest =>
    rw [hd] at hhead
    exact List.takeWhile_cons_of_neg (by simpa using hhead)

/-- A numeral to another base: as many leading zeros, then the digits of the number. -/
def convert (base base' : Nat) (ds : List Nat) : List Nat :=
  ds.takeWhile (· == 0) ++ digits base' (ofDigits base ds)

theorem lt_of_mem_convert {base base' d : Nat} {ds : List Nat} (hb : 2 ≤ base')
    (hd : d ∈ convert base base' ds) : d < base' := by
  rcases List.mem_append.mp hd with hd | hd
  · rw [eq_of_beq (List.mem_takeWhile_imp (p := (· == 0)) hd)]
    omega
  · exact lt_of_mem_digits hd

theorem takeWhile_convert (base base' : Nat) (ds : List Nat) :
    (convert base base' ds).takeWhile (· == 0) = ds.takeWhile (· == 0) := by
  rw [convert, List.takeWhile_append_of_pos fun _ => List.mem_takeWhile_imp (p := (· == 0)),
    takeWhile_digits, List.append_nil]

theorem ofDigits_convert {base' : Nat} (hb : 2 ≤ base') (base : Nat) (ds : List Nat) :
    ofDigits base' (convert base base' ds) = ofDigits base ds := by
  rw [← ofDigits_dropWhile_zero, convert,
    List.dropWhile_append_of_pos fun _ => List.mem_takeWhile_imp (p := (· == 0)),
    ofDigits_dropWhile_zero, ofDigits_digits hb]

/-- **A numeral comes back when it is converted back.** -/
theorem convert_convert {base base' : Nat} (hb : 2 ≤ base) (hb' : 2 ≤ base') {ds : List Nat}
    (hlt : ∀ d ∈ ds, d < base) : convert base' base (convert base base' ds) = ds := by
  rw [convert, takeWhile_convert, ofDigits_convert hb', digits_ofDigits_eq_dropWhile hb hlt,
    List.takeWhile_append_dropWhile]

end Radix

namespace Base58

theorem toNat_symbol_lt : ∀ v < 58, (symbol v).toNat < 128 := by decide +kernel

/-- The values of digits are read off them. -/
theorem values_map_symbol {vs : List Nat} (hvs : ∀ v ∈ vs, v < 58) (position : Nat) :
    values position (vs.map symbol) = .ok vs := by
  induction vs generalizing position with
  | nil => rfl
  | cons v rest ih =>
    obtain ⟨hv, hrest⟩ := List.forall_mem_cons.mp hvs
    rw [List.map_cons, values, if_neg (Nat.not_le.mpr (toNat_symbol_lt v hv)), value?_symbol v hv,
      ih hrest]
    rfl

/-- The digits of a text: a zero for each leading zero byte, then those of the number. -/
def digits (bytes : Bytes) : List Nat :=
  ((bytes.takeWhile (· == 0)).map fun _ => 0) ++
    Radix.digits 58 (Radix.ofDigits 256 (bytes.map UInt8.toNat))

theorem encode_eq (bytes : Bytes) : encode bytes = (digits bytes).map symbol := by
  rw [encode, digits, List.map_append, List.map_map]
  rfl

theorem lt_of_mem_digits {bytes : Bytes} {v : Nat} (hv : v ∈ digits bytes) : v < 58 := by
  rcases List.mem_append.mp hv with hv | hv
  · obtain ⟨_, -, rfl⟩ := List.mem_map.mp hv
    decide
  · exact Radix.lt_of_mem_digits hv

theorem takeWhile_map_toNat (bytes : Bytes) :
    (bytes.map UInt8.toNat).takeWhile (· == 0) = (bytes.takeWhile (· == 0)).map fun _ => 0 := by
  rw [List.takeWhile_map]
  have hzero : ((· == 0) ∘ UInt8.toNat) = (· == (0 : UInt8)) := by
    funext b
    exact Bool.eq_iff_iff.mpr (by simp [← UInt8.toNat_inj])
  rw [hzero]
  refine List.map_congr_left fun b hb => ?_
  rw [eq_of_beq (List.mem_takeWhile_imp (p := (· == 0)) hb)]
  rfl

/-- The digits of a text are the bytes in base 58. -/
theorem digits_eq_convert (bytes : Bytes) :
    digits bytes = Radix.convert 256 58 (bytes.map UInt8.toNat) := by
  rw [digits, Radix.convert, takeWhile_map_toNat]

/-- The bytes of a text are its digits in base 256. -/
theorem decode_eq (text : List Char) :
    decode text = (values 0 text).map fun vs => (Radix.convert 58 256 vs).map UInt8.ofNat := by
  rw [decode]
  congr 1
  funext vs
  rw [Radix.convert, List.map_append]
  congr 1
  refine List.map_congr_left fun v hv => ?_
  rw [eq_of_beq (List.mem_takeWhile_imp (p := (· == 0)) hv)]
  rfl

theorem lt_of_mem_map_toNat {bytes : Bytes} {d : Nat} (hd : d ∈ bytes.map UInt8.toNat) :
    d < 256 := by
  obtain ⟨b, -, rfl⟩ := List.mem_map.mp hd
  exact b.toNat_lt

/-- **Every byte string is read back.** -/
theorem decode_encode (bytes : Bytes) : decode (encode bytes) = .ok bytes := by
  have hvalues : values 0 (encode bytes) = .ok (digits bytes) := by
    rw [encode_eq]
    exact values_map_symbol (fun _ => lt_of_mem_digits) 0
  rw [decode_eq, hvalues, digits_eq_convert]
  simp only [Except.map]
  rw [Radix.convert_convert (by decide) (by decide) fun _ => lt_of_mem_map_toNat, List.map_map]
  exact congrArg _ (List.map_id'' (fun _ => UInt8.ofNat_toNat) _)

/-- The value of a character is that of the digit that it is. -/
theorem symbol_of_value? {c : Char} {v : Nat} (hv : value? c = some v) : symbol v = c ∧ v < 58 := by
  obtain ⟨hlt, heq, -⟩ := List.idxOf?_eq_some_iff.mp hv
  refine ⟨?_, hlt⟩
  rw [symbol, List.getD_eq_getElem?_getD, List.getElem?_eq_getElem hlt, heq, Option.getD_some]

/-- A text whose digits have values consists of their digits. -/
theorem values_eq_ok {position : Nat} {text : List Char} {vs : List Nat}
    (h : values position text = .ok vs) : text = vs.map symbol ∧ ∀ v ∈ vs, v < 58 := by
  induction text generalizing position vs with
  | nil =>
    cases h
    exact ⟨rfl, nofun⟩
  | cons c rest ih =>
    unfold values at h
    split at h
    · cases h
    · split at h
      · cases h
      · next v hv =>
        obtain ⟨more, hmore, rfl⟩ := exists_of_map_eq_ok h
        obtain ⟨hrest, hlt⟩ := ih hmore
        obtain ⟨hc, hv⟩ := symbol_of_value? hv
        exact ⟨by rw [List.map_cons, hc, ← hrest], List.forall_mem_cons.mpr ⟨hv, hlt⟩⟩

/-- **No other text is read as a byte string.** -/
theorem encode_eq_of_decode {text : List Char} {bytes : Bytes} (h : decode text = .ok bytes) :
    encode bytes = text := by
  rw [decode_eq] at h
  obtain ⟨vs, hvalues, rfl⟩ := exists_of_map_eq_ok h
  obtain ⟨rfl, hlt⟩ := values_eq_ok hvalues
  have hbytes : ((Radix.convert 58 256 vs).map UInt8.ofNat).map UInt8.toNat =
      Radix.convert 58 256 vs := by
    rw [List.map_map]
    refine (List.map_congr_left fun d hd => ?_).trans (List.map_id _)
    exact UInt8.toNat_ofNat_of_lt (Radix.lt_of_mem_convert (by decide) hd)
  rw [encode_eq, digits_eq_convert, hbytes, Radix.convert_convert (by decide) (by decide) hlt]

end Base58

namespace Identifier

/-- **An identifier is read back from its text.** -/
theorem parse_text (x : Identifier) : parse x.text = .ok x := by
  rw [parse, text, String.toList_ofList]
  simp only [if_true, Base58.decode_encode, ofBytes?_bytes]

/-- A text is that of an identifier, or it is invalid. -/
theorem parse_cases (s : String) :
    (∃ x, parse s = .ok x ∧ s = x.text) ∨ ∃ fault, parse s = .error (.invalidEncoding fault) := by
  unfold parse
  split
  · next c body hs =>
    split
    · next hc =>
      split
      · exact .inr ⟨_, rfl⟩
      · next bytes hbytes =>
        split
        · next x hx =>
          refine .inl ⟨x, rfl, ?_⟩
          rw [text, bytes_of_ofBytes? hx, Base58.encode_eq_of_decode hbytes, ← hc, ← hs,
            String.ofList_toList]
        · exact .inr ⟨_, rfl⟩
    · exact .inr ⟨_, rfl⟩
  · exact .inr ⟨_, rfl⟩

/-- **Nothing but its text is read as an identifier.** -/
theorem parse_eq_ok_iff {s : String} {x : Identifier} : parse s = .ok x ↔ s = x.text := by
  refine ⟨fun h => ?_, fun h => h ▸ x.parse_text⟩
  rcases parse_cases s with ⟨y, hy, hs⟩ | ⟨fault, hfault⟩
  · rw [h] at hy
    rw [hs, Except.ok.inj hy]
  · rw [h] at hfault
    cases hfault

theorem text_injective : Function.Injective text := fun x y h => by
  have hx := x.parse_text
  rw [h, y.parse_text] at hx
  exact (Except.ok.inj hx).symm

/-- **Every text but those of identifiers is an invalid encoding.** -/
theorem exists_invalidEncoding_iff {s : String} :
    (∃ fault, parse s = .error (.invalidEncoding fault)) ↔ ¬ ∃ x : Identifier, s = x.text := by
  constructor
  · rintro ⟨fault, hfault⟩ ⟨x, rfl⟩
    rw [parse_text] at hfault
    cases hfault
  · intro hs
    rcases parse_cases s with ⟨x, -, hx⟩ | hfault
    · exact absurd ⟨x, hx⟩ hs
    · exact hfault

/-- The texts that are read as an identifier, if there is a text at all. -/
theorem bind_parse_eq_some_iff {o : Option String} {x : Identifier} :
    (o.bind fun s => (parse s).toOption) = some x ↔ o = some x.text := by
  cases o with
  | none => simp
  | some s =>
    rw [Option.bind_some, toOption_eq_some_iff, parse_eq_ok_iff, Option.some.injEq]

end Identifier

end StakeLedger
