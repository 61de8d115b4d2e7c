import Mathlib.Data.List.DropRight
import Mathlib.Data.List.TakeWhile
import StakeLedger.Json.Parse

/-!
# JSON texts are read back

Which texts spell a tree, and that each of them is read as this tree.

* `Json.Spells` relates a tree to its texts. Blanks may stand wherever the grammar allows them.
  Numbers are decimal, and strings are plain: ASCII characters, none of which needs an escape.
* `Json.parse_of_spells` reads the tree from each of its texts.
* `Json.IsPlain` are the trees that have a text. `Json.spells_compact` and `Json.spells_prettyAt`
  say that both ways to write such a tree give one.
-/

namespace StakeLedger.Json

/-! ## Numbers -/

theorem toNat_digitChar :
    ∀ d < 10, UInt8.ofNat (Nat.digitChar d).toNat = UInt8.ofNat (0x30 + d) := by
  decide

theorem decimal_of_lt {n : Nat} (hn : n < 10) : decimal n = [UInt8.ofNat (0x30 + n)] := by
  rw [decimal, Nat.toDigits_of_lt_base hn, List.map_singleton, toNat_digitChar n hn]

theorem decimal_of_le {n : Nat} (hn : 10 ≤ n) :
    decimal n = decimal (n / 10) ++ [UInt8.ofNat (0x30 + n % 10)] := by
  rw [decimal, Nat.toDigits_of_base_le (by decide) hn, List.map_append, List.map_singleton,
    toNat_digitChar _ (Nat.mod_lt _ (by decide)), decimal]

theorem toNat_digit {d : Nat} (hd : d < 10) : (UInt8.ofNat (0x30 + d)).toNat = 0x30 + d := by
  rw [UInt8.toNat_ofNat']
  omega

theorem isDigit_iff {b : UInt8} : isDigit b = true ↔ 0x30 ≤ b.toNat ∧ b.toNat ≤ 0x39 := by
  simp [isDigit, UInt8.le_iff_toNat_le]

theorem isDigit_digit {d : Nat} (hd : d < 10) : isDigit (UInt8.ofNat (0x30 + d)) = true := by
  rw [isDigit_iff, toNat_digit hd]
  omega

theorem isDigit_of_mem_decimal {n : Nat} : ∀ b ∈ decimal n, isDigit b = true := by
  induction n using Nat.strongRecOn with
  | ind n ih =>
    intro b hb
    rcases Nat.lt_or_ge n 10 with hn | hn
    · rw [decimal_of_lt hn, List.mem_singleton] at hb
      exact hb ▸ isDigit_digit hn
    · rw [decimal_of_le hn, List.mem_append, List.mem_singleton] at hb
      rcases hb with hb | rfl
      · exact ih _ (Nat.div_lt_self (by omega) (by decide)) b hb
      · exact isDigit_digit (Nat.mod_lt _ (by decide))

/-- **A number is read from its decimal digits.** -/
theorem decimalValue?_decimal (n : Nat) : decimalValue? (decimal n) = some n := by
  have hdigits : ((decimal n).all fun b => 0x30 ≤ b && b ≤ 0x39) = true :=
    List.all_eq_true.mpr isDigit_of_mem_decimal
  have hvalue : ∀ n, (decimal n).foldl (fun n b => n * 10 + (b.toNat - 0x30)) 0 = n := by
    intro n
    induction n using Nat.strongRecOn with
    | ind n ih =>
      rcases Nat.lt_or_ge n 10 with hn | hn
      · rw [decimal_of_lt hn, List.foldl_cons, List.foldl_nil, toNat_digit hn]
        omega
      · rw [decimal_of_le hn, List.foldl_append, ih _ (Nat.div_lt_self (by omega) (by decide)),
          List.foldl_cons, List.foldl_nil, toNat_digit (Nat.mod_lt _ (by decide))]
        omega
  rw [decimalValue?, if_pos hdigits, hvalue]

/-- A number starts with a zero only if it is zero. -/
theorem exists_decimal_eq_cons (n : Nat) :
    ∃ b rest, decimal n = b :: rest ∧ (b = 0x30 → rest = []) := by
  induction n using Nat.strongRecOn with
  | ind n ih =>
    rcases Nat.lt_or_ge n 10 with hn | hn
    · exact ⟨_, [], decimal_of_lt hn, fun _ => rfl⟩
    · obtain ⟨b, rest, heq, hzero⟩ := ih (n / 10) (Nat.div_lt_self (by omega) (by decide))
      refine ⟨b, rest ++ [UInt8.ofNat (0x30 + n % 10)], by rw [decimal_of_le hn, heq]; rfl, ?_⟩
      -- otherwise the number without its last digit would be zero
      intro hb
      have hvalue := decimalValue?_decimal (n / 10)
      rw [heq, hb, hzero hb] at hvalue
      have hdiv : n / 10 = 0 := (Option.some.inj hvalue).symm
      omega

/-- Whether what follows a tree does not go on with a number: nothing does, nor do blanks, commas
and closing brackets. -/
def Delimited (rest : Bytes) : Prop :=
  ∀ b ∈ rest.head?, isBlank b = true ∨ b = 0x2C ∨ b = 0x5D ∨ b = 0x7D

theorem Delimited.head_ne {b : UInt8} {rest : Bytes} (h : Delimited (b :: rest)) :
    isDigit b = false ∧ b ≠ 0x2E ∧ b ≠ 0x65 ∧ b ≠ 0x45 := by
  rcases h b rfl with hb | rfl | rfl | rfl
  · simp only [isBlank, Bool.or_eq_true, beq_iff_eq] at hb
    rcases hb with ((rfl | rfl) | rfl) | rfl <;> decide
  all_goals decide

theorem takeWhile_isDigit {rest : Bytes} (h : Delimited rest) :
    rest.takeWhile isDigit = [] ∧ rest.dropWhile isDigit = rest := by
  cases rest with
  | nil => exact ⟨rfl, rfl⟩
  | cons b rest =>
    have hb : ¬ isDigit b = true := by simp [h.head_ne.1]
    exact ⟨List.takeWhile_cons_of_neg hb, List.dropWhile_cons_of_neg hb⟩

theorem wholePart?_decimal (n : Nat) {rest : Bytes} (h : Delimited rest) :
    wholePart? (decimal n ++ rest) = some (decimal n, rest) := by
  obtain ⟨b, ds, heq, hzero⟩ := exists_decimal_eq_cons n
  have hdigits : digits? (decimal n ++ rest) = some (decimal n, rest) := by
    have htake : (decimal n ++ rest).takeWhile isDigit = decimal n := by
      rw [List.takeWhile_append_of_pos isDigit_of_mem_decimal, (takeWhile_isDigit h).1,
        List.append_nil]
    rw [digits?, htake, List.dropWhile_append_of_pos isDigit_of_mem_decimal,
      (takeWhile_isDigit h).2, heq]
  by_cases hb : b = 0x30
  · rw [heq, hb, hzero hb]
    cases rest with
    | nil => rfl
    | cons c rest => simp [wholePart?, h.head_ne.1]
  · rw [heq, List.cons_append] at hdigits ⊢
    unfold wholePart?
    split
    · next hcons => exact absurd (List.cons.inj hcons).1 hb
    · exact hdigits

theorem number?_decimal (n : Nat) {rest : Bytes} (h : Delimited rest) :
    number? (decimal n ++ rest) = some (decimal n, rest) := by
  have hfraction : fraction? rest = some ([], rest) := by
    unfold fraction?
    split
    · exact absurd rfl h.head_ne.2.1
    · rfl
  have hexponent : exponent? rest = some ([], rest) := by
    cases rest with
    | nil => rfl
    | cons b rest =>
      have hb : ¬ (b = 0x65 ∨ b = 0x45) := not_or.mpr h.head_ne.2.2
      rw [exponent?, if_neg hb]
  have hunsigned : unsigned? (decimal n ++ rest) = some (decimal n, rest) := by
    rw [unsigned?, wholePart?_decimal n h]
    simp only [hfraction, hexponent, Option.map_some, List.append_nil]
  unfold number?
  split
  · next heq =>
    have hminus : (0x2D : UInt8) ∈ decimal n := by
      obtain ⟨b, ds, hds, -⟩ := exists_decimal_eq_cons n
      rw [hds, List.cons_append, List.cons.injEq] at heq
      rw [hds, heq.1]
      exact List.mem_cons_self
    exact absurd (isDigit_of_mem_decimal _ hminus) (by decide)
  · exact hunsigned

/-! ## Blanks and strings -/

/-- Whether there are only blanks. -/
def Blanks (text : Bytes) : Prop :=
  ∀ b ∈ text, isBlank b = true

theorem blanks_nil : Blanks [] := nofun

theorem Delimited.of_blanks {blanks rest : Bytes} (h : Blanks blanks) (hrest : Delimited rest) :
    Delimited (blanks ++ rest) := by
  cases blanks with
  | nil => exact hrest
  | cons b blanks =>
    rintro _ ⟨⟩
    exact .inl (h b List.mem_cons_self)

theorem skipBlanks_append {blanks : Bytes} (h : Blanks blanks) (rest : Bytes) :
    skipBlanks (blanks ++ rest) = skipBlanks rest :=
  List.dropWhile_append_of_pos h

theorem skipBlanks_cons {b : UInt8} (h : isBlank b = false) (rest : Bytes) :
    skipBlanks (b :: rest) = b :: rest :=
  List.dropWhile_cons_of_neg (by simp [h])

theorem skipBlanks_skipBlanks (input : Bytes) :
    skipBlanks (skipBlanks input) = skipBlanks input :=
  List.dropWhile_idempotent _ _

/-- Whether a byte is an ASCII character that needs no escape within a string. -/
def IsPlainByte (b : UInt8) : Prop :=
  0x20 ≤ b ∧ b < 0x80 ∧ b ≠ 0x22 ∧ b ≠ 0x5C

theorem stringBody_append {body : Bytes} (hbody : ∀ b ∈ body, IsPlainByte b) (rest : Bytes) :
    stringBody (body ++ 0x22 :: rest) = some (body, rest) := by
  induction body with
  | nil => rw [List.nil_append, stringBody]
  | cons b body ih =>
    obtain ⟨⟨hlow, -, hquote, hescape⟩, hbody⟩ := List.forall_mem_cons.mp hbody
    have hb : ¬ (b < 0x20 ∨ b = 0x5C) := not_or.mpr ⟨UInt8.not_lt.mpr hlow, hescape⟩
    rw [List.cons_append, stringBody, if_neg hb, ih hbody]
    · rfl
    · exact hquote
    · exact fun _ _ _ _ _ heq _ => hescape heq
    · exact fun _ _ heq _ => hescape heq

/-! ## Texts of a tree -/

/-- Whether a text is one of the given kind with blanks around it. -/
def Padded (P : Bytes → Prop) (text : Bytes) : Prop :=
  ∃ front core back, Blanks front ∧ P core ∧ Blanks back ∧ text = front ++ (core ++ back)

/-- Whether a text is a plain string with the given body. -/
def SpellsString (body text : Bytes) : Prop :=
  (∀ b ∈ body, IsPlainByte b) ∧ text = quoted body

mutual

/-- Whether a text is one of a tree. It has no blanks at its ends. -/
def Spells : Json → Bytes → Prop
  | .null, text => text = Utf8.ofString "null"
  | .bool b, text => text = literal b
  | .number digits, text => (∃ n, digits = decimal n) ∧ text = digits
  | .string body, text => SpellsString body text
  | .array items, text =>
    (items = [] ∧ ∃ inner, Blanks inner ∧ text = 0x5B :: (inner ++ [0x5D])) ∨
      ∃ inner, SpellsItems items inner ∧ text = 0x5B :: inner
  | .object members, text =>
    (members = [] ∧ ∃ inner, Blanks inner ∧ text = 0x7B :: (inner ++ [0x7D])) ∨
      ∃ inner, SpellsMembers members inner ∧ text = 0x7B :: inner

/-- Whether a text is one of some elements of an array up to the closing bracket. -/
def SpellsItems : List Json → Bytes → Prop
  | [], _ => False
  | item :: items, text => ∃ first tail, Padded (Spells item) first ∧ text = first ++ tail ∧
    ((items = [] ∧ tail = [0x5D]) ∨ ∃ more, SpellsItems items more ∧ tail = 0x2C :: more)

/-- Whether a text is one of some members of an object up to the closing brace. -/
def SpellsMembers : List (Bytes × Json) → Bytes → Prop
  | [], _ => False
  | (name, value) :: members, text => ∃ label first tail,
    Padded (SpellsString name) label ∧ Padded (Spells value) first ∧
      text = label ++ 0x3A :: (first ++ tail) ∧
      ((members = [] ∧ tail = [0x7D]) ∨
        ∃ more, SpellsMembers members more ∧ tail = 0x2C :: more)

end

/-! ## Reading the texts -/

theorem value?_skipBlanks (fuel : Nat) (input : Bytes) :
    value? fuel (skipBlanks input) = value? fuel input := by
  cases fuel with
  | zero => rfl
  | succ fuel => rw [value?, value?, skipBlanks_skipBlanks]

theorem items?_skipBlanks (fuel : Nat) (input : Bytes) :
    items? fuel (skipBlanks input) = items? fuel input := by
  cases fuel with
  | zero => rfl
  | succ fuel => rw [items?, items?, value?_skipBlanks]

theorem members?_skipBlanks (fuel : Nat) (input : Bytes) :
    members? fuel (skipBlanks input) = members? fuel input := by
  cases fuel with
  | zero => rfl
  | succ fuel => rw [members?, members?, skipBlanks_skipBlanks]

theorem isBlank_of_isDigit {b : UInt8} (h : isDigit b = true) : isBlank b = false := by
  rw [Bool.eq_false_iff]
  intro hb
  simp only [isBlank, Bool.or_eq_true, beq_iff_eq] at hb
  rcases hb with ((rfl | rfl) | rfl) | rfl <;> exact absurd h (by decide)

/-- The first byte of a text is not a blank, nor does it close an array. -/
theorem Spells.exists_cons {j : Json} {text : Bytes} (h : Spells j text) :
    ∃ b rest, text = b :: rest ∧ isBlank b = false ∧ b ≠ 0x5D := by
  cases j with
  | null =>
    obtain rfl := h
    exact ⟨_, _, rfl, by decide, by decide⟩
  | bool b =>
    obtain rfl := h
    cases b <;> exact ⟨_, _, rfl, by decide, by decide⟩
  | number digits =>
    obtain ⟨⟨n, rfl⟩, rfl⟩ := h
    obtain ⟨b, rest, heq, -⟩ := exists_decimal_eq_cons n
    have hb : isDigit b = true := isDigit_of_mem_decimal b (heq ▸ List.mem_cons_self)
    refine ⟨b, rest, heq, isBlank_of_isDigit hb, ?_⟩
    rintro rfl
    exact absurd hb (by decide)
  | string body =>
    obtain ⟨-, rfl⟩ := h
    exact ⟨_, _, rfl, by decide, by decide⟩
  | array items =>
    rcases h with ⟨-, inner, -, rfl⟩ | ⟨inner, -, rfl⟩
    all_goals exact ⟨_, _, rfl, by decide, by decide⟩
  | object members =>
    rcases h with ⟨-, inner, -, rfl⟩ | ⟨inner, -, rfl⟩
    all_goals exact ⟨_, _, rfl, by decide, by decide⟩

theorem SpellsString.exists_cons {body text : Bytes} (h : SpellsString body text) :
    ∃ rest, text = 0x22 :: rest :=
  ⟨_, h.2⟩

/-- Blanks in front of a text are skipped. -/
theorem Padded.exists_skipBlanks {P : Bytes → Prop} {Q : UInt8 → Prop}
    (hP : ∀ core, P core → ∃ b rest, core = b :: rest ∧ isBlank b = false ∧ Q b) {text : Bytes}
    (h : Padded P text) (rest : Bytes) : ∃ b tail, skipBlanks (text ++ rest) = b :: tail ∧ Q b := by
  obtain ⟨front, core, back, hfront, hcore, -, rfl⟩ := h
  obtain ⟨b, tail, rfl, hblank, hb⟩ := hP core hcore
  refine ⟨b, tail ++ back ++ rest, ?_, hb⟩
  rw [List.append_assoc, skipBlanks_append hfront, List.cons_append, List.cons_append,
    skipBlanks_cons hblank]

theorem Padded.length_pos {P : Bytes → Prop} {Q : UInt8 → Prop}
    (hP : ∀ core, P core → ∃ b rest, core = b :: rest ∧ isBlank b = false ∧ Q b) {text : Bytes}
    (h : Padded P text) : 0 < text.length := by
  obtain ⟨front, core, back, -, hcore, -, rfl⟩ := h
  obtain ⟨b, tail, rfl, -, -⟩ := hP core hcore
  simp only [List.length_append, List.length_cons]
  omega

/-- A tree between blanks is read up to the blanks behind it, if it is read without blanks. -/
theorem value?_of_padded {j : Json} {text rest : Bytes} {fuel : Nat}
    (hread : ∀ core rest, Spells j core → Delimited rest → 2 * core.length ≤ fuel →
      value? fuel (core ++ rest) = some (j, rest))
    (h : Padded (Spells j) text) (hrest : Delimited rest) (hfuel : 2 * text.length ≤ fuel) :
    ∃ back, Blanks back ∧ value? fuel (text ++ rest) = some (j, back ++ rest) := by
  obtain ⟨front, core, back, hfront, hcore, hback, rfl⟩ := h
  rw [List.length_append, List.length_append] at hfuel
  refine ⟨back, hback, ?_⟩
  rw [← value?_skipBlanks, List.append_assoc, skipBlanks_append hfront, value?_skipBlanks,
    List.append_assoc]
  exact hread core _ hcore (.of_blanks hback hrest) (by omega)

theorem delimited_comma (rest : Bytes) : Delimited (0x2C :: rest) := by
  rintro _ ⟨⟩
  simp

theorem delimited_bracket (rest : Bytes) : Delimited (0x5D :: rest) := by
  rintro _ ⟨⟩
  simp

theorem delimited_brace (rest : Bytes) : Delimited (0x7D :: rest) := by
  rintro _ ⟨⟩
  simp

theorem word?_null (rest : Bytes) : word? (Utf8.ofString "null" ++ rest) = some (.null, rest) := by
  rfl

theorem word?_literal (b : Bool) (rest : Bytes) :
    word? (literal b ++ rest) = some (.bool b, rest) := by
  cases b <;> rfl

mutual

/-- **A tree is read from each of its texts,** as long as nothing goes on with it. -/
theorem value?_append (j : Json) (text rest : Bytes) (fuel : Nat) (h : Spells j text)
    (hrest : Delimited rest) (hfuel : 2 * text.length ≤ fuel) :
    value? fuel (text ++ rest) = some (j, rest) := by
  obtain ⟨b, tail, hcons, hblank, -⟩ := h.exists_cons
  obtain ⟨fuel, rfl⟩ : ∃ n, fuel = n + 1 := by
    rw [hcons, List.length_cons] at hfuel
    exact ⟨fuel - 1, by omega⟩
  have hskip : skipBlanks (text ++ rest) = text ++ rest := by
    rw [hcons]
    exact skipBlanks_cons hblank _
  rw [value?, hskip]
  cases j with
  | null =>
    obtain rfl := h
    exact word?_null rest
  | bool b =>
    obtain rfl := h
    cases b with
    | false => exact word?_literal false rest
    | true => exact word?_literal true rest
  | number digits =>
    obtain ⟨⟨n, rfl⟩, rfl⟩ := h
    have hb : isDigit b = true := isDigit_of_mem_decimal b (hcons ▸ List.mem_cons_self)
    have hread := number?_decimal n hrest
    rw [hcons, List.cons_append] at hread ⊢
    split
    · next heq => cases heq
    · next heq => cases heq; exact absurd hb (by decide)
    · next heq => cases heq; exact absurd hb (by decide)
    · next heq => cases heq; exact absurd hb (by decide)
    · next heq =>
      cases heq
      rw [if_pos (.inr hb), hread, Option.map_some]
  | string body =>
    obtain ⟨hbody, rfl⟩ := h
    have hread := stringBody_append hbody rest
    simp only [quoted, List.cons_append, List.append_assoc, List.nil_append, hread]
    rfl
  | array items =>
    rcases h with ⟨rfl, inner, hinner, rfl⟩ | ⟨inner, hinner, rfl⟩
    · have hskip : skipBlanks (inner ++ 0x5D :: rest) = 0x5D :: rest := by
        rw [skipBlanks_append hinner, skipBlanks_cons (by decide)]
      simp only [List.cons_append, List.append_assoc, List.nil_append, hskip]
    · rw [List.length_cons] at hfuel
      obtain ⟨hread, c, t, hc, hne⟩ := items?_append items inner rest fuel hinner (by omega)
      rw [← items?_skipBlanks, hc] at hread
      simp only [List.cons_append, hc]
      split
      · next heq => cases heq; exact absurd rfl hne
      · rw [hread, Option.map_some]
  | object members =>
    rcases h with ⟨rfl, inner, hinner, rfl⟩ | ⟨inner, hinner, rfl⟩
    · have hskip : skipBlanks (inner ++ 0x7D :: rest) = 0x7D :: rest := by
        rw [skipBlanks_append hinner, skipBlanks_cons (by decide)]
      simp only [List.cons_append, List.append_assoc, List.nil_append, hskip]
    · rw [List.length_cons] at hfuel
      obtain ⟨hread, t, hc⟩ := members?_append members inner rest fuel hinner (by omega)
      rw [← members?_skipBlanks, hc] at hread
      simp only [List.cons_append, hc]
      split
      · next heq => cases heq
      · rw [hread, Option.map_some]

theorem items?_append (items : List Json) (text rest : Bytes) (fuel : Nat)
    (h : SpellsItems items text) (hfuel : 2 * text.length ≤ fuel) :
    items? fuel (text ++ rest) = some (items, rest) ∧
      ∃ b tail, skipBlanks (text ++ rest) = b :: tail ∧ b ≠ 0x5D := by
  cases items with
  | nil => exact h.elim
  | cons item items =>
    obtain ⟨first, tail, hfirst, rfl, htail⟩ := h
    refine ⟨?_, ?_⟩
    · have hpos := hfirst.length_pos fun _ h => h.exists_cons
      rw [List.length_append] at hfuel
      obtain ⟨fuel, rfl⟩ : ∃ n, fuel = n + 1 := ⟨fuel - 1, by omega⟩
      have hread := fun core rest => value?_append item core rest fuel
      rw [List.append_assoc, items?]
      rcases htail with ⟨rfl, rfl⟩ | ⟨more, hmore, rfl⟩
      · rw [List.length_singleton] at hfuel
        obtain ⟨back, hback, hvalue⟩ :=
          value?_of_padded hread hfirst (delimited_bracket rest) (by omega)
        simp only [List.cons_append, List.nil_append, hvalue, skipBlanks_append hback,
          skipBlanks_cons (show isBlank 0x5D = false by decide)]
      · rw [List.length_cons] at hfuel
        obtain ⟨back, hback, hvalue⟩ :=
          value?_of_padded hread hfirst (delimited_comma (more ++ rest)) (by omega)
        have hrest := (items?_append items more rest fuel hmore (by omega)).1
        simp only [List.cons_append, hvalue, skipBlanks_append hback,
          skipBlanks_cons (show isBlank 0x2C = false by decide), hrest, Option.map_some]
    · rw [List.append_assoc]
      exact hfirst.exists_skipBlanks (fun _ h => h.exists_cons) _

theorem members?_append (members : List (Bytes × Json)) (text rest : Bytes) (fuel : Nat)
    (h : SpellsMembers members text) (hfuel : 2 * text.length ≤ fuel) :
    members? fuel (text ++ rest) = some (members, rest) ∧
      ∃ tail, skipBlanks (text ++ rest) = 0x22 :: tail := by
  cases members with
  | nil => exact h.elim
  | cons member members =>
    obtain ⟨name, value⟩ := member
    obtain ⟨_, first, tail, hlabel, hfirst, rfl, htail⟩ := h
    obtain ⟨front, _, back, hfront, ⟨hname, rfl⟩, hback, rfl⟩ := hlabel
    have hlabel (suffix : Bytes) :
        skipBlanks (front ++ (quoted name ++ back) ++ suffix) =
          0x22 :: (name ++ 0x22 :: (back ++ suffix)) := by
      rw [List.append_assoc, skipBlanks_append hfront, quoted, List.cons_append, List.cons_append,
        skipBlanks_cons (by decide)]
      simp only [List.append_assoc, List.cons_append, List.nil_append]
    rw [List.append_assoc, List.cons_append, List.append_assoc first]
    refine ⟨?_, _, hlabel _⟩
    have hpos := hfirst.length_pos fun _ h => h.exists_cons
    simp only [List.length_append, List.length_cons] at hfuel
    obtain ⟨fuel, rfl⟩ : ∃ n, fuel = n + 1 := ⟨fuel - 1, by omega⟩
    have hread := fun core rest => value?_append value core rest fuel
    rw [members?, hlabel]
    simp only [stringBody_append hname, skipBlanks_append hback,
      skipBlanks_cons (show isBlank 0x3A = false by decide)]
    rcases htail with ⟨rfl, rfl⟩ | ⟨more, hmore, rfl⟩
    · obtain ⟨back, hback, hvalue⟩ :=
        value?_of_padded hread hfirst (delimited_brace rest) (by omega)
      simp only [List.cons_append, List.nil_append, hvalue, skipBlanks_append hback,
        skipBlanks_cons (show isBlank 0x7D = false by decide)]
    · rw [List.length_cons] at hfuel
      obtain ⟨back, hback, hvalue⟩ :=
        value?_of_padded hread hfirst (delimited_comma (more ++ rest)) (by omega)
      have hrest := (members?_append members more rest fuel hmore (by omega)).1
      simp only [List.cons_append, hvalue, skipBlanks_append hback,
        skipBlanks_cons (show isBlank 0x2C = false by decide), hrest, Option.map_some]

end

/-- **A text is read as the tree that it spells,** blanks behind it included. -/
theorem parse_of_spells {j : Json} {text back : Bytes} (h : Spells j text) (hback : Blanks back) :
    parse (text ++ back) = some j := by
  have hdelimited : Delimited back := by
    have hnil : Delimited [] := nofun
    simpa only [List.append_nil] using Delimited.of_blanks hback hnil
  have hskip : skipBlanks back = [] := List.dropWhile_eq_nil_iff.mpr hback
  rw [parse, value?_append j text back _ h hdelimited (by rw [List.length_append]; omega)]
  simp only [hskip, List.isEmpty_nil, if_true]

/-! ## Writing a tree -/

mutual

/-- Whether a tree can be written with plain strings and decimal numbers. -/
def IsPlain : Json → Prop
  | .null => True
  | .bool _ => True
  | .number digits => ∃ n, digits = decimal n
  | .string body => ∀ b ∈ body, IsPlainByte b
  | .array items => IsPlainItems items
  | .object members => IsPlainMembers members

/-- Whether all elements of an array are plain. -/
def IsPlainItems : List Json → Prop
  | [] => True
  | item :: items => IsPlain item ∧ IsPlainItems items

/-- Whether all members of an object are plain. -/
def IsPlainMembers : List (Bytes × Json) → Prop
  | [] => True
  | (name, value) :: members =>
    (∀ b ∈ name, IsPlainByte b) ∧ IsPlain value ∧ IsPlainMembers members

end

theorem compactItems_cons {item : Json} {items : List Json} (h : items ≠ []) :
    compactItems (item :: items) = compact item ++ 0x2C :: compactItems items := by
  cases items with
  | nil => exact absurd rfl h
  | cons next items => rw [compactItems]; nofun

theorem compactMembers_cons {name : Bytes} {value : Json} {members : List (Bytes × Json)}
    (h : members ≠ []) :
    compactMembers ((name, value) :: members) =
      quoted name ++ 0x3A :: (compact value ++ 0x2C :: compactMembers members) := by
  cases members with
  | nil => exact absurd rfl h
  | cons next members => rw [compactMembers]; nofun

theorem prettyItems_cons {depth : Nat} {item : Json} {items : List Json} (h : items ≠ []) :
    prettyItems depth (item :: items) =
      newline depth ++ prettyAt depth item ++ 0x2C :: prettyItems depth items := by
  cases items with
  | nil => exact absurd rfl h
  | cons next items => rw [prettyItems]; nofun

theorem prettyMembers_cons {depth : Nat} {name : Bytes} {value : Json}
    {members : List (Bytes × Json)} (h : members ≠ []) :
    prettyMembers depth ((name, value) :: members) = newline depth ++ quoted name ++
      0x3A :: 0x20 :: (prettyAt depth value ++ 0x2C :: prettyMembers depth members) := by
  cases members with
  | nil => exact absurd rfl h
  | cons next members => rw [prettyMembers]; nofun

theorem prettyAt_array {depth : Nat} {items : List Json} (h : items ≠ []) :
    prettyAt depth (.array items) =
      0x5B :: (prettyItems (depth + 1) items ++ newline depth ++ [0x5D]) := by
  cases items with
  | nil => exact absurd rfl h
  | cons item items => rw [prettyAt]

theorem prettyAt_object {depth : Nat} {members : List (Bytes × Json)} (h : members ≠ []) :
    prettyAt depth (.object members) =
      0x7B :: (prettyMembers (depth + 1) members ++ newline depth ++ [0x7D]) := by
  cases members with
  | nil => exact absurd rfl h
  | cons member members => rw [prettyAt]

theorem Padded.of_self {P : Bytes → Prop} {core : Bytes} (h : P core) : Padded P core :=
  ⟨[], core, [], blanks_nil, h, blanks_nil, by rw [List.nil_append, List.append_nil]⟩

theorem Padded.of_front {P : Bytes → Prop} {front core : Bytes} (hfront : Blanks front)
    (h : P core) : Padded P (front ++ core) :=
  ⟨front, core, [], hfront, h, blanks_nil, by rw [List.append_nil]⟩

mutual

/-- **A plain tree has a text without blanks.** -/
theorem spells_compact (j : Json) (h : IsPlain j) : Spells j (compact j) := by
  cases j with
  | null => rfl
  | bool b => rfl
  | number digits => exact ⟨h, rfl⟩
  | string body => exact ⟨h, rfl⟩
  | array items =>
    by_cases hitems : items = []
    · exact .inl ⟨hitems, [], blanks_nil, by rw [hitems]; rfl⟩
    · exact .inr ⟨_, spellsItems_compact items hitems h, rfl⟩
  | object members =>
    by_cases hmembers : members = []
    · exact .inl ⟨hmembers, [], blanks_nil, by rw [hmembers]; rfl⟩
    · exact .inr ⟨_, spellsMembers_compact members hmembers h, rfl⟩

theorem spellsItems_compact (items : List Json) (hitems : items ≠ []) (h : IsPlainItems items) :
    SpellsItems items (compactItems items ++ [0x5D]) := by
  cases items with
  | nil => exact absurd rfl hitems
  | cons item items =>
    have hfirst := Padded.of_self (spells_compact item h.1)
    by_cases hrest : items = []
    · exact ⟨_, _, hfirst, by rw [hrest, compactItems], .inl ⟨hrest, rfl⟩⟩
    · refine ⟨_, _, hfirst, ?_, .inr ⟨_, spellsItems_compact items hrest h.2, rfl⟩⟩
      rw [compactItems_cons hrest, List.append_assoc, List.cons_append]

theorem spellsMembers_compact (members : List (Bytes × Json)) (hmembers : members ≠ [])
    (h : IsPlainMembers members) :
    SpellsMembers members (compactMembers members ++ [0x7D]) := by
  cases members with
  | nil => exact absurd rfl hmembers
  | cons member members =>
    obtain ⟨name, value⟩ := member
    have hlabel : Padded (SpellsString name) (quoted name) := .of_self ⟨h.1, rfl⟩
    have hfirst := Padded.of_self (spells_compact value h.2.1)
    by_cases hrest : members = []
    · refine ⟨_, _, _, hlabel, hfirst, ?_, .inl ⟨hrest, rfl⟩⟩
      rw [hrest, compactMembers, List.append_assoc, List.cons_append]
    · refine ⟨_, _, _, hlabel, hfirst, ?_,
        .inr ⟨_, spellsMembers_compact members hrest h.2.2, rfl⟩⟩
      rw [compactMembers_cons hrest]
      simp only [List.append_assoc, List.cons_append]

end

theorem blanks_newline (depth : Nat) : Blanks (newline depth) := by
  intro b hb
  rcases List.mem_cons.mp hb with rfl | hb
  · decide
  · rw [List.eq_of_mem_replicate hb]
    decide

theorem blanks_blank : Blanks [0x20] := by
  rintro _ (_ | ⟨_, ⟨⟩⟩)
  decide

mutual

/-- **A plain tree has a text with a line for each element and member.** -/
theorem spells_prettyAt (depth : Nat) (j : Json) (h : IsPlain j) : Spells j (prettyAt depth j) := by
  cases j with
  | null => rfl
  | bool b => rfl
  | number digits => exact ⟨h, rfl⟩
  | string body => exact ⟨h, rfl⟩
  | array items =>
    by_cases hitems : items = []
    · exact .inl ⟨hitems, [], blanks_nil, by rw [hitems]; rfl⟩
    · refine .inr ⟨_, spellsItems_pretty (depth + 1) items hitems (blanks_newline depth) h, ?_⟩
      rw [prettyAt_array hitems]
  | object members =>
    by_cases hmembers : members = []
    · exact .inl ⟨hmembers, [], blanks_nil, by rw [hmembers]; rfl⟩
    · refine .inr
        ⟨_, spellsMembers_pretty (depth + 1) members hmembers (blanks_newline depth) h, ?_⟩
      rw [prettyAt_object hmembers]

theorem spellsItems_pretty (depth : Nat) (items : List Json) (hitems : items ≠ []) {back : Bytes}
    (hback : Blanks back) (h : IsPlainItems items) :
    SpellsItems items (prettyItems depth items ++ back ++ [0x5D]) := by
  cases items with
  | nil => exact absurd rfl hitems
  | cons item items =>
    have hitem := spells_prettyAt depth item h.1
    by_cases hrest : items = []
    · refine ⟨_, _, ⟨_, _, _, blanks_newline depth, hitem, hback, rfl⟩, ?_, .inl ⟨hrest, rfl⟩⟩
      rw [hrest, prettyItems, List.append_assoc (newline depth)]
    · refine ⟨_, _, .of_front (blanks_newline depth) hitem, ?_,
        .inr ⟨_, spellsItems_pretty depth items hrest hback h.2, rfl⟩⟩
      rw [prettyItems_cons hrest]
      simp only [List.append_assoc, List.cons_append]

theorem spellsMembers_pretty (depth : Nat) (members : List (Bytes × Json)) (hmembers : members ≠ [])
    {back : Bytes} (hback : Blanks back) (h : IsPlainMembers members) :
    SpellsMembers members (prettyMembers depth members ++ back ++ [0x7D]) := by
  cases members with
  | nil => exact absurd rfl hmembers
  | cons member members =>
    obtain ⟨name, value⟩ := member
    have hlabel : Padded (SpellsString name) (newline depth ++ quoted name) :=
      .of_front (blanks_newline depth) ⟨h.1, rfl⟩
    have hvalue := spells_prettyAt depth value h.2.1
    by_cases hrest : members = []
    · refine ⟨_, _, _, hlabel, ⟨_, _, _, blanks_blank, hvalue, hback, rfl⟩, ?_, .inl ⟨hrest, rfl⟩⟩
      rw [hrest, prettyMembers]
      simp only [List.append_assoc, List.cons_append, List.nil_append]
    · refine ⟨_, _, _, hlabel, .of_front blanks_blank hvalue, ?_,
        .inr ⟨_, spellsMembers_pretty depth members hrest hback h.2.2, rfl⟩⟩
      rw [prettyMembers_cons hrest]
      simp only [List.append_assoc, List.cons_append, List.nil_append]

end

end StakeLedger.Json
