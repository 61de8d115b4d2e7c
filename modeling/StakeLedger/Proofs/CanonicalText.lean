import StakeLedger.Proofs.CommandLine
import StakeLedger.Proofs.JsonForms

/-!
# An identifier has one text

Wherever identifiers are given as text, each of them has exactly one form, and every other text is
refused: by itself, as a string of a JSON text, and on a command line.

* `Identifier.ofJson?_eq_some_iff` is about JSON.
* `Identifier.text_canonical` is the main statement.
-/

namespace StakeLedger.Identifier

theorem ofJson?_eq_some_iff {j : Json} {x : Identifier} :
    ofJson? j = some x ↔ j.text? = some x.text :=
  bind_parse_eq_some_iff

/-- **An identifier has exactly one text.** It is read from that text, and no other text is read as
it; a text that is not one of an identifier is an invalid encoding. So it is with the strings of
JSON texts, of which that text is written. And so it is with command lines: an option that names an
identifier takes such a text only, and the identifier that a command names is given by its text. -/
theorem text_canonical :
    (∀ x : Identifier, parse x.text = .ok x) ∧
    (∀ s x, parse s = .ok x ↔ s = x.text) ∧
    (∀ s, (∃ fault, parse s = .error (.invalidEncoding fault)) ↔
      ¬ ∃ x : Identifier, s = x.text) ∧
    (∀ x : Identifier, (toJson x).text? = some x.text) ∧
    (∀ (j : Json) (x : Identifier), ofJson? j = some x ↔ j.text? = some x.text) ∧
    (∀ s, (Command.accepts "entity" s = true ↔ ∃ x : Identifier, s = x.text) ∧
      (Command.accepts "account" s = true ↔ ∃ x : Identifier, s = x.text)) ∧
    ∀ args c name (x : Identifier), Command.parse args = .ok c → c.named? = some (name, x) →
      Command.Gives args name x.text :=
  ⟨parse_text, fun _ _ => parse_eq_ok_iff, fun _ => exists_invalidEncoding_iff,
    fun x => ofJson?_eq_some_iff.mp (JsonForm.ofJson?_toJson x), fun _ _ => ofJson?_eq_some_iff,
    fun _ => ⟨Command.accepts_identifier_iff (.inl rfl), Command.accepts_identifier_iff (.inr rfl)⟩,
    fun _ _ _ _ => Command.gives_of_parse⟩

/-- The identifier zero on a command line. -/
theorem text_canonical_zero :
    let args := ["prove", "--account", zero.text, "s.json"]
    Command.parse args = .ok (.prove "s.json" zero) ∧ Command.Gives args "account" zero.text := by
  intro args
  have hparse : Command.parse args = .ok (.prove "s.json" zero) := by decide +kernel
  obtain ⟨-, -, -, -, -, -, hgives⟩ := text_canonical
  exact ⟨hparse, hgives args _ _ _ hparse rfl⟩

end StakeLedger.Identifier
