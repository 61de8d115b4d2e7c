import Mathlib.Data.List.Infix
import StakeLedger.Offline.CommandLine
import StakeLedger.Proofs.IdentifierText

/-!
# What a command line gives

The value of an option stands in the arguments as it is, after the name of the option or after an
equals sign. So an identifier that a command names stands there as its text.

* `Command.Gives` says that arguments give an option a value. All the options that are collected
  are given (`Command.options_of_collect`).
* `Command.accepts_identifier_iff`: the options that name an identifier take texts of identifiers
  only. `Command.gives_of_parse`: the identifier that a command names is given by its text.
-/

namespace StakeLedger.Command

variable {names args : List String} {limit : Nat} {a b : Arguments} {arg name value : String}
  {c : Command} {x : Identifier}

/-- Whether arguments give an option a value: after its name, or after an equals sign. -/
def Gives (args : List String) (name value : String) : Prop :=
  ["--" ++ name, value] <:+: args ∨ ["--" ++ name ++ "=" ++ value] <:+: args

theorem Gives.of_isInfix {rest : List String} (h : Gives rest name value) (hrest : rest <:+: args) :
    Gives args name value :=
  h.imp (·.trans hrest) (·.trans hrest)

/-! ## Options that are collected -/

theorem options_of_addOption (h : addOption names a name value = .ok b) :
    b.options = a.options ++ [(name, value)] := by
  unfold addOption at h
  split at h
  · cases h
    rfl
  · cases h

theorem options_of_addPositional (h : addPositional limit a arg = .ok b) :
    b.options = a.options := by
  unfold addPositional at h
  split at h
  · cases h
    rfl
  · cases h

theorem options_of_foldlM (h : args.foldlM (addPositional limit) a = .ok b) :
    b.options = a.options := by
  induction args generalizing a with
  | nil =>
    cases h
    rfl
  | cons arg rest ih =>
    obtain ⟨next, hnext, hrest⟩ := bind_eq_ok_iff.mp h
    rw [ih hrest, options_of_addPositional hnext]

/-- A long option is its name, and after an equals sign its value if it has one. -/
theorem eq_of_splitLong? {value? : Option String} (h : splitLong? arg = some (name, value?)) :
    arg = "--" ++ name ++ value?.elim "" ("=" ++ ·) := by
  unfold splitLong? at h
  split at h
  · next body harg =>
    have hbody := List.takeWhile_append_dropWhile (p := (· ≠ '=')) (l := body)
    apply String.toList_inj.mp
    rw [harg]
    split at h
    · next c value hdrop =>
      have hc : c = '=' := by
        have hne : body.dropWhile (· ≠ '=') ≠ [] := hdrop ▸ List.cons_ne_nil c value
        have hhead := List.head_dropWhile_not (p := (· ≠ '=')) hne
        simp only [hdrop, List.head_cons] at hhead
        simpa using hhead
      rw [hdrop, hc] at hbody
      cases h
      simpa using hbody.symm
    · next hdrop =>
      rw [hdrop, List.append_nil] at hbody
      cases h
      simp
  · cases h

/-- **All the options that are collected are given.** An option that waits for its value counts as
an argument in front of the others. -/
theorem options_of_collect {waiting : Option String}
    (h : collect names limit waiting a args = .ok b) :
    ∀ o ∈ b.options, o ∈ a.options ∨
      Gives ((waiting.map ("--" ++ ·)).toList ++ args) o.1 o.2 := by
  fun_induction collect names limit waiting a args with
  | case1 a =>
    cases h
    exact fun o => .inl
  | case2 | case3 | case4 | case7 | case8 | case11 | case12 => cases h
  | case5 name a value rest _ a' hadd ih =>
    intro o ho
    rcases ih h o ho with ho | ho
    · rw [options_of_addOption hadd, List.mem_append, List.mem_singleton] at ho
      rcases ho with ho | rfl
      · exact .inl ho
      · exact .inr (.inl ⟨[], rest, by simp⟩)
    · exact .inr (ho.of_isInfix ⟨["--" ++ name, value], [], by simp⟩)
  | case6 a rest =>
    rw [options_of_foldlM h]
    exact fun o => .inl
  | case9 a arg rest _ _ name value hsplit a' hadd ih =>
    intro o ho
    rcases ih h o ho with ho | ho
    · rw [options_of_addOption hadd, List.mem_append, List.mem_singleton] at ho
      rcases ho with ho | rfl
      · exact .inl ho
      · refine .inr (.inr ⟨[], rest, ?_⟩)
        rw [eq_of_splitLong? hsplit]
        simp [String.append_assoc]
    · exact .inr (ho.of_isInfix ⟨[arg], [], by simp⟩)
  | case10 a arg rest _ _ name hsplit ih =>
    rw [eq_of_splitLong? hsplit]
    simpa using ih h
  | case13 a arg rest _ _ _ _ a' hadd ih =>
    intro o ho
    rw [← options_of_addPositional hadd]
    exact (ih h o ho).imp_right fun ho => ho.of_isInfix ⟨[arg], [], by simp⟩

/-! ## Identifiers -/

/-- The options that name an identifier take its text only. -/
theorem accepts_identifier_iff (hname : name = "entity" ∨ name = "account") :
    accepts name value = true ↔ ∃ x : Identifier, value = x.text := by
  rw [accepts, if_pos hname]
  rcases Identifier.parse_cases value with ⟨x, hx, hvalue⟩ | ⟨fault, hfault⟩
  · simp only [hx, true_iff]
    exact ⟨x, hvalue⟩
  · simp only [hfault, Bool.false_eq_true, false_iff]
    exact Identifier.exists_invalidEncoding_iff.mp ⟨fault, hfault⟩

theorem gives_of_identifier? (h : collect names limit none {} args = .ok a)
    (hx : identifier? a name = some x) : Gives args name x.text := by
  obtain ⟨o, ho, hvalue⟩ :=
    Option.map_eq_some_iff.mp (Identifier.bind_parse_eq_some_iff.mp hx)
  have hname : o.1 = name := by simpa using List.find?_some ho
  rcases options_of_collect h o (List.mem_of_find?_eq_some ho) with hnil | hgives
  · cases hnil
  · rw [← hname, ← hvalue]
    exact hgives

/-- The identifier that a command names, and the option that it is given to. -/
def named? : Command → Option (String × Identifier)
  | assign _ entity _ _ _ => some ("entity", entity)
  | prove _ account => some ("account", account)
  | root _ | pack _ _ => none

/-- A command is completed from the arguments that were collected for it. -/
theorem exists_collect_of_complete {build : Arguments → Option Command}
    (h : (collect names limit none {} args >>= fun a => complete (build a)) = .ok c) :
    ∃ a, collect names limit none {} args = .ok a ∧ build a = some c := by
  obtain ⟨a, ha, hc⟩ := bind_eq_ok_iff.mp h
  refine ⟨a, ha, ?_⟩
  cases hb : build a <;> rw [hb] at hc <;> cases hc
  rfl

/-- **The identifier that a command names is given by its text.** -/
theorem gives_of_parse (h : parse args = .ok c) (hx : c.named? = some (name, x)) :
    Gives args name x.text := by
  unfold parse at h
  split at h
  case h_1 =>
    obtain ⟨a, -, hc⟩ := exists_collect_of_complete h
    split at hc <;> cases hc
    cases hx
  case h_2 rest =>
    obtain ⟨a, ha, hc⟩ := exists_collect_of_complete h
    split at hc
    · obtain ⟨entity, hentity, heq⟩ := Option.bind_eq_some_iff.mp hc
      cases heq
      cases hx
      exact (gives_of_identifier? ha hentity).of_isInfix (List.suffix_cons _ _).isInfix
    · cases hc
  case h_3 rest =>
    obtain ⟨a, ha, hc⟩ := exists_collect_of_complete h
    split at hc
    · obtain ⟨account, haccount, heq⟩ := Option.bind_eq_some_iff.mp hc
      cases heq
      cases hx
      exact (gives_of_identifier? ha haccount).of_isInfix (List.suffix_cons _ _).isInfix
    · cases hc
  case h_4 =>
    obtain ⟨a, -, hc⟩ := exists_collect_of_complete h
    split at hc <;> cases hc
    cases hx
  -- what is left asks for help or is refused
  all_goals cases h

end StakeLedger.Command
