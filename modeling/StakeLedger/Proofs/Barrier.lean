import Mathlib.Data.List.Nodup
import StakeLedger.Proofs.Signals

/-!
# When a start succeeds

A start counts the signals of readiness, whichever components they come from. So it succeeds when
there are as many as components, none of which has failed by then (`Startup.receive_cases`). If
no component says twice that it is ready, these are the signals of all components, and a start is
a barrier: nobody passes before all have arrived (`Supervision.barrier_of_start`). A component that
says so twice passes for another one.

* `Supervision.Passes` says when all may pass, and `Supervision.Refuses` what an error means. An
  error means that whatever the components do.
-/

namespace StakeLedger

/-- **What a start comes to.** The signals that decide are all of readiness, up to as many as are
expected, or up to the first failure, or up to the end. -/
theorem Startup.receive_cases {expected ready : Nat} (hlt : ready < expected)
    (arrived : List Signal) :
    (∃ heard rest, arrived = heard ++ rest ∧ (∀ x ∈ heard, x.occurrence = .ready) ∧
      ready + heard.length = expected ∧ receive expected ready arrived = .complete) ∨
    (∃ heard i cause rest, arrived = heard ++ .failed i cause :: rest ∧
      (∀ x ∈ heard, x.occurrence = .ready) ∧ ready + heard.length < expected ∧
      receive expected ready arrived = .failed i cause) ∨
    ((∀ x ∈ arrived, x.occurrence = .ready) ∧ ready + arrived.length < expected ∧
      receive expected ready arrived = .waiting (ready + arrived.length)) := by
  induction arrived generalizing ready with
  | nil => exact .inr (.inr ⟨nofun, hlt, rfl⟩)
  | cons x arrived ih =>
    cases x with
    | failed i cause => exact .inr (.inl ⟨[], i, cause, arrived, rfl, nofun, hlt, rfl⟩)
    | ready i =>
      have hcons : ∀ heard : List Signal, (∀ x ∈ heard, x.occurrence = .ready) →
          ∀ x ∈ Signal.ready i :: heard, x.occurrence = .ready :=
        fun heard hh => List.forall_mem_cons.mpr ⟨rfl, hh⟩
      rw [receive]
      split
      · next hnext =>
        rcases ih hnext with ⟨heard, rest, rfl, hh, hl, hr⟩ | ⟨heard, j, cause, rest, rfl, hh, hl, hr⟩ |
          ⟨hh, hl, hr⟩
        · exact .inl ⟨_ :: heard, rest, rfl, hcons heard hh, by rw [List.length_cons]; omega, hr⟩
        · exact .inr (.inl ⟨_ :: heard, j, cause, rest, rfl, hcons heard hh,
            by rw [List.length_cons]; omega, hr⟩)
        · refine .inr (.inr ⟨hcons arrived hh, by rw [List.length_cons]; omega, ?_⟩)
          rw [hr, List.length_cons, Nat.add_assoc, Nat.add_comm 1]
      · exact .inl ⟨[_], arrived, rfl, hcons [] nofun, by rw [List.length_singleton]; omega, rfl⟩

namespace Signal

/-- No component says twice that it is ready. -/
def ReadyOnce (xs : List Signal) : Prop :=
  ∀ i, xs.count (ready i) ≤ 1

theorem ReadyOnce.of_subperm {xs ys : List Signal} (hy : ReadyOnce ys) (hs : xs.Subperm ys) :
    ReadyOnce xs :=
  fun i => Nat.le_trans (hs.count_le (ready i)) (hy i)

theorem eq_ready_of_occurrence {x : Signal} (hx : x.occurrence = .ready) : x = .ready x.component := by
  cases x with
  | ready i => rfl
  | failed i cause => cases hx

theorem component_of_mem_ofScript {position : Nat} {script : List Action} {x : Signal}
    (hx : x ∈ ofScript position script) : x.component = position := by
  induction script with
  | nil => cases hx
  | cons action rest ih =>
    cases action with
    | waitUntil time => exact ih hx
    | report => exact (List.mem_cons.mp hx).elim (fun he => he ▸ rfl) ih
    | fail cause => exact (List.mem_singleton.mp hx) ▸ rfl
    | awaitStop => cases hx

/-- A component that says that it failed does. -/
theorem fail_of_mem_ofScript {position i : Nat} {script : List Action} {cause : NodeError}
    (hx : failed i cause ∈ ofScript position script) : .fail cause ∈ script := by
  induction script with
  | nil => cases hx
  | cons action rest ih =>
    cases action with
    | waitUntil time => exact List.mem_cons_of_mem _ (ih hx)
    | report =>
      rcases List.mem_cons.mp hx with he | hx
      · cases he
      · exact List.mem_cons_of_mem _ (ih hx)
    | fail cause' =>
      cases List.mem_singleton.mp hx
      exact List.mem_cons_self
    | awaitStop => cases hx

theorem ReadyOnce.nodup {heard : List Signal} (ho : ReadyOnce heard)
    (hr : ∀ x ∈ heard, x.occurrence = .ready) : heard.Nodup := by
  refine List.nodup_iff_count_le_one.mpr fun x => ?_
  by_cases hx : x ∈ heard
  · rw [eq_ready_of_occurrence (hr x hx)]
    exact ho x.component
  · rw [List.count_eq_zero.mpr hx]
    exact Nat.zero_le 1

/-- As many signals of readiness as components, no two from one component, are one from each. -/
theorem ReadyOnce.ready_mem {n : Nat} {heard : List Signal} (ho : ReadyOnce heard)
    (hr : ∀ x ∈ heard, x.occurrence = .ready) (hc : ∀ x ∈ heard, x.component < n)
    (hl : heard.length = n) : ∀ i < n, ready i ∈ heard := by
  have hnodup : (heard.map component).Nodup := by
    refine List.Nodup.map_on (fun x hx y hy he => ?_) (ho.nodup hr)
    rw [eq_ready_of_occurrence (hr x hx), eq_ready_of_occurrence (hr y hy), he]
  have hsub : (heard.map component).Subperm (List.range n) := by
    refine hnodup.subperm fun i hi => ?_
    obtain ⟨x, hx, rfl⟩ := List.mem_map.mp hi
    exact List.mem_range.mpr (hc x hx)
  have hperm : (heard.map component).Perm (List.range n) :=
    hsub.perm_of_length_le (by simp [hl])
  intro i hi
  obtain ⟨x, hx, rfl⟩ := List.mem_map.mp (hperm.mem_iff.mpr (List.mem_range.mpr hi))
  exact eq_ready_of_occurrence (hr x hx) ▸ hx

end Signal

namespace Supervision

variable {components : List Component} {arrived : List Signal}

theorem mem_signals {x : Signal} (hx : x ∈ signals components) :
    ∃ c, components[x.component]? = some c ∧ x ∈ Signal.ofScript x.component c.script := by
  obtain ⟨l, hl, hx⟩ := List.mem_flatten.mp hx
  obtain ⟨i, hi, rfl⟩ := List.mem_mapIdx.mp hl
  rw [Signal.component_of_mem_ofScript hx]
  exact ⟨components[i], List.getElem?_eq_getElem hi, hx⟩

/-- Among the signals that arrive, all components say that they are ready, and none fails before
that. -/
def Passes (components : List Component) (arrived : List Signal) : Prop :=
  ∃ heard rest, arrived = heard ++ rest ∧ (∀ x ∈ heard, x.occurrence = .ready) ∧
    ∀ i < components.length, .ready i ∈ heard

/-- What an error says about the signals that arrived in time. -/
inductive Refuses (components : List Component) (arrived : List Signal) : NodeError → Prop
  /-- A component failed, before there were as many signals of readiness as components. -/
  | failed (heard rest : List Signal) (i : Nat) (cause : NodeError) (c : Component)
      (he : arrived = heard ++ .failed i cause :: rest) (hr : ∀ x ∈ heard, x.occurrence = .ready)
      (hl : heard.length < components.length) (hc : components[i]? = some c)
      (hf : .fail cause ∈ c.script) : Refuses components arrived (.component c.name cause.message)
  /-- The time ended. Nobody had failed, and fewer signals of readiness came than components are. -/
  | late (hr : ∀ x ∈ arrived, x.occurrence = .ready) (hl : arrived.length < components.length) :
      Refuses components arrived (.startupTimeout arrived.length components.length)

/-- **Whatever arrives in whatever order**, an error means what it says, and without repetition
nobody passes before all have arrived. -/
theorem passes_and_refuses (hsaid : arrived.Subperm (signals components)) :
    (decision components arrived = .ok () → Signal.ReadyOnce arrived → Passes components arrived) ∧
      ∀ e, decision components arrived = .error e → Refuses components arrived e := by
  rw [decision]
  split
  · next hc => exact ⟨fun _ _ => ⟨[], arrived, rfl, nofun, by simp [hc]⟩, nofun⟩
  · next hc =>
    rcases Startup.receive_cases (List.length_pos_of_ne_nil hc) arrived with
      ⟨heard, rest, rfl, hr, hl, hreceive⟩ | ⟨heard, i, cause, rest, rfl, hr, hl, hreceive⟩ |
      ⟨hr, hl, hreceive⟩ <;> rw [hreceive] <;> rw [Nat.zero_add] at hl
    · refine ⟨fun _ ho => ⟨heard, rest, rfl, hr, ?_⟩, nofun⟩
      have hheard := (List.sublist_append_left heard rest).subperm
      refine (ho.of_subperm hheard).ready_mem hr (fun x hx => ?_) hl
      obtain ⟨c, hc, -⟩ := mem_signals ((hheard.trans hsaid).subset hx)
      exact (List.getElem?_eq_some_iff.mp hc).1
    · refine ⟨nofun, fun e he => ?_⟩
      obtain ⟨c, hc, hf⟩ := mem_signals
        (hsaid.subset (List.mem_append_right heard List.mem_cons_self))
      have hname : nameOf components i = c.name := by
        rw [nameOf, show components[i]? = some c from hc]
      cases he
      rw [hname]
      exact .failed heard rest i cause c rfl hr hl hc (Signal.fail_of_mem_ofScript hf)
    · refine ⟨nofun, fun e he => ?_⟩
      cases he
      rw [Nat.zero_add]
      exact .late hr hl

/-- **A start is a barrier**, if no component says twice that it is ready. Whatever the components
do and in whatever order their signals arrive, it succeeds only if all have said that they are
ready, before the time is over, and no failure came first. Otherwise, and then whether components
repeat themselves or not, its error names a component that failed, or says that the time is over,
and no task is left. -/
theorem barrier_of_start (components : List Component) (timeout : Nat) :
    (∀ arrived, arrived.Subperm (signals components) →
      (decision components arrived = .ok () → Signal.ReadyOnce arrived →
        Passes components arrived) ∧
      ∀ e, decision components arrived = .error e → Refuses components arrived e) ∧
    let r := start components timeout
    ∃ arrived, Heard components timeout r.schedule.log arrived ∧
      r.outcome = decision components arrived ∧
      (r.outcome = .ok () → Signal.ReadyOnce (signals components) →
        ∀ i < components.length, ∃ time < timeout, ⟨.ready, i, time⟩ ∈ r.schedule.log) ∧
      (r.outcome ≠ .ok () → r.schedule.tasks = []) := by
  refine ⟨fun arrived => passes_and_refuses, ?_⟩
  obtain ⟨arrived, hh, ho, ha⟩ := exists_heard components timeout
  refine ⟨arrived, hh, ho, fun hok honce i hi => ?_, ha⟩
  obtain ⟨heard, rest, he, -, hall⟩ :=
    (passes_and_refuses hh.said).1 (ho ▸ hok) (honce.of_subperm hh.said)
  exact hh.logged _ (he ▸ List.mem_append_left _ (hall i hi))

/-- Two components report at different times, and a start waits for both. -/
theorem barrier_of_start_two :
    let components : List Component :=
      [⟨"a", [.waitUntil 5, .report, .awaitStop], none⟩, ⟨"b", [.waitUntil 10, .report, .awaitStop], none⟩]
    let r := start components 100
    Signal.ReadyOnce (signals components) ∧ r.outcome = .ok () ∧
      ∀ i < 2, ∃ time < 100, ⟨.ready, i, time⟩ ∈ r.schedule.log := by
  intro components r
  have hsignals : signals components = [.ready 0, .ready 1] := by rfl
  have hnodup : (signals components).Nodup := by
    rw [hsignals]
    decide
  have honce : Signal.ReadyOnce (signals components) := fun i =>
    List.nodup_iff_count_le_one.mp hnodup (.ready i)
  have hok : r.outcome = .ok () := by decide +kernel
  obtain ⟨-, arrived, -, -, hlogged, -⟩ := barrier_of_start components 100
  exact ⟨honce, hok, hlogged hok honce⟩

/-- A component that reports twice passes for one that never does. -/
theorem start_ok_of_report_twice :
    let components : List Component :=
      [⟨"a", [.waitUntil 5, .report, .report, .awaitStop], none⟩, ⟨"b", [.awaitStop], none⟩]
    let r := start components 100
    r.outcome = .ok () ∧ ∀ time, ⟨.ready, 1, time⟩ ∉ r.schedule.log := by
  intro components r
  have hlog : r.schedule.log = [⟨.ready, 0, 5⟩, ⟨.ready, 0, 5⟩] := by decide +kernel
  refine ⟨by decide +kernel, fun time => ?_⟩
  rw [hlog]
  simp

end Supervision

end StakeLedger
