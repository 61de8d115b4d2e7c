import Mathlib.Data.List.Perm.Basic
import Mathlib.Data.List.Perm.Subperm
import StakeLedger.Node.Supervision

/-!
# What a start hears

A start listens to the channel on which components report. Whatever the components do, and in
whatever order their tasks take turns, it hears only what components said in time, each signal
once.

* `Supervision.signals` is all that components say that are not told to stop, and
  `Signal.Logged` says that the log shows a signal before the time to start ends.
* `Schedule.Balance` accounts for the signals while a start goes on: each was received, is on the
  channel, or is yet to be sent by a task. It is kept by a turn (`Balance.turn`), a round, a look
  at the channel and the passing of time.
* `Supervision.exists_heard` is what a start comes to: the decision on signals that were heard, and
  an end to all tasks unless it succeeds.
-/

namespace StakeLedger

/-! ## What components say -/

namespace Signal

/-- The signals of a script that is run by the component of the given position until it would
wait for the request to stop. -/
def ofScript (position : Nat) : List Action → List Signal
  | [] => []
  | .waitUntil _ :: rest => ofScript position rest
  | .report :: rest => .ready position :: ofScript position rest
  | .fail cause :: _ => [.failed position cause]
  | .awaitStop :: _ => []

/-- The component that a signal comes from. -/
def component : Signal → Nat
  | .ready i => i
  | .failed i _ => i

/-- What the log tells when a signal is sent. -/
def occurrence : Signal → Occurrence
  | .ready _ => .ready
  | .failed _ _ => .failed

/-- The log shows the signal at a time before the given one. -/
def Logged (timeout : Nat) (log : List LogEntry) (x : Signal) : Prop :=
  ∃ time < timeout, ⟨x.occurrence, x.component, time⟩ ∈ log

theorem Logged.mono {timeout : Nat} {log log' : List LogEntry} {x : Signal}
    (hx : x.Logged timeout log) (hl : log ⊆ log') : x.Logged timeout log' :=
  hx.imp fun _ h => ⟨h.1, hl h.2⟩

end Signal

namespace Task

/-- The signals that a task has yet to send before it would wait for the request to stop. -/
def pending (t : Task) : List Signal :=
  t.unsent.toList ++ Signal.ofScript t.component t.script

/-- The task without the room that is kept for it. -/
def leaveRoom (t : Task) : Task :=
  { t with hasRoom := false }

theorem flatMap_pending_leaveRoom (ts : List Task) :
    (ts.map leaveRoom).flatMap pending = ts.flatMap pending := by
  rw [List.flatMap_map]
  rfl

theorem flatMap_unsent_leaveRoom (ts : List Task) :
    (ts.map leaveRoom).flatMap (fun t => t.unsent.toList) = ts.flatMap fun t => t.unsent.toList := by
  rw [List.flatMap_map]
  rfl

theorem map_leaveRoom_admit (ts : List Task) :
    (ts.map fun t => { t with hasRoom := true }).map leaveRoom = ts.map leaveRoom := by
  rw [List.map_map]
  rfl

end Task

/-- The signals of components that are not told to stop. -/
def Supervision.signals (components : List Component) : List Signal :=
  (components.mapIdx fun i c => Signal.ofScript i c.script).flatten

/-! ## Accounting for signals -/

namespace Schedule

/-- The state of a start that goes on. `received` are the signals that it received, and `running`
are the tasks that are taking their turns, which are in none of the lists of the schedule. -/
structure Balance (all : List Signal) (timeout : Nat) (received : List Signal)
    (running : List Task) (s : Schedule) : Prop where
  isOpen : s.isOpen = true
  early : s.now < timeout
  balanced : ∀ x, all.count x = received.count x + s.inbox.count x +
    ((running ++ s.tasks).flatMap Task.pending).count x
  logged : ∀ x ∈ received ++ s.inbox ++ (running ++ s.tasks).flatMap (fun t => t.unsent.toList),
    x.Logged timeout s.recorded
  unstopped : ∀ t ∈ running ++ s.tasks, t.stopRequested = false

namespace Balance

variable {all received : List Signal} {timeout : Nat} {running running' : List Task}
  {s s' : Schedule} {t t' : Task}

/-- Tasks may change their places, time may pass, and room may be kept for other tasks. -/
theorem regroup (hb : Balance all timeout received running s) (ho : s'.isOpen = s.isOpen)
    (hn : s'.now < timeout) (hi : s'.inbox = s.inbox) (hr : s'.recorded = s.recorded)
    (hp : ((running' ++ s'.tasks).map Task.leaveRoom).Perm ((running ++ s.tasks).map Task.leaveRoom)) :
    Balance all timeout received running' s' where
  isOpen := ho.trans hb.isOpen
  early := hn
  balanced x := by
    have hx := (hp.flatMap_right Task.pending).count_eq x
    rw [Task.flatMap_pending_leaveRoom, Task.flatMap_pending_leaveRoom] at hx
    rw [hi, hx, hb.balanced]
  logged x hx := by
    have hu := (hp.flatMap_right fun t => t.unsent.toList).mem_iff (a := x)
    rw [Task.flatMap_unsent_leaveRoom, Task.flatMap_unsent_leaveRoom] at hu
    rw [List.mem_append, hi, hu, ← List.mem_append] at hx
    exact hr ▸ hb.logged x hx
  unstopped t ht := by
    obtain ⟨t', ht', he⟩ := List.mem_map.mp (hp.mem_iff.mp (List.mem_map_of_mem ht))
    exact (congrArg Task.stopRequested he).symm.trans (hb.unstopped t' ht')

/-- A task goes on without sending a signal. -/
theorem proceed (hb : Balance all timeout received (t :: running) s) (hp : t'.pending = t.pending)
    (hu : ∀ x ∈ t'.unsent, x.Logged timeout s.recorded) (hs : t'.stopRequested = t.stopRequested) :
    Balance all timeout received (t' :: running) s where
  isOpen := hb.isOpen
  early := hb.early
  balanced := by simpa only [List.cons_append, List.flatMap_cons, hp] using hb.balanced
  logged x hx := by
    have hl := hb.logged x
    simp only [List.cons_append, List.flatMap_cons, List.mem_append, Option.mem_toList] at hx hl
    rcases hx with hx | hx | hx
    · exact hl (.inl hx)
    · exact hu x hx
    · exact hl (.inr (.inr hx))
  unstopped := by simpa only [List.cons_append, List.forall_mem_cons, hs] using hb.unstopped

/-- A task that has nothing more to say may end. -/
theorem finish (hb : Balance all timeout received (t :: running) s) (hp : t.pending = []) :
    Balance all timeout received running s where
  isOpen := hb.isOpen
  early := hb.early
  balanced := by simpa only [List.cons_append, List.flatMap_cons, hp, List.nil_append] using hb.balanced
  logged x hx := by
    have hl := hb.logged x
    simp only [List.cons_append, List.flatMap_cons, List.mem_append] at hx hl
    exact hl (hx.imp_right .inr)
  unstopped t' ht' := hb.unstopped t' (List.mem_cons_of_mem _ ht')

theorem record (hb : Balance all timeout received running s) (occurrence : Occurrence)
    (component : Nat) : Balance all timeout received running (s.record occurrence component) where
  isOpen := hb.isOpen
  early := hb.early
  balanced := hb.balanced
  logged x hx := (hb.logged x hx).mono (List.subset_cons_self _ _)
  unstopped := hb.unstopped

/-- A task puts its signal on the channel. -/
theorem send {signal : Signal} (hb : Balance all timeout received (t :: running) s)
    (hu : t.unsent = some signal) (reserved : Nat) :
    Balance all timeout received ({ t with unsent := none } :: running)
      { s with reserved, inbox := s.inbox ++ [signal] } where
  isOpen := hb.isOpen
  early := hb.early
  balanced x := by
    have hx := hb.balanced x
    simp only [tasks, List.cons_append, List.flatMap_cons, Task.pending, hu, Option.toList_some,
      Option.toList_none, List.nil_append, List.count_append, List.count_cons, List.count_nil] at hx ⊢
    omega
  logged x hx := by
    have hl := hb.logged x
    simp only [tasks, List.cons_append, List.flatMap_cons, hu, Option.toList_some,
      Option.toList_none, List.nil_append, List.mem_append] at hx hl
    grind
  unstopped := by
    have hs := hb.unstopped
    rw [List.cons_append, List.forall_mem_cons] at hs ⊢
    exact hs

/-- A task comes to its next signal, and the log shows it. -/
theorem announce {signal : Signal} {script rest : List Action} (hu : t.unsent = none)
    (hb : Balance all timeout received ({ t with script } :: running) s)
    (hs : Signal.ofScript t.component script = signal :: Signal.ofScript t.component rest) :
    Balance all timeout received ({ t with unsent := some signal, script := rest } :: running)
      (s.record signal.occurrence signal.component) := by
  refine (hb.record _ _).proceed ?_ (fun x hx => ?_) rfl
  · simp [Task.pending, hu, hs]
  · cases hx
    exact ⟨s.now, hb.early, List.mem_cons_self⟩

/-! ### Turns -/

/-- **What comes of a signal.** A task that is done has put it on the channel, and one that has
to wait has it yet to send. -/
theorem deliver {signal : Signal} {rest : List Action}
    (hb : Balance all timeout received ({ t with unsent := some signal, script := rest } :: running) s)
    (strength : Nat) :
    (∃ s' left, s.deliver t signal rest strength = .done s' left ∧
      Balance all timeout received ({ t with unsent := none, script := rest } :: running) s') ∨
    ∃ s', s.deliver t signal rest strength = .pending s' ∧ Balance all timeout received running s' := by
  unfold Schedule.deliver
  rw [if_neg (by simp [hb.isOpen])]
  split
  · exact .inr ⟨_, rfl, hb.regroup rfl hb.early rfl rfl
      (List.perm_iff_count.mpr fun t => by simp +arith [tasks, Task.leaveRoom, List.count_cons])⟩
  · cases strength with
    | zero =>
      exact .inr ⟨_, rfl, hb.regroup rfl hb.early rfl rfl
        (List.perm_iff_count.mpr fun t => by simp +arith [tasks, Task.leaveRoom, List.count_cons])⟩
    | succ strength => exact .inl ⟨_, _, rfl, hb.send rfl _⟩

/-- A task does what it can of a script. -/
theorem run {script : List Action} {strength : Nat} (hu : t.unsent = none)
    (hb : Balance all timeout received ({ t with script } :: running) s) :
    Balance all timeout received running (s.run t strength script) := by
  -- On the script. The task, which may have got room, and the schedule change with each action.
  induction script generalizing s t strength with
  | nil => exact hb.finish (by simp [Task.pending, hu, Signal.ofScript])
  | cons action rest ih =>
    cases action with
    | waitUntil time =>
      cases strength with
      | zero =>
        exact hb.regroup rfl hb.early rfl rfl
          (List.perm_iff_count.mpr fun t => by simp +arith [Schedule.run, tasks, List.count_cons])
      | succ strength =>
        rw [Schedule.run]
        split
        · exact ih hu (hb.proceed rfl (by simp [hu]) rfl)
        · exact hb.regroup rfl hb.early rfl rfl
            (List.perm_iff_count.mpr fun t => by simp +arith [tasks, List.count_cons])
    | report =>
      have hsend : Balance all timeout received
          ({ t with unsent := some (.ready t.component), script := rest } :: running)
          (s.record .ready t.component) := announce hu hb rfl
      rw [Schedule.run]
      rcases hsend.deliver strength with ⟨s', left, hd, hb'⟩ | ⟨s', hd, hb'⟩ <;> rw [hd]
      · exact ih hu (hb'.proceed (by simp [Task.pending, hu]) (by simp [hu]) rfl)
      · exact hb'
    | fail cause =>
      have hsend : Balance all timeout received
          ({ t with unsent := some (.failed t.component cause), script := [] } :: running)
          (s.record .failed t.component) := announce hu hb rfl
      rw [Schedule.run]
      rcases hsend.deliver strength with ⟨s', left, hd, hb'⟩ | ⟨s', hd, hb'⟩ <;> rw [hd]
      · exact hb'.finish (by simp [Task.pending, Signal.ofScript])
      · exact hb'
    | awaitStop =>
      have hs : t.stopRequested = false :=
        hb.unstopped { t with script := .awaitStop :: rest } List.mem_cons_self
      rw [Schedule.run, if_neg (by simp [hs])]
      exact hb.regroup rfl hb.early rfl rfl
        (List.perm_iff_count.mpr fun t => by simp +arith [tasks, List.count_cons])

/-- **A turn keeps the account.** -/
theorem turn (hb : Balance all timeout received (t :: running) s) :
    Balance all timeout received running (s.turn t) := by
  unfold Schedule.turn
  split
  · next hu => exact run hu hb
  · next signal hu =>
    have hsend : Balance all timeout received
        ({ t with unsent := some signal, script := t.script } :: running) s := by
      rw [← hu]
      exact hb
    rcases hsend.deliver Task.strength with ⟨s', left, hd, hb'⟩ | ⟨s', hd, hb'⟩ <;>
      rw [hd]
    · exact run rfl (hb'.proceed rfl (by simp) rfl)
    · exact hb'

theorem turns (hb : Balance all timeout received running s) :
    Balance all timeout received [] (running.foldl Schedule.turn s) := by
  induction running generalizing s with
  | nil => exact hb
  | cons t rest ih => exact ih hb.turn

theorem round (hb : Balance all timeout received [] s) :
    Balance all timeout received [] s.round := by
  have htaken : Balance all timeout received (s.runnable.take roundLength)
      { s with runnable := s.runnable.drop roundLength } := by
    refine hb.regroup rfl hb.early rfl rfl (.of_eq (congrArg _ ?_))
    simp only [tasks, ← List.append_assoc, List.take_append_drop, List.nil_append]
  refine htaken.turns.regroup rfl htaken.turns.early rfl rfl (List.perm_iff_count.mpr fun t => ?_)
  simp only [Schedule.round, tasks, List.nil_append, List.append_nil, List.map_append,
    List.map_reverse, List.count_append, List.count_reverse]

/-! ### The channel and time -/

/-- What the starter takes off the channel is received. -/
theorem collect (hb : Balance all timeout received [] s) (limit : Nat) :
    Balance all timeout (received ++ s.inbox.take limit) [] (s.collect limit) := by
  have hinbox : s.inbox.take limit ++ (s.collect limit).inbox = s.inbox := by
    rw [List.take_eq_take_min]
    exact List.take_append_drop _ _
  have hroom : Balance all timeout received [] { s.collect limit with inbox := s.inbox } := by
    refine hb.regroup rfl hb.early rfl rfl (List.perm_iff_count.mpr fun t => ?_)
    have hsending : (s.sending.map Task.leaveRoom).count t =
        ((s.sending.take (min limit s.inbox.length)).map Task.leaveRoom).count t +
          ((s.sending.drop (min limit s.inbox.length)).map Task.leaveRoom).count t := by
      rw [← List.count_append, ← List.map_append, List.take_append_drop]
    simp only [Schedule.collect, tasks, List.nil_append, List.map_append, Task.map_leaveRoom_admit,
      List.count_append, hsending]
    omega
  exact {
    isOpen := hroom.isOpen
    early := hroom.early
    balanced := fun x => by
      have hx := hroom.balanced x
      have hi := congrArg (List.count x) hinbox
      rw [List.count_append] at hi ⊢
      simp only [tasks] at hx ⊢
      omega
    logged := fun x hx => by
      rw [List.append_assoc received, hinbox] at hx
      exact hroom.logged x hx
    unstopped := hroom.unstopped }

theorem wake (hb : Balance all timeout received [] s) {time : Nat} (ht : time < timeout) :
    Balance all timeout received [] (s.wake time) := by
  refine hb.regroup rfl ht rfl rfl (List.perm_iff_count.mpr fun t => ?_)
  have hp := ((List.filter_append_perm (fun p : Nat × Task => decide (p.1 ≤ time)) s.sleeping).map
    (Task.leaveRoom ∘ Prod.snd)).count_eq t
  simp only [List.map_append, List.count_append] at hp
  simp only [Schedule.wake, tasks, List.nil_append, List.map_append, List.map_map, List.count_append]
  have hf : (fun p : Nat × Task => decide (time < p.1)) = fun p => !decide (p.1 ≤ time) := by
    funext p
    rw [← decide_not, decide_eq_decide, Nat.not_le]
  rw [hf]
  omega

end Balance

end Schedule

/-! ## What a start comes to -/

theorem Startup.receive_append {expected ready k : Nat} {xs : List Signal}
    (h : receive expected ready xs = .waiting k) (ys : List Signal) :
    receive expected ready (xs ++ ys) = receive expected k ys := by
  induction xs generalizing ready with
  | nil =>
    obtain rfl : ready = k := Startup.waiting.inj h
    rfl
  | cons x rest ih =>
    cases x with
    | failed i cause => cases h
    | ready i =>
      rw [receive] at h
      split at h
      · next hlt =>
        rw [List.cons_append, receive, if_pos hlt]
        exact ih h
      · cases h

namespace Supervision

/-- The answer of a start that has come to an end, or whose time has. -/
def answer (components : List Component) : Startup → Except NodeError Unit
  | .waiting ready => .error (.startupTimeout ready components.length)
  | .complete => .ok ()
  | .failed component cause => .error (.component (nameOf components component) cause.message)

/-- The answer of a start that received the given signals in time. -/
def decision (components : List Component) (arrived : List Signal) : Except NodeError Unit :=
  if components = [] then .ok ()
  else answer components (Startup.receive components.length 0 arrived)

/-- Signals that can be heard: components said them, each once, before the given time. -/
structure Heard (components : List Component) (timeout : Nat) (log : List LogEntry)
    (arrived : List Signal) : Prop where
  said : arrived.Subperm (signals components)
  logged : ∀ x ∈ arrived, x.Logged timeout log

variable {components : List Component} {timeout ready : Nat} {received : List Signal} {s : Schedule}

theorem heard_nil (log : List LogEntry) : Heard components timeout log [] :=
  ⟨List.nil_subperm, nofun⟩

theorem heard_of_balance {running : List Task}
    (hb : s.Balance (signals components) timeout received running) :
    Heard components timeout s.recorded received where
  said := List.subperm_ext_iff.mpr fun x _ => by
    have hx := hb.balanced x
    omega
  logged x hx := hb.logged x (List.mem_append_left _ (List.mem_append_left _ hx))

theorem tasks_spawn (components : List Component) :
    (spawn components).tasks = components.zipIdx.map fun (c, i) => { component := i, script := c.script } := by
  simp [spawn, Schedule.tasks, List.mapIdx_eq_zipIdx_map]

theorem flatMap_pending_spawn (components : List Component) :
    (spawn components).tasks.flatMap Task.pending = signals components := by
  rw [tasks_spawn, List.flatMap_map, signals, List.mapIdx_eq_zipIdx_map]
  rfl

theorem balance_spawn (ht : 0 < timeout) :
    (spawn components).Balance (signals components) timeout [] [] where
  isOpen := rfl
  early := ht
  balanced x := by
    rw [List.nil_append, flatMap_pending_spawn]
    simp [spawn]
  logged x hx := by
    have hinbox : (spawn components).inbox = [] := rfl
    simp [hinbox, tasks_spawn] at hx
  unstopped t ht := by
    rw [List.nil_append, tasks_spawn] at ht
    obtain ⟨p, -, rfl⟩ := List.mem_map.mp ht
    rfl

/-- **Until no task can run**, a start goes on or is decided by what it received. -/
theorem settle_spec (hb : s.Balance (signals components) timeout received [])
    (hr : Startup.receive components.length 0 received = .waiting ready) (patience : Nat) :
    let r := settle components.length ready s patience
    ∃ arrived, Heard components timeout r.2.recorded arrived ∧
      r.1 = Startup.receive components.length 0 arrived ∧
      ∀ k, r.1 = .waiting k → r.2.Balance (signals components) timeout arrived [] := by
  induction patience generalizing s ready received with
  | zero => exact ⟨received, heard_of_balance hb, hr.symm, fun _ _ => hb⟩
  | succ n ih =>
    have hround := hb.round.collect attention
    have htaken := Startup.receive_append hr (s.round.inbox.take attention)
    simp only [settle]
    split
    · next k hk =>
      rw [hk] at htaken
      split
      · exact ⟨_, heard_of_balance hround, htaken.symm, fun _ _ => hround⟩
      · exact ih hround htaken
    · next decided hd =>
      -- The signals that decide stay on the channel. The account is that of the schedule without them.
      have hheard := heard_of_balance hround
      exact ⟨_, hheard, htaken.symm, fun k hk => absurd hk (hd k)⟩

/-- A start that came to an end, with the signals that decided. -/
structure Concluded (components : List Component) (timeout : Nat) (r : Started)
    (arrived : List Signal) : Prop where
  heard : Heard components timeout r.schedule.recorded arrived
  outcome : r.outcome = answer components (Startup.receive components.length 0 arrived)
  aborted : r.outcome ≠ .ok () → r.schedule.tasks = []

theorem concluded_giveUp (time : Nat)
    (hh : Heard components timeout s.recorded received)
    (hr : Startup.receive components.length 0 received = .waiting ready) :
    Concluded components timeout (giveUp components.length ready time s) received where
  heard := hh
  outcome := by rw [hr]; rfl
  aborted _ := rfl

/-- **The rest of a start** decides on signals that were heard. -/
theorem proceed_spec {times : List Nat} (hb : s.Balance (signals components) timeout received [])
    (hr : Startup.receive components.length 0 received = .waiting ready) :
    ∃ arrived, Concluded components timeout (proceed components timeout times ready s) arrived := by
  induction times generalizing s ready received with
  | nil => exact ⟨received, concluded_giveUp timeout (heard_of_balance hb) hr⟩
  | cons time later ih =>
    rw [proceed]
    split
    · exact ⟨received, concluded_giveUp timeout (heard_of_balance hb) hr⟩
    · next htime =>
      obtain ⟨arrived, hh, hs, hw⟩ :=
        settle_spec (hb.wake (Nat.not_le.mp htime)) hr (s.wake time).patience
      simp only
      split
      · next s' he =>
        rw [he] at hh hs
        exact ⟨arrived, hh, by rw [← hs]; rfl, nofun⟩
      · next component cause s' he =>
        rw [he] at hh hs
        exact ⟨arrived, hh, by rw [← hs]; rfl, fun _ => rfl⟩
      · next k s' he =>
        rw [he] at hh hs hw
        split
        · exact ⟨arrived, concluded_giveUp time hh hs.symm⟩
        · exact ih (hw k rfl) hs.symm

/-- Without any time to start, a start is given up at once. -/
theorem proceed_zero (times : List Nat) :
    proceed components 0 times ready s = giveUp components.length ready 0 s := by
  cases times with
  | nil => rfl
  | cons time later => exact if_pos (Nat.zero_le time)

/-- A start of some components decides on signals that were heard. -/
theorem exists_concluded (components : List Component) (timeout : Nat) :
    ∃ arrived, Concluded components timeout
      (proceed components timeout (instants components) 0 (spawn components)) arrived := by
  rcases Nat.eq_zero_or_pos timeout with rfl | ht
  · rw [proceed_zero]
    exact ⟨[], concluded_giveUp 0 (heard_nil _) rfl⟩
  · exact proceed_spec (balance_spawn ht) rfl

/-- **A start decides on what it heard.** -/
theorem exists_heard (components : List Component) (timeout : Nat) :
    let r := start components timeout
    ∃ arrived, Heard components timeout r.schedule.log arrived ∧
      r.outcome = decision components arrived ∧ (r.outcome ≠ .ok () → r.schedule.tasks = []) := by
  by_cases hc : components = []
  · subst hc
    exact ⟨[], heard_nil _, rfl, fun h => absurd rfl h⟩
  · obtain ⟨arrived, hr⟩ := exists_concluded components timeout
    have hstart : start components timeout =
        proceed components timeout (instants components) 0 (spawn components) := if_neg hc
    rw [← hstart] at hr
    refine ⟨arrived, ⟨hr.heard.said, fun x hx => ?_⟩, hr.outcome.trans (if_neg hc).symm, hr.aborted⟩
    exact (hr.heard.logged x hx).mono fun _ he => List.mem_reverse.mpr he

end Supervision

end StakeLedger
