import Mathlib.Data.List.Nodup
import Mathlib.Data.List.Perm.Basic
import StakeLedger.Node.Inbox
import StakeLedger.Proofs.Payment

/-!
# What a service answers

Clients submit entities to an engine behind an inbox, in any order and at any time, and the loop
may be told to end at any time. Whatever happens, a request is answered with what the engine made
of it in its turn, or with the news that the channel is closed, and then the engine made nothing
of it.

* `submitted` are the requests among the events, and `entered`, `processed`, `brokenDown` and
  `answers` are what the acts tell: the requests in the order in which they entered the inbox, those
  that the engine processed with their results, those on which it broke down, and the answers with
  their addressees.
* `EngineService.Tally` accounts for every request. It is kept by every event (`Tally.step`), and
  so holds of all interleavings (`exists_tally`).
* `tally_of_events` says what this means for the clients.

A request on which the engine breaks down, because a height is more than 64 bits hold, has no
result. It is not processed, leaves the chain as it is, and ends the loop. It is the one request
that is taken out of the inbox and not processed.
-/

namespace StakeLedger

/-! ## Results one after the other -/

namespace Engine

/-- What the engine makes of entities, one after the other. -/
def outcomes (e : Engine) (c : Chain) : List EncodedEntity → List (Except ProcessFault Verdict)
  | [] => []
  | x :: rest => (e.process c x).2 :: e.outcomes (e.process c x).1 rest

variable {e : Engine} {c : Chain}

theorem run_concat (inputs : List EncodedEntity) (x : EncodedEntity) :
    e.run c (inputs ++ [x]) = (e.process (e.run c inputs) x).1 := by
  rw [run, List.foldl_append]
  rfl

theorem outcomes_concat (inputs : List EncodedEntity) (x : EncodedEntity) :
    e.outcomes c (inputs ++ [x]) = e.outcomes c inputs ++ [(e.process (e.run c inputs) x).2] := by
  induction inputs generalizing c with
  | nil => rfl
  | cons y rest ih =>
    rw [List.cons_append, outcomes, ih, outcomes, run_cons]
    rfl

theorem exists_of_mem_outcomes {inputs : List EncodedEntity} {result : Except ProcessFault Verdict}
    (h : result ∈ e.outcomes c inputs) : ∃ c' x, result = (e.process c' x).2 := by
  induction inputs generalizing c with
  | nil => cases h
  | cons x rest ih =>
    rcases List.mem_cons.mp h with rfl | h
    · exact ⟨c, x, rfl⟩
    · exact ih h

/-- Where the engine breaks down, the chain stays as it is. -/
theorem process_of_heightOverflow {x : EncodedEntity}
    (h : (e.process c x).2 = .error .heightOverflow) : (e.process c x).1 = c := by
  rcases process_cases e c x with ⟨b, next, s, ha, hb, hf, -⟩ | ⟨-, hc⟩
  · rw [process_of_decode (accepts?_eq_some_iff.mp ha).1, processBlock_of_finalizeBlock hb hf] at h
    cases h
  · exact hc

/-- No engine says that a channel is closed. -/
theorem process_ne_channelClosed (e : Engine) (c : Chain) (x : EncodedEntity) :
    (e.process c x).2 ≠ .error (.failed .channelClosed) := by
  have hblock : ∀ b, (e.processBlock c b).2 ≠ .error (.failed .channelClosed) := by
    intro b
    unfold processBlock
    split <;> try split
    all_goals simp
  unfold process
  split
  · split <;> simp
  · split
    · split <;> simp
    · split
      · split
        · simp
        · exact hblock _
      · simp

end Engine

namespace EngineService

/-! ## What can be seen -/

/-- The requests that are submitted, in order. -/
def submitted (events : List ServiceEvent) : List Request :=
  events.filterMap fun
    | .submit r => some r
    | _ => none

/-- The requests that entered the inbox, in order. -/
def entered (acts : List ServiceAct) : List Request :=
  acts.filterMap fun
    | .entered r => some r
    | _ => none

/-- The requests that the engine processed, in order, with their results. -/
def processed (acts : List ServiceAct) : List (Request × Except NodeError Verdict) :=
  acts.filterMap fun
    | .processed r result => some (r, result)
    | _ => none

/-- The requests on which the engine broke down. -/
def brokenDown (acts : List ServiceAct) : List Request :=
  acts.filterMap fun
    | .brokeDown r => some r
    | _ => none

/-- The answers that were given, in order, with the clients to whom they were given. -/
def answers (acts : List ServiceAct) : List (Nat × Except NodeError Verdict) :=
  acts.filterMap fun
    | .answered client reply => some (client, reply)
    | _ => none

/-- The requests that have results. -/
def requests (results : List (Request × Except NodeError Verdict)) : List Request :=
  results.map Prod.fst

/-- The entities of requests. -/
def entities (rs : List Request) : List EncodedEntity :=
  rs.map Request.entity

/-- The answer to a request that was processed. -/
def answerOf (p : Request × Except NodeError Verdict) : Nat × Except NodeError Verdict :=
  (p.1.client, p.2)

/-- The answer to a request that is not processed. -/
def refusalOf (r : Request) : Nat × Except NodeError Verdict :=
  (r.client, .error .channelClosed)

@[simp]
theorem submitted_append (events later : List ServiceEvent) :
    submitted (events ++ later) = submitted events ++ submitted later :=
  List.filterMap_append

@[simp]
theorem entered_append (acts later : List ServiceAct) :
    entered (acts ++ later) = entered acts ++ entered later :=
  List.filterMap_append

@[simp]
theorem processed_append (acts later : List ServiceAct) :
    processed (acts ++ later) = processed acts ++ processed later :=
  List.filterMap_append

@[simp]
theorem brokenDown_append (acts later : List ServiceAct) :
    brokenDown (acts ++ later) = brokenDown acts ++ brokenDown later :=
  List.filterMap_append

@[simp]
theorem answers_append (acts later : List ServiceAct) :
    answers (acts ++ later) = answers acts ++ answers later :=
  List.filterMap_append

@[simp]
theorem requests_concat (results : List (Request × Except NodeError Verdict))
    (p : Request × Except NodeError Verdict) :
    requests (results ++ [p]) = requests results ++ [p.1] :=
  List.map_append

@[simp]
theorem entities_concat (rs : List Request) (r : Request) :
    entities (rs ++ [r]) = entities rs ++ [r.entity] :=
  List.map_append

@[simp]
theorem entered_refusals (rs : List Request) : entered (refusals rs) = [] := by
  simp [entered, refusals, List.filterMap_map]

@[simp]
theorem processed_refusals (rs : List Request) : processed (refusals rs) = [] := by
  simp [processed, refusals, List.filterMap_map]

@[simp]
theorem brokenDown_refusals (rs : List Request) : brokenDown (refusals rs) = [] := by
  simp [brokenDown, refusals, List.filterMap_map]

@[simp]
theorem answers_refusals (rs : List Request) : answers (refusals rs) = rs.map refusalOf := by
  simp [answers, refusals, List.filterMap_map, refusalOf]

@[simp]
theorem entered_entered (r : Request) : entered [.entered r] = [r] := rfl

@[simp]
theorem processed_entered (r : Request) : processed [.entered r] = [] := rfl

@[simp]
theorem brokenDown_entered (r : Request) : brokenDown [.entered r] = [] := rfl

@[simp]
theorem answers_entered (r : Request) : answers [.entered r] = [] := rfl

/-- The notes of the requests on which the engine broke down. -/
def breakdowns (rs : List Request) : List ServiceAct :=
  rs.map .brokeDown

@[simp]
theorem entered_breakdowns (rs : List Request) : entered (breakdowns rs) = [] := by
  simp [entered, breakdowns, List.filterMap_map]

@[simp]
theorem processed_breakdowns (rs : List Request) : processed (breakdowns rs) = [] := by
  simp [processed, breakdowns, List.filterMap_map]

@[simp]
theorem brokenDown_breakdowns (rs : List Request) : brokenDown (breakdowns rs) = rs := by
  simp [brokenDown, breakdowns, List.filterMap_map]

@[simp]
theorem answers_breakdowns (rs : List Request) : answers (breakdowns rs) = [] := by
  simp [answers, breakdowns, List.filterMap_map]

section

variable (r : Request) (result : Except NodeError Verdict)

@[simp]
theorem entered_served : entered [.processed r result, .answered r.client result] = [] := rfl

@[simp]
theorem processed_served :
    processed [.processed r result, .answered r.client result] = [(r, result)] := rfl

@[simp]
theorem brokenDown_served :
    brokenDown [.processed r result, .answered r.client result] = [] := rfl

@[simp]
theorem answers_served :
    answers [.processed r result, .answered r.client result] = [answerOf (r, result)] := rfl

end

/-! ## Steps -/

variable {e : Engine} {c : Chain} {events : List ServiceEvent} {s : EngineService}
  {acts : List ServiceAct} {refused abandoned : List Request}

theorem steps_concat (s : EngineService) (events : List ServiceEvent) (x : ServiceEvent) :
    s.steps (events ++ [x]) = (((s.steps events).1.step x).1,
      (s.steps events).2 ++ ((s.steps events).1.step x).2) := by
  induction events generalizing s with
  | nil => simp [steps]
  | cons y rest ih => simp [steps, ih]

/-- **What the loop does with the first request.** The engine has a result, and the client is
given it, or the engine breaks down, which is noted, and the loop ends. -/
theorem serve_cases {r : Request} {rest : List Request} (hi : s.inbox = r :: rest) :
    (∃ result, (s.engine.process s.chain r.entity).2 = result.mapError .failed ∧
      s.serve = ({ s with chain := (s.engine.process s.chain r.entity).1, inbox := rest },
        [.processed r result, .answered r.client result])) ∨
    ((s.engine.process s.chain r.entity).2 = .error .heightOverflow ∧
      s.serve = (s.ending.1, breakdowns [r] ++ s.ending.2)) := by
  rw [serve, hi]
  simp only
  rcases hp : s.engine.process s.chain r.entity with ⟨chain, (⟨⟩ | cause) | verdict⟩
  · obtain rfl : chain = s.chain := by
      simpa [hp] using Engine.process_of_heightOverflow (congrArg Prod.snd hp)
    rw [← hi]
    exact .inr ⟨rfl, rfl⟩
  · exact .inl ⟨.error cause, rfl, rfl⟩
  · exact .inl ⟨.ok verdict, rfl, rfl⟩

/-! ## Accounting for requests -/

/-- What became of the requests among events. Some are processed, in the order in which they
entered the inbox. Some are refused, once the loop has ended, and on the first of them the engine
may have broken down. The others wait, or were abandoned by their clients before they entered. -/
structure Tally (e : Engine) (c : Chain) (events : List ServiceEvent) (s : EngineService)
    (acts : List ServiceAct) (refused abandoned : List Request) : Prop where
  engine : s.engine = e
  chain : s.chain = e.run c (entities (requests (processed acts)))
  results : (processed acts).map (fun p => p.2.mapError .failed) =
    e.outcomes c (entities (requests (processed acts)))
  inOrder : requests (processed acts) <+: entered acts
  queued : s.phase ≠ .ended → entered acts = requests (processed acts) ++ s.inbox
  replies : answers acts = (processed acts).map answerOf ++ refused.map refusalOf
  accounted : ∀ r, (submitted events).count r = (requests (processed acts)).count r +
    refused.count r + s.inbox.count r + s.waiting.count r + abandoned.count r
  gaveUp : ∀ r ∈ abandoned, .abandon r.client ∈ events
  noneRefused : s.phase ≠ .ended → refused = []
  unbroken : s.phase ≠ .ended → brokenDown acts = []
  brokenOnce : (brokenDown acts).length ≤ 1
  broken : ∀ r ∈ brokenDown acts, requests (processed acts) ++ [r] <+: entered acts ∧
    r ∈ refused ∧ (e.process s.chain r.entity).2 = .error .heightOverflow
  emptied : s.phase = .ended → s.inbox = [] ∧ s.waiting = []

/-- A service that has just been made. -/
def fresh (e : Engine) (c : Chain) (capacity : Nat) : EngineService :=
  { engine := e, chain := c, capacity }

theorem tally_fresh (e : Engine) (c : Chain) (capacity : Nat) :
    Tally e c [] (fresh e c capacity) [] [] [] where
  engine := rfl
  chain := rfl
  results := rfl
  inOrder := List.nil_prefix
  queued _ := rfl
  replies := rfl
  accounted _ := rfl
  gaveUp := nofun
  noneRefused _ := rfl
  unbroken _ := rfl
  brokenOnce := Nat.zero_le 1
  broken := nofun
  emptied := nofun

namespace Tally

/-- An event that submits nothing leaves the account as it is. -/
theorem skip (ht : Tally e c events s acts refused abandoned) {x : ServiceEvent}
    (hx : submitted [x] = []) : Tally e c (events ++ [x]) s acts refused abandoned :=
  { ht with
    accounted := fun r => by rw [submitted_append, hx, List.append_nil, ht.accounted]
    gaveUp := fun r hr => List.mem_append_left _ (ht.gaveUp r hr) }

/-- The loop may start, and may be told to end. -/
theorem change (ht : Tally e c events s acts refused abandoned) {phase : Phase}
    (hp : phase = .ended ↔ s.phase = .ended) (stop : Bool) :
    Tally e c events { s with phase, stopRequested := stop } acts refused abandoned :=
  { ht with
    queued := fun h => ht.queued (mt hp.mpr h)
    noneRefused := fun h => ht.noneRefused (mt hp.mpr h)
    unbroken := fun h => ht.unbroken (mt hp.mpr h)
    emptied := fun h => ht.emptied (hp.mp h) }

/-- A client waits for room. -/
theorem wait (ht : Tally e c events s acts refused abandoned) (hp : s.phase ≠ .ended)
    (r : Request) :
    Tally e c (events ++ [.submit r]) { s with waiting := s.waiting ++ [r] } acts refused abandoned :=
  { ht with
    accounted := fun r' => by
      have hr : submitted [.submit r] = [r] := rfl
      simp only [submitted_append, hr, List.count_append, ht.accounted]
      omega
    gaveUp := fun r hr => List.mem_append_left _ (ht.gaveUp r hr)
    emptied := fun h => absurd h hp }

/-- A client comes too late. -/
theorem refuse (ht : Tally e c events s acts refused abandoned) (hp : s.phase = .ended)
    (r : Request) :
    Tally e c (events ++ [.submit r]) s (acts ++ refusals [r]) (refused ++ [r]) abandoned where
  engine := ht.engine
  chain := by simpa using ht.chain
  results := by simpa using ht.results
  inOrder := by simpa using ht.inOrder
  queued h := absurd hp h
  replies := by simp [ht.replies]
  accounted r' := by
    have hr : submitted [.submit r] = [r] := rfl
    simp only [submitted_append, hr, processed_append, processed_refusals, List.append_nil,
      List.count_append, ht.accounted]
    omega
  gaveUp r hr := List.mem_append_left _ (ht.gaveUp r hr)
  noneRefused h := absurd hp h
  unbroken h := absurd hp h
  brokenOnce := by simpa using ht.brokenOnce
  broken r' hr' := by
    rw [brokenDown_append, brokenDown_refusals, List.append_nil] at hr'
    obtain ⟨hnext, hrefused, hfault⟩ := ht.broken r' hr'
    exact ⟨by simpa using hnext, List.mem_append_left _ hrefused, hfault⟩
  emptied := ht.emptied

/-- The request of a client enters the inbox. -/
theorem enter (ht : Tally e c events s acts refused abandoned) (hp : s.phase ≠ .ended)
    {r : Request} (hr : r ∈ s.waiting) :
    Tally e c events { s with waiting := s.waiting.erase r, inbox := s.inbox ++ [r] }
      (acts ++ [.entered r]) refused abandoned where
  engine := ht.engine
  chain := by simpa using ht.chain
  results := by simpa using ht.results
  inOrder := by simpa using ht.inOrder.trans (List.prefix_append _ _)
  queued h := by simp [ht.queued h]
  replies := by simpa using ht.replies
  unbroken h := by simpa using ht.unbroken h
  brokenOnce := by simp [ht.unbroken hp]
  broken := by simp [ht.unbroken hp]
  accounted r' := by
    have hw := (List.perm_cons_erase hr).count_eq r'
    simp only [processed_append, processed_entered, List.append_nil, List.count_append,
      ht.accounted, hw, List.count_cons, List.count_nil]
    omega
  gaveUp := ht.gaveUp
  noneRefused := ht.noneRefused
  emptied h := absurd h hp

/-- Clients no longer wait. -/
theorem abandon (ht : Tally e c events s acts refused abandoned) (client : Nat) :
    Tally e c (events ++ [.abandon client])
      { s with waiting := s.waiting.filter fun r => r.client ≠ client } acts refused
      (abandoned ++ s.waiting.filter fun r => r.client = client) :=
  { ht with
    accounted := fun r => by
      have hw := (List.filter_append_perm (fun r => decide (r.client = client)) s.waiting).count_eq r
      have hs : submitted [.abandon client] = [] := rfl
      simp only [List.count_append] at hw
      simp only [submitted_append, hs, List.append_nil, List.count_append, ht.accounted, decide_not,
        ne_eq]
      omega
    gaveUp := fun r hr => by
      rcases List.mem_append.mp hr with hr | hr
      · exact List.mem_append_left _ (ht.gaveUp r hr)
      · have hc : r.client = client := by simpa using (List.mem_filter.mp hr).2
        exact List.mem_append_right _ (hc ▸ List.mem_singleton_self _)
    emptied := fun h => ⟨(ht.emptied h).1, by rw [(ht.emptied h).2]; rfl⟩ }

/-- The first request in the inbox is processed. -/
theorem process (ht : Tally e c events s acts refused abandoned) (hp : s.phase ≠ .ended)
    {r : Request} {rest : List Request} (hi : s.inbox = r :: rest)
    {result : Except NodeError Verdict}
    (hr : (s.engine.process s.chain r.entity).2 = result.mapError .failed) :
    Tally e c events { s with chain := (s.engine.process s.chain r.entity).1, inbox := rest }
      (acts ++ [.processed r result, .answered r.client result]) refused abandoned where
  engine := ht.engine
  chain := by
    simp only [processed_append, processed_served, requests_concat, entities_concat,
      Engine.run_concat, ht.engine, ht.chain]
  results := by
    simp only [processed_append, processed_served, requests_concat, entities_concat,
      List.map_append, List.map_singleton, Engine.outcomes_concat, ← ht.chain, ← hr, ht.results,
      ht.engine]
  inOrder := by
    simp only [entered_append, entered_served, List.append_nil, processed_append, processed_served,
      requests_concat, ht.queued hp, hi]
    exact ⟨rest, by simp⟩
  queued h := by simp [ht.queued hp, hi]
  replies := by simp [ht.replies, ht.noneRefused hp]
  unbroken h := by simpa using ht.unbroken h
  brokenOnce := by simp [ht.unbroken hp]
  broken := by simp [ht.unbroken hp]
  accounted r' := by
    simp only [processed_append, processed_served, requests_concat, List.count_append,
      ht.accounted, hi, List.count_cons, List.count_nil]
    omega
  gaveUp := ht.gaveUp
  noneRefused := ht.noneRefused
  emptied h := absurd h hp

/-- The loop ends, because the engine breaks down on the first request or not, and all who wait
are refused. -/
theorem ending (ht : Tally e c events s acts refused abandoned) (hp : s.phase ≠ .ended)
    (fatal : Option Request) (hfatal : ∀ r ∈ fatal, (∃ rest, s.inbox = r :: rest) ∧
      (s.engine.process s.chain r.entity).2 = .error .heightOverflow) :
    Tally e c events s.ending.1 (acts ++ (breakdowns fatal.toList ++ s.ending.2))
      (s.inbox ++ s.waiting) abandoned where
  engine := ht.engine
  chain := by simpa [EngineService.ending] using ht.chain
  results := by simpa [EngineService.ending] using ht.results
  inOrder := by simpa [EngineService.ending] using ht.inOrder
  queued h := absurd rfl h
  replies := by simp [EngineService.ending, ht.replies, ht.noneRefused hp]
  accounted r := by
    simp only [EngineService.ending, processed_append, processed_breakdowns, processed_refusals,
      List.append_nil, List.count_append, ht.accounted, ht.noneRefused hp, List.count_nil]
    omega
  gaveUp := ht.gaveUp
  noneRefused h := absurd rfl h
  unbroken h := absurd rfl h
  brokenOnce := by
    simp [EngineService.ending, ht.unbroken hp, Option.length_toList_le]
  broken r hr := by
    have hr' : r ∈ fatal := by simpa [EngineService.ending, ht.unbroken hp] using hr
    obtain ⟨⟨rest, hi⟩, hfault⟩ := hfatal r hr'
    refine ⟨?_, by simp [hi], ht.engine ▸ hfault⟩
    simp only [EngineService.ending, entered_append, entered_breakdowns, entered_refusals,
      processed_append, processed_breakdowns, processed_refusals, List.append_nil, ht.queued hp, hi]
    exact ⟨rest, by simp⟩
  emptied _ := ⟨rfl, rfl⟩

/-- **Every event keeps the account.** -/
theorem step (ht : Tally e c events s acts refused abandoned) (x : ServiceEvent) :
    ∃ refused abandoned,
      Tally e c (events ++ [x]) (s.step x).1 (acts ++ (s.step x).2) refused abandoned := by
  have hsame : submitted [x] = [] → ∃ refused abandoned,
      Tally e c (events ++ [x]) s (acts ++ []) refused abandoned := fun hx =>
    ⟨refused, abandoned, by rw [List.append_nil]; exact ht.skip hx⟩
  cases x with
  | submit r =>
    rw [EngineService.step]
    split
    · next hp => exact ⟨_, _, ht.refuse hp r⟩
    · next hp => exact ⟨_, _, by rw [List.append_nil]; exact ht.wait hp r⟩
  | enter client =>
    rw [EngineService.step]
    split
    · exact hsame rfl
    · next r hf =>
      have hr := List.mem_of_find?_eq_some hf
      have hp : s.phase ≠ .ended := fun he => by
        rw [(ht.emptied he).2] at hr
        cases hr
      split
      · exact ⟨_, _, (ht.skip rfl).enter hp hr⟩
      · exact hsame rfl
  | abandon client => exact ⟨_, _, by rw [EngineService.step, List.append_nil]; exact ht.abandon client⟩
  | start =>
    rw [EngineService.step]
    split
    · next hp =>
      exact ⟨_, _, by rw [List.append_nil]; exact (ht.skip rfl).change (by simp [hp]) s.stopRequested⟩
    · exact hsame rfl
  | serve =>
    rw [EngineService.step]
    split
    · next hp =>
      have hne : s.phase ≠ .ended := by simp [hp]
      cases hi : s.inbox with
      | nil =>
        rw [serve, hi]
        exact hsame rfl
      | cons r rest =>
        rcases serve_cases hi with ⟨result, hr, hs⟩ | ⟨hfault, hs⟩ <;> rw [hs]
        · exact ⟨_, _, (ht.skip rfl).process hne hi hr⟩
        · refine ⟨_, _, (ht.skip rfl).ending hne (some r) fun r' hr' => ?_⟩
          obtain rfl := Option.some.inj hr'
          exact ⟨⟨rest, hi⟩, hfault⟩
    · exact hsame rfl
  | requestStop =>
    exact ⟨_, _, by rw [EngineService.step, List.append_nil]; exact (ht.skip rfl).change .rfl true⟩
  | halt =>
    rw [EngineService.step]
    split
    · next hp => exact ⟨_, _, (ht.skip rfl).ending (by simp [hp.1]) none nofun⟩
    · exact hsame rfl

end Tally

/-- **Every interleaving has an account.** -/
theorem exists_tally (e : Engine) (c : Chain) (capacity : Nat) (events : List ServiceEvent) :
    ∃ refused abandoned, Tally e c events ((fresh e c capacity).steps events).1
      ((fresh e c capacity).steps events).2 refused abandoned := by
  induction events using List.reverseRecOn with
  | nil => exact ⟨[], [], tally_fresh e c capacity⟩
  | append_singleton events x ih =>
    obtain ⟨refused, abandoned, ht⟩ := ih
    rw [steps_concat]
    exact ht.step x

namespace Tally

/-- **Every request has its place.** -/
theorem perm (ht : Tally e c events s acts refused abandoned) :
    (submitted events).Perm
      (requests (processed acts) ++ refused ++ s.inbox ++ s.waiting ++ abandoned) :=
  List.perm_iff_count.mpr fun r => by simp only [ht.accounted r, List.count_append]

/-- No result says that the channel is closed. -/
theorem result_ne_channelClosed (ht : Tally e c events s acts refused abandoned)
    {p : Request × Except NodeError Verdict} (hp : p ∈ processed acts) :
    p.2 ≠ .error .channelClosed := by
  intro hclosed
  have hmem : p.2.mapError .failed ∈ e.outcomes c (entities (requests (processed acts))) := by
    rw [← ht.results]
    exact List.mem_map_of_mem hp
  obtain ⟨c', x, hx⟩ := Engine.exists_of_mem_outcomes hmem
  rw [hclosed] at hx
  exact Engine.process_ne_channelClosed e c' x hx.symm

theorem clients_answers (ht : Tally e c events s acts refused abandoned) :
    (answers acts).map Prod.fst = (requests (processed acts) ++ refused).map Request.client := by
  rw [ht.replies, requests, List.map_append, List.map_append, List.map_map, List.map_map,
    List.map_map]
  rfl

variable (hclients : ((submitted events).map Request.client).Nodup)

include hclients

/-- Of clients that submit one request each, nobody who is answered is answered twice, or waits or
has given up. -/
theorem nodup_clients (ht : Tally e c events s acts refused abandoned) :
    ((requests (processed acts) ++ refused).map Request.client).Nodup := by
  have hall := (ht.perm.map Request.client).nodup_iff.mp hclients
  rw [List.append_assoc, List.append_assoc] at hall
  exact hall.sublist ((List.sublist_append_left _ _).map _)

/-- **An answer is the result of the client's request, or the request is not processed.** -/
theorem answer_cases (ht : Tally e c events s acts refused abandoned) {r : Request}
    (hr : r ∈ submitted events) {reply : Except NodeError Verdict}
    (ha : (r.client, reply) ∈ answers acts) :
    ((r, reply) ∈ processed acts ∧ reply ≠ .error .channelClosed) ∨
      (reply = .error .channelClosed ∧ r ∉ requests (processed acts)) := by
  have hsame : ∀ r' ∈ requests (processed acts) ++ refused, r'.client = r.client → r' = r := by
    intro r' hr' hc
    refine List.inj_on_of_nodup_map hclients (ht.perm.mem_iff.mpr ?_) hr hc
    rw [List.append_assoc, List.append_assoc]
    exact List.mem_append_left _ hr'
  rw [ht.replies] at ha
  rcases List.mem_append.mp ha with ha | ha
  · obtain ⟨p, hp, he⟩ := List.mem_map.mp ha
    obtain ⟨hc, rfl⟩ := Prod.mk.inj he
    have hpr : p.1 = r := hsame _ (List.mem_append_left _ (List.mem_map_of_mem hp)) hc
    exact .inl ⟨hpr ▸ hp, ht.result_ne_channelClosed hp⟩
  · obtain ⟨r', hr', he⟩ := List.mem_map.mp ha
    obtain ⟨hc, rfl⟩ := Prod.mk.inj he
    obtain rfl : r' = r := hsame _ (List.mem_append_right _ hr') hc
    refine .inr ⟨rfl, fun hdone => ?_⟩
    have hnodup := ht.nodup_clients hclients
    rw [List.map_append] at hnodup
    exact (List.nodup_append.mp hnodup).2.2 _ (List.mem_map_of_mem hdone) _
      (List.mem_map_of_mem hr') rfl

end Tally

/-- **A service answers what it processed.** Whatever happens in whatever order, the engine
processes the first of the requests that entered the inbox, in their order, each in the chain that
those before it left, and nothing else changes the chain. It breaks down at most once, on the
request that entered after these, for which the height that it needs is more than 64 bits hold. The
answers are the results of the requests that are processed, followed by the refusals of others; each
request that was submitted is processed or refused once, or it waits, or its client gave up. So if
each client submits one request, nobody is answered twice, and who is answered gets the result of
his request, or is told that the channel is closed, and then his request was not processed. -/
theorem tally_of_events (e : Engine) (c : Chain) (capacity : Nat) (events : List ServiceEvent) :
    let s := ((fresh e c capacity).steps events).1
    let acts := ((fresh e c capacity).steps events).2
    let done := requests (processed acts)
    (done <+: entered acts ∧
      (processed acts).map (fun p => p.2.mapError .failed) = e.outcomes c (entities done) ∧
      s.chain = e.run c (entities done)) ∧
    ((brokenDown acts).length ≤ 1 ∧ ∀ r ∈ brokenDown acts, done ++ [r] <+: entered acts ∧
      (e.process s.chain r.entity).2 = .error .heightOverflow) ∧
    (∃ refused abandoned,
      answers acts = (processed acts).map answerOf ++ refused.map refusalOf ∧
      (submitted events).Perm (done ++ refused ++ s.inbox ++ s.waiting ++ abandoned) ∧
      ∀ r ∈ abandoned, .abandon r.client ∈ events) ∧
    (((submitted events).map Request.client).Nodup →
      ((answers acts).map Prod.fst).Nodup ∧
      ∀ r ∈ submitted events, ∀ reply, (r.client, reply) ∈ answers acts →
        ((r, reply) ∈ processed acts ∧ reply ≠ .error .channelClosed) ∨
          (reply = .error .channelClosed ∧ r ∉ done)) := by
  intro s acts done
  obtain ⟨refused, abandoned, ht⟩ := exists_tally e c capacity events
  refine ⟨⟨ht.inOrder, ht.results, ht.chain⟩, ⟨ht.brokenOnce, fun r hr => ?_⟩,
    ⟨refused, abandoned, ht.replies, ht.perm, ht.gaveUp⟩, fun hclients => ⟨?_, ?_⟩⟩
  · obtain ⟨hnext, -, hfault⟩ := ht.broken r hr
    exact ⟨hnext, hfault⟩
  · rw [ht.clients_answers]
    exact ht.nodup_clients hclients
  · exact fun r hr reply => ht.answer_cases hclients hr

/-- Two clients submit a request each, and the loop is told to end when it has served the first. -/
theorem acts_of_two {c' : Chain} {verdict : Verdict} {x y : EncodedEntity}
    (hx : e.process c x = (c', .ok verdict)) :
    ((fresh e c 2).steps [.submit ⟨1, x⟩, .submit ⟨2, y⟩, .enter 1, .enter 2, .start, .serve,
      .requestStop, .halt]).2 =
      [.entered ⟨1, x⟩, .entered ⟨2, y⟩, .processed ⟨1, x⟩ (.ok verdict), .answered 1 (.ok verdict),
        .answered 2 (.error .channelClosed)] := by
  simp [fresh, steps, EngineService.step, serve, hx, ending, refusals]

/-- Two clients submit the blocks of the sample payment, and the loop is told to end when it has
served the first one. The second client is told so, and his block is not in the chain. -/
theorem tally_of_events_sample :
    let m := Payment.sample
    let one : Request := ⟨1, .ofEntity Payment.first⟩
    let two : Request := ⟨2, .ofEntity m.second⟩
    let events : List ServiceEvent :=
      [.submit one, .submit two, .enter 1, .enter 2, .start, .serve, .requestStop, .halt]
    let s := ((fresh m.engine (.ofGenesis m.genesis) 2).steps events).1
    let acts := ((fresh m.engine (.ofGenesis m.genesis) 2).steps events).2
    ((submitted events).map Request.client).Nodup ∧
      answers acts = [(1, .ok .accepted), (2, .error .channelClosed)] ∧
      (one, .ok .accepted) ∈ processed acts ∧ two ∉ requests (processed acts) ∧
      s.chain = m.engine.run (.ofGenesis m.genesis) [.ofEntity Payment.first] := by
  intro m one two events s acts
  have hprocess : m.engine.process (.ofGenesis m.genesis) (.ofEntity Payment.first) =
      (m.chain, .ok .accepted) := by
    rw [Engine.process_of_decode Payment.endorsed_first.decode_ofEntity,
      Engine.processBlock_of_finalizeBlock m.admission_first
        (Payment.finalizeBlock_first Payment.firstId_sample)]
  have hacts : acts = [.entered one, .entered two, .processed one (.ok .accepted),
      .answered 1 (.ok .accepted), .answered 2 (.error .channelClosed)] :=
    acts_of_two hprocess
  have hclients : ((submitted events).map Request.client).Nodup := by
    have hsubmitted : (submitted events).map Request.client = [1, 2] := rfl
    rw [hsubmitted]
    decide
  obtain ⟨⟨-, -, hchain⟩, -, -, hreplies⟩ := tally_of_events m.engine (.ofGenesis m.genesis) 2 events
  have hanswers : answers acts = [(1, .ok .accepted), (2, .error .channelClosed)] := by
    rw [hacts]
    rfl
  have hdone : requests (processed acts) = [one] := by
    rw [hacts]
    rfl
  have hone := (hreplies hclients).2 one List.mem_cons_self (.ok .accepted)
    (hanswers ▸ List.mem_cons_self)
  have htwo := (hreplies hclients).2 two (List.mem_cons_of_mem _ List.mem_cons_self)
    (.error .channelClosed) (hanswers ▸ List.mem_cons_of_mem _ List.mem_cons_self)
  refine ⟨hclients, hanswers, ?_, ?_, ?_⟩
  · exact (hone.resolve_right (by simp)).1
  · exact (htwo.resolve_left (by simp)).2
  · have hs : s.chain = m.engine.run (.ofGenesis m.genesis) (entities (requests (processed acts))) :=
      hchain
    have hentities : entities [one] = [.ofEntity Payment.first] := rfl
    rw [hs, hdone, hentities]

end EngineService

end StakeLedger
