import Mathlib.Data.List.Nodup
import StakeLedger.Proofs.Payment

/-!
# The succession of accepted blocks

The snapshots of a chain that an engine keeps are the genesis snapshot and one for each block
that was accepted, in the order in which they were accepted.

* `Chain.Succession` says this of a list of snapshots and a list of blocks, one block after the
  other. That it holds of every run is `Extends.succession`.
* Two blocks of a succession never name the same predecessor
  (`Succession.nodup_previousBlockIds`).
* `succession_of_run` puts together what a run does to the chain: what the accepted blocks
  append, and that nothing else changes it.
-/

namespace StakeLedger

namespace Chain

/-- Snapshots, the latest first, that blocks have put one after the other on a genesis snapshot.
A block names the snapshot below its own as its predecessor and is one higher, and its
identifier, which no snapshot below has, is the name of its own. -/
inductive Succession (h : Hasher) (genesis : AccountSnapshot) :
    List AccountSnapshot → List Block → Prop
  | genesis : Succession h genesis [genesis] []
  | block {previous next : AccountSnapshot} {older : List AccountSnapshot} {blocks : List Block}
    {b : Block} (below : Succession h genesis (previous :: older) blocks)
    (parent : b.previousBlockId = previous.blockId)
    (height_eq : b.height.toNat = previous.height.toNat + 1)
    (blockId : next.blockId = h.blockId b) (height : next.height = b.height)
    (fresh : ∀ s ∈ previous :: older, s.blockId ≠ h.blockId b) :
    Succession h genesis (next :: previous :: older) (blocks ++ [b])

namespace Succession

variable {h : Hasher} {genesis : AccountSnapshot} {snapshots : List AccountSnapshot}
  {blocks : List Block}

theorem length (hs : Succession h genesis snapshots blocks) :
    snapshots.length = blocks.length + 1 := by
  induction hs with
  | genesis => rfl
  | block _ _ _ _ _ _ ih =>
    rw [List.length_cons, ih, List.length_append]
    rfl

theorem nodup_blockIds (hs : Succession h genesis snapshots blocks) :
    (snapshots.map AccountSnapshot.blockId).Nodup := by
  induction hs with
  | genesis => exact List.nodup_singleton _
  | block _ _ _ hid _ hfresh ih =>
    rw [List.map_cons, List.nodup_cons]
    refine ⟨fun hmem => ?_, ih⟩
    obtain ⟨s, hs, he⟩ := List.mem_map.mp hmem
    exact hfresh s hs (he.trans hid)

/-- The blocks name as predecessors all the snapshots but the latest, in order. -/
theorem previousBlockIds_eq (hs : Succession h genesis snapshots blocks) :
    blocks.map Block.previousBlockId = (snapshots.tail.map AccountSnapshot.blockId).reverse := by
  induction hs with
  | genesis => rfl
  | block _ hparent _ _ _ _ ih =>
    rw [List.map_append, List.map_singleton, ih, hparent]
    exact List.reverse_cons.symm

theorem exists_mem (hs : Succession h genesis snapshots blocks) :
    ∀ b ∈ blocks, ∃ s ∈ snapshots, s.blockId = h.blockId b ∧ s.height = b.height := by
  induction hs with
  | genesis => simp
  | block _ _ _ hid hheight _ ih =>
    intro b hb
    rcases List.mem_append.mp hb with hb | hb
    · obtain ⟨s, hs, hsb⟩ := ih b hb
      exact ⟨s, List.mem_cons_of_mem _ hs, hsb⟩
    · rw [List.mem_singleton.mp hb]
      exact ⟨_, List.mem_cons_self, hid, hheight⟩

/-- **No two blocks have the same predecessor.** -/
theorem nodup_previousBlockIds (hs : Succession h genesis snapshots blocks) :
    (blocks.map Block.previousBlockId).Nodup := by
  rw [hs.previousBlockIds_eq, List.nodup_reverse, List.map_tail]
  exact hs.nodup_blockIds.tail

end Succession

/-- **A snapshot that is appended continues the succession.** -/
theorem Appends.succession {c c' : Chain} {h : Hasher} {b : Block}
    {genesis previous next : AccountSnapshot} {blocks : List Block}
    (ha : c.Appends h b previous next c') (hc : c.Linear)
    (hs : Succession h genesis c.snapshots blocks) :
    Succession h genesis c'.snapshots (blocks ++ [b]) := by
  obtain ⟨older, ho⟩ := List.head?_eq_some_iff.mp (hc.last?_eq_head? ▸ ha.last)
  have hparent : previous.blockId = b.previousBlockId := by
    simpa using List.find?_some ha.parent
  have hfresh : ∀ s ∈ c.snapshots, s.blockId ≠ h.blockId b := by
    intro s hm he
    have hsome := hc.snapshot?_of_mem hm
    rw [he, ha.fresh] at hsome
    cases hsome
  rw [ha.chain]
  rw [ho] at hs hfresh ⊢
  exact .block hs hparent.symm ha.height_eq ha.blockId ha.height hfresh

end Chain

namespace Engine

variable {e : Engine} {genesis : AccountSnapshot} {c : Chain} {blocks : List Block}
  {x : EncodedEntity}

theorem Extends.succession (h : e.Extends genesis c blocks) :
    Chain.Succession e.hasher genesis c.snapshots blocks := by
  induction h with
  | genesis => exact .genesis
  | block h' _ ha ih => exact ha.succession h'.linear ih

/-- Each block on the way to a chain has its snapshot there. -/
theorem Extends.exists_snapshot? (h : e.Extends genesis c blocks) :
    ∀ b ∈ blocks, ∃ s, c.snapshot? (e.hasher.blockId b) = some s ∧ s.height = b.height := by
  intro b hb
  obtain ⟨s, hs, hid, hheight⟩ := h.succession.exists_mem b hb
  exact ⟨s, hid ▸ h.linear.snapshot?_of_mem hs, hheight⟩

/-- An accepted block appends its snapshot. -/
theorem Extends.appends_of_accepts? (h : e.Extends genesis c blocks) {b : Block}
    (hx : e.accepts? c x = some b) :
    ∃ previous next, c.Appends e.hasher b previous next (e.process c x).1 := by
  obtain ⟨hd, hb, next, s, hf⟩ := accepts?_eq_some_iff.mp hx
  obtain ⟨previous, ha⟩ := appends_of_admission h.linear hb hf
  rw [process_of_decode hd, processBlock_of_finalizeBlock hb hf]
  exact ⟨previous, s, ha⟩

/-- **Only an accepted block changes the chain.** -/
theorem process_eq_of_not_accepted
    (hx : x.typeTag ≠ Entity.typeTag Block ∨ (e.process c x).2 ≠ .ok .accepted) :
    (e.process c x).1 = c := by
  rcases process_cases e c x with ⟨b, next, s, ha, hb, hf, -⟩ | ⟨-, hc⟩
  · have hd := (accepts?_eq_some_iff.mp ha).1
    rcases hx with htag | hverdict
    · rw [decode_error_of_typeTag_ne htag] at hd
      cases hd
    · rw [process_of_decode hd, processBlock_of_finalizeBlock hb hf] at hverdict
      exact absurd rfl hverdict
  · exact hc

/-- **What a run does to the chain.** In every run, the snapshots of the chain are the genesis
snapshot and one for each accepted block, in a succession, the last of which is the latest. The
snapshot of an accepted block is found under the block's identifier, and no two accepted blocks
have the same predecessor. Whatever comes next, an accepted block appends its snapshot, whose
name is not taken, and what is no block or is not accepted leaves the chain as it is. -/
theorem succession_of_run (e : Engine) (genesis : AccountSnapshot) (inputs : List EncodedEntity) :
    let c := e.run (.ofGenesis genesis) inputs
    let blocks := e.accepted (.ofGenesis genesis) inputs
    Chain.Succession e.hasher genesis c.snapshots blocks ∧ c.last? = c.snapshots.head? ∧
      (∀ b ∈ blocks, ∃ s, c.snapshot? (e.hasher.blockId b) = some s ∧ s.height = b.height) ∧
      (blocks.map Block.previousBlockId).Nodup ∧
      ∀ x, (∀ b, e.accepts? c x = some b →
          ∃ previous next, c.Appends e.hasher b previous next (e.process c x).1) ∧
        (x.typeTag ≠ Entity.typeTag Block ∨ (e.process c x).2 ≠ .ok .accepted →
          (e.process c x).1 = c) := by
  intro c blocks
  have hrun : e.Extends genesis c blocks := extends_run e genesis inputs
  exact ⟨hrun.succession, hrun.linear.last?_eq_head?, hrun.exists_snapshot?,
    hrun.succession.nodup_previousBlockIds,
    fun x => ⟨fun b => hrun.appends_of_accepts?, process_eq_of_not_accepted⟩⟩

/-- Four blocks of a run are accepted, and they are a succession. After them, a block with two
transfers appends its snapshot, and a transfer alone changes nothing. -/
theorem succession_of_run_sample :
    let m := Payment.series
    let c := m.engine.run (.ofGenesis m.genesis) (m.history.map .ofEntity)
    Chain.Succession m.hasher m.genesis c.snapshots
        [Payment.first, m.detour, m.delayed, m.pause] ∧
      m.engine.accepts? c (.ofEntity m.settled) = some m.settled ∧
      (∃ previous next, c.Appends m.hasher m.settled previous next
        (m.engine.process c (.ofEntity m.settled)).1) ∧
      (m.engine.process c (.ofEntity m.again)).1 = c := by
  have hrun := succession_of_run Payment.series.engine Payment.series.genesis
    (Payment.series.history.map .ofEntity)
  have hsuccession := hrun.1
  have hnext := hrun.2.2.2.2
  rw [Payment.accepted_history] at hsuccession
  have hsettled := Payment.accepts?_settled
  exact ⟨hsuccession, hsettled, (hnext (.ofEntity Payment.series.settled)).1 _ hsettled,
    (hnext (.ofEntity Payment.series.again)).2 (.inl (by decide))⟩

end Engine

end StakeLedger
