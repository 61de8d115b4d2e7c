import StakeLedger.Proofs.Growth
import StakeLedger.Proofs.Kinds
import StakeLedger.Proofs.Payment

/-!
# How high a chain can get

The height of a block is compared with the one above its predecessor's, and above the greatest
height that 64 bits hold there is none. Nothing refuses a snapshot of that height, so what happens
to a block on top of it is neither a verdict nor an error.

* `Block.IsBeyondLimit` says that a block stands on such a snapshot. Exactly then its admission
  (`isCorrect_eq_error_iff`, `admission_eq_error_iff`), its finalization
  (`finalizeBlock_eq_heightOverflow_iff`) and its processing (`process_eq_heightOverflow_iff`) end
  without an answer.
* The snapshot that a finalized block gets is one higher than its predecessor's
  (`height_of_finalizeBlock`), so each accepted block raises the top of a chain by one
  (`Extends.exists_last`). `heightOverflow_iff_of_run` says how many it takes.
-/

namespace StakeLedger

/-- The predecessor of a block stands at the greatest height there is. -/
def Block.IsBeyondLimit (b : Block) (c : Chain) : Prop :=
  ∃ previous, c.snapshot? b.previousBlockId = some previous ∧
    previous.height.toNat + 1 = UInt64.size

theorem successorHeight?_eq_none_iff {height : UInt64} :
    successorHeight? height = none ↔ height.toNat + 1 = UInt64.size := by
  have hlt := height.toNat_lt_size
  unfold successorHeight?
  split
  · next hh => exact iff_of_false nofun (Nat.ne_of_lt hh)
  · next hh => exact iff_of_true rfl (by omega)

/-! ## Admission -/

namespace Block

variable {b : Block} {h : Hasher} {p : Parameters} {c : Chain}

theorem isCorrect_eq_error_iff : b.isCorrect h p c = .error .atLimit ↔ b.IsBeyondLimit c := by
  unfold isCorrect IsBeyondLimit
  cases c.snapshot? b.previousBlockId with
  | none => simp
  | some previous =>
    simp only [Option.some.injEq, exists_eq_left', ← successorHeight?_eq_none_iff]
    cases successorHeight? previous.height <;> simp

theorem admission_eq_error_iff : b.admission h p c = .error .atLimit ↔ b.IsBeyondLimit c := by
  rw [← isCorrect_eq_error_iff (h := h) (p := p), admission]
  rcases b.isCorrect h p c with ⟨⟩ | _ | _ <;> simp

end Block

/-! ## Finalization -/

namespace Chain

variable {b : Block} {h : Hasher} {c c' : Chain} {s next : AccountSnapshot}

theorem finalizeBlock_eq_heightOverflow_iff :
    c.finalizeBlock h b = .error .heightOverflow ↔ b.IsBeyondLimit c := by
  unfold finalizeBlock Block.IsBeyondLimit
  cases c.snapshot? b.previousBlockId with
  | none => simp
  | some previous =>
    simp only [Option.some.injEq, exists_eq_left', ← successorHeight?_eq_none_iff]
    cases successorHeight? previous.height with
    | none => simp
    | some expected =>
      -- every other way to fail is a refusal
      by_cases hh : b.height = expected
      · cases succeed previous h b with
        | error cause => simp [hh]
        | ok next => cases hadd : c.addSnapshot next <;> simp [hh, hadd, Except.mapError]
      · simp [hh]

/-- What a chain gives for a snapshot has its height. -/
theorem height_of_addSnapshot (ha : c.addSnapshot s = .ok (c', next)) : next.height = s.height := by
  cases hs : c.snapshot? s.blockId with
  | none =>
    rw [addSnapshot_of_fresh hs] at ha
    cases ha
    rfl
  | some existing =>
    rw [addSnapshot_of_known hs] at ha
    split at ha
    · next hsame =>
      cases ha
      simp only [AccountSnapshot.sameAs, Bool.and_eq_true, decide_eq_true_eq] at hsame
      exact hsame.1.2
    · cases ha

/-- **A finalized block stands one above its predecessor.** -/
theorem height_of_finalizeBlock (hf : c.finalizeBlock h b = .ok (c', next)) :
    ∃ previous, c.snapshot? b.previousBlockId = some previous ∧
      next.height.toNat = previous.height.toNat + 1 := by
  obtain ⟨previous, builder, hp, hheight, ht, ha⟩ := finalizeBlock_eq_ok_iff.mp hf
  refine ⟨previous, hp, ?_⟩
  rw [height_of_addSnapshot ha, SnapshotBuilder.height_sealed,
    SnapshotBuilder.height_transferAll ht]
  exact hheight

end Chain

/-! ## Processing -/

namespace Engine

variable {e : Engine} {c : Chain} {x : EncodedEntity} {b : Block} {genesis : AccountSnapshot}
  {blocks : List Block}

theorem processBlock_eq_heightOverflow_iff :
    (e.processBlock c b).2 = .error .heightOverflow ↔ b.IsBeyondLimit c := by
  unfold processBlock
  cases hb : b.admission e.hasher e.parameters c with
  | error limit =>
    cases limit
    exact iff_of_true rfl (Block.admission_eq_error_iff.mp hb)
  | ok verdict =>
    have hwithin : ¬ b.IsBeyondLimit c := fun hbeyond => by
      rw [Block.admission_eq_error_iff.mpr hbeyond] at hb
      cases hb
    refine iff_of_false (fun h => ?_) hwithin
    cases verdict with
    | error reason => cases h
    | ok admitted =>
      rcases hf : c.finalizeBlock e.hasher b with (⟨⟩ | cause) | r <;> simp only [hf] at h
      · exact hwithin (Chain.finalizeBlock_eq_heightOverflow_iff.mp hf)
      · cases h
      · cases h

/-- What is no block gets a verdict or an error. -/
theorem process_ne_heightOverflow_of_decode_error {cause : LedgerError}
    (h : (x.decode (Entity.typeTag Block) : Except LedgerError Block) = .error cause) :
    (e.process c x).2 ≠ .error .heightOverflow := by
  unfold process
  split
  · split <;> simp
  · split
    · split <;> simp
    · split
      · simp [h]
      · simp

/-- **Which entities end without an answer.** -/
theorem process_eq_heightOverflow_iff :
    (e.process c x).2 = .error .heightOverflow ↔
      ∃ b, (x.decode (Entity.typeTag Block) : Except LedgerError Block) = .ok b ∧
        b.IsBeyondLimit c := by
  cases hd : (x.decode (Entity.typeTag Block) : Except LedgerError Block) with
  | error cause => exact iff_of_false (process_ne_heightOverflow_of_decode_error hd) (by simp)
  | ok b => simp [process_of_decode hd, processBlock_eq_heightOverflow_iff]

/-! ## Runs -/

/-- **Each accepted block raises the top of the chain by one.** -/
theorem Extends.exists_last (h : e.Extends genesis c blocks) :
    ∃ last, c.last? = some last ∧ last.height.toNat = genesis.height.toNat + blocks.length := by
  induction h with
  | genesis =>
    exact ⟨genesis, Chain.snapshot?_ofGenesis genesis, rfl⟩
  | block _ _ ha ih =>
    obtain ⟨last, hlast, hheight⟩ := ih
    obtain rfl := Option.some.inj (ha.last.symm.trans hlast)
    refine ⟨_, ha.last?_eq, ?_⟩
    rw [ha.height, ha.height_eq, hheight, List.length_append, List.length_singleton,
      Nat.add_assoc]

/-- A block stands beyond the limit exactly if the top of the chain has reached the limit and the
block stands on it. -/
theorem Extends.isBeyondLimit_iff (h : e.Extends genesis c blocks) :
    b.IsBeyondLimit c ↔ genesis.height.toNat + blocks.length + 1 = UInt64.size ∧
      ∃ last, c.last? = some last ∧ last.blockId = b.previousBlockId := by
  obtain ⟨last, hlast, hheight⟩ := h.exists_last
  simp only [← hheight, hlast, Option.some.injEq, exists_eq_left']
  constructor
  · rintro ⟨previous, hp, hlimit⟩
    -- nothing is above a snapshot at the limit
    have hbound := last.height.toNat_lt_size
    obtain ⟨older, ho⟩ := List.head?_eq_some_iff.mp (h.linear.last?_eq_head? ▸ hlast)
    have hmem := Chain.mem_of_snapshot? hp
    have hdescending := h.linear.descending
    rw [ho] at hmem hdescending
    rcases List.mem_cons.mp hmem with rfl | hmem
    · exact ⟨hlimit, Chain.blockId_of_snapshot? hp⟩
    · have hlt := List.rel_of_pairwise_cons hdescending hmem
      omega
  · rintro ⟨hlimit, hname⟩
    exact ⟨last, h.linear.snapshot?_of_last? hlast hname, hlimit⟩

/-- The block without transactions on top of another one. -/
def onTop (previous : Identifier) : Block := ⟨previous, .zero, 0, [], none⟩

theorem decode_onTop (previous : Identifier) :
    ((EncodedEntity.ofEntity (onTop previous)).decode (Entity.typeTag Block) :
      Except LedgerError Block) = .ok (onTop previous) := by
  have hfits : Codec.Fits (onTop previous) :=
    ⟨trivial, trivial, trivial, ⟨Nat.two_pow_pos 64, nofun⟩, nofun⟩
  exact Codec.decode_ofEntity hfits

/-- **When an engine ends without an answer.** In any chain whatever, this happens to the encoded
blocks that stand on a snapshot at the greatest height and to no other entity, and it is in the
comparison of heights by admission and by finalization that it happens. A finalized block is always
higher than its predecessor. In a run from a genesis snapshot there is such an entity exactly once
the accepted blocks have taken the chain from the genesis height to the greatest height. -/
theorem heightOverflow_iff_of_run (e : Engine) (genesis : AccountSnapshot)
    (inputs : List EncodedEntity) :
    (∀ c x, (e.process c x).2 = .error .heightOverflow ↔
        ∃ b, (x.decode (Entity.typeTag Block) : Except LedgerError Block) = .ok b ∧
          b.IsBeyondLimit c) ∧
      (∀ (c : Chain) (b : Block), b.isCorrect e.hasher e.parameters c = .error .atLimit ↔
        b.IsBeyondLimit c) ∧
      (∀ (c : Chain) (b : Block), c.finalizeBlock e.hasher b = .error .heightOverflow ↔
        b.IsBeyondLimit c) ∧
      (∀ (c c' : Chain) (b : Block) (next : AccountSnapshot),
        c.finalizeBlock e.hasher b = .ok (c', next) →
          ∃ previous, c.snapshot? b.previousBlockId = some previous ∧
            previous.height < next.height) ∧
      ((∃ x, (e.process (e.run (.ofGenesis genesis) inputs) x).2 = .error .heightOverflow) ↔
        genesis.height.toNat + (e.accepted (.ofGenesis genesis) inputs).length + 1 =
          UInt64.size) := by
  refine ⟨fun _ _ => process_eq_heightOverflow_iff, fun _ _ => Block.isCorrect_eq_error_iff,
    fun _ _ => Chain.finalizeBlock_eq_heightOverflow_iff, ?raised, ?reached⟩
  case raised =>
    intro c c' b next hf
    obtain ⟨previous, hp, hheight⟩ := Chain.height_of_finalizeBlock hf
    exact ⟨previous, hp, UInt64.lt_iff_toNat_lt.mpr (hheight ▸ Nat.lt_succ_self _)⟩
  case reached =>
    have hrun := extends_run e genesis inputs
    constructor
    · rintro ⟨x, hx⟩
      obtain ⟨b, -, hbeyond⟩ := process_eq_heightOverflow_iff.mp hx
      exact (hrun.isBeyondLimit_iff.mp hbeyond).1
    · intro hlimit
      obtain ⟨last, hlast, -⟩ := hrun.exists_last
      exact ⟨.ofEntity (onTop last.blockId), process_eq_heightOverflow_iff.mpr
        ⟨onTop last.blockId, decode_onTop _, hrun.isBeyondLimit_iff.mpr ⟨hlimit, last, hlast, rfl⟩⟩⟩

/-- After the first block of the sample payment, the snapshot of the second one is higher than that
of the first. -/
theorem heightOverflow_iff_of_run_sample :
    let m := Payment.sample
    let c := m.engine.run (.ofGenesis m.genesis) [.ofEntity Payment.first]
    ∃ c' next, c.finalizeBlock m.hasher m.second = .ok (c', next) ∧
      ∃ previous, c.snapshot? m.firstId = some previous ∧ previous.height < next.height := by
  intro m c
  obtain ⟨-, -, c', next, hf⟩ := accepts?_eq_some_iff.mp Payment.accepts?_second_sample
  obtain ⟨-, -, -, hraised, -⟩ :=
    heightOverflow_iff_of_run m.engine m.genesis [.ofEntity Payment.first]
  exact ⟨c', next, hf, hraised c c' m.second next hf⟩

/-- A genesis without accounts at the greatest height there is. -/
def summit : SnapshotFixture := ⟨Payment.origin, 0xFFFFFFFFFFFFFFFF, []⟩

/-- **A block on a genesis at the greatest height gets neither a verdict nor an error.** -/
theorem process_summit_eq_heightOverflow :
    ∃ genesis c, summit.build .blake3 = .ok genesis ∧ Chain.withGenesis genesis = .ok c ∧
      ((Engine.mk .blake3 {}).process c (.ofEntity (onTop Payment.origin))).2 =
        .error .heightOverflow := by
  let builder : SnapshotBuilder := ⟨Payment.origin, 0xFFFFFFFFFFFFFFFF, .empty⟩
  let genesis := builder.sealed .blake3
  refine ⟨genesis, .ofGenesis genesis, builder.build_eq .blake3, Chain.withGenesis_eq genesis, ?_⟩
  exact process_eq_heightOverflow_iff.mpr
    ⟨onTop Payment.origin, decode_onTop _, genesis, Chain.snapshot?_ofGenesis genesis, rfl⟩

end Engine

end StakeLedger
