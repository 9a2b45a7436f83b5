import FaultMesh.BlockRefinement
import FaultMesh.Grouping

/-!
# The parallel path and the serial path on a batch

The parallel path services the faults it can locate and lets the others be: a fault without a
range, one whose block is not found, one of a block that there was no room for, and one that is
fatal already. The serial path marks, records or hands on every one of them. Both end up the same
exactly for batches in which there are no such faults.

The loop of `service_fault_batch` is described round by round: what every round does to the
batch (`Round`), and what it does as long as nothing fatal comes up (`CleanBatch`).
-/

namespace FaultMesh

/-! ## The property -/

/-- The lookup of the block fails for a fault that has a range. -/
def LookupFails (sb : SortedBatch) : Prop :=
  ∃ i < sb.size, (sb.batch.entries i).isFatal = false ∧
    (sb.ans.gpuVaSpace (sb.space i)).isSome ∧ sb.ans.inRange i = true ∧
      ∃ status, sb.ans.findCreateInRange i = .error status

/-- The two paths dispose alike of the faults of the batch. -/
structure SameBatch (sb : SortedBatch) (serial : SerialBatch × NvStatus) (par : ParallelBatch) :
    Prop where
  /-- Faults without a range are marked, or handed to ATS or HMM service, alike. -/
  unserviceable : ∀ i < sb.size, (sb.batch.entries i).isFatal = false →
    (sb.ans.gpuVaSpace (sb.space i)).isSome → sb.ans.inRange i = false →
      serial.1.disposition i = par.disposition i
  fatalVaSpace : serial.1.batch.fatalVaSpace = par.batch.fatalVaSpace
  utlbs : serial.1.batch.utlbHasFatalFaults = par.batch.utlbHasFatalFaults
  status : LookupFails sb → serial.2 = par.status
  disposed : ∀ i < sb.size, (par.disposition i).isSome

/-- Whatever is handed to block or ATS service is serviced. -/
structure ServicesSucceed (ans : BatchAnswers) : Prop where
  block : ∀ i retries, ans.serviceLocked i retries = .ok
  ats : ∀ i, (ans.serviceFaultBatchAts i).status = .ok

/-- The fatal fields are as they are reset before a batch is serviced. -/
structure FreshBatch (batch : ServiceBatch) : Prop where
  utlbs : ∀ u, batch.utlbHasFatalFaults u = false
  fatalVaSpace : batch.fatalVaSpace = none

/-- No access at the places from `i` to `j` is denied, prefetches apart. Of faults with one address
the first one counts. -/
def Permitted (sb : SortedBatch) (i j : Nat) : Prop :=
  ∀ k, i ≤ k → k < j → (sb.ans.gpuVaSpace (sb.space k)).isSome → leads sb.batch.entries 0 k →
    sb.ans.block.denied sb.batch.entries k → (sb.batch.entries k).accessType = .prefetch

/-- No fault is fatal already, the faults of every VA space that the GPU is registered with are
located on at most as many blocks as there are groups, and their accesses are permitted. -/
structure AllLocated (sb : SortedBatch) : Prop where
  noFatal : ∀ i < sb.size, (sb.batch.entries i).isFatal = false
  located : ∀ i < sb.size, (sb.ans.gpuVaSpace (sb.space i)).isSome → (sb.located i).isSome
  blocks : sb.blocks.length ≤ uvmParallelFaultMaxBlocks
  permitted : Permitted sb 0 sb.size

/-! ## What servicing a batch leaves of it -/

section Marks

variable {n i : Nat}

theorem ServiceBatch.serviceFaultBatchFatal_marksMore (b : ServiceBatch) (hi : i < n)
    (status : NvStatus) (mode : CancelVaMode) :
    MarksMore n b (b.serviceFaultBatchFatal i status mode) := by
  have hmark : ∀ b₁ : ServiceBatch, MarksMore n b b₁ → MarksMore n b
      (if (b₁.entries i).accessType = .prefetch then b₁.markFaultInvalidPrefetch i
        else b₁.markFaultFatal i status.toFatalReason mode) := by
    intro b₁ h
    split
    · exact h.trans (b₁.markFaultInvalidPrefetch_marksMore i)
    · exact h.trans (b₁.markFaultFatal_marksMore hi _ _)
  apply hmark
  split
  · exact b.duplicateFlags_marksMore i
  · exact .refl b

theorem ServiceBatch.serviceFaultBatchFatalNotify_marksMore (b : ServiceBatch) (hi : i < n)
    (status : NvStatus) (mode : CancelVaMode) :
    MarksMore n b (b.serviceFaultBatchFatalNotify i status mode) :=
  (b.serviceFaultBatchFatal_marksMore hi status mode).trans (updateBatch_marksMore _ i _)

theorem ServiceBatch.noteFatal_marksMore {b : ServiceBatch} (hi : i < n)
    (hfatal : (b.entries i).isFatal = true) : MarksMore n b (b.noteFatal i) :=
  .of_record hi rfl (Function.update_eq_self i b.entries).symm rfl rfl hfatal rfl

theorem ServiceBatch.visitAts_marksMore (b : ServiceBatch) (hi : i < n) (visit : AtsVisit) :
    MarksMore n b (b.visitAts i visit) := by
  cases visit with
  | first | next => exact b.updateBatch_marksMore i _
  | nextThenFirst => exact (b.updateBatch_marksMore i _).trans (updateBatch_marksMore _ i _)
  | passedOver => exact .refl b
  | noVma => exact b.serviceFaultBatchFatalNotify_marksMore hi _ _

theorem ServiceBatch.markAtsFault_marksMore (out : AtsOutcome) (b : ServiceBatch) (hi : i < n) :
    MarksMore n b (b.markAtsFault out i) := by
  apply (b.visitAts_marksMore hi (out.visit i)).trans
  rw [ServiceBatch.markAtsFault]
  split
  · exact serviceFaultBatchFatal_marksMore _ hi _ _
  · exact .refl _

theorem ServiceBatch.markAts_marksMore (out : AtsOutcome) {k : Nat} (b : ServiceBatch)
    (hn : i + k ≤ n) : MarksMore n b (b.markAts out k i) := by
  induction k generalizing i b with
  | zero =>
    rw [ServiceBatch.markAts]
    split
    · exact b.updateBatch_marksMore i _
    · exact .refl b
  | succ k ih =>
    exact (b.markAtsFault_marksMore out (by omega)).trans (ih _ (by omega))

end Marks

/-! ## A round of the serial loop -/

section Serial

variable {sb : SortedBatch} {i : Nat} {s : SerialBatch}

/-- The batch as it is after some rounds: the same faults, and the GPU VA space of the VA space the
loop is in. -/
structure SerialInv (sb : SortedBatch) (s : SerialBatch) : Prop where
  marks : MarksMore sb.size sb.batch s.batch
  gpuVaSpace : s.gpuVaSpace = s.vaSpace.bind sb.ans.gpuVaSpace

section

variable (h : SerialInv sb s)
include h

namespace SerialInv

theorem size : s.batch.numCoalescedFaults = sb.size := h.marks.size

theorem vaSpace {k : Nat} (hk : k < sb.size) :
    (s.batch.entries k).vaSpace = some (sb.space k) :=
  (h.marks.vaSpace k).trans (sb.vaSpace k hk)

theorem address (k : Nat) : (s.batch.entries k).faultAddress = sb.address k :=
  congrArg RawFault.faultAddress (h.marks.raw k)

theorem not_isFatal {k : Nat} (hk : (s.batch.entries k).isFatal = false) :
    (sb.batch.entries k).isFatal = false := by
  rw [← Bool.not_eq_true] at hk ⊢
  exact fun hfatal => hk (h.marks.isFatal k hfatal)

end SerialInv

/-- What the dispatch of the fault at place `i` does: it takes faults of the VA space, at least the
one it was called for. -/
structure Dispatched (sb : SortedBatch) (i : Nat) (s : SerialBatch)
    (r : SerialBatch × NvStatus × Nat) : Prop where
  marks : MarksMore sb.size s.batch r.1.batch
  status : r.2.1 = .ok
  pos : 0 < r.2.2
  le : i + r.2.2 ≤ sb.size
  space : ∀ k < r.2.2, sb.space (i + k) = sb.space i
  vaSpace : r.1.vaSpace = s.vaSpace
  gpuVaSpace : r.1.gpuVaSpace = s.gpuVaSpace

theorem SerialInv.blockFaults (hi : i < sb.size) {block : VaBlock}
    (hspace : block.vaSpace = sb.space i) (hlast : sb.address i ≤ block.last) :
    0 < s.batch.blockFaults block i ∧ i + s.batch.blockFaults block i ≤ sb.size ∧
      ∀ k < s.batch.blockFaults block i, sb.space (i + k) = sb.space i ∧
        sb.address (i + k) ≤ block.last := by
  have hle : s.batch.blockFaults block i ≤ s.batch.numCoalescedFaults - i := countWhile_le
  rw [h.size] at hle
  refine ⟨?_, by omega, fun k hk => ?_⟩
  · apply countWhile_pos
    · rw [h.size]
      omega
    · rw [h.vaSpace hi, h.address, hspace]
      simpa using hlast
  · have htest := of_lt_countWhile hk
    have hlt : i + k < sb.size := by omega
    rw [h.vaSpace hlt, h.address, hspace] at htest
    simpa using htest

theorem SerialInv.behind_block {block : VaBlock}
    (hend : i + s.batch.blockFaults block i < sb.size)
    (hspace : sb.space (i + s.batch.blockFaults block i) = block.vaSpace) :
    block.last < sb.address (i + s.batch.blockFaults block i) := by
  rw [← h.size] at hend
  have hcount := @countWhile_end (fun j => (s.batch.entries j).vaSpace = some block.vaSpace &&
    (s.batch.entries j).faultAddress ≤ block.last) (s.batch.numCoalescedFaults - i) i
    (Nat.lt_sub_iff_add_lt'.2 hend)
  simp only [Bool.and_eq_false_iff, decide_eq_false_iff_not, not_le] at hcount
  rw [← h.address]
  apply hcount.resolve_left
  have hva := h.vaSpace (h.size ▸ hend)
  rw [hspace] at hva
  exact fun hne => hne hva

theorem SerialInv.starts_behind (hi : i < sb.size) {block : VaBlock}
    (hspace : block.vaSpace = sb.space i) (hlast : sb.address i ≤ block.last)
    (hend : i + s.batch.blockFaults block i < sb.size) :
    checkFaultEntryDuplicate (sb.batch.entries (i + s.batch.blockFaults block i))
      (sb.batch.entries (i + s.batch.blockFaults block i - 1)) = false := by
  obtain ⟨hpos, -, hfaults⟩ := h.blockFaults hi hspace hlast
  have hbehind := @SerialInv.behind_block sb i s h block hend
  obtain ⟨m, hm⟩ : ∃ m, s.batch.blockFaults block i = m + 1 :=
    ⟨_, (Nat.succ_pred_eq_of_pos hpos).symm⟩
  rw [hm] at hend hbehind hfaults ⊢
  obtain ⟨hsame, hle⟩ := hfaults m (Nat.lt_succ_self m)
  have hpred : i + (m + 1) - 1 = i + m := rfl
  have hlt : i + m < sb.size := Nat.lt_of_succ_lt hend
  rw [checkFaultEntryDuplicate, hpred, sb.vaSpace _ hend, sb.vaSpace _ hlt,
    Bool.and_eq_false_iff, decide_eq_false_iff_not, decide_eq_false_iff_not]
  by_contra hdup
  push Not at hdup
  obtain ⟨hva, haddr⟩ := hdup
  have hlast' := hbehind (by rw [Option.some.inj hva, hsame, hspace])
  have haddr' : sb.address (i + (m + 1)) = sb.address (i + m) := haddr
  rw [haddr'] at hlast'
  exact absurd hle (Nat.not_le_of_lt hlast')

theorem SerialInv.serviceFaultBatchBlock (hok : ServicesSucceed sb.ans)
    (hi : i < sb.size) {block : VaBlock} (hspace : block.vaSpace = sb.space i)
    (hlast : sb.address i ≤ block.last) (d : Disposition) :
    Dispatched sb i s (s.serviceFaultBatchBlock sb.ans block i d) := by
  obtain ⟨hpos, hle, hfaults⟩ := h.blockFaults hi hspace hlast
  refine ⟨?_, hok.block _ _, hpos, hle, fun k hk => (hfaults k hk).1, rfl, rfl⟩
  have hmarks := @serviceFaultBatchBlockLocked_marksMore sb.ans.block block i s.batch
    { s.ctx with numRetries := 0 } (by rw [h.size]; omega)
  rw [h.size] at hmarks
  exact hmarks

omit h in
theorem SerialInv.cancelFault (_ : SerialInv sb s) (hi : i < sb.size) (status : NvStatus) :
    Dispatched sb i s (s.cancelFault i status) where
  marks := s.batch.serviceFaultBatchFatalNotify_marksMore hi _ _
  status := rfl
  pos := Nat.one_pos
  le := hi
  space := fun k hk => by
    obtain rfl : k = 0 := Nat.lt_one_iff.1 hk
    rfl
  vaSpace := rfl
  gpuVaSpace := rfl

theorem SerialInv.serviceAts (hok : ServicesSucceed sb.ans) (hi : i < sb.size) :
    let out := sb.ans.serviceFaultBatchAts i
    let k := s.batch.atsFaults out i
    Dispatched sb i s
      ({ s with batch := s.batch.markAts out k i }.record i k .ats, out.status, k) := by
  intro out k
  have hle : k ≤ min (out.more + 1) (s.batch.numCoalescedFaults - i) := countWhile_le
  rw [h.size] at hle
  have hbound : i + k ≤ sb.size := by omega
  refine ⟨s.batch.markAts_marksMore out hbound, hok.ats i, ?_, hbound, fun j hj => ?_, rfl, rfl⟩
  · apply countWhile_pos
    · rw [h.size]
      omega
    · exact decide_eq_true rfl
  · have hlt : i + j < sb.size := Nat.lt_of_lt_of_le (Nat.add_lt_add_left hj i) hbound
    have htest := of_decide_eq_true (of_lt_countWhile hj)
    rw [h.vaSpace hi, h.vaSpace hlt] at htest
    exact Option.some.inj htest

/-- The dispatch of a fault that is not fatal, in a VA space of the GPU. -/
theorem SerialInv.serviceFaultBatchDispatch (hok : ServicesSucceed sb.ans)
    (hi : i < sb.size) (hfatal : (s.batch.entries i).isFatal = false)
    (hgpu : (sb.ans.gpuVaSpace (sb.space i)).isSome) :
    Dispatched sb i s (s.serviceFaultBatchDispatch sb.ans i) := by
  unfold SerialBatch.serviceFaultBatchDispatch
  dsimp only
  split
  next block hfound =>
    -- the block that is found holds the fault
    suffices hblock : block.vaSpace = sb.space i ∧ sb.address i ≤ block.last from
      h.serviceFaultBatchBlock hok hi hblock.1 hblock.2 _
    split at hfound
    next hrange =>
      have hloc : sb.located i = some block := by
        rw [SortedBatch.located_eq hi, h.not_isFatal hfatal, Option.isNone_eq_false_iff.2 hgpu,
          hrange, hfound]
        rfl
      obtain ⟨hspace, -, hlast⟩ := sb.found i hi block hloc
      exact ⟨hspace, hlast⟩
    next =>
      split at hfound
      · exact sb.hmmFound i hi block hfound
      · cases hfound
  next status hfound =>
    split
    · split
      · exact h.cancelFault hi _
      · exact h.serviceAts hok hi
    · exact h.cancelFault hi _

theorem SerialInv.enterVaSpace (hi : i < sb.size) :
    let s' := s.enterVaSpace sb.ans (s.batch.entries i).vaSpace
    SerialInv sb s' ∧ s'.batch = s.batch ∧ s'.gpuVaSpace = sb.ans.gpuVaSpace (sb.space i) := by
  rw [h.vaSpace hi, SerialBatch.enterVaSpace]
  split
  next hsame =>
    refine ⟨h, rfl, ?_⟩
    rw [h.gpuVaSpace, ← hsame]
    rfl
  next => exact ⟨⟨h.marks, rfl⟩, rfl, rfl⟩

/-- What a round of the loop does, from place `i` to place `j`. -/
structure Round (sb : SortedBatch) (i : Nat) (s s' : SerialBatch) (j : Nat) : Prop where
  inv : SerialInv sb s'
  marks : MarksMore sb.size s.batch s'.batch
  lt : i < j
  le : j ≤ sb.size
  space : ∀ k, i ≤ k → k < j → sb.space k = sb.space i
  /-- Without a GPU VA space one fault is taken. -/
  single : sb.ans.gpuVaSpace (sb.space i) = none → j = i + 1
  /-- A fault that is fatal already is recorded for its uTLB. -/
  fatal : (s.batch.entries i).isFatal = true → s'.batch.Flagged

theorem SerialInv.round_one (hi : i < sb.size) {s' : SerialBatch}
    (hmarks : MarksMore sb.size s.batch s'.batch)
    (hgpu : s'.gpuVaSpace = s'.vaSpace.bind sb.ans.gpuVaSpace)
    (hfatal : (s.batch.entries i).isFatal = true → s'.batch.Flagged) :
    Round sb i s s' (i + 1) where
  inv := ⟨h.marks.trans hmarks, hgpu⟩
  marks := hmarks
  lt := Nat.lt_succ_self i
  le := hi
  space := fun k hik hk => by rw [le_antisymm (Nat.lt_succ_iff.1 hk) hik]
  single := fun _ => rfl
  fatal := hfatal

/-! The three kinds of rounds. -/

omit h in
theorem serviceRound_fatal (hfatal : (s.batch.entries i).isFatal = true) :
    let s₁ := s.enterVaSpace sb.ans (s.batch.entries i).vaSpace
    s.serviceRound sb.ans i =
      ({ s₁ with batch := s₁.batch.noteFatal i }.record i 1 .fatal, .ok (i + 1)) :=
  if_pos hfatal

theorem SerialInv.serviceRound_ignored (hi : i < sb.size)
    (hfatal : (s.batch.entries i).isFatal = false) (hgpu : sb.ans.gpuVaSpace (sb.space i) = none) :
    s.serviceRound sb.ans i =
      ((s.enterVaSpace sb.ans (s.batch.entries i).vaSpace).record i 1 .ignored, .ok (i + 1)) := by
  have hnone := (h.enterVaSpace hi).2.2
  unfold SerialBatch.serviceRound
  dsimp only
  rw [hfatal, if_neg Bool.false_ne_true, if_pos (by rw [hnone, hgpu]; rfl)]

theorem SerialInv.serviceRound_dispatch (hi : i < sb.size)
    (hfatal : (s.batch.entries i).isFatal = false) (hgpu : (sb.ans.gpuVaSpace (sb.space i)).isSome)
    {r : SerialBatch × NvStatus × Nat}
    (hr : (s.enterVaSpace sb.ans (s.batch.entries i).vaSpace).serviceFaultBatchDispatch sb.ans i = r)
    (hstatus : r.2.1 = .ok) : s.serviceRound sb.ans i = (r.1, .ok (i + r.2.2)) := by
  have hsome := (h.enterVaSpace hi).2.2
  unfold SerialBatch.serviceRound
  dsimp only
  rw [hfatal, if_neg Bool.false_ne_true,
    if_neg (by rw [hsome, Option.isNone_eq_false_iff.2 hgpu]; exact nofun), hr, hstatus]

theorem SerialInv.serviceRound_located (hok : ServicesSucceed sb.ans)
    (hi : i < sb.size) (hfatal : (s.batch.entries i).isFatal = false) {block : VaBlock}
    (hloc : sb.located i = some block) :
    let r := (s.enterVaSpace sb.ans (s.batch.entries i).vaSpace).serviceFaultBatchBlock sb.ans block i
      .serviced
    s.serviceRound sb.ans i = (r.1, .ok (i + r.2.2)) := by
  have hfound := BatchAnswers.found_of_located hloc
  have hdispatch : (s.enterVaSpace sb.ans (s.batch.entries i).vaSpace).serviceFaultBatchDispatch
      sb.ans i = (s.enterVaSpace sb.ans (s.batch.entries i).vaSpace).serviceFaultBatchBlock sb.ans
        block i .serviced := by
    simp only [SerialBatch.serviceFaultBatchDispatch, hfound.1, hfound.2, if_true]
  exact h.serviceRound_dispatch hi hfatal (SortedBatch.gpuVaSpace_of_located hi hloc) hdispatch
    (hok.block _ _)

theorem SerialInv.serviceRound (hok : ServicesSucceed sb.ans) (hi : i < sb.size) :
    ∃ s' j, s.serviceRound sb.ans i = (s', .ok j) ∧ Round sb i s s' j := by
  obtain ⟨hinv, hbatch, -⟩ := h.enterVaSpace hi
  cases hfatal : (s.batch.entries i).isFatal with
  | true =>
    refine ⟨_, _, serviceRound_fatal hfatal, h.round_one hi ?_ hinv.gpuVaSpace fun _ => ?_⟩
    · show MarksMore sb.size s.batch
        ((s.enterVaSpace sb.ans (s.batch.entries i).vaSpace).batch.noteFatal i)
      rw [hbatch]
      exact ServiceBatch.noteFatal_marksMore hi hfatal
    · exact ⟨_, Function.update_self _ _ _⟩
  | false =>
    cases hgpu : sb.ans.gpuVaSpace (sb.space i) with
    | none =>
      refine ⟨_, _, h.serviceRound_ignored hi hfatal hgpu, h.round_one hi ?_ hinv.gpuVaSpace ?_⟩
      · show MarksMore sb.size s.batch
          (s.enterVaSpace sb.ans (s.batch.entries i).vaSpace).batch
        rw [hbatch]
        exact .refl _
      · rw [hfatal]
        exact nofun
    | some gpuVaSpace =>
      have hsome : (sb.ans.gpuVaSpace (sb.space i)).isSome := by rw [hgpu]; rfl
      have hdis := hinv.serviceFaultBatchDispatch hok hi (by rwa [hbatch]) hsome
      refine ⟨_, _, h.serviceRound_dispatch hi hfatal hsome rfl hdis.status,
        ⟨hinv.marks.trans hdis.marks, ?_⟩, ?_, Nat.lt_add_of_pos_right hdis.pos, hdis.le,
        fun k hik hk => ?_, ?_, ?_⟩
      · rw [hdis.vaSpace, hdis.gpuVaSpace]
        exact hinv.gpuVaSpace
      · have hmarks := hdis.marks
        rwa [hbatch] at hmarks
      · obtain ⟨m, rfl⟩ := Nat.exists_eq_add_of_le hik
        exact hdis.space m (Nat.add_lt_add_iff_left.1 hk)
      · rw [hgpu]
        exact nofun
      · rw [hfatal]
        exact nofun

end

/-- The loop comes to its end, and records every fault that was fatal and has no GPU VA
space. -/
theorem SerialInv.serviceFaultBatch (hok : ServicesSucceed sb.ans) {fuel : Nat}
    (hfuel : sb.size ≤ i + fuel) (h : SerialInv sb s) :
    ∃ s', serviceFaultBatch sb.ans fuel i s = some (s', .ok) ∧ MarksMore sb.size s.batch s'.batch ∧
      ∀ k, i ≤ k → k < sb.size → (s.batch.entries k).isFatal = true →
        sb.ans.gpuVaSpace (sb.space k) = none → s'.batch.Flagged := by
  induction fuel generalizing i s with
  | zero =>
    refine ⟨s, ?_, .refl _, fun k hik hk => absurd hk (by omega)⟩
    rw [FaultMesh.serviceFaultBatch, if_neg (by rw [h.size]; omega)]
  | succ fuel ih =>
    rw [FaultMesh.serviceFaultBatch, h.size]
    split
    next hi =>
      obtain ⟨s₁, j, hround, hr⟩ := h.serviceRound hok hi
      have hlt := hr.lt
      obtain ⟨s', hrun, hmarks, hvisit⟩ := @ih j s₁ (by omega) hr.inv
      rw [hround]
      refine ⟨s', hrun, hr.marks.trans hmarks, fun k hik hk hfatal hnone => ?_⟩
      rcases Nat.eq_or_lt_of_le hik with rfl | hik
      · exact hmarks.flagged (hr.fatal hfatal)
      -- a round that begins before the fault in its VA space takes one fault only
      · apply hvisit k (Nat.le_of_not_lt fun hkj => ?_) hk (hr.marks.isFatal k hfatal) hnone
        have hspace := hr.space k hik.le hkj
        have hsingle := hr.single (by rwa [← hspace])
        omega
    next hi =>
      exact ⟨s, rfl, .refl _, fun k hik hk => absurd hk (by omega)⟩

end Serial

/-! ## The serial loop on faults that are all located -/

section Clean

variable {sb : SortedBatch} {i : Nat} {s : SerialBatch} {block : VaBlock}

/-- The loop came to place `i` and met nothing fatal. -/
structure CleanBatch (sb : SortedBatch) (i : Nat) (s : SerialBatch) : Prop where
  inv : SerialInv sb s
  ahead : ∀ k, i ≤ k → s.batch.entries k = sb.batch.entries k
  noFatal : ∀ k < sb.size, (s.batch.entries k).isFatal = false
  /-- The next fault to be dispatched does not repeat the one before. -/
  starts : 0 < i → i < sb.size → (sb.ans.gpuVaSpace (sb.space i)).isSome →
    checkFaultEntryDuplicate (sb.batch.entries i) (sb.batch.entries (i - 1)) = false

theorem CleanBatch.unchanged (h : CleanBatch sb i s) :
    s.batch.fatalVaSpace = sb.batch.fatalVaSpace ∧
      s.batch.utlbHasFatalFaults = sb.batch.utlbHasFatalFaults := by
  apply h.inv.marks.changed.resolve_right
  rintro ⟨-, k, hk, hfatal⟩
  rw [h.noFatal k hk] at hfatal
  cases hfatal

/-- The faults that `service_fault_batch_block_locked` takes are a slice of the block. -/
def CleanBatch.slice (h : CleanBatch sb i s) (hi : i < sb.size) (hloc : sb.located i = some block) :
    BlockSlice block s.batch :=
  have hfound := sb.found i hi block hloc
  have hfaults := h.inv.blockFaults hi hfound.1 hfound.2.2
  have hlt : ∀ {k}, k < s.batch.blockFaults block i → i + k < sb.size := fun hk =>
    Nat.lt_of_lt_of_le (Nat.add_lt_add_left hk i) hfaults.2.1
  { first := i
    numFaults := s.batch.blockFaults block i
    bound := h.inv.size ▸ hfaults.2.1
    vaSpace := fun k hk => by
      rw [h.inv.vaSpace (hlt hk), (hfaults.2.2 k hk).1, hfound.1]
    start_le := fun k hk => by
      rw [h.inv.address]
      have hspace := (hfaults.2.2 k hk).1
      exact hfound.2.1.trans
        (SortedBatch.between le_rfl (Nat.le_add_right i k) (hlt hk) hspace.symm).2.2
    le_last := fun k hk => by
      rw [h.inv.address]
      exact (hfaults.2.2 k hk).2
    sorted := fun k m hkm hm => by
      rw [h.inv.address, h.inv.address]
      have hk := (hfaults.2.2 k (Nat.lt_of_le_of_lt hkm hm)).1
      have hspace := hk.trans (hfaults.2.2 m hm).1.symm
      exact (SortedBatch.between le_rfl (Nat.add_le_add_left hkm i) (hlt hm) hspace).2.2
    aligned := fun k hk => by
      rw [h.inv.address]
      exact sb.aligned _ (hlt hk)
    serviceable := fun k hk => h.noFatal _ (hlt hk)
    ends := fun hend hspace => by
      have hend' : i + s.batch.blockFaults block i < sb.size := h.inv.size ▸ hend
      rw [h.inv.address]
      apply h.inv.behind_block hend'
      rw [h.inv.vaSpace hend'] at hspace
      exact Option.some.inj hspace }

section

variable (h : CleanBatch sb i s)
include h

theorem CleanBatch.leads_eq (hi : i < sb.size) (hgpu : (sb.ans.gpuVaSpace (sb.space i)).isSome)
    (j : Nat) : leads s.batch.entries i (i + j) = leads sb.batch.entries 0 (i + j) := by
  cases j with
  | zero =>
    rcases Nat.eq_zero_or_pos i with rfl | hpos
    · rfl
    · simp only [leads, Nat.add_zero, h.starts hpos hi hgpu, Nat.lt_irrefl, decide_false,
        Bool.false_and, Bool.and_false]
  | succ j =>
    have hpred : i + (j + 1) - 1 = i + j := rfl
    have hlt : i < i + (j + 1) := Nat.lt_add_of_pos_right (Nat.succ_pos j)
    simp only [leads, hpred, h.ahead (i + (j + 1)) (Nat.le_add_right i _),
      h.ahead (i + j) (Nat.le_add_right i j), hlt, Nat.zero_lt_of_lt hlt]

theorem CleanBatch.denied_eq (j : Nat) :
    sb.ans.block.denied s.batch.entries (i + j) = sb.ans.block.denied sb.batch.entries (i + j) := by
  rw [BlockAnswers.denied, BlockAnswers.denied, h.ahead (i + j) (Nat.le_add_right i j)]

theorem CleanBatch.starts_behind (hi : i < sb.size)
    (hloc : sb.located i = some block) (hend : i + s.batch.blockFaults block i < sb.size) :
    checkFaultEntryDuplicate (sb.batch.entries (i + s.batch.blockFaults block i))
      (sb.batch.entries (i + s.batch.blockFaults block i - 1)) = false := by
  obtain ⟨hspace, -, hlast⟩ := sb.found i hi block hloc
  exact h.inv.starts_behind hi hspace hlast hend

theorem CleanBatch.serviceFaultBatchBlock (hok : ServicesSucceed sb.ans) (hi : i < sb.size)
    (hloc : sb.located i = some block) (d : Disposition) :
    let r := s.serviceFaultBatchBlock sb.ans block i d
    (CleanBatch sb (i + r.2.2) r.1 ∧ Permitted sb i (i + r.2.2)) ∨
      (r.1.batch.Flagged ∧ ¬ Permitted sb i (i + r.2.2)) := by
  intro r
  obtain ⟨hspace, -, hlast⟩ := sb.found i hi block hloc
  have hgpu := SortedBatch.gpuVaSpace_of_located hi hloc
  have hdis := h.inv.serviceFaultBatchBlock hok hi hspace hlast d
  have hlt : ∀ {j}, j < r.2.2 → i + j < sb.size := fun hj =>
    Nat.lt_of_lt_of_le (Nat.add_lt_add_left hj i) hdis.le
  let sl := h.slice hi hloc
  have hfuel : sl.first + 0 + (s.batch.numCoalescedFaults - i) = s.batch.numCoalescedFaults :=
    Nat.add_sub_cancel' (by rw [h.inv.size]; exact hi.le)
  have hrun := @serviceFaults_run sb.ans.block block s.batch { s.ctx with numRetries := 0 } sl rfl
    sl.numFaults 0 _ _ (Nat.zero_add _) hfuel (serialRun_zero sl)
  -- nothing fatal comes up, or an access is denied and a uTLB flagged
  rcases hrun with ⟨hs, hpermitted⟩ | ⟨⟨j, hj, hfatal⟩, k, hk, hlead, hden, hprefetch⟩
  · left
    have hentries : r.1.batch.entries = markedEntries sb.ans.block s.batch.entries i r.2.2 := hs.marked
    refine ⟨⟨⟨h.inv.marks.trans hdis.marks, ?_⟩, fun k hk => ?_, fun k hk => ?_, fun _ hend _ => ?_⟩,
      fun k hik hk hgpu' hlead hden => ?_⟩
    · rw [hdis.vaSpace, hdis.gpuVaSpace]
      exact h.inv.gpuVaSpace
    · rw [hentries, markedEntries, if_neg (by omega)]
      exact h.ahead k (by omega)
    · rw [hentries, markedEntries]
      split
      · exact h.noFatal k hk
      · exact h.noFatal k hk
    · exact h.starts_behind hi hloc hend
    · obtain ⟨j, rfl⟩ := Nat.exists_eq_add_of_le hik
      rw [← h.leads_eq hi hgpu] at hlead
      rw [← h.denied_eq] at hden
      have hp := hpermitted j (Nat.zero_le j) (Nat.add_lt_add_iff_left.1 hk) hlead hden
      rwa [← h.ahead (i + j) hik]
  · right
    constructor
    -- the entry was not fatal before
    · apply (hdis.marks.newFatal (i + j) hfatal).resolve_left
      simp [h.noFatal (i + j) (hlt hj)]
    · intro hpermitted
      apply hprefetch
      have hahead : s.batch.entries (sl.first + k) = sb.batch.entries (i + k) :=
        h.ahead (i + k) (Nat.le_add_right i k)
      rw [hahead]
      apply hpermitted (i + k) (Nat.le_add_right i k) (Nat.add_lt_add_left hk i)
      · rw [hdis.space k hk]
        exact hgpu
      · rw [← h.leads_eq hi hgpu]
        exact hlead
      · rw [← h.denied_eq]
        exact hden

theorem CleanBatch.enterVaSpace (hi : i < sb.size) :
    CleanBatch sb i (s.enterVaSpace sb.ans (s.batch.entries i).vaSpace) := by
  obtain ⟨hinv, hbatch, -⟩ := h.inv.enterVaSpace hi
  refine ⟨hinv, fun k hk => ?_, fun k hk => ?_, h.starts⟩
  · rw [hbatch]
    exact h.ahead k hk
  · rw [hbatch]
    exact h.noFatal k hk

theorem CleanBatch.ignore (hi : i < sb.size) (hgpu : sb.ans.gpuVaSpace (sb.space i) = none) :
    CleanBatch sb (i + 1) (s.record i 1 .ignored) ∧ Permitted sb i (i + 1) := by
  refine ⟨⟨⟨h.inv.marks, h.inv.gpuVaSpace⟩, fun k hk => h.ahead k (Nat.le_of_succ_le hk), h.noFatal,
    fun _ hend hsome => ?_⟩, fun k hik hk hsome => ?_⟩
  -- the next fault is of another VA space
  · rw [Nat.add_sub_cancel, checkFaultEntryDuplicate, sb.vaSpace _ hend, sb.vaSpace _ hi,
      Bool.and_eq_false_iff, decide_eq_false_iff_not]
    left
    intro heq
    rw [Option.some.inj heq, hgpu] at hsome
    cases hsome
  · rw [le_antisymm (Nat.lt_succ_iff.1 hk) hik, hgpu] at hsome
    cases hsome

theorem CleanBatch.serviceRound (hok : ServicesSucceed sb.ans)
    (hi : i < sb.size)
    (hloc : (sb.ans.gpuVaSpace (sb.space i)).isSome → (sb.located i).isSome) :
    ∃ s' j, s.serviceRound sb.ans i = (s', .ok j) ∧ Round sb i s s' j ∧
      (CleanBatch sb j s' ∧ Permitted sb i j ∨ s'.batch.Flagged ∧ ¬ Permitted sb i j) := by
  obtain ⟨s', j, hround, hr⟩ := h.inv.serviceRound hok hi
  refine ⟨s', j, hround, hr, ?_⟩
  have hfatal := h.noFatal i hi
  have hclean := h.enterVaSpace hi
  cases hgpu : sb.ans.gpuVaSpace (sb.space i) with
  -- the fault is ignored
  | none =>
    rw [h.inv.serviceRound_ignored hi hfatal hgpu] at hround
    cases hround
    exact .inl (hclean.ignore hi hgpu)
  -- the fault is located
  | some gpuVaSpace =>
    have hsome : (sb.ans.gpuVaSpace (sb.space i)).isSome := by rw [hgpu]; rfl
    obtain ⟨block, hblock⟩ := Option.isSome_iff_exists.1 (hloc hsome)
    rw [h.inv.serviceRound_located hok hi hfatal hblock] at hround
    cases hround
    exact hclean.serviceFaultBatchBlock hok hi hblock .serviced

end

theorem CleanBatch.serviceFaultBatch (hok : ServicesSucceed sb.ans)
    (hloc : ∀ k < sb.size, (sb.ans.gpuVaSpace (sb.space k)).isSome → (sb.located k).isSome)
    {fuel : Nat} (hfuel : sb.size ≤ i + fuel) (hle : i ≤ sb.size) (h : CleanBatch sb i s) :
    ∃ s', serviceFaultBatch sb.ans fuel i s = some (s', .ok) ∧
      (CleanBatch sb sb.size s' ∧ Permitted sb i sb.size ∨
        s'.batch.Flagged ∧ ¬ Permitted sb i sb.size) := by
  have hdone : ∀ {i s}, CleanBatch sb i s → sb.size = i →
      CleanBatch sb sb.size s ∧ Permitted sb i sb.size := by
    rintro i s h rfl
    exact ⟨h, fun k hik hk => absurd hk (Nat.not_lt_of_le hik)⟩
  induction fuel generalizing i s with
  | zero =>
    refine ⟨s, ?_, .inl (hdone h (le_antisymm hfuel hle))⟩
    rw [FaultMesh.serviceFaultBatch, if_neg (by rw [h.inv.size]; exact Nat.not_lt_of_le hfuel)]
  | succ fuel ih =>
    rw [FaultMesh.serviceFaultBatch, h.inv.size]
    split
    next hi =>
      obtain ⟨s₁, j, hround, hr, hstep⟩ := h.serviceRound hok hi (hloc i hi)
      have hlt := hr.lt
      have hfuel' : sb.size ≤ j + fuel := by omega
      rw [hround]
      rcases hstep with ⟨hclean, hij⟩ | ⟨hflag, hij⟩
      · obtain ⟨s', hrun, hend⟩ := ih hfuel' hr.le hclean
        refine ⟨s', hrun, hend.imp ?_ ?_⟩
        · rintro ⟨hclean', hj⟩
          refine ⟨hclean', fun k hik hk => ?_⟩
          rcases Nat.lt_or_ge k j with hkj | hjk
          · exact hij k hik hkj
          · exact hj k hjk hk
        · rintro ⟨hflag, hj⟩
          exact ⟨hflag, fun hp => hj fun k hjk => hp k (hlt.le.trans hjk)⟩
      -- once a uTLB is flagged it stays so
      · obtain ⟨s', hrun, hmarks, -⟩ := hr.inv.serviceFaultBatch hok hfuel'
        refine ⟨s', hrun, .inr ⟨hmarks.flagged hflag, fun hp => ?_⟩⟩
        exact hij fun k hik hk => hp k hik (Nat.lt_of_lt_of_le hk hr.le)
    next hi => exact ⟨s, rfl, .inl (hdone h (le_antisymm (Nat.le_of_not_lt hi) hle))⟩

end Clean

/-! ## The parallel path -/

section Parallel

variable {sb : SortedBatch} {n : Nat} {g : Grouping}

theorem Grouping.flush_fatalVaSpace (g : Grouping) : g.flush.fatalVaSpace = g.fatalVaSpace := by
  rw [flush]
  split
  · split <;> rfl
  · rfl

theorem Grouping.locate_fatalVaSpace {ans : BatchAnswers} {i addr : Nat} :
    (g.locate ans i addr).fatalVaSpace = g.fatalVaSpace := by
  rw [Grouping.locate]
  split
  · rfl
  · split
    · split
      · rfl
      · split
        · rfl
        · exact g.flush_fatalVaSpace
    · rfl

theorem countFault_fatalVaSpace : (countFault sb n g).fatalVaSpace =
    if (sb.batch.entries n).isFatal then g.fatalVaSpace.or g.vaSpace else g.fatalVaSpace := by
  rw [countFault]
  split
  · rfl
  · split
    · rfl
    · exact Grouping.locate_fatalVaSpace

/-- A fatal fault is recorded, unless the loop has just gone to a VA space without a GPU
VA space. -/
theorem groupFault_fatalVaSpace (hn : n < sb.size) :
    (groupFault sb.ans sb.batch.entries n g).fatalVaSpace =
      if (sb.batch.entries n).isFatal ∧
          (g.vaSpace = some (sb.space n) ∨ (sb.ans.gpuVaSpace (sb.space n)).isSome) then
        g.fatalVaSpace.or (some (sb.space n))
      else g.fatalVaSpace := by
  have hchange : (g.changeVaSpace sb.ans (sb.space n)).fatalVaSpace = g.fatalVaSpace :=
    g.flush_fatalVaSpace
  rw [groupFault_eq hn]
  by_cases hsame : g.vaSpace = some (sb.space n)
  · rw [if_pos hsame, countFault_fatalVaSpace, hsame]
    simp only [true_or, and_true]
  · rw [if_neg hsame]
    cases hgpu : sb.ans.gpuVaSpace (sb.space n) with
    | none =>
      rw [if_pos Option.isNone_none, hchange, if_neg]
      rintro ⟨-, hspace | hsome⟩
      · exact hsame hspace
      · cases hsome
    | some gpuVaSpace =>
      rw [if_neg (by exact nofun), countFault_fatalVaSpace, hchange]
      simp only [Option.isSome_some, or_true, and_true]
      rfl

/-- Without fatal faults nothing is recorded. -/
theorem groupFaults_fatalVaSpace (hn : n ≤ sb.size)
    (hfatal : ∀ k < sb.size, (sb.batch.entries k).isFatal = false) :
    (groupFaults sb.ans sb.batch.entries g n).fatalVaSpace = g.fatalVaSpace := by
  induction n with
  | zero => rfl
  | succ n ih =>
    rw [groupFaults, groupFault_fatalVaSpace hn, hfatal n hn, if_neg (fun h => nomatch h.1)]
    exact ih (Nat.le_of_succ_le hn)

/-- A fatal fault of a VA space of the GPU leaves `fatal_va_space` set. -/
theorem groupFaults_fatalVaSpace_isSome (hn : n ≤ sb.size) {k : Nat} (hk : k < n)
    (hfatal : (sb.batch.entries k).isFatal = true)
    (hgpu : (sb.ans.gpuVaSpace (sb.space k)).isSome) :
    (groupFaults sb.ans sb.batch.entries g n).fatalVaSpace.isSome := by
  induction n with
  | zero => exact absurd hk (Nat.not_lt_zero k)
  | succ n ih =>
    rw [groupFaults, groupFault_fatalVaSpace hn]
    rcases Nat.lt_succ_iff_lt_or_eq.1 hk with hk | rfl
    · have hold := ih (Nat.le_of_succ_le hn) hk
      split
      · rw [Option.isSome_or, hold, Bool.true_or]
      · exact hold
    · rw [if_pos ⟨hfatal, .inr hgpu⟩, Option.isSome_or]
      exact Bool.or_true _

theorem groupBatch_fatalVaSpace (sb : SortedBatch) : (groupBatch sb.ans sb.batch).fatalVaSpace =
    (groupFaults sb.ans sb.batch.entries { fatalVaSpace := sb.batch.fatalVaSpace }
      sb.size).fatalVaSpace :=
  Grouping.flush_fatalVaSpace _

theorem mem_visited {group : BlockFaultGroup} (hrun : RunOf sb.located sb.size group.toRun)
    (snapshot : Option VaSpaceSnapshot) {i : Nat} :
    i ∈ (BatchItem.mk group.vaBlock snapshot group.firstFaultIndex group.numFaults).visited
      sb.batch.entries ↔ group.Covers i := by
  rw [BatchItem.visited, List.takeWhile_eq_self_iff.2, List.mem_range'_1]
  · rfl
  · intro k hk
    obtain ⟨-, hstart, hlast⟩ := SortedBatch.own_of_runOf hrun (List.mem_range'_1.1 hk)
    simp only [Bool.and_eq_true, decide_eq_true_eq]
    exact ⟨hstart, hlast⟩

theorem runOf_groupBatch {group : BlockFaultGroup}
    (hg : group ∈ (groupBatch sb.ans sb.batch).groups) : RunOf sb.located sb.size group.toRun := by
  have hmem := List.mem_map_of_mem (f := BlockFaultGroup.toRun) hg
  rw [groupBatch_groups] at hmem
  exact (runs_spec SortedBatch.clustered).runOf _ (mem_takeRuns hmem)

theorem disposition_isSome_iff {cfg : ParallelConfig} (hcfg : cfg.Enabled) {i : Nat}
    (hi : i < sb.size) (hfatal : (sb.batch.entries i).isFatal = false)
    (hgpu : (sb.ans.gpuVaSpace (sb.space i)).isSome) :
    ((serviceFaultBatchParallel cfg sb.ans sb.batch).disposition i).isSome ↔
      ∃ group ∈ (groupBatch sb.ans sb.batch).groups, group.Covers i := by
  have hbind : ((sb.batch.entries i).vaSpace.bind sb.ans.gpuVaSpace).isNone = false := by
    rw [sb.vaSpace i hi]
    exact Option.isNone_eq_false_iff.2 hgpu
  have hitems : ∀ path, path ≠ ServicePath.none → (groupBatch sb.ans sb.batch).items path =
      (groupBatch sb.ans sb.batch).groups.map fun group =>
        ⟨group.vaBlock, (groupBatch sb.ans sb.batch).vaSpaceSnapshot, group.firstFaultIndex,
          group.numFaults⟩ := by
    intro path hpath
    cases path with
    | none => exact absurd rfl hpath
    | inline => rfl
    | dispatched => rfl
  simp only [serviceFaultBatchParallel, parallelDisposition, hfatal, hbind,
    hitems _ (hcfg.path_ne_none _), List.any_map, List.any_eq_true, Function.comp_apply,
    decide_eq_true_eq, Bool.false_eq_true, if_false]
  constructor
  · intro h
    split at h
    next hany =>
      obtain ⟨group, hg, hmem⟩ := hany
      exact ⟨group, hg, (mem_visited (runOf_groupBatch hg) _).1 hmem⟩
    next => cases h
  · rintro ⟨group, hg, hcovers⟩
    rw [if_pos ⟨group, hg, (mem_visited (runOf_groupBatch hg) _).2 hcovers⟩]
    rfl

theorem disposed_iff {cfg : ParallelConfig} (hcfg : cfg.Enabled)
    (hfatal : ∀ i < sb.size, (sb.batch.entries i).isFatal = false) :
    (∀ i < sb.size, ((serviceFaultBatchParallel cfg sb.ans sb.batch).disposition i).isSome) ↔
      (∀ i < sb.size, (sb.ans.gpuVaSpace (sb.space i)).isSome → (sb.located i).isSome) ∧
        sb.blocks.length ≤ uvmParallelFaultMaxBlocks := by
  have hclu : Clustered sb.located sb.size := SortedBatch.clustered
  have hspec := runs_spec hclu
  have hgap : Gapless sb.located sb.size := by
    rw [SortedBatch.gapless_iff]
    intro i j k block _ hjk hk _ _
    exact hfatal j (Nat.lt_trans hjk hk)
  have hpart := @takeRuns_partition_iff _ _ sb.located sb.size (runs sb.located sb.size)
    uvmParallelFaultMaxBlocks hspec hclu
  rw [runs_length, ← groupBatch_groups] at hpart
  constructor
  · intro hall
    -- a fault in the interval of a group is located, as no fault in between is fatal
    have hloc : ∀ i < sb.size, (sb.ans.gpuVaSpace (sb.space i)).isSome → (sb.located i).isSome := by
      intro i hi hgpu
      obtain ⟨group, hg, hcovers⟩ :=
        (disposition_isSome_iff hcfg hi (hfatal i hi) hgpu).1 (hall i hi)
      have hrun := runOf_groupBatch hg
      obtain ⟨k, hik, hk, hkey⟩ := hrun.exists_ge_of_covers hcovers
      have hfirst : group.firstFaultIndex ≤ i := hcovers.1
      rcases Nat.eq_or_lt_of_le hfirst with rfl | hlt
      · rw [show sb.located group.firstFaultIndex = some group.vaBlock from hrun.first_key]
        rfl
      · rcases Nat.eq_or_lt_of_le hik with rfl | hik
        · rw [hkey]
          rfl
        · rw [hgap group.firstFaultIndex i k group.vaBlock hlt hik hk hrun.first_key hkey]
          rfl
    refine ⟨hloc, (hpart.1 ?_).2⟩
    rw [groupBatch_groups]
    apply hspec.takeRuns_partition hclu
    intro i hi hsome
    obtain ⟨block, hblock⟩ := Option.isSome_iff_exists.1 hsome
    have hgpu := SortedBatch.gpuVaSpace_of_located hi hblock
    obtain ⟨group, hg, hcovers⟩ :=
      (disposition_isSome_iff hcfg hi (hfatal i hi) hgpu).1 (hall i hi)
    rw [← groupBatch_groups]
    exact ⟨group.toRun, List.mem_map_of_mem hg, hcovers⟩
  · rintro ⟨hloc, hroom⟩ i hi
    cases hgpu : sb.ans.gpuVaSpace (sb.space i) with
    | none =>
      have hbind : ((sb.batch.entries i).vaSpace.bind sb.ans.gpuVaSpace).isNone = true := by
        rw [sb.vaSpace i hi]
        exact Option.isNone_iff_eq_none.2 hgpu
      simp only [serviceFaultBatchParallel, parallelDisposition, hfatal i hi, hbind]
      rfl
    | some gpuVaSpace =>
      have hsome : (sb.ans.gpuVaSpace (sb.space i)).isSome := by rw [hgpu]; rfl
      obtain ⟨run, hrun, hcovers, -⟩ := (hpart.2 ⟨hgap, hroom⟩).exactlyOne i hi (hloc i hi hsome)
      obtain ⟨group, hg, rfl⟩ := List.mem_map.1 hrun
      exact (disposition_isSome_iff hcfg hi (hfatal i hi) hsome).2 ⟨group, hg, hcovers⟩

end Parallel

/-! ## Main result -/

/-- For every sorted batch, whatever the lookups answer: the serial loop comes to its end and the
parallel path disposes of the batch alike if and only if no fault is fatal already, every fault of a
VA space of the GPU is located, on at most as many blocks as there are groups, and the accesses are
permitted. -/
theorem parallel_disposes_as_serial_iff (sb : SortedBatch) (cfg : ParallelConfig)
    (hcfg : cfg.Enabled) (hok : ServicesSucceed sb.ans) (hfresh : FreshBatch sb.batch) :
    (∃ r, serviceFaultBatch sb.ans sb.size 0 { batch := sb.batch } = some r ∧
      SameBatch sb r (serviceFaultBatchParallel cfg sb.ans sb.batch)) ↔ AllLocated sb := by
  have hinit : SerialInv sb { batch := sb.batch } := ⟨.refl _, rfl⟩
  have hclean : (∀ i < sb.size, (sb.batch.entries i).isFatal = false) →
      CleanBatch sb 0 { batch := sb.batch } := fun hfatal =>
    ⟨hinit, fun _ _ => rfl, hfatal, fun hpos => absurd hpos (Nat.lt_irrefl 0)⟩
  constructor
  · rintro ⟨r, hr, hsame⟩
    obtain ⟨s', hrun, hmarks, hvisit⟩ :=
      @SerialInv.serviceFaultBatch sb 0 { batch := sb.batch } hok sb.size (by omega) hinit
    obtain rfl : (s', NvStatus.ok) = r := Option.some.inj (hrun.symm.trans hr)
    -- the parallel path flags no uTLB
    have hflag : ¬ s'.batch.Flagged := by
      rintro ⟨u, hu⟩
      have hutlbs : s'.batch.utlbHasFatalFaults = sb.batch.utlbHasFatalFaults := hsame.utlbs
      rw [hutlbs, hfresh.utlbs u] at hu
      cases hu
    have hfatal : ∀ i < sb.size, (sb.batch.entries i).isFatal = false := by
      intro i hi
      by_contra hfatal
      rw [Bool.not_eq_false] at hfatal
      cases hgpu : sb.ans.gpuVaSpace (sb.space i) with
      | none => exact hflag (hvisit i (Nat.zero_le i) hi hfatal hgpu)
      | some gpuVaSpace =>
        -- the parallel path records the VA space, the serial one only with a flag
        have hpar : (groupBatch sb.ans sb.batch).fatalVaSpace.isSome := by
          rw [groupBatch_fatalVaSpace]
          exact groupFaults_fatalVaSpace_isSome le_rfl hi hfatal (by rw [hgpu]; rfl)
        have hserial : s'.batch.fatalVaSpace = none :=
          (hmarks.changed.resolve_right fun h => hflag h.1).1.trans hfresh.fatalVaSpace
        have heq : s'.batch.fatalVaSpace = (groupBatch sb.ans sb.batch).fatalVaSpace :=
          hsame.fatalVaSpace
        rw [← heq, hserial] at hpar
        cases hpar
    obtain ⟨hloc, hroom⟩ := (disposed_iff hcfg hfatal).1 hsame.disposed
    refine ⟨hfatal, hloc, hroom, ?_⟩
    obtain ⟨s'', hrun', hend⟩ := @CleanBatch.serviceFaultBatch sb 0 _ hok hloc sb.size (by omega)
      (Nat.zero_le _) (hclean hfatal)
    obtain rfl : s'' = s' := congrArg Prod.fst (Option.some.inj (hrun'.symm.trans hrun))
    exact (hend.resolve_right fun h => hflag h.1).2
  · rintro ⟨hfatal, hloc, hroom, hpermitted⟩
    obtain ⟨s', hrun, hend⟩ := @CleanBatch.serviceFaultBatch sb 0 _ hok hloc sb.size (by omega)
      (Nat.zero_le _) (hclean hfatal)
    obtain ⟨hclean', -⟩ := hend.resolve_right fun h => h.2 hpermitted
    obtain ⟨hspace, hutlbs⟩ := hclean'.unchanged
    -- every fault of a VA space of the GPU has its range and its block
    have hfound : ∀ i < sb.size, (sb.ans.gpuVaSpace (sb.space i)).isSome →
        sb.ans.inRange i = true ∧ ∀ status, sb.ans.findCreateInRange i ≠ .error status := by
      intro i hi hgpu
      obtain ⟨block, hblock⟩ := Option.isSome_iff_exists.1 (hloc i hi hgpu)
      obtain ⟨hrange, hfind⟩ := BatchAnswers.found_of_located hblock
      refine ⟨hrange, fun status hstatus => ?_⟩
      rw [hfind] at hstatus
      cases hstatus
    refine ⟨_, hrun, fun i hi _ hgpu hrange => ?_, ?_, hutlbs, ?_,
      (disposed_iff hcfg hfatal).2 ⟨hloc, hroom⟩⟩
    · rw [(hfound i hi hgpu).1] at hrange
      cases hrange
    · show s'.batch.fatalVaSpace = (groupBatch sb.ans sb.batch).fatalVaSpace
      rw [groupBatch_fatalVaSpace, groupFaults_fatalVaSpace le_rfl hfatal]
      exact hspace
    · rintro ⟨i, hi, -, hgpu, -, status, hstatus⟩
      exact absurd hstatus ((hfound i hi hgpu).2 status)

/-- The hypotheses hold of a batch of one fault that is found and permitted. -/
theorem located_batch_disposed_alike :
    ∃ r, serviceFaultBatch locatedBatch.ans locatedBatch.size 0 { batch := locatedBatch.batch } =
        some r ∧
      SameBatch locatedBatch r (serviceFaultBatchParallel {} locatedBatch.ans locatedBatch.batch) :=
  (parallel_disposes_as_serial_iff locatedBatch {} (by decide) ⟨fun _ _ => rfl, fun _ => rfl⟩
    ⟨fun _ => rfl, rfl⟩).2
    ⟨fun _ _ => rfl, fun _ _ _ => rfl, by decide, fun _ _ _ _ _ h => absurd h (by exact nofun)⟩

/-- The address lies in no range, and there is neither ATS nor an mm for HMM. -/
def noRangeBatch : SortedBatch :=
  firstPageBatch { firstBlockAnswers with inRange := fun _ => false }
    (fun _ h => (Except.ok.inj h).symm) nofun

/-- The serial path cancels the fault; the parallel one does nothing with it, and it faults again
with the replay. -/
theorem no_range_left_alone :
    (serviceFaultBatch noRangeBatch.ans noRangeBatch.size 0 { batch := noRangeBatch.batch }).map
        (fun r => (r.1.disposition 0, (r.1.batch.entries 0).isFatal, r.1.batch.fatalVaSpace,
          r.1.batch.utlbHasFatalFaults 0, r.2)) = some (some .fatal, true, some 0, true, .ok) ∧
      (serviceFaultBatchParallel {} noRangeBatch.ans noRangeBatch.batch).disposition 0 = none ∧
      (serviceFaultBatchParallel {} noRangeBatch.ans noRangeBatch.batch).batch.fatalVaSpace = none ∧
      ¬ ∃ r, serviceFaultBatch noRangeBatch.ans noRangeBatch.size 0 { batch := noRangeBatch.batch } =
          some r ∧
        SameBatch noRangeBatch r
          (serviceFaultBatchParallel {} noRangeBatch.ans noRangeBatch.batch) := by
  refine ⟨by decide, by decide, by decide, ?_⟩
  rintro ⟨r, -, hsame⟩
  exact absurd (hsame.disposed 0 (by decide)) (by decide)

end FaultMesh
