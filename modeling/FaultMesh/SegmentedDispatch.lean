import FaultMesh.DispatchPlan

/-!
# Segments cut on the way

The branch that dispatches segment by segment closes a segment when it has enough faults and the
groups after it have enough for another one. So all segments are full, or there is only one. Whether
pushes can be begun makes no difference to the segments.
-/

namespace FaultMesh

/-! ## Accesses that do not dispatch -/

/-- The access neither begins a dispatch nor moves the pointers. -/
def Access.Still (a : Access) : Prop := ∀ pl : Placement, pl.after a = pl ∧ pl.begun a = []

theorem dispatches_of_still {as : List Access} (h : ∀ a ∈ as, a.Still) (pl : Placement) :
    dispatches pl as = [] ∧ placement pl as = pl := by
  induction as with
  | nil => exact ⟨rfl, rfl⟩
  | cons a as ih =>
    obtain ⟨hafter, hbegun⟩ := h a List.mem_cons_self pl
    obtain ⟨hnone, hstay⟩ := ih fun b hb => h b (List.mem_cons_of_mem a hb)
    constructor
    · rw [dispatches, hafter, hbegun, hnone]
      rfl
    · rw [placement, List.foldl_cons, hafter]
      exact hstay

theorem dispatches_still_append {as : List Access} (h : ∀ a ∈ as, a.Still) (pl : Placement)
    (bs : List Access) : dispatches pl (as ++ bs) = dispatches pl bs := by
  obtain ⟨hnone, hstay⟩ := dispatches_of_still h pl
  rw [dispatches_append, hnone, hstay, List.nil_append]

theorem still_of_isPush {as : List Access} (h : ∀ a ∈ as, a.isPush = true) : ∀ a ∈ as, a.Still := by
  intro a ha pl
  have hpush := h a ha
  cases a with
  | pushBegin | pushEnd | pushEndUnlessClosed | resetCopyDone => exact ⟨rfl, rfl⟩
  | _ => cases hpush

theorem still_dispatchWaitInner (items : Nat) (status : DispatchStatus) :
    ∀ a ∈ dispatchWaitInner items status, a.Still := by
  intro a ha pl
  cases status
  all_goals
    simp only [dispatchWaitInner, List.mem_cons, List.not_mem_nil, or_false] at ha
    rcases ha with rfl | rfl <;> exact ⟨rfl, rfl⟩

theorem dispatches_startInner_append (cfg : PoolConfig) (items : Nat) (pl : Placement)
    (bs : List Access) :
    dispatches pl (dispatchStartInner cfg items ++ bs) = ⟨pl, items⟩ :: dispatches pl bs := rfl

theorem dispatches_andWaitInner (cfg : PoolConfig) (items : Nat) (status : DispatchStatus)
    (pl : Placement) : dispatches pl (dispatchAndWaitInner cfg items status) = [⟨pl, items⟩] := by
  rw [dispatchAndWaitInner, dispatches_startInner_append,
    (dispatches_of_still (still_dispatchWaitInner items status) pl).1]

/-! ## The loop -/

section Loop

variable (cfg : SegmentConfig) (ps : ModeParams) (ans : Answers)

/-- A segment is one dispatch of its groups, into their own queue entries. -/
theorem dispatches_segmentBody (st : SegState) (segCount : Nat) (atEnd : Bool) (pl : Placement) :
    dispatches pl (segmentBody cfg ps ans st segCount atEnd).1 =
      [⟨⟨st.segStart, st.segStart⟩, segCount⟩] := by
  have hplace : ∀ as, dispatches pl ([.writeGroups st.segStart, .writeQueueBase st.segStart] ++ as) =
      dispatches ⟨st.segStart, st.segStart⟩ as := fun _ => rfl
  have hpair := still_of_isPush (isPush_segmentPair ans st)
  have hnext := still_of_isPush (isPush_segmentNext ps ans st atEnd)
  have hwait := still_dispatchWaitInner segCount (ans.status st.segment)
  unfold segmentBody
  dsimp only
  split
  -- what is begun ahead and what is ended dispatches nothing
  · have hfail : ∀ a ∈ (if ans.status st.segment ≠ .ok ∧ (segmentNext ps ans st atEnd).2 = true then
        endPair (1 - st.curSlot) else []), a.Still := by
      split
      · exact still_of_isPush (isPush_endPair _)
      · exact fun a ha => absurd ha List.not_mem_nil
    simp only [List.append_assoc]
    rw [hplace, dispatches_still_append hpair]
    show dispatches _ (dispatchStartInner cfg.toPoolConfig segCount ++ _) = _
    rw [dispatches_startInner_append, dispatches_still_append hnext, dispatches_still_append hwait]
    show _ :: dispatches _ (if ans.status st.segment ≠ .ok ∧ _ then _ else _) = _
    rw [(dispatches_of_still hfail _).1]
    rfl
  · rw [List.append_assoc, hplace, dispatches_still_append hpair]
    exact dispatches_andWaitInner _ _ _ _

theorem faultsSoFar_segmentBody (st : SegState) (segCount : Nat) (atEnd : Bool) :
    (segmentBody cfg ps ans st segCount atEnd).2.faultsSoFar = st.faultsSoFar := by
  unfold segmentBody
  dsimp only
  split <;> rfl

/-- If no dispatch fails, the loop dispatches the chunks of the batch one after the
other. -/
theorem dispatches_segmentedLoop (hok : ∀ k, ans.status k = .ok) (threshold total : Nat)
    (rest cur : List Nat) (st : SegState) (pl : Placement)
    (hrunning : st.runningFaults = cur.sum) (htotal : total = st.faultsSoFar + rest.sum) :
    dispatches pl (segmentedLoop cfg ps ans total threshold (st.segStart + cur.length) rest st) =
      (spans st.segStart (balancedChunks id threshold rest cur)).map
        fun seg => ⟨⟨seg.1, seg.1⟩, seg.2⟩ := by
  induction rest generalizing cur st pl with
  | nil => rfl
  | cons numFaults rest ih =>
    have hsum : st.runningFaults + numFaults = (cur ++ [numFaults]).sum := by simp [hrunning]
    have hremaining : total - (st.faultsSoFar + numFaults) = rest.sum := by
      rw [htotal, List.sum_cons]
      omega
    have hlen : st.segStart + cur.length + 1 = st.segStart + (cur ++ [numFaults]).length := by
      simp [Nat.add_assoc]
    have hcount : st.segStart + cur.length - st.segStart + 1 = (cur ++ [numFaults]).length := by
      simp
    simp only [segmentedLoop, balancedChunks, chunkWeight_id, hsum, hremaining, hok, if_true]
    split
    · rw [hlen]
      apply ih (cur ++ [numFaults]) { st with
        runningFaults := (cur ++ [numFaults]).sum, faultsSoFar := st.faultsSoFar + numFaults } pl rfl
      rw [htotal, List.sum_cons, Nat.add_assoc]
    -- the segment is closed
    · rw [dispatches_append, dispatches_segmentBody, hcount, spans, List.map_cons, hlen]
      apply congrArg
      apply ih [] { (segmentBody cfg ps ans _ _ _).2 with
        segStart := st.segStart + (cur ++ [numFaults]).length, runningFaults := 0,
        segment := st.segment + 1 } _ rfl
      rw [faultsSoFar_segmentBody, htotal, List.sum_cons, Nat.add_assoc]

end Loop

/-! ## Main result -/

/-- The segments that a plan dispatches, by start and length. -/
def dispatchedSegments (plan : List Access) : List (Nat × Nat) :=
  (dispatches {} plan).map fun d => (d.groups, d.count)

/-- What the segments of a batch have to fulfil. -/
structure BalancedSegments (cfg : SegmentConfig) (faults : List Nat) (segs : List (Nat × Nat)) :
    Prop where
  tiles : Tiles 0 segs faults.length
  pos : ∀ seg ∈ segs, 0 < seg.2
  full : cfg.segFaultThreshold faults ≤ faults.sum →
    ∀ seg ∈ segs, cfg.segFaultThreshold faults ≤ (blocksAt faults seg).sum
  single : faults.sum < cfg.segFaultThreshold faults → segs.length = 1
  target : cfg.dynamicSegment = true → 0 < cfg.dynamicTargetSegments →
    segs.length ≤ cfg.dynamicTargetSegments

theorem dispatchedSegments_segmented (cfg : SegmentConfig) {ps : ModeParams} {ans : Answers}
    {faults : List Nat} (hne : faults ≠ []) (hbranch : ps.branch = .segmented)
    (hok : ∀ k, ans.status k = .ok) :
    dispatchedSegments (dispatchPlan cfg ps ans faults) =
      spans 0 (balancedChunks id (cfg.segFaultThreshold faults) faults []) := by
  have hloop := dispatches_segmentedLoop cfg ps ans hok (cfg.segFaultThreshold faults) faults.sum
    faults [] { continuous := ps.continuousWorkers } {} rfl (Nat.zero_add _).symm
  have hplan : dispatchPlan cfg ps ans faults = segmentedPlan cfg ps ans faults ++ [.restoreGroups] := by
    simp [dispatchPlan, hne, hbranch]
  rw [dispatchedSegments, hplan, dispatches_append]
  have hsegmented : dispatches {} (segmentedPlan cfg ps ans faults) =
      (spans 0 (balancedChunks id (cfg.segFaultThreshold faults) faults [])).map
        fun seg => ⟨⟨seg.1, seg.1⟩, seg.2⟩ := hloop
  rw [hsegmented]
  simp [dispatches, Placement.begun, Function.comp_def]

theorem length_mul_le_sum {threshold : Nat} {chunks : List (List Nat)}
    (hfull : ∀ chunk ∈ chunks, threshold ≤ chunkWeight id chunk) :
    chunks.length * threshold ≤ chunks.flatten.sum := by
  induction chunks with
  | nil => simp
  | cons chunk chunks ih =>
    have hhere := hfull chunk List.mem_cons_self
    have hrest := ih fun c hc => hfull c (List.mem_cons_of_mem chunk hc)
    rw [chunkWeight_id] at hhere
    rw [List.length_cons, List.flatten_cons, List.sum_append, Nat.succ_mul]
    omega

theorem sum_le_target_mul (cfg : SegmentConfig) {faults : List Nat} (hne : faults ≠ [])
    (hdyn : cfg.dynamicSegment = true) (htarget : 0 < cfg.dynamicTargetSegments)
    (htotal : faults.sum ≠ 0) :
    faults.sum ≤ cfg.dynamicTargetSegments * cfg.segFaultThreshold faults := by
  have hlen : 0 < faults.length := List.length_pos_iff.2 hne
  obtain ⟨t, ht⟩ : ∃ t, t = min (max 1 cfg.dynamicTargetSegments) faults.length := ⟨_, rfl⟩
  have hpos : 0 < t := by omega
  have hle : t ≤ cfg.dynamicTargetSegments := by omega
  -- the total divided by the target, rounded up
  have hceil : (faults.sum + t - 1) / t ≤ cfg.segFaultThreshold faults := by
    simp only [SegmentConfig.segFaultThreshold, GroupSegConfig.mergeEffectiveSegmentThreshold, hdyn,
      htotal, Nat.ne_of_gt hlen, htarget, Bool.not_true, decide_false, Bool.or_self, if_true,
      Bool.false_eq_true, if_false, ← ht]
    exact Nat.le_max_right _ _
  calc faults.sum ≤ t * ((faults.sum + t - 1) / t) := by
        have hdiv := Nat.div_add_mod (faults.sum + t - 1) t
        have hmod := Nat.mod_lt (faults.sum + t - 1) hpos
        omega
    _ ≤ cfg.dynamicTargetSegments * cfg.segFaultThreshold faults := Nat.mul_le_mul hle hceil

/-- For every batch, all settings, and every pattern of pushes that cannot be begun: if no inner
dispatch fails, the segments cover the batch one after the other, each of them full unless the
whole batch is too small, and there are no more of them than the target allows. -/
theorem segmented_dispatch_balanced (cfg : SegmentConfig) (ps : ModeParams) (ans : Answers)
    (faults : List Nat) (hne : faults ≠ []) (hbranch : ps.branch = .segmented)
    (hok : ∀ k, ans.status k = .ok) :
    BalancedSegments cfg faults (dispatchedSegments (dispatchPlan cfg ps ans faults)) := by
  rw [dispatchedSegments_segmented cfg hne hbranch hok]
  obtain ⟨chunks, hchunks⟩ : ∃ chunks,
      chunks = balancedChunks id (cfg.segFaultThreshold faults) faults [] := ⟨_, rfl⟩
  have hflat : chunks.flatten = faults := by
    rw [hchunks]
    exact flatten_balancedChunks hne []
  have hspec := @balancedChunks_spec Nat id (cfg.segFaultThreshold faults) faults hne []
  rw [← hchunks, List.nil_append, chunkWeight_id] at hspec
  rw [← hchunks]
  refine ⟨?_, ?_, ?_, ?_, ?_⟩
  · have htiles := tiles_spans 0 chunks
    rwa [Nat.zero_add, hflat] at htiles
  · intro seg hseg
    apply pos_of_mem_spans ?_ hseg
    intro chunk hchunk
    rw [hchunks] at hchunk
    exact ne_nil_of_mem_balancedChunks hchunk
  · intro hfull seg hseg
    rw [if_pos hfull] at hspec
    rw [← chunkWeight_id]
    apply hspec
    rw [← map_blocksAt hflat]
    exact List.mem_map_of_mem hseg
  · intro hfew
    rw [if_neg (Nat.not_le.2 hfew)] at hspec
    rw [hspec]
    rfl
  · intro hdyn htarget
    rw [length_spans]
    by_cases hfull : cfg.segFaultThreshold faults ≤ faults.sum
    · rw [if_pos hfull] at hspec
      have hmul := length_mul_le_sum hspec
      rw [hflat] at hmul
      by_cases htotal : faults.sum = 0
      -- without faults the threshold is that of a fixed size
      · have hthreshold : 0 < cfg.segFaultThreshold faults := by
          unfold SegmentConfig.segFaultThreshold GroupSegConfig.mergeEffectiveSegmentThreshold
          simp only [htotal, decide_true, Bool.or_true, Bool.true_or, if_true]
          unfold uvmKthreadSegmentSize
          split <;> omega
        omega
      · have htargets := sum_le_target_mul cfg hne hdyn htarget htotal
        have hpos : 0 < cfg.segFaultThreshold faults := by
          rcases Nat.eq_zero_or_pos (cfg.segFaultThreshold faults) with hzero | hpos
          · rw [hzero, Nat.mul_zero] at htargets
            omega
          · exact hpos
        exact Nat.le_of_mul_le_mul_right (Nat.le_trans hmul htargets) hpos
    · rw [if_neg hfull] at hspec
      rw [hspec]
      exact htarget

/-- Segments of four faults. -/
def fourFaults : SegmentConfig := { uvmKthreadPoolCreate 3 0 with segmentSize := 4 }

/-- Three segments, the second without pushes; the last group is too small for a segment. -/
theorem three_segments_balanced :
    dispatchedSegments (dispatchPlan fourFaults { mergeDispatch := true }
        { pushOk := fun _ k => k ≠ 1 } [3, 1, 2, 40, 5, 1]) = [(0, 2), (2, 2), (4, 2)] ∧
      BalancedSegments fourFaults [3, 1, 2, 40, 5, 1]
        (dispatchedSegments (dispatchPlan fourFaults { mergeDispatch := true }
          { pushOk := fun _ k => k ≠ 1 } [3, 1, 2, 40, 5, 1])) :=
  ⟨by decide, segmented_dispatch_balanced fourFaults _ _ _ (by decide) (by decide) fun _ => rfl⟩

end FaultMesh
