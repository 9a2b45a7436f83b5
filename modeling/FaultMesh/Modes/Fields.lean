import FaultMesh.DispatchPlan

/-!
# The fields of the pool in all modes

Coordinators write the fields that tell workers what to do, and workers only read them. A worker
that took a number combines the flags of the pool with module parameters to find out how items are
shared: by an atomic cursor, by the tables of the group-segment mode, one segment for each number,
or by strides.

What the fields hold when a dispatch begins can be read off a plan, access by access: `EachStart`
collects it. Here it is worked out that every branch sets its dispatches up in a way that the items
are shared among the workers.
-/

namespace FaultMesh.Modes

/-! ## Fields -/

/-- The fields that tell a worker how the items are shared. -/
structure Layout where
  batchNumGroups : Nat := 0
  batchNumActive : Nat := 0
  queueBase : Nat := 0
  dynamicActive : Bool := false
  segParallelActive : Bool := false
  /-- `seg_start` and `seg_count`. -/
  segs : List (Nat × Nat) := []
  workersPerSeg : List Nat := []
  deriving DecidableEq

/-- All fields that coordinators write and workers read. -/
structure Fields extends Layout where
  /-- A pointer into the array of groups of a batch. -/
  batchGroups : BatchTag × Nat := (⟨0, 0⟩, 0)
  /-- `merge_dispatch_active` and `merge_state.state == 2`. -/
  mergeOn : Bool := false
  /-- `merge_state.active`. -/
  mergeActive : Nat := 0
  blockSegId : List Nat := []
  -- Records for the proofs, which nothing reads: what was reset since the last dispatch began, up to
  -- where the groups of the batch have been dispatched, and how many items the last wait was for,
  -- while their entries stand.
  cursorReset : Bool := false
  counterReset : Bool := false
  remainingSet : Option Nat := none
  dispatchedTo : Nat := 0
  awaited : Option Nat := none
  deriving DecidableEq

/-- What an access of a coordinator does to them; `allGroups` is its local variable of that name. -/
def Fields.after (allGroups : BatchTag × Nat) (f : Fields) : Access → Fields
  | .clearDynamic => { f with dynamicActive := false }
  | .writeBlockSegs blockSegId => { f with blockSegId := blockSegId }
  | .clearSegParallel => { f with segParallelActive := false }
  | .writeSegs segs => { f with segs := segs }
  | .writeWorkers workersPerSeg => { f with workersPerSeg := workersPerSeg }
  | .resetCursor => { f with cursorReset := true }
  | .writeGroups start =>
    { f with batchGroups := (allGroups.1, allGroups.2 + start), awaited := none }
  | .writeQueueBase start => { f with queueBase := start, awaited := none }
  | .writeMergeActive slot => { f with mergeActive := slot }
  | .setDynamic => { f with dynamicActive := true }
  | .setSegParallel => { f with segParallelActive := true }
  | .setMerge => { f with mergeOn := true }
  | .clearMerge => { f with mergeOn := false }
  | .writeNumActive numActive => { f with batchNumActive := numActive, counterReset := false }
  | .writeNumGroups numGroups => { f with batchNumGroups := numGroups, awaited := none }
  | .resetCounter => { f with counterReset := decide (0 < f.batchNumActive) }
  | .setRemaining items => { f with remainingSet := some items, awaited := none }
  | .reinitDone =>
    { f with cursorReset := false, counterReset := false, remainingSet := none, awaited := none }
  | .wait =>
    { f with
      dispatchedTo := f.batchGroups.2 + f.batchNumGroups
      awaited := some f.batchNumGroups }
  | .expire => { f with dispatchedTo := f.batchGroups.2 + f.batchNumGroups }
  | .unsetDynamic => { f with dynamicActive := false }
  | .unsetSegParallel => { f with segParallelActive := false }
  | .unsetMerge => { f with mergeOn := false }
  | .restoreGroups => { f with batchGroups := allGroups, awaited := none }
  | .pushBegin .. | .pushEnd .. | .pushEndUnlessClosed _ | .resetCopyDone .. | .collect _ => f

/-- The lanes of the group-segment mode, by the number of the worker. -/
def groupLanes (segs : List (Nat × Nat)) (workersPerSeg : List Nat) : List Lane :=
  (workerTable 0 workersPerSeg).map (segmentLane (segs.zip workersPerSeg))

inductive Scheme where
  /-- The atomic cursor gives them out. -/
  | cursor
  /-- The tables of the group-segment mode. -/
  | tables
  /-- One segment for each number. -/
  | segments
  | strides
  deriving DecidableEq, Repr

def Layout.scheme (ps : ModeParams) (v : Layout) : Scheme :=
  if v.dynamicActive && ps.dynamicDispatch then .cursor
  else if v.segParallelActive && ps.groupSegParallel then .tables
  else if v.segParallelActive then .segments
  else .strides

/-- The lanes of a scheme, by the number of the worker; the cursor has none. -/
def Layout.lanesOf (v : Layout) : Scheme → Option (List Lane)
  | .cursor => none
  | .tables => some (groupLanes v.segs v.workersPerSeg)
  | .segments => some (v.segs.map fun seg => ⟨seg.1, seg.1 + seg.2, 1⟩)
  | .strides => some (strideLanes 0 v.batchNumGroups v.batchNumActive)

def Layout.lanes (ps : ModeParams) (v : Layout) : Option (List Lane) := v.lanesOf (v.scheme ps)

/-- No mode is switched on, as between two batches. -/
structure Fields.Plain (f : Fields) : Prop where
  dynamic : f.dynamicActive = false
  segParallel : f.segParallelActive = false

/-- What has to hold when workers are let loose. -/
structure Fields.Startable (ps : ModeParams) (f : Fields) : Prop where
  groups_pos : 0 < f.batchNumGroups
  active_pos : 0 < f.batchNumActive
  counter : f.counterReset = true
  remaining : f.remainingSet = some f.batchNumGroups
  cursor : f.lanes ps = none → f.cursorReset = true
  shares : ∀ lanes, f.lanes ps = some lanes → Shares lanes f.batchNumGroups
  dispatched : f.dispatchedTo ≤ f.batchGroups.2

/-! ## Along a plan -/

section Plans

variable (allGroups : BatchTag × Nat)

def letsLoose : Access → Bool
  | .reinitDone => true
  | _ => false

/-- The access lets the workers loose, or collects what they have done. -/
def ofDispatch : Access → Bool
  | .reinitDone | .collect _ => true
  | _ => false

/-- `P` holds of the fields and of the accesses to come when a dispatch begins, and `E` at the end;
and what is collected was waited for. -/
def EachStart (P : Fields → List Access → Prop) (E : Fields → Prop) : Fields → List Access → Prop
  | f, [] => E f
  | f, a :: as =>
    (letsLoose a = true → P f as) ∧ (∀ items, a = .collect items → f.awaited = some items) ∧
      EachStart P E (f.after allGroups a) as

/-- Up to the return of its wait a coordinator only begins the pushes of the next segment, or ends
one of them again. -/
def AwaitsReturn (f : Fields) : List Access → Prop
  | .pushBegin .. :: as => f.dynamicActive = false ∧ AwaitsReturn f as
  | .pushEnd _ slot :: as =>
    (f.dynamicActive = false ∧ f.segParallelActive = false ∧ slot ≠ f.mergeActive) ∧
      AwaitsReturn f as
  | .wait :: _ | .expire :: _ => True
  | _ => False

variable {allGroups} {P : Fields → List Access → Prop} {E : Fields → Prop} {f : Fields}
  {as bs : List Access}

theorem after_of_isPush {a : Access} (h : a.isPush = true) : f.after allGroups a = f := by
  cases a with
  | pushBegin | pushEnd | pushEndUnlessClosed | resetCopyDone => rfl
  | _ => cases h

theorem EachStart.push_append (h : ∀ a ∈ as, a.isPush = true)
    (hrest : EachStart allGroups P E f bs) : EachStart allGroups P E f (as ++ bs) := by
  induction as with
  | nil => exact hrest
  | cons a as ih =>
    have hpush := h a List.mem_cons_self
    refine ⟨?_, ?_, ?_⟩
    · cases a with
      | reinitDone => cases hpush
      | _ => exact nofun
    · rintro items rfl
      cases hpush
    · rw [after_of_isPush hpush]
      exact ih fun b hb => h b (List.mem_cons_of_mem a hb)

theorem EachStart.prepare_append (h : ∀ a ∈ as, ofDispatch a = false)
    (hrest : EachStart allGroups P E (as.foldl (Fields.after allGroups) f) bs) :
    EachStart allGroups P E f (as ++ bs) := by
  induction as generalizing f with
  | nil => exact hrest
  | cons a as ih =>
    have ha := h a List.mem_cons_self
    refine ⟨fun hloose => ?_, ?_, ih (fun b hb => h b (List.mem_cons_of_mem a hb)) hrest⟩
    · cases a with
      | reinitDone => cases ha
      | _ => cases hloose
    · rintro items rfl
      cases ha

theorem EachStart.imp {P' : Fields → List Access → Prop} {E' : Fields → Prop}
    (hP : ∀ g rest, P g rest → P' g rest) (hE : ∀ g, E g → E' g)
    (h : EachStart allGroups P E f as) : EachStart allGroups P' E' f as := by
  induction as generalizing f with
  | nil => exact hE f h
  | cons a as ih => exact ⟨fun hloose => hP _ _ (h.1 hloose), h.2.1, ih h.2.2⟩

/-! ## Set-up of the branches -/

theorem shares_groupLanes (cfg : GroupSegConfig) (faults : List Nat) :
    Shares (groupLanes (cfg.segments faults) (cfg.workersPerSeg faults)) faults.length := by
  obtain ⟨htiles, hpos⟩ := tiles_segments cfg faults
  have hmap := map_workerTable [] (cfg.parts faults)
  rw [map_snd_parts, List.length_nil, List.nil_append] at hmap
  have hlanes : groupLanes (cfg.segments faults) (cfg.workersPerSeg faults) =
      splitLanes (cfg.parts faults) := hmap
  rw [hlanes]
  apply shares_splitLanes
  · rwa [map_fst_parts]
  · intro part hpart
    exact allocateWorkers_pos hpos part.2 (List.of_mem_zip hpart).2

section Inner

variable {ps : ModeParams} (cfg : SegmentConfig) {items : Nat}

theorem numActive_pos (hitems : 0 < items) : 0 < cfg.numActive items := by
  have hworkers := cfg.numWorkers_pos
  unfold PoolConfig.numActive PoolConfig.maxActive
  split <;> omega

/-- The fields when `dispatch_start_inner` lets the workers loose. -/
def Fields.setUp (f : Fields) (numActive items : Nat) : Fields :=
  { f with
    batchNumActive := numActive
    batchNumGroups := items
    counterReset := decide (0 < numActive)
    remainingSet := some items
    awaited := none }

theorem awaitsReturn_waitInner (items : Nat) (status : DispatchStatus) (bs : List Access) :
    AwaitsReturn f (dispatchWaitInner items status ++ bs) := by
  cases status <;> trivial

theorem EachStart.waitInner_append {items : Nat} (status : DispatchStatus)
    (hitems : f.batchNumGroups = items)
    (hrest : ∀ awaited, EachStart allGroups P E
      { f with dispatchedTo := f.batchGroups.2 + f.batchNumGroups, awaited := awaited } bs) :
    EachStart allGroups P E f (dispatchWaitInner items status ++ bs) := by
  cases status with
  | timeout => exact ⟨nofun, nofun, hrest _⟩
  | ok | error =>
    refine ⟨nofun, nofun, nofun, ?_, hrest _⟩
    rintro n ⟨⟩
    exact congrArg some hitems

theorem EachStart.startInner_append (hP : P (f.setUp (cfg.numActive items) items) bs)
    (hrest : EachStart allGroups P E
      { f with
        batchNumActive := cfg.numActive items
        batchNumGroups := items
        cursorReset := false
        counterReset := false
        remainingSet := none
        awaited := none } bs) :
    EachStart allGroups P E f (dispatchStartInner cfg.toPoolConfig items ++ bs) :=
  ⟨nofun, nofun, nofun, nofun, nofun, nofun, nofun, nofun, fun _ => hP, nofun, hrest⟩

end Inner

end Plans

open EachStart

/-- How the dispatches of a batch of `numGroups` groups are set up. If `fallsBack` allows it, a
dispatch may use the queue from `queueBase` on, and not from the entry of its first group. -/
structure SetUpRight (ps : ModeParams) (tag : BatchTag) (numGroups queueBase : Nat)
    (fallsBack : Prop) (g : Fields) (rest : List Access) : Prop where
  startable : g.Startable ps
  awaits : AwaitsReturn g rest
  batch : g.batchGroups.1 = tag
  bound : g.batchGroups.2 + g.batchNumGroups ≤ numGroups
  slots : g.queueBase = g.batchGroups.2 ∨
    (fallsBack ∧ g.batchGroups.2 = 0 ∧ g.queueBase = queueBase)

/-- A `uvm_push_begin` of the batch fails in a mode that opens all pushes beforehand; then
`queue_base` is not written. -/
def fallsBack (cfg : SegmentConfig) (ps : ModeParams) (ans : Answers) (faults : List Nat) : Bool :=
  match ps.branch with
  | .dynamic =>
    !(beginPairs ans.pushOk 0
      (cfg.dynamicSegments (cfg.segFaultThreshold faults) faults).numSegments).2
  | .groupSeg | .segParallel => !(beginPairs ans.pushOk 0 (cfg.segments faults).length).2
  | _ => false

theorem dynamicDispatch_of_branch {ps : ModeParams} (h : ps.branch = .dynamic) :
    ps.dynamicDispatch = true := by
  unfold ModeParams.branch at h
  split_ifs at h with hdynamic
  exact (Bool.and_eq_true_iff.1 hdynamic).2

theorem groupSegParallel_of_branch {ps : ModeParams} (h : ps.branch = .groupSeg) :
    ps.groupSegParallel = true := by
  unfold ModeParams.branch at h
  split_ifs at h with hdynamic hgroup
  exact (Bool.and_eq_true_iff.1 hgroup).2

theorem not_groupSegParallel_of_branch {ps : ModeParams} (h : ps.branch = .segParallel) :
    ps.groupSegParallel = false := by
  unfold ModeParams.branch at h
  split_ifs at h with hdynamic hgroup hsegment
  -- the merge parameter is on, so the other one is off
  rw [(Bool.and_eq_true_iff.1 hsegment).1, Bool.true_and] at hgroup
  exact Bool.eq_false_iff.2 hgroup

/-- When a call begins: no mode is on, and the pool points to the groups of the batch. -/
structure Fields.Called (f : Fields) (tag : BatchTag) : Prop extends f.Plain where
  groups : f.batchGroups = (tag, 0)
  dispatchedTo : f.dispatchedTo = 0

section Branches

variable {cfg : SegmentConfig} {ps : ModeParams} {ans : Answers} {tag : BatchTag}
  {faults : List Nat} {q : Nat} {b : Prop} {f : Fields} {items : Nat}

theorem startable_of_lanes (hitems : 0 < items) (hdispatched : f.dispatchedTo ≤ f.batchGroups.2)
    {lanes : List Lane} (hshares : Shares lanes items)
    (hlanes : (f.setUp (cfg.numActive items) items).lanes ps = some lanes) :
    (f.setUp (cfg.numActive items) items).Startable ps := by
  refine ⟨hitems, numActive_pos cfg hitems, decide_eq_true (numActive_pos cfg hitems), rfl, ?_, ?_,
    hdispatched⟩
  · intro hnone
    rw [hlanes] at hnone
    cases hnone
  · intro lanes' hsome
    rw [hlanes] at hsome
    cases hsome
    exact hshares

theorem startable_plain (hplain : f.Plain) (hitems : 0 < items)
    (hdispatched : f.dispatchedTo ≤ f.batchGroups.2) :
    (f.setUp (cfg.numActive items) items).Startable ps := by
  apply startable_of_lanes hitems hdispatched (shares_strideLanes (numActive_pos cfg hitems))
  simp [Layout.lanes, Layout.scheme, Layout.lanesOf, Fields.setUp, hplain.dynamic,
    hplain.segParallel]

theorem eachStart_inner (as bs : List Access) (status : DispatchStatus)
    (hstart : (f.setUp (cfg.numActive items) items).Startable ps)
    (hgroups : f.batchGroups = (tag, 0)) (hslots : f.queueBase = 0 ∨ b ∧ f.queueBase = q)
    (has : ∀ a ∈ as, a.isPush = true)
    (hbs : ∀ g : Fields, g.dynamicActive = f.dynamicActive →
      g.segParallelActive = f.segParallelActive →
        EachStart (tag, 0) (SetUpRight ps tag items q b) Fields.Plain g bs) :
    EachStart (tag, 0) (SetUpRight ps tag items q b) Fields.Plain f
      (dispatchAndWaitInner cfg.toPoolConfig items status ++ (as ++ bs)) := by
  have hfirst : f.batchGroups.2 = 0 := by rw [hgroups]
  rw [dispatchAndWaitInner, List.append_assoc]
  apply startInner_append
  · refine ⟨hstart, awaitsReturn_waitInner _ _ _, congrArg Prod.fst hgroups, ?_, ?_⟩
    · show f.batchGroups.2 + items ≤ items
      omega
    · rcases hslots with hzero | ⟨hfalls, hq⟩
      · exact .inl (hzero.trans hfirst.symm)
      · exact .inr ⟨hfalls, hfirst, hq⟩
  · apply waitInner_append status rfl
    exact fun _ => push_append has (hbs _ rfl rfl)

theorem eachStart_regular (as bs : List Access) (status : DispatchStatus) (hitems : 0 < items)
    (hplain : f.Plain) (hgroups : f.batchGroups = (tag, 0)) (hdispatched : f.dispatchedTo = 0)
    (hslots : f.queueBase = 0 ∨ b ∧ f.queueBase = q) (has : ∀ a ∈ as, a.isPush = true)
    (hbs : ∀ g : Fields, g.Plain →
      EachStart (tag, 0) (SetUpRight ps tag items q b) Fields.Plain g bs) :
    EachStart (tag, 0) (SetUpRight ps tag items q b) Fields.Plain f
      (dispatchAndWaitInner cfg.toPoolConfig items status ++ (as ++ bs)) := by
  apply eachStart_inner as bs status (startable_plain hplain hitems (by omega)) hgroups hslots has
  intro g hdynamic hsegParallel
  exact hbs g ⟨hdynamic.trans hplain.dynamic, hsegParallel.trans hplain.segParallel⟩

theorem eachStart_restoreGroups {g : Fields} (hplain : g.Plain) :
    EachStart (tag, 0) (SetUpRight ps tag items q b) Fields.Plain g [.restoreGroups] :=
  ⟨nofun, nofun, hplain.dynamic, hplain.segParallel⟩

variable (hf : f.Called tag) (hne : faults ≠ [])
include hf hne

theorem eachStart_fallback (hslots : f.queueBase = 0 ∨ b ∧ f.queueBase = q) {a : Access}
    (ha : ofDispatch a = false) {g : Fields} (hg : g.after (tag, 0) a = f) :
    EachStart (tag, 0) (SetUpRight ps tag faults.length q b) Fields.Plain g
      (a :: dispatchAndWaitInner cfg.toPoolConfig faults.length (ans.status 0) ++
        [.restoreGroups]) := by
  have hone : ∀ x ∈ [a], ofDispatch x = false := by simpa using ha
  apply prepare_append hone
  rw [List.foldl_cons, List.foldl_nil, hg]
  apply eachStart_regular [] [.restoreGroups] _ (List.length_pos_iff.2 hne)
  · exact ⟨hf.dynamic, hf.segParallel⟩
  · exact hf.groups
  · exact hf.dispatchedTo
  · exact hslots
  · exact nofun
  · exact fun _ => eachStart_restoreGroups

theorem eachStart_offPlan :
    EachStart (tag, 0) (SetUpRight ps tag faults.length q b) Fields.Plain f
      (offPlan cfg ans faults ++ [.restoreGroups]) := by
  rw [offPlan, List.append_assoc]
  apply prepare_append (by simp [ofDispatch])
  apply eachStart_regular [] [.restoreGroups] _ (List.length_pos_iff.2 hne)
  · exact ⟨hf.dynamic, hf.segParallel⟩
  · rfl
  · exact hf.dispatchedTo
  · exact .inl rfl
  · exact nofun
  · exact fun _ => eachStart_restoreGroups

theorem eachStart_wholePlan :
    EachStart (tag, 0) (SetUpRight ps tag faults.length q b) Fields.Plain f
      (wholePlan cfg ans faults ++ [.restoreGroups]) := by
  simp only [wholePlan, List.append_assoc]
  apply prepare_append (by simp [ofDispatch])
  apply push_append (isPush_beginPair _ _ _)
  split
  · simp only [List.append_assoc]
    apply prepare_append (by simp [ofDispatch])
    apply eachStart_regular (endPair 0) _ _ (List.length_pos_iff.2 hne)
    · exact ⟨hf.dynamic, hf.segParallel⟩
    · rfl
    · exact hf.dispatchedTo
    · exact .inl rfl
    · exact isPush_endPair 0
    · exact fun g hg => ⟨nofun, nofun, eachStart_restoreGroups ⟨hg.dynamic, hg.segParallel⟩⟩
  · apply eachStart_fallback
      (f := { f with batchGroups := (tag, 0), queueBase := 0, mergeOn := false, awaited := none })
      ⟨⟨hf.dynamic, hf.segParallel⟩, rfl, hf.dispatchedTo⟩ hne (.inl rfl) rfl rfl

theorem eachStart_dynamicPlan (hbranch : ps.branch = .dynamic) :
    EachStart (tag, 0)
      (SetUpRight ps tag faults.length f.queueBase (fallsBack cfg ps ans faults = true)) Fields.Plain f
      (dynamicPlan cfg ps ans faults ++ [.restoreGroups]) := by
  have hparam := dynamicDispatch_of_branch hbranch
  simp only [dynamicPlan, List.append_assoc]
  generalize hsegs : cfg.dynamicSegments (cfg.segFaultThreshold faults) faults = segs
  apply prepare_append (by simp [ofDispatch])
  apply push_append (isPush_beginPairs _ _ _)
  split
  · simp only [List.append_assoc]
    apply push_append (isPush_resetCopyDones _ _ _)
    apply prepare_append (by simp [ofDispatch])
    apply eachStart_inner (closePairs _ _)
    -- the cursor gives the items out
    · have hactive := numActive_pos cfg (List.length_pos_iff.2 hne)
      refine ⟨List.length_pos_iff.2 hne, hactive, decide_eq_true hactive, rfl, fun _ => rfl, ?_,
        Nat.le_of_eq hf.dispatchedTo⟩
      intro lanes hlanes
      simp [Layout.lanes, Layout.scheme, Layout.lanesOf, Fields.setUp, Fields.after, hparam] at hlanes
    · rfl
    · exact .inl rfl
    · exact isPush_closePairs _ _
    · intro g _ hsegParallel
      exact ⟨nofun, nofun, nofun, nofun,
        eachStart_restoreGroups ⟨rfl, hsegParallel.trans hf.segParallel⟩⟩
  · rename_i hpairs
    have hfalls : fallsBack cfg ps ans faults = true := by simp [fallsBack, hbranch, hsegs, hpairs]
    apply eachStart_fallback (f := { f with dynamicActive := false, blockSegId := segs.blockSegId })
      ⟨⟨rfl, hf.segParallel⟩, hf.groups, hf.dispatchedTo⟩ hne (.inr ⟨hfalls, rfl⟩) rfl rfl

theorem eachStart_groupSegPlan (hbranch : ps.branch = .groupSeg) :
    EachStart (tag, 0)
      (SetUpRight ps tag faults.length f.queueBase (fallsBack cfg ps ans faults = true)) Fields.Plain f
      (groupSegPlan cfg ps ans faults ++ [.restoreGroups]) := by
  have hparam := groupSegParallel_of_branch hbranch
  simp only [groupSegPlan, List.append_assoc]
  apply prepare_append (by simp [ofDispatch])
  apply push_append (isPush_beginPairs _ _ _)
  split
  · simp only [List.append_assoc]
    apply push_append (isPush_resetCopyDones _ _ _)
    apply prepare_append (by simp [ofDispatch])
    apply eachStart_inner (closePairs _ _)
    · apply startable_of_lanes (List.length_pos_iff.2 hne) (Nat.le_of_eq hf.dispatchedTo)
      · exact shares_groupLanes cfg.toGroupSegConfig faults
      · simp [Layout.lanes, Layout.scheme, Layout.lanesOf, Fields.setUp, Fields.after, hparam,
          hf.dynamic]
    · rfl
    · exact .inl rfl
    · exact isPush_closePairs _ _
    · intro g hdynamic _
      exact ⟨nofun, nofun, nofun, nofun, eachStart_restoreGroups ⟨hdynamic.trans hf.dynamic, rfl⟩⟩
  · rename_i hpairs
    have hfalls : fallsBack cfg ps ans faults = true := by simp [fallsBack, hbranch, hpairs]
    apply eachStart_fallback (f := { f with
        segParallelActive := false
        segs := cfg.segments faults
        workersPerSeg := cfg.workersPerSeg faults })
      ⟨⟨hf.dynamic, rfl⟩, hf.groups, hf.dispatchedTo⟩ hne (.inr ⟨hfalls, rfl⟩) rfl rfl

theorem eachStart_segParallelPlan (hbranch : ps.branch = .segParallel) :
    EachStart (tag, 0)
      (SetUpRight ps tag faults.length f.queueBase (fallsBack cfg ps ans faults = true)) Fields.Plain f
      (segParallelPlan cfg ans faults ++ [.restoreGroups]) := by
  have hparam := not_groupSegParallel_of_branch hbranch
  simp only [segParallelPlan, List.append_assoc]
  apply prepare_append (by simp [ofDispatch])
  apply push_append (isPush_beginPairs _ _ _)
  split
  · simp only [List.append_assoc]
    apply prepare_append (by simp [ofDispatch])
    apply eachStart_inner (endPairs _)
    · apply startable_of_lanes (List.length_pos_iff.2 hne) (Nat.le_of_eq hf.dispatchedTo)
      · exact shares_intervals (tiles_segments cfg.toGroupSegConfig faults).1
      · simp [Layout.lanes, Layout.scheme, Layout.lanesOf, Fields.setUp, Fields.after, hparam,
          hf.dynamic]
    · rfl
    · exact .inl rfl
    · exact isPush_endPairs _
    · intro g hdynamic _
      exact ⟨nofun, nofun, nofun, nofun, eachStart_restoreGroups ⟨hdynamic.trans hf.dynamic, rfl⟩⟩
  · rename_i hpairs
    have hfalls : fallsBack cfg ps ans faults = true := by simp [fallsBack, hbranch, hpairs]
    apply eachStart_fallback (f := { f with segParallelActive := false, segs := cfg.segments faults })
      ⟨⟨hf.dynamic, rfl⟩, hf.groups, hf.dispatchedTo⟩ hne (.inr ⟨hfalls, rfl⟩) rfl rfl

end Branches

/-! ## Segments one after the other -/

section Segmented

variable {cfg : SegmentConfig} {ps : ModeParams} {ans : Answers} {tag : BatchTag} {q : Nat}
  {b : Prop} {f : Fields}

theorem awaitsReturn_segmentNext {g : Fields} {st : SegState} (hplain : g.Plain)
    (hactive : g.mergeActive = st.curSlot) (atEnd : Bool) {as : List Access}
    (has : AwaitsReturn g as) : AwaitsReturn g ((segmentNext ps ans st atEnd).1 ++ as) := by
  have hother : 1 - st.curSlot ≠ g.mergeActive := by omega
  have hend := And.intro hplain.dynamic (And.intro hplain.segParallel hother)
  unfold segmentNext beginPair
  split_ifs
  · exact ⟨hplain.dynamic, has⟩
  · exact ⟨hplain.dynamic, hplain.dynamic, hend, has⟩
  · exact ⟨hplain.dynamic, hplain.dynamic, has⟩
  · exact has

/-- A segment is dispatched with its own groups and queue entries. -/
theorem eachStart_segmentBody {st : SegState} {segCount numGroups : Nat} {atEnd : Bool}
    (hplain : f.Plain) (hdispatched : f.dispatchedTo ≤ st.segStart) (hcount : 0 < segCount)
    (hbound : st.segStart + segCount ≤ numGroups) {bs : List Access}
    (hbs : ∀ g : Fields, g.Plain → g.dispatchedTo = st.segStart + segCount →
      EachStart (tag, 0) (SetUpRight ps tag numGroups q b) Fields.Plain g bs) :
    EachStart (tag, 0) (SetUpRight ps tag numGroups q b) Fields.Plain f
      ((segmentBody cfg ps ans st segCount atEnd).1 ++ bs) := by
  -- the pair begun ahead is ended after an error
  have hfail : ∀ a ∈ (if ans.status st.segment ≠ .ok ∧ (segmentNext ps ans st atEnd).2 = true then
      endPair (1 - st.curSlot) else []), a.isPush = true := by
    split
    · exact isPush_endPair _
    · exact nofun
  -- what the segment writes is the dispatch of its own groups
  have hsetUp : ∀ {g : Fields} {rest : List Access}, g.Plain → g.dispatchedTo = f.dispatchedTo →
      g.batchGroups = (tag, 0 + st.segStart) → g.queueBase = st.segStart →
        AwaitsReturn (g.setUp (cfg.numActive segCount) segCount) rest →
          SetUpRight ps tag numGroups q b (g.setUp (cfg.numActive segCount) segCount) rest := by
    intro g rest hg hto hgroups hbase hawaits
    have hstart : g.batchGroups.2 = st.segStart := by rw [hgroups, Nat.zero_add]
    refine ⟨startable_plain hg hcount (by omega), hawaits, congrArg Prod.fst hgroups, ?_,
      .inl (hbase.trans hstart.symm)⟩
    show g.batchGroups.2 + segCount ≤ numGroups
    omega
  unfold segmentBody
  dsimp only
  split
  -- with pushes
  · simp only [List.append_assoc]
    apply prepare_append (by simp [ofDispatch])
    apply push_append (isPush_segmentPair ans st)
    apply prepare_append (by simp [ofDispatch])
    apply startInner_append
    · refine hsetUp ⟨hplain.dynamic, hplain.segParallel⟩ rfl rfl rfl ?_
      apply awaitsReturn_segmentNext
      · exact ⟨hplain.dynamic, hplain.segParallel⟩
      · rfl
      · exact awaitsReturn_waitInner _ _ _
    · apply push_append (isPush_segmentNext ps ans st atEnd)
      refine waitInner_append _ rfl fun _ => ?_
      apply push_append (isPush_endPair _)
      apply prepare_append (by simp [ofDispatch])
      apply push_append hfail
      apply hbs
      · exact ⟨hplain.dynamic, hplain.segParallel⟩
      · exact congrArg (· + segCount) (Nat.zero_add _)
  -- without pushes
  · simp only [List.append_assoc]
    apply prepare_append (by simp [ofDispatch])
    apply push_append (isPush_segmentPair ans st)
    rw [List.cons_append, dispatchAndWaitInner, List.append_assoc]
    refine ⟨nofun, nofun, startInner_append _ ?_ (waitInner_append _ rfl fun _ => ?_)⟩
    · exact hsetUp ⟨hplain.dynamic, hplain.segParallel⟩ rfl rfl rfl (awaitsReturn_waitInner _ _ _)
    · apply hbs
      · exact ⟨hplain.dynamic, hplain.segParallel⟩
      · exact congrArg (· + segCount) (Nat.zero_add _)

theorem eachStart_segmentedLoop {numGroups total threshold : Nat} (rest : List Nat) (cursor : Nat)
    (st : SegState) (hplain : f.Plain) (hdispatched : f.dispatchedTo ≤ st.segStart)
    (hcursor : st.segStart ≤ cursor) (hlength : cursor + rest.length = numGroups) :
    EachStart (tag, 0) (SetUpRight ps tag numGroups q b) Fields.Plain f
      (segmentedLoop cfg ps ans total threshold cursor rest st ++ [.restoreGroups]) := by
  induction rest generalizing cursor st f with
  | nil => exact eachStart_restoreGroups hplain
  | cons numFaults rest ih =>
    rw [List.length_cons] at hlength
    simp only [segmentedLoop]
    split
    · exact ih (cursor + 1) _ hplain hdispatched (by dsimp only; omega) (by omega)
    · rw [List.append_assoc]
      apply eachStart_segmentBody hplain
      · exact hdispatched
      · exact Nat.succ_pos _
      · show st.segStart + (cursor - st.segStart + 1) ≤ numGroups
        omega
      · intro g hg hto
        have hnext : g.dispatchedTo ≤ cursor + 1 := by
          have hcut : st.segStart + (cursor - st.segStart + 1) = cursor + 1 := by omega
          exact Nat.le_of_eq (hto.trans hcut)
        split
        · exact ih (cursor + 1) _ hg hnext (Nat.le_refl _) (by omega)
        · exact eachStart_restoreGroups hg

end Segmented

theorem eachStart_dispatchPlan (cfg : SegmentConfig) (ps : ModeParams) (ans : Answers)
    {tag : BatchTag} (faults : List Nat) {f : Fields} (hf : f.Called tag) :
    EachStart (tag, 0)
      (SetUpRight ps tag faults.length f.queueBase (fallsBack cfg ps ans faults = true)) Fields.Plain f
      (dispatchPlan cfg ps ans faults) := by
  unfold dispatchPlan
  by_cases hne : faults = []
  · rw [if_pos hne]
    exact hf.toPlain
  · rw [if_neg hne]
    cases hbranch : ps.branch with
    | dynamic => exact eachStart_dynamicPlan hf hne hbranch
    | groupSeg => exact eachStart_groupSegPlan hf hne hbranch
    | segParallel => exact eachStart_segParallelPlan hf hne hbranch
    | whole => exact eachStart_wholePlan hf hne
    | segmented =>
      apply eachStart_segmentedLoop faults 0 _ hf.toPlain (Nat.le_of_eq hf.dispatchedTo)
        (Nat.le_refl 0) (Nat.zero_add _)
    | off => exact eachStart_offPlan hf hne

end FaultMesh.Modes
