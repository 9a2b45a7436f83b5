import FaultMesh.Lib.Machine
import FaultMesh.Snapshot

/-!
# The locks of the parallel path

The grouping loop of `service_fault_batch_parallel` holds the lock of the VA space that it is at, and
the lock of its mm and a reference on it if there is one. They are released when it comes to another
VA space, and at the end by whoever services the groups: by the inline fallback, or around the
dispatch. Both places test `uvm_parallel_fault_processing` again. If the parameter has changed in
between, nobody releases them.
-/

namespace FaultMesh

/-! ## What is held -/

/-- What a call on locks takes or releases. -/
inductive Hold where
  /-- The lock of a VA space, for reading. -/
  | vaSpace (vaSpace : VaSpaceId)
  /-- `mmap_lock`, for reading. -/
  | mmap (mm : MmId)
  | mmRef (vaSpace : VaSpaceId)
  deriving DecidableEq, Repr

/-- What is held of an mm that was retained and locked. -/
def mmHolds (vaSpace : VaSpaceId) : Option MmId → Multiset Hold
  | some mm => {.mmRef vaSpace, .mmap mm}
  | none => 0

namespace LockOp

def takes : LockOp → Multiset Hold
  | mmRetainLock vaSpace mm => mmHolds vaSpace mm
  | downRead vaSpace => {.vaSpace vaSpace}
  | mmReleaseUnlock .. | upReadMmap _ | mmRelease _ | upRead _ => 0

def releases : LockOp → Multiset Hold
  | mmReleaseUnlock vaSpace mm => mmHolds vaSpace mm
  | upReadMmap mm => {.mmap mm}
  | mmRelease vaSpace => {.mmRef vaSpace}
  | upRead vaSpace => {.vaSpace vaSpace}
  | mmRetainLock .. | downRead _ => 0

end LockOp

/-- The calls change what is held. Only what is held can be released. -/
def lockMachine : Machine (Multiset Hold) LockOp where
  step held op := if op.releases ≤ held then some (held - op.releases + op.takes) else none

/-- Everything that was taken is released, once, and nothing is released that is not held. -/
def LocksBalanced (ops : List LockOp) : Prop := lockMachine.run 0 ops = some 0

instance (ops : List LockOp) : Decidable (LocksBalanced ops) :=
  inferInstanceAs (Decidable (_ = _))

/-! ## The calls of the function -/

/-- The calls on locks of `service_fault_batch_parallel`, which returns at once if the GPU has no
`parallel_fault_ctx`. -/
def parallelLockOps (hasContext : Bool) (cfg : ParallelConfig) (ans : BatchAnswers)
    (batch : ServiceBatch) : List LockOp :=
  if hasContext then
    let g := groupBatch ans batch
    g.returnLockOps (cfg.path g.groups.length)
  else []

/-! ## The grouping loop -/

variable {ans : BatchAnswers} {entries : Nat → FaultEntry} {g g' : Grouping} {i n : Nat}

theorem lockMachine_step (op : LockOp) (held : Multiset Hold) :
    lockMachine.step (op.releases + held) op = some (held + op.takes) := by
  simp only [lockMachine]
  rw [if_pos (Multiset.le_add_right ..), add_tsub_cancel_left]

def Grouping.holding (g : Grouping) : Multiset Hold :=
  match g.vaSpace with
  | some vaSpace => {.vaSpace vaSpace} + mmHolds vaSpace g.mm
  | none => 0

/-- The loop holds the locks of the VA space that it is at, and nothing else. -/
def Grouping.Holds (g : Grouping) : Prop := lockMachine.run 0 g.lockOps = some g.holding

theorem SameSpace.holds (hsame : SameSpace g g') (h : g.Holds) : g'.Holds := by
  unfold Grouping.Holds Grouping.holding at *
  rw [hsame.lockOps, hsame.vaSpace, hsame.mm]
  exact h

theorem run_changeLocks (g : Grouping) (vaSpace : VaSpaceId) (mm : Option MmId) :
    lockMachine.run g.holding (g.changeLocks vaSpace mm) =
      some ({.vaSpace vaSpace} + mmHolds vaSpace mm) := by
  have htake : lockMachine.run 0 [.mmRetainLock vaSpace mm, .downRead vaSpace] =
      some ({.vaSpace vaSpace} + mmHolds vaSpace mm) := by
    have hretain := lockMachine_step (.mmRetainLock vaSpace mm) 0
    have hdown := lockMachine_step (.downRead vaSpace) (mmHolds vaSpace mm)
    simp only [LockOp.releases, LockOp.takes, zero_add] at hretain hdown
    simp only [Machine.run, hretain, hdown, Option.bind_some]
    rw [add_comm]
  unfold Grouping.changeLocks Grouping.holding
  cases g.vaSpace with
  | none => exact htake
  | some old =>
    have hup := lockMachine_step (.upRead old) (mmHolds old g.mm)
    have hrelease := lockMachine_step (.mmReleaseUnlock old g.mm) 0
    simp only [LockOp.releases, LockOp.takes, add_zero] at hup hrelease
    simp only [List.cons_append, List.nil_append, Machine.run, hup, hrelease, Option.bind_some] at htake ⊢
    exact htake

theorem Grouping.Holds.changeVaSpace (h : g.Holds) (vaSpace : VaSpaceId) :
    (g.changeVaSpace ans vaSpace).Holds :=
  (lockMachine.run_append_eq_some).2 ⟨_, h, run_changeLocks g vaSpace _⟩

theorem groupFault_sameSpace (ans : BatchAnswers) (entries : Nat → FaultEntry) (i : Nat)
    (g : Grouping) : ((entries i).vaSpace = none ∨ (entries i).vaSpace = g.vaSpace) ∧
      SameSpace g (groupFault ans entries i g) ∨
    ∃ vaSpace, (entries i).vaSpace = some vaSpace ∧
      SameSpace (g.changeVaSpace ans vaSpace) (groupFault ans entries i g) := by
  have hcount : ∀ g : Grouping, SameSpace g
      (if (entries i).isFatal then { g with fatalVaSpace := g.fatalVaSpace.or g.vaSpace }
      else if g.gpuVaSpace.isNone then g else g.locate ans i (entries i).faultAddress) := by
    intro g
    split
    · exact ⟨rfl, rfl, rfl, rfl⟩
    · split
      · exact ⟨rfl, rfl, rfl, rfl⟩
      · exact Grouping.locate_sameSpace ..
  unfold groupFault
  dsimp only
  split
  next hnone => exact .inl ⟨.inl hnone, rfl, rfl, rfl, rfl⟩
  next vaSpace hspace =>
    split
    next hsame => exact .inl ⟨.inr (hspace.trans hsame.symm), hcount g⟩
    next =>
      refine .inr ⟨vaSpace, hspace, ?_⟩
      split
      next => exact ⟨rfl, rfl, rfl, rfl⟩
      next hgpu =>
        have hsame := hcount (g.changeVaSpace ans vaSpace)
        rw [if_neg hgpu] at hsame
        exact hsame

theorem Grouping.Holds.groupFault (h : g.Holds) : (groupFault ans entries i g).Holds := by
  obtain ⟨-, hsame⟩ | ⟨vaSpace, -, hsame⟩ := groupFault_sameSpace ans entries i g
  · exact hsame.holds h
  · exact hsame.holds (h.changeVaSpace vaSpace)

theorem groupBatch_holds (ans : BatchAnswers) (batch : ServiceBatch) :
    (groupBatch ans batch).Holds ∧ ((groupBatch ans batch).vaSpace = none ↔
      ∀ i < batch.numCoalescedFaults, (batch.entries i).vaSpace = none) := by
  -- by induction over the faults: what is held, and whether there is a VA space
  have hloop : ∀ n, (groupFaults ans batch.entries { fatalVaSpace := batch.fatalVaSpace } n).Holds ∧
      ((groupFaults ans batch.entries { fatalVaSpace := batch.fatalVaSpace } n).vaSpace = none ↔
        ∀ i < n, (batch.entries i).vaSpace = none) := by
    intro n
    induction n with
    | zero => exact ⟨rfl, fun _ i hi => absurd hi i.not_lt_zero, fun _ => rfl⟩
    | succ n ih =>
      refine ⟨ih.1.groupFault, ?_⟩
      rw [Nat.forall_lt_succ_right, ← ih.2, groupFaults]
      obtain ⟨hspace, hsame⟩ | ⟨vaSpace, hspace, hsame⟩ := groupFault_sameSpace ans batch.entries n
        (groupFaults ans batch.entries { fatalVaSpace := batch.fatalVaSpace } n)
      · rw [hsame.vaSpace]
        refine ⟨fun hnone => ⟨hnone, ?_⟩, And.left⟩
        exact hspace.elim id fun heq => heq.trans hnone
      · rw [hsame.vaSpace, hspace]
        exact ⟨fun h => (by cases h), fun h => absurd h.2 (by simp)⟩
  have hsame := Grouping.flush_sameSpace
    (groupFaults ans batch.entries { fatalVaSpace := batch.fatalVaSpace } batch.numCoalescedFaults)
  refine ⟨hsame.holds (hloop _).1, ?_⟩
  rw [groupBatch, hsame.vaSpace]
  exact (hloop _).2

/-! ## The end of the function -/

theorem Grouping.Holds.balanced_iff (h : g.Holds) (path : ServicePath) :
    LocksBalanced (g.returnLockOps path) ↔ g.vaSpace = none ∨ path ≠ .none := by
  have hrun : ∀ rest, LocksBalanced (g.lockOps ++ rest) ↔
      lockMachine.run g.holding rest = some 0 := by
    intro rest
    have h : lockMachine.run 0 g.lockOps = some g.holding := h
    simp [LocksBalanced, lockMachine.run_append_eq_some, h]
  unfold Grouping.returnLockOps Grouping.serviceLockOps
  rw [List.append_assoc, hrun]
  unfold Grouping.holding
  cases g.vaSpace with
  | none => cases path <;> simp
  | some vaSpace =>
    have hup := lockMachine_step (.upRead vaSpace) (mmHolds vaSpace g.mm)
    simp only [LockOp.releases, LockOp.takes, add_zero] at hup
    cases path with
    | none => simp
    | inline =>
      have hrelease := lockMachine_step (.mmReleaseUnlock vaSpace g.mm) 0
      simp only [LockOp.releases, LockOp.takes, add_zero] at hrelease
      cases hmm : g.mm <;> simp_all [Machine.run, mmHolds]
    | dispatched =>
      cases hmm : g.mm with
      | none => simp_all [Machine.run, mmHolds]
      | some mm =>
        have hmmap := lockMachine_step (.upReadMmap mm) {.mmRef vaSpace}
        have hrelease := lockMachine_step (.mmRelease vaSpace) 0
        rw [add_comm] at hmmap
        simp_all [Machine.run, mmHolds, LockOp.releases, LockOp.takes]

/-- For all parameters as they are at each read, all batches and all lookups: everything that was
taken is released, and nothing else, exactly if nothing was taken, or the groups are serviced by
someone. In a sorted batch the number of groups is that of the blocks with faults, up to a
limit. -/
theorem locks_balanced_iff (hasContext : Bool) (cfg : ParallelConfig) :
    (∀ ans batch, LocksBalanced (parallelLockOps hasContext cfg ans batch) ↔
      hasContext = false ∨ (∀ i < batch.numCoalescedFaults, (batch.entries i).vaSpace = none) ∨
        cfg.path (groupBatch ans batch).groups.length ≠ .none) ∧
    ∀ sb : SortedBatch, (groupBatch sb.ans sb.batch).groups.length =
      min uvmParallelFaultMaxBlocks sb.blocks.length := by
  refine ⟨fun ans batch => ?_, fun sb => ?_⟩
  · obtain ⟨hholds, hspace⟩ := groupBatch_holds ans batch
    cases hasContext with
    | false => exact iff_of_true rfl (.inl rfl)
    | true => simp only [parallelLockOps, if_true, hholds.balanced_iff, hspace, reduceCtorEq, false_or]
  · have hlength := congrArg List.length (groupBatch_groups sb)
    rw [List.length_map, takeRuns, List.length_take, List.length_reverse, runs_length] at hlength
    exact hlength

/-- The parameter is 2 when the parallel path is taken and for the inline fallback, and another value
is written to it before the dispatch. -/
theorem parameter_changed_leaks :
    let ops := parallelLockOps true { dispatchProcessing := 0 }
      { firstBlockAnswers with vaSpaceMm := fun _ => some 7 } locatedBatch.batch
    lockMachine.run 0 ops = some {.vaSpace 0, .mmRef 0, .mmap 7} ∧
      ¬ LocksBalanced ops := by
  decide

end FaultMesh
