import FaultMesh.Modes.PushLedger
import FaultMesh.Modes.Machine

/-!
# Shared pushes are balanced

Whatever a call of `uvm_kthread_dispatch_and_wait` begins it ends, if the workers that are given a
copy-done counter are done with it when the wait returns.

That is not so when an item is serviced twice. In the pool in all modes a worker decrements
`copy_done_counters`, ends the push and sets `copy_pushed_end`: three accesses, between which others
run. If `items_remaining` is decremented too often, the wait returns too early, and a worker in service
ends a push that the coordinator has ended.
-/

namespace FaultMesh.Modes

open Function

/-- **Balance**: for every mode and all settings, all groups, every pattern of failures of
`uvm_push_begin`, and whatever the workers report until the wait returns, the accesses of a call end
each push that they begin, once, and no other. -/
theorem pushes_balanced (cfg : SegmentConfig) (ps : ModeParams) (ans : Answers)
    (faults : List Nat) {f : Fields} {l : Ledger} (hl : l.Closed) (hf : f.dynamicActive = false)
    (allGroups : BatchTag × Nat) :
    Settles ps.copyMapSplit allGroups f l (dispatchPlan cfg ps ans faults) := by
  unfold dispatchPlan
  by_cases hne : faults = []
  · rw [if_pos hne]
    exact ⟨hl, hf⟩
  · rw [if_neg hne]
    refine Leads.settles (P := On Off (Ledger.Pairs ∅)) (.append ?_ (.quiet rfl))
      ⟨hf, Ledger.closed_iff_pairs.1 hl⟩
    cases ps.branch with
    | dynamic => exact leads_dynamicPlan cfg ps hne
    -- without counters the workers have nothing to report
    | groupSeg => exact leads_groupSegPlan cfg ps
    | segParallel => exact leads_segParallelPlan cfg
    | whole => exact leads_wholePlan cfg
    | segmented => exact leads_segmentedPlan cfg ps hne
    | off => exact leads_offPlan cfg

def splitParams : ModeParams where
  mergeDispatch := true
  dynamicDispatch := true
  copyMapSplit := true

/-- The accesses of a call for two groups, which make one segment. -/
def splitPlan : List Access := dispatchPlan (uvmKthreadPoolCreate 1 0) splitParams {} [1, 1]

/-- The copy and the map push of the segment, and whether a worker ended the former. -/
def Ledger.view (l : Ledger) : Bool × Bool × Bool :=
  (l.isOpen .copy 0, l.isOpen .map 0, l.pushedEnd 0)

/-- With the report for the second group a worker ends the copy push, and the call goes on. -/
theorem worker_ends_copy_push :
    (({} : Ledger).run (splitPlan.takeWhile Access.passes)).map Ledger.view =
        some (true, true, false) ∧
      ((({} : Ledger).run (splitPlan.takeWhile Access.passes)).bind fun l =>
        (l.report 0).bind fun l => l.report 0).map Ledger.view = some (false, true, true) ∧
      Settles true (⟨0, 0⟩, 2) {} {} splitPlan :=
  ⟨by decide +kernel, by decide +kernel,
    pushes_balanced (uvmKthreadPoolCreate 1 0) splitParams {} [1, 1] (fun _ _ => rfl) rfl (⟨0, 0⟩, 2)⟩

/-! ## The pool with its pushes -/

/-- What a worker has still to do that brought the counter of a segment to zero. -/
inductive Closing where
  /-- `uvm_push_end`, then the flag. -/
  | push (slot : Nat)
  /-- `copy_pushed_end`. -/
  | flag (slot : Nat)
  deriving DecidableEq, Repr

section Machine

variable (numCoords numWorkers : Nat)

structure PushState extends State numCoords numWorkers where
  ledger : Ledger := {}
  /-- A push was begun while it was open, or ended while it was not. -/
  misused : Bool := false
  /-- The segment whose counter is in `merge_ext.copy_done_counter`. -/
  counters : Fin numWorkers → Option Nat := fun _ => none
  closing : Fin numWorkers → Option Closing := fun _ => none

inductive PushLabel where
  | move (label : Label numCoords numWorkers)
  /-- A worker that used the shared copy push is done copying; with retries that comes again. -/
  | copyDone (w : Fin numWorkers)
  /-- The worker that brought a counter to zero goes on. -/
  | close (w : Fin numWorkers)

end Machine

variable {numCoords numWorkers : Nat}

/-- A worker that ends a push is not done with its item. -/
def PushState.ready (s : PushState numCoords numWorkers) : Label numCoords numWorkers → Bool
  | .worker w _ => (s.closing w).isNone
  | _ => true

def PushState.ledgerAfter (s : PushState numCoords numWorkers) :
    Label numCoords numWorkers → Option Ledger
  | .coord c =>
    match (s.coords c).phase, (s.coords c).program with
    | .inside, a :: _ => s.ledger.exec a
    | _, _ => some s.ledger
  | _ => some s.ledger

/-- The counter that a worker gets with its item. -/
def PushState.counterFor (s : PushState numCoords numWorkers) (w : Fin numWorkers) (merge : Bool) :
    Option Nat :=
  if (s.workers w).scheme = .cursor ∧ merge ∧ s.params.copyMapSplit then
    some (s.pool.blockSegId.getD (s.workers w).idx 0)
  else none

def PushState.countersAfter (s : PushState numCoords numWorkers) :
    Label numCoords numWorkers → Fin numWorkers → Option Nat
  | .worker w merge =>
    match (s.workers w).pc with
    | .takeItem => update s.counters w (s.counterFor w merge)
    | .service => update s.counters w none
    | _ => s.counters
  | _ => s.counters

def pushStep (s : PushState numCoords numWorkers) :
    PushLabel numCoords numWorkers → Option (PushState numCoords numWorkers)
  | .move label =>
    if s.ready label then
      (step s.toState label).map fun t =>
        { toState := t
          ledger := (s.ledgerAfter label).getD s.ledger
          misused := s.misused || (s.ledgerAfter label).isNone
          counters := s.countersAfter label
          closing := s.closing }
    else none
  | .copyDone w =>
    match s.counters w, s.closing w with
    | some slot, none =>
      -- `atomic_dec_and_test`
      let left := s.ledger.copyDone slot - 1
      some { s with
        ledger := { s.ledger with copyDone := update s.ledger.copyDone slot left }
        closing := if left = 0 then update s.closing w (some (.push slot)) else s.closing }
    | _, _ => none
  | .close w =>
    match s.closing w with
    | some (.push slot) =>
      some { s with
        ledger := (s.ledger.pushEnd .copy slot).getD s.ledger
        misused := s.misused || (s.ledger.pushEnd .copy slot).isNone
        closing := update s.closing w (some (.flag slot)) }
    | some (.flag slot) =>
      some { s with
        ledger := { s.ledger with pushedEnd := update s.ledger.pushedEnd slot true }
        closing := update s.closing w none }
    | none => none

def pushes (numCoords numWorkers : Nat) :
    Machine (PushState numCoords numWorkers) (PushLabel numCoords numWorkers) where
  step := pushStep

local instance oneCoordinator_neZero : NeZero 1 := ⟨Nat.one_ne_zero⟩
local instance twoWorkers_neZero : NeZero 2 := ⟨two_ne_zero⟩

/-- A batch of two groups, up to the start of the workers. -/
def startPair : List (PushLabel 1 2) :=
  [.submit 0 2, .coord 0, .coord 0, .call 0 (uvmKthreadPoolCreate 2 0) {} [1, 1]].map .move ++
    List.replicate 15 (.move (.coord 0))

/-- Worker 1 takes number 1 of a first batch and finds the dynamic mode off when it gets that far. In
the second batch it services item 1, which worker 0 has as well, so the wait returns; the coordinator
ends the pair, and then worker 0 brings the counter to zero. -/
def staleWorkerRun : List (PushLabel 1 2) :=
  .move (.setParams splitParams) :: startPair ++
    .move (.worker 0 true) :: List.replicate 5 (.move (.worker 1 true)) ++
    List.replicate 15 (.move (.worker 0 true)) ++ List.replicate 8 (.move (.coord 0)) ++
    List.replicate 3 (.move (.worker 1 true)) ++ startPair ++
    List.replicate 8 (.move (.worker 0 true)) ++ [.copyDone 0] ++
    List.replicate 4 (.move (.worker 0 true)) ++ List.replicate 4 (.move (.worker 1 true)) ++
    List.replicate 4 (.move (.coord 0)) ++ [.copyDone 0, .close 0]

/-- What worker 0 services, and whether a push was misused. -/
def staleView (s : PushState 1 2) : WorkerPc × (BatchTag × Nat) × Bool :=
  ((s.workers 0).pc, (s.workers 0).group, s.misused)

/-- The copy push is ended twice: before the last step no push was misused. -/
theorem copy_push_ended_twice :
    ((pushes 1 2).run {} staleWorkerRun.dropLast).map staleView =
        some (.service, (⟨0, 2⟩, 1), false) ∧
      ((pushes 1 2).run {} staleWorkerRun).map staleView =
        some (.service, (⟨0, 2⟩, 1), true) := by
  constructor <;> decide +kernel

end FaultMesh.Modes
