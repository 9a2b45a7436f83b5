import FaultMesh.Lib.Machine
import FaultMesh.Prefault.Array

/-!
# The touch protocol of FrontLib

GPU threads access a managed array through views (`uvm_prefault_array_dedup_t`). A view makes sure
that the page of an element is resident before the element is used: by its own hints, by the
counter of the block, by the status of the page, or by touching the page. Of the lanes of a warp
that want the same page one is elected, and of the elected lanes the one whose `atomicCAS` wins
touches and publishes the page.

Every atomic operation and every volatile load is a step of its own; the accesses of all threads are
interleaved. What a thread does between two of them is folded into the step before.
-/

namespace FaultMesh

open Function

/-! ## Electing a lane -/

abbrev LaneMask : Type := Finset (Fin 32)

/-- `__match_any_sync`: the lanes of the mask that hold the given value. -/
def matchAnySync (active : LaneMask) (values : Fin 32 → Nat) (value : Nat) : LaneMask :=
  active.filter fun l => values l = value

/-- The loop over `__shfl_sync` for devices without `__match_any_sync`. -/
def shuffleMatchAny (active : LaneMask) (values : Fin 32 → Nat) (value : Nat) : LaneMask :=
  (List.finRange 32).foldl (fun eqMask l =>
    if l ∈ active then
      if values l = value then insert l eqMask else eqMask
    else eqMask) ∅

def pfWarpMatchAnyU64 (cudaArch : Nat) (active : LaneMask) (values : Fin 32 → Nat) (value : Nat) :
    LaneMask :=
  if 700 ≤ cudaArch then matchAnySync active values value
  else shuffleMatchAny active values value

/-- `__ffs(mask) - 1`: the lowest lane of the mask. -/
def firstLane (mask : LaneMask) : Option (Fin 32) := (List.finRange 32).find? (· ∈ mask)

theorem foldl_shuffle (active : LaneMask) (values : Fin 32 → Nat) (value : Nat)
    (lanes : List (Fin 32)) (eqMask : LaneMask) :
    lanes.foldl (fun eqMask l =>
        if l ∈ active then
          if values l = value then insert l eqMask else eqMask
        else eqMask) eqMask = eqMask ∪ (matchAnySync active values value).filter (· ∈ lanes) := by
  induction lanes generalizing eqMask with
  | nil => simp
  | cons l lanes ih =>
    rw [List.foldl_cons, ih]
    ext k
    simp only [matchAnySync, Finset.mem_union, Finset.mem_filter, List.mem_cons]
    by_cases hk : k = l
    · subst hk
      by_cases hact : k ∈ active <;> by_cases hval : values k = value <;> simp [hact, hval]
    · split_ifs <;> simp [hk]

theorem pfWarpMatchAnyU64_eq (cudaArch : Nat) (active : LaneMask) (values : Fin 32 → Nat)
    (value : Nat) :
    pfWarpMatchAnyU64 cudaArch active values value = matchAnySync active values value := by
  unfold pfWarpMatchAnyU64 shuffleMatchAny
  split
  · rfl
  · rw [foldl_shuffle]
    simp [List.mem_finRange]

theorem firstLane_mem {mask : LaneMask} {l : Fin 32} (h : firstLane mask = some l) : l ∈ mask := by
  have := List.find?_some h
  exact of_decide_eq_true this

theorem exists_firstLane {mask : LaneMask} {l : Fin 32} (h : l ∈ mask) :
    ∃ m, firstLane mask = some m := by
  refine Option.isSome_iff_exists.1 ?_
  rw [firstLane, List.find?_isSome]
  exact ⟨l, List.mem_finRange l, decide_eq_true h⟩

/-! ## Threads and views -/

inductive PageStatus where
  | unknown
  | pending
  | ready
  deriving DecidableEq, Repr

structure GpuThread where
  warp : Nat
  lane : Fin 32
  deriving DecidableEq, Repr

/-- What the winner of a page still does, in this order. -/
inductive Duty where
  | countWin
  | touch
  | ready
  | countBlk
  | countPublished
  deriving DecidableEq, Repr

inductive EnsurePc where
  | idle
  /-- The load of the block counter in `pf_blk_full`. -/
  | loadBlk
  | loadStatus
  /-- Before `__activemask`. -/
  | converge
  | cas
  | duty (d : Duty)
  | setResident
  /-- The loop that waits for `PF_READY`. -/
  | wait
  /-- `ensure` has returned, or was skipped; the element is accessed next. -/
  | returned
  deriving DecidableEq, Repr

/-- The mutable part of a view. -/
structure PrefaultView where
  lastPage : Nat
  lastBlk : Nat
  checks : Bool
  deriving DecidableEq, Repr

def noHint : Nat := 2 ^ 64 - 1

/-- The local variables of a thread in `ensure`. -/
structure EnsureThread where
  pc : EnsurePc := .idle
  /-- Which of its views the thread uses. -/
  view : Nat := 0
  page : Nat := 0
  /-- The element, for a `load` or `store`. -/
  elem : Option Nat := none
  checked : Bool := false
  leader : GpuThread := ⟨0, 0⟩
  deriving DecidableEq, Repr

inductive PrefaultCall where
  | ensure (page : Nat)
  /-- `load` or `store`. -/
  | access (i : Nat)
  deriving DecidableEq, Repr

/-- What does not change while the kernels run. -/
structure PrefaultConfig where
  array : PrefaultArray
  cudaArch : Nat
  /-- `cas_wins != nullptr`. -/
  countsWins : Bool

/-- The table of an array, the views and the threads. The last three fields are a history that
nothing reads. -/
structure PrefaultState where
  status : Nat → PageStatus
  blkCnt : Nat → Nat
  published : Nat
  allResident : Nat
  casWins : Nat
  views : GpuThread → Nat → Option PrefaultView
  threads : GpuThread → EnsureThread
  won : List (GpuThread × Nat) := []
  /-- Who did what for which page. -/
  did : Duty → List (GpuThread × Nat) := fun _ => []
  residentBy : List GpuThread := []

/-- The state after `prefault_array_init` or `prefault_array_reset`. -/
def PrefaultState.init (cfg : PrefaultConfig) : PrefaultState where
  status := fun _ => .unknown
  blkCnt := pfInitBlkCounts cfg.array.nPages
  published := 0
  allResident := 0
  casWins := 0
  views := fun _ _ => none
  threads := fun _ => {}

inductive PrefaultLabel where
  | build (t : GpuThread) (view : Nat)
  | call (t : GpuThread) (view : Nat) (call : PrefaultCall)
  /-- Lanes of a warp pass `__activemask` and the election together. -/
  | converge (warp : Nat) (active : LaneMask)
  | step (t : GpuThread)

/-! ## Steps -/

namespace PrefaultState

variable (cfg : PrefaultConfig) (s : PrefaultState) (t : GpuThread)

def setThread (th : EnsureThread) : PrefaultState :=
  { s with threads := update s.threads t th }

def goTo (pc : EnsurePc) : PrefaultState := s.setThread t { s.threads t with pc := pc }

def setView (view : Nat) (v : PrefaultView) : PrefaultState :=
  { s with views := update s.views t (update (s.views t) view (some v)) }

/-- The constructor of a view, on the device. -/
def buildView : PrefaultView := ⟨noHint, noHint, s.allResident = 0⟩

/-- `ensure` returns and keeps its hints. -/
def leave (v : PrefaultView) (blkFull : Bool) : PrefaultState :=
  let th := s.threads t
  (s.setView t th.view
    { v with
      lastPage := th.page
      lastBlk := if blkFull then th.page / pfBlkPages else v.lastBlk }).goTo t .returned

/-- `ensure` up to its first access. -/
def ensure (v : PrefaultView) (th : EnsureThread) : PrefaultState :=
  let s := s.setThread t { th with pc := .loadBlk, checked := true }
  if th.page = v.lastPage ∨ th.page / pfBlkPages = v.lastBlk then s.leave t v false else s

def call (view : Nat) : PrefaultCall → Option PrefaultState
  | .ensure page =>
    if page < cfg.array.nPages then
      (s.views t view).map fun v => s.ensure t v { view := view, page := page }
    else none
  | .access i =>
    if i < cfg.array.nElems then
      (s.views t view).map fun v =>
        let th : EnsureThread := { view := view, page := cfg.array.pageOf i, elem := some i }
        if v.checks then s.ensure t v th else s.setThread t { th with pc := .returned }
    else none

/-- The page a lane of the warp asks for. -/
def laneValue (warp : Nat) (l : Fin 32) : Nat := (s.threads ⟨warp, l⟩).page

/-- The beginning of `pf_direct_touch` for one lane. -/
def elect (warp : Nat) (active : LaneMask) (l : Fin 32) : EnsureThread :=
  let th := s.threads ⟨warp, l⟩
  let eqMask := pfWarpMatchAnyU64 cfg.cudaArch active (s.laneValue warp) th.page
  let master := firstLane eqMask
  { th with
    leader := ⟨warp, master.getD l⟩
    pc := if master = some l then .cas else .wait }

def afterDuty : Duty → EnsurePc
  | .countWin => .duty .touch
  | .touch => .duty .ready
  | .ready => .duty .countBlk
  | .countBlk => .duty .countPublished
  -- `published` is 32 bits wide
  | .countPublished =>
    if (s.published + 1) % 2 ^ 32 = cfg.array.nPages then .setResident else .wait

/-- The effect of a duty on the table. -/
def perform (page : Nat) : Duty → PrefaultState
  | .countWin => if cfg.countsWins then { s with casWins := (s.casWins + 1) % 2 ^ 64 } else s
  -- a read of the array at `touchAddr`, if there is one
  | .touch => s
  | .ready => { s with status := update s.status page .ready }
  | .countBlk =>
    { s with
      blkCnt := update s.blkCnt (page / pfBlkPages)
        ((s.blkCnt (page / pfBlkPages) + 1) % 2 ^ 32) }
  | .countPublished => { s with published := (s.published + 1) % 2 ^ 32 }

/-- Note in the history that the thread has done its duty. -/
def record (page : Nat) (d : Duty) : PrefaultState :=
  { s with did := update s.did d ((t, page) :: s.did d) }

def doDuty (d : Duty) : PrefaultState :=
  let page := (s.threads t).page
  ((s.perform cfg page d).record t page d).goTo t (s.afterDuty cfg d)

def stepThread : Option PrefaultState :=
  let th := s.threads t
  match th.pc with
  | .idle => none
  | .loadBlk =>
    (s.views t th.view).map fun v =>
      if pfBlkPages ≤ s.blkCnt (th.page / pfBlkPages) then s.leave t v true
      else s.goTo t .loadStatus
  | .loadStatus =>
    (s.views t th.view).map fun v =>
      if s.status th.page = .ready then s.leave t v false else s.goTo t .converge
  -- only together with the other lanes
  | .converge => none
  | .cas =>
    if s.status th.page = .unknown then
      some (({ s with
        status := update s.status th.page .pending
        won := (t, th.page) :: s.won } : PrefaultState).goTo t (.duty .countWin))
    else some (s.goTo t .wait)
  | .duty d => some (s.doDuty cfg t d)
  | .setResident =>
    some (({ s with allResident := 1, residentBy := t :: s.residentBy } : PrefaultState).goTo t
      .wait)
  | .wait =>
    (s.views t th.view).map fun v => if s.status th.page = .ready then s.leave t v false else s
  | .returned => some (s.goTo t .idle)

end PrefaultState

/-- One step of the threads of a device. -/
def prefaultStep (cfg : PrefaultConfig) (s : PrefaultState) : PrefaultLabel → Option PrefaultState
  | .build t view =>
    if (s.threads t).pc = .idle then some (s.setView t view s.buildView) else none
  | .call t view call => if (s.threads t).pc = .idle then s.call cfg t view call else none
  | .converge warp active =>
    if active.Nonempty ∧ ∀ l ∈ active, (s.threads ⟨warp, l⟩).pc = .converge then
      some { s with
        threads := fun t =>
          if t.warp = warp ∧ t.lane ∈ active then s.elect cfg warp active t.lane
          else s.threads t }
    else none
  | .step t => s.stepThread cfg t

def prefaultMachine (cfg : PrefaultConfig) : Machine PrefaultState PrefaultLabel where
  step := prefaultStep cfg

end FaultMesh
