import FaultMesh.BlockRefinement
import FaultMesh.Lib.Span

/-!
# Allocation retries of a worker

When memory has to be evicted, `uvm_va_block_service_locked` drops the block lock and asks to be
called again. The serial path then scans the faults of the block anew; a worker scans them once
and repeats the call with the context it has, to which every call adds the pages of a prefetch
hint.

What a context asks for is read off page by page as a plan. A scan gives the plan of the faults to
be serviced, a hint adds pages to it, and the two contexts to be compared are those of two plans.
-/

namespace FaultMesh

open Function (update update_self update_of_ne update_apply)
open ServiceBlockContext

def NvStatus.errMoreProcessingRequired : NvStatus := .errOther 0x4D

def NvStatus.errNotSupported : NvStatus := .errOther 0x56

/-! ## The state of a block -/

/-- `UVM_ID_MAX_PROCESSORS`: 32 parent GPUs of eight, and the CPU. -/
def uvmIdMaxProcessors : Nat := 257

def VaBlock.numCpuPages (block : VaBlock) : Nat := block.cpuPageIndex block.last + 1

theorem VaBlock.numCpuPages_le (block : VaBlock) : block.numCpuPages ≤ pagesPerUvmVaBlock := by
  have hlast := block.last_lt
  apply Nat.succ_le_of_lt
  apply Nat.div_lt_of_lt_mul
  rw [Nat.mul_comm pageSize]
  have hpos : 0 < pagesPerUvmVaBlock * pageSize := by decide
  omega

/-- What servicing reads of a block while it holds the lock. -/
structure BlockState (block : VaBlock) where
  answers : BlockAnswers
  residency_lt : ∀ i mask, (answers.selectResidency i mask).1 < uvmIdMaxProcessors
  /-- `uvm_perf_prefetch_get_hint_va_block` for the pages that migrate to a processor and their
  region: the pages to prefetch, if the hint is valid. -/
  prefetchHint : Nat → (Nat → Bool) → Nat × Nat → Option (Nat → Bool)
  hint_lt : ∀ proc pages region hint, prefetchHint proc pages region = some hint →
    ∀ page, hint page → page < block.numCpuPages
  /-- Pages that migrate due to faults are taken out of the hint. -/
  hint_new : ∀ proc pages region hint, prefetchHint proc pages region = some hint →
    ∀ page, hint page → pages page = false
  /-- `uvm_va_policy_is_read_duplicate`. -/
  policyReadDuplicate : Bool
  /-- `policy->read_duplication != UVM_READ_DUPLICATION_DISABLED`. -/
  readDuplicationAllowed : Bool
  readDuplicatedPages : Nat → Bool

/-- Prefetching the page read-duplicates it. -/
def BlockState.readDuplicates {block : VaBlock} (st : BlockState block) (page : Nat) : Bool :=
  st.policyReadDuplicate || (st.readDuplicationAllowed && st.readDuplicatedPages page)

/-- One holding of the block lock by a worker: the state of the block, and how
`uvm_va_block_service_locked_populate` and `uvm_va_block_service_locked` end if they get to the
allocations. Both drop the lock if they ask for more processing. -/
structure Attempt (block : VaBlock) where
  state : BlockState block
  populate : NvStatus := .ok
  service : NvStatus := .ok

/-- The context with the region to be serviced. -/
structure ServiceContext extends ServiceBlockContext where
  region : Nat × Nat

/-! ## Prefetch hints -/

/-- The processor of a mask that holds only one. -/
def soleProcessor (mask : Nat → Bool) : Option Nat :=
  match (List.range uvmIdMaxProcessors).filter mask with
  | [proc] => some proc
  | _ => none

def VaBlock.regionFromMask (block : VaBlock) (mask : Nat → Bool) : Nat × Nat :=
  spanBelow mask block.numCpuPages

section Model

variable {block : VaBlock}

/-- A page of the hint: a fake access type, and the read-duplicate mask. -/
def BlockState.hintPage (st : BlockState block) (ctx : ServiceBlockContext) (page : Nat) :
    ServiceBlockContext :=
  let ctx := ctx.setAccessType page .prefetch
  if st.readDuplicates page then ctx.readDuplicatePage page else ctx

def BlockState.hintPages (st : BlockState block) (ctx : ServiceBlockContext) (xs : List Nat) :
    ServiceBlockContext :=
  xs.foldl st.hintPage ctx

def getPrefetchHint (st : BlockState block) (c : ServiceContext) : ServiceContext :=
  match soleProcessor c.residentProcessors with
  -- only migrations to a single processor are considered
  | none => c
  | some proc =>
    match st.prefetchHint proc (c.newResidency proc) c.region with
    | none => c
    | some hint =>
      let ctx := st.hintPages c.toServiceBlockContext
        ((List.range block.numCpuPages).filter hint)
      let mask := fun page => ctx.newResidency proc page || hint page
      { ctx with
        newResidency := update ctx.newResidency proc mask
        region := block.regionFromMask mask }

/-! ## The calls under the lock

The loops run alike on contexts and on what stands for them below, so they take the state they
work on, with what they do to it, as parameters. -/

section Loops

variable {σ : Type*} (supported : σ → Bool) (hint : BlockState block → σ → σ)

/-- `UVM_VA_BLOCK_RETRY_LOCKED` around `uvm_va_block_service_locked`: the last call, with the state
of the block and what the call works with, if there is a last one. -/
def retryService : List (Attempt block) → σ → Option (BlockState block × σ)
  | [], _ => none
  | a :: attempts, s =>
    let s := hint a.state s
    if a.service = .errMoreProcessingRequired then retryService attempts s else some (a.state, s)

/-- `UVM_VA_BLOCK_RETRY_LOCKED` around `uvm_va_block_service_locked_populate`, and the calls of
`uvm_va_block_service_locked` that follow if populating is not supported. -/
def retryPopulate : List (Attempt block) → σ → Option (BlockState block × σ)
  | [], _ => none
  | a :: attempts, s =>
    if supported s then
      let s := hint a.state s
      if a.populate = .errMoreProcessingRequired then retryPopulate attempts s
      -- the lock is held from here on to the next call
      else if a.populate = .errNotSupported then retryService hint (a :: attempts) s
      else none
    else retryService hint (a :: attempts) s

/-- The calls that `service_block_faults_kthread` makes, with `async_copy_map_enabled_for_item` as
a parameter. -/
def retryCalls (async : Bool) : List (Attempt block) → σ → Option (BlockState block × σ) :=
  if async then retryPopulate supported hint else retryService hint

variable {supported hint} {τ : Type*} {supported' : τ → Bool} {hint' : BlockState block → τ → τ}
  {R : σ → τ → Prop}

section

variable {s s' : σ} {t : τ} {st : BlockState block}
  (hhint : ∀ st s t, R s t → R (hint st s) (hint' st t))
include hhint

theorem retryService_related {attempts : List (Attempt block)} (h : R s t)
    (hlast : retryService hint attempts s = some (st, s')) :
    ∃ t', retryService hint' attempts t = some (st, t') ∧ R s' t' := by
  induction attempts generalizing s t with
  | nil => cases hlast
  | cons a attempts ih =>
    -- one hint keeps the relation; the rest of the attempts by induction
    have hstep := hhint a.state s t h
    rw [retryService] at hlast ⊢
    split at hlast
    next hmore =>
      rw [if_pos hmore]
      exact ih hstep hlast
    next hmore =>
      rw [if_neg hmore]
      obtain ⟨rfl, rfl⟩ := Prod.mk.inj (Option.some.inj hlast)
      exact ⟨_, rfl, hstep⟩

theorem retryCalls_related (hsupported : ∀ s t, R s t → supported s = supported' t) {async : Bool}
    {attempts : List (Attempt block)} (h : R s t)
    (hlast : retryCalls supported hint async attempts s = some (st, s')) :
    ∃ t', retryCalls supported' hint' async attempts t = some (st, t') ∧ R s' t' := by
  cases async with
  | false => exact retryService_related hhint h hlast
  | true =>
    show ∃ t', retryPopulate supported' hint' attempts t = some (st, t') ∧ R s' t'
    replace hlast : retryPopulate supported hint attempts s = some (st, s') := hlast
    induction attempts generalizing s t with
    | nil => cases hlast
    | cons a attempts ih =>
      -- both populate, or both go over to the plain service
      rw [retryPopulate, ← hsupported s t h]
      rw [retryPopulate] at hlast
      split at hlast
      next hsup =>
        have hstep := hhint a.state s t h
        rw [if_pos hsup]
        split at hlast
        next hmore =>
          rw [if_pos hmore]
          exact ih hstep hlast
        next hmore =>
          rw [if_neg hmore]
          split at hlast
          next hnot =>
            rw [if_pos hnot]
            exact retryService_related hhint hstep hlast
          next => cases hlast
      next hsup =>
        rw [if_neg hsup]
        exact retryService_related hhint h hlast

end

end Loops

/-- `uvm_va_block_service_locked_populate` takes contexts with one residency and without
read duplication. -/
def ServiceContext.populateSupported (c : ServiceContext) : Bool :=
  (soleProcessor c.residentProcessors).isSome && c.readDuplicateCount = 0

variable {batch : ServiceBatch} (sl : BlockSlice block batch)

/-- The scan of `service_block_faults_kthread`, with the region if there is a page to service. -/
def scan (ctx : ServiceBlockContext) (st : BlockState block) : Option ServiceContext :=
  let k := serviceBlockFaultsKthread st.answers block batch ctx sl.first sl.numFaults
  k.region.map fun region => { k.ctx with region := region }

/-- The last call of `uvm_va_block_service_locked` for the slice: the state of the block, and the
context it makes copies and mappings from. The first attempt holds the lock since the scan. -/
def lastAttempt (ctx : ServiceBlockContext) (async : Bool) :
    List (Attempt block) → Option (BlockState block × ServiceContext)
  | [] => none
  | a :: attempts =>
    (scan sl ctx a.state).bind
      (retryCalls ServiceContext.populateSupported getPrefetchHint async (a :: attempts))

/-- The context that a new scan of the slice would give a call, if there is one. -/
def freshAttempt (ctx : ServiceBlockContext) (st : BlockState block) : Option ServiceContext :=
  (scan sl ctx st).map (getPrefetchHint st)

end Model

/-- The contexts give the same residency masks, region, access types and read-duplicate mask. -/
structure SameWork (c f : ServiceContext) : Prop where
  residency : ∀ proc page, c.inResidency proc page = f.inResidency proc page
  region : c.region = f.region
  accessType : ∀ proc page, c.inResidency proc page → c.accessType page = f.accessType page
  readDuplicated : ∀ page, c.isReadDuplicated page = f.isReadDuplicated page

theorem SameWork.symm {c f : ServiceContext} (h : SameWork c f) : SameWork f c where
  residency := fun proc page => (h.residency proc page).symm
  region := h.region.symm
  accessType := fun proc page hpage =>
    (h.accessType proc page ((h.residency proc page).trans hpage)).symm
  readDuplicated := fun page => (h.readDuplicated page).symm

/-! ## Plans -/

structure PageWork where
  proc : Nat
  access : AccessType
  readDuplicate : Bool
  deriving DecidableEq, Repr

abbrev Plan := Nat → Option PageWork

def PageVisit.work (x : PageVisit) : PageWork := ⟨x.proc, x.access, x.readDuplicate⟩

namespace Plan

def pages (w : Plan) (page : Nat) : Bool := (w page).isSome

def processors (block : VaBlock) (w : Plan) (proc : Nat) : Bool :=
  (List.range block.numCpuPages).any fun page => (w page).any fun x => x.proc = proc

def readDuplicates (block : VaBlock) (w : Plan) : Bool :=
  (List.range block.numCpuPages).any fun page => (w page).any PageWork.readDuplicate

def extend (w : Plan) (proc : Nat) (hint readDuplicates : Nat → Bool) : Plan := fun page =>
  (w page).or (if hint page then some ⟨proc, .prefetch, readDuplicates page⟩ else none)

/-- A plan is extended by the hint that it is given, if all its pages go to one processor. -/
def grow {block : VaBlock} (st : BlockState block) (w : Plan) : Plan :=
  match soleProcessor (w.processors block) with
  | none => w
  | some proc =>
    match st.prefetchHint proc w.pages (block.regionFromMask w.pages) with
    | none => w
    | some hint => w.extend proc hint st.readDuplicates

def populateSupported (block : VaBlock) (w : Plan) : Bool :=
  (soleProcessor (w.processors block)).isSome && !w.readDuplicates block

end Plan

section Requests

variable {block : VaBlock} {batch : ServiceBatch} (sl : BlockSlice block batch)

/-- The worker services the fault at place `j` of the slice on that state of the block. -/
def BlockSlice.serves (st : BlockState block) (j : Nat) : Bool :=
  kthreadServes st.answers batch.entries (sl.first + j)

/-- The page of the fault at place `j` of the slice, and what the worker enters for it. -/
def BlockSlice.visit (st : BlockState block) (j : Nat) : PageVisit :=
  pageVisit st.answers block batch.entries (sl.first + j)

def BlockSlice.visited (st : BlockState block) : List PageVisit :=
  visits st.answers block batch.entries sl.first (sl.serves st) sl.numFaults

/-- What the faults of the slice ask for on that state of the block. -/
def BlockSlice.requests (st : BlockState block) : Plan := fun page =>
  ((sl.visited st).find? fun x => x.page = page).map PageVisit.work

/-- What the faults ask for on the first state, with the hints of all attempts. -/
def BlockSlice.collected (async : Bool) : List (Attempt block) → Plan
  | [] => fun _ => none
  | a :: attempts =>
    match retryCalls (Plan.populateSupported block) Plan.grow async (a :: attempts)
        (sl.requests a.state) with
    | none => fun _ => none
    | some (_, w) => w

/-- What the faults ask for on that state, with the hint given for it. -/
def BlockSlice.hinted (st : BlockState block) : Plan := (sl.requests st).grow st

/-- The retries make no difference, `first` and `last` being the state of the block at the scan
and at the last attempt, and `collected` the requests at the scan with all hints. -/
structure Undisturbed (first last : BlockState block) (collected : Plan) : Prop where
  /-- A fault that is still to be serviced gets the same residency. -/
  kept : ∀ j < sl.numFaults, sl.serves first j → sl.serves last j →
    first.answers.selectResidency (sl.first + j) (batch.entries (sl.first + j)).accessTypeMask =
      last.answers.selectResidency (sl.first + j) (batch.entries (sl.first + j)).accessTypeMask
  /-- One that no longer is asked for what the last hint adds. -/
  settled : ∀ j < sl.numFaults, sl.serves first j → sl.serves last j = false →
    sl.hinted last (sl.visit first j).page = some (sl.visit first j).work
  /-- One that only now is asks for what some hint has added. -/
  arisen : ∀ j < sl.numFaults, sl.serves first j = false → sl.serves last j →
    collected (sl.visit last j).page = some (sl.visit last j).work
  /-- Pages without such a fault are hinted in the end if they are hinted anew. -/
  hinted : ∀ page, sl.requests first page = none → sl.requests last page = none →
    collected page = sl.hinted last page

end Requests

/-! ## Contexts and plans -/

structure Represents (block : VaBlock) (c : ServiceContext) (w : Plan) : Prop where
  pages_lt : ∀ page x, w page = some x → page < block.numCpuPages
  procs_lt : ∀ page x, w page = some x → x.proc < uvmIdMaxProcessors
  processors : c.residentProcessors = w.processors block
  residency : ∀ proc page, c.inResidency proc page = (w page).any fun x => x.proc = proc
  accessType : ∀ page x, w page = some x → c.accessType page = x.access
  readDuplicated : ∀ page, c.isReadDuplicated page = (w page).any PageWork.readDuplicate
  readDuplicateCount : decide (0 < c.readDuplicateCount) = w.readDuplicates block
  region : c.region = block.regionFromMask w.pages

namespace Plan

variable {block : VaBlock} {w : Plan}

section

variable (hlt : ∀ page x, w page = some x → page < block.numCpuPages)
include hlt

theorem any_pages_iff (p : PageWork → Bool) :
    ((List.range block.numCpuPages).any fun page => (w page).any p) ↔
      ∃ page x, w page = some x ∧ p x := by
  simp only [List.any_eq_true, List.mem_range, Option.any_eq_true]
  constructor
  · rintro ⟨page, -, x, hx, hp⟩
    exact ⟨page, x, hx, hp⟩
  · rintro ⟨page, x, hx, hp⟩
    exact ⟨page, hlt page x hx, x, hx, hp⟩

theorem processors_iff {proc : Nat} :
    w.processors block proc ↔ ∃ page x, w page = some x ∧ x.proc = proc := by
  have hany := any_pages_iff hlt fun x => x.proc = proc
  simp only [decide_eq_true_eq] at hany
  exact hany

theorem readDuplicates_iff : w.readDuplicates block ↔ ∃ page x, w page = some x ∧ x.readDuplicate :=
  any_pages_iff hlt PageWork.readDuplicate

end

theorem extend_eq_some {proc page : Nat} {hint readDuplicates : Nat → Bool} {x : PageWork} :
    w.extend proc hint readDuplicates page = some x ↔
      w page = some x ∨
        w page = none ∧ hint page = true ∧ x = ⟨proc, .prefetch, readDuplicates page⟩ := by
  cases hw : w page with
  | some y => simp [extend, hw]
  | none =>
    cases hhint : hint page with
    | false => simp [extend, hw, hhint]
    | true =>
      simp only [extend, hw, hhint, if_true, Option.none_or, Option.some.injEq, reduceCtorEq,
        true_and, false_or]
      exact eq_comm

theorem grow_eq_some {st : BlockState block} {page : Nat} {x : PageWork} (h : w page = some x) :
    w.grow st page = some x := by
  unfold grow
  cases soleProcessor (w.processors block) with
  | none => exact h
  | some proc =>
    dsimp only
    cases st.prefetchHint proc w.pages (block.regionFromMask w.pages) with
    | none => exact h
    | some hint => exact extend_eq_some.2 (.inl h)

end Plan

theorem soleProcessor_eq_some {mask : Nat → Bool} {proc : Nat} (h : soleProcessor mask = some proc) :
    proc < uvmIdMaxProcessors ∧ mask proc = true ∧ ∀ q < uvmIdMaxProcessors, mask q → q = proc := by
  unfold soleProcessor at h
  split at h
  next proc' hfilter =>
    obtain rfl : proc' = proc := Option.some.inj h
    have hmem : ∀ q, q ∈ (List.range uvmIdMaxProcessors).filter mask ↔ q = proc' := by
      intro q
      rw [hfilter, List.mem_singleton]
    obtain ⟨hlt, hset⟩ := List.mem_filter.1 ((hmem proc').2 rfl)
    refine ⟨List.mem_range.1 hlt, hset, fun q hq hmask => ?_⟩
    exact (hmem q).1 (List.mem_filter.2 ⟨List.mem_range.2 hq, hmask⟩)
  next => cases h

namespace BlockState

variable {block : VaBlock} (st : BlockState block) (ctx : ServiceBlockContext) (xs : List Nat)
  (q page : Nat)

theorem hintPage_masks : (st.hintPage ctx q).residentProcessors = ctx.residentProcessors ∧
    (st.hintPage ctx q).newResidency = ctx.newResidency := by
  unfold hintPage
  split <;> exact ⟨rfl, rfl⟩

theorem hintPage_accessType : (st.hintPage ctx q).accessType page =
    if page = q then .prefetch else ctx.accessType page := by
  have hset : (ctx.setAccessType q .prefetch).accessType page =
      if page = q then .prefetch else ctx.accessType page := update_apply _ _ _ _
  unfold hintPage
  split <;> exact hset

theorem hintPage_isReadDuplicated : (st.hintPage ctx q).isReadDuplicated page =
    (decide (page = q) && st.readDuplicates page || ctx.isReadDuplicated page) := by
  have hset : (ctx.setAccessType q .prefetch).isReadDuplicated page = ctx.isReadDuplicated page := rfl
  by_cases hq : page = q
  · subst hq
    cases hdup : st.readDuplicates page <;>
      simp [hintPage, hdup, hset, isReadDuplicated_readDuplicatePage]
  · cases hdup : st.readDuplicates q <;>
      simp [hintPage, hdup, hset, hq, Ne.symm hq, isReadDuplicated_readDuplicatePage]

theorem hintPage_readDuplicateCount : decide (0 < (st.hintPage ctx q).readDuplicateCount) =
    (st.readDuplicates q || decide (0 < ctx.readDuplicateCount)) := by
  cases hdup : st.readDuplicates q
  · simp [hintPage, hdup, setAccessType]
  · simp [hintPage, hdup, readDuplicatePage]

theorem hintPages_masks : (st.hintPages ctx xs).residentProcessors = ctx.residentProcessors ∧
    (st.hintPages ctx xs).newResidency = ctx.newResidency := by
  induction xs generalizing ctx with
  | nil => exact ⟨rfl, rfl⟩
  | cons x xs ih =>
    obtain ⟨hproc, hres⟩ := ih (st.hintPage ctx x)
    obtain ⟨hproc', hres'⟩ := st.hintPage_masks ctx x
    exact ⟨hproc.trans hproc', hres.trans hres'⟩

theorem hintPages_accessType : (st.hintPages ctx xs).accessType page =
    if page ∈ xs then .prefetch else ctx.accessType page := by
  induction xs generalizing ctx with
  | nil => simp [hintPages]
  | cons x xs ih =>
    have hrest := ih (st.hintPage ctx x)
    rw [hintPage_accessType] at hrest
    by_cases hx : page = x <;> by_cases hxs : page ∈ xs <;>
      simpa [hintPages, hx, hxs] using hrest

theorem hintPages_isReadDuplicated : (st.hintPages ctx xs).isReadDuplicated page =
    (decide (page ∈ xs) && st.readDuplicates page || ctx.isReadDuplicated page) := by
  induction xs generalizing ctx with
  | nil => simp [hintPages]
  | cons x xs ih =>
    have hrest := ih (st.hintPage ctx x)
    rw [hintPage_isReadDuplicated, ← Bool.or_assoc, ← Bool.and_or_distrib_right] at hrest
    simpa [hintPages, List.mem_cons, Bool.or_comm] using hrest

theorem hintPages_readDuplicateCount : decide (0 < (st.hintPages ctx xs).readDuplicateCount) =
    (xs.any st.readDuplicates || decide (0 < ctx.readDuplicateCount)) :=
  @foldl_or _ _ (fun ctx => decide (0 < ctx.readDuplicateCount)) _ _
    st.hintPage_readDuplicateCount xs ctx

end BlockState

namespace Represents

variable {block : VaBlock} {c f : ServiceContext} {w v : Plan}

section

variable (h : Represents block c w)
include h

theorem populateSupported : c.populateSupported = w.populateSupported block := by
  rw [ServiceContext.populateSupported, Plan.populateSupported, h.processors,
    ← h.readDuplicateCount]
  congr 1
  cases c.readDuplicateCount <;> simp

theorem newResidency {proc : Nat} (hsole : soleProcessor (w.processors block) = some proc) :
    c.newResidency proc = w.pages := by
  obtain ⟨-, hset, honly⟩ := soleProcessor_eq_some hsole
  funext page
  have hres := h.residency proc page
  rw [inResidency, h.processors, hset, Bool.true_and] at hres
  rw [hres, Plan.pages]
  cases hw : w page with
  | none => rfl
  | some x =>
    have hproc : w.processors block x.proc = true :=
      (Plan.processors_iff h.pages_lt).2 ⟨page, x, hw, rfl⟩
    simp [honly x.proc (h.procs_lt page x hw) hproc]

theorem extend {st : BlockState block} {proc : Nat} {hint : Nat → Bool}
    (hsole : soleProcessor (w.processors block) = some proc)
    (hlt : ∀ page, hint page → page < block.numCpuPages)
    (hnew : ∀ page, hint page → w.pages page = false) {ctx : ServiceBlockContext}
    (hctx : ctx = st.hintPages c.toServiceBlockContext ((List.range block.numCpuPages).filter hint))
    {mask : Nat → Bool} (hmask : mask = fun page => w.pages page || hint page) :
    Represents block
      { ctx with
        newResidency := update ctx.newResidency proc mask
        region := block.regionFromMask mask }
      (w.extend proc hint st.readDuplicates) := by
  obtain ⟨hproc, hset, -⟩ := soleProcessor_eq_some hsole
  obtain ⟨hprocs, hres⟩ := st.hintPages_masks c.toServiceBlockContext
    ((List.range block.numCpuPages).filter hint)
  rw [← hctx] at hprocs hres
  have hmem : ∀ page, page ∈ (List.range block.numCpuPages).filter hint ↔ hint page = true := by
    intro page
    rw [List.mem_filter, List.mem_range]
    exact ⟨fun hpage => hpage.2, fun hpage => ⟨hlt page hpage, hpage⟩⟩
  have hnone : ∀ page, hint page = true → w page = none := by
    intro page hpage
    simpa [Plan.pages] using hnew page hpage
  have hpages : ∀ page x, w.extend proc hint st.readDuplicates page = some x →
      page < block.numCpuPages := by
    intro page x hx
    rcases Plan.extend_eq_some.1 hx with hw | ⟨-, hpage, -⟩
    · exact h.pages_lt page x hw
    · exact hlt page hpage
  refine ⟨hpages, ?_, ?_, ?_, ?_, ?_, ?_, ?_⟩
  · intro page x hx
    rcases Plan.extend_eq_some.1 hx with hw | ⟨-, -, rfl⟩
    · exact h.procs_lt page x hw
    · exact hproc
  -- the hint brings no other processor
  · show ctx.residentProcessors = _
    rw [hprocs, h.processors]
    funext q
    rw [Bool.eq_iff_iff, Plan.processors_iff h.pages_lt, Plan.processors_iff hpages]
    constructor
    · rintro ⟨page, x, hx, hq⟩
      exact ⟨page, x, Plan.extend_eq_some.2 (.inl hx), hq⟩
    · rintro ⟨page, x, hx, hq⟩
      rcases Plan.extend_eq_some.1 hx with hw | ⟨-, -, rfl⟩
      · exact ⟨page, x, hw, hq⟩
      · obtain rfl : proc = q := hq
        exact (Plan.processors_iff h.pages_lt).1 hset
  · intro q page
    have hold := h.residency q page
    show (ctx.residentProcessors q && update ctx.newResidency proc mask q page) = _
    rw [inResidency] at hold
    rw [hprocs, hres]
    by_cases hq : q = proc
    · subst hq
      rw [update_self, h.processors, hset, Bool.true_and, hmask]
      rw [h.processors, hset, Bool.true_and, h.newResidency hsole] at hold
      cases hpage : hint page with
      | true => simp [Plan.extend, hnone page hpage, hpage]
      | false => simpa [Plan.extend, hpage] using hold
    · rw [update_of_ne hq, hold]
      cases hpage : hint page with
      | true => simp [Plan.extend, hnone page hpage, hpage, Ne.symm hq]
      | false => simp [Plan.extend, hpage]
  · intro page x hx
    show ctx.accessType page = x.access
    rw [hctx, BlockState.hintPages_accessType]
    rcases Plan.extend_eq_some.1 hx with hw | ⟨-, hpage, rfl⟩
    · have hnot : ¬ hint page = true := fun hpage => by simp [hnone page hpage] at hw
      rw [if_neg (fun hin => hnot ((hmem page).1 hin))]
      exact h.accessType page x hw
    · rw [if_pos ((hmem page).2 hpage)]
  · intro page
    show ctx.isReadDuplicated page = _
    rw [hctx, BlockState.hintPages_isReadDuplicated, h.readDuplicated page]
    simp only [hmem]
    cases hpage : hint page with
    | true => simp [Plan.extend, hnone page hpage, hpage]
    | false => simp [Plan.extend, hpage]
  · show decide (0 < ctx.readDuplicateCount) = _
    rw [hctx, BlockState.hintPages_readDuplicateCount, h.readDuplicateCount, Bool.eq_iff_iff,
      Bool.or_eq_true, Plan.readDuplicates_iff h.pages_lt, Plan.readDuplicates_iff hpages,
      List.any_eq_true]
    constructor
    · rintro (⟨page, hpage, hdup⟩ | ⟨page, x, hx, hdup⟩)
      · have hp := (hmem page).1 hpage
        exact ⟨page, _, Plan.extend_eq_some.2 (.inr ⟨hnone page hp, hp, rfl⟩), hdup⟩
      · exact ⟨page, x, Plan.extend_eq_some.2 (.inl hx), hdup⟩
    · rintro ⟨page, x, hx, hdup⟩
      rcases Plan.extend_eq_some.1 hx with hw | ⟨-, hp, rfl⟩
      · exact .inr ⟨page, x, hw, hdup⟩
      · exact .inl ⟨page, (hmem page).2 hp, hdup⟩
  · show block.regionFromMask mask = _
    congr 1
    funext page
    cases hw : w page <;> cases hp : hint page <;>
      simp [hmask, Plan.pages, Plan.extend, hw, hp]

/-- A hint on the context is a hint on the plan. -/
theorem getPrefetchHint (st : BlockState block) :
    Represents block (getPrefetchHint st c) (w.grow st) := by
  unfold FaultMesh.getPrefetchHint Plan.grow
  rw [h.processors]
  -- hints are only asked for when one processor gets all pages
  cases hsole : soleProcessor (w.processors block) with
  | none => exact h
  | some proc =>
    dsimp only
    rw [h.newResidency hsole, h.region]
    cases hhint : st.prefetchHint proc w.pages (block.regionFromMask w.pages) with
    | none => exact h
    | some hint =>
      obtain ⟨-, hres⟩ := st.hintPages_masks c.toServiceBlockContext
        ((List.range block.numCpuPages).filter hint)
      exact h.extend hsole (st.hint_lt _ _ _ _ hhint) (st.hint_new _ _ _ _ hhint) rfl
        (by rw [hres, h.newResidency hsole])

theorem eq_some_of_sameWork (h' : Represents block f v) (hsame : SameWork c f) {page : Nat}
    {x : PageWork} (hx : w page = some x) : v page = some x := by
  have hres : c.inResidency x.proc page = true := by
    rw [h.residency, hx]
    simp
  have hres' := hres
  rw [hsame.residency, h'.residency, Option.any_eq_true] at hres'
  obtain ⟨y, hy, hproc⟩ := hres'
  have haccess : x.access = y.access := by
    rw [← h.accessType page x hx, ← h'.accessType page y hy]
    exact hsame.accessType x.proc page hres
  have hdup := hsame.readDuplicated page
  rw [h.readDuplicated, h'.readDuplicated, hx, hy] at hdup
  have hwork : y = x := by
    cases x
    cases y
    simp_all
  rw [hy, hwork]

theorem sameWork_iff (h' : Represents block f v) : SameWork c f ↔ w = v := by
  constructor
  · intro hsame
    funext page
    apply Option.ext
    intro x
    exact ⟨h.eq_some_of_sameWork h' hsame, h'.eq_some_of_sameWork h hsame.symm⟩
  · rintro rfl
    refine ⟨fun proc page => ?_, ?_, fun proc page hpage => ?_, fun page => ?_⟩
    · rw [h.residency, h'.residency]
    · rw [h.region, h'.region]
    · rw [h.residency, Option.any_eq_true] at hpage
      obtain ⟨x, hx, -⟩ := hpage
      rw [h.accessType page x hx, h'.accessType page x hx]
    · rw [h.readDuplicated, h'.readDuplicated]

end

end Represents

/-! ## The scan -/

namespace Tally

variable (t : Tally) (x : PageVisit) (xs : List PageVisit) (proc : Nat)

theorem residentProcessors_enter : (t.enter x).ctx.residentProcessors proc =
    (decide (x.proc = proc) || t.ctx.residentProcessors proc) := by
  have hupdate : (t.enter x).ctx.residentProcessors =
      update t.ctx.residentProcessors x.proc true := by
    cases hpin : x.pin <;> cases hdup : x.readDuplicate <;> simp only [enter, hpin, hdup] <;> rfl
  rw [hupdate, update_apply]
  by_cases hproc : proc = x.proc
  · simp [hproc]
  · simp [hproc, Ne.symm hproc]

theorem residentProcessors_enterAll : (t.enterAll xs).ctx.residentProcessors proc =
    ((xs.any fun x => x.proc = proc) || t.ctx.residentProcessors proc) :=
  @foldl_or _ _ (·.ctx.residentProcessors proc) _ _ (residentProcessors_enter · · proc) xs t

theorem readDuplicateCount_enterAll : decide (0 < (t.enterAll xs).ctx.readDuplicateCount) =
    (xs.any PageVisit.readDuplicate || decide (0 < t.ctx.readDuplicateCount)) := by
  refine @foldl_or _ _ (fun t : Tally => decide (0 < t.ctx.readDuplicateCount)) _ _ (fun t x => ?_) xs t
  cases hpin : x.pin <;> cases hdup : x.readDuplicate <;>
    simp [enter, hpin, hdup, setAccessType, readDuplicatePage, enterResidency, pinPage]

variable {t xs} in
theorem accessType_enterAll {page : Nat} {a : AccessType}
    (h : t.ctx.accessType page = a ∨ ∃ x ∈ xs, x.page = page)
    (hall : ∀ x ∈ xs, x.page = page → x.access = a) : (t.enterAll xs).ctx.accessType page = a := by
  induction xs generalizing t with
  | nil =>
    rcases h with h | ⟨x, hx, -⟩
    · exact h
    · cases hx
  | cons x xs ih =>
    show ((t.enter x).enterAll xs).ctx.accessType page = a
    refine ih ?_ fun y hy => hall y (List.mem_cons_of_mem x hy)
    rw [accessType_enter]
    by_cases hpage : x.page = page
    · left
      rw [if_pos hpage, hall x List.mem_cons_self hpage]
    · rw [if_neg hpage]
      rcases h with h | ⟨y, hy, hy'⟩
      · exact .inl h
      · rcases List.mem_cons.1 hy with rfl | hy
        · exact absurd hy' hpage
        · exact .inr ⟨y, hy, hy'⟩

theorem bounds_enterAll :
    ((t.enterAll xs).firstPageIndex ≤ t.firstPageIndex ∧
        t.lastPageIndex ≤ (t.enterAll xs).lastPageIndex) ∧
      (∀ x ∈ xs, (t.enterAll xs).firstPageIndex ≤ x.page ∧
        x.page ≤ (t.enterAll xs).lastPageIndex) ∧
      ((t.enterAll xs).firstPageIndex = t.firstPageIndex ∨
        ∃ x ∈ xs, x.page = (t.enterAll xs).firstPageIndex) ∧
      ((t.enterAll xs).lastPageIndex = t.lastPageIndex ∨
        ∃ x ∈ xs, x.page = (t.enterAll xs).lastPageIndex) := by
  induction xs generalizing t with
  | nil => simp [enterAll]
  | cons x xs ih =>
    obtain ⟨⟨hfirst, hlast⟩, hin, hfirst', hlast'⟩ := ih (t.enter x)
    have hf : (t.enter x).firstPageIndex = min x.page t.firstPageIndex := by
      simp only [enter]
      split <;> omega
    have hl : (t.enter x).lastPageIndex = max x.page t.lastPageIndex := by
      simp only [enter]
      split <;> omega
    have hcons : t.enterAll (x :: xs) = (t.enter x).enterAll xs := rfl
    rw [hcons]
    refine ⟨⟨by omega, by omega⟩, ?_, ?_, ?_⟩
    · intro y hy
      rcases List.mem_cons.1 hy with rfl | hy
      · omega
      · exact hin y hy
    · rcases hfirst' with heq | ⟨y, hy, hpage⟩
      · rw [heq, hf]
        rcases Nat.le_total x.page t.firstPageIndex with hle | hle
        · exact .inr ⟨x, List.mem_cons_self, by omega⟩
        · exact .inl (by omega)
      · exact .inr ⟨y, List.mem_cons_of_mem x hy, hpage⟩
    · rcases hlast' with heq | ⟨y, hy, hpage⟩
      · rw [heq, hl]
        rcases Nat.le_total x.page t.lastPageIndex with hle | hle
        · exact .inl (by omega)
        · exact .inr ⟨x, List.mem_cons_self, by omega⟩
      · exact .inr ⟨y, List.mem_cons_of_mem x hy, hpage⟩

end Tally

namespace BlockSlice

variable {block : VaBlock} {batch : ServiceBatch} (sl : BlockSlice block batch)
  {st : BlockState block} {i j page : Nat}

theorem visit_page_lt (hj : j < sl.numFaults) : (sl.visit st j).page < block.numCpuPages := by
  have hlast := sl.le_last j hj
  apply Nat.lt_succ_of_le
  exact Nat.div_le_div_right (Nat.sub_le_sub_right hlast block.start)

theorem mem_visited {x : PageVisit} :
    x ∈ sl.visited st ↔ ∃ j < sl.numFaults, sl.serves st j ∧ sl.visit st j = x :=
  mem_visits

theorem serves_unique {st' : BlockState block} (hi : i < sl.numFaults) (hj : j < sl.numFaults)
    (hsi : sl.serves st i) (hsj : sl.serves st' j)
    (hpage : (sl.visit st i).page = (sl.visit st' j).page) : i = j :=
  sl.leads_unique hi hj (kthreadServes_leads sl i hi hsi) (kthreadServes_leads sl j hj hsj) hpage

theorem requests_eq_some {x : PageWork} : sl.requests st page = some x ↔
    ∃ j < sl.numFaults, sl.serves st j ∧ (sl.visit st j).page = page ∧ (sl.visit st j).work = x := by
  unfold requests
  rw [Option.map_eq_some_iff]
  constructor
  · rintro ⟨y, hfind, hwork⟩
    obtain ⟨j, hj, hserves, hy⟩ := sl.mem_visited.1 (List.mem_of_find?_eq_some hfind)
    have hpage : y.page = page := by simpa using List.find?_some hfind
    exact ⟨j, hj, hserves, (congrArg PageVisit.page hy).trans hpage,
      (congrArg PageVisit.work hy).trans hwork⟩
  · rintro ⟨j, hj, hserves, hpage, hwork⟩
    have hmem := sl.mem_visited.2 ⟨j, hj, hserves, rfl⟩
    have hsome : ((sl.visited st).find? fun x => x.page = page).isSome = true := by
      rw [List.find?_isSome]
      exact ⟨_, hmem, decide_eq_true hpage⟩
    obtain ⟨y, hfind⟩ := Option.isSome_iff_exists.1 hsome
    obtain ⟨i, hi, hserves', hy⟩ := sl.mem_visited.1 (List.mem_of_find?_eq_some hfind)
    have hpage' : y.page = page := by simpa using List.find?_some hfind
    -- the visit found is the one of the fault, as its page has no other
    have heq : i = j := sl.serves_unique hi hj hserves' hserves
      ((congrArg PageVisit.page hy).trans (hpage'.trans hpage.symm))
    refine ⟨y, hfind, ?_⟩
    rw [← hwork, ← hy, heq]

theorem requests_eq_some_iff {x : PageWork} :
    sl.requests st page = some x ↔ ∃ y ∈ sl.visited st, y.page = page ∧ y.work = x := by
  simp [requests_eq_some, mem_visited, and_assoc]

theorem requests_pages_lt (page : Nat) (x : PageWork) (h : sl.requests st page = some x) :
    page < block.numCpuPages := by
  obtain ⟨j, hj, -, rfl, -⟩ := sl.requests_eq_some.1 h
  exact sl.visit_page_lt hj

theorem any_visits (p : PageWork → Bool) :
    ((sl.visited st).any
        fun x => p x.work && decide (x.page = page)) = (sl.requests st page).any p := by
  rw [Bool.eq_iff_iff, List.any_eq_true, Option.any_eq_true]
  simp only [Bool.and_eq_true, decide_eq_true_eq]
  constructor
  · rintro ⟨x, hx, hp, hpage⟩
    exact ⟨_, sl.requests_eq_some_iff.2 ⟨x, hx, hpage, rfl⟩, hp⟩
  · rintro ⟨w, hw, hp⟩
    obtain ⟨x, hx, hpage, rfl⟩ := sl.requests_eq_some_iff.1 hw
    exact ⟨x, hx, hp, hpage⟩

theorem exists_visited_iff (p : PageWork → Prop) :
    (∃ x ∈ sl.visited st, p x.work) ↔ ∃ page x, sl.requests st page = some x ∧ p x := by
  constructor
  · rintro ⟨x, hx, hp⟩
    exact ⟨_, _, sl.requests_eq_some_iff.2 ⟨x, hx, rfl, rfl⟩, hp⟩
  · rintro ⟨page, w, hw, hp⟩
    obtain ⟨x, hx, -, rfl⟩ := sl.requests_eq_some_iff.1 hw
    exact ⟨x, hx, hp⟩

theorem tally_scan (st : BlockState block) (ctx : ServiceBlockContext) :
    (serviceBlockFaultsKthread st.answers block batch ctx sl.first sl.numFaults).tally =
      Tally.enterAll { ctx := { ctx.begin with numRetries := 0 } }
        (sl.visited st) :=
  @kthreadFaults_run st.answers block batch sl sl.numFaults 0 _ (Nat.zero_add _) _ rfl

end BlockSlice

section Scan

variable {block : VaBlock} {batch : ServiceBatch} (sl : BlockSlice block batch)
  {st : BlockState block} {ctx : ServiceBlockContext} {c : ServiceContext}

theorem scan_eq_some (h : scan sl ctx st = some c) :
    ∃ t : Tally, t = Tally.enterAll { ctx := { ctx.begin with numRetries := 0 } }
        (sl.visited st) ∧
      t.firstPageIndex ≤ t.lastPageIndex ∧
      c = { t.ctx with region := (t.firstPageIndex, t.lastPageIndex + 1) } := by
  refine ⟨_, sl.tally_scan st ctx, ?_⟩
  simp only [scan, KthreadLoop.region, Option.map_eq_some_iff] at h
  obtain ⟨region, hregion, rfl⟩ := h
  split at hregion
  next hle =>
    obtain rfl := Option.some.inj hregion
    exact ⟨hle, rfl⟩
  next => cases hregion

theorem scan_eq_none_iff : scan sl ctx st = none ↔ sl.visited st = [] := by
  have hbounds := @Tally.bounds_enterAll_le_iff { ctx := { ctx.begin with numRetries := 0 } }
    (sl.visited st) (show 0 < pagesPerUvmVaBlock by decide)
  rw [← sl.tally_scan st ctx, List.length_pos_iff] at hbounds
  simp only [scan, KthreadLoop.region, Option.map_eq_none_iff, ite_eq_right_iff, reduceCtorEq,
    imp_false]
  exact not_iff_comm.1 hbounds.symm

theorem exists_request (h : scan sl ctx st = some c) : ∃ page x, sl.requests st page = some x := by
  have hne : sl.visited st ≠ [] := by
    rw [ne_eq, ← scan_eq_none_iff sl, h]
    exact Option.some_ne_none c
  obtain ⟨x, hx⟩ := List.exists_mem_of_ne_nil _ hne
  exact ⟨_, _, sl.requests_eq_some_iff.2 ⟨x, hx, rfl, rfl⟩⟩

theorem region_scan (h : scan sl ctx st = some c) :
    c.region = block.regionFromMask (sl.requests st).pages := by
  obtain ⟨page₀, x₀, hx₀⟩ := exists_request sl h
  obtain ⟨t, ht, hle, rfl⟩ := scan_eq_some sl h
  obtain ⟨⟨hfirst, hlast⟩, hin, hfirst', hlast'⟩ := Tally.bounds_enterAll
    { ctx := { ctx.begin with numRetries := 0 } }
    (sl.visited st)
  rw [← ht] at hfirst hlast hin hfirst' hlast'
  have hset : (sl.requests st).pages page₀ = true := Option.isSome_iff_exists.2 ⟨x₀, hx₀⟩
  have hlt : ∀ page, (sl.requests st).pages page → page < block.numCpuPages := by
    intro page hpage
    obtain ⟨x, hx⟩ := Option.isSome_iff_exists.1 hpage
    exact sl.requests_pages_lt page x hx
  have hpages : ∀ x ∈ sl.visited st, (sl.requests st).pages x.page = true := fun x hx =>
    Option.isSome_iff_exists.2 ⟨_, sl.requests_eq_some_iff.2 ⟨x, hx, rfl, rfl⟩⟩
  have hbounds : ∀ page, (sl.requests st).pages page →
      t.firstPageIndex ≤ page ∧ page ≤ t.lastPageIndex := by
    intro page hpage
    obtain ⟨w, hw⟩ := Option.isSome_iff_exists.1 hpage
    obtain ⟨x, hx, rfl, -⟩ := sl.requests_eq_some_iff.1 hw
    exact hin x hx
  have hsmall := hlt page₀ hset
  have hinside := hbounds page₀ hset
  have hmax := block.numCpuPages_le
  apply Spans.eq _ (spans_spanBelow hset hlt)
  refine ⟨?_, ⟨_, rfl, ?_⟩, fun page hpage => ?_⟩
  · show (sl.requests st).pages t.firstPageIndex = true
    rcases hfirst' with heq | ⟨x, hx, hpage⟩
    -- the first page is below the bound the loop starts with
    · have hstart : t.firstPageIndex = pagesPerUvmVaBlock := heq
      omega
    · rw [← hpage]
      exact hpages x hx
  · rcases hlast' with heq | ⟨x, hx, hpage⟩
    · have hstart : t.lastPageIndex = 0 := heq
      have hzero : page₀ = t.lastPageIndex := by omega
      rw [← hzero]
      exact hset
    · rw [← hpage]
      exact hpages x hx
  · exact ⟨(hbounds page hpage).1, Nat.lt_succ_of_le (hbounds page hpage).2⟩

theorem scan_represents (h : scan sl ctx st = some c) : Represents block c (sl.requests st) := by
  have hregion := region_scan sl h
  obtain ⟨t, ht, -, rfl⟩ := scan_eq_some sl h
  refine ⟨sl.requests_pages_lt, ?_, ?_, ?_, ?_, ?_, ?_, hregion⟩
  · intro page x hx
    obtain ⟨j, -, -, -, rfl⟩ := sl.requests_eq_some.1 hx
    exact st.residency_lt _ _
  · show t.ctx.residentProcessors = _
    funext proc
    rw [ht, Tally.residentProcessors_enterAll, Bool.eq_iff_iff,
      Plan.processors_iff sl.requests_pages_lt]
    simp only [begin, Bool.or_false, List.any_eq_true, decide_eq_true_eq]
    exact sl.exists_visited_iff fun x => x.proc = proc
  · intro proc page
    show t.ctx.inResidency proc page = _
    rw [ht, Tally.inResidency_enterAll, ← sl.any_visits fun x => x.proc = proc]
    simp only [Bool.decide_and]
    exact Bool.or_false _
  · intro page x hx
    show t.ctx.accessType page = x.access
    obtain ⟨j, hj, hserves, hpage, rfl⟩ := sl.requests_eq_some.1 hx
    rw [ht]
    apply Tally.accessType_enterAll (.inr ⟨_, sl.mem_visited.2 ⟨j, hj, hserves, rfl⟩, hpage⟩)
    intro y hy hpage'
    obtain ⟨i, hi, hserves', rfl⟩ := sl.mem_visited.1 hy
    rw [sl.serves_unique hi hj hserves' hserves (hpage'.trans hpage.symm)]
    rfl
  · intro page
    show t.ctx.isReadDuplicated page = _
    rw [ht, Tally.isReadDuplicated_enterAll, ← sl.any_visits PageWork.readDuplicate]
    exact Bool.or_false _
  · show decide (0 < t.ctx.readDuplicateCount) = _
    rw [ht, Tally.readDuplicateCount_enterAll, Bool.eq_iff_iff,
      Plan.readDuplicates_iff sl.requests_pages_lt]
    simp only [begin, Nat.lt_irrefl, decide_false, Bool.or_false, List.any_eq_true]
    exact sl.exists_visited_iff fun x => x.readDuplicate = true

end Scan

/-! ## Main result -/

section Result

variable {block : VaBlock} {batch : ServiceBatch} (sl : BlockSlice block batch)

/-- No call takes away what was asked for before. -/
theorem retryCalls_grow_eq_some {async : Bool} {attempts : List (Attempt block)} {w w' : Plan}
    {st : BlockState block} {page : Nat} {x : PageWork}
    (hlast : retryCalls (Plan.populateSupported block) Plan.grow async attempts w = some (st, w'))
    (hx : w page = some x) : w' page = some x := by
  have hhint : ∀ (st : BlockState block) (w v : Plan), (w = v ∧ w page = some x) →
      (w.grow st = v.grow st ∧ w.grow st page = some x) := by
    rintro st w _ ⟨rfl, hw⟩
    exact ⟨rfl, Plan.grow_eq_some hw⟩
  obtain ⟨_, -, -, hx'⟩ := retryCalls_related hhint (fun _ _ h => congrArg _ h.1) ⟨rfl, hx⟩ hlast
  exact hx'

theorem Plan.exists_of_grow {w : Plan} {st : BlockState block}
    (hlt : ∀ page x, w page = some x → page < block.numCpuPages) {page : Nat} {x : PageWork}
    (h : w.grow st page = some x) : ∃ page x, w page = some x := by
  unfold grow at h
  cases hsole : soleProcessor (w.processors block) with
  | none =>
    rw [hsole] at h
    exact ⟨page, x, h⟩
  | some proc =>
    obtain ⟨-, hset, -⟩ := soleProcessor_eq_some hsole
    obtain ⟨page', x', hx', -⟩ := (processors_iff hlt).1 hset
    exact ⟨page', x', hx'⟩

theorem lastAttempt_collected {ctx : ServiceBlockContext} {async : Bool} {a : Attempt block}
    {attempts : List (Attempt block)} {st : BlockState block} {c : ServiceContext}
    (hlast : lastAttempt sl ctx async (a :: attempts) = some (st, c)) :
    Represents block c (sl.collected async (a :: attempts)) ∧
      (∃ page x, sl.requests a.state page = some x) ∧
      ∀ page x, sl.requests a.state page = some x →
        sl.collected async (a :: attempts) page = some x := by
  obtain ⟨c₀, hscan, hcalls⟩ := Option.bind_eq_some_iff.1 hlast
  have hhint : ∀ (st : BlockState block) (c : ServiceContext) (w : Plan), Represents block c w →
      Represents block (getPrefetchHint st c) (w.grow st) := fun st _ _ h => h.getPrefetchHint st
  have hsupported : ∀ (c : ServiceContext) (w : Plan), Represents block c w →
      c.populateSupported = w.populateSupported block := fun _ _ h => h.populateSupported
  obtain ⟨w, hw, hrep⟩ := retryCalls_related hhint hsupported (scan_represents sl hscan) hcalls
  have hcollected : sl.collected async (a :: attempts) = w := by
    rw [BlockSlice.collected, hw]
  rw [hcollected]
  exact ⟨hrep, exists_request sl hscan, fun page x hx => retryCalls_grow_eq_some hw hx⟩

theorem eq_hinted_iff_undisturbed {first last : BlockState block} {w : Plan}
    (hkept : ∀ page x, sl.requests first page = some x → w page = some x) :
    w = sl.hinted last ↔ Undisturbed sl first last w := by
  have hhinted : ∀ page x, sl.requests last page = some x → sl.hinted last page = some x :=
    fun page x hx => Plan.grow_eq_some hx
  have hrequest : ∀ (st : BlockState block) (j : Nat), j < sl.numFaults → sl.serves st j →
      sl.requests st (sl.visit st j).page = some (sl.visit st j).work :=
    fun st j hj hserves => sl.requests_eq_some.2 ⟨j, hj, hserves, rfl, rfl⟩
  constructor
  · rintro rfl
    refine ⟨?_, ?_, ?_, fun _ _ _ => rfl⟩
    · intro j hj hfirst hlast
      have h₁ := hkept _ _ (hrequest first j hj hfirst)
      have h₂ := hhinted _ _ (hrequest last j hj hlast)
      have hwork : (sl.visit first j).work = (sl.visit last j).work := Option.some.inj (h₁.symm.trans h₂)
      exact Prod.ext (congrArg PageWork.proc hwork) (congrArg PageWork.readDuplicate hwork)
    · intro j hj hfirst _
      exact hkept _ _ (hrequest first j hj hfirst)
    · intro j hj _ hlast
      exact hhinted _ _ (hrequest last j hj hlast)
  · intro h
    funext page
    cases hf : sl.requests first page with
    | none =>
      cases hl : sl.requests last page with
      | none => exact h.hinted page hf hl
      | some x =>
        -- only the last pass serves this fault
        obtain ⟨j, hj, hlast, rfl, rfl⟩ := sl.requests_eq_some.1 hl
        have hfirst : sl.serves first j = false := by
          by_contra hserves
          have hreq := hrequest first j hj (Bool.eq_true_of_not_eq_false hserves)
          exact Option.some_ne_none _ (hreq.symm.trans hf)
        rw [h.arisen j hj hfirst hlast, hhinted _ _ hl]
    | some x =>
      obtain ⟨j, hj, hfirst, rfl, rfl⟩ := sl.requests_eq_some.1 hf
      rw [hkept _ _ hf]
      cases hlast : sl.serves last j with
      | false => exact (h.settled j hj hfirst hlast).symm
      | true =>
        have hres := h.kept j hj hfirst hlast
        have hwork : (sl.visit first j).work = (sl.visit last j).work := by
          simp only [BlockSlice.visit, pageVisit, PageVisit.work, hres]
        rw [hwork]
        exact (hhinted _ _ (hrequest last j hj hlast)).symm

/-- Whatever happens to the block during the retries: the last call makes its copies and mappings
from what a new scan on the state of the block would give it if and only if the retries make no
difference. -/
theorem retry_transparent_iff (ctx ctx' : ServiceBlockContext) (async : Bool) (a : Attempt block)
    (attempts : List (Attempt block)) {st : BlockState block} {c : ServiceContext}
    (hlast : lastAttempt sl ctx async (a :: attempts) = some (st, c)) :
    (∃ f, freshAttempt sl ctx' st = some f ∧ SameWork c f) ↔
      Undisturbed sl a.state st (sl.collected async (a :: attempts)) := by
  obtain ⟨hrep, ⟨page, x, hx⟩, hkept⟩ := lastAttempt_collected sl hlast
  rw [← eq_hinted_iff_undisturbed sl hkept]
  have hfresh : ∀ f, freshAttempt sl ctx' st = some f → Represents block f (sl.hinted st) := by
    intro f hf
    obtain ⟨f₀, hscan, rfl⟩ := Option.map_eq_some_iff.1 hf
    exact (scan_represents sl hscan).getPrefetchHint st
  constructor
  · rintro ⟨f, hf, hsame⟩
    exact (hrep.sameWork_iff (hfresh f hf)).1 hsame
  · intro heq
    -- the plan is not empty, so there is a request on the last state
    have hpage : sl.hinted st page = some x := by rw [← heq, hkept page x hx]
    obtain ⟨page', x', hx'⟩ := Plan.exists_of_grow sl.requests_pages_lt hpage
    cases hscan : scan sl ctx' st with
    | none =>
      rw [BlockSlice.requests, (scan_eq_none_iff sl).1 hscan] at hx'
      cases hx'
    | some f₀ =>
      have hf : freshAttempt sl ctx' st = some (getPrefetchHint st f₀) := by
        rw [freshAttempt, hscan]
        rfl
      exact ⟨_, hf, (hrep.sameWork_iff (hfresh _ hf)).2 heq⟩

theorem Plan.grow_of_no_hint {st : BlockState block}
    (h : ∀ proc pages region, st.prefetchHint proc pages region = none) (w : Plan) :
    w.grow st = w := by
  unfold grow
  cases soleProcessor (w.processors block) with
  | none => rfl
  | some proc => simp only [h]

end Result

def twoPageBlock : VaBlock where
  vaSpace := 0
  start := 0
  last := 8191
  start_aligned := Nat.zero_mod pageSize
  last_lt := by decide

def pairBatch : ServiceBatch where
  entries i := { faultAddress := i * 4096, accessType := .read, vaSpace := some 0, numInstances := 1,
                 accessTypeMask := AccessType.read.maskBit }
  numCoalescedFaults := 2

def pairSlice : BlockSlice twoPageBlock pairBatch where
  first := 0
  numFaults := 2
  bound := le_rfl
  vaSpace := fun _ _ => rfl
  start_le := fun _ _ => Nat.zero_le _
  le_last := by decide
  sorted := fun i j hij _ => Nat.mul_le_mul_right 4096 (by omega)
  aligned := fun j _ => Nat.mul_mod_left (0 + j) 4096
  serviceable := fun _ _ => rfl
  ends := fun h => absurd h (by decide)

/-- The GPU has access to the pages of the faults given, all pages are to go to it, and there is
no prefetching. -/
def mappedAt (places : List Nat) : BlockState twoPageBlock where
  answers :=
    { logicalPermissions := fun _ _ _ => .ok
      migratable := fun _ => true
      gpuAuthorized := fun i _ => i ∈ places
      thrashingHint := fun _ => .none
      selectResidency := fun _ _ => (1, false) }
  residency_lt := fun _ _ => show 1 < uvmIdMaxProcessors by decide
  prefetchHint _ _ _ := none
  hint_lt := fun _ _ _ _ h => nomatch h
  hint_new := fun _ _ _ _ h => nomatch h
  policyReadDuplicate := false
  readDuplicationAllowed := true
  readDuplicatedPages _ := false

/-- A retry during which nothing happens to the block. -/
theorem unchanged_block_retried :
    ∃ c, lastAttempt pairSlice {} false
        [⟨mappedAt [], .ok, .errMoreProcessingRequired⟩, ⟨mappedAt [], .ok, .ok⟩] =
          some (mappedAt [], c) ∧
      ∃ f, freshAttempt pairSlice {} (mappedAt []) = some f ∧ SameWork c f := by
  obtain ⟨c, hlast⟩ : ∃ c, lastAttempt pairSlice {} false
      [⟨mappedAt [], .ok, .errMoreProcessingRequired⟩, ⟨mappedAt [], .ok, .ok⟩] =
        some (mappedAt [], c) := ⟨_, rfl⟩
  refine ⟨c, hlast, (retry_transparent_iff pairSlice {} {} false _ _ hlast).2 ?_⟩
  apply (eq_hinted_iff_undisturbed pairSlice (lastAttempt_collected pairSlice hlast).2.2).1
  show ((pairSlice.requests (mappedAt [])).grow (mappedAt [])).grow (mappedAt []) = _
  rw [BlockSlice.hinted, Plan.grow_of_no_hint (fun _ _ _ => rfl)]

/-- The second page is mapped by someone else while the lock is dropped. A new scan would leave it
out; the last call services it once more. -/
theorem mapped_page_serviced_again :
    ∃ c f, lastAttempt pairSlice {} false
        [⟨mappedAt [], .ok, .errMoreProcessingRequired⟩, ⟨mappedAt [1], .ok, .ok⟩] =
          some (mappedAt [1], c) ∧
      freshAttempt pairSlice {} (mappedAt [1]) = some f ∧
      (c.inResidency 1 1 = true ∧ c.region = (0, 2)) ∧
      (f.inResidency 1 1 = false ∧ f.region = (0, 1)) ∧ ¬ SameWork c f := by
  refine ⟨_, _, rfl, rfl, by decide +kernel, by decide +kernel, fun h => ?_⟩
  exact absurd h.region (by decide +kernel)

end FaultMesh
