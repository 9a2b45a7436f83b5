import FaultMesh.FatalMarks

/-!
# Workers and the serial path on one block

The worker's loop leaves out the permission check, the marks on the entries and the reset of the
marks of earlier batches. It decides the same as the serial loop exactly for the slices on which
these make no difference.

Both loops enter pages into a context one after the other, so that a context is described by the
list of pages entered; the two lists are compared.
-/

namespace FaultMesh

open Function ServiceBatch

/-! ## Pages entered into a context -/

theorem foldl_or {σ α : Type} {flag : σ → Bool} {p : α → Bool} {step : σ → α → σ}
    (hstep : ∀ s x, flag (step s x) = (p x || flag s)) (xs : List α) (s : σ) :
    flag (xs.foldl step s) = (xs.any p || flag s) := by
  induction xs generalizing s with
  | nil => rfl
  | cons x xs ih => rw [List.foldl_cons, ih, hstep, List.any_cons, Bool.or_left_comm, Bool.or_assoc]

structure PageVisit where
  page : Nat
  access : AccessType
  proc : Nat
  readDuplicate : Bool
  pin : Bool
  deriving DecidableEq, Repr

structure Tally where
  ctx : ServiceBlockContext
  firstPageIndex : Nat := pagesPerUvmVaBlock
  lastPageIndex : Nat := 0

def Tally.enter (t : Tally) (x : PageVisit) : Tally :=
  let ctx := if x.pin then t.ctx.pinPage x.page else t.ctx
  let ctx := ctx.enterResidency x.proc x.page
  let ctx := if x.readDuplicate then ctx.readDuplicatePage x.page else ctx
  { ctx := ctx.setAccessType x.page x.access
    firstPageIndex := if x.page < t.firstPageIndex then x.page else t.firstPageIndex
    lastPageIndex := if t.lastPageIndex < x.page then x.page else t.lastPageIndex }

def Tally.enterAll (t : Tally) (xs : List PageVisit) : Tally := xs.foldl Tally.enter t

def SerialLoop.tally (s : SerialLoop) : Tally := ⟨s.ctx, s.firstPageIndex, s.lastPageIndex⟩

def KthreadLoop.tally (s : KthreadLoop) : Tally := ⟨s.ctx, s.firstPageIndex, s.lastPageIndex⟩

namespace ServiceBlockContext

/-- The page is in the new-residency mask of a resident processor. -/
def inResidency (ctx : ServiceBlockContext) (proc page : Nat) : Bool :=
  ctx.residentProcessors proc && ctx.newResidency proc page

def isPinned (ctx : ServiceBlockContext) (page : Nat) : Bool :=
  0 < ctx.thrashingPinCount && ctx.thrashingPinMask page

def isReadDuplicated (ctx : ServiceBlockContext) (page : Nat) : Bool :=
  0 < ctx.readDuplicateCount && ctx.readDuplicateMask page

variable (ctx : ServiceBlockContext) (proc page q : Nat)

theorem inResidency_enterResidency (r : Nat) :
    (ctx.enterResidency r q).inResidency proc page =
      (decide (r = proc ∧ q = page) || ctx.inResidency proc page) := by
  by_cases hr : proc = r
  · subst hr
    by_cases hq : page = q
    · simp [enterResidency, inResidency, hq]
    · cases hres : ctx.residentProcessors proc <;>
        simp [enterResidency, inResidency, hres, update_of_ne hq, Ne.symm hq]
  · simp [enterResidency, inResidency, update_of_ne hr, Ne.symm hr]

theorem isPinned_pinPage :
    (ctx.pinPage q).isPinned page = (decide (q = page) || ctx.isPinned page) := by
  by_cases hq : page = q
  · simp [pinPage, isPinned, hq]
  · by_cases hc : ctx.thrashingPinCount = 0
    · simp [pinPage, isPinned, hc, update_of_ne hq, Ne.symm hq]
    · simp [pinPage, isPinned, hc, update_of_ne hq, Ne.symm hq, Nat.pos_of_ne_zero hc]

theorem isReadDuplicated_readDuplicatePage :
    (ctx.readDuplicatePage q).isReadDuplicated page =
      (decide (q = page) || ctx.isReadDuplicated page) := by
  by_cases hq : page = q
  · simp [readDuplicatePage, isReadDuplicated, hq]
  · by_cases hc : ctx.readDuplicateCount = 0
    · simp [readDuplicatePage, isReadDuplicated, hc, update_of_ne hq, Ne.symm hq]
    · simp [readDuplicatePage, isReadDuplicated, hc, update_of_ne hq, Ne.symm hq,
        Nat.pos_of_ne_zero hc]

end ServiceBlockContext

namespace Tally

variable (t : Tally) (x : PageVisit) (xs : List PageVisit) (proc page : Nat)

theorem inResidency_enter : (t.enter x).ctx.inResidency proc page =
    (decide (x.proc = proc ∧ x.page = page) || t.ctx.inResidency proc page) := by
  -- the other writes leave the masks alone
  cases hpin : x.pin <;> cases hdup : x.readDuplicate <;> simp only [enter, hpin, hdup] <;>
    exact ServiceBlockContext.inResidency_enterResidency t.ctx ..

theorem isPinned_enter : (t.enter x).ctx.isPinned page =
    ((x.pin && decide (x.page = page)) || t.ctx.isPinned page) := by
  cases hpin : x.pin with
  | false => cases hdup : x.readDuplicate <;> simp only [enter, hpin, hdup] <;> rfl
  | true =>
    cases hdup : x.readDuplicate <;> simp only [enter, hpin, hdup] <;>
      exact ServiceBlockContext.isPinned_pinPage t.ctx ..

theorem isReadDuplicated_enter : (t.enter x).ctx.isReadDuplicated page =
    ((x.readDuplicate && decide (x.page = page)) || t.ctx.isReadDuplicated page) := by
  cases hdup : x.readDuplicate with
  | false => cases hpin : x.pin <;> simp only [enter, hpin, hdup] <;> rfl
  | true =>
    cases hpin : x.pin <;> simp only [enter, hpin, hdup] <;>
      exact ServiceBlockContext.isReadDuplicated_readDuplicatePage t.ctx ..

theorem accessType_enter : (t.enter x).ctx.accessType page =
    if x.page = page then x.access else t.ctx.accessType page := by
  have hsame : ∀ c : ServiceBlockContext, c.accessType = t.ctx.accessType →
      (c.setAccessType x.page x.access).accessType page =
        if x.page = page then x.access else t.ctx.accessType page := by
    intro c hc
    by_cases hq : x.page = page
    · simp [ServiceBlockContext.setAccessType, hq]
    · simp [ServiceBlockContext.setAccessType, hq, update_of_ne (Ne.symm hq), hc]
  cases hpin : x.pin <;> cases hdup : x.readDuplicate <;>
    simp only [enter, hpin, hdup] <;> exact hsame _ rfl

theorem inResidency_enterAll : (t.enterAll xs).ctx.inResidency proc page =
    ((xs.any fun x => x.proc = proc ∧ x.page = page) || t.ctx.inResidency proc page) :=
  @foldl_or _ _ (·.ctx.inResidency proc page) _ _ (fun t x => inResidency_enter t x proc page) xs t

theorem isPinned_enterAll : (t.enterAll xs).ctx.isPinned page =
    ((xs.any fun x => x.pin && decide (x.page = page)) || t.ctx.isPinned page) :=
  @foldl_or _ _ (·.ctx.isPinned page) _ _ (fun t x => isPinned_enter t x page) xs t

theorem isReadDuplicated_enterAll : (t.enterAll xs).ctx.isReadDuplicated page =
    ((xs.any fun x => x.readDuplicate && decide (x.page = page)) || t.ctx.isReadDuplicated page) :=
  @foldl_or _ _ (·.ctx.isReadDuplicated page) _ _ (fun t x => isReadDuplicated_enter t x page) xs t

theorem numRetries_enterAll : (t.enterAll xs).ctx.numRetries = t.ctx.numRetries := by
  induction xs generalizing t with
  | nil => rfl
  | cons x xs ih =>
    show ((t.enter x).enterAll xs).ctx.numRetries = _
    rw [ih]
    cases hpin : x.pin <;> cases hdup : x.readDuplicate <;> simp only [enter, hpin, hdup] <;> rfl

variable {t xs page}

theorem accessType_enterAll_congr {t' : Tally}
    (h : t.ctx.accessType page = t'.ctx.accessType page ∨ ∃ x ∈ xs, x.page = page) :
    (t.enterAll xs).ctx.accessType page = (t'.enterAll xs).ctx.accessType page := by
  induction xs generalizing t t' with
  | nil =>
    rcases h with h | ⟨x, hx, -⟩
    · exact h
    · cases hx
  | cons x xs ih =>
    show ((t.enter x).enterAll xs).ctx.accessType page =
      ((t'.enter x).enterAll xs).ctx.accessType page
    apply ih
    by_cases hq : x.page = page
    · left
      simp [accessType_enter, hq]
    · rcases h with h | ⟨y, hy, hpage⟩
      · left
        simp [accessType_enter, hq, h]
      · right
        rcases List.mem_cons.1 hy with rfl | hy
        · exact absurd hpage hq
        · exact ⟨y, hy, hpage⟩

end Tally

/-! ## Slices and the property -/

/-- The sorted faults of a batch that lie on a block. -/
structure BlockSlice (block : VaBlock) (batch : ServiceBatch) where
  first : Nat
  numFaults : Nat
  bound : first + numFaults ≤ batch.numCoalescedFaults
  vaSpace : ∀ j < numFaults, (batch.entries (first + j)).vaSpace = some block.vaSpace
  start_le : ∀ j < numFaults, block.start ≤ (batch.entries (first + j)).faultAddress
  le_last : ∀ j < numFaults, (batch.entries (first + j)).faultAddress ≤ block.last
  sorted : ∀ i j, i ≤ j → j < numFaults →
    (batch.entries (first + i)).faultAddress ≤ (batch.entries (first + j)).faultAddress
  /-- Fetching aligns the addresses. -/
  aligned : ∀ j < numFaults, (batch.entries (first + j)).faultAddress % pageSize = 0
  /-- The serial loop asserts that faults known to be fatal were left out by its caller. -/
  serviceable : ∀ j < numFaults, (batch.entries (first + j)).isFatal = false
  /-- The slice ends where the block's faults end. -/
  ends : first + numFaults < batch.numCoalescedFaults →
    (batch.entries (first + numFaults)).vaSpace = some block.vaSpace →
      block.last < (batch.entries (first + numFaults)).faultAddress

structure SameMarks (e e' : FaultEntry) : Prop where
  isFatal : e.isFatal = e'.isFatal
  cancelVaMode : e.isFatal → e.cancelVaMode = e'.cancelVaMode
  isThrottled : e.isThrottled = e'.isThrottled
  isInvalidPrefetch : e.isInvalidPrefetch = e'.isInvalidPrefetch

/-- The serial loop and the worker's loop decide the same about the faults from `first` on; the
worker leaves the marks of `entries` as they are. -/
structure SameDecision (entries : Nat → FaultEntry) (first numFaults : Nat) (s : SerialLoop)
    (k : KthreadLoop) : Prop where
  residency : ∀ proc page, s.ctx.inResidency proc page = k.ctx.inResidency proc page
  accessType : ∀ proc page, s.ctx.inResidency proc page →
    s.ctx.accessType page = k.ctx.accessType page
  region : s.region = k.region
  pinned : ∀ page, s.ctx.isPinned page = k.ctx.isPinned page
  readDuplicated : ∀ page, s.ctx.isReadDuplicated page = k.ctx.isReadDuplicated page
  marks : ∀ j < numFaults, SameMarks (s.batch.entries (first + j)) (entries (first + j))

/-- The fault is the first of its page in the slice. -/
def leads (entries : Nat → FaultEntry) (first i : Nat) : Bool :=
  !(first < i && checkFaultEntryDuplicate (entries i) (entries (i - 1)))

namespace BlockAnswers

variable (ans : BlockAnswers) (entries : Nat → FaultEntry) (i : Nat)

def denied : Bool := ans.logicalPermissions i (entries i).accessType (ans.migratable i) ≠ .ok

/-- The GPU already has the access, or the page is throttled. -/
def waived : Bool :=
  ans.gpuAuthorized i (entries i).accessType.toProt || ans.thrashingHint i = .throttle

/-- The access is permitted and missing, and the page is throttled. -/
def throttled : Bool :=
  !ans.denied entries i && !ans.gpuAuthorized i (entries i).accessType.toProt &&
    ans.thrashingHint i = .throttle

end BlockAnswers

/-- On the slice the permission check and the marks make no difference: a denied access is a
prefetch; of a page that is neither mapped nor throttled, the first fault is denied exactly if it
repeats a non-fatal fault before the slice; and the marks of earlier batches are those that the
serial loop would make. -/
structure DecidesAlike (ans : BlockAnswers) (entries : Nat → FaultEntry) (first numFaults : Nat) :
    Prop where
  denied : ∀ j < numFaults, leads entries first (first + j) → ans.denied entries (first + j) →
    (entries (first + j)).accessType = .prefetch
  served : ∀ j < numFaults, leads entries first (first + j) → ans.waived entries (first + j) = false →
    ans.denied entries (first + j) = repeatsPrevious entries (first + j)
  marks : ∀ j < numFaults, ∀ i ≤ j, leads entries first (first + i) →
    (entries (first + j)).faultAddress = (entries (first + i)).faultAddress →
      (entries (first + j)).isInvalidPrefetch = ans.denied entries (first + i) ∧
        (entries (first + j)).isThrottled = ans.throttled entries (first + i)

/-! ## The serial loop -/

/-- The page of the fault at place `i`, serviced with its own access type. -/
def pageVisit (ans : BlockAnswers) (block : VaBlock) (entries : Nat → FaultEntry) (i : Nat) :
    PageVisit :=
  let entry := entries i
  let residency := ans.selectResidency i entry.accessTypeMask
  ⟨block.cpuPageIndex entry.faultAddress, entry.accessType, residency.1, residency.2,
    ans.thrashingHint i = .pin⟩

def FaultEntry.withMarks (e : FaultEntry) (marks : Bool × Bool) : FaultEntry :=
  { e with isInvalidPrefetch := marks.1, isThrottled := marks.2 }

/-- The marks the serial loop makes on the fault at `first + j`: those of the first fault of the
page. -/
def pageMarks (ans : BlockAnswers) (entries : Nat → FaultEntry) (first : Nat) : Nat → Bool × Bool
  | 0 => (ans.denied entries first, ans.throttled entries first)
  | j + 1 =>
    if leads entries first (first + (j + 1)) then
      (ans.denied entries (first + (j + 1)), ans.throttled entries (first + (j + 1)))
    else pageMarks ans entries first j

def serves (ans : BlockAnswers) (entries : Nat → FaultEntry) (first i : Nat) : Bool :=
  leads entries first i && !ans.denied entries i && !ans.waived entries i

theorem servicePage_own {ans : BlockAnswers} {block : VaBlock} {entries : Nat → FaultEntry} {i : Nat}
    {marks : Bool × Bool} {s : SerialLoop} (hentry : s.batch.entries i = (entries i).withMarks marks) :
    (s.servicePage ans block i (entries i).accessType).batch = s.batch ∧
      (s.servicePage ans block i (entries i).accessType).tally =
        s.tally.enter (pageVisit ans block entries i) ∧
      (s.servicePage ans block i (entries i).accessType).pageFaultCount = s.pageFaultCount + 1 := by
  refine ⟨rfl, ?_, rfl⟩
  simp only [SerialLoop.servicePage, SerialLoop.tally, Tally.enter, pageVisit, hentry,
    FaultEntry.withMarks, if_true, decide_eq_true_eq]
  rfl

theorem serviceChecked_spec {ans : BlockAnswers} {block : VaBlock} {entries : Nat → FaultEntry}
    {i : Nat} {s : SerialLoop} (hretry : s.ctx.numRetries = 0)
    (hentry : s.batch.entries i = (entries i).withMarks (false, false))
    (hdenied : ans.denied entries i → (entries i).accessType = .prefetch) :
    (s.serviceChecked ans block i).batch.entries = update s.batch.entries i
        ((entries i).withMarks (ans.denied entries i, ans.throttled entries i)) ∧
      ((s.serviceChecked ans block i).tally, (s.serviceChecked ans block i).pageFaultCount) =
        if !ans.denied entries i && !ans.waived entries i then
          (s.tally.enter (pageVisit ans block entries i), s.pageFaultCount + 1)
        else (s.tally, s.pageFaultCount) := by
  have haccess : (s.batch.entries i).accessType = (entries i).accessType := by rw [hentry]; rfl
  cases hd : ans.denied entries i with
  | true =>
    -- an invalid prefetch
    have hperm : ans.logicalPermissions i (entries i).accessType (ans.migratable i) ≠ .ok := by
      simpa [BlockAnswers.denied] using hd
    have hcheck : checkFaultAccessPermissions ans s.ctx.numRetries s.batch i =
        (none, s.batch.markFaultInvalidPrefetch i) := by
      rw [hdenied hd] at hperm haccess
      simp [checkFaultAccessPermissions, haccess, hperm, hretry]
    simp only [SerialLoop.serviceChecked, hcheck]
    refine ⟨?_, rfl⟩
    simp [markFaultInvalidPrefetch, setEntry, hentry,
      FaultEntry.withMarks, BlockAnswers.throttled, hd]
  | false =>
    have hperm : ans.logicalPermissions i (entries i).accessType (ans.migratable i) = .ok := by
      simpa [BlockAnswers.denied] using hd
    have hcheck : checkFaultAccessPermissions ans s.ctx.numRetries s.batch i =
        (some (entries i).accessType, s.batch) := by
      simp [checkFaultAccessPermissions, haccess, hperm]
    simp only [SerialLoop.serviceChecked, hcheck]
    have hsame : s.batch.entries = update s.batch.entries i
        ((entries i).withMarks (false, false)) := by
      rw [← hentry, update_eq_self]
    by_cases hauth : ans.gpuAuthorized i (entries i).accessType.toProt
    · rw [if_pos hauth]
      simp only [BlockAnswers.throttled, BlockAnswers.waived, hd, hauth]
      exact ⟨hsame, rfl⟩
    · rw [if_neg hauth]
      by_cases hthr : ans.thrashingHint i = .throttle
      · rw [if_pos hthr, if_pos hretry]
        simp only [BlockAnswers.throttled, BlockAnswers.waived, hd, hauth, hthr]
        refine ⟨?_, rfl⟩
        simp [markFaultThrottled, setEntry, hentry, FaultEntry.withMarks]
      · rw [if_neg hthr]
        obtain ⟨hb, ht, hc⟩ := @servicePage_own ans block entries i (false, false) s hentry
        simp only [BlockAnswers.throttled, BlockAnswers.waived, hd, hauth, hthr]
        refine ⟨?_, ?_⟩
        · rw [hb]
          exact hsame
        · rw [ht, hc]
          rfl

/-- The batch after the first `n` faults of the slice. -/
def markedEntries (ans : BlockAnswers) (entries : Nat → FaultEntry) (first n i : Nat) : FaultEntry :=
  if first ≤ i ∧ i < first + n then (entries i).withMarks (pageMarks ans entries first (i - first))
  else entries i

/-- The pages among the first `n` faults that are serviced. -/
def visits (ans : BlockAnswers) (block : VaBlock) (entries : Nat → FaultEntry) (first : Nat)
    (served : Nat → Bool) (n : Nat) : List PageVisit :=
  ((List.range n).filter served).map fun j => pageVisit ans block entries (first + j)

theorem visits_succ (ans : BlockAnswers) (block : VaBlock) (entries : Nat → FaultEntry) (first : Nat)
    (served : Nat → Bool) (n : Nat) :
    visits ans block entries first served (n + 1) =
      visits ans block entries first served n ++
        if served n then [pageVisit ans block entries (first + n)] else [] := by
  simp only [visits, List.range_succ, List.filter_append, List.map_append]
  cases h : served n <;> simp [h]

section

variable (ans : BlockAnswers) (entries : Nat → FaultEntry)

theorem markedEntries_zero (first : Nat) : markedEntries ans entries first 0 = entries := by
  funext i
  rw [markedEntries, if_neg]
  omega

theorem markedEntries_succ (first n : Nat) :
    markedEntries ans entries first (n + 1) =
      update (markedEntries ans entries first n) (first + n)
        ((entries (first + n)).withMarks (pageMarks ans entries first n)) := by
  funext i
  by_cases hi : i = first + n
  · subst hi
    rw [update_self, markedEntries, if_pos (by omega), Nat.add_sub_cancel_left]
  · rw [update_of_ne hi]
    unfold markedEntries
    by_cases hin : first ≤ i ∧ i < first + n
    · rw [if_pos hin, if_pos (by omega)]
    · rw [if_neg hin, if_neg (by omega)]

theorem markedEntries_self (first n : Nat) :
    markedEntries ans entries first n (first + n) = entries (first + n) := by
  rw [markedEntries, if_neg]
  omega

theorem markedEntries_pred (first n : Nat) :
    markedEntries ans entries first (n + 1) (first + n) =
      (entries (first + n)).withMarks (pageMarks ans entries first n) := by
  rw [markedEntries_succ, update_self]

end

theorem pageMarks_leads {ans : BlockAnswers} {entries : Nat → FaultEntry} {first j : Nat}
    (h : leads entries first (first + j)) : pageMarks ans entries first j =
      (ans.denied entries (first + j), ans.throttled entries (first + j)) := by
  cases j with
  | zero => rfl
  | succ j => rw [pageMarks, if_pos h]

section Serial

variable {ans : BlockAnswers} {block : VaBlock} {entries : Nat → FaultEntry}
  {ctx : ServiceBlockContext} {first n : Nat} {s : SerialLoop}

theorem isDuplicate_marked :
    (decide (first < first + n) &&
      checkFaultEntryDuplicate (markedEntries ans entries first n (first + n))
        (markedEntries ans entries first n (first + n - 1))) = !leads entries first (first + n) := by
  rw [leads, Bool.not_not, markedEntries_self]
  cases n with
  | zero => simp
  | succ n =>
    have hpred : first + (n + 1) - 1 = first + n := rfl
    rw [hpred, markedEntries_pred]
    rfl

variable (ans block entries ctx first n s) in
/-- The serial loop after `n` faults of a slice, none of them fatal. -/
structure SerialRun : Prop where
  marked : s.batch.entries = markedEntries ans entries first n
  tally : s.tally = Tally.enterAll { ctx := ctx.begin }
    (visits ans block entries first (fun j => serves ans entries first (first + j)) n)
  count : s.pageFaultCount =
    (visits ans block entries first (fun j => serves ans entries first (first + j)) n).length

theorem SerialRun.numRetries (h : SerialRun ans block entries ctx first n s) :
    s.ctx.numRetries = ctx.numRetries := by
  have htally := congrArg (fun t : Tally => t.ctx.numRetries) h.tally
  rw [Tally.numRetries_enterAll] at htally
  exact htally

/-- A fault that leads its page and is not fatal. -/
theorem SerialRun.lead (h : SerialRun ans block entries ctx first n s) (hretry : ctx.numRetries = 0)
    (hlead : leads entries first (first + n))
    (hdenied : ans.denied entries (first + n) → (entries (first + n)).accessType = .prefetch) :
    SerialRun ans block entries ctx first (n + 1) (serviceFault ans block first (first + n) s) := by
  have hr : s.ctx.numRetries = 0 := h.numRetries.trans hretry
  have hdup := @isDuplicate_marked ans entries first n
  rw [← h.marked, hlead, Bool.not_true] at hdup
  -- the marks of earlier batches are reset
  have hnote : (s.batch.noteFault 0 (first + n) false).entries =
      update s.batch.entries (first + n)
        ((entries (first + n)).withMarks (false, false)) := by
    show update s.batch.entries (first + n) _ = _
    rw [h.marked, markedEntries_self]
    rfl
  have hstep : serviceFault ans block first (first + n) s =
      { s with batch := s.batch.noteFault 0 (first + n) false }.serviceChecked ans block
        (first + n) := by
    simp only [serviceFault, hdup, hr, Bool.false_and, Bool.false_eq_true, if_false]
  obtain ⟨hentries, hpages⟩ := @serviceChecked_spec ans block entries (first + n)
    { s with batch := s.batch.noteFault 0 (first + n) false } hr
    (by rw [hnote, update_self]) hdenied
  have hserves : serves ans entries first (first + n) =
      (!ans.denied entries (first + n) && !ans.waived entries (first + n)) := by
    rw [serves, hlead, Bool.true_and]
  rw [hstep]
  refine ⟨?_, ?_, ?_⟩
  · rw [hentries, hnote, update_idem, markedEntries_succ, pageMarks_leads hlead, h.marked]
  · rw [visits_succ, Tally.enterAll, List.foldl_append, hserves]
    have htally := congrArg Prod.fst hpages
    dsimp only at htally
    rw [htally]
    have hold : s.tally = List.foldl Tally.enter { ctx := ctx.begin } _ := h.tally
    rw [← hold]
    split <;> rfl
  · rw [visits_succ, List.length_append, hserves, ← h.count]
    have hcount := congrArg Prod.snd hpages
    dsimp only at hcount
    rw [hcount]
    split <;> rfl

theorem noteFault_duplicate {b : ServiceBatch} {i : Nat} {previous : FaultEntry} {m : Bool × Bool}
    (hi : 0 < i) (hprev : b.entries (i - 1) = previous.withMarks m) :
    (b.noteFault 0 i true).entries = update b.entries i ((b.entries i).withMarks m) := by
  have hne : i - 1 ≠ i := by omega
  obtain ⟨invalid, throttled⟩ := m
  cases invalid <;> cases throttled <;>
    simp [noteFault, setEntry, updateBatch, duplicateFlags, markFaultInvalidPrefetch,
      markFaultThrottled, update_of_ne hne, hprev, FaultEntry.withMarks]

/-- A fault that repeats the one before, which is not fatal. -/
theorem SerialRun.repeat (h : SerialRun ans block entries ctx first n s)
    (hretry : ctx.numRetries = 0) (hlead : leads entries first (first + n) = false)
    (hprev : (entries (first + n - 1)).isFatal = false) :
    SerialRun ans block entries ctx first (n + 1) (serviceFault ans block first (first + n) s) := by
  have hr : s.ctx.numRetries = 0 := h.numRetries.trans hretry
  have hdup := @isDuplicate_marked ans entries first n
  rw [← h.marked, hlead, Bool.not_false] at hdup
  cases n with
  | zero => simp [leads] at hlead
  | succ n =>
    have hpred : first + (n + 1) - 1 = first + n := rfl
    have hold : s.batch.entries (first + (n + 1) - 1) =
        (entries (first + n)).withMarks (pageMarks ans entries first n) := by
      rw [hpred, h.marked, markedEntries_pred]
    -- a duplicate takes over the marks of the entry before it
    have hnote := @noteFault_duplicate s.batch (first + (n + 1)) _ _ (by omega) hold
    have hfatal : ((s.batch.noteFault 0 (first + (n + 1)) true).entries
        (first + (n + 1) - 1)).isFatal = false := by
      rw [hnote, update_of_ne (by omega), hold]
      exact hprev
    have hstep : serviceFault ans block first (first + (n + 1)) s =
        { s with batch := s.batch.noteFault 0 (first + (n + 1)) true } := by
      simp only [serviceFault, hdup, hr, hfatal, Bool.true_and, Bool.not_false, if_true]
    -- and is not serviced
    have hserves : serves ans entries first (first + (n + 1)) = false := by
      rw [serves, hlead, Bool.false_and, Bool.false_and]
    rw [hstep]
    refine ⟨?_, ?_, ?_⟩
    · have hmarks : pageMarks ans entries first (n + 1) = pageMarks ans entries first n := by
        rw [pageMarks, hlead]
        rfl
      rw [markedEntries_succ, hmarks]
      show (s.batch.noteFault 0 (first + (n + 1)) true).entries = _
      rw [hnote, h.marked, markedEntries_self]
    · rw [visits_succ, hserves, if_neg Bool.false_ne_true, List.append_nil]
      exact h.tally
    · rw [visits_succ, hserves, if_neg Bool.false_ne_true, List.append_nil]
      exact h.count

end Serial

/-! ## Runs of both loops over a slice -/

section Runs

variable {ans : BlockAnswers} {block : VaBlock} {batch : ServiceBatch} {ctx : ServiceBlockContext}
  (sl : BlockSlice block batch)

/-- A denied access of the fault that leads its page. -/
theorem SerialRun.isFatal_of_denied {n : Nat} {s : SerialLoop}
    (h : SerialRun ans block batch.entries ctx sl.first n s)
    (hlead : leads batch.entries sl.first (sl.first + n))
    (hdenied : ans.denied batch.entries (sl.first + n))
    (hprefetch : (batch.entries (sl.first + n)).accessType ≠ .prefetch) :
    ((serviceFault ans block sl.first (sl.first + n) s).batch.entries (sl.first + n)).isFatal := by
  have hdup := @isDuplicate_marked ans batch.entries sl.first n
  rw [← h.marked, hlead, Bool.not_true] at hdup
  have hstep : serviceFault ans block sl.first (sl.first + n) s =
      { s with batch := s.batch.noteFault s.ctx.numRetries (sl.first + n) false }.serviceChecked ans
        block (sl.first + n) := by
    simp only [serviceFault, hdup, Bool.false_and, Bool.false_eq_true, if_false]
  have haccess : ((s.batch.noteFault s.ctx.numRetries (sl.first + n) false).entries
      (sl.first + n)).accessType = (batch.entries (sl.first + n)).accessType := by
    have hentry : s.batch.entries (sl.first + n) = batch.entries (sl.first + n) := by
      rw [h.marked, markedEntries_self]
    rw [← hentry]
    by_cases hr : s.ctx.numRetries = 0 <;>
      simp [noteFault, setEntry, updateBatch, hr]
  rw [hstep]
  -- the permission check marks it, and no later check takes that back
  apply (SerialLoop.marksMore_serviceChecked (n := 0)).isFatal
  apply FaultMesh.isFatal_of_denied
  · rw [haccess]
    simpa [BlockAnswers.denied] using hdenied
  · rw [haccess]
    exact hprefetch

theorem serviceFaults_end {fuel : Nat} {s : SerialLoop}
    (h : SerialRun ans block batch.entries ctx sl.first sl.numFaults s)
    (hfuel : sl.first + sl.numFaults + fuel = batch.numCoalescedFaults) :
    serviceFaults ans block sl.first fuel (sl.first + sl.numFaults) s = s := by
  cases fuel with
  | zero => rfl
  | succ fuel =>
    rw [serviceFaults, if_neg]
    rintro ⟨hspace, hlast⟩
    rw [h.marked, markedEntries_self] at hspace hlast
    have := sl.ends (by omega) hspace
    omega

/-- From any place of the slice on, either all accesses that count are permitted and the
loop makes what `SerialRun` says of all faults, or some access is denied and a fault of the slice
is fatal in the end. -/
theorem serviceFaults_run (hretry : ctx.numRetries = 0) {m n fuel : Nat} {s : SerialLoop}
    (hn : n + m = sl.numFaults) (hfuel : sl.first + n + fuel = batch.numCoalescedFaults)
    (h : SerialRun ans block batch.entries ctx sl.first n s) :
    (SerialRun ans block batch.entries ctx sl.first sl.numFaults
        (serviceFaults ans block sl.first fuel (sl.first + n) s) ∧
      ∀ j, n ≤ j → j < sl.numFaults → leads batch.entries sl.first (sl.first + j) →
        ans.denied batch.entries (sl.first + j) →
          (batch.entries (sl.first + j)).accessType = .prefetch) ∨
    ((∃ j < sl.numFaults, ((serviceFaults ans block sl.first fuel (sl.first + n) s).batch.entries
        (sl.first + j)).isFatal) ∧
      ∃ j < sl.numFaults, leads batch.entries sl.first (sl.first + j) ∧
        ans.denied batch.entries (sl.first + j) ∧
          (batch.entries (sl.first + j)).accessType ≠ .prefetch) := by
  induction m generalizing n fuel s with
  | zero =>
    obtain rfl : n = sl.numFaults := hn
    left
    rw [serviceFaults_end sl h hfuel]
    exact ⟨h, fun j hj hlt => absurd hlt (by omega)⟩
  | succ m ih =>
    have hlt : n < sl.numFaults := by omega
    have hbound := sl.bound
    obtain ⟨fuel, rfl⟩ : ∃ k, fuel = k + 1 := ⟨fuel - 1, by omega⟩
    have hguard : (s.batch.entries (sl.first + n)).vaSpace = some block.vaSpace ∧
        (s.batch.entries (sl.first + n)).faultAddress ≤ block.last := by
      rw [h.marked, markedEntries_self]
      exact ⟨sl.vaSpace n hlt, sl.le_last n hlt⟩
    rw [serviceFaults, if_pos hguard]
    by_cases hden : leads batch.entries sl.first (sl.first + n) →
        ans.denied batch.entries (sl.first + n) →
          (batch.entries (sl.first + n)).accessType = .prefetch
    · have hnext : SerialRun ans block batch.entries ctx sl.first (n + 1)
          (serviceFault ans block sl.first (sl.first + n) s) := by
        cases hlead : leads batch.entries sl.first (sl.first + n) with
        | true => exact h.lead hretry hlead (hden hlead)
        | false =>
          -- the first fault of the slice leads, so there is one before
          have hpos : 0 < n := by
            rcases Nat.eq_zero_or_pos n with rfl | hpos
            · simp [leads] at hlead
            · exact hpos
          have hprev := sl.serviceable (n - 1) (by omega)
          rw [← Nat.add_sub_assoc hpos] at hprev
          exact h.repeat hretry hlead hprev
      rcases @ih (n + 1) fuel _ (by omega) (by omega) hnext with ⟨hrun, hrest⟩ | hfatal
      · left
        refine ⟨hrun, fun j hj => ?_⟩
        rcases Nat.eq_or_lt_of_le hj with rfl | hj
        · exact fun _ => hden
        · exact hrest j hj
      · exact .inr hfatal
    · right
      obtain ⟨hlead, hden⟩ := Classical.not_imp.1 hden
      obtain ⟨hden, hprefetch⟩ := Classical.not_imp.1 hden
      refine ⟨⟨n, hlt, ?_⟩, n, hlt, hlead, hden, hprefetch⟩
      apply (serviceFaults_marksMore le_rfl).isFatal
      exact h.isFatal_of_denied sl hlead hden hprefetch

theorem serialRun_zero : SerialRun ans block batch.entries ctx sl.first 0
    { batch := batch, ctx := ctx.begin } :=
  ⟨(markedEntries_zero ans batch.entries sl.first).symm, rfl, rfl⟩

def kthreadServes (ans : BlockAnswers) (entries : Nat → FaultEntry) (i : Nat) : Bool :=
  !repeatsPrevious entries i && !ans.waived entries i

/-- The worker on a fault that is not fatal. -/
theorem kthreadFault_tally {entries : Nat → FaultEntry} {i : Nat} {s : KthreadLoop}
    (hfatal : (entries i).isFatal = false) :
    (kthreadFault ans block entries i s).tally =
      if kthreadServes ans entries i then s.tally.enter (pageVisit ans block entries i)
      else s.tally := by
  unfold kthreadFault
  dsimp only
  rw [if_neg (by simp [hfatal])]
  by_cases hrep : repeatsPrevious entries i
  · rw [if_pos hrep, if_neg (by simp [kthreadServes, hrep])]
    rfl
  · rw [if_neg hrep]
    by_cases hauth : ans.gpuAuthorized i (entries i).accessType.toProt
    · rw [if_pos hauth, if_neg (by simp [kthreadServes, BlockAnswers.waived, hauth])]
      rfl
    · rw [if_neg hauth]
      by_cases hthr : ans.thrashingHint i = .throttle
      · rw [if_pos hthr, if_neg (by simp [kthreadServes, BlockAnswers.waived, hthr])]
        rfl
      · have hserves : kthreadServes ans entries i = true := by
          simp [kthreadServes, BlockAnswers.waived, hrep, hauth, hthr]
        rw [if_neg hthr, if_pos hserves]
        -- the access type and the read-duplicate mask are set in another order
        simp only [KthreadLoop.tally, Tally.enter, pageVisit, decide_eq_true_eq]
        by_cases hres : (ans.selectResidency i (entries i).accessTypeMask).2
        · simp only [hres, if_true]
          rfl
        · simp only [hres]
          rfl

theorem kthreadFaults_run {m n : Nat} {s : KthreadLoop} (hn : n + m = sl.numFaults)
    {t : Tally} (h : s.tally = t.enterAll
      (visits ans block batch.entries sl.first (fun j => kthreadServes ans batch.entries (sl.first + j))
        n)) :
    (kthreadFaults ans block batch.entries m (sl.first + n) s).tally = t.enterAll
      (visits ans block batch.entries sl.first (fun j => kthreadServes ans batch.entries (sl.first + j))
        sl.numFaults) := by
  induction m generalizing n s with
  | zero =>
    obtain rfl : n = sl.numFaults := hn
    exact h
  | succ m ih =>
    have hlt : n < sl.numFaults := by omega
    have hstart := sl.start_le n hlt
    have hlast := sl.le_last n hlt
    rw [kthreadFaults, if_neg (by omega)]
    apply @ih (n + 1) _ (by omega)
    rw [kthreadFault_tally (sl.serviceable n hlt), visits_succ, Tally.enterAll, List.foldl_append]
    have hold : s.tally = List.foldl Tally.enter t _ := h
    rw [← hold]
    split <;> rfl

end Runs

/-! ## The faults of one page -/

namespace BlockSlice

variable {ans : BlockAnswers} {block : VaBlock} {batch : ServiceBatch} (sl : BlockSlice block batch)
  {i j : Nat}

theorem address_of_page (hi : i < sl.numFaults) (hj : j < sl.numFaults)
    (h : block.cpuPageIndex (batch.entries (sl.first + i)).faultAddress =
      block.cpuPageIndex (batch.entries (sl.first + j)).faultAddress) :
    (batch.entries (sl.first + i)).faultAddress = (batch.entries (sl.first + j)).faultAddress := by
  have h₁ := sl.start_le i hi
  have h₂ := sl.start_le j hj
  have h₃ := sl.aligned i hi
  have h₄ := sl.aligned j hj
  have h₅ := block.start_aligned
  simp only [VaBlock.cpuPageIndex, pageSize] at h h₃ h₄ h₅
  omega

theorem leads_zero : leads batch.entries sl.first (sl.first + 0) = true := by
  simp [leads]

theorem leads_succ (hj : j + 1 < sl.numFaults) :
    leads batch.entries sl.first (sl.first + (j + 1)) =
      decide ((batch.entries (sl.first + (j + 1))).faultAddress ≠
        (batch.entries (sl.first + j)).faultAddress) := by
  have hpred : sl.first + (j + 1) - 1 = sl.first + j := rfl
  simp [leads, checkFaultEntryDuplicate, hpred, sl.vaSpace j (by omega), sl.vaSpace (j + 1) hj]

theorem not_leads_of_lt (hij : i < j) (hj : j < sl.numFaults)
    (h : (batch.entries (sl.first + i)).faultAddress = (batch.entries (sl.first + j)).faultAddress) :
    leads batch.entries sl.first (sl.first + j) = false := by
  obtain ⟨j, rfl⟩ : ∃ k, j = k + 1 := ⟨j - 1, by omega⟩
  -- sorting puts the address of the fault before in between
  have h₁ := sl.sorted i j (by omega) (by omega)
  have h₂ := sl.sorted j (j + 1) (by omega) hj
  rw [sl.leads_succ hj]
  simp only [ne_eq, decide_not, Bool.not_eq_false', decide_eq_true_eq]
  omega

theorem leads_unique (hi : i < sl.numFaults) (hj : j < sl.numFaults)
    (hli : leads batch.entries sl.first (sl.first + i))
    (hlj : leads batch.entries sl.first (sl.first + j))
    (h : block.cpuPageIndex (batch.entries (sl.first + i)).faultAddress =
      block.cpuPageIndex (batch.entries (sl.first + j)).faultAddress) : i = j := by
  have haddr := sl.address_of_page hi hj h
  rcases Nat.lt_trichotomy i j with hlt | heq | hgt
  · rw [sl.not_leads_of_lt hlt hj haddr] at hlj
    cases hlj
  · exact heq
  · rw [sl.not_leads_of_lt hgt hi haddr.symm] at hli
    cases hli

theorem exists_leads (hj : j < sl.numFaults) :
    ∃ i ≤ j, leads batch.entries sl.first (sl.first + i) ∧
      (batch.entries (sl.first + j)).faultAddress = (batch.entries (sl.first + i)).faultAddress := by
  induction j with
  | zero => exact ⟨0, le_rfl, sl.leads_zero, rfl⟩
  | succ j ih =>
    by_cases h : (batch.entries (sl.first + (j + 1))).faultAddress =
        (batch.entries (sl.first + j)).faultAddress
    · obtain ⟨i, hi, hlead, haddr⟩ := ih (by omega)
      exact ⟨i, by omega, hlead, h.trans haddr⟩
    · refine ⟨j + 1, le_rfl, ?_, rfl⟩
      rw [sl.leads_succ hj]
      exact decide_eq_true h

theorem pageMarks_eq (hij : i ≤ j) (hj : j < sl.numFaults)
    (hlead : leads batch.entries sl.first (sl.first + i))
    (h : (batch.entries (sl.first + j)).faultAddress = (batch.entries (sl.first + i)).faultAddress) :
    pageMarks ans batch.entries sl.first j =
      (ans.denied batch.entries (sl.first + i), ans.throttled batch.entries (sl.first + i)) := by
  induction j with
  | zero =>
    obtain rfl : i = 0 := by omega
    exact pageMarks_leads hlead
  | succ j ih =>
    rcases Nat.eq_or_lt_of_le hij with rfl | hlt
    · exact pageMarks_leads hlead
    · have h₁ := sl.sorted i j (by omega) (by omega)
      have h₂ := sl.sorted j (j + 1) (by omega) hj
      rw [pageMarks, sl.not_leads_of_lt hlt hj h.symm]
      exact ih (by omega) (by omega) (by omega)

theorem leads_of_not_repeats (hj : j < sl.numFaults)
    (h : repeatsPrevious batch.entries (sl.first + j) = false) :
    leads batch.entries sl.first (sl.first + j) := by
  cases j with
  | zero => exact sl.leads_zero
  | succ j =>
    have hpred : sl.first + (j + 1) - 1 = sl.first + j := rfl
    have hpos : 0 < sl.first + (j + 1) := by omega
    simpa [repeatsPrevious, leads, hpred, hpos, sl.serviceable j (by omega)] using h

end BlockSlice

/-! ## Comparing the pages entered -/

section Compare

variable {ans : BlockAnswers} {block : VaBlock} {batch : ServiceBatch} (sl : BlockSlice block batch)

theorem mem_visits {entries : Nat → FaultEntry} {first n : Nat} {served : Nat → Bool} {x : PageVisit} :
    x ∈ visits ans block entries first served n ↔
      ∃ j < n, served j ∧ pageVisit ans block entries (first + j) = x := by
  simp [visits, and_assoc]

theorem inResidency_iff_served {t : Tally} {served : Nat → Bool} {j : Nat}
    (ht : t.ctx.residentProcessors = fun _ => false)
    (hserved : ∀ k < sl.numFaults, served k → leads batch.entries sl.first (sl.first + k))
    (hj : j < sl.numFaults) (hlead : leads batch.entries sl.first (sl.first + j)) :
    (t.enterAll (visits ans block batch.entries sl.first served sl.numFaults)).ctx.inResidency
        (pageVisit ans block batch.entries (sl.first + j)).proc
        (pageVisit ans block batch.entries (sl.first + j)).page = served j := by
  have hnone : ∀ proc page, t.ctx.inResidency proc page = false := fun proc page => by
    simp [ServiceBlockContext.inResidency, ht]
  rw [Tally.inResidency_enterAll, hnone, Bool.or_false, Bool.eq_iff_iff, List.any_eq_true]
  refine ⟨?_, fun h => ⟨_, mem_visits.2 ⟨j, hj, h, rfl⟩, by simp⟩⟩
  rintro ⟨x, hx, hpage⟩
  obtain ⟨k, hk, hs, rfl⟩ := mem_visits.1 hx
  have heq := sl.leads_unique hk hj (hserved k hk hs) hlead (of_decide_eq_true hpage).2
  rwa [heq] at hs

theorem Tally.bounds_enterAll_congr {t t' : Tally} {xs : List PageVisit}
    (hfirst : t.firstPageIndex = t'.firstPageIndex) (hlast : t.lastPageIndex = t'.lastPageIndex) :
    (t.enterAll xs).firstPageIndex = (t'.enterAll xs).firstPageIndex ∧
      (t.enterAll xs).lastPageIndex = (t'.enterAll xs).lastPageIndex := by
  induction xs generalizing t t' with
  | nil => exact ⟨hfirst, hlast⟩
  | cons x xs ih =>
    apply ih
    · simp only [enter, hfirst]
    · simp only [enter, hlast]

theorem Tally.bounds_enter_le (t : Tally) (x : PageVisit) :
    (t.enter x).firstPageIndex ≤ (t.enter x).lastPageIndex := by
  simp only [enter]
  split <;> split <;> omega

theorem Tally.bounds_enterAll_le_iff {t : Tally} {xs : List PageVisit}
    (ht : t.lastPageIndex < t.firstPageIndex) :
    (t.enterAll xs).firstPageIndex ≤ (t.enterAll xs).lastPageIndex ↔ 0 < xs.length := by
  have hkeep : ∀ (xs : List PageVisit) (t : Tally), t.firstPageIndex ≤ t.lastPageIndex →
      (t.enterAll xs).firstPageIndex ≤ (t.enterAll xs).lastPageIndex := by
    intro xs
    induction xs with
    | nil => exact fun _ h => h
    | cons x xs ih => exact fun t _ => ih _ (t.bounds_enter_le x)
  cases xs with
  | nil => simpa [enterAll] using ht
  | cons x xs =>
    refine ⟨fun _ => Nat.succ_pos _, fun _ => ?_⟩
    exact hkeep xs _ (t.bounds_enter_le x)

theorem serves_leads (j : Nat) (h : serves ans batch.entries sl.first (sl.first + j)) :
    leads batch.entries sl.first (sl.first + j) := by
  simp only [serves, Bool.and_eq_true] at h
  exact h.1.1

theorem kthreadServes_leads (j : Nat) (hj : j < sl.numFaults)
    (h : kthreadServes ans batch.entries (sl.first + j)) :
    leads batch.entries sl.first (sl.first + j) := by
  apply sl.leads_of_not_repeats hj
  simp only [kthreadServes, Bool.and_eq_true, Bool.not_eq_true'] at h
  exact h.1

theorem DecidesAlike.serves_eq (h : DecidesAlike ans batch.entries sl.first sl.numFaults) {j : Nat}
    (hj : j < sl.numFaults) :
    serves ans batch.entries sl.first (sl.first + j) = kthreadServes ans batch.entries (sl.first + j) := by
  cases hlead : leads batch.entries sl.first (sl.first + j) with
  | false =>
    rw [serves, hlead, Bool.false_and, Bool.false_and]
    cases hk : kthreadServes ans batch.entries (sl.first + j) with
    | false => rfl
    | true =>
      rw [kthreadServes_leads sl j hj hk] at hlead
      cases hlead
  | true =>
    rw [serves, hlead, Bool.true_and, kthreadServes]
    cases hw : ans.waived batch.entries (sl.first + j) with
    | true => simp
    | false => rw [h.served j hj hlead hw]

variable {ctx ctx' : ServiceBlockContext} {s : SerialLoop} {k : KthreadLoop}

variable (ans ctx' k) in
def KthreadRun : Prop :=
  k.tally = Tally.enterAll { ctx := { ctx'.begin with numRetries := 0 } }
    (visits ans block batch.entries sl.first (fun j => kthreadServes ans batch.entries (sl.first + j))
      sl.numFaults)

section

variable (hs : SerialRun ans block batch.entries ctx sl.first sl.numFaults s)
include hs

theorem SerialRun.entry_eq
    {i j : Nat} (hij : i ≤ j) (hj : j < sl.numFaults)
    (hlead : leads batch.entries sl.first (sl.first + i))
    (haddr : (batch.entries (sl.first + j)).faultAddress =
      (batch.entries (sl.first + i)).faultAddress) :
    s.batch.entries (sl.first + j) = (batch.entries (sl.first + j)).withMarks
      (ans.denied batch.entries (sl.first + i), ans.throttled batch.entries (sl.first + i)) := by
  rw [hs.marked, markedEntries, if_pos (by omega), Nat.add_sub_cancel_left,
    sl.pageMarks_eq hij hj hlead haddr]

theorem SerialRun.sameDecision (hk : KthreadRun ans sl ctx' k)
    (h : DecidesAlike ans batch.entries sl.first sl.numFaults) :
    SameDecision batch.entries sl.first sl.numFaults s k := by
  have hvisits : visits ans block batch.entries sl.first
        (fun j => kthreadServes ans batch.entries (sl.first + j)) sl.numFaults =
      visits ans block batch.entries sl.first
        (fun j => serves ans batch.entries sl.first (sl.first + j)) sl.numFaults := by
    rw [visits, visits]
    congr 1
    apply List.filter_congr
    intro j hj
    exact (h.serves_eq sl (List.mem_range.1 hj)).symm
  rw [KthreadRun, hvisits] at hk
  have hst := hs.tally
  have hcount := hs.count
  -- both loops enter the same pages
  generalize visits ans block batch.entries sl.first _ sl.numFaults = xs at hk hst hcount
  have hcs : s.ctx = s.tally.ctx := rfl
  have hck : k.ctx = k.tally.ctx := rfl
  have hbounds := @Tally.bounds_enterAll_congr { ctx := ctx.begin }
    { ctx := { ctx'.begin with numRetries := 0 } } xs rfl rfl
  refine ⟨?_, ?_, ?_, ?_, ?_, ?_⟩
  · intro proc page
    rw [hcs, hck, hst, hk, Tally.inResidency_enterAll, Tally.inResidency_enterAll]
    rfl
  · intro proc page hres
    rw [hcs, hst, Tally.inResidency_enterAll] at hres
    rw [hcs, hck, hst, hk]
    apply Tally.accessType_enterAll_congr
    right
    rcases Bool.or_eq_true_iff.1 hres with hany | hold
    · obtain ⟨x, hx, hpage⟩ := List.any_eq_true.1 hany
      exact ⟨x, hx, (of_decide_eq_true hpage).2⟩
    · cases hold
  · have hfirst : s.firstPageIndex = k.firstPageIndex :=
      (congrArg Tally.firstPageIndex hst).trans
        (hbounds.1.trans (congrArg Tally.firstPageIndex hk).symm)
    have hlast : s.lastPageIndex = k.lastPageIndex :=
      (congrArg Tally.lastPageIndex hst).trans
        (hbounds.2.trans (congrArg Tally.lastPageIndex hk).symm)
    have hcalled : k.firstPageIndex ≤ k.lastPageIndex ↔ 0 < s.pageFaultCount := by
      rw [hcount, ← @Tally.bounds_enterAll_le_iff { ctx := { ctx'.begin with numRetries := 0 } } xs
        (show 0 < pagesPerUvmVaBlock by decide), ← hk]
      rfl
    simp only [SerialLoop.region, KthreadLoop.region, hfirst, hlast, hcalled]
  · intro page
    rw [hcs, hck, hst, hk, Tally.isPinned_enterAll, Tally.isPinned_enterAll]
    rfl
  · intro page
    rw [hcs, hck, hst, hk, Tally.isReadDuplicated_enterAll, Tally.isReadDuplicated_enterAll]
    rfl
  · intro j hj
    obtain ⟨i, hij, hlead, haddr⟩ := sl.exists_leads hj
    obtain ⟨hinvalid, hthrottled⟩ := h.marks j hj i hij hlead haddr
    rw [hs.entry_eq sl hij hj hlead haddr]
    exact ⟨rfl, fun _ => rfl, hthrottled.symm, hinvalid.symm⟩

theorem SerialRun.decidesAlike
    (hk : KthreadRun ans sl ctx' k)
    (hdenied : ∀ j < sl.numFaults, leads batch.entries sl.first (sl.first + j) →
      ans.denied batch.entries (sl.first + j) → (batch.entries (sl.first + j)).accessType = .prefetch)
    (h : SameDecision batch.entries sl.first sl.numFaults s k) :
    DecidesAlike ans batch.entries sl.first sl.numFaults := by
  refine ⟨hdenied, ?_, ?_⟩
  · intro j hj hlead hw
    -- the page of the fault is in both masks or in none
    have hres := h.residency (pageVisit ans block batch.entries (sl.first + j)).proc
      (pageVisit ans block batch.entries (sl.first + j)).page
    have hcs : s.ctx = s.tally.ctx := rfl
    have hck : k.ctx = k.tally.ctx := rfl
    rw [hcs, hck, hs.tally, hk,
      inResidency_iff_served sl rfl (fun j _ => serves_leads sl j) hj hlead,
      inResidency_iff_served sl rfl (kthreadServes_leads sl) hj hlead] at hres
    simpa [serves, kthreadServes, hlead, hw] using hres
  · intro j hj i hij hlead haddr
    have hmarks := h.marks j hj
    rw [hs.entry_eq sl hij hj hlead haddr] at hmarks
    exact ⟨hmarks.isInvalidPrefetch.symm, hmarks.isThrottled.symm⟩

end

end Compare

/-! ## Main result -/

/-- For every slice, whatever was asked is answered: the worker decides the same as the serial
loop, called without a retry, if and only if the slice decides alike. -/
theorem kthread_decides_as_serial_iff (ans : BlockAnswers) (block : VaBlock) (batch : ServiceBatch)
    (sl : BlockSlice block batch) (ctx ctx' : ServiceBlockContext) :
    SameDecision batch.entries sl.first sl.numFaults
        (serviceFaultBatchBlockLocked ans block batch { ctx with numRetries := 0 } sl.first)
        (serviceBlockFaultsKthread ans block batch ctx' sl.first sl.numFaults) ↔
      DecidesAlike ans batch.entries sl.first sl.numFaults := by
  have hbound := sl.bound
  have hk : KthreadRun ans sl ctx'
      (serviceBlockFaultsKthread ans block batch ctx' sl.first sl.numFaults) :=
    @kthreadFaults_run ans block batch sl sl.numFaults 0 _ (Nat.zero_add _) _ rfl
  have hrun := @serviceFaults_run ans block batch { ctx with numRetries := 0 } sl rfl sl.numFaults 0
    (batch.numCoalescedFaults - sl.first) _ (Nat.zero_add _) (by omega) (serialRun_zero sl)
  rcases hrun with ⟨hs, hdenied⟩ | ⟨⟨j, hj, hfatal⟩, i, hi, hlead, hden, hprefetch⟩
  · exact ⟨hs.decidesAlike sl hk fun j hj => hdenied j (Nat.zero_le j) hj,
      hs.sameDecision sl hk⟩
  · constructor
    · intro h
      -- the worker marks nothing
      have hmark := (h.marks j hj).isFatal
      rw [sl.serviceable j hj] at hmark
      exact absurd (hfatal.symm.trans hmark) (by decide)
    · intro h
      exact absurd (h.denied i hi hlead hden) hprefetch

def onePageBlock : VaBlock where
  vaSpace := 0
  start := 0
  last := 4095
  start_aligned := rfl
  last_lt := by decide

/-- A batch of one write fault, with its own bit in the mask. -/
def writeBatch : ServiceBatch where
  entries _ := { faultAddress := 0, accessType := .write, vaSpace := some 0, numInstances := 1,
                 accessTypeMask := AccessType.write.maskBit }
  numCoalescedFaults := 1

def writeSlice : BlockSlice onePageBlock writeBatch where
  first := 0
  numFaults := 1
  bound := le_rfl
  vaSpace := fun _ _ => rfl
  start_le := fun _ _ => le_rfl
  le_last := fun _ _ => Nat.zero_le _
  sorted := fun _ _ _ _ => le_rfl
  aligned := fun _ _ => rfl
  serviceable := fun _ _ => rfl
  ends := fun h => absurd h (by decide)

/-- The range permits reads only, and nothing is mapped. -/
def readOnlyRange : BlockAnswers where
  logicalPermissions _ access _ := if access ≤ .read then .ok else .errInvalidAccessType
  migratable _ := true
  gpuAuthorized _ _ := false
  thrashingHint _ := .none
  selectResidency _ _ := (0, false)

/-- The write is cancelled on the serial path; the worker makes the page resident for it. -/
theorem denied_write_serviced :
    let s := serviceFaultBatchBlockLocked readOnlyRange onePageBlock writeBatch {} writeSlice.first
    let k := serviceBlockFaultsKthread readOnlyRange onePageBlock writeBatch {} writeSlice.first
      writeSlice.numFaults
    ((s.batch.entries 0).isFatal = true ∧ (s.batch.entries 0).cancelVaMode = .writeAndAtomic ∧
        s.region = none) ∧
      (k.region = some (0, 1) ∧ k.ctx.inResidency 0 0 = true ∧ k.ctx.accessType 0 = .write) ∧
      ¬ SameDecision writeBatch.entries writeSlice.first writeSlice.numFaults s k := by
  refine ⟨by decide, by decide, fun h => ?_⟩
  exact absurd h.region (by decide)

end FaultMesh
