import FaultMesh.Starvation

/-!
# What the stale-fault filter may drop

Dropping a fault is harmless if the access would succeed by now: the GPU has a mapping of the page
in the right VA space and with the right permission. The filter cannot see mappings. It compares
the fault with those of the last batch, by page address (modes 1 and 2) or by instance pointer and
address (mode 0), and takes for granted that servicing that batch has settled the matter.

To say when this is justified the service loop is run next to the GPU page tables. Servicing
reports the new page tables and which faults it acted on; everything else that changes a mapping
is a step of its own and marks the page as touched.
-/

namespace FaultMesh

/-! ## The loop and the page tables -/

/-- The permission the GPU page tables grant for each page of each VA space. -/
abbrev PageTables := VaSpaceId → Nat → Prot

/-- The service loop next to the page tables. `batch` are the faults of the last serviced batch,
`touched` the pages an eviction, unmap, migration or revocation touched since then. -/
structure FilterWorld where
  svc : ServiceState
  pages : PageTables
  batch : List FaultEntry := []
  serviceOk : Bool := false
  touched : VaSpaceId → Nat → Bool := fun _ _ => false

/-- What one call of `service_fault_batch` reports. -/
structure ServiceReport where
  outcome : ServiceOutcome := {}
  pages : PageTables
  /-- The faults whose access is possible afterwards: serviced in full or found stale, not
  throttled, fatal, downgraded or ignored. -/
  handled : FaultEntry → Bool
  /-- Pages that were evicted again before the call returned. -/
  evicted : VaSpaceId → Nat → Bool := fun _ _ => false

/-- The page of the fault is mapped with the permission its access needs, or was touched. -/
def Granted (pages : PageTables) (touched : VaSpaceId → Nat → Bool) (f : FaultEntry) : Prop :=
  match f.vaSpace with
  | some va =>
    touched va f.faultAddress = true ∨ f.accessType.toProt ≤ pages va f.faultAddress
  | none => False

instance (pages : PageTables) (touched : VaSpaceId → Nat → Bool) (f : FaultEntry) :
    Decidable (Granted pages touched f) :=
  match h : f.vaSpace with
  | some va => decidable_of_iff
      (touched va f.faultAddress = true ∨ f.accessType.toProt ≤ pages va f.faultAddress)
      (by simp [Granted, h])
  | none => isFalse (by simp [Granted, h])

/-- What servicing promises when it returns `NV_OK`: the faults it handled are granted. -/
def ServiceContract (r : ServiceReport) (batch : List FaultEntry) : Prop :=
  r.outcome.status = .ok → ∀ f ∈ batch, r.handled f = true → Granted r.pages r.evicted f

instance (r : ServiceReport) (batch : List FaultEntry) : Decidable (ServiceContract r batch) :=
  inferInstanceAs (Decidable (_ → ∀ f ∈ batch, _ → _))

/-- A call of the loop other than servicing, servicing with its report, or a change of the page
tables from outside. -/
inductive WorldLabel where
  | driver (i : Label)
  | service (r : ServiceReport)
  | touch (va : VaSpaceId) (page : Nat) (prot : Prot)

def worldStep (p : Params) (gpu : GpuConfig) (w : FilterWorld) : WorldLabel → Option FilterWorld
  | .driver (.service _) => none
  | .driver i => (serviceStep p gpu w.svc i).map fun s => { w with svc := s }
  | .service r =>
    if ServiceContract r w.svc.d.bc.orderedEntries then
      (serviceStep p gpu w.svc (.service r.outcome)).map fun s =>
        { svc := s
          pages := r.pages
          batch := w.svc.d.bc.orderedEntries
          serviceOk := r.outcome.status = .ok
          touched := r.evicted }
    else none
  | .touch va page prot =>
    some { w with
      pages := fun va' page' => if va' = va ∧ page' = page then prot else w.pages va' page'
      touched := fun va' page' => (va' = va ∧ page' = page) || w.touched va' page' }

def filterMachine (p : Params) (gpu : GpuConfig) : Machine FilterWorld WorldLabel where
  step := worldStep p gpu

/-! ## Dropped entries -/

def Event.droppedEntry : Event → Option FaultEntry
  | .dropped _ e => some e
  | _ => none

/-- The entries dropped while the log grew from `old` to `new`. -/
def droppedSince (old new : List Event) : List FaultEntry :=
  (new.take (new.length - old.length)).filterMap Event.droppedEntry

theorem droppedSince_append (evs old : List Event) :
    droppedSince old (evs ++ old) = evs.filterMap Event.droppedEntry := by
  simp [droppedSince]

theorem droppedSince_eq_nil {evs old new : List Event} (hnew : new = evs ++ old)
    (h : ∀ e ∈ evs, e.isDropped = false) : droppedSince old new = [] := by
  rw [hnew, droppedSince_append, List.filterMap_eq_nil_iff]
  intro e he
  have hnot := h e he
  cases e <;> simp_all [Event.droppedEntry, Event.isDropped]

theorem FilterFrame.droppedSince {d d' : Driver} (h : FilterFrame d d') :
    FaultMesh.droppedSince d.log d'.log = [] := by
  obtain ⟨evs, hlog, hevs⟩ := h.log
  exact droppedSince_eq_nil hlog fun e he => isDropped_of_not_isFetched (hevs e he).1

/-- The fault needs no work: its access is possible in the VA space of its instance pointer. -/
def NoWorkNeeded (w : FilterWorld) (e : FaultEntry) : Prop :=
  ∃ va, w.svc.channels e.toRawFault = .vaSpace va ∧
    e.accessType.toProt ≤ w.pages va e.faultAddress

/-- Nothing touched the page of the fault since the last batch was serviced. -/
def Untouched (w : FilterWorld) (e : FaultEntry) : Prop :=
  ∀ va, w.svc.channels e.toRawFault = .vaSpace va → w.touched va e.faultAddress = false

instance (w : FilterWorld) (e : FaultEntry) : Decidable (NoWorkNeeded w e) :=
  match h : w.svc.channels e.toRawFault with
  | .vaSpace va =>
    decidable_of_iff (e.accessType.toProt ≤ w.pages va e.faultAddress) (by simp [NoWorkNeeded, h])
  | .invalidChannel => isFalse (by simp [NoWorkNeeded, h])
  | .pageTableNotAvail => isFalse (by simp [NoWorkNeeded, h])

instance (w : FilterWorld) (e : FaultEntry) : Decidable (Untouched w e) :=
  match h : w.svc.channels e.toRawFault with
  | .vaSpace va =>
    decidable_of_iff (w.touched va e.faultAddress = false) (by simp [Untouched, h])
  | .invalidChannel => isTrue (by simp [Untouched, h])
  | .pageTableNotAvail => isTrue (by simp [Untouched, h])

/-! ## The condition -/

/-- A pending packet that looks to the filter like a fault of the last batch needs no more than
such a fault: it belongs to the same VA space and its access needs no stronger permission. -/
def SameNeeds (mode : PrevFetchMode) (w : FilterWorld) (e : FaultEntry) : Prop :=
  e.isFatal = false → (∃ f ∈ w.batch, filterKey mode f.toRawFault = filterKey mode e.toRawFault) →
    ∃ f ∈ w.batch, filterKey mode f.toRawFault = filterKey mode e.toRawFault ∧
      f.vaSpace.map Translation.vaSpace = some (w.svc.channels e.toRawFault) ∧
      e.accessType.toProt ≤ f.accessType.toProt

instance (mode : PrevFetchMode) (w : FilterWorld) (e : FaultEntry) :
    Decidable (SameNeeds mode w e) :=
  inferInstanceAs (Decidable (_ → _ → _))

/-- The state before a fetch justifies what the fetch will drop, and the fetch leaves a table that
answers for the next batch at most. -/
def FilterFetchGuard (p : Params) (gpu : GpuConfig) (hal : Hal) (w : FilterWorld) : Prop :=
  MemoSound p.prevFetchMode w.svc.d.rf.predictor ∧
    (∀ slot ∈ pendingSlots gpu hal w.svc.d.rf, (hal.parse slot).1 = .ok ∧
      SameNeeds p.prevFetchMode w (parsedEntry { faultAddress := 0 } (hal.parse slot).2)) ∧
    (p.prevFetchMode.useCoalescedPages = false →
      w.svc.d.bc.numCachedFaults ≤ (fetchWindow p gpu hal .batchReady w.svc.d.rf).1 ∨
        pendingEntries w.svc.d.rf.cachedGet (fetchPut w.svc.d.rf hal) gpu.maxFaults = 0)

instance (p : Params) (gpu : GpuConfig) (hal : Hal) (w : FilterWorld) :
    Decidable (FilterFetchGuard p gpu hal w) :=
  inferInstanceAs (Decidable (_ ∧ (∀ slot ∈ pendingSlots gpu hal w.svc.d.rf, _ ∧ _) ∧ (_ → _)))

/-- The condition on each step: fetches as in `FilterFetchGuard`; the channel of every cached
fault is registered when it is preprocessed; servicing that returns `NV_OK` has handled every
fault of the batch, and no fatal fault sends the loop into the precise cancel. -/
def FilterGuard (p : Params) (gpu : GpuConfig) (w : FilterWorld) : WorldLabel → Prop
  | .driver (.fetch hal) => w.svc.vars.limitReached p = false → FilterFetchGuard p gpu hal w
  | .driver (.preprocess _) => ∀ i < w.svc.d.bc.numCachedFaults,
      (w.svc.channels (w.svc.d.bc.faultCache i).toRawFault).isVaSpace = true
  | .driver (.endBatch _) => w.svc.vars.status = .ok → w.svc.d.bc.fatalVaSpace = none
  | .service r => r.outcome.status = .ok → ∀ f ∈ w.svc.d.bc.orderedEntries, r.handled f = true
  | _ => True

instance (p : Params) (gpu : GpuConfig) (w : FilterWorld) :
    ∀ i, Decidable (FilterGuard p gpu w i)
  | .driver (.fetch _) => inferInstanceAs (Decidable (_ → _))
  | .driver (.preprocess _) => inferInstanceAs (Decidable (∀ i < _, _))
  | .driver (.endBatch _) => inferInstanceAs (Decidable (_ → _))
  | .service _ => inferInstanceAs (Decidable (_ → ∀ f ∈ w.svc.d.bc.orderedEntries, _))
  | .driver .enter => isTrue trivial
  | .driver (.service _) => isTrue trivial
  | .driver (.leave _) => isTrue trivial
  | .driver (.rebind _) => isTrue trivial
  | .touch _ _ _ => isTrue trivial

/-! ## The invariant -/

/-- In mode 0 the cached entries are among the given faults, up to the key. -/
def SlotsWithin (p : Params) (d : Driver) (faults : List FaultEntry) : Prop :=
  p.prevFetchMode.useCoalescedPages = false → ∀ e ∈ d.bc.sourceEntries d.bc.numCachedFaults,
    ∃ f ∈ faults, filterKey p.prevFetchMode f.toRawFault = filterKey p.prevFetchMode e.toRawFault

/-- Where the answers of the table come from, at each point of the loop. -/
def TableOrigin (p : Params) (w : FilterWorld) : Prop :=
  match w.svc.pc with
  | .fetched => p.prevFetchMode.useCoalescedPages = false →
      TableWithin p w.svc.d (w.svc.d.bc.sourceEntries w.svc.d.bc.numCachedFaults) ∧
        ∀ i < w.svc.d.bc.numCachedFaults, (w.svc.d.bc.faultCache i).predFetchSkip = false
  | .preprocessed => TableWithin p w.svc.d w.svc.d.bc.orderedEntries ∧
      SlotsWithin p w.svc.d w.svc.d.bc.orderedEntries
  | _ => w.serviceOk = true → TableWithin p w.svc.d w.batch ∧ SlotsWithin p w.svc.d w.batch

/-- The faults of the last batch are granted, and the table answers for nothing else. -/
structure FilterWorldInv (p : Params) (w : FilterWorld) : Prop where
  granted : w.serviceOk = true → ∀ f ∈ w.batch, Granted w.pages w.touched f
  origin : TableOrigin p w

section Frame

variable {p : Params} {d d' : Driver} {faults : List FaultEntry}

theorem SlotsWithin.frame (h : SlotsWithin p d faults) (hf : FilterFrame d d') :
    SlotsWithin p d' faults := by
  intro hcache e he
  obtain ⟨i, hi, rfl, hsource⟩ := mem_sourceEntries.1 he
  rw [hf.numCached] at hi
  have hview := hf.views i
  simp only [FaultEntry.filterView, Prod.mk.injEq] at hview
  rw [hview.2.1, hview.2.2] at hsource
  obtain ⟨f, hmem, hkey⟩ := h hcache _ (mem_sourceEntries.2 ⟨i, hi, rfl, hsource⟩)
  exact ⟨f, hmem, by rw [hkey, hview.1]⟩

end Frame

/-! ## Fetching -/

section Fetch

variable {p : Params} {gpu : GpuConfig} {hal : Hal} {d : Driver} {faults : List FaultEntry}

theorem mem_droppedSince_fetch {e : FaultEntry}
    (he : e ∈ droppedSince d.log (fetchFaultBufferEntries p gpu hal .batchReady d).1.log) :
    ∃ slot ∈ pendingSlots gpu hal d.rf, (∃ old, e = parsedEntry old (hal.parse slot).2) ∧
      prevFetchAdaptiveShouldRun p d.rf.predictor = true ∧ e.isFatal = false ∧
      (MemoSound p.prevFetchMode d.rf.predictor →
        tableContains p.prevFetchMode d.rf.predictor e.toRawFault = true) := by
  obtain ⟨evs, hspec⟩ := fetchedState_spec p gpu hal .batchReady d
  obtain ⟨top, hlog, htop⟩ := hspec.call_log
  obtain ⟨evs', hlog', hslots⟩ := fetchLoop_dropped_slot p gpu.maxFaults
    (fetchCtx p gpu .batchReady d.rf (fetchPut d.rf hal)) hal
    (pendingEntries d.rf.cachedGet (fetchPut d.rf hal) gpu.maxFaults) (fetchStart d)
  obtain rfl : evs = evs' := List.append_cancel_right (hspec.log.symm.trans hlog')
  have hsplit : top ++ (evs ++ .fetchBegin :: d.log) = (top ++ evs ++ [.fetchBegin]) ++ d.log := by
    simp
  rw [hlog, hsplit, droppedSince_append] at he
  obtain ⟨ev, hmem, hev⟩ := List.mem_filterMap.1 he
  cases ev with
  | fetchBegin | cached | flushed | rebuilt | replay => cases hev
  | dropped slot f =>
    obtain rfl := Option.some.inj hev
    have hin : .dropped slot f ∈ evs := by
      simp only [List.mem_append, List.mem_singleton, reduceCtorEq, or_false] at hmem
      rcases hmem with hmem | hmem
      · have hrebuilt := htop _ hmem
        simp [Event.isRebuilt] at hrebuilt
      · exact hmem
    obtain ⟨hactive, -, hfatal, htable⟩ := hspec.dropped slot f hin
    obtain ⟨hpending, hparsed⟩ := hslots slot f hin
    exact ⟨slot, hpending, hparsed, hactive, hfatal, htable⟩

theorem fetch_tableWithin_idle (hen : p.prevFetchPredictorEnable = true)
    (hcache : p.prevFetchMode.useCoalescedPages = false) (hS : SlotsWithin p d faults)
    (hpending : pendingEntries d.rf.cachedGet (fetchPut d.rf hal) gpu.maxFaults = 0) :
    TableWithin p (fetchFaultBufferEntries p gpu hal .batchReady d).1 faults := by
  have hsame : (fetchedState p gpu hal .batchReady d).1 = fetchStart d := by
    simp [fetchedState, hpending, fetchLoop]
  intro hrun e htable
  obtain ⟨f, hf, hkey⟩ := fetch_tableWithin_cache hen hcache hrun e htable
  rw [hsame] at hf
  obtain ⟨g, hg, hgkey⟩ := hS hcache f hf
  exact ⟨g, hg, hgkey.trans hkey⟩

end Fetch

/-! ## Steps -/

section Steps

variable {p : Params} {gpu : GpuConfig} {w w' : FilterWorld}

theorem FilterWorldInv.within (hI : FilterWorldInv p w) (hfetched : w.svc.pc ≠ .fetched)
    (hpre : w.svc.pc ≠ .preprocessed) (hok : w.serviceOk = true) :
    TableWithin p w.svc.d w.batch ∧ SlotsWithin p w.svc.d w.batch := by
  have horigin := hI.origin
  unfold TableOrigin at horigin
  cases hpc : w.svc.pc with
  | fetched => exact absurd hpc hfetched
  | preprocessed => exact absurd hpc hpre
  | idle | loopTop | serviced | leaving =>
    rw [hpc] at horigin
    exact horigin hok

theorem FilterWorldInv.driver_frame (hI : FilterWorldInv p w) {s : ServiceState}
    (hfetched : w.svc.pc ≠ .fetched) (hpre : w.svc.pc ≠ .preprocessed)
    (hf : FilterFrame w.svc.d s.d) (hfetched' : s.pc ≠ .fetched) (hpre' : s.pc ≠ .preprocessed) :
    FilterWorldInv p { w with svc := s } := by
  refine ⟨hI.granted, ?_⟩
  have hwithin : w.serviceOk = true → TableWithin p s.d w.batch ∧ SlotsWithin p s.d w.batch := by
    intro hok
    obtain ⟨htable, hslots⟩ := hI.within hfetched hpre hok
    exact ⟨htable.frame hf, hslots.frame hf⟩
  unfold TableOrigin
  cases hpc : s.pc with
  | fetched => exact absurd hpc hfetched'
  | preprocessed => exact absurd hpc hpre'
  | idle | loopTop | serviced | leaving => exact hwithin

section

variable (hen : p.prevFetchPredictorEnable = true)
include hen

theorem fetch_within_of_empty {hal : Hal}
    (hI : FilterWorldInv p w) (hpc : w.svc.pc = .loopTop) (hG : FilterFetchGuard p gpu hal w)
    (hnone : (fetchFaultBufferEntries p gpu hal .batchReady
      (resetCounters w.svc.d)).1.bc.numCachedFaults = 0) (hok : w.serviceOk = true) :
    TableWithin p (fetchFaultBufferEntries p gpu hal .batchReady (resetCounters w.svc.d)).1 w.batch ∧
      SlotsWithin p (fetchFaultBufferEntries p gpu hal .batchReady (resetCounters w.svc.d)).1
        w.batch := by
  obtain ⟨htable, hslots⟩ := hI.within (by rw [hpc]; simp) (by rw [hpc]; simp) hok
  have htable := htable.frame (resetCounters_frame w.svc.d)
  have hslots := hslots.frame (resetCounters_frame w.svc.d)
  constructor
  · cases hpages : p.prevFetchMode.useCoalescedPages with
    | true => exact fetch_tableWithin_pages hpages htable hnone
    | false =>
      rcases hG.2.2 hpages with hkept | hpending
      -- the previous fetch cached nothing either: the new table is empty
      · have hzero : (resetCounters w.svc.d).bc.numCachedFaults = 0 := by
          have hidx := fetchedState_faultIndex p gpu hal .batchReady (resetCounters w.svc.d)
          have hidx' : (fetchedState p gpu hal .batchReady (resetCounters w.svc.d)).1.faultIndex = 0 :=
            hnone
          have hrf : (resetCounters w.svc.d).rf = w.svc.d.rf := rfl
          rw [hidx', hrf] at hidx
          exact Nat.le_zero.1 (hidx ▸ hkept)
        intro hrun e he
        obtain ⟨f, hf, -⟩ := fetch_tableWithin_cache hen hpages hrun e he
        rw [hzero] at hf
        cases hf
      · exact fetch_tableWithin_idle hen hpages hslots hpending
  · intro _ e he
    rw [hnone] at he
    cases he

theorem fetch_within_of_cached {hal : Hal}
    (hG : FilterFetchGuard p gpu hal w)
    (hsome : (fetchFaultBufferEntries p gpu hal .batchReady
      (resetCounters w.svc.d)).1.bc.numCachedFaults ≠ 0)
    (hcache : p.prevFetchMode.useCoalescedPages = false) :
    let d := (fetchFaultBufferEntries p gpu hal .batchReady (resetCounters w.svc.d)).1
    TableWithin p d (d.bc.sourceEntries d.bc.numCachedFaults) ∧
      ∀ i < d.bc.numCachedFaults, (d.bc.faultCache i).predFetchSkip = false := by
  have hkept : (resetCounters w.svc.d).bc.numCachedFaults ≤
      (fetchedState p gpu hal .batchReady (resetCounters w.svc.d)).1.faultIndex := by
    rw [fetchedState_faultIndex]
    refine (hG.2.2 hcache).resolve_right fun hpending => hsome ?_
    obtain ⟨evs, hspec⟩ := fetchedState_spec p gpu hal .batchReady (resetCounters w.svc.d)
    exact hspec.idle (hspec.eq_nil_of_pending hpending)
  refine ⟨(fetch_tableWithin_cache hen hcache).mono ?_, ?_⟩
  · intro f hf
    obtain ⟨i, hi, hfi, hsource⟩ := mem_sourceEntries.1 hf
    exact ⟨f, mem_sourceEntries.2 ⟨i, Nat.lt_of_lt_of_le hi hkept, hfi, hsource⟩, rfl⟩
  · obtain ⟨evs, hspec⟩ := fetchedState_spec p gpu hal .batchReady (resetCounters w.svc.d)
    exact fun i hi => hspec.noSkip i (Nat.zero_le i) hi

theorem fetchBatch_filterInv {hal : Hal} (hI : FilterWorldInv p w) (hpc : w.svc.pc = .loopTop)
    (hG : FilterGuard p gpu w (.driver (.fetch hal))) :
    FilterWorldInv p { w with svc := fetchBatch p gpu hal w.svc } := by
  unfold fetchBatch
  split
  · exact hI.driver_frame (by rw [hpc]; simp) (by rw [hpc]; simp) (.refl _) (by simp) (by simp)
  · next hlim =>
      have hG : FilterFetchGuard p gpu hal w := hG (by simpa using hlim)
      have hempty := fetch_within_of_empty hen hI hpc hG
      have hcached := fetch_within_of_cached hen hG
      have hok : (fetchFaultBufferEntries p gpu hal .batchReady (resetCounters w.svc.d)).2 = .ok :=
        fetchLoop_ok fun slot hslot => (hG.2.1 slot hslot).1
      rcases hf : fetchFaultBufferEntries p gpu hal .batchReady (resetCounters w.svc.d) with
        ⟨d, status⟩
      rw [hf] at hempty hcached hok
      obtain rfl : status = .ok := hok
      refine ⟨hI.granted, ?_⟩
      by_cases hnone : d.bc.numCachedFaults = 0
      · simpa [TableOrigin, breakLoop, hnone] using hempty hnone
      · dsimp only
        rw [if_neg hnone]
        -- the batch id is the only thing that changes
        exact fun hcache => hcached hnone hcache

theorem preprocessBatch_filterInv {a : PreprocessAnswer} (hmode : p.prevFetchMode ≠ .hashApprox)
    (hI : FilterWorldInv p w) (hpc : w.svc.pc = .fetched)
    (hG : FilterGuard p gpu w (.driver (.preprocess a))) :
    FilterWorldInv p { w with svc := preprocessBatch p gpu a w.svc } := by
  obtain ⟨cache, hviews, heq⟩ := preprocessFaultBatch_registered p gpu a hG
  have horigin := hI.origin
  simp only [TableOrigin, hpc] at horigin
  have hmem : p.prevFetchMode.useCoalescedPages = false → ∀ i < w.svc.d.bc.numCachedFaults,
      ((cache i).filtered && !(cache i).predFetchSkip) = false →
      cache i ∈ (orderBatch w.svc.d.bc (instancePtrOrder w.svc.d.bc) cache).orderedEntries := by
    -- without leftover skip marks the entries that count are those not merged away
    intro hcache i hi hsource
    have hview := hviews i
    simp only [FaultEntry.filterView, Prod.mk.injEq] at hview
    have hskip := (horigin hcache).2 i hi
    rw [hview.2.1, hview.2.2, hskip] at hsource
    exact mem_orderedEntries hi (by simpa using hsource)
  refine ⟨hI.granted, ?_⟩
  have hd : (preprocessBatch p gpu a w.svc).d = rebuildFromOrdered p
      { w.svc.d with bc := orderBatch w.svc.d.bc (instancePtrOrder w.svc.d.bc) cache } := by
    simp [preprocessBatch, heq]
  have hpc' : (preprocessBatch p gpu a w.svc).pc = .preprocessed := by simp [preprocessBatch, heq]
  simp only [TableOrigin, hpc', hd, rebuildFromOrdered_bc]
  constructor
  · cases hpages : p.prevFetchMode.useCoalescedPages with
    | true => exact tableWithin_rebuildFromOrdered hen hmode hpages
    | false =>
      have hsame : ∀ d, rebuildFromOrdered p d = d := fun d => by simp [rebuildFromOrdered, hpages]
      rw [hsame]
      have htable : TableWithin p
          { w.svc.d with bc := orderBatch w.svc.d.bc (instancePtrOrder w.svc.d.bc) cache }
          (w.svc.d.bc.sourceEntries w.svc.d.bc.numCachedFaults) := (horigin hpages).1
      refine htable.mono fun f hf => ?_
      obtain ⟨i, hi, rfl, hsource⟩ := mem_sourceEntries.1 hf
      have hview := hviews i
      simp only [FaultEntry.filterView, Prod.mk.injEq] at hview
      refine ⟨cache i, hmem hpages i hi ?_, by rw [hview.1]⟩
      rw [hview.2.1, hview.2.2]
      exact hsource
  · intro hcache e he
    obtain ⟨i, hi, rfl, hsource⟩ := mem_sourceEntries.1 he
    rw [rebuildFromOrdered_bc] at hi hsource ⊢
    exact ⟨cache i, hmem hcache i hi hsource, rfl⟩

end

theorem endBatch_frame {a : BatchEndAnswer} {s t : ServiceState}
    (hfatal : s.vars.status = .ok → s.d.bc.fatalVaSpace = none)
    (h : endBatch p gpu a s = some t) :
    FilterFrame s.d t.d ∧ t.pc ≠ .fetched ∧ t.pc ≠ .preprocessed := by
  have hpush := pushReplayOnGpu_frame .start a.push s.d
  have hflush := faultBufferFlushLocked_frame gpu (batchFlushMode p gpu s.d.bc) .start a.flush s.d
  unfold endBatch at h
  split at h
  · obtain rfl := Option.some.inj h
    exact ⟨cancelFaultBatch_frame gpu a.cancelFlush s.d, by simp [breakLoop], by simp [breakLoop]⟩
  · next hok =>
      rw [hfatal (not_not.1 hok)] at h
      simp only [Option.isSome_none, Bool.false_eq_true, if_false] at h
      split at h
      · split at h <;> next hp =>
          rw [hp] at hpush
          obtain rfl := Option.some.inj h
          exact ⟨hpush, by simp [nextBatch, breakLoop], by simp [nextBatch, breakLoop]⟩
      · split at h
        · next hf =>
            rw [hf] at hflush
            split at h <;> (obtain rfl := Option.some.inj h; exact
              ⟨hflush, by simp [nextBatch, breakLoop], by simp [nextBatch, breakLoop]⟩)
        · next hf =>
            rw [hf] at hflush
            obtain rfl := Option.some.inj h
            exact ⟨hflush, by simp [breakLoop], by simp [breakLoop]⟩
      · obtain rfl := Option.some.inj h
        exact ⟨.refl _, by simp [nextBatch], by simp [nextBatch]⟩

theorem leaveService_frame (gpu : GpuConfig) (push : CallStatus) (s : ServiceState) :
    FilterFrame s.d (leaveService gpu push s).d ∧ (leaveService gpu push s).pc ≠ .fetched ∧
      (leaveService gpu push s).pc ≠ .preprocessed := by
  unfold leaveService
  split
  · exact ⟨pushReplayOnGpu_frame .start push s.d, by simp, by simp⟩
  · exact ⟨.refl _, by simp, by simp⟩

theorem service_filterInv {r : ServiceReport} (hI : FilterWorldInv p w)
    (hG : FilterGuard p gpu w (.service r)) (h : worldStep p gpu w (.service r) = some w') :
    FilterWorldInv p w' := by
  simp only [worldStep, Option.ite_none_right_eq_some, Option.map_eq_some_iff, serviceStep,
    Option.some.injEq] at h
  obtain ⟨hcontract, s, ⟨hpc, rfl⟩, rfl⟩ := h
  have horigin := hI.origin
  simp only [TableOrigin, hpc] at horigin
  have hframe := applyService_frame gpu .regular r.outcome w.svc.d
  constructor
  · intro hok f hf
    have hok : r.outcome.status = .ok := by simpa using hok
    exact hcontract hok f hf (hG hok f hf)
  · exact fun _ => ⟨horigin.1.frame hframe, horigin.2.frame hframe⟩

theorem Granted.touch {pages : PageTables} {touched : VaSpaceId → Nat → Bool} {f : FaultEntry}
    (h : Granted pages touched f) (va : VaSpaceId) (page : Nat) (prot : Prot) :
    Granted (fun va' page' => if va' = va ∧ page' = page then prot else pages va' page')
      (fun va' page' => (va' = va ∧ page' = page) || touched va' page') f := by
  unfold Granted at h ⊢
  rcases hva : f.vaSpace with _ | va'
  · rw [hva] at h
    exact h
  · rw [hva] at h
    by_cases hpage : va' = va ∧ f.faultAddress = page
    · exact .inl (by simp [hpage])
    · refine h.imp (fun ht => by simp [ht]) fun hp => ?_
      dsimp only
      rw [if_neg hpage]
      exact hp

theorem worldStep_driver {i : Label} (h : worldStep p gpu w (.driver i) = some w') :
    ∃ s, ServiceMoves p gpu w.svc i s ∧ w' = { w with svc := s } ∧ ∀ o, i ≠ .service o := by
  cases i with
  | service o => cases h
  | rebind | enter | fetch | preprocess | endBatch | leave =>
    simp only [worldStep, Option.map_eq_some_iff] at h
    obtain ⟨s, hs, rfl⟩ := h
    exact ⟨s, serviceMoves_of_step hs, rfl, nofun⟩

theorem worldStep_filterInv {i : WorldLabel} (hen : p.prevFetchPredictorEnable = true)
    (hmode : p.prevFetchMode ≠ .hashApprox) (hI : FilterWorldInv p w) (hG : FilterGuard p gpu w i)
    (h : worldStep p gpu w i = some w') : FilterWorldInv p w' := by
  cases i with
  | service r => exact service_filterInv hI hG h
  | touch va page prot =>
    obtain rfl := Option.some.inj h
    exact ⟨fun hok f hf => (hI.granted hok f hf).touch va page prot, hI.origin⟩
  | driver i =>
    obtain ⟨s, hm, rfl, hnot⟩ := worldStep_driver h
    cases hm with
    | service o => exact absurd rfl (hnot o)
    | rebind => exact ⟨hI.granted, hI.origin⟩
    | enter r hpc =>
      exact hI.driver_frame (by rw [hpc]; simp) (by rw [hpc]; simp) (.refl _) (by simp) (by simp)
    | fetch hal hpc => exact fetchBatch_filterInv hen hI hpc hG
    | preprocess a hpc => exact preprocessBatch_filterInv hen hmode hI hpc hG
    | endBatch a s hpc hend =>
      obtain ⟨hframe, hfetched, hpre⟩ := endBatch_frame hG hend
      exact hI.driver_frame (by rw [hpc]; simp) (by rw [hpc]; simp) hframe hfetched hpre
    | leave push hpc =>
      obtain ⟨hframe, hfetched, hpre⟩ := leaveService_frame gpu push w.svc
      exact hI.driver_frame (by rw [hpc]; simp) (by rw [hpc]; simp) hframe hfetched hpre

/-! ## What is dropped -/

theorem fetchBatch_log {hal : Hal} {s : ServiceState} (hlim : s.vars.limitReached p = false) :
    (fetchBatch p gpu hal s).d.log =
      (fetchFaultBufferEntries p gpu hal .batchReady (resetCounters s.d)).1.log := by
  unfold fetchBatch
  rw [if_neg (by simp [hlim])]
  rcases fetchFaultBufferEntries p gpu hal .batchReady (resetCounters s.d) with ⟨d, _ | code⟩
  · dsimp only
    split <;> rfl
  · rfl

theorem fetchBatch_noWorkNeeded {hal : Hal} {e : FaultEntry} (hI : FilterWorldInv p w)
    (hpc : w.svc.pc = .loopTop) (hG : FilterGuard p gpu w (.driver (.fetch hal)))
    (hok : w.serviceOk = true)
    (he : e ∈ droppedSince w.svc.d.log (fetchBatch p gpu hal w.svc).d.log)
    (huntouched : Untouched w e) : NoWorkNeeded w e := by
  cases hlim : w.svc.vars.limitReached p with
  | true =>
    simp [fetchBatch, hlim, droppedSince] at he
  | false =>
    obtain ⟨hmemo, hpackets, -⟩ : FilterFetchGuard p gpu hal w := hG hlim
    rw [fetchBatch_log hlim] at he
    obtain ⟨slot, hslot, ⟨old, rfl⟩, hrun, hfatal, htable⟩ :=
      mem_droppedSince_fetch (d := resetCounters w.svc.d) he
    obtain ⟨hwithin, -⟩ := hI.within (by rw [hpc]; simp) (by rw [hpc]; simp) hok
    -- the key is one of the last batch
    have hlike := hwithin hrun _ (htable hmemo)
    -- a fault of that batch needs at least as much in the VA space
    obtain ⟨f, hf, hkey, hva, hprot⟩ := (hpackets slot hslot).2 hfatal hlike
    -- and it was granted
    have hgranted := hI.granted hok f hf
    have haddr : f.faultAddress = (parsedEntry old (hal.parse slot).2).faultAddress :=
      faultAddress_of_filterKey hkey
    obtain ⟨va, hfva, hchan⟩ := Option.map_eq_some_iff.1 hva
    simp only [Granted, hfva] at hgranted
    refine ⟨va, hchan.symm, ?_⟩
    rw [haddr] at hgranted
    refine le_trans hprot (hgranted.resolve_left ?_)
    rw [huntouched va hchan.symm]
    simp

theorem preprocessBatch_droppedSince {a : PreprocessAnswer} (s : ServiceState) :
    droppedSince s.d.log (preprocessBatch p gpu a s).d.log = [] := by
  show droppedSince s.d.log (preprocessFaultBatch p gpu s.channels a s.d).1.log = []
  rcases preprocessFaultBatch_frame p gpu s.channels a s.d with ⟨hf, -⟩ | ⟨d', hf, heq⟩
  · exact hf.droppedSince
  · rw [heq]
    obtain ⟨evs, hlog, hevs⟩ := hf.log
    have hquiet : ∀ e ∈ evs, e.isDropped = false :=
      fun e he => isDropped_of_not_isFetched (hevs e he).1
    unfold rebuildFromOrdered
    split
    · have hrebuilt : Event.rebuilt d'.bc.orderedEntries :: d'.log =
          (.rebuilt d'.bc.orderedEntries :: evs) ++ s.d.log := by rw [hlog, List.cons_append]
      refine droppedSince_eq_nil hrebuilt ?_
      intro e he
      rcases List.mem_cons.1 he with rfl | he
      · rfl
      · exact hquiet e he
    · exact droppedSince_eq_nil hlog hquiet

theorem worldStep_noWorkNeeded {i : WorldLabel} {e : FaultEntry} (hI : FilterWorldInv p w)
    (hG : FilterGuard p gpu w i) (h : worldStep p gpu w i = some w') (hok : w.serviceOk = true)
    (he : e ∈ droppedSince w.svc.d.log w'.svc.d.log) (huntouched : Untouched w e) :
    NoWorkNeeded w e := by
  have hnil : ∀ l : List Event, e ∉ droppedSince l l := fun l => by simp [droppedSince]
  cases i with
  | service r =>
    simp only [worldStep, Option.ite_none_right_eq_some, Option.map_eq_some_iff, serviceStep,
      Option.some.injEq] at h
    obtain ⟨-, s, ⟨-, rfl⟩, rfl⟩ := h
    rw [(applyService_frame gpu .regular r.outcome w.svc.d).droppedSince] at he
    cases he
  | touch va page prot =>
    obtain rfl := Option.some.inj h
    exact absurd he (hnil _)
  | driver i =>
    obtain ⟨s, hm, rfl, hnot⟩ := worldStep_driver h
    cases hm with
    | service o => exact absurd rfl (hnot o)
    | rebind | enter => exact absurd he (hnil _)
    | fetch hal hpc => exact fetchBatch_noWorkNeeded hI hpc hG hok he huntouched
    | preprocess a =>
      rw [preprocessBatch_droppedSince] at he
      cases he
    | endBatch a s hpc hend =>
      rw [(endBatch_frame hG hend).1.droppedSince] at he
      cases he
    | leave push =>
      rw [(leaveService_frame gpu push w.svc).1.droppedSince] at he
      cases he

end Steps

/-- **Dropped faults need no work**: with the predictor on and one of the exact modes, take any run
of guarded steps and one more guarded step. If the last batch was serviced with `NV_OK`, every
entry this step drops, on a page nothing touched since, is mapped in the VA space of its instance
pointer with the permission its access needs. -/
theorem filter_drops_only_mapped (p : Params) (gpu : GpuConfig) (w w' w'' : FilterWorld)
    (is : List WorldLabel) (i : WorldLabel)
    (hen : p.prevFetchPredictorEnable = true) (hmode : p.prevFetchMode ≠ .hashApprox)
    (hidle : w.svc.pc = .idle .ok) (hstart : w.serviceOk = false)
    (hmeets : (filterMachine p gpu).Meets (FilterGuard p gpu) w is)
    (hrun : (filterMachine p gpu).run w is = some w')
    (hG : FilterGuard p gpu w' i) (hstep : worldStep p gpu w' i = some w'') :
    w'.serviceOk = true → ∀ e ∈ droppedSince w'.svc.d.log w''.svc.d.log,
      Untouched w' e → NoWorkNeeded w' e := by
  have hinit : FilterWorldInv p w := by
    constructor
    · rw [hstart]
      exact fun h => absurd h Bool.false_ne_true
    · simp [TableOrigin, hidle, hstart]
  have hinv := (filterMachine p gpu).run_invariant
    (fun _ _ _ hI hG h => worldStep_filterInv hen hmode hI hG h) hinit hmeets hrun
  exact fun hok e he huntouched => worldStep_noWorkNeeded hinv hG hstep hok he huntouched

/-! ## Concrete runs -/

def ringOfFaults (faults : List RawFault) (put : Nat) : Hal where
  readPut := put
  entryIsValid := fun _ => true
  parse := fun slot => (.ok, faults.getD slot { faultAddress := 0 })

/-- The driver of `freshState`, with nothing mapped. -/
def freshWorld : FilterWorld where
  svc := freshState
  pages := fun _ _ => .none

/-- A batch that is serviced by mapping every page read-only. -/
def readOnlyBatch (hal : Hal) : List WorldLabel :=
  [.driver .enter, .driver (.fetch hal), .driver (.preprocess {}),
    .service { pages := fun _ _ => .readOnly, handled := fun _ => true },
    .driver (.endBatch { cancel := { va := { hal := hal } } })]

/-- Two read faults, then a third fault on the page of the first one. -/
def thirdFault (access : AccessType) (put : Nat) : Hal :=
  ringOfFaults [{ faultAddress := 0x1000 }, { faultAddress := 0x2000 },
    { faultAddress := 0x1000, accessType := access }] put

/-- A repeated read fault is dropped, and rightly so. -/
theorem dropped_read_is_mapped :
    ∃ w' w'', (filterMachine skipParams smallGpu).run freshWorld
        (readOnlyBatch (thirdFault .read 2)) = some w' ∧
      worldStep skipParams smallGpu w' (.driver (.fetch (thirdFault .read 3))) = some w'' ∧
      (droppedSince w'.svc.d.log w''.svc.d.log).length = 1 ∧
      ∀ e ∈ droppedSince w'.svc.d.log w''.svc.d.log, Untouched w' e → NoWorkNeeded w' e := by
  refine ⟨_, _, rfl, rfl, by decide +kernel, ?_⟩
  exact filter_drops_only_mapped skipParams smallGpu freshWorld _ _
    (readOnlyBatch (thirdFault .read 2)) (.driver (.fetch (thirdFault .read 3))) rfl (by decide) rfl
    rfl (by decide) rfl (by decide +kernel) rfl (by decide +kernel)

/-- A write fault is dropped although its page is mapped read-only: the filter compares pages,
not accesses. -/
theorem dropped_write_after_read :
    ∃ w' w'' e, (filterMachine skipParams smallGpu).run freshWorld
        (readOnlyBatch (thirdFault .write 2)) = some w' ∧
      worldStep skipParams smallGpu w' (.driver (.fetch (thirdFault .write 3))) = some w'' ∧
      w'.serviceOk = true ∧ e ∈ droppedSince w'.svc.d.log w''.svc.d.log ∧
      Untouched w' e ∧ ¬ NoWorkNeeded w' e := by
  exact ⟨_, _, _, rfl, rfl, by decide +kernel, List.mem_cons_self, by decide +kernel,
    by decide +kernel⟩

end FaultMesh
