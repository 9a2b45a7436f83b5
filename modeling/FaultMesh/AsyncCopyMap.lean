import FaultMesh.AllocationRetry
import FaultMesh.BatchStatus

/-!
# The async copy-map option

With `uvm_parallel_async_copy_map_enable` a worker only populates the pages of its block, and leaves
copying and mapping to a thread of the GPU. Whether an item goes that way is decided by
`async_copy_map_enabled_for_item`, from module parameters, the state of the GPU and the fields of
the item.
-/

namespace FaultMesh

abbrev GpuId := Nat

/-! ## Work items -/

/-- The fields of `uvm_kthread_work_item_t` that a producer sets. -/
structure KthreadWorkItem extends BatchItem where
  gpu : Option GpuId
  hmmMigratable : Bool
  status : NvStatus
  faultsServiced : Nat
  hasFatalFaults : Bool
  deriving DecidableEq

/-- The item for a group. Both producers below set the fields to the same values. -/
def newWorkItem (gpu : Option GpuId) (snapshot : Option VaSpaceSnapshot) (group : BlockFaultGroup) :
    KthreadWorkItem where
  vaBlock := group.vaBlock
  gpu := gpu
  snapshot := snapshot
  firstFaultIndex := group.firstFaultIndex
  numFaults := group.numFaults
  hmmMigratable := true
  status := .ok
  faultsServiced := 0
  hasFatalFaults := false

/-- The items of the inline fallback of `service_fault_batch_parallel`. -/
def Grouping.inlineItems (g : Grouping) (gpu : GpuId) : List KthreadWorkItem :=
  g.groups.map (newWorkItem (some gpu) g.vaSpaceSnapshot)

/-- The items of the strided loop of `uvm_kthread_worker_fn`, from `batch_gpu` and
`batch_snapshot`. -/
def Grouping.stridedItems (g : Grouping) (batchGpu : Option GpuId) : List KthreadWorkItem :=
  g.groups.map (newWorkItem batchGpu g.vaSpaceSnapshot)

/-- The items that are built for the batch of a GPU without merge dispatch. -/
def Grouping.workItems (g : Grouping) (path : ServicePath) (gpu : GpuId) : List KthreadWorkItem :=
  match path with
  | .inline => g.inlineItems gpu
  | .dispatched => g.stridedItems (some gpu)
  | .none => []

theorem Grouping.hmmMigratable_of_mem_workItems {g : Grouping} {path : ServicePath} {gpu : GpuId}
    {item : KthreadWorkItem} (hitem : item ∈ g.workItems path gpu) : item.hmmMigratable = true := by
  cases path with
  | inline =>
    obtain ⟨group, -, rfl⟩ := List.mem_map.1 hitem
    rfl
  | dispatched =>
    obtain ⟨group, -, rfl⟩ := List.mem_map.1 hitem
    rfl
  | none => cases hitem

/-! ## The test -/

/-- The module parameters that the test reads. -/
structure AsyncOptions where
  asyncCopyMapEnable : Nat := 1
  mergeDispatch : Nat := 0
  asyncCopyMapPrefetchSafe : Nat := 1
  deriving DecidableEq, Repr

/-- What the test asks about a GPU, a block and a VA space. -/
structure AsyncAnswers where
  asyncCopyInitialized : GpuId → Bool
  isHmm : VaBlock → Bool
  prefetchEnabled : VaSpaceId → Bool

/-- `async_copy_map_enabled_for_item`. The item and the contexts of the worker are there, or
`service_block_faults_kthread` has returned before. -/
def asyncCopyMapEnabledForItem (opts : AsyncOptions) (env : AsyncAnswers) (item : KthreadWorkItem) :
    Bool :=
  if opts.asyncCopyMapEnable = 0 then false
  else if opts.mergeDispatch ≠ 0 then false
  else if !item.gpu.any env.asyncCopyInitialized then false
  else
    match item.snapshot with
    -- `snapshot.va_space` is null
    | none => false
    | some snapshot =>
      if env.isHmm item.vaBlock || item.hmmMigratable then false
      else if opts.asyncCopyMapPrefetchSafe = 0 && env.prefetchEnabled snapshot.vaSpace then false
      else true

/-- The option is on and meant for the item: no merge dispatch, the GPU has its thread, the block
is not an HMM block and has a VA space, and prefetching is off or declared safe. -/
structure AsyncEligible (opts : AsyncOptions) (env : AsyncAnswers) (item : KthreadWorkItem) : Prop
    where
  enabled : opts.asyncCopyMapEnable ≠ 0
  noMerge : opts.mergeDispatch = 0
  initialized : item.gpu.any env.asyncCopyInitialized = true
  vaSpace : ∃ snapshot, item.snapshot = some snapshot ∧
    (opts.asyncCopyMapPrefetchSafe = 0 → env.prefetchEnabled snapshot.vaSpace = false)
  notHmm : env.isHmm item.vaBlock = false

variable {opts : AsyncOptions} {env : AsyncAnswers} {item : KthreadWorkItem}

theorem asyncCopyMapEnabledForItem_iff :
    asyncCopyMapEnabledForItem opts env item = true ↔
      AsyncEligible opts env item ∧ item.hmmMigratable = false := by
  constructor
  · intro h
    rw [asyncCopyMapEnabledForItem] at h
    -- every test that fails leaves `false = true`
    split at h
    · cases h
    next henabled =>
      split at h
      · cases h
      next hmerge =>
        split at h
        · cases h
        next hinit =>
          split at h
          · cases h
          next snapshot hsnap =>
            split at h
            · cases h
            next hhmm =>
              split at h
              · cases h
              next hprefetch =>
                simp only [Bool.or_eq_true, not_or, Bool.not_eq_true] at hhmm
                simp only [Bool.and_eq_true, decide_eq_true_eq, not_and, Bool.not_eq_true]
                  at hprefetch
                exact ⟨⟨henabled, not_not.1 hmerge, by simpa using hinit,
                  ⟨snapshot, hsnap, hprefetch⟩, hhmm.1⟩, hhmm.2⟩
  · rintro ⟨helig, hmig⟩
    obtain ⟨snapshot, hsnap, hprefetch⟩ := helig.vaSpace
    simp only [asyncCopyMapEnabledForItem, if_neg helig.enabled, helig.noMerge, helig.initialized,
      hsnap, helig.notHmm, hmig]
    by_cases hsafe : opts.asyncCopyMapPrefetchSafe = 0
    · simp [hprefetch hsafe]
    · simp [hsafe]

/-! ## What the worker calls -/

/-- The calls of `service_block_faults_kthread` once the faults of the item are scanned. -/
inductive ServiceCall where
  /-- `uvm_va_block_service_locked_populate`, with its retries. -/
  | populate
  /-- `submit_async_pipeline_item`. -/
  | submit
  /-- `uvm_va_block_service_copy_finish`, by the worker. -/
  | copyFinish
  /-- `uvm_va_block_service_locked`, with its retries. -/
  | serviceLocked
  /-- `uvm_tracker_add_tracker_safe`, for the tracker of the item. -/
  | addTracker
  deriving DecidableEq, Repr

/-- What decides how an item is serviced, with the stages of the pipeline. -/
structure StagedAnswers extends ItemAnswers where
  populate : NvStatus := .ok
  /-- The item was taken by the pipeline. -/
  submitted : Bool := true
  copyFinish : NvStatus := .ok
  deriving DecidableEq, Repr

/-- The tracker of the block is added to the one of the item, whatever the status. -/
def StagedAnswers.addTracker (a : StagedAnswers) (calls : List ServiceCall) (status : NvStatus) :
    List ServiceCall × NvStatus :=
  (calls ++ [.addTracker], if status = .ok then a.blockTracker.toStatus else status)

/-- The calls and the status of `service_block_faults_kthread`, with
`async_copy_map_enabled_for_item` as a parameter. -/
def serviceItem (enabled hasRegion : Bool) (a : StagedAnswers) : List ServiceCall × NvStatus :=
  if !a.alive then ([], .warnMoreProcessingRequired)
  else if !a.contexts then ([], .errInvalidState)
  else if !a.aliveLocked then ([], .warnMoreProcessingRequired)
  else if a.hmm then ([], .warnMoreProcessingRequired)
  else if !hasRegion then a.addTracker [] .ok
  else if enabled then
    if a.populate = .ok then
      -- the thread of the GPU adds the tracker of an item that it takes
      if a.submitted then ([.populate, .submit], .ok)
      else a.addTracker [.populate, .submit, .copyFinish] a.copyFinish
    else if a.populate = .errNotSupported then a.addTracker [.populate, .serviceLocked] a.service
    else a.addTracker [.populate] a.populate
  else a.addTracker [.serviceLocked] a.service

/-- The worker comes to the pages of the block. -/
def StagedAnswers.Reaches (a : StagedAnswers) : Prop :=
  a.alive = true ∧ a.contexts = true ∧ a.aliveLocked = true ∧ a.hmm = false

theorem serviceItem_calls_of_enabled {a : StagedAnswers} (h : a.Reaches) :
    (serviceItem true true a).1.head? = some .populate ∧
      (a.populate = .ok → .submit ∈ (serviceItem true true a).1) := by
  obtain ⟨halive, hctx, hlocked, hhmm⟩ := h
  simp only [serviceItem, halive, hctx, hlocked, hhmm, Bool.not_true, Bool.false_eq_true, if_false,
    if_true]
  by_cases hpop : a.populate = .ok
  · cases a.submitted <;> simp [hpop, StagedAnswers.addTracker]
  · rw [if_neg hpop]
    split <;> simp [hpop, StagedAnswers.addTracker]

/-! ## The option takes effect -/

/-- The item passes the test, and if it has pages to service, these are populated and the item is
submitted to the pipeline. -/
def GoesAsync (opts : AsyncOptions) (env : AsyncAnswers) (item : KthreadWorkItem) : Prop :=
  asyncCopyMapEnabledForItem opts env item = true ∧
    ∀ a : StagedAnswers, a.Reaches →
      let calls := (serviceItem (asyncCopyMapEnabledForItem opts env item) true a).1
      calls.head? = some .populate ∧ (a.populate = .ok → .submit ∈ calls)

theorem goesAsync_iff :
    GoesAsync opts env item ↔ asyncCopyMapEnabledForItem opts env item = true := by
  constructor
  · exact And.left
  · intro h
    refine ⟨h, fun a ha => ?_⟩
    rw [h]
    exact serviceItem_calls_of_enabled ha

/-- An item that the option is meant for goes through the pipeline exactly if it is not marked as
migratable. Both producers mark every item, so that the option takes effect in a batch only if it is
meant for none of its items. -/
theorem async_option_takes_effect_iff (opts : AsyncOptions) (env : AsyncAnswers) :
    (∀ item, AsyncEligible opts env item →
      (GoesAsync opts env item ↔ item.hmmMigratable = false)) ∧
    ∀ (cfg : ParallelConfig) (ans : BatchAnswers) (batch : ServiceBatch) (gpu : GpuId),
      let g := groupBatch ans batch
      let items := g.workItems (cfg.path g.groups.length) gpu
      (∀ item ∈ items, AsyncEligible opts env item → GoesAsync opts env item) ↔
        ∀ item ∈ items, ¬ AsyncEligible opts env item := by
  have hone : ∀ item, AsyncEligible opts env item →
      (GoesAsync opts env item ↔ item.hmmMigratable = false) := by
    intro item helig
    rw [goesAsync_iff, asyncCopyMapEnabledForItem_iff]
    exact and_iff_right helig
  refine ⟨hone, fun cfg ans batch gpu => ?_⟩
  constructor
  · intro hall item hitem helig
    have hmig := (hone item helig).1 (hall item hitem helig)
    rw [Grouping.hmmMigratable_of_mem_workItems hitem] at hmig
    cases hmig
  · intro hnone item hitem helig
    exact absurd helig (hnone item hitem)

/-- A GPU whose thread runs, managed blocks, and prefetching on. -/
def asyncReady : AsyncAnswers where
  asyncCopyInitialized := fun _ => true
  isHmm := fun _ => false
  prefetchEnabled := fun _ => true

/-- The item of a group of one fault, had its producer not marked it. -/
def unmarkedItem : KthreadWorkItem :=
  { newWorkItem (some 0) (some ⟨0, 0, none⟩) ⟨firstBlock, 0, 1⟩ with hmmMigratable := false }

theorem unmarked_item_goes_async :
    AsyncEligible {} asyncReady unmarkedItem ∧ GoesAsync {} asyncReady unmarkedItem := by
  have helig : AsyncEligible {} asyncReady unmarkedItem :=
    ⟨by decide, rfl, rfl, ⟨_, rfl, fun h => absurd h (by decide)⟩, rfl⟩
  exact ⟨helig, ((async_option_takes_effect_iff {} asyncReady).1 _ helig).2 rfl⟩

/-- A batch with faults on one managed block, with the option on and merge dispatch off. On either
path the option is meant for its item and the item is refused. -/
theorem migratable_item_refused :
    let g := groupBatch fatalBetween.ans fatalBetween.batch
    let inline : ParallelConfig := { thresholdTest := 2, threshold := 2 }
    inline.path g.groups.length = .inline ∧ ParallelConfig.path {} g.groups.length = .dispatched ∧
      ∀ path, path = .inline ∨ path = .dispatched →
        ∃ item ∈ g.workItems path 0, AsyncEligible {} asyncReady item ∧
          (serviceBlockFaultsKthread fatalBetween.ans.block item.vaBlock fatalBetween.batch {}
            item.firstFaultIndex item.numFaults).region.isSome = true ∧
          (serviceItem (asyncCopyMapEnabledForItem {} asyncReady item) true {}).1 =
            [.serviceLocked, .addTracker] ∧
          ¬ GoesAsync {} asyncReady item := by
  refine ⟨by decide, by decide, fun path hpath => ?_⟩
  have hmem : newWorkItem (some 0) (some ⟨0, 0, none⟩) ⟨firstBlock, 0, 2⟩ ∈
      (groupBatch fatalBetween.ans fatalBetween.batch).workItems path 0 := by
    obtain rfl | rfl := hpath
    · decide
    · decide
  refine ⟨_, hmem, ?_, by decide, rfl, fun h => absurd h.1 (by decide)⟩
  exact ⟨by decide, rfl, rfl, ⟨_, rfl, fun h => absurd h (by decide)⟩, rfl⟩

end FaultMesh
