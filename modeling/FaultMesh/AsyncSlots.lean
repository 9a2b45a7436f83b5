import FaultMesh.AsyncCopyMap

/-!
# The slots of the async pipeline

A GPU has two slots, `pd_copy` and `cd`. What a worker has prepared is copied into a slot, and from
`pd_copy` to `cd`, by copying structures that hold pointers: a service context points to its block
context, and a block context to the array of its node masks. Both copies keep the pointers of the
destination and copy the masks one by one.

Contexts are modelled with their pointers. What a service call works with is what it reads through
them.
-/

namespace FaultMesh.Async

open Function

abbrev Addr := Nat

/-! ## Contexts in memory -/

/-- `uvm_va_block_context_t`: its `mm`, the pointer to its node masks, and all else. -/
structure BlockContext (β : Type*) where
  body : β
  mm : Option MmId
  /-- `make_resident.cpu_pages_used.node_masks`. -/
  nodeMasks : Addr

/-- `uvm_service_block_context_t`: the pointer to its block context, and all else. -/
structure ServiceContext (σ : Type*) where
  body : σ
  blockContext : Addr

/-- The block contexts, and the arrays of node masks. -/
structure Memory (β μ : Type*) where
  blocks : Addr → BlockContext β
  masks : Addr → Nat → μ

@[ext] structure Contexts (σ β μ : Type*) where
  service : σ
  block : β
  mm : Option MmId
  /-- The masks of all nodes. -/
  masks : List μ

variable {σ β μ : Type*} (nodes : Nat)

/-- What is read through the pointers of a service context, for `num_possible_nodes()` nodes. -/
def ServiceContext.read (mem : Memory β μ) (sc : ServiceContext σ) : Contexts σ β μ where
  service := sc.body
  block := (mem.blocks sc.blockContext).body
  mm := (mem.blocks sc.blockContext).mm
  masks := (List.range nodes).map (mem.masks (mem.blocks sc.blockContext).nodeMasks)

namespace Memory

/-- `uvm_page_mask_copy` for every node. -/
def copyMasks (mem : Memory β μ) (dst src : Addr) : Memory β μ :=
  { mem with
    masks := update mem.masks dst fun i =>
      if i < nodes then mem.masks src i else mem.masks dst i }

/-- The block context at `src` is copied to `dst`, with the given `mm`. The destination keeps its
array of node masks, to which those of the source are copied. -/
def copyContext (mem : Memory β μ) (dst src : Addr) (mm : Option MmId) : Memory β μ :=
  let savedNodeMasks := (mem.blocks dst).nodeMasks
  let mem :=
    { mem with
      blocks := update mem.blocks dst
        { mem.blocks src with mm := mm, nodeMasks := savedNodeMasks } }
  mem.copyMasks nodes savedNodeMasks (mem.blocks src).nodeMasks

variable {mem : Memory β μ} {dst src : Addr} {mm : Option MmId}

theorem copyContext_blocks_self :
    (mem.copyContext nodes dst src mm).blocks dst =
      { mem.blocks src with mm := mm, nodeMasks := (mem.blocks dst).nodeMasks } := by
  simp [copyContext, copyMasks]

theorem copyContext_blocks_of_ne {a : Addr} (ha : a ≠ dst) :
    (mem.copyContext nodes dst src mm).blocks a = mem.blocks a := by
  simp [copyContext, copyMasks, ha]

@[simp] theorem copyContext_nodeMasks (a : Addr) :
    ((mem.copyContext nodes dst src mm).blocks a).nodeMasks = (mem.blocks a).nodeMasks := by
  by_cases ha : a = dst
  · subst ha
    rw [copyContext_blocks_self]
  · rw [copyContext_blocks_of_ne nodes ha]

/-- The array of the destination gets the masks of the source. This needs no assumption on where
the two are: if they are the same, nothing is copied. -/
theorem copyContext_masks_self {i : Nat} (hi : i < nodes) :
    (mem.copyContext nodes dst src mm).masks (mem.blocks dst).nodeMasks i =
      mem.masks (mem.blocks src).nodeMasks i := by
  by_cases hsrc : src = dst
  · subst hsrc
    simp [copyContext, copyMasks]
  · simp [copyContext, copyMasks, hsrc, hi]

theorem copyContext_masks_of_ne {a : Addr} (ha : a ≠ (mem.blocks dst).nodeMasks) :
    (mem.copyContext nodes dst src mm).masks a = mem.masks a := by
  simp [copyContext, copyMasks, ha]

theorem read_copyContext (body : σ) :
    ServiceContext.read nodes (mem.copyContext nodes dst src mm) ⟨body, dst⟩ =
      { ServiceContext.read nodes mem ⟨body, src⟩ with mm := mm } := by
  simp only [ServiceContext.read, copyContext_blocks_self, Contexts.mk.injEq, true_and]
  apply List.map_congr_left
  intro i hi
  exact copyContext_masks_self nodes (List.mem_range.1 hi)

theorem read_copyContext_of_ne {sc : ServiceContext σ} (hblock : sc.blockContext ≠ dst)
    (hmasks : (mem.blocks sc.blockContext).nodeMasks ≠ (mem.blocks dst).nodeMasks) :
    sc.read nodes (mem.copyContext nodes dst src mm) = sc.read nodes mem := by
  simp only [ServiceContext.read, copyContext_blocks_of_ne nodes hblock,
    copyContext_masks_of_ne nodes hmasks]

theorem read_writeBlock {sc : ServiceContext σ} {a : Addr} {context : BlockContext β}
    (ha : sc.blockContext ≠ a) :
    sc.read nodes { mem with blocks := update mem.blocks a context } = sc.read nodes mem := by
  simp [ServiceContext.read, ha]

theorem read_writeMasks {sc : ServiceContext σ} {a : Addr} {m : Nat → μ}
    (ha : (mem.blocks sc.blockContext).nodeMasks ≠ a) :
    sc.read nodes { mem with masks := update mem.masks a m } = sc.read nodes mem := by
  simp [ServiceContext.read, ha]

end Memory

/-! ## Slots -/

def itemMm (item : KthreadWorkItem) : Option MmId := item.snapshot.bind VaSpaceSnapshot.mm

/-- `uvm_gpu_async_copy_slot_t`. -/
structure Slot (σ : Type*) where
  processorId : Option GpuId
  vaBlock : Option VaBlock
  vaSpace : Option VaSpaceId
  /-- The item whose `tracker` it points to. -/
  tracker : Option Addr
  /-- The item whose `status` it points to. -/
  status : Option Addr
  serviceContext : ServiceContext σ
  blockContext : Addr
  occupied : Bool
  /-- The number of the submission that it was filled by; not in the source. -/
  job : Option Nat

/-- `async_copy_slot_reset`. -/
def Slot.reset [Inhabited σ] (slot : Slot σ) : Slot σ where
  processorId := none
  vaBlock := none
  vaSpace := none
  tracker := none
  status := none
  serviceContext := ⟨default, slot.blockContext⟩
  blockContext := slot.blockContext
  occupied := false
  job := none

/-- `clone_pipeline_contexts_to_slot`, for the item at an address. -/
def clonePipelineContextsToSlot (mem : Memory β μ) (slot : Slot σ) (item : KthreadWorkItem)
    (addr : Addr) (src : ServiceContext σ) (job : Nat) : Memory β μ × Slot σ :=
  (mem.copyContext nodes slot.blockContext src.blockContext (itemMm item),
    { processorId := item.gpu
      vaBlock := some item.vaBlock
      vaSpace := item.snapshot.map VaSpaceSnapshot.vaSpace
      tracker := some addr
      status := some addr
      serviceContext := ⟨src.body, slot.blockContext⟩
      blockContext := slot.blockContext
      occupied := true
      job := some job })

def moveAsyncSlotPayload (mem : Memory β μ) (dst src : Slot σ) : Memory β μ × Slot σ :=
  (mem.copyContext nodes dst.blockContext src.blockContext (mem.blocks src.blockContext).mm,
    { src with
      serviceContext := ⟨src.serviceContext.body, dst.blockContext⟩
      blockContext := dst.blockContext })

/-- The contexts of an item as its worker has prepared them. -/
def itemContexts (mem : Memory β μ) (item : KthreadWorkItem) (src : ServiceContext σ) :
    Contexts σ β μ :=
  { src.read nodes mem with mm := itemMm item }

variable {mem : Memory β μ} {slot dst : Slot σ}

theorem read_clonePipelineContextsToSlot (item : KthreadWorkItem) (addr : Addr)
    (src : ServiceContext σ) (job : Nat) :
    let r := clonePipelineContextsToSlot nodes mem slot item addr src job
    r.2.serviceContext.read nodes r.1 = itemContexts nodes mem item src :=
  Memory.read_copyContext nodes src.body

theorem read_moveAsyncSlotPayload (h : slot.serviceContext.blockContext = slot.blockContext) :
    let r := moveAsyncSlotPayload nodes mem dst slot
    r.2.serviceContext.read nodes r.1 = slot.serviceContext.read nodes mem := by
  have hself : slot.serviceContext = ⟨slot.serviceContext.body, slot.blockContext⟩ := by rw [← h]
  simp only [moveAsyncSlotPayload, Memory.read_copyContext]
  rw [hself]
  rfl

/-- Where the contexts of the slots are: `uvm_gpu_async_copy_init` allocates one for each. -/
structure Layout where
  pdBlock : Addr
  cdBlock : Addr
  pdMasks : Addr
  cdMasks : Addr
  blocks_ne : pdBlock ≠ cdBlock
  masks_ne : pdMasks ≠ cdMasks

/-- The block contexts of the slots have their own arrays of node masks. -/
structure Layout.Owns (L : Layout) (mem : Memory β μ) : Prop where
  pd : (mem.blocks L.pdBlock).nodeMasks = L.pdMasks
  cd : (mem.blocks L.cdBlock).nodeMasks = L.cdMasks

theorem Layout.Owns.copyContext {L : Layout} (h : L.Owns mem) (dst src : Addr) (mm : Option MmId) :
    L.Owns (mem.copyContext nodes dst src mm) where
  pd := by rw [Memory.copyContext_nodeMasks, h.pd]
  cd := by rw [Memory.copyContext_nodeMasks, h.cd]

end FaultMesh.Async
