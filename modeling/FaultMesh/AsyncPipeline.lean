import FaultMesh.AsyncSlots
import FaultMesh.Lib.Machine

/-!
# The two-slot async pipeline

Workers submit items with `submit_async_pipeline_item`, the thread of the GPU runs
`async_copy_map_worker_fn`, and coordinators wait in `flush_gpu_async_copy`. A section under
`async_copy_lock` is one step, and so is every read of a flag outside of it. What a thread does to
contexts of its own is a step of the environment, as long as it keeps off those of the slots.

Submissions are numbered, and a slot remembers the number it was filled by. The history keeps what
was submitted, every call of `uvm_va_block_service_copy_finish` with what it read, and every status
that was stored.
-/

namespace FaultMesh.Async

open Function (update)

/-! ## The machine -/

/-- Where `async_copy_map_worker_fn` is. -/
inductive ConsumerPc where
  /-- It waits, and reads `cd.occupied`. -/
  | readCd
  /-- It waits, and reads `pd_copy.occupied` as `cd` was free. -/
  | readPd
  /-- It takes the lock to pick the slot. -/
  | lock
  /-- It works on `cd`, outside of the lock. -/
  | serve
  /-- It stores the status through the pointer of the slot. -/
  | store (status : NvStatus)
  /-- It takes the lock to reset `cd`. -/
  | reset
  deriving DecidableEq, Repr

def ConsumerPc.served : ConsumerPc → Bool
  | .store _ | .reset => true
  | _ => false

/-- Where a coordinator is in `flush_gpu_async_copy`, with the number of items that were submitted
before. -/
inductive FlushPc where
  | idle
  | readPd (began : Nat)
  | readCd (began : Nat)
  /-- It returned `NV_OK`. -/
  | returned (began : Nat)
  /-- It returned `NV_ERR_TIMEOUT`. -/
  | timedOut
  deriving DecidableEq, Repr

/-- A call of `submit_async_pipeline_item`: the item and where it is, its contexts, and what was
returned. -/
structure Submission (σ β μ : Type*) where
  item : KthreadWorkItem
  addr : Addr
  contexts : Contexts σ β μ
  accepted : Bool

/-- A call of `uvm_va_block_service_copy_finish` by the thread. -/
structure CopyRun (σ β μ : Type*) where
  job : Option Nat
  processorId : Option GpuId
  vaBlock : VaBlock
  vaSpace : Option VaSpaceId
  contexts : Contexts σ β μ

structure StatusStore where
  job : Option Nat
  addr : Addr
  status : NvStatus
  deriving DecidableEq, Repr

def Submission.run {σ β μ : Type*} (sub : Submission σ β μ) (j : Nat) : CopyRun σ β μ where
  job := some j
  processorId := sub.item.gpu
  vaBlock := sub.item.vaBlock
  vaSpace := sub.item.snapshot.map VaSpaceSnapshot.vaSpace
  contexts := sub.contexts

structure Pipeline (σ β μ : Type*) where
  pd : Slot σ
  cd : Slot σ
  mem : Memory β μ
  consumer : ConsumerPc
  flushers : Nat → FlushPc
  /-- `uvm_parallel_async_copy_map_enable`. -/
  enable : Bool
  /-- The history. -/
  submissions : List (Submission σ β μ)
  ran : List (CopyRun σ β μ)
  stored : List StatusStore

/-- What `uvm_va_block_service_copy_finish` leaves in its contexts. -/
structure Written (σ β μ : Type*) where
  service : σ
  block : β
  masks : Nat → μ

inductive PipelineLabel (σ β μ : Type*) where
  /-- A worker submits the item at the address, with its service context. -/
  | submit (item : KthreadWorkItem) (addr : Addr) (src : ServiceContext σ)
  /-- The thread, except for the call. -/
  | consumer
  /-- The thread calls `uvm_va_block_service_copy_finish` and adds the tracker of the block. -/
  | copyFinish (out : Written σ β μ) (finish : NvStatus) (tracker : CallStatus)
  | flush (f : Nat)
  | flushTimeout (f : Nat)
  | setEnable (on : Bool)
  /-- Someone writes to a block context, or to an array of node masks. -/
  | writeBlock (a : Addr) (context : BlockContext β)
  | writeMasks (a : Addr) (m : Nat → μ)

variable {σ β μ : Type*} (nodes : Nat)

/-- The history with one more call of `submit_async_pipeline_item`. -/
def Pipeline.submitted (s : Pipeline σ β μ) (item : KthreadWorkItem) (addr : Addr)
    (src : ServiceContext σ) (accepted : Bool) : List (Submission σ β μ) :=
  s.submissions ++ [⟨item, addr, itemContexts nodes s.mem item src, accepted⟩]

def Pipeline.fillPd (s : Pipeline σ β μ) (item : KthreadWorkItem) (addr : Addr)
    (src : ServiceContext σ) : Pipeline σ β μ :=
  let r := clonePipelineContextsToSlot nodes s.mem s.pd item addr src s.submissions.length
  { s with mem := r.1, pd := r.2, submissions := s.submitted nodes item addr src true }

def Pipeline.fillCd (s : Pipeline σ β μ) (item : KthreadWorkItem) (addr : Addr)
    (src : ServiceContext σ) : Pipeline σ β μ :=
  let r := clonePipelineContextsToSlot nodes s.mem s.cd item addr src s.submissions.length
  { s with mem := r.1, cd := r.2, submissions := s.submitted nodes item addr src true }

/-- `submit_async_pipeline_item`, for an item of the GPU. -/
def Pipeline.submit (s : Pipeline σ β μ) (item : KthreadWorkItem) (addr : Addr)
    (src : ServiceContext σ) : Pipeline σ β μ :=
  if !s.pd.occupied then s.fillPd nodes item addr src
  else if !s.cd.occupied then s.fillCd nodes item addr src
  else { s with submissions := s.submitted nodes item addr src false }

/-- The payload of `pd_copy` is moved to `cd`. -/
def Pipeline.advance [Inhabited σ] (s : Pipeline σ β μ) : Pipeline σ β μ :=
  let r := moveAsyncSlotPayload nodes s.mem s.cd s.pd
  { s with mem := r.1, cd := r.2, pd := s.pd.reset }

/-- The status is stored if the slot points to an item. -/
def Slot.store (slot : Slot σ) (status : NvStatus) : List StatusStore :=
  slot.status.toList.map fun addr => ⟨slot.job, addr, status⟩

/-- The steps of `async_copy_map_worker_fn`, except for the call. -/
def Pipeline.consumerStep [Inhabited σ] (s : Pipeline σ β μ) : Option (Pipeline σ β μ) :=
  match s.consumer with
  | .readCd => some { s with consumer := if s.cd.occupied then .lock else .readPd }
  | .readPd => some { s with consumer := if s.pd.occupied then .lock else .readCd }
  | .lock =>
    let s := if !s.cd.occupied && s.pd.occupied then s.advance nodes else s
    some { s with consumer := if s.cd.occupied then .serve else .readCd }
  | .serve => none
  | .store status =>
    some { s with stored := s.stored ++ s.cd.store status, consumer := .reset }
  | .reset => some { s with cd := s.cd.reset, consumer := .readCd }

def Pipeline.write (s : Pipeline σ β μ) (out : Written σ β μ) : Pipeline σ β μ :=
  let a := s.cd.serviceContext.blockContext
  let context := s.mem.blocks a
  { s with
    cd := { s.cd with serviceContext := ⟨out.service, a⟩ }
    mem :=
      { blocks := update s.mem.blocks a { context with body := out.block }
        masks := update s.mem.masks context.nodeMasks out.masks } }

/-- The thread calls `uvm_va_block_service_copy_finish` on what it reads through `cd`. -/
def Pipeline.copyFinish (s : Pipeline σ β μ) (out : Written σ β μ) (finish : NvStatus)
    (tracker : CallStatus) : Option (Pipeline σ β μ) :=
  match s.consumer, s.cd.vaBlock with
  | .serve, some vaBlock =>
    let run := ⟨s.cd.job, s.cd.processorId, vaBlock, s.cd.vaSpace,
      s.cd.serviceContext.read nodes s.mem⟩
    some
      { s.write out with
        ran := s.ran ++ [run]
        consumer := .store (if finish = .ok then tracker.toStatus else finish) }
  | .serve, none => some { s with consumer := .store .errInvalidState }
  | _, _ => none

/-- The next step of a coordinator, which may flush again once it returned. Where the option is off
it returns at once; what it sees as occupied lets it wait. -/
def Pipeline.flushStep (s : Pipeline σ β μ) (f : Nat) : FlushPc :=
  match s.flushers f with
  | .idle | .returned _ | .timedOut =>
    if s.enable then .readPd s.submissions.length else .returned s.submissions.length
  | .readPd n => if s.pd.occupied then .readPd n else .readCd n
  | .readCd n => if s.cd.occupied then .readPd n else .returned n

/-- The coordinator sees a slot occupied, and would wait on. -/
def Pipeline.flushWaits (s : Pipeline σ β μ) (f : Nat) : Bool :=
  match s.flushers f with
  | .readPd _ => s.pd.occupied
  | .readCd _ => s.cd.occupied
  | _ => false

/-- The pipeline of a GPU from `uvm_gpu_async_copy_init` on. The option can be written at any time.
Workers submit where they have read it as on, which may be long ago. -/
def pipelineMachine [Inhabited σ] (L : Layout) :
    Machine (Pipeline σ β μ) (PipelineLabel σ β μ) where
  step s
    | .submit item addr src => some (s.submit nodes item addr src)
    | .consumer => s.consumerStep nodes
    | .copyFinish out finish tracker => s.copyFinish nodes out finish tracker
    | .flush f =>
      some { s with flushers := update s.flushers f (s.flushStep f) }
    | .flushTimeout f =>
      if s.flushWaits f then some { s with flushers := update s.flushers f .timedOut } else none
    | .setEnable on => some { s with enable := on }
    | .writeBlock a context =>
      if a ≠ L.pdBlock ∧ a ≠ L.cdBlock then
        some { s with mem := { s.mem with blocks := update s.mem.blocks a context } }
      else none
    | .writeMasks a m =>
      if a ≠ L.pdMasks ∧ a ≠ L.cdMasks then
        some { s with mem := { s.mem with masks := update s.mem.masks a m } }
      else none

def Slot.init [Inhabited σ] (block : Addr) : Slot σ where
  processorId := none
  vaBlock := none
  vaSpace := none
  tracker := none
  status := none
  serviceContext := ⟨default, block⟩
  blockContext := block
  occupied := false
  job := none

/-- `uvm_gpu_async_copy_init`, which does nothing where the option is off. -/
def Pipeline.init [Inhabited σ] (L : Layout) (mem : Memory β μ) : Pipeline σ β μ where
  pd := .init L.pdBlock
  cd := .init L.cdBlock
  mem := mem
  consumer := .readCd
  flushers := fun _ => .idle
  enable := true
  submissions := []
  ran := []
  stored := []

/-! ## What a step can do -/

/-- The steps one by one, with what they require. -/
inductive Moves [Inhabited σ] (L : Layout) (s : Pipeline σ β μ) :
    PipelineLabel σ β μ → Pipeline σ β μ → Prop
  | fillPd (item : KthreadWorkItem) (addr : Addr) (src : ServiceContext σ) (free : s.pd.occupied = false) :
      Moves L s (.submit item addr src) (s.fillPd nodes item addr src)
  | fillCd (item : KthreadWorkItem) (addr : Addr) (src : ServiceContext σ) (full : s.pd.occupied = true)
      (free : s.cd.occupied = false) :
      Moves L s (.submit item addr src) (s.fillCd nodes item addr src)
  | refuse (item : KthreadWorkItem) (addr : Addr) (src : ServiceContext σ)
      (pd : s.pd.occupied = true) (cd : s.cd.occupied = true) :
      Moves L s (.submit item addr src)
        { s with submissions := s.submitted nodes item addr src false }
  | readCd (pc : s.consumer = .readCd) :
      Moves L s .consumer { s with consumer := if s.cd.occupied then .lock else .readPd }
  | readPd (pc : s.consumer = .readPd) :
      Moves L s .consumer { s with consumer := if s.pd.occupied then .lock else .readCd }
  | pick (pc : s.consumer = .lock) (full : s.cd.occupied = true) :
      Moves L s .consumer { s with consumer := .serve }
  | advance (pc : s.consumer = .lock) (free : s.cd.occupied = false)
      (full : s.pd.occupied = true) :
      Moves L s .consumer { s.advance nodes with consumer := .serve }
  | leave (pc : s.consumer = .lock) (free : s.cd.occupied = false) (none : s.pd.occupied = false) :
      Moves L s .consumer { s with consumer := .readCd }
  | call (out : Written σ β μ) (finish : NvStatus) (tracker : CallStatus) (vaBlock : VaBlock)
      (pc : s.consumer = .serve) (block : s.cd.vaBlock = some vaBlock) :
      Moves L s (.copyFinish out finish tracker)
        { s.write out with
          ran := s.ran ++ [⟨s.cd.job, s.cd.processorId, vaBlock, s.cd.vaSpace,
            s.cd.serviceContext.read nodes s.mem⟩]
          consumer := .store (if finish = .ok then tracker.toStatus else finish) }
  | invalid (out : Written σ β μ) (finish : NvStatus) (tracker : CallStatus)
      (pc : s.consumer = .serve) (block : s.cd.vaBlock = none) :
      Moves L s (.copyFinish out finish tracker)
        { s with consumer := .store .errInvalidState }
  | store (status : NvStatus) (pc : s.consumer = .store status) :
      Moves L s .consumer
        { s with stored := s.stored ++ s.cd.store status, consumer := .reset }
  | reset (pc : s.consumer = .reset) :
      Moves L s .consumer { s with cd := s.cd.reset, consumer := .readCd }
  | flush (f : Nat) :
      Moves L s (.flush f) { s with flushers := update s.flushers f (s.flushStep f) }
  | flushTimeout (f : Nat) (waits : s.flushWaits f = true) :
      Moves L s (.flushTimeout f) { s with flushers := update s.flushers f .timedOut }
  | setEnable (on : Bool) : Moves L s (.setEnable on) { s with enable := on }
  | writeBlock (a : Addr) (context : BlockContext β) (pd : a ≠ L.pdBlock) (cd : a ≠ L.cdBlock) :
      Moves L s (.writeBlock a context)
        { s with mem := { s.mem with blocks := update s.mem.blocks a context } }
  | writeMasks (a : Addr) (m : Nat → μ) (pd : a ≠ L.pdMasks) (cd : a ≠ L.cdMasks) :
      Moves L s (.writeMasks a m)
        { s with mem := { s.mem with masks := update s.mem.masks a m } }

variable {nodes} {L : Layout} {s t : Pipeline σ β μ} {l : PipelineLabel σ β μ}

theorem moves_submit [Inhabited σ] (item : KthreadWorkItem) (addr : Addr) (src : ServiceContext σ) :
    Moves nodes L s (.submit item addr src) (s.submit nodes item addr src) := by
  rw [Pipeline.submit]
  cases hpd : s.pd.occupied with
  | false => exact .fillPd item addr src hpd
  | true =>
    cases hcd : s.cd.occupied with
    | false => exact .fillCd item addr src hpd hcd
    | true => exact .refuse item addr src hpd hcd

theorem moves_consumer [Inhabited σ] (h : s.consumerStep nodes = some t) :
    Moves nodes L s .consumer t := by
  rw [Pipeline.consumerStep] at h
  split at h
  next hpc => exact Option.some.inj h ▸ .readCd hpc
  next hpc => exact Option.some.inj h ▸ .readPd hpc
  next hpc =>
    -- under the lock: `cd` first, then what `pd_copy` can give it
    obtain rfl := Option.some.inj h
    cases hcd : s.cd.occupied with
    | true => simpa [hcd] using Moves.pick hpc hcd
    | false =>
      cases hpd : s.pd.occupied with
      | true =>
        have hfull : (s.advance nodes).cd.occupied = true := hpd
        simpa [hfull] using Moves.advance hpc hcd hpd
      | false => simpa [hcd] using Moves.leave hpc hcd hpd
  next hpc => cases h
  next status hpc => exact Option.some.inj h ▸ .store status hpc
  next hpc => exact Option.some.inj h ▸ .reset hpc

theorem moves_of_step [Inhabited σ]
    (h : (pipelineMachine nodes L).step s l = some t) : Moves nodes L s l t := by
  cases l with
  | submit item addr src =>
    exact Option.some.inj h ▸ moves_submit item addr src
  | consumer => exact moves_consumer h
  | copyFinish out finish tracker =>
    simp only [pipelineMachine, Pipeline.copyFinish] at h
    split at h
    next vaBlock hpc hblock => exact Option.some.inj h ▸ .call out finish tracker vaBlock hpc hblock
    next hpc hblock => exact Option.some.inj h ▸ .invalid out finish tracker hpc hblock
    next => cases h
  | flush f => exact Option.some.inj h ▸ .flush f
  | flushTimeout f =>
    simp only [pipelineMachine, Option.ite_none_right_eq_some, Option.some.injEq] at h
    exact h.2 ▸ .flushTimeout f h.1
  | setEnable on => exact Option.some.inj h ▸ .setEnable on
  | writeBlock a context =>
    simp only [pipelineMachine, Option.ite_none_right_eq_some, Option.some.injEq] at h
    exact h.2 ▸ .writeBlock a context h.1.1 h.1.2
  | writeMasks a m =>
    simp only [pipelineMachine, Option.ite_none_right_eq_some, Option.some.injEq] at h
    exact h.2 ▸ .writeMasks a m h.1.1 h.1.2

/-! ## Where the contexts are -/

/-- The slots and their service contexts point to the block contexts of the slots. -/
structure Placed (L : Layout) (s : Pipeline σ β μ) : Prop where
  pd : s.pd.blockContext = L.pdBlock
  cd : s.cd.blockContext = L.cdBlock
  pdService : s.pd.serviceContext.blockContext = L.pdBlock
  cdService : s.cd.serviceContext.blockContext = L.cdBlock
  owns : L.Owns s.mem

theorem Placed.step [Inhabited σ] (h : Placed L s) (hm : Moves nodes L s l t) :
    Placed L t := by
  cases hm with
  | fillPd => exact ⟨h.pd, h.cd, h.pd, h.cdService, h.owns.copyContext nodes _ _ _⟩
  | fillCd => exact ⟨h.pd, h.cd, h.pdService, h.cd, h.owns.copyContext nodes _ _ _⟩
  | advance => exact ⟨h.pd, h.cd, h.pd, h.cd, h.owns.copyContext nodes _ _ _⟩
  | call =>
    refine ⟨h.pd, h.cd, h.pdService, h.cdService, ?_, ?_⟩
    · simp [Pipeline.write, h.cdService, L.blocks_ne, h.owns.pd]
    · simp [Pipeline.write, h.cdService, h.owns.cd]
  | reset => exact ⟨h.pd, h.cd, h.pdService, h.cd, h.owns⟩
  | writeBlock a context hpd hcd =>
    refine ⟨h.pd, h.cd, h.pdService, h.cdService, ?_, ?_⟩
    · simp [Ne.symm hpd, h.owns.pd]
    · simp [Ne.symm hcd, h.owns.cd]
  | writeMasks a m => exact ⟨h.pd, h.cd, h.pdService, h.cdService, h.owns.pd, h.owns.cd⟩
  | refuse | readCd | readPd | pick | leave | invalid | store | flush | flushTimeout | setEnable =>
    exact ⟨h.pd, h.cd, h.pdService, h.cdService, h.owns⟩

/-! ## Where the thread is -/

/-- What the position of the thread says about the slots. Only the thread empties a slot, so what
it has seen as occupied stays so; and `cd` is filled past the thread only while `pd_copy` is
occupied. -/
def Positioned (s : Pipeline σ β μ) : Prop :=
  match s.consumer with
  | .readCd => True
  | .readPd => s.cd.occupied = true → s.pd.occupied = true
  | .lock => s.pd.occupied = true ∨ s.cd.occupied = true
  | .serve | .store _ | .reset => s.cd.occupied = true

theorem Positioned.fill (h : Positioned s) (hpc : t.consumer = s.consumer)
    (hpd : s.pd.occupied = true → t.pd.occupied = true)
    (hcd : s.cd.occupied = true → t.cd.occupied = true)
    (hnew : t.cd.occupied = true → s.cd.occupied = true ∨ t.pd.occupied = true) : Positioned t := by
  unfold Positioned at h ⊢
  rw [hpc]
  cases hc : s.consumer with
  | readCd => trivial
  | readPd =>
    rw [hc] at h
    exact fun hfull => (hnew hfull).elim (fun hold => hpd (h hold)) id
  | lock =>
    rw [hc] at h
    exact h.imp hpd hcd
  | serve =>
    rw [hc] at h
    exact hcd h
  | store status =>
    rw [hc] at h
    exact hcd h
  | reset =>
    rw [hc] at h
    exact hcd h

theorem Positioned.step [Inhabited σ] (h : Positioned s) (hm : Moves nodes L s l t) :
    Positioned t := by
  cases hm with
  | fillPd => exact h.fill rfl (fun _ => rfl) id fun hcd => .inl hcd
  | fillCd item addr src full => exact h.fill rfl id (fun _ => rfl) fun _ => .inr full
  | refuse | flush | flushTimeout | setEnable | writeBlock | writeMasks => exact h.fill rfl id id .inl
  | readCd pc =>
    cases hcd : s.cd.occupied with
    | true => simp [Positioned, hcd]
    | false => simp [Positioned, hcd]
  | readPd pc =>
    cases hpd : s.pd.occupied with
    | true => simp [Positioned, hpd]
    | false => simp [Positioned]
  | pick pc full => exact full
  | advance pc free full => exact full
  | leave | reset => trivial
  | call out finish tracker vaBlock pc =>
    rw [Positioned, pc] at h
    exact h
  | invalid out finish tracker pc =>
    rw [Positioned, pc] at h
    exact h
  | store status pc =>
    rw [Positioned, pc] at h
    exact h

theorem Positioned.occupied_of_served (h : Positioned s) (hserved : s.consumer.served = true) :
    s.cd.occupied = true := by
  unfold Positioned at h
  cases hc : s.consumer with
  | store status =>
    rw [hc] at h
    exact h
  | reset =>
    rw [hc] at h
    exact h
  | readCd | readPd | lock | serve =>
    rw [hc] at hserved
    cases hserved

/-! ## What the slots hold -/

/-- The slot was filled by the submission of that number. -/
structure Slot.Carries (slot : Slot σ) (j : Nat) (sub : Submission σ β μ) : Prop where
  job : slot.job = some j
  processorId : slot.processorId = sub.item.gpu
  vaBlock : slot.vaBlock = some sub.item.vaBlock
  vaSpace : slot.vaSpace = sub.item.snapshot.map VaSpaceSnapshot.vaSpace
  tracker : slot.tracker = some sub.addr
  status : slot.status = some sub.addr

/-- The slot was filled by an accepted submission. As long as it was not served, its contexts are
those of the item. -/
def Slot.Loaded (nodes : Nat) (mem : Memory β μ) (subs : List (Submission σ β μ)) (slot : Slot σ)
    (served : Bool) : Prop :=
  ∃ j sub, subs[j]? = some sub ∧ sub.accepted = true ∧ slot.Carries j sub ∧
    (served = false → slot.serviceContext.read nodes mem = sub.contexts)

structure Carried (nodes : Nat) (s : Pipeline σ β μ) : Prop where
  pd : s.pd.occupied = true → s.pd.Loaded nodes s.mem s.submissions false
  cd : s.cd.occupied = true → s.cd.Loaded nodes s.mem s.submissions s.consumer.served

section Loaded

variable {mem mem' : Memory β μ} {subs : List (Submission σ β μ)} {slot : Slot σ} {served : Bool}

theorem Slot.Loaded.congr (h : slot.Loaded nodes mem subs served)
    (hread : slot.serviceContext.read nodes mem' = slot.serviceContext.read nodes mem) :
    slot.Loaded nodes mem' subs served := by
  obtain ⟨j, sub, hj, hacc, hcarries, hctx⟩ := h
  exact ⟨j, sub, hj, hacc, hcarries, fun hs => hread.trans (hctx hs)⟩

theorem Slot.Loaded.append (h : slot.Loaded nodes mem subs served) (subs' : List (Submission σ β μ)) :
    slot.Loaded nodes mem (subs ++ subs') served := by
  obtain ⟨j, sub, hj, hrest⟩ := h
  have hlt : j < subs.length := (List.getElem?_eq_some_iff.1 hj).1
  exact ⟨j, sub, by rw [List.getElem?_append_left hlt, hj], hrest⟩

theorem loaded_clone (s : Pipeline σ β μ) (slot : Slot σ) (item : KthreadWorkItem) (addr : Addr)
    (src : ServiceContext σ) (served : Bool) :
    let r := clonePipelineContextsToSlot nodes s.mem slot item addr src s.submissions.length
    r.2.Loaded nodes r.1 (s.submitted nodes item addr src true) served := by
  refine ⟨s.submissions.length, ⟨item, addr, itemContexts nodes s.mem item src, true⟩, ?_, rfl,
    ⟨rfl, rfl, rfl, rfl, rfl, rfl⟩, fun _ => ?_⟩
  · exact List.getElem?_concat_length
  · exact read_clonePipelineContextsToSlot nodes item addr src _

theorem Slot.Loaded.serve (h : slot.Loaded nodes mem subs false) (served : Bool) :
    slot.Loaded nodes mem subs served := by
  obtain ⟨j, sub, hj, hacc, hcarries, hctx⟩ := h
  exact ⟨j, sub, hj, hacc, hcarries, fun _ => hctx rfl⟩

end Loaded

theorem Placed.read_cd (h : Placed L s) (src : Addr) (mm : Option MmId) :
    s.cd.serviceContext.read nodes (s.mem.copyContext nodes s.pd.blockContext src mm) =
      s.cd.serviceContext.read nodes s.mem := by
  apply Memory.read_copyContext_of_ne
  · rw [h.cdService, h.pd]
    exact L.blocks_ne.symm
  · rw [h.cdService, h.pd, h.owns.cd, h.owns.pd]
    exact L.masks_ne.symm

theorem Placed.read_pd (h : Placed L s) (src : Addr) (mm : Option MmId) :
    s.pd.serviceContext.read nodes (s.mem.copyContext nodes s.cd.blockContext src mm) =
      s.pd.serviceContext.read nodes s.mem := by
  apply Memory.read_copyContext_of_ne
  · rw [h.pdService, h.cd]
    exact L.blocks_ne
  · rw [h.pdService, h.cd, h.owns.pd, h.owns.cd]
    exact L.masks_ne

theorem Placed.read_pd_write (h : Placed L s) (out : Written σ β μ) :
    s.pd.serviceContext.read nodes (s.write out).mem = s.pd.serviceContext.read nodes s.mem := by
  simp [ServiceContext.read, Pipeline.write, h.pdService, h.cdService, h.owns.pd, h.owns.cd,
    L.blocks_ne, L.masks_ne]

theorem Carried.elsewhere (h : Carried nodes s) (mem : Memory β μ)
    (hpd : s.pd.serviceContext.read nodes mem = s.pd.serviceContext.read nodes s.mem)
    (hcd : s.cd.serviceContext.read nodes mem = s.cd.serviceContext.read nodes s.mem) :
    Carried nodes { s with mem := mem } where
  pd := fun hocc => (h.pd hocc).congr hpd
  cd := fun hocc => (h.cd hocc).congr hcd

theorem Carried.consumer (h : Carried nodes s) {pc : ConsumerPc}
    (hpc : s.consumer.served = false ∨ pc.served = s.consumer.served) :
    Carried nodes { s with consumer := pc } where
  pd := h.pd
  cd := by
    intro hocc
    have hload := h.cd hocc
    obtain hnot | hsame := hpc
    · rw [hnot] at hload
      exact hload.serve _
    · show s.cd.Loaded nodes s.mem s.submissions pc.served
      rw [hsame]
      exact hload

/-- An occupied slot holds an accepted item, with its contexts until it is served. -/
theorem Carried.step [Inhabited σ] (h : Carried nodes s) (hplace : Placed L s)
    (hm : Moves nodes L s l t) : Carried nodes t := by
  cases hm with
  | fillPd item addr src =>
    refine ⟨fun _ => loaded_clone s s.pd item addr src false, fun hocc => ?_⟩
    exact ((h.cd hocc).congr (hplace.read_cd _ _)).append _
  | fillCd item addr src =>
    refine ⟨fun hocc => ?_, fun _ => loaded_clone s s.cd item addr src _⟩
    exact ((h.pd hocc).congr (hplace.read_pd _ _)).append _
  | refuse => exact ⟨fun hocc => (h.pd hocc).append _, fun hocc => (h.cd hocc).append _⟩
  | readCd pc => exact h.consumer (.inl (by rw [pc]; rfl))
  | readPd pc => exact h.consumer (.inl (by rw [pc]; rfl))
  | pick pc => exact h.consumer (.inl (by rw [pc]; rfl))
  | leave pc => exact h.consumer (.inl (by rw [pc]; rfl))
  | invalid out finish tracker pc => exact h.consumer (.inl (by rw [pc]; rfl))
  | advance pc free full =>
    refine ⟨nofun, fun _ => ?_⟩
    obtain ⟨j, sub, hj, hacc, hcarries, hctx⟩ := h.pd full
    refine ⟨j, sub, hj, hacc, ⟨hcarries.job, hcarries.processorId, hcarries.vaBlock,
      hcarries.vaSpace, hcarries.tracker, hcarries.status⟩, fun _ => ?_⟩
    -- the service context of `pd_copy` points to the context that is copied
    exact (read_moveAsyncSlotPayload nodes (hplace.pdService.trans hplace.pd.symm)).trans (hctx rfl)
  | call out finish tracker vaBlock pc =>
    refine ⟨fun hocc => (h.pd hocc).congr (hplace.read_pd_write out), fun hocc => ?_⟩
    obtain ⟨j, sub, hj, hacc, hcarries, -⟩ := h.cd hocc
    exact ⟨j, sub, hj, hacc, ⟨hcarries.job, hcarries.processorId, hcarries.vaBlock,
      hcarries.vaSpace, hcarries.tracker, hcarries.status⟩, nofun⟩
  | store status pc =>
    refine ⟨h.pd, fun hocc => ?_⟩
    have hload := h.cd hocc
    rw [pc] at hload
    exact hload
  | reset => exact ⟨h.pd, nofun⟩
  | flush | flushTimeout | setEnable => exact ⟨h.pd, h.cd⟩
  | writeBlock a context hpd hcd =>
    apply h.elsewhere
    · exact Memory.read_writeBlock nodes (hplace.pdService.trans_ne hpd.symm)
    · exact Memory.read_writeBlock nodes (hplace.cdService.trans_ne hcd.symm)
  | writeMasks a m hpd hcd =>
    apply h.elsewhere
    · apply Memory.read_writeMasks
      rw [hplace.pdService, hplace.owns.pd]
      exact hpd.symm
    · apply Memory.read_writeMasks
      rw [hplace.cdService, hplace.owns.cd]
      exact hcd.symm

end FaultMesh.Async
