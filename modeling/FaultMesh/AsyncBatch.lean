import FaultMesh.AsyncDelivery

/-!
# Collecting the results of the async pipeline

The status of an item is written by three threads: its producer sets it to `NV_OK`, the worker
stores what `service_block_faults_kthread` returned, and the thread of the GPU stores what
`uvm_va_block_service_copy_finish` gave, through the pointer of its slot. The tracker of the item is
filled by the thread and emptied by the coordinator, which adds both to the result of the batch:
after a flush if the items were dispatched, and right after each item if they were serviced inline.

The machine puts the items of one batch after another on top of the pipeline. Items are known by
their place in the queue, so that the items of two batches share their words. A flush may time out,
and then the items are added all the same. That the wait for `all_done` does not expire is assumed:
it would leave the items uncollected.
-/

namespace FaultMesh.Async

open Function (update)

/-! ## Items and coordinator -/

/-- The output of an item. A tracker is modelled by the submissions whose work it covers, with
`none` for work of a worker. -/
structure ItemWord where
  status : NvStatus
  tracker : List (Option Nat)
  deriving DecidableEq, Repr

/-- How far the worker, or the coordinator inline, is with an item. A number stands for a
submission that was accepted. -/
inductive ItemPhase where
  | waiting
  /-- The block is locked, and its pages are populated. -/
  | servicing
  | refused
  /-- At the label `unlock`, with the status to be returned. -/
  | unlocking (job : Option Nat) (status : NvStatus)
  | returning (job : Option Nat) (status : NvStatus)
  /-- The returned status is stored in the item. -/
  | done (job : Option Nat)
  | folded
  deriving DecidableEq, Repr

namespace ItemPhase

def job : ItemPhase → Option Nat
  | .unlocking job _ | .returning job _ | .done job => job
  | _ => none

/-- The item was taken and is not with the pipeline yet. -/
def isOwn : ItemPhase → Bool
  | .servicing | .refused => true
  | _ => false

def isDone : ItemPhase → Bool
  | .done _ => true
  | _ => false

end ItemPhase

inductive CoordPc where
  | idle
  /-- It waits for `all_done`. -/
  | waiting
  /-- It is in `flush_pipeline_items`. -/
  | flushing
  /-- It comes to an item of the dispatch. -/
  | folding (i : Nat)
  /-- It is at an item of the inline fallback. -/
  | inline (i : Nat)
  deriving DecidableEq, Repr

/-- What a call of `uvm_va_block_service_copy_finish` by the thread and adding the tracker of the
block gave. -/
structure Outcome where
  job : Option Nat
  finish : NvStatus
  tracker : CallStatus
  deriving DecidableEq, Repr

def Outcome.status (o : Outcome) : NvStatus := if o.finish = .ok then o.tracker.toStatus else o.finish

/-- What the coordinator has taken from an item. -/
structure Fold where
  job : Option Nat
  status : NvStatus
  tracker : List (Option Nat)
  deriving DecidableEq, Repr

structure AsyncBatch (σ β μ : Type*) where
  pipe : Pipeline σ β μ
  items : List KthreadWorkItem
  phases : Nat → ItemPhase
  words : Addr → ItemWord
  coord : CoordPc
  status : NvStatus
  tracker : List (Option Nat)
  /-- The history: of all calls, and of the items of the batch that were folded. -/
  outcomes : List Outcome
  folds : List Fold

inductive BatchLabel (σ β μ : Type*) where
  /-- A batch starts, inline with the status of the grouping loop. -/
  | begin (inline : Bool) (items : List KthreadWorkItem) (status : NvStatus)
  /-- The item is set up, its block locked, and its pages populated. -/
  | take (i : Nat)
  | submit (i : Nat) (src : ServiceContext σ)
  /-- The block is serviced without the pipeline, or left alone. -/
  | finishOwn (i : Nat) (finish : NvStatus) (tracker : CallStatus)
  | unlock (i : Nat)
  | store (i : Nat)
  | flush
  | flushTimeout
  | setEnable (on : Bool)
  /-- The coordinator adds the next item to the result. -/
  | fold (tracker : CallStatus)
  | consumer
  | copyFinish (out : Written σ β μ) (finish : NvStatus) (tracker : CallStatus)
  | writeBlock (a : Addr) (context : BlockContext β)
  | writeMasks (a : Addr) (m : Nat → μ)

variable {σ β μ : Type*}

def Pipeline.accepts (s : Pipeline σ β μ) : Bool := !s.pd.occupied || !s.cd.occupied

/-- The tracker with the work of a submission, if it could be added. -/
def ItemWord.addWork (w : ItemWord) (job : Option Nat) (tracker : CallStatus) : ItemWord :=
  if tracker = .ok then { w with tracker := w.tracker ++ [job] } else w

namespace AsyncBatch

/-- `items_remaining` is zero. -/
def allDone (s : AsyncBatch σ β μ) : Bool :=
  (List.range s.items.length).all fun i => (s.phases i).isDone

/-- The item after the given one, if there is one. -/
def next (s : AsyncBatch σ β μ) (pc : Nat → CoordPc) (i : Nat) : CoordPc :=
  if i + 1 < s.items.length then pc (i + 1) else .idle

/-- The status and the tracker of the item at a place are added to those of the batch, and its
tracker is torn down. -/
def fold (s : AsyncBatch σ β μ) (i : Nat) (job : Option Nat) (tracker : CallStatus) (pc : CoordPc) :
    AsyncBatch σ β μ :=
  let word := s.words i
  { s with
    status := foldStatus s.status [word.status, tracker.toStatus]
    tracker := if tracker = .ok then s.tracker ++ word.tracker else s.tracker
    words := update s.words i { word with tracker := [] }
    phases := update s.phases i .folded
    folds := s.folds ++ [⟨job, word.status, word.tracker⟩]
    coord := pc }

/-- What the thread stores in the items. -/
def storeWords (s : AsyncBatch σ β μ) : Addr → ItemWord :=
  match s.pipe.consumer, s.pipe.cd.status with
  | .store status, some a => update s.words a { s.words a with status := status }
  | _, _ => s.words

/-- The tracker that the thread adds the work to. -/
def trackWords (s : AsyncBatch σ β μ) (tracker : CallStatus) : Addr → ItemWord :=
  match s.pipe.cd.tracker with
  | some a => update s.words a ((s.words a).addWork s.pipe.cd.job tracker)
  | none => s.words

end AsyncBatch

/-- Before the first batch. The words of the items may hold anything. -/
def AsyncBatch.init [Inhabited σ] (L : Layout) (mem : Memory β μ) (words : Addr → ItemWord) :
    AsyncBatch σ β μ where
  pipe := .init L mem
  items := []
  phases := fun _ => .waiting
  words := words
  coord := .idle
  status := .ok
  tracker := []
  outcomes := []
  folds := []

/-! ## What a step can do -/

/-- The steps one by one, with what they require and the step of the pipeline that they take. -/
inductive BatchMoves [Inhabited σ] (nodes : Nat) (L : Layout)
    (s : AsyncBatch σ β μ) : BatchLabel σ β μ → AsyncBatch σ β μ → Prop
  | begin (inline : Bool) (items : List KthreadWorkItem) (status : NvStatus)
      (pc : s.coord = .idle) :
      BatchMoves nodes L s (.begin inline items status)
        { s with
          items := items
          phases := fun _ => .waiting
          coord := if items.isEmpty then .idle else if inline then .inline 0 else .waiting
          status := if inline then status else .ok
          tracker := []
          folds := [] }
  | take (i : Nat) (phase : s.phases i = .waiting) (hlt : i < s.items.length)
      (pc : s.coord = .waiting ∨ s.coord = .inline i) :
      BatchMoves nodes L s (.take i)
        { s with
          phases := update s.phases i .servicing
          words := update s.words i ⟨.ok, []⟩ }
  | submit (i : Nat) (item : KthreadWorkItem) (src : ServiceContext σ) (pipe : Pipeline σ β μ)
      (phase : s.phases i = .servicing) (hm : Moves nodes L s.pipe (.submit item i src) pipe) :
      BatchMoves nodes L s (.submit i src)
        { s with
          pipe := pipe
          phases := update s.phases i
            (if s.pipe.accepts then .unlocking (some s.pipe.submissions.length) .ok else .refused) }
  | finishOwn (i : Nat) (finish : NvStatus) (tracker : CallStatus) (phase : (s.phases i).isOwn = true) :
      BatchMoves nodes L s (.finishOwn i finish tracker)
        { s with
          words := update s.words i ((s.words i).addWork none tracker)
          phases := update s.phases i
            (.unlocking none (if finish = .ok then tracker.toStatus else finish)) }
  | unlock (i : Nat) (job : Option Nat) (status : NvStatus)
      (phase : s.phases i = .unlocking job status) :
      BatchMoves nodes L s (.unlock i)
        { s with phases := update s.phases i (.returning job status) }
  | store (i : Nat) (job : Option Nat) (status : NvStatus)
      (phase : s.phases i = .returning job status) :
      BatchMoves nodes L s (.store i)
        { s with
          words := update s.words i { s.words i with status := status }
          phases := update s.phases i (.done job) }
  | flush (pipe : Pipeline σ β μ)
      (pc : s.coord = .waiting ∧ s.allDone = true ∨ s.coord = .flushing)
      (hm : Moves nodes L s.pipe (.flush 0) pipe) :
      BatchMoves nodes L s .flush
        { s with
          pipe := pipe
          coord :=
            match pipe.flushers 0 with
            | .returned _ => .folding 0
            | _ => .flushing }
  | flushTimeout (pipe : Pipeline σ β μ) (pc : s.coord = .flushing)
      (hm : Moves nodes L s.pipe (.flushTimeout 0) pipe) :
      BatchMoves nodes L s .flushTimeout
        { s with pipe := pipe, coord := .folding 0, status := foldStatus s.status [.errTimeout] }
  | setEnable (on : Bool) (pipe : Pipeline σ β μ) (hm : Moves nodes L s.pipe (.setEnable on) pipe) :
      BatchMoves nodes L s (.setEnable on) { s with pipe := pipe }
  | foldDispatched (i : Nat) (job : Option Nat) (tracker : CallStatus) (pc : s.coord = .folding i)
      (phase : s.phases i = .done job) :
      BatchMoves nodes L s (.fold tracker) (s.fold i job tracker (s.next .folding i))
  | foldInline (i : Nat) (job : Option Nat) (tracker : CallStatus) (pc : s.coord = .inline i)
      (phase : s.phases i = .done job) :
      BatchMoves nodes L s (.fold tracker) (s.fold i job tracker (s.next .inline i))
  | consumer (pipe : Pipeline σ β μ) (hm : Moves nodes L s.pipe .consumer pipe) :
      BatchMoves nodes L s .consumer { s with pipe := pipe, words := s.storeWords }
  | call (out : Written σ β μ) (finish : NvStatus) (tracker : CallStatus) (block : VaBlock)
      (pipe : Pipeline σ β μ) (hblock : s.pipe.cd.vaBlock = some block)
      (hm : Moves nodes L s.pipe (.copyFinish out finish tracker) pipe) :
      BatchMoves nodes L s (.copyFinish out finish tracker)
        { s with
          pipe := pipe
          words := s.trackWords tracker
          outcomes := s.outcomes ++ [⟨s.pipe.cd.job, finish, tracker⟩] }
  | invalid (out : Written σ β μ) (finish : NvStatus) (tracker : CallStatus)
      (pipe : Pipeline σ β μ) (hblock : s.pipe.cd.vaBlock = none)
      (hm : Moves nodes L s.pipe (.copyFinish out finish tracker) pipe) :
      BatchMoves nodes L s (.copyFinish out finish tracker) { s with pipe := pipe }
  | writeBlock (a : Addr) (context : BlockContext β) (pipe : Pipeline σ β μ)
      (hm : Moves nodes L s.pipe (.writeBlock a context) pipe) :
      BatchMoves nodes L s (.writeBlock a context) { s with pipe := pipe }
  | writeMasks (a : Addr) (m : Nat → μ) (pipe : Pipeline σ β μ)
      (hm : Moves nodes L s.pipe (.writeMasks a m) pipe) :
      BatchMoves nodes L s (.writeMasks a m) { s with pipe := pipe }

variable [Inhabited σ] {nodes : Nat} {L : Layout} {s t : AsyncBatch σ β μ}

end FaultMesh.Async
