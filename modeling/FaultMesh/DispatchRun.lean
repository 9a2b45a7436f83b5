import FaultMesh.Pool
import FaultMesh.Lib.Stride

/-!
# Inside a dispatch

What holds from the moment the counters of a dispatch are set until its last item is finished, if
every worker in it claimed its number after they were set. The workers share the indices by
strides: the one with number `id` is at the frontier of the class of `id`.
-/

namespace FaultMesh

open Function WorkerPc

/-! ## Where a worker stands -/

/-- The worker has claimed a number and not yet tested it. -/
def WorkerPc.inWindow : WorkerPc → Bool
  | .readNumItems | .readNumActive | .readQueueBase => true
  | _ => false

def WorkerPc.inLoop : WorkerPc → Bool
  | .readGroup | .readGpu | .readSnapshot | .readBatchCtx | .service | .decRemaining
  | .complete => true
  | _ => false

/-- The worker has an item that it has not serviced yet. -/
def WorkerPc.atItem : WorkerPc → Bool
  | .readGroup | .readGpu | .readSnapshot | .readBatchCtx | .service => true
  | _ => false

/-- The worker holds a number of the dispatch. -/
def WorkerPc.busy (pc : WorkerPc) : Bool := pc.inWindow || pc.inLoop

/-- A worker between its claim and the test of its number; `k` numbers of a dispatch of `n` items
are good ones, and those below `counter` are claimed. -/
structure InWindow (n k counter : Nat) (f : Nat → Nat) (wk : Worker) : Prop where
  claimed : wk.myBatchId < counter
  numItems : wk.pc ≠ .readNumItems → wk.numItems = n
  numActive : wk.pc = .readQueueBase → wk.numActive = k
  fresh : wk.myBatchId < k → f wk.myBatchId = wk.myBatchId

/-- A worker in the loop is at the frontier of its class; at the completion it is one stride past
the item. -/
structure InLoop (n k counter : Nat) (f : Nat → Nat) (wk : Worker) : Prop where
  claimed : wk.myBatchId < counter
  lane : wk.myBatchId < k
  numItems : wk.numItems = n
  numActive : wk.numActive = k
  inRange : wk.idx < n
  frontier : f wk.myBatchId = if wk.pc = .complete then wk.idx + k else wk.idx

/-- The history of a dispatch: the serviced indices are the finished ones and those in flight, and
no index was serviced twice. -/
structure Recorded (d : Dispatch) (inFlight : Nat → Prop) : Prop where
  serviced_iff : ∀ idx, idx ∈ d.serviced.map Service.idx ↔ idx ∈ d.finished ∨ inFlight idx
  nodup : (d.serviced.map Service.idx).Nodup

def InFlight (workers : Nat → Worker) (idx : Nat) : Prop :=
  ∃ w, (workers w).pc = .decRemaining ∧ (workers w).idx = idx

def DistinctIds (workers : Nat → Worker) : Prop :=
  ∀ w w', (workers w).pc.busy → (workers w').pc.busy →
    (workers w).myBatchId = (workers w').myBatchId → w = w'

/-- At most one worker is about to signal the completion, and only if `P` holds. -/
def OneCompletes (workers : Nat → Worker) (P : Prop) : Prop :=
  ∀ w, (workers w).pc = .complete → P ∧ ∀ w', (workers w').pc = .complete → w' = w

/-- The invariant of a running dispatch; `f` gives the frontiers of the classes. -/
structure RunInv (p : Pool) (workers : Nat → Worker) (d : Dispatch) (f : Nat → Nat) : Prop where
  numGroups : p.batchNumGroups = d.items
  numActive_le : p.batchNumActive ≤ d.items
  progress : StrideProgress d.items p.batchNumActive f d.finished
  window : ∀ w, (workers w).pc.inWindow →
    InWindow d.items p.batchNumActive p.batchWorkerCounter f (workers w)
  loop : ∀ w, (workers w).pc.inLoop →
    InLoop d.items p.batchNumActive p.batchWorkerCounter f (workers w)
  distinct : DistinctIds workers
  unclaimed : ∀ id < p.batchNumActive, p.batchWorkerCounter ≤ id → f id = id
  remaining : p.itemsRemaining = d.items - d.finished.length
  recorded : Recorded d (InFlight workers)
  done_le : p.allDone ≤ 1
  done : 0 < p.allDone → d.finished.length = d.items
  completing : OneCompletes workers (d.finished.length = d.items ∧ p.allDone = 0)

/-! ## Small facts -/

variable {pc : WorkerPc}

theorem WorkerPc.busy_of_inWindow (h : pc.inWindow) : pc.busy := by
  simp [busy, h]

theorem WorkerPc.busy_of_inLoop (h : pc.inLoop) : pc.busy := by
  simp [busy, h]

theorem WorkerPc.busy_cases (h : pc.busy) : pc.inWindow ∨ pc.inLoop := by
  simpa [busy] using h

theorem WorkerPc.atItem_spec (h : pc.atItem) :
    pc.inLoop ∧ pc.inWindow = false ∧ pc ≠ .decRemaining ∧ pc ≠ .complete := by
  cases pc <;> cases h <;> exact ⟨rfl, rfl, nofun, nofun⟩

variable {wk : Worker}

section

variable {n k counter counter' : Nat} {f f' : Nat → Nat}

theorem InWindow.mono (h : InWindow n k counter f wk) (hc : counter ≤ counter')
    (hf : f' wk.myBatchId = f wk.myBatchId) : InWindow n k counter' f' wk :=
  ⟨Nat.lt_of_lt_of_le h.claimed hc, h.numItems, h.numActive, hf ▸ h.fresh⟩

theorem InLoop.mono (h : InLoop n k counter f wk) (hc : counter ≤ counter')
    (hf : f' wk.myBatchId = f wk.myBatchId) : InLoop n k counter' f' wk :=
  ⟨Nat.lt_of_lt_of_le h.claimed hc, h.lane, h.numItems, h.numActive, h.inRange, hf ▸ h.frontier⟩

theorem InLoop.frontier_eq (h : InLoop n k counter f wk) (hpc : wk.pc ≠ .complete) :
    f wk.myBatchId = wk.idx := by
  rw [h.frontier, if_neg hpc]

theorem InLoop.loopFrom {idx : Nat} (hclaimed : wk.myBatchId < counter) (hlane : wk.myBatchId < k)
    (hitems : wk.numItems = n) (hactive : wk.numActive = k) (hf : f wk.myBatchId = idx)
    (hin : (wk.loopFrom idx).pc.inLoop) : InLoop n k counter f (wk.loopFrom idx) := by
  have hlt : idx < wk.numItems := by
    by_contra hge
    simp [Worker.loopFrom, hge, inLoop] at hin
  have hpc : (wk.loopFrom idx).pc = .readGroup := by simp [Worker.loopFrom, hlt]
  refine ⟨hclaimed, hlane, hitems, hactive, hitems ▸ hlt, ?_⟩
  rw [hpc, if_neg (by decide)]
  exact hf

end

@[simp] theorem loopFrom_not_inWindow (wk : Worker) (idx : Nat) :
    (wk.loopFrom idx).pc.inWindow = false := by
  unfold Worker.loopFrom
  split <;> rfl

/-! ## Steps of a worker -/

variable {cfg : PoolConfig} {w : Nat}

theorem workerStep_eq_some {s t : PoolState} :
    workerStep cfg s w = some t ↔
      ∃ p wk, workerAccess cfg s.pool (s.workers w) = some (p, wk) ∧
        t = { s with
          pool := p
          workers := update s.workers w wk
          current := s.current.record s.pool w (s.workers w) } := by
  simp [workerStep, eq_comm]

theorem workerAccess_free {p p' : Pool} {wk' : Worker} (hbusy : wk.pc.busy = false)
    (hclaim : wk.pc ≠ .claim) (h : workerAccess cfg p wk = some (p', wk')) :
    p' = p ∧ wk'.pc.busy = false := by
  cases hpc : wk.pc <;>
    simp only [hpc, busy, inWindow, inLoop, Bool.or_false, Bool.or_true,
      Bool.true_eq_false, reduceCtorEq, ne_eq, not_true_eq_false] at hbusy hclaim <;>
    simp only [workerAccess, hpc, Option.some.injEq, Prod.mk.injEq, reduceCtorEq] at h
  all_goals
    obtain ⟨rfl, rfl⟩ := h
    refine ⟨rfl, ?_⟩
    dsimp only
    try split
  all_goals rfl

theorem workerAccess_batchFields {p p' : Pool} {wk' : Worker}
    (h : workerAccess cfg p wk = some (p', wk')) : p'.toBatchFields = p.toBatchFields := by
  unfold workerAccess at h
  split at h
  all_goals
    try dsimp only at h
    try split at h
  all_goals cases h <;> rfl

theorem record_toSegment (d : Dispatch) (p : Pool) (w : Nat) (wk : Worker) :
    (d.record p w wk).toSegment = d.toSegment := by
  unfold Dispatch.record
  split <;> rfl

theorem record_eq_self {d : Dispatch} {p : Pool} (h₁ : wk.pc ≠ .service)
    (h₂ : wk.pc ≠ .decRemaining) : d.record p w wk = d := by
  unfold Dispatch.record
  split
  · exact absurd ‹_› h₁
  · exact absurd ‹_› h₂
  · rfl

theorem loopFrom_ne (wk : Worker) (idx : Nat) (h₁ : pc ≠ .readGroup) (h₂ : pc ≠ .segmentDone) :
    (wk.loopFrom idx).pc ≠ pc := by
  unfold Worker.loopFrom
  split
  · exact h₁.symm
  · exact h₂.symm

protected theorem DistinctIds.update {workers : Nat → Worker} (h : DistinctIds workers)
    (hnew : wk.pc.busy → ∀ w' ≠ w, (workers w').pc.busy → (workers w').myBatchId ≠ wk.myBatchId) :
    DistinctIds (update workers w wk) := by
  intro w₁ w₂ h₁ h₂ heq
  by_cases hw₁ : w₁ = w <;> by_cases hw₂ : w₂ = w
  · rw [hw₁, hw₂]
  · rw [hw₁, update_self] at h₁ heq
    rw [update_of_ne hw₂] at h₂ heq
    exact absurd heq.symm (hnew h₁ w₂ hw₂ h₂)
  · rw [hw₂, update_self] at h₂ heq
    rw [update_of_ne hw₁] at h₁ heq
    exact absurd heq (hnew h₂ w₁ hw₁ h₁)
  · rw [update_of_ne hw₁] at h₁ heq
    rw [update_of_ne hw₂] at h₂ heq
    exact h w₁ w₂ h₁ h₂ heq

theorem DistinctIds.keep {workers : Nat → Worker} (h : DistinctIds workers)
    (hid : wk.pc.busy → (workers w).pc.busy ∧ wk.myBatchId = (workers w).myBatchId) :
    DistinctIds (update workers w wk) := by
  apply h.update
  intro hb w' hne hb' heq
  exact hne (h w' w hb' (hid hb).1 (heq.trans (hid hb).2))

protected theorem OneCompletes.update {workers : Nat → Worker} {P : Prop} (h : OneCompletes workers P)
    (hne : wk.pc ≠ .complete) : OneCompletes (update workers w wk) P := by
  have hold : ∀ w', (update workers w wk w').pc = .complete →
      (workers w').pc = .complete :=
    (forall_update_iff workers fun w' wk' =>
      wk'.pc = .complete → (workers w').pc = .complete).2
      ⟨fun hpc => absurd hpc hne, fun _ _ hpc => hpc⟩
  intro w' hw'
  obtain ⟨hP, honly⟩ := h w' (hold w' hw')
  exact ⟨hP, fun w'' hw'' => honly w'' (hold w'' hw'')⟩

theorem forall_update_of {workers : Nat → Worker} {part : WorkerPc → Bool} {Q : Worker → Prop}
    (hself : part wk.pc → Q wk) (hother : ∀ w' ≠ w, part (workers w').pc → Q (workers w')) :
    ∀ w', part (update workers w wk w').pc → Q (update workers w wk w') :=
  (forall_update_iff workers fun _ wk' => part wk'.pc → Q wk').2 ⟨hself, hother⟩

theorem inFlight_update {workers : Nat → Worker} (hfrom : (workers w).pc ≠ .decRemaining)
    (hto : wk.pc ≠ .decRemaining) (idx : Nat) :
    InFlight (update workers w wk) idx ↔ InFlight workers idx := by
  unfold InFlight
  rw [exists_update_iff workers fun _ wk' => wk'.pc = .decRemaining ∧ wk'.idx = idx]
  constructor
  · rintro (⟨hpc, -⟩ | ⟨w', -, hw'⟩)
    · exact absurd hpc hto
    · exact ⟨w', hw'⟩
  · rintro ⟨w', hw'⟩
    exact .inr ⟨w', fun heq => hfrom (heq ▸ hw'.1), hw'⟩

namespace RunInv

variable {p : Pool} {workers : Nat → Worker} {d : Dispatch} {f : Nat → Nat}

section

variable (h : RunInv p workers d f)
include h

section

variable (hw : (workers w).pc.inLoop)
include hw

theorem idx_mod : (workers w).idx % p.batchNumActive = (workers w).myBatchId := by
  have hl := h.loop w hw
  have hres := h.progress.residue _ hl.lane
  rw [hl.frontier] at hres
  split at hres
  · rwa [Nat.add_mod_right] at hres
  · exact hres

theorem idx_inj {w' : Nat} (hw' : (workers w').pc.inLoop) (heq : (workers w).idx = (workers w').idx)
    : w = w' := by
  apply h.distinct w w' (busy_of_inLoop hw) (busy_of_inLoop hw')
  rw [← h.idx_mod hw, ← h.idx_mod hw', heq]

theorem idx_not_finished (hpc : (workers w).pc ≠ .complete) : (workers w).idx ∉ d.finished := by
  have hl := h.loop w hw
  rw [← hl.frontier_eq hpc]
  exact h.progress.frontier_not_mem hl.lane

theorem length_lt (hpc : (workers w).pc ≠ .complete) : d.finished.length < d.items := by
  have hl := h.loop w hw
  apply h.progress.length_lt hl.lane
  rw [hl.frontier_eq hpc]
  exact hl.inRange

end

theorem not_completing (hlt : d.finished.length < d.items) (w : Nat) :
    (workers w).pc ≠ .complete := fun hpc => Nat.ne_of_lt hlt (h.completing w hpc).1.1

theorem allDone_eq_zero (hlt : d.finished.length < d.items) : p.allDone = 0 := by
  by_contra hne
  exact Nat.ne_of_lt hlt (h.done (Nat.pos_of_ne_zero hne))

/-- A worker moves on inside its window or its loop, or gives its number back. The queue
does not matter. -/
theorem move (w : Nat) (wk : Worker) (queue : Nat → WorkItem)
    (hid : wk.pc.busy → (workers w).pc.busy ∧ wk.myBatchId = (workers w).myBatchId)
    (hfrom : (workers w).pc ≠ .decRemaining) (hto : wk.pc ≠ .decRemaining)
    (hcomplete : wk.pc ≠ .complete)
    (hwindow : wk.pc.inWindow → InWindow d.items p.batchNumActive p.batchWorkerCounter f wk)
    (hloop : wk.pc.inLoop → InLoop d.items p.batchNumActive p.batchWorkerCounter f wk) :
    RunInv { p with queue := queue } (update workers w wk) d f := by
  refine ⟨h.numGroups, h.numActive_le, h.progress, forall_update_of hwindow fun w' _ => h.window w',
    forall_update_of hloop fun w' _ => h.loop w', h.distinct.keep hid, h.unclaimed, h.remaining,
    ⟨fun idx => ?_, h.recorded.nodup⟩, h.done_le, h.done, h.completing.update hcomplete⟩
  rw [inFlight_update hfrom hto]
  exact h.recorded.serviced_iff idx

/-- A worker that holds no number afterwards leaves the dispatch as it is. -/
theorem release (w : Nat) (wk : Worker) (hfrom : (workers w).pc ≠ .decRemaining)
    (hfree : wk.pc.busy = false) : RunInv p (update workers w wk) d f := by
  have hnot : ¬ wk.pc.busy := by simp [hfree]
  refine h.move w wk p.queue (fun hb => absurd hb hnot) hfrom ?_ ?_ ?_ ?_
  · exact fun hpc => hnot (by rw [hpc]; rfl)
  · exact fun hpc => hnot (by rw [hpc]; rfl)
  · exact fun hw => absurd (busy_of_inWindow hw) hnot
  · exact fun hw => absurd (busy_of_inLoop hw) hnot

theorem fill (w : Nat) (pc : WorkerPc) (item : WorkItem) (hfrom : (workers w).pc.atItem)
    (hto : pc.atItem) :
    RunInv (p.setItem (workers w).slot item) (update workers w { workers w with pc := pc }) d f := by
  obtain ⟨hin, -, hdec, hcomplete⟩ := atItem_spec hfrom
  obtain ⟨-, hwindow, hdec', hcomplete'⟩ := atItem_spec hto
  have hl := h.loop w hin
  refine h.move w _ _ (fun _ => ⟨busy_of_inLoop hin, rfl⟩) hdec hdec' hcomplete' ?_ ?_
  · intro hwin
    exact absurd hwin (by simp [hwindow])
  · intro _
    refine ⟨hl.claimed, hl.lane, hl.numItems, hl.numActive, hl.inRange, ?_⟩
    rw [if_neg hcomplete']
    exact hl.frontier_eq hcomplete

/-- A worker claims a number of the dispatch. -/
theorem claim (w : Nat) (hpc : (workers w).pc = .claim) :
    RunInv { p with batchWorkerCounter := p.batchWorkerCounter + 1 }
      (update workers w
        { workers w with myBatchId := p.batchWorkerCounter, pc := .readNumItems }) d f := by
  refine ⟨h.numGroups, h.numActive_le, h.progress, ?_, ?_, ?_, ?_, h.remaining, ?_,
    h.done_le, h.done, h.completing.update (by simp)⟩
  · refine forall_update_of (fun _ => ⟨Nat.lt_succ_self _, fun hne => absurd rfl hne, nofun, ?_⟩)
      fun w' _ hw' => (h.window w' hw').mono (Nat.le_succ _) rfl
    -- nobody had this number, so its class is untouched
    exact fun hlt => h.unclaimed _ hlt (Nat.le_refl _)
  · exact forall_update_of nofun fun w' _ hw' => (h.loop w' hw').mono (Nat.le_succ _) rfl
  · apply h.distinct.update
    intro _ w' _ hb
    -- numbers handed out so far are below the counter
    apply Nat.ne_of_lt
    rcases busy_cases hb with hw' | hw'
    · exact (h.window w' hw').claimed
    · exact (h.loop w' hw').claimed
  · exact fun id hid hle => h.unclaimed id hid (Nat.le_of_succ_le hle)
  · refine ⟨fun idx => ?_, h.recorded.nodup⟩
    rw [inFlight_update (by simp [hpc]) (by simp)]
    exact h.recorded.serviced_iff idx

theorem service (w : Nat) (hpc : (workers w).pc = .service) :
    RunInv p (update workers w { workers w with pc := .decRemaining })
      (d.record p w (workers w)) f := by
  have hin : (workers w).pc.inLoop := by rw [hpc]; rfl
  have hl := h.loop w hin
  have hflight : ∀ idx, InFlight (update workers w
      { workers w with pc := .decRemaining }) idx ↔ (workers w).idx = idx ∨ InFlight workers idx := by
    intro idx
    unfold InFlight
    rw [exists_update_iff workers fun _ wk' => wk'.pc = .decRemaining ∧ wk'.idx = idx]
    refine or_congr (and_iff_right rfl) (exists_congr fun w' => and_iff_right_of_imp ?_)
    rintro ⟨hdec, -⟩ rfl
    rw [hpc] at hdec
    cases hdec
  -- nobody else can have serviced this index
  have hfresh : (workers w).idx ∉ d.serviced.map Service.idx := by
    rw [h.recorded.serviced_iff]
    rintro (hfin | ⟨w', hdec, hidx⟩)
    · exact h.idx_not_finished hin (by simp [hpc]) hfin
    · have hww : w' = w := h.idx_inj (by rw [hdec]; rfl) hin hidx
      rw [hww, hpc] at hdec
      cases hdec
  have hrec : d.record p w (workers w) =
      { d with serviced :=
          ⟨(workers w).idx, w, (workers w).slot, p.queue (workers w).slot⟩ :: d.serviced } := by
    rw [Dispatch.record, hpc]
  rw [hrec]
  refine ⟨h.numGroups, h.numActive_le, h.progress, ?_, ?_, ?_, h.unclaimed, h.remaining, ?_,
    h.done_le, h.done, h.completing.update (by simp)⟩
  · exact forall_update_of nofun fun w' _ => h.window w'
  · refine forall_update_of (fun _ => ⟨hl.claimed, hl.lane, hl.numItems, hl.numActive, hl.inRange,
      ?_⟩) fun w' _ => h.loop w'
    exact hl.frontier_eq (by simp [hpc])
  · exact h.distinct.keep fun _ => ⟨busy_of_inLoop hin, rfl⟩
  · refine ⟨fun idx => ?_, List.nodup_cons.2 ⟨hfresh, h.recorded.nodup⟩⟩
    rw [hflight, List.map_cons, List.mem_cons, h.recorded.serviced_iff, or_left_comm,
      eq_comm (a := idx)]

/-- A worker counts its item as finished and goes on, to the completion if it was the
last one. -/
theorem decrement (w : Nat) (hpc : (workers w).pc = .decRemaining)
    (wk : Worker)
    (hwk : wk = if p.itemsRemaining - 1 = 0 then { workers w with pc := .complete }
      else (workers w).loopFrom ((workers w).idx + (workers w).numActive)) :
    RunInv { p with itemsRemaining := p.itemsRemaining - 1 } (update workers w wk)
      { d with finished := (workers w).idx :: d.finished }
      (update f (workers w).myBatchId ((workers w).idx + p.batchNumActive)) := by
  have hin : (workers w).pc.inLoop := by rw [hpc]; rfl
  have hne : (workers w).pc ≠ .complete := by simp [hpc]
  have hl := h.loop w hin
  have hfr : f (workers w).myBatchId = (workers w).idx := hl.frontier_eq hne
  have hlt : d.finished.length < d.items := h.length_lt hin hne
  have hrem := h.remaining
  have hlast : p.itemsRemaining - 1 = 0 ↔ d.finished.length + 1 = d.items := by omega
  -- the new position: same number, in the loop with its frontier one stride on
  have hto : wk.pc ≠ .decRemaining := by
    rw [hwk]
    split
    · simp
    · exact loopFrom_ne _ _ (by decide) (by decide)
  have hid : wk.myBatchId = (workers w).myBatchId := by
    rw [hwk]
    split <;> rfl
  have hcompl : wk.pc = .complete → d.finished.length + 1 = d.items := by
    rw [hwk]
    split
    · rename_i hz
      exact fun _ => hlast.1 hz
    · exact fun hc => absurd hc (loopFrom_ne _ _ (by decide) (by decide))
  -- classes of other workers do not move
  have hother : ∀ w', w' ≠ w → (workers w').pc.busy →
      update f (workers w).myBatchId ((workers w).idx + p.batchNumActive)
        (workers w').myBatchId = f (workers w').myBatchId := by
    intro w' hw' hb
    apply update_of_ne
    exact fun heq => hw' (h.distinct w' w hb (busy_of_inLoop hin) heq)
  refine ⟨h.numGroups, h.numActive_le, ?_, ?_, ?_, ?_, ?_, ?_, ?_, h.done_le, ?_, ?_⟩
  · have hfin := h.progress.finish hl.lane (hfr ▸ hl.inRange)
    rwa [hfr] at hfin
  · refine forall_update_of (fun hw => ?_) fun w' hw' hwin => (h.window w' hwin).mono
      (Nat.le_refl _) (hother w' hw' (busy_of_inWindow hwin))
    rw [hwk] at hw
    split at hw
    · cases hw
    · simp at hw
  · refine forall_update_of (fun hw => ?_) fun w' hw' hloop => (h.loop w' hloop).mono
      (Nat.le_refl _) (hother w' hw' (busy_of_inLoop hloop))
    rw [hwk] at hw ⊢
    split
    · exact ⟨hl.claimed, hl.lane, hl.numItems, hl.numActive, hl.inRange, update_self ..⟩
    · rename_i hz
      rw [if_neg hz] at hw
      refine InLoop.loopFrom hl.claimed hl.lane hl.numItems hl.numActive ?_ hw
      rw [hl.numActive]
      exact update_self ..
  · exact h.distinct.keep fun _ => ⟨busy_of_inLoop hin, hid⟩
  · intro id hlane hle
    -- the number of this worker is below the counter
    have hne' : id ≠ (workers w).myBatchId := by
      rintro rfl
      exact Nat.not_le.2 hl.claimed hle
    rw [update_of_ne hne']
    exact h.unclaimed id hlane hle
  · simp only [List.length_cons]
    omega
  · refine ⟨fun idx => ?_, h.recorded.nodup⟩
    rw [h.recorded.serviced_iff, List.mem_cons]
    unfold InFlight
    rw [exists_update_iff workers fun _ wk' => wk'.pc = .decRemaining ∧ wk'.idx = idx]
    constructor
    · rintro (hfin | ⟨w', hdec, rfl⟩)
      · exact .inl (.inr hfin)
      · by_cases hw' : w' = w
        · exact .inl (.inl (by rw [hw']))
        · exact .inr (.inr ⟨w', hw', hdec, rfl⟩)
    · rintro ((rfl | hfin) | (⟨hdec, -⟩ | ⟨w', -, hdec⟩))
      · exact .inr ⟨w, hpc, rfl⟩
      · exact .inl hfin
      · exact absurd hdec hto
      · exact .inr ⟨w', hdec⟩
  · intro hpos
    exact absurd (h.allDone_eq_zero hlt) (Nat.pos_iff_ne_zero.1 hpos)
  -- only this worker can be at the completion
  · have honly : ∀ w', (update workers w wk w').pc = .complete → w' = w := by
      intro w' hw'
      by_contra hww
      rw [update_of_ne hww] at hw'
      exact h.not_completing hlt w' hw'
    intro w' hw'
    have hww := honly w' hw'
    rw [hww, update_self] at hw'
    exact ⟨⟨hcompl hw', h.allDone_eq_zero hlt⟩, fun w'' hw'' => (honly w'' hw'').trans hww.symm⟩

/-- A worker signals the completion and goes on. -/
theorem signal (w : Nat) (hpc : (workers w).pc = .complete) :
    RunInv { p with allDone := p.allDone + 1 }
      (update workers w
        ((workers w).loopFrom ((workers w).idx + (workers w).numActive))) d f := by
  have hin : (workers w).pc.inLoop := by rw [hpc]; rfl
  have hl := h.loop w hin
  obtain ⟨⟨hlen, hzero⟩, honly⟩ := h.completing w hpc
  refine ⟨h.numGroups, h.numActive_le, h.progress, ?_, ?_, ?_, h.unclaimed, h.remaining, ?_,
    ?_, fun _ => hlen, ?_⟩
  · exact forall_update_of (fun hw => by simp at hw) fun w' _ => h.window w'
  · refine forall_update_of (InLoop.loopFrom hl.claimed hl.lane hl.numItems hl.numActive ?_)
      fun w' _ => h.loop w'
    rw [hl.frontier, if_pos hpc, hl.numActive]
  · exact h.distinct.keep fun _ => ⟨busy_of_inLoop hin, rfl⟩
  · refine ⟨fun idx => ?_, h.recorded.nodup⟩
    rw [inFlight_update (by simp [hpc]) (loopFrom_ne _ _ (by decide) (by decide))]
    exact h.recorded.serviced_iff idx
  · simp [hzero]
  -- nobody is left at the completion
  · intro w' hw'
    by_cases hww : w' = w
    · rw [hww, update_self] at hw'
      exact absurd hw' (loopFrom_ne _ _ (by decide) (by decide))
    · rw [update_of_ne hww] at hw'
      exact absurd (honly w' hw') hww

end

/-- Whatever a worker does next, the dispatch goes on. -/
theorem workerStep {s t : PoolState} (h : RunInv s.pool s.workers s.current f)
    (hstep : workerStep cfg s w = some t) : ∃ f', RunInv t.pool t.workers t.current f' := by
  obtain ⟨p', wk, hacc, rfl⟩ := workerStep_eq_some.1 hstep
  cases hpc : (s.workers w).pc
  case service =>
    rw [workerAccess, hpc] at hacc
    cases hacc
    exact ⟨f, h.service w hpc⟩
  case decRemaining =>
    rw [workerAccess, hpc] at hacc
    rw [Dispatch.record, hpc]
    dsimp only at hacc
    split at hacc
    · rename_i hz
      cases hacc
      exact ⟨_, h.decrement w hpc _ (if_pos hz).symm⟩
    · rename_i hz
      cases hacc
      exact ⟨_, h.decrement w hpc _ (if_neg hz).symm⟩
  -- elsewhere the history stays as it is
  all_goals rw [record_eq_self (by simp [hpc]) (by simp [hpc])]
  case claim =>
    rw [workerAccess, hpc] at hacc
    cases hacc
    exact ⟨f, h.claim w hpc⟩
  case readNumItems =>
    rw [workerAccess, hpc] at hacc
    cases hacc
    have hw := h.window w (by rw [hpc]; rfl)
    refine ⟨f, h.move w _ s.pool.queue (fun _ => ⟨by rw [hpc]; rfl, rfl⟩) (by simp [hpc])
      (by simp) (by simp) (fun _ => ?_) nofun⟩
    exact ⟨hw.claimed, fun _ => h.numGroups, nofun, hw.fresh⟩
  case readNumActive =>
    rw [workerAccess, hpc] at hacc
    cases hacc
    have hw := h.window w (by rw [hpc]; rfl)
    refine ⟨f, h.move w _ s.pool.queue (fun _ => ⟨by rw [hpc]; rfl, rfl⟩) (by simp [hpc])
      (by simp) (by simp) (fun _ => ?_) nofun⟩
    exact ⟨hw.claimed, fun _ => hw.numItems (by simp [hpc]), fun _ => rfl, hw.fresh⟩
  case readQueueBase =>
    rw [workerAccess, hpc] at hacc
    have hw := h.window w (by rw [hpc]; rfl)
    dsimp only at hacc
    split at hacc
    · cases hacc
      exact ⟨f, h.release w _ (by simp [hpc]) rfl⟩
    -- the number is one of the dispatch: the worker enters at its own class
    · rename_i hactive
      cases hacc
      have hlane : (s.workers w).myBatchId < s.pool.batchNumActive := by
        rw [← hw.numActive hpc]
        exact Nat.lt_of_not_le fun hle => hactive (.inl hle)
      refine ⟨f, h.move w _ s.pool.queue (fun _ => ⟨by rw [hpc]; rfl, rfl⟩) (by simp [hpc])
        (loopFrom_ne _ _ (by decide) (by decide)) (loopFrom_ne _ _ (by decide) (by decide))
        (fun hwin => by simp at hwin) ?_⟩
      apply InLoop.loopFrom
      · exact hw.claimed
      · exact hlane
      · exact hw.numItems (by simp [hpc])
      · exact hw.numActive hpc
      · exact hw.fresh hlane
  case readGroup | readGpu | readSnapshot | readBatchCtx =>
    rw [workerAccess, hpc] at hacc
    cases hacc
    exact ⟨f, h.fill w _ _ (by rw [hpc]; rfl) rfl⟩
  case complete =>
    rw [workerAccess, hpc] at hacc
    cases hacc
    exact ⟨f, h.signal w hpc⟩
  -- the remaining places hold no number
  all_goals
    obtain ⟨rfl, hfree⟩ := workerAccess_free (by rw [hpc]; rfl) (by simp [hpc]) hacc
    exact ⟨f, h.release w wk (by simp [hpc]) hfree⟩

/-- **A completion means that all items are finished.** -/
theorem all_finished (h : RunInv p workers d f) (hdone : 0 < p.allDone) :
    ∀ idx < d.items, idx ∈ d.finished :=
  fun _ hidx => h.progress.mem_of_length_eq (h.done hdone) hidx

end RunInv

/-! ## Steps of a coordinator -/

/-- The workers that hold a number are the same and as they were. -/
def SameHolders (workers workers' : Nat → Worker) : Prop :=
  ∀ w, workers' w = workers w ∨ (workers w).pc.busy = false ∧ (workers' w).pc.busy = false

namespace SameHolders

variable {workers workers' : Nat → Worker}

section

variable (h : SameHolders workers workers')
include h

theorem forall_of {P : Worker → Prop} (hfree : ∀ wk, wk.pc.busy = false → P wk)
    (hall : ∀ w, P (workers w)) (w : Nat) : P (workers' w) := by
  rcases h w with heq | ⟨-, hb⟩
  · rw [heq]
    exact hall w
  · exact hfree _ hb

theorem eq_of_busy (hb : (workers' w).pc.busy) : workers' w = workers w := by
  rcases h w with heq | ⟨-, hb'⟩
  · exact heq
  · rw [hb'] at hb
    cases hb

theorem eq_of_busy_left (hb : (workers w).pc.busy) : workers' w = workers w := by
  rcases h w with heq | ⟨hb', -⟩
  · exact heq
  · rw [hb'] at hb
    cases hb

theorem inFlight_iff (idx : Nat) : InFlight workers' idx ↔ InFlight workers idx := by
  constructor
  · rintro ⟨w, hpc, hidx⟩
    have heq := h.eq_of_busy (by rw [hpc]; rfl)
    exact ⟨w, heq ▸ hpc, heq ▸ hidx⟩
  · rintro ⟨w, hpc, hidx⟩
    have heq := h.eq_of_busy_left (by rw [hpc]; rfl)
    exact ⟨w, by rw [heq]; exact hpc, by rw [heq]; exact hidx⟩

end

end SameHolders

theorem wakeWorkers_sameHolders {workers : Nat → Worker} {count : Nat} {woken : List Nat}
    (h : wakeChoice cfg workers count woken) : SameHolders workers (wakeWorkers workers woken) := by
  intro w
  by_cases hw : w ∈ woken
  · right
    simp only [wakeChoice, Bool.and_eq_true, List.all_eq_true, Bool.or_eq_true,
      decide_eq_true_eq] at h
    refine ⟨?_, ?_⟩
    · rcases (h.1.2 w hw).2 with hpc | hpc <;> rw [hpc] <;> rfl
    · rw [wakeWorkers, if_pos hw]
      rfl
  · left
    rw [wakeWorkers, if_neg hw]

namespace RunInv

variable {p p' : Pool} {workers workers' : Nat → Worker} {d : Dispatch} {f : Nat → Nat}

theorem frame (h : RunInv p workers d f) (hb : p'.toBatchFields = p.toBatchFields)
    (hcounter : p'.batchWorkerCounter = p.batchWorkerCounter)
    (hrem : p'.itemsRemaining = p.itemsRemaining) (hdone : p'.allDone = p.allDone)
    (hw : SameHolders workers workers') : RunInv p' workers' d f where
  numGroups := hb ▸ h.numGroups
  numActive_le := hb ▸ h.numActive_le
  progress := by
    rw [hb]
    exact h.progress
  window := by
    intro w hwin
    have heq := hw.eq_of_busy (busy_of_inWindow hwin)
    rw [heq] at hwin ⊢
    rw [hb, hcounter]
    exact h.window w hwin
  loop := by
    intro w hloop
    have heq := hw.eq_of_busy (busy_of_inLoop hloop)
    rw [heq] at hloop ⊢
    rw [hb, hcounter]
    exact h.loop w hloop
  distinct := by
    intro w₁ w₂ h₁ h₂
    have heq₁ := hw.eq_of_busy h₁
    have heq₂ := hw.eq_of_busy h₂
    rw [heq₁] at h₁ ⊢
    rw [heq₂] at h₂ ⊢
    exact h.distinct w₁ w₂ h₁ h₂
  unclaimed := by
    rw [hb, hcounter]
    exact h.unclaimed
  remaining := hrem.trans h.remaining
  recorded := by
    refine ⟨fun idx => ?_, h.recorded.nodup⟩
    rw [hw.inFlight_iff]
    exact h.recorded.serviced_iff idx
  done_le := hdone ▸ h.done_le
  done := by
    rw [hdone]
    exact h.done
  completing := by
    rw [hdone]
    intro w hpc
    have hold : ∀ w', (workers' w').pc = .complete → (workers w').pc = .complete :=
      fun w' hpc' => hw.eq_of_busy (w := w') (by rw [hpc']; rfl) ▸ hpc'
    obtain ⟨hP, honly⟩ := h.completing w (hold w hpc)
    exact ⟨hP, fun w' hpc' => honly w' (hold w' hpc')⟩

/-- **Start**: with nobody holding a number and the fields written, a dispatch begins. -/
theorem start {g : Segment} (hgroups : p.batchNumGroups = g.items)
    (hactive : p.batchNumActive ≤ g.items) (hfree : ∀ w, (workers w).pc.busy = false)
    (hrem : p.itemsRemaining = g.items) (hdone : p.allDone = 0) :
    RunInv p workers ⟨g, [], []⟩ id := by
  have hnot : ∀ w, ¬ (workers w).pc.busy := fun w => by simp [hfree w]
  refine ⟨hgroups, hactive, .init _ _, ?_, ?_, ?_, fun _ _ _ => rfl, by simpa using hrem, ?_,
    by simp [hdone], by simp [hdone], ?_⟩
  · exact fun w hw => absurd (busy_of_inWindow hw) (hnot w)
  · exact fun w hw => absurd (busy_of_inLoop hw) (hnot w)
  · exact fun w _ hb => absurd hb (hnot w)
  · refine ⟨fun idx => ?_, List.nodup_nil⟩
    -- nothing is serviced, finished or in flight
    simp only [List.map_nil, List.not_mem_nil, false_or, false_iff]
    rintro ⟨w, hpc, -⟩
    exact hnot w (by rw [hpc]; rfl)
  · exact fun w hpc => absurd (by rw [hpc]; rfl) (hnot w)

section

variable (h : RunInv p workers d f) (hdone : 0 < p.allDone)
include h hdone

theorem not_inLoop (w : Nat) : (workers w).pc.inLoop = false := by
  by_contra hin
  have hin : (workers w).pc.inLoop := by simpa using hin
  by_cases hpc : (workers w).pc = .complete
  · exact Nat.ne_of_gt hdone (h.completing w hpc).1.2
  · exact Nat.ne_of_lt (h.length_lt hin hpc) (h.done hdone)

theorem items_le_frontier {id : Nat} (hid : id < p.batchNumActive) : d.items ≤ f id :=
  h.progress.le_frontier_of_length_eq (h.done hdone) hid

theorem numActive_le_counter : p.batchNumActive ≤ p.batchWorkerCounter := by
  by_contra hlt
  have hlt := Nat.lt_of_not_le hlt
  -- a class that nobody took would still be at its first index
  have hfront := h.items_le_frontier hdone hlt
  rw [h.unclaimed _ hlt (Nat.le_refl _)] at hfront
  exact absurd (Nat.lt_of_lt_of_le hlt h.numActive_le) (Nat.not_lt.2 hfront)

theorem numActive_le_id (hw : (workers w).pc.inWindow) :
    p.batchNumActive ≤ (workers w).myBatchId := by
  by_contra hlt
  have hlt := Nat.lt_of_not_le hlt
  have hfront := h.items_le_frontier hdone hlt
  rw [(h.window w hw).fresh hlt] at hfront
  exact absurd (Nat.lt_of_lt_of_le hlt h.numActive_le) (Nat.not_lt.2 hfront)

end

end RunInv

end FaultMesh
