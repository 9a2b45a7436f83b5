import FaultMesh.DispatchSetup
import FaultMesh.Lib.Census

/-!
# Who comes to a dispatch

Between two dispatches a worker sleeps on the wait queue, spins on the generation of a continuous
batch, or spins on the generation of persistent workers. Which of them come to a dispatch depends
on a few fields of the pool only. A worker that comes claims one number; counting the workers that
will come, and the numbers already claimed, shows whether every number finds a worker.
-/

namespace FaultMesh

/-- The fields of the pool that workers wait on. -/
structure Signals where
  ready : Bool
  persistentGen : Nat
  segGen : Nat
  batchGen : Nat
  active : Bool
  finished : Bool
  deriving DecidableEq, Repr

def Pool.signals (p : Pool) : Signals :=
  ⟨p.batchReady, p.persistentGen, p.segGeneration, p.batchGen, p.continuousActive, p.segFinished⟩

/-- With the fields as given and without being woken, the worker will claim a number. -/
def Worker.comes (σ : Signals) (wk : Worker) : Bool :=
  match wk.pc with
  | .waiting => σ.ready
  | .readContinuous | .readSegGen | .readBatchGen | .claim => true
  | .spinSegGen | .spinFinished | .spinBatchGen =>
    wk.lastGen ≠ σ.segGen && !σ.finished && wk.myBatchGen = σ.batchGen
  | .rereadSegGen | .recheckFinished | .recheckBatchGen =>
    !σ.finished && wk.myBatchGen = σ.batchGen
  | .spinPersistent => wk.lastPersistent ≠ σ.persistentGen
  | _ => false

/-- The worker takes part in the current continuous batch, or will without being woken. -/
def Worker.joins (σ : Signals) (wk : Worker) : Bool :=
  match wk.pc with
  | .waiting => σ.ready
  | .asleep | .batchDone | .readPersistent => false
  | .readContinuous => true
  | .readSegGen | .readBatchGen => wk.continuousMode
  | .spinPersistent => wk.lastPersistent ≠ σ.persistentGen
  | _ => wk.continuousMode && wk.myBatchGen = σ.batchGen

/-- The worker needs no wake-up, or is asleep and can be woken. -/
def orAsleep (P : Worker → Bool) (wk : Worker) : Bool := P wk || wk.pc = .asleep

/-- The worker has nothing to do with a continuous batch or with persistent spinning. -/
def Worker.plain (wk : Worker) : Bool :=
  match wk.pc with
  | .spinSegGen | .spinFinished | .spinBatchGen | .rereadSegGen | .recheckFinished
  | .recheckBatchGen | .readPersistent | .spinPersistent => false
  | _ => !wk.continuousMode

/-! ## Steps of a worker -/

section

variable {cfg : PoolConfig} {p p' : Pool} {wk wk' : Worker}
  (h : workerAccess cfg p wk = some (p', wk'))
include h

theorem workerAccess_signals : p'.signals = p.signals := by
  unfold workerAccess at h
  split at h
  all_goals
    try dsimp only at h
    try split at h
  all_goals cases h <;> rfl

theorem workerAccess_counter :
    p'.batchWorkerCounter = p.batchWorkerCounter + if wk.pc = .claim then 1 else 0 := by
  unfold workerAccess at h
  split at h
  all_goals
    rename_i hpc
    rw [hpc]
    try dsimp only at h
    try split at h
  all_goals cases h <;> rfl

end

/-- The fields may still be written, but not those that end a continuous batch. -/
structure Signals.Ahead (σ σ' : Signals) : Prop where
  batchGen : σ'.batchGen = σ.batchGen
  finished : σ'.finished = σ.finished

namespace Worker

variable {cfg : PoolConfig} {p p' : Pool} {wk wk' : Worker} {σ : Signals}

theorem comes_eq_false_of_asleep (h : wk.pc = .asleep) : wk.comes σ = false := by
  rw [comes, h]

theorem joins_eq_false_of_asleep (h : wk.pc = .asleep) : wk.joins σ = false := by
  rw [joins, h]

/-- A worker that comes goes on coming until it claims a number; the one way out is to
fall asleep before the dispatch is ready. -/
theorem comes_step (hahead : p.signals.Ahead σ) (hclaim : wk.pc ≠ .claim)
    (h : workerAccess cfg p wk = some (p', wk')) (hcomes : wk.comes σ) :
    wk'.comes σ ∨ wk'.pc = .asleep ∧ p.batchReady = false := by
  have hgen : σ.batchGen = p.batchGen := hahead.batchGen
  have hfin : σ.finished = p.segFinished := hahead.finished
  cases hpc : wk.pc
  case claim => exact absurd hpc hclaim
  case waiting =>
    rw [workerAccess, hpc] at h
    cases h
    cases hready : p.batchReady
    · exact .inr ⟨by simp, rfl⟩
    · exact .inl (by simp [comes])
  case spinSegGen | spinFinished | spinBatchGen | rereadSegGen | recheckFinished |
      recheckBatchGen =>
    -- neither test of the loop makes it leave
    simp only [comes, hpc, hgen, hfin, Bool.and_eq_true, Bool.not_eq_true', decide_eq_true_eq]
      at hcomes
    simp only [workerAccess, hpc] at h
    cases h
    left
    simp only [comes, hgen, hfin]
    grind
  case spinPersistent =>
    simp only [workerAccess, hpc] at h
    cases h
    left
    by_cases heq : p.persistentGen = wk.lastPersistent
    · simp only [comes, hpc] at hcomes
      simpa [comes, heq] using hcomes
    · simp [comes, heq]
  case readContinuous | readSegGen | readBatchGen =>
    simp only [workerAccess, hpc] at h
    cases h
    left
    cases hmode : wk.continuousMode <;> simp [comes]
  all_goals simp [comes, hpc] at hcomes

/-- While a continuous batch is open nobody leaves it. -/
theorem joins_step (hgen : σ.batchGen = p.batchGen) (hactive : p.continuousActive = true)
    (hopen : p.segFinished = false) (h : workerAccess cfg p wk = some (p', wk'))
    (hjoins : wk.joins σ) : wk'.joins σ ∨ wk'.pc = .asleep ∧ p.batchReady = false := by
  cases hpc : wk.pc
  case waiting =>
    rw [workerAccess, hpc] at h
    cases h
    cases hready : p.batchReady
    · exact .inr ⟨by simp, rfl⟩
    · exact .inl (by simp [joins])
  -- these have not joined
  case asleep | batchDone | readPersistent => simp [joins, hpc] at hjoins
  all_goals
    left
    simp only [joins, hpc, hgen, Bool.and_eq_true, decide_eq_true_eq] at hjoins
    simp only [workerAccess, hpc] at h
    try split at h
  all_goals
    cases h
    unfold joins
    grind [loopFrom]

/-- Without continuous batches and persistent spinning, workers only serve or sleep. -/
theorem plain_step (hspin : cfg.persistentSpin = false) (hactive : p.continuousActive = false)
    (h : workerAccess cfg p wk = some (p', wk')) (hplain : wk.plain) : wk'.plain := by
  cases hpc : wk.pc
  case asleep => simp [workerAccess, hpc] at h
  -- no worker spins
  case spinSegGen | spinFinished | spinBatchGen | rereadSegGen | recheckFinished |
      recheckBatchGen | readPersistent | spinPersistent => simp [plain, hpc] at hplain
  all_goals
    simp only [plain, hpc, Bool.not_eq_true'] at hplain
    simp only [workerAccess, hpc] at h
    try split at h
  all_goals
    cases h
    unfold plain
    grind [loopFrom]

end Worker

/-! ## Waking up -/

theorem wakeChoice_spec {cfg : PoolConfig} {workers : Nat → Worker} {count : Nat}
    {woken : List Nat} (h : wakeChoice cfg workers count woken) :
    woken.Nodup ∧ (∀ w ∈ woken, w < cfg.numWorkers) ∧
      (woken.length = count ∨ ∀ w < cfg.numWorkers, (workers w).pc = .asleep → w ∈ woken) := by
  simp only [wakeChoice, Bool.and_eq_true, List.all_eq_true, Bool.or_eq_true,
    decide_eq_true_eq, List.mem_range] at h
  obtain ⟨⟨hnodup, hin⟩, hmany⟩ := h
  refine ⟨hnodup, fun w hw => (hin w hw).1, hmany.imp_right fun hall w hlt hpc => ?_⟩
  exact (hall.2 w hlt).resolve_left fun hne => hne hpc

theorem wakeWorkers_of_zero {cfg : PoolConfig} {workers : Nat → Worker} {woken : List Nat}
    (h : wakeChoice cfg workers 0 woken) : wakeWorkers workers woken = workers := by
  have hnil : woken = [] := by
    simp only [wakeChoice, Bool.and_eq_true, Bool.or_eq_true, decide_eq_true_eq] at h
    rcases h.2 with hlen | hlen
    · exact List.length_eq_zero_iff.1 hlen
    · exact absurd hlen.1 (Nat.not_lt_zero _)
  subst hnil
  funext w
  exact if_neg List.not_mem_nil

section

variable {cfg : PoolConfig} {workers : Nat → Worker} {count : Nat} {woken : List Nat}
  {P : Worker → Bool}

/-- A woken worker satisfies the predicate, which a sleeping one does not. -/
def WokenMeets (P : Worker → Bool) : Prop :=
  ∀ wk : Worker, wk.pc = .asleep → P wk = false ∧ P { wk with pc := .waiting } = true

theorem WokenMeets.wakeWorkers (hP : WokenMeets P) (hasleep : ∀ w ∈ woken, (workers w).pc = .asleep)
    {w : Nat} (h : P (workers w)) : P (wakeWorkers workers woken w) := by
  unfold FaultMesh.wakeWorkers
  split
  · rename_i hw
    exact (hP _ (hasleep w hw)).2
  · exact h

/-- **Wake-up**: as many workers are reached as were asked for, or all that sleep. -/
theorem wake_reaches (hP : WokenMeets P) (hasleep : ∀ w ∈ woken, (workers w).pc = .asleep)
    (h : wakeChoice cfg workers count woken) :
    census cfg.numWorkers workers P + count ≤
        census cfg.numWorkers (wakeWorkers workers woken) P ∨
      census cfg.numWorkers workers (orAsleep P) ≤
        census cfg.numWorkers (wakeWorkers workers woken) P := by
  obtain ⟨hnodup, hin, hmany⟩ := wakeChoice_spec h
  have hwoken : ∀ w ∈ woken, P (wakeWorkers workers woken w) := by
    intro w hw
    rw [wakeWorkers, if_pos hw]
    exact (hP _ (hasleep w hw)).2
  -- enough were asleep, or all of them were woken
  rcases hmany with rfl | hall
  · left
    apply census_add_length_le _ hnodup
    · exact fun w hw => ⟨hin w hw, (hP _ (hasleep w hw)).1, hwoken w hw⟩
    · exact fun w _ hw => hP.wakeWorkers hasleep hw
  · right
    apply census_mono
    intro w hlt hw
    rcases Bool.or_eq_true_iff.1 hw with hPw | hpc
    · exact hP.wakeWorkers hasleep hPw
    · exact hwoken w (hall w hlt (of_decide_eq_true hpc))

theorem wakeWorkers_orAsleep (hP : WokenMeets P)
    (hasleep : ∀ w ∈ woken, (workers w).pc = .asleep) :
    census cfg.numWorkers workers (orAsleep P) ≤
      census cfg.numWorkers (wakeWorkers workers woken) (orAsleep P) := by
  apply census_mono
  intro w _ hw
  unfold wakeWorkers
  split
  · rename_i hmem
    rw [orAsleep, (hP _ (hasleep w hmem)).2]
    rfl
  · exact hw

end

theorem Worker.comes_wokenMeets {σ : Signals} (h : σ.ready) : WokenMeets (Worker.comes σ) :=
  fun _ hpc => ⟨comes_eq_false_of_asleep hpc, h⟩

theorem Worker.joins_wokenMeets {σ : Signals} (h : σ.ready) : WokenMeets (Worker.joins σ) :=
  fun _ hpc => ⟨joins_eq_false_of_asleep hpc, h⟩

end FaultMesh
