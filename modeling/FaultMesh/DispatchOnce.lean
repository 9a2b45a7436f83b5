import FaultMesh.PoolInvariant

/-!
# Every item is serviced by one worker

As long as no worker takes part in two dispatches at once, the items of every dispatch are
serviced once each. The code does not wait for that: a worker that claimed a number in one dispatch
and reads the batch fields in the next one takes an index that another worker takes too.
-/

namespace FaultMesh

/-- In the current dispatch no index was serviced or counted twice, `items_remaining` is the number
of items not yet finished, and all of them are finished once the completion was signalled, and
still when the coordinator has consumed it. -/
structure ExactlyOnce (s : PoolState) : Prop where
  serviced_once : (s.current.serviced.map Service.idx).Nodup
  serviced_lt : ∀ e ∈ s.current.serviced, e.idx < s.current.items
  finished_once : s.current.finished.Nodup
  finished_serviced : ∀ idx ∈ s.current.finished, idx ∈ s.current.serviced.map Service.idx
  remaining : s.pool.itemsRemaining = s.current.items - s.current.finished.length
  remaining_nonneg : 0 ≤ s.pool.itemsRemaining
  signalled : 0 < s.pool.allDone → ∀ idx < s.current.items, idx ∈ s.current.finished
  returned : ∀ c, (s.coords c).pc.collecting → ∀ idx < s.current.items, idx ∈ s.current.finished

theorem RunInv.exactlyOnce {s : PoolState} {f : Nat → Nat}
    (h : RunInv s.pool s.workers s.current f)
    (hreturned : ∀ c, (s.coords c).pc.collecting = false) : ExactlyOnce s where
  serviced_once := h.recorded.nodup
  serviced_lt := by
    intro e he
    rcases (h.recorded.serviced_iff e.idx).1 (List.mem_map_of_mem he) with hfin | ⟨w, hpc, hidx⟩
    · exact h.progress.mem_range hfin
    · rw [← hidx]
      exact (h.loop w (by rw [hpc]; rfl)).inRange
  finished_once := h.progress.nodup
  finished_serviced := fun idx hidx => (h.recorded.serviced_iff idx).2 (.inl hidx)
  remaining := h.remaining
  remaining_nonneg := by
    rw [h.remaining]
    exact Int.sub_nonneg_of_le (Int.ofNat_le.2 h.progress.length_le)
  signalled := h.all_finished
  returned := fun c hc => absurd ((hreturned c).symm.trans hc) Bool.false_ne_true

theorem DispatchOver.exactlyOnce {s : PoolState} (h : DispatchOver s.pool s.workers s.current) :
    ExactlyOnce s where
  serviced_once := h.recorded.nodup
  serviced_lt := by
    intro e he
    rcases (h.recorded.serviced_iff e.idx).1 (List.mem_map_of_mem he) with hfin | hno
    · exact (h.finished_iff e.idx).1 hfin
    · exact absurd hno not_false
  finished_once := h.finished_once
  finished_serviced := fun idx hidx => (h.recorded.serviced_iff idx).2 (.inl hidx)
  remaining := by
    rw [h.remaining, h.finished_length]
    exact (Int.sub_self _).symm
  remaining_nonneg := Int.le_of_eq h.remaining.symm
  signalled := fun _ idx hidx => (h.finished_iff idx).2 hidx
  returned := fun _ _ idx hidx => (h.finished_iff idx).2 hidx

theorem PoolInv.exactlyOnce {cfg : PoolConfig} {s : PoolState} (h : PoolInv cfg s) :
    ExactlyOnce s := by
  have hphase := h.coord.phase
  cases hph : (s.coords 0).phase <;> simp only [PhaseInv, hph] at hphase
  · exact hphase.1.exactlyOnce
  · exact hphase.1.exactlyOnce
  · obtain ⟨-, f, hrun⟩ := hphase
    refine hrun.exactlyOnce fun c => ?_
    by_cases hc : c = 0
    · rw [hc]
      exact Coord.not_collecting_of_running hph
    · rw [h.others c hc]
      rfl

/-- **Exactly once**: with one coordinator, in every run in which no worker takes part in two
dispatches at once, every item of every dispatch is serviced by one worker, `items_remaining` is
the number of unfinished items and the completion comes after the last of them. -/
theorem every_item_serviced_once {cfg : PoolConfig} (hone : cfg.numCoords = 1)
    {labels : List PoolLabel} {s : PoolState}
    (hguard : (poolMachine cfg).Meets (SetupGuard cfg) {} labels)
    (hrun : (poolMachine cfg).run {} labels = some s) : ExactlyOnce s := by
  have hinv : PoolInv cfg s := (poolMachine cfg).run_invariant
    (fun _ _ _ hI hG hstep => poolStep_inv hone hI hG hstep) (poolInv_init cfg) hguard hrun
  exact hinv.exactlyOnce

/-! ## A small pool -/

def twoWorkers : PoolConfig where
  numWorkers := 2

/-- Two workers share two items; the coordinator collects them. -/
def twoItems : List PoolLabel :=
  setUp 0 2 ++ workerSteps 0 10 ++ workerSteps 1 14 ++ workerSteps 0 4 ++ coordSteps 0 2

/-- The run is allowed, and in the end both items are finished and the coordinator knows. -/
theorem two_items_serviced_once :
    ∃ s, (poolMachine twoWorkers).run {} twoItems = some s ∧ (s.coords 0).pc = .readContinuous ∧
      s.current.finished = [0, 1] ∧ ExactlyOnce s := by
  have hmeets : (poolMachine twoWorkers).Meets (SetupGuard twoWorkers) {} twoItems := by decide
  exact ⟨_, rfl, by decide +kernel, by decide +kernel, every_item_serviced_once rfl hmeets rfl⟩

/-- A worker that claims number 1 in a dispatch of one item and reads the fields in the next
dispatch, of two items. -/
def lateClaim : List PoolLabel :=
  setUp 0 1 ++ workerSteps 0 4 ++ workerSteps 1 4 ++ workerSteps 0 12 ++ coordSteps 0 7 ++
    -- the second dispatch is ready; worker 1 goes on
    setUp 0 2 ++ workerSteps 1 11 ++ workerSteps 0 4 ++ workerSteps 1 14

/-- It services item 1; then it claims number 1 again and services item 1 once more. The
completion is signalled, but item 0 is not serviced. -/
theorem late_claim_services_twice :
    ∃ s, (poolMachine twoWorkers).run {} lateClaim = some s ∧
      s.current.serviced.map Service.idx = [1, 1] ∧ s.current.items = 2 ∧ s.pool.allDone = 1 ∧
      ¬ ExactlyOnce s := by
  refine ⟨_, rfl, by decide +kernel, by decide +kernel, by decide +kernel, fun honce => ?_⟩
  exact absurd honce.serviced_once (by decide +kernel)

end FaultMesh
