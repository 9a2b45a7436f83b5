import FaultMesh.SerialPasses

/-!
# Redundant faults of a batch

The service loop compares the duplicates and stale faults of a batch with all its faults. A
duplicate is counted on the first pass over its block only; a stale fault is counted on every pass
that comes to it, and a fault that repeats a fatal one is counted as a duplicate and looked at as
well. `service_fault_batch_ats` counts by itself, and a fault that it cuts off is counted again. If
every pass that is repeated finds nothing stale, nothing behind a fatal fault on its page is stale,
and what ATS counts again has one instance, then the two counts stay within the number of faults.

Each fault is given its number of instances to spend. On the first pass a fault that leads its page
spends all but one on its duplicates; the last one is kept for the pass that may find it stale.
-/

namespace FaultMesh

open ServiceBatch

/-! ## What a pass counts -/

namespace ServiceBatch

/-- Duplicate and stale faults together, as the flush mode depends on them. -/
def redundancy (b : ServiceBatch) : Nat := b.numDuplicateFaults + b.numStaleFaults

def instances (b : ServiceBatch) (k : Nat) : Nat := (b.entries k).numInstances

variable {b : ServiceBatch} {i : Nat}

theorem instances_setEntry {e : FaultEntry} (he : e.numInstances = (b.entries i).numInstances) :
    (b.setEntry i e).instances = b.instances := by
  funext k
  by_cases hk : k = i
  · simp [instances, setEntry, hk, he]
  · simp [instances, setEntry, hk]

@[simp] theorem instances_markFaultInvalidPrefetch :
    (b.markFaultInvalidPrefetch i).instances = b.instances :=
  @instances_setEntry b i { b.entries i with isInvalidPrefetch := true } rfl

@[simp] theorem instances_markFaultThrottled : (b.markFaultThrottled i).instances = b.instances :=
  @instances_setEntry b i { b.entries i with isThrottled := true } rfl

@[simp] theorem instances_markFaultFatal {reason : FatalReason} {mode : CancelVaMode} :
    (b.markFaultFatal i reason mode).instances = b.instances :=
  @instances_setEntry b i
    { b.entries i with isFatal := true, fatalReason := reason, cancelVaMode := mode } rfl

@[simp] theorem instances_duplicateFlags : (b.duplicateFlags i).instances = b.instances := by
  unfold duplicateFlags
  dsimp only
  split_ifs <;> simp

@[simp] theorem redundancy_duplicateFlags : (b.duplicateFlags i).redundancy = b.redundancy := by
  unfold duplicateFlags
  dsimp only
  split_ifs <;> rfl

/-- What is counted as a duplicate when the fault is noted. -/
def noted (b : ServiceBatch) (numRetries i : Nat) (dup : Bool) : Nat :=
  if numRetries = 0 then (if dup then b.instances i else b.instances i - 1) else 0

/-- The entry with its marks taken away. -/
def unmarked (b : ServiceBatch) (i : Nat) : ServiceBatch :=
  b.setEntry i { b.entries i with isThrottled := false, isInvalidPrefetch := false }

@[simp] theorem instances_unmarked : (b.unmarked i).instances = b.instances :=
  instances_setEntry rfl

theorem noted_unmarked {numRetries : Nat} {dup : Bool} :
    (b.unmarked i).noted numRetries i dup = b.noted numRetries i dup := by
  rw [noted, instances_unmarked, noted]

theorem redundancy_updateBatch {dup : Bool} :
    (b.updateBatch i dup).redundancy = b.redundancy + b.noted 0 i dup :=
  Nat.add_right_comm _ _ _

theorem noted_le {numRetries : Nat} {dup : Bool} : b.noted numRetries i dup ≤ b.instances i := by
  rw [noted]
  split_ifs <;> omega

theorem noteFault_eq (numRetries : Nat) (dup : Bool) : b.noteFault numRetries i dup =
    let b₁ := if numRetries = 0 then (b.unmarked i).updateBatch i dup else b.unmarked i
    if dup then b₁.duplicateFlags i else b₁ := rfl

@[simp] theorem instances_noteFault {numRetries : Nat} {dup : Bool} :
    (b.noteFault numRetries i dup).instances = b.instances := by
  have hupdate : ((b.unmarked i).updateBatch i dup).instances = (b.unmarked i).instances := rfl
  rw [noteFault_eq]
  dsimp only
  split_ifs <;> simp [hupdate]

theorem redundancy_noteFault {numRetries : Nat} {dup : Bool} :
    (b.noteFault numRetries i dup).redundancy = b.redundancy + b.noted numRetries i dup := by
  have hfirst : (if numRetries = 0 then (b.unmarked i).updateBatch i dup
      else b.unmarked i).redundancy = b.redundancy + b.noted numRetries i dup := by
    split
    next hfirst => rw [redundancy_updateBatch, noted_unmarked, hfirst]; rfl
    next hretry => rw [noted, if_neg hretry]; rfl
  rw [← hfirst, noteFault_eq]
  dsimp only
  split
  · rw [redundancy_duplicateFlags]
  · rfl

end ServiceBatch

namespace BlockAnswers

variable (ans : BlockAnswers) (entries : Nat → FaultEntry) (i : Nat)

/-- The GPU has the access that the fault at place `i` would be serviced with. -/
def staleAt : Bool := (ans.servedAccess entries i).any fun access => ans.gpuAuthorized i access.toProt

/-- The fault at place `i` is fatal, or is so once its access has been checked. -/
def fatalAt : Bool :=
  (entries i).isFatal || ans.denied entries i && decide ((entries i).accessType ≠ .prefetch)

end BlockAnswers

section Block

variable {ans : BlockAnswers} {block : VaBlock} {s : SerialLoop} {i first : Nat} {b : ServiceBatch}

@[simp] theorem checkFaultAccessPermissions_redundancy {numRetries : Nat} :
    (checkFaultAccessPermissions ans numRetries b i).2.redundancy = b.redundancy := by
  unfold checkFaultAccessPermissions
  dsimp only
  split_ifs <;> rfl

@[simp] theorem checkFaultAccessPermissions_instances {numRetries : Nat} :
    (checkFaultAccessPermissions ans numRetries b i).2.instances = b.instances := by
  unfold checkFaultAccessPermissions
  dsimp only
  split_ifs <;> simp

theorem SerialLoop.serviceChecked_redundancy :
    (s.serviceChecked ans block i).batch.redundancy =
      s.batch.redundancy + if ans.staleAt s.batch.entries i then 1 else 0 := by
  have hfst := @checkFaultAccessPermissions_fst ans i s.batch s.ctx.numRetries
  have hsnd := @checkFaultAccessPermissions_redundancy ans i s.batch s.ctx.numRetries
  rw [serviceChecked, BlockAnswers.staleAt, ← hfst, ← hsnd]
  split
  next b hb =>
    rw [hb]
    rfl
  next access b hb =>
    rw [hb]
    simp only [Option.any_some]
    split
    · rfl
    · split
      · dsimp only
        split
        · rfl
        · rfl
      · rfl

theorem SerialLoop.serviceChecked_instances :
    (s.serviceChecked ans block i).batch.instances = s.batch.instances := by
  apply serviceChecked_rule (P := fun b => b.instances = s.batch.instances)
  · exact checkFaultAccessPermissions_instances
  · exact fun _ hb => hb
  · exact fun b hb => ServiceBatch.instances_markFaultThrottled.trans hb

theorem serviceFault_instances :
    (serviceFault ans block first i s).batch.instances = s.batch.instances := by
  rw [serviceFault]
  split
  · exact ServiceBatch.instances_noteFault
  · rw [SerialLoop.serviceChecked_instances]
    exact ServiceBatch.instances_noteFault

theorem serviceFaults_instances {fuel : Nat} :
    (serviceFaults ans block first fuel i s).batch.instances = s.batch.instances := by
  induction fuel generalizing i s with
  | zero => rfl
  | succ fuel ih =>
    rw [serviceFaults]
    split
    · rw [ih, serviceFault_instances]
    · rfl

theorem noteFault_entry {numRetries : Nat} {dup : Bool} :
    ((b.noteFault numRetries i dup).entries i).accessType = (b.entries i).accessType ∧
      ((b.noteFault numRetries i dup).entries i).accessTypeMask = (b.entries i).accessTypeMask ∧
      ((b.noteFault numRetries i dup).entries i).isFatal = (b.entries i).isFatal := by
  unfold noteFault duplicateFlags
  dsimp only
  split_ifs <;>
    simp [setEntry, updateBatch, markFaultInvalidPrefetch, markFaultThrottled]

theorem noteFault_staleAt {numRetries : Nat} {dup : Bool} :
    ans.staleAt (b.noteFault numRetries i dup).entries i = ans.staleAt b.entries i := by
  simp only [BlockAnswers.staleAt, BlockAnswers.servedAccess, noteFault_entry]

theorem noteFault_fatalAt {numRetries : Nat} {dup : Bool} :
    ans.fatalAt (b.noteFault numRetries i dup).entries i = ans.fatalAt b.entries i := by
  simp only [BlockAnswers.fatalAt, BlockAnswers.denied, noteFault_entry]

/-- A fault is counted as a duplicate on the first pass, and as stale whenever the checks
come to it. -/
theorem serviceFault_redundancy :
    (serviceFault ans block first i s).batch.redundancy =
      s.batch.redundancy + s.batch.noted s.ctx.numRetries i (!leads s.batch.entries first i) +
        if (leads s.batch.entries first i || (s.batch.entries (i - 1)).isFatal) &&
          ans.staleAt s.batch.entries i then 1 else 0 := by
  cases hdup : first < i && checkFaultEntryDuplicate (s.batch.entries i) (s.batch.entries (i - 1)) with
  | false =>
    rw [serviceFault]
    dsimp only
    rw [leads, hdup, Bool.false_and, if_neg Bool.false_ne_true, SerialLoop.serviceChecked_redundancy,
      noteFault_staleAt, ServiceBatch.redundancy_noteFault]
    rfl
  | true =>
    have hlt : first < i := by simpa using (Bool.and_eq_true_iff.1 hdup).1
    have hprev := @noteFault_entries_of_ne i s.batch s.ctx.numRetries (i - 1) true
      (by omega)
    rw [serviceFault]
    dsimp only
    rw [leads, hdup, hprev]
    -- behind a fatal fault the checks are made all the same
    cases hfatal : (s.batch.entries (i - 1)).isFatal with
    | false =>
      rw [if_pos (by rfl), ServiceBatch.redundancy_noteFault]
      rfl
    | true =>
      rw [if_neg (by simp), SerialLoop.serviceChecked_redundancy, noteFault_staleAt,
        ServiceBatch.redundancy_noteFault]
      rfl

theorem checkFaultAccessPermissions_isFatal {numRetries : Nat}
    (h : ((checkFaultAccessPermissions ans numRetries b i).2.entries i).isFatal = true) :
    ans.fatalAt b.entries i = true := by
  rw [BlockAnswers.fatalAt, Bool.or_eq_true_iff, Bool.and_eq_true_iff]
  unfold checkFaultAccessPermissions at h
  dsimp only at h
  split at h
  next => exact .inl h
  next hperm =>
    split at h
    next hprefetch =>
      left
      split at h
      · simpa [markFaultInvalidPrefetch, setEntry] using h
      · exact h
    next hprefetch => exact .inr ⟨decide_eq_true hperm, decide_eq_true hprefetch⟩

theorem SerialLoop.serviceChecked_isFatal
    (h : ((s.serviceChecked ans block i).batch.entries i).isFatal = true) :
    ans.fatalAt s.batch.entries i = true := by
  revert h
  apply serviceChecked_rule
    (P := fun b => (b.entries i).isFatal = true → ans.fatalAt s.batch.entries i = true)
  · exact checkFaultAccessPermissions_isFatal
  · exact fun _ hb => hb
  · exact fun b hb h => hb (by simpa [markFaultThrottled, setEntry] using h)

theorem serviceFault_isFatal
    (h : ((serviceFault ans block first i s).batch.entries i).isFatal = true) :
    ans.fatalAt s.batch.entries i = true := by
  rw [← @noteFault_fatalAt ans i s.batch s.ctx.numRetries
    (first < i && checkFaultEntryDuplicate (s.batch.entries i) (s.batch.entries (i - 1)))]
  rw [serviceFault] at h
  split at h
  · rw [BlockAnswers.fatalAt, Bool.or_eq_true_iff]
    exact .inl h
  · exact SerialLoop.serviceChecked_isFatal h

/-- The pass came to place `i`: the faults from there on are as they were in `b`. -/
structure PassInv (ans : BlockAnswers) (n : Nat) (b : ServiceBatch) (i : Nat) (s : SerialLoop) :
    Prop where
  marks : MarksMore n b s.batch
  ahead : ∀ k, i ≤ k → s.batch.entries k = b.entries k
  fatal : ∀ k, (s.batch.entries k).isFatal = true → ans.fatalAt b.entries k = true

/-- What a pass counts for the fault at place `j`: its instances on the first pass, and once more if
it leads its page and is stale. -/
def passCount (ans : BlockAnswers) (b : ServiceBatch) (numRetries first j : Nat) : Nat :=
  b.noted numRetries j (!leads b.entries first j) +
    if leads b.entries first j && ans.staleAt b.entries j then 1 else 0

variable {n : Nat}

theorem PassInv.serviceFault (h : PassInv ans n b i s) (hi : i < n) :
    PassInv ans n b (i + 1) (serviceFault ans block first i s) := by
  refine ⟨h.marks.trans (serviceFault_marksMore hi), fun k hk => ?_, fun k hk => ?_⟩
  · rw [serviceFault_entries_of_ne (by omega)]
    exact h.ahead k (by omega)
  · by_cases hki : k = i
    · subst hki
      have hfatal := serviceFault_isFatal hk
      simp only [BlockAnswers.fatalAt, BlockAnswers.denied, h.ahead k le_rfl] at hfatal ⊢
      exact hfatal
    · rw [serviceFault_entries_of_ne hki] at hk
      exact h.fatal k hk

/-- If no fault behind a fatal one on its page is stale, what is counted is seen before
the pass. -/
theorem PassInv.serviceFault_redundancy (h : PassInv ans n b i s)
    (hquiet : leads b.entries first i = false → ans.fatalAt b.entries (i - 1) = true →
      ans.staleAt b.entries i = false) :
    (FaultMesh.serviceFault ans block first i s).batch.redundancy =
      s.batch.redundancy + passCount ans b s.ctx.numRetries first i := by
  have hentry := h.ahead i le_rfl
  -- the entry is as it was before the pass
  have hstale : ans.staleAt s.batch.entries i = ans.staleAt b.entries i := by
    simp only [BlockAnswers.staleAt, BlockAnswers.servedAccess, hentry]
  have hnoted : s.batch.noted s.ctx.numRetries i = b.noted s.ctx.numRetries i := by
    funext dup
    simp only [ServiceBatch.noted, ServiceBatch.instances, hentry]
  rw [FaultMesh.serviceFault_redundancy, h.marks.leads_eq, hstale, hnoted, passCount, Nat.add_assoc]
  congr 2
  cases hlead : leads b.entries first i with
  | true => rfl
  | false =>
    cases hfatal : (s.batch.entries (i - 1)).isFatal with
    | false => rfl
    | true => rw [hquiet hlead (h.fatal (i - 1) hfatal), Bool.and_false, Bool.and_false]

/-- A pass over the faults of a block counts for each of them. -/
theorem PassInv.serviceFaults_redundancy {fuel : Nat} (hn : i + fuel ≤ n) (h : PassInv ans n b i s)
    (hquiet : ∀ j, i ≤ j → j < i + countWhile (b.onBlock block) fuel i →
      leads b.entries first j = false → ans.fatalAt b.entries (j - 1) = true →
        ans.staleAt b.entries j = false) :
    (serviceFaults ans block first fuel i s).batch.redundancy = s.batch.redundancy +
      ∑ j ∈ Finset.Ico i (i + countWhile (b.onBlock block) fuel i),
        passCount ans b s.ctx.numRetries first j := by
  induction fuel generalizing i s with
  | zero => simp [serviceFaults, countWhile]
  | succ fuel ih =>
    rw [serviceFaults, countWhile]
    rw [countWhile] at hquiet
    -- marks do not change where the block ends
    have htest : (s.batch.entries i).vaSpace = some block.vaSpace ∧
        (s.batch.entries i).faultAddress ≤ block.last ↔ b.onBlock block i = true := by
      rw [← h.marks.onBlock, onBlock_iff]
    by_cases hblock : b.onBlock block i = true
    · rw [if_pos hblock] at hquiet
      have hend : i + (countWhile (b.onBlock block) fuel (i + 1) + 1) =
          i + 1 + countWhile (b.onBlock block) fuel (i + 1) := (Nat.add_right_comm i 1 _).symm
      rw [hend] at hquiet
      have hstep := @PassInv.serviceFault_redundancy ans block s i first b n h
        (hquiet i le_rfl (by omega))
      have hnext := @PassInv.serviceFault ans block s i first b n h (by omega)
      have hrest := ih (by omega) hnext fun j hij hj => hquiet j (by omega) hj
      rw [if_pos (htest.2 hblock), if_pos hblock, hrest, hstep, serviceFault_numRetries, hend,
        Nat.add_assoc, ← Finset.sum_eq_sum_Ico_succ_bot (by omega)]
    · rw [if_neg (mt htest.1 hblock), if_neg hblock]
      simp

end Block

/-! ## What the passes count together -/

/-- The fault at place `j` is counted within its instances however often the block is serviced:
nothing behind a fatal fault on its page is stale; a pass that is repeated finds nothing stale; and
if the block is looked up again, the pass counted nothing at all. -/
structure CountedOnce (ans : BlockAnswers) (entries : Nat → FaultEntry) (first : Nat)
    (outcome : PassOutcome) (j : Nat) : Prop where
  behindFatal : leads entries first j = false → ans.fatalAt entries (j - 1) = true →
    ans.staleAt entries j = false
  repeated : outcome = .allocRetry → leads entries first j = true → ans.staleAt entries j = false
  again : outcome = .lookupAgain → leads entries first j = true ∧ (entries j).numInstances = 1 ∧
    ans.staleAt entries j = false

instance (ans : BlockAnswers) (entries : Nat → FaultEntry) (first : Nat) (outcome : PassOutcome)
    (j : Nat) : Decidable (CountedOnce ans entries first outcome j) :=
  decidable_of_iff ((leads entries first j = false → ans.fatalAt entries (j - 1) = true →
      ans.staleAt entries j = false) ∧
    (outcome = .allocRetry → leads entries first j = true → ans.staleAt entries j = false) ∧
    (outcome = .lookupAgain → leads entries first j = true ∧ (entries j).numInstances = 1 ∧
      ans.staleAt entries j = false))
    ⟨fun h => ⟨h.1, h.2.1, h.2.2⟩, fun h => ⟨h.behindFatal, h.repeated, h.again⟩⟩

/-- The fault has one instance and is not on the page of the one before it, so that nothing is
counted for it. -/
def ServiceBatch.Single (b : ServiceBatch) (j : Nat) : Prop :=
  b.instances j = 1 ∧ leads b.entries 0 j = true

instance (b : ServiceBatch) (j : Nat) : Decidable (b.Single j) := inferInstanceAs (Decidable (_ ∧ _))

/-- The number of faults that `service_fault_batch_ats` counts from place `i` on. -/
def ServiceBatch.atsCounted (b : ServiceBatch) (out : AtsOutcome) (i : Nat) : Nat :=
  b.atsFaults out i +
    if out.ahead && i + b.atsFaults out i < b.numCoalescedFaults then 1 else 0

/-- Every pass counts each of its faults once, and so does `service_fault_batch_ats`: it comes to a
fault twice, or to all of them once more, only if nothing is counted for them. -/
def CountsOnce (s : PassState) : PassLabel → Prop
  | .pass ans block outcome => ∀ j < s.batch.blockFaults block s.place,
      CountedOnce ans s.batch.entries s.place outcome (s.place + j)
  | .ats out => ∀ j < s.batch.atsCounted out s.place,
      out.visit (s.place + j) = .nextThenFirst ∨ out.status.passOutcome = .lookupAgain →
        s.batch.Single (s.place + j)
  | _ => True

instance (s : PassState) (label : PassLabel) : Decidable (CountsOnce s label) :=
  match label with
  | .pass _ _ _ => inferInstanceAs (Decidable (∀ j < _, CountedOnce _ _ _ _ _))
  | .ats _ => inferInstanceAs (Decidable (∀ j < _, _ → _))
  | .fatal | .ignored | .cancel _ => inferInstanceAs (Decidable True)

section Passes

variable {ans : BlockAnswers} {b : ServiceBatch} {first j k : Nat}

/-- One for each page, which is left to be spent when the fault is found stale. -/
def ServiceBatch.pages (b : ServiceBatch) (first k : Nat) : Nat :=
  ∑ j ∈ Finset.Ico first (first + k), if leads b.entries first j then 1 else 0

/-- All instances of the faults before a place. -/
def ServiceBatch.total (b : ServiceBatch) (m : Nat) : Nat := ∑ j ∈ Finset.Ico 0 m, b.instances j

theorem ServiceBatch.total_add (b : ServiceBatch) (m k : Nat) :
    b.total (m + k) = b.total m + ∑ j ∈ Finset.Ico m (m + k), b.instances j :=
  (Finset.sum_Ico_consecutive b.instances (Nat.zero_le m) (Nat.le_add_right m k)).symm

theorem ServiceBatch.total_mono (b : ServiceBatch) {m m' : Nat} (h : m ≤ m') :
    b.total m ≤ b.total m' := by
  obtain ⟨k, rfl⟩ := Nat.exists_eq_add_of_le h
  rw [b.total_add]
  exact Nat.le_add_right _ _

theorem passCount_zero_le (hinst : 0 < b.instances j) :
    passCount ans b 0 first j ≤ b.instances j := by
  rw [passCount, ServiceBatch.noted, if_pos rfl]
  cases leads b.entries first j with
  | true =>
    simp only [Bool.not_true, Bool.false_eq_true, if_false, Bool.true_and]
    split <;> omega
  | false => simp

theorem passCount_zero_add (hinst : 0 < b.instances j)
    (hstale : leads b.entries first j = true → ans.staleAt b.entries j = false) :
    passCount ans b 0 first j + (if leads b.entries first j then 1 else 0) = b.instances j := by
  rw [passCount, ServiceBatch.noted, if_pos rfl]
  cases hlead : leads b.entries first j with
  | true =>
    rw [hstale hlead]
    simp only [Bool.not_true, Bool.false_eq_true, if_false, Bool.and_false, if_true]
    omega
  | false => simp

theorem passCount_retry_le {numRetries : Nat} (hretry : 0 < numRetries) :
    passCount ans b numRetries first j ≤ if leads b.entries first j then 1 else 0 := by
  rw [passCount, ServiceBatch.noted, if_neg hretry.ne']
  cases leads b.entries first j with
  | true =>
    simp only [Bool.true_and, Nat.zero_add, if_true]
    split <;> omega
  | false => simp

theorem passCount_retry_eq_zero {numRetries : Nat} (hretry : 0 < numRetries)
    (hstale : leads b.entries first j = true → ans.staleAt b.entries j = false) :
    passCount ans b numRetries first j = 0 := by
  rw [passCount, ServiceBatch.noted, if_neg hretry.ne']
  cases hlead : leads b.entries first j with
  | true => simp [hstale hlead]
  | false => simp

end Passes

/-! ## The bound along a run -/

/-- What the loop has counted is covered by the faults it has come past; while a block is serviced
again, one instance for each of its pages is not spent yet. -/
structure RedundancyInv (b₀ : ServiceBatch) (s : PassState) : Prop where
  marks : MarksMore b₀.numCoalescedFaults b₀ s.batch
  instances : s.batch.instances = b₀.instances
  place : s.place ≤ b₀.numCoalescedFaults
  covered : s.retrying = none →
    s.batch.redundancy ≤ b₀.total (if s.finished then b₀.numCoalescedFaults else s.place)
  kept : ∀ block, s.retrying = some block → 0 < s.ctx.numRetries ∧
    s.batch.redundancy + s.batch.pages s.place (s.batch.blockFaults block s.place) ≤
      b₀.total (s.place + s.batch.blockFaults block s.place)

section Run

variable {b₀ : ServiceBatch} {s : PassState} {ans : BlockAnswers} {block : VaBlock}
  {outcome : PassOutcome}

theorem PassState.numRetries_of_none (h : s.retrying = none) : s.numRetries = 0 := by
  rw [numRetries, h]
  rfl

theorem PassState.numRetries_of_some (h : s.retrying = some block) :
    s.numRetries = s.ctx.numRetries := by
  rw [numRetries, h]
  rfl

theorem PassState.attempt_redundancy (hle : s.place ≤ s.batch.numCoalescedFaults)
    (hquiet : ∀ j < s.batch.blockFaults block s.place,
      CountedOnce ans s.batch.entries s.place outcome (s.place + j)) :
    (s.attempt ans block).batch.redundancy = s.batch.redundancy +
      ∑ j ∈ Finset.Ico s.place (s.place + s.batch.blockFaults block s.place),
        passCount ans s.batch s.numRetries s.place j := by
  have hinit : PassInv ans s.batch.numCoalescedFaults s.batch s.place
      { batch := s.batch, ctx := { s.ctx with numRetries := s.numRetries }.begin } :=
    ⟨.refl _, fun _ _ => rfl, fun k hk => Bool.or_eq_true_iff.2 (.inl hk)⟩
  apply hinit.serviceFaults_redundancy (by omega)
  intro j hij hj
  obtain ⟨m, rfl⟩ := Nat.exists_eq_add_of_le hij
  exact (hquiet m (Nat.add_lt_add_iff_left.1 hj)).behindFatal

theorem ServiceBatch.place_add_blockFaults_le (b : ServiceBatch) {i : Nat}
    (hi : i ≤ b.numCoalescedFaults) : i + b.blockFaults block i ≤ b.numCoalescedFaults := by
  have hle : b.blockFaults block i ≤ b.numCoalescedFaults - i := countWhile_le
  omega

namespace RedundancyInv

section Pass

variable (h : RedundancyInv b₀ s) (hfinished : s.finished = false)
  (hinst : ∀ j < b₀.numCoalescedFaults, 0 < b₀.instances j)
  (hblock : ∀ block', s.retrying = some block' → block = block')
include h hfinished hinst hblock

theorem attempt_add_le (kept : Nat → Nat)
    (hquiet : ∀ j < s.batch.blockFaults block s.place,
      CountedOnce ans s.batch.entries s.place outcome (s.place + j))
    (hfirst : ∀ j < s.batch.blockFaults block s.place, 0 < s.batch.instances (s.place + j) →
      passCount ans s.batch 0 s.place (s.place + j) + kept (s.place + j) ≤
        s.batch.instances (s.place + j))
    (hagain : ∀ j < s.batch.blockFaults block s.place, ∀ numRetries, 0 < numRetries →
      passCount ans s.batch numRetries s.place (s.place + j) + kept (s.place + j) ≤
        if leads s.batch.entries s.place (s.place + j) then 1 else 0) :
    (s.attempt ans block).batch.redundancy +
        ∑ j ∈ Finset.Ico s.place (s.place + s.batch.blockFaults block s.place), kept j ≤
      b₀.total (s.place + s.batch.blockFaults block s.place) := by
  have hplace : s.place ≤ s.batch.numCoalescedFaults := h.marks.size ▸ h.place
  have hbound := @ServiceBatch.place_add_blockFaults_le block s.batch s.place hplace
  rw [PassState.attempt_redundancy hplace hquiet, Nat.add_assoc, ← Finset.sum_add_distrib]
  cases hretrying : s.retrying with
  | none =>
    -- a first attempt counts within the instances of its faults
    have hcovered := h.covered hretrying
    rw [hfinished, if_neg Bool.false_ne_true] at hcovered
    rw [b₀.total_add, PassState.numRetries_of_none hretrying, ← h.instances]
    apply Nat.add_le_add hcovered
    apply Finset.sum_le_sum
    intro j hj
    obtain ⟨hij, hj⟩ := Finset.mem_Ico.1 hj
    obtain ⟨m, rfl⟩ := Nat.exists_eq_add_of_le hij
    apply hfirst m (Nat.add_lt_add_iff_left.1 hj)
    rw [h.instances]
    apply hinst
    rw [← h.marks.size]
    exact hj.trans_le hbound
  | some block' =>
    -- a retry counts the first fault of each page at most
    obtain rfl := hblock block' hretrying
    obtain ⟨hpos, hkept⟩ := h.kept block hretrying
    apply (Nat.add_le_add_left _ _).trans hkept
    apply Finset.sum_le_sum
    intro j hj
    obtain ⟨hij, hj⟩ := Finset.mem_Ico.1 hj
    obtain ⟨m, rfl⟩ := Nat.exists_eq_add_of_le hij
    rw [PassState.numRetries_of_some hretrying]
    exact hagain m (Nat.add_lt_add_iff_left.1 hj) _ hpos

section

variable (hquiet : ∀ j < s.batch.blockFaults block s.place,
  CountedOnce ans s.batch.entries s.place outcome (s.place + j))
include hquiet

theorem attempt_le :
    (s.attempt ans block).batch.redundancy ≤
      b₀.total (s.place + s.batch.blockFaults block s.place) := by
  have hle := h.attempt_add_le hfinished hinst hblock (fun _ => 0) hquiet
    (fun _ _ hpos => passCount_zero_le hpos) fun _ _ _ hretry => passCount_retry_le hretry
  rw [Finset.sum_const_zero] at hle
  exact hle

theorem attempt_add_pages_le
    (hstale : ∀ j < s.batch.blockFaults block s.place,
      leads s.batch.entries s.place (s.place + j) = true →
        ans.staleAt s.batch.entries (s.place + j) = false) :
    (s.attempt ans block).batch.redundancy +
        s.batch.pages s.place (s.batch.blockFaults block s.place) ≤
      b₀.total (s.place + s.batch.blockFaults block s.place) := by
  apply h.attempt_add_le hfinished hinst hblock _ hquiet
  · exact fun j hj hpos => (passCount_zero_add hpos (hstale j hj)).le
  · intro j hj numRetries hretry
    rw [passCount_retry_eq_zero hretry (hstale j hj), Nat.zero_add]

end

theorem attempt_again_le (hquiet : ∀ j < s.batch.blockFaults block s.place,
      CountedOnce ans s.batch.entries s.place .lookupAgain (s.place + j)) :
    (s.attempt ans block).batch.redundancy ≤ b₀.total s.place := by
  have hadd := h.attempt_add_pages_le hfinished hinst hblock hquiet fun j hj _ =>
    ((hquiet j hj).again rfl).2.2
  have hpages : s.batch.pages s.place (s.batch.blockFaults block s.place) =
      ∑ j ∈ Finset.Ico s.place (s.place + s.batch.blockFaults block s.place), b₀.instances j := by
    apply Finset.sum_congr rfl
    intro j hj
    obtain ⟨hij, hj⟩ := Finset.mem_Ico.1 hj
    obtain ⟨m, rfl⟩ := Nat.exists_eq_add_of_le hij
    obtain ⟨hlead, hsingle, -⟩ := (hquiet m (Nat.add_lt_add_iff_left.1 hj)).again rfl
    rw [hlead, if_pos rfl, ← h.instances]
    exact hsingle.symm
  rw [b₀.total_add, hpages] at hadd
  exact Nat.le_of_add_le_add_right hadd

theorem pass (hquiet : ∀ j < s.batch.blockFaults block s.place,
      CountedOnce ans s.batch.entries s.place outcome (s.place + j)) :
    RedundancyInv b₀ (s.pass ans block outcome) := by
  have hplace : s.place ≤ s.batch.numCoalescedFaults := h.marks.size ▸ h.place
  have hend := @ServiceBatch.place_add_blockFaults_le block s.batch s.place hplace
  have hmarks : MarksMore s.batch.numCoalescedFaults s.batch (s.attempt ans block).batch :=
    serviceFaultBatchBlockLocked_marksMore _ hplace
  have hmarks₀ : MarksMore b₀.numCoalescedFaults b₀ (s.attempt ans block).batch :=
    h.marks.trans (h.marks.size ▸ hmarks)
  have hinstances : (s.attempt ans block).batch.instances = b₀.instances :=
    serviceFaults_instances.trans h.instances
  have hle := h.attempt_le hfinished hinst hblock hquiet
  rw [h.marks.size] at hend
  cases outcome with
  | done =>
    refine ⟨hmarks₀, hinstances, hend, fun _ => ?_, fun _ hretrying => nomatch hretrying⟩
    show (s.attempt ans block).batch.redundancy ≤ b₀.total (if s.finished then _ else _)
    rw [hfinished, if_neg Bool.false_ne_true]
    exact hle
  | allocRetry =>
    refine ⟨hmarks₀, hinstances, h.place, fun hretrying => (nomatch hretrying), ?_⟩
    rintro block' hretrying
    obtain rfl : block = block' := Option.some.inj hretrying
    refine ⟨Nat.succ_pos _, ?_⟩
    -- the faults of the block are where they were
    have hfaults : (s.attempt ans block).batch.blockFaults block s.place =
        s.batch.blockFaults block s.place := by
      show countWhile ((s.attempt ans block).batch.onBlock block) _ _ = _
      rw [hmarks.onBlock, hmarks.size]
      rfl
    have hpages : (s.attempt ans block).batch.pages s.place = s.batch.pages s.place := by
      funext k
      rw [ServiceBatch.pages, ServiceBatch.pages, hmarks.leads_eq]
    show (s.attempt ans block).batch.redundancy + (s.attempt ans block).batch.pages s.place
      ((s.attempt ans block).batch.blockFaults block s.place) ≤
        b₀.total (s.place + (s.attempt ans block).batch.blockFaults block s.place)
    rw [hfaults, hpages]
    exact h.attempt_add_pages_le hfinished hinst hblock hquiet fun j hj => (hquiet j hj).repeated rfl
  | lookupAgain =>
    refine ⟨hmarks₀, hinstances, h.place, fun _ => ?_, fun _ hretrying => nomatch hretrying⟩
    show (s.attempt ans block).batch.redundancy ≤ b₀.total (if s.finished then _ else _)
    rw [hfinished, if_neg Bool.false_ne_true]
    exact h.attempt_again_le hfinished hinst hblock hquiet
  | failed =>
    refine ⟨hmarks₀, hinstances, h.place, fun _ => ?_, fun _ hretrying => nomatch hretrying⟩
    exact hle.trans (b₀.total_mono hend)

end Pass

/-- The loop goes past `k` faults outside of blocks. -/
theorem advance (h : RedundancyInv b₀ s) (hfinished : s.finished = false) (hretrying : s.retrying = none)
    {b : ServiceBatch} {k : Nat} (hmarks : MarksMore s.batch.numCoalescedFaults s.batch b)
    (hinstances : b.instances = s.batch.instances) (hend : s.place + k ≤ s.batch.numCoalescedFaults)
    (hcount : b.redundancy ≤ s.batch.redundancy +
      ∑ j ∈ Finset.Ico s.place (s.place + k), s.batch.instances j) :
    RedundancyInv b₀ { s with batch := b, place := s.place + k } where
  marks := h.marks.trans (h.marks.size ▸ hmarks)
  instances := hinstances.trans h.instances
  place := h.marks.size ▸ hend
  covered := fun _ => by
    have hcovered := h.covered hretrying
    dsimp only
    rw [hfinished, if_neg Bool.false_ne_true] at hcovered ⊢
    rw [b₀.total_add, ← h.instances]
    exact hcount.trans (Nat.add_le_add_right hcovered _)
  kept := fun block hsome => by
    rw [hretrying] at hsome
    cases hsome

end RedundancyInv

namespace ServiceBatch

variable (b : ServiceBatch) (i : Nat)

theorem serviceFaultBatchFatal_counts (status : NvStatus) (mode : CancelVaMode) :
    (b.serviceFaultBatchFatal i status mode).redundancy = b.redundancy ∧
      (b.serviceFaultBatchFatal i status mode).instances = b.instances := by
  have hmark : ∀ b₁ : ServiceBatch, (if (b₁.entries i).accessType = .prefetch then
      b₁.markFaultInvalidPrefetch i else b₁.markFaultFatal i status.toFatalReason mode).redundancy =
        b₁.redundancy ∧ (if (b₁.entries i).accessType = .prefetch then
      b₁.markFaultInvalidPrefetch i else b₁.markFaultFatal i status.toFatalReason mode).instances =
        b₁.instances := by
    intro b₁
    split
    · exact ⟨rfl, instances_markFaultInvalidPrefetch⟩
    · exact ⟨rfl, instances_markFaultFatal⟩
  rw [serviceFaultBatchFatal, (hmark _).1, (hmark _).2]
  split
  · exact ⟨redundancy_duplicateFlags, instances_duplicateFlags⟩
  · exact ⟨rfl, rfl⟩

theorem serviceFaultBatchFatalNotify_counts (status : NvStatus) (mode : CancelVaMode) :
    (b.serviceFaultBatchFatalNotify i status mode).redundancy =
        b.redundancy + b.noted 0 i (!leads b.entries 0 i) ∧
      (b.serviceFaultBatchFatalNotify i status mode).instances = b.instances := by
  obtain ⟨hcount, hinstances⟩ := b.serviceFaultBatchFatal_counts i status mode
  refine ⟨?_, hinstances⟩
  rw [serviceFaultBatchFatalNotify, redundancy_updateBatch, hcount, noted, hinstances, leads,
    Bool.not_not]
  rfl

/-- What is counted when `service_fault_batch_ats` comes to the fault. -/
def visitCount (b : ServiceBatch) (i : Nat) : AtsVisit → Nat
  | .first => b.noted 0 i false
  | .next | .noVma => b.noted 0 i (!leads b.entries 0 i)
  | .nextThenFirst => b.noted 0 i (!leads b.entries 0 i) + b.noted 0 i false
  | .passedOver => 0

theorem countNext_redundancy :
    (b.countNext i).redundancy = b.redundancy + b.noted 0 i (!leads b.entries 0 i) := by
  rw [countNext, redundancy_updateBatch, leads, Bool.not_not]

theorem visitAts_counts (visit : AtsVisit) :
    (b.visitAts i visit).redundancy = b.redundancy + b.visitCount i visit ∧
      (b.visitAts i visit).instances = b.instances := by
  cases visit with
  | first => exact ⟨redundancy_updateBatch, rfl⟩
  | next => exact ⟨b.countNext_redundancy i, rfl⟩
  | nextThenFirst =>
    refine ⟨?_, rfl⟩
    rw [visitAts, redundancy_updateBatch, countNext_redundancy, Nat.add_assoc]
    rfl
  | passedOver => exact ⟨rfl, rfl⟩
  | noVma => exact b.serviceFaultBatchFatalNotify_counts i _ _

theorem markAtsFault_counts (out : AtsOutcome) :
    (b.markAtsFault out i).redundancy = b.redundancy + b.visitCount i (out.visit i) ∧
      (b.markAtsFault out i).instances = b.instances := by
  rw [markAtsFault, ← (b.visitAts_counts i (out.visit i)).1, ← (b.visitAts_counts i (out.visit i)).2]
  split
  · exact serviceFaultBatchFatal_counts _ i _ _
  · exact ⟨rfl, rfl⟩

variable {b} {i}

theorem Single.noted_eq_zero (h : b.Single i) :
    b.noted 0 i (!leads b.entries 0 i) = 0 ∧ b.noted 0 i false = 0 := by
  rw [noted, noted, h.1, h.2]
  exact ⟨rfl, rfl⟩

theorem Single.visitCount (h : b.Single i) (visit : AtsVisit) : b.visitCount i visit = 0 := by
  obtain ⟨hnext, hfirst⟩ := h.noted_eq_zero
  cases visit <;> simp [ServiceBatch.visitCount, hnext, hfirst]

theorem visitCount_le {visit : AtsVisit} (honce : visit = .nextThenFirst → b.Single i) :
    b.visitCount i visit ≤ b.instances i := by
  cases visit with
  | first | next | noVma => exact noted_le
  | nextThenFirst =>
    rw [(honce rfl).visitCount]
    exact Nat.zero_le _
  | passedOver => exact Nat.zero_le _

/-- `service_fault_batch_ats` counts for each fault what it counts when it comes there. -/
theorem markAts_counts {n : Nat} (out : AtsOutcome) {k : Nat} (hn : i + k ≤ n) (bound : Nat → Nat)
    (hvisit : ∀ j < k, b.visitCount (i + j) (out.visit (i + j)) ≤ bound (i + j)) :
    (b.markAts out k i).redundancy ≤ b.redundancy + ∑ j ∈ Finset.Ico i (i + k), bound j +
        (if out.ahead && i + k < b.numCoalescedFaults then
          b.noted 0 (i + k) (!leads b.entries 0 (i + k)) else 0) ∧
      (b.markAts out k i).instances = b.instances := by
  induction k generalizing b i with
  | zero =>
    rw [markAts]
    simp only [Nat.add_zero, Finset.Ico_self, Finset.sum_empty]
    split
    · exact ⟨(b.countNext_redundancy i).le, rfl⟩
    · exact ⟨le_rfl, rfl⟩
  | succ k ih =>
    obtain ⟨hcount, hinstances⟩ := b.markAtsFault_counts i out
    have hmarks := b.markAtsFault_marksMore out (by omega : i < n)
    -- what is counted for the faults behind this one is seen before it is marked
    have hnoted : (b.markAtsFault out i).noted = b.noted := by
      funext numRetries j dup
      rw [noted, hinstances, noted]
    have hvisits : (b.markAtsFault out i).visitCount = b.visitCount := by
      funext j visit
      cases visit <;> simp only [ServiceBatch.visitCount, hnoted, hmarks.leads_eq]
    have hrest := @ih (b.markAtsFault out i) (i + 1) (by omega) fun j hj => by
      rw [hvisits, Nat.add_right_comm i 1 j]
      exact hvisit (j + 1) (Nat.succ_lt_succ hj)
    rw [hmarks.size, hnoted, hmarks.leads_eq, Nat.add_right_comm i 1 k, hcount, hinstances] at hrest
    have hsum : ∑ j ∈ Finset.Ico i (i + k + 1), bound j =
        bound i + ∑ j ∈ Finset.Ico (i + 1) (i + k + 1), bound j :=
      Finset.sum_eq_sum_Ico_succ_bot (by omega) bound
    have hbound : b.visitCount i (out.visit i) ≤ bound i := hvisit 0 (Nat.succ_pos k)
    rw [← Nat.add_assoc i k 1, hsum]
    exact ⟨hrest.1.trans (by omega), hrest.2⟩

end ServiceBatch

theorem RedundancyInv.ats (h : RedundancyInv b₀ s) (hfinished : s.finished = false)
    (hretrying : s.retrying = none) {out : AtsOutcome} {k : Nat}
    (hk : s.batch.atsFaults out s.place = k) (hend : s.place + k ≤ s.batch.numCoalescedFaults)
    (honce : CountsOnce s (.ats out)) :
    RedundancyInv b₀ ({ s with batch := s.batch.markAts out k s.place }.settle
      out.status.passOutcome none (s.place + k)) := by
  have hmarks := s.batch.markAts_marksMore out hend
  have hcounted : s.batch.atsCounted out s.place =
      k + if out.ahead && s.place + k < s.batch.numCoalescedFaults then 1 else 0 := by
    rw [ServiceBatch.atsCounted, hk]
  obtain ⟨hcount, hinstances⟩ := ServiceBatch.markAts_counts out hend s.batch.instances
    fun j hj => ServiceBatch.visitCount_le fun hvisit => honce j (by omega) (.inl hvisit)
  cases hout : out.status.passOutcome with
  | done =>
    -- nothing was counted ahead, since the service succeeded
    rw [AtsOutcome.ahead, NvStatus.passOutcome_eq_done.1 hout] at hcount
    simp only [ne_eq, not_true_eq_false, decide_false, Bool.and_false, Bool.false_and,
      Bool.false_eq_true, if_false, Nat.add_zero] at hcount
    exact h.advance hfinished hretrying hmarks hinstances hend hcount
  | allocRetry => exact absurd hout out.status.passOutcome_ne_allocRetry
  | lookupAgain =>
    have hsingle := fun j hj => honce j hj (.inr hout)
    obtain ⟨hzero, -⟩ := ServiceBatch.markAts_counts out hend (fun _ => 0) fun j hj =>
      ((hsingle j (by omega)).visitCount _).le
    show RedundancyInv b₀ { s with batch := s.batch.markAts out k s.place, place := s.place + 0 }
    apply h.advance hfinished hretrying hmarks hinstances (h.marks.size ▸ h.place)
    rw [Finset.sum_const_zero, Nat.add_zero] at hzero
    apply hzero.trans
    rw [Nat.add_zero, Finset.Ico_self, Finset.sum_empty]
    split
    next hahead =>
      rw [if_pos hahead] at hcounted
      rw [(hsingle k (by omega)).noted_eq_zero.1]
    next => exact le_rfl
  | failed =>
    -- the loop ends, and has counted at most one fault behind the `k` ones
    refine ⟨h.marks.trans (h.marks.size ▸ hmarks), hinstances.trans h.instances, h.place, fun _ => ?_,
      fun block hsome => ?_⟩
    · have hcovered := h.covered hretrying
      rw [hfinished, if_neg Bool.false_ne_true] at hcovered
      show _ ≤ b₀.total b₀.numCoalescedFaults
      have hall : s.batch.redundancy + ∑ j ∈ Finset.Ico s.place (s.place + k), s.batch.instances j ≤
          b₀.total (s.place + k) := by
        rw [b₀.total_add, ← h.instances]
        exact Nat.add_le_add_right hcovered _
      rw [h.marks.size] at hcount hend
      apply hcount.trans
      split
      next hahead =>
        have hlt : s.place + k < b₀.numCoalescedFaults := by simpa using (Bool.and_eq_true_iff.1 hahead).2
        apply le_trans _ (b₀.total_mono (Nat.succ_le_of_lt hlt))
        rw [← Nat.add_one, b₀.total_add, Nat.Ico_succ_singleton, Finset.sum_singleton, ← h.instances]
        exact Nat.add_le_add hall noted_le
      next => exact hall.trans (b₀.total_mono hend)
    · rw [PassState.settle, hretrying] at hsome
      cases hsome

theorem passStep_redundancyInv (hinst : ∀ j < b₀.numCoalescedFaults, 0 < b₀.instances j)
    {label : PassLabel} {t : PassState} (h : RedundancyInv b₀ s) (hguard : CountsOnce s label)
    (hstep : passStep s label = some t) : RedundancyInv b₀ t := by
  unfold passStep at hstep
  split at hstep
  · cases hstep
  next hgo =>
    rw [not_or, Bool.not_eq_true, Nat.not_le] at hgo
    obtain ⟨hfinished, hplace⟩ := hgo
    have hone : ∑ j ∈ Finset.Ico s.place (s.place + 1), s.batch.instances j =
        s.batch.instances s.place := by simp
    cases label with
    -- nothing is counted for fatal and ignored faults
    | fatal =>
      dsimp only at hstep
      split at hstep
      next hcond =>
        cases hstep
        exact h.advance hfinished (Option.isNone_iff_eq_none.1 hcond.1)
          (noteFatal_marksMore hplace hcond.2) rfl hplace (Nat.le_add_right _ _)
      next => cases hstep
    | ignored =>
      dsimp only at hstep
      split at hstep
      next hcond =>
        cases hstep
        exact h.advance hfinished (Option.isNone_iff_eq_none.1 hcond.1) (.refl _) rfl hplace
          (Nat.le_add_right _ _)
      next => cases hstep
    -- a cancelled fault counts its duplicates
    | cancel status =>
      dsimp only at hstep
      split at hstep
      next hcond =>
        cases hstep
        obtain ⟨hcount, hinstances⟩ := s.batch.serviceFaultBatchFatalNotify_counts s.place status .all
        apply h.advance hfinished (Option.isNone_iff_eq_none.1 hcond.1)
          (s.batch.serviceFaultBatchFatalNotify_marksMore hplace _ _) hinstances hplace
        rw [hone, hcount]
        exact Nat.add_le_add_left noted_le _
      next => cases hstep
    | ats out =>
      dsimp only at hstep
      split at hstep
      next hcond =>
        have hretrying := Option.isNone_iff_eq_none.1 hcond.1
        obtain ⟨k, hk⟩ : ∃ k, s.batch.atsFaults out s.place = k := ⟨_, rfl⟩
        -- ATS stays in the batch
        have hend : s.place + k ≤ s.batch.numCoalescedFaults := by
          have hle : s.batch.atsFaults out s.place ≤
              min (out.more + 1) (s.batch.numCoalescedFaults - s.place) := countWhile_le
          omega
        rw [hk] at hstep
        cases hstep
        exact h.ats hfinished hretrying hk hend hguard
      next => cases hstep
    | pass ans block outcome =>
      dsimp only at hstep
      split at hstep
      next hcond =>
        cases hstep
        exact h.pass hfinished hinst hcond.2.2.1 hguard
      next => cases hstep

end Run

/-! ## Main result -/

/-- However the batch is divided into blocks, whatever the checks answer on each pass and however
often blocks are serviced again: as long as every pass counts its faults once, duplicate and stale
faults together are at most the faults of the batch. -/
theorem redundancy_le_cached (batch : ServiceBatch) (numCachedFaults : Nat)
    (hinst : ∀ j < batch.numCoalescedFaults, 1 ≤ (batch.entries j).numInstances)
    (hsum : ∑ j ∈ Finset.range batch.numCoalescedFaults, (batch.entries j).numInstances =
      numCachedFaults)
    (hreset : batch.numDuplicateFaults = 0 ∧ batch.numStaleFaults = 0)
    (labels : List PassLabel) (s : PassState)
    (hrun : passMachine.run { batch := batch } labels = some s)
    (honce : passMachine.Meets CountsOnce { batch := batch } labels) :
    s.batch.numDuplicateFaults + s.batch.numStaleFaults ≤ numCachedFaults := by
  have hinit : RedundancyInv batch { batch := batch } := by
    refine ⟨.refl _, rfl, Nat.zero_le _, fun _ => ?_, fun _ h => nomatch h⟩
    show batch.numDuplicateFaults + batch.numStaleFaults ≤ _
    rw [hreset.1, hreset.2]
    exact Nat.zero_le _
  have hinv := Machine.run_invariant passMachine
    (fun _ _ _ h hguard hstep => passStep_redundancyInv hinst h hguard hstep) hinit honce hrun
  have htotal : batch.total batch.numCoalescedFaults = numCachedFaults := by
    rw [← hsum, Finset.range_eq_Ico]
    rfl
  rw [← htotal]
  have hplace : s.place ≤ s.batch.numCoalescedFaults := hinv.marks.size ▸ hinv.place
  cases hretrying : s.retrying with
  | none =>
    apply (hinv.covered hretrying).trans
    apply batch.total_mono
    split
    · exact le_rfl
    · exact hinv.place
  | some block =>
    -- between two attempts the block has counts to spare
    have hkept := (hinv.kept block hretrying).2
    apply (Nat.le_add_right _ _).trans (hkept.trans (batch.total_mono _))
    rw [← hinv.marks.size]
    exact s.batch.place_add_blockFaults_le hplace

/-- Read faults on the first two pages, with one instance each. -/
def twoPageBatch : ServiceBatch where
  entries j := { faultAddress := j * 4096, vaSpace := some 0, numInstances := 1,
                 accessTypeMask := AccessType.read.maskBit }
  numCoalescedFaults := 2

/-- Everything is permitted; on the places in the list the access is there already. -/
def authorizedAt (places : List Nat) : BlockAnswers :=
  { firstBlockAnswers.block with gpuAuthorized := fun i _ => decide (i ∈ places) }

/-- A pass that is repeated and a pass that finds both faults mapped: each of them is counted. -/
theorem retried_block_within_batch :
    ∃ s, passMachine.run { batch := twoPageBatch }
        [.pass (authorizedAt []) firstBlock .allocRetry, .pass (authorizedAt [0, 1]) firstBlock .done] =
          some s ∧
      s.batch.numStaleFaults = 2 ∧ s.batch.numDuplicateFaults + s.batch.numStaleFaults ≤ 2 := by
  refine ⟨_, rfl, by decide +kernel, ?_⟩
  exact redundancy_le_cached twoPageBatch 2 (fun _ _ => le_rfl) rfl ⟨rfl, rfl⟩
    [.pass (authorizedAt []) firstBlock .allocRetry, .pass (authorizedAt [0, 1]) firstBlock .done] _
    rfl (by decide)

/-- Two faults on the first page: reads and writes of one engine, and a read of another one. -/
def writeBeforeRead : ServiceBatch where
  entries j :=
    if j = 0 then
      { faultAddress := 0, vaSpace := some 0, accessType := .write, numInstances := 2,
        accessTypeMask := AccessType.read.maskBit ||| AccessType.write.maskBit }
    else
      { faultAddress := 0, vaSpace := some 0, numInstances := 1,
        accessTypeMask := AccessType.read.maskBit }
  numCoalescedFaults := 2

/-- The range permits reads only, and the pages are mapped for them. -/
def mappedReadOnly : BlockAnswers :=
  { readOnlyRange with gpuAuthorized := fun _ prot => decide (prot ≤ .readOnly) }

/-- With two allocation retries, the mapped one of two faults is counted as stale three times.
Without any, the reads behind a denied write are counted as stale, and so is the fault that repeats
it, which is counted as a duplicate as well: four of three. -/
theorem stale_faults_counted_again :
    (∃ s, passMachine.run { batch := twoPageBatch } [.pass (authorizedAt [0]) firstBlock .allocRetry,
          .pass (authorizedAt [0]) firstBlock .allocRetry, .pass (authorizedAt [0]) firstBlock .done] =
            some s ∧ s.place = twoPageBatch.numCoalescedFaults ∧
        ∑ j ∈ Finset.range twoPageBatch.numCoalescedFaults, (twoPageBatch.entries j).numInstances = 2 ∧
        s.batch.numDuplicateFaults + s.batch.numStaleFaults = 3) ∧
      ∃ s, passMachine.run { batch := writeBeforeRead } [.pass mappedReadOnly onePageBlock .done] =
            some s ∧ s.place = writeBeforeRead.numCoalescedFaults ∧
        ∑ j ∈ Finset.range writeBeforeRead.numCoalescedFaults,
          (writeBeforeRead.entries j).numInstances = 3 ∧
        s.batch.numDuplicateFaults + s.batch.numStaleFaults = 4 := by
  constructor
  · exact ⟨_, (Option.some_get (by decide +kernel)).symm, by decide +kernel, rfl, by decide +kernel⟩
  · exact ⟨_, (Option.some_get (by decide +kernel)).symm, by decide +kernel, rfl, by decide +kernel⟩

end FaultMesh
