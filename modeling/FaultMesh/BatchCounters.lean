import FaultMesh.BatchRefinement
import FaultMesh.ServiceLoop

/-!
# The counters of a batch

Servicing a batch counts its duplicate, stale, invalid prefetch and throttled faults, and the
service loop reads the counters afterwards: to choose the mode of the flush behind the batch, and to
count throttled batches. The serial path counts fault by fault. The workers do not write to the
batch, so that the parallel path counts nothing.
-/

namespace FaultMesh

open ServiceBatch

/-! ## The counters and their order -/

/-- The counters that servicing leaves in `uvm_fault_service_batch_context_t`. -/
@[ext]
structure BatchCounters where
  numDuplicateFaults : Nat
  numStaleFaults : Nat
  numInvalidPrefetchFaults : Nat
  hasThrottledFaults : Bool
  deriving DecidableEq, Repr

namespace BatchCounters

instance : PartialOrder BatchCounters :=
  PartialOrder.lift
    (fun c => (c.numDuplicateFaults, c.numStaleFaults, c.numInvalidPrefetchFaults,
      c.hasThrottledFaults))
    (fun c c' h => by
      simp only [Prod.mk.injEq] at h
      exact BatchCounters.ext h.1 h.2.1 h.2.2.1 h.2.2.2)

theorem le_iff {c c' : BatchCounters} : c ≤ c' ↔
    c.numDuplicateFaults ≤ c'.numDuplicateFaults ∧ c.numStaleFaults ≤ c'.numStaleFaults ∧
      c.numInvalidPrefetchFaults ≤ c'.numInvalidPrefetchFaults ∧
        c.hasThrottledFaults ≤ c'.hasThrottledFaults :=
  Iff.rfl

def into (c : BatchCounters) (bc : BatchContext) : BatchContext :=
  { bc with
    numDuplicateFaults := c.numDuplicateFaults
    numStaleFaults := c.numStaleFaults
    numInvalidPrefetchFaults := c.numInvalidPrefetchFaults
    hasThrottledFaults := c.hasThrottledFaults }

end BatchCounters

def ServiceBatch.counters (b : ServiceBatch) : BatchCounters where
  numDuplicateFaults := b.numDuplicateFaults
  numStaleFaults := b.numStaleFaults
  numInvalidPrefetchFaults := b.numInvalidPrefetchFaults
  hasThrottledFaults := b.hasThrottledFaults

theorem eq_iff_of_le_of_le {α : Type} [PartialOrder α] {a b c : α} (hab : a ≤ b) (hbc : b ≤ c) :
    c = a ↔ b = a ∧ c = b := by
  constructor
  · rintro rfl
    have hb := le_antisymm hbc hab
    exact ⟨hb, hb.symm⟩
  · rintro ⟨rfl, rfl⟩
    rfl

/-! ## What the marking functions count -/

namespace ServiceBatch

variable (b : ServiceBatch) (i : Nat)

@[simp] theorem counters_markFaultFatal (reason : FatalReason) (mode : CancelVaMode) :
    (b.markFaultFatal i reason mode).counters = b.counters := rfl

theorem counters_le_updateBatch (dup : Bool) : b.counters ≤ (b.updateBatch i dup).counters :=
  BatchCounters.le_iff.2 ⟨Nat.le_add_right _ _, le_rfl, le_rfl, le_rfl⟩

theorem counters_le_markFaultInvalidPrefetch : b.counters ≤ (b.markFaultInvalidPrefetch i).counters :=
  BatchCounters.le_iff.2 ⟨le_rfl, le_rfl, Nat.le_add_right _ _, le_rfl⟩

theorem counters_le_markFaultThrottled : b.counters ≤ (b.markFaultThrottled i).counters :=
  BatchCounters.le_iff.2 ⟨le_rfl, le_rfl, le_rfl, Bool.le_true _⟩

theorem counters_le_accountStaleFault : b.counters ≤ b.accountStaleFault.counters :=
  BatchCounters.le_iff.2 ⟨le_rfl, Nat.le_succ _, le_rfl, le_rfl⟩

theorem counters_le_duplicateFlags : b.counters ≤ (b.duplicateFlags i).counters := by
  have hfirst : b.counters ≤ (if (b.entries (i - 1)).isInvalidPrefetch then
      b.markFaultInvalidPrefetch i else b).counters := by
    split
    · exact b.counters_le_markFaultInvalidPrefetch i
    · exact le_rfl
  rw [duplicateFlags]
  split
  · exact hfirst.trans (counters_le_markFaultThrottled _ i)
  · exact hfirst

theorem counters_le_noteFault (numRetries : Nat) (dup : Bool) :
    b.counters ≤ (b.noteFault numRetries i dup).counters := by
  have hcount : ∀ b₁ : ServiceBatch,
      b₁.counters ≤ (if numRetries = 0 then b₁.updateBatch i dup else b₁).counters := by
    intro b₁
    split
    · exact b₁.counters_le_updateBatch i dup
    · exact le_rfl
  unfold noteFault
  cases dup with
  | false => exact hcount (b.setEntry i _)
  | true => exact (hcount (b.setEntry i _)).trans (counters_le_duplicateFlags _ i)

variable {b i}

theorem counters_noteFault_eq_iff {dup : Bool} (hinst : 0 < (b.entries i).numInstances) :
    (b.noteFault 0 i dup).counters = b.counters ↔ dup = false ∧ (b.entries i).numInstances = 1 := by
  have hself : ((b.setEntry i { b.entries i with
      isThrottled := false, isInvalidPrefetch := false }).entries i).numInstances =
        (b.entries i).numInstances := by
    simp [setEntry]
  cases dup with
  | false =>
    have hdup : (b.noteFault 0 i false).counters =
        { b.counters with
          numDuplicateFaults := b.numDuplicateFaults + ((b.entries i).numInstances - 1) } := by
      rw [← hself]
      rfl
    rw [hdup, BatchCounters.ext_iff]
    simp only [counters, and_true, true_and]
    omega
  | true =>
    -- the count of duplicates goes up, whatever the marks add
    have hflags := BatchCounters.le_iff.1 (counters_le_duplicateFlags ((b.setEntry i
      { b.entries i with isThrottled := false, isInvalidPrefetch := false }).updateBatch i true) i)
    have hup : b.numDuplicateFaults + (b.entries i).numInstances ≤
        (b.noteFault 0 i true).counters.numDuplicateFaults := by
      rw [← hself]
      exact hflags.1
    simp only [Bool.true_eq_false, false_and, iff_false]
    intro heq
    rw [heq] at hup
    have hcount : b.counters.numDuplicateFaults = b.numDuplicateFaults := rfl
    omega

end ServiceBatch

/-! ## The serial loop over the faults of a block -/

/-- The access type with which `check_fault_access_permissions` lets the fault at place `i` be
serviced: its own, or else a pending read. -/
def BlockAnswers.servedAccess (ans : BlockAnswers) (entries : Nat → FaultEntry) (i : Nat) :
    Option AccessType :=
  let entry := entries i
  if ans.logicalPermissions i entry.accessType (ans.migratable i) = .ok then some entry.accessType
  else if .read < entry.accessType ∧ accessTypeMaskTest entry.accessTypeMask .read ∧
      ans.logicalPermissions i .read (ans.migratable i) = .ok then some .read
  else none

/-- The checks on the fault at place `i` count nothing: it is no prefetch that is denied, and its
access is neither there already nor throttled. -/
def BlockAnswers.ChecksUncounted (ans : BlockAnswers) (entries : Nat → FaultEntry) (i : Nat) : Prop :=
  match ans.servedAccess entries i with
  | none => (entries i).accessType ≠ .prefetch
  | some access => ans.gpuAuthorized i access.toProt = false ∧ ans.thrashingHint i ≠ .throttle

/-- Nothing is counted for the fault at place `i`: it is the only one on its page, with one
instance, and the checks count nothing. -/
structure Uncounted (ans : BlockAnswers) (entries : Nat → FaultEntry) (first i : Nat) : Prop where
  leads : leads entries first i = true
  single : (entries i).numInstances = 1
  checks : ans.ChecksUncounted entries i

section Block

variable {ans : BlockAnswers} {block : VaBlock} {s : SerialLoop} {i first : Nat} {b : ServiceBatch}

theorem checkFaultAccessPermissions_fst (numRetries : Nat) :
    (checkFaultAccessPermissions ans numRetries b i).1 = ans.servedAccess b.entries i := by
  unfold checkFaultAccessPermissions BlockAnswers.servedAccess
  dsimp only
  split
  · rfl
  · split
    next hprefetch =>
      -- a prefetch is no write that could be cut down to a read
      have hread : ¬ AccessType.read < (b.entries i).accessType := by
        rw [hprefetch]
        decide
      simp [hread]
    next => split_ifs <;> simp_all

theorem checkFaultAccessPermissions_counters (hinst : 0 < (b.entries i).numInstances) :
    (checkFaultAccessPermissions ans 0 b i).2.counters = b.counters ↔
      (ans.servedAccess b.entries i = none → (b.entries i).accessType ≠ .prefetch) := by
  rw [← @checkFaultAccessPermissions_fst ans i b 0]
  unfold checkFaultAccessPermissions
  dsimp only
  split
  · simp
  · split
    next hprefetch =>
      simp only [if_true, hprefetch, ne_eq, not_true_eq_false, imp_false, iff_false]
      intro heq
      have hcount := congrArg BatchCounters.numInvalidPrefetchFaults heq
      simp only [counters, markFaultInvalidPrefetch] at hcount
      omega
    next hprefetch => split_ifs <;> simp [hprefetch]

theorem counters_le_checkFaultAccessPermissions (numRetries : Nat) :
    b.counters ≤ (checkFaultAccessPermissions ans numRetries b i).2.counters := by
  unfold checkFaultAccessPermissions
  dsimp only
  split_ifs
  · exact le_rfl
  · exact b.counters_le_markFaultInvalidPrefetch i
  all_goals exact le_rfl

theorem SerialLoop.counters_le_serviceChecked (s : SerialLoop) :
    s.batch.counters ≤ (s.serviceChecked ans block i).batch.counters := by
  apply serviceChecked_rule (P := fun b => s.batch.counters ≤ b.counters)
  · exact counters_le_checkFaultAccessPermissions s.ctx.numRetries
  · exact fun b hb => hb.trans b.counters_le_accountStaleFault
  · exact fun b hb => hb.trans (b.counters_le_markFaultThrottled i)

theorem SerialLoop.serviceChecked_counters (hretry : s.ctx.numRetries = 0)
    (hthrottled : s.batch.hasThrottledFaults = false)
    (hinst : 0 < (s.batch.entries i).numInstances) :
    (s.serviceChecked ans block i).batch.counters = s.batch.counters ↔
      ans.ChecksUncounted s.batch.entries i := by
  have hfst := @checkFaultAccessPermissions_fst ans i s.batch 0
  have hsnd := @checkFaultAccessPermissions_counters ans i s.batch hinst
  rw [serviceChecked, hretry, BlockAnswers.ChecksUncounted]
  cases hcheck : checkFaultAccessPermissions ans 0 s.batch i with
  | mk served b =>
    rw [hcheck] at hfst hsnd
    cases served with
    | none =>
      rw [← hfst] at hsnd ⊢
      simpa using hsnd
    | some access =>
      rw [← hfst] at hsnd ⊢
      have hb : b.counters = s.batch.counters := hsnd.2 (by simp)
      have hb' : b.hasThrottledFaults = false :=
        (congrArg BatchCounters.hasThrottledFaults hb).trans hthrottled
      dsimp only
      rw [← hb]
      split
      next hauth =>
        -- one more stale fault
        simp only [hauth, Bool.true_eq_false, false_and, iff_false]
        intro heq
        have hcount := congrArg BatchCounters.numStaleFaults heq
        exact absurd hcount (Nat.succ_ne_self _)
      next hauth =>
        split
        next hthrottle =>
          simp only [hthrottle, ne_eq, not_true_eq_false, and_false, iff_false]
          intro heq
          have hflag : true = b.hasThrottledFaults :=
            congrArg BatchCounters.hasThrottledFaults heq
          rw [hb'] at hflag
          cases hflag
        next hthrottle => exact iff_of_true rfl ⟨Bool.not_eq_true _ ▸ hauth, hthrottle⟩

/-! A step of the loop changes the entry at its place only, and of that one the marks. -/

theorem ServiceBatch.noteFault_entries_of_ne {numRetries k : Nat} {dup : Bool} (hk : k ≠ i) :
    (b.noteFault numRetries i dup).entries k = b.entries k := by
  unfold noteFault duplicateFlags
  dsimp only
  split_ifs <;>
    simp [setEntry, updateBatch, markFaultInvalidPrefetch, markFaultThrottled, hk]

theorem checkFaultAccessPermissions_entries_of_ne {numRetries k : Nat} (hk : k ≠ i) :
    (checkFaultAccessPermissions ans numRetries b i).2.entries k = b.entries k := by
  unfold checkFaultAccessPermissions
  dsimp only
  split_ifs <;>
    simp [setEntry, markFaultInvalidPrefetch, markFaultFatal, hk]

theorem SerialLoop.serviceChecked_entries_of_ne {k : Nat} (hk : k ≠ i) :
    (s.serviceChecked ans block i).batch.entries k = s.batch.entries k := by
  apply serviceChecked_rule (P := fun b => b.entries k = s.batch.entries k)
  · exact checkFaultAccessPermissions_entries_of_ne hk
  · exact fun _ hb => hb
  · exact fun b hb => by simpa [markFaultThrottled, setEntry, hk] using hb

theorem serviceFault_entries_of_ne {k : Nat} (hk : k ≠ i) :
    (serviceFault ans block first i s).batch.entries k = s.batch.entries k := by
  rw [serviceFault]
  split
  · exact noteFault_entries_of_ne hk
  · rw [SerialLoop.serviceChecked_entries_of_ne hk]
    exact noteFault_entries_of_ne hk

theorem SerialLoop.servicePage_numRetries (access : AccessType) :
    (s.servicePage ans block i access).ctx.numRetries = s.ctx.numRetries := by
  unfold servicePage
  dsimp only
  split_ifs <;> rfl

theorem serviceFault_numRetries :
    (serviceFault ans block first i s).ctx.numRetries = s.ctx.numRetries := by
  rw [serviceFault]
  split
  · rfl
  · rw [SerialLoop.serviceChecked]
    split
    · rfl
    · split
      · rfl
      · split
        · rfl
        · rw [SerialLoop.servicePage_numRetries]

theorem counters_le_serviceFault :
    s.batch.counters ≤ (serviceFault ans block first i s).batch.counters := by
  have hnote := s.batch.counters_le_noteFault i s.ctx.numRetries
    (first < i && checkFaultEntryDuplicate (s.batch.entries i) (s.batch.entries (i - 1)))
  rw [serviceFault]
  split
  · exact hnote
  · exact hnote.trans (SerialLoop.counters_le_serviceChecked { s with batch := _ })

/-- On the first pass the counters stay exactly if nothing is counted for the fault. -/
theorem serviceFault_counters_eq_iff (hretry : s.ctx.numRetries = 0)
    (hthrottled : s.batch.hasThrottledFaults = false)
    (hinst : 0 < (s.batch.entries i).numInstances) :
    (serviceFault ans block first i s).batch.counters = s.batch.counters ↔
      Uncounted ans s.batch.entries first i := by
  cases hdup : first < i && checkFaultEntryDuplicate (s.batch.entries i) (s.batch.entries (i - 1)) with
  | true =>
    -- a duplicate is counted, and nothing takes that back
    have hnote : s.batch.counters < (s.batch.noteFault 0 i true).counters := by
      apply lt_of_le_of_ne (s.batch.counters_le_noteFault i 0 true)
      intro heq
      exact Bool.noConfusion ((ServiceBatch.counters_noteFault_eq_iff hinst).1 heq.symm).1
    have hrest : (s.batch.noteFault 0 i true).counters ≤
        (serviceFault ans block first i s).batch.counters := by
      rw [serviceFault]
      dsimp only
      rw [hdup, hretry]
      split
      · exact le_rfl
      · exact SerialLoop.counters_le_serviceChecked { s with batch := _ }
    apply iff_of_false (hnote.trans_le hrest).ne'
    intro h
    have hleads := h.leads
    rw [leads, hdup] at hleads
    cases hleads
  | false =>
    -- otherwise the instances and the checks decide
    obtain ⟨s₁, hs₁⟩ : ∃ s₁ : SerialLoop, s₁ = { s with batch := s.batch.noteFault 0 i false } :=
      ⟨_, rfl⟩
    have hstep : serviceFault ans block first i s = s₁.serviceChecked ans block i := by
      rw [serviceFault]
      dsimp only
      rw [hdup, hretry, Bool.false_and, if_neg Bool.false_ne_true, hs₁]
    have hbatch : s₁.batch = s.batch.noteFault 0 i false := by rw [hs₁]
    have hentry : s₁.batch.entries i =
        { s.batch.entries i with isThrottled := false, isInvalidPrefetch := false } := by
      rw [hbatch]
      exact Function.update_self _ _ _
    have hchecks : ans.ChecksUncounted s₁.batch.entries i ↔
        ans.ChecksUncounted s.batch.entries i := by
      simp only [BlockAnswers.ChecksUncounted, BlockAnswers.servedAccess, hentry]
    have hnote : s₁.batch.counters = s.batch.counters ↔ _ :=
      hbatch ▸ ServiceBatch.counters_noteFault_eq_iff hinst
    have hle : s.batch.counters ≤ s₁.batch.counters :=
      hbatch ▸ s.batch.counters_le_noteFault i 0 false
    rw [hstep, eq_iff_of_le_of_le hle s₁.counters_le_serviceChecked, hnote,
      SerialLoop.serviceChecked_counters (by rw [hs₁]; exact hretry) (by rw [hbatch]; exact hthrottled)
        (by rw [hentry]; exact hinst), hchecks]
    exact ⟨fun h => ⟨by rw [leads, hdup]; rfl, h.1.2, h.2⟩,
      fun h => ⟨⟨rfl, h.single⟩, h.checks⟩⟩

theorem counters_le_serviceFaults {fuel : Nat} :
    s.batch.counters ≤ (serviceFaults ans block first fuel i s).batch.counters := by
  induction fuel generalizing i s with
  | zero => exact le_rfl
  | succ fuel ih =>
    rw [serviceFaults]
    split
    · exact counters_le_serviceFault.trans ih
    · exact le_rfl

/-- The loop takes the fault at place `j` for one of the block. -/
def ServiceBatch.onBlock (b : ServiceBatch) (block : VaBlock) (j : Nat) : Bool :=
  (b.entries j).vaSpace = some block.vaSpace && (b.entries j).faultAddress ≤ block.last

theorem MarksMore.onBlock {n : Nat} {b b' : ServiceBatch} (h : MarksMore n b b') :
    b'.onBlock block = b.onBlock block := by
  funext j
  simp only [ServiceBatch.onBlock, h.vaSpace j, h.raw j]

theorem onBlock_iff {j : Nat} : b.onBlock block j = true ↔
    (b.entries j).vaSpace = some block.vaSpace ∧ (b.entries j).faultAddress ≤ block.last := by
  simp [ServiceBatch.onBlock]

theorem MarksMore.leads_eq {n : Nat} {b b' : ServiceBatch} (h : MarksMore n b b') :
    leads b'.entries = leads b.entries := by
  funext first j
  simp only [leads, checkFaultEntryDuplicate, h.vaSpace, h.raw]

theorem MarksMore.uncounted_iff {n j : Nat} {b b' : ServiceBatch} (h : MarksMore n b b')
    (hj : b'.entries j = b.entries j) :
    Uncounted ans b'.entries first j ↔ Uncounted ans b.entries first j := by
  have hleads : FaultMesh.leads b'.entries first j = FaultMesh.leads b.entries first j := by
    rw [h.leads_eq]
  have hchecks : ans.ChecksUncounted b'.entries j ↔ ans.ChecksUncounted b.entries j := by
    simp only [BlockAnswers.ChecksUncounted, BlockAnswers.servedAccess, hj]
  constructor
  · rintro ⟨hlead, hsingle, hcheck⟩
    exact ⟨hleads ▸ hlead, hj ▸ hsingle, hchecks.1 hcheck⟩
  · rintro ⟨hlead, hsingle, hcheck⟩
    exact ⟨hleads ▸ hlead, hj ▸ hsingle, hchecks.2 hcheck⟩

theorem serviceFaults_entries_behind {fuel k : Nat}
    (hk : i + countWhile (s.batch.onBlock block) fuel i ≤ k) :
    (serviceFaults ans block first fuel i s).batch.entries k = s.batch.entries k := by
  induction fuel generalizing i s with
  | zero => rfl
  | succ fuel ih =>
    rw [serviceFaults]
    split
    next hblock =>
      rw [countWhile, if_pos (onBlock_iff.2 hblock)] at hk
      have hmarks := @serviceFault_marksMore ans block s (i + 1) i first (Nat.lt_succ_self i)
      rw [ih (by rw [hmarks.onBlock]; omega), serviceFault_entries_of_ne (by omega)]
    next => rfl

/-- On the first pass the counters stay exactly if nothing is counted for any fault of the
block. -/
theorem serviceFaults_counters_eq_iff {fuel : Nat} (hretry : s.ctx.numRetries = 0)
    (hthrottled : s.batch.hasThrottledFaults = false)
    (hinst : ∀ j, i ≤ j → j < i + fuel → 0 < (s.batch.entries j).numInstances) :
    (serviceFaults ans block first fuel i s).batch.counters = s.batch.counters ↔
      ∀ j, i ≤ j → j < i + countWhile (s.batch.onBlock block) fuel i →
        Uncounted ans s.batch.entries first j := by
  induction fuel generalizing i s with
  | zero =>
    apply iff_of_true rfl
    intro j hij hj
    exact absurd hj (Nat.not_lt_of_le hij)
  | succ fuel ih =>
    rw [serviceFaults, countWhile]
    by_cases hblock : s.batch.onBlock block i = true
    · have hstep := @serviceFault_counters_eq_iff ans block s i first hretry hthrottled
        (hinst i le_rfl (by omega))
      have hmarks := @serviceFault_marksMore ans block s (i + 1) i first (Nat.lt_succ_self i)
      have hahead : ∀ j, i + 1 ≤ j →
          (serviceFault ans block first i s).batch.entries j = s.batch.entries j :=
        fun j hj => serviceFault_entries_of_ne (by omega)
      -- if nothing was counted for the first fault, the hypothesis applies to the rest
      have hrest (hfirst : Uncounted ans s.batch.entries first i) :
          (serviceFaults ans block first fuel (i + 1)
              (serviceFault ans block first i s)).batch.counters =
              (serviceFault ans block first i s).batch.counters ↔
            ∀ j, i + 1 ≤ j → j < i + 1 + countWhile (s.batch.onBlock block) fuel (i + 1) →
              Uncounted ans s.batch.entries first j := by
        have hflag := congrArg BatchCounters.hasThrottledFaults (hstep.2 hfirst)
        rw [ih (serviceFault_numRetries.trans hretry) (hflag.trans hthrottled)
          (fun k hk hlt => by rw [hahead k hk]; exact hinst k (by omega) (by omega)), hmarks.onBlock]
        exact forall_congr' fun j => forall_congr' fun hj =>
          forall_congr' fun _ => hmarks.uncounted_iff (hahead j hj)
      rw [if_pos (onBlock_iff.1 hblock), if_pos hblock,
        eq_iff_of_le_of_le counters_le_serviceFault counters_le_serviceFaults, hstep,
        and_congr_right hrest]
      constructor
      · rintro ⟨hfirst, h⟩ j hij hj
        rcases Nat.eq_or_lt_of_le hij with rfl | hij
        · exact hfirst
        · exact h j hij (by omega)
      · intro h
        exact ⟨h i le_rfl (by omega), fun j hij hj => h j (by omega) (by omega)⟩
    · rw [if_neg fun h => hblock (onBlock_iff.2 h), if_neg hblock]
      apply iff_of_true rfl
      intro j hij hj
      exact absurd hj (Nat.not_lt_of_le hij)

end Block

/-! ## The serial loop over the batch -/

section Serial

variable {ans : BatchAnswers} {i : Nat} {s : SerialBatch}

theorem ServiceBatch.counters_le_serviceFaultBatchFatal (b : ServiceBatch) (status : NvStatus)
    (mode : CancelVaMode) : b.counters ≤ (b.serviceFaultBatchFatal i status mode).counters := by
  have hflags : b.counters ≤ (if 0 < i && checkFaultEntryDuplicate (b.entries i) (b.entries (i - 1))
      then b.duplicateFlags i else b).counters := by
    split
    · exact b.counters_le_duplicateFlags i
    · exact le_rfl
  have hmark : ∀ b₁ : ServiceBatch, b₁.counters ≤ (if (b₁.entries i).accessType = .prefetch then
      b₁.markFaultInvalidPrefetch i else b₁.markFaultFatal i status.toFatalReason mode).counters := by
    intro b₁
    split
    · exact b₁.counters_le_markFaultInvalidPrefetch i
    · exact le_rfl
  exact hflags.trans (hmark _)

theorem ServiceBatch.counters_le_visitAts (b : ServiceBatch) (visit : AtsVisit) :
    b.counters ≤ (b.visitAts i visit).counters := by
  cases visit with
  | first | next => exact b.counters_le_updateBatch i _
  | nextThenFirst => exact (b.counters_le_updateBatch i _).trans (counters_le_updateBatch _ i _)
  | passedOver => exact le_rfl
  | noVma =>
    exact (b.counters_le_serviceFaultBatchFatal _ _).trans (counters_le_updateBatch _ i _)

theorem ServiceBatch.counters_le_markAtsFault (out : AtsOutcome) (b : ServiceBatch) :
    b.counters ≤ (b.markAtsFault out i).counters := by
  apply (b.counters_le_visitAts (out.visit i)).trans
  rw [markAtsFault]
  split
  · exact counters_le_serviceFaultBatchFatal _ _ _
  · exact le_rfl

theorem ServiceBatch.counters_le_markAts (out : AtsOutcome) {k : Nat} (b : ServiceBatch) :
    b.counters ≤ (b.markAts out k i).counters := by
  induction k generalizing i b with
  | zero =>
    rw [markAts]
    split
    · exact b.counters_le_updateBatch i _
    · exact le_rfl
  | succ k ih => exact (b.counters_le_markAtsFault out).trans (ih _)

theorem SerialBatch.counters_le_cancelFault (status : NvStatus) :
    s.batch.counters ≤ (s.cancelFault i status).1.batch.counters :=
  (s.batch.counters_le_serviceFaultBatchFatal status .all).trans
    (ServiceBatch.counters_le_updateBatch _ i _)

theorem SerialBatch.counters_le_serviceFaultBatchDispatch :
    s.batch.counters ≤ (s.serviceFaultBatchDispatch ans i).1.batch.counters := by
  unfold serviceFaultBatchDispatch
  dsimp only
  split
  · exact counters_le_serviceFaults (s := { batch := s.batch, ctx := _ })
  · split
    · split
      · exact counters_le_cancelFault _
      · exact s.batch.counters_le_markAts _
    · exact counters_le_cancelFault _

theorem SerialBatch.enterVaSpace_batch (vaSpace : Option VaSpaceId) :
    (s.enterVaSpace ans vaSpace).batch = s.batch := by
  rw [enterVaSpace]
  split
  · rfl
  · rfl

theorem SerialBatch.counters_le_serviceRound :
    s.batch.counters ≤ (s.serviceRound ans i).1.batch.counters := by
  have henter := @SerialBatch.enterVaSpace_batch ans s (s.batch.entries i).vaSpace
  unfold serviceRound
  dsimp only
  split
  · exact (congrArg counters henter).ge
  · split
    · exact (congrArg counters henter).ge
    · have hdispatch := @SerialBatch.counters_le_serviceFaultBatchDispatch ans i
        (s.enterVaSpace ans (s.batch.entries i).vaSpace)
      rw [henter] at hdispatch
      split
      all_goals exact hdispatch

/-- The counters never go down. -/
theorem counters_le_serviceFaultBatch {fuel : Nat} {r : SerialBatch × NvStatus}
    (h : serviceFaultBatch ans fuel i s = some r) : s.batch.counters ≤ r.1.batch.counters := by
  induction fuel generalizing i s with
  | zero =>
    rw [serviceFaultBatch] at h
    split at h
    · cases h
    · cases h
      exact le_rfl
  | succ fuel ih =>
    rw [serviceFaultBatch] at h
    have hround := @SerialBatch.counters_le_serviceRound ans i s
    split at h
    · split at h
      next s' j hs' =>
        rw [hs'] at hround
        exact hround.trans (ih h)
      next s' status hs' =>
        cases h
        rw [hs'] at hround
        exact hround
    · cases h
      exact le_rfl

end Serial

section Counted

variable {sb : SortedBatch} {i : Nat} {s : SerialBatch}

/-- The loop came to place `i`: the faults from there on are as they were, and the next one does
not repeat the one before. -/
structure CountedBatch (sb : SortedBatch) (i : Nat) (s : SerialBatch) : Prop where
  inv : SerialInv sb s
  ahead : ∀ k, i ≤ k → s.batch.entries k = sb.batch.entries k
  starts : 0 < i → i < sb.size →
    checkFaultEntryDuplicate (sb.batch.entries i) (sb.batch.entries (i - 1)) = false

theorem CountedBatch.uncounted_iff (h : CountedBatch sb i s) (hi : i < sb.size) {k : Nat}
    (hik : i ≤ k) :
    Uncounted sb.ans.block s.batch.entries i k ↔ Uncounted sb.ans.block sb.batch.entries 0 k := by
  rw [h.inv.marks.uncounted_iff (h.ahead k hik)]
  suffices hleads : leads sb.batch.entries i k = leads sb.batch.entries 0 k from
    ⟨fun hu => ⟨hleads ▸ hu.leads, hu.single, hu.checks⟩,
      fun hu => ⟨hleads ▸ hu.leads, hu.single, hu.checks⟩⟩
  rcases Nat.eq_or_lt_of_le hik with rfl | hlt
  · rcases Nat.eq_zero_or_pos i with rfl | hpos
    · rfl
    · simp [leads, h.starts hpos hi]
  · simp [leads, hlt, Nat.zero_lt_of_lt hlt]

section

variable (h : CountedBatch sb i s) (hok : ServicesSucceed sb.ans)
  (hinst : ∀ k < sb.size, 0 < (sb.batch.entries k).numInstances) (hi : i < sb.size)
include h hok hinst hi

theorem CountedBatch.serviceFaultBatchBlock {block : VaBlock} (hblock : sb.located i = some block)
    (hthrottled : s.batch.hasThrottledFaults = false) :
    let r := s.serviceFaultBatchBlock sb.ans block i .serviced
    CountedBatch sb (i + r.2.2) r.1 ∧ (r.1.batch.counters = s.batch.counters ↔
      ∀ k, i ≤ k → k < i + r.2.2 → Uncounted sb.ans.block sb.batch.entries 0 k) := by
  intro r
  obtain ⟨hspace, -, hlast⟩ := sb.found i hi block hblock
  have hdis := h.inv.serviceFaultBatchBlock hok hi hspace hlast .serviced
  have hsize : i + (s.batch.numCoalescedFaults - i) = sb.size := by
    rw [h.inv.size]
    exact Nat.add_sub_cancel' hi.le
  constructor
  · refine ⟨⟨h.inv.marks.trans hdis.marks, ?_⟩, fun k hk => ?_, fun _ hend => ?_⟩
    · rw [hdis.vaSpace, hdis.gpuVaSpace]
      exact h.inv.gpuVaSpace
    · rw [← h.ahead k ((Nat.le_add_right i _).trans hk)]
      exact @serviceFaults_entries_behind sb.ans.block block { batch := s.batch, ctx := _ } i i _ k hk
    · exact h.inv.starts_behind hi hspace hlast hend
  · have hrun := @serviceFaults_counters_eq_iff sb.ans.block block
      { batch := s.batch, ctx := { s.ctx with numRetries := 0 }.begin } i i
      (s.batch.numCoalescedFaults - i) rfl hthrottled (fun j hij hj => by
        rw [h.ahead j hij]
        exact hinst j (hsize ▸ hj))
    apply hrun.trans
    exact forall_congr' fun k => forall_congr' fun hik => forall_congr' fun _ =>
      h.uncounted_iff hi hik

/-- A round on a located fault counts nothing exactly if it comes to no fault that is
counted. -/
theorem CountedBatch.serviceRound
    (hloc : (sb.located i).isSome) (hthrottled : s.batch.hasThrottledFaults = false) :
    ∃ s' j, s.serviceRound sb.ans i = (s', .ok j) ∧ i < j ∧ j ≤ sb.size ∧ CountedBatch sb j s' ∧
      (s'.batch.counters = s.batch.counters ↔
        ∀ k, i ≤ k → k < j → Uncounted sb.ans.block sb.batch.entries 0 k) := by
  obtain ⟨block, hblock⟩ := Option.isSome_iff_exists.1 hloc
  obtain ⟨hspace, -, hlast⟩ := sb.found i hi block hblock
  have hfatal : (s.batch.entries i).isFatal = false := by
    rw [h.ahead i le_rfl]
    exact SortedBatch.not_isFatal_of_located hblock
  -- the VA space of the fault is entered, which leaves the batch alone
  obtain ⟨hinv, hbatch, -⟩ := h.inv.enterVaSpace hi
  have henter : CountedBatch sb i (s.enterVaSpace sb.ans (s.batch.entries i).vaSpace) :=
    ⟨hinv, fun k hk => by rw [hbatch]; exact h.ahead k hk, h.starts⟩
  have hdis := hinv.serviceFaultBatchBlock hok hi hspace hlast .serviced
  obtain ⟨hcounted, hcounters⟩ :=
    henter.serviceFaultBatchBlock hok hinst hi hblock (by rw [hbatch]; exact hthrottled)
  rw [hbatch] at hcounters
  exact ⟨_, _, h.inv.serviceRound_located hok hi hfatal hblock, Nat.lt_add_of_pos_right hdis.pos,
    hdis.le, hcounted, hcounters⟩

end

/-- The loop from place `i` on comes to its end, and counts nothing exactly if it comes to
no fault that is counted. -/
theorem CountedBatch.serviceFaultBatch (hok : ServicesSucceed sb.ans)
    (hinst : ∀ k < sb.size, 0 < (sb.batch.entries k).numInstances)
    (hloc : ∀ k < sb.size, (sb.located k).isSome) {fuel : Nat} (hfuel : sb.size ≤ i + fuel)
    (h : CountedBatch sb i s) (hthrottled : s.batch.hasThrottledFaults = false) :
    ∃ s', serviceFaultBatch sb.ans fuel i s = some (s', .ok) ∧
      (s'.batch.counters = s.batch.counters ↔
        ∀ k, i ≤ k → k < sb.size → Uncounted sb.ans.block sb.batch.entries 0 k) := by
  induction fuel generalizing i s with
  | zero =>
    refine ⟨s, ?_, iff_of_true rfl fun k hik hk => absurd hk (by omega)⟩
    rw [FaultMesh.serviceFaultBatch, if_neg (by rw [h.inv.size]; omega)]
  | succ fuel ih =>
    rw [FaultMesh.serviceFaultBatch, h.inv.size]
    split
    next hi =>
      obtain ⟨s₁, j, hround, hij, hj, hcounted, hstep⟩ :=
        h.serviceRound hok hinst hi (hloc i hi) hthrottled
      rw [hround]
      by_cases heq : s₁.batch.counters = s.batch.counters
      · have hflag := congrArg BatchCounters.hasThrottledFaults heq
        obtain ⟨s', hrun, hrest⟩ := ih (by omega) hcounted (hflag.trans hthrottled)
        refine ⟨s', hrun, ?_⟩
        rw [← heq, hrest]
        constructor
        · intro hjk k hik hk
          rcases Nat.lt_or_ge k j with hkj | hkj
          · exact hstep.1 heq k hik hkj
          · exact hjk k hkj hk
        · intro hik k hjk
          exact hik k (hij.le.trans hjk)
      -- once a counter went up it stays up
      · obtain ⟨s', hrun, -⟩ := hcounted.inv.serviceFaultBatch hok
          (show sb.size ≤ j + fuel by omega)
        have hlt : s.batch.counters < s'.batch.counters := by
          apply lt_of_lt_of_le _ (counters_le_serviceFaultBatch hrun)
          have hle := @SerialBatch.counters_le_serviceRound sb.ans i s
          rw [hround] at hle
          exact lt_of_le_of_ne hle fun h => heq h.symm
        refine ⟨s', hrun, iff_of_false hlt.ne' fun hall => ?_⟩
        exact heq (hstep.2 fun k hik hkj => hall k hik (hkj.trans_le hj))
    next hi => exact ⟨s, rfl, iff_of_true rfl fun k hik hk => absurd hk (by omega)⟩

end Counted

/-! ## Main result -/

/-- The service loop reads the same counters from two batches, and therefore takes the same flush
mode and adds the same to its count of throttled batches. -/
structure SameCounts (b b' : ServiceBatch) : Prop where
  counters : b.counters = b'.counters
  flushMode : ∀ (p : Params) (gpu : GpuConfig) (bc : BatchContext),
    batchFlushMode p gpu (b.counters.into bc) = batchFlushMode p gpu (b'.counters.into bc)
  numThrottled : ∀ (s : ServiceState) (d : Driver) (vars : LoopVars),
    (nextBatch s { d with bc := b.counters.into d.bc } vars).vars.numThrottled =
      (nextBatch s { d with bc := b'.counters.into d.bc } vars).vars.numThrottled

theorem sameCounts_iff {b b' : ServiceBatch} : SameCounts b b' ↔ b'.counters = b.counters := by
  constructor
  · intro h
    exact h.counters.symm
  · intro h
    exact ⟨h.symm, fun _ _ _ => by rw [h], fun _ _ _ => by rw [h]⟩

theorem serviceFaultBatchParallel_counters (cfg : ParallelConfig) (ans : BatchAnswers)
    (batch : ServiceBatch) :
    (serviceFaultBatchParallel cfg ans batch).batch.counters = batch.counters := rfl

/-- For every sorted batch of faults on managed blocks, whatever the permission, authorization and
thrashing checks answer: the serial loop comes to its end, and the parallel path leaves the counters
it leaves exactly if no fault has anything to be counted. -/
theorem parallel_counts_as_serial_iff (sb : SortedBatch) (cfg : ParallelConfig)
    (hloc : ∀ i < sb.size, (sb.located i).isSome)
    (hinst : ∀ i < sb.size, 0 < (sb.batch.entries i).numInstances)
    (hok : ServicesSucceed sb.ans) (hreset : sb.batch.hasThrottledFaults = false) :
    ∃ s, serviceFaultBatch sb.ans sb.size 0 { batch := sb.batch } = some (s, .ok) ∧
      (SameCounts (serviceFaultBatchParallel cfg sb.ans sb.batch).batch s.batch ↔
        ∀ i < sb.size, Uncounted sb.ans.block sb.batch.entries 0 i) := by
  have hinit : CountedBatch sb 0 { batch := sb.batch } :=
    ⟨⟨.refl _, rfl⟩, fun _ _ => rfl, fun hpos => absurd hpos (Nat.lt_irrefl 0)⟩
  obtain ⟨s, hrun, hcounters⟩ := @CountedBatch.serviceFaultBatch sb 0 { batch := sb.batch } hok hinst
    hloc sb.size (by omega) hinit hreset
  refine ⟨s, hrun, ?_⟩
  rw [sameCounts_iff, serviceFaultBatchParallel_counters]
  apply hcounters.trans
  exact forall_congr' fun i => forall_prop_of_true (Nat.zero_le i)

/-- One fault on the first page, with `n` instances. -/
def instancesBatch (n : Nat) : SortedBatch where
  ans := firstBlockAnswers
  batch :=
    { entries := fun _ => { faultAddress := 0, vaSpace := some 0, numInstances := n }
      numCoalescedFaults := 1 }
  space := fun _ => 0
  vaSpace := fun _ _ => rfl
  sorted := fun _ _ _ _ => .inr ⟨rfl, le_rfl⟩
  aligned := fun _ _ => rfl
  hmmFound := fun _ _ _ => nofun
  found := by
    intro i hi block hloc
    obtain rfl := firstBlockAnswers_located hloc
    exact ⟨rfl, le_rfl, Nat.zero_le _⟩
  kept := by
    intro i j _ _ block hloc _ _
    obtain rfl := firstBlockAnswers_located hloc
    exact ⟨rfl, rfl⟩

/-- The hypotheses hold of a batch of one fault with one instance, which is not counted. -/
theorem single_fault_counted_alike :
    ∃ s, serviceFaultBatch (instancesBatch 1).ans 1 0 { batch := (instancesBatch 1).batch } =
        some (s, .ok) ∧
      SameCounts (serviceFaultBatchParallel {} (instancesBatch 1).ans (instancesBatch 1).batch).batch
        s.batch := by
  obtain ⟨s, hrun, hiff⟩ := parallel_counts_as_serial_iff (instancesBatch 1) {} (fun _ _ => rfl)
    (fun _ _ => Nat.one_pos) ⟨fun _ _ => rfl, fun _ => rfl⟩ rfl
  refine ⟨s, hrun, hiff.2 fun i hi => ?_⟩
  obtain rfl : i = 0 := Nat.lt_one_iff.1 hi
  exact ⟨rfl, rfl, rfl, nofun⟩

/-- Three instances of one fault are two duplicates on the serial path, and the flush reads the put
register; on the parallel path there are none, and it does not. -/
theorem instances_not_counted :
    let bc : BatchContext := { faultCache := fun _ => { faultAddress := 0 }, numCachedFaults := 3 }
    let gpu : GpuConfig := { maxFaults := 1024 }
    let parallel := (serviceFaultBatchParallel {} (instancesBatch 3).ans (instancesBatch 3).batch).batch
    (serviceFaultBatch (instancesBatch 3).ans 1 0 { batch := (instancesBatch 3).batch }).map
        (fun r => (r.1.batch.numDuplicateFaults, batchFlushMode {} gpu (r.1.batch.counters.into bc),
          r.2)) = some (2, .updatePut, .ok) ∧
      (parallel.numDuplicateFaults, batchFlushMode {} gpu (parallel.counters.into bc)) =
        (0, .cachedPut) ∧
      ∀ r, serviceFaultBatch (instancesBatch 3).ans 1 0 { batch := (instancesBatch 3).batch } = some r →
        ¬ SameCounts parallel r.1.batch := by
  intro bc gpu parallel
  have hserial : (serviceFaultBatch (instancesBatch 3).ans 1 0
      { batch := (instancesBatch 3).batch }).map (fun r => (r.1.batch.numDuplicateFaults,
        batchFlushMode {} gpu (r.1.batch.counters.into bc), r.2)) = some (2, .updatePut, .ok) := by
    decide
  refine ⟨hserial, by decide, fun r hr hsame => ?_⟩
  have hdup : r.1.batch.numDuplicateFaults = 0 :=
    congrArg BatchCounters.numDuplicateFaults hsame.counters.symm
  rw [hr, Option.map_some, Option.some.injEq, Prod.mk.injEq, hdup] at hserial
  exact absurd hserial.1 (by decide)

end FaultMesh
