import FaultMesh.BlockService

/-!
# What servicing leaves of the batch

Servicing marks entries and writes to the fatal fields of the batch context, `fatal_va_space` and
`has_fatal_faults` of the uTLBs. `MarksMore` says what holds between a batch before and after: the
parsed faults are the same, nothing fatal is taken back, and a fault is marked fatal together with
the flag of a uTLB.
-/

namespace FaultMesh

open Function

def ServiceBatch.Flagged (b : ServiceBatch) : Prop := ∃ u, b.utlbHasFatalFaults u = true

/-- The second batch comes from the first by marking entries, fatal ones among the first `n`. -/
structure MarksMore (n : Nat) (b b' : ServiceBatch) : Prop where
  size : b'.numCoalescedFaults = b.numCoalescedFaults
  raw : ∀ j, (b'.entries j).toRawFault = (b.entries j).toRawFault
  vaSpace : ∀ j, (b'.entries j).vaSpace = (b.entries j).vaSpace
  isFatal : ∀ j, (b.entries j).isFatal → (b'.entries j).isFatal
  flags : ∀ u, b.utlbHasFatalFaults u → b'.utlbHasFatalFaults u
  newFatal : ∀ j, (b'.entries j).isFatal → (b.entries j).isFatal ∨ b'.Flagged
  /-- The fatal fields change only together, and with an entry that is fatal. -/
  changed : (b'.fatalVaSpace = b.fatalVaSpace ∧ b'.utlbHasFatalFaults = b.utlbHasFatalFaults) ∨
    b'.Flagged ∧ ∃ j < n, (b'.entries j).isFatal

namespace MarksMore

variable {n : Nat} {b b' b'' : ServiceBatch} {i : Nat}

theorem flagged (h : MarksMore n b b') (hb : b.Flagged) : b'.Flagged := by
  obtain ⟨u, hu⟩ := hb
  exact ⟨u, h.flags u hu⟩

theorem trans (h : MarksMore n b b') (h' : MarksMore n b' b'') : MarksMore n b b'' where
  size := h'.size.trans h.size
  raw := fun j => (h'.raw j).trans (h.raw j)
  vaSpace := fun j => (h'.vaSpace j).trans (h.vaSpace j)
  isFatal := fun j hj => h'.isFatal j (h.isFatal j hj)
  flags := fun u hu => h'.flags u (h.flags u hu)
  newFatal := fun j hj => by
    rcases h'.newFatal j hj with hj | hflag
    · exact (h.newFatal j hj).imp id h'.flagged
    · exact .inr hflag
  changed := by
    rcases h'.changed with ⟨hspace', hflags'⟩ | hflag
    · rcases h.changed with ⟨hspace, hflags⟩ | ⟨hflag, j, hjn, hj⟩
      · exact .inl ⟨hspace'.trans hspace, hflags'.trans hflags⟩
      · exact .inr ⟨h'.flagged hflag, j, hjn, h'.isFatal j hj⟩
    · exact .inr hflag

theorem of_eq (hsize : b'.numCoalescedFaults = b.numCoalescedFaults) (hentries : b'.entries = b.entries)
    (hspace : b'.fatalVaSpace = b.fatalVaSpace)
    (hflags : b'.utlbHasFatalFaults = b.utlbHasFatalFaults) : MarksMore n b b' where
  size := hsize
  raw := fun j => by rw [hentries]
  vaSpace := fun j => by rw [hentries]
  isFatal := fun j hj => by rwa [hentries]
  flags := fun u hu => by rwa [hflags]
  newFatal := fun j hj => .inl (by rwa [hentries] at hj)
  changed := .inl ⟨hspace, hflags⟩

theorem refl (b : ServiceBatch) : MarksMore n b b := of_eq rfl rfl rfl rfl

theorem of_update {e : FaultEntry} (hsize : b'.numCoalescedFaults = b.numCoalescedFaults)
    (hentries : b'.entries = update b.entries i e)
    (hraw : e.toRawFault = (b.entries i).toRawFault) (hva : e.vaSpace = (b.entries i).vaSpace)
    (hfatal : e.isFatal = (b.entries i).isFatal) (hspace : b'.fatalVaSpace = b.fatalVaSpace)
    (hflags : b'.utlbHasFatalFaults = b.utlbHasFatalFaults) : MarksMore n b b' := by
  -- every field that is spoken of is the same at every entry
  have hall : ∀ {α : Type} (f : FaultEntry → α), f e = f (b.entries i) →
      ∀ j, f (b'.entries j) = f (b.entries j) := by
    intro α f hf j
    rw [hentries]
    by_cases hj : j = i
    · subst hj
      rw [update_self, hf]
    · rw [update_of_ne hj]
  have hfatal' := hall FaultEntry.isFatal hfatal
  exact ⟨hsize, hall FaultEntry.toRawFault hraw, hall FaultEntry.vaSpace hva,
    fun j hj => by rwa [hfatal'], fun u hu => by rwa [hflags],
    fun j hj => .inl (by rwa [hfatal'] at hj), .inl ⟨hspace, hflags⟩⟩

theorem of_record {e : FaultEntry} (hi : i < n) (hsize : b'.numCoalescedFaults = b.numCoalescedFaults)
    (hentries : b'.entries = update b.entries i e)
    (hraw : e.toRawFault = (b.entries i).toRawFault) (hva : e.vaSpace = (b.entries i).vaSpace)
    (hfatal : e.isFatal = true)
    (hflags : b'.utlbHasFatalFaults =
      update b.utlbHasFatalFaults (b.entries i).utlbId true) : MarksMore n b b' := by
  have hflag : b'.utlbHasFatalFaults (b.entries i).utlbId = true := by
    rw [hflags, update_self]
  have hself : (b'.entries i).isFatal = true := by
    rw [hentries, update_self, hfatal]
  have hother : ∀ j, j ≠ i → b'.entries j = b.entries j := fun j hj => by
    rw [hentries, update_of_ne hj]
  refine ⟨hsize, fun j => ?_, fun j => ?_, fun j hj => ?_, fun u hu => ?_,
    fun _ _ => .inr ⟨_, hflag⟩, .inr ⟨⟨_, hflag⟩, i, hi, hself⟩⟩
  · by_cases hj : j = i
    · rw [hj, hentries, update_self, hraw]
    · rw [hother j hj]
  · by_cases hj : j = i
    · rw [hj, hentries, update_self, hva]
    · rw [hother j hj]
  · by_cases hji : j = i
    · rw [hji, hself]
    · rwa [hother j hji]
  · rw [hflags]
    by_cases hu' : u = (b.entries i).utlbId
    · rw [hu', update_self]
    · rwa [update_of_ne hu']

end MarksMore

/-! ## The marking functions -/

namespace ServiceBatch

variable {n : Nat} (b : ServiceBatch) (i : Nat)

theorem markFaultInvalidPrefetch_marksMore : MarksMore n b (b.markFaultInvalidPrefetch i) :=
  .of_update rfl rfl rfl rfl rfl rfl rfl

theorem markFaultThrottled_marksMore : MarksMore n b (b.markFaultThrottled i) :=
  .of_update rfl rfl rfl rfl rfl rfl rfl

variable {i} in
theorem markFaultFatal_marksMore (hi : i < n) (reason : FatalReason) (mode : CancelVaMode) :
    MarksMore n b (b.markFaultFatal i reason mode) :=
  .of_record hi rfl rfl rfl rfl rfl rfl

theorem updateBatch_marksMore (dup : Bool) : MarksMore n b (b.updateBatch i dup) :=
  .of_eq rfl rfl rfl rfl

theorem duplicateFlags_marksMore : MarksMore n b (b.duplicateFlags i) := by
  have hfirst : MarksMore n b (if (b.entries (i - 1)).isInvalidPrefetch then
      b.markFaultInvalidPrefetch i else b) := by
    split
    · exact b.markFaultInvalidPrefetch_marksMore i
    · exact .refl b
  rw [duplicateFlags]
  split
  · exact hfirst.trans (markFaultThrottled_marksMore _ i)
  · exact hfirst

theorem noteFault_marksMore (numRetries : Nat) (dup : Bool) :
    MarksMore n b (b.noteFault numRetries i dup) := by
  have hreset : MarksMore n b (b.setEntry i
      { b.entries i with isThrottled := false, isInvalidPrefetch := false }) :=
    .of_update rfl rfl rfl rfl rfl rfl rfl
  have hcount : ∀ b₁ : ServiceBatch,
      MarksMore n b₁ (if numRetries = 0 then b₁.updateBatch i dup else b₁) := by
    intro b₁
    split
    · exact b₁.updateBatch_marksMore i dup
    · exact .refl b₁
  unfold noteFault
  cases dup with
  | false => exact hreset.trans (hcount _)
  | true => exact (hreset.trans (hcount _)).trans (duplicateFlags_marksMore _ i)

end ServiceBatch

/-! ## The loop over the faults of a block -/

section Block

variable {ans : BlockAnswers} {block : VaBlock} {s : SerialLoop} {n i : Nat}

theorem checkFaultAccessPermissions_marksMore (hi : i < n) (b : ServiceBatch) (numRetries : Nat) :
    MarksMore n b (checkFaultAccessPermissions ans numRetries b i).2 := by
  unfold checkFaultAccessPermissions
  dsimp only
  split_ifs
  · exact .refl b
  · exact b.markFaultInvalidPrefetch_marksMore i
  · exact .refl b
  all_goals exact b.markFaultFatal_marksMore hi _ _

theorem isFatal_of_denied {b : ServiceBatch} {numRetries : Nat}
    (hperm : ans.logicalPermissions i (b.entries i).accessType (ans.migratable i) ≠ .ok)
    (hprefetch : (b.entries i).accessType ≠ .prefetch) :
    ((checkFaultAccessPermissions ans numRetries b i).2.entries i).isFatal := by
  unfold checkFaultAccessPermissions
  dsimp only
  rw [if_neg hperm, if_neg hprefetch]
  split_ifs <;> simp [ServiceBatch.markFaultFatal, ServiceBatch.setEntry]

/-- After the access checks the batch is left alone, or the fault is counted as stale or throttled. -/
theorem SerialLoop.serviceChecked_rule {P : ServiceBatch → Prop}
    (hcheck : P (checkFaultAccessPermissions ans s.ctx.numRetries s.batch i).2)
    (hstale : ∀ b, P b → P b.accountStaleFault) (hthrottle : ∀ b, P b → P (b.markFaultThrottled i)) :
    P (s.serviceChecked ans block i).batch := by
  rw [serviceChecked]
  split
  next b hb =>
    rw [hb] at hcheck
    exact hcheck
  next access b hb =>
    rw [hb] at hcheck
    split
    -- already mapped
    · exact hstale b hcheck
    · split
      · dsimp only
        split
        · exact hthrottle b hcheck
        · exact hcheck
      · exact hcheck

theorem SerialLoop.marksMore_serviceChecked :
    MarksMore n (checkFaultAccessPermissions ans s.ctx.numRetries s.batch i).2
      (s.serviceChecked ans block i).batch := by
  apply serviceChecked_rule (.refl _)
  · exact fun b hb => hb.trans (.of_eq rfl rfl rfl rfl)
  · exact fun b hb => hb.trans (b.markFaultThrottled_marksMore i)

theorem SerialLoop.serviceChecked_marksMore (hi : i < n) (s : SerialLoop) :
    MarksMore n s.batch (s.serviceChecked ans block i).batch :=
  (checkFaultAccessPermissions_marksMore hi _ _).trans marksMore_serviceChecked

theorem serviceFault_marksMore {first : Nat} (hi : i < n) :
    MarksMore n s.batch (serviceFault ans block first i s).batch := by
  have hnote := @ServiceBatch.noteFault_marksMore n s.batch i s.ctx.numRetries
    (first < i && checkFaultEntryDuplicate (s.batch.entries i) (s.batch.entries (i - 1)))
  rw [serviceFault]
  split
  · exact hnote
  · apply hnote.trans
    exact SerialLoop.serviceChecked_marksMore hi { s with batch := _ }

theorem serviceFaults_marksMore {first fuel : Nat} (hn : i + fuel ≤ n) :
    MarksMore n s.batch (serviceFaults ans block first fuel i s).batch := by
  induction fuel generalizing i s with
  | zero => exact .refl s.batch
  | succ fuel ih =>
    rw [serviceFaults]
    split
    · have hi : i < n := by omega
      apply (serviceFault_marksMore hi).trans
      apply ih
      omega
    · exact .refl s.batch

theorem serviceFaultBatchBlockLocked_marksMore {batch : ServiceBatch} (ctx : ServiceBlockContext)
    (hi : i ≤ batch.numCoalescedFaults) :
    MarksMore batch.numCoalescedFaults batch
      (serviceFaultBatchBlockLocked ans block batch ctx i).batch := by
  rw [serviceFaultBatchBlockLocked]
  apply serviceFaults_marksMore (s := { batch := batch, ctx := ctx.begin })
  omega

end Block

end FaultMesh
