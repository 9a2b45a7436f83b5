import FaultMesh.ServiceStages

/-!
# What the split of the service changes

Both ways of servicing a block go through the same populating, the same copies and the same
mapping. The block context that a worker brings along is where they differ: in one piece, the
masks of the pages and processors involved are reset before the copies, in two pieces what earlier
items left in them stays. Leftovers commute with everything up to the mapping, where the pages
that did not migrate are looked up in them.

The other differences are in the checks around the copies: read duplication that comes with a
prefetch hint, and the wait for ECC errors when the CPU is the destination.
-/

namespace FaultMesh.Stages

open Call

variable {P : Platform} {block : VaBlock} {st : BlockState block} {s t : ServiceState}
  {processorId dest : Nat}

/-! ## Leftovers -/

/-- The state with the pages and processors of earlier items still in the masks. -/
def ServiceState.leftover (pages processors : Finset Nat) (s : ServiceState) : ServiceState :=
  { s with context :=
    { s.context with
      pagesChangedResidency := pages ∪ s.context.pagesChangedResidency
      allInvolvedProcessors := processors ∪ s.context.allInvolvedProcessors } }

theorem leftover_resetMasks (s : ServiceState) :
    s.resetMasks.leftover s.context.pagesChangedResidency s.context.allInvolvedProcessors = s := by
  simp [ServiceState.leftover, ServiceState.resetMasks]

theorem leftover_eq_self {pages processors : Finset Nat}
    (hpages : pages ⊆ s.context.pagesChangedResidency)
    (hprocs : processors ⊆ s.context.allInvolvedProcessors) : s.leftover pages processors = s := by
  simp only [ServiceState.leftover, Finset.union_eq_right.2 hpages, Finset.union_eq_right.2 hprocs]

section Commuting

variable {pages processors : Finset Nat}

theorem request_commutes (r : MapRequest) :
    Commutes (ServiceState.leftover pages processors) (request P r) := fun _ => rfl

theorem populatePages_commutes (mask : Finset Nat) :
    Commutes (ServiceState.leftover pages processors) (populatePages P dest mask) := by
  apply Commutes.alter
  intro s
  split <;> rfl

theorem makeResidentPopulate_commutes (mask : Finset Nat) :
    Commutes (ServiceState.leftover pages processors) (makeResidentPopulate P dest mask) := by
  refine Commutes.choose (fun _ => rfl) fun s => ?_
  refine Commutes.andThen (Commutes.alter fun _ => ?_) (Commutes.andThen (request_commutes _) ?_)
  · rfl
  · exact Commutes.andThen (request_commutes _) (populatePages_commutes mask)

theorem copyResidentPages_commutes (mask : Finset Nat) (mode : TransferMode) :
    Commutes (ServiceState.leftover pages processors) (copyResidentPages P dest mask mode) := by
  intro s
  simp only [copyResidentPages, ServiceState.leftover, Finset.union_assoc]

theorem finishResidency_leftover :
    (s.leftover pages processors).finishResidency =
      s.finishResidency.leftover pages processors := by
  unfold ServiceState.finishResidency
  by_cases hfinish : s.service.readDuplicateCount = 0 ∨ s.context.callerPageMask ≠ ∅
  · rw [if_pos hfinish, if_pos (show (s.leftover pages processors).service.readDuplicateCount = 0 ∨
      (s.leftover pages processors).context.callerPageMask ≠ ∅ from hfinish)]
    simp only [ServiceState.makeResidentFinish, ServiceState.leftover, Finset.union_assoc]
    rfl
  · rw [if_neg hfinish, if_neg (show ¬((s.leftover pages processors).service.readDuplicateCount = 0 ∨
      (s.leftover pages processors).context.callerPageMask ≠ ∅) from hfinish)]

end Commuting

/-! ## What the page-table work leaves alone -/

/-- Only mappings and the mask of staged pages differ. -/
structure Remaps (s t : ServiceState) : Prop where
  service : t.service = s.service
  resident : t.pages.resident = s.pages.resident
  ecc : t.ecc = s.ecc
  context : ∃ staged, t.context = { s.context with pagesStaged := staged }

theorem Remaps.refl (s : ServiceState) : Remaps s s := ⟨rfl, rfl, rfl, _, rfl⟩

theorem Remaps.trans ⦃a b c : ServiceState⦄ (hab : Remaps a b) (hbc : Remaps b c) :
    Remaps a c where
  service := hbc.service.trans hab.service
  resident := hbc.resident.trans hab.resident
  ecc := hbc.ecc.trans hab.ecc
  context := by
    obtain ⟨_, hb⟩ := hab.context
    obtain ⟨staged, hc⟩ := hbc.context
    exact ⟨staged, by rw [hc, hb]⟩

theorem Remaps.pagesChangedResidency (h : Remaps s t) :
    t.context.pagesChangedResidency = s.context.pagesChangedResidency := by
  obtain ⟨_, hcontext⟩ := h.context
  rw [hcontext]

theorem Remaps.allInvolvedProcessors (h : Remaps s t) :
    t.context.allInvolvedProcessors = s.context.allInvolvedProcessors := by
  obtain ⟨_, hcontext⟩ := h.context
  rw [hcontext]

theorem request_remaps (r : MapRequest) : Keeps Remaps (request P r) :=
  fun _ => ⟨rfl, rfl, rfl, _, rfl⟩

theorem skip_remaps : Keeps Remaps (skip : ServiceCall) := Remaps.refl

theorem populatePages_remaps (mask : Finset Nat) : Keeps Remaps (populatePages P dest mask) := by
  intro s
  show Remaps s (if dest = uvmIdCpu then s else _)
  split
  · exact Remaps.refl s
  · exact ⟨rfl, rfl, rfl, _, rfl⟩

theorem revokeFor_remaps (plan : MapPlan) (prot : Prot) : Keeps Remaps (revokeFor P plan prot) :=
  Keeps.choose fun _ => Keeps.ite skip_remaps (request_remaps _)

theorem mapFor_remaps (plan : MapPlan) (prot : Prot) : Keeps Remaps (mapFor P plan prot) := by
  refine Keeps.choose fun s => Keeps.ite skip_remaps ?_
  refine Keeps.andThen Remaps.trans (Keeps.ite (request_remaps _) skip_remaps) ?_
  refine Keeps.ite ?_ (request_remaps _)
  -- pinned pages first, then the others
  exact Keeps.andThen Remaps.trans (request_remaps _) (Keeps.ite skip_remaps (request_remaps _))

theorem accessedByFor_remaps (plan : MapPlan) (prot : Prot) :
    Keeps Remaps (accessedByFor P plan prot) := by
  refine Keeps.choose fun s => Keeps.ite skip_remaps (Keeps.ite ?_ (request_remaps _))
  refine Keeps.andThen Remaps.trans ?_ (Keeps.ite skip_remaps (request_remaps _))
  exact Keeps.forEach Remaps.refl Remaps.trans (fun _ => request_remaps _) _

theorem mapPages_remaps : Keeps Remaps (mapPages P processorId) := by
  refine Keeps.choose fun s => Keeps.andThen Remaps.trans ?_ (Keeps.andThen Remaps.trans ?_ ?_)
  · exact Keeps.forEach Remaps.refl Remaps.trans (revokeFor_remaps _) _
  · exact Keeps.forEach Remaps.refl Remaps.trans (mapFor_remaps _) _
  · exact Keeps.forEach Remaps.refl Remaps.trans (accessedByFor_remaps _) _

/-! ## In one piece everything is supported -/

section Supported

theorem ok_supported : (Success.ok : NvStatus) ≠ .errNotSupported := by decide

theorem skip_supported : Avoids .errNotSupported (skip : ServiceCall) := fun _ => ok_supported

theorem request_supported (r : MapRequest) : Avoids .errNotSupported (request P r) :=
  fun s => P.perform_supported s.pages r

theorem copyResidentPages_supported (mask : Finset Nat) (mode : TransferMode) :
    Avoids .errNotSupported (copyResidentPages P dest mask mode) :=
  fun s => P.copyPages_supported s.pages.resident _

theorem makeResidentCopy_supported (mask : Finset Nat) :
    Avoids .errNotSupported (makeResidentCopy P dest mask) := by
  refine .andThen (.choose fun s => ?_) (copyResidentPages_supported mask .move)
  refine (Avoids.alter ok_supported).andThen ((request_supported _).andThen ?_)
  exact (request_supported _).andThen (.alter ok_supported)

theorem makeResidentReadDuplicate_supported (mask : Finset Nat) :
    Avoids .errNotSupported (makeResidentReadDuplicate P dest mask) := by
  refine .choose fun s => (Avoids.alter ok_supported).andThen (.andThen ?_ ?_)
  · refine .forEach ok_supported (fun src => .ite skip_supported ?_) _
    exact .choose fun s => (request_supported _).andThen (request_supported _)
  · refine (Avoids.alter ok_supported).andThen ?_
    exact (copyResidentPages_supported mask .copy).andThen (.alter ok_supported)

theorem checkEccErrorNoRm_supported (id : Nat) :
    Avoids .errNotSupported (checkEccErrorNoRm P id) := by
  intro s
  unfold checkEccErrorNoRm
  split
  · exact ok_supported
  · exact P.checkEccError_supported id

theorem waitAndCheckEcc_supported : Avoids .errNotSupported (waitAndCheckEcc P dest) := by
  refine .choose fun s => .ite (.andThen ?_ ?_) skip_supported
  · exact fun _ => P.trackerWait_supported
  · exact .forEach ok_supported checkEccErrorNoRm_supported _

theorem serviceCopy_supported : Avoids .errNotSupported (serviceCopy P dest) := by
  refine .choose fun s => (Avoids.alter ok_supported).andThen
    (.andThen (.ite ?_ ?_) waitAndCheckEcc_supported)
  · exact (Avoids.alter ok_supported).andThen (makeResidentCopy_supported _)
  -- read-duplicated pages, then the others
  · refine (Avoids.alter ok_supported).andThen (.andThen ?_ ?_)
    · exact .ite skip_supported (makeResidentReadDuplicate_supported _)
    · exact (Avoids.alter ok_supported).andThen
        (.ite skip_supported (makeResidentCopy_supported _))

theorem serviceFinish_supported : Avoids .errNotSupported (serviceFinish P processorId) := by
  refine (Avoids.alter ok_supported).andThen (.choose fun s => ?_)
  refine .andThen ?_ (.andThen ?_ ?_)
  · refine .forEach ok_supported (fun prot => .choose fun s => ?_) _
    exact .ite skip_supported (request_supported _)
  · refine .forEach ok_supported (fun prot => .choose fun s => ?_) _
    refine .ite skip_supported (.andThen ?_ (.ite ?_ (request_supported _)))
    · exact .ite (request_supported _) skip_supported
    · exact (request_supported _).andThen (.ite skip_supported (request_supported _))
  · refine .forEach ok_supported (fun prot => .choose fun s => ?_) _
    refine .ite skip_supported (.ite ?_ (request_supported _))
    refine .andThen ?_ (.ite skip_supported (request_supported _))
    exact .forEach ok_supported (fun _ => request_supported _) _

theorem serviceLocked_supported : Avoids .errNotSupported (serviceLocked P st processorId) := by
  refine (Avoids.alter ok_supported).andThen (.choose fun s => ?_)
  exact .forEach ok_supported
    (fun _ => serviceCopy_supported.andThen serviceFinish_supported) _

end Supported

/-! ## Up to the copies -/

/-- Both ways up to the copies, for the one target of a context without read duplication. -/
def prepare (P : Platform) (dest : Nat) (mask : Finset Nat) : ServiceCall :=
  (setCallerPageMask mask).andThen (makeResidentPopulate P dest mask)

theorem prepare_commutes {pages processors : Finset Nat} (mask : Finset Nat) :
    Commutes (ServiceState.leftover pages processors) (prepare P dest mask) :=
  Commutes.andThen (Commutes.alter fun _ => rfl) (makeResidentPopulate_commutes mask)

/-- The context that is given a destination and its pages. -/
def ServiceState.aimed (s : ServiceState) (dest : Nat) (mask : Finset Nat) : ServiceState :=
  { s with context := { s.context with callerPageMask := mask, destId := dest } }

theorem prepare_remaps (mask : Finset Nat) :
    Remaps (s.aimed dest mask) (prepare P dest mask s).2 := by
  rw [prepare, setCallerPageMask, alter_andThen]
  simp only [makeResidentPopulate, Call.choose, alter_andThen]
  refine Keeps.andThen Remaps.trans (request_remaps _) ?_ (s.aimed dest mask)
  exact Keeps.andThen Remaps.trans (request_remaps _) (populatePages_remaps mask)

theorem filter_of_soleProcessor {mask : Nat → Bool} (h : soleProcessor mask = some dest) :
    (List.range uvmIdMaxProcessors).filter mask = [dest] := by
  unfold soleProcessor at h
  split at h
  next proc hfilter =>
    obtain rfl : proc = dest := Option.some.inj h
    exact hfilter
  next => cases h

theorem getPrefetchHint_residentProcessors (c : ServiceContext) :
    (getPrefetchHint st c).residentProcessors = c.residentProcessors := by
  unfold getPrefetchHint
  split
  · rfl
  split
  · rfl
  · exact (st.hintPages_masks c.toServiceBlockContext _).1

theorem targets_getPrefetchHint (hsole : soleProcessor s.service.residentProcessors = some dest) :
    (s.getPrefetchHint st).targets = [dest] := by
  rw [ServiceState.targets, ServiceState.getPrefetchHint, getPrefetchHint_residentProcessors]
  exact filter_of_soleProcessor hsole

/-- The hint for the target read-duplicates no page. -/
def HintMoves (st : BlockState block) (s : ServiceState) (dest : Nat) : Prop :=
  ∀ hint, st.prefetchHint dest (s.service.newResidency dest) s.service.region = some hint →
    ∀ page, hint page → st.readDuplicates page = false

theorem readDuplicateCount_getPrefetchHint
    (hsole : soleProcessor s.service.residentProcessors = some dest)
    (hcount : s.service.readDuplicateCount = 0) :
    (s.getPrefetchHint st).service.readDuplicateCount = 0 ↔ HintMoves st s dest := by
  show (getPrefetchHint st s.service).readDuplicateCount = 0 ↔ _
  cases hhint : st.prefetchHint dest (s.service.newResidency dest) s.service.region with
  | none =>
    have hsame : getPrefetchHint st s.service = s.service := by
      simp only [getPrefetchHint, hsole, hhint]
    rw [hsame]
    exact iff_of_true hcount fun hint h => absurd (hhint.symm.trans h) (by simp)
  | some hint =>
    have hpages := st.hintPages_readDuplicateCount s.service.toServiceBlockContext
      ((List.range block.numCpuPages).filter hint)
    have hcounts : (getPrefetchHint st s.service).readDuplicateCount =
        (st.hintPages s.service.toServiceBlockContext
          ((List.range block.numCpuPages).filter hint)).readDuplicateCount := by
      simp only [getPrefetchHint, hsole, hhint]
    rw [← hcounts, hcount, decide_eq_false (Nat.lt_irrefl 0), Bool.or_false] at hpages
    have hzero : (getPrefetchHint st s.service).readDuplicateCount = 0 ↔
        ((List.range block.numCpuPages).filter hint).any st.readDuplicates = false := by
      rw [← hpages, decide_eq_false_iff_not, Nat.not_lt, Nat.le_zero]
    rw [hzero, List.any_eq_false]
    constructor
    · intro hnone hint' hhint' page hpage
      obtain rfl : hint = hint' := Option.some.inj (hhint.symm.trans hhint')
      have hmem : page ∈ (List.range block.numCpuPages).filter hint := by
        rw [List.mem_filter, List.mem_range]
        exact ⟨st.hint_lt _ _ _ _ hhint page hpage, hpage⟩
      exact Bool.eq_false_iff.2 (hnone page hmem)
    · intro hmoves page hpage
      exact Bool.eq_false_iff.1 (hmoves hint hhint page (List.mem_filter.1 hpage).2)

/-! ## What the item does itself -/

/-- The copies of the pages of the context, with those of the hint. -/
def ServiceState.ownCopies (P : Platform) (st : BlockState block) (s : ServiceState) (dest : Nat) :
    CopyOutcome :=
  P.copyPages s.pages.resident
    ⟨dest, (s.getPrefetchHint st).service.region, (s.getPrefetchHint st).newResidency dest, .move⟩

/-- The pages that become resident on the target: those that are copied, and those that were not
resident there before. -/
def ServiceState.ownPages (P : Platform) (st : BlockState block) (s : ServiceState) (dest : Nat) :
    Finset Nat :=
  let copies := s.ownCopies P st dest
  let mask := (s.getPrefetchHint st).newResidency dest
  if copies.status = .ok then
    (copies.migrated ∩ mask) ∪
      ((mask \ s.pages.resident dest) ∩ pagesOf (s.getPrefetchHint st).service.region)
  else ∅

/-- The state after the copies from a state without leftovers. -/
def ServiceState.copied (t : ServiceState) (copies : CopyOutcome) : ServiceState :=
  { t with context :=
    { t.context with
      pagesMigrated := copies.migrated
      allInvolvedProcessors := t.context.allInvolvedProcessors ∪ copies.involved } }

theorem finishResidency_pagesChangedResidency (hcount : t.service.readDuplicateCount = 0) :
    t.finishResidency.context.pagesChangedResidency =
      t.context.pagesChangedResidency ∪ ((t.context.pagesMigrated ∩ t.context.callerPageMask) ∪
        ((t.context.callerPageMask \ t.pages.resident t.context.destId) ∩
          pagesOf t.service.region)) := by
  rw [ServiceState.finishResidency, if_pos (.inl hcount)]
  show t.context.pagesChangedResidency ∪ (_ ∪ _) = _
  congr 1
  ext page
  simp only [Finset.mem_union, Finset.mem_inter, Finset.mem_sdiff]
  tauto

/-! ## From the copies on -/

/-- The two ways end alike. -/
structure SameService (r r' : NvStatus × ServiceState) : Prop where
  status : r.1 = r'.1
  pagesChangedResidency :
    r.2.context.pagesChangedResidency = r'.2.context.pagesChangedResidency
  allInvolvedProcessors :
    r.2.context.allInvolvedProcessors = r'.2.context.allInvolvedProcessors
  pages : r.2.pages = r'.2.pages
  /-- The wait and the ECC checks. -/
  ecc : r.2.ecc = r'.2.ecc

section AfterCopies

variable {pages processors : Finset Nat}

theorem sameService_leftover_iff {status : NvStatus} :
    SameService (status, t.leftover pages processors) (status, t) ↔
      pages ⊆ t.context.pagesChangedResidency ∧ processors ⊆ t.context.allInvolvedProcessors := by
  constructor
  · intro h
    exact ⟨Finset.union_eq_right.1 h.pagesChangedResidency,
      Finset.union_eq_right.1 h.allInvolvedProcessors⟩
  · rintro ⟨hpages, hprocs⟩
    rw [leftover_eq_self hpages hprocs]
    exact ⟨rfl, rfl, rfl, rfl, rfl⟩

theorem serviceFinish_remaps : Remaps t.finishResidency (serviceFinish P processorId t).2 := by
  rw [serviceFinish, alter_andThen]
  exact mapPages_remaps _

theorem serviceFinish_leftover_iff :
    SameService (serviceFinish P processorId (t.leftover pages processors))
        (serviceFinish P processorId t) ↔
      pages ⊆ t.finishResidency.context.pagesChangedResidency ∧
        processors ⊆ t.finishResidency.context.allInvolvedProcessors := by
  constructor
  · intro h
    -- the page-table work leaves the masks as the finish of the residency set them
    have hleft : Remaps (t.finishResidency.leftover pages processors)
        (serviceFinish P processorId (t.leftover pages processors)).2 := by
      rw [← finishResidency_leftover]
      exact serviceFinish_remaps
    have hpages := h.pagesChangedResidency
    have hprocs := h.allInvolvedProcessors
    rw [hleft.pagesChangedResidency, serviceFinish_remaps.pagesChangedResidency] at hpages
    rw [hleft.allInvolvedProcessors, serviceFinish_remaps.allInvolvedProcessors] at hprocs
    exact ⟨Finset.union_eq_right.1 hpages, Finset.union_eq_right.1 hprocs⟩
  · rintro ⟨hpages, hprocs⟩
    have hsame : serviceFinish P processorId (t.leftover pages processors) =
        serviceFinish P processorId t := by
      rw [serviceFinish, alter_andThen, alter_andThen, finishResidency_leftover,
        leftover_eq_self hpages hprocs]
    rw [hsame]
    exact ⟨rfl, rfl, rfl, rfl, rfl⟩

theorem finishResidency_allInvolvedProcessors :
    t.finishResidency.context.allInvolvedProcessors = t.context.allInvolvedProcessors := by
  unfold ServiceState.finishResidency
  split <;> rfl

theorem finishResidency_ecc : t.finishResidency.ecc = t.ecc := by
  unfold ServiceState.finishResidency
  split <;> rfl

theorem checks_waits (ids : List Nat) :
    Keeps (fun s t : ServiceState => t.ecc.waits = s.ecc.waits)
      (forEach (checkEccErrorNoRm P) ids) := by
  refine Keeps.forEach (R := fun s t : ServiceState => t.ecc.waits = s.ecc.waits)
    (fun _ => rfl) (fun _ _ _ hab hbc => hbc.trans hab) (fun id s => ?_) ids
  unfold checkEccErrorNoRm
  split <;> rfl

theorem waits_of_cpu (hinvolved : t.context.allInvolvedProcessors ≠ ∅) :
    (((waitAndCheckEcc P uvmIdCpu).andThen (serviceFinish P processorId)) t).2.ecc.waits =
      t.ecc.waits + 1 := by
  have hwait : (waitAndCheckEcc P uvmIdCpu t).2.ecc.waits = t.ecc.waits + 1 := by
    rw [waitAndCheckEcc, Call.choose, if_pos ⟨rfl, hinvolved⟩]
    by_cases hok : P.trackerWait = .ok
    · rw [andThen_of_ok (f := waitForTracker P) hok]
      exact checks_waits _ _
    · rw [andThen_of_fails (f := waitForTracker P) hok]
      rfl
  by_cases hok : (waitAndCheckEcc P uvmIdCpu t).1 = .ok
  · rw [andThen_of_ok hok, serviceFinish_remaps.ecc, finishResidency_ecc]
    exact hwait
  · rw [andThen_of_fails hok]
    exact hwait

theorem after_copies_iff {mask : Finset Nat} (hcount : t.service.readDuplicateCount = 0)
    (hcaller : t.context.callerPageMask = mask) (hdest : t.context.destId = dest)
    (hpages : t.context.pagesChangedResidency = ∅) (hprocs : t.context.allInvolvedProcessors = ∅)
    {copies : CopyOutcome}
    (hcopies : P.copyPages t.pages.resident ⟨dest, t.service.region, mask, .move⟩ = copies) :
    SameService
        (((copyResidentPages P dest mask .move).andThen (serviceFinish P processorId))
          (t.leftover pages processors))
        (((copyResidentPages P dest mask .move).andThen
          ((waitAndCheckEcc P dest).andThen (serviceFinish P processorId))) t) ↔
      (pages ⊆ if copies.status = .ok then
          (copies.migrated ∩ mask) ∪ ((mask \ t.pages.resident dest) ∩ pagesOf t.service.region)
        else ∅) ∧
      processors ⊆ copies.involved ∧
      (dest = uvmIdCpu → copies.status = .ok → copies.involved = ∅) := by
  -- the copies, on the state with the leftovers and on the one without
  have hcopy : copyResidentPages P dest mask .move t = (copies.status, t.copied copies) := by
    simp only [copyResidentPages, hcopies, ServiceState.copied]
  have hcopyLeft : copyResidentPages P dest mask .move (t.leftover pages processors) =
      (copies.status, (t.copied copies).leftover pages processors) := by
    rw [copyResidentPages_commutes mask .move t, hcopy]
  have hinvolved : (t.copied copies).context.allInvolvedProcessors = copies.involved := by
    simp [ServiceState.copied, hprocs]
  by_cases hok : copies.status = .ok
  · rw [andThen_of_ok (by rw [hcopyLeft]; exact hok), andThen_of_ok (by rw [hcopy]; exact hok),
      hcopyLeft, hcopy]
    by_cases hwait : dest = uvmIdCpu ∧ copies.involved ≠ ∅
    -- only the service in one piece waits
    · obtain ⟨rfl, hne⟩ := hwait
      refine iff_of_false (fun h => ?_) (fun h => hne (h.2.2 rfl hok))
      have hecc := congrArg EccCheck.waits h.ecc
      rw [waits_of_cpu (hinvolved ▸ hne), serviceFinish_remaps.ecc, finishResidency_ecc] at hecc
      exact absurd hecc (Nat.ne_of_lt (Nat.lt_succ_self _))
    · have hskip : waitAndCheckEcc P dest (t.copied copies) = (.ok, t.copied copies) := by
        rw [waitAndCheckEcc, Call.choose, if_neg (by rwa [hinvolved])]
        rfl
      have hcpu : dest = uvmIdCpu → copies.status = .ok → copies.involved = ∅ :=
        fun h _ => by_contra fun hne => hwait ⟨h, hne⟩
      have hchanged : (t.copied copies).finishResidency.context.pagesChangedResidency =
          (copies.migrated ∩ mask) ∪
            ((mask \ t.pages.resident dest) ∩ pagesOf t.service.region) := by
        rw [finishResidency_pagesChangedResidency (t := t.copied copies) hcount]
        simp [ServiceState.copied, hcaller, hdest, hpages]
      rw [andThen_of_ok (by rw [hskip]; rfl), hskip, serviceFinish_leftover_iff, hchanged,
        finishResidency_allInvolvedProcessors, hinvolved, if_pos hok]
      exact and_congr_right fun _ => (and_iff_left hcpu).symm
  -- the copies fail in both, and nothing is finished
  · rw [andThen_of_fails (by rw [hcopyLeft]; exact hok), andThen_of_fails (by rw [hcopy]; exact hok),
      hcopyLeft, hcopy, sameService_leftover_iff, hinvolved, if_neg hok]
    have hchanged : (t.copied copies).context.pagesChangedResidency = ∅ := hpages
    rw [hchanged]
    exact and_congr_right fun _ => (and_iff_left fun _ h => absurd h hok).symm

end AfterCopies

/-! ## The two ways compared -/

section Compared

variable (hsole : soleProcessor s.service.residentProcessors = some dest)
include hsole

theorem serviceLocked_eq (hcount : (s.getPrefetchHint st).service.readDuplicateCount = 0) :
    serviceLocked P st processorId s =
      ((prepare P dest ((s.getPrefetchHint st).newResidency dest)).andThen
        ((copyResidentPages P dest ((s.getPrefetchHint st).newResidency dest) .move).andThen
          ((waitAndCheckEcc P dest).andThen (serviceFinish P processorId))))
        (s.getPrefetchHint st).resetMasks := by
  rw [serviceLocked, alter_andThen, Call.choose, targets_getPrefetchHint hsole]
  simp only [forEach, andThen_skip]
  rw [serviceCopy, choose_andThen]
  simp only [if_pos hcount, andThen_assoc, alter_andThen, prepare, makeResidentCopy]

theorem serviceLockedPopulate_eq (hcount : s.service.readDuplicateCount = 0) :
    serviceLockedPopulate P st s =
      prepare P dest ((s.getPrefetchHint st).newResidency dest) (s.getPrefetchHint st) := by
  rw [serviceLockedPopulate, Call.choose, if_neg (by simp [hsole]), if_neg (not_not.2 hcount),
    alter_andThen, Call.choose, targets_getPrefetchHint hsole]
  simp only [forEach, andThen_skip]
  rfl

end Compared

theorem Remaps.of_aimed {mask : Finset Nat} (h : Remaps (s.resetMasks.aimed dest mask) t) :
    t.context.callerPageMask = mask ∧ t.context.destId = dest ∧
      t.context.pagesChangedResidency = ∅ ∧ t.context.allInvolvedProcessors = ∅ := by
  obtain ⟨_, hcontext⟩ := h.context
  rw [hcontext]
  exact ⟨rfl, rfl, rfl, rfl⟩

theorem serviceCopyFinish_eq (hcount : t.service.readDuplicateCount = 0) :
    serviceCopyFinish P processorId t =
      ((copyResidentPages P t.context.destId t.context.callerPageMask .move).andThen
        (serviceFinish P processorId)) t := by
  rw [serviceCopyFinish, Call.choose, if_neg (not_not.2 hcount)]

theorem serviceCopyFinish_unsupported (hcount : t.service.readDuplicateCount ≠ 0) :
    (serviceCopyFinish P processorId t).1 = .errNotSupported := by
  rw [serviceCopyFinish, Call.choose, if_pos hcount]
  rfl

/-- What an item must find for the split to make no difference. -/
structure StagesAgree (P : Platform) (st : BlockState block) (s : ServiceState) (dest : Nat) :
    Prop where
  /-- The prefetch hint read-duplicates no page. -/
  hint : HintMoves st s dest
  /-- Pages left over from earlier items become resident on the target once more. -/
  pages : s.context.pagesChangedResidency ⊆ s.ownPages P st dest
  /-- Processors left over from earlier items are involved in the copies once more. -/
  processors : s.context.allInvolvedProcessors ⊆ (s.ownCopies P st dest).involved
  /-- Nothing is copied to the CPU. -/
  cpu : dest = uvmIdCpu → (s.ownCopies P st dest).status = .ok →
    (s.ownCopies P st dest).involved = ∅

/-- For one target and no read-duplicated page, if populating succeeds: the two calls end like the
one exactly if the hint read-duplicates nothing, the leftovers in the block context are pages and
processors of the item itself, and nothing is copied to the CPU. -/
theorem staged_service_same_iff (P : Platform) (st : BlockState block) (processorId dest : Nat)
    (s : ServiceState) (hsole : soleProcessor s.service.residentProcessors = some dest)
    (hcount : s.service.readDuplicateCount = 0) (hpop : (serviceLockedPopulate P st s).1 = .ok) :
    SameService (serviceStaged P st processorId s) (serviceLocked P st processorId s) ↔
      StagesAgree P st s dest := by
  have hmoves : (s.getPrefetchHint st).service.readDuplicateCount = 0 ↔ _ :=
    readDuplicateCount_getPrefetchHint hsole hcount
  -- the state after the first call is one without leftovers, and the leftovers
  obtain ⟨status, t, ht⟩ : ∃ status t, prepare P dest ((s.getPrefetchHint st).newResidency dest)
      (s.getPrefetchHint st).resetMasks = (status, t) := ⟨_, _, rfl⟩
  have hpopulate : serviceLockedPopulate P st s = (status, t.leftover
      s.context.pagesChangedResidency s.context.allInvolvedProcessors) := by
    have hcommutes : prepare P dest ((s.getPrefetchHint st).newResidency dest)
        ((s.getPrefetchHint st).resetMasks.leftover
          s.context.pagesChangedResidency s.context.allInvolvedProcessors) = _ :=
      prepare_commutes _ _
    rw [ht] at hcommutes
    rw [serviceLockedPopulate_eq hsole hcount, ← hcommutes]
    exact congrArg _ (leftover_resetMasks (s.getPrefetchHint st)).symm
  obtain rfl : status = .ok := by rwa [hpopulate] at hpop
  have hremaps : Remaps ((s.getPrefetchHint st).resetMasks.aimed dest
      ((s.getPrefetchHint st).newResidency dest)) t := by
    have hprepare : Remaps _ (prepare P dest ((s.getPrefetchHint st).newResidency dest)
        (s.getPrefetchHint st).resetMasks).2 := prepare_remaps _
    rwa [ht] at hprepare
  have hservice : t.service = (s.getPrefetchHint st).service := hremaps.service
  rw [serviceStaged, andThen_of_ok hpop, hpopulate]
  by_cases hmove : HintMoves st s dest
  · have hzero : t.service.readDuplicateCount = 0 := by rw [hservice, hmoves.2 hmove]
    obtain ⟨hcaller, hdest, hpages, hprocs⟩ := hremaps.of_aimed
    have hcopies : P.copyPages t.pages.resident ⟨dest, t.service.region,
        (s.getPrefetchHint st).newResidency dest, .move⟩ = s.ownCopies P st dest := by
      rw [hremaps.resident, hservice]
      rfl
    have hresident : t.pages.resident = s.pages.resident := hremaps.resident
    have hafter : SameService
        (((copyResidentPages P dest ((s.getPrefetchHint st).newResidency dest) .move).andThen
            (serviceFinish P processorId))
          (t.leftover s.context.pagesChangedResidency s.context.allInvolvedProcessors)) _ ↔ _ :=
      after_copies_iff hzero hcaller hdest hpages hprocs hcopies
    have hlocked : serviceLocked P st processorId s = _ :=
      serviceLocked_eq hsole (hmoves.2 hmove)
    rw [andThen_of_ok (by rw [ht]; rfl), ht] at hlocked
    rw [hlocked, serviceCopyFinish_eq (by exact hzero)]
    show SameService (((copyResidentPages P t.context.destId t.context.callerPageMask .move).andThen
      _) _) _ ↔ _
    rw [hdest, hcaller, hafter, hresident, hservice]
    exact ⟨fun h => ⟨hmove, h.1, h.2.1, h.2.2⟩, fun h => ⟨h.pages, h.processors, h.cpu⟩⟩
  -- the hint has read-duplicated a page, and only the second call minds
  · refine iff_of_false (fun h => ?_) (fun h => hmove h.hint)
    have hstatus := h.status
    rw [serviceCopyFinish_unsupported] at hstatus
    · exact serviceLocked_supported s hstatus.symm
    · show t.service.readDuplicateCount ≠ 0
      rw [hservice]
      exact fun h => hmove (hmoves.1 h)

/-! ## A GPU and the CPU -/

/-- The page tables of a CPU and a GPU without accessed-by policies: revoking atomics leaves the
CPU read access. -/
def plainMappings (m : Nat → Nat → Prot) : MapRequest → Nat → Nat → Prot
  | .unmap ids region mask => fun id page =>
    if id ∈ ids ∧ page ∈ mask ∩ pagesOf region then .none else m id page
  | .revoke ids region mask prot => fun id page =>
    if id ∈ ids ∧ page ∈ mask ∩ pagesOf region ∧ prot.toNat ≤ (m id page).toNat then .readOnly
    else m id page
  | .map id region mask prot => fun id' page =>
    if id' = id ∧ page ∈ mask ∩ pagesOf region ∧ (m id page).toNat < prot.toNat then prot
    else m id' page
  | .addMappings _ _ _ _ _ _ => m

/-- The pages of a copy between the CPU and the GPU. -/
def plainCopied (resident : Nat → Finset Nat) (r : CopyRequest) : Finset Nat :=
  (r.mask ∩ pagesOf r.region ∩ resident (1 - r.destId)) \ resident r.destId

def plainPlatform : Platform where
  uvmLiteGpus := ∅
  canCopyFrom _ := {0, 1}
  registeredGpus := {1}
  faultableProcessors := {0, 1}
  systemWideAtomicsEnabled := {0, 1}
  hasNativeAtomics _ := ∅
  toolsEnabled := false
  thrashingProcessors _ := ∅
  computeNewPermission _ _ _ _ access := if access = .write then .readWrite else .readOnly
  perform b r := (.ok, plainMappings b.mappings r)
  copyPages resident r :=
    { status := .ok
      migrated := plainCopied resident r
      involved := if plainCopied resident r = ∅ then ∅ else {0, 1} }
  trackerWait := .ok
  checkEccError _ := .ok
  perform_supported := fun _ _ => ok_supported
  copyPages_supported := fun _ _ => ok_supported
  trackerWait_supported := ok_supported
  checkEccError_supported := fun _ => ok_supported

/-- A write of the GPU to the first page of the block, which is resident on the GPU and mapped on
the CPU. The page goes to the target, and the block context is what earlier items left. -/
def firstPageWrite (target : Nat) (context : BlockContext) : ServiceState where
  service :=
    { residentProcessors := fun id => id = target
      newResidency := fun id page => id = target ∧ page = 0
      accessType := fun _ => .write
      region := (0, 1) }
  context := context
  pages :=
    { resident := fun id => if id = 1 then {0} else ∅
      readDuplicatedPages := ∅
      mappings := fun id page => if id = 0 ∧ page = 0 then .readWriteAtomic else .none }

/-- The other page of the block is prefetched, and the policy is to duplicate pages for reading. -/
def duplicatingHint : BlockState twoPageBlock :=
  { mappedAt [] with
    prefetchHint := fun _ pages _ => some fun page => page = 1 ∧ pages 1 = false
    hint_lt := by
      intro proc pages region hint h page hpage
      cases h
      obtain ⟨rfl, -⟩ := of_decide_eq_true hpage
      decide
    hint_new := by
      intro proc pages region hint h page hpage
      cases h
      obtain ⟨rfl, hnew⟩ := of_decide_eq_true hpage
      exact hnew
    policyReadDuplicate := true }

/-- An item that finds a clean block context. -/
theorem clean_context_same :
    (serviceLockedPopulate plainPlatform (mappedAt []) (firstPageWrite 1 {})).1 = .ok ∧
      SameService (serviceStaged plainPlatform (mappedAt []) 1 (firstPageWrite 1 {}))
        (serviceLocked plainPlatform (mappedAt []) 1 (firstPageWrite 1 {})) := by
  have hpop : (serviceLockedPopulate plainPlatform (mappedAt []) (firstPageWrite 1 {})).1 = .ok := by
    decide +kernel
  refine ⟨hpop, ?_⟩
  refine (staged_service_same_iff plainPlatform (mappedAt []) 1 1 (firstPageWrite 1 {})
    (by decide +kernel) rfl hpop).2 ?_
  refine ⟨(fun hint h => nomatch h), Finset.empty_subset _, Finset.empty_subset _, ?_⟩
  exact fun h => absurd h (by decide)

/-- The conditions under which the two ways are compared. -/
def Comparable (st : BlockState block) (s : ServiceState) (dest : Nat) : Prop :=
  soleProcessor s.service.residentProcessors = some dest ∧ s.service.readDuplicateCount = 0 ∧
    (serviceLockedPopulate plainPlatform st s).1 = .ok

/-- An earlier item has moved a page of the same number: the CPU keeps write access to the page
that the GPU is about to write. A hint with read duplication fails the second call. And a page
that goes to the CPU is not checked for ECC errors. -/
theorem split_changes_service :
    (∃ s, Comparable (mappedAt []) s 1 ∧
      (serviceStaged plainPlatform (mappedAt []) 1 s).2.pages.mappings 0 0 = .readWriteAtomic ∧
      (serviceLocked plainPlatform (mappedAt []) 1 s).2.pages.mappings 0 0 = .readOnly ∧
      ¬ SameService (serviceStaged plainPlatform (mappedAt []) 1 s)
        (serviceLocked plainPlatform (mappedAt []) 1 s)) ∧
    (∃ s, Comparable duplicatingHint s 1 ∧
      (serviceStaged plainPlatform duplicatingHint 1 s).1 = .errNotSupported ∧
      (serviceLocked plainPlatform duplicatingHint 1 s).1 = .ok ∧
      ¬ SameService (serviceStaged plainPlatform duplicatingHint 1 s)
        (serviceLocked plainPlatform duplicatingHint 1 s)) ∧
    (∃ s, Comparable (mappedAt []) s uvmIdCpu ∧
      (serviceStaged plainPlatform (mappedAt []) 1 s).2.ecc = {} ∧
      (serviceLocked plainPlatform (mappedAt []) 1 s).2.ecc = { waits := 1, checked := [1] } ∧
      ¬ SameService (serviceStaged plainPlatform (mappedAt []) 1 s)
        (serviceLocked plainPlatform (mappedAt []) 1 s)) := by
  refine ⟨⟨firstPageWrite 1 { pagesChangedResidency := {0} }, ?_⟩, ⟨firstPageWrite 1 {}, ?_⟩,
    ⟨firstPageWrite uvmIdCpu {}, ?_⟩⟩
  · refine ⟨by unfold Comparable; decide +kernel, by decide +kernel, by decide +kernel, fun h => ?_⟩
    have hmapped := congrFun (congrFun (congrArg BlockPages.mappings h.pages) 0) 0
    exact absurd hmapped (by decide +kernel)
  · refine ⟨by unfold Comparable; decide +kernel, by decide +kernel, by decide +kernel, fun h => ?_⟩
    exact absurd h.status (by decide +kernel)
  · refine ⟨by unfold Comparable; decide +kernel, by decide +kernel, by decide +kernel, fun h => ?_⟩
    exact absurd h.ecc (by decide +kernel)

end FaultMesh.Stages
