import FaultMesh.AsyncPipeline

/-!
# The async pipeline loses and repeats nothing

What was accepted is either in a slot that was not served, or was run; counted with repetitions,
the two together are the accepted submissions. A coordinator that reads `pd_copy` and then `cd` as
free cannot miss an item that is moved in between, as items move the other way.
-/

namespace FaultMesh.Async

open Pipeline

variable {σ β μ : Type*} {nodes : Nat} {L : Layout} {s t : Pipeline σ β μ}
  {l : PipelineLabel σ β μ}

/-! ## Accepted and pending submissions -/

def acceptedJobs (subs : List (Submission σ β μ)) : List (Option Nat) :=
  (subs.zipIdx.filter fun x => x.1.accepted).map fun x => some x.2

theorem acceptedJobs_concat (subs : List (Submission σ β μ)) (sub : Submission σ β μ) :
    acceptedJobs (subs ++ [sub]) =
      acceptedJobs subs ++ if sub.accepted then [some subs.length] else [] := by
  cases hacc : sub.accepted <;>
    simp [acceptedJobs, List.zipIdx_append, List.filter_append, hacc]

variable {j : Nat}

theorem mem_acceptedJobs {subs : List (Submission σ β μ)} :
    some j ∈ acceptedJobs subs ↔ ∃ sub, subs[j]? = some sub ∧ sub.accepted = true := by
  simp [acceptedJobs, List.mem_zipIdx_iff_getElem?]

theorem nodup_acceptedJobs (subs : List (Submission σ β μ)) : (acceptedJobs subs).Nodup := by
  have hnum : (subs.zipIdx.map Prod.snd).Nodup := by
    rw [List.zipIdx_map_snd]
    exact List.nodup_range'
  have hsub : ((subs.zipIdx.filter fun x => x.1.accepted).map Prod.snd).Nodup :=
    hnum.sublist (List.filter_sublist.map _)
  have hmap : acceptedJobs subs =
      ((subs.zipIdx.filter fun x => x.1.accepted).map Prod.snd).map some := by
    simp [acceptedJobs]
  rw [hmap]
  exact hsub.map (Option.some_injective Nat)

namespace Pipeline

/-- The item of `pd_copy`, if it is occupied. -/
def pdPending (s : Pipeline σ β μ) : List (Option Nat) := if s.pd.occupied then [s.pd.job] else []

/-- The item of `cd`, if it is occupied and was not served. -/
def cdPending (s : Pipeline σ β μ) : List (Option Nat) :=
  if s.cd.occupied && !s.consumer.served then [s.cd.job] else []

/-- The item of `cd`, if it was served and its status is about to be stored. -/
def storing (s : Pipeline σ β μ) : List (Option Nat) :=
  match s.consumer with
  | .store _ => [s.cd.job]
  | _ => []

def pending (s : Pipeline σ β μ) : List (Option Nat) := s.pdPending ++ s.cdPending

/-- A slot holds the item of a submission, served or not. -/
def Holds (s : Pipeline σ β μ) (j : Nat) : Prop :=
  s.pd.occupied = true ∧ s.pd.job = some j ∨ s.cd.occupied = true ∧ s.cd.job = some j

def runsOf (s : Pipeline σ β μ) (j : Nat) : List (CopyRun σ β μ) :=
  s.ran.filter fun r => r.job = some j

end Pipeline

/-! ## The ledger -/

structure Ledger (s : Pipeline σ β μ) : Prop where
  /-- Runs and pending items together are the accepted submissions. -/
  conserved : (s.ran.map CopyRun.job ++ s.pending).Perm (acceptedJobs s.submissions)
  /-- A run is the one that its submission asks for. -/
  own : ∀ r ∈ s.ran, ∃ (j : Nat) (sub : Submission σ β μ), s.submissions[j]? = some sub ∧
    r = sub.run j
  /-- The status of a run is stored before the next run. -/
  stores : s.ran.map CopyRun.job = s.stored.map StatusStore.job ++ s.storing
  /-- A status is stored to the item of its submission. -/
  ownStatus : ∀ st ∈ s.stored, ∃ (j : Nat) (sub : Submission σ β μ), s.submissions[j]? = some sub ∧
    st.job = some j ∧ st.addr = sub.addr

variable {sub : Submission σ β μ}

theorem getElem?_submitted (h : s.submissions[j]? = some sub) (subs : List (Submission σ β μ)) :
    (s.submissions ++ subs)[j]? = some sub := by
  rw [List.getElem?_append_left (List.getElem?_eq_some_iff.1 h).1, h]

section

variable (h : Ledger s)
include h

theorem Ledger.keep (subs : List (Submission σ β μ)) (hsubs : t.submissions = s.submissions ++ subs)
    (hran : t.ran = s.ran) (hstored : t.stored = s.stored) (hstoring : t.storing = s.storing)
    (hconserved : (s.ran.map CopyRun.job ++ t.pending).Perm (acceptedJobs t.submissions)) :
    Ledger t where
  conserved := by
    rw [hran]
    exact hconserved
  own := by
    rw [hran, hsubs]
    intro r hr
    obtain ⟨j, sub, hj, heq⟩ := h.own r hr
    exact ⟨j, sub, getElem?_submitted hj subs, heq⟩
  stores := by
    rw [hran, hstored, hstoring]
    exact h.stores
  ownStatus := by
    rw [hstored, hsubs]
    intro st hst
    obtain ⟨j, sub, hj, hrest⟩ := h.ownStatus st hst
    exact ⟨j, sub, getElem?_submitted hj subs, hrest⟩

theorem Ledger.same (hsubs : t.submissions = s.submissions) (hran : t.ran = s.ran)
    (hstored : t.stored = s.stored) (hstoring : t.storing = s.storing)
    (hpending : t.pending = s.pending) : Ledger t := by
  apply h.keep [] (by rw [hsubs, List.append_nil]) hran hstored hstoring
  rw [hpending, hsubs]
  exact h.conserved

theorem Ledger.accept (hpending : t.pending.Perm (s.pending ++ [some s.submissions.length]))
    (hacc : sub.accepted = true) :
    (s.ran.map CopyRun.job ++ t.pending).Perm (acceptedJobs (s.submissions ++ [sub])) := by
  rw [acceptedJobs_concat, if_pos hacc]
  refine (hpending.append_left _).trans ?_
  rw [← List.append_assoc]
  exact h.conserved.append_right _

theorem Ledger.call (hcarried : Carried nodes s) (hocc : s.cd.occupied = true)
    (hpc : s.consumer = .serve) (out : Written σ β μ) (status : NvStatus) {vaBlock : VaBlock}
    (hblock : s.cd.vaBlock = some vaBlock) :
    Ledger { s.write out with
      ran := s.ran ++ [⟨s.cd.job, s.cd.processorId, vaBlock, s.cd.vaSpace,
        s.cd.serviceContext.read nodes s.mem⟩]
      consumer := .store status } where
  conserved := by
    have hbefore : s.pending = s.pdPending ++ [s.cd.job] := by
      simp [pending, cdPending, hocc, hpc, ConsumerPc.served]
    have hcons := h.conserved
    rw [hbefore] at hcons
    refine List.Perm.trans ?_ hcons
    simp only [List.map_append, List.map_cons, List.map_nil, List.append_assoc, pending,
      cdPending, ConsumerPc.served, Bool.not_true, Bool.and_false, List.append_nil,
      Bool.false_eq_true, if_false]
    exact List.perm_append_comm.append_left _
  own := by
    intro r hr
    obtain hold | hnew := List.mem_append.1 hr
    · exact h.own r hold
    · obtain rfl := List.mem_singleton.1 hnew
      obtain ⟨j, sub, hj, -, hcarries, hctx⟩ := hcarried.cd hocc
      rw [hpc] at hctx
      obtain rfl : vaBlock = sub.item.vaBlock := Option.some.inj (hblock.symm.trans hcarries.vaBlock)
      refine ⟨j, sub, hj, ?_⟩
      rw [Submission.run, hcarries.job, hcarries.processorId, hcarries.vaSpace, hctx rfl]
  stores := by
    have hstores := h.stores
    simp only [storing, hpc, List.append_nil] at hstores
    simp [storing, hstores, write]
  ownStatus := h.ownStatus

theorem Ledger.store (hcarried : Carried nodes s) (hocc : s.cd.occupied = true) {status : NvStatus}
    (hpc : s.consumer = .store status) :
    Ledger { s with stored := s.stored ++ s.cd.store status, consumer := .reset } := by
  obtain ⟨j, sub, hj, -, hcarries, -⟩ := hcarried.cd hocc
  have hnew : s.cd.store status = [⟨some j, sub.addr, status⟩] := by
    simp [Slot.store, hcarries.status, hcarries.job]
  refine ⟨?_, h.own, ?_, fun st hst => ?_⟩
  · have hcons := h.conserved
    simpa [pending, pdPending, cdPending, hpc, ConsumerPc.served]
      using hcons
  · have hstores := h.stores
    simp only [storing, hpc] at hstores
    simp [storing, hstores, hnew, hcarries.job]
  · obtain hold | hadd := List.mem_append.1 hst
    · exact h.ownStatus st hold
    · rw [hnew, List.mem_singleton] at hadd
      subst hadd
      exact ⟨j, sub, hj, rfl, rfl⟩

theorem Ledger.step [Inhabited σ] (hcarried : Carried nodes s) (hpos : Positioned s)
    (hm : Moves nodes L s l t) : Ledger t := by
  cases hm with
  | fillPd item addr src free =>
    refine h.keep _ rfl rfl rfl rfl (h.accept ?_ rfl)
    have hbefore : s.pending = s.cdPending := by simp [pending, pdPending, free]
    rw [hbefore]
    exact List.perm_append_comm
  | fillCd item addr src full free =>
    -- the thread is not at work on a free slot
    have hserved : s.consumer.served = false := by
      by_contra hserved
      rw [hpos.occupied_of_served (Bool.of_not_eq_false hserved)] at free
      cases free
    have hstoring : (s.fillCd nodes item addr src).storing = s.storing := by
      cases hpc : s.consumer with
      | store status =>
        rw [hpc] at hserved
        cases hserved
      | readCd | readPd | lock | serve | reset => simp [storing, fillCd, hpc]
    have hafter : (s.fillCd nodes item addr src).pending =
        s.pending ++ [some s.submissions.length] := by
      simp [pending, pdPending, cdPending, fillCd, clonePipelineContextsToSlot, full, free, hserved]
    refine h.keep _ rfl rfl rfl hstoring (h.accept ?_ rfl)
    rw [hafter]
  | refuse item addr src =>
    refine h.keep _ rfl rfl rfl rfl ?_
    show (_ ++ s.pending).Perm (acceptedJobs (s.submissions ++ [_]))
    rw [acceptedJobs_concat]
    simpa using h.conserved
  | readCd pc =>
    refine h.same rfl rfl rfl ?_ ?_
    · cases s.cd.occupied <;> simp [storing, pc]
    · cases hcd : s.cd.occupied <;>
        simp [pending, pdPending, cdPending, hcd, pc, ConsumerPc.served]
  | readPd pc =>
    refine h.same rfl rfl rfl ?_ ?_
    · cases s.pd.occupied <;> simp [storing, pc]
    · cases hpd : s.pd.occupied <;>
        simp [pending, pdPending, cdPending, hpd, pc, ConsumerPc.served]
  | pick pc | leave pc =>
    refine h.same rfl rfl rfl ?_ ?_
    · simp [storing, pc]
    · simp [pending, pdPending, cdPending, pc, ConsumerPc.served]
  | advance pc free full =>
    refine h.same rfl rfl rfl ?_ ?_
    · simp [storing, pc]
    · simp [pending, pdPending, cdPending, ConsumerPc.served,
      advance, moveAsyncSlotPayload, Slot.reset, free, full]
  | call out finish tracker vaBlock pc block =>
    have hocc : s.cd.occupied = true := by
      rw [Positioned, pc] at hpos
      exact hpos
    exact h.call hcarried hocc pc out _ block
  | invalid out finish tracker pc block =>
    -- an occupied slot has a block
    have hocc : s.cd.occupied = true := by
      rw [Positioned, pc] at hpos
      exact hpos
    obtain ⟨j, sub, -, -, hcarries, -⟩ := hcarried.cd hocc
    cases block.symm.trans hcarries.vaBlock
  | store status pc =>
    exact h.store hcarried (hpos.occupied_of_served (by rw [pc]; rfl)) pc
  | reset pc =>
    refine h.same rfl rfl rfl ?_ ?_
    · simp [storing, pc]
    · simp [pending, pdPending, cdPending, pc, ConsumerPc.served, Slot.reset]
  | flush | flushTimeout | setEnable | writeBlock | writeMasks =>
    exact h.keep [] (List.append_nil _).symm rfl rfl rfl h.conserved

/-! ## What the history says about a submission -/

theorem Ledger.nodup : (s.ran.map CopyRun.job ++ s.pending).Nodup :=
  h.conserved.nodup_iff.2 (nodup_acceptedJobs _)

theorem Ledger.runsOf_accepted (hj : s.submissions[j]? = some sub) (hacc : sub.accepted = true)
    (hpending : some j ∉ s.pending) : s.runsOf j = [sub.run j] := by
  have hall : some j ∈ s.ran.map CopyRun.job ++ s.pending :=
    h.conserved.mem_iff.2 (mem_acceptedJobs.2 ⟨sub, hj, hacc⟩)
  obtain ⟨r, hr, hjob⟩ := List.mem_map.1 ((List.mem_append.1 hall).resolve_right hpending)
  have hran : (s.ran.map CopyRun.job).Nodup := h.nodup.of_append_left
  -- the job of a run says which submission it is of
  have hown : ∀ q ∈ s.ran, q.job = some j → q = sub.run j := by
    intro q hq hqj
    obtain ⟨k, sub', hk, rfl⟩ := h.own q hq
    obtain rfl : k = j := Option.some.inj hqj
    obtain rfl : sub' = sub := Option.some.inj (hk.symm.trans hj)
    rfl
  apply List.perm_singleton.1
  apply (List.perm_ext_iff_of_nodup (hran.of_map.filter _) (List.nodup_singleton _)).2
  intro q
  rw [List.mem_filter, List.mem_singleton, decide_eq_true_eq]
  constructor
  · exact fun hq => hown q hq.1 hq.2
  · rintro rfl
    exact ⟨hown r hr hjob ▸ hr, rfl⟩

theorem Ledger.runsOf_eq_nil (hj : s.submissions[j]? = some sub)
    (hnot : sub.accepted = false ∨ some j ∈ s.pending) : s.runsOf j = [] := by
  rw [runsOf, List.filter_eq_nil_iff]
  intro r hr hjob
  have hran : some j ∈ s.ran.map CopyRun.job :=
    List.mem_map.2 ⟨r, hr, of_decide_eq_true hjob⟩
  obtain hrefused | hpending := hnot
  · obtain ⟨sub', hj', hacc⟩ :=
      mem_acceptedJobs.1 (h.conserved.mem_iff.1 (List.mem_append_left _ hran))
    obtain rfl : sub' = sub := Option.some.inj (hj'.symm.trans hj)
    rw [hrefused] at hacc
    cases hacc
  · exact (List.disjoint_of_nodup_append h.nodup) hran hpending

end

/-! ## Flushing -/

def Pipeline.Finished (s : Pipeline σ β μ) (j : Nat) : Prop :=
  some j ∈ s.ran.map CopyRun.job ∧ ∃ st ∈ s.stored, st.job = some j

/-- What a coordinator has found out. An item that was submitted before the flush is not in
`pd_copy` any more once this was read as free, and in neither slot once `cd` was. -/
def FlushPc.Right (s : Pipeline σ β μ) : FlushPc → Prop
  | .idle | .timedOut => True
  | .readPd n => n ≤ s.submissions.length
  | .readCd n => n ≤ s.submissions.length ∧
      (s.pd.occupied = true → ∀ j, s.pd.job = some j → n ≤ j)
  | .returned n => n ≤ s.submissions.length ∧ ∀ j < n, ¬ s.Holds j

/-- What every step does to the history and to the slots. -/
structure Extends (s t : Pipeline σ β μ) : Prop where
  submissions : s.submissions <+: t.submissions
  /-- An item in `pd_copy` was there before, or is new. -/
  pd : t.pd.occupied = true →
    s.pd.occupied = true ∧ t.pd.job = s.pd.job ∨ t.pd.job = some s.submissions.length
  /-- And so is one in `cd`, except that it may come from `pd_copy`. -/
  cd : t.cd.occupied = true → s.cd.occupied = true ∧ t.cd.job = s.cd.job ∨
    s.pd.occupied = true ∧ t.cd.job = s.pd.job ∨ t.cd.job = some s.submissions.length

theorem Moves.extends [Inhabited σ] (hm : Moves nodes L s l t) : Extends s t := by
  cases hm with
  | fillPd => exact ⟨List.prefix_append _ _, fun _ => .inr rfl, fun hocc => .inl ⟨hocc, rfl⟩⟩
  | fillCd =>
    exact ⟨List.prefix_append _ _, fun hocc => .inl ⟨hocc, rfl⟩, fun _ => .inr (.inr rfl)⟩
  | refuse =>
    exact ⟨List.prefix_append _ _, fun hocc => .inl ⟨hocc, rfl⟩, fun hocc => .inl ⟨hocc, rfl⟩⟩
  | advance pc free full =>
    exact ⟨List.prefix_refl _, nofun, fun _ => .inr (.inl ⟨full, rfl⟩)⟩
  | reset => exact ⟨List.prefix_refl _, fun hocc => .inl ⟨hocc, rfl⟩, nofun⟩
  | readCd | readPd | pick | leave | call | store | invalid | flush | flushTimeout | setEnable
    | writeBlock | writeMasks =>
    exact ⟨List.prefix_refl _, fun hocc => .inl ⟨hocc, rfl⟩, fun hocc => .inl ⟨hocc, rfl⟩⟩

theorem Extends.holds (h : Extends s t) (hj : t.Holds j) :
    s.Holds j ∨ j = s.submissions.length := by
  obtain ⟨hocc, hjob⟩ | ⟨hocc, hjob⟩ := hj
  · obtain ⟨hpd, hsame⟩ | hnew := h.pd hocc
    · exact .inl (.inl ⟨hpd, hsame.symm.trans hjob⟩)
    · exact .inr (Option.some.inj (hjob.symm.trans hnew))
  · obtain ⟨hcd, hsame⟩ | ⟨hpd, hsame⟩ | hnew := h.cd hocc
    · exact .inl (.inr ⟨hcd, hsame.symm.trans hjob⟩)
    · exact .inl (.inl ⟨hpd, hsame.symm.trans hjob⟩)
    · exact .inr (Option.some.inj (hjob.symm.trans hnew))

theorem Extends.not_holds (h : Extends s t) (hj : ¬ s.Holds j) (hlt : j < s.submissions.length) :
    ¬ t.Holds j := by
  intro hheld
  obtain hold | hnew := h.holds hheld
  · exact hj hold
  · exact Nat.ne_of_lt hlt hnew

theorem FlushPc.Right.mono (hext : Extends s t) {pc : FlushPc} (h : pc.Right s) : pc.Right t := by
  have hlen : s.submissions.length ≤ t.submissions.length := hext.submissions.length_le
  cases pc with
  | idle | timedOut => trivial
  | readPd n => exact le_trans h hlen
  | readCd n =>
    refine ⟨h.1.trans hlen, fun hocc j hj => ?_⟩
    obtain ⟨hbefore, hsame⟩ | hnew := hext.pd hocc
    · exact h.2 hbefore j (hsame.symm.trans hj)
    -- a new item has a number that the flush does not wait for
    · obtain rfl : s.submissions.length = j := Option.some.inj (hnew.symm.trans hj)
      exact h.1
  | returned n =>
    refine ⟨h.1.trans hlen, fun j hj => ?_⟩
    exact hext.not_holds (h.2 j hj) (lt_of_lt_of_le hj h.1)

theorem Ledger.finished_of_not_holds (h : Ledger s) (hpos : Positioned s)
    (hsub : s.submissions[j]? = some sub) (hacc : sub.accepted = true) (hheld : ¬ s.Holds j) :
    s.Finished j := by
  have hall : some j ∈ s.ran.map CopyRun.job ++ s.pending :=
    h.conserved.mem_iff.2 (mem_acceptedJobs.2 ⟨sub, hsub, hacc⟩)
  have hpending : some j ∉ s.pending := by
    intro hmem
    simp only [pending, pdPending, cdPending, List.mem_append,
      List.mem_ite_nil_right, Bool.and_eq_true, List.mem_singleton] at hmem
    obtain ⟨hocc, hjob⟩ | ⟨hocc, hjob⟩ := hmem
    · exact hheld (.inl ⟨hocc, hjob.symm⟩)
    · exact hheld (.inr ⟨hocc.1, hjob.symm⟩)
  have hran := (List.mem_append.1 hall).resolve_right hpending
  have hstores := hran
  rw [h.stores] at hstores
  obtain hst | hstoring := List.mem_append.1 hstores
  · obtain ⟨st, hst, hjob⟩ := List.mem_map.1 hst
    exact ⟨hran, st, hst, hjob⟩
  -- the slot is occupied until the status is stored
  · cases hpc : s.consumer with
    | store status =>
      have hocc := hpos.occupied_of_served (by rw [hpc]; rfl)
      simp only [storing, hpc, List.mem_singleton] at hstoring
      exact absurd (.inr ⟨hocc, hstoring.symm⟩) hheld
    | readCd | readPd | lock | serve | reset => simp [storing, hpc] at hstoring

/-- The coordinator is not waiting; its next step reads the option. -/
def FlushPc.begins : FlushPc → Bool
  | .readPd _ | .readCd _ => false
  | _ => true

/-- A flush that finds the option off finds both slots free. -/
def FlushesWhenOn (s : Pipeline σ β μ) : PipelineLabel σ β μ → Prop
  | .flush f => (s.flushers f).begins = true → s.enable = false →
      s.pd.occupied = false ∧ s.cd.occupied = false
  | _ => True

instance (s : Pipeline σ β μ) : ∀ l, Decidable (FlushesWhenOn s l)
  | .flush _ => inferInstanceAs (Decidable (_ → _ → _))
  | .submit .. | .consumer | .copyFinish .. | .flushTimeout _ | .setEnable _ | .writeBlock ..
  | .writeMasks .. => isTrue trivial

theorem FlushPc.Right.flushStep {f : Nat} (hG : FlushesWhenOn s (.flush f))
    (h : (s.flushers f).Right s) : (s.flushStep f).Right s := by
  have hbegin : (s.flushers f).begins = true →
      (if s.enable then FlushPc.readPd s.submissions.length
        else .returned s.submissions.length).Right s := by
    intro hbegins
    cases henable : s.enable with
    | true => exact le_rfl
    | false =>
      -- it returns at once, and nothing is in the slots
      obtain ⟨hpd, hcd⟩ := hG hbegins henable
      refine ⟨le_rfl, fun j _ hheld => ?_⟩
      obtain ⟨hocc, -⟩ | ⟨hocc, -⟩ := hheld
      · exact Bool.false_ne_true (hpd.symm.trans hocc)
      · exact Bool.false_ne_true (hcd.symm.trans hocc)
  rw [Pipeline.flushStep]
  cases hpc : s.flushers f with
  | idle | returned | timedOut => exact hbegin (by rw [hpc]; rfl)
  | readPd n =>
    rw [hpc] at h
    cases hpd : s.pd.occupied with
    | true => exact h
    | false => exact ⟨h, fun hocc => absurd (hpd.symm.trans hocc) Bool.false_ne_true⟩
  | readCd n =>
    rw [hpc] at h
    cases hcd : s.cd.occupied with
    | true => exact h.1
    | false =>
      refine ⟨h.1, fun j hj hheld => ?_⟩
      obtain ⟨hocc, hjob⟩ | ⟨hocc, -⟩ := hheld
      · exact absurd (h.2 hocc j hjob) (Nat.not_le_of_lt hj)
      · exact Bool.false_ne_true (hcd.symm.trans hocc)

/-- What the coordinators have found out stays right. -/
theorem FlushPc.Right.step [Inhabited σ] (h : ∀ f, (s.flushers f).Right s)
    (hG : FlushesWhenOn s l) (hm : Moves nodes L s l t) (f : Nat) : (t.flushers f).Right t := by
  have hext := hm.extends
  -- only a coordinator's own step changes where it is
  cases hm with
  | flush g =>
    by_cases hfg : f = g
    · subst hfg
      simp only [Function.update_self]
      exact (FlushPc.Right.flushStep hG (h f)).mono hext
    · simp only [Function.update_of_ne hfg]
      exact (h f).mono hext
  | flushTimeout g =>
    by_cases hfg : f = g
    · subst hfg
      simp only [Function.update_self]
      trivial
    · simp only [Function.update_of_ne hfg]
      exact (h f).mono hext
  | fillPd | fillCd | refuse | readCd | readPd | pick | advance | leave | call | invalid | store
    | reset | setEnable | writeBlock | writeMasks => exact (h f).mono hext

/-! ## The invariant -/

structure PipelineInv (nodes : Nat) (L : Layout) (s : Pipeline σ β μ) : Prop where
  placed : Placed L s
  positioned : Positioned s
  carried : Carried nodes s
  ledger : Ledger s

theorem PipelineInv.step [Inhabited σ] (h : PipelineInv nodes L s) (hm : Moves nodes L s l t) :
    PipelineInv nodes L t where
  placed := h.placed.step hm
  positioned := h.positioned.step hm
  carried := h.carried.step h.placed hm
  ledger := h.ledger.step h.carried h.positioned hm

theorem PipelineInv.init [Inhabited σ] {mem : Memory β μ} (howns : L.Owns mem) :
    PipelineInv nodes L (Pipeline.init L mem : Pipeline σ β μ) where
  placed := ⟨rfl, rfl, rfl, rfl, howns⟩
  positioned := trivial
  carried := ⟨nofun, nofun⟩
  ledger := ⟨.nil, nofun, rfl, nofun⟩

variable {ls : List (PipelineLabel σ β μ)}

/-- The invariant holds in every state that is reached. -/
theorem PipelineInv.run [Inhabited σ] (h : PipelineInv nodes L s)
    (hrun : (pipelineMachine nodes L).run s ls = some t) : PipelineInv nodes L t := by
  apply Machine.run_invariant _ _ h (Machine.meets_true _ s ls) hrun
  exact fun _ _ _ hinv _ hstep => hinv.step (moves_of_step hstep)

/-! ## The thread gets to every item -/

def PipelineLabel.isSubmit : PipelineLabel σ β μ → Bool
  | .submit .. => true
  | _ => false

def PipelineLabel.isConsumer : PipelineLabel σ β μ → Bool
  | .consumer | .copyFinish .. => true
  | _ => false

def Pipeline.load (s : Pipeline σ β μ) : Nat := s.pd.occupied.toNat + s.cd.occupied.toNat

/-- How many of the six steps for an item the thread has taken. -/
def ConsumerPc.progress : ConsumerPc → Nat
  | .readCd => 0
  | .readPd => 1
  | .lock => 2
  | .serve => 3
  | .store _ => 4
  | .reset => 5

/-- A bound on the steps that the thread needs for what is in the slots. -/
def Pipeline.effort (s : Pipeline σ β μ) : Nat := 6 * s.load - s.consumer.progress

theorem Pipeline.effort_le (s : Pipeline σ β μ) : s.effort ≤ 12 := by
  have hpd := s.pd.occupied.toNat_le
  have hcd := s.cd.occupied.toNat_le
  simp only [effort, load]
  omega

theorem Pipeline.free_of_effort_eq_zero (h : s.effort = 0) :
    s.pd.occupied = false ∧ s.cd.occupied = false := by
  have hprogress : s.consumer.progress ≤ 5 := by cases s.consumer <;> simp [ConsumerPc.progress]
  simp only [effort, load] at h
  have hpd : s.pd.occupied.toNat = 0 := by omega
  have hcd : s.cd.occupied.toNat = 0 := by omega
  exact ⟨by simpa using hpd, by simpa using hcd⟩

theorem effort_le_of_progress (hload : t.load = s.load)
    (hprogress : s.consumer.progress < t.consumer.progress) : t.effort ≤ s.effort - 1 := by
  simp only [Pipeline.effort, hload]
  omega

theorem effort_eq_zero (hpd : s.pd.occupied = false) (hcd : s.cd.occupied = false) :
    s.effort = 0 := by
  simp [Pipeline.effort, Pipeline.load, hpd, hcd]

/-- Every step of the thread brings it closer to free slots. -/
theorem effort_step_le [Inhabited σ] (hpos : Positioned s) (hm : Moves nodes L s l t)
    (hnew : l.isSubmit = false) : t.effort ≤ s.effort - l.isConsumer.toNat := by
  unfold Positioned at hpos
  cases hm with
  | fillPd | fillCd | refuse => cases hnew
  | readCd pc =>
    refine effort_le_of_progress rfl ?_
    rw [pc]
    cases hcd : s.cd.occupied
    · exact Nat.lt_succ_self 0
    · exact Nat.lt_add_of_pos_right (Nat.succ_pos 1)
  | readPd pc =>
    rw [pc] at hpos
    cases hpd : s.pd.occupied with
    | true =>
      refine effort_le_of_progress rfl ?_
      rw [pc]
      exact Nat.lt_succ_self 1
    | false =>
      -- then `cd` is free as well
      have hcd : s.cd.occupied = false := by
        by_contra hcd
        rw [hpos (Bool.of_not_eq_false hcd)] at hpd
        cases hpd
      apply le_of_eq_of_le _ (Nat.zero_le _)
      exact effort_eq_zero hpd hcd
  | pick pc =>
    refine effort_le_of_progress rfl ?_
    rw [pc]
    exact Nat.lt_succ_self 2
  | advance pc free full =>
    apply effort_le_of_progress
    · simp [Pipeline.load, advance, moveAsyncSlotPayload, Slot.reset, free, full]
    · rw [pc]
      exact Nat.lt_succ_self 2
  | leave pc free none =>
    apply le_of_eq_of_le _ (Nat.zero_le _)
    exact effort_eq_zero none free
  | call out finish tracker vaBlock pc | invalid out finish tracker pc =>
    refine effort_le_of_progress rfl ?_
    rw [pc]
    exact Nat.lt_succ_self 3
  | store status pc =>
    refine effort_le_of_progress rfl ?_
    rw [pc]
    exact Nat.lt_succ_self 4
  | reset pc =>
    rw [pc] at hpos
    simp only [Pipeline.effort, Pipeline.load, pc, hpos, ConsumerPc.progress,
      PipelineLabel.isConsumer, Slot.reset, Bool.toNat_true, Bool.toNat_false]
    omega
  | flush | flushTimeout | setEnable | writeBlock | writeMasks => exact le_rfl

/-- Without new items, every step of the thread counts. -/
theorem effort_run_le [Inhabited σ] (h : PipelineInv nodes L s)
    (hnew : ∀ l ∈ ls, l.isSubmit = false)
    (hrun : (pipelineMachine nodes L).run s ls = some t) :
    t.effort ≤ s.effort - ls.countP PipelineLabel.isConsumer := by
  induction ls generalizing s with
  | nil =>
    cases hrun
    exact le_rfl
  | cons l ls ih =>
    obtain ⟨u, hu, hrest⟩ := (Machine.run_cons_eq_some _).1 hrun
    have hm := moves_of_step hu
    have hstep := effort_step_le h.positioned hm (hnew l List.mem_cons_self)
    have htail := ih (h.step hm) (fun k hk => hnew k (List.mem_cons_of_mem _ hk)) hrest
    -- `countP` of the first label
    have hcount : (l :: ls).countP PipelineLabel.isConsumer =
        ls.countP PipelineLabel.isConsumer + l.isConsumer.toNat := by
      cases hl : l.isConsumer <;> simp [hl]
    rw [hcount]
    omega

theorem exists_consumer_step [Inhabited σ] (nodes : Nat) (L : Layout) (s : Pipeline σ β μ) :
    ∃ l : PipelineLabel σ β μ, l.isConsumer = true ∧
      ∃ t, (pipelineMachine nodes L).step s l = some t := by
  cases hpc : s.consumer with
  | serve =>
    let out : Written σ β μ := ⟨default, (s.mem.blocks 0).body, s.mem.masks 0⟩
    refine ⟨.copyFinish out .ok .ok, rfl, ?_⟩
    cases hblock : s.cd.vaBlock <;> simp [pipelineMachine, copyFinish, hpc, hblock]
  | readCd | readPd | lock | store | reset =>
    exact ⟨.consumer, rfl, by simp [pipelineMachine, consumerStep, hpc]⟩

theorem exists_consumer_run [Inhabited σ] (nodes : Nat) (L : Layout) (n : Nat)
    (s : Pipeline σ β μ) : ∃ ls : List (PipelineLabel σ β μ), ls.length = n ∧
      (∀ l ∈ ls, l.isConsumer = true) ∧
      ∃ t, (pipelineMachine nodes L).run s ls = some t := by
  induction n generalizing s with
  | zero => exact ⟨[], rfl, nofun, s, rfl⟩
  | succ n ih =>
    obtain ⟨l, hl, u, hu⟩ := exists_consumer_step nodes L s
    obtain ⟨ls, hlen, hls, t, ht⟩ := ih u
    refine ⟨l :: ls, by rw [List.length_cons, hlen], ?_, t, (Machine.run_cons_eq_some _).2 ⟨u, hu, ht⟩⟩
    exact List.forall_mem_cons.2 ⟨hl, hls⟩

/-! ## The result -/

/-- What a pipeline owes to those who submit to it. -/
structure Delivers [Inhabited σ] (nodes : Nat) (L : Layout) (s : Pipeline σ β μ) : Prop where
  /-- An accepted item was run once, as it asks for, unless it waits in a slot. -/
  once : ∀ j sub, s.submissions[j]? = some sub → sub.accepted = true →
    s.runsOf j = if some j ∈ s.pending then [] else [sub.run j]
  /-- A refused item was not run. -/
  refused : ∀ j sub, s.submissions[j]? = some sub → sub.accepted = false → s.runsOf j = []
  /-- Once there are no new items, twelve steps of the thread are enough for all, whoever else
  moves. -/
  drains : ∀ ls t, (pipelineMachine nodes L).run s ls = some t →
    (∀ l ∈ ls, l.isSubmit = false) → 12 ≤ ls.countP PipelineLabel.isConsumer →
    ∀ j sub, s.submissions[j]? = some sub → sub.accepted = true → t.runsOf j = [sub.run j]
  /-- The thread can take as many steps as it needs. -/
  live : ∀ n, ∃ ls : List (PipelineLabel σ β μ), ls.length = n ∧ (∀ l ∈ ls, l.isConsumer = true) ∧
    ∃ t, (pipelineMachine nodes L).run s ls = some t
  /-- What was accepted before a flush that has returned was run, and its status stored. -/
  flushed : ∀ f n, s.flushers f = .returned n → ∀ j < n, ∀ sub, s.submissions[j]? = some sub →
    sub.accepted = true →
    s.runsOf j = [sub.run j] ∧ ∃ st ∈ s.stored, st.job = some j ∧ st.addr = sub.addr

namespace PipelineInv

theorem once (h : PipelineInv nodes L s) (hj : s.submissions[j]? = some sub)
    (hacc : sub.accepted = true) : s.runsOf j = if some j ∈ s.pending then [] else [sub.run j] := by
  split
  next hpending => exact h.ledger.runsOf_eq_nil hj (.inr hpending)
  next hpending => exact h.ledger.runsOf_accepted hj hacc hpending

theorem submissions_of_run [Inhabited σ]
    (hrun : (pipelineMachine nodes L).run s ls = some t) :
    s.submissions <+: t.submissions := by
  induction ls generalizing s with
  | nil =>
    cases hrun
    exact List.prefix_refl _
  | cons l ls ih =>
    obtain ⟨u, hu, hrest⟩ := (Machine.run_cons_eq_some _).1 hrun
    exact (moves_of_step hu).extends.submissions.trans (ih hrest)

theorem drains [Inhabited σ] (h : PipelineInv nodes L s)
    (hrun : (pipelineMachine nodes L).run s ls = some t)
    (hnew : ∀ l ∈ ls, l.isSubmit = false) (hsteps : 12 ≤ ls.countP PipelineLabel.isConsumer)
    (hj : s.submissions[j]? = some sub) (hacc : sub.accepted = true) :
    t.runsOf j = [sub.run j] := by
  have heffort := effort_run_le h hnew hrun
  have hle := s.effort_le
  obtain ⟨hpd, hcd⟩ : t.pd.occupied = false ∧ t.cd.occupied = false :=
    Pipeline.free_of_effort_eq_zero (by omega)
  have hpending : t.pending = [] := by
    simp [pending, pdPending, cdPending, hpd, hcd]
  have hjt : t.submissions[j]? = some sub := by
    obtain ⟨rest, hrest⟩ := submissions_of_run hrun
    rw [← hrest]
    exact getElem?_submitted hj rest
  apply (h.run hrun).ledger.runsOf_accepted hjt hacc
  rw [hpending]
  exact List.not_mem_nil

theorem flushed (h : PipelineInv nodes L s) {n : Nat} (hright : (FlushPc.returned n).Right s)
    (hjn : j < n) (hj : s.submissions[j]? = some sub) (hacc : sub.accepted = true) :
    s.runsOf j = [sub.run j] ∧ ∃ st ∈ s.stored, st.job = some j ∧ st.addr = sub.addr := by
  obtain ⟨hran, st, hst, hjob⟩ :=
    h.ledger.finished_of_not_holds h.positioned hj hacc (hright.2 j hjn)
  constructor
  · apply h.ledger.runsOf_accepted hj hacc
    exact fun hpending => (List.disjoint_of_nodup_append h.ledger.nodup) hran hpending
  · obtain ⟨k, sub', hk, hkjob, haddr⟩ := h.ledger.ownStatus st hst
    obtain rfl : k = j := Option.some.inj (hkjob.symm.trans hjob)
    obtain rfl : sub' = sub := Option.some.inj (hk.symm.trans hj)
    exact ⟨st, hst, hjob, haddr⟩

end PipelineInv

/-- In every run of a pipeline, with any number of items, workers and coordinators, in which no flush
finds the option off while a slot is occupied: an accepted item is run by the thread exactly once and
on its own contexts, a refused one never, and a flush that has returned `NV_OK` leaves no item behind
that was submitted before it began. -/
theorem pipeline_runs_accepted_once [Inhabited σ] (nodes : Nat) (L : Layout) {mem : Memory β μ}
    (howns : L.Owns mem) {ls : List (PipelineLabel σ β μ)}
    (hG : (pipelineMachine nodes L).Meets FlushesWhenOn (Pipeline.init L mem) ls)
    (hrun : (pipelineMachine nodes L).run (Pipeline.init L mem) ls = some s) :
    Delivers nodes L s := by
  have hinv : PipelineInv nodes L s := (PipelineInv.init howns).run hrun
  have hflushes : ∀ f, (s.flushers f).Right s := by
    have hstep : ∀ (s : Pipeline σ β μ) l t, (∀ f, (s.flushers f).Right s) → FlushesWhenOn s l →
        (pipelineMachine nodes L).step s l = some t → ∀ f, (t.flushers f).Right t :=
      fun _ _ _ h hG hstep => FlushPc.Right.step h hG (moves_of_step hstep)
    apply (pipelineMachine nodes L).run_invariant hstep _ hG hrun
    exact fun _ => trivial
  exact
    { once := fun j sub hj hacc => hinv.once hj hacc
      refused := fun j sub hj hrefused => hinv.ledger.runsOf_eq_nil hj (.inl hrefused)
      drains := fun ls t hrun hnew hsteps j sub hj hacc => hinv.drains hrun hnew hsteps hj hacc
      live := fun n => exists_consumer_run nodes L n s
      flushed := fun f n hpc j hjn sub hj hacc => hinv.flushed (hpc ▸ hflushes f) hjn hj hacc }

def sampleLayout : Layout := ⟨0, 1, 0, 1, by decide, by decide⟩

/-- Block context `a` has array `a`. -/
def sampleMemory : Memory Nat Nat where
  blocks := fun a => ⟨a, none, a⟩
  masks := fun a _ => a

/-- Four items while the first is worked on: the second takes its place in `pd_copy` and the third
finds no slot. The flush sees `pd_copy` occupied at first. -/
def fourItems : List (PipelineLabel Nat Nat Nat) :=
  let item := newWorkItem (some 0) (some ⟨0, 0, none⟩) ⟨firstBlock, 0, 1⟩
  let serve := [.copyFinish ⟨0, 0, fun _ => 0⟩ .ok .ok, .consumer, .consumer]
  [.submit item 10 ⟨5, 2⟩, .consumer, .consumer, .consumer, .submit item 11 ⟨6, 3⟩,
    .submit item 12 ⟨7, 4⟩, .writeMasks 3 fun _ => 9, .flush 0, .flush 0] ++ serve ++
    [.consumer, .consumer, .consumer, .flush 0, .submit item 13 ⟨8, 5⟩] ++ serve ++
    [.flush 0]

theorem four_items_delivered :
    ∃ s, (pipelineMachine 1 sampleLayout).run (Pipeline.init sampleLayout sampleMemory) fourItems =
        some s ∧
      s.submissions.map Submission.accepted = [true, true, false, true] ∧
      s.ran.map CopyRun.job = [some 0, some 1] ∧ s.flushers 0 = .returned 3 ∧
      Delivers 1 sampleLayout s := by
  have hrun : (pipelineMachine 1 sampleLayout).run (init sampleLayout sampleMemory) fourItems =
    some _ := rfl
  have hG : (pipelineMachine 1 sampleLayout).Meets FlushesWhenOn (init sampleLayout sampleMemory)
    fourItems := by decide +kernel
  exact ⟨_, hrun, by decide +kernel, by decide +kernel, by decide +kernel,
    pipeline_runs_accepted_once 1 sampleLayout ⟨rfl, rfl⟩ hG hrun⟩

/-- An item is submitted, the option is cleared, and a coordinator flushes. -/
def optionCleared : List (PipelineLabel Nat Nat Nat) :=
  [.submit (newWorkItem (some 0) (some ⟨0, 0, none⟩) ⟨firstBlock, 0, 1⟩) 10 ⟨5, 2⟩,
    .setEnable false, .flush 0]

/-- The flush returns `NV_OK` while the item is in its slot. -/
theorem flush_returns_early :
    ∃ s, (pipelineMachine 1 sampleLayout).run (Pipeline.init sampleLayout sampleMemory)
        optionCleared = some s ∧
      s.submissions.map Submission.accepted = [true] ∧ s.flushers 0 = .returned 1 ∧ s.ran = [] ∧
      ¬ Delivers 1 sampleLayout s := by
  have hrun : (pipelineMachine 1 sampleLayout).run (init sampleLayout sampleMemory) optionCleared =
    some _ := rfl
  refine ⟨_, hrun, by decide +kernel, by decide +kernel, rfl, fun h => ?_⟩
  obtain ⟨-, st, hst, -⟩ := h.flushed 0 1 (by decide +kernel) 0 Nat.one_pos _ rfl rfl
  cases hst

end FaultMesh.Async
