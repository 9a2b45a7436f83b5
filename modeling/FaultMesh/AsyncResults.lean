import FaultMesh.AsyncBatch

/-!
# The results of the async pipeline reach the batch

The coordinator takes the status and the tracker of an item at a moment of its own. What it takes is
what the thread of the GPU has produced if two things are in order: the worker's `NV_OK` does not
overwrite a failure that the thread has stored before, and no item is folded while a slot points to
it. The flush sees to the second for the items of a dispatch, unless it times out or finds the option
off. Nothing sees to the first, nor to the second for items that are serviced inline.
-/

namespace FaultMesh.Async

open Function (update update_self update_of_ne update_eq_self)
open AsyncBatch

variable {σ β μ : Type*} {nodes : Nat} {L : Layout}

/-! ## Steps of the pipeline -/

section Pipe

variable {s t : Pipeline σ β μ}

section

variable [Inhabited σ] {item : KthreadWorkItem} {a : Addr} {src : ServiceContext σ}
  (hm : Moves nodes L s (.submit item a src) t)
include hm

theorem Moves.submitted :
    ∃ sub, t.submissions = s.submissions ++ [sub] ∧ sub.accepted = s.accepts ∧ sub.addr = a := by
  cases hm with
  | fillPd _ _ _ free => exact ⟨_, rfl, by simp [Pipeline.accepts, free], rfl⟩
  | fillCd _ _ _ full free => exact ⟨_, rfl, by simp [Pipeline.accepts, free], rfl⟩
  | refuse _ _ _ pd cd => exact ⟨_, rfl, by simp [Pipeline.accepts, pd, cd], rfl⟩

theorem Moves.submit_frame : t.ran = s.ran ∧ t.stored = s.stored ∧ t.flushers = s.flushers := by
  cases hm with
  | fillPd | fillCd | refuse => exact ⟨rfl, rfl, rfl⟩

theorem Moves.submit_storing (hpos : Positioned s) {status : NvStatus}
    (hpc : t.consumer = .store status) : s.consumer = .store status ∧ t.cd.job = s.cd.job := by
  cases hm with
  | fillPd | refuse => exact ⟨hpc, rfl⟩
  | fillCd _ _ _ full free =>
    have hstore : s.consumer = .store status := hpc
    rw [Positioned, hstore] at hpos
    rw [free] at hpos
    cases hpos

end

theorem Moves.consumer_cases [Inhabited σ] (hm : Moves nodes L s .consumer t) :
    (∃ status, s.consumer = .store status ∧
      t = { s with stored := s.stored ++ s.cd.store status, consumer := .reset }) ∨
    (∀ status, s.consumer ≠ .store status) ∧ (∀ status, t.consumer ≠ .store status) ∧
      t.submissions = s.submissions ∧ t.ran = s.ran ∧ t.stored = s.stored ∧
      t.flushers = s.flushers := by
  cases hm with
  | store status pc => exact .inl ⟨status, pc, rfl⟩
  | readCd pc => exact .inr ⟨by simp [pc], by cases s.cd.occupied <;> simp, rfl, rfl, rfl, rfl⟩
  | readPd pc => exact .inr ⟨by simp [pc], by cases s.pd.occupied <;> simp, rfl, rfl, rfl, rfl⟩
  | pick pc | advance pc | leave pc | reset pc =>
    exact .inr ⟨by simp [pc], by simp, rfl, rfl, rfl, rfl⟩

theorem Moves.call_eq [Inhabited σ] {out : Written σ β μ} {finish : NvStatus}
    {tracker : CallStatus} {vaBlock : VaBlock}
    (hm : Moves nodes L s (.copyFinish out finish tracker) t)
    (hblock : s.cd.vaBlock = some vaBlock) :
    s.consumer = .serve ∧ t =
      { s.write out with
        ran := s.ran ++ [⟨s.cd.job, s.cd.processorId, vaBlock, s.cd.vaSpace,
          s.cd.serviceContext.read nodes s.mem⟩]
        consumer := .store (if finish = .ok then tracker.toStatus else finish) } := by
  cases hm with
  | call _ _ _ vaBlock' pc block =>
    obtain rfl : vaBlock' = vaBlock := Option.some.inj (block.symm.trans hblock)
    exact ⟨pc, rfl⟩
  | invalid _ _ _ pc block => cases block.symm.trans hblock

theorem PipelineInv.sub_of_holds (h : PipelineInv nodes L s) {j : Nat} (hheld : s.Holds j) :
    ∃ sub, s.submissions[j]? = some sub ∧ sub.accepted = true ∧
      (s.pd.occupied = true ∧ s.pd.status = some sub.addr ∨
        s.cd.occupied = true ∧ s.cd.status = some sub.addr) := by
  obtain ⟨hocc, hjob⟩ | ⟨hocc, hjob⟩ := hheld
  · obtain ⟨k, sub, hk, hacc, hcarries, -⟩ := h.carried.pd hocc
    obtain rfl : k = j := Option.some.inj (hcarries.job.symm.trans hjob)
    exact ⟨sub, hk, hacc, .inl ⟨hocc, hcarries.status⟩⟩
  · obtain ⟨k, sub, hk, hacc, hcarries, -⟩ := h.carried.cd hocc
    obtain rfl : k = j := Option.some.inj (hcarries.job.symm.trans hjob)
    exact ⟨sub, hk, hacc, .inr ⟨hocc, hcarries.status⟩⟩

theorem PipelineInv.unused (h : PipelineInv nodes L s) :
    some s.submissions.length ∉ s.ran.map CopyRun.job ∧
      some s.submissions.length ∉ s.stored.map StatusStore.job := by
  have hran : some s.submissions.length ∉ s.ran.map CopyRun.job := by
    intro hmem
    obtain ⟨r, hr, hjob⟩ := List.mem_map.1 hmem
    obtain ⟨j, sub, hj, rfl⟩ := h.ledger.own r hr
    have hlt := (List.getElem?_eq_some_iff.1 hj).1
    exact Nat.ne_of_lt hlt (Option.some.inj hjob)
  refine ⟨hran, fun hmem => hran ?_⟩
  rw [h.ledger.stores]
  exact List.mem_append_left _ hmem

end Pipe

/-! ## The items in the slots -/

namespace ItemPhase

def isTaken : ItemPhase → Bool
  | .waiting | .folded => false
  | _ => true

theorem isTaken_of_job {p : ItemPhase} {j : Nat} (h : p.job = some j) : p.isTaken = true := by
  cases p <;> simp_all [job, isTaken]

theorem job_of_isOwn {p : ItemPhase} (h : p.isOwn = true) : p.job = none := by
  cases p <;> simp_all [isOwn, job]

theorem isTaken_of_isOwn {p : ItemPhase} (h : p.isOwn = true) : p.isTaken = true := by
  cases p <;> simp_all [isOwn, isTaken]

end ItemPhase

namespace CoordPc

/-- The items of a batch of the given size that can be with a worker or in a slot. -/
def Active (n : Nat) : CoordPc → Nat → Prop
  | .idle, _ => False
  | .waiting, i | .flushing, i => i < n
  | .folding k, i => k ≤ i ∧ i < n
  | .inline k, i => i = k

end CoordPc

variable {s t : AsyncBatch σ β μ} {l : BatchLabel σ β μ}

/-- The items in the slots and those that the workers are at belong to the batch. -/
structure Linked (s : AsyncBatch σ β μ) : Prop where
  /-- A number that an item is with was given to it. -/
  job : ∀ i j, (s.phases i).job = some j →
    ∃ sub, s.pipe.submissions[j]? = some sub ∧ sub.accepted = true ∧ sub.addr = i
  /-- A slot holds an item of the batch that was not folded. -/
  held : ∀ j sub, s.pipe.Holds j → s.pipe.submissions[j]? = some sub →
    (s.phases sub.addr).job = some j
  active : ∀ i, (s.phases i).isTaken = true → s.coord.Active s.items.length i

section

variable (h : Linked s)
include h

theorem Linked.pipe {pipe : Pipeline σ β μ} (hext : Extends s.pipe pipe)
    (hsubs : pipe.submissions = s.pipe.submissions) (words : Addr → ItemWord)
    (outcomes : List Outcome) :
    Linked { s with pipe := pipe, words := words, outcomes := outcomes } where
  job := by
    rw [hsubs]
    exact h.job
  held := by
    intro j sub hheld hj
    rw [hsubs] at hj
    obtain hold | hnew := hext.holds hheld
    · exact h.held j sub hold hj
    -- a new item would have been submitted
    · rw [hnew, List.getElem?_eq_none le_rfl] at hj
      cases hj
  active := h.active

theorem Linked.setPhase {i : Nat} {p : ItemPhase} (hjob : p.job = (s.phases i).job)
    (hactive : s.coord.Active s.items.length i) (words : Addr → ItemWord) :
    Linked { s with phases := update s.phases i p, words := words } := by
  have hsame : ∀ k, (update s.phases i p k).job = (s.phases k).job := by
    intro k
    by_cases hk : k = i
    · subst hk
      rw [update_self, hjob]
    · rw [update_of_ne hk]
  refine ⟨fun k j hk => ?_, fun j sub hheld hj => ?_, fun k hk => ?_⟩
  · exact h.job k j ((hsame k).symm.trans hk)
  · exact (hsame _).trans (h.held j sub hheld hj)
  · by_cases hki : k = i
    · subst hki
      exact hactive
    · simp only [update_of_ne hki] at hk
      exact h.active k hk

theorem Linked.not_holds_of_idle (hinv : PipelineInv nodes L s.pipe) (hpc : s.coord = .idle)
    (j : Nat) : ¬ s.pipe.Holds j := by
  intro hheld
  obtain ⟨sub, hj, -⟩ := hinv.sub_of_holds hheld
  have hactive := h.active _ (ItemPhase.isTaken_of_job (h.held j sub hheld hj))
  rw [hpc] at hactive
  exact hactive

theorem Linked.submit [Inhabited σ] (hinv : PipelineInv nodes L s.pipe)
    {i : Nat} {item : KthreadWorkItem} {src : ServiceContext σ} {pipe : Pipeline σ β μ}
    (hphase : s.phases i = .servicing)
    (hm : Moves nodes L s.pipe (.submit item i src) pipe) :
    Linked { s with
      pipe := pipe
      phases := update s.phases i
        (if s.pipe.accepts then .unlocking (some s.pipe.submissions.length) .ok else .refused) } := by
  obtain ⟨sub, hsubs, hacc, haddr⟩ := hm.submitted
  have htaken : (s.phases i).isTaken = true := by rw [hphase]; rfl
  have hnew : pipe.submissions[s.pipe.submissions.length]? = some sub := by
    rw [hsubs]
    exact List.getElem?_concat_length
  have hold : ∀ {j : Nat} {sub' : Submission σ β μ}, s.pipe.submissions[j]? = some sub' →
      pipe.submissions[j]? = some sub' := by
    intro j sub' hj
    rw [hsubs]
    exact getElem?_submitted hj _
  refine ⟨fun k j hk => ?_, fun j sub' hheld hj => ?_, fun k hk => ?_⟩
  · by_cases hki : k = i
    · subst hki
      simp only [update_self] at hk
      split at hk
      next haccepts =>
        obtain rfl : s.pipe.submissions.length = j := Option.some.inj hk
        exact ⟨sub, hnew, hacc.trans haccepts, haddr⟩
      next => cases hk
    · simp only [update_of_ne hki] at hk
      obtain ⟨sub', hj, hrest⟩ := h.job k j hk
      exact ⟨sub', hold hj, hrest⟩
  · obtain hbefore | rfl := hm.extends.holds hheld
    · obtain ⟨sub'', hj', -⟩ := hinv.sub_of_holds hbefore
      obtain rfl : sub'' = sub' := Option.some.inj ((hold hj').symm.trans hj)
      have hjob := h.held j sub'' hbefore hj'
      -- an item that is being serviced has no number
      have hne : sub''.addr ≠ i := by
        rintro rfl
        rw [hphase] at hjob
        cases hjob
      simp only [update_of_ne hne]
      exact hjob
    · obtain rfl : sub = sub' := Option.some.inj (hnew.symm.trans hj)
      -- what a slot holds was accepted
      obtain ⟨sub', hj', haccepted, -⟩ := (hinv.step hm).sub_of_holds hheld
      obtain rfl : sub' = sub := Option.some.inj (hj'.symm.trans hnew)
      have haccepts : s.pipe.accepts = true := hacc.symm.trans haccepted
      simp only [haddr, update_self, haccepts, if_true]
      rfl
  · by_cases hki : k = i
    · subst hki
      exact h.active k htaken
    · simp only [update_of_ne hki] at hk
      exact h.active k hk

theorem Linked.fold {i : Nat} {job : Option Nat} (hphase : s.phases i = .done job)
    (hfree : ∀ j, job = some j → ¬ s.pipe.Holds j) (tracker : CallStatus) {pc : CoordPc}
    (hactive : ∀ k, k ≠ i → s.coord.Active s.items.length k → pc.Active s.items.length k) :
    Linked (s.fold i job tracker pc) := by
  have hne : ∀ {k : Nat}, (update s.phases i .folded k).isTaken = true → k ≠ i := by
    rintro k hk rfl
    rw [update_self] at hk
    cases hk
  refine ⟨fun k j hk => ?_, fun j sub hheld hj => ?_, fun k hk => ?_⟩
  · have hki := hne (ItemPhase.isTaken_of_job hk)
    simp only [AsyncBatch.fold, update_of_ne hki] at hk
    exact h.job k j hk
  · have hjob := h.held j sub hheld hj
    have hki : sub.addr ≠ i := by
      rintro rfl
      rw [hphase] at hjob
      exact hfree j hjob hheld
    simp only [AsyncBatch.fold, update_of_ne hki]
    exact hjob
  · have hki := hne hk
    simp only [AsyncBatch.fold, update_of_ne hki] at hk
    exact hactive k hki (h.active k hk)

end

/-! ## What the thread has produced -/

/-- The outcomes are those of the runs, and a status that is stored is that of an outcome. -/
structure OutcomesRight (s : AsyncBatch σ β μ) : Prop where
  jobs : s.outcomes.map Outcome.job = s.pipe.ran.map CopyRun.job
  stored : ∀ st ∈ s.pipe.stored, ∃ o ∈ s.outcomes, o.job = st.job ∧ o.status = st.status
  storing : ∀ status, s.pipe.consumer = .store status →
    ∃ o ∈ s.outcomes, o.job = s.pipe.cd.job ∧ o.status = status

theorem OutcomesRight.keep (h : OutcomesRight s) (hout : t.outcomes = s.outcomes)
    (hran : t.pipe.ran = s.pipe.ran) (hstored : t.pipe.stored = s.pipe.stored)
    (hstoring : ∀ status, t.pipe.consumer = .store status →
      s.pipe.consumer = .store status ∧ t.pipe.cd.job = s.pipe.cd.job) : OutcomesRight t where
  jobs := by
    rw [hout, hran]
    exact h.jobs
  stored := by
    rw [hout, hstored]
    exact h.stored
  storing := by
    rw [hout]
    intro status hpc
    obtain ⟨hpc', hjob⟩ := hstoring status hpc
    rw [hjob]
    exact h.storing status hpc'

/-! ## The words of the items -/

/-- What the words of an item say, by its phase. -/
structure ItemRight (stores : List StatusStore) (outcomes : List Outcome) (p : ItemPhase)
    (w : ItemWord) : Prop where
  clean : p.isOwn = true → w.status = .ok
  /-- The worker returns `NV_OK` for an item that was accepted. -/
  returned : ∀ j status, p = .unlocking (some j) status ∨ p = .returning (some j) status →
    status = .ok
  stored : ∀ j st, p.job = some j → st ∈ stores → st.job = some j → w.status = st.status
  unstored : ∀ j, p.job = some j → some j ∉ stores.map StatusStore.job → w.status = .ok
  tracked : ∀ j o, p.job = some j → o ∈ outcomes → o.job = some j → o.tracker = .ok →
    some j ∈ w.tracker

def WordsRight (s : AsyncBatch σ β μ) : Prop :=
  ∀ i, ItemRight s.pipe.stored s.outcomes (s.phases i) (s.words i)

theorem ItemRight.of_job_eq_none {stores : List StatusStore} {outcomes : List Outcome}
    {p : ItemPhase} {w : ItemWord} (hjob : p.job = none) (hclean : p.isOwn = true → w.status = .ok) :
    ItemRight stores outcomes p w where
  clean := hclean
  returned := by
    rintro j status (rfl | rfl)
    · cases hjob
    · cases hjob
  stored := fun j st hj => by simp [hjob] at hj
  unstored := fun j hj => by simp [hjob] at hj
  tracked := fun j o hj => by simp [hjob] at hj

theorem WordsRight.setItem (h : WordsRight s) (i : Nat) {p : ItemPhase} {w : ItemWord}
    (hitem : ItemRight s.pipe.stored s.outcomes p w) (k : Nat) :
    ItemRight s.pipe.stored s.outcomes (update s.phases i p k) (update s.words i w k) := by
  by_cases hk : k = i
  · subst hk
    rw [update_self, update_self]
    exact hitem
  · rw [update_of_ne hk, update_of_ne hk]
    exact h k

@[simp] theorem ItemWord.addWork_status (w : ItemWord) (job : Option Nat) (tracker : CallStatus) :
    (w.addWork job tracker).status = w.status := by
  rw [addWork]
  split <;> rfl

theorem ItemWord.mem_addWork {w : ItemWord} {job x : Option Nat} {tracker : CallStatus}
    (h : x ∈ w.tracker ∨ x = job ∧ tracker = .ok) : x ∈ (w.addWork job tracker).tracker := by
  rw [addWork]
  obtain hold | ⟨rfl, rfl⟩ := h
  · split
    · exact List.mem_append_left _ hold
    · exact hold
  · simp

theorem Linked.serving (h : Linked s) (hinv : PipelineInv nodes L s.pipe)
    (hocc : s.pipe.cd.occupied = true) : ∃ i j, s.pipe.cd.job = some j ∧
      s.pipe.cd.status = some i ∧ s.pipe.cd.tracker = some i ∧ (s.phases i).job = some j ∧
      ∀ k, (s.phases k).job = some j → k = i := by
  obtain ⟨j, sub, hj, -, hcarries, -⟩ := hinv.carried.cd hocc
  refine ⟨sub.addr, j, hcarries.job, hcarries.status, hcarries.tracker, ?_, fun k hk => ?_⟩
  · exact h.held j sub (.inr ⟨hocc, hcarries.job⟩) hj
  · obtain ⟨sub', hj', -, haddr⟩ := h.job k j hk
    obtain rfl : sub' = sub := Option.some.inj (hj'.symm.trans hj)
    exact haddr.symm

theorem WordsRight.store (h : WordsRight s) (hlinked : Linked s)
    (hinv : PipelineInv nodes L s.pipe) {status : NvStatus}
    (hpc : s.pipe.consumer = .store status) (k : Nat) :
    ItemRight (s.pipe.stored ++ s.pipe.cd.store status) s.outcomes (s.phases k) (s.storeWords k) := by
  have hocc := hinv.positioned.occupied_of_served (by rw [hpc]; rfl)
  obtain ⟨i, j, hjob, hstatus, -, hphase, honly⟩ := hlinked.serving hinv hocc
  have hnew : s.pipe.cd.store status = [⟨some j, i, status⟩] := by simp [Slot.store, hstatus, hjob]
  have hwords : s.storeWords = update s.words i { s.words i with status := status } := by
    simp [storeWords, hpc, hstatus]
  -- nothing was stored for it before
  have hfresh : some j ∉ s.pipe.stored.map StatusStore.job := by
    have hnodup : (s.pipe.stored.map StatusStore.job ++ [some j]).Nodup := by
      have hran := hinv.ledger.nodup.of_append_left
      rw [hinv.ledger.stores] at hran
      simpa only [Pipeline.storing, hpc, hjob] using hran
    exact fun hmem => List.disjoint_of_nodup_append hnodup hmem (List.mem_singleton_self _)
  rw [hnew, hwords]
  by_cases hk : k = i
  · subst hk
    rw [update_self]
    refine ⟨fun hown => ?_, (h k).returned, fun m st hm hst hstm => ?_, fun m hm hnot => ?_,
      (h k).tracked⟩
    · rw [ItemPhase.job_of_isOwn hown] at hphase
      cases hphase
    · obtain rfl : m = j := Option.some.inj (hm.symm.trans hphase)
      obtain hold | hadd := List.mem_append.1 hst
      · exact absurd (List.mem_map.2 ⟨st, hold, hstm⟩) hfresh
      · rw [List.mem_singleton.1 hadd]
    · obtain rfl : m = j := Option.some.inj (hm.symm.trans hphase)
      simp at hnot
  · rw [update_of_ne hk]
    have hne : ∀ {m : Nat}, (s.phases k).job = some m → m ≠ j := by
      rintro m hm rfl
      exact hk (honly k hm)
    refine ⟨(h k).clean, (h k).returned, fun m st hm hst hstm => ?_, fun m hm hnot => ?_,
      (h k).tracked⟩
    · obtain hold | hadd := List.mem_append.1 hst
      · exact (h k).stored m st hm hold hstm
      · rw [List.mem_singleton.1 hadd] at hstm
        exact absurd (Option.some.inj hstm).symm (hne hm)
    · apply (h k).unstored m hm
      intro hmem
      apply hnot
      rw [List.map_append]
      exact List.mem_append_left _ hmem

theorem WordsRight.call (h : WordsRight s) (hlinked : Linked s)
    (hinv : PipelineInv nodes L s.pipe) (hocc : s.pipe.cd.occupied = true)
    (finish : NvStatus) (tracker : CallStatus) (k : Nat) :
    ItemRight s.pipe.stored (s.outcomes ++ [⟨s.pipe.cd.job, finish, tracker⟩]) (s.phases k)
      (s.trackWords tracker k) := by
  obtain ⟨i, j, hjob, -, htracker, hphase, honly⟩ := hlinked.serving hinv hocc
  have hwords : s.trackWords tracker =
      update s.words i ((s.words i).addWork (some j) tracker) := by
    simp [trackWords, htracker, hjob]
  have hstatus : (s.trackWords tracker k).status = (s.words k).status := by
    rw [hwords]
    by_cases hk : k = i
    · subst hk
      rw [update_self, ItemWord.addWork_status]
    · rw [update_of_ne hk]
  refine ⟨fun hown => hstatus.trans ((h k).clean hown), (h k).returned,
    fun m st hm hst hstm => hstatus.trans ((h k).stored m st hm hst hstm),
    fun m hm hnot => hstatus.trans ((h k).unstored m hm hnot), fun m o hm ho hom hok => ?_⟩
  rw [hwords]
  obtain hold | hadd := List.mem_append.1 ho
  · have hmem := (h k).tracked m o hm hold hom hok
    by_cases hk : k = i
    · subst hk
      rw [update_self]
      exact ItemWord.mem_addWork (.inl hmem)
    · rw [update_of_ne hk]
      exact hmem
  · obtain rfl := List.mem_singleton.1 hadd
    obtain rfl : j = m := Option.some.inj (hjob.symm.trans hom)
    obtain rfl := honly k hm
    rw [update_self]
    exact ItemWord.mem_addWork (.inr ⟨rfl, hok⟩)

/-! ## What the coordinator takes -/

def Slot.PointsTo (slot : Slot σ) (i : Nat) : Prop := slot.occupied = true ∧ slot.status = some i

instance (slot : Slot σ) (i : Nat) : Decidable (slot.PointsTo i) := inferInstanceAs (Decidable (_ ∧ _))

def CoordPc.item : CoordPc → Option Nat
  | .folding i | .inline i => some i
  | _ => none

/-- When a worker stores `NV_OK` for an item that was accepted, the status of the item is `NV_OK`
already, and when an item is folded, no slot points to it. -/
def Orderly (s : AsyncBatch σ β μ) : BatchLabel σ β μ → Prop
  | .store i => (s.phases i).job = none ∨ (s.words i).status = .ok
  | .fold _ => ∀ i ∈ s.coord.item, ¬ s.pipe.pd.PointsTo i ∧ ¬ s.pipe.cd.PointsTo i
  | _ => True

instance (s : AsyncBatch σ β μ) : ∀ l, Decidable (Orderly s l)
  | .store _ => inferInstanceAs (Decidable (_ ∨ _))
  | .fold _ => inferInstanceAs (Decidable (∀ _ ∈ s.coord.item, _))
  | .begin .. | .take _ | .submit .. | .finishOwn .. | .unlock _ | .flush | .flushTimeout
  | .setEnable _ | .consumer | .copyFinish .. | .writeBlock .. | .writeMasks .. => isTrue trivial

/-- What was taken from an item is what its work gave, and the batch has it. Adding a tracker to
that of the batch can fail as well, which the status then says. -/
structure FoldRight (s : AsyncBatch σ β μ) (r : Fold) : Prop where
  outcome : ∀ j, r.job = some j → ∃ o ∈ s.outcomes, o.job = some j ∧ r.status = o.status ∧
    (o.tracker = .ok → some j ∈ r.tracker)
  failure : r.status ≠ .ok → s.status ≠ .ok
  work : ∀ w ∈ r.tracker, w ∈ s.tracker ∨ s.status ≠ .ok

structure BatchInv (nodes : Nat) (L : Layout) (s : AsyncBatch σ β μ) : Prop where
  pipe : PipelineInv nodes L s.pipe
  linked : Linked s
  outcomes : OutcomesRight s
  words : WordsRight s
  folds : ∀ r ∈ s.folds, FoldRight s r

namespace BatchInv

theorem not_holds_of_points (h : BatchInv nodes L s) {i j : Nat}
    (hjob : (s.phases i).job = some j)
    (hpoints : ¬ s.pipe.pd.PointsTo i ∧ ¬ s.pipe.cd.PointsTo i) : ¬ s.pipe.Holds j := by
  intro hheld
  obtain ⟨sub, hsub, -, hslot⟩ := h.pipe.sub_of_holds hheld
  obtain ⟨sub', hsub', -, haddr⟩ := h.linked.job i j hjob
  obtain rfl : sub' = sub := Option.some.inj (hsub'.symm.trans hsub)
  rw [haddr] at hslot
  obtain hpd | hcd := hslot
  · exact hpoints.1 hpd
  · exact hpoints.2 hcd

theorem next_active_folding {k i : Nat} (hne : k ≠ i)
    (h : CoordPc.Active s.items.length (.folding i) k) :
    (s.next .folding i).Active s.items.length k := by
  obtain ⟨hle, hlt⟩ := h
  rw [next]
  split
  · exact ⟨Nat.lt_of_le_of_ne hle hne.symm, hlt⟩
  · omega

section

variable (h : BatchInv nodes L s)
include h

theorem linked_step [Inhabited σ] (hm : BatchMoves nodes L s l t) (hG : Orderly s l) :
    Linked t := by
  cases hm with
  | begin inline items status pc =>
    -- the batch before has folded all its items, so the slots are free
    refine ⟨nofun, fun j sub hheld => ?_, nofun⟩
    exact absurd hheld (h.linked.not_holds_of_idle h.pipe pc j)
  | take i phase hlt pc =>
    refine h.linked.setPhase (by rw [phase]; rfl) ?_ _
    obtain hwait | hinline := pc
    · rw [hwait]
      exact hlt
    · rw [hinline]
      rfl
  | submit i item src pipe phase hpipe => exact h.linked.submit h.pipe phase hpipe
  | finishOwn i finish tracker phase =>
    have htaken := ItemPhase.isTaken_of_isOwn phase
    exact h.linked.setPhase (by rw [ItemPhase.job_of_isOwn phase]; rfl) (h.linked.active i htaken) _
  | unlock i job status phase =>
    have htaken : (s.phases i).isTaken = true := by rw [phase]; rfl
    exact h.linked.setPhase (by rw [phase]; rfl) (h.linked.active i htaken) s.words
  | store i job status phase =>
    have htaken : (s.phases i).isTaken = true := by rw [phase]; rfl
    exact h.linked.setPhase (by rw [phase]; rfl) (h.linked.active i htaken) _
  | flush pipe pc hpipe =>
    have hlinked := h.linked.pipe hpipe.extends (by cases hpipe; rfl) s.words s.outcomes
    refine ⟨hlinked.job, hlinked.held, fun i hi => ?_⟩
    have hlt : i < s.items.length := by
      have hactive := h.linked.active i hi
      obtain ⟨hwait, -⟩ | hflush := pc
      · rw [hwait] at hactive
        exact hactive
      · rw [hflush] at hactive
        exact hactive
    cases pipe.flushers 0 with
    | returned n => exact ⟨Nat.zero_le i, hlt⟩
    | idle | readPd | readCd | timedOut => exact hlt
  | flushTimeout pipe pc hpipe =>
    have hlinked := h.linked.pipe hpipe.extends (by cases hpipe; rfl) s.words s.outcomes
    refine ⟨hlinked.job, hlinked.held, fun i hi => ?_⟩
    have hactive := h.linked.active i hi
    rw [pc] at hactive
    exact ⟨Nat.zero_le i, hactive⟩
  | foldDispatched i job tracker pc phase =>
    -- an orderly fold finds no slot that points to the item
    have hpoints := hG i (by rw [pc]; rfl)
    refine h.linked.fold phase (fun j hj => ?_) tracker (fun k hk hactive => ?_)
    · apply h.not_holds_of_points _ hpoints
      rw [phase]
      exact hj
    · rw [pc] at hactive
      exact next_active_folding hk hactive
  | foldInline i job tracker pc phase =>
    have hpoints := hG i (by rw [pc]; rfl)
    refine h.linked.fold phase (fun j hj => ?_) tracker (fun k hk hactive => ?_)
    · apply h.not_holds_of_points _ hpoints
      rw [phase]
      exact hj
    · rw [pc] at hactive
      exact absurd hactive hk
  | consumer pipe hpipe =>
    have hsubs : pipe.submissions = s.pipe.submissions := by
      obtain ⟨status, -, rfl⟩ | ⟨-, -, hsubs, -⟩ := hpipe.consumer_cases
      · rfl
      · exact hsubs
    exact h.linked.pipe hpipe.extends hsubs _ s.outcomes
  | call out finish tracker block pipe hblock hpipe =>
    exact h.linked.pipe hpipe.extends (by rw [(hpipe.call_eq hblock).2]; rfl) _ _
  | invalid out finish tracker pipe hblock hpipe =>
    exact h.linked.pipe hpipe.extends (by cases hpipe <;> rfl) s.words s.outcomes
  | setEnable on pipe hpipe | writeBlock a context pipe hpipe | writeMasks a m pipe hpipe =>
    exact h.linked.pipe hpipe.extends (by cases hpipe; rfl) s.words s.outcomes

theorem occupied_of_serve (hpc : s.pipe.consumer = .serve) : s.pipe.cd.occupied = true := by
  have hpos := h.pipe.positioned
  rw [Positioned, hpc] at hpos
  exact hpos

theorem not_invalid [Inhabited σ] {out : Written σ β μ} {finish : NvStatus} {tracker : CallStatus}
    {pipe : Pipeline σ β μ}
    (hpipe : Moves nodes L s.pipe (.copyFinish out finish tracker) pipe)
    (hblock : s.pipe.cd.vaBlock = none) : False := by
  have hpc : s.pipe.consumer = .serve := by
    cases hpipe with
    | call _ _ _ _ pc => exact pc
    | invalid _ _ _ pc => exact pc
  obtain ⟨j, sub, -, -, hcarries, -⟩ := h.pipe.carried.cd (h.occupied_of_serve hpc)
  cases hblock.symm.trans hcarries.vaBlock

theorem outcomes_step [Inhabited σ] (hm : BatchMoves nodes L s l t) : OutcomesRight t := by
  cases hm with
  | submit i item src pipe phase hpipe =>
    refine h.outcomes.keep rfl hpipe.submit_frame.1 hpipe.submit_frame.2.1 fun status hpc => ?_
    exact hpipe.submit_storing h.pipe.positioned hpc
  | consumer pipe hpipe =>
    obtain ⟨status, hpc, rfl⟩ | ⟨-, hnot, -, hran, hstored, -⟩ := hpipe.consumer_cases
    -- the status that the thread carries is that of the last outcome
    · refine ⟨h.outcomes.jobs, fun st hst => ?_, nofun⟩
      obtain hold | hnew := List.mem_append.1 hst
      · exact h.outcomes.stored st hold
      · obtain ⟨o, ho, hjob, hstatus⟩ := h.outcomes.storing status hpc
        obtain ⟨a, -, rfl⟩ := List.mem_map.1 hnew
        exact ⟨o, ho, hjob, hstatus⟩
    · exact h.outcomes.keep rfl hran hstored fun status hpc => absurd hpc (hnot status)
  | call out finish tracker block pipe hblock hpipe =>
    obtain ⟨hpc, rfl⟩ := hpipe.call_eq hblock
    refine ⟨?_, fun st hst => ?_, fun status hstatus => ?_⟩
    · simp [h.outcomes.jobs]
    · obtain ⟨o, ho, hrest⟩ := h.outcomes.stored st hst
      exact ⟨o, List.mem_append_left _ ho, hrest⟩
    · refine ⟨_, List.mem_append_right _ (List.mem_singleton_self _), rfl, ?_⟩
      exact ConsumerPc.store.inj hstatus
  | invalid out finish tracker pipe hblock hpipe => exact (h.not_invalid hpipe hblock).elim
  | flush pipe pc hpipe | flushTimeout pipe pc hpipe | setEnable on pipe hpipe
    | writeBlock a context pipe hpipe | writeMasks a m pipe hpipe =>
    cases hpipe
    exact h.outcomes.keep rfl rfl rfl fun _ hpc => ⟨hpc, rfl⟩
  | begin | take | finishOwn | unlock | store | foldDispatched | foldInline =>
    exact h.outcomes.keep rfl rfl rfl fun _ hpc => ⟨hpc, rfl⟩

/-- The words of the items are right, if the run is orderly. -/
theorem words_step [Inhabited σ] (hm : BatchMoves nodes L s l t) (hG : Orderly s l) :
    WordsRight t := by
  cases hm with
  | begin => exact fun i => .of_job_eq_none rfl nofun
  | take i => exact h.words.setItem i (.of_job_eq_none rfl fun _ => rfl)
  | submit i item src pipe phase hpipe =>
    obtain ⟨hran, hstored, -⟩ := hpipe.submit_frame
    have hclean : (s.words i).status = .ok := (h.words i).clean (by rw [phase]; rfl)
    obtain ⟨hrun, hstore⟩ := h.pipe.unused
    have hitem : ItemRight s.pipe.stored s.outcomes
        (if s.pipe.accepts then .unlocking (some s.pipe.submissions.length) .ok else .refused)
        (s.words i) := by
      split
      · refine ⟨nofun, fun j status hst => ?_, fun j st hj hst hstj => ?_, fun j hj hnot => hclean,
          fun j o hj ho hoj => ?_⟩
        · obtain heq | heq := hst
          · exact (ItemPhase.unlocking.inj heq).2.symm
          · cases heq
        · obtain rfl : s.pipe.submissions.length = j := Option.some.inj hj
          exact absurd (List.mem_map.2 ⟨st, hst, hstj⟩) hstore
        · obtain rfl : s.pipe.submissions.length = j := Option.some.inj hj
          rw [← h.outcomes.jobs] at hrun
          exact absurd (List.mem_map.2 ⟨o, ho, hoj⟩) hrun
      · exact .of_job_eq_none rfl fun _ => hclean
    intro k
    have hset := h.words.setItem i hitem k
    rw [update_eq_self] at hset
    simp only [hstored]
    exact hset
  | finishOwn i finish tracker => exact h.words.setItem i (.of_job_eq_none rfl nofun)
  | unlock i job status phase =>
    have hbefore := h.words i
    rw [phase] at hbefore
    intro k
    have hset := h.words.setItem i (p := .returning job status) (w := s.words i)
      ⟨nofun, fun j st hst => ?_, hbefore.stored, hbefore.unstored, hbefore.tracked⟩ k
    · rw [update_eq_self] at hset
      exact hset
    · obtain heq | heq := hst
      · cases heq
      · cases heq
        exact hbefore.returned j status (.inl rfl)
  | store i job status phase =>
    have hbefore := h.words i
    rw [phase] at hbefore
    apply h.words.setItem i
    cases job with
    | none => exact .of_job_eq_none rfl nofun
    | some j =>
      -- storing `NV_OK` changes nothing if that is what the word says
      have hok : status = .ok := hbefore.returned j status (.inr rfl)
      have hword : { s.words i with status := status } = s.words i := by
        rw [Orderly, phase] at hG
        rw [hok, ← hG.resolve_left nofun]
      rw [hword]
      refine ⟨nofun, fun k st heq => ?_, hbefore.stored, hbefore.unstored, hbefore.tracked⟩
      obtain heq | heq := heq <;> cases heq
  | foldDispatched i | foldInline i => exact h.words.setItem i (.of_job_eq_none rfl nofun)
  | consumer pipe hpipe =>
    obtain ⟨status, hpc, rfl⟩ | ⟨hnot, -, -, -, hstored, -⟩ := hpipe.consumer_cases
    · exact h.words.store h.linked h.pipe hpc
    · have hwords : s.storeWords = s.words := by
        cases hpc : s.pipe.consumer with
        | store status => exact absurd hpc (hnot status)
        | readCd | readPd | lock | serve | reset => simp [storeWords, hpc]
      intro k
      simp only [hstored, hwords]
      exact h.words k
  | call out finish tracker block pipe hblock hpipe =>
    obtain ⟨hpc, rfl⟩ := hpipe.call_eq hblock
    exact h.words.call h.linked h.pipe (h.occupied_of_serve hpc) finish tracker
  | invalid out finish tracker pipe hblock hpipe => exact (h.not_invalid hpipe hblock).elim
  | flush pipe pc hpipe | flushTimeout pipe pc hpipe | setEnable on pipe hpipe
    | writeBlock a context pipe hpipe | writeMasks a m pipe hpipe =>
    cases hpipe
    exact h.words

theorem outcome_of_free {i j : Nat}
    (hjob : (s.phases i).job = some j) (hfree : ¬ s.pipe.Holds j) :
    ∃ o ∈ s.outcomes, o.job = some j ∧ (s.words i).status = o.status ∧
      (o.tracker = .ok → some j ∈ (s.words i).tracker) := by
  obtain ⟨sub, hsub, hacc, -⟩ := h.linked.job i j hjob
  obtain ⟨-, st, hst, hstj⟩ :=
    h.pipe.ledger.finished_of_not_holds h.pipe.positioned hsub hacc hfree
  obtain ⟨o, ho, hoj, hstatus⟩ := h.outcomes.stored st hst
  refine ⟨o, ho, hoj.trans hstj, ?_, (h.words i).tracked j o hjob ho (hoj.trans hstj)⟩
  exact ((h.words i).stored j st hjob hst hstj).trans hstatus.symm

end

end BatchInv

theorem foldStatus_ne_ok {status : NvStatus} (h : status ≠ .ok) (st : NvStatus) :
    foldStatus status [st] ≠ .ok := by
  simp [foldStatus, h]

theorem foldStatus_pair_ne_ok {status a b : NvStatus} (h : status ≠ .ok ∨ a ≠ .ok ∨ b ≠ .ok) :
    foldStatus status [a, b] ≠ .ok := by
  simp only [foldStatus, List.foldl_cons, List.foldl_nil]
  by_cases hs : status = .ok
  · by_cases ha : a = .ok
    · simpa [hs, ha] using h
    · simp [hs, ha]
  · simp [hs]

theorem FoldRight.fold {r : Fold} (h : FoldRight s r) (i : Nat) (job : Option Nat)
    (tracker : CallStatus) (pc : CoordPc) : FoldRight (s.fold i job tracker pc) r where
  outcome := h.outcome
  failure := fun hr => foldStatus_pair_ne_ok (.inl (h.failure hr))
  work := by
    intro w hw
    obtain hmem | hstatus := h.work w hw
    · left
      simp only [AsyncBatch.fold]
      split
      · exact List.mem_append_left _ hmem
      · exact hmem
    · exact .inr (foldStatus_pair_ne_ok (.inl hstatus))

theorem foldRight_new {i : Nat} {job : Option Nat} (tracker : CallStatus) (pc : CoordPc)
    (houtcome : ∀ j, job = some j → ∃ o ∈ s.outcomes, o.job = some j ∧
      (s.words i).status = o.status ∧ (o.tracker = .ok → some j ∈ (s.words i).tracker)) :
    FoldRight (s.fold i job tracker pc) ⟨job, (s.words i).status, (s.words i).tracker⟩ where
  outcome := houtcome
  failure := fun hr => foldStatus_pair_ne_ok (.inr (.inl hr))
  work := by
    intro w hw
    by_cases hok : tracker = .ok
    · left
      simp only [AsyncBatch.fold, if_pos hok]
      exact List.mem_append_right _ hw
    · right
      apply foldStatus_pair_ne_ok
      right
      right
      cases tracker with
      | ok => exact absurd rfl hok
      | err e => exact nofun

namespace BatchInv

theorem folds_step [Inhabited σ] (h : BatchInv nodes L s)
    (hm : BatchMoves nodes L s l t) (hG : Orderly s l) : ∀ r ∈ t.folds, FoldRight t r := by
  -- what a fold adds is right, as the thread is done with the item
  have hfold : ∀ {i : Nat} {job : Option Nat} (tracker : CallStatus) (pc : CoordPc),
      s.phases i = .done job → (∀ j, job = some j → ¬ s.pipe.Holds j) →
      ∀ r ∈ (s.fold i job tracker pc).folds, FoldRight (s.fold i job tracker pc) r := by
    intro i job tracker pc hphase hfree r hr
    obtain hold | hnew := List.mem_append.1 hr
    · exact (h.folds r hold).fold i job tracker pc
    · rw [List.mem_singleton.1 hnew]
      apply foldRight_new
      intro j hj
      exact h.outcome_of_free (by rw [hphase]; exact hj) (hfree j hj)
  cases hm with
  | begin => exact nofun
  | foldDispatched i job tracker pc phase | foldInline i job tracker pc phase =>
    have hpoints := hG i (by rw [pc]; rfl)
    apply hfold tracker _ phase
    intro j hj
    apply h.not_holds_of_points _ hpoints
    rw [phase]
    exact hj
  -- a timeout only adds to the status of the batch
  | flushTimeout =>
    intro r hr
    have hright := h.folds r hr
    exact ⟨hright.outcome, fun hne => foldStatus_ne_ok (hright.failure hne) _,
      fun w hw => (hright.work w hw).imp_right fun hne => foldStatus_ne_ok hne _⟩
  | call =>
    intro r hr
    have hright := h.folds r hr
    refine ⟨fun j hj => ?_, hright.failure, hright.work⟩
    obtain ⟨o, ho, hrest⟩ := hright.outcome j hj
    exact ⟨o, List.mem_append_left _ ho, hrest⟩
  | take | submit | finishOwn | unlock | store | flush | setEnable | consumer | invalid | writeBlock
    | writeMasks =>
      intro r hr
      have hright := h.folds r hr
      exact ⟨hright.outcome, hright.failure, hright.work⟩

theorem step [Inhabited σ] (h : BatchInv nodes L s)
    (hm : BatchMoves nodes L s l t) (hG : Orderly s l) : BatchInv nodes L t where
  pipe := by
    cases hm with
    | submit _ _ _ _ _ hpipe | flush _ _ hpipe | flushTimeout _ _ hpipe | setEnable _ _ hpipe
      | consumer _ hpipe | call _ _ _ _ _ _ hpipe
      | invalid _ _ _ _ _ hpipe | writeBlock _ _ _ hpipe | writeMasks _ _ _ hpipe =>
        exact h.pipe.step hpipe
    | begin | take | finishOwn | unlock | store | foldDispatched | foldInline => exact h.pipe
  linked := h.linked_step hm hG
  outcomes := h.outcomes_step hm
  words := h.words_step hm hG
  folds := h.folds_step hm hG

theorem init [Inhabited σ] {mem : Memory β μ} (howns : L.Owns mem) (words : Addr → ItemWord) :
    BatchInv nodes L (AsyncBatch.init L mem words : AsyncBatch σ β μ) where
  pipe := PipelineInv.init howns
  linked := by
    refine ⟨nofun, fun j sub hheld => ?_, nofun⟩
    obtain ⟨hocc, -⟩ | ⟨hocc, -⟩ := hheld
    · cases hocc
    · cases hocc
  outcomes := ⟨rfl, nofun, nofun⟩
  words := fun i => .of_job_eq_none rfl nofun
  folds := nofun

end BatchInv

/-! ## The results of a batch -/

def errNoMemory : NvStatus := .errOther 0x51

end FaultMesh.Async
