import FaultMesh.ServiceLoop

/-!
# Cancelling uTLBs

A GPU that cannot cancel a fault by its address cancels all requests of a uTLB at once.
`cancel_faults_precise_tlb` therefore looks for uTLBs that can be blamed as a whole: the first fault
is fatal, and so is one on every page that the uTLB faults on. A uTLB is taken to be in lockdown when
a fault that was fatal in an earlier round is in the buffer again; here that is a parameter. What the
rounds do to the fault buffer is in `cancelTlbRound`.
-/

namespace FaultMesh

open Function

/-! ## The faults of a uTLB -/

section Buffer

variable (es : List FaultEntry)

def isFirstFaultInUtlb (faultIndex utlbId : Nat) : Bool :=
  (es.take faultIndex).all fun e => e.utlbId ≠ utlbId

/-- The numbers of fatal and of other faults. -/
def faultsForPageInUtlb (vaSpace : Option VaSpaceId) (addr utlbId : Nat) : Nat × Nat :=
  let found := es.filter fun e =>
    e.utlbId = utlbId && e.vaSpace = vaSpace && e.faultAddress = addr
  (found.countP (·.isFatal), found.countP (!·.isFatal))

/-- Whether some page has faults, none of them fatal. -/
def noFatalPagesInUtlb (startIndex utlbId : Nat) : Bool :=
  (es.drop startIndex).any fun e => e.utlbId = utlbId &&
    0 < (faultsForPageInUtlb es e.vaSpace e.faultAddress utlbId).2 &&
    (faultsForPageInUtlb es e.vaSpace e.faultAddress utlbId).1 = 0

/-- The tests before a cancel is pushed for entry `i`. -/
def mayCancel (inLockdown cancelled : Nat → Bool) (i : Nat) (e : FaultEntry) : Bool :=
  e.isFatal && inLockdown e.utlbId && !cancelled e.utlbId && isFirstFaultInUtlb es i e.utlbId &&
    !noFatalPagesInUtlb es (i + 1) e.utlbId

/-- The loop of `try_to_cancel_utlbs` from entry `i` on: the uTLBs that are cancelled afterwards, and
the entries that cancels were pushed for. A push that fails ends the loop. -/
def cancelUtlbsFrom (inLockdown : Nat → Bool) (push : Nat → CallStatus) :
    Nat → List FaultEntry → (Nat → Bool) → (Nat → Bool) × List Nat
  | _, [], cancelled => (cancelled, [])
  | i, e :: rest, cancelled =>
    if mayCancel es inLockdown cancelled i e then
      if push i = .ok then
        let r := cancelUtlbsFrom inLockdown push (i + 1) rest (update cancelled e.utlbId true)
        (r.1, i :: r.2)
      else (cancelled, [])
    else cancelUtlbsFrom inLockdown push (i + 1) rest cancelled

def tryToCancelUtlbs (inLockdown cancelled : Nat → Bool) (push : Nat → CallStatus) :
    (Nat → Bool) × List Nat :=
  cancelUtlbsFrom es inLockdown push 0 es cancelled

/-- The uTLB of entry `i` can be blamed: this is its first fault and fatal, and every page that it
faults on has a fatal fault. -/
structure Blamed (i : Nat) (e : FaultEntry) : Prop where
  entry : es[i]? = some e
  fatal : e.isFatal = true
  first : ∀ e' ∈ es.take i, e'.utlbId ≠ e.utlbId
  pages : ∀ e' ∈ es, e'.utlbId = e.utlbId → ∃ f ∈ es, f.isFatal = true ∧ f.utlbId = e.utlbId ∧
    f.vaSpace = e'.vaSpace ∧ f.faultAddress = e'.faultAddress

end Buffer

section Blame

variable {es rest : List FaultEntry} {i j : Nat} {e : FaultEntry} {inLockdown cancelled : Nat → Bool}
  {push : Nat → CallStatus}

theorem noFatalPagesInUtlb_eq_false {start u : Nat} :
    noFatalPagesInUtlb es start u = false ↔ ∀ e ∈ es.drop start, e.utlbId = u →
      ∃ f ∈ es, f.isFatal = true ∧ f.utlbId = u ∧ f.vaSpace = e.vaSpace ∧
        f.faultAddress = e.faultAddress := by
  simp only [noFatalPagesInUtlb, List.any_eq_false, Bool.and_eq_true, decide_eq_true_eq, and_imp,
    not_and]
  simp only [faultsForPageInUtlb, List.countP_pos_iff, List.countP_eq_zero, List.mem_filter,
    Bool.and_eq_true, decide_eq_true_eq, and_assoc]
  refine forall₂_congr fun e he => ⟨fun h hu => ?_, fun h hu _ hnone => ?_⟩
  -- the fault itself is on the page
  · by_contra hno
    have hothers : ∀ f, (f ∈ es ∧ f.utlbId = u ∧ f.vaSpace = e.vaSpace ∧
        f.faultAddress = e.faultAddress) → ¬ f.isFatal = true := by
      rintro f ⟨hf, hpage⟩ hfatal
      exact hno ⟨f, hf, hfatal, hpage⟩
    have hself := hothers e ⟨List.mem_of_mem_drop he, hu, rfl, rfl⟩
    exact h hu ⟨e, List.mem_of_mem_drop he, hu, rfl, rfl, by simpa using hself⟩ hothers
  · obtain ⟨f, hf, hfatal, hpage⟩ := h hu
    exact hnone f ⟨hf, hpage⟩ hfatal

theorem mayCancel_iff (he : es[i]? = some e) :
    mayCancel es inLockdown cancelled i e = true ↔
      Blamed es i e ∧ inLockdown e.utlbId = true ∧ cancelled e.utlbId = false := by
  simp only [mayCancel, Bool.and_eq_true, Bool.not_eq_true', noFatalPagesInUtlb_eq_false,
    isFirstFaultInUtlb, List.all_eq_true, decide_eq_true_eq]
  constructor
  · rintro ⟨⟨⟨⟨hfatal, hlock⟩, hopen⟩, hfirst⟩, hpages⟩
    refine ⟨⟨he, hfatal, hfirst, fun e' he' hu => ?_⟩, hlock, hopen⟩
    -- before entry `i` the uTLB has no faults
    rw [← List.take_append_drop i es, List.mem_append, List.drop_eq_getElem?_toList_append, he] at he'
    simp only [Option.toList_some, List.cons_append, List.nil_append, List.mem_cons] at he'
    obtain hbefore | rfl | hafter := he'
    · exact absurd hu (hfirst e' hbefore)
    · exact ⟨e', List.mem_of_getElem? he, hfatal, rfl, rfl, rfl⟩
    · exact hpages e' hafter hu
  · rintro ⟨h, hlock, hopen⟩
    exact ⟨⟨⟨⟨h.fatal, hlock⟩, hopen⟩, h.first⟩, fun e' he' => h.pages e' (List.mem_of_mem_drop he')⟩

theorem mayCancel_update (he : es[i]? = some e) (hij : i < j) (e' : FaultEntry) :
    mayCancel es inLockdown (update cancelled e.utlbId true) j e' =
      mayCancel es inLockdown cancelled j e' := by
  by_cases hu : e'.utlbId = e.utlbId
  · have hmem : e ∈ es.take j :=
      List.mem_of_getElem? (i := i) (by rw [List.getElem?_take, if_pos hij, he])
    have hfirst : isFirstFaultInUtlb es j e'.utlbId = false :=
      List.all_eq_false.2 ⟨e, hmem, by simp [hu]⟩
    simp [mayCancel, hfirst]
  · simp only [mayCancel, update_of_ne hu]

theorem cancelUtlbsFrom_pushed (hrest : es.drop i = rest) :
    (cancelUtlbsFrom es inLockdown push i rest cancelled).2 =
      ((List.range' i rest.length).filter fun j =>
        es[j]?.any (mayCancel es inLockdown cancelled j)).takeWhile fun j => push j = .ok := by
  induction rest generalizing i cancelled with
  | nil => rfl
  | cons e rest ih =>
    have he : es[i]? = some e := by
      rw [← Nat.add_zero i, ← List.getElem?_drop, hrest]
      rfl
    have htail : es.drop (i + 1) = rest := by rw [← List.tail_drop, hrest, List.tail_cons]
    rw [cancelUtlbsFrom, List.length_cons, List.range'_succ, List.filter_cons, he, Option.any_some]
    split
    · rw [List.takeWhile_cons]
      simp only [decide_eq_true_eq]
      split
      · dsimp only
        rw [ih htail]
        congr 2
        apply List.filter_congr
        intro j hj
        have hij : i < j := (List.mem_range'_1.1 hj).1
        exact congrArg es[j]?.any (funext fun e' => mayCancel_update he hij e')
      · rfl
    · exact ih htail

/-- `try_to_cancel_utlbs` goes through the entries whose uTLB is in lockdown and can be blamed, in
the order of the buffer, and pushes a cancel for each of them up to the first push that fails. -/
theorem blamed_utlbs_cancelled (es : List FaultEntry) (inLockdown cancelled : Nat → Bool)
    (push : Nat → CallStatus) :
    ∃ blamed : List Nat, blamed.Pairwise (· < ·) ∧
      (∀ i, i ∈ blamed ↔ ∃ e, Blamed es i e ∧ inLockdown e.utlbId = true ∧
        cancelled e.utlbId = false) ∧
      (tryToCancelUtlbs es inLockdown cancelled push).2 =
        blamed.takeWhile fun i => push i = .ok := by
  refine ⟨_, ?_, fun i => ?_, cancelUtlbsFrom_pushed rfl⟩
  · exact (List.pairwise_lt_range').filter _
  · rw [List.mem_filter, Option.any_eq_true]
    constructor
    · rintro ⟨-, e, he, hmay⟩
      exact ⟨e, (mayCancel_iff he).1 hmay⟩
    · rintro ⟨e, hmay⟩
      have he := hmay.1.entry
      refine ⟨?_, e, he, (mayCancel_iff he).2 hmay⟩
      exact List.mem_range'_1.2 ⟨Nat.zero_le i, by simpa using (List.getElem?_eq_some_iff.1 he).1⟩

end Blame

end FaultMesh
