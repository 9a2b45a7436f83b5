import FaultMesh.Modes.Fields

/-!
# The ledger of pushes

A call of `uvm_kthread_dispatch_and_wait` begins pushes that the workers share, and has to end each of
them once. With `uvm_merge_copy_map_split` there is a second party: in the dynamic mode a worker that
has used the copy push of a segment decrements `copy_done_counters`, and the one that brings it to
zero ends the push.

The ledger says which pushes are open. It refuses to begin an open push and to end a closed one.
`Settles` says of the accesses of a call that the ledger takes them all, whatever workers report until
a wait returns, and is closed at the end. It is shown branch by branch, with rules of pre- and
postconditions for accesses.
-/

namespace FaultMesh

def Access.passes : Access → Bool
  | .wait | .expire => false
  | _ => true

/-- The access leaves the pushes alone and does not switch the dynamic mode on. -/
def Access.isQuiet : Access → Bool
  | .setDynamic | .pushBegin .. | .pushEnd .. | .pushEndUnlessClosed _ | .resetCopyDone .. => false
  | _ => true

namespace Modes

open Function

/-! ## The ledger -/

/-- The pushes of `merge_state`, and what the workers read to end copy pushes. -/
structure Ledger where
  /-- The pushes that were begun and not ended. -/
  isOpen : PushKind → Nat → Bool := fun _ _ => false
  /-- `copy_done_counters`. -/
  copyDone : Nat → Int := fun _ => 0
  /-- `copy_pushed_end`. -/
  pushedEnd : Nat → Bool := fun _ => false

namespace Ledger

def set (l : Ledger) (kind : PushKind) (slot : Nat) (b : Bool) : Ledger :=
  { l with isOpen := fun k s => if k = kind ∧ s = slot then b else l.isOpen k s }

/-- A successful `uvm_push_begin`. -/
def pushBegin (l : Ledger) (kind : PushKind) (slot : Nat) : Option Ledger :=
  if l.isOpen kind slot then none else some (l.set kind slot true)

def pushEnd (l : Ledger) (kind : PushKind) (slot : Nat) : Option Ledger :=
  if l.isOpen kind slot then some (l.set kind slot false) else none

def exec (l : Ledger) : Access → Option Ledger
  | .pushBegin kind slot true => l.pushBegin kind slot
  | .pushEnd kind slot => l.pushEnd kind slot
  | .pushEndUnlessClosed slot => if l.pushedEnd slot then some l else l.pushEnd .copy slot
  | .resetCopyDone slot mergedBlocks =>
    some { l with
      copyDone := update l.copyDone slot mergedBlocks
      pushedEnd := update l.pushedEnd slot false }
  | _ => some l

def run (l : Ledger) (as : List Access) : Option Ledger := as.foldlM exec l

/-- What a worker does that used the shared copy push of segment `slot` and is done copying, all of it
at once. -/
def report (l : Ledger) (slot : Nat) : Option Ledger :=
  let l' := { l with copyDone := update l.copyDone slot (l.copyDone slot - 1) }
  -- `atomic_dec_and_test`
  if l'.copyDone slot = 0 then
    (l'.pushEnd .copy slot).map fun l'' =>
      { l'' with pushedEnd := update l''.pushedEnd slot true }
  else some l'

/-- No push is open, as before and after every call. -/
def Closed (l : Ledger) : Prop := ∀ kind slot, l.isOpen kind slot = false

end Ledger

/-- Workers of the dynamic mode with `uvm_merge_copy_map_split` are given the counter of the segment of
their item. -/
def Fields.Counts (f : Fields) (split : Bool) (slot : Nat) : Prop :=
  split = true ∧ f.dynamicActive = true ∧ ∃ idx, slot = f.blockSegId.getD idx 0

/-- What workers report until the wait returns: a block may be reported several times, since servicing
is retried, or never. -/
def Reports (split : Bool) (f : Fields) : Ledger → Ledger → Prop :=
  Relation.ReflTransGen fun l l' => ∃ slot, f.Counts split slot ∧ l.report slot = some l'

/-- A worker that brings a counter to zero finds its copy push open. -/
def Reportable (split : Bool) (f : Fields) (l : Ledger) : Prop :=
  ∀ slot, f.Counts split slot → l.copyDone slot = 1 → l.isOpen .copy slot = true

/-- The accesses end every push that is open and no other, whatever workers report until a wait
returns, and another call may follow. Nothing is said about what comes after a wait that expires. -/
def Settles (split : Bool) (allGroups : BatchTag × Nat) : Fields → Ledger → List Access → Prop
  | f, l, [] => l.Closed ∧ f.dynamicActive = false
  | f, l, .expire :: _ => ∀ l', Reports split f l l' → Reportable split f l'
  | f, l, .wait :: as => ∀ l', Reports split f l l' →
      Reportable split f l' ∧ Settles split allGroups (f.after allGroups .wait) l' as
  | f, l, a :: as => ∃ l', l.exec a = some l' ∧ Settles split allGroups (f.after allGroups a) l' as

/-! ## Rules for accesses -/

/-- From `P` the accesses lead to `Q`: what settles the ledger there settles it before them. -/
def Leads (split : Bool) (allGroups : BatchTag × Nat) (P : Fields → Ledger → Prop) (as : List Access)
    (Q : Fields → Ledger → Prop) : Prop :=
  ∀ f l rest, P f l → (∀ g m, Q g m → Settles split allGroups g m rest) →
    Settles split allGroups f l (as ++ rest)

/-- A condition on the fields and one on the ledger. -/
def On (F : Fields → Prop) (R : Ledger → Prop) (f : Fields) (l : Ledger) : Prop := F f ∧ R l

/-- The dynamic mode is off, so that workers have no counters. -/
def Off (f : Fields) : Prop := f.dynamicActive = false

section Rules

variable {split : Bool} {allGroups : BatchTag × Nat} {P Q Q' : Fields → Ledger → Prop}
  {F F' : Fields → Prop} {R : Ledger → Prop} {as bs : List Access}

namespace Leads

theorem nil (h : ∀ f l, P f l → Q f l) : Leads split allGroups P [] Q :=
  fun f l _ hP hrest => hrest f l (h f l hP)

theorem append (h : Leads split allGroups P as Q) (h' : Leads split allGroups Q bs Q') :
    Leads split allGroups P (as ++ bs) Q' := by
  intro f l rest hP hrest
  rw [List.append_assoc]
  exact h f l _ hP fun g m hQ => h' g m rest hQ hrest

theorem imp {P' : Fields → Ledger → Prop} (hP : ∀ f l, P' f l → P f l)
    (h : Leads split allGroups P as Q) (hQ : ∀ f l, Q f l → Q' f l) : Leads split allGroups P' as Q' :=
  fun f l rest hP' hrest => h f l rest (hP f l hP') fun g m hQm => hrest g m (hQ g m hQm)

/-- Accesses to fields only. -/
theorem still (has : as.all (fun a => a.passes && !a.isPush) = true)
    (h : ∀ f, F f → F' (as.foldl (Fields.after allGroups) f)) :
    Leads split allGroups (On F R) as (On F' R) := by
  rintro f l rest ⟨hf, hl⟩ hrest
  have hend := hrest _ l ⟨h f hf, hl⟩
  clear h hrest hf
  induction as generalizing f with
  | nil => exact hend
  | cons a as ih =>
    rw [List.all_cons, Bool.and_eq_true_iff] at has
    have hnext := ih has.2 (f.after allGroups a) hend
    cases a with
    | wait | expire | pushBegin | pushEnd | pushEndUnlessClosed | resetCopyDone => cases has.1
    | _ => exact ⟨l, rfl, hnext⟩

/-- Outside of the dynamic mode they may wait as well, since no worker reports anything. -/
theorem quiet (has : as.all Access.isQuiet = true) :
    Leads split allGroups (On Off R) as (On Off R) := by
  rintro f l rest ⟨hf, hl⟩ hrest
  induction as generalizing f with
  | nil => exact hrest f l ⟨hf, hl⟩
  | cons a as ih =>
    rw [List.all_cons, Bool.and_eq_true_iff] at has
    have hoff : Off (f.after allGroups a) := by
      cases a with
      | setDynamic => cases has.1
      | clearDynamic | unsetDynamic => rfl
      | _ => exact hf
    have hnext := ih has.2 (f.after allGroups a) hoff
    have hnobody : ∀ slot, ¬ f.Counts split slot := by
      rintro slot ⟨-, hdynamic, -⟩
      rw [hf] at hdynamic
      cases hdynamic
    cases a with
    | expire => exact fun m _ slot hslot => absurd hslot (hnobody slot)
    | wait =>
      intro m hreports
      -- without reports the ledger stays
      have hsame : m = l := by
        induction hreports with
        | refl => rfl
        | tail _ hstep _ =>
          obtain ⟨slot, hslot, -⟩ := hstep
          exact absurd hslot (hnobody slot)
      subst hsame
      exact ⟨fun slot hslot => absurd hslot (hnobody slot), hnext⟩
    | setDynamic | pushBegin | pushEnd | pushEndUnlessClosed | resetCopyDone => cases has.1
    | _ => exact ⟨l, rfl, hnext⟩

/-- Pair after pair. -/
theorem flatMap_range {R : Finset Nat → Ledger → Prop} {body : Nat → List Access}
    (h : ∀ S, ∀ slot ∉ S, Leads split allGroups (On F (R (insert slot S))) (body slot) (On F (R S)))
    (count : Nat) : Leads split allGroups (On F (R (Finset.range count)))
      ((List.range count).flatMap body) (On F (R ∅)) := by
  have hlist : ∀ xs : List Nat, xs.Nodup →
      Leads split allGroups (On F (R xs.toFinset)) (xs.flatMap body) (On F (R ∅)) := by
    intro xs hnodup
    induction xs with
    | nil => exact .nil fun _ _ => id
    | cons x xs ih =>
      obtain ⟨hx, hxs⟩ := List.nodup_cons.1 hnodup
      rw [List.toFinset_cons, List.flatMap_cons]
      exact (h xs.toFinset x (by simpa using hx)).append (ih hxs)
  have hrange := hlist (List.range count) List.nodup_range
  rwa [List.toFinset_range] at hrange

end Leads

@[simp] theorem all_isQuiet_andWaitInner (cfg : PoolConfig) (items : Nat) (status : DispatchStatus) :
    (dispatchAndWaitInner cfg items status).all Access.isQuiet = true := by
  cases status <;> rfl

end Rules

/-! ## Pairs -/

namespace Ledger

/-- The pairs of the given slots are open, and no other push is. -/
def Pairs (S : Finset Nat) (l : Ledger) : Prop := ∀ kind slot, l.isOpen kind slot = decide (slot ∈ S)

theorem closed_iff_pairs {l : Ledger} : l.Closed ↔ l.Pairs ∅ := by simp [Closed, Pairs]

theorem pushBegin_of_closed {l : Ledger} {kind : PushKind} {slot : Nat}
    (h : l.isOpen kind slot = false) : l.pushBegin kind slot = some (l.set kind slot true) := by
  simp [pushBegin, h]

theorem pushEnd_of_open {l : Ledger} {kind : PushKind} {slot : Nat}
    (h : l.isOpen kind slot = true) : l.pushEnd kind slot = some (l.set kind slot false) := by
  simp [pushEnd, h]

end Ledger

open Ledger

section Pairs

variable {split : Bool} {allGroups : BatchTag × Nat} {F : Fields → Prop} {S : Finset Nat} {slot : Nat}

theorem leads_beginPair (hslot : slot ∉ S) (copyOk mapOk : Bool) :
    Leads split allGroups (On F (Pairs S)) (beginPair slot copyOk mapOk).1
      (On F (Pairs (if (beginPair slot copyOk mapOk).2 then insert slot S else S))) := by
  rintro f l rest ⟨hf, hl⟩ hrest
  have hcopy : l.isOpen .copy slot = false := by simp [hl .copy, hslot]
  have hmap : (l.set .copy slot true).isOpen .map slot = false := by simp [Ledger.set, hl .map, hslot]
  cases copyOk with
  | false => exact ⟨l, rfl, hrest f l ⟨hf, hl⟩⟩
  | true =>
    cases mapOk with
    | false =>
      -- the copy push is rolled back
      refine ⟨_, pushBegin_of_closed hcopy, _, rfl, _, pushEnd_of_open (by simp [Ledger.set]),
        hrest f _ ⟨hf, fun kind s => ?_⟩⟩
      by_cases hs : s = slot
      · cases kind <;> simp [beginPair, Ledger.set, hs, hl .map, hslot]
      · simp [beginPair, Ledger.set, hs, hl kind]
    | true =>
      refine ⟨_, pushBegin_of_closed hcopy, _, pushBegin_of_closed hmap,
        hrest f _ ⟨hf, fun kind s => ?_⟩⟩
      by_cases hs : s = slot
      · cases kind <;> simp [beginPair, Ledger.set, hs]
      · simp [beginPair, Ledger.set, hs, hl kind]

theorem leads_endPair (hslot : slot ∉ S) :
    Leads split allGroups (On F (Pairs (insert slot S))) (endPair slot) (On F (Pairs S)) := by
  rintro f l rest ⟨hf, hl⟩ hrest
  refine ⟨_, pushEnd_of_open (by simp [hl .copy]), _, pushEnd_of_open (by simp [Ledger.set, hl .map]),
    hrest f _ ⟨hf, fun kind s => ?_⟩⟩
  by_cases hs : s = slot
  · cases kind <;> simp [Ledger.set, hs, hslot]
  · simp [Ledger.set, hs, hl kind]

theorem leads_endPairs (count : Nat) :
    Leads split allGroups (On F (Pairs (.range count))) (endPairs count) (On F (Pairs ∅)) :=
  .flatMap_range (fun _ _ => leads_endPair) count

theorem leads_beginPairs (pushOk : PushKind → Nat → Bool) (left : Nat) :
    ∀ i, Leads split allGroups (On F (Pairs (.range i))) (beginPairs pushOk i left).1
      (On F (Pairs (if (beginPairs pushOk i left).2 then .range (i + left) else ∅))) := by
  induction left with
  | zero => exact fun i => .nil fun _ _ => id
  | succ left ih =>
    intro i
    have hpair := @leads_beginPair split allGroups F _ _ (Finset.notMem_range_self (n := i))
      (pushOk .copy i) (pushOk .map i)
    simp only [beginPairs]
    cases hok : (beginPair i (pushOk .copy i) (pushOk .map i)).2 with
    | true =>
      rw [hok, if_pos rfl, ← Finset.range_add_one] at hpair
      have hlater := ih (i + 1)
      rw [Nat.add_right_comm] at hlater
      exact hpair.append hlater
    | false =>
      rw [hok] at hpair
      exact hpair.append (leads_endPairs i)

/-- A branch begins its pairs, and goes on without them if that fails. -/
theorem leads_pairsOrNot {P Q : Fields → Ledger → Prop} {before yes no : List Access} {count : Nat}
    {pushOk : PushKind → Nat → Bool} (hbefore : Leads split allGroups P before (On F (Pairs ∅)))
    (hyes : Leads split allGroups (On F (Pairs (.range count))) yes Q)
    (hno : Leads split allGroups (On F (Pairs ∅)) no Q) :
    Leads split allGroups P (before ++ (beginPairs pushOk 0 count).1 ++
      if (beginPairs pushOk 0 count).2 then yes else no) Q := by
  have hpairs := @leads_beginPairs split allGroups F pushOk count 0
  rw [Nat.zero_add] at hpairs
  refine (hbefore.append hpairs).append ?_
  split
  · exact hyes
  · exact hno

/-- Between two calls no push is open and the dynamic mode is off. -/
theorem Leads.settles {P : Fields → Ledger → Prop} {as : List Access}
    (h : Leads split allGroups P as (On Off (Pairs ∅))) {f : Fields} {l : Ledger} (hP : P f l) :
    Settles split allGroups f l as := by
  have hend := h f l [] hP fun _ _ hQ => ⟨closed_iff_pairs.2 hQ.2, hQ.1⟩
  rwa [List.append_nil] at hend

end Pairs

/-! ## Pushes that workers may end -/

namespace Ledger

/-- The pairs of `S` are left to end. Of a segment that takes part in the split the copy push may be
ended already. -/
structure Closable (split : Nat → Bool) (S : Finset Nat) (l : Ledger) : Prop where
  map : ∀ s, l.isOpen .map s = decide (s ∈ S)
  copy : ∀ s, l.isOpen .copy s = (decide (s ∈ S) && !(split s && l.pushedEnd s))

/-- The counters of `T` are reset, if the split is on. -/
structure Primed (split : Bool) (merged : Nat → Nat) (S T : Finset Nat) (l : Ledger) : Prop where
  pairs : l.Pairs S
  reset : split = true → ∀ s ∈ T, l.copyDone s = merged s ∧ l.pushedEnd s = false

/-- A dynamic dispatch while workers report: only segments of merged blocks, whose copy push no worker
ended, have a counter that can come down to zero. -/
structure Counting (split : Bool) (merged : Nat → Nat) (S : Finset Nat) (l : Ledger) : Prop extends
    Closable (fun slot => split && decide (0 < merged slot)) S l where
  counts : split = true → ∀ s ∈ S, 0 < l.copyDone s → 0 < merged s ∧ l.pushedEnd s = false

variable {l : Ledger} {split : Bool} {merged : Nat → Nat} {S : Finset Nat} {slot : Nat}

theorem Primed.closable {sp : Nat → Bool} (h : l.Primed split merged S S)
    (hsp : ∀ s, sp s = true → split = true) : l.Closable sp S := by
  refine ⟨h.pairs .map, fun s => ?_⟩
  rw [h.pairs]
  by_cases hs : s ∈ S
  · cases hb : sp s with
    | false => simp [hs]
    | true => simp [hs, h.reset (hsp s hb) s hs]
  · simp [hs]

theorem Primed.counting (h : l.Primed split merged S S) : l.Counting split merged S where
  toClosable := h.closable fun s hs => (Bool.and_eq_true_iff.1 hs).1
  counts hsplit s hs hpos := by
    obtain ⟨hcount, hended⟩ := h.reset hsplit s hs
    rw [hcount] at hpos
    exact ⟨by omega, hended⟩

/-- The copy push is ended by the coordinator now, or was by a worker. -/
theorem Closable.closeCopy {sp : Nat → Bool} (h : l.Closable sp S) (hslot : slot ∈ S) :
    ∃ m, l.exec (if sp slot then .pushEndUnlessClosed slot else .pushEnd .copy slot) = some m ∧
      m.pushedEnd = l.pushedEnd ∧ (∀ s, m.isOpen .map s = l.isOpen .map s) ∧
      ∀ s, m.isOpen .copy s = (l.isOpen .copy s && decide (s ≠ slot)) := by
  have hself := h.copy slot
  cases hend : sp slot && l.pushedEnd slot with
  | true =>
    -- a worker has ended it
    obtain ⟨hsplit, hended⟩ := Bool.and_eq_true_iff.1 hend
    refine ⟨l, by simp [exec, hsplit, hended], rfl, fun _ => rfl, fun s => ?_⟩
    rcases eq_or_ne s slot with rfl | hs
    · simp [hself, hend]
    · simp [hs]
  | false =>
    -- it is still open
    have hopen : l.isOpen .copy slot = true := by simp [hself, hend, hslot]
    refine ⟨l.set .copy slot false, ?_, rfl, fun s => by simp [set], fun s => ?_⟩
    · cases hsplit : sp slot with
      | false => exact pushEnd_of_open hopen
      | true =>
        have hended : l.pushedEnd slot = false := by simpa [hsplit] using hend
        simp [exec, hended, pushEnd_of_open hopen]
    · rcases eq_or_ne s slot with rfl | hs
      · simp [set]
      · simp [set, hs]

/-- The worker that brings the counter to zero finds the copy push open. -/
theorem Counting.isOpen_copy (h : l.Counting split merged S) (hsplit : split = true)
    (hslot : slot ∈ S) (hlast : l.copyDone slot = 1) : l.isOpen .copy slot = true := by
  obtain ⟨-, hended⟩ := h.counts hsplit slot hslot (by omega)
  simp [h.copy, hslot, hended]

theorem Counting.report {l' : Ledger} (hreport : l.report slot = some l')
    (h : l.Counting split merged S) (hsplit : split = true) (hslot : slot ∈ S) :
    l'.Counting split merged S := by
  by_cases hlast : l.copyDone slot = 1
  · obtain ⟨hmerged, -⟩ := h.counts hsplit slot hslot (by omega)
    simp [Ledger.report, pushEnd, hlast, h.isOpen_copy hsplit hslot hlast] at hreport
    subst hreport
    refine ⟨⟨fun s => by simp [set, h.map], fun s => ?_⟩, fun _ s hs hpos => ?_⟩
    · rcases eq_or_ne s slot with rfl | hne
      · simp [set, hsplit, hmerged]
      · simp [set, hne, h.copy]
    · rcases eq_or_ne s slot with rfl | hne
      · simp [set] at hpos
      · simp only [set, update_of_ne hne] at hpos ⊢
        exact h.counts hsplit s hs hpos
  · have hzero : l.copyDone slot - 1 ≠ 0 := by omega
    simp [Ledger.report, hzero] at hreport
    subst hreport
    refine ⟨⟨h.map, h.copy⟩, fun _ s hs hpos => h.counts hsplit s hs ?_⟩
    rcases eq_or_ne s slot with rfl | hne
    · simp only [update_self] at hpos
      omega
    · simpa [hne] using hpos

end Ledger

section Shared

variable {split : Bool} {allGroups : BatchTag × Nat} {F : Fields → Prop}

theorem leads_resetCopyDones (merged : Nat → Nat) (S : Finset Nat) (count : Nat) :
    Leads split allGroups (On F (Pairs S)) (resetCopyDones split merged count)
      (On F (Primed split merged S (.range count))) := by
  cases split with
  | false => exact .nil fun f l h => ⟨h.1, h.2, nofun⟩
  | true =>
    simp only [resetCopyDones, if_true]
    induction count with
    | zero => exact .nil fun f l h => ⟨h.1, h.2, fun _ s hs => absurd hs (Finset.notMem_empty s)⟩
    | succ count ih =>
      rw [List.range_succ, List.map_append]
      refine ih.append ?_
      rintro f l rest ⟨hf, hl⟩ hrest
      refine ⟨_, rfl, hrest f _ ⟨hf, hl.pairs, fun _ s hs => ?_⟩⟩
      rcases eq_or_ne s count with rfl | hne
      · simp
      · have hlt : s ∈ Finset.range count := by simp at hs ⊢; omega
        simpa [hne] using hl.reset rfl s hlt

theorem leads_closePairs (sp : Nat → Bool) (count : Nat) :
    Leads split allGroups (On F (Closable sp (.range count))) (closePairs sp count)
      (On F (Pairs ∅)) := by
  refine .imp (fun _ _ => id) (.flatMap_range (R := Closable sp) (fun S slot hslot => ?_) count)
    fun f l h => ⟨h.1, fun kind s => ?_⟩
  · rintro f l rest ⟨hf, hl⟩ hrest
    obtain ⟨m, hm, hpushed, hmap, hcopy⟩ := hl.closeCopy (Finset.mem_insert_self slot S)
    have hlast : ∃ m', m.pushEnd .map slot = some m' ∧ Closable sp S m' := by
      refine ⟨_, pushEnd_of_open (by simp [hmap, hl.map]), fun s => ?_, fun s => ?_⟩
      · rcases eq_or_ne s slot with rfl | hs
        · simp [Ledger.set, hslot]
        · simp [Ledger.set, hs, hmap, hl.map]
      · rcases eq_or_ne s slot with rfl | hs
        · simp [Ledger.set, hcopy, hslot]
        · simp [Ledger.set, hs, hcopy, hl.copy, hpushed]
    obtain ⟨m', hm', hclosable⟩ := hlast
    cases hsplit : sp slot <;>
      exact ⟨m, by simpa [hsplit] using hm, m', hm', hrest f m' ⟨hf, hclosable⟩⟩
  · cases kind with
    | map => exact h.2.map s
    | copy => simp [h.2.copy]

theorem leads_dynamicWait {ids : List Nat} {merged : Nat → Nat} {S : Finset Nat}
    (hids : ∀ idx, ids.getD idx 0 ∈ S) (items : Nat) (status : DispatchStatus) :
    Leads split allGroups (On (fun f => f.blockSegId = ids) (Primed split merged S S))
      (dispatchWaitInner items status)
      (On (fun _ => True) (Closable (fun slot => split && decide (0 < merged slot)) S)) := by
  rintro f l rest ⟨rfl, hl⟩ hrest
  have hkeeps : ∀ m, Reports split f l m → Counting split merged S m := by
    intro m hreports
    induction hreports with
    | refl => exact hl.counting
    | tail _ hstep ih =>
      obtain ⟨slot, ⟨hsplit, -, idx, rfl⟩, hreport⟩ := hstep
      exact ih.report hreport hsplit (hids idx)
  have hlast : ∀ m, Reports split f l m → Reportable split f m := by
    rintro m hreports slot ⟨hsplit, -, idx, rfl⟩ hone
    exact (hkeeps m hreports).isOpen_copy hsplit (hids idx) hone
  cases status with
  | timeout => exact hlast
  | _ => exact fun m h => ⟨hlast m h, m, rfl, hrest _ m ⟨trivial, (hkeeps m h).toClosable⟩⟩

end Shared

/-! ## The branches -/

section Branches

variable {split : Bool} {allGroups : BatchTag × Nat} (cfg : SegmentConfig) (ps : ModeParams)
  {ans : Answers} {faults : List Nat}

theorem getD_blockSegId_lt (hne : faults ≠ []) (threshold idx : Nat) :
    (cfg.dynamicSegments threshold faults).blockSegId.getD idx 0 <
      (cfg.dynamicSegments threshold faults).numSegments := by
  rcases Nat.lt_or_ge idx (cfg.dynamicSegments threshold faults).blockSegId.length with hlt | hge
  · rw [List.getD_eq_getElem _ _ hlt]
    exact (mem_blockSegId cfg threshold hne).1 (List.getElem_mem hlt)
  -- past the end a worker reads segment 0
  · rw [List.getD_eq_default _ _ hge, SegmentConfig.dynamicSegments, numSegments_eq]
    exact List.length_pos_of_ne_nil (faultChunks_ne_nil threshold hne _)

theorem leads_dynamicPlan (hne : faults ≠ []) :
    Leads ps.copyMapSplit allGroups (On Off (Pairs ∅)) (dynamicPlan cfg ps ans faults)
      (On Off (Pairs ∅)) := by
  have hids := fun idx => Finset.mem_range.2
    (getD_blockSegId_lt cfg hne (cfg.segFaultThreshold faults) idx)
  unfold dynamicPlan
  dsimp only
  generalize cfg.dynamicSegments (cfg.segFaultThreshold faults) faults = segs at hids
  refine leads_pairsOrNot (F := fun f => f.blockSegId = segs.blockSegId)
    (.still rfl fun f _ => rfl) ?_ ?_
  · rw [dispatchAndWaitInner, ← List.append_assoc]
    have hkeep : ∀ {as R}, as.all (fun a => a.passes && !a.isPush) = true →
        (∀ f, (as.foldl (Fields.after allGroups) f).blockSegId = f.blockSegId) →
        Leads ps.copyMapSplit allGroups (On (fun f => f.blockSegId = segs.blockSegId) R) as
          (On (fun f => f.blockSegId = segs.blockSegId) R) :=
      fun has h => .still has fun f hf => (h f).trans hf
    refine .append (.append (.append (.append (.append (leads_resetCopyDones _ _ _)
      (hkeep rfl fun _ => rfl)) (hkeep rfl fun _ => rfl)) (leads_dynamicWait hids _ _))
      (leads_closePairs _ _)) ?_
    exact .still rfl fun f _ => rfl
  -- a regular dispatch without pushes
  · rw [← List.singleton_append]
    exact .append (.still rfl fun f _ => rfl) (.quiet (by simp))

theorem leads_groupSegPlan :
    Leads ps.copyMapSplit allGroups (On Off (Pairs ∅)) (groupSegPlan cfg ps ans faults)
      (On Off (Pairs ∅)) := by
  refine leads_pairsOrNot (.quiet rfl) ?_ (.quiet (by simp [Access.isQuiet]))
  refine ((((leads_resetCopyDones _ _ _).append (.quiet rfl)).append (.quiet (by simp))).append
    ?_).append (.quiet rfl)
  -- the workers of this mode have no counter, so `copy_pushed_end` is still clear
  exact .imp (fun f l h => ⟨h.1, h.2.closable fun s hs => (Bool.and_eq_true_iff.1 hs).1⟩)
    (leads_closePairs _ _) fun _ _ => id

theorem leads_segParallelPlan :
    Leads split allGroups (On Off (Pairs ∅)) (segParallelPlan cfg ans faults) (On Off (Pairs ∅)) :=
  leads_pairsOrNot (.quiet rfl)
    ((((Leads.quiet rfl).append (.quiet (by simp))).append (leads_endPairs _)).append (.quiet rfl))
    (.quiet (by simp [Access.isQuiet]))

theorem leads_wholePlan :
    Leads split allGroups (On Off (Pairs ∅)) (wholePlan cfg ans faults) (On Off (Pairs ∅)) := by
  refine Leads.append (.append (.quiet rfl)
    (leads_beginPair (Finset.notMem_empty 0) (ans.pushOk .copy 0) (ans.pushOk .map 0))) ?_
  cases (beginPair 0 (ans.pushOk .copy 0) (ans.pushOk .map 0)).2 with
  | false => exact .quiet (by simp [Access.isQuiet])
  | true =>
    exact (((Leads.quiet rfl).append (.quiet (by simp))).append
      (leads_endPair (Finset.notMem_empty 0))).append (.quiet rfl)

theorem leads_offPlan :
    Leads split allGroups (On Off (Pairs ∅)) (offPlan cfg ans faults) (On Off (Pairs ∅)) :=
  .quiet (by simp [offPlan, Access.isQuiet])

/-! ## Segment by segment -/

/-- The pairs that are open between two segments: at most the one begun ahead. -/
def openSlots (st : SegState) : Finset Nat := if st.curPushOpen then {st.curSlot} else ∅

theorem leads_segmentPair (st : SegState) :
    Leads split allGroups (On Off (Pairs (openSlots st))) (segmentPair ans st).1
      (On Off (Pairs (if (segmentPair ans st).2 then {st.curSlot} else ∅))) := by
  unfold segmentPair openSlots
  cases st.curPushOpen with
  | true => exact .nil fun _ _ => id
  | false => exact leads_beginPair (Finset.notMem_empty _) _ _

theorem leads_segmentNext (st : SegState) (atEnd : Bool) :
    Leads split allGroups (On Off (Pairs {st.curSlot})) (segmentNext ps ans st atEnd).1
      (On Off (Pairs (insert st.curSlot
        (if (segmentNext ps ans st atEnd).2 then {1 - st.curSlot} else ∅)))) := by
  have hother : 1 - st.curSlot ∉ ({st.curSlot} : Finset Nat) := by simp; omega
  have hpair := @leads_beginPair split allGroups Off _ _ hother (ans.nextOk .copy st.segment)
    (ans.nextOk .map st.segment)
  unfold segmentNext
  split
  · cases hok : (beginPair (1 - st.curSlot) (ans.nextOk .copy st.segment)
        (ans.nextOk .map st.segment)).2 with
    | false => rwa [hok] at hpair
    | true =>
      rw [hok, if_pos rfl, Finset.pair_comm] at hpair
      exact hpair
  · exact .nil fun _ _ => id

/-- After a segment only the pair begun ahead is open, and after an error not even that. -/
theorem leads_segmentBody (st : SegState) (segCount : Nat) (atEnd : Bool) :
    Leads split allGroups (On Off (Pairs (openSlots st)))
      (segmentBody cfg ps ans st segCount atEnd).1
      (On Off (Pairs (if ans.status st.segment = .ok then
        openSlots (segmentBody cfg ps ans st segCount atEnd).2 else ∅))) := by
  have hpair := @leads_segmentPair split allGroups ans st
  unfold segmentBody
  dsimp only
  cases hown : (segmentPair ans st).2 with
  | false =>
    -- no pair was open, and none is begun
    have hclosed : openSlots st = ∅ := by
      cases hopen : st.curPushOpen with
      | false => simp [openSlots, hopen]
      | true => simp [segmentPair, hopen] at hown
    have hnone : openSlots { st with continuous := false } = ∅ := hclosed
    rw [hown] at hpair
    rw [if_neg Bool.false_ne_true]
    dsimp only
    rw [hnone, ite_self]
    exact (Leads.append (.quiet rfl) hpair).append (.quiet (by simp [Access.isQuiet]))
  | true =>
    rw [hown] at hpair
    have hnext := @leads_segmentNext split allGroups ps ans st atEnd
    have hwait : (dispatchWaitInner segCount (ans.status st.segment)).all Access.isQuiet = true := by
      cases ans.status st.segment <;> rfl
    have hcur : st.curSlot ∉ (if (segmentNext ps ans st atEnd).2 then {1 - st.curSlot} else ∅ :
        Finset Nat) := by
      split
      · simp; omega
      · simp
    rw [if_pos rfl]
    dsimp only
    refine ((((((Leads.append (.append (.quiet rfl) hpair) (.quiet rfl)).append (.quiet rfl)).append
      hnext).append (.quiet hwait)).append (leads_endPair hcur)).append (.quiet rfl)).append ?_
    cases (segmentNext ps ans st atEnd).2 with
    | false => simpa [openSlots] using Leads.nil fun _ _ => id
    | true =>
      by_cases hstatus : ans.status st.segment = .ok
      · simpa [hstatus, openSlots] using Leads.nil fun _ _ => id
      -- the pair begun ahead is ended too
      · simpa [hstatus] using leads_endPair (Finset.notMem_empty (1 - st.curSlot))

theorem openSlots_segmentBody (st : SegState) (segCount : Nat) :
    openSlots (segmentBody cfg ps ans st segCount true).2 = ∅ := by
  have hnone : (segmentNext ps ans st true).2 = false := by simp [segmentNext]
  unfold segmentBody
  dsimp only
  split
  · simp [openSlots, hnone]
  · cases hopen : st.curPushOpen with
    | false => simp [openSlots]
    | true => simp_all [segmentPair]

theorem leads_segmentedLoop (total threshold : Nat) (rest : List Nat) (cursor : Nat) (st : SegState)
    (hlast : rest = [] → openSlots st = ∅) :
    Leads split allGroups (On Off (Pairs (openSlots st)))
      (segmentedLoop cfg ps ans total threshold cursor rest st) (On Off (Pairs ∅)) := by
  induction rest generalizing cursor st with
  | nil =>
    rw [hlast rfl]
    exact .nil fun _ _ => id
  | cons numFaults rest ih =>
    simp only [segmentedLoop]
    generalize hst : { st with
      runningFaults := st.runningFaults + numFaults
      faultsSoFar := st.faultsSoFar + numFaults } = st'
    have hslots : openSlots st = openSlots st' := by rw [← hst]; rfl
    have hsegment : st'.segment = st.segment := by rw [← hst]
    rw [hslots]
    split
    -- the segment goes on
    · exact ih (cursor + 1) st' fun hnil => absurd hnil ‹_ ∧ _›.1
    · have hbody := @leads_segmentBody split allGroups cfg ps ans st' (cursor - st.segStart + 1)
        rest.isEmpty
      rw [hsegment] at hbody
      refine hbody.append ?_
      -- an error ends the loop; no pair is open then
      by_cases hstatus : ans.status st.segment = .ok
      · rw [if_pos hstatus, if_pos hstatus]
        refine ih (cursor + 1) { (segmentBody cfg ps ans st' _ rest.isEmpty).2 with
          segStart := cursor + 1, runningFaults := 0, segment := st.segment + 1 } fun hnil => ?_
        rw [hnil]
        exact openSlots_segmentBody cfg ps st' _
      · rw [if_neg hstatus, if_neg hstatus]
        exact .nil fun _ _ => id

theorem leads_segmentedPlan (hne : faults ≠ []) :
    Leads split allGroups (On Off (Pairs ∅)) (segmentedPlan cfg ps ans faults) (On Off (Pairs ∅)) :=
  leads_segmentedLoop cfg ps _ _ faults 0 { continuous := ps.continuousWorkers }
    fun hnil => absurd hnil hne

end Branches

end Modes

end FaultMesh
