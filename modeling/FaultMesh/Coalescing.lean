import FaultMesh.FetchSpec
import FaultMesh.Lib.Groups

/-!
# Coalescing of duplicate faults

While a batch is fetched, an entry for the page of the last fault of its uTLB, or of the last fault
of the whole batch, is merged into that fault. When a more intrusive access of the same uTLB
arrives it takes over as the representative of the fault; accesses of other uTLBs are merged only if
they are not more intrusive than the access that opened it.

This module only says which entry goes to which fault, as groups of the stream of cached entries. It
also names the entries that will turn out to get lost: those merged into a fault of another uTLB
after its first representative was replaced (`Stray`).
-/

namespace FaultMesh

open Function Groups

/-! ## Which entries make one fault -/

/-- The faults of a stream of entries. `last` is the last fault of all and `tlbLast` the last of each
uTLB, both named by the entry that opened it. -/
structure Coalescing where
  groups : Groups
  entry : Nat → RawFault
  last : Option Nat
  tlbLast : Nat → Option Nat
  last_opener : ∀ o, last = some o → groups.IsOpener o ∧ tlbLast (entry o).utlbId = some o
  tlb_opener : ∀ u o, tlbLast u = some o → groups.IsOpener o ∧ (entry o).utlbId = u
  samePage : ∀ i < groups.size,
    (entry i).prevFetchKey = (entry (groups.opener i)).prevFetchKey
  highest : ∀ i < groups.size,
    (entry i).accessType ≤ (entry (groups.rep (groups.opener i))).accessType
  upgraded : ∀ o, groups.IsOpener o → groups.rep o ≠ o →
    (entry o).accessType < (entry (groups.rep o)).accessType

namespace Coalescing

def empty : Coalescing where
  groups := .empty
  entry := fun _ => { faultAddress := 0 }
  last := none
  tlbLast := fun _ => none
  last_opener := nofun
  tlb_opener := nofun
  samePage := nofun
  highest := nofun
  upgraded := fun _ ho => absurd ho.1 (Nat.not_lt_zero _)

variable (c : Coalescing) (mayFilter : Bool) (e : RawFault)

/-- The last fault of the uTLB is on the page of the entry. -/
def matchesTlb : Bool :=
  (c.tlbLast e.utlbId).any fun o => e.prevFetchKey = (c.entry o).prevFetchKey

/-- The last fault of the batch is on the page of the entry and at least as intrusive. -/
def matchesLast : Bool :=
  c.last.any fun o =>
    e.prevFetchKey = (c.entry o).prevFetchKey && e.accessType ≤ (c.entry o).accessType

/-- The fault that an entry is merged into. Fatal entries are not merged. -/
def joins : Option Nat :=
  if !mayFilter || e.faultType = .fatal then none
  else if c.matchesTlb e then c.tlbLast e.utlbId
  else if c.matchesLast e then c.last
  else none

variable {c mayFilter e}

theorem joins_spec {o : Nat} (h : c.joins mayFilter e = some o) :
    c.groups.IsOpener o ∧ e.prevFetchKey = (c.entry o).prevFetchKey := by
  unfold joins at h
  split at h
  · cases h
  split at h
  · rename_i hm
    simp only [matchesTlb, h, Option.any_some, decide_eq_true_eq] at hm
    exact ⟨(c.tlb_opener _ o h).1, hm⟩
  split at h
  · rename_i hm
    simp only [matchesLast, h, Option.any_some, Bool.and_eq_true, decide_eq_true_eq] at hm
    exact ⟨(c.last_opener o h).1, hm.1⟩
  · cases h

def openNew (c : Coalescing) (e : RawFault) : Coalescing where
  groups := c.groups.openNew
  entry := update c.entry c.groups.size e
  last := some c.groups.size
  tlbLast := update c.tlbLast e.utlbId (some c.groups.size)
  last_opener o ho := by
    cases ho
    simp [isOpener_openNew_iff]
  tlb_opener u o ho := by
    rw [isOpener_openNew_iff]
    by_cases hu : u = e.utlbId
    · subst hu
      simp only [update_self, Option.some.injEq] at ho
      subst ho
      simp
    · rw [update_of_ne hu] at ho
      obtain ⟨hopen, hutlb⟩ := c.tlb_opener u o ho
      rw [update_of_ne hopen.1.ne]
      exact ⟨.inl hopen, hutlb⟩
  samePage i hi := by
    rcases Nat.lt_succ_iff_lt_or_eq.1 hi with hlt | rfl
    · have hle := c.groups.opener_le i hlt
      rw [openNew_opener_of_lt hlt, update_of_ne hlt.ne, update_of_ne (by omega)]
      exact c.samePage i hlt
    · simp
  highest i hi := by
    rcases Nat.lt_succ_iff_lt_or_eq.1 hi with hlt | rfl
    · have hopen := c.groups.isOpener_opener hlt
      have hrep := c.groups.rep_lt _ hopen.1 hopen.2
      rw [openNew_opener_of_lt hlt, openNew_rep_of_lt hopen.1,
        update_of_ne hlt.ne, update_of_ne hrep.ne]
      exact c.highest i hlt
    · simp
  upgraded o ho hrep := by
    rcases isOpener_openNew_iff.1 ho with ho | rfl
    · rw [openNew_rep_of_lt ho.1] at hrep ⊢
      rw [update_of_ne ho.1.ne, update_of_ne (c.groups.rep_lt o ho.1 ho.2).ne]
      exact c.upgraded o ho hrep
    · simp at hrep

/-- An entry that is merged into the fault of `o`. It takes over if it is more intrusive. -/
def join (c : Coalescing) (e : RawFault) (o : Nat) (ho : c.groups.IsOpener o)
    (hkey : e.prevFetchKey = (c.entry o).prevFetchKey) : Coalescing where
  groups := c.groups.join o ho
    (decide ((c.entry (c.groups.rep o)).accessType < e.accessType))
  entry := update c.entry c.groups.size e
  last := c.last
  tlbLast := c.tlbLast
  last_opener k hk := by
    obtain ⟨hopen, htlb⟩ := c.last_opener k hk
    rw [isOpener_join_iff, update_of_ne hopen.1.ne]
    exact ⟨hopen, htlb⟩
  tlb_opener u k hk := by
    obtain ⟨hopen, htlb⟩ := c.tlb_opener u k hk
    rw [isOpener_join_iff, update_of_ne hopen.1.ne]
    exact ⟨hopen, htlb⟩
  samePage i hi := by
    rcases Nat.lt_succ_iff_lt_or_eq.1 hi with hlt | rfl
    · have hle := c.groups.opener_le i hlt
      rw [Groups.join_opener_of_lt hlt, update_of_ne hlt.ne, update_of_ne (by omega)]
      exact c.samePage i hlt
    · rw [Groups.join_opener_size, update_self, update_of_ne ho.1.ne]
      exact hkey
  highest i hi := by
    rcases Nat.lt_succ_iff_lt_or_eq.1 hi with hlt | rfl
    · have hopen := c.groups.isOpener_opener hlt
      have hrep := c.groups.rep_lt _ hopen.1 hopen.2
      rw [Groups.join_opener_of_lt hlt, join_rep, update_of_ne hlt.ne]
      split
      · rename_i htakes
        rw [update_self]
        have hi := c.highest i hlt
        rw [htakes.2] at hi
        exact hi.trans (of_decide_eq_true htakes.1).le
      · rw [update_of_ne hrep.ne]
        exact c.highest i hlt
    · rw [Groups.join_opener_size, join_rep, update_self]
      split
      · rw [update_self]
      · rename_i hstays
        rw [update_of_ne (c.groups.rep_lt o ho.1 ho.2).ne]
        simpa using hstays
  upgraded k hk hrep := by
    have hopen := isOpener_join_iff.1 hk
    rw [join_rep] at hrep ⊢
    rw [update_of_ne hopen.1.ne]
    split
    · rename_i htakes
      rw [update_self, htakes.2]
      have ho' := c.highest o ho.1
      rw [ho.2] at ho'
      exact ho'.trans_lt (of_decide_eq_true htakes.1)
    · rename_i hstays
      rw [if_neg hstays] at hrep
      rw [update_of_ne (c.groups.rep_lt k hopen.1 hopen.2).ne]
      exact c.upgraded k hopen hrep

def add (mayFilter : Bool) (c : Coalescing) (e : RawFault) : Coalescing :=
  match h : c.joins mayFilter e with
  | none => c.openNew e
  | some o => c.join e o (joins_spec h).1 (joins_spec h).2

/-- The faults of a stream of cached entries. -/
def ofStream (mayFilter : Bool) (kept : List RawFault) : Coalescing :=
  kept.foldl (add mayFilter) empty

theorem add_none (h : c.joins mayFilter e = none) : c.add mayFilter e = c.openNew e := by
  unfold add
  split
  · rfl
  · rename_i o ho
    cases h.symm.trans ho

theorem add_some {o : Nat} (h : c.joins mayFilter e = some o) :
    ∃ ho hkey, c.add mayFilter e = c.join e o ho hkey := by
  unfold add
  split
  · rename_i hn
    cases h.symm.trans hn
  · rename_i o' ho'
    cases h.symm.trans ho'
    exact ⟨(joins_spec h).1, (joins_spec h).2, rfl⟩

/-! ## Stray entries -/

/-- Entry `k` is merged into a fault that another uTLB opened, after a more intrusive access than the
opening one has taken over there. -/
def Stray (c : Coalescing) (k : Nat) : Prop :=
  (c.entry k).utlbId ≠ (c.entry (c.groups.opener k)).utlbId ∧
    ∃ j < k, c.groups.opener j = c.groups.opener k ∧
      (c.entry (c.groups.opener k)).accessType < (c.entry j).accessType

instance (c : Coalescing) (k : Nat) : Decidable (c.Stray k) := inferInstanceAs (Decidable (_ ∧ _))

/-- The members of a fault that its representative hears of. -/
def counted (c : Coalescing) (o : Nat) : Finset Nat := (c.groups.members o).filter fun k => ¬c.Stray k

theorem stray_congr {c' : Coalescing} {k : Nat}
    (hentry : ∀ i ≤ k, c'.entry i = c.entry i)
    (hopener : ∀ i ≤ k, c'.groups.opener i = c.groups.opener i) (hk : k < c.groups.size) :
    c'.Stray k ↔ c.Stray k := by
  have hle := c.groups.opener_le k hk
  unfold Stray
  rw [hopener k le_rfl, hentry k le_rfl, hentry _ hle]
  apply and_congr Iff.rfl
  apply exists_congr
  intro j
  apply and_congr_right
  intro hj
  rw [hopener j hj.le, hentry j hj.le]

theorem stray_openNew {k : Nat} (hk : k < c.groups.size) : (c.openNew e).Stray k ↔ c.Stray k := by
  apply stray_congr _ _ hk
  · exact fun i hi => update_of_ne (hi.trans_lt hk).ne _ _
  · exact fun i hi => openNew_opener_of_lt (hi.trans_lt hk)

theorem counted_openNew_of_lt {o : Nat} (ho : o < c.groups.size) :
    (c.openNew e).counted o = c.counted o := by
  unfold counted
  rw [show (c.openNew e).groups.members o = c.groups.members o from members_openNew_of_lt ho]
  apply Finset.filter_congr
  intro k hk
  rw [stray_openNew (mem_members.1 hk).1]

theorem counted_openNew_size : (c.openNew e).counted c.groups.size = {c.groups.size} := by
  have hmembers : (c.openNew e).groups.members c.groups.size = {c.groups.size} :=
    members_openNew_size
  have hopener : (c.openNew e).groups.opener c.groups.size = c.groups.size :=
    openNew_opener_size
  unfold counted
  rw [hmembers, Finset.filter_singleton, if_pos]
  -- the opener of a fault is not stray
  rintro ⟨hutlb, -⟩
  rw [hopener] at hutlb
  exact hutlb rfl

theorem lt_of_mem_counted {o k : Nat} (hk : k ∈ c.counted o) : k < c.groups.size :=
  (mem_members.1 (Finset.mem_filter.1 hk).1).1

theorem exists_counted_congr {entry : Nat → RawFault} {o : Nat} {t : AccessType}
    (h : ∀ k < c.groups.size, entry k = c.entry k) :
    (∃ k ∈ c.counted o, (entry k).accessType = t) ↔
      ∃ k ∈ c.counted o, (c.entry k).accessType = t := by
  apply exists_congr
  intro k
  apply and_congr_right
  intro hk
  rw [h k (lt_of_mem_counted hk)]

section Join

variable {o : Nat} {ho : c.groups.IsOpener o} {hkey : e.prevFetchKey = (c.entry o).prevFetchKey}

theorem join_groups : (c.join e o ho hkey).groups = c.groups.join o ho
    (decide ((c.entry (c.groups.rep o)).accessType < e.accessType)) := rfl

theorem join_isOpener_iff {i : Nat} :
    (c.join e o ho hkey).groups.IsOpener i ↔ c.groups.IsOpener i := by
  rw [join_groups, isOpener_join_iff]

theorem join_opener_of_lt {i : Nat} (hi : i < c.groups.size) :
    (c.join e o ho hkey).groups.opener i = c.groups.opener i := by
  rw [join_groups, Groups.join_opener_of_lt hi]

theorem join_opener_size : (c.join e o ho hkey).groups.opener c.groups.size = o := by
  rw [join_groups, Groups.join_opener_size]

theorem join_entry_of_lt {i : Nat} (hi : i < c.groups.size) :
    (c.join e o ho hkey).entry i = c.entry i :=
  update_of_ne hi.ne _ _

theorem join_entry_size : (c.join e o ho hkey).entry c.groups.size = e :=
  update_self ..

theorem stray_join {k : Nat} (hk : k < c.groups.size) :
    (c.join e o ho hkey).Stray k ↔ c.Stray k := by
  apply stray_congr _ _ hk
  · exact fun i hi => join_entry_of_lt (hi.trans_lt hk)
  · exact fun i hi => join_opener_of_lt (hi.trans_lt hk)

theorem counted_join_of_ne {i : Nat} (hi : i ≠ o) :
    (c.join e o ho hkey).counted i = c.counted i := by
  unfold counted
  rw [join_groups, members_join_of_ne hi]
  apply Finset.filter_congr
  intro k hk
  rw [stray_join (mem_members.1 hk).1]

theorem counted_join_self : (c.join e o ho hkey).counted o =
    if (c.join e o ho hkey).Stray c.groups.size then c.counted o
    else insert c.groups.size (c.counted o) := by
  have hold : (c.groups.members o).filter (fun k => ¬(c.join e o ho hkey).Stray k) =
      c.counted o := by
    apply Finset.filter_congr
    intro k hk
    rw [stray_join (mem_members.1 hk).1]
  rw [counted, join_groups, members_join_self, Finset.filter_insert, hold]
  split <;> simp_all

theorem stray_join_size_iff : (c.join e o ho hkey).Stray c.groups.size ↔
    e.utlbId ≠ (c.entry o).utlbId ∧ c.groups.rep o ≠ o := by
  unfold Stray
  rw [join_opener_size, join_entry_size, join_entry_of_lt ho.1]
  apply and_congr_right
  intro _
  constructor
  · rintro ⟨j, hj, hjo, hlt⟩ hrep
    rw [join_opener_of_lt hj] at hjo
    -- the representative is the highest access
    have hle := c.highest j hj
    rw [hjo, hrep] at hle
    rw [join_entry_of_lt hj] at hlt
    exact absurd hle (not_le.2 hlt)
  · intro hrep
    have hrlt := c.groups.rep_lt o ho.1 ho.2
    refine ⟨c.groups.rep o, hrlt, ?_, ?_⟩
    · rw [join_opener_of_lt hrlt]
      exact c.groups.opener_rep o ho.1 ho.2
    · rw [join_entry_of_lt hrlt]
      exact c.upgraded o ho hrep

theorem size_notMem_counted (i : Nat) : c.groups.size ∉ c.counted i := by
  simp [counted]

end Join

end Coalescing

/-! ## Streams -/

namespace Coalescing

section

variable (mayFilter : Bool)

theorem add_size (c : Coalescing) (e : RawFault) :
    (c.add mayFilter e).groups.size = c.groups.size + 1 := by
  cases h : c.joins mayFilter e with
  | none =>
    rw [add_none h]
    rfl
  | some o =>
    obtain ⟨ho, hkey, hadd⟩ := add_some h
    rw [hadd]
    rfl

theorem add_entry (c : Coalescing) (e : RawFault) :
    (c.add mayFilter e).entry = update c.entry c.groups.size e := by
  cases h : c.joins mayFilter e with
  | none =>
    rw [add_none h]
    rfl
  | some o =>
    obtain ⟨ho, hkey, hadd⟩ := add_some h
    rw [hadd]
    rfl

theorem card_openers_add (c : Coalescing) (e : RawFault) :
    (c.add mayFilter e).groups.openers.card =
      c.groups.openers.card + if c.joins mayFilter e = none then 1 else 0 := by
  cases h : c.joins mayFilter e with
  | none =>
    have hopeners : (c.openNew e).groups.openers = insert c.groups.size c.groups.openers := by
      ext i
      simp only [mem_openers, Finset.mem_insert]
      exact isOpener_openNew_iff.trans or_comm
    rw [add_none h, hopeners, Finset.card_insert_of_notMem]
    · rfl
    · simp [Groups.IsOpener]
  | some o =>
    obtain ⟨ho, hkey, hadd⟩ := add_some h
    have hopeners : (c.join e o ho hkey).groups.openers = c.groups.openers := by
      ext i
      simp only [mem_openers, join_isOpener_iff]
    rw [hadd, hopeners]
    simp

theorem ofStream_concat (kept : List RawFault) (e : RawFault) :
    ofStream mayFilter (kept ++ [e]) = (ofStream mayFilter kept).add mayFilter e :=
  List.foldl_concat _ _ _ _

theorem ofStream_size (kept : List RawFault) :
    (ofStream mayFilter kept).groups.size = kept.length := by
  induction kept using List.reverseRecOn with
  | nil => rfl
  | append_singleton kept e ih => rw [ofStream_concat, add_size, ih, List.length_append]; rfl

theorem ofStream_entry (kept : List RawFault) {i : Nat} (hi : i < kept.length) :
    kept[i]? = some ((ofStream mayFilter kept).entry i) := by
  induction kept using List.reverseRecOn with
  | nil => simp at hi
  | append_singleton kept e ih =>
    rw [ofStream_concat, add_entry, ofStream_size]
    rw [List.length_append, List.length_singleton] at hi
    rcases Nat.lt_succ_iff_lt_or_eq.1 hi with hlt | rfl
    · rw [List.getElem?_append_left hlt, update_of_ne hlt.ne]
      exact ih hlt
    · simp

end

end Coalescing

end FaultMesh
