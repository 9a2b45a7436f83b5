import FaultMesh.Coalescing

/-!
# Accounting for coalesced faults

The fault cache follows the groups of the stream (`Tracks`): what is filtered is what does not
represent its group, and the two pointers to last faults point where the groups say. Of the entries
merged into one fault the representative collects the number and the mask of the access types.

When a representative is replaced, the pointer of its uTLB moves on and that of the batch does not.
An entry of another uTLB is then merged into the old, filtered representative, and the new one never
hears of it. So the counts and masks cover all cached entries except the stray ones.
-/

namespace FaultMesh

open Function Coalescing

/-! ## The cache follows the groups -/

/-- The batch context during a fetch, against the faults of the entries cached so far. -/
structure Tracks (bc : BatchContext) (c : Coalescing) : Prop where
  entry : ∀ i < c.groups.size, (bc.faultCache i).toRawFault = c.entry i
  filtered : ∀ i < c.groups.size,
    (bc.faultCache i).filtered = decide (c.groups.rep (c.groups.opener i) ≠ i)
  last : bc.lastFault = c.last
  pending : ∀ u, 0 < (bc.utlbs u).numPendingFaults ↔ (c.tlbLast u).isSome = true
  tlbLast : ∀ u o, c.tlbLast u = some o → (bc.utlbs u).lastFault = c.groups.rep o
  instances : ∀ o, c.groups.IsOpener o →
    (bc.faultCache (c.groups.rep o)).numInstances = (c.counted o).card % 2 ^ 16
  masks : ∀ o, c.groups.IsOpener o → ∀ t,
    accessTypeMaskTest (bc.faultCache (c.groups.rep o)).accessTypeMask t = true ↔
      ∃ k ∈ c.counted o, (c.entry k).accessType = t

/-- The slot that the next entry was parsed into. -/
structure Parsed (bc : BatchContext) (i : Nat) (e : RawFault) : Prop where
  raw : (bc.faultCache i).toRawFault = e
  isFatal : (bc.faultCache i).isFatal = decide (e.faultType = .fatal)
  filtered : (bc.faultCache i).filtered = false

theorem sameKey_iff {a b : RawFault} :
    (cmpFaultInstancePtr a b = .eq ∧ a.faultAddress = b.faultAddress) ↔
      a.prevFetchKey = b.prevFetchKey := by
  simp [cmpFaultInstancePtr, Ordering.then_eq_eq, PhysAddr.cmp_eq_iff, RawFault.prevFetchKey,
    and_assoc]

theorem accessTypeMaskTest_eq_testBit (mask : Nat) (t : AccessType) :
    accessTypeMaskTest mask t = mask.testBit t.toNat := by
  rw [accessTypeMaskTest, AccessType.maskBit, Nat.one_shiftLeft, Nat.two_pow_and]
  cases mask.testBit t.toNat <;> simp

theorem accessTypeMaskTest_maskBit {a t : AccessType} :
    accessTypeMaskTest a.maskBit t = true ↔ a = t := by
  rw [accessTypeMaskTest_eq_testBit, AccessType.maskBit, Nat.one_shiftLeft, Nat.testBit_two_pow,
    decide_eq_true_eq, AccessType.toNat_injective.eq_iff]

theorem accessTypeMaskTest_set {mask : Nat} {a t : AccessType} :
    accessTypeMaskTest (accessTypeMaskSet mask a) t = true ↔
      accessTypeMaskTest mask t = true ∨ a = t := by
  rw [← accessTypeMaskTest_maskBit (a := a)]
  simp only [accessTypeMaskTest_eq_testBit, accessTypeMaskSet, Nat.testBit_or, Bool.or_eq_true]

namespace Tracks

variable {bc : BatchContext} {c : Coalescing} {e : RawFault}

theorem rep_raw (h : Tracks bc c) {o : Nat} (ho : c.groups.IsOpener o) :
    (bc.faultCache (c.groups.rep o)).toRawFault = c.entry (c.groups.rep o) :=
  h.entry _ (c.groups.rep_lt o ho.1 ho.2)

theorem rep_key (c : Coalescing) {o : Nat} (ho : c.groups.IsOpener o) :
    (c.entry (c.groups.rep o)).prevFetchKey = (c.entry o).prevFetchKey := by
  rw [c.samePage _ (c.groups.rep_lt o ho.1 ho.2), c.groups.opener_rep o ho.1 ho.2]

theorem matchesTlb_eq (h : Tracks bc c) (e : RawFault) :
    (0 < (bc.utlbs e.utlbId).numPendingFaults &&
      cmpFaultInstancePtr e (bc.faultCache (bc.utlbs e.utlbId).lastFault).toRawFault = .eq &&
      e.faultAddress = (bc.faultCache (bc.utlbs e.utlbId).lastFault).faultAddress : Bool) =
      c.matchesTlb e := by
  have hpending := h.pending e.utlbId
  unfold matchesTlb
  cases hlast : c.tlbLast e.utlbId with
  | none =>
    rw [hlast] at hpending
    simp [show ¬0 < (bc.utlbs e.utlbId).numPendingFaults by simpa using hpending]
  | some o =>
    obtain ⟨ho, -⟩ := c.tlb_opener _ o hlast
    rw [hlast] at hpending
    rw [h.tlbLast _ o hlast, h.rep_raw ho, Bool.eq_iff_iff]
    simp only [Bool.and_eq_true, decide_eq_true_eq, Option.any_some, hpending.2 rfl, true_and]
    rw [sameKey_iff, rep_key c ho]

theorem matchesLast_eq (h : Tracks bc c) {i j : Nat} (hi : (bc.faultCache i).toRawFault = e)
    (hlast : c.last = some j) :
    (sameInstancePtrAsLast bc i && e.faultAddress = (bc.faultCache j).faultAddress &&
      e.accessType ≤ (bc.faultCache j).accessType : Bool) = c.matchesLast e := by
  obtain ⟨ho, -⟩ := c.last_opener j hlast
  have hentry := h.entry j ho.1
  unfold matchesLast sameInstancePtrAsLast
  rw [h.last, hlast, hi, Bool.eq_iff_iff]
  simp only [Bool.and_eq_true, decide_eq_true_eq, Option.any_some, hentry]
  rw [sameKey_iff]

/-- What becomes of the next entry. -/
inductive Kept (ctx : FetchCtx) (bc : BatchContext) (c : Coalescing) (e : RawFault) : Prop where
  | own (hjoins : c.joins ctx.mayFilter e = none) (same : Bool)
      (heq : keepEntry ctx bc c.groups.size = (cacheNewFault bc c.groups.size same, true))
  | tlb (o : Nat) (hjoins : c.joins ctx.mayFilter e = some o) (hlast : c.tlbLast e.utlbId = some o)
      (heq : keepEntry ctx bc c.groups.size =
        ({ bc with
            faultCache := mergeEntry bc.faultCache c.groups.size (c.groups.rep o)
            utlbs :=
              if (c.entry (c.groups.rep o)).accessType < e.accessType then
                update bc.utlbs e.utlbId
                  { bc.utlbs e.utlbId with lastFault := c.groups.size }
              else bc.utlbs }, false))
  | last (o : Nat) (hjoins : c.joins ctx.mayFilter e = some o) (hlast : c.last = some o)
      (hle : e.accessType ≤ (c.entry o).accessType) (hutlb : e.utlbId ≠ (c.entry o).utlbId)
      (heq : keepEntry ctx bc c.groups.size =
        ({ bc with faultCache := mergeEntry bc.faultCache c.groups.size o }, false))

theorem keepEntry_own {ctx : FetchCtx} {i : Nat}
    (h : 0 < i → ctx.mayFilter = true → (bc.faultCache i).isFatal = false →
      tryMergeEntry bc i (sameInstancePtrAsLast bc i) = none) :
    keepEntry ctx bc i =
      (cacheNewFault bc i (if 0 < i then sameInstancePtrAsLast bc i else true), true) := by
  unfold keepEntry
  dsimp only
  by_cases hguard : (decide (0 < i) && ctx.mayFilter && !(bc.faultCache i).isFatal) = true
  · have htry := hguard
    simp only [Bool.and_eq_true, decide_eq_true_eq, Bool.not_eq_true'] at htry
    rw [if_pos hguard, if_pos htry.1.1, h htry.1.1 htry.1.2 htry.2]
  · rw [if_neg hguard]

theorem keepEntry_merged {ctx : FetchCtx} {i : Nat} {bc' : BatchContext} (hpos : 0 < i)
    (hmay : ctx.mayFilter = true) (hfatal : (bc.faultCache i).isFatal = false)
    (h : tryMergeEntry bc i (sameInstancePtrAsLast bc i) = some bc') :
    keepEntry ctx bc i = (bc', false) := by
  unfold keepEntry
  simp [hpos, hmay, hfatal, h]

theorem kept (h : Tracks bc c) (hparsed : Parsed bc c.groups.size e) (ctx : FetchCtx) :
    Kept ctx bc c e := by
  have hraw := hparsed.raw
  have htlb := h.matchesTlb_eq e
  by_cases hmay : ctx.mayFilter = true ∧ e.faultType ≠ .fatal
  case neg =>
    -- nothing is merged
    refine .own ?_ _ (keepEntry_own ?_)
    · have hguard : (!ctx.mayFilter || decide (e.faultType = .fatal)) = true := by
        by_contra hno
        exact hmay (by simpa using hno)
      simp [joins, hguard]
    · intro _ hfilter hfatal
      rw [hparsed.isFatal, decide_eq_false_iff_not] at hfatal
      exact absurd ⟨hfilter, hfatal⟩ hmay
  have hguard : (!ctx.mayFilter || decide (e.faultType = .fatal)) = false := by simp [hmay]
  have hfatal : (bc.faultCache c.groups.size).isFatal = false := by simp [hparsed.isFatal, hmay.2]
  have hpos : ∀ o, c.groups.IsOpener o → 0 < c.groups.size := fun o ho => Nat.zero_lt_of_lt ho.1
  cases hmt : c.matchesTlb e with
  | true =>
    -- the last fault of the uTLB
    have hany := hmt
    unfold matchesTlb at hany
    cases hlast : c.tlbLast e.utlbId with
    | none => simp [hlast] at hany
    | some o =>
      obtain ⟨ho, -⟩ := c.tlb_opener _ o hlast
      refine .tlb o ?_ hlast (keepEntry_merged (hpos o ho) hmay.1 hfatal ?_)
      · simp [joins, hguard, hmt, hlast]
      · unfold tryMergeEntry
        simp only [hraw]
        rw [htlb, hmt, if_pos rfl, h.tlbLast _ o hlast, h.rep_raw ho]
  | false =>
    cases hlast : c.last with
    | none =>
      refine .own ?_ _ (keepEntry_own fun _ _ _ => ?_)
      · simp [joins, matchesLast, hguard, hmt, hlast]
      · unfold tryMergeEntry
        simp only [hraw]
        rw [htlb, hmt, if_neg Bool.false_ne_true, h.last, hlast]
    | some o =>
      obtain ⟨ho, hotlb⟩ := c.last_opener o hlast
      have hml := h.matchesLast_eq hraw hlast
      cases hm : c.matchesLast e with
      | false =>
        refine .own ?_ _ (keepEntry_own fun _ _ _ => ?_)
        · simp [joins, hguard, hmt, hm]
        · unfold tryMergeEntry
          simp only [hraw]
          rw [htlb, hmt, if_neg Bool.false_ne_true, h.last, hlast]
          dsimp only
          rw [hml, hm, if_neg Bool.false_ne_true]
      | true =>
        have hany := hm
        simp only [matchesLast, hlast, Option.any_some, Bool.and_eq_true, decide_eq_true_eq] at hany
        refine .last o ?_ hlast hany.2 ?_ (keepEntry_merged (hpos o ho) hmay.1 hfatal ?_)
        · simp [joins, hguard, hmt, hm, hlast]
        -- its own uTLB would have been asked first
        · intro hutlb
          rw [← hutlb] at hotlb
          simp [matchesTlb, hotlb, hany.1] at hmt
        · unfold tryMergeEntry
          simp only [hraw]
          rw [htlb, hmt, if_neg Bool.false_ne_true, h.last, hlast]
          dsimp only
          rw [hml, hm, if_pos rfl]

theorem openNew (h : Tracks bc c) (hparsed : Parsed bc c.groups.size e) (same : Bool) :
    Tracks (cacheNewFault bc c.groups.size same) (c.openNew e) := by
  have hraw := hparsed.raw
  have hcache : ∀ i < c.groups.size,
      (cacheNewFault bc c.groups.size same).faultCache i = bc.faultCache i :=
    fun i hi => update_of_ne hi.ne _ _
  have hnew : (cacheNewFault bc c.groups.size same).faultCache c.groups.size =
      { bc.faultCache c.groups.size with
        numInstances := 1, accessTypeMask := e.accessType.maskBit } := by
    simp [cacheNewFault, hraw]
  have hentry : ∀ i < c.groups.size, (c.openNew e).entry i = c.entry i :=
    fun i hi => update_of_ne hi.ne _ _
  have hself : (c.openNew e).entry c.groups.size = e := update_self ..
  have hutlbs : (cacheNewFault bc c.groups.size same).utlbs = update bc.utlbs e.utlbId
      { bc.utlbs e.utlbId with
        numPendingFaults := (bc.utlbs e.utlbId).numPendingFaults + 1
        lastFault := c.groups.size } := by
    simp [cacheNewFault, hraw]
  refine
    { entry := fun i hi => ?_
      filtered := fun i hi => ?_
      last := rfl
      pending := fun u => ?_
      tlbLast := fun u o ho => ?_
      instances := fun o ho => ?_
      masks := fun o ho t => ?_ }
  · rcases Nat.lt_succ_iff_lt_or_eq.1 hi with hlt | rfl
    · rw [hcache i hlt, hentry i hlt]
      exact h.entry i hlt
    · rw [hnew, hself]
      exact hraw
  · rcases Nat.lt_succ_iff_lt_or_eq.1 hi with hlt | rfl
    · rw [hcache i hlt, h.filtered i hlt]
      simp only [Coalescing.openNew, Groups.openNew_opener_of_lt hlt,
        Groups.openNew_rep_of_lt (c.groups.isOpener_opener hlt).1]
    · rw [hnew]
      simp [Coalescing.openNew, hparsed.filtered]
  · rw [hutlbs]
    by_cases hu : u = e.utlbId
    · simp [Coalescing.openNew, hu]
    · simp only [Coalescing.openNew, update_of_ne hu]
      exact h.pending u
  · rw [hutlbs]
    by_cases hu : u = e.utlbId
    · subst hu
      simp only [Coalescing.openNew, update_self, Option.some.injEq] at ho ⊢
      subst ho
      simp
    · simp only [Coalescing.openNew, update_of_ne hu] at ho ⊢
      rw [Groups.openNew_rep_of_lt (c.tlb_opener u o ho).1.1]
      exact h.tlbLast u o ho
  · rcases Groups.isOpener_openNew_iff.1 ho with ho | rfl
    · rw [counted_openNew_of_lt ho.1]
      simp only [Coalescing.openNew, Groups.openNew_rep_of_lt ho.1]
      rw [hcache _ (c.groups.rep_lt o ho.1 ho.2)]
      exact h.instances o ho
    · rw [counted_openNew_size]
      simp [Coalescing.openNew, hnew]
  · rcases Groups.isOpener_openNew_iff.1 ho with ho | rfl
    · rw [counted_openNew_of_lt ho.1]
      have hrep : (c.openNew e).groups.rep o = c.groups.rep o := Groups.openNew_rep_of_lt ho.1
      rw [hrep, hcache _ (c.groups.rep_lt o ho.1 ho.2), h.masks o ho t, exists_counted_congr hentry]
    · rw [counted_openNew_size]
      simp [Coalescing.openNew, hnew, accessTypeMaskTest_maskBit]

section Merge

variable {o : Nat} {ho : c.groups.IsOpener o} {hkey : e.prevFetchKey = (c.entry o).prevFetchKey}

theorem mergeEntry_of_ne {cache : Nat → FaultEntry} {current last i : Nat} (hi : i ≠ current)
    (hlast : i ≠ last) : mergeEntry cache current last i = cache i := by
  unfold mergeEntry
  dsimp only
  split <;> rw [update_of_ne hi, update_of_ne hlast]

/-- The entry stands for the instances and access types of the fault that `o` opened. -/
def Counts (c : Coalescing) (o : Nat) (f : FaultEntry) : Prop :=
  f.numInstances = (c.counted o).card % 2 ^ 16 ∧
    ∀ t, accessTypeMaskTest f.accessTypeMask t = true ↔
      ∃ k ∈ c.counted o, (c.entry k).accessType = t

/-- What a merge into slot `r` leaves to show: the packets stay as they are, so only the marks and
counters of the slots that it touches are new. -/
theorem joined (h : Tracks bc c) (hraw : (bc.faultCache c.groups.size).toRawFault = e) {r : Nat}
    (hr : r ∈ c.groups.members o) {cache : Nat → FaultEntry}
    (hcache : mergeEntry bc.faultCache c.groups.size r = cache) {utlbs : Nat → UtlbInfo}
    (hfiltered : ∀ i < c.groups.size + 1, (cache i).filtered =
      decide ((c.join e o ho hkey).groups.rep ((c.join e o ho hkey).groups.opener i) ≠ i))
    (hpending : ∀ u, (utlbs u).numPendingFaults = (bc.utlbs u).numPendingFaults)
    (htlb : ∀ u k, c.tlbLast u = some k → (utlbs u).lastFault = (c.join e o ho hkey).groups.rep k)
    (hself : Counts (c.join e o ho hkey) o (cache ((c.join e o ho hkey).groups.rep o))) :
    Tracks { bc with faultCache := cache, utlbs := utlbs } (c.join e o ho hkey) := by
  -- other groups keep their representative and its entry
  have hothers : ∀ k, c.groups.IsOpener k → k ≠ o → c.groups.rep k = (c.join e o ho hkey).groups.rep k ∧
      cache (c.groups.rep k) = bc.faultCache (c.groups.rep k) := by
    intro k hk hko
    refine ⟨by rw [join_groups, Groups.join_rep, if_neg fun hand => hko hand.2], ?_⟩
    rw [← hcache]
    apply mergeEntry_of_ne (c.groups.rep_lt k hk.1 hk.2).ne
    rintro rfl
    exact hko ((c.groups.opener_rep k hk.1 hk.2).symm.trans (Groups.mem_members.1 hr).2)
  refine
    { entry := fun i hi => ?_
      filtered := hfiltered
      last := h.last
      pending := fun u => ?_
      tlbLast := htlb
      instances := fun k hk => ?_
      masks := fun k hk t => ?_ }
  · obtain ⟨_, _, _, hmarks⟩ := mergeEntry_marks bc.faultCache c.groups.size r i
    rw [hcache] at hmarks
    dsimp only
    rw [hmarks]
    rcases Nat.lt_succ_iff_lt_or_eq.1 hi with hlt | rfl
    · rw [join_entry_of_lt hlt]
      exact h.entry i hlt
    · rw [join_entry_size]
      exact hraw
  · rw [hpending u]
    exact h.pending u
  · rw [join_isOpener_iff] at hk
    by_cases hko : k = o
    · subst hko
      exact hself.1
    · obtain ⟨hrep, hsame⟩ := hothers k hk hko
      dsimp only
      rw [← hrep, counted_join_of_ne hko, hsame]
      exact h.instances k hk
  · rw [join_isOpener_iff] at hk
    by_cases hko : k = o
    · subst hko
      exact hself.2 t
    · obtain ⟨hrep, hsame⟩ := hothers k hk hko
      dsimp only
      rw [← hrep, counted_join_of_ne hko, hsame, exists_counted_congr fun i hi => join_entry_of_lt hi]
      exact h.masks k hk t

theorem counts_join (h : Tracks bc c) (hcounted : ¬(c.join e o ho hkey).Stray c.groups.size)
    {f : FaultEntry}
    (hnum : f.numInstances = ((bc.faultCache (c.groups.rep o)).numInstances + 1) % 2 ^ 16)
    (hmask : f.accessTypeMask =
      accessTypeMaskSet (bc.faultCache (c.groups.rep o)).accessTypeMask e.accessType) :
    Counts (c.join e o ho hkey) o f := by
  unfold Counts
  rw [hnum, hmask, counted_join_self, if_neg hcounted]
  refine ⟨?_, fun t => ?_⟩
  · rw [Finset.card_insert_of_notMem (size_notMem_counted o)]
    simp [h.instances o ho]
  · rw [accessTypeMaskTest_set, h.masks o ho t, Finset.exists_mem_insert, join_entry_size,
      exists_counted_congr fun i hi => join_entry_of_lt hi]
    exact or_comm

theorem merge_stay (h : Tracks bc c) (hparsed : Parsed bc c.groups.size e) {r : Nat}
    (hr : r ∈ c.groups.members o) (hle : ¬(c.entry r).accessType < e.accessType)
    (hrep : ¬(c.entry (c.groups.rep o)).accessType < e.accessType)
    (hself : r = c.groups.rep o ∧ ¬(c.join e o ho hkey).Stray c.groups.size ∨
      r ≠ c.groups.rep o ∧ (c.join e o ho hkey).Stray c.groups.size) :
    Tracks { bc with faultCache := mergeEntry bc.faultCache c.groups.size r }
      (c.join e o ho hkey) := by
  obtain ⟨hrlt, -⟩ := Groups.mem_members.1 hr
  have hraw := hparsed.raw
  rw [← h.entry r hrlt, ← hraw] at hle
  have hrepne := (c.groups.rep_lt o ho.1 ho.2).ne
  have hreps : ∀ k, (c.join e o ho hkey).groups.rep k = c.groups.rep k := by
    intro k
    rw [join_groups, Groups.join_rep, if_neg]
    simp [hrep]
  have htarget : mergeEntry bc.faultCache c.groups.size r r =
      { bc.faultCache r with
        numInstances := ((bc.faultCache r).numInstances + 1) % 2 ^ 16
        accessTypeMask := accessTypeMaskSet (bc.faultCache r).accessTypeMask e.accessType } := by
    rw [← hraw]
    simp [mergeEntry, hle, update_of_ne hrlt.ne]
  refine h.joined hraw hr rfl ?_ (fun _ => rfl) ?_ ?_
  · intro i hi
    rw [hreps]
    rcases Nat.lt_succ_iff_lt_or_eq.1 hi with hlt | rfl
    · rw [join_opener_of_lt hlt, ← h.filtered i hlt]
      by_cases hir : i = r
      · rw [hir, htarget]
      · rw [mergeEntry_of_ne hlt.ne hir]
    · rw [join_opener_size]
      simp [mergeEntry, hle, hrepne]
  · intro u k hk
    rw [hreps]
    exact h.tlbLast u k hk
  · rw [hreps]
    rcases hself with ⟨rfl, hcounted⟩ | ⟨hne, hstray⟩
    -- the representative counts the entry
    · apply h.counts_join hcounted <;> rw [htarget]
    -- it goes to the old representative
    · rw [mergeEntry_of_ne hrepne (Ne.symm hne), Counts, counted_join_self, if_pos hstray]
      refine ⟨h.instances o ho, fun t => ?_⟩
      rw [h.masks o ho t, exists_counted_congr fun i hi => join_entry_of_lt hi]

theorem merge_takesOver (h : Tracks bc c) (hparsed : Parsed bc c.groups.size e)
    (hrep : (c.entry (c.groups.rep o)).accessType < e.accessType)
    (hlast : c.tlbLast e.utlbId = some o) :
    Tracks { bc with
      faultCache := mergeEntry bc.faultCache c.groups.size (c.groups.rep o)
      utlbs := update bc.utlbs e.utlbId
        { bc.utlbs e.utlbId with lastFault := c.groups.size } } (c.join e o ho hkey) := by
  have hutlb := (c.tlb_opener _ o hlast).2
  have hraw := hparsed.raw
  have hrlt := c.groups.rep_lt o ho.1 ho.2
  have hreps : ∀ k, (c.join e o ho hkey).groups.rep k =
      if k = o then c.groups.size else c.groups.rep k := by
    intro k
    rw [join_groups, Groups.join_rep]
    simp [hrep]
  rw [← h.rep_raw ho, ← hraw] at hrep
  have hcurrent : mergeEntry bc.faultCache c.groups.size (c.groups.rep o) c.groups.size =
      { bc.faultCache c.groups.size with
        accessTypeMask :=
          accessTypeMaskSet (bc.faultCache (c.groups.rep o)).accessTypeMask e.accessType
        numInstances := ((bc.faultCache (c.groups.rep o)).numInstances + 1) % 2 ^ 16 } := by
    rw [← hraw]
    simp [mergeEntry, hrep]
  refine h.joined hraw ho.rep_mem rfl ?_ ?_ ?_ ?_
  · intro i hi
    rw [hreps]
    rcases Nat.lt_succ_iff_lt_or_eq.1 hi with hlt | rfl
    · rw [join_opener_of_lt hlt]
      by_cases hir : i = c.groups.rep o
      · rw [hir, c.groups.opener_rep o ho.1 ho.2, if_pos rfl]
        simp [mergeEntry, hrep, update_of_ne hrlt.ne, hrlt.ne']
      · rw [mergeEntry_of_ne hlt.ne hir, h.filtered i hlt]
        -- within the fault nobody but the two representatives changes
        by_cases hio : c.groups.opener i = o
        · simp [hio, Ne.symm hir, hlt.ne']
        · rw [if_neg hio]
    · rw [hcurrent, join_opener_size, if_pos rfl]
      simp [hparsed.filtered]
  · intro u
    by_cases hu : u = e.utlbId
    · simp [hu]
    · rw [update_of_ne hu]
  · intro u k hk
    rw [hreps]
    by_cases hu : u = e.utlbId
    · subst hu
      cases hlast.symm.trans hk
      simp
    · have hko : k ≠ o := by
        rintro rfl
        exact hu ((c.tlb_opener u k hk).2.symm.trans hutlb)
      rw [update_of_ne hu, if_neg hko]
      exact h.tlbLast u k hk
  · have hcounted : ¬(c.join e o ho hkey).Stray c.groups.size := by
      rw [stray_join_size_iff]
      exact fun hstray => hstray.1 hutlb.symm
    rw [hreps, if_pos rfl]
    apply h.counts_join hcounted <;> rw [hcurrent]

end Merge

/-- **One entry**: the cache keeps following the groups, and the entry is a fault of its own iff it
opens a group. -/
theorem keepEntry (h : Tracks bc c) (hparsed : Parsed bc c.groups.size e) (ctx : FetchCtx) :
    Tracks (FaultMesh.keepEntry ctx bc c.groups.size).1 (c.add ctx.mayFilter e) ∧
      ((FaultMesh.keepEntry ctx bc c.groups.size).2 = true ↔ c.joins ctx.mayFilter e = none) := by
  cases h.kept hparsed ctx with
  | own hjoins same heq =>
    rw [heq, add_none hjoins]
    exact ⟨h.openNew hparsed same, by simp [hjoins]⟩
  | tlb o hjoins hlast heq =>
    obtain ⟨ho, hkey, hadd⟩ := add_some hjoins
    rw [heq, hadd]
    refine ⟨?_, by simp [hjoins]⟩
    by_cases hrep : (c.entry (c.groups.rep o)).accessType < e.accessType
    · simp only [if_pos hrep]
      exact h.merge_takesOver hparsed hrep hlast
    · simp only [if_neg hrep]
      refine h.merge_stay hparsed ho.rep_mem hrep hrep (.inl ⟨rfl, ?_⟩)
      rw [stray_join_size_iff]
      exact fun hstray => hstray.1 (c.tlb_opener _ o hlast).2.symm
  | last o hjoins hlast hle hutlb heq =>
    obtain ⟨ho, hkey, hadd⟩ := add_some hjoins
    rw [heq, hadd]
    refine ⟨?_, by simp [hjoins]⟩
    -- the opener is no more intrusive than the representative
    have hrep : ¬(c.entry (c.groups.rep o)).accessType < e.accessType := by
      have hhighest := c.highest o ho.1
      rw [ho.2] at hhighest
      exact not_lt.2 (hle.trans hhighest)
    apply h.merge_stay hparsed (Groups.mem_members.2 ho) (not_lt.2 hle) hrep
    rw [stray_join_size_iff]
    by_cases hsame : c.groups.rep o = o
    · exact .inl ⟨hsame.symm, fun hstray => hstray.2 hsame⟩
    · exact .inr ⟨Ne.symm hsame, hutlb, hsame⟩

theorem storeParsed (h : Tracks bc c) (raw : RawFault) :
    Tracks (FaultMesh.storeParsed bc c.groups.size raw) c := by
  have hcache : ∀ i < c.groups.size,
      (FaultMesh.storeParsed bc c.groups.size raw).faultCache i = bc.faultCache i :=
    fun i hi => update_of_ne hi.ne _ _
  refine
    { entry := fun i hi => ?_
      filtered := fun i hi => ?_
      last := h.last
      pending := h.pending
      tlbLast := h.tlbLast
      instances := fun o ho => ?_
      masks := fun o ho t => ?_ }
  · rw [hcache i hi]
    exact h.entry i hi
  · rw [hcache i hi]
    exact h.filtered i hi
  · rw [hcache _ (c.groups.rep_lt o ho.1 ho.2)]
    exact h.instances o ho
  · rw [hcache _ (c.groups.rep_lt o ho.1 ho.2)]
    exact h.masks o ho t

end Tracks

/-! ## The loop -/

/-- No uTLB above the largest one noted has faults pending. Every fetch starts by clearing the
counters up to that one. -/
def UtlbsClear (bc : BatchContext) : Prop :=
  ∀ u, bc.maxUtlbId < u → (bc.utlbs u).numPendingFaults = 0

/-- What holds of the loop variables of a fetch. -/
structure Follows (ctx : FetchCtx) (st : FetchState) (kept : List RawFault) : Prop where
  length : kept.length = st.faultIndex
  tracks : Tracks st.bc (ofStream ctx.mayFilter kept)
  numCoalesced :
    st.numCoalesced = (ofStream ctx.mayFilter kept).groups.openers.card
  maxUtlbId : ∀ e ∈ kept, e.utlbId ≤ st.bc.maxUtlbId

section Loop

variable {p : Params} {ctx : FetchCtx} {st : FetchState} {kept : List RawFault}

theorem parsed_storeParsed (bc : BatchContext) (i : Nat) (raw : RawFault) :
    Parsed (storeParsed bc i raw) i (parsedEntry (bc.faultCache i) raw).toRawFault := by
  have hslot : (storeParsed bc i raw).faultCache i = parsedEntry (bc.faultCache i) raw :=
    update_self ..
  constructor <;> rw [hslot] <;> rfl

theorem Follows.fetchEntry (h : Follows ctx st kept) (p : Params) (maxFaults : Nat)
    (raw : RawFault) : ∃ kept, Follows ctx (fetchEntry p maxFaults ctx raw st) kept := by
  have hsize : (ofStream ctx.mayFilter kept).groups.size = st.faultIndex := by
    rw [ofStream_size, h.length]
  have hstored := h.tracks.storeParsed raw
  have hmax : ∀ e ∈ kept, e.utlbId ≤ max st.bc.maxUtlbId raw.utlbId :=
    fun e he => (h.maxUtlbId e he).trans (Nat.le_max_left _ _)
  rcases hf : filterDrops p ctx st.predictor (st.parsed raw) with ⟨_ | _, pr⟩
  -- cached
  · have hdrop : ¬(filterDrops p ctx st.predictor (st.parsed raw)).1 = true := by simp [hf]
    have hkeep := hstored.keepEntry (parsed_storeParsed st.bc _ raw) ctx
    rw [hsize, ← ofStream_concat] at hkeep
    change Tracks _ (ofStream _ (kept ++ [(st.parsed raw).toRawFault])) ∧
      (_ ↔ (ofStream _ kept).joins _ (st.parsed raw).toRawFault = none) at hkeep
    refine ⟨kept ++ [(st.parsed raw).toRawFault], ?_, ?_, ?_, ?_⟩
    · simp [fetchEntry_faultIndex, hdrop, h.length]
    · rw [fetchEntry_bc, if_neg hdrop]
      exact hkeep.1
    · have hnew : (FaultMesh.fetchEntry p maxFaults ctx raw st).numCoalesced =
          if (keepEntry ctx (storeParsed st.bc st.faultIndex raw) st.faultIndex).2 = true then
            st.numCoalesced + 1 else st.numCoalesced := by
        simp [FaultMesh.fetchEntry, hf]
      rw [hnew, ofStream_concat, card_openers_add, ← h.numCoalesced]
      by_cases hown : (keepEntry ctx (storeParsed st.bc st.faultIndex raw) st.faultIndex).2 = true
      · rw [if_pos hown, if_pos (hkeep.2.1 hown)]
      · rw [if_neg hown, if_neg fun hjoins => hown (hkeep.2.2 hjoins)]
        rfl
    · intro e he
      rw [fetchEntry_bc, if_neg hdrop, keepEntry_maxUtlbId]
      rcases List.mem_append.1 he with he | he
      · exact hmax e he
      · rw [List.mem_singleton.1 he]
        exact Nat.le_max_right _ _
  -- dropped
  · rw [hsize] at hstored
    refine ⟨kept, ?_, ?_, ?_, ?_⟩
    · simpa [fetchEntry_faultIndex, hf] using h.length
    · rw [fetchEntry_bc, hf, if_pos rfl]
      exact ⟨hstored.entry, hstored.filtered, hstored.last, hstored.pending, hstored.tlbLast,
        hstored.instances, hstored.masks⟩
    · simpa [FaultMesh.fetchEntry, hf] using h.numCoalesced
    · simp only [FaultMesh.fetchEntry, hf]
      exact hmax

theorem Follows.fetchLoop (h : Follows ctx st kept) (p : Params) (maxFaults : Nat) (hal : Hal)
    (fuel : Nat) : ∃ kept, Follows ctx (fetchLoop p maxFaults ctx hal fuel st).1 kept := by
  apply fetchLoop_invariant (I := fun st => ∃ kept, Follows ctx st kept)
  · rintro st ⟨kept, h⟩ _ _ _
    exact h.fetchEntry p maxFaults _
  · exact ⟨kept, h⟩

theorem follows_fetchStart (ctx : FetchCtx) {d : Driver} (hclear : UtlbsClear d.bc) :
    Follows ctx (fetchStart d) [] := by
  have hpending : ∀ u, ((fetchStart d).bc.utlbs u).numPendingFaults = 0 := by
    intro u
    simp only [fetchStart]
    split
    · rfl
    · rename_i hgt
      exact hclear u (Nat.lt_of_not_le hgt)
  refine ⟨rfl, ?_, rfl, nofun⟩
  refine
    { entry := nofun
      filtered := nofun
      last := rfl
      pending := fun u => ?_
      tlbLast := nofun
      instances := fun o ho => absurd ho.1 (Nat.not_lt_zero o)
      masks := fun o ho => absurd ho.1 (Nat.not_lt_zero o) }
  rw [hpending u]
  simp [ofStream, empty]

theorem Follows.packets (h : Follows ctx st kept) :
    (st.bc.firstEntries st.faultIndex).map FaultEntry.toRawFault = kept := by
  apply List.ext_getElem?
  intro i
  rw [← h.length]
  rcases Nat.lt_or_ge i kept.length with hlt | hge
  · rw [ofStream_entry ctx.mayFilter kept hlt, ← h.tracks.entry i (by rwa [ofStream_size])]
    simp [BatchContext.firstEntries, List.getElem?_range hlt]
  · rw [List.getElem?_eq_none hge, List.getElem?_eq_none]
    simpa [BatchContext.firstEntries] using hge

theorem Follows.utlbsClear (h : Follows ctx st kept) : UtlbsClear st.bc := by
  intro u hu
  apply Nat.eq_zero_of_not_pos
  intro hpending
  obtain ⟨o, ho⟩ := Option.isSome_iff_exists.1 ((h.tracks.pending u).1 hpending)
  obtain ⟨hopen, hutlb⟩ := (ofStream ctx.mayFilter kept).tlb_opener u o ho
  have hlt : o < kept.length := by
    rw [← ofStream_size ctx.mayFilter]
    exact hopen.1
  have hle := h.maxUtlbId _
    (List.mem_of_getElem? (ofStream_entry ctx.mayFilter kept hlt))
  rw [hutlb] at hle
  exact absurd hle (Nat.not_le.2 hu)

end Loop

/-! ## A whole fetch -/

/-- Whether a fetch may coalesce: not while faults are cancelled on GPUs that cannot cancel by
address. -/
def mayCoalesce (p : Params) (gpu : GpuConfig) (mode : FetchMode) : Bool :=
  p.coalesce && !(!gpu.faultCancelVaSupported && mode = .all)

/-- The faults of the entries that a batch holds. -/
def BatchContext.coalescing (bc : BatchContext) (mayFilter : Bool) : Coalescing :=
  .ofStream mayFilter ((bc.firstEntries bc.numCachedFaults).map FaultEntry.toRawFault)

section Fetch

variable (p : Params) (gpu : GpuConfig) (hal : Hal) (mode : FetchMode) {d : Driver}

theorem exists_follows (hclear : UtlbsClear d.bc) :
    ∃ kept, Follows (fetchCtx p gpu mode d.rf (fetchPut d.rf hal))
      (fetchedState p gpu hal mode d).1 kept :=
  (follows_fetchStart _ hclear).fetchLoop p gpu.maxFaults hal _

/-- **A fetch coalesces as the groups say**, however its loop ends. -/
theorem fetch_tracks (hclear : UtlbsClear d.bc) :
    let bc := (fetchFaultBufferEntries p gpu hal mode d).1.bc
    let c := bc.coalescing (mayCoalesce p gpu mode)
    Tracks bc c ∧ c.groups.size = bc.numCachedFaults ∧
      bc.numCoalescedFaults = c.groups.openers.card := by
  intro bc c
  obtain ⟨kept, h⟩ := exists_follows p gpu hal mode hclear
  have hc : c = .ofStream (mayCoalesce p gpu mode) kept := congrArg _ h.packets
  rw [hc]
  refine ⟨?_, ?_, h.numCoalesced⟩
  · exact ⟨h.tracks.entry, h.tracks.filtered, h.tracks.last, h.tracks.pending, h.tracks.tlbLast,
      h.tracks.instances, h.tracks.masks⟩
  · rw [ofStream_size]
    exact h.length

theorem utlbsClear_fetch (hclear : UtlbsClear d.bc) :
    UtlbsClear (fetchFaultBufferEntries p gpu hal mode d).1.bc := by
  obtain ⟨kept, h⟩ := exists_follows p gpu hal mode hclear
  exact h.utlbsClear

end Fetch

def BatchContext.unfiltered (bc : BatchContext) : Finset Nat :=
  (Finset.range bc.numCachedFaults).filter fun i => (bc.faultCache i).filtered = false

/-- Every cached entry is accounted for: the coalesced faults are the unfiltered entries, the
instances of these add up to all cached entries, and each has the access types of the entries merged
into it and is the most intrusive of them. -/
structure Accounted (bc : BatchContext) (c : Coalescing) : Prop where
  coalesced : bc.numCoalescedFaults = bc.unfiltered.card
  instances : ∑ i ∈ bc.unfiltered, (bc.faultCache i).numInstances = bc.numCachedFaults
  masks : ∀ i ∈ bc.unfiltered, ∀ t,
    accessTypeMaskTest (bc.faultCache i).accessTypeMask t = true ↔
      ∃ k < bc.numCachedFaults, c.groups.opener k = c.groups.opener i ∧
        (bc.faultCache k).accessType = t
  highest : ∀ i ∈ bc.unfiltered,
    accessTypeMaskTest (bc.faultCache i).accessTypeMask (bc.faultCache i).accessType = true ∧
      ∀ t, accessTypeMaskTest (bc.faultCache i).accessTypeMask t = true →
        t ≤ (bc.faultCache i).accessType

namespace Tracks

variable {bc : BatchContext} {c : Coalescing}

theorem unfiltered_eq (h : Tracks bc c) (hsize : c.groups.size = bc.numCachedFaults) :
    bc.unfiltered = c.groups.reps := by
  ext i
  simp only [BatchContext.unfiltered, Finset.mem_filter, Finset.mem_range, Groups.mem_reps, ← hsize]
  apply and_congr_right
  intro hi
  rw [h.filtered i hi]
  simp

theorem counted_subset (c : Coalescing) (o : Nat) : c.counted o ⊆ c.groups.members o :=
  Finset.filter_subset _ _

/-- **Accounting**: nothing is lost iff no entry is stray and no fault is too large to be counted. -/
theorem accounted_iff (h : Tracks bc c) (hsize : c.groups.size = bc.numCachedFaults)
    (hcoalesced : bc.numCoalescedFaults = c.groups.openers.card) :
    Accounted bc c ↔ (∀ k < c.groups.size, ¬c.Stray k) ∧
      ∀ o ∈ c.groups.openers, (c.groups.members o).card < 2 ^ 16 := by
  have hunfiltered := h.unfiltered_eq hsize
  -- what the representatives add up to, fault by fault
  have hsum : ∑ i ∈ bc.unfiltered, (bc.faultCache i).numInstances = bc.numCachedFaults ↔
      ∀ o ∈ c.groups.openers, (c.counted o).card % 2 ^ 16 = (c.groups.members o).card := by
    rw [hunfiltered, Groups.sum_reps, ← hsize, ← Groups.sum_eq_size_iff]
    · rw [Finset.sum_congr rfl fun o ho => h.instances o (Groups.mem_openers.1 ho)]
    · intro o _
      exact (Nat.mod_le _ _).trans (Finset.card_le_card (counted_subset c o))
  constructor
  · intro haccounted
    have hall := hsum.1 haccounted.instances
    refine ⟨fun k hk hstray => ?_, fun o ho => ?_⟩
    -- the fault of a stray entry has fewer counted entries than members
    · have hopen := c.groups.isOpener_opener hk
      have hcard := hall _ (Groups.mem_openers.2 hopen)
      have hlt : (c.counted (c.groups.opener k)).card < (c.groups.members (c.groups.opener k)).card := by
        apply Finset.card_lt_card
        refine ⟨counted_subset c _, fun hsub => ?_⟩
        have hmem := hsub (Groups.mem_members.2 ⟨hk, rfl⟩)
        exact (Finset.mem_filter.1 hmem).2 hstray
      exact absurd hcard ((Nat.mod_le _ _).trans_lt hlt).ne
    · rw [← hall o ho]
      exact Nat.mod_lt _ (by decide)
  · rintro ⟨hstray, hsmall⟩
    have hcounted : ∀ o, c.counted o = c.groups.members o := fun o =>
      Finset.filter_true_of_mem fun k hk => hstray k (Groups.mem_members.1 hk).1
    have hmasks : ∀ i ∈ bc.unfiltered, ∀ t,
        accessTypeMaskTest (bc.faultCache i).accessTypeMask t = true ↔
          ∃ k < bc.numCachedFaults, c.groups.opener k = c.groups.opener i ∧
            (bc.faultCache k).accessType = t := by
      intro i hi t
      rw [hunfiltered] at hi
      obtain ⟨hlt, hrep⟩ := Groups.mem_reps.1 hi
      have hmask := h.masks _ (c.groups.isOpener_opener hlt) t
      rw [hrep, hcounted] at hmask
      rw [hmask, ← hsize]
      apply exists_congr
      intro k
      rw [Groups.mem_members, and_assoc]
      apply and_congr_right
      intro hk
      rw [h.entry k hk]
    refine ⟨?_, ?_, hmasks, ?_⟩
    · rw [hunfiltered, Groups.card_reps, hcoalesced]
    · refine hsum.2 fun o ho => ?_
      rw [hcounted, Nat.mod_eq_of_lt (hsmall o ho)]
    · intro i hi
      have hreps := hi
      rw [hunfiltered] at hreps
      obtain ⟨hlt, hrep⟩ := Groups.mem_reps.1 hreps
      refine ⟨(hmasks i hi _).2 ⟨i, hsize ▸ hlt, rfl, rfl⟩, fun t ht => ?_⟩
      obtain ⟨k, hk, hopener, rfl⟩ := (hmasks i hi t).1 ht
      have hle := c.highest k (hsize ▸ hk)
      rw [hopener, hrep] at hle
      rwa [h.entry k (hsize ▸ hk), h.entry i hlt]

end Tracks

/-- **Coalescing accounts for every cached fault** iff no entry is merged into a fault of another uTLB
after a more intrusive access has taken over there, and no fault has 2 ^ 16 entries. This holds for
any packets, any answers of the filter, and any way in which the fetch ends. -/
theorem coalescing_accounts_iff (p : Params) (gpu : GpuConfig) (hal : Hal) (mode : FetchMode)
    (d : Driver) (hclear : UtlbsClear d.bc) :
    let bc := (fetchFaultBufferEntries p gpu hal mode d).1.bc
    let c := bc.coalescing (mayCoalesce p gpu mode)
    Accounted bc c ↔ (∀ k < c.groups.size, ¬c.Stray k) ∧
      ∀ o ∈ c.groups.openers, (c.groups.members o).card < 2 ^ 16 := by
  intro bc c
  obtain ⟨htracks, hsize, hcoalesced⟩ := fetch_tracks p gpu hal mode hclear
  exact htracks.accounted_iff hsize hcoalesced

/-- Hardware that shows the given packets, all valid. -/
def packetsHal (packets : List RawFault) : Hal where
  readPut := packets.length
  entryIsValid := fun _ => true
  parse := fun slot => (.ok, packets.getD slot { faultAddress := 0 })

theorem utlbsClear_freshDriver : UtlbsClear freshDriver.bc := fun _ _ => rfl

/-- Two reads and a write of one page, the last read from another uTLB. -/
def readWriteRead : List RawFault :=
  [{ faultAddress := 0x1000, accessType := .read, utlbId := 0 },
    { faultAddress := 0x1000, accessType := .write, utlbId := 0 },
    { faultAddress := 0x1000, accessType := .read, utlbId := 1 }]

/-- In the order read, read, write they make one fault of three entries. -/
theorem reads_before_write_accounted :
    let d := (fetchFaultBufferEntries {} { maxFaults := 16 }
      (packetsHal [readWriteRead[0], readWriteRead[2], readWriteRead[1]]) .batchReady freshDriver).1
    Accounted d.bc (d.bc.coalescing true) ∧ d.bc.numCachedFaults = 3 ∧
      d.bc.numCoalescedFaults = 1 := by
  intro d
  refine ⟨(coalescing_accounts_iff {} { maxFaults := 16 } _ .batchReady freshDriver
    utlbsClear_freshDriver).2 ?_, ?_, ?_⟩ <;> decide +kernel

/-- After the write has taken over from the first read, the second read is merged into the entry that
was replaced. Three entries are cached, and the one fault of the batch says two. -/
theorem stray_read_lost :
    let d := (fetchFaultBufferEntries {} { maxFaults := 16 } (packetsHal readWriteRead) .batchReady
      freshDriver).1
    UtlbsClear freshDriver.bc ∧ ¬Accounted d.bc (d.bc.coalescing true) := by
  intro d
  refine ⟨utlbsClear_freshDriver, fun h => ?_⟩
  have hinstances := h.instances
  revert hinstances
  decide +kernel

end FaultMesh
