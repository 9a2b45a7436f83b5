import FaultMesh.Predictor

/-!
# What a rebuilt table answers

A rebuild replaces what the table of the mode answers for by the entries of a batch, whatever the
table held before. In modes 0 and 1 the key array is sorted and has no repetitions afterwards, so
binary search finds all of it. In modes 2 and 3 the entries are written blindly, one over the other;
what counts is the last entry of the batch in each slot, and the generation of the table keeps
earlier batches out.
-/

namespace FaultMesh

/-! ## Sorting keys -/

instance (mode : PrevFetchMode) : Std.TransCmp (cmpPrevFetchKey mode) :=
  match mode with
  | .coalescedBsearch =>
    inferInstanceAs (Std.TransCmp (compareOn fun k : PrevFetchKey => k.faultAddress))
  | .fetchCache | .hashExact | .hashApprox =>
    inferInstanceAs (Std.TransCmp (compareLex
      (compareLex (compareOn fun k : PrevFetchKey => k.instancePtr.aperture)
        (compareOn fun k => k.instancePtr.address))
      (compareLex (compareOn fun k => k.veId) (compareOn fun k => k.faultAddress))))

theorem nonDescending_sortBy {α : Type*} (cmp : α → α → Ordering) [Std.TransCmp cmp] (l : List α) :
    NonDescending cmp (sortBy cmp l) := by
  have : Std.Total fun a b : α => (cmp a b).isLE = true := by
    constructor
    intro a b
    rw [@Std.OrientedCmp.eq_swap _ cmp _ b a]
    cases cmp a b <;> simp
  have : IsTrans α fun a b : α => (cmp a b).isLE = true := ⟨fun _ _ _ => Std.TransCmp.isLE_trans⟩
  exact List.pairwise_insertionSort _ l

theorem ascending_unique_sortBy (mode : PrevFetchMode) (l : List PrevFetchKey) :
    Ascending (cmpPrevFetchKey mode)
      (uniqueAdjacent (cmpPrevFetchKey mode) (sortBy (cmpPrevFetchKey mode) l)) :=
  ascending_uniqueAdjacent (nonDescending_sortBy _ l)

theorem exists_mem_unique_sortBy (mode : PrevFetchMode) {l : List PrevFetchKey} {k : PrevFetchKey}
    (h : k ∈ l) : ∃ k' ∈ uniqueAdjacent (cmpPrevFetchKey mode) (sortBy (cmpPrevFetchKey mode) l),
      cmpPrevFetchKey mode k k' = .eq :=
  exists_mem_uniqueAdjacent (mem_sortBy.2 h)

theorem cmpPrevFetchKey_fetchCache_eq_iff {a b : PrevFetchKey} :
    cmpPrevFetchKey .fetchCache a b = .eq ↔ a = b := by
  cases a
  cases b
  simp [cmpPrevFetchKey, Ordering.then_eq_eq, PhysAddr.cmp_eq_iff]

theorem cmpPrevFetchKey_coalescedBsearch_eq_iff {a b : PrevFetchKey} :
    cmpPrevFetchKey .coalescedBsearch a b = .eq ↔ a.faultAddress = b.faultAddress := by
  simp [cmpPrevFetchKey]

/-! ## Mode 0 -/

theorem mem_fetchCache_iff {l : List PrevFetchKey} {k : PrevFetchKey} :
    k ∈ uniqueAdjacent (cmpPrevFetchKey .fetchCache) (sortBy (cmpPrevFetchKey .fetchCache) l) ↔
      k ∈ l := by
  constructor
  · exact fun h => mem_sortBy.1 (mem_of_mem_uniqueAdjacent h)
  · intro h
    obtain ⟨k', hk', heq⟩ := exists_mem_unique_sortBy .fetchCache h
    rwa [cmpPrevFetchKey_fetchCache_eq_iff.1 heq]

/-! ## Mode 1 -/

/-- Ordered as preprocessing leaves a batch. -/
def Ordered (entries : List FaultEntry) : Prop :=
  NonDescending cmpVaSpaceAddressAccessType entries

theorem exists_mem_coalescedKeys {first : Option VaSpaceId} {single : Bool}
    {acc : List PrevFetchKey} {es : List FaultEntry} :
    (∀ k ∈ acc, k ∈ (coalescedKeys first single acc es).2) ∧
      ∀ e ∈ es, ∃ k ∈ (coalescedKeys first single acc es).2, k.faultAddress = e.faultAddress := by
  induction es generalizing single acc with
  | nil => simp [coalescedKeys]
  | cons e es ih =>
    unfold coalescedKeys
    dsimp only
    split
    · rename_i hrepeats
      -- the address of the last key stored
      obtain ⟨hacc, hes⟩ := @ih (single && e.vaSpace = first) acc
      refine ⟨hacc, fun f hf => ?_⟩
      rcases List.mem_cons.1 hf with rfl | hf
      · cases acc with
        | nil => cases hrepeats
        | cons k acc =>
          simp only [repeatsLastKey, Bool.and_eq_true, decide_eq_true_eq] at hrepeats
          exact ⟨k, hacc k List.mem_cons_self, hrepeats.2⟩
      · exact hes f hf
    · obtain ⟨hacc, hes⟩ := @ih (single && e.vaSpace = first) (⟨⟨0, 0⟩, 0, e.faultAddress⟩ :: acc)
      refine ⟨fun k hk => hacc k (List.mem_cons_of_mem _ hk), fun f hf => ?_⟩
      rcases List.mem_cons.1 hf with rfl | hf
      · exact ⟨_, hacc _ List.mem_cons_self, rfl⟩
      · exact hes f hf

theorem vaSpace_of_coalescedKeys {first : Option VaSpaceId} {single : Bool}
    {acc : List PrevFetchKey} {es : List FaultEntry}
    (h : (coalescedKeys first single acc es).1 = true) :
    single = true ∧ ∀ e ∈ es, e.vaSpace = first := by
  induction es generalizing single acc with
  | nil => exact ⟨h, fun _ he => absurd he List.not_mem_nil⟩
  | cons e es ih =>
    have hnext : (single && e.vaSpace = first) = true ∧ ∀ f ∈ es, f.vaSpace = first := by
      unfold coalescedKeys at h
      dsimp only at h
      split at h <;> exact ih h
    simp only [Bool.and_eq_true, decide_eq_true_eq] at hnext
    exact ⟨hnext.1.1, List.forall_mem_cons.2 ⟨hnext.1.2, hnext.2⟩⟩

theorem cmpVaSpace_self (va : Option VaSpaceId) : cmpVaSpace va va = .eq := by
  cases va <;> simp [cmpVaSpace]

theorem Ordered.addresses {entries : List FaultEntry} (h : Ordered entries)
    {first : Option VaSpaceId} (hfirst : ∀ e ∈ entries, e.vaSpace = first) :
    entries.Pairwise fun a b => a.faultAddress ≤ b.faultAddress := by
  apply List.Pairwise.imp_of_mem _ h
  intro a b ha hb hle
  rw [cmpVaSpaceAddressAccessType, hfirst a ha, hfirst b hb, cmpVaSpace_self] at hle
  by_contra hlt
  rw [Nat.compare_eq_gt.2 (Nat.lt_of_not_le hlt)] at hle
  cases hle

theorem ascending_coalescedKeys {first : Option VaSpaceId} {acc : List PrevFetchKey}
    {es : List FaultEntry} (hfirst : ∀ e ∈ es, e.vaSpace = first)
    (hes : es.Pairwise fun a b => a.faultAddress ≤ b.faultAddress)
    (hacc : Ascending (cmpPrevFetchKey .coalescedBsearch) acc.reverse)
    (hle : ∀ k ∈ acc, ∀ e ∈ es, k.faultAddress ≤ e.faultAddress) :
    Ascending (cmpPrevFetchKey .coalescedBsearch) (coalescedKeys first true acc es).2 := by
  induction es generalizing acc with
  | nil => exact hacc
  | cons e es ih =>
    obtain ⟨hhead, htail⟩ := List.pairwise_cons.1 hes
    have hrest := fun f hf => hfirst f (List.mem_cons_of_mem e hf)
    unfold coalescedKeys
    simp only [hfirst e List.mem_cons_self, decide_true, Bool.true_and]
    split
    · exact ih hrest htail hacc fun k hk f hf => hle k hk f (List.mem_cons_of_mem e hf)
    · rename_i hnew
      -- the last key is the highest
      have hbelow : ∀ k ∈ acc, k.faultAddress < e.faultAddress := by
        cases acc with
        | nil => simp
        | cons last acc =>
          have hlast : last.faultAddress < e.faultAddress := by
            apply Nat.lt_of_le_of_ne (hle last List.mem_cons_self e List.mem_cons_self)
            simpa [repeatsLastKey] using hnew
          rw [List.reverse_cons] at hacc
          intro k hk
          rcases List.mem_cons.1 hk with rfl | hk
          · exact hlast
          · have hlt := (List.pairwise_append.1 hacc).2.2 k (List.mem_reverse.2 hk) last
              List.mem_cons_self
            exact (Nat.compare_eq_lt.1 hlt).trans hlast
      apply ih hrest htail
      · rw [List.reverse_cons]
        refine List.pairwise_append.2 ⟨hacc, List.pairwise_singleton _ _, fun k hk new hnew => ?_⟩
        cases List.mem_singleton.1 hnew
        exact Nat.compare_eq_lt.2 (hbelow k (List.mem_reverse.1 hk))
      · intro k hk f hf
        rcases List.mem_cons.1 hk with rfl | hk
        · exact hhead f hf
        · exact hle k hk f (List.mem_cons_of_mem e hf)

theorem ascending_coalescedBsearchKeys {coalesced : List FaultEntry} (h : Ordered coalesced) :
    Ascending (cmpPrevFetchKey .coalescedBsearch) (coalescedBsearchKeys coalesced) := by
  unfold coalescedBsearchKeys
  dsimp only
  split
  · rename_i hsingle
    obtain ⟨-, hfirst⟩ := vaSpace_of_coalescedKeys hsingle
    exact ascending_coalescedKeys hfirst (h.addresses hfirst) List.Pairwise.nil nofun
  · exact ascending_unique_sortBy _ _

theorem exists_mem_coalescedBsearchKeys {coalesced : List FaultEntry} {e : FaultEntry}
    (h : e ∈ coalesced) :
    ∃ k ∈ coalescedBsearchKeys coalesced, k.faultAddress = e.faultAddress := by
  obtain ⟨k, hk, haddr⟩ := exists_mem_coalescedKeys.2 e h
  unfold coalescedBsearchKeys
  dsimp only
  split
  · exact ⟨k, hk, haddr⟩
  · obtain ⟨k', hk', heq⟩ := exists_mem_unique_sortBy .coalescedBsearch hk
    exact ⟨k', hk', (cmpPrevFetchKey_coalescedBsearch_eq_iff.1 heq).symm.trans haddr⟩

/-! ## All modes -/

/-- The last entry of a list that hashes to the slot of an address. -/
def lastInSlot (size : Nat) (entries : List FaultEntry) (addr : Nat) : Option FaultEntry :=
  entries.reverse.find? fun f =>
    prevFetchHashIndex f.faultAddress (size - 1) = prevFetchHashIndex addr (size - 1)

/-- What a table has to answer that was built from the given entries and nothing else. -/
def Lists (mode : PrevFetchMode) (exactSize tagSize : Nat) (entries : List FaultEntry)
    (e : RawFault) : Prop :=
  match mode with
  | .fetchCache => ∃ f ∈ entries, f.prevFetchKey = e.prevFetchKey
  | .coalescedBsearch => ∃ f ∈ entries, f.faultAddress = e.faultAddress
  | .hashExact =>
    (lastInSlot exactSize entries e.faultAddress).map (fun f => f.faultAddress) =
      some e.faultAddress
  | .hashApprox =>
    (lastInSlot tagSize entries e.faultAddress).map (fun f => prevFetchTagValue f.faultAddress) =
      some (prevFetchTagValue e.faultAddress)

instance (mode : PrevFetchMode) (exactSize tagSize : Nat) (entries : List FaultEntry)
    (e : RawFault) : Decidable (Lists mode exactSize tagSize entries e) :=
  match mode with
  | .fetchCache | .coalescedBsearch => inferInstanceAs (Decidable (∃ f ∈ entries, _))
  | .hashExact | .hashApprox => inferInstanceAs (Decidable (_ = _))

section Update

variable {p : Params} {c : BatchCounts} {cached coalesced : List FaultEntry} {pr : Predictor}
  {e : RawFault}

theorem Predictor.tagIndex_lt (pr : Predictor) (addr : Nat) : pr.tagIndex addr < pr.tags.size := by
  have hand : prevFetchHashIndex addr (pr.tags.size - 1) ≤ pr.tags.size - 1 := Nat.and_le_right
  have hpos := pr.tags.size_pos
  unfold Predictor.tagIndex
  omega

theorem lookup_build_entries {α : Type*} (t : EpochTable α) (value : FaultEntry → α)
    (entries : List FaultEntry) {addr : Nat}
    (hlt : prevFetchHashIndex addr (t.size - 1) < t.size) :
    (t.build (entries.map fun f =>
      (prevFetchHashIndex f.faultAddress (t.size - 1), value f))).lookup
        (prevFetchHashIndex addr (t.size - 1)) = (lastInSlot t.size entries addr).map value := by
  rw [EpochTable.lookup_build t _ hlt, ← List.map_reverse, List.find?_map, Option.map_map]
  rfl

/-- **Content of a rebuilt table**: it answers for the entries of the batch and nothing else. -/
theorem tableContains_update_iff (hen : p.prevFetchPredictorEnable = true)
    (hordered : p.prevFetchMode = .coalescedBsearch → Ordered coalesced) :
    tableContains p.prevFetchMode (updatePrevFetchPredictor p c cached coalesced pr) e = true ↔
      Lists p.prevFetchMode pr.exact.size pr.tags.size
        (rebuildSource p.prevFetchMode cached coalesced) e := by
  unfold updatePrevFetchPredictor
  simp only [hen, Bool.not_true, Bool.false_eq_true, if_false]
  cases hm : p.prevFetchMode with
  | fetchCache =>
    simp only [tableContains, Lists]
    rw [binarySearch_iff (ascending_unique_sortBy .fetchCache _)]
    simp only [cmpPrevFetchKey_fetchCache_eq_iff, exists_eq_right', mem_fetchCache_iff]
    exact List.mem_map
  -- keys are kept without repetitions
  | coalescedBsearch =>
    simp only [tableContains, Lists, rebuildSource, PrevFetchMode.useCoalescedPages, if_true]
    rw [binarySearch_iff (ascending_coalescedBsearchKeys (hordered hm))]
    constructor
    · rintro ⟨k, hk, heq⟩
      obtain ⟨f, hf, haddr⟩ := exists_mem_of_mem_coalescedBsearchKeys hk
      exact ⟨f, hf, haddr.trans (cmpPrevFetchKey_coalescedBsearch_eq_iff.1 heq).symm⟩
    · rintro ⟨f, hf, haddr⟩
      obtain ⟨k, hk, hkf⟩ := exists_mem_coalescedBsearchKeys hf
      exact ⟨k, hk, cmpPrevFetchKey_coalescedBsearch_eq_iff.2 (hkf.trans haddr).symm⟩
  -- the last entry of a slot wins
  | hashExact =>
    simp only [tableContains, Lists, rebuildSource, PrevFetchMode.useCoalescedPages, if_true,
      decide_eq_true_eq, Predictor.exactIndex, EpochTable.build_size]
    rw [lookup_build_entries pr.exact (fun f => f.faultAddress) coalesced (pr.exactIndex_lt _)]
  | hashApprox =>
    simp only [tableContains, Lists, rebuildSource, PrevFetchMode.useCoalescedPages, if_true,
      decide_eq_true_eq, Predictor.tagIndex, EpochTable.build_size]
    rw [lookup_build_entries pr.tags (fun f => prevFetchTagValue f.faultAddress) coalesced
      (pr.tagIndex_lt _)]

end Update

/-! ## Any number of rebuilds -/

section Builds

variable {p : Params} {c : BatchCounts} {cached coalesced : List FaultEntry} {pr : Predictor}

@[simp] theorem updatePrevFetchPredictor_exact_size :
    (updatePrevFetchPredictor p c cached coalesced pr).exact.size = pr.exact.size := by
  unfold updatePrevFetchPredictor
  split
  · rfl
  · cases p.prevFetchMode <;> simp

@[simp] theorem updatePrevFetchPredictor_tags_size :
    (updatePrevFetchPredictor p c cached coalesced pr).tags.size = pr.tags.size := by
  unfold updatePrevFetchPredictor
  split
  · rfl
  · cases p.prevFetchMode <;> simp

def afterBuilds (p : Params) (pr : Predictor) (builds : List (BatchCounts × List FaultEntry)) :
    Predictor :=
  builds.foldl (fun pr build => updatePrevFetchPredictor p build.1 [] build.2 pr) pr

theorem afterBuilds_sizes (p : Params) (pr : Predictor)
    (builds : List (BatchCounts × List FaultEntry)) :
    (afterBuilds p pr builds).exact.size = pr.exact.size ∧
      (afterBuilds p pr builds).tags.size = pr.tags.size := by
  induction builds generalizing pr with
  | nil => exact ⟨rfl, rfl⟩
  | cons build builds ih =>
    obtain ⟨hexact, htags⟩ := ih (updatePrevFetchPredictor p build.1 [] build.2 pr)
    exact ⟨hexact.trans updatePrevFetchPredictor_exact_size,
      htags.trans updatePrevFetchPredictor_tags_size⟩

theorem tableContains_init {mode : PrevFetchMode} (exactSize tagSize : Nat) (hexact : 0 < exactSize)
    (htag : 0 < tagSize) (e : RawFault) :
    tableContains mode (Predictor.init exactSize tagSize hexact htag) e = false := by
  cases mode <;> simp [tableContains, Predictor.init, binarySearch]

theorem tableContains_afterBuilds_iff (hen : p.prevFetchPredictorEnable = true)
    (hmode : p.prevFetchMode = .hashExact ∨ p.prevFetchMode = .hashApprox)
    {exactSize tagSize : Nat} (hexact : 0 < exactSize) (htag : 0 < tagSize)
    (builds : List (BatchCounts × List FaultEntry)) (e : RawFault) :
    tableContains p.prevFetchMode
        (afterBuilds p (Predictor.init exactSize tagSize hexact htag) builds) e = true ↔
      ∃ build, builds.getLast? = some build ∧
        Lists p.prevFetchMode exactSize tagSize build.2 e := by
  have hordered : ∀ l, p.prevFetchMode = .coalescedBsearch → Ordered l := by
    intro l hm
    rcases hmode with h | h <;> rw [h] at hm <;> cases hm
  have hsource : ∀ l, rebuildSource p.prevFetchMode [] l = l := by
    intro l
    rcases hmode with h | h <;> rw [h] <;> rfl
  rcases List.eq_nil_or_concat builds with rfl | ⟨before, build, rfl⟩
  · simp [afterBuilds, tableContains_init]
  · obtain ⟨hexacts, htags⟩ :=
      afterBuilds_sizes p (Predictor.init exactSize tagSize hexact htag) before
    have hlast : afterBuilds p (Predictor.init exactSize tagSize hexact htag) (before ++ [build]) =
        updatePrevFetchPredictor p build.1 [] build.2
          (afterBuilds p (Predictor.init exactSize tagSize hexact htag) before) := by
      simp [afterBuilds]
    rw [List.concat_eq_append, hlast, tableContains_update_iff hen (hordered _), hexacts, htags,
      hsource]
    simp [Predictor.init, EpochTable.init]

theorem lastInSlot_map_iff {α : Type*} {size : Nat} {entries : List FaultEntry} {addr : Nat}
    {value : Nat → α} {v : α}
    (hslots : ∀ f ∈ entries, ∀ g ∈ entries,
      prevFetchHashIndex f.faultAddress (size - 1) = prevFetchHashIndex g.faultAddress (size - 1) →
        value f.faultAddress = value g.faultAddress) :
    (lastInSlot size entries addr).map (fun f => value f.faultAddress) = some v ↔
      ∃ f ∈ entries, prevFetchHashIndex f.faultAddress (size - 1) =
        prevFetchHashIndex addr (size - 1) ∧ value f.faultAddress = v := by
  constructor
  · intro h
    obtain ⟨f, hfind, hv⟩ := Option.map_eq_some_iff.1 h
    have hslot := List.find?_some hfind
    have hmem := List.mem_of_find?_eq_some hfind
    exact ⟨f, List.mem_reverse.1 hmem, of_decide_eq_true hslot, hv⟩
  · rintro ⟨f, hf, hslot, rfl⟩
    -- some entry is found in the slot, and it has the same value
    obtain ⟨g, hfind⟩ : ∃ g, lastInSlot size entries addr = some g := by
      apply Option.isSome_iff_exists.1
      apply List.find?_isSome.2
      exact ⟨f, List.mem_reverse.2 hf, decide_eq_true hslot⟩
    have hg := List.mem_reverse.1 (List.mem_of_find?_eq_some hfind)
    have hgslot := List.find?_some hfind
    have hsame := (of_decide_eq_true hgslot).trans hslot.symm
    rw [hfind, Option.map_some, hslots g hg f hf hsame]

/-- The parameters with the predictor on, in the given mode. -/
def Params.inMode (p : Params) (mode : PrevFetchMode) : Params :=
  { p with prevFetchPredictorEnable := true, prevFetchMode := mode }

/-- **Epoch tables hold exactly the last build**, however many builds there were. In mode 2 an address
is found iff it is that of the last entry in its slot; in mode 3 its tag has to be the tag of that
entry. -/
theorem epoch_tables_hold_last_build (p : Params) {exactSize tagSize : Nat}
    (hexact : 0 < exactSize) (htag : 0 < tagSize)
    (builds : List (BatchCounts × List FaultEntry)) :
    let init := Predictor.init exactSize tagSize hexact htag
    let exact := afterBuilds (p.inMode .hashExact) init builds
    let approx := afterBuilds (p.inMode .hashApprox) init builds
    (∀ e, tableContains .hashExact exact e = true ↔
      ∃ build, builds.getLast? = some build ∧
        (lastInSlot exactSize build.2 e.faultAddress).map (fun f => f.faultAddress) =
          some e.faultAddress) ∧
    (∀ build, builds.getLast? = some build →
      (∀ f ∈ build.2, ∀ g ∈ build.2,
        prevFetchHashIndex f.faultAddress (exactSize - 1) =
          prevFetchHashIndex g.faultAddress (exactSize - 1) → f.faultAddress = g.faultAddress) →
      ∀ e, tableContains .hashExact exact e = true ↔
        ∃ f ∈ build.2, f.faultAddress = e.faultAddress) ∧
    (∀ e, tableContains .hashApprox approx e = true ↔
      ∃ build, builds.getLast? = some build ∧
        (lastInSlot tagSize build.2 e.faultAddress).map
            (fun f => prevFetchTagValue f.faultAddress) =
          some (prevFetchTagValue e.faultAddress)) ∧
    (∀ build, builds.getLast? = some build →
      (∀ f ∈ build.2, ∀ g ∈ build.2,
        prevFetchHashIndex f.faultAddress (tagSize - 1) =
          prevFetchHashIndex g.faultAddress (tagSize - 1) →
            prevFetchTagValue f.faultAddress = prevFetchTagValue g.faultAddress) →
      ∀ e, tableContains .hashApprox approx e = true ↔
        ∃ f ∈ build.2, prevFetchHashIndex f.faultAddress (tagSize - 1) =
            prevFetchHashIndex e.faultAddress (tagSize - 1) ∧
          prevFetchTagValue f.faultAddress = prevFetchTagValue e.faultAddress) := by
  intro init exact approx
  have hexactIff : ∀ e, tableContains .hashExact exact e = true ↔ _ :=
    @tableContains_afterBuilds_iff (p.inMode .hashExact) rfl (.inl rfl) _ _ hexact htag builds
  have happroxIff : ∀ e, tableContains .hashApprox approx e = true ↔ _ :=
    @tableContains_afterBuilds_iff (p.inMode .hashApprox) rfl (.inr rfl) _ _ hexact htag builds
  refine ⟨hexactIff, ?_, happroxIff, ?_⟩
  · intro build hlast hslots e
    rw [hexactIff e, hlast]
    simp only [Option.some.injEq, exists_eq_left', Params.inMode, Lists]
    rw [@lastInSlot_map_iff Nat exactSize build.2 e.faultAddress (fun a => a) _ hslots]
    constructor
    · rintro ⟨f, hf, -, haddr⟩
      exact ⟨f, hf, haddr⟩
    · rintro ⟨f, hf, haddr⟩
      exact ⟨f, hf, by rw [haddr], haddr⟩
  · intro build hlast hslots e
    rw [happroxIff e, hlast]
    simp only [Option.some.injEq, exists_eq_left', Params.inMode, Lists]
    exact lastInSlot_map_iff hslots

end Builds

/-- A batch of one fault on each of the given pages. -/
def pagesBatch (pages : List Nat) : BatchCounts × List FaultEntry :=
  (⟨pages.length, pages.length, 0⟩, pages.map fun page => { faultAddress := page })

/-- The exact table after two builds. -/
def twoBuilds : Predictor :=
  afterBuilds (({} : Params).inMode .hashExact) smallPredictor
    [pagesBatch [0x1000, 0x2000], pagesBatch [0x2000, 0x3000]]

/-- After a second build the table answers for its pages only. -/
theorem second_build_only :
    tableContains .hashExact twoBuilds { faultAddress := 0x2000 } = true ∧
      tableContains .hashExact twoBuilds { faultAddress := 0x3000 } = true ∧
      tableContains .hashExact twoBuilds { faultAddress := 0x1000 } = false := by
  have hholds := (@epoch_tables_hold_last_build {} 64 64 (by decide) (by decide)
    [pagesBatch [0x1000, 0x2000], pagesBatch [0x2000, 0x3000]]).2.1
      (pagesBatch [0x2000, 0x3000]) rfl (by decide)
  refine ⟨(hholds _).2 ?_, (hholds _).2 ?_, Bool.eq_false_iff.2 (mt (hholds _).1 ?_)⟩
  all_goals simp [pagesBatch]

/-! ## Exactness of mode 1 -/

/-- **Mode 1 is exact.** From a batch in order the key array is rebuilt strictly increasing in the
address, whether repetitions were skipped on the way or sorted out afterwards, and the search hits
an address iff some fault of the batch has it. -/
theorem coalesced_lookup_exact (p : Params) (c : BatchCounts) (cached coalesced : List FaultEntry)
    (pr : Predictor) (hordered : Ordered coalesced) :
    let rebuilt := updatePrevFetchPredictor (p.inMode .coalescedBsearch) c cached coalesced pr
    (rebuilt.keys.Pairwise fun a b => a.faultAddress < b.faultAddress) ∧
      ∀ e, tableContains .coalescedBsearch rebuilt e = true ↔
        ∃ f ∈ coalesced, f.faultAddress = e.faultAddress := by
  intro rebuilt
  have hkeys : rebuilt.keys = coalescedBsearchKeys coalesced := by
    simp [rebuilt, updatePrevFetchPredictor, Params.inMode]
  constructor
  · rw [hkeys]
    apply (ascending_coalescedBsearchKeys hordered).imp
    intro a b hlt
    exact Nat.compare_eq_lt.1 hlt
  · intro e
    exact @tableContains_update_iff (p.inMode .coalescedBsearch) c cached coalesced pr e rfl
      fun _ => hordered

/-- Faults of two VA spaces, with a page that occurs in both and twice in the first. -/
def twoSpacesBatch : List FaultEntry :=
  [{ faultAddress := 0x1000, vaSpace := some 1 }, { faultAddress := 0x3000, vaSpace := some 1 },
    { faultAddress := 0x3000, vaSpace := some 1 }, { faultAddress := 0x1000, vaSpace := some 2 },
    { faultAddress := 0x2000, vaSpace := some 2 }]

/-- The keys that are built from the batch. -/
def twoSpacesKeys : Predictor :=
  updatePrevFetchPredictor (({} : Params).inMode .coalescedBsearch) ⟨5, 5, 0⟩ [] twoSpacesBatch
    smallPredictor

/-- The pages of the batch are found, and no page between them. -/
theorem two_spaces_lookup :
    tableContains .coalescedBsearch twoSpacesKeys { faultAddress := 0x1000 } = true ∧
      tableContains .coalescedBsearch twoSpacesKeys { faultAddress := 0x2000 } = true ∧
      tableContains .coalescedBsearch twoSpacesKeys { faultAddress := 0x3000 } = true ∧
      tableContains .coalescedBsearch twoSpacesKeys { faultAddress := 0x1800 } = false := by
  have hexact := (coalesced_lookup_exact {} ⟨5, 5, 0⟩ [] twoSpacesBatch smallPredictor
    (by unfold Ordered NonDescending twoSpacesBatch; decide)).2
  refine ⟨(hexact _).2 ?_, (hexact _).2 ?_, (hexact _).2 ?_, Bool.eq_false_iff.2 (mt (hexact _).1 ?_)⟩
  all_goals simp [twoSpacesBatch]

end FaultMesh
