import FaultMesh.Prefault.Touch

/-!
# Invariant of the touch protocol

The table of an array is described by its history: who won which page, and which of the duties of a
winner have been done. Every counter of the table is the number of pages at some point of that
history.
-/

namespace FaultMesh

open Function PrefaultState

/-! ## Duties -/

/-- The order in which a winner does its duties. -/
def Duty.rank : Duty → Nat
  | .countWin => 0
  | .touch => 1
  | .ready => 2
  | .countBlk => 3
  | .countPublished => 4

theorem Duty.rank_inj {d e : Duty} (h : d.rank = e.rank) : d = e := by
  cases d <;> cases e <;> first | rfl | cases h

/-- The thread has won the page and the duty is still ahead of it. -/
def EnsureThread.Owes (th : EnsureThread) (d : Duty) (page : Nat) : Prop :=
  ∃ e, th.pc = .duty e ∧ th.page = page ∧ e.rank ≤ d.rank

variable {page : Nat}

theorem EnsureThread.not_owes {th : EnsureThread} {d : Duty} (h : ∀ e, th.pc ≠ .duty e) :
    ¬ th.Owes d page :=
  fun ⟨e, he, _⟩ => h e he

theorem owes_afterDuty (cfg : PrefaultConfig) (s : PrefaultState) (th : EnsureThread) (d e : Duty)
    (page : Nat) :
    ({ th with pc := s.afterDuty cfg d } : EnsureThread).Owes e page ↔
      th.page = page ∧ d.rank < e.rank := by
  constructor
  · rintro ⟨e', hpc, hpage, hrank⟩
    refine ⟨hpage, ?_⟩
    cases d with
    | countPublished =>
      dsimp only [afterDuty] at hpc
      split at hpc <;> cases hpc
    | countWin | touch | ready | countBlk =>
      cases hpc
      exact hrank
  · rintro ⟨hpage, hrank⟩
    cases d with
    | countPublished => cases e <;> simp [Duty.rank] at hrank
    | countWin => exact ⟨_, rfl, hpage, hrank⟩
    | touch => exact ⟨_, rfl, hpage, hrank⟩
    | ready => exact ⟨_, rfl, hpage, hrank⟩
    | countBlk => exact ⟨_, rfl, hpage, hrank⟩

/-! ## The table and its history -/

def PrefaultState.donePages (s : PrefaultState) (d : Duty) : Finset Nat :=
  ((s.did d).map Prod.snd).toFinset

/-- The pages of a block whose publisher has passed the counter of the block. -/
def PrefaultState.blkCounted (s : PrefaultState) (blk : Nat) : Finset Nat :=
  (s.donePages .countBlk).filter fun page => page / pfBlkPages = blk

structure TableInv (cfg : PrefaultConfig) (s : PrefaultState) : Prop where
  won_nodup : (s.won.map Prod.snd).Nodup
  won_lt : ∀ t page, (t, page) ∈ s.won → page < cfg.array.nPages
  /-- Who has duties has won the page. -/
  owner : ∀ t d, (s.threads t).pc = .duty d → (t, (s.threads t).page) ∈ s.won
  did_iff : ∀ d t page, (t, page) ∈ s.did d ↔ (t, page) ∈ s.won ∧ ¬ (s.threads t).Owes d page
  did_nodup : ∀ d, ((s.did d).map Prod.snd).Nodup
  unknown_iff : ∀ page, s.status page = .unknown ↔ ∀ t, (t, page) ∉ s.won
  ready_iff : ∀ page, s.status page = .ready ↔ ∃ t, (t, page) ∈ s.did .ready
  casWins : cfg.countsWins = true → s.casWins = (s.did .countWin).length
  blkCnt : ∀ blk, s.blkCnt blk = pfInitBlkCounts cfg.array.nPages blk + (s.blkCounted blk).card
  published : s.published = (s.did .countPublished).length % 2 ^ 32
  /-- The flag is set by the one whose count was the last. -/
  last : ∀ t, (s.threads t).pc = .setResident ∨ t ∈ s.residentBy →
    (s.did .countPublished).length = cfg.array.nPages ∧
      (s.did .countPublished).head?.map Prod.fst = some t
  resident_iff : s.allResident ≠ 0 ↔ s.residentBy ≠ []

namespace TableInv

variable {cfg : PrefaultConfig} {s : PrefaultState}

theorem winner_unique (h : TableInv cfg s) {t t' : GpuThread} (ht : (t, page) ∈ s.won)
    (ht' : (t', page) ∈ s.won) : t = t' := by
  have := List.inj_on_of_nodup_map h.won_nodup ht ht' rfl
  exact congrArg Prod.fst this

theorem won_of_did (h : TableInv cfg s) {d : Duty} {t : GpuThread} (hd : (t, page) ∈ s.did d) :
    (t, page) ∈ s.won :=
  ((h.did_iff d t page).1 hd).1

theorem did_of_did (h : TableInv cfg s) {d e : Duty} {t : GpuThread} (hde : d.rank ≤ e.rank)
    (he : (t, page) ∈ s.did e) : (t, page) ∈ s.did d := by
  obtain ⟨hwon, howes⟩ := (h.did_iff e t page).1 he
  refine (h.did_iff d t page).2 ⟨hwon, fun ⟨d', hpc, hpage, hrank⟩ => ?_⟩
  exact howes ⟨d', hpc, hpage, hrank.trans hde⟩

theorem ready_of_did (h : TableInv cfg s) {d : Duty} {t : GpuThread} (hd : Duty.ready.rank ≤ d.rank)
    (hdid : (t, page) ∈ s.did d) : s.status page = .ready :=
  (h.ready_iff page).2 ⟨t, h.did_of_did hd hdid⟩

theorem mem_donePages {d : Duty} : page ∈ s.donePages d ↔ ∃ t, (t, page) ∈ s.did d := by
  simp [PrefaultState.donePages]

section

variable (h : TableInv cfg s)
include h

theorem donePages_lt {d : Duty} (hp : page ∈ s.donePages d) : page < cfg.array.nPages := by
  obtain ⟨t, ht⟩ := mem_donePages.1 hp
  exact h.won_lt t page (h.won_of_did ht)

theorem length_did (d : Duty) : (s.did d).length = (s.donePages d).card := by
  rw [PrefaultState.donePages, List.toFinset_card_of_nodup (h.did_nodup d), List.length_map]

theorem donePages_subset (d : Duty) : s.donePages d ⊆ Finset.range cfg.array.nPages :=
  fun _ hp => Finset.mem_range.2 (h.donePages_lt hp)

theorem length_did_le (d : Duty) : (s.did d).length ≤ cfg.array.nPages := by
  rw [h.length_did, ← Finset.card_range cfg.array.nPages]
  exact Finset.card_le_card (h.donePages_subset d)

theorem exists_did_of_length {d : Duty} (hlen : (s.did d).length = cfg.array.nPages)
    (hp : page < cfg.array.nPages) : ∃ t, (t, page) ∈ s.did d := by
  apply mem_donePages.1
  have hall : s.donePages d = Finset.range cfg.array.nPages := by
    apply Finset.eq_of_subset_of_card_le (h.donePages_subset d)
    rw [Finset.card_range, ← h.length_did, hlen]
  rw [hall]
  exact Finset.mem_range.2 hp

theorem blkCounted_subset (blk : Nat) : s.blkCounted blk ⊆ pagesOfBlk cfg.array.nPages blk := by
  intro page hp
  rw [PrefaultState.blkCounted, Finset.mem_filter] at hp
  rw [pagesOfBlk, Finset.mem_filter]
  exact ⟨h.donePages_subset _ hp.1, hp.2⟩

theorem blkCnt_le (blk : Nat) : s.blkCnt blk ≤ pfBlkPages := by
  have hle := Finset.card_le_card (h.blkCounted_subset blk)
  have hblk := card_pagesOfBlk_le cfg.array.nPages blk
  rw [h.blkCnt, pfInitBlkCounts_eq]
  omega

/-- **A full block**: the counter of a block reaches 512 only if all its pages are ready. -/
theorem ready_of_full (hp : page < cfg.array.nPages)
    (hfull : pfBlkPages ≤ s.blkCnt (page / pfBlkPages)) : s.status page = .ready := by
  have hblk := card_pagesOfBlk_le cfg.array.nPages (page / pfBlkPages)
  rw [h.blkCnt, pfInitBlkCounts_eq] at hfull
  have hall : s.blkCounted (page / pfBlkPages) = pagesOfBlk cfg.array.nPages (page / pfBlkPages) := by
    apply Finset.eq_of_subset_of_card_le (h.blkCounted_subset _)
    omega
  have hmem : page ∈ s.blkCounted (page / pfBlkPages) := by
    rw [hall, pagesOfBlk, Finset.mem_filter]
    exact ⟨Finset.mem_range.2 hp, rfl⟩
  rw [PrefaultState.blkCounted, Finset.mem_filter] at hmem
  obtain ⟨t, ht⟩ := mem_donePages.1 hmem.1
  exact h.ready_of_did (by decide) ht

/-- **The flag**: `all_resident` is set only when all pages are ready. -/
theorem ready_of_resident (hres : s.allResident ≠ 0) (hp : page < cfg.array.nPages) :
    s.status page = .ready := by
  obtain ⟨t, ht⟩ := List.exists_mem_of_ne_nil _ (h.resident_iff.1 hres)
  obtain ⟨t', ht'⟩ := h.exists_did_of_length (h.last t (.inr ht)).1 hp
  exact h.ready_of_did (by decide) ht'

/-! ### Steps that leave the table alone -/

theorem frame {threads : GpuThread → EnsureThread} {views : GpuThread → Nat → Option PrefaultView}
    (hthreads : ∀ t, threads t = s.threads t ∨ (∀ d, (s.threads t).pc ≠ .duty d) ∧
      (∀ d, (threads t).pc ≠ .duty d) ∧ (threads t).pc ≠ .setResident) :
    TableInv cfg { s with threads := threads, views := views } := by
  have howes : ∀ t d page, (threads t).Owes d page ↔ (s.threads t).Owes d page := by
    intro t d page
    rcases hthreads t with heq | ⟨hno, hno', -⟩
    · rw [heq]
    · exact iff_of_false (EnsureThread.not_owes hno') (EnsureThread.not_owes hno)
  refine { h with owner := fun t d hpc => ?_, did_iff := fun d t page => ?_, last := fun t ht => ?_ }
  · dsimp only at hpc ⊢
    rcases hthreads t with heq | ⟨-, hno', -⟩
    · rw [heq] at hpc ⊢
      exact h.owner t d hpc
    · exact absurd hpc (hno' d)
  · rw [howes]
    exact h.did_iff d t page
  · apply h.last
    rcases ht with hpc | hmem
    · rcases hthreads t with heq | ⟨-, -, hno⟩
      · exact .inl (heq ▸ hpc)
      · exact absurd hpc hno
    · exact .inr hmem

/-! ### Winning a page -/

theorem win {t : GpuThread} (hpc : (s.threads t).pc = .cas)
    (hlt : (s.threads t).page < cfg.array.nPages)
    (hunknown : s.status (s.threads t).page = .unknown) :
    TableInv cfg (({ s with
      status := update s.status (s.threads t).page .pending
      won := (t, (s.threads t).page) :: s.won } : PrefaultState).goTo t (.duty .countWin)) := by
  have hnew := (h.unknown_iff _).1 hunknown
  generalize hpage : (s.threads t).page = page at *
  -- the winner owes everything for its page and nothing else
  have howes : ∀ d page', ({ s.threads t with pc := .duty .countWin } : EnsureThread).Owes d page' ↔
      page' = page := by
    intro d page'
    constructor
    · rintro ⟨-, -, hp, -⟩
      exact hp.symm.trans hpage
    · rintro rfl
      exact ⟨_, rfl, hpage, Nat.zero_le _⟩
  have hold : ∀ d page', ¬ (s.threads t).Owes d page' := fun d page' =>
    EnsureThread.not_owes (by simp [hpc])
  refine ⟨?_, ?_, ?_, ?_, h.did_nodup, ?_, ?_, h.casWins, h.blkCnt, h.published, ?_, h.resident_iff⟩
  · refine List.nodup_cons.2 ⟨fun hmem => ?_, h.won_nodup⟩
    obtain ⟨⟨t', page'⟩, hwon, heq⟩ := List.mem_map.1 hmem
    obtain rfl : page' = page := heq
    exact hnew t' hwon
  · intro t' page' hmem
    rcases List.mem_cons.1 hmem with heq | hmem
    · cases heq
      exact hlt
    · exact h.won_lt t' page' hmem
  · intro t' d hd
    by_cases ht : t' = t
    · subst ht
      simp [goTo, PrefaultState.setThread, hpage]
    · simp only [goTo, PrefaultState.setThread, update_of_ne ht] at hd ⊢
      exact List.mem_cons_of_mem _ (h.owner t' d hd)
  · intro d t' page'
    show (t', page') ∈ s.did d ↔ (t', page') ∈ (t, page) :: s.won ∧
      ¬ (update s.threads t _ t').Owes d page'
    rw [h.did_iff, List.mem_cons]
    by_cases ht : t' = t
    · subst ht
      rw [update_self]
      show _ ↔ _ ∧ ¬ ({ s.threads t' with pc := .duty .countWin } : EnsureThread).Owes d page'
      rw [howes]
      by_cases hp : page' = page
      · subst hp
        simp [hnew]
      · simp [hp, hold]
    · rw [update_of_ne ht]
      simp [ht]
  · intro page'
    show update s.status page .pending page' = .unknown ↔
      ∀ t', (t', page') ∉ (t, page) :: s.won
    by_cases hp : page' = page
    · subst hp
      rw [update_self]
      exact iff_of_false nofun fun hno => hno t List.mem_cons_self
    · rw [update_of_ne hp, h.unknown_iff]
      simp [hp]
  · intro page'
    show update s.status page .pending page' = .ready ↔ _
    by_cases hp : page' = page
    · subst hp
      rw [update_self]
      exact iff_of_false nofun fun ⟨t', ht'⟩ => hnew t' (h.won_of_did ht')
    · rw [update_of_ne hp]
      exact h.ready_iff page'
  · intro t' ht'
    apply h.last
    rcases ht' with hset | hmem
    · by_cases ht : t' = t
      · subst ht
        simp [goTo, PrefaultState.setThread] at hset
      · simp only [goTo, PrefaultState.setThread, update_of_ne ht] at hset
        exact .inl hset
    · exact .inr hmem

end

/-! ### Doing a duty -/

end TableInv

section

variable (cfg : PrefaultConfig) (s : PrefaultState) (t : GpuThread) (d : Duty)

theorem PrefaultState.doDuty_frame :
    (s.doDuty cfg t d).won = s.won ∧ (s.doDuty cfg t d).views = s.views ∧
      (s.doDuty cfg t d).residentBy = s.residentBy ∧
      (s.doDuty cfg t d).allResident = s.allResident := by
  cases d <;> simp only [doDuty, perform, record, goTo, setThread, and_self]
  split <;> exact ⟨rfl, rfl, rfl, rfl⟩

theorem PrefaultState.doDuty_did :
    (s.doDuty cfg t d).did = update s.did d ((t, (s.threads t).page) :: s.did d) := by
  cases d <;> simp only [doDuty, perform, record, goTo, setThread]
  split <;> rfl

theorem PrefaultState.doDuty_threads :
    (s.doDuty cfg t d).threads =
      update s.threads t { s.threads t with pc := s.afterDuty cfg d } := by
  cases d <;> simp only [doDuty, perform, record, goTo, setThread]
  split <;> rfl

theorem PrefaultState.doDuty_status :
    (s.doDuty cfg t d).status =
      if d = .ready then update s.status (s.threads t).page .ready else s.status := by
  cases d <;> simp only [doDuty, perform, record, goTo, setThread, reduceCtorEq, if_true, if_false]
  split <;> rfl

theorem PrefaultState.doDuty_published :
    (s.doDuty cfg t d).published =
      if d = .countPublished then (s.published + 1) % 2 ^ 32 else s.published := by
  cases d <;> simp only [doDuty, perform, record, goTo, setThread, reduceCtorEq, if_true, if_false]
  split <;> rfl

theorem PrefaultState.doDuty_casWins :
    (s.doDuty cfg t d).casWins =
      if d = .countWin ∧ cfg.countsWins = true then (s.casWins + 1) % 2 ^ 64 else s.casWins := by
  cases d <;> simp only [doDuty, perform, record, goTo, setThread, reduceCtorEq, true_and,
    false_and, if_false]
  split <;> rfl

theorem PrefaultState.doDuty_blkCnt :
    (s.doDuty cfg t d).blkCnt =
      if d = .countBlk then
        update s.blkCnt ((s.threads t).page / pfBlkPages)
          ((s.blkCnt ((s.threads t).page / pfBlkPages) + 1) % 2 ^ 32)
      else s.blkCnt := by
  cases d <;> simp only [doDuty, perform, record, goTo, setThread, reduceCtorEq, if_true, if_false]
  split <;> rfl

end

theorem PrefaultArray.nPages_lt (a : PrefaultArray) : a.nPages < 2 ^ 64 :=
  Nat.lt_of_le_of_lt (Nat.div_le_self ..) (Nat.mod_lt _ (Nat.two_pow_pos _))

namespace TableInv

variable {cfg : PrefaultConfig} {s : PrefaultState} {t : GpuThread} {d : Duty}

theorem not_done (h : TableInv cfg s) (hpc : (s.threads t).pc = .duty d) :
    (s.threads t).page ∉ (s.did d).map Prod.snd := by
  intro hmem
  obtain ⟨⟨t', page⟩, hdid, heq⟩ := List.mem_map.1 hmem
  obtain rfl : page = (s.threads t).page := heq
  -- by nobody else, because nobody else has won it
  obtain rfl := h.winner_unique (h.won_of_did hdid) (h.owner t d hpc)
  exact ((h.did_iff d t' _).1 hdid).2 ⟨d, hpc, rfl, Nat.le_refl _⟩

theorem length_did_lt (h : TableInv cfg s) (hpc : (s.threads t).pc = .duty d) :
    (s.did d).length < cfg.array.nPages := by
  have hlt := h.won_lt t _ (h.owner t d hpc)
  refine Nat.lt_of_le_of_ne (h.length_did_le d) fun hlen => ?_
  obtain ⟨t', ht'⟩ := h.exists_did_of_length hlen hlt
  exact h.not_done hpc (List.mem_map.2 ⟨_, ht', rfl⟩)

theorem donePages_doDuty (e : Duty) :
    (s.doDuty cfg t d).donePages e =
      if e = d then insert (s.threads t).page (s.donePages d) else s.donePages e := by
  simp only [PrefaultState.donePages, PrefaultState.doDuty_did]
  split
  · rename_i heq
    subst heq
    rw [update_self, List.map_cons, List.toFinset_cons]
  · rename_i hne
    rw [update_of_ne hne]

theorem blkCounted_doDuty (hd : d ≠ .countBlk) (blk : Nat) :
    (s.doDuty cfg t d).blkCounted blk = s.blkCounted blk := by
  rw [PrefaultState.blkCounted, donePages_doDuty, if_neg hd.symm]
  rfl

section

variable (h : TableInv cfg s)
include h

theorem blkCnt_doDuty (hpc : (s.threads t).pc = .duty .countBlk) (blk : Nat) :
    (s.doDuty cfg t .countBlk).blkCnt blk =
      pfInitBlkCounts cfg.array.nPages blk + ((s.doDuty cfg t .countBlk).blkCounted blk).card := by
  have hnot : (s.threads t).page ∉ s.donePages .countBlk := fun hmem =>
    h.not_done hpc (List.mem_toFinset.1 hmem)
  rw [PrefaultState.doDuty_blkCnt, if_pos rfl, PrefaultState.blkCounted, donePages_doDuty,
    if_pos rfl, Finset.filter_insert]
  by_cases hblk : (s.threads t).page / pfBlkPages = blk
  · subst hblk
    have hle := h.blkCnt_le ((s.threads t).page / pfBlkPages)
    have hnot' : (s.threads t).page ∉ s.blkCounted ((s.threads t).page / pfBlkPages) := fun hmem =>
      hnot (Finset.mem_filter.1 hmem).1
    rw [update_self, if_pos rfl]
    show _ = _ + (insert _ (s.blkCounted _)).card
    rw [Finset.card_insert_of_notMem hnot', ← Nat.add_assoc, ← h.blkCnt]
    exact Nat.mod_eq_of_lt (Nat.lt_of_le_of_lt (Nat.succ_le_succ hle) (by decide))
  · rw [update_of_ne (Ne.symm hblk), if_neg hblk]
    exact h.blkCnt blk

theorem did_iff_doDuty (hpc : (s.threads t).pc = .duty d) (e : Duty)
    (t' : GpuThread) (page : Nat) :
    (t', page) ∈ (s.doDuty cfg t d).did e ↔
      (t', page) ∈ s.won ∧ ¬ ((s.doDuty cfg t d).threads t').Owes e page := by
  have howner := h.owner t d hpc
  rw [s.doDuty_did, s.doDuty_threads]
  by_cases ht : t' = t
  · subst ht
    have hold : (s.threads t').Owes e page ↔ (s.threads t').page = page ∧ d.rank ≤ e.rank := by
      constructor
      · rintro ⟨d', hd', hpage, hrank⟩
        rw [hpc] at hd'
        cases hd'
        exact ⟨hpage, hrank⟩
      · exact fun ⟨hpage, hrank⟩ => ⟨d, hpc, hpage, hrank⟩
    have hdid := h.did_iff e t' page
    rw [hold] at hdid
    rw [update_self, owes_afterDuty]
    by_cases he : e = d
    · subst he
      rw [update_self, List.mem_cons, hdid]
      by_cases hpage : (s.threads t').page = page
      · subst hpage
        simp [howner]
      · simp [hpage, Ne.symm hpage]
    -- the rank of another duty is smaller or larger
    · have hrank : d.rank ≤ e.rank ↔ d.rank < e.rank :=
        ⟨fun hle => Nat.lt_of_le_of_ne hle fun heq => he (Duty.rank_inj heq).symm, Nat.le_of_lt⟩
      rw [update_of_ne he, hdid, hrank]
  · rw [update_of_ne ht, ← h.did_iff]
    by_cases he : e = d
    · subst he
      rw [update_self, List.mem_cons]
      simp [ht]
    · rw [update_of_ne he]

theorem last_of_afterDuty (hpc : (s.threads t).pc = .duty d)
    (hset : s.afterDuty cfg d = .setResident) :
    d = .countPublished ∧ (s.did .countPublished).length + 1 = cfg.array.nPages := by
  cases d with
  | countPublished =>
    refine ⟨rfl, ?_⟩
    have hlt := h.length_did_lt hpc
    have hpub := h.published
    dsimp only [afterDuty] at hset
    split at hset
    · omega
    · cases hset
  | countWin | touch | ready | countBlk => cases hset

theorem doDuty (hpc : (s.threads t).pc = .duty d) : TableInv cfg (s.doDuty cfg t d) := by
  obtain ⟨hwon, -, hby, hres⟩ := s.doDuty_frame cfg t d
  have hdid := s.doDuty_did cfg t d
  have hthreads := s.doDuty_threads cfg t d
  have hstatus := s.doDuty_status cfg t d
  have howner := h.owner t d hpc
  have hlen := h.length_did_lt hpc
  refine ⟨hwon ▸ h.won_nodup, hwon ▸ h.won_lt, ?_, ?_, ?_, ?_, ?_, ?_, ?_, ?_, ?_, ?_⟩
  · intro t' e hpc'
    rw [hthreads] at hpc' ⊢
    rw [hwon]
    by_cases ht : t' = t
    · subst ht
      rw [update_self]
      exact howner
    · rw [update_of_ne ht] at hpc' ⊢
      exact h.owner t' e hpc'
  · intro e t' page
    rw [hwon]
    exact h.did_iff_doDuty hpc e t' page
  · intro e
    rw [hdid]
    by_cases he : e = d
    · subst he
      rw [update_self, List.map_cons]
      exact List.nodup_cons.2 ⟨h.not_done hpc, h.did_nodup e⟩
    · rw [update_of_ne he]
      exact h.did_nodup e
  · intro page
    rw [hwon, hstatus]
    by_cases hpage : d = .ready ∧ page = (s.threads t).page
    · obtain ⟨rfl, rfl⟩ := hpage
      rw [if_pos rfl, update_self]
      exact iff_of_false nofun fun hno => hno t howner
    · rw [← h.unknown_iff]
      split
      · rw [update_of_ne fun hp => hpage ⟨‹_›, hp⟩]
      · rfl
  · intro page
    rw [hstatus, hdid]
    by_cases hd : d = .ready
    · subst hd
      rw [if_pos rfl, update_self]
      by_cases hpage : page = (s.threads t).page
      · subst hpage
        rw [update_self]
        exact iff_of_true rfl ⟨t, List.mem_cons_self⟩
      · rw [update_of_ne hpage, h.ready_iff]
        simp [hpage]
    · rw [if_neg hd, update_of_ne (Ne.symm hd)]
      exact h.ready_iff page
  · intro hcount
    rw [s.doDuty_casWins, hdid]
    by_cases hd : d = .countWin
    · subst hd
      have hbound := cfg.array.nPages_lt
      rw [if_pos ⟨rfl, hcount⟩, update_self, List.length_cons, h.casWins hcount]
      exact Nat.mod_eq_of_lt (by omega)
    · rw [if_neg fun hand => hd hand.1, update_of_ne (Ne.symm hd)]
      exact h.casWins hcount
  · intro blk
    by_cases hd : d = .countBlk
    · subst hd
      exact h.blkCnt_doDuty hpc blk
    · rw [s.doDuty_blkCnt, if_neg hd, blkCounted_doDuty hd]
      exact h.blkCnt blk
  · rw [s.doDuty_published, hdid]
    by_cases hd : d = .countPublished
    · subst hd
      rw [if_pos rfl, update_self, List.length_cons, h.published, Nat.mod_add_mod]
    · rw [if_neg hd, update_of_ne (Ne.symm hd)]
      exact h.published
  · intro t' ht'
    rw [hby, hthreads] at ht'
    rw [hdid]
    by_cases hnow : t' = t ∧ s.afterDuty cfg d = .setResident
    · obtain ⟨rfl, hset⟩ := hnow
      obtain ⟨rfl, hlast⟩ := h.last_of_afterDuty hpc hset
      rw [update_self]
      exact ⟨hlast, rfl⟩
    -- somebody was the last before: nothing is left to count
    · have hold : (s.threads t').pc = .setResident ∨ t' ∈ s.residentBy := by
        rcases ht' with hset | hmem
        · by_cases ht : t' = t
          · subst ht
            rw [update_self] at hset
            exact absurd ⟨rfl, hset⟩ hnow
          · rw [update_of_ne ht] at hset
            exact .inl hset
        · exact .inr hmem
      have hlast := h.last t' hold
      rw [update_of_ne]
      · exact hlast
      · rintro rfl
        exact Nat.lt_irrefl _ (hlast.1 ▸ hlen)
  · rw [hby, hres]
    exact h.resident_iff

theorem setThread {th : EnsureThread} (hno : ∀ d, (s.threads t).pc ≠ .duty d)
    (hno' : ∀ d, th.pc ≠ .duty d) (hset : th.pc ≠ .setResident) :
    TableInv cfg (s.setThread t th) := by
  refine h.frame fun t' => ?_
  by_cases ht : t' = t
  · subst ht
    rw [update_self]
    exact .inr ⟨hno, hno', hset⟩
  · exact .inl (update_of_ne ht _ _)

theorem setView (view : Nat) (v : PrefaultView) : TableInv cfg (s.setView t view v) :=
  h.frame fun _ => .inl rfl

theorem setResident (hpc : (s.threads t).pc = .setResident) :
    TableInv cfg (({ s with allResident := 1, residentBy := t :: s.residentBy } :
      PrefaultState).goTo t .wait) := by
  have hflag : TableInv cfg { s with allResident := 1, residentBy := t :: s.residentBy } := by
    refine { h with last := fun t' ht' => ?_, resident_iff := ?_ }
    · rcases ht' with hset | hmem
      · exact h.last t' (.inl hset)
      · rcases List.mem_cons.1 hmem with rfl | hmem
        · exact h.last t' (.inl hpc)
        · exact h.last t' (.inr hmem)
    · exact iff_of_true Nat.one_ne_zero (List.cons_ne_nil _ _)
  apply hflag.setThread
  · intro d hd
    rw [show (s.threads t).pc = .duty d from hd] at hpc
    cases hpc
  · exact nofun
  · exact nofun

end

end TableInv

end FaultMesh
