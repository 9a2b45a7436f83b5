import FaultMesh.Prefault.Ensure

/-!
# Elements and pages

`load` and `store` ensure the page on which an element begins. An element that goes on beyond the
end of that page is accessed although its other pages may never have been asked for.
-/

namespace FaultMesh

open Function PrefaultState

namespace PrefaultArray

variable (a : PrefaultArray)

/-- The page holds a byte of the element. -/
def HoldsByteOf (page i : Nat) : Prop :=
  ∃ k < a.elemSize, (a.base + i * a.elemSize + k - a.alignedBase) / a.pageBytes = page

/-- No page boundary is inside the element. -/
def OnOnePage (i : Nat) : Prop :=
  (a.base + i * a.elemSize) % a.pageBytes + a.elemSize ≤ a.pageBytes

instance (i : Nat) : Decidable (a.OnOnePage i) := inferInstanceAs (Decidable (_ ≤ _))

theorem add_mod_pageBytes (k : Nat) : (a.base + k) % a.pageBytes = (a.offset + k) % a.pageBytes := by
  rw [offset, Nat.mod_add_mod]

theorem byte_eq (i k : Nat) :
    a.base + i * a.elemSize + k - a.alignedBase = a.offset + i * a.elemSize + k := by
  have := a.alignedBase_add_offset
  omega

theorem div_add_eq_iff {x k : Nat} : (x + k) / a.pageBytes = x / a.pageBytes ↔
    x % a.pageBytes + k < a.pageBytes := by
  have hpos := a.pageBytes_pos
  have hsum : (x + k) / a.pageBytes =
      x / a.pageBytes + (x % a.pageBytes + k) / a.pageBytes := by
    conv_lhs => rw [← Nat.div_add_mod x a.pageBytes, Nat.add_assoc, Nat.mul_add_div hpos]
  rw [hsum, Nat.add_eq_left, Nat.div_eq_zero_iff_lt hpos]

theorem onOnePage_iff {i : Nat} (hi : i < a.nElems) :
    a.OnOnePage i ↔ ∀ page, a.HoldsByteOf page i → page = a.pageOf i := by
  have hpos := a.elemSize_pos
  rw [OnOnePage, a.add_mod_pageBytes, a.pageOf_eq hi]
  constructor
  · rintro hone page ⟨k, hk, rfl⟩
    rw [byte_eq, div_add_eq_iff]
    omega
  · intro hall
    -- the last byte
    have hlast := hall _ ⟨a.elemSize - 1, by omega, rfl⟩
    rw [byte_eq, div_add_eq_iff] at hlast
    omega

theorem lt_nPages_of_holds {page i : Nat} (hi : i < a.nElems) (h : a.HoldsByteOf page i) :
    page < a.nPages := by
  obtain ⟨k, hk, rfl⟩ := h
  have := a.index_mul_le hi
  rw [byte_eq, Nat.add_assoc]
  exact a.div_lt_nPages (by omega)

end PrefaultArray

/-! ## One thread alone -/

/-- Lane 0 is alone in `ensure` for an element; only the page of the element has been asked for. -/
structure Solo (cfg : PrefaultConfig) (i : Nat) (point : EnsurePc) (st : PageStatus)
    (s : PrefaultState) : Prop where
  pc : (s.threads lane0).pc = point
  page : (s.threads lane0).page = cfg.array.pageOf i
  elem : (s.threads lane0).elem = some i
  checked : (s.threads lane0).checked = true
  view : ∃ v, s.views lane0 (s.threads lane0).view = some v
  own : s.status (cfg.array.pageOf i) = st
  others : ∀ page ≠ cfg.array.pageOf i, s.status page = .unknown

namespace Solo

variable {cfg : PrefaultConfig} {i : Nat} {point : EnsurePc} {st : PageStatus} {s : PrefaultState}

theorem goTo (h : Solo cfg i point st s) (point' : EnsurePc) :
    Solo cfg i point' st (s.goTo lane0 point') := by
  have hself := s.goTo_self lane0 point'
  refine ⟨?_, ?_, ?_, ?_, ?_, h.own, h.others⟩ <;> rw [hself]
  · exact h.page
  · exact h.elem
  · exact h.checked
  · exact h.view

theorem start (hi : i < cfg.array.nElems) :
    ∃ s, (prefaultMachine cfg).run (.init cfg) [.build lane0 0, .call lane0 0 (.access i)] = some s ∧
      Solo cfg i .loadBlk .unknown s ∧ s.blkCnt = pfInitBlkCounts cfg.array.nPages ∧
      s.published = 0 := by
  have hlt := cfg.array.pageOf_lt hi
  have hbound := cfg.array.nPages_lt
  have hdiv := Nat.div_le_self (cfg.array.pageOf i) pfBlkPages
  have hhint : ¬ (cfg.array.pageOf i = noHint ∨ cfg.array.pageOf i / pfBlkPages = noHint) := by
    unfold noHint
    omega
  have hview : ((init cfg).setView lane0 0 (init cfg).buildView).views
      lane0 0 = some ⟨noHint, noHint, true⟩ := by
    simp [setView, buildView, init]
  refine ⟨((init cfg).setView lane0 0 (init cfg).buildView).setThread
    lane0 { pc := .loadBlk, page := cfg.array.pageOf i, elem := some i, checked := true },
    ?_, ?_, rfl, rfl⟩
  · simp only [Machine.run_cons_eq_some, Machine.run_nil]
    refine ⟨_, rfl, _, ?_, rfl⟩
    show call cfg _ lane0 0 (.access i) = _
    simp only [call, if_pos hi, hview, Option.map_some, if_true, ensure, if_neg hhint]
  · refine ⟨?_, ?_, ?_, ?_, ?_, rfl, fun _ _ => rfl⟩ <;>
      simp only [setThread, update_self]
    exact ⟨_, hview⟩

theorem look (h : Solo cfg i .loadBlk .unknown s) (hi : i < cfg.array.nElems)
    (hblk : s.blkCnt = pfInitBlkCounts cfg.array.nPages) :
    s.stepThread cfg lane0 = some (s.goTo lane0 .loadStatus) := by
  obtain ⟨v, hv⟩ := h.view
  have hcard : 0 < (pagesOfBlk cfg.array.nPages (cfg.array.pageOf i / pfBlkPages)).card := by
    apply Finset.card_pos.2
    refine ⟨cfg.array.pageOf i, ?_⟩
    rw [pagesOfBlk, Finset.mem_filter]
    exact ⟨Finset.mem_range.2 (cfg.array.pageOf_lt hi), rfl⟩
  have hfull : ¬ pfBlkPages ≤ s.blkCnt (cfg.array.pageOf i / pfBlkPages) := by
    rw [hblk, pfInitBlkCounts_eq]
    exact Nat.not_le.2 (Nat.sub_lt (by decide) hcard)
  simp only [stepThread, h.pc, h.page, hv, Option.map_some, if_neg hfull]

theorem miss (h : Solo cfg i .loadStatus .unknown s) :
    s.stepThread cfg lane0 = some (s.goTo lane0 .converge) := by
  obtain ⟨v, hv⟩ := h.view
  simp only [stepThread, h.pc, h.page, hv, Option.map_some, h.own, reduceCtorEq, if_false]

theorem elect (h : Solo cfg i .converge .unknown s) :
    ∃ s', prefaultStep cfg s (.converge 0 {0}) = some s' ∧ Solo cfg i .cas .unknown s' ∧
      s'.published = s.published := by
  obtain ⟨m, hm, -, -, hcas, -⟩ := s.elect_spec cfg 0 (Finset.mem_singleton_self 0)
  obtain rfl : m = 0 := Finset.mem_singleton.1 hm
  have hpcs : ({0} : LaneMask).Nonempty ∧ ∀ l ∈ ({0} : LaneMask),
      (s.threads ⟨0, l⟩).pc = .converge := by
    refine ⟨Finset.singleton_nonempty 0, fun l hl => ?_⟩
    rw [Finset.mem_singleton.1 hl]
    exact h.pc
  refine ⟨_, if_pos hpcs, ⟨?_, ?_, ?_, ?_, ?_, h.own, h.others⟩, rfl⟩ <;>
    simp only [lane0, Finset.mem_singleton, and_self, if_true]
  · exact hcas
  · exact h.page
  · exact h.elem
  · exact h.checked
  · exact h.view

theorem win (h : Solo cfg i .cas .unknown s) :
    ∃ s', s.stepThread cfg lane0 = some s' ∧ Solo cfg i (.duty .countWin) .pending s' ∧
      s'.published = s.published := by
  have hstep : s.stepThread cfg lane0 = some (({ s with
      status := update s.status (s.threads lane0).page .pending
      won := (lane0, (s.threads lane0).page) :: s.won } : PrefaultState).goTo lane0
        (.duty .countWin)) := by
    simp only [stepThread, h.pc, h.page, h.own, if_true]
  refine ⟨_, hstep, @Solo.goTo cfg i .cas .pending _ ?_ _, rfl⟩
  refine ⟨h.pc, h.page, h.elem, h.checked, h.view, ?_, ?_⟩
  · show update s.status (s.threads lane0).page _ _ = _
    rw [h.page, update_self]
  · intro page hne
    show update s.status (s.threads lane0).page _ page = _
    rw [h.page, update_of_ne hne]
    exact h.others page hne

theorem duty {d : Duty} (h : Solo cfg i (.duty d) st s) :
    s.stepThread cfg lane0 = some (s.doDuty cfg lane0 d) ∧
      (d ≠ .countPublished → (s.doDuty cfg lane0 d).published = s.published) ∧
      Solo cfg i (s.afterDuty cfg d) (if d = .ready then .ready else st)
        (s.doDuty cfg lane0 d) := by
  have hself : (s.doDuty cfg lane0 d).threads lane0 =
      { s.threads lane0 with pc := s.afterDuty cfg d } := by
    rw [s.doDuty_threads, update_self]
  refine ⟨?_, ?_, ?_, ?_, ?_, ?_, ?_, ?_, ?_⟩
  · simp only [stepThread, h.pc]
  · exact fun hd => by rw [s.doDuty_published, if_neg hd]
  · rw [hself]
  · rw [hself]
    exact h.page
  · rw [hself]
    exact h.elem
  · rw [hself]
    exact h.checked
  · rw [hself, (s.doDuty_frame cfg lane0 d).2.1]
    exact h.view
  · rw [s.doDuty_status, h.page]
    split
    · exact update_self ..
    · exact h.own
  · intro page hne
    rw [s.doDuty_status, h.page]
    split
    · rw [update_of_ne hne]
      exact h.others page hne
    · exact h.others page hne

theorem arrive (h : Solo cfg i .wait .ready s) :
    ∃ s', s.stepThread cfg lane0 = some s' ∧ Solo cfg i .returned .ready s' := by
  obtain ⟨v, hv⟩ := h.view
  have hstep : s.stepThread cfg lane0 = some (s.leave lane0 v false) := by
    simp only [stepThread, h.pc, h.page, hv, Option.map_some, h.own, if_true]
  refine ⟨_, hstep, @Solo.goTo cfg i .wait .ready _ ?_ _⟩
  refine ⟨h.pc, h.page, h.elem, h.checked, ?_, h.own, h.others⟩
  simp [setView]

end Solo

local instance lanes_neZero : NeZero 32 := ⟨by decide⟩

/-- One thread accesses an element of an array of several pages. -/
def soloAccess (i : Nat) : List PrefaultLabel :=
  [.build lane0 0, .call lane0 0 (.access i)] ++
    [.step lane0, .step lane0, .converge 0 {0}, .step lane0, .step lane0, .step lane0,
      .step lane0, .step lane0, .step lane0, .step lane0]

/-- **A run**: a thread alone gets its element, and asks for no other page. -/
theorem soloAccess_run {cfg : PrefaultConfig} {i : Nat} (hi : i < cfg.array.nElems)
    (hmany : cfg.array.nPages ≠ 1) :
    ∃ s, (prefaultMachine cfg).run (.init cfg) (soloAccess i) = some s ∧
      Solo cfg i .returned .ready s := by
  obtain ⟨s₁, hrun, h₁, hblk, hpub⟩ := Solo.start hi
  have h₂ := h₁.goTo .loadStatus
  have h₃ := h₂.goTo .converge
  obtain ⟨s₄, hstep₄, h₄, hpub₄⟩ := h₃.elect
  obtain ⟨s₅, hstep₅, h₅, hpub₅⟩ := h₄.win
  obtain ⟨hstep₆, hpub₆, h₆⟩ := h₅.duty
  obtain ⟨hstep₇, hpub₇, h₇⟩ := h₆.duty
  obtain ⟨hstep₈, hpub₈, h₈⟩ := h₇.duty
  obtain ⟨hstep₉, hpub₉, h₉⟩ := h₈.duty
  obtain ⟨hstep₁₀, -, h₁₀⟩ := h₉.duty
  have hzero := calc
    _ = _ := hpub₉ nofun
    _ = _ := hpub₈ nofun
    _ = _ := hpub₇ nofun
    _ = _ := hpub₆ nofun
    _ = _ := hpub₅
    _ = s₁.published := hpub₄
    _ = 0 := hpub
  -- it is not the last page
  simp only [afterDuty, hzero, Nat.zero_add,
    show (1 : Nat) % 2 ^ 32 = 1 from rfl, if_neg (Ne.symm hmany)] at h₁₀
  obtain ⟨s₁₁, hstep₁₁, h₁₁⟩ := h₁₀.arrive
  refine ⟨s₁₁, ?_, h₁₁⟩
  rw [soloAccess, Machine.run_append_eq_some]
  refine ⟨s₁, hrun, ?_⟩
  simp only [Machine.run_cons_eq_some, Machine.run_nil]
  exact ⟨_, h₁.look hi hblk, _, h₂.miss, _, hstep₄, _, hstep₅, _, hstep₆, _, hstep₇, _, hstep₈, _,
    hstep₉, _, hstep₁₀, _, hstep₁₁, rfl⟩

/-! ## Elements -/

/-- In every run, when the element is accessed after its check, all its pages are ready. -/
def ElementCovered (cfg : PrefaultConfig) (i : Nat) : Prop :=
  ∀ labels s t, (prefaultMachine cfg).run (.init cfg) labels = some s →
    (s.threads t).pc = .returned → (s.threads t).elem = some i → (s.threads t).checked = true →
      ∀ page, cfg.array.HoldsByteOf page i → s.status page = .ready

/-- **Whole elements**: all pages of an element are ready when it is accessed if and only if there is
no page boundary inside it. -/
theorem element_covered_iff (cfg : PrefaultConfig) (i : Nat) (hi : i < cfg.array.nElems) :
    ElementCovered cfg i ↔ cfg.array.OnOnePage i := by
  rw [cfg.array.onOnePage_iff hi]
  constructor
  · intro hcovered page hpage
    by_contra hne
    -- there is another page, and a thread alone does not ask for it
    have hmany : cfg.array.nPages ≠ 1 := by
      have hlt := cfg.array.lt_nPages_of_holds hi hpage
      have hlt' := cfg.array.pageOf_lt hi
      omega
    obtain ⟨s, hrun, hsolo⟩ := soloAccess_run hi hmany
    have hready := hcovered _ s lane0 hrun hsolo.pc hsolo.elem hsolo.checked page hpage
    rw [hsolo.others page hne] at hready
    cases hready
  · intro hone labels s t hrun hpc helem _ page hpage
    have hinv := prefaultInv_of_run hrun
    have hidle : (s.threads t).pc ≠ .idle := by simp [hpc]
    obtain ⟨-, hown⟩ := (hinv.threads t).elem hidle i helem
    rw [hone page hpage, ← hown]
    exact (hinv.threads t).returned hpc

/-- Elements of four bytes. -/
theorem word_elements_covered : ElementCovered twoPages 1023 :=
  (element_covered_iff twoPages 1023 (by decide)).2 (by decide)

/-- One element of twelve bytes, eight of them on the first page. -/
def straddling : PrefaultConfig where
  array := ⟨4088, 1, 12, 12, by decide, by decide, by decide⟩
  cudaArch := 700
  countsWins := false

/-- The element is accessed while the status of the page with its last four bytes is unknown. -/
theorem straddling_element_uncovered :
    straddling.array.HoldsByteOf 1 0 ∧
      ∃ s, (prefaultMachine straddling).run (.init straddling) (soloAccess 0) = some s ∧
        (s.threads lane0).pc = .returned ∧ (s.threads lane0).elem = some 0 ∧
        (s.threads lane0).checked = true ∧ s.status 1 = .unknown := by
  exact ⟨⟨8, by decide, by decide⟩, _, rfl, by decide +kernel, by decide +kernel, by decide +kernel,
    by decide +kernel⟩

end FaultMesh
