import FaultMesh.Lib.Bitmap

/-!
# Unmapping pages from the CPU

`block_unmap_cpu` clears the CPU mappings of the pages of a region that are in a mask. The plain way is
one `unmap_mapping_range` for each run of masked pages. With `uvm_batched_ipi_unmap` the page table
entries are cleared page by page first, with one shootdown for all of them, and the plain way is
taken if that did nothing: there was no mm, its lock or the memory for the addresses could not be had,
or no page was found.

The page tables themselves, the shootdown and the counters are outside of the model. What is in it is
what the block knows of them: `cpu.pte_bits`, `mapped` and `maybe_mapped_pages`.
-/

namespace FaultMesh.CpuUnmap

/-! ## Blocks, regions and masks -/

inductive Processor
  | cpu
  | gpu (index : Nat)
deriving DecidableEq, Repr

inductive PteBit
  | read
  | write
deriving DecidableEq, Repr

/-- The fields of a VA block that unmapping reads or writes. -/
structure Block where
  isHmm : Bool := false
  mapped : Finset Processor
  pteBits : PteBit → Finset Nat
  /-- `pte_bits[UVM_PTE_BITS_GPU_READ]` of each GPU, empty for one without a state. -/
  gpuReadBits : Nat → Finset Nat := fun _ => ∅
  maybeMapped : Finset Nat
  firstFaultStamp : Nat := 0
  /-- `cpu.fault_authorized.page_index`. -/
  authorizedPage : Nat := 0

structure Region where
  first : Nat
  outer : Nat
  first_le_outer : first ≤ outer

/-- A `uvm_page_mask_t *`, which may be `NULL`. -/
abbrev PageMask := Option (Finset Nat)

/-- A page is in the mask, or there is none. -/
def PageMask.test : PageMask → Nat → Bool
  | none, _ => true
  | some mask, page => decide (page ∈ mask)

def Region.masked (region : Region) (unmapPages : PageMask) : Finset Nat :=
  (Finset.Ico region.first region.outer).filter fun page => unmapPages.test page

/-- `for_each_va_block_page_in_region_mask`. -/
def Region.pagesInMask (region : Region) : PageMask → List Nat
  | none => List.range' region.first (region.outer - region.first)
  | some mask => setBits (fun page => decide (page ∈ mask)) region.outer region.first

/-- `for_each_va_block_subregion_in_mask`. -/
def Region.subregionsInMask (region : Region) : PageMask → List (Nat × Nat)
  | none => if region.first = region.outer then [] else [(region.first, region.outer)]
  | some mask => setRuns (fun page => decide (page ∈ mask)) region.outer region.first

/-- `uvm_page_mask_region_weight`. -/
def Region.weight (region : Region) (mask : Finset Nat) : Nat :=
  (mask.filter (· < region.outer)).card - (mask.filter (· < region.first)).card

/-- A single page is not worth a batch. -/
def Region.several (region : Region) : PageMask → Bool
  | none => true
  | some mask => decide (1 < region.weight mask)

/-! ## Unmapping -/

namespace Block

/-- `block_has_valid_mapping_cpu`. -/
def hasValidMappingCpu (b : Block) (first outer : Nat) : Bool :=
  decide (.cpu ∈ b.mapped) &&
    decide (findNextBit (fun page => decide (page ∈ b.pteBits .read)) outer first ≠ outer)

def onlyCpu (b : Block) : Bool := decide (b.mapped.card = 1) && !b.isHmm

/-- All PTE bits of the pages are cleared, and if no other processor has mappings the pages are marked
as fully unmapped. -/
def clearPages (b : Block) (onlyCpu : Bool) (pages : Finset Nat) : Block :=
  { b with
    pteBits := fun bit => b.pteBits bit \ pages
    maybeMapped := if onlyCpu then b.maybeMapped \ pages else b.maybeMapped }

end Block

/-- What `block_unmap_cpu_selective` depends on besides the block. -/
structure Lookup where
  /-- `block_context->mm` is set. -/
  contextMm : Bool
  /-- `va_space->va_space_mm.mm` is set. -/
  vaSpaceMm : Bool
  /-- `mmap_read_trylock` succeeds. -/
  trylock : Bool
  /-- The memory for the addresses to flush can be allocated. -/
  kmalloc : Bool
  /-- `block_walk_to_pmd` finds the entry that all pages of the block share. -/
  walk : Bool

def Lookup.ready (l : Lookup) : Bool := (l.contextMm || (l.vaSpaceMm && l.trylock)) && l.kmalloc

/-- One round of the loop of `block_unmap_cpu_selective`; the second component is
`unmapped_something`. -/
def selectiveRound (walk onlyCpu : Bool) (acc : Block × Bool) (page : Nat) : Block × Bool :=
  if page ∈ acc.1.pteBits .read ∧ walk then (acc.1.clearPages onlyCpu {page}, true) else acc

def blockUnmapCpuSelective (l : Lookup) (region : Region) (unmapPages : PageMask) (b : Block) :
    Block × Bool :=
  if l.ready then (region.pagesInMask unmapPages).foldl (selectiveRound l.walk b.onlyCpu) (b, false)
  else (b, false)

/-- One round of the loop of `block_unmap_cpu`. -/
def plainRound (onlyCpu : Bool) (acc : Block × Bool) (subregion : Nat × Nat) : Block × Bool :=
  if acc.1.hasValidMappingCpu subregion.1 subregion.2 then
    (acc.1.clearPages onlyCpu (Finset.Ico subregion.1 subregion.2), true)
  else acc

/-- The code at `check_mappings`. -/
def checkMappings (acc : Block × Bool) : Block :=
  if acc.2 then
    if acc.1.pteBits .read = ∅ then { acc.1 with mapped := acc.1.mapped.erase .cpu } else acc.1
  else acc.1

/-- The page that is tracked because of a CPU fault is unmapped. -/
def Block.clearFaultAuthorized (b : Block) (region : Region) (unmapPages : PageMask) : Block :=
  if b.firstFaultStamp ≠ 0 ∧ b.authorizedPage ∈ region.masked unmapPages then
    { b with firstFaultStamp := 0 }
  else b

def Block.nothingToUnmap (b : Block) (region : Region) (unmapPages : PageMask) : Bool :=
  !b.hasValidMappingCpu region.first region.outer ||
    match unmapPages with
    | none => false
    | some mask => decide (mask ∩ b.pteBits .read = ∅)

/-- Both ways of `block_unmap_cpu`, up to its end; `batched` is `uvm_batched_ipi_unmap`. -/
def Block.unmapMasked (batched : Bool) (l : Lookup) (region : Region) (unmapPages : PageMask)
    (b : Block) : Block :=
  let acc := if batched && region.several unmapPages then blockUnmapCpuSelective l region unmapPages b
    else (b, false)
  if acc.2 then checkMappings acc
  else checkMappings ((region.subregionsInMask unmapPages).foldl (plainRound b.onlyCpu) acc)

def blockUnmapCpu (batched : Bool) (l : Lookup) (region : Region) (unmapPages : PageMask) (b : Block) :
    Block :=
  if b.nothingToUnmap region unmapPages then b
  else if b.isHmm then b
  else (b.clearFaultAuthorized region unmapPages).unmapMasked batched l region unmapPages

/-- `block_page_authorized_processors` with `UVM_PROT_READ_ONLY`: the processor maps the page. -/
def Block.Maps (b : Block) (page : Nat) : Processor → Prop
  | .cpu => .cpu ∈ b.mapped ∧ page ∈ b.pteBits .read
  | .gpu index => .gpu index ∈ b.mapped ∧ page ∈ b.gpuReadBits index

/-- `maybe_mapped_pages` has all pages that some processor maps. -/
def Block.MaybeMappedCovers (b : Block) : Prop := ∀ page p, b.Maps page p → page ∈ b.maybeMapped

/-! ## The pages of the loops -/

variable {region : Region} {unmapPages : PageMask}

theorem mem_masked {page : Nat} : page ∈ region.masked unmapPages ↔
    (region.first ≤ page ∧ page < region.outer) ∧ unmapPages.test page = true := by
  rw [Region.masked, Finset.mem_filter, Finset.mem_Ico]

theorem mem_pagesInMask {page : Nat} :
    page ∈ region.pagesInMask unmapPages ↔ page ∈ region.masked unmapPages := by
  rw [mem_masked]
  cases unmapPages with
  | none =>
    have := region.first_le_outer
    rw [Region.pagesInMask, List.mem_range'_1]
    simp only [PageMask.test, and_true]
    omega
  | some mask => rw [Region.pagesInMask, mem_setBits, PageMask.test, and_assoc]

theorem exists_mem_subregionsInMask {page : Nat} :
    (∃ r ∈ region.subregionsInMask unmapPages, page ∈ Finset.Ico r.1 r.2) ↔
      page ∈ region.masked unmapPages := by
  simp only [mem_masked, Finset.mem_Ico]
  cases unmapPages with
  | none =>
    rw [Region.subregionsInMask]
    split
    · simp only [List.not_mem_nil, PageMask.test]
      constructor
      · rintro ⟨r, hr, -⟩
        cases hr
      · omega
    · simp [PageMask.test]
  | some mask => rw [Region.subregionsInMask, exists_mem_setRuns, PageMask.test, and_assoc]

/-! ## What the loops have cleared -/

/-- The state of a loop that started with block `b` and has gone through the pages of `gone`. -/
structure Progress (b : Block) (onlyCpu : Bool) (gone : Finset Nat) (acc : Block × Bool) : Prop where
  pteBits : ∀ bit, acc.1.pteBits bit = b.pteBits bit \ gone
  mapped : acc.1.mapped = b.mapped
  gpuReadBits : acc.1.gpuReadBits = b.gpuReadBits
  maybeMapped : ∀ page ∈ b.maybeMapped, page ∉ acc.1.maybeMapped → onlyCpu = true ∧ page ∈ gone
  done_iff : acc.2 = true ↔ ∃ page ∈ gone, page ∈ b.pteBits .read
  idle : acc.2 = false → acc.1 = b

namespace Progress

variable {b : Block} {onlyCpu : Bool} {gone pages : Finset Nat} {acc : Block × Bool}

theorem start (b : Block) (onlyCpu : Bool) : Progress b onlyCpu ∅ (b, false) where
  pteBits _ := (Finset.sdiff_empty).symm
  mapped := rfl
  gpuReadBits := rfl
  maybeMapped _ hmem hnot := absurd hmem hnot
  done_iff := by simp
  idle _ := rfl

theorem clear (h : Progress b onlyCpu gone acc) {page : Nat} (hpage : page ∈ pages)
    (hread : page ∈ acc.1.pteBits .read) :
    Progress b onlyCpu (gone ∪ pages) (acc.1.clearPages onlyCpu pages, true) where
  pteBits bit := by
    show acc.1.pteBits bit \ pages = _
    rw [h.pteBits, sdiff_sdiff, Finset.sup_eq_union]
  mapped := h.mapped
  gpuReadBits := h.gpuReadBits
  maybeMapped q hmem hnot := by
    by_cases hq : q ∈ acc.1.maybeMapped
    -- it was taken out just now
    · simp only [Block.clearPages] at hnot
      split at hnot
      next honly => exact ⟨honly, by simp_all⟩
      next => exact absurd hq hnot
    · obtain ⟨honly, hgone⟩ := h.maybeMapped q hmem hq
      exact ⟨honly, Finset.mem_union_left _ hgone⟩
  done_iff := by
    rw [h.pteBits, Finset.mem_sdiff] at hread
    exact ⟨fun _ => ⟨page, Finset.mem_union_right _ hpage, hread.1⟩, fun _ => rfl⟩
  idle := nofun

theorem skip (h : Progress b onlyCpu gone acc) (hwrite : b.pteBits .write ⊆ b.pteBits .read)
    (hnone : ∀ page ∈ pages, page ∉ acc.1.pteBits .read) : Progress b onlyCpu (gone ∪ pages) acc where
  pteBits bit := by
    have hbit : acc.1.pteBits bit ⊆ acc.1.pteBits .read := by
      rw [h.pteBits, h.pteBits]
      cases bit with
      | read => exact Finset.Subset.refl _
      | write => exact Finset.sdiff_subset_sdiff hwrite (Finset.Subset.refl _)
    have hdisjoint : Disjoint (acc.1.pteBits bit) pages := by
      rw [Finset.disjoint_left]
      exact fun page hpage hin => hnone page hin (hbit hpage)
    rw [← Finset.sup_eq_union, ← sdiff_sdiff, ← h.pteBits, Finset.sdiff_eq_self_of_disjoint hdisjoint]
  mapped := h.mapped
  gpuReadBits := h.gpuReadBits
  maybeMapped page hmem hnot :=
    (h.maybeMapped page hmem hnot).imp_right (Finset.mem_union_left _)
  done_iff := by
    rw [h.done_iff]
    constructor
    · rintro ⟨page, hgone, hread⟩
      exact ⟨page, Finset.mem_union_left _ hgone, hread⟩
    · rintro ⟨page, hpage, hread⟩
      obtain hgone | hpage := Finset.mem_union.1 hpage
      · exact ⟨page, hgone, hread⟩
      · have hout := hnone page hpage
        rw [h.pteBits, Finset.mem_sdiff, not_and_not_right] at hout
        exact ⟨page, hout hread, hread⟩
  idle := h.idle

/-- A loop whose rounds go through some pages each. -/
theorem foldl {α : Type*} {round : Block × Bool → α → Block × Bool} {pagesOf : α → Finset Nat}
    (hround : ∀ gone acc x, Progress b onlyCpu gone acc →
      Progress b onlyCpu (gone ∪ pagesOf x) (round acc x))
    (xs : List α) {target : Finset Nat}
    (htarget : ∀ page, page ∈ target ↔ page ∈ gone ∨ ∃ x ∈ xs, page ∈ pagesOf x)
    (h : Progress b onlyCpu gone acc) : Progress b onlyCpu target (xs.foldl round acc) := by
  induction xs generalizing gone acc with
  | nil =>
    have heq : target = gone := Finset.ext fun page => by simp [htarget]
    rw [heq]
    exact h
  | cons x xs ih =>
    apply ih _ (hround gone acc x h)
    intro page
    rw [htarget, Finset.mem_union, or_assoc, List.exists_mem_cons_iff]

end Progress

variable {b t : Block} {onlyCpu : Bool} {gone : Finset Nat} {acc : Block × Bool}

theorem hasValidMappingCpu_iff {first outer : Nat} : b.hasValidMappingCpu first outer = true ↔
    .cpu ∈ b.mapped ∧ ∃ page ∈ Finset.Ico first outer, page ∈ b.pteBits .read := by
  simp only [Block.hasValidMappingCpu, Bool.and_eq_true, decide_eq_true_eq, Finset.mem_Ico]
  refine and_congr_right fun _ => ⟨fun hne => ?_, ?_⟩
  · have hfound := nextBit_findNextBit hne
    exact ⟨_, ⟨hfound.le, hfound.lt⟩, of_decide_eq_true hfound.set⟩
  · rintro ⟨page, ⟨hle, hlt⟩, hread⟩ hend
    exact of_decide_eq_false (clear_of_findNextBit hend hle hlt) hread

theorem Progress.selectiveRound (hwrite : b.pteBits .write ⊆ b.pteBits .read)
    (h : Progress b onlyCpu gone acc) (page : Nat) :
    Progress b onlyCpu (gone ∪ {page}) (selectiveRound true onlyCpu acc page) := by
  unfold CpuUnmap.selectiveRound
  split
  next hread => exact h.clear (Finset.mem_singleton_self page) hread.1
  next hread =>
    apply h.skip hwrite
    intro q hq hin
    rw [Finset.mem_singleton] at hq
    exact hread ⟨hq ▸ hin, rfl⟩

theorem Progress.plainRound (hwrite : b.pteBits .write ⊆ b.pteBits .read) (hcpu : .cpu ∈ b.mapped)
    (h : Progress b onlyCpu gone acc) (r : Nat × Nat) :
    Progress b onlyCpu (gone ∪ Finset.Ico r.1 r.2) (plainRound onlyCpu acc r) := by
  unfold CpuUnmap.plainRound
  split
  next hvalid =>
    obtain ⟨-, page, hpage, hread⟩ := hasValidMappingCpu_iff.1 hvalid
    exact h.clear hpage hread
  next hvalid =>
    apply h.skip hwrite
    intro page hpage hread
    exact hvalid (hasValidMappingCpu_iff.2 ⟨h.mapped ▸ hcpu, page, hpage, hread⟩)

/-! ## What is left -/

/-- The CPU is one of the processors with mappings exactly if it maps a page. -/
def Block.CpuMapped (b : Block) : Prop := .cpu ∈ b.mapped ↔ (b.pteBits .read).Nonempty

structure Unmapped (b : Block) (gone : Finset Nat) (t : Block) : Prop where
  pteBits : ∀ bit, t.pteBits bit = b.pteBits bit \ gone
  cpuMapped : t.CpuMapped
  covers : b.MaybeMappedCovers → t.MaybeMappedCovers

theorem checkMappings_frame (acc : Block × Bool) :
    (checkMappings acc).pteBits = acc.1.pteBits ∧ (checkMappings acc).mapped ⊆ acc.1.mapped ∧
      (checkMappings acc).gpuReadBits = acc.1.gpuReadBits ∧
      (checkMappings acc).maybeMapped = acc.1.maybeMapped := by
  unfold checkMappings
  split
  · split
    · exact ⟨rfl, Finset.erase_subset .., rfl, rfl⟩
    · exact ⟨rfl, Finset.Subset.refl _, rfl, rfl⟩
  · exact ⟨rfl, Finset.Subset.refl _, rfl, rfl⟩

theorem Progress.cpuMapped (h : Progress b onlyCpu gone acc) (hcpu : b.CpuMapped) :
    (checkMappings acc).CpuMapped := by
  unfold Block.CpuMapped at *
  cases hdone : acc.2 with
  | false => simpa [checkMappings, hdone, h.idle hdone] using hcpu
  | true =>
    obtain ⟨page, -, hread⟩ := h.done_iff.1 hdone
    have hmem : .cpu ∈ acc.1.mapped := by
      rw [h.mapped, hcpu]
      exact ⟨page, hread⟩
    by_cases hempty : acc.1.pteBits .read = ∅
    · simp [checkMappings, hdone, hempty]
    · simpa [checkMappings, hdone, hempty, hmem] using Finset.nonempty_of_ne_empty hempty

theorem Progress.covers (h : Progress b b.onlyCpu gone acc) (hcpu : b.CpuMapped)
    (hcovers : b.MaybeMappedCovers) : (checkMappings acc).MaybeMappedCovers := by
  obtain ⟨hbits, hmapped, hgpu, hmaybe⟩ := checkMappings_frame acc
  rw [h.mapped] at hmapped
  rw [h.gpuReadBits] at hgpu
  intro page p hmaps
  by_contra hnot
  rw [hmaybe] at hnot
  have hold : b.Maps page p := by
    cases p with
    | cpu =>
      have hread := hmaps.2
      rw [hbits, h.pteBits, Finset.mem_sdiff] at hread
      exact ⟨hmapped hmaps.1, hread.1⟩
    | gpu index => exact ⟨hmapped hmaps.1, hgpu ▸ hmaps.2⟩
  obtain ⟨honly, hgone⟩ := h.maybeMapped page (hcovers page p hold) hnot
  cases p with
  | cpu =>
    -- a page that was gone through is not mapped by the CPU any more
    have hread := hmaps.2
    rw [hbits, h.pteBits, Finset.mem_sdiff] at hread
    exact hread.2 hgone
  | gpu index =>
    have hdone : acc.2 = true := by
      by_contra hidle
      rw [h.idle (Bool.eq_false_of_not_eq_true hidle)] at hnot
      exact hnot (hcovers page _ hold)
    obtain ⟨q, -, hread⟩ := h.done_iff.1 hdone
    have hcard : b.mapped.card = 1 := by
      simp only [Block.onlyCpu, Bool.and_eq_true, decide_eq_true_eq] at honly
      exact honly.1
    exact Processor.noConfusion (Finset.card_le_one.1 hcard.le _ (hcpu.2 ⟨q, hread⟩) _ hold.1)

theorem Progress.unmapped (h : Progress b b.onlyCpu gone acc) (hcpu : b.CpuMapped) :
    Unmapped b gone (checkMappings acc) where
  pteBits bit := by rw [(checkMappings_frame acc).1, h.pteBits]
  cpuMapped := h.cpuMapped hcpu
  covers := h.covers hcpu

theorem not_read_of_nothingToUnmap (hcpu : b.CpuMapped) (h : b.nothingToUnmap region unmapPages = true)
    {page : Nat} (hpage : page ∈ region.masked unmapPages) : page ∉ b.pteBits .read := by
  intro hread
  obtain ⟨⟨hle, hlt⟩, htest⟩ := mem_masked.1 hpage
  have hvalid : b.hasValidMappingCpu region.first region.outer = true :=
    hasValidMappingCpu_iff.2 ⟨hcpu.2 ⟨page, hread⟩, page, Finset.mem_Ico.2 ⟨hle, hlt⟩, hread⟩
  cases unmapPages with
  | none => simp [Block.nothingToUnmap, hvalid] at h
  | some mask =>
    simp only [Block.nothingToUnmap, hvalid, Bool.not_true, Bool.false_or, decide_eq_true_eq] at h
    have hmask : page ∈ mask := of_decide_eq_true htest
    exact absurd (Finset.mem_inter.2 ⟨hmask, hread⟩) (h ▸ Finset.notMem_empty page)

theorem foldl_selectiveRound_false (xs : List Nat) :
    xs.foldl (selectiveRound false onlyCpu) acc = acc := by
  induction xs with
  | nil => rfl
  | cons x xs ih => simpa [selectiveRound] using ih

theorem blockUnmapCpuSelective_cases (region : Region) (unmapPages : PageMask)
    (hwrite : b.pteBits .write ⊆ b.pteBits .read) (l : Lookup) :
    Progress b b.onlyCpu (region.masked unmapPages) (blockUnmapCpuSelective l region unmapPages b) ∨
      blockUnmapCpuSelective l region unmapPages b = (b, false) := by
  unfold blockUnmapCpuSelective
  split
  · cases l.walk with
    | false => exact .inr (foldl_selectiveRound_false _)
    | true =>
      refine .inl (Progress.foldl (fun _ _ page h => h.selectiveRound hwrite page) _ ?_ (.start b _))
      intro page
      simp [← mem_pagesInMask]
  · exact .inr rfl

theorem progress_plain (region : Region) (unmapPages : PageMask)
    (hwrite : b.pteBits .write ⊆ b.pteBits .read) (hcpu : .cpu ∈ b.mapped) :
    Progress b b.onlyCpu (region.masked unmapPages)
      ((region.subregionsInMask unmapPages).foldl (plainRound b.onlyCpu) (b, false)) := by
  apply Progress.foldl (fun _ _ r h => h.plainRound hwrite hcpu r) _ _ (.start b _)
  intro page
  rw [exists_mem_subregionsInMask]
  simp

theorem unmapped_unmapMasked (batched : Bool) (l : Lookup) (region : Region) (unmapPages : PageMask)
    (hwrite : b.pteBits .write ⊆ b.pteBits .read) (hcpu : b.CpuMapped) (hmem : .cpu ∈ b.mapped) :
    Unmapped b (region.masked unmapPages) (b.unmapMasked batched l region unmapPages) := by
  have hplain := (progress_plain region unmapPages hwrite hmem).unmapped hcpu
  simp only [Block.unmapMasked]
  split
  · obtain hall | hnone := blockUnmapCpuSelective_cases region unmapPages hwrite l
    · split
      next => exact hall.unmapped hcpu
      next hdone =>
        have hidle := Bool.eq_false_of_not_eq_true hdone
        have hacc : blockUnmapCpuSelective l region unmapPages b = (b, false) :=
          Prod.ext (hall.idle hidle) hidle
        rw [hacc]
        exact hplain
    · rw [hnone]
      exact hplain
  · exact hplain

theorem unmapped_blockUnmapCpu (batched : Bool) (l : Lookup) (region : Region) (unmapPages : PageMask)
    (hhmm : b.isHmm = false) (hwrite : b.pteBits .write ⊆ b.pteBits .read) (hcpu : b.CpuMapped) :
    Unmapped b (region.masked unmapPages) (blockUnmapCpu batched l region unmapPages b) := by
  unfold blockUnmapCpu
  split
  next hnothing =>
    have hskip := (Progress.start b b.onlyCpu).skip hwrite
      fun page hpage => not_read_of_nothingToUnmap hcpu hnothing hpage
    rw [Finset.empty_union] at hskip
    exact hskip.unmapped hcpu
  next hsome =>
    have hmem : .cpu ∈ b.mapped := by
      simp only [Block.nothingToUnmap, Bool.or_eq_true, Bool.not_eq_true', not_or] at hsome
      exact (hasValidMappingCpu_iff.1 (Bool.eq_true_of_not_eq_false hsome.1)).1
    rw [if_neg (by simp [hhmm])]
    -- the fault that is tracked has nothing to do with the mappings
    unfold Block.clearFaultAuthorized
    split
    · have h : Unmapped { b with firstFaultStamp := 0 } _ _ :=
        unmapped_unmapMasked batched l region unmapPages hwrite hcpu hmem
      exact ⟨h.pteBits, h.cpuMapped, h.covers⟩
    · exact unmapped_unmapMasked batched l region unmapPages hwrite hcpu hmem

/-- For every mapping state of a block, every region, every mask or none, and whatever the batched way
runs into: both ways leave the same PTE bits, those of the masked pages of the region being cleared
and no others, and the same bit of the CPU, and `maybe_mapped_pages` keeps all mapped pages. -/
theorem batched_unmap_equivalent (l l' : Lookup) (region : Region) (unmapPages : PageMask) (b : Block)
    (hhmm : b.isHmm = false) (hwrite : b.pteBits .write ⊆ b.pteBits .read)
    (hcpu : .cpu ∈ b.mapped ↔ (b.pteBits .read).Nonempty) :
    (∀ bit, (blockUnmapCpu true l region unmapPages b).pteBits bit =
        b.pteBits bit \ region.masked unmapPages ∧
      (blockUnmapCpu true l region unmapPages b).pteBits bit =
        (blockUnmapCpu false l' region unmapPages b).pteBits bit) ∧
    (.cpu ∈ (blockUnmapCpu true l region unmapPages b).mapped ↔
      .cpu ∈ (blockUnmapCpu false l' region unmapPages b).mapped) ∧
    (b.MaybeMappedCovers → (blockUnmapCpu true l region unmapPages b).MaybeMappedCovers) := by
  have hon := unmapped_blockUnmapCpu true l region unmapPages hhmm hwrite hcpu
  have hoff := unmapped_blockUnmapCpu false l' region unmapPages hhmm hwrite hcpu
  have hbits : ∀ bit, (blockUnmapCpu true l region unmapPages b).pteBits bit =
      (blockUnmapCpu false l' region unmapPages b).pteBits bit := fun bit => by
    rw [hon.pteBits, hoff.pteBits]
  refine ⟨fun bit => ⟨hon.pteBits bit, hbits bit⟩, ?_, hon.covers⟩
  apply hon.cpuMapped.trans
  rw [hbits]
  exact hoff.cpuMapped.symm

/-- Three pages, of which the CPU maps the first two; the last two are to be unmapped. -/
def threePages : Block where
  mapped := {.cpu}
  pteBits _ := {0, 1}
  maybeMapped := {0, 1, 2}

theorem three_pages_unmapped :
    threePages.isHmm = false ∧ threePages.pteBits .write ⊆ threePages.pteBits .read ∧
    (.cpu ∈ threePages.mapped ↔ (threePages.pteBits .read).Nonempty) ∧
    (blockUnmapCpu true ⟨true, true, true, true, true⟩ ⟨0, 3, by decide⟩ (some {1, 2})
      threePages).pteBits .read = {0, 1} \ Region.masked ⟨0, 3, by decide⟩ (some {1, 2}) := by
  refine ⟨rfl, Finset.Subset.refl _, by decide, ?_⟩
  exact ((batched_unmap_equivalent ⟨true, true, true, true, true⟩ ⟨true, true, true, true, true⟩
    ⟨0, 3, by decide⟩ (some {1, 2}) threePages rfl (Finset.Subset.refl _) (by decide)).1 .read).1

end FaultMesh.CpuUnmap
