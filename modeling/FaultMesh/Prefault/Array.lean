import Mathlib

/-!
# Pages of a prefaulted array

FrontLib guards an array in managed memory by a table with one status word per page, one counter
per block of 512 pages, a flag and a count of published pages. This module has the address
arithmetic: which pages an array has, on which page an element begins, and where a page is touched.
-/

namespace FaultMesh

def pfBlkPages : Nat := 512

/-- An array as handed to `prefault_array_init`. -/
structure PrefaultArray where
  base : Nat
  nElems : Nat
  elemSize : Nat
  pageShift : Nat
  elemSize_pos : 0 < elemSize
  /-- The end of the array does not wrap. -/
  fits : base + nElems * elemSize < 2 ^ 64
  /-- Rounding its size up to pages does not wrap. -/
  rounds : base % 2 ^ pageShift + nElems * elemSize + 2 ^ pageShift ≤ 2 ^ 64

namespace PrefaultArray

variable (a : PrefaultArray)

def pageBytes : Nat := 2 ^ a.pageShift

/-- `aligned_base`: the low bits of the base are cleared. -/
def alignedBase : Nat := a.base - a.base % a.pageBytes

/-- `raw_end` or `end_addr`. -/
def endAddr : Nat := (a.base + a.nElems * a.elemSize) % 2 ^ 64

def nPages : Nat :=
  ((a.endAddr + 2 ^ 64 - a.alignedBase) % 2 ^ 64 + a.pageBytes - 1) % 2 ^ 64 / a.pageBytes

/-- `page_of`: the page of the first byte of an element. -/
def pageOf (i : Nat) : Nat :=
  (((a.base + i * a.elemSize) % 2 ^ 64 + 2 ^ 64 - a.alignedBase) % 2 ^ 64) / a.pageBytes

/-- `pf_touch_page`: the address that is read, if any. -/
def touchAddr (page : Nat) : Option Nat :=
  let pageBase := (a.alignedBase + page * a.pageBytes) % 2 ^ 64
  let touchAddr := if pageBase < a.base then a.base else pageBase
  if touchAddr < a.endAddr then some touchAddr else none

def offset : Nat := a.base % a.pageBytes

/-! ## The arithmetic without overflow -/

theorem pageBytes_pos : 0 < a.pageBytes := Nat.two_pow_pos _

theorem alignedBase_add_offset : a.alignedBase + a.offset = a.base :=
  Nat.sub_add_cancel (Nat.mod_le ..)

theorem endAddr_eq : a.endAddr = a.base + a.nElems * a.elemSize := Nat.mod_eq_of_lt a.fits

theorem sub_alignedBase {k : Nat} (hk : k ≤ a.nElems * a.elemSize) :
    ((a.base + k) % 2 ^ 64 + 2 ^ 64 - a.alignedBase) % 2 ^ 64 = a.offset + k := by
  have hfits := a.fits
  have hbase := a.alignedBase_add_offset
  rw [Nat.mod_eq_of_lt (show a.base + k < 2 ^ 64 by omega)]
  have hsum : a.base + k + 2 ^ 64 - a.alignedBase = a.offset + k + 2 ^ 64 := by omega
  rw [hsum, Nat.add_mod_right]
  exact Nat.mod_eq_of_lt (by omega)

theorem nPages_eq :
    a.nPages = (a.offset + a.nElems * a.elemSize + a.pageBytes - 1) / a.pageBytes := by
  have hrounds : a.offset + a.nElems * a.elemSize + a.pageBytes ≤ 2 ^ 64 := a.rounds
  have hpos := a.pageBytes_pos
  rw [nPages, endAddr, a.sub_alignedBase (Nat.le_refl _), Nat.mod_eq_of_lt (by omega)]

theorem lt_nPages_iff (page : Nat) :
    page < a.nPages ↔ page * a.pageBytes < a.offset + a.nElems * a.elemSize := by
  have hpos := a.pageBytes_pos
  rw [nPages_eq, ← Nat.add_one_le_iff, Nat.le_div_iff_mul_le hpos, Nat.add_mul, Nat.one_mul]
  omega

theorem index_mul_le {i : Nat} (hi : i < a.nElems) :
    i * a.elemSize + a.elemSize ≤ a.nElems * a.elemSize := by
  have := Nat.mul_le_mul_right a.elemSize (Nat.succ_le_of_lt hi)
  rwa [Nat.succ_mul] at this

theorem pageOf_eq {i : Nat} (hi : i < a.nElems) :
    a.pageOf i = (a.offset + i * a.elemSize) / a.pageBytes := by
  have := a.index_mul_le hi
  rw [pageOf, a.sub_alignedBase (by omega)]

theorem div_lt_nPages {k : Nat} (hk : k < a.nElems * a.elemSize) :
    (a.offset + k) / a.pageBytes < a.nPages := by
  rw [lt_nPages_iff]
  calc
    (a.offset + k) / a.pageBytes * a.pageBytes ≤ a.offset + k := Nat.div_mul_le_self ..
    _ < a.offset + a.nElems * a.elemSize := Nat.add_lt_add_left hk _

theorem pageOf_lt {i : Nat} (hi : i < a.nElems) : a.pageOf i < a.nPages := by
  have hle := a.index_mul_le hi
  have hpos := a.elemSize_pos
  rw [a.pageOf_eq hi]
  exact a.div_lt_nPages (by omega)

/-! ## Touching -/

theorem touchAddr_spec {page : Nat} (hpage : page < a.nPages) (hne : 0 < a.nElems) :
    ∃ k < a.nElems * a.elemSize, a.touchAddr page = some (a.base + k) ∧
      (a.offset + k) / a.pageBytes = page := by
  have hpos := a.pageBytes_pos
  have hfits := a.fits
  have hbase := a.alignedBase_add_offset
  have hlt := (a.lt_nPages_iff page).1 hpage
  have hbytes : 0 < a.nElems * a.elemSize := Nat.mul_pos hne a.elemSize_pos
  have hoff : a.offset < a.pageBytes := Nat.mod_lt _ hpos
  have hsmall : (a.alignedBase + page * a.pageBytes) % 2 ^ 64 =
      a.alignedBase + page * a.pageBytes := Nat.mod_eq_of_lt (by omega)
  simp only [touchAddr, hsmall, a.endAddr_eq]
  by_cases hfirst : a.alignedBase + page * a.pageBytes < a.base
  -- the first page, if the array begins inside it
  · have hzero : page = 0 := by
      by_contra hne
      have := Nat.le_mul_of_pos_left a.pageBytes (Nat.pos_of_ne_zero hne)
      omega
    refine ⟨0, hbytes, ?_, ?_⟩
    · rw [if_pos hfirst, if_pos (by omega), Nat.add_zero]
    · rw [hzero, Nat.add_zero]
      exact Nat.div_eq_of_lt hoff
  · refine ⟨page * a.pageBytes - a.offset, by omega, ?_, ?_⟩
    · have haddr : a.alignedBase + page * a.pageBytes =
          a.base + (page * a.pageBytes - a.offset) := by omega
      rw [if_neg hfirst, if_pos (by omega), haddr]
    · have hpage' : a.offset + (page * a.pageBytes - a.offset) = page * a.pageBytes := by omega
      rw [hpage', Nat.mul_div_cancel _ hpos]

theorem touchAddr_eq_none {page : Nat} (hempty : a.nElems = 0) : a.touchAddr page = none := by
  have hend : a.endAddr = a.base := by
    rw [endAddr_eq, hempty, Nat.zero_mul, Nat.add_zero]
  simp only [touchAddr, hend]
  apply if_neg
  split <;> omega

end PrefaultArray

/-! ## Blocks of pages -/

/-- `pf_init_blk_counts`: the pages that a block lacks count as published. -/
def pfInitBlkCounts (nPages blk : Nat) : Nat :=
  let inBlk := nPages - blk * pfBlkPages
  pfBlkPages - if pfBlkPages < inBlk then pfBlkPages else inBlk

def pagesOfBlk (nPages blk : Nat) : Finset Nat :=
  (Finset.range nPages).filter fun page => page / pfBlkPages = blk

theorem card_pagesOfBlk (nPages blk : Nat) :
    (pagesOfBlk nPages blk).card = min (nPages - blk * pfBlkPages) pfBlkPages := by
  have heq : pagesOfBlk nPages blk =
      Finset.Ico (blk * pfBlkPages) (min nPages (blk * pfBlkPages + pfBlkPages)) := by
    ext page
    rw [pagesOfBlk, Finset.mem_filter, Finset.mem_range, Finset.mem_Ico]
    simp only [pfBlkPages]
    omega
  rw [heq, Nat.card_Ico]
  omega

theorem pfInitBlkCounts_eq (nPages blk : Nat) :
    pfInitBlkCounts nPages blk = pfBlkPages - (pagesOfBlk nPages blk).card := by
  rw [card_pagesOfBlk]
  simp only [pfInitBlkCounts]
  split <;> omega

theorem card_pagesOfBlk_le (nPages blk : Nat) : (pagesOfBlk nPages blk).card ≤ pfBlkPages := by
  rw [card_pagesOfBlk]
  exact Nat.min_le_right ..

end FaultMesh
