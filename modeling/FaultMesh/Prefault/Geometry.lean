import FaultMesh.Prefault.Array

/-!
# The table of a prefaulted array

The table that `prefault_array_init` allocates has a status word for each page, a counter for each
block of pages, the flag `all_resident` and the count `published`, one behind the other. The code works
with their addresses.
-/

namespace FaultMesh

def pfNblks (nPages : Nat) : Nat := (nPages + pfBlkPages - 1) % 2 ^ 64 / pfBlkPages

def pfBlkCnt (status nPages : Nat) : Nat := (status + 4 * nPages) % 2 ^ 64

def pfAllResident (status nPages : Nat) : Nat :=
  ((status + 4 * nPages) % 2 ^ 64 + 4 * pfNblks nPages) % 2 ^ 64

def pfPublished (status nPages : Nat) : Nat := (pfAllResident status nPages + 4) % 2 ^ 64

/-- The words that `prefault_array_init` allocates. -/
def pfWords (nPages : Nat) : Nat := (nPages + pfNblks nPages + 2) % 2 ^ 64

inductive PfWord where
  | status (page : Nat)
  | blkCnt (blk : Nat)
  | allResident
  | published
  deriving DecidableEq, Repr

namespace PfWord

def Of (nPages : Nat) : PfWord → Prop
  | status page => page < nPages
  | blkCnt blk => blk < pfNblks nPages
  | allResident | published => True

def addr (base nPages : Nat) : PfWord → Nat
  | status page => (base + 4 * page) % 2 ^ 64
  | blkCnt blk => (pfBlkCnt base nPages + 4 * blk) % 2 ^ 64
  | allResident => pfAllResident base nPages
  | published => pfPublished base nPages

def index (nPages : Nat) : PfWord → Nat
  | status page => page
  | blkCnt blk => nPages + blk
  | allResident => nPages + pfNblks nPages
  | published => nPages + pfNblks nPages + 1

variable {base nPages : Nat} {w w' : PfWord}

theorem index_lt (h : w.Of nPages) : w.index nPages < nPages + pfNblks nPages + 2 := by
  cases w <;> simp only [index, Of] at h ⊢ <;> omega

theorem index_ne (h : w.Of nPages) (h' : w'.Of nPages) (hne : w ≠ w') :
    w.index nPages ≠ w'.index nPages := by
  intro heq
  apply hne
  cases w <;> cases w' <;> simp only [index, Of, status.injEq, blkCnt.injEq] at h h' heq ⊢ <;> omega

theorem addr_eq (htable : base + 4 * (nPages + pfNblks nPages + 2) ≤ 2 ^ 64) (h : w.Of nPages) :
    w.addr base nPages = base + 4 * w.index nPages := by
  cases w <;> simp only [addr, index, Of, pfBlkCnt, pfAllResident, pfPublished] at h ⊢ <;> omega

end PfWord

/-! ## The counters of the blocks -/

variable {nPages blk : Nat}

theorem pfNblks_spec (h : nPages + pfBlkPages ≤ 2 ^ 64) :
    nPages ≤ pfBlkPages * pfNblks nPages ∧ ∀ blk, blk < pfNblks nPages ↔ blk * pfBlkPages < nPages := by
  simp only [pfNblks, pfBlkPages] at h ⊢
  rw [Nat.mod_eq_of_lt (by omega)]
  exact ⟨by omega, fun blk => by omega⟩

theorem sum_pfInitBlkCounts (nPages nblks : Nat) :
    ∑ blk ∈ Finset.range nblks, pfInitBlkCounts nPages blk + min nPages (pfBlkPages * nblks) =
      pfBlkPages * nblks := by
  induction nblks with
  | zero => simp
  | succ nblks ih =>
    rw [Finset.sum_range_succ, pfInitBlkCounts_eq, card_pagesOfBlk]
    simp only [pfBlkPages] at ih ⊢
    omega

theorem pfInitBlkCounts_le (h : blk * pfBlkPages < nPages) : pfInitBlkCounts nPages blk ≤ 511 := by
  rw [pfInitBlkCounts_eq, card_pagesOfBlk]
  simp only [pfBlkPages] at h ⊢
  omega

/-! ## Main result -/

def PrefaultArray.OnPage (a : PrefaultArray) (page addr : Nat) : Prop :=
  a.alignedBase + page * a.pageBytes ≤ addr ∧ addr < a.alignedBase + (page + 1) * a.pageBytes

theorem PrefaultArray.exists_touchAddr (a : PrefaultArray) (hne : 0 < a.nElems) {page : Nat}
    (hpage : page < a.nPages) : ∃ addr, a.touchAddr page = some addr ∧ a.base ≤ addr ∧
      addr < a.base + a.nElems * a.elemSize ∧ a.OnPage page addr := by
  obtain ⟨k, hk, htouch, hdiv⟩ := a.touchAddr_spec hpage hne
  have hbase := a.alignedBase_add_offset
  have hle := Nat.div_mul_le_self (a.offset + k) a.pageBytes
  have hlt := Nat.lt_mul_of_div_lt (Nat.lt_succ_self ((a.offset + k) / a.pageBytes)) a.pageBytes_pos
  rw [hdiv, Nat.succ_eq_add_one] at hlt
  rw [hdiv] at hle
  exact ⟨_, htouch, Nat.le_add_right .., Nat.add_lt_add_left hk _, by omega, by omega⟩

/-- For every array with an element whose addresses do not wrap, and a table in the address space:
elements lie on pages and in blocks of the array, every page is touched at a byte of the array on it,
no two words of the table meet, all of them are allocated, and the counters begin with the pages that
the last block lacks. -/
theorem geometry_in_range (a : PrefaultArray) (status : Nat) (hne : 0 < a.nElems)
    (htable : status + 4 * (a.nPages + pfNblks a.nPages + 2) ≤ 2 ^ 64) :
    (∀ i < a.nElems, a.pageOf i < a.nPages ∧ a.pageOf i / pfBlkPages < pfNblks a.nPages) ∧
    (∀ page < a.nPages, ∃ addr, a.touchAddr page = some addr ∧ a.base ≤ addr ∧
      addr < a.base + a.nElems * a.elemSize ∧ a.OnPage page addr) ∧
    (∀ w w' : PfWord, w.Of a.nPages → w'.Of a.nPages → w ≠ w' →
      w.addr status a.nPages + 4 ≤ w'.addr status a.nPages ∨
        w'.addr status a.nPages + 4 ≤ w.addr status a.nPages) ∧
    (∀ w : PfWord, w.Of a.nPages → status ≤ w.addr status a.nPages ∧
      w.addr status a.nPages + 4 ≤ status + 4 * pfWords a.nPages) ∧
    ∑ blk ∈ Finset.range (pfNblks a.nPages), pfInitBlkCounts a.nPages blk =
      512 * pfNblks a.nPages - a.nPages ∧
    ∀ blk < pfNblks a.nPages, pfInitBlkCounts a.nPages blk ≤ 511 := by
  have hsmall : a.nPages + pfBlkPages ≤ 2 ^ 64 := by simp only [pfBlkPages]; omega
  obtain ⟨hcover, hblk⟩ := pfNblks_spec hsmall
  refine ⟨fun i hi => ?_, fun page => a.exists_touchAddr hne, fun w w' hw hw' hdiff => ?_,
    fun w hw => ?_, ?_, fun blk hlt => pfInitBlkCounts_le ((hblk blk).1 hlt)⟩
  · have hlt := a.pageOf_lt hi
    exact ⟨hlt, (hblk _).2 ((Nat.div_mul_le_self ..).trans_lt hlt)⟩
  · have hindex := PfWord.index_ne hw hw' hdiff
    rw [PfWord.addr_eq htable hw, PfWord.addr_eq htable hw']
    omega
  · have hindex := PfWord.index_lt hw
    have hwords : pfWords a.nPages = a.nPages + pfNblks a.nPages + 2 := Nat.mod_eq_of_lt (by omega)
    rw [PfWord.addr_eq htable hw, hwords]
    omega
  · have hsum := sum_pfInitBlkCounts a.nPages (pfNblks a.nPages)
    rw [Nat.min_eq_left hcover] at hsum
    exact Nat.eq_sub_of_add_eq hsum

/-- Two thousand elements of four bytes that begin in the middle of a page. -/
theorem unaligned_array_in_range :
    let a : PrefaultArray := ⟨6148, 2000, 4, 12, by decide, by decide, by decide⟩
    a.nPages = 3 ∧ a.pageOf 1999 < a.nPages ∧ a.pageOf 1999 / pfBlkPages < pfNblks a.nPages := by
  intro a
  exact ⟨by decide, (geometry_in_range a 4096 (by decide) (by decide)).1 1999 (by decide)⟩

end FaultMesh
