import S3kMonitor.Machine
import Mathlib.Data.Set.BooleanAlgebra
import Mathlib.Order.CompletePartialOrder

namespace S3kMonitor

/-!
# NAPOT regions

The kernel functions `s3k_pmp_napot_begin`, `s3k_pmp_napot_end` and
`s3k_pmp_napot_addr`, as `tools/riscvpmp.py` and `tools/riscvpmpinv.py` state
them, in 64-bit arithmetic.  A region is named by its first address and by
the address after its last one, which is 0 for a region that ends at the top
of the address space.
-/

/-- `s3k_pmp_napot_begin`. -/
def s3kPmpNapotBegin (addr : Word) : Word :=
  ((addr + 1) &&& addr) <<< 2

/-- `s3k_pmp_napot_end`. -/
def s3kPmpNapotEnd (addr : Word) : Word :=
  (((addr + 1) ||| addr) + 1) <<< 2

/-- `s3k_pmp_napot_addr`. -/
def s3kPmpNapotAddr (start stop : Word) : Word :=
  (start ||| ((stop - start - 1) >>> 1)) >>> 2

/-- The test of `capman_derive_pmp` that a NAPOT address names the region. -/
def Napot (start stop : Word) : Prop :=
  start = s3kPmpNapotBegin (s3kPmpNapotAddr start stop) ∧
    stop = s3kPmpNapotEnd (s3kPmpNapotAddr start stop)

instance (start stop : Word) : Decidable (Napot start stop) :=
  inferInstanceAs (Decidable (_ ∧ _))

/-- The addresses from `start` up to the one before `stop`. -/
def region (start stop : Word) : Set Word :=
  {address | start ≤ address ∧ address ≤ stop - 1}

/-- The addresses of a region. -/
@[simp]
theorem mem_region (start stop address : Word) :
    address ∈ region start stop ↔
      start ≤ address ∧ address ≤ stop - 1 :=
  Iff.rfl

/-- The last address of a NAPOT region has its two low bits set. -/
theorem s3kPmpNapotEnd_sub_one (addr : Word) :
    s3kPmpNapotEnd addr - (1 : Word) =
      (((addr + 1) ||| addr) <<< (2 : Nat) : Word) + (3 : Word) := by
  rw [s3kPmpNapotEnd, BitVec.shiftLeft_add_distrib, BitVec.sub_eq_add_neg,
    BitVec.add_assoc]
  rfl

/-- No NAPOT address names an empty region. -/
theorem s3kPmpNapotBegin_le (addr : Word) :
    s3kPmpNapotBegin addr ≤ s3kPmpNapotEnd addr - 1 := by
  rw [s3kPmpNapotEnd_sub_one, s3kPmpNapotBegin]
  have masked :
      (addr + 1) &&& addr =
        ((addr + 1) &&& addr) &&& ((addr + 1) ||| addr) := by
    ext bit
    simp only [BitVec.getElem_and, BitVec.getElem_or]
    cases (addr + 1)[bit] <;> cases addr[bit] <;> rfl
  have below :
      (((addr + 1) &&& addr) <<< 2).toNat ≤
        (((addr + 1) ||| addr) <<< 2).toNat := by
    rw [masked, BitVec.shiftLeft_and_distrib, BitVec.toNat_and]
    exact Nat.and_le_right
  have shifted :
      (((addr + 1) ||| addr) <<< 2).toNat =
        ((addr + 1) ||| addr).toNat <<< 2 % 2 ^ 64 :=
    BitVec.toNat_shiftLeft
  have three : (3 : Word).toNat = 3 := rfl
  rw [BitVec.le_def, BitVec.toNat_add, shifted, three]
  rw [shifted] at below
  simp only [Nat.shiftLeft_eq] at below ⊢
  omega

/-- A region that passes the NAPOT test is not empty. -/
theorem Napot.start_le
    {start stop : Word}
    (napot : Napot start stop) :
    start ≤ stop - 1 := by
  obtain ⟨startEq, stopEq⟩ := napot
  rw [stopEq]
  nth_rewrite 1 [startEq]
  exact s3kPmpNapotBegin_le _

/-- Inclusion of a nonempty region is a comparison of its two ends. -/
theorem region_subset_iff
    {start stop outerStart outerStop : Word}
    (nonempty : start ≤ stop - 1) :
    region start stop ⊆ region outerStart outerStop ↔
      outerStart ≤ start ∧ stop - 1 ≤ outerStop - 1 := by
  constructor
  · intro inside
    have first := inside ⟨BitVec.le_refl start, nonempty⟩
    have last := inside ⟨nonempty, BitVec.le_refl (stop - 1)⟩
    exact ⟨first.1, last.2⟩
  · rintro ⟨startLe, stopLe⟩ address ⟨above, below⟩
    exact ⟨BitVec.le_trans startLe above, BitVec.le_trans below stopLe⟩

/-- Two nonempty regions overlap if each starts before the other one ends. -/
theorem not_disjoint_region_iff
    {start stop otherStart otherStop : Word}
    (nonempty : start ≤ stop - 1)
    (otherNonempty : otherStart ≤ otherStop - 1) :
    ¬ Disjoint (region start stop) (region otherStart otherStop) ↔
      start ≤ otherStop - 1 ∧ otherStart ≤ stop - 1 := by
  rw [Set.not_disjoint_iff]
  constructor
  · rintro ⟨address, ⟨above, below⟩, ⟨otherAbove, otherBelow⟩⟩
    exact ⟨BitVec.le_trans above otherBelow,
      BitVec.le_trans otherAbove below⟩
  · rintro ⟨before, otherBefore⟩
    by_cases isLater : otherStart ≤ start
    · exact ⟨start, ⟨BitVec.le_refl start, nonempty⟩, ⟨isLater, before⟩⟩
    · have isEarlier : start ≤ otherStart := by
        bv_omega
      exact ⟨otherStart, ⟨isEarlier, otherBefore⟩,
        ⟨BitVec.le_refl otherStart, otherNonempty⟩⟩

/-- The addresses of `count` bytes from `ptr` on, which may wrap around. -/
def span (ptr : Word) (count : Nat) : Set Word :=
  {address | ∃ offset < count, address = ptr + BitVec.ofNat 64 offset}

/-- Where bytes that all lie in a region have to start and to end. -/
def SpanFits (start stop ptr : Word) (count : Nat) : Prop :=
  start = 0 ∧ stop = 0 ∨
    start ≤ ptr ∧ ptr.toNat + count ≤ (stop - 1).toNat + 1

/-- Bytes that wrap around fit into the whole address space only. -/
theorem span_subset_region_iff
    {start stop ptr : Word}
    {count : Nat}
    (nonempty : 0 < count) :
    span ptr count ⊆ region start stop ↔ SpanFits start stop ptr count := by
  have ptrBound := ptr.isLt
  constructor
  · intro inside
    have member
        {offset : Nat}
        (inRange : offset < count) :
        ptr + BitVec.ofNat 64 offset ∈ region start stop :=
      inside ⟨offset, inRange, rfl⟩
    by_cases wraps : 2 ^ 64 < ptr.toNat + count
    · have top := (@member (2 ^ 64 - 1 - ptr.toNat) (by omega)).2
      have bottom := (@member (2 ^ 64 - ptr.toNat) (by omega)).1
      left
      bv_omega
    · have first := (@member 0 nonempty).1
      have last := (@member (count - 1) (by omega)).2
      right
      bv_omega
  · rintro fits address ⟨offset, inRange, rfl⟩
    rcases fits with ⟨rfl, rfl⟩ | ⟨startLe, stopLe⟩
    · constructor <;> bv_omega
    · constructor <;> bv_omega

end S3kMonitor
