import Mathlib.Data.BitVec
import Mathlib.Logic.Function.Basic

namespace ByteAreas

/-!
# Areas of a memory of bytes

An area is given by its first address and a number of bytes, and wraps around
at the end of memory.  A forward copy goes byte by byte and may run into its
own source.
-/

section Areas

variable
  (mem : BitVec 64 → BitVec 8)
  (dst src : BitVec 64)
  (value : BitVec 8)
  {i : Nat}

/-- The first `count` bytes from `dst` on have the value. -/
def filled (count : Nat) : BitVec 64 → BitVec 8 :=
  fun addr => if (addr - dst).toNat < count then value else mem addr

/--
A forward copy of `count` bytes to `dst`.  Byte `i` of the source was
`source i`; the target begins `distance` bytes behind the source, and from
there on the copy repeats what it has copied.
-/
def forwardCopy (source : Nat → BitVec 8) (distance count : Nat) :
    BitVec 64 → BitVec 8 :=
  fun addr =>
    let k := (addr - dst).toNat
    if k < count then source (k % distance) else mem addr

/-- The first `count` bytes from `src` on, copied one after the other. -/
def copied (count : Nat) : BitVec 64 → BitVec 8 :=
  forwardCopy mem dst (fun i => mem (src + BitVec.ofNat 64 i))
    (dst - src).toNat count

/-- No byte has been written yet. -/
theorem filled_zero : filled mem dst value 0 = mem := by
  funext addr
  exact if_neg (Nat.not_lt_zero _)

/-- No byte has been copied yet. -/
theorem copied_zero : copied mem dst src 0 = mem := by
  funext addr
  rw [copied, forwardCopy, if_neg (Nat.not_lt_zero _)]

/-- The place of an address in an area. -/
theorem offset_toNat
    (base addr : BitVec 64)
    (inRange : i < 2 ^ 64) :
    (addr - base).toNat = i ↔ addr = base + BitVec.ofNat 64 i := by
  constructor
  · rintro rfl
    rw [BitVec.ofNat_toNat, BitVec.setWidth_eq]
    grind
  · rintro rfl
    have same : base + BitVec.ofNat 64 i - base = BitVec.ofNat 64 i := by
      grind
    rw [same, BitVec.toNat_ofNat, Nat.mod_eq_of_lt inRange]

/-- A store to the next byte makes the area one byte longer. -/
theorem filled_succ
    (inRange : i < 2 ^ 64) :
    Function.update (filled mem dst value i) (dst + BitVec.ofNat 64 i) value =
      filled mem dst value (i + 1) := by
  funext addr
  have here := offset_toNat dst addr inRange
  by_cases isNext : addr = dst + BitVec.ofNat 64 i
  · have offset := here.mpr isNext
    rw [isNext, Function.update_self, ← isNext, filled, if_pos (by omega)]
  · have offset := mt here.mp isNext
    rw [Function.update_of_ne isNext, filled, filled]
    by_cases before : (addr - dst).toNat < i
    · rw [if_pos before, if_pos (by omega)]
    · rw [if_neg before, if_neg (by omega)]

/-- The byte that is copied next is the one that the closed form names. -/
theorem copied_source
    (inRange : i < 2 ^ 64) :
    copied mem dst src i (src + BitVec.ofNat 64 i) =
      mem (src + BitVec.ofNat 64 (i % (dst - src).toNat)) := by
  have offset :
      (src + BitVec.ofNat 64 i - dst).toNat =
        (2 ^ 64 - (dst - src).toNat + i) % 2 ^ 64 := by
    have back : src + BitVec.ofNat 64 i - dst =
        BitVec.ofNat 64 i - (dst - src) := by
      grind
    rw [back, BitVec.toNat_sub, BitVec.toNat_ofNat, Nat.mod_eq_of_lt inRange]
  have distance := (dst - src).isLt
  rw [copied, forwardCopy, offset]
  by_cases behind : (dst - src).toNat ≤ i
  · have wrapped :
        (2 ^ 64 - (dst - src).toNat + i) % 2 ^ 64 = i - (dst - src).toNat := by
      omega
    rw [wrapped]
    by_cases same : (dst - src).toNat = 0
    · rw [if_neg (by omega), same, Nat.mod_zero]
    · rw [if_pos (by omega), ← Nat.mod_eq_sub_mod behind]
  · rw [if_neg (by omega), Nat.mod_eq_of_lt (by omega)]

/-- A load and a store make the copy one byte longer. -/
theorem copied_succ
    (inRange : i < 2 ^ 64) :
    Function.update (copied mem dst src i) (dst + BitVec.ofNat 64 i)
        (copied mem dst src i (src + BitVec.ofNat 64 i)) =
      copied mem dst src (i + 1) := by
  rw [copied_source mem dst src inRange]
  funext addr
  have here := offset_toNat dst addr inRange
  by_cases isNext : addr = dst + BitVec.ofNat 64 i
  · have offset := here.mpr isNext
    rw [isNext, Function.update_self, ← isNext, copied, forwardCopy,
      if_pos (by omega), offset]
  · have offset := mt here.mp isNext
    rw [Function.update_of_ne isNext, copied, forwardCopy, copied, forwardCopy]
    by_cases before : (addr - dst).toNat < i
    · rw [if_pos before, if_pos (by omega)]
    · rw [if_neg before, if_neg (by omega)]

/-- A copy is what its loads and stores, in their order, come to. -/
theorem copied_eq_foldl
    (count : Nat)
    (inRange : count ≤ 2 ^ 64) :
    copied mem dst src count =
      (List.range count).foldl
        (fun mem i =>
          Function.update mem (dst + BitVec.ofNat 64 i)
            (mem (src + BitVec.ofNat 64 i)))
        mem := by
  induction count with
  | zero =>
      exact copied_zero mem dst src
  | succ count inductionHypothesis =>
      rw [List.range_succ, List.foldl_append,
        ← inductionHypothesis (Nat.le_of_succ_le inRange)]
      exact (copied_succ mem dst src inRange).symm

/-- A copy of bytes that are in memory is a copy of this part of memory. -/
theorem forwardCopy_eq_copied
    {source : Nat → BitVec 8}
    {count : Nat}
    (held : ∀ i < count, mem (src + BitVec.ofNat 64 i) = source i) :
    forwardCopy mem dst source (dst - src).toNat count =
      copied mem dst src count := by
  funext addr
  rw [copied, forwardCopy, forwardCopy]
  by_cases inArea : (addr - dst).toNat < count
  · rw [if_pos inArea, if_pos inArea,
      held _ ((Nat.mod_le _ _).trans_lt inArea)]
  · rw [if_neg inArea, if_neg inArea]

/-- What a forward copy puts at its byte `i`. -/
theorem forwardCopy_offset
    {source : Nat → BitVec 8}
    {distance count : Nat}
    (before : i < count)
    (inRange : count ≤ 2 ^ 64) :
    forwardCopy mem dst source distance count (dst + BitVec.ofNat 64 i) =
      source (i % distance) := by
  have offset :=
    (offset_toNat dst (dst + BitVec.ofNat 64 i)
      (before.trans_le inRange)).mpr rfl
  rw [forwardCopy, offset, if_pos before]

/-- Behind its target a copy changes nothing. -/
theorem forwardCopy_outside
    {source : Nat → BitVec 8}
    {distance count : Nat}
    {addr : BitVec 64}
    (outside : count ≤ (addr - dst).toNat) :
    forwardCopy mem dst source distance count addr = mem addr :=
  if_neg (Nat.not_lt.mpr outside)

end Areas

/-- Each byte of the area is the one at its place in the source. -/
def CopiesExactly
    (mem final : BitVec 64 → BitVec 8)
    (dst src count : BitVec 64) :
    Prop :=
  (∀ i < count.toNat,
    final (dst + BitVec.ofNat 64 i) = mem (src + BitVec.ofNat 64 i)) ∧
  ∀ addr, count.toNat ≤ (addr - dst).toNat → final addr = mem addr

/-- What a copy puts at its byte `i`. -/
theorem copied_offset
    (mem : BitVec 64 → BitVec 8)
    (dst src : BitVec 64)
    {count : BitVec 64}
    {i : Nat}
    (before : i < count.toNat) :
    copied mem dst src count.toNat (dst + BitVec.ofNat 64 i) =
      mem (src + BitVec.ofNat 64 (i % (dst - src).toNat)) :=
  forwardCopy_offset mem dst before count.isLt.le

/-- A copy is exact whatever is there unless it runs into its own source. -/
theorem copied_exactly_iff (dst src count : BitVec 64) :
    (∀ mem, CopiesExactly mem (copied mem dst src count.toNat) dst src count) ↔
      ¬ (0 < (dst - src).toNat ∧ (dst - src).toNat < count.toNat) := by
  constructor
  · rintro exact ⟨apart, inside⟩
    -- Only the byte where the target begins differs from the others.
    let marked : BitVec 64 → BitVec 8 := fun addr => if addr = dst then 1 else 0
    have same := (exact marked).1 (dst - src).toNat inside
    rw [copied_offset marked dst src inside, Nat.mod_self] at same
    have back : src + BitVec.ofNat 64 (dst - src).toNat = dst := by
      rw [BitVec.ofNat_toNat, BitVec.setWidth_eq]
      grind
    have start : src + BitVec.ofNat 64 0 ≠ dst := by
      intro isStart
      have zero : dst - src = 0 := by
        grind
      rw [zero] at apart
      exact absurd apart (by decide)
    simp only [marked, back, if_neg start] at same
    cases same
  · intro outside mem
    refine ⟨fun i before => ?_, fun addr behind => ?_⟩
    · rw [copied_offset mem dst src before]
      by_cases same : (dst - src).toNat = 0
      · rw [same, Nat.mod_zero]
      · rw [Nat.mod_eq_of_lt (by omega)]
    · exact forwardCopy_outside mem dst behind

end ByteAreas
