import S3kMonitor.Allocations

namespace S3kMonitor

/-!
# The chunks as a tiling of the heap

`altmem_init` cuts the heap into consecutive chunks, and `altmem_findchunk`
searches them one by one.  Together they compute a division: the number of the
chunk is the distance from the start of the heap in whole chunks.
-/

/-- The chunk number of an address, as a closed form. -/
def chunkNumber (heap : Word) (nchunks : Nat) (addr : Word) : Int :=
  if heap ≤ addr ∧ addr < heap + BitVec.ofNat 64 nchunks * chunkSize then
    ((addr - heap) / chunkSize).toNat
  else
    -1

/-- The chunks lie one behind the other between the two link addresses. -/
structure TilesHeap (heap stack : Word) (altmem : Altmem) : Prop where
  nchunks_eq : altmem.nchunks = ((stack - heap) / chunkSize).toNat
  first : 0 < altmem.nchunks → (altmem.chunks 0).start = heap
  consecutive :
    ∀ i, i + 1 < altmem.nchunks →
      (altmem.chunks (i + 1)).start =
        (altmem.chunks i).start + (altmem.chunks i).size
  size_eq : ∀ i < altmem.nchunks, (altmem.chunks i).size = chunkSize
  below_stack :
    ∀ i < altmem.nchunks,
      (altmem.chunks i).start.toNat + (altmem.chunks i).size.toNat ≤
        stack.toNat
  disjoint :
    ∀ i < altmem.nchunks, ∀ j < altmem.nchunks, i ≠ j →
      ∀ addr,
        ¬ ((altmem.chunks i).Holds addr ∧ (altmem.chunks j).Holds addr)

/-- The search finds the chunk of every address, and its interval. -/
structure InvertsTiling (heap : Word) (altmem : Altmem) : Prop where
  findchunk_eq :
    ∀ addr,
      altmemFindchunk altmem addr = chunkNumber heap altmem.nchunks addr
  interval :
    ∀ addr,
      altmemFindchunk altmem addr ≠ -1 →
        let i := altmemFindchunk altmem addr
        altmemGetStart altmem i ≤ addr ∧
          addr.toNat <
            (altmemGetStart altmem i).toNat + (altmemGetSize altmem i).toNat

namespace Tiled

variable
  {heap stack : Word}
  (bounds : HeapBounds heap stack)
  {altmem : Altmem}
  (tiled : Tiled heap stack altmem)
include bounds tiled

/-- A table that is filled as `altmem_init` fills it is a tiling. -/
theorem tilesHeap : TilesHeap heap stack altmem := by
  constructor
  case nchunks_eq =>
    exact tiled.nchunks_eq
  case first =>
    intro positive
    rw [tiled.start_eq 0 positive]
    simp [tileStart]
  case consecutive =>
    intro i inRange
    rw [tiled.start_eq (i + 1) inRange, tiled.start_eq i (by omega),
      tiled.size_eq i (by omega), tileStart_succ]
  case size_eq =>
    exact tiled.size_eq
  case below_stack =>
    intro i inRange
    obtain ⟨startEq, belowStack⟩ := tiled.start_toNat bounds inRange
    have sizeEq : chunkSize.toNat = 0x1000 := rfl
    rw [tiled.size_eq i inRange, startEq, sizeEq]
    exact belowStack
  case disjoint =>
    rintro i inRange j otherInRange apart addr ⟨holds, otherHolds⟩
    exact apart
      (tiled.holds_unique bounds inRange otherInRange holds otherHolds)

/-- The end of the last chunk, which does not wrap around. -/
theorem heapEnd_toNat :
    (heap + BitVec.ofNat 64 altmem.nchunks * chunkSize).toNat =
      heap.toNat + altmem.nchunks * 0x1000 := by
  have heapLe := bounds.heap_le
  have countEq := tileCount_eq bounds
  have most := altmem.nchunks_le
  have mostEq : maxChunks = 16 := rfl
  have stackBound := stack.isLt
  rw [← tiled.nchunks_eq] at countEq
  have sizeEq : chunkSize.toNat = 0x1000 := rfl
  have noWrap : altmem.nchunks % 2 ^ 64 = altmem.nchunks :=
    Nat.mod_eq_of_lt (by omega)
  rw [BitVec.le_def] at heapLe
  rw [BitVec.toNat_add, BitVec.toNat_mul, BitVec.toNat_ofNat, sizeEq, noWrap]
  omega

/-- The number of the chunk is the distance from the heap in chunks. -/
theorem findchunk_eq (addr : Word) :
    altmemFindchunk altmem addr =
      chunkNumber heap altmem.nchunks addr := by
  have heapEnd := tiled.heapEnd_toNat bounds
  have sizeEq : chunkSize.toNat = 0x1000 := rfl
  unfold chunkNumber
  rcases altmemFindchunk_cases altmem addr with
    ⟨i, inRange, holds, found⟩ | ⟨noneHolds, notFound⟩
  · obtain ⟨above, below⟩ := (tiled.holds_iff bounds inRange).mp holds
    have heapLe : heap ≤ addr := by
      rw [BitVec.le_def]
      omega
    have inHeap : addr < heap + BitVec.ofNat 64 altmem.nchunks * chunkSize := by
      rw [BitVec.lt_def, heapEnd]
      omega
    have distance : (addr - heap).toNat = addr.toNat - heap.toNat :=
      BitVec.toNat_sub_of_le heapLe
    rw [found, if_pos ⟨heapLe, inHeap⟩, BitVec.toNat_udiv, distance, sizeEq]
    omega
  · rw [notFound, if_neg]
    rintro ⟨heapLe, inHeap⟩
    rw [BitVec.le_def] at heapLe
    rw [BitVec.lt_def, heapEnd] at inHeap
    have inRange : (addr.toNat - heap.toNat) / 0x1000 < altmem.nchunks := by
      omega
    refine noneHolds _ inRange ((tiled.holds_iff bounds inRange).mpr ?_)
    omega

theorem invertsTiling : InvertsTiling heap altmem := by
  constructor
  case findchunk_eq =>
    exact tiled.findchunk_eq bounds
  case interval =>
    intro addr
    rcases altmemFindchunk_cases altmem addr with
      ⟨i, inRange, holds, found⟩ | ⟨-, notFound⟩
    · intro _
      obtain ⟨startEq, -⟩ := tiled.start_toNat bounds inRange
      obtain ⟨-, below⟩ := (tiled.holds_iff bounds inRange).mp holds
      have sizeEq : chunkSize.toNat = 0x1000 := rfl
      dsimp only
      rw [found, altmemGetStart_chunk altmem inRange,
        altmemGetSize_chunk altmem inRange, tiled.size_eq i inRange, startEq,
        sizeEq]
      exact ⟨holds.1, below⟩
    · exact fun isFound => absurd notFound isFound

end Tiled

end S3kMonitor
