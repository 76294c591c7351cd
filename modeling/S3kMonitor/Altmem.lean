import S3kMonitor.Capman
import S3kMonitor.Napot

namespace S3kMonitor

/-!
# The allocator of `app/altmem.c`

The heap is cut into chunks that are handed out whole, either to a caller of
`altmem_alloc` or to the stack that has grown below its own area.  The link
addresses `_heap` and `_stack` are parameters, and so is what the array holds
before `altmem_init` fills it.
-/

/-- A chunk of the heap. -/
structure Chunk where
  start : Word
  size : Word
  occupied : Bool

/-- The length of the array `chunks`. -/
def maxChunks : Nat := (appSize / chunkSize).toNat

/-- `nchunks` and the array `chunks`, whose other entries nothing reads. -/
structure Altmem where
  nchunks : Nat
  chunks : Nat → Chunk
  nchunks_le : nchunks ≤ maxChunks

/-- The loop from entry `i` on; a write past the last entry is undefined. -/
def altmemInitLoop
    (stack : Word) :
    Nat → Word → Nat → (Nat → Chunk) → Option (Nat × (Nat → Chunk))
  | room, tempCounter, i, chunks =>
      if tempCounter ≤ stack - chunkSize then
        match room with
        | 0 => none
        | room + 1 =>
            altmemInitLoop stack room (tempCounter + chunkSize) (i + 1)
              (Function.update chunks i
                { start := tempCounter, size := chunkSize, occupied := false })
      else
        some (i, chunks)

/-- The loop fills no more entries than there is room for. -/
theorem altmemInitLoop_le
    {stack tempCounter : Word}
    {room i n : Nat}
    {chunks after : Nat → Chunk}
    (inited :
      altmemInitLoop stack room tempCounter i chunks = some (n, after)) :
    n ≤ i + room := by
  induction room generalizing tempCounter i chunks with
  | zero =>
      unfold altmemInitLoop at inited
      split at inited
      · cases inited
      · cases inited
        exact Nat.le_refl _
  | succ room inductionHypothesis =>
      unfold altmemInitLoop at inited
      split at inited
      · have bound := inductionHypothesis inited
        omega
      · cases inited
        exact Nat.le_add_right _ _

/-- `altmem_init`, if the loop stays in its array. -/
def altmemInit (heap stack : Word) (chunks : Nat → Chunk) : Option Altmem :=
  match inited : altmemInitLoop stack maxChunks heap 0 chunks with
  | some (nchunks, chunks) =>
      some
        { nchunks := nchunks
          chunks := chunks
          nchunks_le := Nat.zero_add maxChunks ▸ altmemInitLoop_le inited }
  | none => none

/-- `addr >= start && addr < start + size`. -/
def Chunk.Holds (chunk : Chunk) (addr : Word) : Prop :=
  chunk.start ≤ addr ∧ addr < chunk.start + chunk.size

instance (chunk : Chunk) (addr : Word) : Decidable (chunk.Holds addr) :=
  inferInstanceAs (Decidable (_ ∧ _))

/-- `chunks[i].occupied = occupied` -/
def Altmem.setOccupied (altmem : Altmem) (i : Nat) (occupied : Bool) :
    Altmem :=
  { altmem with
    chunks := fun j =>
      if j = i then { altmem.chunks j with occupied := occupied }
      else altmem.chunks j }

section Calls

variable (altmem : Altmem)

/-- The shape of every search in the file. -/
def Altmem.firstChunk (test : Chunk → Bool) : Int :=
  firstSlot (List.range altmem.nchunks) fun i => test (altmem.chunks i)

/-- The first component is the pointer, which is `NULL` if it is 0. -/
def altmemAlloc (size : Word) : Word × Altmem :=
  if size > chunkSize then
    (0, altmem)
  else
    let i := altmem.firstChunk fun chunk => !chunk.occupied
    if i = -1 then
      (0, altmem)
    else
      ((altmem.chunks i.toNat).start, altmem.setOccupied i.toNat true)

/-- `altmem_free` -/
def altmemFree (ptr : Word) : Altmem :=
  let i := altmem.firstChunk fun chunk => chunk.start = ptr
  if i = -1 then altmem else altmem.setOccupied i.toNat false

/-- `altmem_findchunk` -/
def altmemFindchunk (addr : Word) : Int :=
  altmem.firstChunk fun chunk => chunk.Holds addr

/-- `altmem_isoccupied` -/
def altmemIsoccupied (i : Int) : Int :=
  if i < 0 ∨ i ≥ altmem.nchunks then -1
  else if (altmem.chunks i.toNat).occupied then 1 else 0

/-- `altmem_stackexpansion` -/
def altmemStackexpansion (ptr : Word) : Bool × Altmem :=
  let i := altmemFindchunk altmem ptr
  if altmemIsoccupied altmem i ≠ 0 then
    (false, altmem)
  else
    (true, altmem.setOccupied i.toNat true)

/-- `altmem_get_start` -/
def altmemGetStart (i : Int) : Word :=
  if i < 0 ∨ i ≥ altmem.nchunks then 0 else (altmem.chunks i.toNat).start

/-- `altmem_get_size` -/
def altmemGetSize (i : Int) : Word :=
  if i < 0 ∨ i ≥ altmem.nchunks then 0 else (altmem.chunks i.toNat).size

end Calls

section SetOccupied

variable
  {altmem : Altmem}
  {i j : Nat}
  {occupied : Bool}

/-- Marking a chunk does not change how many there are. -/
@[simp]
theorem setOccupied_nchunks :
    (altmem.setOccupied i occupied).nchunks = altmem.nchunks :=
  rfl

/-- It does not move a chunk. -/
@[simp]
theorem setOccupied_start :
    ((altmem.setOccupied i occupied).chunks j).start =
      (altmem.chunks j).start := by
  simp only [Altmem.setOccupied]
  split <;> rfl

/-- It does not resize a chunk. -/
@[simp]
theorem setOccupied_size :
    ((altmem.setOccupied i occupied).chunks j).size =
      (altmem.chunks j).size := by
  simp only [Altmem.setOccupied]
  split <;> rfl

/-- It changes the mark of this chunk only. -/
@[simp]
theorem setOccupied_occupied :
    ((altmem.setOccupied i occupied).chunks j).occupied =
      if j = i then occupied else (altmem.chunks j).occupied := by
  simp only [Altmem.setOccupied]
  split <;> rfl

/-- A chunk still holds the same addresses. -/
@[simp]
theorem setOccupied_holds
    {addr : Word} :
    ((altmem.setOccupied i occupied).chunks j).Holds addr ↔
      (altmem.chunks j).Holds addr := by
  simp [Chunk.Holds]

end SetOccupied

section Cases

variable
  (altmem : Altmem)
  (addr ptr size : Word)

/-- A search finds the first chunk that passes, or none passes. -/
theorem firstChunk_cases (test : Chunk → Bool) :
    (∃ i < altmem.nchunks,
      test (altmem.chunks i) = true ∧ altmem.firstChunk test = i) ∨
    altmem.firstChunk test = -1 ∧
      ∀ i < altmem.nchunks, test (altmem.chunks i) = false := by
  rcases firstSlot_cases (List.range altmem.nchunks)
      (fun i => test (altmem.chunks i)) with
    ⟨i, member, passes, found⟩ | ⟨notFound, nonePasses⟩
  · exact Or.inl ⟨i, List.mem_range.mp member, passes, found⟩
  · exact Or.inr
      ⟨notFound, fun i inRange => nonePasses i (List.mem_range.mpr inRange)⟩

/-- An allocation takes a free chunk whole, or changes nothing. -/
theorem altmemAlloc_cases :
    (∃ i < altmem.nchunks,
      size ≤ chunkSize ∧
        (altmem.chunks i).occupied = false ∧
        altmemAlloc altmem size =
          ((altmem.chunks i).start, altmem.setOccupied i true)) ∨
    (size > chunkSize ∨
        ∀ i < altmem.nchunks, (altmem.chunks i).occupied = true) ∧
      altmemAlloc altmem size = (0, altmem) := by
  by_cases tooLarge : size > chunkSize
  · exact Or.inr ⟨Or.inl tooLarge, if_pos tooLarge⟩
  · have small : size ≤ chunkSize := BitVec.not_lt.mp tooLarge
    rw [altmemAlloc, if_neg tooLarge]
    rcases firstChunk_cases altmem (fun chunk => !chunk.occupied) with
      ⟨i, inRange, isFree, found⟩ | ⟨notFound, allTaken⟩
    · refine Or.inl ⟨i, inRange, small, by simpa using isFree, ?_⟩
      simp [found]
    · refine Or.inr ⟨Or.inr fun i inRange => ?_, by simp [notFound]⟩
      simpa using allTaken i inRange

/-- `altmem_free` clears one mark, or finds no chunk and does nothing. -/
theorem altmemFree_cases :
    (∃ i < altmem.nchunks,
      (altmem.chunks i).start = ptr ∧
        altmemFree altmem ptr = altmem.setOccupied i false) ∨
    (∀ i < altmem.nchunks, (altmem.chunks i).start ≠ ptr) ∧
      altmemFree altmem ptr = altmem := by
  rw [altmemFree]
  rcases firstChunk_cases altmem (fun chunk => chunk.start = ptr) with
    ⟨i, inRange, starts, found⟩ | ⟨notFound, noneStarts⟩
  · exact Or.inl ⟨i, inRange, by simpa using starts, by simp [found]⟩
  · refine Or.inr ⟨fun i inRange => ?_, by simp [notFound]⟩
    simpa using noneStarts i inRange

/-- `altmem_findchunk` finds the chunk that holds the address, or none. -/
theorem altmemFindchunk_cases :
    (∃ i < altmem.nchunks,
      (altmem.chunks i).Holds addr ∧ altmemFindchunk altmem addr = i) ∨
    (∀ i < altmem.nchunks, ¬ (altmem.chunks i).Holds addr) ∧
      altmemFindchunk altmem addr = -1 := by
  rcases firstChunk_cases altmem (fun chunk => chunk.Holds addr) with
    ⟨i, inRange, holds, found⟩ | ⟨notFound, noneHolds⟩
  · exact Or.inl ⟨i, inRange, by simpa using holds, found⟩
  · refine Or.inr ⟨fun i inRange => ?_, notFound⟩
    simpa using noneHolds i inRange

/-- The index -1 is out of range. -/
@[simp]
theorem altmemIsoccupied_none : altmemIsoccupied altmem (-1) = -1 := by
  simp [altmemIsoccupied]

/-- The mark of a chunk in range. -/
theorem altmemIsoccupied_chunk
    {i : Nat}
    (inRange : i < altmem.nchunks) :
    altmemIsoccupied altmem i =
      if (altmem.chunks i).occupied then 1 else 0 := by
  rw [altmemIsoccupied, if_neg (by omega), Int.toNat_natCast]

/-- The beginning of a chunk in range. -/
theorem altmemGetStart_chunk
    {i : Nat}
    (inRange : i < altmem.nchunks) :
    altmemGetStart altmem i = (altmem.chunks i).start := by
  rw [altmemGetStart, if_neg (by omega), Int.toNat_natCast]

/-- The size of a chunk in range. -/
theorem altmemGetSize_chunk
    {i : Nat}
    (inRange : i < altmem.nchunks) :
    altmemGetSize altmem i = (altmem.chunks i).size := by
  rw [altmemGetSize, if_neg (by omega), Int.toNat_natCast]

/-- The stack takes the free chunk at its pointer, or nothing changes. -/
theorem altmemStackexpansion_cases :
    (∃ i < altmem.nchunks,
      (altmem.chunks i).Holds addr ∧
        altmemFindchunk altmem addr = i ∧
        (altmem.chunks i).occupied = false ∧
        altmemStackexpansion altmem addr =
          (true, altmem.setOccupied i true)) ∨
    ((∀ i < altmem.nchunks, ¬ (altmem.chunks i).Holds addr) ∨
        ∃ i < altmem.nchunks,
          (altmem.chunks i).Holds addr ∧
            altmemFindchunk altmem addr = i ∧
            (altmem.chunks i).occupied = true) ∧
      altmemStackexpansion altmem addr = (false, altmem) := by
  rw [altmemStackexpansion]
  rcases altmemFindchunk_cases altmem addr with
    ⟨i, inRange, holds, found⟩ | ⟨noneHolds, notFound⟩
  · rw [found, altmemIsoccupied_chunk altmem inRange]
    by_cases taken : (altmem.chunks i).occupied = true
    · exact Or.inr
        ⟨Or.inr ⟨i, inRange, holds, rfl, taken⟩, by simp [taken]⟩
    · have isFree := Bool.eq_false_iff.mpr taken
      exact Or.inl ⟨i, inRange, holds, rfl, isFree, by simp [isFree]⟩
  · exact Or.inr ⟨Or.inl noneHolds, by simp [notFound]⟩

end Cases

section Tiling

/-- The link addresses that `altmem_init` is written for. -/
structure HeapBounds (heap stack : Word) : Prop where
  heap_le : heap ≤ stack
  chunk_le : chunkSize ≤ stack
  size_le : stack - heap ≤ appSize

/-- The number of whole chunks between the two addresses. -/
def tileCount (heap stack : Word) : Nat :=
  ((stack - heap) / chunkSize).toNat

/-- Where chunk `i` begins. -/
def tileStart (heap : Word) (i : Nat) : Word :=
  heap + BitVec.ofNat 64 (i * chunkSize.toNat)

/-- Number and places of the chunks, which only `altmem_init` sets. -/
structure Tiled (heap stack : Word) (altmem : Altmem) : Prop where
  nchunks_eq : altmem.nchunks = tileCount heap stack
  start_eq :
    ∀ i < altmem.nchunks, (altmem.chunks i).start = tileStart heap i
  size_eq : ∀ i < altmem.nchunks, (altmem.chunks i).size = chunkSize

variable
  {heap stack : Word}
  (bounds : HeapBounds heap stack)
  {i j : Nat}

/-- The next chunk begins where this one ends. -/
theorem tileStart_succ :
    tileStart heap (i + 1) = tileStart heap i + chunkSize := by
  simp only [tileStart, chunkSize]
  bv_omega

include bounds

/-- The chunks fill the heap up to a rest of less than one. -/
theorem tileCount_eq :
    tileCount heap stack = (stack.toNat - heap.toNat) / 0x1000 := by
  have heapLe := bounds.heap_le
  have difference : (stack - heap).toNat = stack.toNat - heap.toNat := by
    bv_omega
  rw [tileCount, BitVec.toNat_udiv, difference]
  rfl

/-- They all have room in the array. -/
theorem tileCount_le : tileCount heap stack ≤ maxChunks := by
  have heapLe := bounds.heap_le
  have sizeLe := bounds.size_le
  rw [tileCount_eq bounds]
  simp only [appSize] at sizeLe
  have most : maxChunks = 16 := rfl
  bv_omega

/-- The chunk starts up to the last chunk's end do not wrap around. -/
theorem tileStart_toNat
    (inRange : i ≤ tileCount heap stack) :
    (tileStart heap i).toNat = heap.toNat + i * 0x1000 := by
  have heapLe := bounds.heap_le
  rw [tileCount_eq bounds] at inRange
  simp only [tileStart, chunkSize]
  bv_omega

/-- The loop goes on exactly for the chunks that fit below the stack. -/
theorem tileStart_le_iff
    (inRange : i ≤ tileCount heap stack) :
    tileStart heap i ≤ stack - chunkSize ↔ i < tileCount heap stack := by
  have heapLe := bounds.heap_le
  have chunkLe := bounds.chunk_le
  have startEq := tileStart_toNat bounds inRange
  have countEq := tileCount_eq bounds
  simp only [chunkSize] at chunkLe ⊢
  bv_omega

/-- The loop fills the rest of the chunks that fit below the stack. -/
theorem altmemInitLoop_eq
    {room : Nat}
    {chunks : Nat → Chunk}
    (inRange : i ≤ tileCount heap stack)
    (enough : tileCount heap stack ≤ i + room) :
    altmemInitLoop stack room (tileStart heap i) i chunks =
      some
        (tileCount heap stack,
          fun j =>
            if i ≤ j ∧ j < tileCount heap stack then
              { start := tileStart heap j
                size := chunkSize
                occupied := false }
            else
              chunks j) := by
  induction room generalizing i chunks with
  | zero =>
      have atEnd : i = tileCount heap stack := by
        omega
      unfold altmemInitLoop
      rw [if_neg (by rw [tileStart_le_iff bounds inRange]; omega), ← atEnd]
      congr 2
      funext j
      rw [if_neg (by omega)]
  | succ room inductionHypothesis =>
      unfold altmemInitLoop
      by_cases atEnd : i = tileCount heap stack
      · rw [if_neg (by rw [tileStart_le_iff bounds inRange]; omega), ← atEnd]
        congr 2
        funext j
        rw [if_neg (by omega)]
      · rw [if_pos ((tileStart_le_iff bounds inRange).mpr (by omega))]
        simp only [← tileStart_succ]
        rw [inductionHypothesis (by omega) (by omega)]
        congr 2
        funext j
        by_cases here : j = i
        · subst here
          rw [if_neg (by omega), if_pos (by omega), Function.update_self]
        · rw [Function.update_of_ne here]
          exact if_congr (by omega) rfl rfl

/-- `altmem_init` fills the chunks that fit and touches no other entry. -/
theorem altmemInit_fills (chunks : Nat → Chunk) :
    ∃ altmem,
      altmemInit heap stack chunks = some altmem ∧
        altmem.nchunks = tileCount heap stack ∧
        ∀ j,
          altmem.chunks j =
            if j < tileCount heap stack then
              { start := tileStart heap j
                size := chunkSize
                occupied := false }
            else
              chunks j := by
  have countLe := tileCount_le bounds
  have firstStart : tileStart heap 0 = heap := by
    simp [tileStart]
  have inited :=
    @altmemInitLoop_eq _ _ bounds 0 maxChunks chunks (Nat.zero_le _) (by omega)
  rw [firstStart] at inited
  unfold altmemInit
  split
  · next nchunks filled found =>
      cases inited.symm.trans found
      exact ⟨_, rfl, rfl, fun j => by simp⟩
  · next missing =>
      cases inited.symm.trans missing

/-- `altmem_init` tiles the heap with free chunks. -/
theorem altmemInit_tiles (chunks : Nat → Chunk) :
    ∃ altmem,
      altmemInit heap stack chunks = some altmem ∧
        Tiled heap stack altmem ∧
        ∀ i < altmem.nchunks, (altmem.chunks i).occupied = false := by
  obtain ⟨altmem, inited, countEq, filled⟩ := altmemInit_fills bounds chunks
  refine ⟨altmem, inited, ⟨countEq, ?_, ?_⟩, ?_⟩ <;>
    · intro i inRange
      rw [filled i, if_pos (countEq ▸ inRange)]

end Tiling

namespace Tiled

variable
  {heap stack : Word}
  (bounds : HeapBounds heap stack)
  {altmem : Altmem}
  (tiled : Tiled heap stack altmem)
  {i j : Nat}

/-- A mark leaves the tiling as it is. -/
theorem setOccupied
    {occupied : Bool} :
    Tiled heap stack altmem →
      Tiled heap stack (altmem.setOccupied i occupied) := by
  intro tiled
  exact
    ⟨tiled.nchunks_eq, by simpa using tiled.start_eq,
      by simpa using tiled.size_eq⟩

include bounds tiled

/-- A chunk in numbers: it lies between the two link addresses. -/
theorem start_toNat
    (inRange : i < altmem.nchunks) :
    (altmem.chunks i).start.toNat = heap.toNat + i * 0x1000 ∧
      heap.toNat + i * 0x1000 + 0x1000 ≤ stack.toNat := by
  have countEq := tileCount_eq bounds
  have inCount : i < tileCount heap stack := tiled.nchunks_eq ▸ inRange
  refine
    ⟨by rw [tiled.start_eq i inRange, tileStart_toNat bounds inCount.le], ?_⟩
  omega

/-- Chunks with the same beginning are the same. -/
theorem start_injective
    (inRange : i < altmem.nchunks)
    (otherInRange : j < altmem.nchunks)
    (same : (altmem.chunks i).start = (altmem.chunks j).start) :
    i = j := by
  have first := (tiled.start_toNat bounds inRange).1
  have second := (tiled.start_toNat bounds otherInRange).1
  rw [same] at first
  omega

/-- Different chunks begin in different places. -/
theorem start_ne
    (inRange : i < altmem.nchunks)
    (otherInRange : j < altmem.nchunks)
    (apart : i ≠ j) :
    (altmem.chunks i).start ≠ (altmem.chunks j).start :=
  fun same => apart (tiled.start_injective bounds inRange otherInRange same)

/-- No chunk begins at the null pointer. -/
theorem start_ne_zero
    (heapPos : 0 < heap)
    (inRange : i < altmem.nchunks) :
    (altmem.chunks i).start ≠ 0 := by
  have startEq := (tiled.start_toNat bounds inRange).1
  bv_omega

/-- An address is in the chunk that its distance from the heap names. -/
theorem holds_iff
    {addr : Word}
    (inRange : i < altmem.nchunks) :
    (altmem.chunks i).Holds addr ↔
      heap.toNat + i * 0x1000 ≤ addr.toNat ∧
        addr.toNat < heap.toNat + i * 0x1000 + 0x1000 := by
  have startEq := tiled.start_toNat bounds inRange
  have sizeEq := tiled.size_eq i inRange
  rw [Chunk.Holds, sizeEq]
  simp only [chunkSize]
  bv_omega

/-- No address is in two chunks. -/
theorem holds_unique
    {addr : Word}
    (inRange : i < altmem.nchunks)
    (otherInRange : j < altmem.nchunks)
    (holds : (altmem.chunks i).Holds addr)
    (otherHolds : (altmem.chunks j).Holds addr) :
    i = j := by
  have first := (tiled.holds_iff bounds inRange).mp holds
  have second := (tiled.holds_iff bounds otherInRange).mp otherHolds
  omega

end Tiled

end S3kMonitor
