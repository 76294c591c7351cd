import S3kMonitor.Altmem
import S3kMonitor.Lib.Pool

namespace S3kMonitor

open Pool

/-!
# Whole runs of the allocator

A ledger keeps, next to the table of chunks, what the allocator has handed
out and got back.  The flags of the table say at any time which chunks are
out, no chunk is handed out twice, and calls that are to be refused change
nothing.
-/

/-- A call of the allocator. -/
inductive AltmemCall where
  | alloc (size : Word)
  | free (ptr : Word)
  | stackexpansion (ptr : Word)

/-- The table, and who has got what so far. -/
structure Ledger where
  altmem : Altmem
  history : List (Pool.Event Word)

namespace Ledger

variable (ledger : Ledger)

/-- A result that is not null is handed out. -/
def alloc (size : Word) : Ledger :=
  let result := altmemAlloc ledger.altmem size
  { altmem := result.2
    history :=
      if result.1 = 0 then ledger.history
      else .taken result.1 :: ledger.history }

/-- What is freed is given back, whoever had it. -/
def free (ptr : Word) : Ledger :=
  { altmem := altmemFree ledger.altmem ptr
    history := .released ptr :: ledger.history }

/-- The stack takes the chunk that holds the pointer. -/
def stackexpansion (ptr : Word) : Ledger :=
  let result := altmemStackexpansion ledger.altmem ptr
  let start := altmemGetStart result.2 (altmemFindchunk result.2 ptr)
  { altmem := result.2
    history :=
      if result.1 then .taken start :: ledger.history else ledger.history }

/-- One call of any kind. -/
def call : AltmemCall → Ledger
  | .alloc size => ledger.alloc size
  | .free ptr => ledger.free ptr
  | .stackexpansion ptr => ledger.stackexpansion ptr

/-- What a sequence of calls leaves. -/
def calls (calls : List AltmemCall) : Ledger :=
  calls.foldl call ledger

/-- The flags follow the history, in which no chunk was taken twice. -/
structure Balanced (heap stack : Word) : Prop where
  tiled : Tiled heap stack ledger.altmem
  occupied_iff :
    ∀ i < ledger.altmem.nchunks,
      (ledger.altmem.chunks i).occupied = true ↔
        Out ledger.history (ledger.altmem.chunks i).start
  exclusive : Exclusive ledger.history
  taken_start :
    ∀ handle,
      .taken handle ∈ ledger.history →
      ∃ i < ledger.altmem.nchunks,
        (ledger.altmem.chunks i).start = handle

end Ledger

section Balance

variable
  {heap stack : Word}
  (bounds : HeapBounds heap stack)
  {ledger : Ledger}
  (balanced : ledger.Balanced heap stack)

include balanced in
/-- A pointer that starts no chunk leaves the balance when it is freed. -/
theorem Ledger.Balanced.release_foreign
    {ptr : Word}
    (foreign :
      ∀ i < ledger.altmem.nchunks, (ledger.altmem.chunks i).start ≠ ptr) :
    Ledger.Balanced
      { altmem := ledger.altmem, history := .released ptr :: ledger.history }
      heap stack where
  tiled := balanced.tiled
  occupied_iff i inRange := by
    rw [out_released_iff, and_iff_right (foreign i inRange).symm]
    exact balanced.occupied_iff i inRange
  exclusive := exclusive_released_iff.mpr balanced.exclusive
  taken_start handle member :=
    balanced.taken_start handle (by simpa using member)

include bounds balanced

/-- Taking a free chunk keeps the balance. -/
theorem Ledger.Balanced.take
    {i : Nat}
    (inRange : i < ledger.altmem.nchunks)
    (isFree : (ledger.altmem.chunks i).occupied = false) :
    Ledger.Balanced
      { altmem := ledger.altmem.setOccupied i true
        history := .taken (ledger.altmem.chunks i).start :: ledger.history }
      heap stack where
  tiled := balanced.tiled.setOccupied
  occupied_iff j otherInRange := by
    simp only [setOccupied_nchunks] at otherInRange
    rw [setOccupied_occupied, setOccupied_start, out_taken_iff,
      ← balanced.occupied_iff j otherInRange]
    by_cases same : j = i
    · simp [same]
    · have apart :=
        balanced.tiled.start_ne bounds inRange otherInRange (Ne.symm same)
      simp [same, apart]
  exclusive := by
    rw [exclusive_taken_iff, ← balanced.occupied_iff i inRange, isFree]
    exact ⟨Bool.false_ne_true, balanced.exclusive⟩
  taken_start handle member := by
    simp only [setOccupied_nchunks, setOccupied_start]
    rcases List.mem_cons.mp member with isThis | earlier
    · cases isThis
      exact ⟨i, inRange, rfl⟩
    · exact balanced.taken_start handle earlier

/-- Releasing a chunk keeps the balance. -/
theorem Ledger.Balanced.release
    {i : Nat}
    (inRange : i < ledger.altmem.nchunks) :
    Ledger.Balanced
      { altmem := ledger.altmem.setOccupied i false
        history :=
          .released (ledger.altmem.chunks i).start :: ledger.history }
      heap stack where
  tiled := balanced.tiled.setOccupied
  occupied_iff j otherInRange := by
    simp only [setOccupied_nchunks] at otherInRange
    rw [setOccupied_occupied, setOccupied_start, out_released_iff,
      ← balanced.occupied_iff j otherInRange]
    by_cases same : j = i
    · simp [same]
    · have apart :=
        balanced.tiled.start_ne bounds inRange otherInRange (Ne.symm same)
      simp [same, apart]
  exclusive := exclusive_released_iff.mpr balanced.exclusive
  taken_start handle member := by
    simp only [setOccupied_nchunks, setOccupied_start]
    exact balanced.taken_start handle (by simpa using member)

variable (heapPos : 0 < heap)

include heapPos in
/-- An allocation keeps the books balanced. -/
theorem Ledger.Balanced.alloc (size : Word) :
    (ledger.alloc size).Balanced heap stack := by
  rw [Ledger.alloc]
  rcases altmemAlloc_cases ledger.altmem size with
    ⟨i, inRange, -, isFree, allocated⟩ | ⟨-, refused⟩
  · have notNull := balanced.tiled.start_ne_zero bounds heapPos inRange
    simp only [allocated, if_neg notNull]
    exact balanced.take bounds inRange isFree
  · simpa [refused] using balanced

/-- So does a free. -/
theorem Ledger.Balanced.free (ptr : Word) :
    (ledger.free ptr).Balanced heap stack := by
  rw [Ledger.free]
  rcases altmemFree_cases ledger.altmem ptr with
    ⟨i, inRange, rfl, freed⟩ | ⟨foreign, unchanged⟩
  · rw [freed]
    exact balanced.release bounds inRange
  · rw [unchanged]
    exact balanced.release_foreign foreign

/-- So does an expansion of the stack. -/
theorem Ledger.Balanced.stackexpansion (ptr : Word) :
    (ledger.stackexpansion ptr).Balanced heap stack := by
  rw [Ledger.stackexpansion]
  rcases altmemStackexpansion_cases ledger.altmem ptr with
    ⟨i, inRange, holds, -, isFree, expanded⟩ | ⟨-, refused⟩
  · have balancedAfter := balanced.take bounds inRange isFree
    have startEq :
        altmemGetStart (ledger.altmem.setOccupied i true)
            (altmemFindchunk (ledger.altmem.setOccupied i true) ptr) =
          (ledger.altmem.chunks i).start := by
      rcases altmemFindchunk_cases (ledger.altmem.setOccupied i true) ptr with
        ⟨j, foundInRange, foundHolds, found⟩ | ⟨noneHolds, -⟩
      · have same : j = i :=
          balanced.tiled.holds_unique bounds foundInRange inRange
            (setOccupied_holds.mp foundHolds) holds
        rw [found, altmemGetStart_chunk _ foundInRange, setOccupied_start,
          same]
      · exact absurd (setOccupied_holds.mpr holds) (noneHolds i inRange)
    simpa [expanded, startEq] using balancedAfter
  · simpa [refused] using balanced

include heapPos in
/-- So does every call. -/
theorem Ledger.Balanced.call (call : AltmemCall) :
    (ledger.call call).Balanced heap stack := by
  cases call with
  | alloc size =>
      exact balanced.alloc bounds heapPos size
  | free ptr =>
      exact balanced.free bounds ptr
  | stackexpansion ptr =>
      exact balanced.stackexpansion bounds ptr

include heapPos in
/-- Every sequence of calls keeps the balance. -/
theorem Ledger.Balanced.calls (calls : List AltmemCall) :
    (ledger.calls calls).Balanced heap stack := by
  induction calls generalizing ledger with
  | nil =>
      exact balanced
  | cons call calls inductionHypothesis =>
      exact inductionHypothesis (balanced.call bounds heapPos call)

end Balance

/-- A fresh table with nothing handed out is balanced. -/
theorem balanced_of_free
    {heap stack : Word}
    {altmem : Altmem}
    (tiled : Tiled heap stack altmem)
    (allFree : ∀ i < altmem.nchunks, (altmem.chunks i).occupied = false) :
    Ledger.Balanced { altmem := altmem, history := [] } heap stack where
  tiled := tiled
  occupied_iff i inRange := by
    simp [allFree i inRange]
  exclusive := exclusive_nil
  taken_start handle member := by
    cases member

/-- What the allocator owes its callers after some calls. -/
structure AllocatorCorrect (initial : Altmem) (ledger : Ledger) : Prop where
  nchunks_eq : ledger.altmem.nchunks = initial.nchunks
  start_eq :
    ∀ i < initial.nchunks,
      (ledger.altmem.chunks i).start = (initial.chunks i).start
  size_eq :
    ∀ i < initial.nchunks,
      (ledger.altmem.chunks i).size = (initial.chunks i).size
  occupied_iff :
    ∀ i < initial.nchunks,
      (ledger.altmem.chunks i).occupied = true ↔
        Out ledger.history (ledger.altmem.chunks i).start
  alloc_fresh :
    ∀ size, ∀ i < initial.nchunks,
      (ledger.altmem.chunks i).occupied = true →
      (altmemAlloc ledger.altmem size).1 ≠ (ledger.altmem.chunks i).start
  live_apart :
    ∀ later middle earlier first second,
      ledger.history =
        later ++ .taken second :: (middle ++ .taken first :: earlier) →
      .released first ∉ middle →
      Disjoint (span first chunkSize.toNat) (span second chunkSize.toNat)
  alloc_null_iff :
    ∀ size,
      (altmemAlloc ledger.altmem size).1 = 0 ↔
        size > chunkSize ∨
          ∀ i < initial.nchunks, (ledger.altmem.chunks i).occupied = true
  alloc_null_unchanged :
    ∀ size,
      (altmemAlloc ledger.altmem size).1 = 0 →
      (altmemAlloc ledger.altmem size).2 = ledger.altmem
  free_foreign :
    ∀ ptr,
      (∀ i < initial.nchunks, (ledger.altmem.chunks i).start ≠ ptr) →
      altmemFree ledger.altmem ptr = ledger.altmem
  expansion_refused :
    ∀ ptr,
      (∀ i < initial.nchunks,
        (ledger.altmem.chunks i).Holds ptr →
        (ledger.altmem.chunks i).occupied = true) →
      altmemStackexpansion ledger.altmem ptr = (false, ledger.altmem)

/-- The blocks of two chunks do not overlap. -/
theorem Tiled.disjoint_span
    {heap stack : Word}
    (bounds : HeapBounds heap stack)
    {altmem : Altmem}
    (tiled : Tiled heap stack altmem)
    {i j : Nat}
    (inRange : i < altmem.nchunks)
    (otherInRange : j < altmem.nchunks)
    (apart : i ≠ j) :
    Disjoint
      (span (altmem.chunks i).start chunkSize.toNat)
      (span (altmem.chunks j).start chunkSize.toNat) := by
  have first := tiled.start_toNat bounds inRange
  have second := tiled.start_toNat bounds otherInRange
  have size : chunkSize.toNat = 0x1000 := rfl
  rw [Set.disjoint_left, size]
  rintro address ⟨offset, below, rfl⟩ ⟨otherOffset, otherBelow, same⟩
  have sameDistance := congrArg BitVec.toNat same
  rw [BitVec.toNat_add, BitVec.toNat_add, BitVec.toNat_ofNat,
    BitVec.toNat_ofNat, first.1, second.1] at sameDistance
  omega

section Answers

variable
  {heap stack : Word}
  (bounds : HeapBounds heap stack)
  (heapPos : 0 < heap)
  {altmem : Altmem}
  (tiled : Tiled heap stack altmem)
include bounds heapPos tiled

/-- Null means that the size is too large or nothing is free. -/
theorem Tiled.alloc_null_iff (size : Word) :
    (altmemAlloc altmem size).1 = 0 ↔
      size > chunkSize ∨
        ∀ i < altmem.nchunks, (altmem.chunks i).occupied = true := by
  rcases altmemAlloc_cases altmem size with
    ⟨i, inRange, small, isFree, allocated⟩ | ⟨reason, refused⟩
  · have notNull := tiled.start_ne_zero bounds heapPos inRange
    simp only [allocated, notNull, false_iff, not_or]
    refine ⟨BitVec.not_lt.mpr small, fun allTaken => ?_⟩
    rw [allTaken i inRange] at isFree
    cases isFree
  · simp only [refused, true_iff]
    exact reason

/-- An allocation that fails changes nothing. -/
theorem Tiled.alloc_null_unchanged
    {size : Word}
    (isNull : (altmemAlloc altmem size).1 = 0) :
    (altmemAlloc altmem size).2 = altmem := by
  rcases altmemAlloc_cases altmem size with
    ⟨i, inRange, -, -, allocated⟩ | ⟨-, refused⟩
  · rw [allocated] at isNull
    exact absurd isNull (tiled.start_ne_zero bounds heapPos inRange)
  · rw [refused]

/-- The start of an occupied chunk is not returned. -/
theorem Tiled.alloc_fresh
    {i : Nat}
    (inRange : i < altmem.nchunks)
    (taken : (altmem.chunks i).occupied = true)
    (size : Word) :
    (altmemAlloc altmem size).1 ≠ (altmem.chunks i).start := by
  rcases altmemAlloc_cases altmem size with
    ⟨j, otherInRange, -, isFree, allocated⟩ | ⟨-, refused⟩
  · have apart : j ≠ i := by
      rintro rfl
      rw [taken] at isFree
      cases isFree
    rw [allocated]
    exact tiled.start_ne bounds otherInRange inRange apart
  · rw [refused]
    exact (tiled.start_ne_zero bounds heapPos inRange).symm

end Answers

/-- An allocation that is made while another one is live is apart from it. -/
theorem Ledger.Balanced.live_apart
    {heap stack : Word}
    (bounds : HeapBounds heap stack)
    {ledger : Ledger}
    (balanced : ledger.Balanced heap stack)
    {later middle earlier : List (Pool.Event Word)}
    {first second : Word}
    (shape :
      ledger.history =
        later ++ .taken second :: (middle ++ .taken first :: earlier))
    (kept : .released first ∉ middle) :
    Disjoint (span first chunkSize.toNat) (span second chunkSize.toNat) := by
  have apart := Exclusive.ne_of_kept (shape ▸ balanced.exclusive) kept
  obtain ⟨i, inRange, rfl⟩ := balanced.taken_start first (by simp [shape])
  obtain ⟨j, otherInRange, rfl⟩ :=
    balanced.taken_start second (by simp [shape])
  refine balanced.tiled.disjoint_span bounds inRange otherInRange ?_
  rintro rfl
  exact apart rfl

/-- Freeing a pointer of no chunk changes nothing. -/
theorem altmemFree_foreign
    {altmem : Altmem}
    {ptr : Word}
    (foreign : ∀ i < altmem.nchunks, (altmem.chunks i).start ≠ ptr) :
    altmemFree altmem ptr = altmem := by
  rcases altmemFree_cases altmem ptr with
    ⟨i, inRange, starts, -⟩ | ⟨-, unchanged⟩
  · exact absurd starts (foreign i inRange)
  · exact unchanged

/-- The stack does not expand into a chunk in use. -/
theorem altmemStackexpansion_refused
    {altmem : Altmem}
    {ptr : Word}
    (closed :
      ∀ i < altmem.nchunks,
        (altmem.chunks i).Holds ptr →
        (altmem.chunks i).occupied = true) :
    altmemStackexpansion altmem ptr = (false, altmem) := by
  rcases altmemStackexpansion_cases altmem ptr with
    ⟨i, inRange, holds, -, isFree, -⟩ | ⟨-, refused⟩
  · rw [closed i inRange holds] at isFree
    cases isFree
  · exact refused

/-- A balanced ledger owes nothing. -/
theorem Ledger.Balanced.allocatorCorrect
    {heap stack : Word}
    (bounds : HeapBounds heap stack)
    (heapPos : 0 < heap)
    {initial : Altmem}
    (initialTiled : Tiled heap stack initial)
    {ledger : Ledger}
    (balanced : ledger.Balanced heap stack) :
    AllocatorCorrect initial ledger := by
  have tiled := balanced.tiled
  have sameCount : initial.nchunks = ledger.altmem.nchunks :=
    initialTiled.nchunks_eq.trans tiled.nchunks_eq.symm
  constructor
  case nchunks_eq =>
    exact sameCount.symm
  case start_eq =>
    intro i inRange
    rw [tiled.start_eq i (sameCount ▸ inRange),
      initialTiled.start_eq i inRange]
  case size_eq =>
    intro i inRange
    rw [tiled.size_eq i (sameCount ▸ inRange), initialTiled.size_eq i inRange]
  case occupied_iff =>
    rw [sameCount]
    exact balanced.occupied_iff
  case alloc_fresh =>
    intro size i inRange taken
    exact tiled.alloc_fresh bounds heapPos (sameCount ▸ inRange) taken size
  case live_apart =>
    intro later middle earlier first second shape kept
    exact balanced.live_apart bounds shape kept
  case alloc_null_iff =>
    rw [sameCount]
    exact tiled.alloc_null_iff bounds heapPos
  case alloc_null_unchanged =>
    intro size isNull
    exact tiled.alloc_null_unchanged bounds heapPos isNull
  case free_foreign =>
    rw [sameCount]
    exact fun ptr foreign => altmemFree_foreign foreign
  case expansion_refused =>
    rw [sameCount]
    exact fun ptr closed => altmemStackexpansion_refused closed

/-- After `altmem_init` the allocator is correct over every run. -/
theorem altmem_correct_over_runs
    {heap stack : Word}
    (bounds : HeapBounds heap stack)
    (heapPos : 0 < heap)
    (chunks : Nat → Chunk) :
    ∃ initial,
      altmemInit heap stack chunks = some initial ∧
        ∀ calls : List AltmemCall,
          AllocatorCorrect initial
            (Ledger.calls { altmem := initial, history := [] } calls) := by
  obtain ⟨initial, inited, tiled, allFree⟩ := altmemInit_tiles bounds chunks
  refine ⟨initial, inited, fun calls => ?_⟩
  have balanced := balanced_of_free tiled allFree
  exact (balanced.calls bounds heapPos calls).allocatorCorrect bounds heapPos
    tiled

/-- The link addresses of `misc/pmp_compatible.lds`: a heap of seven chunks. -/
def linkedHeap : Word := 0x80028000

/-- The end of the heap in `misc/pmp_compatible.lds`. -/
def linkedStack : Word := 0x8002F000

/-- This heap is aligned, below its end, and short enough. -/
theorem linkedBounds : HeapBounds linkedHeap linkedStack where
  heap_le := by decide
  chunk_le := by decide
  size_le := by decide

/-- The array as the loader leaves it. -/
def blankChunks : Nat → Chunk :=
  fun _ => { start := 0, size := 0, occupied := false }

/-- The allocator is right on this heap. -/
theorem linkedHeap_correct_over_runs :
    ∃ initial,
      altmemInit linkedHeap linkedStack blankChunks = some initial ∧
        ∀ calls : List AltmemCall,
          AllocatorCorrect initial
            (Ledger.calls { altmem := initial, history := [] } calls) :=
  altmem_correct_over_runs linkedBounds (by decide) blankChunks

end S3kMonitor
