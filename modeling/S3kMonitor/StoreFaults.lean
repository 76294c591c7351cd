import S3kMonitor.ExistingPmp
import S3kMonitor.StackChunks

namespace S3kMonitor

/-!
# Store faults

A store fault is one of the stack if the stack pointer is at or below `_stack`
and one of the heap otherwise.  On the heap the handler only excludes that no
chunk holds the address, where the handler of instruction faults demands that
the chunk is occupied.  On the stack the address of the fault is not looked
at, and the chunk stays taken when the monitor refuses.
-/

/-- A store is handled as a store. -/
theorem trapHandler_store
    (link : AppLink)
    (reply : Reply)
    {app : App}
    (isStore : app.ecause = 7) :
    trapHandler link reply app = storeFault link reply app := by
  unfold trapHandler
  rw [isStore, if_neg (by decide), if_neg (by decide), if_pos rfl]

/-- The capability for a chunk. -/
def App.IsPmpOfChunk (app : App) (i slot : Nat) : Prop :=
  (app.caps slot).IsPmpOf (app.altmem.chunks i).start
    (app.altmem.chunks i).stop

/-- The search for the capability of a chunk meets no other region. -/
def App.NoneHidesChunk (app : App) (i : Nat) : Prop :=
  NoneHides app.caps (app.altmem.chunks i).start (app.altmem.chunks i).stop

section Heap

variable
  (link : AppLink)
  (app : App)

/--
A request is one to write to the chunk of the address, which is occupied, and
attaches its capability or none.  Without an occupied chunk there is a soft
reset and no request.
-/
structure OpensAllocatedOnly : Prop where
  request :
    ∀ reply call,
      app.Asks (trapHandler link reply app) call →
      ∃ i idx,
        app.altmem.ChunkAt app.eval i ∧
          (app.altmem.chunks i).occupied = true ∧
          call = .rw idx s3kRw ∧
          (idx < ncap → app.IsPmpOfChunk i idx)
  reset :
    (∀ i, app.altmem.ChunkAt app.eval i →
      (app.altmem.chunks i).occupied = false) →
    ∀ reply,
      trapHandler link reply app = thSoftreset link app ∧
        ∀ call, ¬ app.Asks (trapHandler link reply app) call

/-- A write to the chunk is served, and goes on if the monitor agrees. -/
def ServesWrite (i : Nat) : Prop :=
  ∀ reply, ∃ idx < ncap,
    app.IsPmpOfChunk i idx ∧
      app.Asks (trapHandler link reply app) (.rw idx s3kRw) ∧
      (reply.words[0]! = 0 →
        trapHandler link reply app =
          (app.updatepmp reply (.rw idx s3kRw)).2.notify .handledException)

variable {link app}

/--
Off the stack a store fault opens allocated heap only if and only if the chunk
of its address, when there is one, is occupied and its capability not hidden.
-/
theorem storeFault_opensAllocatedOnly_iff
    (isStore : app.ecause = 7)
    (above : link.stack < app.esp) :
    OpensAllocatedOnly link app ↔
      ∀ i, app.altmem.ChunkAt app.eval i →
        (app.altmem.chunks i).occupied = true ∧ app.NoneHidesChunk i := by
  have handled (reply : Reply) :=
    trapHandler_store link reply isStore
  constructor
  · intro opens i chunkAt
    have served (reply : Reply) :
        app.Asks (trapHandler link reply app)
          (.rw (app.chunkSlot i) s3kRw) := by
      rw [handled reply]
      rcases storeFault_heap link reply app above with
        ⟨j, other, served⟩ | ⟨noChunk, -⟩
      · rw [served, other.unique chunkAt]
        exact asks_concludeUpdate.mpr rfl
      · exact absurd chunkAt (noChunk i)
    obtain ⟨j, idx, other, occupied, sameCall, right⟩ :=
      opens.request ⟨Vector.replicate 4 0, app.caps⟩ _ (served _)
    obtain rfl := other.unique chunkAt
    cases sameCall
    exact ⟨occupied, App.noneHides_of_chunkSlot right⟩
  · intro condition
    constructor
    case request =>
      intro reply call asks
      rw [handled reply] at asks
      rcases storeFault_heap link reply app above with
        ⟨i, chunkAt, served⟩ | ⟨-, reset⟩
      · rw [served, asks_concludeUpdate] at asks
        obtain ⟨occupied, noneHides⟩ := condition i chunkAt
        exact ⟨i, app.chunkSlot i, chunkAt, occupied, asks,
          App.chunkSlot_isPmpOf noneHides⟩
      · rw [reset] at asks
        exact absurd asks (App.not_asks rfl)
    case reset =>
      intro allFree reply
      rw [handled reply]
      rcases storeFault_heap link reply app above with
        ⟨i, chunkAt, -⟩ | ⟨-, reset⟩
      · have occupied := (condition i chunkAt).1
        rw [allFree i chunkAt] at occupied
        cases occupied
      · rw [reset]
        exact ⟨rfl, fun call => App.not_asks rfl⟩

/-- The table of an app that `misc/pmp_compatible.lds` has linked. -/
def linkedTable (occupied : Nat → Bool) : Altmem where
  nchunks := 7
  chunks i :=
    { start := tileStart linkedHeap i
      size := chunkSize
      occupied := occupied i }
  nchunks_le := by decide

/-- The table of the linked app is tiled. -/
theorem linkedTable_tiled (occupied : Nat → Bool) :
    Tiled linkedHeap linkedStack (linkedTable occupied) where
  nchunks_eq := rfl
  start_eq _ _ := rfl
  size_eq _ _ := rfl

/-- A write to the first chunk of the heap, for which there is a capability. -/
def firstWrite (occupied : Nat → Bool) (esp : Word) : App :=
  (appWithHeap (linkedTable occupied)).raise 0x80020300 7 0x80028100 esp

/-- The write hits the first chunk. -/
theorem firstWrite_chunkAt (occupied : Nat → Bool) (esp : Word) :
    (firstWrite occupied esp).altmem.ChunkAt
      (firstWrite occupied esp).eval 0 := by
  have within :
      tileStart linkedHeap 0 ≤ (0x80028100 : Word) ∧
        (0x80028100 : Word) < tileStart linkedHeap 0 + chunkSize := by
    decide
  exact ⟨Nat.succ_pos 6, within, by simp⟩

/-- Its capability is found. -/
theorem firstWrite_noneHides (occupied : Nat → Bool) (esp : Word) :
    (firstWrite occupied esp).IsPmpOfChunk 0 3 ∧
      (firstWrite occupied esp).NoneHidesChunk 0 := by
  have ends :
      s3kPmpNapotBegin (s3kPmpNapotAddr linkedHeap 0x80029000) =
          tileStart linkedHeap 0 ∧
        s3kPmpNapotEnd (s3kPmpNapotAddr linkedHeap 0x80029000) =
          tileStart linkedHeap 0 + chunkSize := by
    decide
  have isPmpOf : (firstWrite occupied esp).IsPmpOfChunk 0 3 := ends
  refine ⟨isPmpOf, fun slot _ shares => ?_⟩
  have isThree : slot = 3 := by
    by_contra other
    have empty : (firstWrite occupied esp).caps slot = .none :=
      if_neg other
    rw [empty] at shares
    exact shares
  exact ⟨3, by omega, isPmpOf⟩

/-- In the first chunk, which is occupied, nothing else is opened. -/
theorem firstWrite_opensAllocatedOnly :
    OpensAllocatedOnly linkedApp (firstWrite (· == 0) 0x8002FF00) := by
  refine (storeFault_opensAllocatedOnly_iff rfl (by decide)).mpr ?_
  intro i chunkAt
  rw [chunkAt.unique (firstWrite_chunkAt _ _)]
  exact ⟨rfl, (firstWrite_noneHides _ _).2⟩

/-- The same write is served while no chunk is allocated. -/
theorem freeChunk_opened :
    ¬ ∀ link app,
        app.ecause = 7 → link.stack < app.esp →
        OpensAllocatedOnly link app := by
  intro always
  have opens :=
    always linkedApp (firstWrite (fun _ => false) 0x8002FF00) rfl (by decide)
  have refused :=
    (opens.reset (fun _ _ => rfl) ⟨Vector.replicate 4 0, fun _ => .none⟩).2
  rw [trapHandler_store _ _ rfl] at refused
  rcases storeFault_heap linkedApp ⟨Vector.replicate 4 0, fun _ => .none⟩
      (firstWrite (fun _ => false) 0x8002FF00) (by decide) with
    ⟨i, -, served⟩ | ⟨noChunk, -⟩
  · rw [served] at refused
    exact refused _ (asks_concludeUpdate.mpr rfl)
  · exact noChunk 0 (firstWrite_chunkAt _ _)

/-- Two chunks of a tiled heap share neither start nor end. -/
theorem Tiled.chunk_eq_of_shared
    {heap stack : Word}
    (bounds : HeapBounds heap stack)
    {altmem : Altmem}
    (tiled : Tiled heap stack altmem)
    {i j : Nat}
    (inRange : i < altmem.nchunks)
    (otherInRange : j < altmem.nchunks)
    (shared :
      (altmem.chunks i).start = (altmem.chunks j).start ∨
        (altmem.chunks i).stop = (altmem.chunks j).stop) :
    i = j := by
  apply tiled.start_injective bounds inRange otherInRange
  rcases shared with sameStart | sameStop
  · exact sameStart
  · rw [Chunk.stop, Chunk.stop, tiled.size_eq i inRange,
      tiled.size_eq j otherInRange] at sameStop
    exact (BitVec.add_left_inj chunkSize).mp sameStop

/-- A chunk that holds an address is the one at it. -/
theorem Tiled.chunkAt
    {heap stack addr : Word}
    (bounds : HeapBounds heap stack)
    {altmem : Altmem}
    (tiled : Tiled heap stack altmem)
    {i : Nat}
    (inRange : i < altmem.nchunks)
    (holds : (altmem.chunks i).Holds addr) :
    altmem.ChunkAt addr i where
  inRange := inRange
  holds := holds
  first j before otherHolds := by
    have same :=
      tiled.holds_unique bounds (before.trans inRange) inRange otherHolds holds
    omega

section Served

variable
  {heap : Word}
  (bounds : HeapBounds heap link.stack)
  (tiled : Tiled heap link.stack app.altmem)
  (isStore : app.ecause = 7)
  {i : Nat}
include bounds tiled isStore

/-- A request for the stack is none for an occupied chunk of the heap. -/
theorem not_servesWrite_on_stack
    (onStack : app.esp ≤ link.stack)
    (inRange : i < app.altmem.nchunks)
    (occupied : (app.altmem.chunks i).occupied = true) :
    ¬ ServesWrite link app i := by
  intro serves
  obtain ⟨idx, slotInRange, right, asks, -⟩ :=
    serves ⟨Vector.replicate 4 0, app.caps⟩
  rw [trapHandler_store link _ isStore, storeFault, if_pos onStack] at asks
  rcases thStackexpansion_cases ⟨Vector.replicate 4 0, app.caps⟩ app app.esp
    with ⟨j, chunkAt, isFree, expanded⟩ | ⟨-, refused⟩
  · rw [expanded] at asks
    have sameCall := asks_concludeUpdate.mp asks
    have sameSlot : idx = app.chunkSlot j := by
      cases sameCall
      rfl
    rw [sameSlot] at slotInRange right
    have shared := right.shared (App.chunkSlot_sharesEnd slotInRange)
    have same :=
      tiled.chunk_eq_of_shared bounds inRange chunkAt.inRange shared
    rw [same, isFree] at occupied
    cases occupied
  · rw [refused] at asks
    exact absurd asks (App.not_asks rfl)

/--
The first write to a chunk that has been handed out, and so is occupied, is
served if and only if the stack pointer is above `_stack` and the capability
of the chunk not hidden.
-/
theorem storeFault_servesWrite_iff
    (inRange : i < app.altmem.nchunks)
    (holds : (app.altmem.chunks i).Holds app.eval)
    (handedOut : (app.altmem.chunks i).occupied = true)
    (held : ∃ slot < ncap, app.IsPmpOfChunk i slot) :
    ServesWrite link app i ↔
      link.stack < app.esp ∧ app.NoneHidesChunk i := by
  have chunkAt := tiled.chunkAt bounds inRange holds
  constructor
  · intro serves
    have above : link.stack < app.esp := by
      by_contra below
      exact not_servesWrite_on_stack bounds tiled isStore
        (BitVec.not_lt.mp below) chunkAt.inRange handedOut serves
    refine ⟨above, App.noneHides_of_chunkSlot fun _ => ?_⟩
    obtain ⟨idx, -, right, asks, -⟩ :=
      serves ⟨Vector.replicate 4 0, app.caps⟩
    rw [trapHandler_store link _ isStore] at asks
    rcases storeFault_heap link ⟨Vector.replicate 4 0, app.caps⟩ app above
      with ⟨j, other, served⟩ | ⟨noChunk, -⟩
    · rw [served, other.unique chunkAt, asks_concludeUpdate] at asks
      cases asks
      exact right
    · exact absurd chunkAt (noChunk i)
  · rintro ⟨above, noneHides⟩ reply
    rw [trapHandler_store link reply isStore]
    rcases storeFault_heap link reply app above with
      ⟨j, other, served⟩ | ⟨noChunk, -⟩
    · rw [served, other.unique chunkAt]
      have slotInRange : app.chunkSlot i < ncap := by
        rcases noneHides.search with
          ⟨slot, inRange, -, found⟩ | ⟨-, none⟩
        · rw [App.chunkSlot, found, toIndex_slot inRange]
          exact inRange
        · obtain ⟨slot, inRange, isPmpOf⟩ := held
          exact absurd isPmpOf (none slot inRange)
      refine ⟨app.chunkSlot i, slotInRange,
        App.chunkSlot_isPmpOf noneHides slotInRange,
        asks_concludeUpdate.mpr rfl, fun agrees => ?_⟩
      rw [concludeUpdate_updatepmp, agrees]
      exact if_pos rfl
    · exact absurd chunkAt (noChunk i)

end Served

/-- A first write with the stack pointer in the stack area is served. -/
theorem firstWrite_servesWrite :
    ServesWrite linkedApp (firstWrite (· == 0) 0x8002FF00) 0 :=
  (storeFault_servesWrite_iff linkedBounds (linkedTable_tiled _) rfl
      (by decide) (by decide) rfl
      ⟨3, by decide, (firstWrite_noneHides _ _).1⟩).mpr
    ⟨by decide, (firstWrite_noneHides _ _).2⟩

/-- The first chunk is handed out after the stack has grown into the last. -/
theorem altmemAlloc_linkedTable :
    altmemAlloc (linkedTable (· == 6)) 0x100 =
      (tileStart linkedHeap 0,
        linkedTable fun chunk => chunk == 0 || chunk == 6) := by
  have first :
      (linkedTable (· == 6)).firstChunk (fun chunk => !chunk.occupied) = 0 := by
    decide
  have taken :
      (linkedTable (· == 6)).setOccupied 0 true =
        linkedTable fun chunk => chunk == 0 || chunk == 6 := by
    simp only [Altmem.setOccupied, linkedTable, Altmem.mk.injEq, true_and]
    funext i
    by_cases isZero : i = 0
    · simp [isZero]
    · simp [isZero]
  rw [altmemAlloc, if_neg (by decide)]
  simp only [first]
  rw [if_neg (by decide)]
  exact congrArg _ taken

/-- After an expansion of the stack into the last chunk it is not. -/
theorem firstWrite_below_stack_not_served :
    ¬ ∀ heap link (app : App) before size i,
        HeapBounds heap link.stack → Tiled heap link.stack app.altmem →
        app.ecause = 7 → i < app.altmem.nchunks →
        (app.altmem.chunks i).Holds app.eval →
        altmemAlloc before size =
          ((app.altmem.chunks i).start, app.altmem) →
        (∃ slot < ncap, app.IsPmpOfChunk i slot) →
        ServesWrite link app i := by
  intro always
  have tiled :=
    linkedTable_tiled fun chunk => chunk == 0 || chunk == 6
  have serves :=
    always linkedHeap linkedApp
      (firstWrite (fun chunk => chunk == 0 || chunk == 6) 0x8002E800)
      (linkedTable (· == 6)) 0x100 0 linkedBounds tiled rfl (by decide)
      (by decide) altmemAlloc_linkedTable
      ⟨3, by decide, (firstWrite_noneHides _ _).1⟩
  exact not_servesWrite_on_stack linkedBounds tiled rfl (by decide)
    (by decide) rfl serves

end Heap

/--
A failed expansion leaves the table as it was if and only if the chunk at the
stack pointer is not free or the monitor agrees.
-/
theorem thStackexpansion_restores_iff
    (reply : Reply)
    (app : App)
    (esp : Word) :
    ((thStackexpansion reply app esp).1 ≠ 0 →
      (thStackexpansion reply app esp).2.altmem = app.altmem) ↔
      (∀ i, app.altmem.ChunkAt esp i →
        (app.altmem.chunks i).occupied = true) ∨
        toInt reply.words[0]! = 0 := by
  rcases thStackexpansion_cases reply app esp with
    ⟨i, chunkAt, isFree, expanded⟩ | ⟨closed, refused⟩
  · have code :
        (thStackexpansion reply app esp).1 = toInt reply.words[0]! := by
      rw [expanded]
      rfl
    have table :
        (thStackexpansion reply app esp).2.altmem =
          app.altmem.setOccupied i true := by
      rw [expanded]
      rfl
    have changed : app.altmem.setOccupied i true ≠ app.altmem := by
      intro same
      have flag := congrArg (fun altmem => (altmem.chunks i).occupied) same
      simp only [setOccupied_occupied, if_pos, isFree] at flag
      cases flag
    rw [code, table]
    constructor
    · intro restores
      right
      by_contra refuses
      exact changed (restores refuses)
    · rintro (closed | agrees) refuses
      · rw [closed i chunkAt] at isFree
        cases isFree
      · exact absurd agrees refuses
  · rw [refused]
    exact ⟨fun _ => Or.inl closed, fun _ _ => rfl⟩

/-- The monitor refuses the request for the free chunk below the stack. -/
theorem refused_expansion_keeps_chunk :
    ¬ ∀ reply app esp,
        (thStackexpansion reply app esp).1 ≠ 0 →
        (thStackexpansion reply app esp).2.altmem = app.altmem := by
  intro always
  have same :=
    always ⟨Vector.replicate 4 2, fun _ => .none⟩
      (appWithHeap (linkedTable fun _ => false)) 0x8002E800 (by decide +kernel)
  have flag := congrArg (fun altmem => (altmem.chunks 6).occupied) same
  have taken :
      ((thStackexpansion ⟨Vector.replicate 4 2, fun _ => .none⟩
        (appWithHeap (linkedTable fun _ => false)) 0x8002E800).2.altmem.chunks
          6).occupied = true := by
    decide +kernel
  rw [taken] at flag
  cases flag

end S3kMonitor
