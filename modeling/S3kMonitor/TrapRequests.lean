import S3kMonitor.Trap

namespace S3kMonitor

/-!
# What the trap handler asks for

A fault ends in a soft reset, or in one request for the capability of the
chunk that holds the faulting address.  Which of the two depends on the table
of chunks; the reply of the monitor only decides how the handler goes on.
-/

/-- The end of a chunk, as the callers of `capman_find_existing_pmp` add it. -/
def Chunk.stop (chunk : Chunk) : Word :=
  chunk.start + chunk.size

/-- The first chunk of the table that holds the address. -/
structure Altmem.ChunkAt (altmem : Altmem) (addr : Word) (i : Nat) :
    Prop where
  inRange : i < altmem.nchunks
  holds : (altmem.chunks i).Holds addr
  first : ∀ j < i, ¬ (altmem.chunks j).Holds addr

section Table

variable
  {altmem : Altmem}
  {addr : Word}
  {i j : Nat}

/-- An address is the start of one chunk at most. -/
theorem Altmem.ChunkAt.unique
    (here : altmem.ChunkAt addr i)
    (there : altmem.ChunkAt addr j) :
    i = j := by
  rcases Nat.lt_trichotomy i j with before | same | behind
  · exact absurd here.holds (there.first i before)
  · exact same
  · exact absurd there.holds (here.first j behind)

/-- A mark moves no chunk. -/
@[simp]
theorem setOccupied_chunkAt
    {occupied : Bool} :
    (altmem.setOccupied j occupied).ChunkAt addr i ↔
      altmem.ChunkAt addr i := by
  constructor
  · rintro ⟨inRange, holds, first⟩
    exact ⟨inRange, by simpa using holds, by simpa using first⟩
  · rintro ⟨inRange, holds, first⟩
    exact ⟨inRange, by simpa using holds, by simpa using first⟩

variable (altmem addr)

/-- `altmem_findchunk` returns that chunk. -/
theorem findchunk_chunkAt :
    (∃ i, altmem.ChunkAt addr i ∧ altmemFindchunk altmem addr = i) ∨
    (∀ i, ¬ altmem.ChunkAt addr i) ∧
      altmemFindchunk altmem addr = -1 := by
  rcases firstSlot_range_cases
      (fun i => decide ((altmem.chunks i).Holds addr)) altmem.nchunks with
    ⟨i, inRange, holds, first, found⟩ | ⟨notFound, noneHolds⟩
  · refine Or.inl ⟨i, ⟨inRange, by simpa using holds, ?_⟩, found⟩
    intro j before
    simpa using first j before
  · refine Or.inr ⟨fun i chunkAt => ?_, notFound⟩
    have passes := noneHolds i chunkAt.inRange
    simp only [decide_eq_false_iff_not] at passes
    exact passes chunkAt.holds

variable {altmem addr}

/-- `altmem_findchunk` finds the chunk of an address. -/
theorem Altmem.ChunkAt.found
    (chunkAt : altmem.ChunkAt addr i) :
    altmemFindchunk altmem addr = i := by
  rcases findchunk_chunkAt altmem addr with
    ⟨j, other, found⟩ | ⟨noChunk, -⟩
  · rw [found, other.unique chunkAt]
  · exact absurd chunkAt (noChunk i)

/-- What `altmem_findchunk` finds is the chunk of the address. -/
theorem chunkAt_of_found
    (found : altmemFindchunk altmem addr = i) :
    altmem.ChunkAt addr i := by
  rcases findchunk_chunkAt altmem addr with
    ⟨j, chunkAt, foundThere⟩ | ⟨-, notFound⟩
  · have same : i = j := by
      omega
    rwa [same]
  · omega

/-- The number of a chunk goes through `uint64_t` and `int` unchanged. -/
theorem toInt_toWord_chunk
    (inRange : i < altmem.nchunks) :
    toInt (toWord i) = i := by
  have most := altmem.nchunks_le
  have mostEq : maxChunks = 16 := rfl
  have value : (toWord (i : Int)).toNat = i := by
    rw [toWord, BitVec.ofInt_natCast, BitVec.toNat_ofNat]
    omega
  rw [toInt_of_lt (by omega), value]

/-- The index of a chunk is never the word of the failure. -/
theorem toWord_chunk_ne
    (inRange : i < altmem.nchunks) :
    toWord (i : Int) ≠ -1 := by
  intro isMinusOne
  have same := toInt_toWord_chunk inRange
  rw [isMinusOne] at same
  have minusOne : toInt (-1) = -1 := rfl
  omega

end Table

namespace App

variable (app : App)

/-- The slot that the search returns for a chunk. -/
def chunkSlot (i : Nat) : Nat :=
  toIndex
    (capmanFindExistingPmp app.caps (app.altmem.chunks i).start
      (app.altmem.chunks i).stop)

/-- `existing_pmp` gives the slot that the table has for the chunk. -/
theorem existingPmp_chunk
    {i : Nat}
    (inRange : i < app.altmem.nchunks) :
    app.existingPmp (toWord i) = app.chunkSlot i := by
  simp only [existingPmp, chunkSlot, toInt_toWord_chunk inRange,
    altmemGetStart_chunk app.altmem inRange,
    altmemGetSize_chunk app.altmem inRange, Chunk.stop]

/-- The requests among what the app has sent, the latest first. -/
def requests : List UpdateCall :=
  app.sends.filterMap fun
    | .request call => some call
    | .notice _ => none

/-- Between the two states the app has sent this request and no other one. -/
def Asks (after : App) (call : UpdateCall) : Prop :=
  after.requests = call :: app.requests

/-- A notice sends no request. -/
@[simp]
theorem requests_notify (notice : Notice) :
    (app.notify notice).requests = app.requests :=
  rfl

/-- An update call sends its request. -/
@[simp]
theorem requests_updatepmp (reply : Reply) (call : UpdateCall) :
    (app.updatepmp reply call).2.requests = call :: app.requests :=
  rfl

/-- A soft reset sends no request. -/
@[simp]
theorem requests_thSoftreset (link : AppLink) :
    (thSoftreset link app).requests = app.requests :=
  rfl

/-- A hard reset sends no request. -/
@[simp]
theorem requests_thHardreset (link : AppLink) :
    (thHardreset link app).requests = app.requests :=
  rfl

variable {app}

/-- What leaves the requests as they were has asked for nothing. -/
theorem not_asks
    {after : App}
    {call : UpdateCall}
    (same : after.requests = app.requests) :
    ¬ app.Asks after call := by
  intro asks
  exact List.cons_ne_self call app.requests (asks.symm.trans same)

end App

section Asking

variable
  {app : App}
  {link : AppLink}
  {reply : Reply}
  {call other : UpdateCall}

/-- The code that the handler compares with 0 is 0 if the `int` is. -/
theorem toWord_toInt_eq_zero_iff (value : Word) :
    toWord (toInt value) = 0 ↔ toInt value = 0 := by
  have lower := @BitVec.le_toInt 32 (value.setWidth 32)
  have upper := @BitVec.toInt_lt 32 (value.setWidth 32)
  constructor
  · intro wordZero
    have back := congrArg BitVec.toInt wordZero
    rw [toWord, BitVec.toInt_ofInt, toInt, Int.bmod_eq_of_le] at back
    · exact back
    · omega
    · omega
  · intro valueZero
    rw [valueZero]
    rfl

/-- How the handler goes on after a request. -/
theorem concludeUpdate_updatepmp :
    concludeUpdate link (app.updatepmp reply call) =
      if toInt reply.words[0]! = 0 then
        (app.updatepmp reply call).2.notify .handledException
      else
        thSoftreset link (app.updatepmp reply call).2 := by
  have code : (app.updatepmp reply call).1 = toInt reply.words[0]! := rfl
  simp only [concludeUpdate, code, ne_eq, toWord_toInt_eq_zero_iff, ite_not]

/-- Among the requests of an update, its own call is the new one. -/
theorem asks_concludeUpdate :
    app.Asks (concludeUpdate link (app.updatepmp reply call)) other ↔
      other = call := by
  have sent :
      (concludeUpdate link (app.updatepmp reply call)).requests =
        call :: app.requests := by
    rw [concludeUpdate_updatepmp]
    split <;> simp
  rw [App.Asks, sent]
  constructor
  · intro same
    exact (List.cons.inj same).1.symm
  · rintro rfl
    rfl

end Asking

section Handler

variable
  (link : AppLink)
  (reply : Reply)
  (app : App)

/-- A write fault off the stack is served for the chunk of its address. -/
theorem storeFault_heap
    (above : link.stack < app.esp) :
    (∃ i,
      app.altmem.ChunkAt app.eval i ∧
        storeFault link reply app =
          concludeUpdate link
            (app.updatepmp reply (.rw (app.chunkSlot i) s3kRw))) ∨
    (∀ i, ¬ app.altmem.ChunkAt app.eval i) ∧
      storeFault link reply app = thSoftreset link app := by
  have offStack : ¬ app.esp ≤ link.stack := BitVec.not_le.mpr above
  unfold storeFault
  rw [if_neg offStack]
  rcases findchunk_chunkAt app.altmem app.eval with
    ⟨i, chunkAt, found⟩ | ⟨noChunk, notFound⟩
  · have inRange := chunkAt.inRange
    have occupancy :
        ¬ altmemIsoccupied app.altmem (i : Int) = -1 := by
      rw [altmemIsoccupied_chunk app.altmem inRange]
      split <;> decide
    simp only [found]
    rw [if_neg (toWord_chunk_ne inRange), toInt_toWord_chunk inRange,
      if_neg occupancy, app.existingPmp_chunk inRange]
    exact Or.inl ⟨i, chunkAt, rfl⟩
  · simp only [notFound]
    rw [if_pos (by rfl)]
    exact Or.inr ⟨noChunk, rfl⟩

/-- The stack is expanded into the free chunk at its pointer, or refused. -/
theorem thStackexpansion_cases (esp : Word) :
    (∃ i,
      app.altmem.ChunkAt esp i ∧
        (app.altmem.chunks i).occupied = false ∧
        thStackexpansion reply app esp =
          { app with altmem := app.altmem.setOccupied i true }.updatepmp reply
            (.rw (app.chunkSlot i) s3kRw)) ∨
    (∀ i, app.altmem.ChunkAt esp i →
      (app.altmem.chunks i).occupied = true) ∧
      thStackexpansion reply app esp = (1, app) := by
  rcases altmemStackexpansion_cases app.altmem esp with
    ⟨i, inRange, -, found, isFree, taken⟩ | ⟨closed, refused⟩
  · have chunkAt := chunkAt_of_found found
    have foundAfter :
        altmemFindchunk (app.altmem.setOccupied i true) esp = i :=
      (setOccupied_chunkAt.mpr chunkAt).found
    have slot :=
      App.existingPmp_chunk { app with altmem := app.altmem.setOccupied i true }
        inRange
    refine Or.inl ⟨i, chunkAt, isFree, ?_⟩
    simp only [thStackexpansion, taken, if_true, foundAfter, slot]
    simp only [App.chunkSlot, Chunk.stop, setOccupied_start, setOccupied_size]
  · refine Or.inr ⟨fun i chunkAt => ?_, by simp [thStackexpansion, refused]⟩
    rcases closed with noneHolds | ⟨j, -, -, found, taken⟩
    · exact absurd chunkAt.holds (noneHolds i chunkAt.inRange)
    · rw [chunkAt.unique (chunkAt_of_found found), taken]

/-- An instruction fault in an allocated chunk is served for that chunk. -/
theorem instructionFault_cases :
    (∃ i,
      app.altmem.ChunkAt app.epc i ∧
        (app.altmem.chunks i).occupied = true ∧
        instructionFault link reply app =
          concludeUpdate link
            (app.updatepmp reply
              (.rx (app.chunkSlot i) (app.altmem.chunks i).start 0x5))) ∨
    instructionFault link reply app = thSoftreset link app := by
  unfold instructionFault
  by_cases outside : app.epc < link.start ∨ app.epc ≥ link.stack
  · exact Or.inr (if_pos outside)
  · rw [if_neg outside]
    rcases findchunk_chunkAt app.altmem app.epc with
      ⟨i, chunkAt, found⟩ | ⟨-, notFound⟩
    · have inRange := chunkAt.inRange
      simp only [found]
      rw [if_neg (toWord_chunk_ne inRange), toInt_toWord_chunk inRange,
        altmemIsoccupied_chunk app.altmem inRange,
        app.existingPmp_chunk inRange, altmemGetStart_chunk _ inRange]
      by_cases taken : (app.altmem.chunks i).occupied = true
      · rw [if_pos taken, if_neg (by decide)]
        exact Or.inl ⟨i, chunkAt, taken, rfl⟩
      · rw [if_neg taken, if_pos (by decide)]
        exact Or.inr rfl
    · simp only [notFound]
      rw [if_pos (by rfl)]
      exact Or.inr rfl

/-- The address whose chunk the handler looks up. -/
def App.faultAddr : Word :=
  if app.ecause = 1 then app.epc
  else if app.esp ≤ link.stack then app.esp
  else app.eval

variable {link reply app}

/-- A request is for the chunk of that address. -/
theorem trapHandler_asks
    {call : UpdateCall}
    (asks : app.Asks (trapHandler link reply app) call) :
    ∃ i,
      app.altmem.ChunkAt (app.faultAddr link) i ∧
        call.idx = app.chunkSlot i := by
  unfold trapHandler at asks
  unfold App.faultAddr
  by_cases isInstruction : app.ecause = 1
  · rw [if_pos isInstruction] at asks ⊢
    rcases instructionFault_cases link reply app with
      ⟨i, chunkAt, -, served⟩ | reset
    · rw [served, asks_concludeUpdate] at asks
      exact ⟨i, chunkAt, asks ▸ rfl⟩
    · rw [reset] at asks
      exact absurd asks (App.not_asks rfl)
  · rw [if_neg isInstruction] at asks ⊢
    by_cases isLoad : app.ecause = 5
    · rw [if_pos isLoad] at asks
      exact absurd asks (App.not_asks rfl)
    · rw [if_neg isLoad] at asks
      by_cases isStore : app.ecause = 7
      · rw [if_pos isStore] at asks
        by_cases onStack : app.esp ≤ link.stack
        · rw [if_pos onStack]
          rw [storeFault, if_pos onStack] at asks
          rcases thStackexpansion_cases reply app app.esp with
            ⟨i, chunkAt, -, expanded⟩ | ⟨-, refused⟩
          · rw [expanded] at asks
            exact ⟨i, chunkAt, asks_concludeUpdate.mp asks ▸ rfl⟩
          · rw [refused] at asks
            exact absurd asks (App.not_asks rfl)
        · rw [if_neg onStack]
          rcases storeFault_heap link reply app (BitVec.not_le.mp onStack) with
            ⟨i, chunkAt, served⟩ | ⟨-, reset⟩
          · rw [served, asks_concludeUpdate] at asks
            exact ⟨i, chunkAt, asks ▸ rfl⟩
          · rw [reset] at asks
            exact absurd asks (App.not_asks rfl)
      · rw [if_neg isStore] at asks
        exact absurd asks (App.not_asks rfl)

end Handler

end S3kMonitor
