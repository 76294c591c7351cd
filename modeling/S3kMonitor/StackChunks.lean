import S3kMonitor.Allocations
import S3kMonitor.Trap

namespace S3kMonitor

open Pool Runs

/-!
# The stack and the chunks of the heap

A store fault with the stack pointer below the stack area takes the one chunk
that holds the stack pointer, while the stack occupies every byte from there
on up.  The chunks in between are apart from those handed out if the
expansion steps over none that is free or handed out, and if no chunk of the
stack is passed to `altmem_free`.
-/

/-- A return to a stack pointer that leaves what is below it is `unwind`. -/
inductive AppStep where
  | alloc (size : Word)
  | free (ptr : Word)
  | unwind (esp : Word)
  | trap (epc ecause eval esp : Word) (reply : Reply)

/--
The app with what `altmem_alloc` has handed out and with the stack pointers
that the stack was expanded for and still reaches down to.
-/
structure Tenancy where
  app : App
  handed : List (Pool.Event Word)
  expanded : List Word

/-- Some byte of the chunk lies in the stack range `[esp, _stack)`. -/
def Chunk.MeetsStack (chunk : Chunk) (stack esp : Word) : Prop :=
  ∃ addr, chunk.Holds addr ∧ esp ≤ addr ∧ addr < stack

namespace Tenancy

variable
  (link : AppLink)
  (tenancy : Tenancy)

/-- `altmem_alloc`, which hands out a chunk. -/
def alloc (size : Word) : Tenancy :=
  let result := altmemAlloc tenancy.app.altmem size
  { tenancy with
    app := { tenancy.app with altmem := result.2 }
    handed :=
      if result.1 = 0 then tenancy.handed
      else .taken result.1 :: tenancy.handed }

/-- `altmem_free`, which takes one back. -/
def free (ptr : Word) : Tenancy :=
  { tenancy with
    app := { tenancy.app with altmem := altmemFree tenancy.app.altmem ptr }
    handed := .released ptr :: tenancy.handed }

/-- The stack has shrunk, and `esp` is the lowest address in use. -/
def unwind (esp : Word) : Tenancy :=
  { tenancy with expanded := tenancy.expanded.filter (esp ≤ ·) }

/-- After a reset the stack pointer is back at the top. -/
def trap (epc ecause eval esp : Word) (reply : Reply) : Tenancy :=
  let app := tenancy.app.raise epc ecause eval esp
  let handled := trapHandler link reply app
  let grown :=
    { tenancy with
      app := handled
      expanded :=
        if ecause = 7 ∧ esp ≤ link.stack ∧
            (thStackexpansion reply app esp).1 = 0 then
          esp :: tenancy.expanded
        else
          tenancy.expanded }
  grown.unwind handled.esp

/-- What a step of the app comes to. -/
def after : AppStep → Tenancy
  | .alloc size => tenancy.alloc size
  | .free ptr => tenancy.free ptr
  | .unwind esp => tenancy.unwind esp
  | .trap epc ecause eval esp reply =>
      tenancy.trap link epc ecause eval esp reply

/-- No chunk below which the stack has grown is handed out. -/
def StackIsApart : Prop :=
  ∀ esp ∈ tenancy.expanded,
    ∀ i < tenancy.app.altmem.nchunks,
      (tenancy.app.altmem.chunks i).MeetsStack link.stack esp →
      ¬ Out tenancy.handed (tenancy.app.altmem.chunks i).start

/-- A chunk of the stack is freed. -/
def FreesStack (ptr : Word) : Prop :=
  ∃ esp ∈ tenancy.expanded,
    ∃ i < tenancy.app.altmem.nchunks,
      (tenancy.app.altmem.chunks i).MeetsStack link.stack esp ∧
        (tenancy.app.altmem.chunks i).start = ptr

/--
The chunk at the stack pointer is free and the monitor agrees, but between
the stack pointer and `_stack` another chunk is free or handed out.
-/
def StepsOver (esp : Word) (reply : Reply) : Prop :=
  toInt reply.words[0]! = 0 ∧
    (∃ i < tenancy.app.altmem.nchunks,
      (tenancy.app.altmem.chunks i).Holds esp ∧
        (tenancy.app.altmem.chunks i).occupied = false) ∧
    ∃ i < tenancy.app.altmem.nchunks,
      (tenancy.app.altmem.chunks i).MeetsStack link.stack esp ∧
        ¬ (tenancy.app.altmem.chunks i).Holds esp ∧
        ((tenancy.app.altmem.chunks i).occupied = false ∨
          Out tenancy.handed (tenancy.app.altmem.chunks i).start)

/-- The steps that touch the stack. -/
def Careless : AppStep → Prop
  | .free ptr => tenancy.FreesStack link ptr
  | .trap _ ecause _ esp reply =>
      ecause = 7 ∧ esp ≤ link.stack ∧ tenancy.StepsOver link esp reply
  | _ => False

/-- What is handed out and what the stack has are occupied and apart. -/
structure Sound (heap : Word) : Prop where
  tiled : Tiled heap link.stack tenancy.app.altmem
  handed_occupied :
    ∀ i < tenancy.app.altmem.nchunks,
      Out tenancy.handed (tenancy.app.altmem.chunks i).start →
      (tenancy.app.altmem.chunks i).occupied = true
  stack_occupied :
    ∀ esp ∈ tenancy.expanded,
      ∀ i < tenancy.app.altmem.nchunks,
        (tenancy.app.altmem.chunks i).MeetsStack link.stack esp →
        (tenancy.app.altmem.chunks i).occupied = true
  apart : tenancy.StackIsApart link

end Tenancy

/-- A mark moves no chunk to the stack. -/
@[simp]
theorem setOccupied_meetsStack
    {altmem : Altmem}
    {i j : Nat}
    {occupied : Bool}
    {stack esp : Word} :
    ((altmem.setOccupied i occupied).chunks j).MeetsStack stack esp ↔
      (altmem.chunks j).MeetsStack stack esp := by
  simp [Chunk.MeetsStack]

section Soundness

variable
  {heap : Word}
  {link : AppLink}
  (bounds : HeapBounds heap link.stack)
  {tenancy : Tenancy}
  (sound : tenancy.Sound link heap)

/-- Soundness only looks at the table, the history and the expansions. -/
theorem Tenancy.Sound.withApp
    (sound : tenancy.Sound link heap)
    {app : App}
    (sameTable : app.altmem = tenancy.app.altmem) :
    Tenancy.Sound link { tenancy with app := app } heap where
  tiled := sameTable ▸ sound.tiled
  handed_occupied := by
    simpa only [sameTable] using sound.handed_occupied
  stack_occupied := by
    simpa only [sameTable] using sound.stack_occupied
  apart := by
    simpa only [Tenancy.StackIsApart, sameTable] using sound.apart

/-- The stack gives up what is below its pointer. -/
theorem Tenancy.Sound.unwind
    (sound : tenancy.Sound link heap)
    (esp : Word) :
    (tenancy.unwind esp).Sound link heap where
  tiled := sound.tiled
  handed_occupied := sound.handed_occupied
  stack_occupied reached member :=
    sound.stack_occupied reached (List.mem_of_mem_filter member)
  apart reached member :=
    sound.apart reached (List.mem_of_mem_filter member)

/-- Occupying one more chunk does not disturb the others. -/
theorem Tenancy.Sound.occupy
    (sound : tenancy.Sound link heap)
    (i : Nat) :
    Tenancy.Sound link
      { tenancy with
        app :=
          { tenancy.app with
            altmem := tenancy.app.altmem.setOccupied i true } }
      heap where
  tiled := sound.tiled.setOccupied
  handed_occupied j inRange out := by
    simp only [setOccupied_start] at out
    rw [setOccupied_occupied, sound.handed_occupied j inRange out, ite_self]
  stack_occupied esp member j inRange meets := by
    rw [setOccupied_meetsStack] at meets
    rw [setOccupied_occupied, sound.stack_occupied esp member j inRange meets,
      ite_self]
  apart esp member j inRange meets := by
    rw [setOccupied_meetsStack] at meets
    rw [setOccupied_start]
    exact sound.apart esp member j inRange meets

/-- The stack grows over chunks that are occupied and not handed out. -/
theorem Tenancy.Sound.grow
    (sound : tenancy.Sound link heap)
    {esp : Word}
    (taken :
      ∀ i < tenancy.app.altmem.nchunks,
        (tenancy.app.altmem.chunks i).MeetsStack link.stack esp →
        (tenancy.app.altmem.chunks i).occupied = true ∧
          ¬ Out tenancy.handed (tenancy.app.altmem.chunks i).start) :
    Tenancy.Sound link
      { tenancy with expanded := esp :: tenancy.expanded } heap where
  tiled := sound.tiled
  handed_occupied := sound.handed_occupied
  stack_occupied reached member i inRange meets := by
    rcases List.mem_cons.mp member with rfl | earlier
    · exact (taken i inRange meets).1
    · exact sound.stack_occupied reached earlier i inRange meets
  apart reached member i inRange meets := by
    rcases List.mem_cons.mp member with rfl | earlier
    · exact (taken i inRange meets).2
    · exact sound.apart reached earlier i inRange meets

/-- A chunk that is freed is not one of the stack. -/
theorem Tenancy.Sound.free
    (sound : tenancy.Sound link heap)
    {ptr : Word}
    (careful : ¬ tenancy.FreesStack link ptr) :
    (tenancy.free ptr).Sound link heap := by
  rw [Tenancy.free]
  rcases altmemFree_cases tenancy.app.altmem ptr with
    ⟨i, inRange, starts, freed⟩ | ⟨foreign, unchanged⟩
  · rw [freed]
    exact
      { tiled := sound.tiled.setOccupied
        handed_occupied := fun j otherInRange out => by
          rw [setOccupied_start, out_released_iff, ← starts] at out
          have apart : j ≠ i := by
            rintro rfl
            exact out.1 rfl
          rw [setOccupied_occupied, if_neg apart]
          exact sound.handed_occupied j otherInRange out.2
        stack_occupied := fun esp member j otherInRange meets => by
          rw [setOccupied_meetsStack] at meets
          have apart : j ≠ i := by
            rintro rfl
            exact careful ⟨esp, member, j, inRange, meets, starts⟩
          rw [setOccupied_occupied, if_neg apart]
          exact sound.stack_occupied esp member j otherInRange meets
        apart := fun esp member j otherInRange meets => by
          rw [setOccupied_meetsStack] at meets
          rw [setOccupied_start, out_released_iff]
          exact fun out => sound.apart esp member j otherInRange meets out.2 }
  · rw [unchanged]
    exact
      { tiled := sound.tiled
        handed_occupied := fun j otherInRange out =>
          sound.handed_occupied j otherInRange (out_released_iff.mp out).2
        stack_occupied := sound.stack_occupied
        apart := fun esp member j otherInRange meets out =>
          sound.apart esp member j otherInRange meets
            (out_released_iff.mp out).2 }

include bounds sound

/-- A chunk that is handed out was free, so the stack does not have it. -/
theorem Tenancy.Sound.alloc (size : Word) :
    (tenancy.alloc size).Sound link heap := by
  rw [Tenancy.alloc]
  rcases altmemAlloc_cases tenancy.app.altmem size with
    ⟨i, inRange, -, isFree, allocated⟩ | ⟨-, refused⟩
  · simp only [allocated]
    have occupied := sound.occupy i
    by_cases isNull : (tenancy.app.altmem.chunks i).start = 0
    · simpa only [if_pos isNull] using occupied
    · simp only [if_neg isNull]
      exact
        { tiled := occupied.tiled
          handed_occupied := fun j otherInRange out => by
            rw [setOccupied_start, out_taken_iff] at out
            rcases out with same | out
            · have sameChunk :=
                sound.tiled.start_injective bounds inRange otherInRange same
              rw [setOccupied_occupied, if_pos sameChunk.symm]
            · rw [setOccupied_occupied,
                sound.handed_occupied j otherInRange out, ite_self]
          stack_occupied := occupied.stack_occupied
          apart := fun esp member j otherInRange meets => by
            rw [setOccupied_meetsStack] at meets
            rw [setOccupied_start, out_taken_iff, not_or]
            refine ⟨fun same => ?_, sound.apart esp member j otherInRange meets⟩
            have sameChunk :=
              sound.tiled.start_injective bounds inRange otherInRange same
            have taken := sound.stack_occupied esp member j otherInRange meets
            rw [← sameChunk, isFree] at taken
            cases taken }
  · simpa [refused] using sound

/-- The stack grows into a free chunk if it already has those above. -/
theorem Tenancy.Sound.expand
    {esp : Word}
    {reply : Reply}
    (careful : ¬ tenancy.StepsOver link esp reply)
    (agrees : toInt reply.words[0]! = 0)
    {i : Nat}
    (inRange : i < tenancy.app.altmem.nchunks)
    (holds : (tenancy.app.altmem.chunks i).Holds esp)
    (isFree : (tenancy.app.altmem.chunks i).occupied = false) :
    Tenancy.Sound link
      { tenancy with
        app :=
          { tenancy.app with
            altmem := tenancy.app.altmem.setOccupied i true }
        expanded := esp :: tenancy.expanded }
      heap := by
  refine (sound.occupy i).grow ?_
  intro j otherInRange meets
  rw [setOccupied_meetsStack] at meets
  rw [setOccupied_start, setOccupied_occupied]
  by_cases same : j = i
  · subst same
    refine ⟨if_pos rfl, fun out => ?_⟩
    rw [sound.handed_occupied j inRange out] at isFree
    cases isFree
  · have elsewhere : ¬ (tenancy.app.altmem.chunks j).Holds esp :=
      fun otherHolds =>
        same
          (sound.tiled.holds_unique bounds otherInRange inRange otherHolds
            holds)
    have settled :
        ¬ ((tenancy.app.altmem.chunks j).occupied = false ∨
          Out tenancy.handed (tenancy.app.altmem.chunks j).start) :=
      fun unsettled =>
        careful
          ⟨agrees, ⟨i, inRange, holds, isFree⟩, j, otherInRange, meets,
            elsewhere, unsettled⟩
    rw [if_neg same]
    simpa using settled

/-- A trap takes at most the chunk at the stack pointer. -/
theorem Tenancy.Sound.trap
    {epc ecause eval esp : Word}
    {reply : Reply}
    (careful : ¬ tenancy.Careless link (.trap epc ecause eval esp reply)) :
    (tenancy.trap link epc ecause eval esp reply).Sound link heap := by
  rw [Tenancy.trap]
  have tableAfter :=
    trapHandler_raise_altmem link reply tenancy.app epc ecause eval esp
  have succeeds :=
    thStackexpansion_succeeds_iff reply
      (tenancy.app.raise epc ecause eval esp) esp
  generalize
    trapHandler link reply (tenancy.app.raise epc ecause eval esp) = handled
    at tableAfter ⊢
  rw [raise_altmem] at succeeds
  refine Tenancy.Sound.unwind ?_ handled.esp
  by_cases isStack : ecause = 7 ∧ esp ≤ link.stack
  · rw [if_pos isStack] at tableAfter
    rcases altmemStackexpansion_cases tenancy.app.altmem esp with
      ⟨i, inRange, holds, -, isFree, taken⟩ | ⟨-, refused⟩
    · rw [taken] at tableAfter succeeds
      by_cases agrees : toInt reply.words[0]! = 0
      · rw [if_pos ⟨isStack.1, isStack.2, succeeds.mpr ⟨rfl, agrees⟩⟩]
        have notOver : ¬ tenancy.StepsOver link esp reply :=
          fun stepsOver => careful ⟨isStack.1, isStack.2, stepsOver⟩
        exact
          (sound.expand bounds notOver agrees inRange holds isFree).withApp
            tableAfter
      · rw [if_neg fun all => agrees (succeeds.mp all.2.2).2]
        exact (sound.occupy i).withApp tableAfter
    · rw [refused] at tableAfter succeeds
      rw [if_neg fun all => Bool.false_ne_true (succeeds.mp all.2.2).1]
      exact sound.withApp tableAfter
  · rw [if_neg isStack] at tableAfter
    rw [if_neg fun all => isStack ⟨all.1, all.2.1⟩]
    exact sound.withApp tableAfter

end Soundness

/-- A step of the app, of either kind. -/
def Tenancy.Moves
    (link : AppLink)
    (step : AppStep)
    (tenancy next : Tenancy) :
    Prop :=
  next = tenancy.after link step

/-- A step that leaves the chunks of the stack alone. -/
def Tenancy.MovesCarefully
    (link : AppLink)
    (step : AppStep)
    (tenancy next : Tenancy) :
    Prop :=
  ¬ tenancy.Careless link step ∧ next = tenancy.after link step

/-- Nothing has been handed out and the stack has not grown. -/
def Tenancy.start (app : App) : Tenancy :=
  { app := app, handed := [], expanded := [] }

/-- Every careful step keeps soundness. -/
theorem Tenancy.Sound.step
    {heap : Word}
    {link : AppLink}
    (bounds : HeapBounds heap link.stack)
    {step : AppStep}
    {tenancy next : Tenancy}
    (moves : Tenancy.MovesCarefully link step tenancy next)
    (sound : tenancy.Sound link heap) :
    next.Sound link heap := by
  obtain ⟨careful, rfl⟩ := moves
  cases step with
  | alloc size =>
      exact sound.alloc bounds size
  | free ptr =>
      exact sound.free careful
  | unwind esp =>
      exact sound.unwind esp
  | trap epc ecause eval esp reply =>
      exact sound.trap bounds careful

/-- At the start nothing has been handed out. -/
theorem Tenancy.start_sound
    {heap : Word}
    {link : AppLink}
    (bounds : HeapBounds heap link.stack)
    {chunks : Nat → Chunk}
    {app : App}
    (inited : altmemInit heap link.stack chunks = some app.altmem) :
    (Tenancy.start app).Sound link heap := by
  obtain ⟨altmem, filled, tiled, -⟩ := altmemInit_tiles bounds chunks
  cases inited.symm.trans filled
  exact
    { tiled := tiled
      handed_occupied := fun i _ out => absurd out not_out_nil
      stack_occupied := fun esp member => absurd member List.not_mem_nil
      apart := fun esp member => absurd member List.not_mem_nil }

/-- A run of careful steps never hands out what the stack has grown over. -/
theorem stack_apart_over_careful_runs
    {heap : Word}
    {link : AppLink}
    (bounds : HeapBounds heap link.stack)
    {chunks : Nat → Chunk}
    {app : App}
    (inited : altmemInit heap link.stack chunks = some app.altmem)
    {steps : List AppStep}
    {tenancy : Tenancy}
    (run :
      Run (Tenancy.MovesCarefully link) steps (Tenancy.start app) tenancy) :
    tenancy.StackIsApart link := by
  have sound : tenancy.Sound link heap :=
    run.invariant
      (fun state => state.Sound link heap)
      (fun _ _ _ _ moves sound => sound.step bounds moves)
      (fun _ _ => True.intro)
      (Tenancy.start_sound bounds inited)
  exact sound.apart

/-- The symbols of an app that `misc/pmp_compatible.lds` has linked. -/
def linkedApp : AppLink where
  start := appBase
  stack := linkedStack
  stackTop := 0x80030000
  loop := 0x80020200
  setup := 0x80020100

/-- The app with the capability for the first chunk of its heap. -/
def appWithHeap (altmem : Altmem) : App where
  altmem := altmem
  caps := fun slot =>
    if slot = 3 then .pmp (s3kPmpNapotAddr linkedHeap 0x80029000) 0x1
    else .none
  buf := Vector.replicate 4 0
  epc := 0
  ecause := 0
  eval := 0
  esp := 0
  sends := []

/-- The monitor has updated the capability. -/
def agreement (altmem : Altmem) : Reply where
  words := Vector.replicate 4 0
  caps := (appWithHeap altmem).caps

/-- A stack frame in the topmost chunk, then an allocation. -/
theorem topChunk_stack_apart :
    ∃ initial next,
      altmemInit linkedHeap linkedStack blankChunks = some initial ∧
        Run (Tenancy.MovesCarefully linkedApp)
          [.trap 0x80020300 7 0x8002E800 0x8002E800 (agreement initial),
            .alloc 0x100]
          (Tenancy.start (appWithHeap initial)) next ∧
        next.StackIsApart linkedApp := by
  obtain ⟨initial, inited, tiled, -⟩ :=
    altmemInit_tiles linkedBounds blankChunks
  have careful :
      ¬ (Tenancy.start (appWithHeap initial)).Careless linkedApp
          (.trap 0x80020300 7 0x8002E800 0x8002E800 (agreement initial)) := by
    rintro ⟨-, -, -, -, i, inRange, ⟨addr, holds, above, -⟩, elsewhere, -⟩
    have tiledHere : Tiled linkedHeap linkedStack initial := tiled
    have within :=
      (tiledHere.holds_iff linkedBounds inRange).mp holds
    have outside :=
      mt (tiledHere.holds_iff linkedBounds inRange).mpr elsewhere
    have last := (tiledHere.start_toNat linkedBounds inRange).2
    have heapEq : linkedHeap.toNat = 0x80028000 := rfl
    have stackEq : linkedStack.toNat = 0x8002F000 := rfl
    have espEq : (0x8002E800 : Word).toNat = 0x8002E800 := rfl
    rw [BitVec.le_def, espEq] at above
    omega
  have run :
      Run (Tenancy.MovesCarefully linkedApp)
        [.trap 0x80020300 7 0x8002E800 0x8002E800 (agreement initial),
          .alloc 0x100]
        (Tenancy.start (appWithHeap initial)) _ :=
    .cons ⟨careful, rfl⟩ (.cons ⟨id, rfl⟩ (.nil _))
  exact ⟨initial, _, inited, run,
    stack_apart_over_careful_runs linkedBounds inited run⟩

/-- A stack frame of almost the whole heap, then an allocation. -/
theorem jumpedChunk_handed_out :
    ∃ initial next,
      altmemInit linkedHeap linkedStack blankChunks = some initial ∧
        Run (Tenancy.Moves linkedApp)
          [.trap 0x80020300 7 0x80028100 0x80028100 (agreement initial),
            .alloc 0x100]
          (Tenancy.start (appWithHeap initial)) next ∧
        ¬ next.StackIsApart linkedApp := by
  refine ⟨_, _, rfl, .cons rfl (.cons rfl (.nil _)), fun apart => ?_⟩
  refine apart 0x80028100 ?_ 1 ?_ ⟨0x80029000, ?_⟩ ⟨[], [], rfl, ?_⟩
  · decide +kernel
  · decide +kernel
  · decide +kernel
  · exact List.not_mem_nil

end S3kMonitor
