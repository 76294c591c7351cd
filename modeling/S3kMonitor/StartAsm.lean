import S3kMonitor.CommonAsm

namespace S3kMonitor

open ByteAreas Rv64

/-!
# The assembly of `common/start.S`

The loop over `.bss` clears double words and compares its pointer with the end
for equality only, so it can miss an end that is not aligned.
-/

/-- The routines that the start-up code leaves for. -/
inductive StartCallee where
  | setup
  | loop
deriving DecidableEq

/-- The addresses that the linker gives to the symbols of `start.S`. -/
structure StartLink where
  globalPointer : Word
  stackTop : Word
  bss : Word
  ebss : Word
  loop : Word

variable (link : StartLink)

/-- Label 1 is instruction 5, and label 2 is instruction 7. -/
def start : List (Instr StartCallee) :=
  [.lla .gp link.globalPointer,
    .lla .sp link.stackTop,
    .lla .t0 link.bss,
    .lla .t1 link.ebss,
    .j 7,
    .sd .zero 0 .t0,
    .addi .t0 .t0 8,
    .bne .t0 .t1 5,
    .call .setup,
    .lla .ra link.loop,
    .tail .loop]

/-- A store of 0 to the next double word makes the cleared area longer. -/
theorem filled_double
    (mem : Memory)
    (dst : Word)
    {i : Nat}
    (inRange : 8 * (i + 1) ≤ 2 ^ 64) :
    storeDouble (filled mem dst 0 (8 * i)) (dst + BitVec.ofNat 64 (8 * i)) 0 =
      filled mem dst 0 (8 * (i + 1)) := by
  funext addr
  have offset :
      (addr - (dst + BitVec.ofNat 64 (8 * i))).toNat =
        (2 ^ 64 - 8 * i + (addr - dst).toNat) % 2 ^ 64 := by
    have back : addr - (dst + BitVec.ofNat 64 (8 * i)) =
        (addr - dst) - BitVec.ofNat 64 (8 * i) := by
      grind
    have small : 8 * i < 2 ^ 64 := by
      omega
    rw [back, BitVec.toNat_sub, BitVec.toNat_ofNat, Nat.mod_eq_of_lt small]
  have bound := (addr - dst).isLt
  rw [storeDouble, offset, filled, filled]
  by_cases before : (addr - dst).toNat < 8 * i
  · rw [if_neg (by omega), if_pos before, if_pos (by omega)]
  · by_cases here : (addr - dst).toNat < 8 * (i + 1)
    · rw [if_pos (by omega), if_pos here]
      exact BitVec.extractLsb'_zero
    · rw [if_neg (by omega), if_neg before, if_neg here]

section Turns

variable
  (regs : Rv64.Reg → Word)
  (mem : Memory)

/-- The start-up code executes itself and writes the first double words. -/
inductive ClearAccess (doubles : Nat) : Access → Prop where
  | fetch (pc : Nat) (inCode : pc < 11) :
      ClearAccess doubles (.fetch pc)
  | store (i : Nat) (inside : i < 8 * doubles) :
      ClearAccess doubles (.store (link.bss + BitVec.ofNat 64 i))

/-- The state at the branch after `i` turns of the loop over `.bss`. -/
structure StartTurn (i : Nat) (machine : Machine) : Prop where
  pc : machine.pc = 7
  pointer : machine.regs .t0 = link.bss + BitVec.ofNat 64 (8 * i)
  stop : machine.regs .t1 = link.ebss
  globalPointer : machine.regs .gp = link.globalPointer
  stackPointer : machine.regs .sp = link.stackTop
  kept :
    ∀ reg, reg ∉ [.gp, .sp, .t0, .t1] → machine.regs reg = regs reg
  mem : machine.mem = filled mem link.bss 0 (8 * i)

/-- Up to the branch nothing is written. -/
theorem start_entry (doubles : Nat) :
    Leads (start link) (ClearAccess link doubles)
      (fun machine => machine = ⟨regs, mem, 0⟩) (StartTurn link regs mem 0) := by
  apply Leads.block 5
  rintro _ rfl
  refine
    ⟨⟨Function.update
          (Function.update
            (Function.update
              (Function.update regs .gp link.globalPointer) .sp
              link.stackTop) .t0 link.bss) .t1 link.ebss, mem, 7⟩,
      [.fetch 0, .fetch 1, .fetch 2, .fetch 3, .fetch 4],
      ?_, ?_, rfl, ?_, ?_, ?_, ?_, ?_, ?_⟩
  · simp [run, step, accesses, Instr.execute, Instr.data, start, Machine.goto,
      Machine.setNext]
  · simp [ClearAccess.fetch]
  · simp
  · simp
  · simp
  · simp
  · intro reg other
    simp only [List.mem_cons, List.not_mem_nil, or_false, not_or] at other
    simp [other]
  · exact (filled_zero _ _ _).symm

variable
  {link}
  {doubles i : Nat}

/-- As long as its pointer is not at the end, the loop goes on. -/
theorem start_goesOn
    (notDone : link.bss + BitVec.ofNat 64 (8 * i) ≠ link.ebss) :
    Leads (start link) (ClearAccess link doubles) (StartTurn link regs mem i)
      (fun machine =>
        machine.pc = 5 ∧
          StartTurn link regs mem i { machine with pc := 7 }) := by
  apply Leads.block 1
  rintro ⟨other, area, pc⟩ ⟨rfl, pointer, stop, gp, sp, kept, memEq⟩
  dsimp only at pointer stop gp sp kept memEq
  have differ : other .t0 ≠ other .t1 := by
    rw [pointer, stop]
    exact notDone
  refine
    ⟨⟨other, area, 5⟩, [.fetch 7], ?_, ?_, rfl, rfl, pointer, stop, gp, sp,
      kept, memEq⟩
  · simp [run, step, accesses, Instr.execute, Instr.data, start, Machine.get,
      Machine.goto, differ]
  · simp [ClearAccess.fetch]

variable
  (aligned : link.bss.toNat % 8 = 0)
  (inRange : 8 * (doubles + 1) ≤ 2 ^ 64)
include aligned inRange

/-- A turn clears one double word. -/
theorem start_turn
    (before : i < doubles)
    (notDone : link.bss + BitVec.ofNat 64 (8 * i) ≠ link.ebss) :
    Leads (start link) (ClearAccess link doubles) (StartTurn link regs mem i)
      (StartTurn link regs mem (i + 1)) := by
  refine (start_goesOn regs mem notDone).trans (Leads.block 2 ?_)
  rintro ⟨other, area, pc⟩ ⟨rfl, -, pointer, stop, gp, sp, kept, memEq⟩
  dsimp only at pointer stop gp sp kept memEq
  have isAligned : (other .t0).toNat % 8 = 0 := by
    rw [pointer, BitVec.toNat_add, BitVec.toNat_ofNat]
    omega
  have stored :=
    filled_double mem link.bss (show 8 * (i + 1) ≤ 2 ^ 64 by omega)
  refine
    ⟨⟨Function.update other .t0 (other .t0 + 8),
        filled mem link.bss 0 (8 * (i + 1)), 7⟩,
      .fetch 5 ::
        ((List.range 8).map fun byte =>
          .store (other .t0 + BitVec.ofNat 64 byte)) ++ [.fetch 6],
      ?_, ?_, rfl, ?_, ?_, ?_, ?_, ?_, rfl⟩
  · rw [← stored, ← pointer, ← memEq]
    simp [run, step, accesses, Instr.execute, Instr.data, start, Machine.get,
      Machine.storeNext, Machine.setNext, Machine.address, isAligned]
  · have isStore (byte : Nat) (inWord : byte < 8) :
        ClearAccess link doubles
          (.store (other .t0 + BitVec.ofNat 64 byte)) := by
      rw [pointer, BitVec.add_assoc, ← BitVec.ofNat_add]
      exact .store _ (by omega)
    simp only [List.mem_append, List.mem_cons, List.mem_map, List.mem_range,
      List.not_mem_nil, or_false]
    rintro access ((rfl | ⟨byte, inWord, rfl⟩) | rfl)
    · exact .fetch 5 (by decide)
    · exact isStore byte inWord
    · exact .fetch 6 (by decide)
  · simp [pointer, Nat.mul_add, BitVec.ofNat_add, BitVec.add_assoc]
  · simp [stop]
  · simp [gp]
  · simp [sp]
  · intro reg isOther
    have notPointer : reg ≠ .t0 := fun same => isOther (by simp [same])
    simp [notPointer, kept reg isOther]

/-- The loop clears double words as long as it does not meet the end. -/
theorem start_clears
    {count : Nat}
    (atMost : count ≤ doubles)
    (notDone :
      ∀ i < count, link.bss + BitVec.ofNat 64 (8 * i) ≠ link.ebss) :
    Leads (start link) (ClearAccess link doubles)
      (fun machine => machine = ⟨regs, mem, 0⟩)
      (StartTurn link regs mem count) :=
  (start_entry link regs mem doubles).trans
    (Leads.loop (StartTurn link regs mem) count fun i before =>
      start_turn regs mem aligned inRange (before.trans_le atMost)
        (notDone i before))

end Turns

section Outcome

variable
  (text : Text StartCallee)
  (allowed : Access → Prop)

/--
The start-up code stands in memory apart from the first double words of `.bss`
and may be executed; these double words may be written, the next one may not.
-/
structure Clearable (link : StartLink) (doubles : Nat) : Prop where
  aligned : link.bss.toNat % 8 = 0
  inRange : 8 * (doubles + 1) ≤ 2 ^ 64
  may : ∀ access, ClearAccess link doubles access → allowed access
  limit :
    ∃ byte < 8,
      ¬ allowed (.store (link.bss + BitVec.ofNat 64 (8 * doubles + byte)))
  apart :
    ∀ pc < 11, ∀ address ∈ text.span pc,
      ¬ ClearAccess link doubles (.store address)

/-- The state in which `setup` is called. -/
structure AtSetup
    (link : StartLink)
    (regs : Rv64.Reg → Word)
    (mem : Memory)
    (machine : Machine) :
    Prop where
  calls : text.fetch machine.mem machine.pc = some (.call .setup)
  globalPointer : machine.regs .gp = link.globalPointer
  stackPointer : machine.regs .sp = link.stackTop
  kept :
    ∀ reg, reg ∉ [.gp, .sp, .t0, .t1] → machine.regs reg = regs reg
  mem : machine.mem = filled mem link.bss 0 (link.ebss - link.bss).toNat

/--
The loop is at a store that faults, and has cleared everything in front of it.
-/
structure AtLimit
    (link : StartLink)
    (doubles : Nat)
    (mem : Memory)
    (machine : Machine) :
    Prop where
  stores : text.fetch machine.mem machine.pc = some (.sd .zero 0 .t0)
  faults : text.Faults allowed machine
  mem : machine.mem = filled mem link.bss 0 (8 * doubles)

variable
  {text}
  {allowed}
  {link : StartLink}
  {doubles : Nat}
  (regs : Rv64.Reg → Word)
  {mem : Memory}
  (clearable : Clearable text allowed link doubles)
  (stands : text.Holds (start link) mem)

/-- The loop meets the end of `.bss` if it is one of its double words. -/
theorem meets_end_iff
    (aligned : link.bss.toNat % 8 = 0)
    (inRange : 8 * (doubles + 1) ≤ 2 ^ 64) :
    (∃ i ≤ doubles, link.bss + BitVec.ofNat 64 (8 * i) = link.ebss) ↔
      link.ebss.toNat % 8 = 0 ∧
        (link.ebss - link.bss).toNat ≤ 8 * doubles := by
  have bound := link.bss.isLt
  constructor
  · rintro ⟨i, atMost, isEnd⟩
    have size : (link.ebss - link.bss).toNat = 8 * i :=
      (offset_toNat link.bss link.ebss (by omega)).mpr isEnd.symm
    refine ⟨?_, by omega⟩
    rw [← isEnd, BitVec.toNat_add, BitVec.toNat_ofNat]
    omega
  · rintro ⟨whole, fits⟩
    have size : (link.ebss - link.bss).toNat % 8 = 0 := by
      rw [BitVec.toNat_sub]
      omega
    refine ⟨(link.ebss - link.bss).toNat / 8, by omega, ?_⟩
    refine ((offset_toNat link.bss link.ebss (by omega)).mp ?_).symm
    omega

include clearable stands

/-- What the numbered code comes to, it comes to in memory. -/
theorem Clearable.reaches
    {machine : Machine}
    (way :
      ReachesWith (start link) (ClearAccess link doubles) ⟨regs, mem, 0⟩
        machine) :
    text.Reaches allowed ⟨regs, mem, 0⟩ machine ∧
      text.Holds (start link) machine.mem := by
  have undisturbed :
      text.Undisturbed (start link) ∅ (ClearAccess link doubles) :=
    ⟨fun _ _ _ _ => Set.notMem_empty _, clearable.apart,
      fun _ _ => Set.notMem_empty _⟩
  exact ⟨stands.reachesInMemory undisturbed clearable.may way,
    stands.reaches undisturbed way⟩

/-- If the end is met, `setup` is called. -/
theorem Clearable.reachesSetup
    (meets : ∃ i ≤ doubles, link.bss + BitVec.ofNat 64 (8 * i) = link.ebss) :
    ∃ final,
      text.Reaches allowed ⟨regs, mem, 0⟩ final ∧
        AtSetup text link regs mem final := by
  obtain ⟨count, atMost, isEnd⟩ := meets
  have inRange := clearable.inRange
  have size : (link.ebss - link.bss).toNat = 8 * count :=
    (offset_toNat link.bss link.ebss (by omega)).mpr isEnd.symm
  have notDone (i : Nat) (before : i < count) :
      link.bss + BitVec.ofNat 64 (8 * i) ≠ link.ebss := by
    intro isEnd
    have same : (link.ebss - link.bss).toNat = 8 * i :=
      (offset_toNat link.bss link.ebss (by omega)).mpr isEnd.symm
    omega
  obtain ⟨machine, way, atBranch⟩ :=
    start_clears regs mem clearable.aligned inRange atMost notDone _ rfl
  obtain ⟨other, area, pc⟩ := machine
  obtain ⟨rfl, pointer, stop, gp, sp, kept, memEq⟩ := atBranch
  dsimp only at pointer stop gp sp kept memEq
  have done : other .t0 = other .t1 := by
    rw [pointer, stop, isEnd]
  have leaves :
      run (start link) 1 ⟨other, area, 7⟩ =
        some (⟨other, area, 8⟩, [.fetch 7]) := by
    simp [run, step, accesses, Instr.execute, Instr.data, start, Machine.get,
      Machine.goto, done]
  have onward :
      ReachesWith (start link) (ClearAccess link doubles) ⟨other, area, 7⟩
        ⟨other, area, 8⟩ :=
    reachesWith_of_run leaves (by simp [ClearAccess.fetch])
  obtain ⟨reached, stillStands⟩ :=
    clearable.reaches regs stands (way.trans onward)
  have inCode : 8 < (start link).length := by
    simp [start]
  exact ⟨_, reached, stillStands 8 inCode, gp, sp, kept,
    size ▸ memEq⟩

/-- If it is not, the loop clears what it may, and then faults. -/
theorem Clearable.reachesFault
    (never :
      ¬ ∃ i ≤ doubles, link.bss + BitVec.ofNat 64 (8 * i) = link.ebss) :
    ∃ final,
      text.Reaches allowed ⟨regs, mem, 0⟩ final ∧
        AtLimit text allowed link doubles mem final := by
  have notDone (i : Nat) (atMost : i ≤ doubles) :
      link.bss + BitVec.ofNat 64 (8 * i) ≠ link.ebss :=
    fun isEnd => never ⟨i, atMost, isEnd⟩
  have toStore :=
    (start_clears regs mem clearable.aligned clearable.inRange le_rfl
      fun i before => notDone i before.le).trans
      (start_goesOn regs mem (notDone doubles le_rfl))
  obtain ⟨machine, way, atStore⟩ := toStore _ rfl
  obtain ⟨other, area, pc⟩ := machine
  obtain ⟨rfl, -, pointer, -, -, -, -, memEq⟩ := atStore
  dsimp only at pointer memEq
  obtain ⟨reached, stillStands⟩ := clearable.reaches regs stands way
  obtain ⟨byte, inWord, forbidden⟩ := clearable.limit
  have inCode : 5 < (start link).length := by
    simp [start]
  have isStore : text.fetch area 5 = some (.sd .zero 0 .t0) :=
    stillStands 5 inCode
  refine ⟨_, reached, isStore, ⟨_, ?_, forbidden⟩, memEq⟩
  rw [Text.accesses, isStore]
  refine List.mem_cons_of_mem _ (List.mem_map.mpr
    ⟨byte, List.mem_range.mpr inWord, ?_⟩)
  rw [BitVec.ofNat_add, ← BitVec.add_assoc, ← pointer]
  simp [Machine.address, Machine.get]

/--
The start-up code calls `setup`, with the stack and the global pointer of the
linker and with `.bss` cleared, if and only if the end of `.bss` is aligned and
lies in front of the first double word that may not be written.  Otherwise it
clears everything up to there, and its next store faults.
-/
theorem start_callsSetup_iff :
    ((∃ final,
        text.Reaches allowed ⟨regs, mem, 0⟩ final ∧
          AtSetup text link regs mem final) ↔
      link.ebss.toNat % 8 = 0 ∧
        (link.ebss - link.bss).toNat ≤ 8 * doubles) ∧
    (¬ (link.ebss.toNat % 8 = 0 ∧
          (link.ebss - link.bss).toNat ≤ 8 * doubles) →
      ∃ final,
        text.Reaches allowed ⟨regs, mem, 0⟩ final ∧
          AtLimit text allowed link doubles mem final) := by
  rw [← meets_end_iff clearable.aligned clearable.inRange]
  refine ⟨⟨?_, clearable.reachesSetup regs stands⟩,
    clearable.reachesFault regs stands⟩
  rintro ⟨final, reached, atSetup⟩
  by_contra never
  obtain ⟨other, otherReached, atLimit⟩ :=
    clearable.reachesFault regs stands never
  have calls (next : Machine) : ¬ text.Step allowed final next := by
    rintro ⟨instr, fetched, -, executed⟩
    rw [atSetup.calls] at fetched
    cases fetched
    cases executed
  obtain rfl :=
    reached.stuck_unique otherReached calls atLimit.faults.stuck
  cases atSetup.calls.symm.trans atLimit.stores

end Outcome

section Link

/-- The symbols of the linked app. -/
def pageLink : StartLink where
  globalPointer := 0x80026000
  stackTop := 0x80030000
  bss := 0x80026000
  ebss := 0x80028000
  loop := 0x80020300

/-- The assembled instructions of the start-up code with these symbols. -/
def startBytes : List (List Byte) :=
  [[0x97, 0x61, 0x00, 0x00, 0x93, 0x81, 0x01, 0x00],
    [0x17, 0x01, 0x01, 0x00, 0x13, 0x01, 0x81, 0xFF],
    [0x97, 0x62, 0x00, 0x00, 0x93, 0x82, 0x02, 0xFF],
    [0x17, 0x83, 0x00, 0x00, 0x13, 0x03, 0x83, 0xFE],
    [0x21, 0xA0],
    [0x23, 0xB0, 0x02, 0x00],
    [0xA1, 0x02],
    [0xE3, 0x9D, 0x62, 0xFE],
    [0x97, 0x00, 0x00, 0x00, 0xE7, 0x80, 0x40, 0x1D],
    [0x97, 0x00, 0x00, 0x00, 0x93, 0x80, 0xC0, 0x2C],
    [0x17, 0x03, 0x00, 0x00, 0x67, 0x00, 0x43, 0x2C]]

/-- The start-up code at the entry of the app. -/
def startText : Text StartCallee :=
  Text.assembled 0x80020000 ((start pageLink).zip startBytes)

/-- Only the 1024 double words of `.bss` can be written. -/
theorem pageLink_clearable :
    Clearable startText linkedRights pageLink 1024 where
  aligned := by decide
  inRange := by decide
  may access made := by
    cases made with
    | fetch pc inCode =>
        trivial
    | store i inside =>
        have few : i < 8192 := inside
        simp only [linkedRights, pageLink]
        constructor <;> bv_omega
  limit := ⟨0, by decide, by simp [linkedRights, pageLink]⟩
  apart pc inCode address inText made := by
    obtain ⟨k, inBytes, rfl⟩ := Text.mem_span_assembled _ _ inCode inText
    have few : k < 68 := inBytes
    generalize isAddress : 0x80020000 + BitVec.ofNat 64 k = address at made
    cases made with
    | store i inside =>
        have little : i < 8192 := inside
        simp only [pageLink] at isAddress
        bv_omega

/-- The linked app comes to its `setup`. -/
theorem pageLink_callsSetup :
    ∃ final,
      startText.Reaches linkedRights
          ⟨fun _ => 0, memoryOf 0x80020000 startBytes.flatten, 0⟩ final ∧
        AtSetup startText pageLink (fun _ => 0)
          (memoryOf 0x80020000 startBytes.flatten) final :=
  (start_callsSetup_iff (fun _ => 0) pageLink_clearable
    (by decide +kernel)).1.mpr (by decide)

end Link

end S3kMonitor
