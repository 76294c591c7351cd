import S3kMonitor.Lib.Rv64Text
import S3kMonitor.Setup

namespace S3kMonitor

open ByteAreas Rv64

/-!
# The assembly of `common/common.S`

The local labels are the numbers of the instructions behind them.  `memset`
and `memcpy` count their pointer up to the end of the area, and compare the
two for equality only.  They stand in the memory that they write, and each of
their accesses has to be allowed.
-/

/-- Label 1 is instruction 3, and label 2 is instruction 5. -/
def memset : List (Instr Empty) :=
  [.mv .t0 .a0,
    .add .t1 .a0 .a2,
    .j 5,
    .sb .a1 0 .t0,
    .addi .t0 .t0 1,
    .bne .t0 .t1 3,
    .ret]

/-- The assembled instructions of `memset`. -/
def memsetBytes : List (List Byte) :=
  [[0xAA, 0x82],
    [0x33, 0x03, 0xC5, 0x00],
    [0x21, 0xA0],
    [0x23, 0x80, 0xB2, 0x00],
    [0x85, 0x02],
    [0xE3, 0x9D, 0x62, 0xFE],
    [0x82, 0x80]]

/-- Label 1 is instruction 3, and label 2 is instruction 7. -/
def memcpy : List (Instr Empty) :=
  [.mv .t0 .a0,
    .add .a2 .a2 .a1,
    .j 7,
    .lb .t2 0 .a1,
    .addi .a1 .a1 1,
    .sb .t2 0 .t0,
    .addi .t0 .t0 1,
    .bne .a1 .a2 3,
    .ret]

/-- The assembled instructions of `memcpy`. -/
def memcpyBytes : List (List Byte) :=
  [[0xAA, 0x82],
    [0x2E, 0x96],
    [0x39, 0xA0],
    [0x83, 0x83, 0x05, 0x00],
    [0x85, 0x05],
    [0x23, 0x80, 0x72, 0x00],
    [0x85, 0x02],
    [0xE3, 0x9A, 0xC5, 0xFE],
    [0x82, 0x80]]

/-- A memory with some bytes from an address on and nothing else. -/
def memoryOf (base : Word) (bytes : List Byte) : Memory :=
  fun addr => bytes.getD (addr - base).toNat 0

section Routines

/-- The next byte of an area. -/
theorem pointer_succ
    (base : Word)
    (i : Nat) :
    base + BitVec.ofNat 64 i + 1 = base + BitVec.ofNat 64 (i + 1) := by
  rw [BitVec.ofNat_add, BitVec.add_assoc]
  rfl

/-- In front of the end the pointer is not there yet. -/
theorem pointer_ne_stop
    (base : Word)
    {count : Word}
    {i : Nat}
    (before : i < count.toNat) :
    base + BitVec.ofNat 64 i ≠ base + count := by
  intro same
  have equal : BitVec.ofNat 64 i = count := by
    grind
  rw [← equal, BitVec.toNat_ofNat] at before
  exact absurd (Nat.mod_le i (2 ^ 64)) (Nat.not_le.mpr before)

/-- What `lb` has loaded, `sb` stores. -/
theorem setWidth_signExtend_byte (value : Byte) :
    (value.signExtend 64).setWidth 8 = value := by
  apply BitVec.eq_of_getLsbD_eq
  intro i inRange
  rw [BitVec.getLsbD_setWidth, BitVec.getLsbD_signExtend]
  simp [inRange]
  omega

/-- The routine has returned and has kept all registers but these. -/
structure Returned
    (code : List (Instr Empty))
    (scratch : List Rv64.Reg)
    (start final : Machine) :
    Prop where
  atRet : code[final.pc]? = some .ret
  kept : ∀ reg, reg ∉ scratch → final.regs reg = start.regs reg

/-- `memset` writes its area and executes itself. -/
inductive MemsetAccess (regs : Rv64.Reg → Word) : Access → Prop where
  | fetch (pc : Nat) (inCode : pc < 7) :
      MemsetAccess regs (.fetch pc)
  | store (i : Nat) (inside : i < (regs .a2).toNat) :
      MemsetAccess regs (.store (regs .a0 + BitVec.ofNat 64 i))

/-- The state at the branch after `i` turns of the loop of `memset`. -/
structure MemsetTurn (start : Machine) (i : Nat) (machine : Machine) :
    Prop where
  pc : machine.pc = 5
  pointer : machine.regs .t0 = start.regs .a0 + BitVec.ofNat 64 i
  stop : machine.regs .t1 = start.regs .a0 + start.regs .a2
  others : ∀ reg, reg ∉ [.t0, .t1] → machine.regs reg = start.regs reg
  mem :
    machine.mem =
      filled start.mem (start.regs .a0) ((start.regs .a1).setWidth 8) i

/-- A turn writes one byte. -/
theorem memset_turn
    (start : Machine)
    {i : Nat}
    (before : i < (start.regs .a2).toNat) :
    Leads memset (MemsetAccess start.regs) (MemsetTurn start i)
      (MemsetTurn start (i + 1)) := by
  apply Leads.block 3
  rintro ⟨regs, mem, pc⟩ ⟨rfl, pointer, stop, others, rfl⟩
  dsimp only at pointer stop others
  have value : regs .a1 = start.regs .a1 := others .a1 (by decide)
  have notDone : regs .t0 ≠ regs .t1 := by
    rw [pointer, stop]
    exact pointer_ne_stop _ before
  have stored := filled_succ start.mem (start.regs .a0)
    ((start.regs .a1).setWidth 8) (before.trans (start.regs .a2).isLt)
  refine
    ⟨⟨Function.update regs .t0 (regs .t0 + 1), filled start.mem _ _ (i + 1),
        5⟩,
      [.fetch 5, .fetch 3, .store (regs .t0), .fetch 4], ?_, ?_, rfl, ?_, ?_,
      ?_, rfl⟩
  · rw [← stored, ← pointer, ← value]
    simp [run, step, accesses, Instr.execute, Instr.data, memset, Machine.get,
      Machine.goto, Machine.storeNext, Machine.setNext, Machine.address,
      notDone]
  · have isStore : MemsetAccess start.regs (.store _) := .store i before
    rw [← pointer] at isStore
    simp [isStore, MemsetAccess.fetch]
  · simpa [pointer] using pointer_succ (start.regs .a0) i
  · simp [stop]
  · intro reg other
    have isOther : reg ≠ .t0 := fun same => other (by simp [same])
    simp [isOther, others reg other]

/-- Up to the branch nothing is written. -/
theorem memset_entry
    (regs : Rv64.Reg → Word)
    (mem : Memory) :
    Leads memset (MemsetAccess regs) (fun machine => machine = ⟨regs, mem, 0⟩)
      (MemsetTurn ⟨regs, mem, 0⟩ 0) := by
  apply Leads.block 3
  rintro _ rfl
  refine
    ⟨⟨Function.update (Function.update regs .t0 (regs .a0)) .t1
        (regs .a0 + regs .a2), mem, 5⟩,
      [.fetch 0, .fetch 1, .fetch 2], ?_, ?_, rfl, ?_, ?_, ?_, ?_⟩
  · simp [run, step, accesses, Instr.execute, Instr.data, memset, Machine.get,
      Machine.goto, Machine.setNext]
  · simp [MemsetAccess.fetch]
  · simp
  · simp
  · intro reg other
    simp only [List.mem_cons, List.not_mem_nil, or_false, not_or] at other
    simp [other]
  · exact (filled_zero _ _ _).symm

/-- After the last turn the routine is at its `ret`. -/
theorem memset_exit (start : Machine) :
    Leads memset (MemsetAccess start.regs)
      (MemsetTurn start (start.regs .a2).toNat)
      (fun final =>
        Returned memset [.t0, .t1] start final ∧
          final.mem =
            filled start.mem (start.regs .a0) ((start.regs .a1).setWidth 8)
              (start.regs .a2).toNat) := by
  apply Leads.block 1
  rintro ⟨regs, mem, pc⟩ ⟨rfl, pointer, stop, kept, memEq⟩
  dsimp only at pointer stop kept memEq
  have done : regs .t0 = regs .t1 := by
    rw [pointer, stop, BitVec.ofNat_toNat, BitVec.setWidth_eq]
  refine ⟨⟨regs, mem, 6⟩, [.fetch 5], ?_, ?_, ⟨rfl, kept⟩, memEq⟩
  · simp [run, step, accesses, Instr.execute, Instr.data, memset, Machine.get,
      Machine.goto, done]
  · simp [MemsetAccess.fetch]

/-- The numbered code of `memset` returns for every argument. -/
theorem memset_returns
    (regs : Rv64.Reg → Word)
    (mem : Memory) :
    ∃ final,
      ReachesWith memset (MemsetAccess regs) ⟨regs, mem, 0⟩ final ∧
        Returned memset [.t0, .t1] ⟨regs, mem, 0⟩ final ∧
        final.mem =
          filled mem (regs .a0) ((regs .a1).setWidth 8) (regs .a2).toNat := by
  have loops :=
    Leads.loop (MemsetTurn ⟨regs, mem, 0⟩) (regs .a2).toNat
      fun i before => memset_turn ⟨regs, mem, 0⟩ before
  have correct := (memset_entry regs mem).trans (loops.trans (memset_exit _))
  exact correct _ rfl

variable
  {text : Text Empty}
  {allowed : Access → Prop}

/--
A routine is called for which it may do its accesses, and none of its stores
goes to its own bytes.
-/
structure Callable
    (text : Text Empty)
    (allowed : Access → Prop)
    (code : List (Instr Empty))
    (makes : Access → Prop) :
    Prop where
  may : ∀ access, makes access → allowed access
  apart :
    ∀ pc < code.length, ∀ address ∈ text.span pc, ¬ makes (.store address)

/-- What the numbered code of a routine comes to, it comes to in memory. -/
theorem Callable.reaches
    {code : List (Instr Empty)}
    {makes : Access → Prop}
    {machine final : Machine}
    (callable : Callable text allowed code makes)
    (stands : text.Holds code machine.mem)
    (way : ReachesWith code makes machine final) :
    text.Reaches allowed machine final ∧ text.Holds code final.mem := by
  have undisturbed : text.Undisturbed code ∅ makes :=
    ⟨fun _ _ _ _ => Set.notMem_empty _, callable.apart,
      fun _ _ => Set.notMem_empty _⟩
  exact ⟨stands.reachesInMemory undisturbed callable.may way,
    stands.reaches undisturbed way⟩

/--
If `memset` stands in memory apart from the area, may be executed and may write
each byte of the area, then it returns, and has written the low byte of its
second argument to the area and nothing else.
-/
theorem memset_fills
    (regs : Rv64.Reg → Word)
    (mem : Memory)
    (stands : text.Holds memset mem)
    (callable : Callable text allowed memset (MemsetAccess regs)) :
    ∃ final,
      text.Reaches allowed ⟨regs, mem, 0⟩ final ∧
        text.Holds memset final.mem ∧
        Returned memset [.t0, .t1] ⟨regs, mem, 0⟩ final ∧
        final.mem =
          filled mem (regs .a0) ((regs .a1).setWidth 8) (regs .a2).toNat := by
  obtain ⟨final, way, returned, isFilled⟩ := memset_returns regs mem
  obtain ⟨reached, stillStands⟩ := callable.reaches stands way
  exact ⟨final, reached, stillStands, returned, isFilled⟩

/-- Everything may be executed and read, and only `.bss` may be written. -/
def linkedRights : Access → Prop
  | .fetch _ => True
  | .load _ => True
  | .store address => 0x80026000 ≤ address ∧ address < 0x80028000

/-- `memset` in the `.text` of the app. -/
def memsetText : Text Empty :=
  Text.assembled 0x80020400 (memset.zip memsetBytes)

/-- Sixteen bytes at the start of `.bss`. -/
def memsetRegs : Rv64.Reg → Word
  | .a0 => 0x80026000
  | .a1 => 0x5A
  | .a2 => 16
  | _ => 0

theorem memsetRegs_callable :
    Callable memsetText linkedRights memset (MemsetAccess memsetRegs) where
  may access made := by
    cases made with
    | fetch pc inCode =>
        trivial
    | store i inside =>
        have few : i < 16 := inside
        simp only [linkedRights, memsetRegs]
        constructor <;> bv_omega
  apart pc inCode address inText made := by
    obtain ⟨k, inBytes, rfl⟩ := Text.mem_span_assembled _ _ inCode inText
    have few : k < 20 := inBytes
    generalize isAddress : 0x80020400 + BitVec.ofNat 64 k = address at made
    cases made with
    | store i inside =>
        have little : i < 16 := inside
        simp only [memsetRegs] at isAddress
        bv_omega

/-- Sixteen bytes of `.bss` are filled. -/
theorem memset_fillsBss :
    ∃ final,
      memsetText.Reaches linkedRights
          ⟨memsetRegs, memoryOf 0x80020400 memsetBytes.flatten, 0⟩ final ∧
        memsetText.Holds memset final.mem ∧
        Returned memset [.t0, .t1]
          ⟨memsetRegs, memoryOf 0x80020400 memsetBytes.flatten, 0⟩ final ∧
        final.mem =
          filled (memoryOf 0x80020400 memsetBytes.flatten) 0x80026000 0x5A
            16 :=
  memset_fills memsetRegs _ (by decide +kernel) memsetRegs_callable

/-- `memcpy` reads its source, writes its target and executes itself. -/
inductive CopyAccess (regs : Rv64.Reg → Word) : Access → Prop where
  | fetch (pc : Nat) (inCode : pc < 9) :
      CopyAccess regs (.fetch pc)
  | load (i : Nat) (inside : i < (regs .a2).toNat) :
      CopyAccess regs (.load (regs .a1 + BitVec.ofNat 64 i))
  | store (i : Nat) (inside : i < (regs .a2).toNat) :
      CopyAccess regs (.store (regs .a0 + BitVec.ofNat 64 i))

/-- The state at the branch after `i` turns of the loop of `memcpy`. -/
structure MemcpyTurn (start : Machine) (i : Nat) (machine : Machine) :
    Prop where
  pc : machine.pc = 7
  target : machine.regs .t0 = start.regs .a0 + BitVec.ofNat 64 i
  source : machine.regs .a1 = start.regs .a1 + BitVec.ofNat 64 i
  stop : machine.regs .a2 = start.regs .a1 + start.regs .a2
  others :
    ∀ reg, reg ∉ [.t0, .t2, .a1, .a2] → machine.regs reg = start.regs reg
  mem :
    machine.mem = copied start.mem (start.regs .a0) (start.regs .a1) i

/-- A turn copies one byte. -/
theorem memcpy_turn
    (start : Machine)
    {i : Nat}
    (before : i < (start.regs .a2).toNat) :
    Leads memcpy (CopyAccess start.regs) (MemcpyTurn start i)
      (MemcpyTurn start (i + 1)) := by
  apply Leads.block 5
  rintro ⟨regs, mem, pc⟩ ⟨rfl, target, source, stop, others, rfl⟩
  dsimp only at target source stop others
  have notDone : regs .a1 ≠ regs .a2 := by
    rw [source, stop]
    exact pointer_ne_stop _ before
  have stored := copied_succ start.mem (start.regs .a0) (start.regs .a1)
    (before.trans (start.regs .a2).isLt)
  let loaded := copied start.mem (start.regs .a0) (start.regs .a1) i (regs .a1)
  refine
    ⟨⟨Function.update
          (Function.update
            (Function.update regs .t2 (loaded.signExtend 64)) .a1
              (regs .a1 + 1)) .t0 (regs .t0 + 1),
        copied start.mem _ _ (i + 1), 7⟩,
      [.fetch 7, .fetch 3, .load (regs .a1), .fetch 4, .fetch 5,
        .store (regs .t0), .fetch 6],
      ?_, ?_, rfl, ?_, ?_, ?_, ?_, rfl⟩
  · rw [← stored, ← target, ← source]
    simp [run, step, accesses, Instr.execute, Instr.data, memcpy, Machine.get,
      Machine.goto, Machine.storeNext, Machine.setNext, Machine.address,
      notDone, setWidth_signExtend_byte, loaded]
  · have isLoad := CopyAccess.load i before
    have isStore := CopyAccess.store i before
    rw [← source] at isLoad
    rw [← target] at isStore
    simp [isLoad, isStore, CopyAccess.fetch]
  · simpa [target] using pointer_succ (start.regs .a0) i
  · simpa [source] using pointer_succ (start.regs .a1) i
  · simp [stop]
  · intro reg other
    simp only [List.mem_cons, List.not_mem_nil, or_false, not_or] at other
    simp [other, others]

/-- Up to the branch nothing is copied. -/
theorem memcpy_entry
    (regs : Rv64.Reg → Word)
    (mem : Memory) :
    Leads memcpy (CopyAccess regs) (fun machine => machine = ⟨regs, mem, 0⟩)
      (MemcpyTurn ⟨regs, mem, 0⟩ 0) := by
  apply Leads.block 3
  rintro _ rfl
  refine
    ⟨⟨Function.update (Function.update regs .t0 (regs .a0)) .a2
        (regs .a2 + regs .a1), mem, 7⟩,
      [.fetch 0, .fetch 1, .fetch 2], ?_, ?_, rfl, ?_, ?_, ?_, ?_, ?_⟩
  · simp [run, step, accesses, Instr.execute, Instr.data, memcpy, Machine.get,
      Machine.goto, Machine.setNext]
  · simp [CopyAccess.fetch]
  · simp
  · simp
  · simp [BitVec.add_comm]
  · intro reg other
    simp only [List.mem_cons, List.not_mem_nil, or_false, not_or] at other
    simp [other]
  · exact (copied_zero _ _ _).symm

/-- After the last turn the routine is at its `ret`. -/
theorem memcpy_exit (start : Machine) :
    Leads memcpy (CopyAccess start.regs)
      (MemcpyTurn start (start.regs .a2).toNat)
      (fun final =>
        Returned memcpy [.t0, .t2, .a1, .a2] start final ∧
          final.mem =
            copied start.mem (start.regs .a0) (start.regs .a1)
              (start.regs .a2).toNat) := by
  apply Leads.block 1
  rintro ⟨regs, mem, pc⟩ ⟨rfl, target, source, stop, kept, memEq⟩
  dsimp only at target source stop kept memEq
  have done : regs .a1 = regs .a2 := by
    rw [source, stop, BitVec.ofNat_toNat, BitVec.setWidth_eq]
  refine ⟨⟨regs, mem, 8⟩, [.fetch 7], ?_, ?_, ⟨rfl, kept⟩, memEq⟩
  · simp [run, step, accesses, Instr.execute, Instr.data, memcpy, Machine.get,
      Machine.goto, done]
  · simp [CopyAccess.fetch]

/-- The numbered code of `memcpy` returns for every argument. -/
theorem memcpy_returns
    (regs : Rv64.Reg → Word)
    (mem : Memory) :
    ∃ final,
      ReachesWith memcpy (CopyAccess regs) ⟨regs, mem, 0⟩ final ∧
        Returned memcpy [.t0, .t2, .a1, .a2] ⟨regs, mem, 0⟩ final ∧
        final.mem = copied mem (regs .a0) (regs .a1) (regs .a2).toNat := by
  have loops :=
    Leads.loop (MemcpyTurn ⟨regs, mem, 0⟩) (regs .a2).toNat
      fun i before => memcpy_turn ⟨regs, mem, 0⟩ before
  have correct := (memcpy_entry regs mem).trans (loops.trans (memcpy_exit _))
  exact correct _ rfl

/--
If `memcpy` stands in memory apart from its target, may be executed, may read
its source and may write its target, then it returns and has copied.  The copy
is exact for every memory if and only if the target does not begin inside the
source; otherwise it repeats the bytes in front of the target.
-/
theorem memcpy_copies
    (regs : Rv64.Reg → Word)
    (callable : Callable text allowed memcpy (CopyAccess regs)) :
    (∀ mem,
      text.Holds memcpy mem →
      ∃ final,
        text.Reaches allowed ⟨regs, mem, 0⟩ final ∧
          text.Holds memcpy final.mem ∧
          Returned memcpy [.t0, .t2, .a1, .a2] ⟨regs, mem, 0⟩ final ∧
          final.mem = copied mem (regs .a0) (regs .a1) (regs .a2).toNat) ∧
    ((∀ mem,
        CopiesExactly mem
          (copied mem (regs .a0) (regs .a1) (regs .a2).toNat) (regs .a0)
          (regs .a1) (regs .a2)) ↔
      ¬ (0 < (regs .a0 - regs .a1).toNat ∧
          (regs .a0 - regs .a1).toNat < (regs .a2).toNat)) := by
  refine ⟨fun mem stands => ?_, copied_exactly_iff _ _ _⟩
  obtain ⟨final, way, returned, isCopied⟩ := memcpy_returns regs mem
  obtain ⟨reached, stillStands⟩ := callable.reaches stands way
  exact ⟨final, reached, stillStands, returned, isCopied⟩

/-- `memcpy` in the `.text` of the app. -/
def memcpyText : Text Empty :=
  Text.assembled 0x80020440 (memcpy.zip memcpyBytes)

/-- Sixteen bytes go from `.rodata` to `.bss`. -/
def memcpyRegs : Rv64.Reg → Word
  | .a0 => 0x80026000
  | .a1 => 0x80024000
  | .a2 => 16
  | _ => 0

/-- The routine, and a byte of `.rodata`. -/
def rodataMem : Memory :=
  Function.update (memoryOf 0x80020440 memcpyBytes.flatten) 0x80024003 0x5A

theorem memcpyRegs_callable :
    Callable memcpyText linkedRights memcpy (CopyAccess memcpyRegs) where
  may access made := by
    cases made with
    | fetch pc inCode =>
        trivial
    | load i inside =>
        trivial
    | store i inside =>
        have few : i < 16 := inside
        simp only [linkedRights, memcpyRegs]
        constructor <;> bv_omega
  apart pc inCode address inText made := by
    obtain ⟨k, inBytes, rfl⟩ := Text.mem_span_assembled _ _ inCode inText
    have few : k < 24 := inBytes
    generalize isAddress : 0x80020440 + BitVec.ofNat 64 k = address at made
    cases made with
    | store i inside =>
        have little : i < 16 := inside
        simp only [memcpyRegs] at isAddress
        bv_omega

/-- Bytes of `.rodata` are copied to `.bss`. -/
theorem memcpy_copiesToBss :
    ∃ final,
      memcpyText.Reaches linkedRights ⟨memcpyRegs, rodataMem, 0⟩ final ∧
        memcpyText.Holds memcpy final.mem ∧
        Returned memcpy [.t0, .t2, .a1, .a2] ⟨memcpyRegs, rodataMem, 0⟩
          final ∧
        final.mem = copied rodataMem 0x80026000 0x80024000 16 :=
  (memcpy_copies memcpyRegs memcpyRegs_callable).1 rodataMem
    (by decide +kernel)

/-- The call of `load_app`, with the image in memory. -/
structure LoadCall
    (image : AppBin)
    (regs : Rv64.Reg → Word)
    (mem : Memory) :
    Prop where
  dst : regs .a0 = appBase
  src : regs .a1 = image.address + BitVec.ofNat 64 headerSize
  count : regs .a2 = image.len - BitVec.ofNat 64 headerSize
  holds :
    ∀ i < (regs .a2).toNat,
      mem (regs .a1 + BitVec.ofNat 64 i) = image.get (headerSize + i)

/--
The `memcpy` of `load_app` leaves exactly the memory that `loadApp` computes,
also where the image reaches into the memory of the app.  So does its code in
memory, if it may do its accesses and does not overwrite itself.
-/
theorem memcpy_loads
    {image : AppBin}
    {regs : Rv64.Reg → Word}
    (world : World)
    (loadCall : LoadCall image regs world.mem) :
    ∃ final,
      Reaches memcpy ⟨regs, world.mem, 0⟩ final ∧
        Returned memcpy [.t0, .t2, .a1, .a2] ⟨regs, world.mem, 0⟩ final ∧
        final.mem = (loadApp image world).mem ∧
        ∀ (text : Text Empty) (allowed : Access → Prop),
          text.Holds memcpy world.mem →
          Callable text allowed memcpy (CopyAccess regs) →
          text.Reaches allowed ⟨regs, world.mem, 0⟩ final := by
  obtain ⟨final, way, returned, memEq⟩ := memcpy_returns regs world.mem
  refine ⟨final, way.reaches, returned, ?_, fun text allowed stands callable =>
    (callable.reaches stands way).1⟩
  have isForward := forwardCopy_eq_copied world.mem appBase (regs .a1)
    loadCall.holds
  rw [memEq, loadCall.dst, ← isForward, loadCall.src, loadCall.count]
  rfl

/-- An image of four bytes of code behind its header, held by the monitor. -/
theorem smallImage_loaded :
    ∃ image regs final world,
      LoadCall image regs world.mem ∧
        Reaches memcpy ⟨regs, world.mem, 0⟩ final ∧
        Returned memcpy [.t0, .t2, .a1, .a2] ⟨regs, world.mem, 0⟩ final ∧
        final.mem = (loadApp image world).mem := by
  let bytes : List Byte := List.replicate 512 0 ++ [0x13, 0, 0, 0]
  have length : bytes.length = 516 := by
    rw [List.length_append, List.length_replicate]
    rfl
  let image : AppBin := ⟨0x80012000, bytes, fun _ => 0, by omega⟩
  let regs : Rv64.Reg → Word
    | .a0 => appBase
    | .a1 => 0x80012200
    | .a2 => 4
    | _ => 0
  let world : World :=
    { kernel := { table := fun _ _ => .none, reg := fun _ _ => 0 }
      caps := fun _ => .none
      mem := fun addr => image.get (addr - 0x80012000).toNat
      trace := [] }
  have loadCall : LoadCall image regs world.mem := by
    refine ⟨rfl, rfl, ?_, fun i before => ?_⟩
    · rw [AppBin.len, length]
      rfl
    · have small : i < 4 := before
      have address :
          0x80012200 + BitVec.ofNat 64 i =
            0x80012000 + BitVec.ofNat 64 (headerSize + i) := by
        rw [BitVec.ofNat_add, ← BitVec.add_assoc]
        rfl
      have inRange : headerSize + i < 2 ^ 64 := by
        rw [headerSize]
        omega
      have offset :=
        (offset_toNat 0x80012000 (0x80012200 + BitVec.ofNat 64 i)
          inRange).mpr address
      simp only [regs, world, offset]
  obtain ⟨final, reached, returned, loaded, -⟩ := memcpy_loads world loadCall
  exact ⟨image, regs, final, world, loadCall, reached, returned, loaded⟩

end Routines

end S3kMonitor
