import S3kMonitor.Lib.Rv64

namespace Rv64

/-!
# Code in memory

A routine stands in the memory that it reads and writes, and not every access
is allowed.  As long as it stores to none of its own bytes, it does what its
numbered code does, even if something else stores to bytes that it never reads.
-/

/-- Where the instructions of a routine stand, and how they are read there. -/
structure Text (Symbol : Type*) where
  span : Nat → Set (BitVec 64)
  fetch : (BitVec 64 → BitVec 8) → Nat → Option (Instr Symbol)
  fetch_congr :
    ∀ mem other pc,
      (∀ address ∈ span pc, other address = mem address) →
      fetch other pc = fetch mem pc

/-- Two machines that differ only in what is in some part of memory. -/
structure Alike (own : Set (BitVec 64)) (machine other : Machine) : Prop where
  regs : other.regs = machine.regs
  pc : other.pc = machine.pc
  mem : ∀ address ∉ own, other.mem address = machine.mem address

namespace Alike

variable
  {own : Set (BitVec 64)}
  {first second third : Machine}

/-- Every machine is like itself. -/
theorem refl (own : Set (BitVec 64)) (machine : Machine) :
    Alike own machine machine :=
  ⟨rfl, rfl, fun _ _ => rfl⟩

/-- It does not matter which one comes first. -/
theorem symm
    (alike : Alike own first second) :
    Alike own second first :=
  ⟨alike.regs.symm, alike.pc.symm,
    fun address outside => (alike.mem address outside).symm⟩

/-- Both may differ from a third one in the same part only. -/
theorem trans
    (alike : Alike own first second)
    (next : Alike own second third) :
    Alike own first third :=
  ⟨next.regs.trans alike.regs, next.pc.trans alike.pc,
    fun address outside =>
      (next.mem address outside).trans (alike.mem address outside)⟩

/-- They read the same from a register. -/
theorem get_eq
    (alike : Alike own first second)
    (reg : Reg) :
    second.get reg = first.get reg := by
  rw [Machine.get, Machine.get, alike.regs]

/-- They compute the same addresses. -/
theorem address_eq
    (alike : Alike own first second)
    (base : Reg)
    (imm : BitVec 12) :
    second.address base imm = first.address base imm := by
  rw [Machine.address, Machine.address, alike.get_eq]

/-- They stay alike when both write a register. -/
theorem setNext
    (alike : Alike own first second)
    (reg : Reg)
    (value : BitVec 64) :
    Alike own (first.setNext reg value) (second.setNext reg value) where
  regs := by rw [Machine.setNext_regs, Machine.setNext_regs, alike.regs]
  pc := by rw [Machine.setNext_pc, Machine.setNext_pc, alike.pc]
  mem := alike.mem

/-- They stay alike when both go to an instruction. -/
theorem goto
    (alike : Alike own first second)
    (target : Nat) :
    Alike own (first.goto target) (second.goto target) :=
  ⟨alike.regs, rfl, alike.mem⟩

end Alike

variable
  {Symbol : Type*}
  {own : Set (BitVec 64)}
  {machine other next : Machine}

/-- Alike machines access the same bytes. -/
theorem Instr.data_alike
    (instr : Instr Symbol)
    (alike : Alike own machine other) :
    instr.data other = instr.data machine := by
  cases instr <;> simp only [Instr.data, alike.address_eq]

/-- An instruction that does not load from that part keeps machines alike. -/
theorem Instr.execute_alike
    {instr : Instr Symbol}
    (alike : Alike own machine other)
    (loads : ∀ address, .load address ∈ instr.data machine → address ∉ own)
    (executed : instr.execute machine = some next) :
    ∃ later, instr.execute other = some later ∧ Alike own next later := by
  cases instr with
  | lla rd address =>
      cases executed
      exact ⟨_, rfl, alike.setNext rd address⟩
  | mv rd rs =>
      cases executed
      refine ⟨_, rfl, ?_⟩
      rw [alike.get_eq]
      exact alike.setNext rd _
  | add rd first second =>
      cases executed
      refine ⟨_, rfl, ?_⟩
      rw [alike.get_eq, alike.get_eq]
      exact alike.setNext rd _
  | addi rd rs imm =>
      cases executed
      refine ⟨_, rfl, ?_⟩
      rw [alike.address_eq]
      exact alike.setNext rd _
  | lb rd imm base =>
      cases executed
      have outside : machine.address base imm ∉ own :=
        loads _ (List.mem_singleton.mpr rfl)
      refine ⟨_, rfl, ?_⟩
      rw [alike.address_eq, alike.mem _ outside]
      exact alike.setNext rd _
  | sb rs imm base =>
      cases executed
      refine ⟨_, rfl, alike.regs, ?_, fun address outside => ?_⟩
      · rw [Machine.storeNext_pc, Machine.storeNext_pc, alike.pc]
      · simp only [Machine.storeNext, alike.address_eq, alike.get_eq,
          Function.update_apply, alike.mem address outside]
  | sd rs imm base =>
      simp only [execute] at executed ⊢
      rw [alike.address_eq]
      split at executed
      case isFalse =>
        cases executed
      case isTrue aligned =>
        cases executed
        rw [if_pos aligned]
        refine ⟨_, rfl, alike.regs, ?_, fun address outside => ?_⟩
        · rw [Machine.storeNext_pc, Machine.storeNext_pc, alike.pc]
        · simp only [Machine.storeNext, storeDouble, alike.get_eq,
            alike.mem address outside]
  | bne first second target =>
      cases executed
      refine ⟨_, rfl, ?_⟩
      rw [alike.get_eq, alike.get_eq, alike.pc]
      exact alike.goto _
  | j target =>
      cases executed
      exact ⟨_, rfl, alike.goto target⟩
  | ret => cases executed
  | call callee => cases executed
  | tail callee => cases executed

namespace Text

variable
  (text : Text Symbol)
  (allowed : Access → Prop)

/-- The numbered code stands in memory. -/
def Holds (code : List (Instr Symbol)) (mem : BitVec 64 → BitVec 8) : Prop :=
  ∀ pc < code.length, text.fetch mem pc = code[pc]?

instance [DecidableEq Symbol]
    (code : List (Instr Symbol))
    (mem : BitVec 64 → BitVec 8) :
    Decidable (text.Holds code mem) :=
  inferInstanceAs
    (Decidable (∀ pc < code.length, text.fetch mem pc = code[pc]?))

/-- What the next instruction accesses. -/
def accesses (machine : Machine) : List Access :=
  .fetch machine.pc ::
    match text.fetch machine.mem machine.pc with
    | some instr => instr.data machine
    | none => []

/-- An instruction that is fetched from memory and may do all its accesses. -/
def Step (machine next : Machine) : Prop :=
  ∃ instr,
    text.fetch machine.mem machine.pc = some instr ∧
      (∀ access ∈ text.accesses machine, allowed access) ∧
      instr.execute machine = some next

/-- The states that the routine comes to. -/
def Reaches : Machine → Machine → Prop :=
  Relation.ReflTransGen (text.Step allowed)

/-- The next instruction makes a forbidden access. -/
def Faults (machine : Machine) : Prop :=
  ∃ access ∈ text.accesses machine, ¬ allowed access

/--
Accesses of a kind never meet the bytes of the code with a store, nor some part
of memory with a load; the code does not stand in that part either.
-/
structure Undisturbed
    (code : List (Instr Symbol))
    (own : Set (BitVec 64))
    (ok : Access → Prop) :
    Prop where
  outside : ∀ pc < code.length, ∀ address ∈ text.span pc, address ∉ own
  stores :
    ∀ pc < code.length, ∀ address ∈ text.span pc, ¬ ok (.store address)
  loads : ∀ address, ok (.load address) → address ∉ own

variable
  {text}
  {allowed ok : Access → Prop}
  {code : List (Instr Symbol)}
  {first second : Machine}

/-- At most one step can be made. -/
theorem step_rightUnique :
    Relator.RightUnique (text.Step allowed) := by
  rintro machine first second ⟨instr, fetched, -, executed⟩
    ⟨other, otherFetched, -, otherExecuted⟩
  rw [fetched] at otherFetched
  cases otherFetched
  exact Option.some.inj (executed.symm.trans otherExecuted)

/-- A run that cannot go on ends in one state only. -/
theorem Reaches.stuck_unique
    (reached : text.Reaches allowed machine first)
    (otherReached : text.Reaches allowed machine second)
    (stuck : ∀ next, ¬ text.Step allowed first next)
    (otherStuck : ∀ next, ¬ text.Step allowed second next) :
    first = second := by
  have same
      {state last : Machine}
      (onward : text.Reaches allowed state last)
      (isStuck : ∀ next, ¬ text.Step allowed state next) :
      state = last := by
    rcases Relation.ReflTransGen.cases_head onward with isLast | ⟨_, step, -⟩
    · exact isLast
    · exact absurd step (isStuck _)
  rcases Relation.ReflTransGen.total_of_right_unique step_rightUnique reached
      otherReached with onward | back
  · exact same onward stuck
  · exact (same back otherStuck).symm

/-- A forbidden access is not made. -/
theorem Faults.stuck
    (faults : text.Faults allowed machine)
    (next : Machine) :
    ¬ text.Step allowed machine next := by
  rintro ⟨-, -, allAllowed, -⟩
  obtain ⟨access, member, forbidden⟩ := faults
  exact forbidden (allAllowed access member)

section Standing

variable
  (undisturbed : text.Undisturbed code own ok)
  (holds : text.Holds code machine.mem)
include undisturbed holds

/-- The next instruction is the one of the numbered code. -/
theorem fetch_alike
    (inCode : machine.pc < code.length)
    (alike : Alike own machine other) :
    text.fetch other.mem other.pc = code[machine.pc]? := by
  rw [alike.pc, ← holds machine.pc inCode]
  exact text.fetch_congr _ _ _ fun address inText =>
    alike.mem address (undisturbed.outside _ inCode address inText)

/-- It accesses what the numbered code accesses. -/
theorem accesses_alike
    (inCode : machine.pc < code.length)
    (alike : Alike own machine other) :
    text.accesses other = Rv64.accesses code machine := by
  rw [accesses, Rv64.accesses, fetch_alike undisturbed holds inCode alike,
    alike.pc]
  cases code[machine.pc]? with
  | none => rfl
  | some instr => simp only [instr.data_alike alike]

variable
  (isOk : ∀ access ∈ Rv64.accesses code machine, ok access)
include isOk

/-- A step whose accesses are of the kind leaves the code in memory. -/
theorem Holds.step
    (stepped : Rv64.step code machine = some next) :
    text.Holds code next.mem := by
  obtain ⟨instr, found, executed⟩ := step_eq_some stepped
  intro pc inCode
  rw [← holds pc inCode]
  refine text.fetch_congr _ _ _ fun address inText => ?_
  refine Instr.execute_mem executed fun isStore => ?_
  refine undisturbed.stores pc inCode address inText (isOk _ ?_)
  rw [Rv64.accesses, found]
  exact List.mem_cons_of_mem _ isStore

omit holds in
/-- A load of the kind is not from that part of memory. -/
theorem loads_outside
    {instr : Instr Symbol}
    (found : code[machine.pc]? = some instr)
    (address : BitVec 64)
    (isLoad : Access.load address ∈ instr.data machine) :
    address ∉ own := by
  refine undisturbed.loads address (isOk _ ?_)
  rw [Rv64.accesses, found]
  exact List.mem_cons_of_mem _ isLoad

/-- What the numbered code does, the code in memory does, if it may. -/
theorem step_alike
    (alike : Alike own machine other)
    (isAllowed : ∀ access ∈ text.accesses other, allowed access)
    (stepped : Rv64.step code machine = some next) :
    ∃ later, text.Step allowed other later ∧ Alike own next later := by
  obtain ⟨instr, found, executed⟩ := step_eq_some stepped
  have inCode : machine.pc < code.length :=
    (List.getElem?_eq_some_iff.mp found).1
  obtain ⟨later, executedOther, alikeLater⟩ :=
    Instr.execute_alike alike
      (loads_outside undisturbed isOk found) executed
  have fetched := fetch_alike undisturbed holds inCode alike
  exact ⟨later, ⟨instr, fetched.trans found, isAllowed, executedOther⟩,
    alikeLater⟩

/-- The code in memory does nothing else. -/
theorem Step.alike
    {later : Machine}
    (inCode : machine.pc < code.length)
    (alike : Alike own machine other)
    (stepped : text.Step allowed other later) :
    ∃ next, Rv64.step code machine = some next ∧ Alike own next later := by
  obtain ⟨instr, fetched, -, executed⟩ := stepped
  have found : code[machine.pc]? = some instr :=
    (fetch_alike undisturbed holds inCode alike).symm.trans fetched
  have loads (address : BitVec 64)
      (isLoad : Access.load address ∈ instr.data other) :
      address ∉ own := by
    rw [instr.data_alike alike] at isLoad
    exact loads_outside undisturbed isOk found address isLoad
  obtain ⟨next, executedPlain, alikeNext⟩ :=
    Instr.execute_alike alike.symm loads executed
  refine ⟨next, ?_, alikeNext.symm⟩
  rw [Rv64.step, found]
  exact executedPlain

end Standing

/-- On its way a code whose accesses are of the kind stays in memory. -/
theorem Holds.reaches
    (undisturbed : text.Undisturbed code own ok)
    (holds : text.Holds code machine.mem)
    (way : ReachesWith code ok machine next) :
    text.Holds code next.mem := by
  induction way with
  | refl =>
      exact holds
  | tail _ stepped inductionHypothesis =>
      exact inductionHypothesis.step undisturbed stepped.2 stepped.1

/-- A code does the same in memory if all its accesses are allowed. -/
theorem Holds.reachesInMemory
    (undisturbed : text.Undisturbed code ∅ ok)
    (holds : text.Holds code machine.mem)
    (isAllowed : ∀ access, ok access → allowed access)
    (way : ReachesWith code ok machine next) :
    text.Reaches allowed machine next := by
  induction way with
  | refl =>
      exact .refl
  | @tail between last way stepped inductionHypothesis =>
      obtain ⟨step, isOk⟩ := stepped
      have stands : text.Holds code between.mem :=
        holds.reaches undisturbed way
      obtain ⟨instr, found, -⟩ := step_eq_some step
      have inCode : between.pc < code.length :=
        (List.getElem?_eq_some_iff.mp found).1
      have same : text.accesses between = Rv64.accesses code between :=
        accesses_alike undisturbed stands inCode (.refl ∅ between)
      obtain ⟨later, stepInMemory, alike⟩ :=
        step_alike undisturbed stands isOk (.refl ∅ between)
          (fun access member => isAllowed access (isOk access (same ▸ member)))
          step
      have isLast : later = last := by
        obtain ⟨regs, mem, pc⟩ := later
        obtain ⟨lastRegs, lastMem, lastPc⟩ := last
        obtain ⟨rfl, rfl, sameMem⟩ := alike
        have memEq : mem = lastMem := funext fun address =>
          sameMem address (Set.notMem_empty address)
        rw [memEq]
      exact inductionHypothesis.tail (isLast ▸ stepInMemory)

section Assembled

variable
  (base : BitVec 64)
  (lines : List (Instr Symbol × List (BitVec 8)))

/-- The number of bytes in front of an instruction. -/
def offset (pc : Nat) : Nat :=
  ((lines.take pc).map fun line => line.2.length).sum

/-- The bytes of an instruction. -/
def bytes (pc : Nat) : List (BitVec 8) :=
  (lines[pc]?.map Prod.snd).getD []

/-- The instruction, if its bytes are in memory. -/
def fetchAssembled (mem : BitVec 64 → BitVec 8) (pc : Nat) :
    Option (Instr Symbol) :=
  if ∀ i < (bytes lines pc).length,
      (bytes lines pc)[i]? =
        some (mem (base + BitVec.ofNat 64 (offset lines pc + i))) then
    lines[pc]?.map Prod.fst
  else none

/-- The addresses of the bytes of an instruction. -/
def spanAssembled (pc : Nat) : Set (BitVec 64) :=
  {address |
    ∃ i < (bytes lines pc).length,
      address = base + BitVec.ofNat 64 (offset lines pc + i)}

/-- Nothing else in memory matters. -/
theorem fetchAssembled_congr
    (mem other : BitVec 64 → BitVec 8)
    (pc : Nat)
    (same :
      ∀ address ∈ spanAssembled base lines pc, other address = mem address) :
    fetchAssembled base lines other pc = fetchAssembled base lines mem pc := by
  refine if_congr (forall₂_congr fun i inRange => ?_) rfl rfl
  rw [same _ ⟨i, inRange, rfl⟩]

/-- Instructions with their bytes, one after the other from an address on. -/
def assembled : Text Symbol where
  span := spanAssembled base lines
  fetch := fetchAssembled base lines
  fetch_congr := fetchAssembled_congr base lines

/-- They take no more room than all their bytes. -/
theorem mem_span_assembled
    {pc : Nat}
    (inCode : pc < lines.length)
    {address : BitVec 64}
    (inSpan : address ∈ (assembled base lines).span pc) :
    ∃ i < offset lines lines.length,
      address = base + BitVec.ofNat 64 i := by
  obtain ⟨i, inRange, rfl⟩ := inSpan
  refine ⟨_, ?_, rfl⟩
  rw [bytes, List.getElem?_eq_getElem inCode, Option.map_some,
    Option.getD_some] at inRange
  have next : offset lines (pc + 1) = offset lines pc + lines[pc].2.length := by
    rw [offset, offset, List.take_succ_eq_append_getElem inCode,
      List.map_append, List.sum_append, List.map_singleton, List.sum_singleton]
  have whole : offset lines (pc + 1) ≤ offset lines lines.length := by
    have split : (lines.map fun line => line.2.length).sum =
        offset lines (pc + 1) +
          ((lines.drop (pc + 1)).map fun line => line.2.length).sum := by
      rw [offset, ← List.sum_append, ← List.map_append, List.take_append_drop]
    rw [offset.eq_1 lines lines.length, List.take_length, split]
    exact Nat.le_add_right _ _
  omega

end Assembled

end Text

end Rv64
