import Mathlib.Data.BitVec
import Mathlib.Logic.Function.Basic
import Mathlib.Logic.Relation

namespace Rv64

/-!
# A fragment of RV64

The instructions of a routine are numbered, and a branch names the number of
its target.  A routine runs until it returns, leaves for another routine or
raises an exception.  `Leads` is total correctness: from every state of the
precondition the routine reaches one of the postcondition, and makes only
certain accesses on its way.
-/

/-- The integer registers under their names in the calling convention. -/
inductive Reg where
  | zero | ra | sp | gp | tp
  | t0 | t1 | t2
  | s0 | s1
  | a0 | a1 | a2 | a3 | a4 | a5 | a6 | a7
  | s2 | s3 | s4 | s5 | s6 | s7 | s8 | s9 | s10 | s11
  | t3 | t4 | t5 | t6
deriving DecidableEq

/-- Offsets are 12-bit immediates, which are sign-extended. -/
inductive Instr (Symbol : Type*) where
  | lla (rd : Reg) (address : BitVec 64)
  | mv (rd rs : Reg)
  | add (rd first second : Reg)
  | addi (rd rs : Reg) (imm : BitVec 12)
  | lb (rd : Reg) (imm : BitVec 12) (base : Reg)
  | sb (rs : Reg) (imm : BitVec 12) (base : Reg)
  | sd (rs : Reg) (imm : BitVec 12) (base : Reg)
  | bne (first second : Reg) (target : Nat)
  | j (target : Nat)
  | ret
  | call (callee : Symbol)
  | tail (callee : Symbol)
deriving DecidableEq

/-- The registers, the memory and the number of the next instruction. -/
structure Machine where
  regs : Reg → BitVec 64
  mem : BitVec 64 → BitVec 8
  pc : Nat

namespace Machine

variable (machine : Machine)

/-- `zero` reads as 0 whatever has been written to it. -/
def get (reg : Reg) : BitVec 64 :=
  if reg = .zero then 0 else machine.regs reg

/-- Writes a register and goes on with the next instruction. -/
def setNext (reg : Reg) (value : BitVec 64) : Machine where
  regs := Function.update machine.regs reg value
  mem := machine.mem
  pc := machine.pc + 1

/-- Writes memory and goes on with the next instruction. -/
def storeNext (mem : BitVec 64 → BitVec 8) : Machine where
  regs := machine.regs
  mem := mem
  pc := machine.pc + 1

/-- Goes on elsewhere. -/
def goto (target : Nat) : Machine :=
  { machine with pc := target }

/-- The address of an access. -/
def address (base : Reg) (imm : BitVec 12) : BitVec 64 :=
  machine.get base + imm.signExtend 64

variable
  {machine}
  {reg : Reg}
  {value : BitVec 64}
  {mem : BitVec 64 → BitVec 8}
  {target : Nat}

@[simp]
theorem setNext_pc : (machine.setNext reg value).pc = machine.pc + 1 :=
  rfl

@[simp]
theorem setNext_regs :
    (machine.setNext reg value).regs =
      Function.update machine.regs reg value :=
  rfl

@[simp]
theorem storeNext_pc : (machine.storeNext mem).pc = machine.pc + 1 :=
  rfl

@[simp]
theorem storeNext_regs : (machine.storeNext mem).regs = machine.regs :=
  rfl

@[simp]
theorem goto_pc : (machine.goto target).pc = target :=
  rfl

@[simp]
theorem goto_regs : (machine.goto target).regs = machine.regs :=
  rfl

end Machine

/-- The eight bytes of a word, the lowest one first. -/
def storeDouble
    (mem : BitVec 64 → BitVec 8)
    (address value : BitVec 64) :
    BitVec 64 → BitVec 8 :=
  fun other =>
    let i := (other - address).toNat
    if i < 8 then value.extractLsb' (8 * i) 8 else mem other

/-- An instruction is fetched, and it reads and writes single bytes. -/
inductive Access where
  | fetch (pc : Nat)
  | load (address : BitVec 64)
  | store (address : BitVec 64)

variable {Symbol : Type*}

namespace Instr

variable (instr : Instr Symbol)

/-- A misaligned `sd` counts as an exception. -/
def execute (machine : Machine) : Option Machine :=
  match instr with
  | .lla rd address => some (machine.setNext rd address)
  | .mv rd rs => some (machine.setNext rd (machine.get rs))
  | .add rd first second =>
      some (machine.setNext rd (machine.get first + machine.get second))
  | .addi rd rs imm => some (machine.setNext rd (machine.address rs imm))
  | .lb rd imm base =>
      some
        (machine.setNext rd
          ((machine.mem (machine.address base imm)).signExtend 64))
  | .sb rs imm base =>
      some
        (machine.storeNext
          (Function.update machine.mem (machine.address base imm)
            ((machine.get rs).setWidth 8)))
  | .sd rs imm base =>
      if (machine.address base imm).toNat % 8 = 0 then
        some
          (machine.storeNext
            (storeDouble machine.mem (machine.address base imm)
              (machine.get rs)))
      else none
  | .bne first second target =>
      some
        (machine.goto
          (if machine.get first ≠ machine.get second then target
          else machine.pc + 1))
  | .j target => some (machine.goto target)
  | .ret => none
  | .call _ => none
  | .tail _ => none

/-- The bytes that an instruction reads or writes. -/
def data (machine : Machine) : List Access :=
  match instr with
  | .lb _ imm base => [.load (machine.address base imm)]
  | .sb _ imm base => [.store (machine.address base imm)]
  | .sd _ imm base =>
      (List.range 8).map fun i =>
        .store (machine.address base imm + BitVec.ofNat 64 i)
  | _ => []

/-- The register that an instruction writes. -/
def target : Option Reg :=
  match instr with
  | .lla rd _ => some rd
  | .mv rd _ => some rd
  | .add rd _ _ => some rd
  | .addi rd _ _ => some rd
  | .lb rd _ _ => some rd
  | _ => none

variable
  {instr}
  {machine next : Machine}

/-- An instruction changes no byte that it does not store to. -/
theorem execute_mem
    (executed : instr.execute machine = some next)
    {address : BitVec 64}
    (notStored : Access.store address ∉ instr.data machine) :
    next.mem address = machine.mem address := by
  cases instr with
  | sb rs imm base =>
      cases executed
      have other : address ≠ machine.address base imm := by
        rintro rfl
        exact notStored (List.mem_singleton.mpr rfl)
      exact Function.update_of_ne other _ _
  | sd rs imm base =>
      simp only [execute] at executed
      split at executed
      case isFalse =>
        cases executed
      case isTrue =>
        cases executed
        simp only [Machine.storeNext, storeDouble]
        refine if_neg fun inWord => notStored ?_
        refine List.mem_map.mpr
          ⟨(address - machine.address base imm).toNat,
            List.mem_range.mpr inWord, ?_⟩
        rw [BitVec.ofNat_toNat, BitVec.setWidth_eq, BitVec.add_comm,
          BitVec.sub_add_cancel]
  | ret => cases executed
  | call callee => cases executed
  | tail callee => cases executed
  | _ =>
      cases executed
      rfl

/-- An instruction changes no register but its target. -/
theorem execute_regs
    (executed : instr.execute machine = some next)
    {reg : Reg}
    (notTarget : instr.target ≠ some reg) :
    next.regs reg = machine.regs reg := by
  have other {rd : Reg} {value : BitVec 64} (differs : some rd ≠ some reg) :
      (machine.setNext rd value).regs reg = machine.regs reg :=
    Function.update_of_ne (fun same => differs (congrArg some same.symm)) _ _
  cases instr with
  | sd rs imm base =>
      simp only [execute] at executed
      split at executed
      case isFalse =>
        cases executed
      case isTrue =>
        cases executed
        rfl
  | sb rs imm base =>
      cases executed
      rfl
  | bne first second target =>
      cases executed
      rfl
  | j target =>
      cases executed
      rfl
  | ret => cases executed
  | call callee => cases executed
  | tail callee => cases executed
  | _ =>
      cases executed
      exact other notTarget

end Instr

/-- One step of a numbered code. -/
def step (code : List (Instr Symbol)) (machine : Machine) : Option Machine :=
  match code[machine.pc]? with
  | some instr => instr.execute machine
  | none => none

/-- What the next instruction accesses. -/
def accesses (code : List (Instr Symbol)) (machine : Machine) :
    List Access :=
  .fetch machine.pc ::
    match code[machine.pc]? with
    | some instr => instr.data machine
    | none => []

/-- So many steps, none of which stops, and what they access. -/
def run (code : List (Instr Symbol)) :
    Nat → Machine → Option (Machine × List Access)
  | 0, machine => some (machine, [])
  | count + 1, machine =>
      match step code machine with
      | some next =>
          (run code count next).map fun later =>
            (later.1, accesses code machine ++ later.2)
      | none => none

/-- The states that a code comes to. -/
def Reaches (code : List (Instr Symbol)) : Machine → Machine → Prop :=
  Relation.ReflTransGen fun machine next => step code machine = some next

/-- The code comes to a state with accesses of a kind only. -/
def ReachesWith (code : List (Instr Symbol)) (ok : Access → Prop) :
    Machine → Machine → Prop :=
  Relation.ReflTransGen fun machine next =>
    step code machine = some next ∧ ∀ access ∈ accesses code machine, ok access

/-- Total correctness. -/
def Leads
    (code : List (Instr Symbol))
    (ok : Access → Prop)
    (pre post : Machine → Prop) :
    Prop :=
  ∀ machine, pre machine →
    ∃ next, ReachesWith code ok machine next ∧ post next

section Rules

variable
  {code : List (Instr Symbol)}
  {ok : Access → Prop}
  {pre middle post : Machine → Prop}
  {machine next final : Machine}

/-- A block of steps leads to its end. -/
theorem reachesWith_of_run
    {count : Nat}
    {made : List Access}
    (ran : run code count machine = some (next, made))
    (isOk : ∀ access ∈ made, ok access) :
    ReachesWith code ok machine next := by
  induction count generalizing machine made with
  | zero =>
      cases ran
      exact .refl
  | succ count inductionHypothesis =>
      rw [run] at ran
      split at ran
      case h_1 between stepped =>
        obtain ⟨⟨final, later⟩, ranOn, same⟩ := Option.map_eq_some_iff.mp ran
        cases same
        exact .head
          ⟨stepped, fun access member =>
            isOk access (List.mem_append_left _ member)⟩
          (inductionHypothesis ranOn fun access member =>
            isOk access (List.mem_append_right _ member))
      case h_2 =>
        cases ran

/-- A block without a loop. -/
theorem Leads.block
    (count : Nat)
    (ran :
      ∀ machine, pre machine →
        ∃ next made,
          run code count machine = some (next, made) ∧
            (∀ access ∈ made, ok access) ∧ post next) :
    Leads code ok pre post := by
  intro machine holds
  obtain ⟨next, made, reached, isOk, established⟩ := ran machine holds
  exact ⟨next, reachesWith_of_run reached isOk, established⟩

/-- One piece of code after the other. -/
theorem Leads.trans
    (head : Leads code ok pre middle)
    (tail : Leads code ok middle post) :
    Leads code ok pre post := by
  intro machine holds
  obtain ⟨between, reached, holdsBetween⟩ := head machine holds
  obtain ⟨next, reachedNext, established⟩ := tail between holdsBetween
  exact ⟨next, reached.trans reachedNext, established⟩

/-- A loop whose turn `i` takes invariant `i` to invariant `i + 1`. -/
theorem Leads.loop
    (invariant : Nat → Machine → Prop)
    (count : Nat)
    (turn : ∀ i < count, Leads code ok (invariant i) (invariant (i + 1))) :
    Leads code ok (invariant 0) (invariant count) := by
  induction count with
  | zero =>
      exact fun machine holds => ⟨machine, .refl, holds⟩
  | succ count inductionHypothesis =>
      exact (inductionHypothesis fun i before =>
        turn i (Nat.lt_succ_of_lt before)).trans
        (turn count (Nat.lt_succ_self count))

/-- Whatever it accesses, the code comes there. -/
theorem ReachesWith.reaches
    (reached : ReachesWith code ok machine next) :
    Reaches code machine next :=
  reached.lift id fun _ _ stepped => stepped.1

/-- A code that comes to an end goes there from every state on its way. -/
theorem ReachesWith.onward
    (way : ReachesWith code ok machine final)
    (ends : step code final = none)
    (reached : Reaches code machine next) :
    ReachesWith code ok next final := by
  induction reached with
  | refl =>
      exact way
  | tail _ stepped inductionHypothesis =>
      rcases Relation.ReflTransGen.cases_head inductionHypothesis with
        rfl | ⟨other, ⟨otherStep, -⟩, onward⟩
      · rw [ends] at stepped
        cases stepped
      · rw [stepped] at otherStep
        cases otherStep
        exact onward

/-- Up to its end it makes accesses of the kind only. -/
theorem ReachesWith.accesses_ok
    (way : ReachesWith code ok machine final)
    (ends : step code final = none)
    (lastOk : ∀ access ∈ accesses code final, ok access)
    (reached : Reaches code machine next) :
    ∀ access ∈ accesses code next, ok access := by
  rcases Relation.ReflTransGen.cases_head (way.onward ends reached) with
    rfl | ⟨_, ⟨-, isOk⟩, -⟩
  · exact lastOk
  · exact isOk

/-- What every step keeps holds of every state that is reached. -/
theorem Reaches.invariant
    (reached : Reaches code machine next)
    (invariant : Machine → Prop)
    (kept :
      ∀ state later,
        step code state = some later → invariant state → invariant later)
    (start : invariant machine) :
    invariant next := by
  induction reached with
  | refl =>
      exact start
  | tail _ stepped inductionHypothesis =>
      exact kept _ _ stepped inductionHypothesis

/-- A step executes an instruction of the code. -/
theorem step_eq_some
    (stepped : step code machine = some next) :
    ∃ instr,
      code[machine.pc]? = some instr ∧ instr.execute machine = some next := by
  rw [step] at stepped
  split at stepped
  case h_1 instr found =>
    exact ⟨instr, found, stepped⟩
  case h_2 =>
    cases stepped

/-- A register that no instruction writes keeps its value. -/
theorem Reaches.keeps_reg
    (reached : Reaches code machine next)
    {reg : Reg}
    (neverTarget : ∀ instr ∈ code, instr.target ≠ some reg) :
    next.regs reg = machine.regs reg := by
  refine reached.invariant (fun state => state.regs reg = machine.regs reg)
    (fun state later stepped same => ?_) rfl
  obtain ⟨instr, found, executed⟩ := step_eq_some stepped
  exact (Instr.execute_regs executed
    (neverTarget instr (List.mem_of_getElem? found))).trans same

end Rules

end Rv64
