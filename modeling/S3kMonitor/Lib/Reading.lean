import Mathlib.Data.List.Range

namespace Reading

/-!
# Programs that read

A program that reads a memory is a tree: it either is done, or loads one
address and goes on with the value found there.  Running it on a memory gives
its result, and besides it the addresses that were loaded on the way, in
order.  So a bound on what a program reads is a statement about the program
that also has the result, not about a second description of it.
-/

/-- A computation that loads values from addresses and changes nothing. -/
inductive Program (Address Value Result : Type) where
  | done (result : Result)
  | load (address : Address) (next : Value → Program Address Value Result)

namespace Program

variable {Address Place Value Result Later : Type}

/-- The result on a memory. -/
def run (memory : Address → Value) :
    Program Address Value Result → Result
  | .done result => result
  | .load address next => run memory (next (memory address))

/-- The addresses that are loaded on a memory. -/
def loads (memory : Address → Value) :
    Program Address Value Result → List Address
  | .done _ => []
  | .load address next => address :: loads memory (next (memory address))

/-- One program after the other. -/
def andThen :
    Program Address Value Result →
    (Result → Program Address Value Later) →
    Program Address Value Later
  | .done result, later => later result
  | .load address next, later =>
      .load address fun value => andThen (next value) later

instance : Monad (Program Address Value) where
  pure := .done
  bind := andThen

/-- The same program with its addresses looked up in another memory. -/
def relocate (place : Address → Place) :
    Program Address Value Result → Program Place Value Result
  | .done result => .done result
  | .load address next =>
      .load (place address) fun value => relocate place (next value)

/-- Load a list of addresses. -/
def loadAll : List Address → Program Address Value (List Value)
  | [] => pure []
  | address :: rest => do
      let value ← .load address .done
      let values ← loadAll rest
      pure (value :: values)

variable (memory : Address → Value)

/-- A finished program returns its result. -/
@[simp]
theorem run_pure (result : Result) :
    (pure result : Program Address Value Result).run memory = result :=
  rfl

/-- It loads nothing. -/
@[simp]
theorem loads_pure (result : Result) :
    (pure result : Program Address Value Result).loads memory = [] :=
  rfl

/-- One program after the other returns what the second one returns. -/
@[simp]
theorem run_bind
    (program : Program Address Value Result)
    (later : Result → Program Address Value Later) :
    (program >>= later).run memory =
      (later (program.run memory)).run memory := by
  induction program with
  | done result =>
      rfl
  | load address next inductionHypothesis =>
      exact inductionHypothesis (memory address)

/-- It loads what the two load, in this order. -/
@[simp]
theorem loads_bind
    (program : Program Address Value Result)
    (later : Result → Program Address Value Later) :
    (program >>= later).loads memory =
      program.loads memory ++ (later (program.run memory)).loads memory := by
  induction program with
  | done result =>
      rfl
  | load address next inductionHypothesis =>
      exact congrArg (address :: ·) (inductionHypothesis (memory address))

/-- A load goes on with the value at the address. -/
@[simp]
theorem run_load
    (address : Address)
    (next : Value → Program Address Value Result) :
    (Program.load address next).run memory =
      (next (memory address)).run memory :=
  rfl

/-- It loads its address first. -/
@[simp]
theorem loads_load
    (address : Address)
    (next : Value → Program Address Value Result) :
    (Program.load address next).loads memory =
      address :: (next (memory address)).loads memory :=
  rfl

/-- Loading a list returns its values. -/
@[simp]
theorem run_loadAll (addresses : List Address) :
    (loadAll addresses).run memory = addresses.map memory := by
  induction addresses with
  | nil =>
      rfl
  | cons address rest inductionHypothesis =>
      rw [List.map_cons, ← inductionHypothesis]
      simp [loadAll, run]

/-- It loads each address of the list once. -/
@[simp]
theorem loads_loadAll (addresses : List Address) :
    (loadAll addresses).loads memory = addresses := by
  induction addresses with
  | nil =>
      rfl
  | cons address rest inductionHypothesis =>
      simp [loadAll, loads, inductionHypothesis]

/-- Only the values at the loaded addresses matter. -/
theorem run_congr
    {other : Address → Value}
    (program : Program Address Value Result)
    (same : ∀ address ∈ program.loads memory, memory address = other address) :
    program.run other = program.run memory := by
  induction program with
  | done result =>
      rfl
  | load address next inductionHypothesis =>
      rw [loads_load] at same
      rw [run_load, run_load, ← same address List.mem_cons_self]
      exact inductionHypothesis (memory address)
        fun later member => same later (List.mem_cons_of_mem _ member)

section Relocation

variable
  (place : Address → Place)
  (target : Place → Value)

/-- A program that is moved returns what it returns for the moved memory. -/
@[simp]
theorem run_relocate (program : Program Address Value Result) :
    (program.relocate place).run target =
      program.run fun address => target (place address) := by
  induction program with
  | done result =>
      rfl
  | load address next inductionHypothesis =>
      exact inductionHypothesis (target (place address))

/-- It loads the moved addresses. -/
@[simp]
theorem loads_relocate (program : Program Address Value Result) :
    (program.relocate place).loads target =
      (program.loads fun address => target (place address)).map place := by
  induction program with
  | done result =>
      rfl
  | load address next inductionHypothesis =>
      exact congrArg (place address :: ·)
        (inductionHypothesis (target (place address)))

end Relocation

end Program

end Reading
