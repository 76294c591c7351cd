import S3kMonitor.Lib.Rv64Text

namespace Rv64

/-!
# Code under memory protection

An environment decides on every access of an instruction.  A forbidden access
is handed to the environment, which comes back to the instruction to try it
again, or takes the machine away; in between it may store to memory of its own.
An environment is transparent to a code if it always comes back, and there are
only so many times for it to do so.
-/

variable {Symbol : Type*}

/-- A machine in an environment, or what is left when it has been taken away. -/
structure Guarded (Env : Type*) where
  machine : Option Machine
  env : Env

/-- What an environment allows, and how it handles what it does not allow. -/
structure Protection (Env : Type*) where
  allowed : Env → Access → Prop
  handled : Access → Machine → Env → Guarded Env → Prop

variable
  {Env : Type*}
  (text : Text Symbol)
  (code : List (Instr Symbol))
  (protection : Protection Env)

/-- An instruction is executed, or one of its accesses is handled. -/
inductive GuardedStep : Guarded Env → Guarded Env → Prop where
  | executes
      {machine next : Machine}
      {env : Env}
      (stepped : text.Step (protection.allowed env) machine next) :
      GuardedStep ⟨some machine, env⟩ ⟨some next, env⟩
  | faults
      {machine : Machine}
      {env : Env}
      {access : Access}
      {result : Guarded Env}
      (accessed : access ∈ text.accesses machine)
      (forbidden : ¬ protection.allowed env access)
      (handled : protection.handled access machine env result) :
      GuardedStep ⟨some machine, env⟩ result

/-- What a machine and its environment come to. -/
def GuardedReaches : Guarded Env → Guarded Env → Prop :=
  Relation.ReflTransGen (GuardedStep text protection)

/--
On the way of a code from `start` on, every forbidden access is handled, the
machine is then as it was before, apart from memory of the environment, and the
number of faults that are left goes down.
-/
structure Transparent
    (own : Set (BitVec 64))
    (start : Machine)
    (invariant : Env → Prop)
    (left : Env → Nat) :
    Prop where
  returns :
    ∀ plain machine env access result,
      Reaches code start plain →
      Alike own plain machine →
      invariant env →
      access ∈ accesses code plain →
      ¬ protection.allowed env access →
      protection.handled access machine env result →
      ∃ back next,
        result = ⟨some back, next⟩ ∧ Alike own machine back ∧
          invariant next ∧ left next < left env
  handles :
    ∀ plain machine env access,
      Reaches code start plain →
      Alike own plain machine →
      invariant env →
      access ∈ accesses code plain →
      ¬ protection.allowed env access →
      ∃ result, protection.handled access machine env result

/-- A code that stands in memory comes to an end in one of its instructions. -/
structure Completes
    (own : Set (BitVec 64))
    (ok : Access → Prop)
    (start final : Machine) :
    Prop where
  undisturbed : text.Undisturbed code own ok
  holds : text.Holds code start.mem
  way : ReachesWith code ok start final
  ends : step code final = none
  inCode : final.pc < code.length
  lastOk : ∀ access ∈ accesses code final, ok access

section Rules

variable
  {text : Text Symbol}
  {code : List (Instr Symbol)}
  {protection : Protection Env}
  {own : Set (BitVec 64)}
  {ok : Access → Prop}
  {start plain machine next final : Machine}
  {invariant : Env → Prop}
  {left : Env → Nat}
  {env : Env}
  {state : Guarded Env}

/-- A run in memory without a forbidden access is one under the protection. -/
theorem guardedReaches_of_reaches
    (reached : text.Reaches (protection.allowed env) machine next) :
    GuardedReaches text protection ⟨some machine, env⟩ ⟨some next, env⟩ := by
  induction reached with
  | refl =>
      exact .refl
  | tail _ stepped inductionHypothesis =>
      exact inductionHypothesis.tail (.executes stepped)

section Way

variable (isComplete : Completes text code own ok start final)
include isComplete

/-- The accesses on the way are of the kind. -/
theorem Completes.isOk
    (reached : Reaches code start plain) :
    ∀ access ∈ accesses code plain, ok access :=
  isComplete.way.accesses_ok isComplete.ends isComplete.lastOk reached

/-- The code never leaves its instructions. -/
theorem Completes.pc_lt
    (reached : Reaches code start plain) :
    plain.pc < code.length := by
  rcases Relation.ReflTransGen.cases_head
      (isComplete.way.onward isComplete.ends reached) with
    rfl | ⟨_, ⟨stepped, -⟩, -⟩
  · exact isComplete.inCode
  · obtain ⟨instr, found, -⟩ := step_eq_some stepped
    exact (List.getElem?_eq_some_iff.mp found).1

/-- It stays in memory. -/
theorem Completes.stands
    (reached : Reaches code start plain) :
    text.Holds code plain.mem := by
  induction reached with
  | refl =>
      exact isComplete.holds
  | tail reached stepped inductionHypothesis =>
      exact inductionHypothesis.step isComplete.undisturbed
        (isComplete.isOk reached) stepped

end Way

variable
  (isComplete : Completes text code own ok start final)
  (transparent :
    Transparent code protection own start invariant left)
include isComplete transparent

/-- A protected run does nothing that the code would not do by itself. -/
theorem Transparent.simulates
    (holds : invariant env)
    (reached :
      GuardedReaches text protection ⟨some start, env⟩ state) :
    ∃ plain machine env,
      state = ⟨some machine, env⟩ ∧ Reaches code start plain ∧
        Alike own plain machine ∧ invariant env := by
  induction reached with
  | refl =>
      exact ⟨start, start, env, rfl, .refl, .refl own start, holds⟩
  | tail _ stepped inductionHypothesis =>
      obtain ⟨plain, machine, env, rfl, reached, alike, holds⟩ :=
        inductionHypothesis
      cases stepped with
      | executes stepped =>
          obtain ⟨next, plainStep, alikeNext⟩ :=
            stepped.alike isComplete.undisturbed (isComplete.stands reached)
              (isComplete.isOk reached) (isComplete.pc_lt reached) alike
          exact ⟨next, _, env, rfl, reached.tail plainStep, alikeNext, holds⟩
      | faults accessed forbidden handled =>
          rw [Text.accesses_alike isComplete.undisturbed
            (isComplete.stands reached) (isComplete.pc_lt reached) alike]
            at accessed
          obtain ⟨back, next, rfl, alikeBack, holdsNext, -⟩ :=
            transparent.returns plain machine env _ _ reached alike holds
              accessed forbidden handled
          exact ⟨plain, back, next, rfl, reached, alike.trans alikeBack,
            holdsNext⟩

/-- Behind its faults each instruction is executed. -/
theorem Transparent.advances
    (reached : Reaches code start plain)
    (stepped : step code plain = some next)
    (alike : Alike own plain machine)
    (holds : invariant env) :
    ∃ other later,
      GuardedReaches text protection ⟨some machine, env⟩
          ⟨some other, later⟩ ∧
        Alike own next other ∧ invariant later := by
  -- The induction is on the faults that are left.
  induction faults : left env using Nat.strong_induction_on
      generalizing env machine with
  | _ count inductionHypothesis =>
      have stands := isComplete.stands reached
      have inCode := isComplete.pc_lt reached
      by_cases allowed :
          ∀ access ∈ text.accesses machine, protection.allowed env access
      · obtain ⟨other, executed, alikeNext⟩ :=
          Text.step_alike isComplete.undisturbed stands
            (isComplete.isOk reached) alike allowed stepped
        exact ⟨other, env, .single (.executes executed), alikeNext, holds⟩
      · push Not at allowed
        obtain ⟨access, accessed, forbidden⟩ := allowed
        have plainAccessed := accessed
        rw [Text.accesses_alike isComplete.undisturbed stands inCode alike]
          at plainAccessed
        obtain ⟨result, handled⟩ :=
          transparent.handles plain machine env access reached alike holds
            plainAccessed forbidden
        obtain ⟨back, next, rfl, alikeBack, holdsBack, fewer⟩ :=
          transparent.returns plain machine env access result reached alike
            holds plainAccessed forbidden handled
        obtain ⟨other, later, onward, alikeNext, holdsLater⟩ :=
          inductionHypothesis (left next) (faults ▸ fewer)
            (alike.trans alikeBack) holdsBack rfl
        exact ⟨other, later, .head (.faults accessed forbidden handled) onward,
          alikeNext, holdsLater⟩

/-- What the code comes to, it comes to under the protection too. -/
theorem Transparent.completes
    (reached : Reaches code start plain)
    (onward : Reaches code plain next)
    (alike : Alike own plain machine)
    (holds : invariant env) :
    ∃ other later,
      GuardedReaches text protection ⟨some machine, env⟩
          ⟨some other, later⟩ ∧
        Alike own next other ∧ invariant later := by
  induction onward with
  | refl =>
      exact ⟨machine, env, .refl, alike, holds⟩
  | tail onward stepped inductionHypothesis =>
      obtain ⟨between, middle, reachedBetween, alikeBetween, holdsBetween⟩ :=
        inductionHypothesis
      obtain ⟨other, later, advanced, alikeNext, holdsLater⟩ :=
        transparent.advances isComplete (reached.trans onward) stepped
          alikeBetween holdsBetween
      exact ⟨other, later, reachedBetween.trans advanced, alikeNext,
        holdsLater⟩

/--
Whatever has happened under the protection, the machine is on the way of the
code, and can go on to its end.
-/
theorem Transparent.reaches_final
    (holds : invariant env)
    (reached :
      GuardedReaches text protection ⟨some start, env⟩ state) :
    ∃ plain machine,
      state.machine = some machine ∧ Reaches code start plain ∧
        Alike own plain machine ∧ invariant state.env ∧
        ∃ other later,
          GuardedReaches text protection state ⟨some other, later⟩ ∧
            Alike own final other ∧ invariant later := by
  obtain ⟨plain, machine, current, rfl, reachedPlain, alike, holdsCurrent⟩ :=
    transparent.simulates isComplete holds reached
  exact ⟨plain, machine, rfl, reachedPlain, alike, holdsCurrent,
    transparent.completes isComplete reachedPlain
      (isComplete.way.onward isComplete.ends reachedPlain).reaches alike
      holdsCurrent⟩

end Rules

end Rv64
