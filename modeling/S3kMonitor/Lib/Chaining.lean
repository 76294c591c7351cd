import Mathlib.Logic.Function.Basic
import Mathlib.Data.List.Range

namespace Chaining

/-!
# Block chaining

A chain absorbs a list of blocks into one value: each block is combined with
the value so far and the result is enciphered.  Nothing is assumed of the
block type.  When the cipher is injective and combining is cancellative, a
chain never merges two different values again, so a change in one absorbed
block is still visible at the end.
-/

variable {X : Type*}

/-- Absorb `blocks` one after the other into `start`. -/
def chain
    (cipher : X → X)
    (combine : X → X → X)
    (start : X)
    (blocks : List X) : X :=
  blocks.foldl (fun value block => cipher (combine value block)) start

section Laws

variable
  (cipher : X → X)
  (combine : X → X → X)

@[simp] theorem chain_nil (start : X) :
    chain cipher combine start [] = start :=
  rfl

@[simp] theorem chain_cons (start block : X) (blocks : List X) :
    chain cipher combine start (block :: blocks) =
      chain cipher combine (cipher (combine start block)) blocks :=
  rfl

@[simp] theorem chain_append (start : X) (first second : List X) :
    chain cipher combine start (first ++ second) =
      chain cipher combine (chain cipher combine start first) second :=
  List.foldl_append

/-- A block that combines to the start of another chain continues with it. -/
theorem chain_splice
    {start glue first : X}
    {leading : List X}
    (joins : combine (chain cipher combine start leading) glue = first)
    (trailing : List X) :
    chain cipher combine start (leading ++ glue :: trailing) =
      chain cipher combine (cipher first) trailing := by
  rw [chain_append, chain_cons, joins]

end Laws

section Injective

variable
  {cipher : X → X}
  {combine : X → X → X}
  (cipherInjective : Function.Injective cipher)
  (combineLeft : ∀ block, Function.Injective fun value => combine value block)
include cipherInjective combineLeft

/-- Absorbing the same blocks keeps two different values apart. -/
theorem chain_start_injective (blocks : List X) :
    Function.Injective fun start => chain cipher combine start blocks := by
  induction blocks with
  | nil =>
      exact Function.injective_id
  | cons block rest inductionHypothesis =>
      intro first second same
      exact combineLeft block
        (cipherInjective (inductionHypothesis same))

/-- A changed block is visible at the end of the chain. -/
theorem chain_ne_of_block_ne
    (combineRight : ∀ value, Function.Injective (combine value))
    (start : X)
    (leading trailing : List X)
    {first second : X}
    (differ : first ≠ second) :
    chain cipher combine start (leading ++ first :: trailing) ≠
      chain cipher combine start (leading ++ second :: trailing) := by
  simp only [chain_append, chain_cons]
  apply (chain_start_injective cipherInjective combineLeft trailing).ne
  exact cipherInjective.ne ((combineRight _).ne differ)

/-- The same for blocks given by their index. -/
theorem chain_range_ne
    (combineRight : ∀ value, Function.Injective (combine value))
    (start : X)
    {first second : Nat → X}
    {count changed : Nat}
    (inRange : changed < count)
    (differ : first changed ≠ second changed)
    (elsewhere :
      ∀ index, index < count → index ≠ changed →
        first index = second index) :
    chain cipher combine start ((List.range count).map first) ≠
      chain cipher combine start ((List.range count).map second) := by
  have shape :
      List.range count =
        List.range changed ++
          changed :: List.range' (changed + 1) (count - changed - 1) := by
    rw [List.range_eq_range', List.range_eq_range']
    calc
      List.range' 0 count =
          List.range' 0 (changed + (1 + (count - changed - 1))) := by
        congr 1
        omega
      _ = _ := by
        rw [← List.range'_append_1, ← List.range'_append_1]
        simp
  have leadingSame :
      (List.range changed).map first = (List.range changed).map second := by
    apply List.map_congr_left
    intro index member
    have := List.mem_range.mp member
    exact elsewhere index (by omega) (by omega)
  have trailingSame :
      (List.range' (changed + 1) (count - changed - 1)).map first =
        (List.range' (changed + 1) (count - changed - 1)).map second := by
    apply List.map_congr_left
    intro index member
    have := List.mem_range'_1.mp member
    exact elsewhere index (by omega) (by omega)
  rw [shape, List.map_append, List.map_append, List.map_cons,
    List.map_cons, leadingSame, trailingSame]
  exact chain_ne_of_block_ne cipherInjective combineLeft combineRight
    start _ _ differ

end Injective

end Chaining
