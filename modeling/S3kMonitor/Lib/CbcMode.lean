import Mathlib.Logic.Function.Basic

namespace CbcMode

/-!
# Cipher block chaining

A block is combined with the enciphered block in front of it before it is
enciphered, the first one with a start value.  Deciphering is the same
equation solved for the other block: it needs an enciphered block and the one
in front of it, and so can go through the blocks in any order.
-/

variable {X : Type*}

/-- The block in front of each one, which for the first is the start value. -/
def previous (start : X) (blocks : Nat → X) : Nat → X
  | 0 => start
  | index + 1 => blocks index

/-- The first `count` blocks of the output encipher those of the input. -/
def Enciphered
    (cipher : X → X)
    (combine : X → X → X)
    (start : X)
    (count : Nat)
    (input output : Nat → X) :
    Prop :=
  ∀ index, index < count →
    output index =
      cipher (combine (input index) (previous start output index))

/-- The first `count` blocks of the output decipher those of the input. -/
def Deciphered
    (inverse : X → X)
    (combine : X → X → X)
    (start : X)
    (count : Nat)
    (input output : Nat → X) :
    Prop :=
  ∀ index, index < count →
    output index =
      combine (inverse (input index)) (previous start input index)

section Laws

variable
  {cipher inverse : X → X}
  {combine : X → X → X}
  {start : X}
  {count : Nat}
  {input output other : Nat → X}

/-- A later block depends on the enciphered ones in front of it only. -/
theorem previous_congr
    {first second : Nat → X}
    {index : Nat}
    (same : ∀ earlier, earlier < index → first earlier = second earlier) :
    previous start first index = previous start second index := by
  cases index with
  | zero =>
      rfl
  | succ index =>
      exact same index (Nat.lt_succ_self index)

/-- Two outputs for one input agree. -/
theorem Enciphered.unique
    (first : Enciphered cipher combine start count input output)
    (second : Enciphered cipher combine start count input other)
    {index : Nat}
    (inRange : index < count) :
    output index = other index := by
  induction index using Nat.strongRecOn with
  | ind index inductionHypothesis =>
      have before :
          previous start output index = previous start other index :=
        previous_congr fun earlier isEarlier =>
          inductionHypothesis earlier isEarlier (Nat.lt_trans isEarlier inRange)
      rw [first index inRange, second index inRange, before]

variable (cancels : ∀ block key, combine (combine block key) key = block)
include cancels

/-- Read backwards, an enciphered list is a deciphered one. -/
theorem Enciphered.deciphered
    (undoes : Function.LeftInverse inverse cipher)
    (enciphered : Enciphered cipher combine start count input output) :
    Deciphered inverse combine start count output input := by
  intro index inRange
  rw [enciphered index inRange, undoes, cancels]

theorem Deciphered.enciphered
    (undoes : Function.RightInverse inverse cipher)
    (deciphered : Deciphered inverse combine start count input output) :
    Enciphered cipher combine start count output input := by
  intro index inRange
  rw [deciphered index inRange, cancels, undoes]

/-- Deciphering what was enciphered gives the input back. -/
theorem Enciphered.undone
    (undoes : Function.LeftInverse inverse cipher)
    (enciphered : Enciphered cipher combine start count input output)
    (deciphered : Deciphered inverse combine start count output other)
    {index : Nat}
    (inRange : index < count) :
    other index = input index := by
  have back := enciphered.deciphered cancels undoes
  rw [deciphered index inRange, ← back index inRange]

/-- And so does enciphering what was deciphered. -/
theorem Deciphered.undone
    (undoes : Function.RightInverse inverse cipher)
    (deciphered : Deciphered inverse combine start count input output)
    (enciphered : Enciphered cipher combine start count output other)
    {index : Nat}
    (inRange : index < count) :
    other index = input index :=
  enciphered.unique (deciphered.enciphered cancels undoes) inRange

end Laws

end CbcMode
