import Mathlib.Data.Nat.Factorization.Basic
import Mathlib.Tactic.Ring

namespace TrailingOnes

/-!
# Numbers by their trailing ones

Every number is some number of one bits, a zero bit above them, and the rest.
Adding one turns these bits around and leaves the rest alone, which is what
the usual bit tricks on a number and its successor rely on.
-/

/-- `rest`, a zero bit, and `ones` one bits. -/
def compose (rest ones : Nat) : Nat :=
  2 ^ (ones + 1) * rest + (2 ^ ones - 1)

/-- Every number is some rest over a zero and a block of ones. -/
theorem exists_compose (number : Nat) :
    ∃ rest ones, number = compose rest ones := by
  obtain ⟨ones, odd, isOdd, split⟩ :=
    Nat.exists_eq_two_pow_mul_odd (Nat.succ_ne_zero number)
  obtain ⟨rest, rfl⟩ := isOdd
  refine ⟨rest, ones, ?_⟩
  have positive := Nat.two_pow_pos ones
  have regrouped : 2 ^ ones * (2 * rest + 1) =
      2 ^ (ones + 1) * rest + 2 ^ ones := by
    rw [Nat.pow_succ]
    ring
  rw [compose]
  omega

variable (rest ones : Nat)

/-- The increment turns the block of ones into the zero above it. -/
theorem compose_add_one :
    compose rest ones + 1 = 2 ^ (ones + 1) * rest + 2 ^ ones := by
  have positive := Nat.two_pow_pos ones
  rw [compose]
  omega

/-- The bits of a number with a block of ones at its low end. -/
theorem testBit_compose (bit : Nat) :
    (compose rest ones).testBit bit =
      if bit < ones + 1 then decide (bit < ones)
      else rest.testBit (bit - (ones + 1)) := by
  have low : 2 ^ ones - 1 < 2 ^ (ones + 1) := by
    have positive := Nat.two_pow_pos ones
    rw [Nat.pow_succ]
    omega
  rw [compose, Nat.testBit_two_pow_mul_add _ low,
    Nat.testBit_two_pow_sub_one]

/-- The bits of its increment: one bit in place of the zero above the block. -/
theorem testBit_compose_add_one (bit : Nat) :
    (compose rest ones + 1).testBit bit =
      if bit < ones + 1 then decide (ones = bit)
      else rest.testBit (bit - (ones + 1)) := by
  have low : 2 ^ ones < 2 ^ (ones + 1) :=
    Nat.pow_lt_pow_right (by decide) (Nat.lt_succ_self ones)
  rw [compose_add_one, Nat.testBit_two_pow_mul_add _ low,
    Nat.testBit_two_pow]

/-- The bits that a number has in common with its successor. -/
theorem add_one_and :
    (compose rest ones + 1) &&& compose rest ones =
      2 ^ (ones + 1) * rest := by
  apply Nat.eq_of_testBit_eq
  intro bit
  rw [Nat.testBit_and, testBit_compose, testBit_compose_add_one,
    Nat.testBit_two_pow_mul]
  split
  · next isLow =>
    have below : ¬ bit ≥ ones + 1 := by
      omega
    have apart : ¬ (ones = bit ∧ bit < ones) := by
      omega
    simpa [below] using not_and.mp apart
  · next isHigh =>
    simp [Nat.not_lt.mp isHigh]

/-- The bits that a number or its successor has. -/
theorem add_one_or :
    (compose rest ones + 1) ||| compose rest ones =
      2 ^ (ones + 1) * rest + (2 ^ (ones + 1) - 1) := by
  have low : 2 ^ (ones + 1) - 1 < 2 ^ (ones + 1) :=
    Nat.sub_lt (Nat.two_pow_pos _) Nat.one_pos
  apply Nat.eq_of_testBit_eq
  intro bit
  rw [Nat.testBit_or, testBit_compose, testBit_compose_add_one,
    Nat.testBit_two_pow_mul_add _ low, Nat.testBit_two_pow_sub_one]
  split
  · next isLow =>
    have either : ones = bit ∨ bit < ones := by
      omega
    simpa [isLow] using either
  · next isHigh =>
    exact Bool.or_self _

/-- The bits in which a number differs from its successor. -/
theorem xor_add_one :
    compose rest ones ^^^ (compose rest ones + 1) =
      2 ^ (ones + 1) - 1 := by
  apply Nat.eq_of_testBit_eq
  intro bit
  rw [Nat.testBit_xor, testBit_compose, testBit_compose_add_one,
    Nat.testBit_two_pow_sub_one]
  split
  · next isLow =>
    by_cases isTop : ones = bit
    · subst isTop
      simp
    · have isOne : bit < ones := by
        omega
      simp [isTop, isOne, isLow]
  · next isHigh =>
    simp [isHigh]

/-- Below the zero bit, `2 ^ ones - 1` sets what is not set yet. -/
theorem or_two_pow_sub_one :
    2 ^ (ones + 1) * rest ||| (2 ^ ones - 1) = compose rest ones := by
  have low : 2 ^ ones - 1 < 2 ^ (ones + 1) := by
    have positive := Nat.two_pow_pos ones
    rw [Nat.pow_succ]
    omega
  exact (Nat.two_pow_add_eq_or_of_lt low rest).symm

end TrailingOnes
