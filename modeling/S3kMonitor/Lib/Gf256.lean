import Mathlib.Algebra.Field.ZMod
import Mathlib.Algebra.Polynomial.OfFn
import Mathlib.Data.BitVec
import Mathlib.RingTheory.AdjoinRoot
import Mathlib.Tactic.ComputeDegree
import Mathlib.Tactic.LinearCombination

namespace Gf256

open Polynomial

/-!
# The field with 256 elements

The field is the quotient of the polynomials over `ZMod 2` by
`x^8 + x^4 + x^3 + x + 1`.  A byte stands for the class of the polynomial
whose coefficients are its bits, lowest bit first.  On bytes the operations
can be computed, and computing the order of `x + 1` shows that this is a
field: its powers are all that is there besides 0.
-/

/-- The polynomial that AES reduces by. -/
noncomputable def modulus : (ZMod 2)[X] :=
  X ^ 8 + X ^ 4 + X ^ 3 + X + 1

/-- Polynomials up to multiples of the modulus. -/
abbrev Element :=
  AdjoinRoot modulus

/-- Its leading coefficient is 1. -/
theorem modulus_monic : modulus.Monic := by
  unfold modulus
  monicity!

/-- Its degree is 8. -/
theorem modulus_natDegree : modulus.natDegree = 8 := by
  unfold modulus
  compute_degree!

/-- The same as a degree in the order with a bottom. -/
theorem modulus_degree : modulus.degree = 8 := by
  rw [degree_eq_natDegree modulus_monic.ne_zero, modulus_natDegree]
  rfl

section Bits

/-- The byte with these bits, lowest bit first. -/
def ofBits (bits : Fin 8 → Bool) : BitVec 8 :=
  (BitVec.ofBoolListLE (List.ofFn bits)).setWidth 8

/-- A byte of bits has these bits. -/
theorem getLsbD_ofBits (bits : Fin 8 → Bool) (index : Fin 8) :
    (ofBits bits).getLsbD index = bits index := by
  have inList : index.val < (List.ofFn bits).length := by
    rw [List.length_ofFn]
    exact index.isLt
  rw [ofBits, BitVec.getLsbD_setWidth, BitVec.getLsbD_ofBoolListLE,
    List.getD_eq_getElem _ _ inList, List.getElem_ofFn,
    decide_eq_true index.isLt, Bool.true_and]

/-- The bits of a byte as coefficients. -/
def coefficients (byte : BitVec 8) (index : Fin 8) : ZMod 2 :=
  if byte.getLsbD index then 1 else 0

/-- The byte with these coefficients. -/
def ofCoefficients (values : Fin 8 → ZMod 2) : BitVec 8 :=
  ofBits fun index => values index = 1

/-- A byte is the one with its coefficients. -/
theorem ofCoefficients_coefficients (byte : BitVec 8) :
    ofCoefficients (coefficients byte) = byte := by
  apply BitVec.eq_of_getLsbD_eq
  intro bit inRange
  rw [ofCoefficients, getLsbD_ofBits _ ⟨bit, inRange⟩, coefficients]
  cases byte.getLsbD bit with
  | false => decide
  | true => decide

/-- The coefficients of the byte are the ones it was made of. -/
theorem coefficients_ofCoefficients (values : Fin 8 → ZMod 2) :
    coefficients (ofCoefficients values) = values := by
  funext index
  rw [coefficients, ofCoefficients, getLsbD_ofBits]
  generalize values index = value
  revert value
  decide

end Bits

noncomputable section

/-- The polynomial of degree below 8 that a byte stands for. -/
def polynomial (byte : BitVec 8) : (ZMod 2)[X] :=
  Polynomial.ofFn 8 (coefficients byte)

/-- The field element of a byte. -/
def ofByte (byte : BitVec 8) : Element :=
  AdjoinRoot.mk modulus (polynomial byte)

/-- The byte of a field element. -/
def toByte (element : Element) : BitVec 8 :=
  ofCoefficients
    (Polynomial.toFn 8 (AdjoinRoot.modByMonicHom modulus_monic element))

/-- Nothing is lost from a byte. -/
@[simp]
theorem toByte_ofByte (byte : BitVec 8) : toByte (ofByte byte) = byte := by
  have reduced : polynomial byte %ₘ modulus = polynomial byte := by
    rw [modByMonic_eq_self_iff modulus_monic, modulus_degree]
    exact ofFn_degree_lt _
  rw [toByte, ofByte, AdjoinRoot.modByMonicHom_mk, reduced, polynomial,
    toFn_comp_ofFn_eq_id, ofCoefficients_coefficients]

/-- Different bytes are different elements. -/
theorem ofByte_injective : Function.Injective ofByte :=
  Function.LeftInverse.injective toByte_ofByte

/-- Every element is one of a byte. -/
@[simp]
theorem ofByte_toByte (element : Element) :
    ofByte (toByte element) = element := by
  have short :
      (AdjoinRoot.modByMonicHom modulus_monic element).natDegree < 8 := by
    obtain ⟨polynomial, rfl⟩ := AdjoinRoot.mk_surjective element
    rw [AdjoinRoot.modByMonicHom_mk, ← modulus_natDegree]
    apply natDegree_modByMonic_lt _ modulus_monic
    intro isOne
    have degree := modulus_natDegree
    rw [isOne, natDegree_one] at degree
    cases degree
  rw [ofByte, polynomial, toByte, coefficients_ofCoefficients,
    ofFn_comp_toFn_eq_id_of_natDegree_lt short]
  exact AdjoinRoot.mk_leftInverse modulus_monic element

/-- A byte for every element of the field. -/
def byteEquiv : BitVec 8 ≃ Element where
  toFun := ofByte
  invFun := toByte
  left_inv := toByte_ofByte
  right_inv := ofByte_toByte

end

section Arithmetic

/-- Multiplication by `x`: a shift, reduced when a bit falls out. -/
def xtime (byte : BitVec 8) : BitVec 8 :=
  byte <<< 1 ^^^ bif byte.msb then 0x1b else 0

/-- Multiplication, from the highest bit of the second factor down. -/
def mul (first second : BitVec 8) : BitVec 8 :=
  (List.finRange 8).foldr
    (fun (bit : Fin 8) product =>
      xtime product ^^^ bif second.getLsbD bit then first else 0) 0

/-- Multiplication by `x + 1`. -/
def triple (byte : BitVec 8) : BitVec 8 :=
  xtime byte ^^^ byte

/-- The powers of `x + 1` return to 1 after 255 steps and not before. -/
theorem triple_iterate :
    triple^[255] 1 = 1 ∧ triple^[85] 1 ≠ 1 ∧ triple^[51] 1 ≠ 1 ∧
      triple^[15] 1 ≠ 1 := by
  decide +kernel

/-- The coefficients after a multiplication by `x`. -/
theorem coefficients_xtime (byte : BitVec 8) :
    coefficients (xtime byte) =
      let digit := coefficients byte
      ![digit 7, digit 0 + digit 7, digit 1, digit 2 + digit 7,
        digit 3 + digit 7, digit 4, digit 5, digit 6] := by
  revert byte
  decide +kernel

end Arithmetic

section Homomorphism

open AdjoinRoot (root of)

/-- The root of the modulus satisfies its equation. -/
theorem root_relation :
    root modulus ^ 8 + root modulus ^ 4 + root modulus ^ 3 +
      root modulus + 1 = 0 := by
  have vanishes :
      AdjoinRoot.mk modulus (X ^ 8 + X ^ 4 + X ^ 3 + X + 1) = 0 :=
    AdjoinRoot.mk_self
  simpa only [map_add, map_pow, map_one, AdjoinRoot.mk_X] using vanishes

/-- The field has characteristic 2. -/
theorem two_eq_zero : (2 : Element) = 0 := by
  have vanishes : of modulus (1 + 1) = 0 :=
    map_zero (of modulus)
  rw [map_add, map_one] at vanishes
  rw [← vanishes]
  norm_num

/-- The coefficients of a byte are those of its class. -/
theorem ofByte_eq_sum (byte : BitVec 8) :
    ofByte byte =
      ∑ index : Fin 8,
        of modulus (coefficients byte index) *
          root modulus ^ index.val := by
  rw [ofByte, polynomial, ofFn_eq_sum_monomial, map_sum]
  refine Finset.sum_congr rfl fun index _ => ?_
  rw [← C_mul_X_pow_eq_monomial, map_mul, map_pow, AdjoinRoot.mk_C,
    AdjoinRoot.mk_X]

/-- An element is the sum of its digits. -/
theorem ofByte_eq_digits (byte : BitVec 8) :
    let digit (index : Fin 8) := of modulus (coefficients byte index)
    let x := root modulus
    ofByte byte =
      digit 0 + digit 1 * x + digit 2 * x ^ 2 + digit 3 * x ^ 3 +
        digit 4 * x ^ 4 + digit 5 * x ^ 5 + digit 6 * x ^ 6 +
        digit 7 * x ^ 7 := by
  rw [ofByte_eq_sum, Fin.sum_univ_eight]
  simp

/-- The byte 0 is the zero of the field. -/
@[simp]
theorem ofByte_zero : ofByte 0 = 0 := by
  simp [ofByte_eq_sum, coefficients]

/-- The byte 1 is its one. -/
@[simp]
theorem ofByte_one : ofByte 1 = 1 := by
  simp [ofByte_eq_sum, coefficients]

/-- Exclusive or is addition. -/
theorem ofByte_xor (first second : BitVec 8) :
    ofByte (first ^^^ second) = ofByte first + ofByte second := by
  have added :
      coefficients (first ^^^ second) =
        coefficients first + coefficients second := by
    funext index
    rw [Pi.add_apply, coefficients, coefficients, coefficients,
      BitVec.getLsbD_xor]
    cases first.getLsbD index <;> cases second.getLsbD index <;> decide
  rw [ofByte, polynomial, added, map_add, map_add]
  rfl

/-- `xtime` multiplies by the root. -/
theorem ofByte_xtime (byte : BitVec 8) :
    ofByte (xtime byte) = root modulus * ofByte byte := by
  rw [ofByte_eq_digits, ofByte_eq_digits, coefficients_xtime]
  simp only [Matrix.cons_val, map_add]
  linear_combination
    of modulus (coefficients byte 7) * root_relation -
      of modulus (coefficients byte 7) * root modulus ^ 8 * two_eq_zero

/-- A step that multiplies, taken over and over from 1. -/
theorem ofByte_iterate
    {step : BitVec 8 → BitVec 8}
    {factor : Element}
    (multiplies : ∀ byte, ofByte (step byte) = factor * ofByte byte)
    (count : Nat) :
    ofByte (step^[count] 1) = factor ^ count := by
  induction count with
  | zero =>
      rw [Function.iterate_zero_apply, ofByte_one, pow_zero]
  | succ count inductionHypothesis =>
      rw [Function.iterate_succ_apply', multiplies, inductionHypothesis,
        pow_succ']

/-- The byte 2 is the root. -/
theorem ofByte_two : ofByte 0x02 = root modulus := by
  rw [← pow_one (root modulus), ← ofByte_iterate ofByte_xtime]
  rfl

/-- Multiplication of bytes is the one of the field. -/
theorem ofByte_mul (first second : BitVec 8) :
    ofByte (mul first second) = ofByte first * ofByte second := by
  have step (product : BitVec 8) (bit : Fin 8) :
      ofByte
          (xtime product ^^^ bif second.getLsbD bit then first else 0) =
        root modulus * ofByte product +
          of modulus (coefficients second bit) * ofByte first := by
    rw [ofByte_xor, ofByte_xtime, coefficients]
    cases second.getLsbD bit with
    | false =>
        rw [cond_false, ofByte_zero]
        simp
    | true =>
        simp
  have rounds : List.finRange 8 = [0, 1, 2, 3, 4, 5, 6, 7] := by
    decide
  rw [mul, rounds, ofByte_eq_digits second]
  simp only [List.foldr_cons, List.foldr_nil, step, ofByte_zero]
  ring

end Homomorphism

section Field

open AdjoinRoot (root)

/-- `triple` multiplies by the root plus one. -/
theorem ofByte_triple (byte : BitVec 8) :
    ofByte (triple byte) = (root modulus + 1) * ofByte byte := by
  rw [triple, ofByte_xor, ofByte_xtime]
  ring

/-- The byte 3 is the root plus one. -/
theorem ofByte_three : ofByte 0x03 = root modulus + 1 := by
  have tripled := ofByte_triple 1
  rw [ofByte_one, mul_one] at tripled
  rw [← tripled]
  rfl

/-- The byte 3 generates all elements but zero. -/
theorem orderOf_root_add_one : orderOf (root modulus + 1) = 255 := by
  obtain ⟨returns, not85, not51, not15⟩ := triple_iterate
  have notOne
      {count : Nat}
      (apart : triple^[count] 1 ≠ 1) :
      (root modulus + 1) ^ count ≠ 1 := by
    rw [← ofByte_iterate ofByte_triple, ← ofByte_one]
    exact fun same => apart (ofByte_injective same)
  apply orderOf_eq_of_pow_and_pow_div_prime (by decide)
  · rw [← ofByte_iterate ofByte_triple, returns, ofByte_one]
  · intro prime isPrime divides
    have factors : prime ∣ 3 * 5 * 17 :=
      divides
    rw [isPrime.dvd_mul, isPrime.dvd_mul,
      Nat.prime_dvd_prime_iff_eq isPrime Nat.prime_three,
      Nat.prime_dvd_prime_iff_eq isPrime Nat.prime_five,
      Nat.prime_dvd_prime_iff_eq isPrime (by decide)] at factors
    rcases factors with (rfl | rfl) | rfl
    · exact notOne not85
    · exact notOne not51
    · exact notOne not15

instance : Nontrivial Element :=
  ⟨⟨ofByte 0, ofByte 1, fun same =>
    absurd (ofByte_injective same) (by decide)⟩⟩

/-- There are as many powers of `x + 1` as elements other than 0. -/
theorem exists_pow_eq
    {element : Element}
    (nonzero : element ≠ 0) :
    ∃ count < 255, (root modulus + 1) ^ count = element := by
  classical
  let enumerated : Fin (2 ^ 8) ≃ Element :=
    BitVec.equivFin.symm.toEquiv.trans byteEquiv
  let _ : Fintype Element := Fintype.ofEquiv _ enumerated
  have elements : Fintype.card Element = 256 := by
    rw [← Fintype.card_congr enumerated, Fintype.card_fin]
    norm_num
  let powers :=
    (Finset.range 255).image fun count => (root modulus + 1) ^ count
  have distinct : powers.card = 255 := by
    rw [Finset.card_image_of_injOn, Finset.card_range]
    intro first inRange second otherInRange same
    rw [Finset.coe_range, ← orderOf_root_add_one] at inRange otherInRange
    exact pow_injOn_Iio_orderOf inRange otherInRange same
  have isUnit : IsUnit (root modulus + 1) := by
    apply IsUnit.of_pow_eq_one (pow_orderOf_eq_one _)
    rw [orderOf_root_add_one]
    decide
  have notZero : (0 : Element) ∉ powers := by
    intro member
    obtain ⟨count, -, isZero⟩ := Finset.mem_image.mp member
    exact (isUnit.pow count).ne_zero isZero
  have isAll : powers = Finset.univ.erase 0 := by
    apply Finset.eq_of_subset_of_card_le
    · intro power member
      refine Finset.mem_erase.mpr ⟨?_, Finset.mem_univ _⟩
      rintro rfl
      exact notZero member
    · rw [Finset.card_erase_of_mem (Finset.mem_univ _), Finset.card_univ,
        elements, distinct]
  have member : element ∈ powers := by
    rw [isAll]
    exact Finset.mem_erase.mpr ⟨nonzero, Finset.mem_univ _⟩
  obtain ⟨count, inRange, same⟩ := Finset.mem_image.mp member
  exact ⟨count, Finset.mem_range.mp inRange, same⟩

/-- So every element but 0 has an inverse. -/
theorem element_isField : IsField Element where
  exists_pair_ne := exists_pair_ne Element
  mul_comm := mul_comm
  mul_inv_cancel := by
    intro element nonzero
    obtain ⟨count, inRange, rfl⟩ := exists_pow_eq nonzero
    refine ⟨(root modulus + 1) ^ (255 - count), ?_⟩
    rw [← pow_add, Nat.add_sub_cancel' (Nat.le_of_lt inRange),
      ← orderOf_root_add_one, pow_orderOf_eq_one]

/-- And the modulus has no proper factor. -/
theorem modulus_irreducible : Irreducible modulus := by
  have maximal : (Ideal.span {modulus}).IsMaximal :=
    Ideal.Quotient.maximal_of_isField _ element_isField
  exact ((Ideal.span_singleton_prime modulus_monic.ne_zero).mp
    maximal.isPrime).irreducible

instance : Fact (Irreducible modulus) :=
  ⟨modulus_irreducible⟩

/-- A byte that was found as an inverse is the one of the field. -/
theorem inv_ofByte
    {byte other : BitVec 8}
    (product : mul byte other = 1) :
    (ofByte byte)⁻¹ = ofByte other := by
  refine (eq_inv_of_mul_eq_one_right ?_).symm
  rw [← ofByte_mul, product, ofByte_one]

end Field

end Gf256
