import S3kMonitor.Lib.Gf256

namespace Fips197

open Gf256 Polynomial

/-!
# AES-128 over the field

The cipher as FIPS-197 states it: the state is a square of field elements,
the S-box is inversion followed by an affine map of the bits, and columns are
mixed as polynomials modulo `x^4 + 1`.
-/

/-- The element `s[r, c]` is in row `r` and column `c`. -/
abbrev State :=
  Fin 4 → Fin 4 → Element

/-- A column of the state or a word of the key. -/
abbrev Word :=
  Fin 4 → Element

/-- Each bit is the sum of five bits and one bit of `{63}`. -/
def affine (byte : BitVec 8) : BitVec 8 :=
  ofBits fun bit =>
    byte.getLsbD bit ^^ byte.getLsbD ((bit + 4) % 8) ^^
      byte.getLsbD ((bit + 5) % 8) ^^ byte.getLsbD ((bit + 6) % 8) ^^
      byte.getLsbD ((bit + 7) % 8) ^^ (0x63 : BitVec 8).getLsbD bit

noncomputable section

/-- The inverse in the field, and then the affine transformation. -/
def subByte (element : Element) : Element :=
  ofByte (affine (toByte element⁻¹))

/-- `SubBytes` -/
def subBytes (state : State) : State :=
  fun r c => subByte (state r c)

/-- Row `r` moves `r` places to the left. -/
def shiftRows (state : State) : State :=
  fun r c => state r (c + r)

/-- Four elements as a polynomial, lowest coefficient first. -/
def columnPolynomial (column : Word) : Element[X] :=
  Polynomial.ofFn 4 column

/-- `{03}x^3 + {01}x^2 + {01}x + {02}`. -/
def mixPolynomial : Element[X] :=
  C (ofByte 0x03) * X ^ 3 + C (ofByte 0x01) * X ^ 2 +
    C (ofByte 0x01) * X + C (ofByte 0x02)

/-- The product with a fixed polynomial modulo `X ^ 4 + 1`. -/
def mixColumn (column : Word) : Word :=
  fun r =>
    ((mixPolynomial * columnPolynomial column) %ₘ (X ^ 4 + 1)).coeff r

/-- `MixColumns` -/
def mixColumns (state : State) : State :=
  fun r c => mixColumn (fun row => state row c) r

/-- Round key `round` consists of the words from `4 * round` on. -/
def addRoundKey (words : Nat → Word) (round : Nat) (state : State) : State :=
  fun r c => state r c + words (4 * round + c) r

/-- `SubWord` -/
def subWord (word : Word) : Word :=
  fun r => subByte (word r)

/-- `[a0, a1, a2, a3]` becomes `[a1, a2, a3, a0]`. -/
def rotWord (word : Word) : Word :=
  fun r => word (r + 1)

/-- `[x^(j-1), {00}, {00}, {00}]`. -/
def rcon (j : Nat) : Word :=
  ![AdjoinRoot.root modulus ^ (j - 1), 0, 0, 0]

/-- The words of the key schedule. -/
def keyExpansion (key : Fin 4 → Word) : Nat → Word
  | 0 => key 0
  | 1 => key 1
  | 2 => key 2
  | 3 => key 3
  | i + 4 =>
      keyExpansion key i +
        if (i + 4) % 4 = 0 then
          subWord (rotWord (keyExpansion key (i + 3))) + rcon ((i + 4) / 4)
        else
          keyExpansion key (i + 3)

/-- A round in the middle. -/
def round (words : Nat → Word) (state : State) (index : Nat) : State :=
  addRoundKey words index (mixColumns (shiftRows (subBytes state)))

/-- Nine rounds and a last one that does not mix the columns. -/
def cipher (words : Nat → Word) (input : State) : State :=
  let state := addRoundKey words 0 input
  let state := (List.range' 1 9).foldl (round words) state
  addRoundKey words 10 (shiftRows (subBytes state))

/-- Bytes fill the state column by column. -/
def position (r c : Fin 4) : Fin 16 :=
  ⟨r + 4 * c, by omega⟩

/-- The row of a byte of the block. -/
def rowOf (index : Fin 16) : Fin 4 :=
  ⟨index % 4, by omega⟩

/-- The column of a byte of the block. -/
def columnOf (index : Fin 16) : Fin 4 :=
  ⟨index / 4, by omega⟩

/-- A byte stands in its row and column. -/
theorem position_of (index : Fin 16) :
    position (rowOf index) (columnOf index) = index :=
  Fin.ext (Nat.mod_add_div index 4)

/-- The row of the byte at a position. -/
theorem rowOf_position (r c : Fin 4) : rowOf (position r c) = r := by
  apply Fin.ext
  have value : (rowOf (position r c)).val = (r.val + 4 * c.val) % 4 := rfl
  omega

/-- The column of the byte at a position. -/
theorem columnOf_position (r c : Fin 4) : columnOf (position r c) = c := by
  apply Fin.ext
  have value : (columnOf (position r c)).val = (r.val + 4 * c.val) / 4 := rfl
  omega

/-- The state that holds a block. -/
def ofBytes (bytes : Fin 16 → BitVec 8) : State :=
  fun r c => ofByte (bytes (position r c))

/-- The block that a state holds. -/
def toBytes (state : State) : Fin 16 → BitVec 8 :=
  fun index => toByte (state (rowOf index) (columnOf index))

/-- A key is four words of four bytes each. -/
def keyWords (key : Fin 16 → BitVec 8) : Fin 4 → Word :=
  fun i r => ofByte (key (position r i))

/-- AES-128 from bytes to bytes. -/
def aes128 (key block : Fin 16 → BitVec 8) : Fin 16 → BitVec 8 :=
  toBytes (cipher (keyExpansion (keyWords key)) (ofBytes block))

end

/-- A block is the one that its state holds. -/
theorem toBytes_ofBytes (bytes : Fin 16 → BitVec 8) :
    toBytes (ofBytes bytes) = bytes := by
  funext index
  rw [toBytes, ofBytes, toByte_ofByte, position_of]

section KeyExpansion

variable
  (key : Fin 4 → Word)
  (index : Nat)

/-- The first word of a round key. -/
theorem keyExpansion_first :
    keyExpansion key (4 * index + 4) =
      keyExpansion key (4 * index) +
        (subWord (rotWord (keyExpansion key (4 * index + 3))) +
          rcon (index + 1)) := by
  have isFirst : (4 * index + 4) % 4 = 0 := by
    omega
  have quotient : (4 * index + 4) / 4 = index + 1 := by
    omega
  rw [keyExpansion, if_pos isFirst, quotient]

/-- The words in between are not rotated or substituted. -/
theorem keyExpansion_other
    (notFirst : (index + 4) % 4 ≠ 0) :
    keyExpansion key (index + 4) =
      keyExpansion key index + keyExpansion key (index + 3) := by
  rw [keyExpansion, if_neg notFirst]

end KeyExpansion

/-- A mixed column written out. -/
theorem mixColumn_apply (column : Word) (r : Fin 4) :
    mixColumn column r =
      ofByte 0x02 * column r + ofByte 0x03 * column (r + 1) +
        column (r + 2) + column (r + 3) := by
  let mixed : Word := fun r =>
    ofByte 0x02 * column r + ofByte 0x03 * column (r + 1) +
      column (r + 2) + column (r + 3)
  have digits (word : Word) :
      columnPolynomial word =
        C (word 0) + C (word 1) * X + C (word 2) * X ^ 2 +
          C (word 3) * X ^ 3 := by
    rw [columnPolynomial, ofFn_eq_sum_monomial, Fin.sum_univ_four]
    simp [← C_mul_X_pow_eq_monomial]
  have monic : (X ^ 4 + 1 : Element[X]).Monic := by
    monicity!
  have degree : (X ^ 4 + 1 : Element[X]).degree = 4 := by
    compute_degree!
  have twoZero : (2 : Element[X]) = 0 := by
    rw [← C_ofNat, two_eq_zero, C_0]
  -- What goes beyond `x^3` comes back four places further down.
  let beyond : Element[X] :=
    C (ofByte 0x03 * column 1 + column 2 + column 3) +
      C (ofByte 0x03 * column 2 + column 3) * X +
      C (ofByte 0x03 * column 3) * X ^ 2
  have wrapped :
      columnPolynomial mixed + (X ^ 4 + 1) * beyond =
        mixPolynomial * columnPolynomial column := by
    rw [digits, digits, mixPolynomial]
    simp only [mixed, beyond, ofByte_one, map_add, map_mul, map_one,
      Fin.isValue, Fin.reduceAdd]
    linear_combination
      (C (ofByte 0x03) * C (column 1) + C (column 2) + C (column 3) +
        (C (ofByte 0x03) * C (column 2) + C (column 3)) * X +
        C (ofByte 0x03) * C (column 3) * X ^ 2) * twoZero
  have reduced :=
    (div_modByMonic_unique _ _ monic
      ⟨wrapped, degree ▸ ofFn_degree_lt mixed⟩).2
  rw [mixColumn, reduced]
  exact ofFn_coeff_eq_val_of_lt mixed r.isLt

end Fips197
