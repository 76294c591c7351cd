import Mathlib.Data.BitVec
import Mathlib.Tactic.Ring

namespace LittleEndian

/-!
# Little-endian numerals

A number and its list of bytes, lowest byte first.
-/

/-- The `count` lowest bytes of a number. -/
def encode : (count value : Nat) → List (BitVec 8)
  | 0, _ => []
  | count + 1, value =>
      BitVec.ofNat 8 value :: encode count (value / 256)

/-- The number a list of bytes denotes. -/
def decode : List (BitVec 8) → Nat
  | [] => 0
  | byte :: rest => byte.toNat + 256 * decode rest

@[simp] theorem decode_nil : decode [] = 0 :=
  rfl

@[simp] theorem length_encode (count value : Nat) :
    (encode count value).length = count := by
  induction count generalizing value with
  | zero =>
      rfl
  | succ count inductionHypothesis =>
      simp [encode, inductionHypothesis]

/-- Bytes denote a number below the power of their count. -/
theorem decode_lt (bytes : List (BitVec 8)) :
    decode bytes < 256 ^ bytes.length := by
  induction bytes with
  | nil =>
      simp
  | cons byte rest inductionHypothesis =>
      have byteBound := byte.isLt
      simp only [decode, List.length_cons, Nat.pow_succ]
      omega

/-- Decoding recovers the encoded number when its bytes suffice. -/
theorem decode_encode
    {count value : Nat}
    (fits : value < 256 ^ count) :
    decode (encode count value) = value := by
  induction count generalizing value with
  | zero =>
      simp only [Nat.pow_zero] at fits
      simp only [encode, decode_nil]
      omega
  | succ count inductionHypothesis =>
      have quotientFits : value / 256 < 256 ^ count := by
        rw [Nat.pow_succ] at fits
        exact Nat.div_lt_of_lt_mul (by omega)
      simp only [encode, decode, BitVec.toNat_ofNat,
        inductionHypothesis quotientFits]
      omega

/-- Encoding recovers the decoded bytes. -/
theorem encode_decode (bytes : List (BitVec 8)) :
    encode bytes.length (decode bytes) = bytes := by
  induction bytes with
  | nil =>
      rfl
  | cons byte rest inductionHypothesis =>
      have byteBound := byte.isLt
      have lowByte :
          BitVec.ofNat 8 (byte.toNat + 256 * decode rest) = byte := by
        apply BitVec.eq_of_toNat_eq
        simp only [BitVec.toNat_ofNat]
        omega
      have quotient :
          (byte.toNat + 256 * decode rest) / 256 = decode rest := by
        omega
      simp only [List.length_cons, encode, decode, lowByte, quotient,
        inductionHypothesis]

theorem decode_append (first second : List (BitVec 8)) :
    decode (first ++ second) =
      decode first + 256 ^ first.length * decode second := by
  induction first with
  | nil =>
      simp
  | cons byte rest inductionHypothesis =>
      simp only [List.cons_append, decode, inductionHypothesis,
        List.length_cons]
      ring

/-- A byte of the list is a digit of the number. -/
theorem ofNat_decode_div_pow
    (bytes : List (BitVec 8))
    (index : Nat)
    (inRange : index < bytes.length) :
    BitVec.ofNat 8 (decode bytes / 256 ^ index) = bytes[index] := by
  induction bytes generalizing index with
  | nil =>
      cases inRange
  | cons byte rest inductionHypothesis =>
      have byteBound := byte.isLt
      cases index with
      | zero =>
          apply BitVec.eq_of_toNat_eq
          simp only [decode, Nat.pow_zero, Nat.div_one, BitVec.toNat_ofNat,
            List.getElem_cons_zero]
          omega
      | succ index =>
          have shifted :
              decode (byte :: rest) / 256 ^ (index + 1) =
                decode rest / 256 ^ index := by
            have quotient :
                (byte.toNat + 256 * decode rest) / 256 = decode rest := by
              omega
            rw [decode, Nat.pow_succ, Nat.mul_comm (256 ^ index),
              ← Nat.div_div_eq_div_mul, quotient]
          rw [shifted, List.getElem_cons_succ]
          exact inductionHypothesis index (Nat.lt_of_succ_lt_succ inRange)

/-- Zero bytes at the high end add nothing. -/
theorem decode_append_zeros (bytes : List (BitVec 8)) (count : Nat) :
    decode (bytes ++ List.replicate count 0) = decode bytes := by
  have zeros : decode (List.replicate count 0) = 0 := by
    induction count with
    | zero =>
        rfl
    | succ count inductionHypothesis =>
        simpa [List.replicate_succ, decode] using inductionHypothesis
  rw [decode_append, zeros]
  simp

/-- Only zero bytes denote zero. -/
theorem decode_eq_zero_iff (bytes : List (BitVec 8)) :
    decode bytes = 0 ↔ ∀ byte ∈ bytes, byte = 0 := by
  induction bytes with
  | nil =>
      simp
  | cons byte rest inductionHypothesis =>
      rw [List.forall_mem_cons, ← inductionHypothesis, decode,
        ← BitVec.toNat_inj]
      simp

end LittleEndian
