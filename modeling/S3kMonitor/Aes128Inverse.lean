import S3kMonitor.Aes128
import Mathlib.Tactic.IntervalCases

namespace S3kMonitor

open Aes128

/-!
# Decryption undoes encryption

The two substitution tables are inverse, the six multiplication tables are
additive because each is built from `xtime`, and with that the backward
column map undoes the forward one.  Every step of `aes128_enc` has its
inverse in `aes128_dec`, whatever the 44 round-key words are, so encryption
under a fixed key is injective on blocks.
-/

namespace Aes128

/-- The entries of a table that is computed by a function. -/
def entries (function : Byte → Byte) : List Byte :=
  (List.finRange 256).map fun index => function (BitVec.ofFin index)

/-- A table whose entries are computed by a function is that function. -/
private theorem lookup_of_entries
    {table : Vector Byte 256}
    (function : Byte → Byte)
    (computed : table.toList = entries function)
    (byte : Byte) :
    lookup table byte = function byte := by
  have inRange : byte.toFin.val < table.toList.length := by
    simpa using byte.toFin.isLt
  calc
    lookup table byte = table.toList.get ⟨byte.toFin.val, inRange⟩ := by
      simp [lookup, Vector.get]
    _ = function byte := by
      simp only [computed, entries, List.get_eq_getElem, List.getElem_map,
        List.getElem_finRange]
      rfl

/-- `rsbox` undoes `sbox`. -/
theorem lookup_rsbox_sbox (byte : Byte) :
    lookup rsbox (lookup sbox byte) = byte := by
  have listed :
      sbox.toList.map (lookup rsbox) = entries fun byte => byte := by
    decide +kernel
  have mapped :
      lookup (sbox.map (lookup rsbox)) byte = byte := by
    apply lookup_of_entries (fun byte => byte)
    rw [Vector.toList_map, listed]
  simpa [lookup, Vector.get] using mapped

/-- Doubling in the field: a shift, reduced by `0x1b` when a bit falls out. -/
def xtime (byte : Byte) : Byte :=
  byte <<< 1 ^^^ bif byte.msb then 0x1b else 0

/-- Multiplication by 2 goes through an exclusive or. -/
theorem xtime_xor (first second : Byte) :
    xtime (first ^^^ second) = xtime first ^^^ xtime second := by
  unfold xtime
  rw [BitVec.shiftLeft_xor_distrib, BitVec.msb_xor]
  cases first.msb <;> cases second.msb
  · simp
  · simp [BitVec.xor_assoc]
  · simp only [Bool.bne_false, cond_true, cond_false]
    ac_rfl
  · simp only [bne_self_eq_false, cond_false, cond_true]
    rw [show ∀ a b c : Byte, a ^^^ c ^^^ (b ^^^ c) = a ^^^ b ^^^ (c ^^^ c) by
      intros; ac_rfl]
    simp

/--
The factor of each table as a polynomial: 2 is `x`, 3 is `x + 1`, 9 is
`x^3 + 1`, 11 is `x^3 + x + 1`, 13 is `x^3 + x^2 + 1` and 14 is `x^3 + x^2 + x`.
-/
private theorem toList_gf :
    gf2.toList = entries xtime ∧
    gf3.toList = entries (fun byte => xtime byte ^^^ byte) ∧
    gf9.toList = entries (fun byte => xtime (xtime (xtime byte)) ^^^ byte) ∧
    gf11.toList =
      entries (fun byte =>
        xtime (xtime (xtime byte)) ^^^ xtime byte ^^^ byte) ∧
    gf13.toList =
      entries (fun byte =>
        xtime (xtime (xtime byte)) ^^^ xtime (xtime byte) ^^^ byte) ∧
    gf14.toList =
      entries (fun byte =>
        xtime (xtime (xtime byte)) ^^^ xtime (xtime byte) ^^^
          xtime byte) := by
  decide +kernel

/-- The table for the factor 2. -/
theorem lookup_gf2 (byte : Byte) :
    lookup gf2 byte =
      xtime byte :=
  lookup_of_entries _ toList_gf.1 byte

/-- The table for the factor 3, as 2 + 1. -/
theorem lookup_gf3 (byte : Byte) :
    lookup gf3 byte =
      xtime byte ^^^ byte :=
  lookup_of_entries _ toList_gf.2.1 byte

/-- The table for the factor 9, as 8 + 1. -/
theorem lookup_gf9 (byte : Byte) :
    lookup gf9 byte =
      xtime (xtime (xtime byte)) ^^^ byte :=
  lookup_of_entries _ toList_gf.2.2.1 byte

/-- The table for the factor 11, as 8 + 2 + 1. -/
theorem lookup_gf11 (byte : Byte) :
    lookup gf11 byte =
      xtime (xtime (xtime byte)) ^^^ xtime byte ^^^ byte :=
  lookup_of_entries _ toList_gf.2.2.2.1 byte

/-- The table for the factor 13, as 8 + 4 + 1. -/
theorem lookup_gf13 (byte : Byte) :
    lookup gf13 byte =
      xtime (xtime (xtime byte)) ^^^ xtime (xtime byte) ^^^ byte :=
  lookup_of_entries _ toList_gf.2.2.2.2.1 byte

/-- The table for the factor 14, as 8 + 4 + 2. -/
theorem lookup_gf14 (byte : Byte) :
    lookup gf14 byte =
      xtime (xtime (xtime byte)) ^^^ xtime (xtime byte) ^^^
        xtime byte :=
  lookup_of_entries _ toList_gf.2.2.2.2.2 byte

theorem lookup_gf9_xor (first second : Byte) :
    lookup gf9 (first ^^^ second) =
      lookup gf9 first ^^^ lookup gf9 second := by
  simp only [lookup_gf9, xtime_xor]
  ac_rfl

theorem lookup_gf11_xor (first second : Byte) :
    lookup gf11 (first ^^^ second) =
      lookup gf11 first ^^^ lookup gf11 second := by
  simp only [lookup_gf11, xtime_xor]
  ac_rfl

theorem lookup_gf13_xor (first second : Byte) :
    lookup gf13 (first ^^^ second) =
      lookup gf13 first ^^^ lookup gf13 second := by
  simp only [lookup_gf13, xtime_xor]
  ac_rfl

theorem lookup_gf14_xor (first second : Byte) :
    lookup gf14 (first ^^^ second) =
      lookup gf14 first ^^^ lookup gf14 second := by
  simp only [lookup_gf14, xtime_xor]
  ac_rfl

/-- The first row of the product of the two column matrices is `1 0 0 0`. -/
theorem mixed_row (byte : Byte) :
    lookup gf14 (lookup gf2 byte) ^^^ lookup gf11 byte ^^^
        lookup gf13 byte ^^^ lookup gf9 (lookup gf3 byte) = byte ∧
    lookup gf14 (lookup gf3 byte) ^^^ lookup gf11 (lookup gf2 byte) ^^^
        lookup gf13 byte ^^^ lookup gf9 byte = 0 ∧
    lookup gf14 byte ^^^ lookup gf11 (lookup gf3 byte) ^^^
        lookup gf13 (lookup gf2 byte) ^^^ lookup gf9 byte = 0 ∧
    lookup gf14 byte ^^^ lookup gf11 byte ^^^
        lookup gf13 (lookup gf3 byte) ^^^ lookup gf9 (lookup gf2 byte) = 0 := by
  simp only [lookup_gf2, lookup_gf3, lookup_gf9, lookup_gf11,
    lookup_gf13, lookup_gf14]
  revert byte
  decide +kernel

/-- The backward matrix row recovers the byte the forward rows mixed. -/
theorem column_inverse (a b c d : Byte) :
    lookup gf14 (lookup gf2 a ^^^ lookup gf3 b ^^^ c ^^^ d) ^^^
        lookup gf11 (lookup gf2 b ^^^ lookup gf3 c ^^^ d ^^^ a) ^^^
        lookup gf13 (lookup gf2 c ^^^ lookup gf3 d ^^^ a ^^^ b) ^^^
        lookup gf9 (lookup gf2 d ^^^ lookup gf3 a ^^^ b ^^^ c) =
      a := by
  simp only [lookup_gf9_xor, lookup_gf11_xor, lookup_gf13_xor,
    lookup_gf14_xor]
  calc
    _ = (lookup gf14 (lookup gf2 a) ^^^ lookup gf11 a ^^^
            lookup gf13 a ^^^ lookup gf9 (lookup gf3 a)) ^^^
          (lookup gf14 (lookup gf3 b) ^^^ lookup gf11 (lookup gf2 b) ^^^
            lookup gf13 b ^^^ lookup gf9 b) ^^^
          (lookup gf14 c ^^^ lookup gf11 (lookup gf3 c) ^^^
            lookup gf13 (lookup gf2 c) ^^^ lookup gf9 c) ^^^
          (lookup gf14 d ^^^ lookup gf11 d ^^^
            lookup gf13 (lookup gf3 d) ^^^ lookup gf9 (lookup gf2 d)) := by
      ac_rfl
    _ = a := by
      rw [(mixed_row a).1, (mixed_row b).2.1, (mixed_row c).2.2.1,
        (mixed_row d).2.2.2]
      simp

end Aes128

section Literals

variable
  (b0 b1 b2 b3 b4 b5 b6 b7 b8 b9 b10 b11 b12 b13 b14 b15 :
    Byte)

/-- `subshiftrows`, byte by byte. -/
theorem subshiftrows_literal :
    subshiftrows
        #v[b0, b1, b2, b3, b4, b5, b6, b7, b8, b9, b10, b11, b12, b13,
          b14, b15] =
      #v[lookup sbox b0, lookup sbox b5, lookup sbox b10, lookup sbox b15,
        lookup sbox b4, lookup sbox b9, lookup sbox b14, lookup sbox b3,
        lookup sbox b8, lookup sbox b13, lookup sbox b2, lookup sbox b7,
        lookup sbox b12, lookup sbox b1, lookup sbox b6,
        lookup sbox b11] := by
  simp [subshiftrows]

/-- `subshiftrows_inv`, byte by byte. -/
theorem subshiftrowsInv_literal :
    subshiftrowsInv
        #v[b0, b1, b2, b3, b4, b5, b6, b7, b8, b9, b10, b11, b12, b13,
          b14, b15] =
      #v[lookup rsbox b0, lookup rsbox b13, lookup rsbox b10,
        lookup rsbox b7, lookup rsbox b4, lookup rsbox b1,
        lookup rsbox b14, lookup rsbox b11, lookup rsbox b8,
        lookup rsbox b5, lookup rsbox b2, lookup rsbox b15,
        lookup rsbox b12, lookup rsbox b9, lookup rsbox b6,
        lookup rsbox b3] := by
  simp [subshiftrowsInv]

/-- `mixcolumns`, byte by byte. -/
theorem mixcolumns_literal :
    mixcolumns
        #v[b0, b1, b2, b3, b4, b5, b6, b7, b8, b9, b10, b11, b12, b13,
          b14, b15] =
      #v[lookup gf2 b0 ^^^ lookup gf3 b1 ^^^ b2 ^^^ b3,
        lookup gf2 b1 ^^^ lookup gf3 b2 ^^^ b3 ^^^ b0,
        lookup gf2 b2 ^^^ lookup gf3 b3 ^^^ b0 ^^^ b1,
        lookup gf2 b3 ^^^ lookup gf3 b0 ^^^ b1 ^^^ b2,
        lookup gf2 b4 ^^^ lookup gf3 b5 ^^^ b6 ^^^ b7,
        lookup gf2 b5 ^^^ lookup gf3 b6 ^^^ b7 ^^^ b4,
        lookup gf2 b6 ^^^ lookup gf3 b7 ^^^ b4 ^^^ b5,
        lookup gf2 b7 ^^^ lookup gf3 b4 ^^^ b5 ^^^ b6,
        lookup gf2 b8 ^^^ lookup gf3 b9 ^^^ b10 ^^^ b11,
        lookup gf2 b9 ^^^ lookup gf3 b10 ^^^ b11 ^^^ b8,
        lookup gf2 b10 ^^^ lookup gf3 b11 ^^^ b8 ^^^ b9,
        lookup gf2 b11 ^^^ lookup gf3 b8 ^^^ b9 ^^^ b10,
        lookup gf2 b12 ^^^ lookup gf3 b13 ^^^ b14 ^^^ b15,
        lookup gf2 b13 ^^^ lookup gf3 b14 ^^^ b15 ^^^ b12,
        lookup gf2 b14 ^^^ lookup gf3 b15 ^^^ b12 ^^^ b13,
        lookup gf2 b15 ^^^ lookup gf3 b12 ^^^ b13 ^^^ b14] := by
  simp [mixcolumns, mixcolumnsStep, List.finRange_succ]

/-- `mixcolumns_inv`, byte by byte. -/
theorem mixcolumnsInv_literal :
    mixcolumnsInv
        #v[b0, b1, b2, b3, b4, b5, b6, b7, b8, b9, b10, b11, b12, b13,
          b14, b15] =
      #v[lookup gf14 b0 ^^^ lookup gf11 b1 ^^^ lookup gf13 b2 ^^^
          lookup gf9 b3,
        lookup gf14 b1 ^^^ lookup gf11 b2 ^^^ lookup gf13 b3 ^^^
          lookup gf9 b0,
        lookup gf14 b2 ^^^ lookup gf11 b3 ^^^ lookup gf13 b0 ^^^
          lookup gf9 b1,
        lookup gf14 b3 ^^^ lookup gf11 b0 ^^^ lookup gf13 b1 ^^^
          lookup gf9 b2,
        lookup gf14 b4 ^^^ lookup gf11 b5 ^^^ lookup gf13 b6 ^^^
          lookup gf9 b7,
        lookup gf14 b5 ^^^ lookup gf11 b6 ^^^ lookup gf13 b7 ^^^
          lookup gf9 b4,
        lookup gf14 b6 ^^^ lookup gf11 b7 ^^^ lookup gf13 b4 ^^^
          lookup gf9 b5,
        lookup gf14 b7 ^^^ lookup gf11 b4 ^^^ lookup gf13 b5 ^^^
          lookup gf9 b6,
        lookup gf14 b8 ^^^ lookup gf11 b9 ^^^ lookup gf13 b10 ^^^
          lookup gf9 b11,
        lookup gf14 b9 ^^^ lookup gf11 b10 ^^^ lookup gf13 b11 ^^^
          lookup gf9 b8,
        lookup gf14 b10 ^^^ lookup gf11 b11 ^^^ lookup gf13 b8 ^^^
          lookup gf9 b9,
        lookup gf14 b11 ^^^ lookup gf11 b8 ^^^ lookup gf13 b9 ^^^
          lookup gf9 b10,
        lookup gf14 b12 ^^^ lookup gf11 b13 ^^^ lookup gf13 b14 ^^^
          lookup gf9 b15,
        lookup gf14 b13 ^^^ lookup gf11 b14 ^^^ lookup gf13 b15 ^^^
          lookup gf9 b12,
        lookup gf14 b14 ^^^ lookup gf11 b15 ^^^ lookup gf13 b12 ^^^
          lookup gf9 b13,
        lookup gf14 b15 ^^^ lookup gf11 b12 ^^^ lookup gf13 b13 ^^^
          lookup gf9 b14] := by
  simp [mixcolumnsInv, mixcolumnsInvStep, List.finRange_succ]

end Literals

/-- A block is the literal of 16 bytes. -/
theorem exists_literal (buf : Block) :
    ∃ b0 b1 b2 b3 b4 b5 b6 b7 b8 b9 b10 b11 b12 b13 b14 b15,
      buf =
        #v[b0, b1, b2, b3, b4, b5, b6, b7, b8, b9, b10, b11, b12, b13, b14,
          b15] := by
  refine ⟨buf[0], buf[1], buf[2], buf[3], buf[4], buf[5], buf[6], buf[7],
    buf[8], buf[9], buf[10], buf[11], buf[12], buf[13], buf[14], buf[15], ?_⟩
  apply Vector.ext
  intro i inRange
  interval_cases i <;> rfl

/-- The backward row moves and substitution undo the forward ones. -/
theorem subshiftrowsInv_subshiftrows (buf : Block) :
    subshiftrowsInv (subshiftrows buf) = buf := by
  calc
    subshiftrowsInv (subshiftrows buf) =
        buf.map (fun byte => lookup rsbox (lookup sbox byte)) := by
      obtain ⟨_, _, _, _, _, _, _, _, _, _, _, _, _, _, _, _, rfl⟩ :=
        exists_literal buf
      rw [subshiftrows_literal, subshiftrowsInv_literal]
      simp
    _ = buf := by
      simp only [lookup_rsbox_sbox, Vector.map_id']

/-- The backward column map undoes the forward one. -/
theorem mixcolumnsInv_mixcolumns (buf : Block) :
    mixcolumnsInv (mixcolumns buf) = buf := by
  obtain ⟨_, _, _, _, _, _, _, _, _, _, _, _, _, _, _, _, rfl⟩ :=
    exists_literal buf
  rw [mixcolumns_literal, mixcolumnsInv_literal]
  simp only [column_inverse]

/-- Adding the same block twice changes nothing. -/
theorem xorblock_xorblock (buf key : Block) :
    xorblock (xorblock buf key) key = buf := by
  apply Vector.ext
  intro i inRange
  simp only [xorblock, Vector.getElem_zipWith]
  rw [BitVec.xor_assoc, BitVec.xor_self, BitVec.xor_zero]

/-- A decryption round undoes the encryption round with the same key. -/
theorem decRound_encRound
    (rk : RoundKeys)
    (buf : Block)
    (round : Fin 11) :
    decRound rk (encRound rk buf round) round = buf := by
  rw [decRound, encRound, xorblock_xorblock, mixcolumnsInv_mixcolumns,
    subshiftrowsInv_subshiftrows]

/-- Decryption undoes encryption, for every array of round-key words. -/
theorem aes128Dec_aes128Enc (rk : RoundKeys) (buf : Block) :
    aes128Dec rk (aes128Enc rk buf) = buf := by
  simp only [aes128Dec, aes128Enc, List.foldl_cons, List.foldl_nil,
    xorblock_xorblock, subshiftrowsInv_subshiftrows, decRound_encRound]

/-- Encryption is injective on blocks. -/
theorem aes128Enc_injective (rk : RoundKeys) :
    Function.Injective (aes128Enc rk) :=
  Function.LeftInverse.injective (aes128Dec_aes128Enc rk)

/-- Chaining keeps two different values apart. -/
theorem xorblock_right_injective (buf : Block) :
    Function.Injective (xorblock buf) := by
  intro first second same
  have cancelled (key : Block) :
      xorblock (xorblock buf key) buf = key := by
    apply Vector.ext
    intro i inRange
    simp only [xorblock, Vector.getElem_zipWith]
    rw [BitVec.xor_comm, ← BitVec.xor_assoc, BitVec.xor_self, BitVec.zero_xor]
  rw [← cancelled first, same, cancelled]

/-- Different blocks stay different under one key. -/
theorem xorblock_left_injective (key : Block) :
    Function.Injective (fun buf => xorblock buf key) := by
  intro first second same
  have cancelled : xorblock (xorblock first key) key = second := by
    rw [show xorblock first key = xorblock second key from same,
      xorblock_xorblock]
  exact (xorblock_xorblock first key).symm.trans cancelled

end S3kMonitor
