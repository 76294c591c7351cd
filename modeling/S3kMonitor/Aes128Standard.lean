import S3kMonitor.Aes128Inverse
import S3kMonitor.Lib.Fips197

namespace S3kMonitor

open Aes128

open Fips197 (State ofBytes affine subByte)

/-!
# The cipher is AES-128

The tables, the fused moves and the little-endian key schedule of
`monitor/aes128.c` compute what the standard defines over the field.
-/

/-- The state that a buffer stands for. -/
noncomputable def blockState (buf : Block) : State :=
  ofBytes buf.get

/-- The four bytes of a word, lowest one first. -/
def wordByte (word : BitVec 32) (index : Fin 4) : Byte :=
  (word >>> (8 * index.val)).setWidth 8

/-- The word of the standard that a word of a round key stands for. -/
noncomputable def wordElements (word : BitVec 32) : Fips197.Word :=
  fun index => Gf256.ofByte (wordByte word index)

/-- The 16 bytes of a key, word by word. -/
def keyBytes (key : Vector (BitVec 32) 4) (index : Fin 16) : Byte :=
  wordByte (key.get (Fips197.columnOf index)) (Fips197.rowOf index)

section Substitution

/-- The backward affine map of the bits. -/
def unaffine (byte : Byte) : Byte :=
  byte.rotateLeft 1 ^^^ byte.rotateLeft 3 ^^^ byte.rotateLeft 6 ^^^ 0x05

/-- `unaffine` undoes the affine map of the substitution box. -/
theorem affine_unaffine (byte : Byte) : affine (unaffine byte) = byte := by
  revert byte
  decide +kernel

/-- Below the affine map the table holds inverses. -/
theorem mul_unaffine_sbox
    {byte : Byte}
    (nonzero : byte ≠ 0) :
    Gf256.mul byte (unaffine (lookup sbox byte)) = 1 := by
  have listed :
      sbox.toList.zipIdx.all fun (entry, index) =>
        index = 0 ∨
          Gf256.mul (BitVec.ofNat 8 index) (unaffine entry) = 1 := by
    decide +kernel
  have member :
      (lookup sbox byte, byte.toNat) ∈ sbox.toList.zipIdx := by
    rw [List.mem_zipIdx_iff_getElem?]
    simp [lookup, Vector.get]
  have entry := List.all_eq_true.mp listed _ member
  simp only [Bool.decide_or, Bool.or_eq_true, decide_eq_true_eq,
    BitVec.ofNat_toNat, BitVec.setWidth_eq] at entry
  refine entry.resolve_left fun isZero => nonzero ?_
  exact BitVec.eq_of_toNat_eq isZero

/-- The table is inversion followed by the affine map. -/
theorem subByte_ofByte (byte : Byte) :
    subByte (Gf256.ofByte byte) = Gf256.ofByte (lookup sbox byte) := by
  rw [subByte]
  by_cases isZero : byte = 0
  · rw [isZero, Gf256.ofByte_zero, inv_zero, ← Gf256.ofByte_zero,
      Gf256.toByte_ofByte]
    rfl
  · rw [Gf256.inv_ofByte (mul_unaffine_sbox isZero), Gf256.toByte_ofByte,
      affine_unaffine]

end Substitution

section Words

variable (first second word : BitVec 32)

/-- Words are added byte by byte. -/
theorem wordElements_xor :
    wordElements (first ^^^ second) =
      wordElements first + wordElements second := by
  funext index
  rw [Pi.add_apply, wordElements, wordElements, wordElements,
    ← Gf256.ofByte_xor, wordByte, wordByte, wordByte,
    BitVec.ushiftRight_xor_distrib, BitVec.setWidth_xor]

/-- The bits of one byte of a word. -/
theorem getLsbD_wordByte
    (index : Fin 4)
    {bit : Nat}
    (inRange : bit < 8) :
    (wordByte word index).getLsbD bit =
      word.getLsbD (8 * index.val + bit) := by
  rw [wordByte, BitVec.getLsbD_setWidth, decide_eq_true inRange,
    Bool.true_and, BitVec.getLsbD_ushiftRight]

/-- The bytes of a word that was put together from bytes. -/
theorem wordByte_pack (b0 b1 b2 b3 : Byte) (index : Fin 4) :
    wordByte
        (b0.setWidth 32 ||| b1.setWidth 32 <<< 8 |||
          b2.setWidth 32 <<< 16 ||| b3.setWidth 32 <<< 24) index =
      ![b0, b1, b2, b3] index := by
  apply BitVec.eq_of_getLsbD_eq
  intro bit inRange
  rw [getLsbD_wordByte _ _ inRange]
  simp only [BitVec.getLsbD_or, BitVec.getLsbD_shiftLeft,
    BitVec.getLsbD_setWidth]
  fin_cases index
  · interval_cases bit <;> simp
  · interval_cases bit <;> simp
  · interval_cases bit <;> simp
  · interval_cases bit <;> simp

/-- `subword` substitutes each byte of the word. -/
theorem wordElements_subword :
    wordElements (subword word) = Fips197.subWord (wordElements word) := by
  funext index
  rw [Fips197.subWord, wordElements, wordElements, subByte_ofByte, subword,
    wordByte_pack]
  fin_cases index
  · simp [wordByte]
  · rfl
  · rfl
  · rfl

/-- On little-endian words the rotation goes to the low end. -/
theorem wordByte_rotword (index : Fin 4) :
    wordByte (rotword word) index = wordByte word (index + 1) := by
  apply BitVec.eq_of_getLsbD_eq
  intro bit inRange
  rw [getLsbD_wordByte _ _ inRange, getLsbD_wordByte _ _ inRange, rotword,
    BitVec.getLsbD_or, BitVec.getLsbD_ushiftRight, BitVec.getLsbD_shiftLeft]
  fin_cases index
  · interval_cases bit <;> simp
  · interval_cases bit <;> simp
  · interval_cases bit <;> simp
  · interval_cases bit <;> simp

/-- `rotword` rotates the bytes of the word. -/
theorem wordElements_rotword :
    wordElements (rotword word) = Fips197.rotWord (wordElements word) := by
  funext index
  rw [Fips197.rotWord, wordElements, wordElements, wordByte_rotword]

/-- The constants are the powers of `x`. -/
theorem wordElements_rc (round : Fin 10) :
    wordElements rc[round] = Fips197.rcon (round + 1) := by
  have bytes :
      ∀ round : Fin 10, ∀ index : Fin 4,
        wordByte rc[round] index =
          ![Gf256.xtime^[round.val] 1, 0, 0, 0] index := by
    decide +kernel
  funext index
  rw [wordElements, bytes round index, Fips197.rcon, Nat.add_sub_cancel,
    ← Gf256.ofByte_iterate Gf256.ofByte_xtime]
  fin_cases index
  · rfl
  · exact Gf256.ofByte_zero
  · exact Gf256.ofByte_zero
  · exact Gf256.ofByte_zero

end Words

section KeyExpansion

/-- The words below `count` are those of the standard. -/
def ExpandedTo
    (words : Nat → Fips197.Word)
    (rk : RoundKeys)
    (count : Nat) :
    Prop :=
  ∀ index (inRange : index < 44),
    index < count → wordElements rk[index] = words index

variable
  {words : Nat → Fips197.Word}
  {rk : RoundKeys}

/-- Writing the next word extends what is there. -/
theorem ExpandedTo.set
    {count : Nat}
    (expanded : ExpandedTo words rk count)
    (room : count < 44)
    {word : BitVec 32}
    (isNext : wordElements word = words count) :
    ExpandedTo words (rk.set count word) (count + 1) := by
  intro index inRange below
  rw [Vector.getElem_set]
  split
  · next isCount =>
    rw [← isCount]
    exact isNext
  · next isOther =>
    exact expanded index inRange (by omega)

variable {key : Fin 4 → Fips197.Word}

/-- The first word of a round key depends on the last one before it. -/
theorem ExpandedTo.first
    (round : Fin 10)
    (expanded :
      ExpandedTo (Fips197.keyExpansion key) rk (4 * round.val + 4)) :
    ExpandedTo (Fips197.keyExpansion key)
      (rk.set (4 * round.val + 4)
        (rk[4 * round.val] ^^^ subword (rotword rk[4 * round.val + 3]) ^^^
          rc[round]))
      (4 * round.val + 5) := by
  apply expanded.set
  rw [wordElements_xor, wordElements_xor, wordElements_subword,
    wordElements_rotword, wordElements_rc, expanded _ _ (by omega),
    expanded _ _ (by omega), Fips197.keyExpansion_first, add_assoc]

/-- Every other word is the sum of two earlier ones. -/
theorem ExpandedTo.other
    {index : Nat}
    (expanded : ExpandedTo (Fips197.keyExpansion key) rk (index + 4))
    (room : index + 4 < 44)
    (notFirst : (index + 4) % 4 ≠ 0) :
    ExpandedTo (Fips197.keyExpansion key)
      (rk.set (index + 4) (rk[index] ^^^ rk[index + 3])) (index + 5) := by
  apply expanded.set
  rw [wordElements_xor, expanded _ _ (by omega), expanded _ _ (by omega),
    Fips197.keyExpansion_other key index notFirst]

/-- One turn of the loop adds the four words of a round key. -/
theorem ExpandedTo.keyexpansionStep
    (round : Fin 10)
    (expanded :
      ExpandedTo (Fips197.keyExpansion key) rk (4 * round.val + 4)) :
    ExpandedTo (Fips197.keyExpansion key)
      (keyexpansionStep rk round) (4 * (round.val + 1) + 4) := by
  have inRange := round.isLt
  have first := expanded.first round
  have second :=
    @ExpandedTo.other _ _ (4 * round.val + 1) first (by omega) (by omega)
  have third :=
    @ExpandedTo.other _ _ (4 * round.val + 2) second (by omega) (by omega)
  exact @ExpandedTo.other _ _ (4 * round.val + 3) third (by omega) (by omega)

/-- After `count` turns there are `count + 1` round keys. -/
theorem ExpandedTo.foldl_keyexpansionStep
    (expanded : ExpandedTo (Fips197.keyExpansion key) rk 4)
    (count : Nat)
    (atMost : count ≤ 10) :
    ExpandedTo (Fips197.keyExpansion key)
      (((List.finRange 10).take count).foldl
        S3kMonitor.keyexpansionStep rk)
      (4 * count + 4) := by
  induction count with
  | zero =>
      exact expanded
  | succ count inductionHypothesis =>
      have inRange : count < (List.finRange 10).length := by
        rw [List.length_finRange]
        exact atMost
      rw [List.take_succ_eq_append_getElem inRange, List.foldl_append,
        List.getElem_finRange]
      exact (inductionHypothesis (Nat.le_of_succ_le
        atMost)).keyexpansionStep ⟨count, atMost⟩

/-- So all 44 words are those of the standard, whatever was there before. -/
theorem expandedTo_aes128Keyexpansion
    (key : Vector (BitVec 32) 4)
    (rk : RoundKeys) :
    ExpandedTo
      (Fips197.keyExpansion fun index => wordElements key[index])
      (aes128Keyexpansion key rk) 44 := by
  have empty :
      ExpandedTo
        (Fips197.keyExpansion fun index => wordElements key[index]) rk 0 :=
    fun _ _ below => absurd below (Nat.not_lt_zero _)
  have word0 := @ExpandedTo.set _ _ 0 empty (by decide) key[0] rfl
  have word1 := @ExpandedTo.set _ _ 1 word0 (by decide) key[1] rfl
  have word2 := @ExpandedTo.set _ _ 2 word1 (by decide) key[2] rfl
  have word3 := @ExpandedTo.set _ _ 3 word2 (by decide) key[3] rfl
  exact word3.foldl_keyexpansionStep 10 (Nat.le_refl 10)

/-- The bytes of the key are read back as its words. -/
theorem keyWords_keyBytes (key : Vector (BitVec 32) 4) :
    Fips197.keyWords (keyBytes key) =
      fun index => wordElements key[index] := by
  funext index r
  rw [Fips197.keyWords, keyBytes, Fips197.columnOf_position,
    Fips197.rowOf_position]
  rfl

end KeyExpansion

section Rounds

variable (buf : Block)

/-- A byte after `subshiftrows`: substituted, and from further along its row. -/
theorem subshiftrows_get (r c : Fin 4) :
    (subshiftrows buf).get (Fips197.position r c) =
      lookup sbox (buf.get (Fips197.position r (c + r))) := by
  obtain ⟨_, _, _, _, _, _, _, _, _, _, _, _, _, _, _, _, rfl⟩ :=
    exists_literal buf
  rw [subshiftrows_literal]
  fin_cases r <;> fin_cases c <;> rfl

/-- A byte after `mixcolumns`: two products and two sums of its column. -/
theorem mixcolumns_get (r c : Fin 4) :
    let byte (row : Fin 4) := buf.get (Fips197.position row c)
    (mixcolumns buf).get (Fips197.position r c) =
      lookup gf2 (byte r) ^^^ lookup gf3 (byte (r + 1)) ^^^ byte (r + 2) ^^^
        byte (r + 3) := by
  obtain ⟨_, _, _, _, _, _, _, _, _, _, _, _, _, _, _, _, rfl⟩ :=
    exists_literal buf
  rw [mixcolumns_literal]
  fin_cases r <;> fin_cases c <;> rfl

/-- The fused moves are the two steps of the standard. -/
theorem blockState_subshiftrows :
    blockState (subshiftrows buf) =
      Fips197.shiftRows (Fips197.subBytes (blockState buf)) := by
  funext r c
  rw [Fips197.shiftRows, Fips197.subBytes, blockState, blockState, ofBytes,
    ofBytes, subByte_ofByte, subshiftrows_get]

/-- The tables multiply by the coefficients of the polynomial. -/
theorem blockState_mixcolumns :
    blockState (mixcolumns buf) = Fips197.mixColumns (blockState buf) := by
  have double (byte : Byte) :
      Gf256.ofByte (lookup gf2 byte) =
        Gf256.ofByte 0x02 * Gf256.ofByte byte := by
    rw [lookup_gf2, Gf256.ofByte_two, ← Gf256.ofByte_xtime]
    rfl
  have triple (byte : Byte) :
      Gf256.ofByte (lookup gf3 byte) =
        Gf256.ofByte 0x03 * Gf256.ofByte byte := by
    rw [lookup_gf3, Gf256.ofByte_three, ← Gf256.ofByte_triple]
    rfl
  funext r c
  rw [Fips197.mixColumns, Fips197.mixColumn_apply, blockState, ofBytes,
    mixcolumns_get, Gf256.ofByte_xor, Gf256.ofByte_xor, Gf256.ofByte_xor,
    double, triple]
  rfl

variable
  {words : Nat → Fips197.Word}
  {rk : RoundKeys}
  (expanded : ExpandedTo words rk 44)

include expanded

/-- The XOR with a round key adds the round key. -/
theorem blockState_xorblock (round : Fin 11) :
    blockState (xorblock buf (roundKeyBytes rk round)) =
      Fips197.addRoundKey words round (blockState buf) := by
  funext r c
  have quotient : (r.val + 4 * c.val) / 4 = c.val := by
    omega
  have remainder : (r.val + 4 * c.val) % 4 = r.val := by
    omega
  have sum :
      (xorblock buf (roundKeyBytes rk round))[r.val + 4 * c.val] =
        buf[r.val + 4 * c.val] ^^^ wordByte rk[round.val * 4 + c.val] r := by
    simp [xorblock, roundKeyBytes, wordByte, quotient, remainder]
  have bytes :
      (xorblock buf (roundKeyBytes rk round)).get (Fips197.position r c) =
        buf.get (Fips197.position r c) ^^^
          wordByte rk[round.val * 4 + c.val] r :=
    sum
  have word := expanded (round.val * 4 + c.val) (by omega) (by omega)
  rw [Fips197.addRoundKey, blockState, ofBytes, bytes, Gf256.ofByte_xor,
    Nat.mul_comm 4, ← word]
  rfl

/-- A round of the code is a round of the standard. -/
theorem blockState_encRound (round : Fin 11) :
    blockState (encRound rk buf round) =
      Fips197.round words (blockState buf) round := by
  rw [encRound, blockState_xorblock _ expanded, blockState_mixcolumns,
    blockState_subshiftrows, Fips197.round]

/-- So are several rounds in turn. -/
theorem blockState_foldl_encRound (rounds : List (Fin 11)) :
    blockState (rounds.foldl (encRound rk) buf) =
      (rounds.map Fin.val).foldl (Fips197.round words) (blockState buf) := by
  induction rounds generalizing buf with
  | nil =>
      rfl
  | cons round rounds inductionHypothesis =>
      rw [List.foldl_cons, inductionHypothesis, blockState_encRound _ expanded,
        List.map_cons, List.foldl_cons]

/-- The code enciphers as the standard does. -/
theorem blockState_aes128Enc :
    blockState (aes128Enc rk buf) =
      Fips197.cipher words (blockState buf) := by
  rw [aes128Enc, blockState_xorblock _ expanded, blockState_subshiftrows,
    blockState_foldl_encRound _ expanded, blockState_xorblock _ expanded]
  rfl

end Rounds

/-- For every key and block the bytes are those of the standard. -/
theorem aes128Enc_standard
    (key : Vector (BitVec 32) 4)
    (rk : RoundKeys)
    (buf : Block) :
    (aes128Enc (aes128Keyexpansion key rk) buf).get =
      Fips197.aes128 (keyBytes key) buf.get := by
  have encrypted :=
    blockState_aes128Enc buf (expandedTo_aes128Keyexpansion key rk)
  rw [Fips197.aes128, keyWords_keyBytes, ← blockState, ← encrypted,
    blockState, Fips197.toBytes_ofBytes]

end S3kMonitor
