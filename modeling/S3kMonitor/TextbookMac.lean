import S3kMonitor.CbcMac

namespace S3kMonitor

open Chaining

/-!
# `aes128_cbc_mac` and the textbook

CBC-MAC absorbs the blocks `1, 2, ...` after the first one is enciphered.  The
loop of `aes128_cbc_mac` is one block behind: what it computes is the CBC-MAC
of another message, with the first block twice and without the last one.
-/

section Textbook

variable
  (rk : RoundKeys)
  (buf : Nat → Byte)

/-- `C_0 = AES(B_0)` and `C_j = AES(C_(j-1) xor B_j)`. -/
def textbookMac : (j : Nat) → Block
  | 0 => aes128Enc rk (blockAt buf 0)
  | j + 1 =>
      aes128Enc rk (xorblock (textbookMac j) (blockAt buf (16 * (j + 1))))

/-- The message with its first block once more in front. -/
def firstRepeated : Nat → Byte :=
  fun offset => if offset < 16 then buf offset else buf (offset - 16)

theorem blockAt_firstRepeated (j : Nat) :
    blockAt (firstRepeated buf) (16 * (j + 1)) = blockAt buf (16 * j) := by
  apply Vector.ext
  intro index inRange
  simp only [blockAt, Vector.getElem_ofFn, firstRepeated]
  rw [if_neg (by omega),
    show 16 * (j + 1) + index - 16 = 16 * j + index by omega]

theorem blockAt_firstRepeated_zero :
    blockAt (firstRepeated buf) 0 = blockAt buf 0 := by
  apply Vector.ext
  intro index inRange
  simp only [blockAt, Vector.getElem_ofFn, firstRepeated]
  rw [if_pos (by omega)]

/-- The chain of the code, as the textbook chain of the other message. -/
theorem cbcMacChain_eq_textbookMac (count : Nat) :
    cbcMacChain rk buf count = textbookMac rk (firstRepeated buf) count := by
  induction count with
  | zero =>
      rw [textbookMac, blockAt_firstRepeated_zero]
      rfl
  | succ count inductionHypothesis =>
      have next :
          cbcMacChain rk buf (count + 1) =
            aes128Enc rk
              (xorblock (cbcMacChain rk buf count)
                (blockAt buf (16 * count))) := by
        simp only [cbcMacChain, List.range_succ, List.map_append,
          List.map_cons, List.map_nil, chain_append, chain_cons, chain_nil]
      rw [next, inductionHypothesis, textbookMac, blockAt_firstRepeated]

/-- What `aes128_cbc_mac` computes for a whole number of blocks. -/
theorem aes128CbcMac_firstRepeated
    {blocks : Nat}
    (positive : 0 < blocks)
    (isInt : 16 * blocks ≤ intMax) :
    aes128CbcMac rk buf (16 * blocks : Nat) =
      some (textbookMac rk (firstRepeated buf) (blocks - 1)) := by
  have rounds : cbcMacRounds (16 * blocks : Nat) = blocks - 1 := by
    simp only [cbcMacRounds]
    omega
  have noOverflow : ((16 * blocks : Nat) : Int) + 15 ≤ intMax := by
    simp only [intMax] at isInt ⊢
    omega
  rw [aes128CbcMac_eq rk buf (by omega), if_pos noOverflow, rounds,
    cbcMacChain_eq_textbookMac]

/-- The one block that makes up for the delay of the loop. -/
def makeupBlock (j : Nat) : Block :=
  xorblock (textbookMac rk buf j)
    (xorblock (textbookMac rk (firstRepeated buf) j) (blockAt buf (16 * j)))

theorem xorblock_xorblock_left (first second : Block) :
    xorblock first (xorblock first second) = second := by
  apply Vector.ext
  intro index inRange
  simp only [xorblock, Vector.getElem_zipWith]
  rw [← BitVec.xor_assoc, BitVec.xor_self, BitVec.zero_xor]

/-- The delay does not show exactly when the last block is that block. -/
theorem textbookMac_firstRepeated_eq_iff (j : Nat) :
    textbookMac rk (firstRepeated buf) (j + 1) = textbookMac rk buf (j + 1) ↔
      blockAt buf (16 * (j + 1)) = makeupBlock rk buf j := by
  rw [textbookMac, textbookMac, (aes128Enc_injective rk).eq_iff,
    blockAt_firstRepeated, makeupBlock]
  constructor
  · intro same
    rw [same, xorblock_xorblock_left]
  · intro same
    rw [same, xorblock_xorblock_left]

end Textbook

/--
`aes128_cbc_mac` computes the textbook value of one block, and of more blocks
only for one value of the last block.
-/
theorem aes128CbcMac_textbook_iff
    (rk : RoundKeys)
    (buf : Nat → Byte)
    {blocks : Nat}
    (positive : 0 < blocks)
    (isInt : 16 * blocks ≤ intMax) :
    aes128CbcMac rk buf (16 * blocks : Nat) =
        some (textbookMac rk buf (blocks - 1)) ↔
      blocks = 1 ∨
        blockAt buf (16 * (blocks - 1)) = makeupBlock rk buf (blocks - 2) := by
  rw [aes128CbcMac_firstRepeated rk buf positive isInt,
    Option.some_inj]
  match blocks, positive with
  | 1, _ =>
      have same :
          textbookMac rk (firstRepeated buf) 0 = textbookMac rk buf 0 := by
        rw [textbookMac, textbookMac, blockAt_firstRepeated_zero]
      exact iff_of_true same (Or.inl rfl)
  | j + 2, _ =>
      have more : j + 2 ≠ 1 := by
        omega
      rw [or_iff_right more]
      exact textbookMac_firstRepeated_eq_iff rk buf j

/-- One block is authenticated as the textbook says. -/
theorem one_block_textbook :
    aes128CbcMac (Vector.replicate 44 0) (fun _ => 0) (16 * 1 : Nat) =
      some (textbookMac (Vector.replicate 44 0) (fun _ => 0) (1 - 1)) :=
  (aes128CbcMac_textbook_iff _ _ (by decide) (by decide)).mpr (Or.inl rfl)

/-- Two different blocks are not. -/
theorem two_blocks_not_textbook :
    ¬ ∀ (rk : RoundKeys) (buf : Nat → Byte) (blocks : Nat),
        0 < blocks → 16 * blocks ≤ intMax →
        aes128CbcMac rk buf (16 * blocks : Nat) =
          some (textbookMac rk buf (blocks - 1)) := by
  intro always
  have same :=
    always (Vector.replicate 44 0) (fun offset => if offset < 16 then 0 else 1)
      2 (by decide) (by decide)
  rw [aes128CbcMac_firstRepeated _ _ (by decide) (by decide),
    Option.some_inj, textbookMac_firstRepeated_eq_iff, makeupBlock, textbookMac,
    textbookMac, blockAt_firstRepeated_zero, xorblock_xorblock_left] at same
  exact absurd same (by decide)

end S3kMonitor
