import S3kMonitor.Aes128Inverse
import S3kMonitor.Lib.Chaining

namespace S3kMonitor

open Chaining

/-!
# The message authentication code of `monitor/aes128.c`

`aes128_cbc_mac` enciphers the first block and then, for `i = 16, 32, ...`
below `len`, absorbs the block at `i - 16`.  So the first block is absorbed
twice and the block that ends at `len` is never reached.

The loop counter is an `int`: when `len` is above `INT_MAX - 15` the last
`i += 16` overflows, for which C promises nothing.  That case is `none`.
-/

/-- The 16 bytes at `offset` of a buffer. -/
def blockAt (buf : Nat → Byte) (offset : Nat) : Block :=
  Vector.ofFn fun index => buf (offset + index.val)

/-- The loop of `aes128_cbc_mac`, entered with counter `i`. -/
def cbcMacLoop
    (rk : RoundKeys)
    (buf : Nat → Byte)
    (len : Int)
    (i : Nat)
    (mac : Block) :
    Option Block :=
  if (i : Int) < len then
    let mac := xorblock mac (blockAt buf (i - 16))
    let mac := aes128Enc rk mac
    if i + 16 ≤ intMax then
      cbcMacLoop rk buf len (i + 16) mac
    else
      none
  else
    some mac
termination_by (len - i).toNat

def aes128CbcMac
    (rk : RoundKeys)
    (buf : Nat → Byte)
    (len : Int) :
    Option Block :=
  let mac := blockAt buf 0
  let mac := aes128Enc rk mac
  cbcMacLoop rk buf len 16 mac

/-- How often the loop body runs when the counter does not overflow. -/
def cbcMacRounds (len : Int) : Nat :=
  ((len - 1) / 16).toNat

/-- The chain of `count` blocks that starts from the first one enciphered. -/
def cbcMacChain (rk : RoundKeys) (buf : Nat → Byte) (count : Nat) : Block :=
  chain (aes128Enc rk) xorblock (aes128Enc rk (blockAt buf 0))
    ((List.range count).map fun index => blockAt buf (16 * index))

theorem cbcMacLoop_eq_chain
    (rk : RoundKeys)
    (buf : Nat → Byte)
    {len : Int}
    (noOverflow : len + 15 ≤ intMax)
    (index count : Nat)
    (rounds : cbcMacRounds len = index + count)
    (mac : Block) :
    cbcMacLoop rk buf len (16 * index + 16) mac =
      some
        (chain (aes128Enc rk) xorblock mac
          ((List.range' index count).map
            fun index => blockAt buf (16 * index))) := by
  simp only [cbcMacRounds, intMax] at rounds noOverflow
  induction count generalizing index mac with
  | zero =>
      have finished : ¬ ((16 * index + 16 : Nat) : Int) < len := by
        omega
      rw [cbcMacLoop, if_neg finished]
      simp
  | succ count inductionHypothesis =>
      have running : ((16 * index + 16 : Nat) : Int) < len := by
        omega
      have counterFits : 16 * index + 16 + 16 ≤ intMax := by
        simp only [intMax]
        omega
      rw [cbcMacLoop, if_pos running]
      simp only [if_pos counterFits]
      rw [show 16 * index + 16 + 16 = 16 * (index + 1) + 16 by omega,
        inductionHypothesis (index + 1) (by omega)]
      simp [List.range'_succ]

/-- Past `INT_MAX - 15` the counter overflows before the loop can stop. -/
theorem cbcMacLoop_overflow
    (rk : RoundKeys)
    (buf : Nat → Byte)
    {len : Int}
    (isInt : len ≤ intMax)
    (overflow : intMax < len + 15)
    (remaining index : Nat)
    (position : 16 * (index + remaining) + 32 = intMax + 1)
    (mac : Block) :
    cbcMacLoop rk buf len (16 * index + 16) mac = none := by
  simp only [intMax] at isInt overflow position
  have running : ((16 * index + 16 : Nat) : Int) < len := by
    omega
  induction remaining generalizing index mac with
  | zero =>
      have counterOverflows : ¬ 16 * index + 16 + 16 ≤ intMax := by
        simp only [intMax]
        omega
      rw [cbcMacLoop, if_pos running]
      simp only [if_neg counterOverflows]
  | succ remaining inductionHypothesis =>
      have counterFits : 16 * index + 16 + 16 ≤ intMax := by
        simp only [intMax]
        omega
      rw [cbcMacLoop, if_pos running]
      simp only [if_pos counterFits]
      rw [show 16 * index + 16 + 16 = 16 * (index + 1) + 16 by omega]
      exact inductionHypothesis (index + 1) (by omega) _ (by omega)

/-- What `aes128_cbc_mac` computes, for every length that is an `int`. -/
theorem aes128CbcMac_eq
    (rk : RoundKeys)
    (buf : Nat → Byte)
    {len : Int}
    (isInt : len ≤ intMax) :
    aes128CbcMac rk buf len =
      if len + 15 ≤ intMax then
        some (cbcMacChain rk buf (cbcMacRounds len))
      else
        none := by
  have entry (mac : Block) :
      cbcMacLoop rk buf len 16 mac =
        cbcMacLoop rk buf len (16 * 0 + 16) mac :=
    rfl
  split
  · next noOverflow =>
    rw [aes128CbcMac, entry,
      cbcMacLoop_eq_chain rk buf noOverflow 0 _ (Nat.zero_add _).symm,
      cbcMacChain, List.range_eq_range']
  · next overflow =>
    rw [aes128CbcMac, entry]
    exact cbcMacLoop_overflow rk buf isInt (by omega)
      (2 ^ 27 - 2) 0 (by simp [intMax]) _

/-- Two blocks agree when the bytes they are read from agree. -/
theorem blockAt_congr
    {first second : Nat → Byte}
    {offset : Nat}
    (same :
      ∀ position,
        offset ≤ position →
        position < offset + 16 →
        first position = second position) :
    blockAt first offset = blockAt second offset := by
  apply Vector.ext
  intro index inRange
  simp only [blockAt, Vector.getElem_ofFn]
  exact same _ (by omega) (by omega)

/-- The code depends on the absorbed bytes only. -/
theorem aes128CbcMac_congr
    (rk : RoundKeys)
    {first second : Nat → Byte}
    {len : Int}
    (isInt : len ≤ intMax)
    (enough : 16 ≤ len)
    (same :
      ∀ position : Nat, (position : Int) < len →
        first position = second position) :
    aes128CbcMac rk first len = aes128CbcMac rk second len := by
  rw [aes128CbcMac_eq rk first isInt, aes128CbcMac_eq rk second isInt]
  have firstBlock : blockAt first 0 = blockAt second 0 := by
    apply blockAt_congr
    intro position _ below
    exact same position (by omega)
  have laterBlocks :
      (List.range (cbcMacRounds len)).map
          (fun index => blockAt first (16 * index)) =
        (List.range (cbcMacRounds len)).map
          (fun index => blockAt second (16 * index)) := by
    apply List.map_congr_left
    intro index member
    have absorbed : index < cbcMacRounds len := List.mem_range.mp member
    simp only [cbcMacRounds] at absorbed
    apply blockAt_congr
    intro position _ below
    exact same position (by omega)
  simp only [cbcMacChain, firstBlock, laterBlocks]

end S3kMonitor
