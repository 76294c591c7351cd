import S3kMonitor.CbcMac
import S3kMonitor.Lib.CbcMode
import Mathlib.Data.Fintype.Pi

namespace S3kMonitor

open CbcMode

/-!
# CBC encryption and decryption in place

`aes128_cbc_enc` goes up through the buffer and combines each block with the
one that it has just overwritten.  `aes128_cbc_dec` goes down, so that the
block in front is still the old one.  Both leave the blocks of one chaining
equation, read in the two directions.
-/

/-- Write 16 bytes at `offset` of a buffer. -/
def setBlock (buf : Nat → Byte) (offset : Nat) (block : Block) : Nat → Byte :=
  fun position =>
    if inBlock : offset ≤ position ∧ position < offset + 16 then
      block[position - offset]
    else
      buf position

/-- `xorblock(&buf[offset], key)`. -/
def xorblockAt (buf : Nat → Byte) (offset : Nat) (key : Block) : Nat → Byte :=
  setBlock buf offset (xorblock (blockAt buf offset) key)

/-- `aes128_enc(rk, &buf[offset])`. -/
def encAt (rk : RoundKeys) (buf : Nat → Byte) (offset : Nat) : Nat → Byte :=
  setBlock buf offset (aes128Enc rk (blockAt buf offset))

/-- `aes128_dec(rk, &buf[offset])`. -/
def decAt (rk : RoundKeys) (buf : Nat → Byte) (offset : Nat) : Nat → Byte :=
  setBlock buf offset (aes128Dec rk (blockAt buf offset))

/-- The loop of `aes128_cbc_enc`; as in the MAC, the counter may overflow. -/
def cbcEncLoop
    (rk : RoundKeys)
    (len : Int)
    (i : Nat)
    (buf : Nat → Byte) :
    Option (Nat → Byte) :=
  if (i : Int) < len then
    let buf := xorblockAt buf i (blockAt buf (i - 16))
    let buf := encAt rk buf i
    if i + 16 ≤ intMax then
      cbcEncLoop rk len (i + 16) buf
    else
      none
  else
    some buf
termination_by (len - i).toNat

/-- `aes128_cbc_enc`. -/
def aes128CbcEnc
    (rk : RoundKeys)
    (iv : Block)
    (buf : Nat → Byte)
    (len : Int) :
    Option (Nat → Byte) :=
  let buf := xorblockAt buf 0 iv
  let buf := encAt rk buf 0
  cbcEncLoop rk len 16 buf

/-- The loop of `aes128_cbc_dec`, entered with counter `i`. -/
def cbcDecLoop
    (rk : RoundKeys)
    (i : Int)
    (buf : Nat → Byte) :
    Nat → Byte :=
  if 16 ≤ i then
    let buf := decAt rk buf i.toNat
    let buf := xorblockAt buf i.toNat (blockAt buf (i.toNat - 16))
    cbcDecLoop rk (i - 16) buf
  else
    buf
termination_by i.toNat

/-- The first value of the counter is `len - 16`, which may overflow, too. -/
def aes128CbcDec
    (rk : RoundKeys)
    (iv : Block)
    (buf : Nat → Byte)
    (len : Int) :
    Option (Nat → Byte) :=
  if -(2 ^ 31) ≤ len - 16 then
    let buf := cbcDecLoop rk (len - 16) buf
    let buf := decAt rk buf 0
    some (xorblockAt buf 0 iv)
  else
    none

section Blocks

/-- A block has as many values as 16 bytes. -/
instance : Finite Block :=
  Finite.of_injective
    (fun (buf : Block) (index : Fin 16) => (buf.get index).toFin)
    fun first second same => by
      apply Vector.ext
      intro index inRange
      exact BitVec.eq_of_toFin_eq (congrFun same ⟨index, inRange⟩)

/-- There is no block that encryption does not reach. -/
theorem aes128Enc_surjective (rk : RoundKeys) :
    Function.Surjective (aes128Enc rk) :=
  Finite.surjective_of_injective (aes128Enc_injective rk)

/-- So encryption undoes decryption, too. -/
theorem aes128Enc_aes128Dec (rk : RoundKeys) (buf : Block) :
    aes128Enc rk (aes128Dec rk buf) = buf := by
  obtain ⟨plain, rfl⟩ := aes128Enc_surjective rk buf
  rw [aes128Dec_aes128Enc]

variable
  (buf : Nat → Byte)
  (offset : Nat)
  (block : Block)

/-- Nothing else is written. -/
theorem setBlock_outside
    {position : Nat}
    (outside : position < offset ∨ offset + 16 ≤ position) :
    setBlock buf offset block position = buf position := by
  rw [setBlock, dif_neg (by omega)]

/-- The block is there. -/
@[simp]
theorem blockAt_setBlock :
    blockAt (setBlock buf offset block) offset = block := by
  apply Vector.ext
  intro index inRange
  have inBlock : offset ≤ offset + index ∧ offset + index < offset + 16 := by
    omega
  simp only [blockAt, setBlock, Vector.getElem_ofFn, dif_pos inBlock,
    Nat.add_sub_cancel_left]

/-- The later one counts. -/
@[simp]
theorem setBlock_setBlock (other : Block) :
    setBlock (setBlock buf offset block) offset other =
      setBlock buf offset other := by
  funext position
  by_cases outside : position < offset ∨ offset + 16 ≤ position
  · rw [setBlock_outside _ _ _ outside, setBlock_outside _ _ _ outside,
      setBlock_outside _ _ _ outside]
  · have inBlock : offset ≤ position ∧ position < offset + 16 := by
      omega
    simp only [setBlock, dif_pos inBlock]

/-- Another block of the buffer is not touched. -/
theorem blockAt_setBlock_other
    {elsewhere : Nat}
    (apart : elsewhere + 16 ≤ offset ∨ offset + 16 ≤ elsewhere) :
    blockAt (setBlock buf offset block) elsewhere = blockAt buf elsewhere := by
  apply blockAt_congr
  intro position atLeast below
  exact setBlock_outside _ _ _ (by omega)

/-- The blocks of a buffer, in order. -/
def blocks (index : Nat) : Block :=
  blockAt buf (16 * index)

/-- The block of that index is written. -/
@[simp]
theorem blocks_setBlock (index : Nat) :
    blocks (setBlock buf (16 * index) block) index = block :=
  blockAt_setBlock _ _ _

/-- The other blocks stay. -/
theorem blocks_setBlock_other
    {index other : Nat}
    (isOther : other ≠ index) :
    blocks (setBlock buf (16 * index) block) other = blocks buf other :=
  blockAt_setBlock_other _ _ _ (by omega)

variable {buf}

/-- Where only the blocks of a range were written, the other ones are kept. -/
theorem blocks_outside
    {other : Nat → Byte}
    {first behind : Nat}
    (outside :
      ∀ position, position < 16 * first ∨ 16 * behind ≤ position →
        other position = buf position)
    {index : Nat}
    (isOutside : index < first ∨ behind ≤ index) :
    blocks other index = blocks buf index :=
  blockAt_congr fun position _ _ => outside position (by omega)

/-- A buffer is its first blocks and what lies behind them. -/
theorem eq_of_blocks
    {other : Nat → Byte}
    {count : Nat}
    (sameBlocks :
      ∀ index, index < count → blocks buf index = blocks other index)
    (sameBehind :
      ∀ position, 16 * count ≤ position → buf position = other position) :
    buf = other := by
  funext position
  by_cases behind : 16 * count ≤ position
  · exact sameBehind position behind
  · have same := sameBlocks (position / 16) (by omega)
    have inBlock : position % 16 < 16 :=
      Nat.mod_lt position (by decide)
    have sameByte := congrArg (fun block : Block => block[position % 16]) same
    simpa only [blocks, blockAt, Vector.getElem_ofFn, Nat.div_add_mod]
      using sameByte

end Blocks

section Steps

variable
  (rk : RoundKeys)
  (buf : Nat → Byte)
  (offset : Nat)
  (key : Block)

/-- One step of encryption overwrites one block. -/
theorem encAt_xorblockAt :
    encAt rk (xorblockAt buf offset key) offset =
      setBlock buf offset
        (aes128Enc rk (xorblock (blockAt buf offset) key)) := by
  rw [encAt, xorblockAt, blockAt_setBlock, setBlock_setBlock]

/-- And so does one step of decryption. -/
theorem xorblockAt_decAt :
    xorblockAt (decAt rk buf offset) offset key =
      setBlock buf offset
        (xorblock (aes128Dec rk (blockAt buf offset)) key) := by
  rw [xorblockAt, decAt, blockAt_setBlock, setBlock_setBlock]

end Steps

section Loops

variable (rk : RoundKeys)

/-- A turn of `aes128_cbc_enc` uses the block that the last one has left. -/
theorem cbcEncLoop_turn
    (count first : Nat)
    (isInt : 16 * (first + 1 + (count + 1)) ≤ intMax)
    (buf : Nat → Byte) :
    cbcEncLoop rk (16 * (first + 1 + (count + 1)) : Nat) (16 * (first + 1))
        buf =
      cbcEncLoop rk (16 * (first + 1 + 1 + count) : Nat)
        (16 * (first + 1 + 1))
        (setBlock buf (16 * (first + 1))
          (aes128Enc rk (xorblock (blocks buf (first + 1))
            (blocks buf first)))) := by
  have running :
      ((16 * (first + 1) : Nat) : Int) <
        (16 * (first + 1 + (count + 1)) : Nat) := by
    omega
  have counterFits : 16 * (first + 1) + 16 ≤ intMax := by
    omega
  have inFront : 16 * (first + 1) - 16 = 16 * first := by
    omega
  have ends : first + 1 + (count + 1) = first + 1 + 1 + count := by
    omega
  rw [cbcEncLoop, if_pos running]
  simp only [if_pos counterFits, encAt_xorblockAt, inFront, ends]
  rfl

/-- A turn of `aes128_cbc_dec` uses the block that the next one overwrites. -/
theorem cbcDecLoop_turn (count : Nat) (buf : Nat → Byte) :
    cbcDecLoop rk (16 * (count + 1) : Nat) buf =
      cbcDecLoop rk (16 * count : Nat)
        (setBlock buf (16 * (count + 1))
          (xorblock (aes128Dec rk (blocks buf (count + 1)))
            (blocks buf count))) := by
  have running : (16 : Int) ≤ (16 * (count + 1) : Nat) := by
    omega
  have counter :
      ((16 * (count + 1) : Nat) : Int) - 16 = (16 * count : Nat) := by
    omega
  have inFront : 16 * (count + 1) - 16 = 16 * count := by
    omega
  have kept :
      blockAt (decAt rk buf (16 * (count + 1))) (16 * count) =
        blocks buf count :=
    blockAt_setBlock_other _ _ _ (by omega)
  rw [cbcDecLoop, if_pos running]
  simp only [Int.toNat_natCast, inFront, counter, kept, xorblockAt_decAt]
  rfl

/--
The loop of `aes128_cbc_enc` enciphers the blocks from `first + 1` on.  Each
of them is combined with the block in front of it as the loop leaves it.
-/
theorem cbcEncLoop_enciphers
    (count first : Nat)
    (isInt : 16 * (first + 1 + count) ≤ intMax)
    (buf : Nat → Byte) :
    ∃ out,
      cbcEncLoop rk (16 * (first + 1 + count) : Nat) (16 * (first + 1)) buf =
          some out ∧
        (∀ position,
          position < 16 * (first + 1) ∨
              16 * (first + 1 + count) ≤ position →
            out position = buf position) ∧
        ∀ index, first ≤ index → index < first + count →
          blocks out (index + 1) =
            aes128Enc rk (xorblock (blocks buf (index + 1))
              (blocks out index)) := by
  induction count generalizing first buf with
  | zero =>
      have finished :
          ¬ ((16 * (first + 1) : Nat) : Int) <
            (16 * (first + 1 + 0) : Nat) := by
        omega
      rw [cbcEncLoop, if_neg finished]
      refine ⟨buf, rfl, fun _ _ => rfl, fun index atLeast below => ?_⟩
      exact absurd below (by omega)
  | succ count inductionHypothesis =>
      rw [cbcEncLoop_turn rk count first isInt]
      obtain ⟨out, returned, outside, enciphered⟩ :=
        inductionHypothesis (first + 1) (by omega)
          (setBlock buf (16 * (first + 1))
            (aes128Enc rk (xorblock (blocks buf (first + 1))
              (blocks buf first))))
      refine ⟨out, returned, fun position isOutside => ?_,
        fun index atLeast below => ?_⟩
      · rw [outside position (by omega)]
        exact setBlock_outside _ _ _ (by omega)
      · by_cases isFirst : index = first
        · rw [isFirst, blocks_outside outside (by omega),
            blocks_outside outside (by omega), blocks_setBlock,
            blocks_setBlock_other _ _ (by omega)]
        · rw [enciphered index (by omega) (by omega),
            blocks_setBlock_other _ _ (by omega)]

/-- The loop of `aes128_cbc_dec` deciphers the blocks up to `count`. -/
theorem cbcDecLoop_deciphers (count : Nat) (buf : Nat → Byte) :
    (∀ position,
      position < 16 * 1 ∨ 16 * (count + 1) ≤ position →
        cbcDecLoop rk (16 * count : Nat) buf position = buf position) ∧
      ∀ index, index < count →
        blocks (cbcDecLoop rk (16 * count : Nat) buf) (index + 1) =
          xorblock (aes128Dec rk (blocks buf (index + 1)))
            (blocks buf index) := by
  induction count generalizing buf with
  | zero =>
      rw [cbcDecLoop, if_neg (by decide)]
      exact ⟨fun _ _ => rfl, fun index below => absurd below (by omega)⟩
  | succ count inductionHypothesis =>
      rw [cbcDecLoop_turn]
      obtain ⟨outside, deciphered⟩ :=
        inductionHypothesis
          (setBlock buf (16 * (count + 1))
            (xorblock (aes128Dec rk (blocks buf (count + 1)))
              (blocks buf count)))
      refine ⟨fun position isOutside => ?_, fun index below => ?_⟩
      · rw [outside position (by omega)]
        exact setBlock_outside _ _ _ (by omega)
      · by_cases isLast : index = count
        · rw [isLast, blocks_outside outside (by omega), blocks_setBlock]
        · rw [deciphered index (by omega),
            blocks_setBlock_other _ _ (by omega),
            blocks_setBlock_other _ _ (by omega)]

end Loops

section Cipher

variable
  (rk : RoundKeys)
  (iv : Block)
  {count : Nat}
  (positive : 0 < count)
  (isInt : 16 * count ≤ intMax)
include positive isInt

/-- What `aes128_cbc_enc` leaves in the buffer. -/
theorem aes128CbcEnc_enciphers (buf : Nat → Byte) :
    ∃ out,
      aes128CbcEnc rk iv buf (16 * count : Nat) = some out ∧
        Enciphered (aes128Enc rk) xorblock iv count (blocks buf)
          (blocks out) ∧
        ∀ position, 16 * count ≤ position → out position = buf position := by
  obtain ⟨rest, rfl⟩ := Nat.exists_eq_add_of_le positive
  obtain ⟨out, returned, outside, enciphered⟩ :=
    cbcEncLoop_enciphers rk rest 0 isInt
      (setBlock buf (16 * 0) (aes128Enc rk (xorblock (blocks buf 0) iv)))
  refine ⟨out, ?_, fun index inRange => ?_, fun position behind => ?_⟩
  · rw [aes128CbcEnc]
    simp only [encAt_xorblockAt]
    exact returned
  · cases index with
    | zero =>
        rw [blocks_outside outside (by omega), blocks_setBlock]
        rfl
    | succ index =>
        rw [enciphered index (by omega) (by omega),
          blocks_setBlock_other _ _ (by omega)]
        rfl
  · rw [outside position (by omega)]
    exact setBlock_outside _ _ _ (by omega)

/-- What `aes128_cbc_dec` leaves in it. -/
theorem aes128CbcDec_deciphers (buf : Nat → Byte) :
    ∃ out,
      aes128CbcDec rk iv buf (16 * count : Nat) = some out ∧
        Deciphered (aes128Dec rk) xorblock iv count (blocks buf)
          (blocks out) ∧
        ∀ position, 16 * count ≤ position → out position = buf position := by
  obtain ⟨rest, rfl⟩ := Nat.exists_eq_add_of_le positive
  have noOverflow : -(2 ^ 31) ≤ ((16 * (1 + rest) : Nat) : Int) - 16 := by
    omega
  have counter :
      ((16 * (1 + rest) : Nat) : Int) - 16 = (16 * rest : Nat) := by
    omega
  obtain ⟨outside, deciphered⟩ := cbcDecLoop_deciphers rk rest buf
  rw [aes128CbcDec, if_pos noOverflow, counter]
  generalize cbcDecLoop rk (16 * rest : Nat) buf = next at outside deciphered ⊢
  simp only [xorblockAt_decAt]
  refine ⟨setBlock next (16 * 0) (xorblock (aes128Dec rk (blocks next 0)) iv),
    rfl, fun index inRange => ?_, fun position behind => ?_⟩
  · cases index with
    | zero =>
        rw [blocks_setBlock, blocks_outside outside (by omega)]
        rfl
    | succ index =>
        rw [blocks_setBlock_other _ _ (by omega),
          deciphered index (by omega)]
        rfl
  · rw [setBlock_outside _ _ _ (by omega), outside position (by omega)]

/-- Decryption goes back from where encryption has come to. -/
theorem aes128CbcDec_undoes (buf : Nat → Byte) :
    ((aes128CbcEnc rk iv buf (16 * count : Nat)).bind fun enciphered =>
      aes128CbcDec rk iv enciphered (16 * count : Nat)) = some buf := by
  obtain ⟨middle, encReturned, enciphered, encBehind⟩ :=
    aes128CbcEnc_enciphers rk iv positive isInt buf
  obtain ⟨out, decReturned, deciphered, decBehind⟩ :=
    aes128CbcDec_deciphers rk iv positive isInt middle
  have same : out = buf :=
    eq_of_blocks
      (fun index inRange =>
        enciphered.undone xorblock_xorblock (aes128Dec_aes128Enc rk)
          deciphered inRange)
      (fun position behind =>
        (decBehind position behind).trans (encBehind position behind))
  rw [encReturned, Option.bind_some, decReturned, same]

/-- Enciphering undoes deciphering. -/
theorem aes128CbcEnc_undoes (buf : Nat → Byte) :
    ((aes128CbcDec rk iv buf (16 * count : Nat)).bind fun deciphered =>
      aes128CbcEnc rk iv deciphered (16 * count : Nat)) = some buf := by
  obtain ⟨middle, decReturned, deciphered, decBehind⟩ :=
    aes128CbcDec_deciphers rk iv positive isInt buf
  obtain ⟨out, encReturned, enciphered, encBehind⟩ :=
    aes128CbcEnc_enciphers rk iv positive isInt middle
  have same : out = buf :=
    eq_of_blocks
      (fun index inRange =>
        deciphered.undone xorblock_xorblock (aes128Enc_aes128Dec rk)
          enciphered inRange)
      (fun position behind =>
        (encBehind position behind).trans (decBehind position behind))
  rw [decReturned, Option.bind_some, encReturned, same]

end Cipher

/--
In place and for every array of round-key words, encryption and decryption
undo each other, on buffers of whole blocks as on single blocks.
-/
theorem aes128Cbc_inverse
    (rk : RoundKeys)
    (iv : Block)
    (buf : Nat → Byte)
    {len : Int}
    (isInt : len ≤ intMax)
    (positive : 0 < len)
    (wholeBlocks : 16 ∣ len) :
    ((aes128CbcEnc rk iv buf len).bind fun enciphered =>
        aes128CbcDec rk iv enciphered len) = some buf ∧
      ((aes128CbcDec rk iv buf len).bind fun deciphered =>
        aes128CbcEnc rk iv deciphered len) = some buf ∧
      Function.LeftInverse (aes128Dec rk) (aes128Enc rk) ∧
      Function.RightInverse (aes128Dec rk) (aes128Enc rk) := by
  obtain ⟨multiple, rfl⟩ := wholeBlocks
  obtain ⟨count, rfl⟩ :=
    Int.eq_ofNat_of_zero_le (by omega : 0 ≤ multiple)
  have positiveCount : 0 < count := by
    omega
  have fits : 16 * count ≤ intMax := by
    omega
  have isLength : (16 : Int) * count = (16 * count : Nat) := by
    push_cast
    rfl
  rw [isLength]
  exact ⟨aes128CbcDec_undoes rk iv positiveCount fits buf,
    aes128CbcEnc_undoes rk iv positiveCount fits buf,
    aes128Dec_aes128Enc rk, aes128Enc_aes128Dec rk⟩

/-- Two blocks under round keys that are all zero. -/
theorem twoBlocks_inverse :
    let rk : RoundKeys := Vector.replicate 44 0
    let iv : Block := Vector.replicate 16 0
    let buf (position : Nat) := BitVec.ofNat 8 position
    ((aes128CbcEnc rk iv buf 32).bind fun enciphered =>
        aes128CbcDec rk iv enciphered 32) = some buf ∧
      ((aes128CbcDec rk iv buf 32).bind fun deciphered =>
        aes128CbcEnc rk iv deciphered 32) = some buf ∧
      Function.LeftInverse (aes128Dec rk) (aes128Enc rk) ∧
      Function.RightInverse (aes128Dec rk) (aes128Enc rk) :=
  aes128Cbc_inverse _ _ _ (by decide) (by decide) (by decide)

end S3kMonitor
