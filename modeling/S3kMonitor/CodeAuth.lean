import S3kMonitor.CbcMac
import S3kMonitor.Lib.LittleEndian

namespace S3kMonitor

open Chaining

/-!
# Signatures of `monitor/codeauth.c`

`calc_sig` computes the code under the key that monitor and distributor
share, `comp_sig` compares two signatures byte by byte.  A pointer argument
is the function that reads the byte at each offset from it.
-/

/-- The shared key. -/
def macKey : Vector (BitVec 32) 4 :=
  #v[0x16157e2b, 0xa6d2ae28, 0x8815f7ab, 0x3c4fcf09]

/-- The round keys; the schedule writes all 44 words of the array it is given. -/
def macRk : RoundKeys :=
  aes128Keyexpansion macKey (Vector.replicate 44 0)

/-- `calc_sig` of codeauth.c: the CBC-MAC under the key of the monitor. -/
def calcSig (buf : Nat → Byte) (len : Int) : Option Block :=
  aes128CbcMac macRk buf len

/-- The loop of `comp_sig` over all 16 bytes, without an early exit. -/
def compSig (sig1 sig2 : Block) : Int :=
  (List.finRange 16).foldl
    (fun equal i => if sig1.get i ≠ sig2.get i then 0 else equal) 1

/-- A `uint64_t` load at `offset`. -/
def loadWord (buf : Nat → Byte) (offset : Nat) : Word :=
  BitVec.ofNat 64
    (LittleEndian.decode
      ((List.range 8).map fun index => buf (offset + index)))

private theorem compSig_fold
    (sig1 sig2 : Block)
    (indices : List (Fin 16))
    (equal : Int) :
    indices.foldl
        (fun equal i => if sig1.get i ≠ sig2.get i then 0 else equal)
        equal =
      if ∀ i ∈ indices, sig1.get i = sig2.get i then equal else 0 := by
  induction indices generalizing equal with
  | nil =>
      simp
  | cons i rest inductionHypothesis =>
      rw [List.foldl_cons, inductionHypothesis]
      by_cases same : sig1.get i = sig2.get i
      · simp [same]
      · simp [same]

/-- `comp_sig` returns 1 on equal signatures and 0 on all others. -/
theorem compSig_eq (sig1 sig2 : Block) :
    compSig sig1 sig2 = if sig1 = sig2 then 1 else 0 := by
  have pointwise :
      (∀ i ∈ List.finRange 16, sig1.get i = sig2.get i) ↔
        sig1 = sig2 := by
    constructor
    · intro same
      apply Vector.ext
      intro i inRange
      exact same ⟨i, inRange⟩ (List.mem_finRange _)
    · rintro rfl
      simp
  rw [compSig, compSig_fold]
  simp only [pointwise]

/-- `comp_sig` gives one for equal signatures only. -/
theorem compSig_eq_one_iff (sig1 sig2 : Block) :
    compSig sig1 sig2 = 1 ↔ sig1 = sig2 := by
  rw [compSig_eq]
  split <;> simp_all

/-- A signature equals itself. -/
theorem compSig_self (sig : Block) :
    compSig sig sig = 1 :=
  (compSig_eq_one_iff sig sig).mpr rfl

/-- `calc_sig` on every length it can be called with. -/
theorem calcSig_eq
    (buf : Nat → Byte)
    {len : Int}
    (isInt : len ≤ intMax) :
    calcSig buf len =
      if len + 15 ≤ intMax then
        some (cbcMacChain macRk buf (cbcMacRounds len))
      else
        none :=
  aes128CbcMac_eq macRk buf isInt

section ChangedBlock

/--
When a change of one block shows in the code.  The first block is absorbed
twice, so its change also has to survive its second use; a later block has
to be among the absorbed ones.
-/
def ChangeNoticed
    (rk : RoundKeys)
    (first second : Nat → Byte)
    (count changed : Nat) :
    Prop :=
  if changed = 0 then
    count = 0 ∨
      xorblock (aes128Enc rk (blockAt first 0)) (blockAt first 0) ≠
        xorblock (aes128Enc rk (blockAt second 0)) (blockAt second 0)
  else
    changed < count

variable
  {rk : RoundKeys}
  {first second : Nat → Byte}
  {count blocks changed : Nat}
  (absorbedAll : count ≤ blocks)
  (differ : blockAt first (16 * changed) ≠ blockAt second (16 * changed))
  (elsewhere :
    ∀ index, index < blocks → index ≠ changed →
      blockAt first (16 * index) = blockAt second (16 * index))
include absorbedAll differ elsewhere

private theorem cbcMacChain_first_ne_iff
    (isFirst : changed = 0) :
    cbcMacChain rk first count ≠ cbcMacChain rk second count ↔
      count = 0 ∨
        xorblock (aes128Enc rk (blockAt first 0)) (blockAt first 0) ≠
          xorblock (aes128Enc rk (blockAt second 0)) (blockAt second 0) := by
  subst changed
  cases count with
  | zero =>
      simpa [cbcMacChain] using
        (aes128Enc_injective rk).ne differ
  | succ count =>
      have laterSame :
          (List.range count).map
              (fun index => blockAt first (16 * (index + 1))) =
            (List.range count).map
              (fun index => blockAt second (16 * (index + 1))) :=
        List.map_congr_left fun index member => by
          have := List.mem_range.mp member
          exact elsewhere _ (by omega) (by omega)
      have injective :=
        (chain_start_injective (aes128Enc_injective rk)
          xorblock_left_injective
          ((List.range count).map
            fun index => blockAt second (16 * (index + 1)))).comp
          (aes128Enc_injective rk)
      simp only [cbcMacChain, List.range_succ_eq_map, List.map_cons,
        List.map_map, Function.comp_def, Nat.succ_eq_add_one, laterSame,
        chain_cons, Nat.mul_zero, Nat.succ_ne_zero, false_or]
      exact injective.ne_iff

variable (nonempty : 0 < blocks)
include nonempty

private theorem cbcMacChain_later_ne_iff
    (isLater : changed ≠ 0) :
    cbcMacChain rk first count ≠ cbcMacChain rk second count ↔
      changed < count := by
  have firstSame : blockAt first 0 = blockAt second 0 := by
    simpa using elsewhere 0 nonempty (Ne.symm isLater)
  constructor
  · intro codesDiffer
    by_contra notAbsorbed
    apply codesDiffer
    have absorbedSame :
        (List.range count).map (fun index => blockAt first (16 * index)) =
          (List.range count).map
            (fun index => blockAt second (16 * index)) := by
      apply List.map_congr_left
      intro index member
      have := List.mem_range.mp member
      exact elsewhere index (by omega) (by omega)
    simp only [cbcMacChain, firstSame, absorbedSame]
  · intro absorbed
    simp only [cbcMacChain, firstSame]
    exact chain_range_ne (aes128Enc_injective rk) xorblock_left_injective
      xorblock_right_injective _ absorbed differ fun index inRange =>
        elsewhere index (by omega)

/-- The code changes exactly when the change is one that is noticed. -/
theorem cbcMacChain_ne_iff :
    cbcMacChain rk first count ≠ cbcMacChain rk second count ↔
      ChangeNoticed rk first second count changed := by
  unfold ChangeNoticed
  split
  · next isFirst =>
    exact cbcMacChain_first_ne_iff absorbedAll differ elsewhere isFirst
  · next isLater =>
    exact cbcMacChain_later_ne_iff absorbedAll differ elsewhere nonempty isLater

end ChangedBlock

end S3kMonitor
