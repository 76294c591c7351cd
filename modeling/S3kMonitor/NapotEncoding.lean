import S3kMonitor.CapmanCalls
import S3kMonitor.Lib.TrailingOnes

namespace S3kMonitor

open TrailingOnes

/-!
# Which regions a NAPOT address can name

A NAPOT address is the rest of the address above the region, a zero bit, and
one bits for the size.  Written this way, what the two tools compute is plain
arithmetic, and the test of `capman_derive_pmp` can be read off.
-/

/-- A power of two of at least 8 bytes, at a multiple of that. -/
def PowerOfTwoRegion (start stop : Word) : Prop :=
  ∃ size, 3 ≤ size ∧ (stop - start).toNat = 2 ^ size ∧ 2 ^ size ∣ start.toNat

/-- Both ends 0, which is how the whole address space is written. -/
def WholeSpace (start stop : Word) : Prop :=
  start = 0 ∧ stop = 0

/-- An address matches if it agrees above the lowest zero bit of the entry. -/
def NapotMatches (addr address : Word) : Prop :=
  (address >>> 2) &&& ~~~ (addr ^^^ (addr + 1)) =
    addr &&& ~~~ (addr ^^^ (addr + 1))

/-- What `capman_derive_pmp` does if the test accepts these regions. -/
structure DerivesExactly (accepted : Word → Word → Prop) : Prop where
  napot_iff : ∀ start stop, Napot start stop ↔ accepted start stop
  refused :
    ∀ (s3k : S3k) (idx : Nat) (start stop rwx : Word) (world : World),
      ¬ accepted start stop →
      capmanDerivePmp s3k idx start stop rwx world = (false, world)
  derived :
    ∀ (s3k : S3k) (idx : Nat) (start stop rwx : Word) (world : World),
      accepted start stop →
      ∃ orig cfg excpt,
        (capmanDerivePmp s3k idx start stop rwx world).2.trace =
            .called
                (.drvcap orig idx (.pmp (s3kPmpNapotAddr start stop) cfg))
                excpt ::
              world.trace ∧
          s3kPmpNapotBegin (s3kPmpNapotAddr start stop) = start ∧
          s3kPmpNapotEnd (s3kPmpNapotAddr start stop) = stop ∧
          (start = 0 → stop = 0 →
            s3kPmpNapotAddr start stop = 0x1FFFFFFFFFFFFFFF) ∧
          ∀ address,
            NapotMatches (s3kPmpNapotAddr start stop) address ↔
              address ∈ region start stop
  encode_decode :
    ∀ addr : Word,
      addr.toNat < 2 ^ 61 - 1 →
      s3kPmpNapotAddr (s3kPmpNapotBegin addr) (s3kPmpNapotEnd addr) = addr

section Decode

variable
  {addr : Word}
  {rest ones : Nat}
  (composed : addr.toNat = compose rest ones)
  (bounded : addr.toNat < 2 ^ 62)

include composed bounded

private theorem ones_bound :
    2 ^ (ones + 1) * rest + 2 ^ ones ≤ 2 ^ 62 := by
  rw [← compose_add_one, ← composed]
  exact bounded

private theorem add_one_toNat : (addr + 1).toNat = compose rest ones + 1 := by
  have one : (1 : Word).toNat = 1 := rfl
  rw [BitVec.toNat_add, one, ← composed]
  omega

/-- The begin of the region that an address encodes. -/
theorem s3kPmpNapotBegin_toNat :
    (s3kPmpNapotBegin addr).toNat = 2 ^ (ones + 3) * rest := by
  have bound := ones_bound composed bounded
  have positive := Nat.two_pow_pos ones
  have eightfold : 2 ^ (ones + 3) * rest = 2 ^ (ones + 1) * rest * 2 ^ 2 := by
    rw [show ones + 3 = ones + 1 + 2 from rfl, Nat.pow_add]
    ring
  rw [s3kPmpNapotBegin, BitVec.toNat_shiftLeft, BitVec.toNat_and,
    add_one_toNat composed bounded, composed, add_one_and,
    Nat.shiftLeft_eq, eightfold]
  omega

/-- Its end. -/
theorem s3kPmpNapotEnd_toNat :
    (s3kPmpNapotEnd addr).toNat = 2 ^ (ones + 3) * (rest + 1) % 2 ^ 64 := by
  have bound := ones_bound composed bounded
  have one : (1 : Word).toNat = 1 := rfl
  have positive := Nat.two_pow_pos ones
  have doubled : 2 ^ (ones + 1) = 2 * 2 ^ ones := by
    rw [Nat.pow_succ, Nat.mul_comm]
  have eightfold :
      2 ^ (ones + 3) * (rest + 1) =
        (2 ^ (ones + 1) * rest + 2 ^ (ones + 1)) * 2 ^ 2 := by
    rw [show ones + 3 = ones + 1 + 2 from rfl, Nat.pow_add]
    ring
  rw [s3kPmpNapotEnd, BitVec.toNat_shiftLeft, BitVec.toNat_add,
    BitVec.toNat_or, add_one_toNat composed bounded, composed, add_one_or,
    one, Nat.shiftLeft_eq, eightfold]
  omega

/-- The end in terms of the begin. -/
theorem s3kPmpNapotEnd_eq :
    s3kPmpNapotEnd addr =
      s3kPmpNapotBegin addr + BitVec.ofNat 64 (2 ^ (ones + 3)) := by
  apply BitVec.eq_of_toNat_eq
  rw [BitVec.toNat_add, BitVec.toNat_ofNat,
    s3kPmpNapotBegin_toNat composed bounded,
    s3kPmpNapotEnd_toNat composed bounded, Nat.mul_succ, Nat.add_mod_mod]

/-- The size of the region. -/
theorem s3kPmpNapotEnd_sub_begin :
    (s3kPmpNapotEnd addr - s3kPmpNapotBegin addr).toNat =
      2 ^ (ones + 3) % 2 ^ 64 := by
  rw [s3kPmpNapotEnd_eq composed bounded, BitVec.add_comm,
    BitVec.add_sub_cancel, BitVec.toNat_ofNat]

/-- The mask is the zero bit and the ones below it. -/
theorem xor_add_one_toNat :
    (addr ^^^ (addr + 1)).toNat = 2 ^ (ones + 1) - 1 := by
  rw [BitVec.toNat_xor, add_one_toNat composed bounded, composed,
    xor_add_one]

end Decode

/-- Words agree outside a mask of low bits if they agree above it. -/
theorem and_not_mask_eq_iff
    {mask : Word}
    {width : Nat}
    (isMask : mask.toNat = 2 ^ width - 1)
    (first second : Word) :
    first &&& ~~~ mask = second &&& ~~~ mask ↔
      first >>> width = second >>> width := by
  have maskBit (bit : Nat) : mask.getLsbD bit = decide (bit < width) := by
    rw [BitVec.getLsbD, isMask, Nat.testBit_two_pow_sub_one]
  constructor
  · intro same
    apply BitVec.eq_of_getLsbD_eq
    intro bit inRange
    have sameBit := congrArg (BitVec.getLsbD · (width + bit)) same
    have above : ¬ width + bit < width := by
      omega
    rw [BitVec.getLsbD_ushiftRight, BitVec.getLsbD_ushiftRight]
    by_cases isBit : width + bit < 64
    · simpa only [BitVec.getLsbD_and, BitVec.getLsbD_not, isBit, maskBit,
        above, decide_true, decide_false, Bool.not_false, Bool.and_true]
        using sameBit
    · have tooLarge := Nat.le_of_not_lt isBit
      rw [BitVec.getLsbD_of_ge _ _ tooLarge,
        BitVec.getLsbD_of_ge _ _ tooLarge]
  · intro same
    apply BitVec.eq_of_getLsbD_eq
    intro bit inRange
    rw [BitVec.getLsbD_and, BitVec.getLsbD_and, BitVec.getLsbD_not, maskBit]
    by_cases isLow : bit < width
    · simp [isLow]
    · have sameBit := congrArg (BitVec.getLsbD · (bit - width)) same
      have above : width + (bit - width) = bit := by
        omega
      simp only [BitVec.getLsbD_ushiftRight, above] at sameBit
      rw [sameBit]

/-- A region that starts below the top of the space ends there or earlier. -/
theorem block_le_of_lt
    {size top index : Nat}
    (sizeLe : size ≤ top)
    (startLt : 2 ^ size * index < 2 ^ top) :
    2 ^ size * (index + 1) ≤ 2 ^ top := by
  have split : 2 ^ top = 2 ^ size * 2 ^ (top - size) := by
    rw [← Nat.pow_add, Nat.add_sub_cancel' sizeLe]
  rw [split] at startLt ⊢
  exact Nat.mul_le_mul_left _ (Nat.lt_of_mul_lt_mul_left startLt)

/-- An entry matches what lies between its two ends. -/
theorem napotMatches_iff
    {addr : Word}
    {rest ones : Nat}
    (composed : addr.toNat = compose rest ones)
    (fits : 2 ^ (ones + 3) * (rest + 1) ≤ 2 ^ 64)
    (address : Word) :
    NapotMatches addr address ↔
      address ∈ region (s3kPmpNapotBegin addr) (s3kPmpNapotEnd addr) := by
  have split : 2 ^ (ones + 3) * (rest + 1) =
      4 * (2 ^ (ones + 1) * rest + 2 * 2 ^ ones) := by
    rw [Nat.pow_add, Nat.pow_add]
    ring
  have positive := Nat.two_pow_pos ones
  have successor := compose_add_one rest ones
  have bounded : addr.toNat < 2 ^ 62 := by
    omega
  have start := s3kPmpNapotBegin_toNat composed bounded
  have stop := s3kPmpNapotEnd_toNat composed bounded
  have addressBound := address.isLt
  have lastAddress :
      (s3kPmpNapotEnd addr - 1).toNat = 2 ^ (ones + 3) * (rest + 1) - 1 := by
    have one : (1 : Word).toNat = 1 := rfl
    rw [BitVec.toNat_sub, stop, one]
    omega
  have upper : addr.toNat / 2 ^ (ones + 1) = rest := by
    have low : 2 ^ ones - 1 < 2 ^ (ones + 1) := by
      rw [Nat.pow_succ]
      omega
    rw [composed, compose, Nat.mul_add_div (Nat.two_pow_pos _),
      Nat.div_eq_of_lt low, Nat.add_zero]
  have quotient :
      address.toNat / 2 ^ 2 / 2 ^ (ones + 1) =
        address.toNat / 2 ^ (ones + 3) := by
    rw [Nat.div_div_eq_div_mul, ← Nat.pow_add, Nat.add_comm 2]
  rw [NapotMatches, and_not_mask_eq_iff (xor_add_one_toNat composed bounded),
    mem_region, BitVec.le_def, BitVec.le_def, start, lastAddress,
    ← BitVec.toNat_inj, BitVec.toNat_ushiftRight, BitVec.toNat_ushiftRight,
    BitVec.toNat_ushiftRight, Nat.shiftRight_eq_div_pow,
    Nat.shiftRight_eq_div_pow, Nat.shiftRight_eq_div_pow, upper, quotient,
    Nat.div_eq_iff (Nat.two_pow_pos _), Nat.mul_comm rest, Nat.mul_succ]

/-- The NAPOT address of `2 ^ (ones + 3)` bytes at a multiple of that. -/
theorem s3kPmpNapotAddr_toNat
    {start stop : Word}
    {rest ones : Nat}
    (startEq : start.toNat = 2 ^ (ones + 3) * rest)
    (sizeEq : (stop - start).toNat = 2 ^ (ones + 3)) :
    (s3kPmpNapotAddr start stop).toNat = compose rest ones := by
  have one : (1 : Word).toNat = 1 := rfl
  have positive := Nat.two_pow_pos ones
  have eightfold : 2 ^ (ones + 3) = 8 * 2 ^ ones := by
    rw [Nat.pow_add, Nat.mul_comm]
  have sizeBound := (stop - start).isLt
  have startQuarter : start.toNat / 2 ^ 2 = 2 ^ (ones + 1) * rest := by
    have fourfold : 2 ^ (ones + 3) = 2 ^ 2 * 2 ^ (ones + 1) := by
      rw [← Nat.pow_add, Nat.add_comm 2]
    rw [startEq, fourfold, Nat.mul_assoc,
      Nat.mul_div_cancel_left _ (Nat.two_pow_pos 2)]
  have sizeEighth :
      (stop - start - 1).toNat / 2 ^ 1 / 2 ^ 2 = 2 ^ ones - 1 := by
    rw [BitVec.toNat_sub, sizeEq, one]
    omega
  rw [s3kPmpNapotAddr, BitVec.toNat_ushiftRight, BitVec.toNat_or,
    BitVec.toNat_ushiftRight, Nat.shiftRight_eq_div_pow,
    Nat.shiftRight_eq_div_pow, Nat.or_div_two_pow, startQuarter, sizeEighth,
    or_two_pow_sub_one]

/-- An encoded address has 62 bits. -/
theorem s3kPmpNapotAddr_lt (start stop : Word) :
    (s3kPmpNapotAddr start stop).toNat < 2 ^ 62 := by
  have bound := (start ||| ((stop - start - 1) >>> 1)).isLt
  rw [s3kPmpNapotAddr, BitVec.toNat_ushiftRight, Nat.shiftRight_eq_div_pow]
  omega

private theorem two_pow_lt_of_short
    {ones : Nat}
    (short : ones ≤ 60) :
    2 ^ (ones + 3) < 2 ^ 64 :=
  Nat.pow_lt_pow_right (by decide) (by omega)

/-- What an address decodes to, by the number of its trailing ones. -/
theorem decoded_cases
    {addr : Word}
    {rest ones : Nat}
    (composed : addr.toNat = compose rest ones)
    (bounded : addr.toNat < 2 ^ 62) :
    ones ≤ 60 ∧
        (s3kPmpNapotEnd addr - s3kPmpNapotBegin addr).toNat =
          2 ^ (ones + 3) ∨
      60 < ones ∧
        WholeSpace (s3kPmpNapotBegin addr) (s3kPmpNapotEnd addr) := by
  have sizeNat := s3kPmpNapotEnd_sub_begin composed bounded
  by_cases short : ones ≤ 60
  · rw [Nat.mod_eq_of_lt (two_pow_lt_of_short short)] at sizeNat
    exact Or.inl ⟨short, sizeNat⟩
  · -- So many ones leave no room for a rest, and the end wraps around.
    have tooMany : 2 ^ 64 ∣ 2 ^ (ones + 3) :=
      Nat.pow_dvd_pow 2 (by omega)
    have startNat := s3kPmpNapotBegin_toNat composed bounded
    have stopNat := s3kPmpNapotEnd_toNat composed bounded
    have startZero : (s3kPmpNapotBegin addr).toNat = 0 :=
      Nat.eq_zero_of_dvd_of_lt (startNat ▸ Dvd.dvd.mul_right tooMany rest)
        (s3kPmpNapotBegin addr).isLt
    have stopZero : (s3kPmpNapotEnd addr).toNat = 0 := by
      rw [stopNat]
      exact Nat.mod_eq_zero_of_dvd (tooMany.mul_right _)
    exact Or.inr
      ⟨Nat.lt_of_not_le short, BitVec.eq_of_toNat_eq startZero,
        BitVec.eq_of_toNat_eq stopZero⟩

/-- The NAPOT address of a region that the test should accept. -/
theorem PowerOfTwoRegion.encoded
    {start stop : Word}
    (isRegion : PowerOfTwoRegion start stop) :
    ∃ rest ones,
      ones ≤ 60 ∧
        start.toNat = 2 ^ (ones + 3) * rest ∧
        (stop - start).toNat = 2 ^ (ones + 3) ∧
        (s3kPmpNapotAddr start stop).toNat = compose rest ones := by
  obtain ⟨size, atLeast, sizeNat, rest, startNat⟩ := isRegion
  obtain ⟨ones, rfl⟩ := Nat.exists_eq_add_of_le' atLeast
  have below : 2 ^ (ones + 3) < 2 ^ 64 :=
    sizeNat ▸ (stop - start).isLt
  have short : ones + 3 < 64 :=
    (Nat.pow_lt_pow_iff_right (by decide)).mp below
  exact ⟨rest, ones, by omega, startNat, sizeNat,
    s3kPmpNapotAddr_toNat startNat sizeNat⟩

/-- Which regions pass the test of `capman_derive_pmp`. -/
theorem napot_iff (start stop : Word) :
    Napot start stop ↔
      PowerOfTwoRegion start stop ∨ WholeSpace start stop := by
  have bounded := s3kPmpNapotAddr_lt start stop
  constructor
  · rintro ⟨startEq, stopEq⟩
    obtain ⟨rest, ones, composed⟩ :=
      exists_compose (s3kPmpNapotAddr start stop).toNat
    have startNat := s3kPmpNapotBegin_toNat composed bounded
    have cases := decoded_cases composed bounded
    rw [← startEq] at startNat
    rw [← startEq, ← stopEq] at cases
    rcases cases with ⟨-, sizeNat⟩ | ⟨-, isWhole⟩
    · exact Or.inl
        ⟨ones + 3, Nat.le_add_left 3 ones, sizeNat, startNat ▸ ⟨rest, rfl⟩⟩
    · exact Or.inr isWhole
  · rintro (isRegion | ⟨rfl, rfl⟩)
    · obtain ⟨rest, ones, short, startNat, sizeNat, composed⟩ :=
        isRegion.encoded
      have startEq : start = s3kPmpNapotBegin (s3kPmpNapotAddr start stop) :=
        BitVec.eq_of_toNat_eq
          (startNat.trans (s3kPmpNapotBegin_toNat composed bounded).symm)
      have sizeEq : BitVec.ofNat 64 (2 ^ (ones + 3)) = stop - start := by
        rw [← sizeNat, BitVec.ofNat_toNat, BitVec.setWidth_eq]
      refine ⟨startEq, ?_⟩
      rw [s3kPmpNapotEnd_eq composed bounded, ← startEq, sizeEq,
        BitVec.add_comm, BitVec.sub_add_cancel]
    · exact ⟨by decide, by decide⟩

/-- The address of a region that passes matches the region. -/
theorem Napot.matches
    {start stop : Word}
    (napot : Napot start stop)
    (address : Word) :
    NapotMatches (s3kPmpNapotAddr start stop) address ↔
      address ∈ region start stop := by
  have decoded
      {rest ones : Nat}
      (composed : (s3kPmpNapotAddr start stop).toNat = compose rest ones)
      (fits : 2 ^ (ones + 3) * (rest + 1) ≤ 2 ^ 64) :
      NapotMatches (s3kPmpNapotAddr start stop) address ↔
        address ∈ region start stop := by
    have same := napotMatches_iff composed fits address
    rwa [← napot.1, ← napot.2] at same
  rcases (napot_iff start stop).mp napot with isRegion | ⟨rfl, rfl⟩
  · obtain ⟨rest, ones, short, startNat, -, composed⟩ := isRegion.encoded
    exact decoded composed
      (block_le_of_lt (by omega) (startNat ▸ start.isLt))
  · exact @decoded 0 61 (by decide) (by decide)

/-- Decoding loses nothing below the address of the whole space. -/
theorem s3kPmpNapotAddr_decoded
    {addr : Word}
    (below : addr.toNat < 2 ^ 61 - 1) :
    s3kPmpNapotAddr (s3kPmpNapotBegin addr) (s3kPmpNapotEnd addr) =
      addr := by
  obtain ⟨rest, ones, composed⟩ := exists_compose addr.toNat
  have bounded : addr.toNat < 2 ^ 62 := by
    omega
  have startNat := s3kPmpNapotBegin_toNat composed bounded
  rcases decoded_cases composed bounded with ⟨-, sizeNat⟩ | ⟨many, -⟩
  · apply BitVec.eq_of_toNat_eq
    rw [s3kPmpNapotAddr_toNat startNat sizeNat, composed]
  · have large : 2 ^ 61 ≤ 2 ^ ones :=
      Nat.pow_le_pow_right (by decide) many
    rw [composed, compose] at below
    omega

/-- Which call is made for a region that passes. -/
theorem Napot.capmanDerivePmp_trace
    {start stop : Word}
    (napot : Napot start stop)
    (s3k : S3k)
    (idx : Nat)
    (rwx : Word)
    (world : World) :
    ∃ orig cfg excpt,
      (capmanDerivePmp s3k idx start stop rwx world).2.trace =
        .called
            (.drvcap orig idx (.pmp (s3kPmpNapotAddr start stop) cfg))
            excpt ::
          world.trace := by
  obtain ⟨cfg, pmp, -⟩ := s3k.pmp_eq (s3kPmpNapotAddr start stop) rwx
  have passes :
      ¬ (start ≠ s3kPmpNapotBegin (s3kPmpNapotAddr start stop) ∨
        stop ≠ s3kPmpNapotEnd (s3kPmpNapotAddr start stop)) := by
    rintro (startNe | stopNe)
    · exact startNe napot.1
    · exact stopNe napot.2
  have derived :
      capmanDerivePmp s3k idx start stop rwx world =
        let pmp := s3k.pmp (s3kPmpNapotAddr start stop) rwx
        deriveFrom s3k (findMemoryDerive s3k world pmp) idx pmp world :=
    if_neg passes
  rw [derived, pmp]
  exact ⟨_, cfg, _, deriveFrom_trace world _ idx _⟩

/-- The test passes exactly the powers of two and the whole address space. -/
theorem capmanDerivePmp_derivesExactly :
    DerivesExactly fun start stop =>
      PowerOfTwoRegion start stop ∨ WholeSpace start stop where
  napot_iff := napot_iff
  refused s3k idx start stop rwx world refused := by
    rw [← napot_iff, Napot, not_and_or] at refused
    exact if_pos refused
  derived s3k idx start stop rwx world accepted := by
    have napot := (napot_iff start stop).mpr accepted
    obtain ⟨orig, cfg, excpt, trace⟩ :=
      napot.capmanDerivePmp_trace s3k idx rwx world
    refine ⟨orig, cfg, excpt, trace, napot.1.symm, napot.2.symm, ?_,
      napot.matches⟩
    rintro rfl rfl
    decide
  encode_decode addr below := s3kPmpNapotAddr_decoded below

/-- Both ends 0 pass although the difference is no power of two. -/
theorem wholeSpace_accepted : ¬ DerivesExactly PowerOfTwoRegion := by
  intro exactly
  obtain ⟨size, -, sizeNat, -⟩ :=
    (exactly.napot_iff 0 0).mp ⟨by decide, by decide⟩
  exact absurd sizeNat.symm (Nat.two_pow_pos size).ne'

end S3kMonitor
