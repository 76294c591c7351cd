import S3kMonitor.Mirror

namespace S3kMonitor

/-!
# The region of a derived memory capability

`capman_derive_mem` splits an address into a block offset from bit 27 on and a
page field from bit 12 on.  The mask leaves the field 16 bits, one more than
there are between the two, so bit 27 is in both parts and `_dump_memory` adds
it twice.
-/

/-- A whole number of pages. -/
def PageAligned (address : Word) : Prop :=
  address.toNat % 0x1000 = 0

instance (address : Word) : Decidable (PageAligned address) :=
  inferInstanceAs (Decidable (_ = _))

/-- `s3k_memory` stores the three fields as they are. -/
def StoresFields (s3k : S3k) : Prop :=
  ∀ start stop offset rwx, ∃ free lock rights,
    s3k.memory start stop offset rwx =
      .memory start stop free offset lock rights

/-- If a capability is to be derived, it decodes to the region asked for. -/
def EncodesRegion
    (s3k : S3k)
    (idx : Nat)
    (start stop rwx : Word)
    (world : World) :
    Prop :=
  ∀ orig cap excpt,
    (capmanDeriveMem s3k idx start stop rwx world).2.trace =
      .called (.drvcap orig idx cap) excpt :: world.trace →
    ∃ dump,
      dumpMemory cap = some dump ∧ dump.start = start ∧ dump.stop = stop

/-- `(address >> 12) & 0xFFFF`. -/
def pageField (address : Word) : Word :=
  (address >>> 12) &&& 0xFFFF

/-- The mask keeps 16 bits of the page number. -/
theorem pageField_toNat (address : Word) :
    (pageField address).toNat = address.toNat / 2 ^ 12 % 2 ^ 16 := by
  rw [pageField, BitVec.toNat_and, BitVec.toNat_ushiftRight,
    Nat.shiftRight_eq_div_pow]
  exact Nat.and_two_pow_sub_one_eq_mod _ 16

/-- What decoding adds to an address: the bit that is in both parts. -/
theorem decode_address
    {address : Word}
    (aligned : PageAligned address) :
    address >>> 27 <<< 27 + pageField address <<< 12 =
      address + (if address.getLsbD 27 then 0x8000000 else 0) := by
  have bound := address.isLt
  have bit :
      address.getLsbD 27 = decide (address.toNat / 2 ^ 27 % 2 = 1) :=
    Nat.testBit_eq_decide_div_mod_eq
  rw [PageAligned] at aligned
  apply BitVec.eq_of_toNat_eq
  rw [bit, BitVec.toNat_add, BitVec.toNat_shiftLeft, BitVec.toNat_shiftLeft,
    BitVec.toNat_ushiftRight, pageField_toNat, Nat.shiftRight_eq_div_pow,
    Nat.shiftLeft_eq, Nat.shiftLeft_eq, BitVec.toNat_add]
  by_cases isSet : address.toNat / 2 ^ 27 % 2 = 1
  · have doubled : (0x8000000 : Word).toNat = 2 ^ 27 := rfl
    simp only [isSet, decide_true, if_true, doubled]
    omega
  · simp only [isSet, decide_false, Bool.false_eq_true, if_false]
    have nothing : (0 : Word).toNat = 0 := rfl
    omega

theorem decode_address_eq_iff
    {address : Word}
    (aligned : PageAligned address) :
    address >>> 27 <<< 27 + pageField address <<< 12 = address ↔
      address.getLsbD 27 = false := by
  rw [decode_address aligned]
  cases address.getLsbD 27 with
  | false =>
      simp
  | true =>
      simp

/-- In one block the page fields are in order. -/
theorem pageField_le
    {start stop : Word}
    (nonempty : start < stop)
    (oneBlock : start >>> 27 = stop >>> 27) :
    ¬ pageField start > pageField stop := by
  have blocks := congrArg BitVec.toNat oneBlock
  rw [BitVec.toNat_ushiftRight, BitVec.toNat_ushiftRight,
    Nat.shiftRight_eq_div_pow, Nat.shiftRight_eq_div_pow] at blocks
  rw [BitVec.lt_def] at nonempty
  rw [gt_iff_lt, BitVec.lt_def, pageField_toNat, pageField_toNat]
  omega

section Derive

variable
  {s3k : S3k}
  {idx : Nat}
  {start stop rwx : Word}
  {world : World}

/-- Which call `capman_derive_mem` makes. -/
theorem capmanDeriveMem_trace :
    (capmanDeriveMem s3k idx start stop rwx world).2.trace =
      if pageField start > pageField stop ∨ start >>> 27 ≠ stop >>> 27 then
        world.trace
      else
        let mem :=
          s3k.memory (pageField start) (pageField stop) (start >>> 27) rwx
        let orig := toIndex (findMemoryDerive s3k world mem)
        .called (.drvcap orig idx mem)
            (s3k.excpt world.trace (.drvcap orig idx mem)) ::
          world.trace := by
  have unfolded :
      capmanDeriveMem s3k idx start stop rwx world =
        if pageField start > pageField stop ∨ start >>> 27 ≠ stop >>> 27 then
          (false, world)
        else
          let mem :=
            s3k.memory (pageField start) (pageField stop) (start >>> 27) rwx
          deriveFrom s3k (findMemoryDerive s3k world mem) idx mem world :=
    rfl
  rw [unfolded]
  split
  · rfl
  · exact deriveFrom_trace _ _ _ _

end Derive

/--
The derived capability decodes to the region if and only if the region crosses
into another block, so that nothing is derived, or bit 27 is not set.
-/
theorem capmanDeriveMem_encodes_iff
    (s3k : S3k)
    (stores : StoresFields s3k)
    (idx : Nat)
    {start stop : Word}
    (startAligned : PageAligned start)
    (stopAligned : PageAligned stop)
    (nonempty : start < stop)
    (rwx : Word)
    (world : World) :
    EncodesRegion s3k idx start stop rwx world ↔
      start >>> 27 ≠ stop >>> 27 ∨ start.getLsbD 27 = false := by
  by_cases oneBlock : start >>> 27 = stop >>> 27
  · have passes :
        ¬ (pageField start > pageField stop ∨ start >>> 27 ≠ stop >>> 27) :=
      not_or.mpr ⟨pageField_le nonempty oneBlock, not_not.mpr oneBlock⟩
    have trace :=
      @capmanDeriveMem_trace s3k idx start stop rwx world
    rw [if_neg passes] at trace
    obtain ⟨free, lock, rights, mem⟩ :=
      stores (pageField start) (pageField stop) (start >>> 27) rwx
    have sameBit : stop.getLsbD 27 = start.getLsbD 27 := by
      have bits := congrArg (BitVec.getLsbD · 0) oneBlock
      simpa using bits.symm
    simp only [EncodesRegion, trace, mem]
    rw [or_iff_right (not_not.mpr oneBlock)]
    constructor
    · intro encodes
      obtain ⟨dump, dumped, startEq, -⟩ := encodes _ _ _ rfl
      cases dumped
      exact (decode_address_eq_iff startAligned).mp startEq
    · rintro isClear orig cap excpt same
      cases same
      refine ⟨_, rfl, (decode_address_eq_iff startAligned).mpr isClear, ?_⟩
      rw [oneBlock]
      exact (decode_address_eq_iff stopAligned).mpr (sameBit.trans isClear)
  · refine iff_of_true (fun orig cap excpt same => ?_) (Or.inl oneBlock)
    rw [capmanDeriveMem_trace, if_pos (Or.inr oneBlock)] at same
    exact absurd same.symm (List.cons_ne_self _ _)

/-- A page at the start of the RAM is encoded exactly. -/
theorem ramPage_encoded :
    EncodesRegion (S3k.generous fun _ _ => false) 5 0x80000000 0x80001000 7
      (afterInit (onlyCap 1 (.memory 0x0 0x100 0x0 0x10 0 7))
        (fun _ => .none) fun _ => 0) :=
  (capmanDeriveMem_encodes_iff _ (fun _ _ _ _ => ⟨_, _, _, rfl⟩) 5 (by decide)
    (by decide) (by decide) 7 _).mpr (Or.inr (by decide))

/-- A page whose address has bit 27 set decodes to one 128 MiB higher up. -/
theorem upperPage_not_encoded :
    ¬ ∀ s3k : S3k,
        StoresFields s3k →
        ∀ idx start stop rwx world,
          PageAligned start → PageAligned stop → start < stop →
          EncodesRegion s3k idx start stop rwx world := by
  intro always
  have encodes :=
    always (S3k.generous fun _ _ => false) (fun _ _ _ _ => ⟨_, _, _, rfl⟩) 5
      0x88000000 0x88001000 7
      (afterInit (onlyCap 1 (.memory 0x0 0x100 0x0 0x11 0 7))
        (fun _ => .none) fun _ => 0)
      (by decide) (by decide) (by decide)
  obtain ⟨dump, dumped, startEq, -⟩ :=
    encodes 1 (.memory 0x8000 0x8001 0x8000 0x11 0 7) 0 (by decide +kernel)
  cases dumped
  exact absurd startEq (by decide)

end S3kMonitor
