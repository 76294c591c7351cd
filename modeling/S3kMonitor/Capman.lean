import S3kMonitor.S3k
import S3kMonitor.Lib.Runs

namespace S3kMonitor

open Runs

/-!
# The capability manager of `common/capman.c`

The monitor keeps a mirror `caps` of its own slots.  The searches read the
mirror, the calls change the kernel, and each function brings the mirror up to
date by hand.  Functions return their C result and the new state.
-/

/-- The slots from the first to the last one, and back. -/
def slotsUp : List Nat :=
  List.range ncap

/-- The slots from the last one down. -/
def slotsDown : List Nat :=
  (List.range ncap).reverse

/-- The shape of every search in the file: the first slot that passes, or -1. -/
def firstSlot (slots : List Nat) (test : Nat → Bool) : Int :=
  match slots.find? test with
  | some slot => slot
  | none => -1

/-- `int` to `uint64_t`. -/
def toIndex (index : Int) : Nat :=
  (BitVec.ofInt 64 index).toNat

section Searches

variable
  (s3k : S3k)
  (world : World)

/-- `capman_get` -/
def capmanGet (idx : Nat) : Cap :=
  world.caps idx

/-- `capman_find_free` -/
def capmanFindFree : Int :=
  firstSlot slotsDown fun i => (world.caps i).type = .none

/-- `find_memory_derive` -/
def findMemoryDerive (cap : Cap) : Int :=
  firstSlot slotsDown fun i => s3k.memoryDerive (world.caps i) cap

/-- `find_time_derive` -/
def findTimeDerive (cap : Cap) : Int :=
  firstSlot slotsDown fun i => s3k.timeDerive (world.caps i) cap

/-- `find_channel_derive` -/
def findChannelDerive (cap : Cap) : Int :=
  firstSlot slotsDown fun i => s3k.channelDerive (world.caps i) cap

/-- `find_socket_derive` -/
def findSocketDerive (cap : Cap) : Int :=
  firstSlot slotsDown fun i => s3k.socketDerive (world.caps i) cap

/-- `capman_find_monitor` -/
def capmanFindMonitor (pid : Nat) : Int :=
  firstSlot slotsUp fun i =>
    match world.caps i with
    | .monitor _ stop free => free.toNat ≤ pid ∧ pid < stop.toNat
    | _ => false

/-- Only the app calls this one.  A slot is passed over if both ends differ. -/
def capmanFindExistingPmp (caps : Nat → Cap) (start stop : Word) : Int :=
  firstSlot slotsUp fun i =>
    match caps i with
    | .pmp addr _ =>
        ¬ (s3kPmpNapotBegin addr ≠ start ∧ s3kPmpNapotEnd addr ≠ stop)
    | _ => false

end Searches

/-- What `_dump_memory` prints of a memory capability. -/
structure MemoryDump where
  start : Word
  stop : Word
  free : Word
  lock : Word
  rwx : Word
deriving DecidableEq

/-- Addresses are an offset of whole blocks and a field of pages. -/
def dumpMemory : Cap → Option MemoryDump
  | .memory start stop free offset lock rwx =>
      some
        { start := offset <<< 27 + start <<< 12
          stop := offset <<< 27 + stop <<< 12
          free := offset <<< 27 + free <<< 12
          lock := lock
          rwx := rwx }
  | _ => none

/-- The loop re-reads every slot. -/
def capmanUpdate (world : World) : World :=
  slotsUp.foldl World.reread world

/-- `capman_init` -/
def capmanInit (world : World) : World :=
  capmanUpdate world

/--
`soc[channel] = i` for every socket.  The array has eight entries; the model
drops a write past its end.
-/
def capmanGetsoc (soc : Vector Byte 8) (world : World) : Vector Byte 8 :=
  slotsUp.foldl
    (fun soc i =>
      match world.caps i with
      | .socket channel _ => soc.setIfInBounds channel.toNat (BitVec.ofNat 8 i)
      | _ => soc)
    soc

section Operations

variable (s3k : S3k)

/-- `capman_move` -/
def capmanMove (src dst : Nat) (world : World) : Bool × World :=
  if world.caps src = .none ∨ world.caps dst ≠ .none then
    (false, world)
  else
    let result := world.call s3k (.movcap src dst)
    if result.1 = s3k.excptNone then
      (true, (result.2.setCap dst (result.2.caps src)).setCap src .none)
    else
      (false, result.2)

/-- The result of `s3k_delcap` is not looked at. -/
def capmanDelcap (idx : Nat) (world : World) : Bool × World :=
  if world.caps idx ≠ .none then
    let result := world.call s3k (.delcap idx)
    (true, result.2.setCap idx .none)
  else
    (false, world)

/-- The end that all `capman_derive` functions share. -/
def deriveFrom (i : Int) (idx : Nat) (cap : Cap) (world : World) :
    Bool × World :=
  let i := toIndex i
  let result := world.call s3k (.drvcap i idx cap)
  if result.1 = s3k.excptNone then
    (true, (result.2.reread i).reread idx)
  else
    (false, result.2)

/-- `capman_derive_pmp` -/
def capmanDerivePmp
    (idx : Nat)
    (start stop rwx : Word)
    (world : World) :
    Bool × World :=
  let addr := s3kPmpNapotAddr start stop
  let pmp := s3k.pmp addr rwx
  if start ≠ s3kPmpNapotBegin addr ∨ stop ≠ s3kPmpNapotEnd addr then
    (false, world)
  else
    deriveFrom s3k (findMemoryDerive s3k world pmp) idx pmp world

/-- `capman_derive_mem`, with its division into blocks and pages. -/
def capmanDeriveMem
    (idx : Nat)
    (start stop rwx : Word)
    (world : World) :
    Bool × World :=
  let _offset := start >>> 27
  let _begin := (start >>> 12) &&& 0xFFFF
  let _end := (stop >>> 12) &&& 0xFFFF
  let mem := s3k.memory _begin _end _offset rwx
  if _begin > _end ∨ start >>> 27 ≠ stop >>> 27 then
    (false, world)
  else
    deriveFrom s3k (findMemoryDerive s3k world mem) idx mem world

/-- `capman_derive_time` -/
def capmanDeriveTime
    (idx : Nat)
    (hartid start stop : Word)
    (world : World) :
    Bool × World :=
  let mem := s3k.time hartid start stop
  if start > stop then
    (false, world)
  else
    deriveFrom s3k (findTimeDerive s3k world mem) idx mem world

/-- `capman_derive_socket`, from a channel or else from a socket. -/
def capmanDeriveSocket
    (idx : Nat)
    (port tag : Word)
    (world : World) :
    Bool × World :=
  let soc := s3k.socket port tag
  let i := findChannelDerive s3k world soc
  let i := if i = -1 then findSocketDerive s3k world soc else i
  deriveFrom s3k i idx soc world

/-- The code says which of the four steps failed. -/
def capmanUpdatePmp
    (idx : Nat)
    (start stop rwx : Word)
    (world : World) :
    Int × World :=
  let tidx := capmanFindFree world
  if tidx = -1 then
    (1, world)
  else
    let tidx := toIndex tidx
    let derivation := capmanDerivePmp s3k tidx start stop rwx world
    if derivation.1 = false then
      (2, derivation.2)
    else
      let deletion := capmanDelcap s3k idx derivation.2
      if deletion.1 = false then
        (3, deletion.2)
      else
        let movement := capmanMove s3k tidx idx deletion.2
        if movement.1 = false then
          (4, movement.2)
        else
          (0, movement.2)

/-- `capman_mresume` -/
def capmanMresume (pid : Nat) (world : World) : Bool × World :=
  let moncap := capmanFindMonitor world pid
  if moncap < 0 then
    (false, world)
  else
    (true, (world.call s3k (.mresume (toIndex moncap) pid)).2)

/-- The result of the call is compared with a capability type. -/
def capmanMgivecap (pid src dest : Nat) (world : World) : Bool × World :=
  let moncap := capmanFindMonitor world pid
  if moncap < 0 then
    (false, world)
  else
    let result := world.call s3k (.mgivecap (toIndex moncap) pid src dest)
    if result.1 = s3k.captyNone then
      (true, result.2.setCap src .none)
    else
      (false, result.2)

/-- `capman_mtakecap` -/
def capmanMtakecap (pid src dest : Nat) (world : World) : Bool × World :=
  let moncap := capmanFindMonitor world pid
  if moncap < 0 then
    (false, world)
  else
    let result := world.call s3k (.mtakecap (toIndex moncap) pid src dest)
    if result.1 = s3k.captyNone then
      (true, result.2.reread dest)
    else
      (false, result.2)

/-- `capman_msetreg` -/
def capmanMsetreg
    (pid : Nat)
    (reg : Reg)
    (val : Word)
    (world : World) :
    Bool × World :=
  let moncap := capmanFindMonitor world pid
  if moncap < 0 then
    (false, world)
  else
    let result := world.call s3k (.msetreg (toIndex moncap) pid reg val)
    (result.1 = s3k.captyNone, result.2)

/-- Byte `i` of the register names the slot of PMP entry `i`. -/
def capmanSetpmp (pmp : Vector Byte 8) (world : World) : World :=
  let pmpreg : Word :=
    (List.finRange 8).foldl
      (fun pmpreg i => pmpreg ||| ((pmp.get i).setWidth 64 <<< (i.val * 8))) 0
  (world.call s3k (.setreg .pmp pmpreg)).2

end Operations

/-- A process reads back the slots from its own register. -/
def capmanGetpmp (pid : Nat) (world : World) : Vector Byte 8 :=
  let pmpreg := world.kernel.reg pid .pmp
  Vector.ofFn fun i => (pmpreg >>> (i.val * 8)).setWidth 8

section Searching

variable
  (slots : List Nat)
  (test : Nat → Bool)

/-- A search that does not return -1 returns a slot that passes. -/
theorem firstSlot_cases :
    (∃ slot ∈ slots,
      test slot = true ∧ firstSlot slots test = slot) ∨
    firstSlot slots test = -1 ∧ ∀ slot ∈ slots, test slot = false := by
  unfold firstSlot
  cases found : slots.find? test with
  | some slot =>
      exact Or.inl
        ⟨slot, List.mem_of_find?_eq_some found, List.find?_some found, rfl⟩
  | none =>
      refine Or.inr ⟨rfl, fun slot member => ?_⟩
      simpa using List.find?_eq_none.mp found slot member

/-- A search that only one slot passes returns that slot. -/
theorem firstSlot_of_unique
    {slot : Nat}
    (member : slot ∈ slots)
    (passes : test slot = true)
    (unique : ∀ other ∈ slots, test other = true → other = slot) :
    firstSlot slots test = slot := by
  rcases firstSlot_cases slots test with
    ⟨other, otherMember, otherPasses, found⟩ | ⟨-, nonePasses⟩
  · rw [found, unique other otherMember otherPasses]
  · rw [nonePasses slot member] at passes
    cases passes

omit slots in
/-- A search upwards finds the first slot that passes. -/
theorem firstSlot_range_cases (count : Nat) :
    (∃ slot < count,
      test slot = true ∧
        (∀ earlier < slot, test earlier = false) ∧
        firstSlot (List.range count) test = slot) ∨
    firstSlot (List.range count) test = -1 ∧
      ∀ slot < count, test slot = false := by
  unfold firstSlot
  cases found : (List.range count).find? test with
  | some slot =>
      obtain ⟨passes, member, first⟩ := List.find?_range_eq_some.mp found
      refine Or.inl ⟨slot, List.mem_range.mp member, passes, ?_, rfl⟩
      simpa using first
  | none =>
      refine Or.inr ⟨rfl, fun slot inRange => ?_⟩
      simpa using List.find?_eq_none.mp found slot (List.mem_range.mpr inRange)

/-- Going up, the loops meet every slot of the table. -/
theorem mem_slotsUp (slot : Nat) :
    slot ∈ slotsUp ↔ slot < ncap := by
  simp [slotsUp]

/-- So they do going down. -/
theorem mem_slotsDown (slot : Nat) :
    slot ∈ slotsDown ↔ slot < ncap := by
  simp [slotsDown]

/-- An index below the number of slots survives the conversion. -/
theorem toIndex_slot
    {slot : Nat}
    (inRange : slot < ncap) :
    toIndex slot = slot := by
  simp only [ncap] at inRange
  rw [toIndex, BitVec.ofInt_natCast, BitVec.toNat_ofNat]
  omega

/-- The slot that `capman_find_free` returns is empty in the mirror. -/
theorem capmanFindFree_cases (world : World) :
    (∃ slot,
      slot < ncap ∧ world.caps slot = .none ∧
        capmanFindFree world = slot) ∨
    capmanFindFree world = -1 ∧
      ∀ slot, slot < ncap → world.caps slot ≠ .none := by
  rcases firstSlot_cases slotsDown
      (fun i => decide ((world.caps i).type = .none)) with
    ⟨slot, member, isFree, found⟩ | ⟨notFound, allTaken⟩
  · exact Or.inl
      ⟨slot, (mem_slotsDown slot).mp member, by simpa using isFree, found⟩
  · refine Or.inr ⟨notFound, fun slot inRange => ?_⟩
    simpa using allTaken slot ((mem_slotsDown slot).mpr inRange)

end Searching

section Update

variable (world : World)

private theorem reread_all_kernel (slots : List Nat) :
    (slots.foldl World.reread world).kernel = world.kernel := by
  induction slots generalizing world with
  | nil =>
      rfl
  | cons slot slots inductionHypothesis =>
      exact inductionHypothesis (world.reread slot)

/-- Re-reading changes nothing in the kernel. -/
@[simp]
theorem capmanUpdate_kernel :
    (capmanUpdate world).kernel = world.kernel :=
  reread_all_kernel world slotsUp

private theorem reread_all_caps (slots : List Nat) (slot : Nat) :
    (slots.foldl World.reread world).caps slot =
      if slot ∈ slots then world.getcap slot else world.caps slot := by
  induction slots generalizing world with
  | nil =>
      simp
  | cons head slots inductionHypothesis =>
      rw [List.foldl_cons, inductionHypothesis]
      by_cases isHead : slot = head
      · subst isHead
        simp [World.getcap]
      · simp [isHead, World.getcap]

/-- After `capman_update` the mirror shows what the kernel holds. -/
theorem capmanUpdate_caps
    {slot : Nat}
    (inRange : slot < ncap) :
    (capmanUpdate world).caps slot = world.getcap slot := by
  rw [capmanUpdate, reread_all_caps, if_pos ((mem_slotsUp slot).mpr inRange)]

private theorem reread_all_trace (slots : List Nat) :
    (slots.foldl World.reread world).trace = world.trace := by
  induction slots generalizing world with
  | nil =>
      rfl
  | cons slot slots inductionHypothesis =>
      exact inductionHypothesis (world.reread slot)

/-- It is not traced. -/
@[simp]
theorem capmanUpdate_trace :
    (capmanUpdate world).trace = world.trace :=
  reread_all_trace world slotsUp

private theorem reread_all_mem (slots : List Nat) :
    (slots.foldl World.reread world).mem = world.mem := by
  induction slots generalizing world with
  | nil =>
      rfl
  | cons slot slots inductionHypothesis =>
      exact inductionHypothesis (world.reread slot)

/-- It does not count as a store. -/
theorem capmanUpdate_mem :
    (capmanUpdate world).mem = world.mem :=
  reread_all_mem world slotsUp

end Update

end S3kMonitor
