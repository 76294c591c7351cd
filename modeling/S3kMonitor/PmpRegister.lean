import S3kMonitor.Turns
import S3kMonitor.Lib.LittleEndian

namespace S3kMonitor

open LittleEndian

/-!
# The PMP register of the app

`setup_app` packs the slots of the capabilities that it gives away into one
register, a byte for each slot.  The register has eight bytes, and with the
one for the UART a header can ask for more than eight capabilities.
-/

/-- Byte `lane` of the value of a register. -/
def lane (val : Word) (index : Nat) : Byte :=
  (val >>> (index * 8)).setWidth 8

/-- The slots that one run of `setup_app` fills with a PMP capability. -/
structure PutsPmp
    (s3k : S3k)
    (fuel : Nat)
    (app : Process)
    (world : World)
    (slot : Nat) :
    Prop where
  given :
    ∃ moncap later earlier,
      (setupApp s3k fuel app world).1.trace =
        later ++
          .called (.mgivecap moncap appPid 0x20 slot) s3k.excptNone ::
            (earlier ++ (enterSetupApp world).world.trace)
  held :
    ((setupApp s3k fuel app world).1.kernel.table appPid slot).type = .pmp

/-- `npmp` after the capability for the UART. -/
def finalNpmp
    (s3k : S3k)
    (fuel : Nat)
    (app : Process)
    (world : World) :
    Nat :=
  (handOut s3k
    (setupSections s3k fuel app.sections (enterSetupApp world)).1
    uartGrant).npmp.toNat

/--
Whenever `setup_app` returns, the slots that it filled are in the value that
it writes to the PMP register, and the app reads each at its own position.
-/
def EveryGrantLoaded (app : Process) : Prop :=
  ∀ s3k fuel world slot,
    (setupApp s3k fuel app world).2 = true →
    slot < finalNpmp s3k fuel app world →
    PutsPmp s3k fuel app world slot →
    ∀ moncap val earlier,
      (setupApp s3k fuel app world).1.trace =
        .called (.msetreg moncap appPid .pmp val) s3k.excptNone ::
          earlier →
      (∃ index < 8, lane val index = BitVec.ofNat 8 slot) ∧
        (capmanGetpmp appPid (setupApp s3k fuel app world).1)[slot]? =
          some (BitVec.ofNat 8 slot)

section Packing

/-- The slots up to one of them, a byte each. -/
def slotBytes (count : Nat) : List Byte :=
  (List.range count).map (BitVec.ofNat 8)

/-- One byte for each slot. -/
@[simp]
theorem length_slotBytes (count : Nat) : (slotBytes count).length = count := by
  simp [slotBytes]

/-- One slot more is one more byte on top. -/
theorem decode_slotBytes_succ
    {count : Nat}
    (isByte : count < 256) :
    decode (slotBytes (count + 1)) =
      decode (slotBytes count) + 256 ^ count * count := by
  rw [slotBytes, List.range_succ, List.map_append, decode_append,
    ← slotBytes, length_slotBytes]
  simp [decode, Nat.mod_eq_of_lt isByte]

/-- A shift by whole bytes is a product with a power of 256. -/
theorem ofNat_shiftLeft_bytes (value count : Nat) :
    BitVec.ofNat 64 value <<< (8 * count) =
      BitVec.ofNat 64 (256 ^ count * value) := by
  have power : 2 ^ (8 * count) = 256 ^ count :=
    Nat.pow_mul 2 8 count
  apply BitVec.eq_of_toNat_eq
  rw [BitVec.toNat_shiftLeft, BitVec.toNat_ofNat, BitVec.toNat_ofNat,
    Nat.shiftLeft_eq, power, Nat.mod_mul_mod, Nat.mul_comm]

/-- Every round shifts what is there by a byte and adds its slot below. -/
theorem pmpSlots_succ
    {count : Nat}
    (isByte : count < 256)
    (ipmp : Word) :
    pmpSlots (count + 1) ipmp =
      ipmp <<< (8 * count) +
        BitVec.ofNat 64 (decode (slotBytes (count + 1))) := by
  induction count generalizing ipmp with
  | zero =>
      simp [pmpSlots, slotBytes, decode]
  | succ count inductionHypothesis =>
      have shift : 8 + 8 * count = 8 * (count + 1) := by
        ring
      rw [pmpSlots, if_pos (Nat.succ_ne_zero count),
        inductionHypothesis (Nat.lt_of_succ_lt isByte),
        ← BitVec.shiftLeft_add, shift, decode_slotBytes_succ isByte,
        BitVec.shiftLeft_add_distrib, BitVec.add_assoc, ofNat_shiftLeft_bytes,
        ← BitVec.ofNat_add, Nat.add_comm (256 ^ (count + 1) * (count + 1))]

/-- Lane `index` holds that byte of the number. -/
theorem lane_ofNat
    {index : Nat}
    (hasLane : index < 8)
    (value : Nat) :
    lane (BitVec.ofNat 64 value) index =
      BitVec.ofNat 8 (value / 256 ^ index) := by
  have power : 2 ^ (index * 8) = 256 ^ index := by
    rw [Nat.mul_comm, Nat.pow_mul]
  have split : 2 ^ 64 = 256 ^ index * 2 ^ (64 - index * 8) := by
    rw [← power, ← Nat.pow_add, Nat.add_sub_cancel' (by omega)]
  have wide : 2 ^ 8 ∣ 2 ^ (64 - index * 8) :=
    Nat.pow_dvd_pow 2 (by omega)
  apply BitVec.eq_of_toNat_eq
  rw [lane, BitVec.toNat_setWidth, BitVec.toNat_ushiftRight,
    BitVec.toNat_ofNat, BitVec.toNat_ofNat, Nat.shiftRight_eq_div_pow, power,
    split, Nat.mod_mul_right_div_self, Nat.mod_mod_of_dvd _ wide]

/-- So up to eight slots are all there, and of more the first eight. -/
theorem lane_pmpSlots
    {count slot : Nat}
    (isByte : count ≤ 256)
    (below : slot < count)
    (hasLane : slot < 8) :
    lane (pmpSlots count 0) slot = BitVec.ofNat 8 slot := by
  obtain ⟨last, rfl⟩ := Nat.exists_eq_succ_of_ne_zero (Nat.ne_zero_of_lt below)
  have inRange : slot < (slotBytes (last + 1)).length := by
    rw [length_slotBytes]
    exact below
  have packed :
      pmpSlots (last + 1) 0 =
        BitVec.ofNat 64 (decode (slotBytes (last + 1))) := by
    rw [pmpSlots_succ isByte]
    simp
  rw [packed, lane_ofNat hasLane, ofNat_decode_div_pow _ _ inRange]
  simp [slotBytes]

/-- The app reads the register as it was written. -/
theorem capmanGetpmp_getElem?
    (pid : Nat)
    (world : World)
    (slot : Nat) :
    (capmanGetpmp pid world)[slot]? =
      if slot < 8 then some (lane (world.kernel.reg pid .pmp) slot)
      else none := by
  split
  · next hasLane =>
    simp [capmanGetpmp, lane, hasLane]
  · next noLane =>
    simp [noLane]

end Packing

section Writing

variable
  {s3k : S3k}
  {fuel : Nat}
  {app : Process}
  {world : World}

/-- What `finishApp` has done before it writes the PMP register. -/
def beforePmp (s3k : S3k) (state : AppSetup) : World :=
  (capmanMsetreg s3k appPid .pc appBase
    (capmanMgivecap s3k appPid 0x18 0xF
      (handOut s3k state uartGrant).world).2).2

/-- `finishApp` ends with the write of the PMP register. -/
theorem finishApp_eq (state : AppSetup) :
    finishApp s3k state =
      (capmanMsetreg s3k appPid .pmp
        (pmpSlots (handOut s3k state uartGrant).npmp.toNat 0)
        (beforePmp s3k state)).2 :=
  rfl

/-- A call that `setup_app` makes before the last one. -/
def IsEarlierCall (kernelCall : KernelCall) : Prop :=
  ∀ moncap pid val, kernelCall ≠ .msetreg moncap pid .pmp val

/-- A grant handed out writes no PMP register. -/
theorem handOut_earlier (state : AppSetup) (grant : PmpGrant) :
    Makes s3k IsEarlierCall state.world (handOut s3k state grant).world := by
  apply handOut_makes_of
  · rintro - orig moncap pid val same
    cases same
  · rintro _ moncap pid val same
    cases same

/-- All grants handed out write none. -/
theorem foldl_handOut_earlier (list : List PmpGrant) (state : AppSetup) :
    Makes s3k IsEarlierCall state.world
      (list.foldl (handOut s3k) state).world := by
  induction list generalizing state with
  | nil =>
      exact Makes.refl state.world
  | cons grant list inductionHypothesis =>
      exact (handOut_earlier state grant).trans (inductionHypothesis _)

/-- Nothing before the last call writes the PMP register. -/
theorem beforePmp_earlier (state : AppSetup) :
    Makes s3k IsEarlierCall state.world (beforePmp s3k state) := by
  have time (next : World) :
      Makes s3k IsEarlierCall next
        (capmanMgivecap s3k appPid 0x18 0xF next).2 := by
    apply (capmanMgivecap_makes next appPid 0x18 0xF).mono
    rintro _ ⟨_, rfl⟩ moncap pid val same
    cases same
  have counter (next : World) :
      Makes s3k IsEarlierCall next
        (capmanMsetreg s3k appPid .pc appBase next).2 := by
    apply (capmanMsetreg_makes next appPid .pc appBase).mono
    rintro _ ⟨_, rfl⟩ moncap pid val same
    cases same
  exact ((handOut_earlier state uartGrant).trans (time _)).trans (counter _)

/-- A run of `setup_app` that returns. -/
theorem setupApp_of_returns
    (returns : (setupApp s3k fuel app world).2 = true) :
    let state :=
      (app.sections.flatMap MemorySection.endGrants).foldl (handOut s3k)
        (enterSetupApp world)
    (setupApp s3k fuel app world).1 = finishApp s3k state ∧
      finalNpmp s3k fuel app world =
        (handOut s3k state uartGrant).npmp.toNat := by
  rw [setupApp_eq] at returns ⊢
  rw [finalNpmp, setupSections_eq]
  dsimp only at returns ⊢
  by_cases ends : (sectionsGrants fuel app.sections).2 = true
  · rw [if_pos ends, sectionsGrants_of_ends ends]
    exact ⟨rfl, rfl⟩
  · rw [if_neg ends] at returns
    cases returns

/-- A register write is one call, or none where no capability allows it. -/
theorem capmanMsetreg_cases (pid : Nat) (reg : Reg) (val : Word) :
    (capmanMsetreg s3k pid reg val world).2 = world ∨
      ∃ moncap,
        (capmanMsetreg s3k pid reg val world).2 =
          (world.call s3k (.msetreg moncap pid reg val)).2 := by
  unfold capmanMsetreg
  dsimp only
  split
  · exact Or.inl rfl
  · exact Or.inr ⟨_, rfl⟩

/-- The last thing that `setup_app` does is to write the slots up to `npmp`. -/
theorem setupApp_writes
    (returns : (setupApp s3k fuel app world).2 = true)
    {moncap : Nat}
    {val : Word}
    {earlier : List Event}
    (last :
      (setupApp s3k fuel app world).1.trace =
        .called (.msetreg moncap appPid .pmp val) s3k.excptNone ::
          earlier) :
    val = pmpSlots (finalNpmp s3k fuel app world) 0 ∧
      (setupApp s3k fuel app world).1.kernel.reg appPid .pmp = val := by
  obtain ⟨finishes, npmp⟩ := setupApp_of_returns returns
  have calls :=
    (@foldl_handOut_earlier s3k
      (app.sections.flatMap MemorySection.endGrants)
      (enterSetupApp world)).trans (beforePmp_earlier _)
  rw [finishes, finishApp_eq] at last
  rw [finishes, finishApp_eq, npmp]
  generalize (app.sections.flatMap MemorySection.endGrants).foldl
    (handOut s3k) (enterSetupApp world) = state at last calls ⊢
  rcases @capmanMsetreg_cases s3k (beforePmp s3k state) appPid .pmp
    (pmpSlots (handOut s3k state uartGrant).npmp.toNat 0) with
    notMade | ⟨monitor, made⟩
  · obtain ⟨later, append, known⟩ := calls.trace_append
    rw [notMade, append] at last
    cases later with
    | nil =>
        cases last
    | cons event later =>
        obtain ⟨kernelCall, code, isEarlier, rfl⟩ :=
          known event List.mem_cons_self
        cases last
        exact absurd rfl (isEarlier moncap appPid val)
  · rw [made] at last ⊢
    obtain ⟨⟨rfl, rfl⟩, ok⟩ :
        (monitor = moncap ∧
          pmpSlots (handOut s3k state uartGrant).npmp.toNat 0 = val) ∧
        (World.call s3k
          (.msetreg monitor appPid .pmp
            (pmpSlots (handOut s3k state uartGrant).npmp.toNat 0))
          (beforePmp s3k state)).1 = s3k.excptNone := by
      simpa [World.call] using (List.cons.inj last).1
    refine ⟨rfl, ?_⟩
    rw [World.call_kernel_of_ok ok, KernelCall.effect, Kernel.setReg_reg,
      if_pos ⟨rfl, rfl⟩]

end Writing

section Few

variable
  {app : Process}
  (atMost : app.headerLen ≤ 8)

/-- The capabilities that a section asks for: for a heap two at most. -/
def slotsOf (memorySection : MemorySection) : Nat :=
  if memorySection.isHeap then min memorySection.nchunks.toNat 2 else 1

/-- The slots that the sections ask for, with the one for the UART. -/
def slotCount (sections : List MemorySection) : Nat :=
  (sections.map slotsOf).sum + 1

/-- A section takes two slots at most. -/
theorem slotsOf_le (memorySection : MemorySection) :
    slotsOf memorySection ≤ 2 := by
  rw [slotsOf]
  split
  · exact min_le_right _ 2
  · exact Nat.le_succ 1

/-- A section whose turns end has a grant for each of its slots. -/
theorem length_endGrants (memorySection : MemorySection) :
    memorySection.endGrants.length = slotsOf memorySection := by
  rw [MemorySection.endGrants, slotsOf]
  split
  · rw [List.length_map, MemorySection.endChunks]
    split
    · next isZero =>
      rw [isZero]
      rfl
    · next notZero =>
      have positive : memorySection.nchunks.toNat ≠ 0 :=
        fun isZero => notZero (BitVec.eq_of_toNat_eq isZero)
      split
      · next isOne =>
        rw [isOne]
        rfl
      · next notOne =>
        have several : memorySection.nchunks.toNat ≠ 1 :=
          fun isOne => notOne (BitVec.eq_of_toNat_eq isOne)
        rw [min_eq_right (by omega)]
        rfl
  · rfl

/-- So many are handed out, and the one for the UART. -/
theorem slotCount_eq (sections : List MemorySection) :
    slotCount sections =
      (sections.flatMap MemorySection.endGrants).length + 1 := by
  rw [slotCount, List.length_flatMap]
  simp only [length_endGrants]

/-- Two slots for each section and one for the UART. -/
theorem slotCount_sections_le (sections : List MemorySection) :
    slotCount sections ≤ 2 * sections.length + 1 := by
  induction sections with
  | nil =>
      exact Nat.le_refl 1
  | cons memorySection rest inductionHypothesis =>
      have first := slotsOf_le memorySection
      rw [slotCount] at inductionHypothesis ⊢
      rw [List.map_cons, List.sum_cons, List.length_cons]
      omega

include atMost

/-- Eight sections take 17 slots at most. -/
theorem slotCount_le : slotCount app.sections ≤ 17 := by
  have atMostTwo := slotCount_sections_le app.sections
  have length : app.sections.length = app.headerLen := by
    rw [Process.sections, List.length_map, List.length_range]
  omega

/-- When `setup_app` returns, it has counted every slot of the header. -/
theorem finalNpmp_eq
    {s3k : S3k}
    {fuel : Nat}
    {world : World}
    (returns : (setupApp s3k fuel app world).2 = true) :
    finalNpmp s3k fuel app world = slotCount app.sections := by
  have bound := slotCount_le atMost
  have start : (enterSetupApp world).npmp.toNat = 0 :=
    rfl
  rw [slotCount_eq] at bound ⊢
  obtain ⟨count, -⟩ :=
    @foldl_handOut_gives s3k (enterSetupApp world)
      (app.sections.flatMap MemorySection.endGrants) (by omega)
  rw [(setupApp_of_returns returns).2, handOut_npmp (by omega), count, start,
    Nat.zero_add]

/-- With eight slots or fewer each of them has its own byte. -/
theorem everyGrantLoaded_of_le
    (few : slotCount app.sections ≤ 8) :
    EveryGrantLoaded app := by
  intro s3k fuel world slot returns below _ moncap val earlier last
  obtain ⟨value, register⟩ := setupApp_writes returns last
  have npmp := finalNpmp_eq atMost returns
  have hasLane : slot < 8 := by
    omega
  have loaded : lane val slot = BitVec.ofNat 8 slot := by
    rw [value]
    exact lane_pmpSlots (by omega) below hasLane
  refine ⟨⟨slot, hasLane, loaded⟩, ?_⟩
  rw [capmanGetpmp_getElem?, if_pos hasLane, register, loaded]

end Few

section Many

/-- A call that writes a register. -/
def isRegisterWrite : KernelCall → Bool
  | .msetreg .. => true
  | _ => false

/-- The kernel that hands out every grant and lets the registers be written. -/
def loading : S3k :=
  S3k.generous fun _ call => !(isDelivery call || isRegisterWrite call)

variable
  {cap : Cap}
  {world : World}

/-- In the loops it does what the delivering kernel does. -/
theorem handOut_loading :
    handOut loading = handOut delivering :=
  rfl

/-- A register write moves no capability. -/
theorem capmanMsetreg_kept (s3k : S3k) (pid : Nat) (reg : Reg) (val : Word) :
    (capmanMsetreg s3k pid reg val world).2.kernel.table =
        world.kernel.table ∧
      (capmanMsetreg s3k pid reg val world).2.caps = world.caps := by
  rcases capmanMsetreg_cases pid reg val with same | ⟨moncap, made⟩
  · rw [same]
    exact ⟨rfl, rfl⟩
  · rw [made]
    refine ⟨?_, rfl⟩
    rcases World.call_kernel_cases with performed | refused
    · rw [performed, KernelCall.effect, Kernel.setReg_table]
    · rw [refused]

/-- A slot keeps its capability over a register write. -/
theorem Holds.capmanMsetreg
    (holds : Holds cap world)
    (s3k : S3k)
    (pid : Nat)
    (reg : Reg)
    (val : Word) :
    Holds cap (capmanMsetreg s3k pid reg val world).2 := by
  obtain ⟨table, caps⟩ := @capmanMsetreg_kept world s3k pid reg val
  refine ⟨fun slot inRange => ?_, fun slot => ?_⟩
  · rw [World.getcap, table, caps]
    exact holds.mirrored slot inRange
  · rw [table]
    exact holds.table slot

/-- The time slice stays where it is. -/
theorem Holds.timeGift
    (holds : Holds .none world) :
    let given := (S3kMonitor.capmanMgivecap loading appPid 0x18 0xF world).2
    Holds .none given ∧
      given.kernel = world.kernel ∧
      ∃ excpt,
        given.trace =
          .called (.mgivecap 7 appPid 0x18 0xF) excpt :: world.trace := by
  have found := holds.capmanFindMonitor (by decide)
  let kernelCall := KernelCall.mgivecap 7 appPid 0x18 0xF
  have failed : (world.call delivering kernelCall).1 ≠ delivering.excptNone :=
    call_not_delivery rfl world
  have result :
      (S3kMonitor.capmanMgivecap loading appPid 0x18 0xF world).2 =
        (world.call delivering kernelCall).2 := by
    rw [S3kMonitor.capmanMgivecap, found, toIndex_slot (by decide)]
    rfl
  have kernel := World.call_kernel_of_failed failed
  rw [result]
  refine ⟨⟨holds.mirrored.call_failed failed, fun slot => ?_⟩, kernel, _, rfl⟩
  rw [kernel]
  exact holds.table slot

/-- The register write that is let through. -/
theorem Holds.capmanMsetreg_eq
    (holds : Holds cap world)
    (notMonitor : cap.type ≠ .monitor)
    (reg : Reg)
    (val : Word) :
    (S3kMonitor.capmanMsetreg loading appPid reg val world).2 =
      (world.call loading (.msetreg 7 appPid reg val)).2 := by
  rw [S3kMonitor.capmanMsetreg, holds.capmanFindMonitor notMonitor,
    toIndex_slot (by decide)]
  rfl

/-- The UART goes to the next slot, and the register write is performed. -/
theorem Holds.finishApp
    {state : AppSetup}
    (holds : Holds .none state.world) :
    let final := S3kMonitor.finishApp loading state
    let gift : KernelCall := .mgivecap 7 appPid 0x20 state.npmp.toNat
    appTable final state.npmp.toNat = uartGrant.delivered ∧
      (∃ later earlier,
        final.trace =
          later ++
            .called gift loading.excptNone ::
              (earlier ++ state.world.trace)) ∧
      ∃ val earlier,
        final.trace =
          .called (.msetreg 7 appPid .pmp val) loading.excptNone ::
            earlier := by
  intro final gift
  obtain ⟨derived, -⟩ := holds.capmanDerivePmp uartGrant
  obtain ⟨earlier, derivation, -⟩ :=
    (@capmanDerivePmp_makes delivering state.world 0x20 uartGrant.start
      uartGrant.stop uartGrant.rwx).trace_append
  have given :=
    derived.capmanMgivecap_eq uartGrant.delivered_type state.npmp.toNat
  obtain ⟨afterUart, appGets⟩ := holds.handOut uartGrant
  obtain ⟨afterTime, kernel, time, timeTrace⟩ := afterUart.timeGift
  have counter := afterTime.capmanMsetreg_eq (by decide) .pc appBase
  have written :=
    (afterTime.capmanMsetreg loading appPid .pc appBase).capmanMsetreg_eq
      (by decide) .pmp
      (pmpSlots (S3kMonitor.handOut loading state uartGrant).npmp.toNat 0)
  have uartTrace :
      (S3kMonitor.handOut loading state uartGrant).world.trace =
        .called gift loading.excptNone :: (earlier ++ state.world.trace) := by
    rw [← derivation]
    exact congrArg World.trace given
  have beforeTrace :
      (beforePmp loading state).trace =
        .called (.msetreg 7 appPid .pc appBase) loading.excptNone ::
          .called (.mgivecap 7 appPid 0x18 0xF) time ::
            (S3kMonitor.handOut loading state uartGrant).world.trace := by
    rw [handOut_loading, ← timeTrace]
    exact congrArg World.trace counter
  have finalTrace :
      final.trace =
        .called (.msetreg 7 appPid .pmp _) loading.excptNone ::
          (beforePmp loading state).trace :=
    congrArg World.trace written
  have finalTable :
      final.kernel.table =
        (S3kMonitor.handOut delivering state uartGrant).world.kernel.table := by
    rw [← kernel]
    exact (capmanMsetreg_kept loading appPid .pmp _).1.trans
      (capmanMsetreg_kept loading appPid .pc _).1
  refine ⟨?_, ?_, _, _, finalTrace⟩
  · rw [appTable, finalTable]
    have filled := congrFun appGets state.npmp.toNat
    rw [setAt_apply, if_pos rfl] at filled
    exact filled
  · rw [finalTrace, beforeTrace, uartTrace]
    exact ⟨[_, _, _], earlier, rfl⟩

/-- A state in which `setup_app` can hand out everything. -/
def loadingWorld : World :=
  prepare delivering deliveryKernel fun _ => 0

/-- There the slot for the UART is filled and the register is written. -/
theorem setupApp_loading
    {app : Process}
    (atMost : app.headerLen ≤ 8)
    (noneEndless : ∀ memorySection ∈ app.sections, ¬ memorySection.Endless) :
    (setupApp loading 3 app loadingWorld).2 = true ∧
      PutsPmp loading 3 app loadingWorld
        (app.sections.flatMap MemorySection.endGrants).length ∧
      ∃ val earlier,
        (setupApp loading 3 app loadingWorld).1.trace =
          .called (.msetreg 7 appPid .pmp val) loading.excptNone ::
            earlier := by
  have bound := slotCount_le atMost
  rw [slotCount_eq] at bound
  generalize isList :
    app.sections.flatMap MemorySection.endGrants = list at bound ⊢
  have start : (enterSetupApp loadingWorld).npmp.toNat = 0 :=
    rfl
  have enter : Holds .none (enterSetupApp loadingWorld).world :=
    (prepare_holds _).enterSetupApp
  obtain ⟨holds, npmp, -⟩ := enter.foldl_handOut list (by omega)
  obtain ⟨later, append, -⟩ :=
    (@foldl_handOut_earlier delivering list
      (enterSetupApp loadingWorld)).trace_append
  have run :
      setupApp loading 3 app loadingWorld =
        (finishApp loading
          (list.foldl (handOut delivering) (enterSetupApp loadingWorld)),
          true) := by
    rw [setupApp_eq, sectionsGrants_endGrants noneEndless, isList,
      handOut_loading]
    rfl
  obtain ⟨held, ⟨newest, earlier, given⟩, written⟩ := holds.finishApp
  rw [start, Nat.zero_add] at npmp
  rw [npmp] at held given
  rw [run]
  refine ⟨rfl, ⟨?_, ?_⟩, written⟩
  · rw [run, given, append]
    exact ⟨7, newest, earlier ++ later, by rw [List.append_assoc]⟩
  · rw [run]
    rw [appTable] at held
    rw [held]
    rfl

/-- With more slots than bytes the one for the UART is lost. -/
theorem not_everyGrantLoaded
    {app : Process}
    (atMost : app.headerLen ≤ 8)
    (noneEndless : ∀ memorySection ∈ app.sections, ¬ memorySection.Endless)
    (many : 8 < slotCount app.sections) :
    ¬ EveryGrantLoaded app := by
  intro loads
  obtain ⟨returns, puts, val, earlier, last⟩ :=
    setupApp_loading atMost noneEndless
  have npmp := finalNpmp_eq atMost returns
  obtain ⟨value, -⟩ := setupApp_writes returns last
  have bound := slotCount_le atMost
  have count := slotCount_eq app.sections
  obtain ⟨⟨index, hasLane, isSlot⟩, -⟩ :=
    loads loading 3 loadingWorld _ returns (by omega) puts 7 val earlier last
  have isIndex : lane val index = BitVec.ofNat 8 index := by
    rw [value]
    exact lane_pmpSlots (by omega) (by omega) hasLane
  have same := congrArg BitVec.toNat (isIndex.symm.trans isSlot)
  rw [BitVec.toNat_ofNat, BitVec.toNat_ofNat] at same
  omega

end Many

/--
Where `setup_app` returns, every capability that it grants is loaded exactly
when it uses no more slots than the register has bytes.
-/
theorem setupApp_everyGrantLoaded_iff
    (stack : Process)
    (pid : Byte)
    (base : Nat → Byte)
    (noneEndless :
      ∀ memorySection ∈ (parseExecutable stack pid base).sections,
        ¬ memorySection.Endless) :
    EveryGrantLoaded (parseExecutable stack pid base) ↔
      slotCount (parseExecutable stack pid base).sections ≤ 8 := by
  have atMost := parseExecutable_headerLen_le stack pid base
  constructor
  · intro loads
    by_contra many
    exact not_everyGrantLoaded atMost noneEndless (Nat.lt_of_not_le many)
      loads
  · exact everyGrantLoaded_of_le atMost

/-- The sections that the tools were given decide how many slots there are. -/
theorem written_slots
    {infos : List SectionInfo}
    (notFull : infos.length < 8)
    (ends : (sectionsGrants 3 (infos.map SectionInfo.toSection)).2 = true)
    (stack : Process) :
    (∀ memorySection ∈ imageSections stack (writtenImage infos),
      ¬ memorySection.Endless) ∧
    slotCount (imageSections stack (writtenImage infos)) =
      (sectionsGrants 3 (infos.map SectionInfo.toSection)).1.length + 1 := by
  constructor
  · rw [noneEndless_congr
      (imageSections_written notFull (writtenImage_bytes infos) stack)]
    exact sectionsGrants_reached.2 ends
  · rw [slotCount_eq, ← imageGrants, imageGrants_written notFull ends]

/-- A header with one section of code has both its capabilities loaded. -/
theorem textInfo_everyGrantLoaded :
    EveryGrantLoaded
      (parseExecutable blankStack (BitVec.ofNat 8 appPid)
        (writtenImage [textInfo]).get) := by
  obtain ⟨noneEndless, count⟩ :=
    @written_slots [textInfo] (by decide) (by decide) blankStack
  refine (setupApp_everyGrantLoaded_iff _ _ _ noneEndless).mpr ?_
  rw [imageSections] at count
  rw [count]
  decide

/-- A heap of two pages. -/
def twoPagesHeap : SectionInfo :=
  { heapInfo with size := textInfo.size, size_lt := textInfo.size_lt }

/-- Six sections and a heap of two pages take nine slots. -/
def nineSlots : List SectionInfo :=
  List.replicate 6 textInfo ++ [twoPagesHeap]

/-- The nine slots of this header do not fit into one register. -/
theorem nineSlots_not_everyGrantLoaded :
    ¬ ∀ (stack : Process) (pid : Byte) (base : Nat → Byte),
        (∀ memorySection ∈ (parseExecutable stack pid base).sections,
          ¬ memorySection.Endless) →
        EveryGrantLoaded (parseExecutable stack pid base) := by
  intro always
  obtain ⟨noneEndless, count⟩ :=
    @written_slots nineSlots (by decide) (by decide +kernel) blankStack
  have many :
      8 < slotCount (imageSections blankStack (writtenImage nineSlots)) := by
    rw [count]
    decide +kernel
  exact not_everyGrantLoaded (parseExecutable_headerLen_le _ _ _) noneEndless
    many (always _ _ _ noneEndless)

end S3kMonitor
