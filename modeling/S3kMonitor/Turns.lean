import S3kMonitor.Delivery
import S3kMonitor.FullRights

namespace S3kMonitor

open Relay Runs

/-!
# The turns of `setup_app`

For each grant `setup_app` has one turn: `capman_derive_pmp`, then
`capman_mgivecap` to the next slot.  It drops both results.  As long as no
slot that is meant for a grant is given again, the app has all its rights if
and only if every result that was dropped is `true`.
-/

/-- Both calls of the turn return `true`. -/
def Turn (s3k : S3k) (state : AppSetup) (grant : PmpGrant) : Prop :=
  let derivation :=
    capmanDerivePmp s3k 0x20 grant.start grant.stop grant.rwx state.world
  derivation.1 = true ∧
    (capmanMgivecap s3k appPid 0x20 state.npmp.toNat derivation.2).1 = true

/-- Every turn of the loop goes through. -/
def Turns (s3k : S3k) : AppSetup → List PmpGrant → Prop
  | _, [] => True
  | state, grant :: rest =>
      Turn s3k state grant ∧ Turns s3k (handOut s3k state grant) rest

/-- Nothing is in slot `0x20`, and nothing from slot `first` of the app on. -/
structure Vacant (s3k : S3k) (world : World) (first : Nat) : Prop where
  box : (replay (performed s3k world.trace)).box 0x20 = none
  slots :
    ∀ slot, first ≤ slot →
      (replay (performed s3k world.trace)).slot slot = none

/-- A gift goes to slot `first` of the app or to a later one. -/
def GivesFrom (first : Nat) (kernelCall : KernelCall) : Prop :=
  ∀ moncap pid src dst,
    kernelCall = .mgivecap moncap pid src dst → first ≤ dst

section Calls

variable
  {s3k : S3k}
  {world : World}

/-- A derivation puts its capability into a slot, or performs nothing. -/
theorem deriveFrom_performed (i : Int) (idx : Nat) (cap : Cap) :
    let result := deriveFrom s3k i idx cap world
    (result.1 = true ∧
        performed s3k result.2.trace =
          .put idx (pmpPart cap) :: performed s3k world.trace) ∨
      (result.1 = false ∧
        performed s3k result.2.trace = performed s3k world.trace) := by
  rw [deriveFrom]
  dsimp only
  by_cases ok :
      (world.call s3k (.drvcap (toIndex i) idx cap)).1 = s3k.excptNone
  · rw [if_pos ok]
    have step := performed_call_ok ok
    rw [performedStep, if_pos rfl] at step
    exact Or.inl ⟨rfl, step⟩
  · rw [if_neg ok]
    exact Or.inr ⟨rfl, performed_call_failed ok⟩

/-- So does the derivation of a PMP capability. -/
theorem capmanDerivePmp_performed (idx : Nat) (start stop rwx : Word) :
    let result := capmanDerivePmp s3k idx start stop rwx world
    (result.1 = true ∧ Napot start stop ∧
        performed s3k result.2.trace =
          .put idx (pmpPart (s3k.pmp (s3kPmpNapotAddr start stop) rwx)) ::
            performed s3k world.trace) ∨
      (result.1 = false ∧
        performed s3k result.2.trace = performed s3k world.trace) := by
  rw [capmanDerivePmp]
  dsimp only
  split
  · exact Or.inr ⟨rfl, rfl⟩
  · next napot =>
    have isNapot : Napot start stop := by
      simpa [Napot] using napot
    rcases deriveFrom_performed
        (findMemoryDerive s3k world
          (s3k.pmp (s3kPmpNapotAddr start stop) rwx))
        idx (s3k.pmp (s3kPmpNapotAddr start stop) rwx) with
      ⟨returned, step⟩ | nothing
    · exact Or.inl ⟨returned, isNapot, step⟩
    · exact Or.inr nothing

/-- A capability is sent to the app, or nothing is performed. -/
theorem capmanMgivecap_performed (pid src dest : Nat) :
    let result := capmanMgivecap s3k pid src dest world
    (result.1 = true ∧
        performed s3k result.2.trace =
          .send src dest :: performed s3k world.trace) ∨
      (result.1 = false ∧
        performed s3k result.2.trace = performed s3k world.trace) := by
  rw [capmanMgivecap]
  dsimp only
  split
  · exact Or.inr ⟨rfl, rfl⟩
  · by_cases ok :
        (world.call s3k
          (.mgivecap (toIndex (capmanFindMonitor world pid)) pid src
            dest)).1 = s3k.excptNone
    · rw [if_pos (ok.trans s3k.captyNone_eq.symm)]
      have step := performed_call_ok ok
      rw [performedStep, if_pos rfl] at step
      exact Or.inl ⟨rfl, step⟩
    · rw [if_neg fun returned => ok (returned.trans s3k.captyNone_eq)]
      exact Or.inr ⟨rfl, performed_call_failed ok⟩

/-- Gifts to later slots leave the earlier ones as they are. -/
theorem Makes.slot_kept
    {first slot : Nat}
    {start final : World}
    (makes : Makes s3k (GivesFrom first) start final)
    (isEarlier : slot < first) :
    (replay (performed s3k final.trace)).slot slot =
      (replay (performed s3k start.trace)).slot slot := by
  refine Within.invariant
    (fun world =>
      (replay (performed s3k world.trace)).slot slot =
        (replay (performed s3k start.trace)).slot slot)
    ?_ makes rfl
  rintro action world next isAllowed rfl kept
  cases action with
  | assign other cap =>
      exact kept
  | call kernelCall =>
      rw [World.act]
      by_cases ok : (world.call s3k kernelCall).1 = s3k.excptNone
      · rw [performed_call_ok ok]
        cases kernelCall with
        | mgivecap moncap pid src dst =>
            have isLater : first ≤ dst := isAllowed moncap pid src dst rfl
            rw [performedStep, if_pos rfl]
            exact (replay_send_slot.trans (if_neg (by omega))).trans kept
        | delcap idx =>
            rw [performedStep, if_pos rfl]
            exact kept
        | drvcap orig idx cap =>
            rw [performedStep, if_pos rfl]
            exact kept
        | _ =>
            exact kept
      · rw [performed_call_failed ok]
        exact kept

end Calls

section Loop

variable
  {s3k : S3k}
  {state : AppSetup}
  {grant : PmpGrant}

/-- A turn that goes through delivers its grant and leaves the rest vacant. -/
theorem Turn.delivers
    (turn : Turn s3k state grant)
    (vacant : Vacant s3k state.world state.npmp.toNat) :
    Delivered s3k (handOut s3k state grant).world.trace state.npmp.toNat
        grant ∧
      Vacant s3k (handOut s3k state grant).world (state.npmp.toNat + 1) := by
  obtain ⟨derived, given⟩ := turn
  obtain ⟨cfg, pmpEq, rights⟩ :=
    s3k.pmp_eq (s3kPmpNapotAddr grant.start grant.stop) grant.rwx
  rcases @capmanDerivePmp_performed s3k state.world 0x20 grant.start grant.stop
      grant.rwx with ⟨-, isNapot, put⟩ | ⟨failed, -⟩
  · rcases @capmanMgivecap_performed s3k
        (capmanDerivePmp s3k 0x20 grant.start grant.stop grant.rwx
          state.world).2 appPid 0x20 state.npmp.toNat with
      ⟨-, sent⟩ | ⟨failed, -⟩
    · rw [put, pmpEq, pmpPart] at sent
      have history :
          performed s3k (handOut s3k state grant).world.trace = _ :=
        sent
      refine ⟨⟨isNapot, cfg, rights, ?_⟩, ?_, fun slot isLater => ?_⟩
      · rw [history, ← replay_slot_iff, replay_send_slot, if_pos rfl,
          replay_put_box, if_pos rfl]
      · rw [history, replay_send_box, if_pos rfl]
      · rw [history, replay_send_slot, if_neg (by omega), replay_put_slot]
        exact vacant.slots slot (by omega)
    · rw [failed] at given
      cases given
  · rw [failed] at derived
    cases derived

/-- A turn that does not go through leaves its slot empty. -/
theorem slot_of_not_turn
    (noTurn : ¬ Turn s3k state grant)
    (vacant : Vacant s3k state.world state.npmp.toNat) :
    (replay (performed s3k (handOut s3k state grant).world.trace)).slot
      state.npmp.toNat = none := by
  have slotVacant := vacant.slots state.npmp.toNat (Nat.le_refl _)
  rcases @capmanMgivecap_performed s3k
      (capmanDerivePmp s3k 0x20 grant.start grant.stop grant.rwx
        state.world).2 appPid 0x20 state.npmp.toNat with
    ⟨given, sent⟩ | ⟨-, nothing⟩
  · have history :
        performed s3k (handOut s3k state grant).world.trace = _ :=
      sent
    rw [history, replay_send_slot, if_pos rfl]
    rcases @capmanDerivePmp_performed s3k state.world 0x20 grant.start
        grant.stop grant.rwx with ⟨derived, -, -⟩ | ⟨-, unchanged⟩
    · exact absurd ⟨derived, given⟩ noTurn
    · rw [unchanged]
      exact vacant.box
  · have history :
        performed s3k (handOut s3k state grant).world.trace = _ :=
      nothing
    rw [history]
    rcases @capmanDerivePmp_performed s3k state.world 0x20 grant.start
        grant.stop grant.rwx with ⟨-, -, put⟩ | ⟨-, unchanged⟩
    · rw [put, replay_put_slot]
      exact slotVacant
    · rw [unchanged]
      exact slotVacant

/-- A grant was delivered to the slot that the history shows it in. -/
theorem delivered_iff_slot
    {trace : List Event}
    {slot : Nat} :
    Delivered s3k trace slot grant ↔
      Napot grant.start grant.stop ∧
        ∃ cfg, cfg &&& 7 = grant.rwx &&& 7 ∧
          (replay (performed s3k trace)).slot slot =
            some (s3kPmpNapotAddr grant.start grant.stop, cfg) := by
  simp only [Delivered, replay_slot_iff]

/-- A grant handed out is given to the next slot of the app. -/
theorem handOut_gives :
    Makes s3k (GivesFrom state.npmp.toNat) state.world
      (handOut s3k state grant).world := by
  apply handOut_makes_of
  · rintro - orig _ _ _ _ same
    cases same
  · rintro moncap _ _ _ _ same
    cases same
    exact Nat.le_refl _

/-- The next slot is one of the slots from an earlier one on. -/
theorem GivesFrom.mono
    {first earlier : Nat}
    (isEarlier : earlier ≤ first)
    {kernelCall : KernelCall}
    (gives : GivesFrom first kernelCall) :
    GivesFrom earlier kernelCall :=
  fun moncap pid src dst same =>
    Nat.le_trans isEarlier (gives moncap pid src dst same)

/-- One more slot is in use. -/
theorem handOut_npmp
    (room : state.npmp.toNat + 1 < 256) :
    (handOut s3k state grant).npmp.toNat = state.npmp.toNat + 1 := by
  rw [handOut, BitVec.toNat_add]
  exact Nat.mod_eq_of_lt room

/-- The loop gives away one slot after the other. -/
theorem foldl_handOut_gives
    (list : List PmpGrant)
    (room : state.npmp.toNat + list.length < 256) :
    (list.foldl (handOut s3k) state).npmp.toNat =
        state.npmp.toNat + list.length ∧
      Makes s3k (GivesFrom state.npmp.toNat) state.world
        (list.foldl (handOut s3k) state).world := by
  induction list generalizing state with
  | nil =>
      exact ⟨rfl, Makes.refl _⟩
  | cons grant rest inductionHypothesis =>
      rw [List.length_cons] at room ⊢
      have next : (handOut s3k state grant).npmp.toNat = _ :=
        handOut_npmp (by omega)
      obtain ⟨count, gives⟩ :=
        @inductionHypothesis (handOut s3k state grant) (by omega)
      rw [next] at count gives
      refine ⟨by rw [List.foldl_cons, count]; omega, ?_⟩
      exact handOut_gives.trans
        (gives.mono fun _ => GivesFrom.mono (Nat.le_succ _))

/--
If later gifts go to later slots, all grants of the loop are there in the end
exactly when every turn went through.
-/
theorem delivered_iff_turns
    {final : World}
    (list : List PmpGrant)
    (vacant : Vacant s3k state.world state.npmp.toNat)
    (room : state.npmp.toNat + list.length < 256)
    (later :
      Makes s3k (GivesFrom (state.npmp.toNat + list.length))
        (list.foldl (handOut s3k) state).world final) :
    (∀ k grant, list[k]? = some grant →
        Delivered s3k final.trace (state.npmp.toNat + k) grant) ↔
      Turns s3k state list := by
  induction list generalizing state with
  | nil =>
      simp [Turns]
  | cons grant rest inductionHypothesis =>
      rw [List.length_cons] at room later
      rw [List.foldl_cons] at later
      have next : (handOut s3k state grant).npmp.toNat = _ :=
        handOut_npmp (by omega)
      have restGives :
          Makes s3k (GivesFrom (state.npmp.toNat + 1))
            (handOut s3k state grant).world final := by
        have gives :=
          (@foldl_handOut_gives s3k (handOut s3k state grant) rest
            (by omega)).2
        rw [next] at gives
        exact gives.trans (later.mono fun _ => GivesFrom.mono (by omega))
      have kept :=
        restGives.slot_kept (Nat.lt_succ_self state.npmp.toNat)
      by_cases turn : Turn s3k state grant
      · obtain ⟨delivered, vacantNext⟩ := turn.delivers vacant
        have deliveredFinally :
            Delivered s3k final.trace state.npmp.toNat grant := by
          rw [delivered_iff_slot, kept]
          exact delivered_iff_slot.mp delivered
        have restIff :=
          @inductionHypothesis (handOut s3k state grant)
            (by rw [next]; exact vacantNext) (by omega)
            (by rw [next]; exact later.mono fun _ => GivesFrom.mono (by omega))
        rw [Turns, ← restIff, next, and_iff_right turn]
        constructor
        · intro all k other found
          have shifted := all (k + 1) other found
          rwa [Nat.add_comm k 1, ← Nat.add_assoc] at shifted
        · intro all k other found
          cases k with
          | zero =>
              cases found
              exact deliveredFinally
          | succ k =>
              have shifted := all k other found
              rwa [Nat.add_assoc, Nat.add_comm 1 k] at shifted
      · refine iff_of_false (fun all => ?_) fun turns => turn turns.1
        obtain ⟨-, cfg, -, filled⟩ := delivered_iff_slot.mp (all 0 grant rfl)
        rw [Nat.add_zero, kept, slot_of_not_turn turn vacant] at filled
        cases filled

end Loop

section Setup

/-- A loop that ends has handed out what every section asks for. -/
theorem sectionsGrants_of_ends
    {fuel : Nat}
    {sections : List MemorySection}
    (ends : (sectionsGrants fuel sections).2 = true) :
    (sectionsGrants fuel sections).1 =
      sections.flatMap MemorySection.endGrants := by
  induction sections with
  | nil =>
      rfl
  | cons memorySection rest inductionHypothesis =>
      rw [sectionsGrants] at ends ⊢
      rw [List.flatMap_cons, MemorySection.endGrants]
      by_cases isHeap : memorySection.isHeap
      · rw [if_pos isHeap] at ends ⊢
        by_cases heapEnds : (heapGrants memorySection fuel 0).2
        · rw [if_pos heapEnds] at ends ⊢
          have notOne : memorySection.nchunks ≠ 1 :=
            fun isOne => heapGrants_ends heapEnds ⟨isHeap, isOne⟩
          rw [if_pos isHeap, inductionHypothesis ends,
            MemorySection.endChunks]
          by_cases isZero : memorySection.nchunks = 0
          · rw [if_pos isZero, (heapGrants_few fuel).1 isZero]
            rfl
          · rw [if_neg isZero, if_neg notOne]
            rw [heapGrants_many isZero notOne] at heapEnds ⊢
            have enough : 3 ≤ fuel := of_decide_eq_true heapEnds
            rw [List.take_of_length_le (Nat.le_of_lt enough)]
            rfl
        · rw [if_neg heapEnds] at ends
          exact absurd ends heapEnds
      · rw [if_neg isHeap] at ends ⊢
        rw [if_neg isHeap, inductionHypothesis ends]
        rfl

variable
  {s3k : S3k}
  {fuel : Nat}
  {stack : Process}
  {image : AppBin}
  {hello : Words}
  {kernel : Kernel}
  {mem : Memory}

/-- What follows the loop gives away the next slot and slot `0xF`. -/
theorem finishApp_gives
    {state : AppSetup}
    (few : state.npmp.toNat ≤ 0xF) :
    Makes s3k (GivesFrom state.npmp.toNat) state.world
      (finishApp s3k state) := by
  apply finishApp_makes_of handOut_gives
  · rintro moncap _ _ _ _ same
    cases same
    exact few
  · rintro moncap reg val _ _ _ _ same
    cases same

/-- The sockets of the app go to the slots `0xa` and `0xb`. -/
theorem setupIpc_gives (world : World) :
    Makes s3k (GivesFrom socketPort1) world (setupIpc s3k world) := by
  apply setupIpc_makes_of world
  · rintro orig idx port tag _ _ _ _ same
    cases same
  · rintro moncap dst isPort _ _ _ _ same
    cases same
    rcases isPort with rfl | rfl
    · exact Nat.le_refl _
    · decide

/-- When `setup_app` has returned, its loop was that over all grants. -/
theorem afterSetupApp_eq
    (resumes : Resumes s3k fuel stack image hello kernel mem) :
    afterSetupApp s3k fuel stack image kernel mem =
      finishApp s3k
        ((imageGrants stack image).foldl (handOut s3k)
          (enterSetupApp (beforeSetupApp s3k image kernel mem))) := by
  have finishes := resumes.finishes
  rw [imageGrants, imageSections, afterSetupApp]
  generalize parseExecutable stack (BitVec.ofNat 8 appPid) image.get = app
    at finishes ⊢
  rw [setupApp_eq] at finishes ⊢
  dsimp only at finishes ⊢
  by_cases ends : (sectionsGrants fuel app.sections).2 = true
  · rw [if_pos ends, sectionsGrants_of_ends ends]
  · rw [if_neg ends] at finishes
    cases finishes

variable
  (keepsPmp : KeepsPmp s3k)
  (booted : Booted kernel)
include keepsPmp booted

/-- Before its loop `setup_app` has given nothing to the app. -/
theorem enterSetupApp_vacant :
    Vacant s3k (enterSetupApp (beforeSetupApp s3k image kernel mem)).world
      0 := by
  have relayed :
      Relayed s3k
        (enterSetupApp (beforeSetupApp s3k image kernel mem)).world :=
    enterSetupApp_relayed keepsPmp booted
  have nothingYet :
      HandedOut (fun _ => False)
        (enterSetupApp (beforeSetupApp s3k image kernel mem)).world.kernel :=
    beforeSetupApp_handedOut s3k image mem booted _
  have noPmp
      {cap : Cap}
      (fromNothing : FromGrant (fun _ => False) cap) :
      pmpPart cap = none := by
    apply pmpPart_of_type_ne
    intro isPmp
    obtain ⟨addr, cfg, same⟩ := (Cap.type_eq_pmp_iff cap).mp isPmp
    obtain ⟨_, impossible, -⟩ := fromNothing addr cfg same
    exact impossible
  constructor
  · rw [← relayed.box 0x20 (Or.inr rfl)]
    exact noPmp (nothingYet.handover 0x20 (Or.inr rfl))
  · intro slot _
    rw [← relayed.slot slot]
    exact noPmp (nothingYet.app slot)

/-- The app has all its rights when each grant was delivered to its slot. -/
theorem fullRights_iff_delivered :
    FullRights stack image (atResume s3k fuel stack image kernel mem).kernel ↔
      ∀ slot grant,
        (imageGrants stack image)[slot]? = some grant →
        Delivered s3k (atResume s3k fuel stack image kernel mem).trace slot
          grant := by
  have relayed :
      Relayed s3k (atResume s3k fuel stack image kernel mem) :=
    atResume_relayed keepsPmp booted
  simp only [FullRights, holdsGrant_iff relayed]

/-- Slot `0xa` is the first one that is given again after the loop. -/
theorem fullRights_iff_turns
    (resumes : Resumes s3k fuel stack image hello kernel mem)
    (few : (imageGrants stack image).length ≤ socketPort1) :
    FullRights stack image (atResume s3k fuel stack image kernel mem).kernel ↔
      Turns s3k (enterSetupApp (beforeSetupApp s3k image kernel mem))
        (imageGrants stack image) := by
  have vacant :
      Vacant s3k (enterSetupApp (beforeSetupApp s3k image kernel mem)).world
        0 :=
    enterSetupApp_vacant keepsPmp booted
  have ports : socketPort1 = 0xa := rfl
  have start :
      (enterSetupApp (beforeSetupApp s3k image kernel mem)).npmp.toNat = 0 :=
    rfl
  rw [fullRights_iff_delivered keepsPmp booted, atResume,
    afterSetupApp_eq resumes]
  generalize enterSetupApp (beforeSetupApp s3k image kernel mem) = entered
    at vacant start ⊢
  generalize imageGrants stack image = grants at few ⊢
  have count := (@foldl_handOut_gives s3k entered grants (by omega)).1
  rw [start, Nat.zero_add] at count
  have later :
      Makes s3k (GivesFrom (entered.npmp.toNat + grants.length))
        (grants.foldl (handOut s3k) entered).world
        (setupIpc s3k
          (finishApp s3k (grants.foldl (handOut s3k) entered))) := by
    rw [start, Nat.zero_add, ← count]
    exact (finishApp_gives (by omega)).trans
      ((setupIpc_gives _).mono fun _ => GivesFrom.mono (by omega))
  have iff := delivered_iff_turns grants (start ▸ vacant) (by omega) later
  simpa only [start, Nat.zero_add] using iff

/--
If `setup` comes to resume the app, then the app has all its rights exactly
when the kernel has delivered every grant to its slot, which for at most ten
grants means that both calls of every turn returned `true`.
-/
theorem setup_fullRights_iff :
    ((Resumes s3k fuel stack image hello kernel mem →
        FullRights stack image
          (atResume s3k fuel stack image kernel mem).kernel) ↔
      (Resumes s3k fuel stack image hello kernel mem →
        ∀ slot grant,
          (imageGrants stack image)[slot]? = some grant →
          Delivered s3k (atResume s3k fuel stack image kernel mem).trace slot
            grant)) ∧
    ((imageGrants stack image).length ≤ socketPort1 →
      ((Resumes s3k fuel stack image hello kernel mem →
          FullRights stack image
            (atResume s3k fuel stack image kernel mem).kernel) ↔
        (Resumes s3k fuel stack image hello kernel mem →
          Turns s3k (enterSetupApp (beforeSetupApp s3k image kernel mem))
            (imageGrants stack image)))) := by
  constructor
  · rw [fullRights_iff_delivered keepsPmp booted]
  · intro few
    exact forall_congr' fun resumes =>
      fullRights_iff_turns keepsPmp booted resumes few

end Setup

/-- The first message of the app. -/
def readyHello : Words :=
  Vector.replicate 4 (-1)

/-- The app with code only is such a case. -/
theorem deliveredText_fullRights_iff :
    let image := writtenImage [textInfo]
    let resumes :=
      Resumes delivering 3 blankStack image readyHello deliveryKernel
        fun _ => 0
    let final :=
      atResume delivering 3 blankStack image deliveryKernel fun _ => 0
    ((resumes → FullRights blankStack image final.kernel) ↔
      (resumes →
        ∀ slot grant,
          (imageGrants blankStack image)[slot]? = some grant →
          Delivered delivering final.trace slot grant)) ∧
    ((imageGrants blankStack image).length ≤ socketPort1 →
      ((resumes → FullRights blankStack image final.kernel) ↔
        (resumes →
          Turns delivering
            (enterSetupApp
              (beforeSetupApp delivering image deliveryKernel fun _ => 0))
            (imageGrants blankStack image)))) :=
  setup_fullRights_iff (fun _ _ _ => rfl) deliveryKernel_booted

/-- The grants are those of the sections that the tools were given. -/
theorem imageGrants_written
    {infos : List SectionInfo}
    (notFull : infos.length < 8)
    (ends : (sectionsGrants 3 (infos.map SectionInfo.toSection)).2 = true)
    (stack : Process) :
    imageGrants stack (writtenImage infos) =
      (sectionsGrants 3 (infos.map SectionInfo.toSection)).1 := by
  have same :=
    sectionsGrants_congr
      (imageSections_written notFull (writtenImage_bytes infos) stack) 3
  rw [← same] at ends ⊢
  exact (sectionsGrants_of_ends ends).symm

/-- A `.text` section of three pages, which no PMP capability covers. -/
def threePagesInfo : SectionInfo :=
  { textInfo with size := 0x3000, size_lt := by decide }

/-- The app is resumed although no slot has a capability for the section. -/
theorem threePages_resumed_without_rights :
    let s3k := S3k.generous fun _ _ => false
    let image := writtenImage [threePagesInfo]
    Resumes s3k 3 blankStack image readyHello deliveryKernel
        (fun _ => 0) ∧
      ∃ grant ∈ imageGrants blankStack image,
        ∀ slot,
          ¬ HoldsGrant
              ((atResume s3k 3 blankStack image deliveryKernel
                fun _ => 0).kernel.table appPid slot)
              grant := by
  intro s3k image
  have ends :
      (sectionsGrants 3 ([threePagesInfo].map SectionInfo.toSection)).2 =
        true := by
    decide +kernel
  constructor
  · have runs :=
      setup_written s3k 3 blankStack readyHello deliveryKernel
        (fun _ => 0) (by decide) (writtenImage_bytes [threePagesInfo])
        (writtenImage_accepts [threePagesInfo])
    dsimp only at runs
    rw [if_pos ends] at runs
    rw [Resumes, runs]
    exact startApp_end s3k readyHello _
  · refine ⟨threePagesInfo.toSection.grant, ?_, ?_⟩
    · rw [imageGrants_written (by decide) ends]
      decide +kernel
    · rintro slot ⟨addr, cfg, -, isNapot, -⟩
      revert isNapot
      decide +kernel

end S3kMonitor
