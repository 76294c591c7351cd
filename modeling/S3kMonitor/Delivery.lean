import S3kMonitor.Handout
import S3kMonitor.Mirror

namespace S3kMonitor

/-!
# A kernel that hands out every grant

To see that a grant really reaches the app, it is enough to run `setup` on one
kernel that lets it through.  The kernel below performs the derivations and
gifts of `setup_app` and refuses everything else.
-/

/-- The calls by which a PMP capability reaches the app. -/
def isDelivery : KernelCall → Bool
  | .drvcap _ idx cap => idx = 0x20 ∧ cap.type = .pmp
  | .mgivecap _ _ src _ => src = 0x20
  | _ => false

/-- A kernel that refuses the start of the app and its messages only. -/
def delivering : S3k :=
  S3k.generous fun _ call => !isDelivery call

/-- The monitor has memory and may control the app. -/
def deliveryKernel : Kernel :=
  (onlyCap 1 (.memory 0 0xFFFF 0 0 0 7)).set monitorPid 7 (.monitor 0 2 0)

/-- The app and the monitor are two processes. -/
theorem appPid_ne_monitorPid : appPid ≠ monitorPid := by
  decide

/-- This kernel has booted as `setup` expects. -/
theorem deliveryKernel_booted : Booted deliveryKernel := by
  constructor
  · intro slot
    simp [deliveryKernel, onlyCap, appPid_ne_monitorPid, Cap.type]
  · rintro slot (rfl | rfl)
    · decide
    · decide

/-- What a grant comes to. -/
def PmpGrant.delivered (grant : PmpGrant) : Cap :=
  if Napot grant.start grant.stop then
    .pmp (s3kPmpNapotAddr grant.start grant.stop) (grant.rwx &&& 7)
  else
    .none

/-- The monitor has what it had at the start, and `cap` in slot `0x20`. -/
structure Holds (cap : Cap) (world : World) : Prop where
  mirrored : Mirrored world
  table :
    ∀ slot, world.kernel.table monitorPid slot =
      if slot = 0x20 then cap else deliveryKernel.table monitorPid slot

/-- The capabilities of the app. -/
def appTable (world : World) : Nat → Cap :=
  world.kernel.table appPid

section Steps

variable
  {cap : Cap}
  {world : World}

/-- The mirror besides slot `0x20`. -/
theorem Holds.caps
    (holds : Holds cap world)
    {slot : Nat}
    (inRange : slot < ncap) :
    world.caps slot =
      if slot = 0x20 then cap else deliveryKernel.table monitorPid slot :=
  (holds.mirrored slot inRange).trans (holds.table slot)

/-- The memory capability of the monitor is found for any child. -/
theorem Holds.findMemoryDerive
    (holds : Holds .none world)
    (child : Cap) :
    findMemoryDerive delivering world child = (1 : Nat) := by
  have selects (parent : Cap) :
      delivering.memoryDerive parent child = decide (parent.type = .memory) :=
    rfl
  apply firstSlot_of_unique _ _ (by decide)
  · rw [selects, holds.caps (by decide)]
    decide
  · intro slot member
    have inRange := (mem_slotsDown slot).mp member
    rw [selects, holds.caps inRange]
    revert slot
    decide +kernel

/-- The monitor capability is found for the app. -/
theorem Holds.capmanFindMonitor
    (holds : Holds cap world)
    (notMonitor : cap.type ≠ .monitor) :
    capmanFindMonitor world appPid = (7 : Nat) := by
  apply firstSlot_of_unique _ _ (by decide)
  · rw [holds.caps (by decide), if_neg (by decide)]
    decide
  · intro slot member
    have inRange := (mem_slotsUp slot).mp member
    rw [holds.caps inRange]
    by_cases isHandover : slot = 0x20
    · rw [if_pos isHandover]
      cases cap with
      | monitor start stop free =>
          exact absurd rfl notMonitor
      | _ =>
          intro passes
          cases passes
    · rw [if_neg isHandover]
      revert slot
      decide +kernel

/-- The derivation that is let through. -/
theorem Holds.deriveFrom
    (holds : Holds .none world)
    (addr cfg : Word) :
    Holds (.pmp addr cfg)
        (deriveFrom delivering (1 : Nat) 0x20 (.pmp addr cfg) world).2 ∧
      appTable
          (deriveFrom delivering (1 : Nat) 0x20 (.pmp addr cfg) world).2 =
        appTable world := by
  let kernelCall := KernelCall.drvcap 1 0x20 (.pmp addr cfg)
  have ok : (world.call delivering kernelCall).1 = delivering.excptNone :=
    rfl
  have result :
      (S3kMonitor.deriveFrom delivering (1 : Nat) 0x20 (.pmp addr cfg)
          world).2 =
        ((world.call delivering kernelCall).2.reread 1).reread 0x20 := by
    rw [S3kMonitor.deriveFrom, toIndex_slot (by decide)]
    exact congrArg Prod.snd (if_pos ok)
  have table (pid slot : Nat) :
      (world.call delivering kernelCall).2.kernel.table pid slot =
        if pid = monitorPid ∧ slot = 0x20 then .pmp addr cfg
        else world.kernel.table pid slot := by
    rw [World.call_kernel_of_ok ok]
    simp only [kernelCall, KernelCall.effect, Kernel.set_table]
    by_cases isParent : pid = monitorPid ∧ slot = 1
    · rw [isParent.1, isParent.2]
      rfl
    · rw [if_neg isParent]
  have mirrored :
      Mirrored
        (S3kMonitor.deriveFrom delivering (1 : Nat) 0x20 (.pmp addr cfg)
          world).2 :=
    deriveFrom_mirrored holds.mirrored _ _ _
  refine ⟨⟨mirrored, fun slot => ?_⟩, ?_⟩
  · simp only [result, World.reread_kernel, table, true_and]
    by_cases isHandover : slot = 0x20
    · rw [if_pos isHandover, if_pos isHandover]
    · rw [if_neg isHandover, if_neg isHandover, holds.table slot,
        if_neg isHandover]
  · funext slot
    simp only [result, appTable, World.reread_kernel, table,
      appPid_ne_monitorPid, false_and, if_false]

/-- The capability of a grant arrives in slot `0x20`, if it has one. -/
theorem Holds.capmanDerivePmp
    (holds : Holds .none world)
    (grant : PmpGrant) :
    Holds grant.delivered
        (capmanDerivePmp delivering 0x20 grant.start grant.stop grant.rwx
          world).2 ∧
      appTable
          (capmanDerivePmp delivering 0x20 grant.start grant.stop grant.rwx
            world).2 =
        appTable world := by
  rw [PmpGrant.delivered, S3kMonitor.capmanDerivePmp]
  by_cases napot : Napot grant.start grant.stop
  · have passes :
        ¬ (grant.start ≠
              s3kPmpNapotBegin
                (s3kPmpNapotAddr grant.start grant.stop) ∨
            grant.stop ≠
              s3kPmpNapotEnd (s3kPmpNapotAddr grant.start grant.stop)) := by
      rw [not_or, not_not, not_not]
      exact napot
    simp only [if_pos napot, if_neg passes, holds.findMemoryDerive]
    exact holds.deriveFrom _ _
  · have fails :
        grant.start ≠
              s3kPmpNapotBegin
                (s3kPmpNapotAddr grant.start grant.stop) ∨
            grant.stop ≠
              s3kPmpNapotEnd (s3kPmpNapotAddr grant.start grant.stop) :=
      not_and_or.mp napot
    simp only [if_neg napot, if_pos fails]
    exact ⟨holds, trivial⟩

/-- The gift that is let through. -/
theorem Holds.capmanMgivecap_eq
    (holds : Holds cap world)
    (notMonitor : cap.type ≠ .monitor)
    (dst : Nat) :
    (capmanMgivecap delivering appPid 0x20 dst world).2 =
      (world.call delivering (.mgivecap 7 appPid 0x20 dst)).2.setCap 0x20
        .none := by
  rw [S3kMonitor.capmanMgivecap, holds.capmanFindMonitor notMonitor,
    toIndex_slot (by decide)]
  rfl

/-- What is in slot `0x20` goes to the app. -/
theorem Holds.capmanMgivecap
    (holds : Holds cap world)
    (notMonitor : cap.type ≠ .monitor)
    (dst : Nat) :
    Holds .none (capmanMgivecap delivering appPid 0x20 dst world).2 ∧
      appTable (capmanMgivecap delivering appPid 0x20 dst world).2 =
        setAt (appTable world) dst cap := by
  let kernelCall := KernelCall.mgivecap 7 appPid 0x20 dst
  have ok : (world.call delivering kernelCall).1 = delivering.captyNone :=
    rfl
  have result :
      (S3kMonitor.capmanMgivecap delivering appPid 0x20 dst world).2 =
        (world.call delivering kernelCall).2.setCap 0x20 .none :=
    holds.capmanMgivecap_eq notMonitor dst
  have table (pid slot : Nat) :
      (world.call delivering kernelCall).2.kernel.table pid slot =
        if pid = appPid ∧ slot = dst then cap
        else if pid = monitorPid ∧ slot = 0x20 then .none
        else world.kernel.table pid slot := by
    rw [World.call_kernel_of_ok ok]
    simp only [kernelCall, KernelCall.effect, Kernel.move_table]
    rw [holds.table 0x20, if_pos rfl]
  have table_monitor (slot : Nat) :
      (world.call delivering kernelCall).2.kernel.table monitorPid slot =
        if slot = 0x20 then .none
        else world.kernel.table monitorPid slot := by
    simp [table, appPid_ne_monitorPid.symm]
  rw [result]
  refine ⟨⟨fun slot inRange => ?_, fun slot => ?_⟩, ?_⟩
  · rw [World.getcap, World.setCap_kernel, World.setCap_caps,
      World.call_caps, table_monitor, holds.mirrored slot inRange,
      World.getcap]
  · rw [World.setCap_kernel, table_monitor, holds.table slot]
    by_cases isHandover : slot = 0x20
    · rw [if_pos isHandover, if_pos isHandover]
    · rw [if_neg isHandover, if_neg isHandover, if_neg isHandover]
  · funext slot
    simp [appTable, table, appPid_ne_monitorPid]

/-- The capability for a grant is one for memory. -/
theorem PmpGrant.delivered_type (grant : PmpGrant) :
    grant.delivered.type ≠ .monitor := by
  rw [PmpGrant.delivered]
  split
  · simp [Cap.type]
  · simp [Cap.type]

variable {state : AppSetup}

/--
A turn leaves the slots as they were, and the grant in the next slot of the
app.
-/
theorem Holds.handOut
    (holds : Holds .none state.world)
    (grant : PmpGrant) :
    Holds .none (handOut delivering state grant).world ∧
      appTable (handOut delivering state grant).world =
        setAt (appTable state.world) state.npmp.toNat grant.delivered := by
  obtain ⟨derived, sameApp⟩ := holds.capmanDerivePmp grant
  obtain ⟨given, appGets⟩ :=
    derived.capmanMgivecap grant.delivered_type state.npmp.toNat
  rw [sameApp] at appGets
  exact ⟨given, appGets⟩

/-- Every grant of a list reaches a slot of its own. -/
theorem Holds.foldl_handOut
    (holds : Holds .none state.world)
    (list : List PmpGrant)
    (room : state.npmp.toNat + list.length < 256) :
    let final := list.foldl (S3kMonitor.handOut delivering) state
    Holds .none final.world ∧
      final.npmp.toNat = state.npmp.toNat + list.length ∧
      (∀ slot, slot < state.npmp.toNat →
        appTable final.world slot = appTable state.world slot) ∧
      ∀ grant ∈ list, ∃ slot,
        slot < final.npmp.toNat ∧
          appTable final.world slot = grant.delivered := by
  induction list generalizing state with
  | nil =>
      exact ⟨holds, rfl, fun _ _ => rfl, by simp⟩
  | cons grant list inductionHypothesis =>
      rw [List.length_cons] at room
      obtain ⟨nextHolds, appGets⟩ := holds.handOut grant
      have next :
          (S3kMonitor.handOut delivering state grant).npmp.toNat =
            state.npmp.toNat + 1 := by
        rw [S3kMonitor.handOut, BitVec.toNat_add]
        exact Nat.mod_eq_of_lt (lt_of_le_of_lt (Nat.add_le_add_left le_rfl _)
          (by omega : state.npmp.toNat + 1 < 256))
      obtain ⟨finalHolds, count, kept, delivered⟩ :=
        inductionHypothesis nextHolds (by omega)
      rw [next] at count kept
      refine ⟨finalHolds, by rw [List.foldl_cons, count]; simp; omega,
        fun slot below => ?_, fun other member => ?_⟩
      · have untouched := kept slot (by omega)
        rw [appGets, setAt_apply, if_neg (by omega)] at untouched
        exact untouched
      · rcases List.mem_cons.mp member with rfl | later
        · refine ⟨state.npmp.toNat, by rw [List.foldl_cons, count]; omega, ?_⟩
          have first := kept state.npmp.toNat (by omega)
          rw [appGets, setAt_apply, if_pos rfl] at first
          exact first
        · exact delivered other later

end Steps

section Start

/-- A call that is no delivery fails. -/
theorem call_not_delivery
    {kernelCall : KernelCall}
    (refused : isDelivery kernelCall = false)
    (world : World) :
    (world.call delivering kernelCall).1 ≠ delivering.excptNone := by
  simp [World.call_fst, delivering, S3k.generous, refused]

/-- Whatever is no delivery changes no capability. -/
theorem Makes.delivering_kernel
    {allowed : KernelCall → Prop}
    {first second : World}
    (makes : Makes delivering allowed first second)
    (refused :
      ∀ kernelCall, allowed kernelCall → isDelivery kernelCall = false) :
    second.kernel = first.kernel := by
  refine Runs.Within.invariant (fun world => world.kernel = first.kernel)
    ?_ makes rfl
  rintro action world next isAllowed rfl same
  cases action with
  | call kernelCall =>
      rw [World.act, World.call_kernel_of_failed
        (call_not_delivery (refused kernelCall isAllowed) world)]
      exact same
  | assign slot cap =>
      exact same

/-- Nothing that comes before the deliveries changes what the monitor has. -/
theorem Holds.of_quiet
    {cap : Cap}
    {allowed : KernelCall → Prop}
    {first second : World}
    (holds : Holds cap first)
    (makes : Makes delivering allowed first second)
    (refused :
      ∀ kernelCall, allowed kernelCall → isDelivery kernelCall = false)
    (mirrored : Mirrored second) :
    Holds cap second :=
  ⟨mirrored, fun slot => by
    rw [makes.delivering_kernel refused]
    exact holds.table slot⟩

/-- Up to the copy the slots are these. -/
theorem prepare_holds (mem : Memory) :
    Holds .none (prepare delivering deliveryKernel mem) := by
  have deletion (idx : Nat) (world : World) :
      (world.call delivering (.delcap idx)).2.kernel = world.kernel :=
    World.call_kernel_of_failed (call_not_delivery rfl world)
  have init
      {world : World}
      (same : world.kernel = deliveryKernel) :
      Holds .none (capmanInit world) := by
    refine ⟨mirrored_capmanInit world, fun slot => ?_⟩
    rw [capmanInit, capmanUpdate_kernel, same]
    split
    · next isHandover =>
      rw [isHandover]
      decide
    · rfl
  have derivation
      {world : World}
      (holds : Holds .none world)
      {idx : Nat}
      (apart : idx ≠ 0x20)
      (start stop : Word) :
      Holds .none (S3kMonitor.capmanDerivePmp delivering idx start stop s3kRw
        world).2 := by
    refine holds.of_quiet (capmanDerivePmp_makes world idx start stop s3kRw) ?_
      (capmanDerivePmp_mirrored holds.mirrored idx start stop s3kRw)
    rintro _ ⟨-, orig, rfl⟩
    simp [isDelivery, apart]
  have register
      {world : World}
      (holds : Holds .none world)
      (pmp : Vector Byte 8) :
      Holds .none (capmanSetpmp delivering pmp world) :=
    holds.of_quiet (Makes.call rfl world) (fun _ same => by rw [← same]; rfl)
      (holds.mirrored.call_failed (call_not_delivery rfl world))
  have timeSlices
      {world : World}
      (holds : Holds .none world) :
      Holds .none (setupTimeSlices delivering world) := by
    refine holds.of_quiet (capmanDeriveTime_makes world 0x18 0 0 32) ?_
      (capmanDeriveTime_mirrored holds.mirrored 0x18 0 0 32)
    rintro _ ⟨orig, rfl⟩
    rfl
  exact timeSlices (register (register (derivation (derivation
    (init (((deletion 6 _).trans (deletion 5 _)).trans (deletion 4 _)))
    (by decide) _ _) (by decide) _ _) _) _)

end Start

section Delivered

variable
  {world : World}
  {grant : PmpGrant}

/-- Entering `setup_app` changes none of them. -/
theorem Holds.enterSetupApp
    (holds : Holds .none world) :
    Holds .none (enterSetupApp world).world :=
  ⟨holds.mirrored, holds.table⟩

/-- Neither does the copy. -/
theorem Holds.loadApp
    (holds : Holds .none world)
    (image : AppBin) :
    Holds .none (loadApp image world) :=
  ⟨holds.mirrored, holds.table⟩

/-- Every grant of a section reaches the app. -/
theorem Holds.setupSections
    (holds : Holds .none world)
    {sections : List MemorySection}
    (atMost : sections.length ≤ 8) :
    let loop :=
      setupSections delivering 3 sections (S3kMonitor.enterSetupApp world)
    Holds .none loop.1.world ∧
      loop.1.npmp.toNat < 255 ∧
      ∀ grant ∈ reachedGrants sections, ∃ slot,
        slot < loop.1.npmp.toNat ∧
          appTable loop.1.world slot = grant.delivered := by
  obtain ⟨reached, -, count⟩ := sectionsGrants_three sections
  have start :
      (S3kMonitor.enterSetupApp world).npmp.toNat = 0 :=
    rfl
  obtain ⟨final, npmp, -, delivered⟩ :=
    holds.enterSetupApp.foldl_handOut (sectionsGrants 3 sections).1
      (by rw [start]; omega)
  rw [start] at npmp
  rw [setupSections_eq]
  exact ⟨final, npmp.trans_lt (by omega),
    fun grant member => delivered grant (reached grant member)⟩

/-- What follows the last delivery leaves the slots of the app alone. -/
theorem finishApp_appTable
    {state : AppSetup}
    (slot : Nat) :
    appTable (finishApp delivering state) slot =
      appTable (handOut delivering state uartGrant).world slot := by
  have time (next : World) :
      (capmanMgivecap delivering appPid 0x18 0xF next).2.kernel =
        next.kernel := by
    apply (capmanMgivecap_makes next appPid 0x18 0xF).delivering_kernel
    rintro _ ⟨moncap, rfl⟩
    rfl
  have register (reg : Reg) (val : Word) (next : World) :
      (capmanMsetreg delivering appPid reg val next).2.kernel =
        next.kernel := by
    apply (capmanMsetreg_makes next appPid reg val).delivering_kernel
    rintro _ ⟨moncap, rfl⟩
    rfl
  rw [finishApp, appTable, register, register, time]
  rfl

/-- So does the grant for the UART, if the loop comes to an end. -/
theorem Holds.setupApp
    (holds : Holds .none world)
    {app : Process}
    (atMost : app.headerLen ≤ 8)
    (isGrant : AppGrant app.sections grant) :
    ∃ slot,
      appTable (setupApp delivering 3 app world).1 slot =
        grant.delivered := by
  have few : app.sections.length ≤ 8 := by
    rw [Process.sections, List.length_map, List.length_range]
    exact atMost
  obtain ⟨final, room, delivered⟩ := holds.setupSections few
  have ends := (sectionsGrants_three app.sections).2.1
  have endsEq :=
    congrArg Prod.snd
      (setupSections_eq delivering 3 app.sections
        (S3kMonitor.enterSetupApp world))
  dsimp only at endsEq
  rw [S3kMonitor.setupApp]
  generalize S3kMonitor.setupSections delivering 3 app.sections
    (S3kMonitor.enterSetupApp world) = loop at *
  obtain ⟨-, appGets⟩ := final.handOut uartGrant
  by_cases isDone : loop.2
  · simp only [if_pos isDone, finishApp_appTable, appGets]
    rcases isGrant with reached | ⟨rfl, -⟩
    · obtain ⟨slot, below, isDelivered⟩ := delivered grant reached
      refine ⟨slot, ?_⟩
      rw [setAt_apply, if_neg (by omega)]
      exact isDelivered
    · exact ⟨loop.1.npmp.toNat, by rw [setAt_apply, if_pos rfl]⟩
  · simp only [if_neg isDone]
    rcases isGrant with reached | ⟨-, noneEndless⟩
    · obtain ⟨slot, -, isDelivered⟩ := delivered grant reached
      exact ⟨slot, isDelivered⟩
    · exact absurd (endsEq.trans (ends noneEndless)) isDone

variable
  {stack : Process}
  {image : AppBin}
  (mem : Memory)

/-- So they are the same before `setup_app`. -/
theorem beforeSetupApp_holds :
    Holds .none (beforeSetupApp delivering image deliveryKernel mem) :=
  (prepare_holds mem).loadApp image

/-- Every grant that the loops reach is in some slot of the app. -/
theorem afterSections_delivers
    (member : grant ∈ reachedGrants (imageSections stack image)) :
    ∃ slot,
      (afterSections delivering 3 stack image deliveryKernel
        mem).kernel.table appPid slot = grant.delivered := by
  have atMost : (imageSections stack image).length ≤ 8 := by
    rw [imageSections, Process.sections, List.length_map, List.length_range]
    exact parseExecutable_headerLen_le _ _ _
  obtain ⟨-, -, delivered⟩ :=
    (beforeSetupApp_holds mem).setupSections atMost
  obtain ⟨slot, -, isDelivered⟩ := delivered grant member
  rw [afterSections]
  exact ⟨slot, isDelivered⟩

/-- So is every grant of the app. -/
theorem afterSetupApp_delivers
    (isGrant : AppGrant (imageSections stack image) grant) :
    ∃ slot,
      (afterSetupApp delivering 3 stack image deliveryKernel
        mem).kernel.table appPid slot = grant.delivered := by
  rw [imageSections] at isGrant
  rw [afterSetupApp]
  exact (beforeSetupApp_holds mem).setupApp
    (parseExecutable_headerLen_le _ _ _) isGrant

end Delivered

end S3kMonitor
