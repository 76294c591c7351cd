import S3kMonitor.Authentication
import S3kMonitor.WriteXorExecute

namespace S3kMonitor

/-!
# The capabilities that the app starts with

Whatever the kernel refuses during `setup`, a PMP capability that the app
holds afterwards is one that `setup_app` derived for a grant.  The invariant
also speaks about the two slots from which the app is given something.
-/

/-- The sections that `setup` finds in the header of an image. -/
def imageSections (stack : Process) (image : AppBin) : List MemorySection :=
  (parseExecutable stack (BitVec.ofNat 8 appPid) image.get).sections

/-- Before the start the app has no PMP capability, nor do the two slots. -/
structure Booted (kernel : Kernel) : Prop where
  app : ∀ slot, (kernel.table appPid slot).type ≠ .pmp
  handover :
    ∀ slot, slot = 0x18 ∨ slot = 0x20 →
      (kernel.table monitorPid slot).type ≠ .pmp

/-- If this is a PMP capability, then one that was derived for a grant. -/
def FromGrant (grants : PmpGrant → Prop) (cap : Cap) : Prop :=
  ∀ addr cfg, cap = .pmp addr cfg →
    ∃ grant, grants grant ∧
      Replaces grant.start grant.stop grant.rwx addr cfg

/-- What the app holds, or may be given next, comes from the grants. -/
structure HandedOut (grants : PmpGrant → Prop) (kernel : Kernel) :
    Prop where
  app : ∀ slot, FromGrant grants (kernel.table appPid slot)
  handover :
    ∀ slot, slot = 0x18 ∨ slot = 0x20 →
      FromGrant grants (kernel.table monitorPid slot)

section Invariant

variable
  {s3k : S3k}
  {grants wider : PmpGrant → Prop}
  {kernel : Kernel}
  {kernelCall : KernelCall}

/-- Only PMP capabilities have to come from a grant. -/
theorem FromGrant.of_type_ne
    {cap : Cap}
    (notPmp : cap.type ≠ .pmp) :
    FromGrant grants cap := by
  rintro addr cfg rfl
  exact absurd rfl notPmp

/-- The capability that is derived for a grant comes from it. -/
theorem FromGrant.pmp
    {grant : PmpGrant}
    (isGrant : grants grant)
    (isNapot : Napot grant.start grant.stop) :
    FromGrant grants
      (s3k.pmp (s3kPmpNapotAddr grant.start grant.stop) grant.rwx) := by
  intro addr cfg same
  obtain ⟨_, derived, rights⟩ :=
    s3k.pmp_eq (s3kPmpNapotAddr grant.start grant.stop) grant.rwx
  rw [derived] at same
  cases same
  exact ⟨grant, isGrant, isNapot, rfl, rights⟩

/-- A derivation does not make the parent a PMP capability. -/
theorem FromGrant.derived
    {parent : Cap}
    (fromGrant : FromGrant grants parent)
    (child : Cap) :
    FromGrant grants (s3k.derived parent child) :=
  fun addr cfg same =>
    fromGrant addr cfg (s3k.derived_pmp parent child addr cfg same)

/-- More grants allow what fewer allow. -/
theorem HandedOut.mono
    (weaker : ∀ grant, grants grant → wider grant)
    (handedOut : HandedOut grants kernel) :
    HandedOut wider kernel := by
  have widen
      {cap : Cap}
      (fromGrant : FromGrant grants cap) :
      FromGrant wider cap := by
    intro addr cfg same
    obtain ⟨grant, isGrant, replaces⟩ := fromGrant addr cfg same
    exact ⟨grant, weaker grant isGrant, replaces⟩
  exact ⟨fun slot => widen (handedOut.app slot),
    fun slot isHandover => widen (handedOut.handover slot isHandover)⟩

/-- After the boot nothing has been handed out. -/
theorem Booted.handedOut
    (booted : Booted kernel) :
    HandedOut grants kernel :=
  ⟨fun slot => .of_type_ne (booted.app slot),
    fun slot isHandover => .of_type_ne (booted.handover slot isHandover)⟩

/-- A slot of the monitor changes, to something that may be handed out. -/
theorem HandedOut.set
    (handedOut : HandedOut grants kernel)
    {idx : Nat}
    {cap : Cap}
    (fromGrant : idx = 0x18 ∨ idx = 0x20 → FromGrant grants cap) :
    HandedOut grants (kernel.set monitorPid idx cap) := by
  constructor
  · intro slot
    rw [Kernel.set_table, if_neg (by simp [appPid, monitorPid])]
    exact handedOut.app slot
  · intro slot isHandover
    rw [Kernel.set_table]
    by_cases isIdx : slot = idx
    · subst isIdx
      rw [if_pos ⟨rfl, rfl⟩]
      exact fromGrant isHandover
    · rw [if_neg fun same => isIdx same.2]
      exact handedOut.handover slot isHandover

/-- A derivation into a slot of the hand-over has to come from a grant. -/
theorem HandedOut.derive
    (handedOut : HandedOut grants kernel)
    (orig : Nat)
    {idx : Nat}
    {cap : Cap}
    (fromGrant : idx = 0x18 ∨ idx = 0x20 → FromGrant grants cap) :
    HandedOut grants
      ((KernelCall.drvcap orig idx cap).effect s3k.derived kernel) := by
  have parent :
      HandedOut grants
        (kernel.set monitorPid orig
          (s3k.derived (kernel.table monitorPid orig) cap)) :=
    handedOut.set fun isHandover =>
      (handedOut.handover orig isHandover).derived cap
  exact parent.set fromGrant

/-- A slot of the two is given to the app. -/
theorem HandedOut.give
    (handedOut : HandedOut grants kernel)
    {src : Nat}
    (isHandover : src = 0x18 ∨ src = 0x20)
    (dst : Nat) :
    HandedOut grants (kernel.move monitorPid src appPid dst) := by
  constructor
  · intro slot
    rw [Kernel.move_table]
    by_cases isDst : slot = dst
    · rw [if_pos ⟨rfl, isDst⟩]
      exact handedOut.handover src isHandover
    · rw [if_neg fun same => isDst same.2,
        if_neg (by simp [appPid, monitorPid])]
      exact handedOut.app slot
  · intro slot slotIsHandover
    rw [Kernel.move_table, if_neg (by simp [appPid, monitorPid])]
    by_cases isSrc : slot = src
    · rw [if_pos ⟨rfl, isSrc⟩]
      exact .of_type_ne (by decide)
    · rw [if_neg fun same => isSrc same.2]
      exact handedOut.handover slot slotIsHandover

/-- Every call of `setup` keeps to the grants. -/
theorem SetupCall.handedOut
    (isSetup : SetupCall s3k grants kernelCall)
    (handedOut : HandedOut grants kernel) :
    HandedOut grants (kernelCall.effect s3k.derived kernel) := by
  cases isSetup with
  | delcap idx =>
      exact handedOut.set fun _ => .of_type_ne (by decide)
  | setreg reg val =>
      exact ⟨handedOut.app, handedOut.handover⟩
  | msetreg moncap pid reg val =>
      exact ⟨handedOut.app, handedOut.handover⟩
  | deriveOwn orig idx cap apart =>
      refine handedOut.derive orig fun isHandover => ?_
      rcases isHandover with isTime | isPmp
      · exact absurd isTime apart.1
      · exact absurd isPmp apart.2.1
  | deriveOther orig idx cap notPmp =>
      exact handedOut.derive orig fun _ => .of_type_ne notPmp
  | deriveGrant orig grant isGrant isNapot =>
      exact handedOut.derive orig fun _ => .pmp isGrant isNapot
  | give moncap src dst isHandover =>
      exact handedOut.give isHandover dst

/-- Resuming the app and waiting for it moves no capability. -/
theorem ResumeCall.handedOut
    (isResume : ResumeCall kernelCall)
    (handedOut : HandedOut grants kernel) :
    HandedOut grants (kernelCall.effect s3k.derived kernel) := by
  rcases isResume with ⟨moncap, rfl⟩ | ⟨sock, words, rfl⟩
  · exact handedOut
  · have noSlot :
        ¬ (0 < ncap ∧ 2 ^ 64 - 1 < ncap ∧
          kernel.table appPid 0 ≠ .none) := by
      rintro ⟨-, inRange, -⟩
      exact absurd inRange (by decide)
    rw [KernelCall.effect, Kernel.transfer, if_neg noSlot]
    exact handedOut

/-- The calls of `setup` hand out what they may and nothing else. -/
theorem Makes.handedOut
    {first second : World}
    (makes : Makes s3k (SetupCall s3k grants) first second)
    (handedOut : HandedOut grants first.kernel) :
    HandedOut grants second.kernel :=
  makes.kernel_invariant (HandedOut grants)
    (fun _ _ isSetup holds => isSetup.handedOut holds) handedOut

end Invariant

section Phases

/-- The copy of the binary changes no capability. -/
theorem loadApp_kernel (image : AppBin) (world : World) :
    (loadApp image world).kernel = world.kernel :=
  rfl

variable
  {s3k : S3k}
  {world : World}

/-- The loops of `setup_app` hand out the grants they reach. -/
theorem setupSections_handedOut
    (fuel : Nat)
    (sections : List MemorySection)
    (handedOut : HandedOut (· ∈ reachedGrants sections) world.kernel) :
    HandedOut (· ∈ reachedGrants sections)
      (setupSections s3k fuel sections (enterSetupApp world)).1.world.kernel :=
    by
  have made :
      Makes s3k (SetupCall s3k (· ∈ reachedGrants sections))
        (enterSetupApp world).world
        ((sectionsGrants fuel sections).1.foldl (handOut s3k)
          (enterSetupApp world)).world :=
    (foldl_handOut_makes _ (enterSetupApp world)).mono_grants
      sectionsGrants_reached.1
  rw [setupSections_eq]
  exact made.handedOut handedOut

/-- `setup_app` as a whole hands out these and the one for the UART. -/
theorem setupApp_handedOut
    (fuel : Nat)
    (app : Process)
    (handedOut : HandedOut (AppGrant app.sections) world.kernel) :
    HandedOut (AppGrant app.sections)
      (setupApp s3k fuel app world).1.kernel :=
  (setupApp_makes world fuel app).handedOut handedOut

/-- Behind the signature: load, set up, and start if the loops have ended. -/
theorem afterAuthentication_eq
    (fuel : Nat)
    (stack : Process)
    (image : AppBin)
    (hello : Words) :
    afterAuthentication s3k fuel stack image hello world =
      let app := parseExecutable stack (BitVec.ofNat 8 appPid) image.get
      if (setupApp s3k fuel app (loadApp image world)).2 then
        startApp s3k hello (setupApp s3k fuel app (loadApp image world)).1
      else
        (.diverged,
          atStart (setupApp s3k fuel app (loadApp image world)).1) :=
  rfl

/-- What each phase behind the authentication preserves, all of it does. -/
theorem afterAuthentication_invariant
    (fuel : Nat)
    (stack : Process)
    (image : AppBin)
    (hello : Words)
    {invariant : World → Prop}
    (loads : ∀ world, invariant world → invariant (loadApp image world))
    (enters :
      ∀ world, invariant world → invariant (enterSetupApp world).world)
    (calls :
      ∀ first second,
        Makes s3k (SetupCall s3k (AppGrant (imageSections stack image))) first
          second →
        invariant first →
        invariant second)
    (resumes :
      ∀ first second,
        Makes s3k ResumeCall first second →
        invariant first →
        invariant second)
    (start : invariant world) :
    invariant
      (afterAuthentication s3k fuel stack image hello world).2.world := by
  rw [afterAuthentication_eq]
  rw [imageSections] at calls
  generalize parseExecutable stack (BitVec.ofNat 8 appPid) image.get = app
    at calls ⊢
  have ready : invariant (setupApp s3k fuel app (loadApp image world)).1 :=
    calls _ _ (setupApp_makes _ fuel app) (enters _ (loads _ start))
  by_cases ends : (setupApp s3k fuel app (loadApp image world)).2
  · obtain ⟨middle, ipc, resume⟩ :=
      @startApp_makes s3k (AppGrant app.sections)
        (setupApp s3k fuel app (loadApp image world)).1 hello
    simp only [if_pos ends]
    exact resumes _ _ resume (calls _ _ ipc ready)
  · simp only [if_neg ends]
    exact ready

/-- So this part hands out the grants of the image. -/
theorem afterAuthentication_handedOut
    (fuel : Nat)
    (stack : Process)
    (image : AppBin)
    (hello : Words)
    (handedOut :
      HandedOut (AppGrant (imageSections stack image)) world.kernel) :
    HandedOut (AppGrant (imageSections stack image))
      (afterAuthentication s3k fuel stack image hello
        world).2.world.kernel :=
  @afterAuthentication_invariant s3k world fuel stack image hello
    (fun world =>
      HandedOut (AppGrant (imageSections stack image)) world.kernel)
    (fun _ holds => holds)
    (fun _ holds => holds)
    (fun _ _ makes holds => makes.handedOut holds)
    (fun _ _ makes holds =>
      makes.kernel_invariant _
        (fun _ _ isResume kept => isResume.handedOut kept) holds)
    handedOut

end Phases

section Setup

variable
  (s3k : S3k)
  (fuel : Nat)
  (stack : Process)
  (image : AppBin)
  (hello : Words)
  (kernel : Kernel)
  (mem : Memory)

/-- The state in which `setup` comes to `setup_app`. -/
def beforeSetupApp : World :=
  loadApp image (prepare s3k kernel mem)

/-- The state after the loop of `setup_app` over the sections. -/
def afterSections : World :=
  (setupSections s3k fuel (imageSections stack image)
    (enterSetupApp (beforeSetupApp s3k image kernel mem))).1.world

/-- The state after `setup_app`. -/
def afterSetupApp : World :=
  (setupApp s3k fuel
    (parseExecutable stack (BitVec.ofNat 8 appPid) image.get)
    (beforeSetupApp s3k image kernel mem)).1

variable
  {kernel}
  (booted : Booted kernel)
include booted

/-- Nothing is handed out up to the copy. -/
theorem prepare_handedOut (grants : PmpGrant → Prop) :
    HandedOut grants (prepare s3k kernel mem).kernel := by
  have made : Makes s3k (SetupCall s3k grants) (bootWorld kernel mem)
      (prepare s3k kernel mem) :=
    prepare_makes kernel mem
  exact made.handedOut booted.handedOut

/-- Neither is anything by the copy. -/
theorem beforeSetupApp_handedOut (grants : PmpGrant → Prop) :
    HandedOut grants (beforeSetupApp s3k image kernel mem).kernel := by
  rw [beforeSetupApp, loadApp_kernel]
  exact prepare_handedOut s3k mem booted grants

/-- All that the loops have handed out are grants of the image. -/
theorem afterSections_handedOut :
    HandedOut (· ∈ reachedGrants (imageSections stack image))
      (afterSections s3k fuel stack image kernel mem).kernel := by
  rw [afterSections]
  exact setupSections_handedOut fuel _
    (beforeSetupApp_handedOut s3k image mem booted _)

/-- All that `setup_app` has handed out are grants of the app. -/
theorem afterSetupApp_handedOut :
    HandedOut (AppGrant (imageSections stack image))
      (afterSetupApp s3k fuel stack image kernel mem).kernel := by
  rw [afterSetupApp, imageSections]
  exact setupApp_handedOut fuel _
    (beforeSetupApp_handedOut s3k image mem booted _)

/-- All that `setup` has handed out are grants of the app. -/
theorem setup_handedOut
    (accepts : Accepts image) :
    HandedOut (AppGrant (imageSections stack image))
      (setup s3k fuel stack image hello kernel mem).2.world.kernel := by
  rw [setup_of_accepts s3k fuel stack hello kernel mem accepts]
  exact afterAuthentication_handedOut fuel stack image hello
    (prepare_handedOut s3k mem booted _)

end Setup

end S3kMonitor
