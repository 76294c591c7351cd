import S3kMonitor.CodeIntegrity
import S3kMonitor.FormattedImages
import S3kMonitor.FullRights

namespace S3kMonitor

open Runs Holdings

/-!
# From the boot of the monitor to the running app

If the sections of the header lie apart and none asks for both `W` and `X`,
then the app starts with write xor execute, and all that is known of the
interleavings of app and monitor holds from the boot on.
-/

/-- The regions that can be derived lie apart, and none has `W` and `X`. -/
structure Separate (grants : List PmpGrant) : Prop where
  apart :
    grants.Pairwise fun first second =>
      Napot first.start first.stop →
      Napot second.start second.stop →
      Disjoint (region first.start first.stop)
        (region second.start second.stop)
  notBoth :
    ∀ grant ∈ grants, ¬ (grant.rwx &&& 0x2 ≠ 0 ∧ grant.rwx &&& 0x4 ≠ 0)

/-- The slots through which a PMP capability can reach the app. -/
inductive SetupPlace where
  | time
  | handover
  | app (slot : Nat)
deriving DecidableEq

namespace SetupPlace

/-- The process in whose table the slot lies. -/
def pid : SetupPlace → Nat
  | .time => monitorPid
  | .handover => monitorPid
  | .app _ => appPid

/-- The slot in that table. -/
def slot : SetupPlace → Nat
  | .time => 0x18
  | .handover => 0x20
  | .app slot => slot

/-- Different places lie at different slots. -/
theorem same_place_iff (first second : SetupPlace) :
    first.pid = second.pid ∧ first.slot = second.slot ↔ first = second := by
  cases first <;> cases second <;> simp [pid, slot, monitorPid, appPid]

end SetupPlace

/-- What each of these slots grants. -/
def placed (kernel : Kernel) (place : SetupPlace) :
    Option (Grant Word Word) :=
  (kernel.table place.pid place.slot).grant

/-- The region of a grant from a list. -/
def Covers (grants : List PmpGrant) (held : Grant Word Word) : Prop :=
  ∃ grant ∈ grants,
    Napot grant.start grant.stop ∧
      held.area = region grant.start grant.stop

/-- All regions come from the grants so far, and no two overlap. -/
structure Placed (grants : List PmpGrant) (kernel : Kernel) : Prop where
  sound : Sound NotBoth (placed kernel)
  covered :
    ∀ place held, placed kernel place = some held → Covers grants held

section Slots

variable
  (kernel : Kernel)
  (cap : Cap)

/-- A slot that is written changes one grant. -/
theorem placed_set (place : SetupPlace) :
    placed (kernel.set place.pid place.slot cap) =
      Function.update (placed kernel) place cap.grant := by
  funext other
  simp only [placed, Kernel.set_table, SetupPlace.same_place_iff]
  by_cases isPlace : other = place
  · subst isPlace
    simp
  · simp [isPlace, placed]

/-- A move between two places hands the grant over. -/
theorem placed_move (src dst : SetupPlace) :
    placed (kernel.move src.pid src.slot dst.pid dst.slot) =
      handOver (placed kernel) src dst := by
  rw [Kernel.move, placed_set, placed_set]
  rfl

/-- If a slot of the monitor grants no more than before, no place does. -/
theorem placed_of_set
    {idx : Nat}
    (fewer :
      ∀ held, cap.grant = some held →
        (kernel.table monitorPid idx).grant = some held)
    {place : SetupPlace}
    {held : Grant Word Word}
    (holds : placed (kernel.set monitorPid idx cap) place = some held) :
    placed kernel place = some held := by
  simp only [placed, Kernel.set_table] at holds ⊢
  split at holds
  · next isSlot =>
    rw [isSlot.1, isSlot.2]
    exact fewer held holds
  · exact holds

/-- What a derivation leaves of its parent grants nothing new. -/
theorem placed_of_derived
    (s3k : S3k)
    (orig : Nat)
    {place : SetupPlace}
    {held : Grant Word Word}
    (holds :
      placed
          (kernel.set monitorPid orig
            (s3k.derived (kernel.table monitorPid orig) cap)) place =
        some held) :
    placed kernel place = some held := by
  refine placed_of_set kernel _ (fun old oldHolds => ?_) holds
  obtain ⟨addr, cfg, isPmp, area, rights⟩ :=
    (Cap.grant_eq_some_iff _ _).mp oldHolds
  exact (Cap.grant_eq_some_iff _ _).mpr
    ⟨addr, cfg, s3k.derived_pmp _ _ _ _ isPmp, area, rights⟩

/-- What is given to the app comes from slot `0x18` or `0x20`. -/
theorem descends_give
    {src : Nat}
    (isHandover : src = 0x18 ∨ src = 0x20)
    (dst : Nat) :
    Descends (fun _ _ => False) (placed kernel)
      (placed (kernel.move monitorPid src appPid dst)) := by
  have given (place : SetupPlace) (apart : place ≠ .app dst) :
      Descends (fun _ _ => False) (placed kernel)
        (placed (kernel.move place.pid place.slot appPid dst)) := by
    have moved := placed_move kernel place (.app dst)
    rw [SetupPlace.pid, SetupPlace.slot] at moved
    rw [moved]
    exact descends_handOver apart
  rcases isHandover with rfl | rfl
  · exact given .time nofun
  · exact given .handover nofun

end Slots

section Calls

variable
  {s3k : S3k}
  {grants : List PmpGrant}
  {kernel : Kernel}
  {kernelCall : KernelCall}

/-- Only PMP capabilities grant anything. -/
theorem Cap.grant_of_type_ne
    {cap : Cap}
    (notPmp : cap.type ≠ .pmp) :
    cap.grant = Option.none := by
  cases cap with
  | pmp addr cfg => exact absurd rfl notPmp
  | _ => rfl

/-- A derivation that is not for the app. -/
theorem placed_of_derive
    {orig idx : Nat}
    {cap : Cap}
    (notForApp : idx ≠ 0x18 ∧ idx ≠ 0x20 ∨ cap.type ≠ .pmp)
    {place : SetupPlace}
    {held : Grant Word Word}
    (holds :
      placed ((KernelCall.drvcap orig idx cap).effect s3k.derived kernel)
          place =
        some held) :
    placed kernel place = some held := by
  apply placed_of_derived kernel cap s3k orig
  rcases notForApp with ⟨notTime, notHandover⟩ | notPmp
  · have apart : ¬ (place.pid = monitorPid ∧ place.slot = idx) := by
      cases place with
      | time => exact fun same => notTime same.2.symm
      | handover => exact fun same => notHandover same.2.symm
      | app slot => exact fun same => appPid_ne_monitorPid same.1
    simpa only [placed, KernelCall.effect, Kernel.set_table, if_neg apart]
      using holds
  · refine placed_of_set _ cap (fun old oldHolds => ?_) holds
    rw [Cap.grant_of_type_ne notPmp] at oldHolds
    cases oldHolds

/-- The calls of `setup` that derive nothing for the app add no grant. -/
theorem SetupCall.descends
    (isSetup : SetupCall s3k (fun _ => False) kernelCall) :
    Descends (fun _ _ => False) (placed kernel)
      (placed (kernelCall.effect s3k.derived kernel)) := by
  cases isSetup with
  | delcap idx =>
      exact .of_fewer fun _ _ => placed_of_set kernel .none nofun
  | setreg reg val =>
      exact Descends.refl
  | msetreg moncap pid reg val =>
      exact Descends.refl
  | deriveOwn orig idx cap apart =>
      exact .of_fewer fun _ _ => placed_of_derive (Or.inl ⟨apart.1, apart.2.1⟩)
  | deriveOther orig idx cap notPmp =>
      exact .of_fewer fun _ _ => placed_of_derive (Or.inr notPmp)
  | deriveGrant orig grant isGrant isNapot =>
      exact isGrant.elim
  | give moncap src dst isHandover =>
      exact descends_give kernel isHandover dst

/-- The calls that resume the app change no slot. -/
theorem ResumeCall.kernel_eq
    (isResume : ResumeCall kernelCall) :
    kernelCall.effect s3k.derived kernel = kernel := by
  rcases isResume with ⟨moncap, rfl⟩ | ⟨sock, words, rfl⟩
  · rfl
  · rw [KernelCall.effect, Kernel.transfer, if_neg]
    rintro ⟨-, inRange, -⟩
    exact absurd inRange (by decide)

/-- Calls that derive nothing keep the placed grants sound. -/
theorem Placed.descends
    {next : Kernel}
    (isPlaced : Placed grants kernel)
    (descends : Descends (fun _ _ => False) (placed kernel) (placed next)) :
    Placed grants next where
  sound :=
    descends.sound (fun _ _ impossible => impossible.elim)
      (fun _ _ impossible => impossible.elim) isPlaced.sound
  covered place held holds := by
    obtain ⟨origin, comesFrom, -⟩ := descends
    obtain ⟨old, oldHolds, rfl | impossible⟩ := comesFrom place held holds
    · exact isPlaced.covered _ _ oldHolds
    · exact impossible.elim

/-- So do several of them in turn. -/
theorem Placed.makes
    {first second : World}
    (isPlaced : Placed grants first.kernel)
    (makes : Makes s3k (SetupCall s3k fun _ => False) first second) :
    Placed grants second.kernel :=
  makes.kernel_invariant (Placed grants)
    (fun _ _ isSetup holds => holds.descends isSetup.descends) isPlaced

end Calls

section HandOut

variable
  {s3k : S3k}
  {grants : List PmpGrant}
  {grant : PmpGrant}

/-- The regions so far and, in slot `0x20` only, that of the next grant. -/
structure Deriving
    (grants : List PmpGrant)
    (grant : PmpGrant)
    (kernel : Kernel) :
    Prop where
  sound : Sound NotBoth (placed kernel)
  others :
    ∀ place held, place ≠ .handover → placed kernel place = some held →
      Covers grants held
  handover :
    ∀ held, placed kernel .handover = some held →
      Covers (grants ++ [grant]) held

/-- A longer list covers as much. -/
theorem Covers.append
    {held : Grant Word Word}
    (covers : Covers grants held)
    (grant : PmpGrant) :
    Covers (grants ++ [grant]) held := by
  obtain ⟨other, member, napot, area⟩ := covers
  exact ⟨other, List.mem_append_left _ member, napot, area⟩

/-- With the next grant counted, all places are covered. -/
theorem Deriving.placed
    {kernel : Kernel}
    (isDeriving : Deriving grants grant kernel) :
    Placed (grants ++ [grant]) kernel where
  sound := isDeriving.sound
  covered place held holds := by
    by_cases isHandover : place = .handover
    · subst isHandover
      exact isDeriving.handover held holds
    · exact (isDeriving.others place held isHandover holds).append grant

/-- A derivation for a grant puts its region and rights into slot `0x20`. -/
theorem placed_derive
    (napot : Napot grant.start grant.stop)
    (orig : Nat)
    (kernel : Kernel) :
    ∃ middle cfg,
      cfg &&& 7 = grant.rwx &&& 7 ∧
        (∀ place held,
          S3kMonitor.placed middle place = some held →
          S3kMonitor.placed kernel place = some held) ∧
        S3kMonitor.placed
            ((KernelCall.drvcap orig 0x20
                (s3k.pmp (s3kPmpNapotAddr grant.start grant.stop)
                  grant.rwx)).effect s3k.derived kernel) =
          Function.update (S3kMonitor.placed middle) .handover
            (some
              { area := region grant.start grant.stop
                rights := {right | cfg &&& right ≠ 0} }) := by
  obtain ⟨cfg, isPmp, rights⟩ :=
    s3k.pmp_eq (s3kPmpNapotAddr grant.start grant.stop) grant.rwx
  refine
    ⟨kernel.set monitorPid orig
        (s3k.derived (kernel.table monitorPid orig)
          (.pmp (s3kPmpNapotAddr grant.start grant.stop) cfg)),
      cfg, rights,
      fun _ _ holds => placed_of_derived kernel _ s3k orig holds, ?_⟩
  rw [isPmp, KernelCall.effect]
  have set :=
    placed_set
      (kernel.set monitorPid orig
        (s3k.derived (kernel.table monitorPid orig)
          (.pmp (s3kPmpNapotAddr grant.start grant.stop) cfg)))
      (.pmp (s3kPmpNapotAddr grant.start grant.stop) cfg) .handover
  rw [Cap.grant, ← napot.1, ← napot.2] at set
  exact set

/-- It keeps everything else apart from the new region. -/
theorem Deriving.derive
    {kernel : Kernel}
    (isDeriving : Deriving grants grant kernel)
    (notBoth : ¬ (grant.rwx &&& 0x2 ≠ 0 ∧ grant.rwx &&& 0x4 ≠ 0))
    (napot : Napot grant.start grant.stop)
    (apart :
      ∀ other ∈ grants, Napot other.start other.stop →
        Disjoint (region grant.start grant.stop)
          (region other.start other.stop))
    (orig : Nat) :
    Deriving grants grant
      ((KernelCall.drvcap orig 0x20
          (s3k.pmp (s3kPmpNapotAddr grant.start grant.stop) grant.rwx)).effect
        s3k.derived kernel) := by
  obtain ⟨middle, cfg, rights, fewer, updated⟩ :=
    @placed_derive s3k grant napot orig kernel
  constructor
  · rw [updated]
    have fewerSound : Sound NotBoth (S3kMonitor.placed middle) :=
      isDeriving.sound.comap id fewer fun _ _ _ _ _ _ same => same
    refine fewerSound.install ?_ fun place held notHandover holds => ?_
    · rintro ⟨hasW, hasX⟩
      refine notBoth ⟨?_, ?_⟩
      · rw [← rights_of_low_bits rights (by decide)]
        exact hasW
      · rw [← rights_of_low_bits rights (by decide)]
        exact hasX
    · obtain ⟨other, member, otherNapot, area⟩ :=
        isDeriving.others place held notHandover (fewer place held holds)
      rw [area]
      exact apart other member otherNapot
  · intro place held notHandover holds
    rw [updated, Function.update_of_ne notHandover] at holds
    exact isDeriving.others place held notHandover (fewer place held holds)
  · intro held holds
    rw [updated, Function.update_self] at holds
    cases holds
    exact ⟨grant, List.mem_append_right _ (List.mem_singleton.mpr rfl), napot,
      rfl⟩

/-- A turn adds the region of its grant. -/
theorem handOut_placed
    {state : AppSetup}
    (isPlaced : Placed grants state.world.kernel)
    (notBoth : ¬ (grant.rwx &&& 0x2 ≠ 0 ∧ grant.rwx &&& 0x4 ≠ 0))
    (apart :
      ∀ other ∈ grants,
        Napot other.start other.stop →
        Napot grant.start grant.stop →
        Disjoint (region other.start other.stop)
          (region grant.start grant.stop)) :
    Placed (grants ++ [grant]) (handOut s3k state grant).world.kernel := by
  have start : Deriving grants grant state.world.kernel :=
    ⟨isPlaced.sound, fun place held _ holds => isPlaced.covered place held holds,
      fun held holds => (isPlaced.covered _ held holds).append grant⟩
  have derived :
      Deriving grants grant
        (capmanDerivePmp s3k 0x20 grant.start grant.stop grant.rwx
          state.world).2.kernel := by
    refine (capmanDerivePmp_makes state.world 0x20 grant.start grant.stop
      grant.rwx).kernel_invariant (Deriving grants grant) ?_ start
    rintro _ kernel ⟨napot, orig, rfl⟩ isDeriving
    exact isDeriving.derive notBoth napot
      (fun other member otherNapot =>
        (apart other member otherNapot napot).symm) orig
  refine (capmanMgivecap_makes _ appPid 0x20
    state.npmp.toNat).kernel_invariant (Placed (grants ++ [grant])) ?_
    derived.placed
  rintro _ kernel ⟨moncap, rfl⟩ holds
  exact holds.descends (descends_give kernel (Or.inr rfl) _)

/-- The loops of `setup_app` add the regions of all their grants. -/
theorem foldl_handOut_placed
    (list : List PmpGrant)
    {state : AppSetup}
    (isPlaced : Placed grants state.world.kernel)
    (separate : Separate (grants ++ list)) :
    Placed (grants ++ list) (list.foldl (handOut s3k) state).world.kernel := by
  induction list generalizing grants state with
  | nil =>
      rw [List.append_nil]
      exact isPlaced
  | cons grant list inductionHypothesis =>
      have shape : grants ++ grant :: list = grants ++ [grant] ++ list := by
        rw [List.append_assoc, List.singleton_append]
      have next :
          Placed (grants ++ [grant]) (handOut s3k state grant).world.kernel := by
        refine handOut_placed isPlaced
          (separate.notBoth grant (by simp)) fun other member => ?_
        exact (List.pairwise_append.mp separate.apart).2.2 other member grant
          List.mem_cons_self
      rw [shape] at separate ⊢
      exact inductionHypothesis next separate

end HandOut

section Grants

/-- A loop over the chunks that ends has handed out the first and the last. -/
theorem heapGrants_ended
    {memorySection : MemorySection}
    {fuel : Nat}
    (isHeap : memorySection.isHeap = true)
    (ends : (heapGrants memorySection fuel 0).2 = true) :
    (heapGrants memorySection fuel 0).1 = memorySection.grants := by
  rw [MemorySection.grants, if_pos isHeap]
  by_cases isZero : memorySection.nchunks = 0
  · rw [if_pos isZero]
    exact (heapGrants_few fuel).1 isZero
  · have notOne : memorySection.nchunks ≠ 1 :=
      fun isOne => heapGrants_ends ends ⟨isHeap, isOne⟩
    rw [heapGrants_many isZero notOne] at ends ⊢
    have enough : 3 ≤ fuel := of_decide_eq_true ends
    rw [if_neg isZero]
    exact List.take_of_length_le (by simp; omega)

/-- So if `setup_app` comes to an end, it has handed out what is reached. -/
theorem sectionsGrants_ended
    {fuel : Nat}
    {sections : List MemorySection}
    (ends : (sectionsGrants fuel sections).2 = true) :
    (sectionsGrants fuel sections).1 = reachedGrants sections := by
  induction sections with
  | nil =>
      rfl
  | cons memorySection rest inductionHypothesis =>
      have notEndless :=
        sectionsGrants_reached.2 ends memorySection List.mem_cons_self
      rw [reachedGrants, if_neg notEndless]
      rw [sectionsGrants] at ends ⊢
      by_cases isHeap : memorySection.isHeap
      · rw [if_pos isHeap] at ends ⊢
        dsimp only at ends ⊢
        by_cases heapEnds : (heapGrants memorySection fuel 0).2
        · rw [if_pos heapEnds] at ends ⊢
          rw [heapGrants_ended isHeap heapEnds, inductionHypothesis ends]
        · rw [if_neg heapEnds] at ends
          exact absurd ends heapEnds
      · rw [if_neg isHeap] at ends ⊢
        rw [MemorySection.grants, if_neg isHeap, inductionHypothesis ends]
        rfl

end Grants

section Setup

variable
  {s3k : S3k}
  {fuel : Nat}
  {stack : Process}
  {image : AppBin}
  {hello : Words}
  {kernel : Kernel}
  {mem : Memory}

/-- Everything that `setup` derives for the app when it comes to an end. -/
def appGrantList (stack : Process) (image : AppBin) : List PmpGrant :=
  reachedGrants (imageSections stack image) ++ [uartGrant]

/-- The memory once the binary has been copied to `APP_BASE`. -/
def loadedMem (image : AppBin) (mem : Memory) : Memory :=
  (loadApp image (bootWorld blankKernel mem)).mem

/-- The memory after the copy depends on the memory before it only. -/
theorem loadApp_mem (image : AppBin) (world : World) :
    (loadApp image world).mem = loadedMem image world.mem :=
  rfl

/-- What comes after the turn for the UART derives nothing. -/
theorem finishApp_rest_makes (state : AppSetup) :
    Makes s3k (SetupCall s3k fun _ => False)
      (handOut s3k state uartGrant).world (finishApp s3k state) := by
  have time (next : World) :
      Makes s3k (SetupCall s3k fun _ => False) next
        (capmanMgivecap s3k appPid 0x18 0xF next).2 := by
    apply (capmanMgivecap_makes next appPid 0x18 0xF).mono
    rintro _ ⟨moncap, rfl⟩
    exact .give _ _ _ (Or.inl rfl)
  have register (reg : Reg) (val : Word) (next : World) :
      Makes s3k (SetupCall s3k fun _ => False) next
        (capmanMsetreg s3k appPid reg val next).2 := by
    apply (capmanMsetreg_makes next appPid reg val).mono
    rintro _ ⟨moncap, rfl⟩
    exact .msetreg _ _ _ _
  exact ((time _).trans (register _ _ _)).trans (register _ _ _)

/-- Before the authentication no place grants anything. -/
theorem prepare_placed
    (booted : Booted kernel) :
    Placed [] (prepare s3k kernel mem).kernel := by
  have nothing (place : SetupPlace) : placed kernel place = none := by
    cases place with
    | time =>
        exact Cap.grant_of_type_ne (booted.handover 0x18 (Or.inl rfl))
    | handover =>
        exact Cap.grant_of_type_ne (booted.handover 0x20 (Or.inr rfl))
    | app slot =>
        exact Cap.grant_of_type_ne (booted.app slot)
  have boot : Placed [] (bootWorld kernel mem).kernel := by
    refine ⟨⟨fun first _ _ _ _ holds => ?_, fun place _ holds => ?_⟩,
      fun place _ holds => ?_⟩
    · cases (nothing first).symm.trans holds
    · cases (nothing place).symm.trans holds
    · cases (nothing place).symm.trans holds
  exact boot.makes (prepare_makes kernel mem)

/-- `setup_app` that ends has placed every region of the header. -/
theorem setupApp_placed
    (booted : Booted kernel)
    (separate : Separate (appGrantList stack image))
    (finishes :
      (setupApp s3k fuel
          (parseExecutable stack (BitVec.ofNat 8 appPid) image.get)
          (beforeSetupApp s3k image kernel mem)).2 = true) :
    Placed (appGrantList stack image)
      (setupApp s3k fuel
        (parseExecutable stack (BitVec.ofNat 8 appPid) image.get)
        (beforeSetupApp s3k image kernel mem)).1.kernel := by
  have entered :
      Placed []
        (enterSetupApp (beforeSetupApp s3k image kernel mem)).world.kernel :=
    prepare_placed booted
  rw [setupApp_eq] at finishes ⊢
  dsimp only at finishes ⊢
  rw [appGrantList, imageSections] at separate ⊢
  generalize parseExecutable stack (BitVec.ofNat 8 appPid) image.get = app
    at finishes separate ⊢
  cases ends : (sectionsGrants fuel app.sections).2 with
  | false =>
      rw [ends] at finishes
      cases finishes
  | true =>
      rw [if_pos rfl, sectionsGrants_ended ends]
      have sections : Separate ([] ++ reachedGrants app.sections) :=
        ⟨(List.pairwise_append.mp separate.apart).1,
          fun grant member =>
            separate.notBoth grant (List.mem_append_left _ member)⟩
      let turns :=
        (reachedGrants app.sections).foldl (handOut s3k)
          (enterSetupApp (beforeSetupApp s3k image kernel mem))
      have regions :
          Placed (reachedGrants app.sections) turns.world.kernel :=
        foldl_handOut_placed _ entered sections
      have uart :
          Placed (reachedGrants app.sections ++ [uartGrant])
            (handOut s3k turns uartGrant).world.kernel :=
        handOut_placed regions (separate.notBoth uartGrant (by simp))
          fun other member =>
            (List.pairwise_append.mp separate.apart).2.2 other member uartGrant
              (List.mem_singleton.mpr rfl)
      exact uart.makes (finishApp_rest_makes turns)

/-- A start of the app comes after all its capabilities. -/
theorem setup_placed
    (booted : Booted kernel)
    (separate : Separate (appGrantList stack image))
    (isStarted :
      (setup s3k fuel stack image hello kernel mem).1 = .started) :
    Placed (appGrantList stack image)
      (setup s3k fuel stack image hello kernel mem).2.world.kernel := by
  have resumes : Resumes s3k fuel stack image hello kernel mem :=
    Or.inr isStarted
  have accepts : Accepts image := by
    rw [← setup_accepted_iff s3k fuel stack hello kernel mem, isStarted]
    exact ⟨nofun, nofun⟩
  have isPlaced :=
    setupApp_placed booted separate resumes.finishes
  rw [setup_of_accepts s3k fuel stack hello kernel mem accepts,
    afterAuthentication_eq]
  dsimp only
  rw [← beforeSetupApp, if_pos resumes.finishes]
  obtain ⟨middle, ipc, resume⟩ :=
    @startApp_makes s3k (fun _ => False)
      (setupApp s3k fuel
        (parseExecutable stack (BitVec.ofNat 8 appPid) image.get)
        (beforeSetupApp s3k image kernel mem)).1 hello
  refine resume.kernel_invariant (Placed (appGrantList stack image)) ?_
    (isPlaced.makes ipc)
  intro _ _ isResume holds
  rw [isResume.kernel_eq]
  exact holds

/-- On an accepted image the memory is the copy of the image. -/
theorem setup_loadedMem
    (accepts : Accepts image) :
    (setup s3k fuel stack image hello kernel mem).2.world.mem =
      loadedMem image mem := by
  rw [setup_of_accepts s3k fuel stack hello kernel mem accepts,
    afterAuthentication_mem, loadApp_mem, prepare_mem]

/-- All that the app gets is on that list. -/
theorem setup_grants
    (booted : Booted kernel)
    (accepts : Accepts image) :
    HandedOut (· ∈ appGrantList stack image)
      (setup s3k fuel stack image hello kernel mem).2.world.kernel :=
  (setup_handedOut s3k fuel stack image hello mem booted accepts).mono
    fun _ isGrant =>
      List.mem_append.mpr
        (isGrant.imp id fun isUart => List.mem_singleton.mpr isUart.1)

/-- With an empty flight slot the app has write xor execute. -/
theorem Placed.writeXorExecute
    {grants : List PmpGrant}
    (isPlaced : Placed grants kernel)
    (empty : (kernel.table monitorPid flightSlot).type ≠ .pmp) :
    WriteXorExecute kernel := by
  let place (holder : Holder) : SetupPlace :=
    holder.casesOn .handover fun slot => .app slot.val
  have notInFlight
      {holder : Holder}
      {held : Grant Word Word}
      (holds : granted kernel holder = some held) :
      holder ≠ .inFlight := by
    rintro rfl
    cases (Cap.grant_of_type_ne empty).symm.trans holds
  refine isPlaced.sound.comap place (fun holder held holds => ?_)
    fun first second _ _ holds otherHolds same => ?_
  · cases holder with
    | inFlight => exact absurd rfl (notInFlight holds)
    | app slot => exact holds
  · cases first with
    | inFlight => exact absurd rfl (notInFlight holds)
    | app first =>
        cases second with
        | inFlight => exact absurd rfl (notInFlight otherHolds)
        | app second =>
            exact congrArg Holder.app (Fin.ext (SetupPlace.app.inj same))

end Setup

section Boot

/--
What holds in a run from the start of the app on: no address is writable and
executable; the app writes to the regions of the header and of the UART only;
and what is executable is a section of the image as it was loaded, or has been
made so in a pass in which a signature verified.  Others write to the addresses
in `foreign`, and may have done so there.
-/
structure KeepsIntegrity
    (s3k : S3k)
    (foreign : Set Word)
    (grants : List PmpGrant)
    (loaded : Memory)
    (labels : List ConfinedLabel)
    (start final : System) :
    Prop where
  writeXorExecute :
    ∀ address,
      ¬ (Permits (granted final.monitor.world.kernel) 0x2 address ∧
          Permits (granted final.monitor.world.kernel) 0x4 address)
  isolation :
    ∀ address ∉ foreign,
      (∀ grant ∈ grants, Napot grant.start grant.stop →
        address ∉ region grant.start grant.stop) →
      final.monitor.world.mem address = loaded address
  code :
    ∀ area, Executable area final →
      (∃ grant ∈ grants,
        grant.rwx &&& 0x4 ≠ 0 ∧ area = region grant.start grant.stop ∧
          ∀ address ∈ area \ foreign,
            final.monitor.world.mem address = loaded address) ∨
      GrantedXAndKept s3k foreign labels start final area

variable
  {s3k : S3k}
  {foreign : Set Word}
  {grants : List PmpGrant}
  {loaded : Memory}
  {labels : List ConfinedLabel}
  {start final : System}

/-- What is executable from the start belongs to a section with `X`. -/
theorem HandedOut.executable
    {handed : PmpGrant → Prop}
    (handedOut : HandedOut handed start.monitor.world.kernel)
    (empty :
      (start.monitor.world.kernel.table monitorPid flightSlot).type ≠ .pmp)
    {area : Set Word}
    (executable : Executable area start) :
    ∃ grant,
      handed grant ∧ grant.rwx &&& 0x4 ≠ 0 ∧
        area = region grant.start grant.stop := by
  obtain ⟨holder, held, holds, rfl, hasX⟩ := executable
  cases holder with
  | inFlight =>
      cases (Cap.grant_of_type_ne empty).symm.trans holds
  | app slot =>
      obtain ⟨addr, cfg, isPmp, area, rights⟩ :=
        (Cap.grant_eq_some_iff _ _).mp holds
      obtain ⟨grant, isGrant, replaces⟩ := handedOut.app slot addr cfg isPmp
      rw [rights] at hasX
      refine ⟨grant, isGrant, ?_, area.trans replaces.region_eq⟩
      rw [← rights_of_low_bits replaces.2.2 (by decide)]
      exact hasX

/-- The state in which the app is started. -/
structure Launched
    (grants : List PmpGrant)
    (loaded : Memory)
    (monitor : Monitor) :
    Prop where
  placed : Placed grants monitor.world.kernel
  handedOut : HandedOut (· ∈ grants) monitor.world.kernel
  empty : (monitor.world.kernel.table monitorPid flightSlot).type ≠ .pmp
  mem : monitor.world.mem = loaded

/-- From there on every run keeps the integrity of memory and code. -/
theorem Launched.keepsIntegrity
    (launched : Launched grants loaded start.monitor)
    (run : Run (ConfinedStep s3k foreign) labels start final) :
    KeepsIntegrity s3k foreign grants loaded labels start final where
  writeXorExecute :=
    (confined_run_secure run
      (launched.placed.writeXorExecute launched.empty)).no_address
  isolation address notForeign outside := by
    rw [← launched.mem]
    refine
      (confined_run_outOfReach run notForeign
        fun holder held holds inArea => ?_).2
    cases holder with
    | inFlight =>
        cases (Cap.grant_of_type_ne launched.empty).symm.trans holds
    | app slot =>
        obtain ⟨grant, member, napot, area⟩ :=
          launched.placed.covered (.app slot) held holds
        rw [area] at inArea
        exact outside grant member napot inArea
  code area executable := by
    rcases confined_run_origin run
        (launched.placed.writeXorExecute launched.empty) executable with
      ⟨atStart, same⟩ | ⟨before, label, after, source, target, passes⟩
    · obtain ⟨grant, member, hasX, isRegion⟩ :=
        launched.handedOut.executable launched.empty atStart
      refine Or.inl ⟨grant, member, hasX, isRegion, fun address inArea => ?_⟩
      rw [same address inArea, launched.mem]
    · exact Or.inr (.of_passes passes)

/-- A start of the app by `setup` is one with the grants of the header. -/
theorem setup_launched
    (booted : Booted kernel)
    (empty : (kernel.table monitorPid flightSlot).type ≠ .pmp)
    (separate : Separate (appGrantList stack image))
    (isStarted :
      (setup s3k fuel stack image hello kernel mem).1 = .started) :
    Launched (appGrantList stack image) (loadedMem image mem)
      (setup s3k fuel stack image hello kernel mem).2 := by
  have accepts : Accepts image := by
    rw [← setup_accepted_iff s3k fuel stack hello kernel mem, isStarted]
    exact ⟨nofun, nofun⟩
  exact
    { placed := setup_placed booted separate isStarted
      handedOut := setup_grants booted accepts
      empty := (setup_noRequestYet s3k fuel stack image hello mem empty).flight
      mem := setup_loadedMem accepts }

/-- The app runs and the monitor is about to call `loop`. -/
def runningSystem (monitor : Monitor) : System where
  appAt := .running
  buf := helloWords
  monitorAt := .entering
  monitor := monitor

/-- The running system has the monitor that it was built from. -/
theorem runningSystem_monitor (monitor : Monitor) :
    (runningSystem monitor).monitor = monitor :=
  rfl

/-- The app and the monitor after the start of an app with code only. -/
def textSystem : System :=
  runningSystem (textMonitor obliging deliveryKernel fun _ => 0)

/-- The app with code only is started. -/
theorem setup_textInfo_started :
    (setup obliging 3 blankStack (writtenImage [textInfo]) helloWords
      deliveryKernel fun _ => 0).1 = .started := by
  have grants :
      sectionsGrants 3 ([textInfo].map SectionInfo.toSection) =
        ([textInfo.toSection.grant], true) := by
    decide
  have outcome :=
    setup_written obliging 3 blankStack helloWords deliveryKernel (fun _ => 0)
      (by decide) (writtenImage_bytes [textInfo]) (writtenImage_accepts _)
  simp only [grants, if_true] at outcome
  rw [outcome]
  decide +kernel

/-- Its two regions are apart. -/
theorem textInfo_separate :
    Separate (appGrantList blankStack (writtenImage [textInfo])) := by
  have reached :
      reachedGrants (imageSections blankStack (writtenImage [textInfo])) =
        [textInfo.toSection.grant] := by
    rw [reachedGrants_congr
      (imageSections_written (by decide) (writtenImage_bytes _) blankStack)]
    decide
  rw [appGrantList, reached]
  constructor
  · refine List.pairwise_pair.mpr fun napot uartNapot => ?_
    by_contra overlap
    have ends :=
      (not_disjoint_region_iff napot.start_le uartNapot.start_le).mp overlap
    exact absurd ends (by decide)
  · decide

/-- It asks for its code to be writable, and is blocked until the reply. -/
def opening (monitor : Monitor) : System :=
  { ({ runningSystem monitor with monitorAt := .receiving } : System).sent
      (thUpdatepmpRw 0x3) 0 with
    appAt := .waiting 0 }

/-- The answer with which the monitor opens the code. -/
def openedAnswer : Answer where
  cap := textCap
  code := 0
  resync := true

/-- The code of an app with two pages of it, now writable. -/
def openedCap : Cap :=
  .pmp (s3kPmpNapotAddr 0x80020000 0x80022000) 0x3

/-- The app runs, and the monitor opens its code when it is asked to. -/
structure OpensCode (monitor : Monitor) : Prop where
  isRunning : monitor.appRunning = true
  opens :
    (((opening monitor).withMem monitor.world.mem).handle obliging).map
        (fun next =>
          let replied :=
            (next.withMem monitor.world.mem).monitorSend openedAnswer
          (next.monitorAt, replied.appAt,
            replied.monitor.world.kernel.table appPid 0)) =
      some (.answering openedAnswer, .running, openedCap)

/-- Then the app can have its code opened and write a byte of it. -/
theorem OpensCode.writes
    {monitor : Monitor}
    (opensCode : OpensCode monitor) :
    ∃ labels final,
      labels.length = 6 ∧
        Run (ConfinedStep obliging monitorMemory) labels
          (runningSystem monitor) final ∧
        final.monitor.world.mem 0x80020000 = 0x13 := by
  have runs (idx : Nat) : AppAt.running ≠ .waiting idx := nofun
  have asked :
      Run (ConfinedStep obliging monitorMemory)
        [.monitorRecv, .send (thUpdatepmpRw 0x3) 0, .recv 0]
        (runningSystem monitor) (opening monitor) :=
    .cons (.monitorRecv rfl opensCode.isRunning) <|
      .cons (.send (thUpdatepmpRw 0x3) 0 runs) <|
        .cons (.recv 0 runs) (.nil _)
  obtain ⟨next, handled, same⟩ := Option.map_eq_some_iff.mp opensCode.opens
  simp only [Prod.mk.injEq] at same
  obtain ⟨answers, goesOn, isOpen⟩ := same
  let replied : System :=
    (next.withMem monitor.world.mem).monitorSend openedAnswer
  let mem : Memory :=
    Function.update replied.monitor.world.mem 0x80020000 0x13
  have runsOn (idx : Nat) : replied.appAt ≠ .waiting idx := by
    rw [goesOn]
    exact runs idx
  have works :
      Works replied.monitor.world mem
        (replied.monitor.world.kernel.table appPid) := by
    have napot : Napot 0x80020000 0x80022000 := by
      decide
    refine
      @works_store _ ⟨0, by decide⟩ _ _ isOpen (by decide) 0x80020000 ?_ 0x13
    rw [← napot.1, ← napot.2, mem_region]
    decide
  have answered :
      Run (ConfinedStep obliging monitorMemory)
        [.handle monitor.world.mem, .monitorSend,
          .work mem (replied.monitor.world.kernel.table appPid)]
        (opening monitor)
        (replied.work mem (replied.monitor.world.kernel.table appPid)) :=
    .cons (.handle monitor.world.mem rfl (fun _ _ _ => rfl) handled) <|
      .cons (.monitorSend openedAnswer answers) <|
        .cons (.work mem _ runsOn works) (.nil _)
  have written : mem 0x80020000 = 0x13 := by
    exact Function.update_self ..
  exact ⟨_, _, rfl, asked.append answered, written⟩

end Boot

end S3kMonitor
