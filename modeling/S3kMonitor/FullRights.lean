import S3kMonitor.HeapChunks
import S3kMonitor.Lib.Relay

namespace S3kMonitor

open Relay Runs

/-!
# Whether the app starts with all its rights

`setup_app` derives each capability into slot `0x20` and gives it away from
there, and looks at the result of neither call.  What a slot of the app has
when it is resumed depends on the calls that the kernel has performed: each
derivation puts something into slot `0x20`, and the next gift takes it to a
slot of the app.
-/

/-- Region and configuration, if this is a PMP capability. -/
def pmpPart : Cap → Option (Word × Word)
  | .pmp addr cfg => some (addr, cfg)
  | _ => none

/-- What a call of `setup` that the kernel has performed moves. -/
def performedStep (s3k : S3k) : Event → Option (Step Nat Nat (Word × Word))
  | .called (.delcap idx) excpt =>
      if excpt = s3k.excptNone then some (.put idx none) else none
  | .called (.drvcap _ idx cap) excpt =>
      if excpt = s3k.excptNone then some (.put idx (pmpPart cap)) else none
  | .called (.mgivecap _ _ src dst) excpt =>
      if excpt = s3k.excptNone then some (.send src dst) else none
  | _ => none

/-- The performed derivations, deletions and gifts, the latest first. -/
def performed (s3k : S3k) (trace : List Event) :
    List (Step Nat Nat (Word × Word)) :=
  trace.filterMap (performedStep s3k)

/--
The region is NAPOT and the kernel has performed a derivation of it with these
rights, then as the next use of the same slot the gift to the slot of the app,
and after that no other gift to that slot.
-/
def Delivered
    (s3k : S3k)
    (trace : List Event)
    (slot : Nat)
    (grant : PmpGrant) :
    Prop :=
  Napot grant.start grant.stop ∧
    ∃ cfg, cfg &&& 7 = grant.rwx &&& 7 ∧
      Arrived (performed s3k trace) slot
        (s3kPmpNapotAddr grant.start grant.stop, cfg)

/-- The slots hold what the history of the performed calls says. -/
structure Relayed (s3k : S3k) (world : World) : Prop where
  slot :
    ∀ slot, pmpPart (world.kernel.table appPid slot) =
      (replay (performed s3k world.trace)).slot slot
  box :
    ∀ box, box = 0x18 ∨ box = 0x20 →
      pmpPart (world.kernel.table monitorPid box) =
        (replay (performed s3k world.trace)).box box

/-- A derivation leaves a PMP capability that it starts from. -/
def KeepsPmp (s3k : S3k) : Prop :=
  ∀ addr cfg child, s3k.derived (.pmp addr cfg) child = .pmp addr cfg

section Cap

/-- The part of a PMP capability is its address and configuration. -/
theorem pmpPart_eq_some_iff
    {cap : Cap}
    {addr cfg : Word} :
    pmpPart cap = some (addr, cfg) ↔ cap = .pmp addr cfg := by
  cases cap <;> simp [pmpPart]

/-- A capability of another kind has no such part. -/
theorem pmpPart_of_type_ne
    {cap : Cap}
    (notPmp : cap.type ≠ .pmp) :
    pmpPart cap = none := by
  cases cap with
  | pmp addr cfg =>
      exact absurd rfl notPmp
  | _ =>
      rfl

/-- A derivation leaves the PMP part of its parent. -/
theorem KeepsPmp.pmpPart_derived
    {s3k : S3k}
    (keepsPmp : KeepsPmp s3k)
    (parent child : Cap) :
    pmpPart (s3k.derived parent child) = pmpPart parent := by
  cases isPmp : pmpPart parent with
  | some part =>
      obtain ⟨addr, cfg⟩ := part
      rw [pmpPart_eq_some_iff.mp isPmp, keepsPmp]
      rfl
  | none =>
      cases derivedPmp : pmpPart (s3k.derived parent child) with
      | none =>
          rfl
      | some part =>
          obtain ⟨addr, cfg⟩ := part
          have kept :=
            s3k.derived_pmp parent child addr cfg
              (pmpPart_eq_some_iff.mp derivedPmp)
          rw [kept, pmpPart] at isPmp
          cases isPmp

end Cap

section Relay

variable
  {s3k : S3k}
  {world : World}
  {grants : PmpGrant → Prop}

/-- The newest event performs its step on top of what the others performed. -/
theorem performed_cons (event : Event) (trace : List Event) :
    performed s3k (event :: trace) =
      (performedStep s3k event).toList ++ performed s3k trace := by
  rw [performed, List.filterMap_cons]
  cases performedStep s3k event <;> rfl

/-- Calls that move no capability into or out of the slots of interest. -/
theorem Relayed.of_quiet
    (relayed : Relayed s3k world)
    {next : World}
    (sameTable : next.kernel.table = world.kernel.table)
    (samePerformed :
      performed s3k next.trace = performed s3k world.trace) :
    Relayed s3k next where
  slot := by
    rw [sameTable, samePerformed]
    exact relayed.slot
  box := by
    rw [sameTable, samePerformed]
    exact relayed.box

/-- A call that fails performs nothing. -/
theorem performed_call_failed
    {kernelCall : KernelCall}
    (failed : (world.call s3k kernelCall).1 ≠ s3k.excptNone) :
    performed s3k (world.call s3k kernelCall).2.trace =
      performed s3k world.trace := by
  have noStep :
      performedStep s3k
          (.called kernelCall (world.call s3k kernelCall).1) =
        none := by
    cases kernelCall <;> simp only [performedStep, if_neg failed]
  have traceEq :
      (world.call s3k kernelCall).2.trace =
        .called kernelCall (world.call s3k kernelCall).1 :: world.trace :=
    rfl
  rw [traceEq, performed_cons, noStep]
  rfl

/-- A call that succeeds performs its step. -/
theorem performed_call_ok
    {kernelCall : KernelCall}
    (ok : (world.call s3k kernelCall).1 = s3k.excptNone) :
    performed s3k (world.call s3k kernelCall).2.trace =
      (performedStep s3k (.called kernelCall s3k.excptNone)).toList ++
        performed s3k world.trace := by
  have traceEq :
      (world.call s3k kernelCall).2.trace =
        .called kernelCall (world.call s3k kernelCall).1 :: world.trace :=
    rfl
  rw [traceEq, performed_cons, ok]

/-- Something is put into a slot of the monitor. -/
theorem Relayed.put
    (relayed : Relayed s3k world)
    {next : World}
    {idx : Nat}
    {item : Option (Word × Word)}
    (sameApp : next.kernel.table appPid = world.kernel.table appPid)
    (changes :
      ∀ box, pmpPart (next.kernel.table monitorPid box) =
        if box = idx then item
        else pmpPart (world.kernel.table monitorPid box))
    (step :
      performed s3k next.trace = .put idx item :: performed s3k world.trace) :
    Relayed s3k next where
  slot slot := by
    rw [sameApp, step, replay_put_slot]
    exact relayed.slot slot
  box box isHandover := by
    rw [changes, step, replay_put_box]
    by_cases isIdx : box = idx
    · rw [if_pos isIdx, if_pos isIdx]
    · rw [if_neg isIdx, if_neg isIdx]
      exact relayed.box box isHandover

/-- A slot of the two is given to the app. -/
theorem Relayed.send
    (relayed : Relayed s3k world)
    {next : World}
    {src dst : Nat}
    (isHandover : src = 0x18 ∨ src = 0x20)
    (moves :
      next.kernel.table =
        (world.kernel.move monitorPid src appPid dst).table)
    (step :
      performed s3k next.trace = .send src dst :: performed s3k world.trace) :
    Relayed s3k next where
  slot slot := by
    rw [moves, step, replay_send_slot, Kernel.move_table]
    by_cases isDst : slot = dst
    · rw [if_pos ⟨rfl, isDst⟩, if_pos isDst]
      exact relayed.box src isHandover
    · rw [if_neg fun same => isDst same.2, if_neg isDst,
        if_neg (by simp [appPid, monitorPid])]
      exact relayed.slot slot
  box box boxIsHandover := by
    rw [moves, step, replay_send_box, Kernel.move_table,
      if_neg (by simp [appPid, monitorPid])]
    by_cases isSrc : box = src
    · rw [if_pos ⟨rfl, isSrc⟩, if_pos isSrc]
      rfl
    · rw [if_neg fun same => isSrc same.2, if_neg isSrc]
      exact relayed.box box boxIsHandover

variable (keepsPmp : KeepsPmp s3k)
include keepsPmp

/-- Every call of `setup` is one that the history records. -/
theorem SetupCall.relayed
    {kernelCall : KernelCall}
    (isSetup : SetupCall s3k grants kernelCall)
    (relayed : Relayed s3k world) :
    Relayed s3k (world.call s3k kernelCall).2 := by
  by_cases ok : (world.call s3k kernelCall).1 = s3k.excptNone
  · have step := performed_call_ok ok
    have effect := World.call_kernel_of_ok ok
    have derives
        {orig idx : Nat}
        {cap : Cap}
        (isDerivation : kernelCall = .drvcap orig idx cap) :
        Relayed s3k (world.call s3k kernelCall).2 := by
      subst isDerivation
      rw [performedStep, if_pos rfl] at step
      refine relayed.put ?_ (fun box => ?_) step
      · rw [effect]
        funext slot
        simp [KernelCall.effect, appPid, monitorPid]
      · rw [effect]
        simp only [KernelCall.effect, Kernel.set_table, true_and]
        by_cases isIdx : box = idx
        · rw [if_pos isIdx, if_pos isIdx]
        · rw [if_neg isIdx, if_neg isIdx]
          by_cases isOrig : box = orig
          · rw [if_pos isOrig, isOrig]
            exact keepsPmp.pmpPart_derived _ _
          · rw [if_neg isOrig]
    cases isSetup with
    | delcap idx =>
        rw [performedStep, if_pos rfl] at step
        refine relayed.put ?_ (fun box => ?_) step
        · rw [effect]
          funext slot
          simp [KernelCall.effect, appPid, monitorPid]
        · rw [effect]
          simp only [KernelCall.effect, Kernel.set_table, true_and]
          split
          · rfl
          · rfl
    | setreg reg val =>
        exact relayed.of_quiet (by rw [effect]; rfl) step
    | msetreg moncap pid reg val =>
        exact relayed.of_quiet (by rw [effect]; rfl) step
    | deriveOwn orig idx cap apart =>
        exact derives rfl
    | deriveOther orig idx cap notPmp =>
        exact derives rfl
    | deriveGrant orig grant isGrant isNapot =>
        exact derives rfl
    | give moncap src dst isHandover =>
        rw [performedStep, if_pos rfl] at step
        exact relayed.send isHandover (by rw [effect]; rfl) step
  · exact relayed.of_quiet (by rw [World.call_kernel_of_failed ok])
      (performed_call_failed ok)

/-- Setup calls keep slots and trace related. -/
theorem Makes.relayed
    {first second : World}
    (makes : Makes s3k (SetupCall s3k grants) first second)
    (relayed : Relayed s3k first) :
    Relayed s3k second := by
  refine Within.invariant (Relayed s3k) ?_ makes relayed
  rintro action world next isAllowed rfl holds
  cases action with
  | call kernelCall =>
      exact SetupCall.relayed keepsPmp isAllowed holds
  | assign slot cap =>
      exact ⟨holds.slot, holds.box⟩

end Relay

section Rights

/-- The grants that a header asks for; the `k`-th one is meant for slot `k`. -/
def imageGrants (stack : Process) (image : AppBin) : List PmpGrant :=
  (imageSections stack image).flatMap MemorySection.endGrants

/-- A capability with exactly the region and the rights of the grant. -/
def HoldsGrant (cap : Cap) (grant : PmpGrant) : Prop :=
  ∃ addr cfg, cap = .pmp addr cfg ∧
    Replaces grant.start grant.stop grant.rwx addr cfg

/-- Every slot that is meant for a grant has it. -/
def FullRights (stack : Process) (image : AppBin) (kernel : Kernel) : Prop :=
  ∀ slot grant,
    (imageGrants stack image)[slot]? = some grant →
    HoldsGrant (kernel.table appPid slot) grant

/-- `setup` comes to `capman_mresume(APP_PID)`. -/
def Resumes
    (s3k : S3k)
    (fuel : Nat)
    (stack : Process)
    (image : AppBin)
    (hello : Words)
    (kernel : Kernel)
    (mem : Memory) :
    Prop :=
  (setup s3k fuel stack image hello kernel mem).1 = .failed ∨
    (setup s3k fuel stack image hello kernel mem).1 = .started

/-- The state in which `startApp` calls `capman_mresume`. -/
def atResume
    (s3k : S3k)
    (fuel : Nat)
    (stack : Process)
    (image : AppBin)
    (kernel : Kernel)
    (mem : Memory) :
    World :=
  setupIpc s3k (afterSetupApp s3k fuel stack image kernel mem)

variable
  {s3k : S3k}
  {fuel : Nat}
  {stack : Process}
  {image : AppBin}
  {hello : Words}
  {kernel : Kernel}
  {mem : Memory}

/-- Then `setup_app` has returned. -/
theorem Resumes.finishes
    (resumes : Resumes s3k fuel stack image hello kernel mem) :
    (setupApp s3k fuel
        (parseExecutable stack (BitVec.ofNat 8 appPid) image.get)
        (beforeSetupApp s3k image kernel mem)).2 = true := by
  have accepts : Accepts image := by
    rw [← setup_accepted_iff s3k fuel stack hello kernel mem]
    rcases resumes with ended | ended
    · rw [ended]
      exact ⟨by decide, by decide⟩
    · rw [ended]
      exact ⟨by decide, by decide⟩
  rw [Resumes, setup_of_accepts s3k fuel stack hello kernel mem accepts,
    afterAuthentication_eq] at resumes
  dsimp only at resumes
  rw [beforeSetupApp]
  generalize
    setupApp s3k fuel (parseExecutable stack (BitVec.ofNat 8 appPid) image.get)
      (loadApp image (prepare s3k kernel mem)) = ended at resumes ⊢
  cases flag : ended.2 with
  | true =>
      rfl
  | false =>
      rw [flag, if_neg Bool.false_ne_true] at resumes
      rcases resumes with impossible | impossible
      · cases impossible
      · cases impossible

/-- A slot holds a grant exactly when the trace delivered it there. -/
theorem holdsGrant_iff
    {world : World}
    (relayed : Relayed s3k world)
    (slot : Nat)
    (grant : PmpGrant) :
    HoldsGrant (world.kernel.table appPid slot) grant ↔
      Delivered s3k world.trace slot grant := by
  have arrives (addr cfg : Word) :
      world.kernel.table appPid slot = .pmp addr cfg ↔
        Arrived (performed s3k world.trace) slot (addr, cfg) := by
    rw [← pmpPart_eq_some_iff, relayed.slot slot, replay_slot_iff]
  constructor
  · rintro ⟨addr, cfg, holds, isNapot, rfl, rights⟩
    exact ⟨isNapot, cfg, rights, (arrives _ _).mp holds⟩
  · rintro ⟨isNapot, cfg, rights, arrived⟩
    exact ⟨_, cfg, (arrives _ _).mpr arrived, isNapot, rfl, rights⟩

/-- At boot no slot holds a PMP capability, and nothing was delivered. -/
theorem Booted.relayed
    (booted : Booted kernel) :
    Relayed s3k (bootWorld kernel mem) where
  slot slot := pmpPart_of_type_ne (booted.app slot)
  box box isHandover := pmpPart_of_type_ne (booted.handover box isHandover)

variable
  (keepsPmp : KeepsPmp s3k)
  (booted : Booted kernel)
include keepsPmp booted

/-- Slots and trace are related when `setup_app` is entered. -/
theorem enterSetupApp_relayed :
    Relayed s3k (enterSetupApp (beforeSetupApp s3k image kernel mem)).world := by
  have prepared : Relayed s3k (prepare s3k kernel mem) :=
    @Makes.relayed s3k (fun _ => False) keepsPmp _ _
      (prepare_makes kernel mem) booted.relayed
  exact ⟨prepared.slot, prepared.box⟩

/-- They still are when the app is resumed. -/
theorem atResume_relayed :
    Relayed s3k (atResume s3k fuel stack image kernel mem) := by
  have entered :
      Relayed s3k
        (enterSetupApp (beforeSetupApp s3k image kernel mem)).world :=
    enterSetupApp_relayed keepsPmp booted
  have setUp : Relayed s3k (afterSetupApp s3k fuel stack image kernel mem) :=
    Makes.relayed keepsPmp (setupApp_makes _ fuel _) entered
  exact @Makes.relayed s3k (fun _ => False) keepsPmp _ _ (setupIpc_makes _)
    setUp

end Rights

end S3kMonitor
