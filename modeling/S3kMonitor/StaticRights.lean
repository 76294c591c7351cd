import S3kMonitor.SetupRights
import S3kMonitor.Ipc
import S3kMonitor.UpdatePmp

namespace S3kMonitor

open Runs

/-!
# Capabilities outside the heap

Only the rights of heap chunks are meant to change after `setup`.  The loop
does not ask where the region of a capability lies, so everything depends on
the requests for other regions failing for another reason.
-/

/-- The addresses of a section. -/
def MemorySection.area (memorySection : MemorySection) : Set Word :=
  span (appBase + memorySection.offset) memorySection.size.toNat

/-- A PMP capability whose region lies in no heap of the header. -/
def OutsideHeap (sections : List MemorySection) (cap : Cap) : Prop :=
  ∃ addr cfg,
    cap = .pmp addr cfg ∧
      ∀ memorySection ∈ sections, memorySection.isHeap = true →
        ¬ region (s3kPmpNapotBegin addr) (s3kPmpNapotEnd addr) ⊆
          memorySection.area

/-- The capability that case `0x02` finds in the flight slot. -/
def attached (received : Monitor) : Cap :=
  capmanGet (capmanUpdate received.world) flightSlot

/--
The received request passes the checks, the monitor has a free slot, and the
kernel derives the new capability there.
-/
def Derivable (s3k : S3k) (received : Monitor) : Prop :=
  let world := capmanUpdate received.world
  received.recvBuf[0]! = 0x02 ∧
    ∃ start stop rwx,
      checkUpdate (attached received) received.recvBuf world.mem =
          .update start stop rwx ∧
        Napot start stop ∧
        ∃ slot : Nat,
          slot < ncap ∧ capmanFindFree world = slot ∧
            let pmp := s3k.pmp (s3kPmpNapotAddr start stop) rwx
            s3k.excpt world.trace
                (.drvcap (toIndex (findMemoryDerive s3k world pmp)) slot
                  pmp) =
              s3k.excptNone

/-- A request that finds a capability outside the heap fails on its way. -/
def Declines
    (s3k : S3k)
    (sections : List MemorySection)
    (request : Request)
    (monitor : Monitor) :
    Prop :=
  OutsideHeap sections (attached (receive s3k request monitor)) →
    ¬ Derivable s3k (receive s3k request monitor)

/-- A pass of the loop whose request meets the condition. -/
def DecliningStep
    (s3k : S3k)
    (sections : List MemorySection)
    (request : Request)
    (monitor next : Monitor) :
    Prop :=
  LoopStep s3k request monitor next ∧ Declines s3k sections request monitor

/--
Outside the heap the app has nothing but the capabilities that it had in the
beginning, with their rights, and no request for them was answered with 0.
-/
structure StaticRights
    (sections : List MemorySection)
    (first : Kernel)
    (world : World) :
    Prop where
  rights :
    ∀ holder,
      OutsideHeap sections (holding world.kernel holder) →
      ∃ slot, holding first (.app slot) = holding world.kernel holder
  answers :
    ∀ cap code,
      .answered cap code ∈ world.trace → OutsideHeap sections cap → code ≠ 0

section Steps

variable
  {s3k : S3k}
  {sections : List MemorySection}
  {first : Kernel}
  {world next : World}

/-- An empty slot holds nothing outside the heap. -/
theorem OutsideHeap.not_none :
    ¬ OutsideHeap sections .none := by
  rintro ⟨addr, cfg, isPmp, -⟩
  cases isPmp

/-- Nothing new in the places of the app, and no new answer. -/
theorem StaticRights.of_subset
    (static : StaticRights sections first world)
    (holdings :
      ∀ holder,
        OutsideHeap sections (holding next.kernel holder) →
        ∃ other, holding world.kernel other = holding next.kernel holder)
    (answers :
      ∀ cap code,
        .answered cap code ∈ next.trace →
        .answered cap code ∈ world.trace) :
    StaticRights sections first next := by
  constructor
  · intro holder outside
    obtain ⟨other, same⟩ := holdings holder outside
    rw [← same] at outside ⊢
    exact static.rights other outside
  · intro cap code member
    exact static.answers cap code (answers cap code member)

/-- A capability that moves between two places is no new capability. -/
theorem holding_move
    (kernel : Kernel)
    (src dst holder : Holder)
    (outside :
      OutsideHeap sections
        (holding (kernel.move src.pid src.slot dst.pid dst.slot) holder)) :
    ∃ other,
      holding kernel other =
        holding (kernel.move src.pid src.slot dst.pid dst.slot) holder := by
  simp only [holding, Kernel.move_table] at outside ⊢
  split at outside
  · next isDst =>
    exact ⟨src, by rw [if_pos isDst]⟩
  · next notDst =>
    split at outside
    · exact absurd outside OutsideHeap.not_none
    · next notSrc =>
      exact ⟨holder, by rw [if_neg notDst, if_neg notSrc]⟩

/-- The calls for IPC of the loop. -/
def CarriesFlight (kernelCall : KernelCall) : Prop :=
  (∃ sock words source, kernelCall = .recv sock flightSlot words source) ∨
    ∃ sock words target, kernelCall = .send sock words flightSlot target

/-- A message moves a capability between the flight slot and the app. -/
theorem holding_call
    {kernelCall : KernelCall}
    (carries : CarriesFlight kernelCall)
    (holder : Holder)
    (outside :
      OutsideHeap sections
        (holding (world.call s3k kernelCall).2.kernel holder)) :
    ∃ other,
      holding world.kernel other =
        holding (world.call s3k kernelCall).2.kernel holder := by
  rcases World.call_kernel_cases with effect | unchanged
  · rw [effect] at outside ⊢
    rcases carries with ⟨_, _, source, rfl⟩ | ⟨_, _, target, rfl⟩
    · simp only [KernelCall.effect, Kernel.transfer] at outside ⊢
      split at outside
      · next guard =>
        rw [if_pos guard]
        exact holding_move world.kernel (.app ⟨source, guard.1⟩) .inFlight
          holder outside
      · next notMoved =>
        exact ⟨holder, by rw [if_neg notMoved]⟩
    · simp only [KernelCall.effect, Kernel.transfer] at outside ⊢
      split at outside
      · next guard =>
        rw [if_pos guard]
        exact holding_move world.kernel .inFlight (.app ⟨target, guard.2.1⟩)
          holder outside
      · next notMoved =>
        exact ⟨holder, by rw [if_neg notMoved]⟩
  · exact ⟨holder, by rw [unchanged]⟩

/-- A call that carries the flight slot at most changes no such right. -/
theorem call_static
    {kernelCall : KernelCall}
    (carries : CarriesFlight kernelCall)
    (static : StaticRights sections first world) :
    StaticRights sections first (world.call s3k kernelCall).2 := by
  refine static.of_subset (holding_call carries) fun cap code member => ?_
  rcases List.mem_cons.mp member with isCall | isOld
  · cases isCall
  · exact isOld

/-- The receive of a request changes none. -/
theorem receive_static
    {monitor : Monitor}
    (request : Request)
    (static : StaticRights sections first monitor.world) :
    StaticRights sections first (receive s3k request monitor).world := by
  obtain ⟨rights, answers⟩ :=
    @call_static s3k _ _ _
      (.recv (monitor.soccaps[0]!).toNat flightSlot request.words
        request.source)
      (Or.inl ⟨_, _, _, rfl⟩) static
  exact ⟨rights, answers⟩

/-- The update of the mirror changes none. -/
theorem capmanUpdate_static
    (static : StaticRights sections first world) :
    StaticRights sections first (capmanUpdate world) := by
  refine static.of_subset (fun holder _ => ⟨holder, ?_⟩) ?_
  · rw [capmanUpdate_kernel]
  · rw [capmanUpdate_trace]
    exact fun _ _ member => member

/-- No code for a refusal is 0. -/
theorem checkUpdate_refuse_ne_zero
    {cap : Cap}
    {words : Words}
    {mem : Memory}
    {code : Word}
    (refused : checkUpdate cap words mem = .refuse code) :
    code ≠ 0 := by
  unfold checkUpdate at refused
  split at refused
  · dsimp only at refused
    split at refused
    · cases refused
      decide
    · split at refused
      · split at refused
        · cases refused
        · split at refused
          · cases refused
            decide
          · cases refused
      · cases refused
  · cases refused
    decide

/-- What `capman_update_pmp` calls is no answer. -/
theorem capmanUpdatePmp_answers
    {idx : Nat}
    {start stop rwx : Word}
    {cap : Cap}
    {code : Word}
    (member :
      .answered cap code ∈
        (capmanUpdatePmp s3k idx start stop rwx world).2.trace) :
    .answered cap code ∈ world.trace := by
  rcases capmanUpdatePmp_makes world idx start stop rwx with
    nothing | ⟨tidx, -, -, makes⟩
  · rw [nothing] at member
    exact member
  · rcases makes.event_cases member with isOld | ⟨_, _, -, isCall⟩
    · exact isOld
    · cases isCall

/-- The new capability for a region lies in a heap if the old one did. -/
theorem OutsideHeap.of_replaces
    {addr cfg rwx newAddr newCfg : Word}
    (replaces :
      Replaces (s3kPmpNapotBegin addr) (s3kPmpNapotEnd addr) rwx newAddr
        newCfg)
    (outside : OutsideHeap sections (.pmp newAddr newCfg)) :
    OutsideHeap sections (.pmp addr cfg) := by
  obtain ⟨_, _, same, noHeap⟩ := outside
  cases same
  obtain ⟨⟨startEq, stopEq⟩, rfl, -⟩ := replaces
  rw [← startEq, ← stopEq] at noHeap
  exact ⟨addr, cfg, rfl, noHeap⟩

section Answer

variable
  {monitor : Monitor}
  {start stop rwx : Word}
  (static : StaticRights sections first monitor.world)
include static

/-- An update of a capability in a heap stays in the heap. -/
theorem capmanUpdatePmp_static
    (inHeap : ¬ OutsideHeap sections (attached monitor))
    (updated :
      checkUpdate (attached monitor) monitor.recvBuf
          (capmanUpdate monitor.world).mem =
        .update start stop rwx) :
    StaticRights sections first
      (capmanUpdatePmp s3k flightSlot start stop rwx
        (capmanUpdate monitor.world)).2 := by
  obtain ⟨⟨addr, cfg, isPmp, rfl, rfl⟩, -⟩ :=
    checkUpdate_eq_update_iff.mp updated
  have mirrored := mirrored_capmanUpdate monitor.world
  have inFlight :
      (capmanUpdate monitor.world).getcap flightSlot = .pmp addr cfg :=
    (mirrored flightSlot (by decide)).symm.trans isPmp
  obtain ⟨others, atSlot⟩ :=
    @capmanUpdatePmp_slot s3k _ (s3kPmpNapotBegin addr)
      (s3kPmpNapotEnd addr) rwx mirrored flightSlot
      (by rw [inFlight]; exact Cap.noConfusion)
  refine (capmanUpdate_static static).of_subset (fun holder outside => ?_)
    fun _ _ member => capmanUpdatePmp_answers member
  cases holder with
  | app slot =>
      exact ⟨.app slot, congrFun (others appPid (by decide)).symm slot⟩
  | inFlight =>
      obtain ⟨newAddr, newCfg, isNew, -⟩ := id outside
      rcases atSlot newAddr newCfg isNew with isOld | replaces
      · exact ⟨.inFlight, isOld.trans isNew.symm⟩
      · rw [isNew] at outside
        rw [isPmp] at inHeap
        exact absurd (outside.of_replaces replaces) inHeap

section Declined

variable
  (isUpdate : monitor.recvBuf[0]! = 0x02)
  (declines :
    OutsideHeap sections (attached monitor) → ¬ Derivable s3k monitor)
  (passed :
    checkUpdate (attached monitor) monitor.recvBuf
        (capmanUpdate monitor.world).mem =
      .update start stop rwx)
include isUpdate declines passed

omit static in
/-- Outside the heap nothing is derived, and the code tells so. -/
theorem capmanUpdatePmp_outside
    (outside : OutsideHeap sections (attached monitor)) :
    BitVec.ofInt 64
          (capmanUpdatePmp s3k flightSlot start stop rwx
            (capmanUpdate monitor.world)).1 ≠
        0 ∧
      (capmanUpdatePmp s3k flightSlot start stop rwx
          (capmanUpdate monitor.world)).2.kernel =
        (capmanUpdate monitor.world).kernel := by
  have refused :=
    @capmanUpdatePmp_refused s3k (capmanUpdate monitor.world) start
      stop rwx flightSlot fun napot slot inRange found derives =>
        declines outside
          ⟨isUpdate, start, stop, rwx, passed, napot, slot, inRange,
            found, derives⟩
  obtain ⟨failed, unchanged⟩ := refused
  refine ⟨?_, unchanged⟩
  rcases failed with noSlot | notDerived
  · rw [noSlot]
    decide
  · rw [notDerived]
    decide

/-- A request that is declined changes none. -/
theorem capmanUpdatePmp_declined :
    StaticRights sections first
      (capmanUpdatePmp s3k flightSlot start stop rwx
        (capmanUpdate monitor.world)).2 := by
  by_cases outside : OutsideHeap sections (attached monitor)
  · have unchanged :=
      (capmanUpdatePmp_outside isUpdate declines passed outside).2
    exact (capmanUpdate_static static).of_subset
      (fun holder _ => ⟨holder, by rw [unchanged]⟩)
      fun _ _ member => capmanUpdatePmp_answers member
  · exact capmanUpdatePmp_static static outside passed

end Declined

/-- Case `0x02` up to the reply adds nothing outside the heap. -/
theorem answerUpdate_static
    {answer : Answer}
    (answered : answerUpdate s3k monitor = some (answer, world))
    (isUpdate : monitor.recvBuf[0]! = 0x02)
    (declines :
      OutsideHeap sections (attached monitor) → ¬ Derivable s3k monitor) :
    StaticRights sections first world ∧
      (OutsideHeap sections answer.cap → answer.code ≠ 0) := by
  cases answerCase_of_answerUpdate answered with
  | refused isRefused =>
      exact ⟨capmanUpdate_static static,
        fun _ => checkUpdate_refuse_ne_zero isRefused⟩
  | failed passed isError =>
      exact ⟨capmanUpdatePmp_declined static isUpdate declines passed,
        fun _ => isError⟩
  | updated passed isZero =>
      refine ⟨capmanUpdatePmp_declined static isUpdate declines passed,
        fun outside => ?_⟩
      exact absurd isZero
        (capmanUpdatePmp_outside isUpdate declines passed outside).1

end Answer

/-- An answer changes none, unless one outside the heap is granted. -/
theorem sendAnswer_static
    {monitor : Monitor}
    (target : Nat)
    {answer : Answer}
    (static : StaticRights sections first world)
    (declined : OutsideHeap sections answer.cap → answer.code ≠ 0) :
    StaticRights sections first
      (sendAnswer s3k target answer world monitor).world := by
  let kernelCall :=
    KernelCall.send (monitor.soccaps[1]!).toNat
      (monitor.recvBuf.setIfInBounds 0 answer.code) flightSlot target
  let sent :=
    { (world.call s3k kernelCall).2 with
      trace :=
        .answered answer.cap answer.code ::
          (world.call s3k kernelCall).2.trace }
  have called : StaticRights sections first (world.call s3k kernelCall).2 :=
    call_static (Or.inr ⟨_, _, _, rfl⟩) static
  have kept : StaticRights sections first sent := by
    refine ⟨called.rights, fun cap code member => ?_⟩
    rcases List.mem_cons.mp member with isNew | isOld
    · cases isNew
      exact declined
    · exact called.answers cap code isOld
  unfold sendAnswer
  dsimp only
  split
  · exact capmanUpdate_static kept
  · exact kept

/-- A pass of the loop that meets the condition keeps the rights. -/
theorem loop_static
    {request : Request}
    {monitor final : Monitor}
    (step : DecliningStep s3k sections request monitor final)
    (static : StaticRights sections first monitor.world) :
    StaticRights sections first final.world := by
  obtain ⟨returned, declines⟩ := step
  have received := @receive_static s3k _ _ _ request static
  cases returned.passCase with
  | finish isFinish =>
      exact received
  | reply isUpdate answered =>
      obtain ⟨kept, declined⟩ :=
        answerUpdate_static received answered isUpdate declines
      exact sendAnswer_static request.target kept declined
  | ignore isOther =>
      exact received

end Steps

section Start

/-- Nothing has been received into the flight slot, and nothing answered. -/
structure NoRequestYet (world : World) : Prop where
  flight : (world.kernel.table monitorPid flightSlot).type ≠ .pmp
  answers : ∀ cap code, .answered cap code ∉ world.trace

variable
  {s3k : S3k}
  {grants : PmpGrant → Prop}
  {first second world : World}

/-- No call of `setup` puts a PMP capability into the flight slot. -/
theorem SetupCall.flight
    {kernelCall : KernelCall}
    (isSetup : SetupCall s3k grants kernelCall)
    {kernel : Kernel}
    (empty : (kernel.table monitorPid flightSlot).type ≠ .pmp) :
    ((kernelCall.effect s3k.derived kernel).table monitorPid
      flightSlot).type ≠ .pmp := by
  have derivation
      {orig idx : Nat}
      {cap : Cap}
      (harmless : idx = flightSlot → cap.type ≠ .pmp) :
      (((KernelCall.drvcap orig idx cap).effect s3k.derived kernel).table
        monitorPid flightSlot).type ≠ .pmp := by
    simp only [KernelCall.effect, Kernel.set_table, true_and]
    split
    · next isIdx =>
      exact harmless isIdx.symm
    · split
      · next isOrig =>
        intro isPmp
        obtain ⟨addr, cfg, same⟩ := (Cap.type_eq_pmp_iff _).mp isPmp
        have parent := s3k.derived_pmp _ _ _ _ same
        rw [← isOrig] at parent
        exact empty ((Cap.type_eq_pmp_iff _).mpr ⟨addr, cfg, parent⟩)
      · exact empty
  cases isSetup with
  | delcap idx =>
      simp only [KernelCall.effect, Kernel.set_table, true_and]
      split
      · decide
      · exact empty
  | setreg reg val =>
      exact empty
  | msetreg moncap pid reg val =>
      exact empty
  | deriveOwn orig idx cap apart =>
      exact derivation fun isFlight => absurd isFlight apart.2.2
  | deriveOther orig idx cap notPmp =>
      exact derivation fun _ => notPmp
  | deriveGrant orig grant isGrant isNapot =>
      exact derivation fun isFlight => absurd isFlight (by decide)
  | give moncap src dst isHandover =>
      simp only [KernelCall.effect, Kernel.move_table,
        appPid_ne_monitorPid.symm, false_and, true_and, if_false]
      split
      · decide
      · exact empty

/-- Calls that leave the flight slot alone bring no request into it. -/
theorem NoRequestYet.makes
    {allowed : KernelCall → Prop}
    (none : NoRequestYet first)
    (flight :
      ∀ kernelCall (kernel : Kernel),
        allowed kernelCall →
        (kernel.table monitorPid flightSlot).type ≠ .pmp →
        ((kernelCall.effect s3k.derived kernel).table monitorPid
          flightSlot).type ≠ .pmp)
    (makes : Makes s3k allowed first second) :
    NoRequestYet second := by
  constructor
  · exact makes.kernel_invariant
      (fun kernel => (kernel.table monitorPid flightSlot).type ≠ .pmp)
      flight none.flight
  · intro cap code member
    rcases makes.event_cases member with isOld | ⟨_, _, -, isCall⟩
    · exact none.answers cap code isOld
    · cases isCall

/-- The calls of `setup` bring no request. -/
theorem NoRequestYet.setupCalls
    (none : NoRequestYet first)
    (makes : Makes s3k (SetupCall s3k grants) first second) :
    NoRequestYet second :=
  none.makes (fun _ _ isSetup empty => isSetup.flight empty) makes

/-- Nor do those that resume the app. -/
theorem NoRequestYet.resumeCalls
    (none : NoRequestYet first)
    (makes : Makes s3k ResumeCall first second) :
    NoRequestYet second := by
  refine none.makes (fun kernelCall kernel isResume empty => ?_) makes
  rcases isResume with ⟨moncap, rfl⟩ | ⟨sock, words, rfl⟩
  · exact empty
  · rw [KernelCall.effect, Kernel.transfer, if_neg]
    · exact empty
    · rintro ⟨-, inRange, -⟩
      exact absurd inRange (by decide)

/-- A new entry of the trace that is no answer. -/
theorem NoRequestYet.mark
    (none : NoRequestYet first)
    {event : Event}
    (kernel : second.kernel = first.kernel)
    (trace : second.trace = event :: first.trace)
    (noAnswer : ∀ cap code, event ≠ .answered cap code) :
    NoRequestYet second := by
  refine ⟨by rw [kernel]; exact none.flight, fun cap code member => ?_⟩
  rw [trace] at member
  rcases List.mem_cons.mp member with isEvent | isOld
  · exact noAnswer cap code isEvent.symm
  · exact none.answers cap code isOld

/-- Nor does what comes after the authentication. -/
theorem NoRequestYet.afterAuthentication
    (none : NoRequestYet world)
    (fuel : Nat)
    (stack : Process)
    (image : AppBin)
    (hello : Words) :
    NoRequestYet
      (afterAuthentication s3k fuel stack image hello world).2.world :=
  afterAuthentication_invariant fuel stack image hello
    (fun _ none => none.mark rfl rfl fun _ _ => Event.noConfusion)
    (fun _ none => none.mark rfl rfl fun _ _ => Event.noConfusion)
    (fun _ _ makes none => none.setupCalls makes)
    (fun _ _ makes none => none.resumeCalls makes)
    none

/-- However `setup` ends, no request has been handled yet. -/
theorem setup_noRequestYet
    (s3k : S3k)
    (fuel : Nat)
    (stack : Process)
    (image : AppBin)
    (hello : Words)
    {kernel : Kernel}
    (mem : Memory)
    (empty : (kernel.table monitorPid flightSlot).type ≠ .pmp) :
    NoRequestYet (setup s3k fuel stack image hello kernel mem).2.world := by
  have boot : NoRequestYet (bootWorld kernel mem) :=
    ⟨empty, fun _ _ => List.not_mem_nil⟩
  have made : Makes s3k (SetupCall s3k fun _ => False) (bootWorld kernel mem)
      (prepare s3k kernel mem) :=
    prepare_makes kernel mem
  have prepared := boot.setupCalls made
  rw [setup]
  cases imageSignature image with
  | none =>
      exact prepared
  | some signature =>
      dsimp only
      split
      · exact prepared
      · exact prepared.afterAuthentication fuel stack image hello

end Start

section Runs

/--
After `setup`, and after every run in which all requests for capabilities
outside the heap fail on their way, the app has outside the heap exactly what
it was given, and each such request was answered with a code other than 0.
-/
theorem setup_run_staticRights
    (s3k : S3k)
    (fuel : Nat)
    (stack : Process)
    (image : AppBin)
    (hello : Words)
    (kernel : Kernel)
    (mem : Memory)
    (empty : (kernel.table monitorPid flightSlot).type ≠ .pmp)
    {requests : List Request}
    {final : Monitor}
    (run :
      Run (DecliningStep s3k (imageSections stack image)) requests
        (setup s3k fuel stack image hello kernel mem).2 final) :
    StaticRights (imageSections stack image)
      (setup s3k fuel stack image hello kernel mem).2.world.kernel
      final.world := by
  have start :=
    setup_noRequestYet s3k fuel stack image hello mem empty
  generalize (setup s3k fuel stack image hello kernel mem).2 = started at *
  refine run.invariant
    (fun monitor =>
      StaticRights (imageSections stack image) started.world.kernel
        monitor.world)
    (fun _ _ _ _ step static => loop_static step static)
    (fun _ _ => trivial) ⟨fun holder outside => ?_, fun cap code member => ?_⟩
  · cases holder with
    | app slot =>
        exact ⟨slot, rfl⟩
    | inFlight =>
        obtain ⟨addr, cfg, isPmp, -⟩ := outside
        exact absurd ((Cap.type_eq_pmp_iff _).mpr ⟨addr, cfg, isPmp⟩)
          start.flight
  · exact absurd member (start.answers cap code)

/-- A kernel that refuses nothing. -/
def obliging : S3k :=
  S3k.generous fun _ _ => false

/-- The message with which the app reports that it has started. -/
def helloWords : Words :=
  Vector.replicate 4 (-1)

/-- The monitor after the start of an app with code only. -/
def textMonitor (s3k : S3k) (kernel : Kernel) (mem : Memory) : Monitor :=
  (startApp s3k helloWords
    (finishApp s3k
      ([textInfo.toSection.grant].foldl (handOut s3k)
        (enterSetupApp
          (beforeSetupApp s3k (writtenImage [textInfo]) kernel mem))))).2

/-- The capability of that code, in slot 0 of the app. -/
def textCap : Cap :=
  .pmp (s3kPmpNapotAddr 0x80020000 0x80022000) 0x5

/-- A request for rights on the code. -/
def textRequest (rwx : Word) : Request where
  words := thUpdatepmpRw rwx
  source := 0
  mem := fun _ => 0
  target := 0

/-- The monitor that has started the app with code only. -/
theorem setup_textInfo
    (s3k : S3k)
    (stack : Process)
    (kernel : Kernel)
    (mem : Memory) :
    (setup s3k 3 stack (writtenImage [textInfo]) helloWords kernel mem).2 =
      textMonitor s3k kernel mem := by
  have grants :
      sectionsGrants 3 ([textInfo].map SectionInfo.toSection) =
        ([textInfo.toSection.grant], true) := by
    decide
  have outcome :=
    setup_written s3k 3 stack helloWords kernel mem (by decide)
      (writtenImage_bytes [textInfo]) (writtenImage_accepts _)
  simp only [grants, if_true] at outcome
  rw [outcome, textMonitor]

private theorem textCap_outside :
    OutsideHeap (imageSections blankStack (writtenImage [textInfo]))
      textCap := by
  refine ⟨_, _, rfl, fun memorySection member isHeap => ?_⟩
  have heaps :=
    isHeap_congr
      (imageSections_written (by decide) (writtenImage_bytes [textInfo])
        blankStack)
  have isOne :
      memorySection.isHeap ∈
        ([textInfo].map SectionInfo.toSection).map MemorySection.isHeap := by
    rw [← heaps]
    exact List.mem_map_of_mem member
  rw [isHeap] at isOne
  exact absurd isOne (by decide)

/-- A request for everything is refused. -/
theorem textRequest_wx_static :
    ∃ next : Monitor,
      .answered textCap 0x3 ∈ next.world.trace ∧
        StaticRights (imageSections blankStack (writtenImage [textInfo]))
          (setup obliging 3 blankStack (writtenImage [textInfo]) helloWords
            deliveryKernel fun _ => 0).2.world.kernel next.world := by
  have result :
      (loop obliging (textRequest 0x6)
          (textMonitor obliging deliveryKernel fun _ => 0)).map
          (fun next => decide (.answered textCap 0x3 ∈ next.world.trace)) =
        some true := by
    decide +kernel
  obtain ⟨next, returned, isAnswered⟩ := Option.map_eq_some_iff.mp result
  have words :
      (receive obliging (textRequest 0x6)
          (textMonitor obliging deliveryKernel fun _ => 0)).recvBuf =
        #v[0x02, 0, 0, 0x6] := by
    decide +kernel
  have declines :
      Declines obliging (imageSections blankStack (writtenImage [textInfo]))
        (textRequest 0x6)
        (textMonitor obliging deliveryKernel fun _ => 0) := by
    rintro - ⟨-, start, stop, rwx, updated, -⟩
    have passed := checkUpdate_eq_update_iff.mp updated
    have asked := passed.2.1
    rw [words] at asked
    rw [asked] at passed
    exact passed.2.2.1 (by decide)
  have run :
      Run (DecliningStep obliging
          (imageSections blankStack (writtenImage [textInfo])))
        [textRequest 0x6] (textMonitor obliging deliveryKernel fun _ => 0)
        next :=
    .cons ⟨returned, declines⟩ (.nil next)
  rw [← setup_textInfo obliging blankStack] at run
  exact ⟨next, by simpa using isAnswered,
    setup_run_staticRights obliging 3 blankStack (writtenImage [textInfo])
      helloWords deliveryKernel (fun _ => 0) (by decide) run⟩

/-- The code becomes writable on request. -/
theorem textRequest_rw_not_static :
    ¬ ∀ (s3k : S3k) (fuel : Nat) (stack : Process) (image : AppBin)
        (hello : Words) (kernel : Kernel) (mem : Memory)
        (requests : List Request) (final : Monitor),
        (kernel.table monitorPid flightSlot).type ≠ .pmp →
        Run (LoopStep s3k) requests
          (setup s3k fuel stack image hello kernel mem).2 final →
        StaticRights (imageSections stack image)
          (setup s3k fuel stack image hello kernel mem).2.world.kernel
          final.world := by
  intro always
  have result :
      (loop obliging (textRequest 0x3)
          (textMonitor obliging deliveryKernel fun _ => 0)).map
          (fun next => decide (.answered textCap 0 ∈ next.world.trace)) =
        some true := by
    decide +kernel
  obtain ⟨next, returned, isAnswered⟩ := Option.map_eq_some_iff.mp result
  have run :
      Run (LoopStep obliging) [textRequest 0x3]
        (textMonitor obliging deliveryKernel fun _ => 0) next :=
    .cons returned (.nil next)
  rw [← setup_textInfo obliging blankStack] at run
  have static :=
    always obliging 3 blankStack (writtenImage [textInfo]) helloWords
      deliveryKernel (fun _ => 0) [textRequest 0x3] next (by decide) run
  exact static.answers textCap 0 (by simpa using isAnswered) textCap_outside
    rfl

end Runs

end S3kMonitor
