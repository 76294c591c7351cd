import S3kMonitor.GrantedRequests
import S3kMonitor.StoreFaults

namespace S3kMonitor

open Runs

/-!
# Exceptions of the app, served by the monitor

`trap_handler` of the app and `loop` of the monitor put together: the reply
that the handler receives is the one that the loop has sent for its request.
After every exception the app either goes on where it was, with other rights
for the chunk at the fault and nothing else, or it is reset with all its
capabilities as they were.
-/

/-- What an exception finds: the memory and the registers of the app. -/
structure Fault where
  mem : Memory
  epc : Word
  ecause : Word
  eval : Word
  esp : Word

/-- The app and the monitor, both outside their calls for IPC. -/
structure Platform where
  app : App
  monitor : Monitor

/-- The message and the capabilities that a pass of the loop leaves to the app. -/
def replyOf (monitor : Monitor) : Reply where
  words := monitor.recvBuf
  caps := monitor.world.kernel.table appPid

/-- A call of `th_updatepmp_rw` or `th_updatepmp_rx` as the monitor gets it. -/
def UpdateCall.request (call : UpdateCall) (mem : Memory) : Request where
  words := call.buf
  source := call.idx
  mem := mem
  target := call.idx

/-- A message without a capability, as the monitor gets it. -/
def Notice.request
    (notice : Notice)
    (buf : Words)
    (mem : Memory) :
    Request where
  words := buf.setIfInBounds 0 notice.code
  source := 2 ^ 64 - 1
  mem := mem
  target := 0

/-- What the app does, and the messages of it that the monitor has to note. -/
inductive AppLabel where
  | alloc (size : Word)
  | free (ptr : Word)
  | fault (fault : Fault)
  | noted (notice : Notice) (buf : Words) (mem : Memory)

/-- The request is received, and a dependable kernel handles it. -/
structure Serves
    (s3k : S3k)
    (mem : Memory)
    (call : UpdateCall)
    (monitor next : Monitor) :
    Prop where
  received :
    s3k.excpt monitor.world.trace
        (.recv (monitor.soccaps[0]!).toNat flightSlot call.buf call.idx) =
      s3k.excptNone
  dependable :
    Dependable s3k (monitor.soccaps[1]!).toNat
      (receive s3k (call.request mem) monitor).world
  answered : loop s3k (call.request mem) monitor = some next

/-- The app when the kernel enters its handler. -/
def Platform.raised (platform : Platform) (fault : Fault) : App :=
  platform.app.raise fault.epc fault.ecause fault.eval fault.esp

/-- The app has handled an exception, and the monitor answered its request. -/
def Platform.answered
    (platform : Platform)
    (link : AppLink)
    (fault : Fault)
    (next : Monitor) :
    Platform where
  app := trapHandler link (replyOf next) (platform.raised fault)
  monitor := next

/--
One step of the app.  A fault with a request includes the pass of the loop
for it; one without a request does not reach the monitor.
-/
inductive PlatformStep (s3k : S3k) (link : AppLink) :
    AppLabel → Platform → Platform → Prop where
  | alloc (size : Word) (platform : Platform) :
      PlatformStep s3k link (.alloc size) platform
        { platform with
          app :=
            { platform.app with
              altmem := (altmemAlloc platform.app.altmem size).2 } }
  | free (ptr : Word) (platform : Platform) :
      PlatformStep s3k link (.free ptr) platform
        { platform with
          app :=
            { platform.app with
              altmem := altmemFree platform.app.altmem ptr } }
  | served
      (fault : Fault)
      (platform : Platform)
      {call : UpdateCall}
      {next : Monitor}
      (asks :
        (platform.raised fault).Asks
          (trapHandler link (replyOf next) (platform.raised fault)) call)
      (serves : Serves s3k fault.mem call platform.monitor next) :
      PlatformStep s3k link (.fault fault) platform
        (platform.answered link fault next)
  | silent
      (fault : Fault)
      (platform : Platform)
      (reply : Reply)
      (quiet :
        ∀ call,
          ¬ (platform.raised fault).Asks
            (trapHandler link reply (platform.raised fault)) call) :
      PlatformStep s3k link (.fault fault) platform
        { platform with
          app := trapHandler link reply (platform.raised fault) }
  | noted
      (notice : Notice)
      (buf : Words)
      (mem : Memory)
      (platform : Platform)
      {next : Monitor}
      (received :
        s3k.excpt platform.monitor.world.trace
            (.recv (platform.monitor.soccaps[0]!).toNat flightSlot
              (buf.setIfInBounds 0 notice.code) (2 ^ 64 - 1)) =
          s3k.excptNone)
      (passed :
        loop s3k (notice.request buf mem) platform.monitor = some next) :
      PlatformStep s3k link (.noted notice buf mem) platform
        { platform with monitor := next }

section Handler

variable
  {link : AppLink}
  {reply : Reply}
  {app : App}

/-- The request for chunk `i` that fits the cause of the exception. -/
def App.ChunkCall (app : App) (i : Nat) (call : UpdateCall) : Prop :=
  app.ecause = 7 ∧ call = .rw (app.chunkSlot i) s3kRw ∨
    app.ecause = 1 ∧
      call = .rx (app.chunkSlot i) (app.altmem.chunks i).start 0x5

/-- The ends to which the handler can come. -/
inductive TrapCase (link : AppLink) (reply : Reply) (app : App) :
    App → Prop where
  | request
      (i : Nat)
      (altmem : Altmem)
      (call : UpdateCall)
      (chunkAt : app.altmem.ChunkAt (app.faultAddr link) i)
      (isCall : app.ChunkCall i call) :
      TrapCase link reply app
        (concludeUpdate link
          ({ app with altmem := altmem }.updatepmp reply call))
  | reset :
      TrapCase link reply app (thSoftreset link app)
  | hardReset :
      TrapCase link reply app
        ((thHardreset link app).notify .handledException)

/-- Whatever the exception, there is at most one request, for its chunk. -/
theorem trapHandler_cases :
    TrapCase link reply app (trapHandler link reply app) := by
  unfold trapHandler
  by_cases isInstruction : app.ecause = 1
  · rw [if_pos isInstruction]
    rcases instructionFault_cases link reply app with
      ⟨i, chunkAt, -, served⟩ | reset
    · rw [served]
      refine .request i app.altmem _ ?_ (Or.inr ⟨isInstruction, rfl⟩)
      rw [App.faultAddr, if_pos isInstruction]
      exact chunkAt
    · rw [reset]
      exact .reset
  · rw [if_neg isInstruction]
    by_cases isLoad : app.ecause = 5
    · rw [if_pos isLoad]
      exact .reset
    · rw [if_neg isLoad]
      by_cases isStore : app.ecause = 7
      · rw [if_pos isStore]
        by_cases onStack : app.esp ≤ link.stack
        · rw [storeFault, if_pos onStack]
          rcases thStackexpansion_cases reply app app.esp with
            ⟨i, chunkAt, -, expanded⟩ | ⟨-, refused⟩
          · rw [expanded]
            refine .request i _ _ ?_ (Or.inl ⟨isStore, rfl⟩)
            rw [App.faultAddr, if_neg isInstruction, if_pos onStack]
            exact chunkAt
          · rw [refused]
            exact .reset
        · rcases storeFault_heap link reply app (BitVec.not_le.mp onStack) with
            ⟨i, chunkAt, served⟩ | ⟨-, reset⟩
          · rw [served]
            refine .request i app.altmem _ ?_ (Or.inl ⟨isStore, rfl⟩)
            rw [App.faultAddr, if_neg isInstruction, if_neg onStack]
            exact chunkAt
          · rw [reset]
            exact .reset
      · rw [if_neg isStore]
        exact .hardReset

end Handler

section Service

/-- A request that can be granted is answered. -/
theorem loop_of_derivable
    {s3k : S3k}
    {request : Request}
    {monitor : Monitor}
    (running : monitor.appRunning = true)
    (derivable : Derivable s3k (receive s3k request monitor)) :
    ∃ next, loop s3k request monitor = some next := by
  obtain ⟨isUpdate, start, stop, rwx, passed, -⟩ := derivable
  have answered :
      ∃ answer world,
        answerUpdate s3k (receive s3k request monitor) =
          some (answer, world) := by
    rw [attached] at passed
    simp only [answerUpdate, passed]
    split_ifs <;> exact ⟨_, _, rfl⟩
  obtain ⟨answer, world, computed⟩ := answered
  have notFinish : ¬ (0x02 : Word) = -1 := by
    decide
  refine
    ⟨sendAnswer s3k request.target answer world
        (receive s3k request monitor),
      ?_⟩
  rw [loop, if_neg (by simp [running]), dispatch, isUpdate, if_neg notFinish,
    if_pos rfl, computed]

variable
  {s3k : S3k}
  {mem : Memory}
  {call : UpdateCall}
  {monitor next : Monitor}

/-- The code of a reply is 0 or one of the small codes of an error. -/
theorem answerUpdate_code_le
    {received : Monitor}
    {answer : Answer}
    {world : World}
    (answered : answerUpdate s3k received = some (answer, world)) :
    answer.code.toNat ≤ 4 := by
  have refuse
      {pmp : Cap}
      {words : Words}
      {mem : Memory}
      {code : Word}
      (isRefused : checkUpdate pmp words mem = .refuse code) :
      code.toNat ≤ 4 := by
    unfold checkUpdate at isRefused
    split at isRefused
    · dsimp only at isRefused
      split_ifs at isRefused
      · cases isRefused
        decide
      · split at isRefused
        · cases isRefused
        · split_ifs at isRefused
          cases isRefused
          decide
    · cases isRefused
      decide
  cases answerCase_of_answerUpdate answered with
  | refused isRefused =>
      exact refuse isRefused
  | @failed start stop rwx passed isError =>
      obtain ⟨lower, upper⟩ :=
        @capmanUpdatePmp_code s3k (capmanUpdate received.world) flightSlot
          start stop rwx
      rw [BitVec.toNat_ofInt]
      omega
  | updated passed isZero =>
      exact Nat.zero_le 4

/-- The handler, which compares an `int`, sees an error if there is one. -/
theorem toInt_code_eq_zero_iff
    {code : Word}
    (isCode : code.toNat ≤ 4) :
    toInt code = 0 ↔ code = 0 := by
  rw [toInt_of_lt (by omega)]
  constructor
  · intro isZero
    bv_omega
  · rintro rfl
    rfl

/-- What passes the checks and can be derived is granted. -/
theorem UpdateCall.derivable
    {addr cfg : Word}
    {slot : Nat}
    (inRange : call.idx < ncap)
    (isPmp : monitor.world.kernel.table appPid call.idx = .pmp addr cfg)
    (received :
      s3k.excpt monitor.world.trace
          (.recv (monitor.soccaps[0]!).toNat flightSlot call.buf call.idx) =
        s3k.excptNone)
    (notBoth :
      ¬ (call.buf[3]! &&& 0x2 ≠ 0 ∧ call.buf[3]! &&& 0x4 ≠ 0))
    (signed :
      call.buf[3]! &&& 0x4 ≠ 0 →
        codeSignature call.buf mem = some (givenSignature call.buf mem))
    (derived :
      NewDerived s3k (s3kPmpNapotBegin addr) (s3kPmpNapotEnd addr)
        call.buf[3]!
        (capmanUpdate (receive s3k (call.request mem) monitor).world) slot) :
    Derivable s3k (receive s3k (call.request mem) monitor) := by
  have present :
      monitor.world.kernel.table appPid call.idx ≠ .none := by
    rw [isPmp]
    exact Cap.noConfusion
  have isAttached : Attached s3k (call.request mem) monitor :=
    ⟨received, inRange, present⟩
  have words :
      (receive s3k (call.request mem) monitor).recvBuf = call.buf :=
    isAttached.recvBuf
  refine ⟨?_, s3kPmpNapotBegin addr, s3kPmpNapotEnd addr, call.buf[3]!, ?_,
    derived.napot, slot, derived.inRange, derived.found, derived.ok⟩
  · rw [words]
    exact call.buf_opcode
  · rw [attached, capmanGet_flight, isAttached.getcap, words, capmanUpdate_mem,
      checkUpdate_eq_update_iff]
    exact ⟨⟨addr, cfg, isPmp, rfl, rfl⟩, rfl, notBoth, signed⟩

/-- The message that arrives is the request. -/
theorem Serves.isUpdate
    (serves : Serves s3k mem call monitor next) :
    (receive s3k (call.request mem) monitor).recvBuf[0]! = 0x02 := by
  have words :
      (receive s3k (call.request mem) monitor).recvBuf = call.buf :=
    if_pos serves.received
  rw [words]
  exact call.buf_opcode

/-- The reply has one of the small codes. -/
theorem Serves.code_le
    (serves : Serves s3k mem call monitor next) :
    next.recvBuf[0]!.toNat ≤ 4 := by
  obtain ⟨answer, world, computed, rfl⟩ :=
    loop_update serves.isUpdate serves.answered
  rw [sendAnswer_code]
  exact answerUpdate_code_le computed

variable
  (parentKept :
    ∀ parent child, parent ≠ .none → s3k.derived parent child ≠ .none)
  (empty : monitor.world.getcap flightSlot = .none)
  (serves : Serves s3k mem call monitor next)
include parentKept serves

/-- The code is 0 if and only if the new capability can be derived. -/
theorem Serves.granted_iff :
    next.recvBuf[0]! = 0 ↔
      Derivable s3k (receive s3k (call.request mem) monitor) := by
  obtain ⟨answer, world, computed, rfl⟩ :=
    loop_update serves.isUpdate serves.answered
  rw [sendAnswer_code]
  exact answerUpdate_code_eq_zero_iff parentKept serves.dependable
    serves.isUpdate computed

include empty

/-- What a reply of the monitor has left of its own slot and of the app's. -/
theorem Serves.outcome :
    next.world.getcap flightSlot = .none ∧
      (next.recvBuf[0]! = 0 ∧
          call.idx < ncap ∧
          (∃ addr, ChangesOneRight s3k (call.request mem) monitor next addr) ∨
        next.recvBuf[0]! ≠ 0 ∧
          next.world.kernel.table appPid =
            monitor.world.kernel.table appPid) := by
  obtain ⟨answer, world, computed, rfl⟩ :=
    loop_update serves.isUpdate serves.answered
  rw [sendAnswer_code]
  by_cases isZero : answer.code = 0
  · obtain ⟨attached, addr, changes⟩ :=
      changesOneRight_of_answer parentKept serves.dependable empty
        (fun attached => attached.2.1) computed isZero
    exact ⟨changes.handedBack, Or.inl ⟨isZero, attached.2.1, addr, changes⟩⟩
  · obtain ⟨unchanged, made⟩ :=
      answerUpdate_failed parentKept serves.dependable computed isZero
    have back :
        (sendAnswer s3k (call.request mem).target answer world
            (receive s3k (call.request mem) monitor)).world.kernel =
          (receive s3k (call.request mem) monitor).world.kernel.transfer
            monitorPid flightSlot appPid (call.request mem).target := by
      rw [← unchanged]
      exact sendAnswer_kernel fun words =>
        serves.dependable.sends world made words _
    by_cases attached : Attached s3k (call.request mem) monitor
    · have costs := costsNothing_of_transfer empty attached.2.1 back
      refine ⟨(costs.monitorTable flightSlot).trans empty,
        Or.inr ⟨isZero, funext fun slot => ?_⟩⟩
      by_cases isSlot : slot = call.idx
      · subst isSlot
        exact costs.returned attached
      · exact costs.elsewhere appPid slot fun same => isSlot (or_self_iff.mp same.2)
    · have same :
          (sendAnswer s3k (call.request mem).target answer world
              (receive s3k (call.request mem) monitor)).world.kernel =
            monitor.world.kernel := by
        rw [back, receive_kernel_of_unattached attached, Kernel.transfer,
          if_neg fun present => present.2.2 empty]
      exact ⟨by rw [World.getcap, same]; exact empty,
        Or.inr ⟨isZero, by rw [same]⟩⟩

end Service

section Outcome

/-- What the app holds in a slot. -/
def Platform.cap (platform : Platform) (slot : Nat) : Cap :=
  platform.monitor.world.kernel.table appPid slot

/-- The app knows its capabilities, and none of them is left in flight. -/
structure InStep (platform : Platform) : Prop where
  caps : platform.app.caps = platform.monitor.world.kernel.table appPid
  empty : platform.monitor.world.getcap flightSlot = .none

/-- The app starts again from one of its two entries, with a fresh stack. -/
def WasReset (link : AppLink) (platform : Platform) : Prop :=
  (platform.app.epc = link.loop ∨ platform.app.epc = link.setup) ∧
    platform.app.esp = link.stackTop

/--
The app goes on where it was, and the capability that the search has found for
the chunk at the fault has other rights: `RW` after a write, and `RX` after a
jump to code that is signed at the start of the chunk.
-/
structure OpensChunk
    (link : AppLink)
    (fault : Fault)
    (before after : Platform)
    (i : Nat)
    (rwx : Word) :
    Prop where
  chunkAt :
    before.app.altmem.ChunkAt ((before.raised fault).faultAddr link) i
  resumed : after.app.epc = fault.epc ∧ after.app.esp = fault.esp
  rights :
    fault.ecause = 7 ∧ rwx = s3kRw ∨
      fault.ecause = 1 ∧ rwx = 0x5 ∧
        SignedForX (thUpdatepmpRx (before.app.altmem.chunks i).start 0x5)
          fault.mem
  found :
    before.app.chunkSlot i < ncap ∧
      (before.cap (before.app.chunkSlot i)).SharesEnd
        (before.app.altmem.chunks i).start (before.app.altmem.chunks i).stop
  replaced :
    ∃ addr cfg,
      before.cap (before.app.chunkSlot i) = .pmp addr cfg ∧
        IsPmpFor (s3kPmpNapotBegin addr) (s3kPmpNapotEnd addr) rwx
          (after.cap (before.app.chunkSlot i))
  elsewhere :
    ∀ slot, slot ≠ before.app.chunkSlot i → after.cap slot = before.cap slot

variable
  {s3k : S3k}
  {link : AppLink}
  {label : AppLabel}
  {fault : Fault}
  {before after : Platform}

/-- The end of the handler leaves the copy of the capabilities alone. -/
theorem concludeUpdate_caps
    (update : Int × App) :
    (concludeUpdate link update).caps = update.2.caps := by
  unfold concludeUpdate
  dsimp only
  split_ifs <;> rfl

variable
  {reply : Reply}
  {app next : App}
  {call : UpdateCall}

/-- After a request the app knows the capabilities that came with the reply. -/
theorem TrapCase.caps_of_asks
    (isCase : TrapCase link reply app next)
    (asks : app.Asks next call) :
    next.caps = reply.caps := by
  cases isCase with
  | request i altmem call chunkAt isCall =>
      exact concludeUpdate_caps _
  | reset =>
      exact absurd asks (App.not_asks rfl)
  | hardReset =>
      exact absurd asks (App.not_asks rfl)

/-- Without a request the handler ends in a reset. -/
theorem TrapCase.of_quiet
    (isCase : TrapCase link reply app next)
    (quiet : ∀ call, ¬ app.Asks next call) :
    next.caps = app.caps ∧ (next.epc = link.loop ∨ next.epc = link.setup) ∧
      next.esp = link.stackTop := by
  cases isCase with
  | request i altmem call chunkAt isCall =>
      have asks :
          App.Asks { app with altmem := altmem }
            (concludeUpdate link
              ({ app with altmem := altmem }.updatepmp reply call))
            call :=
        asks_concludeUpdate.mpr rfl
      exact absurd asks (quiet call)
  | reset =>
      exact ⟨rfl, Or.inl rfl, rfl⟩
  | hardReset =>
      exact ⟨rfl, Or.inr rfl, rfl⟩

/-- After a request the handler goes on with a reset unless it is granted. -/
theorem TrapCase.of_asks
    (isCase : TrapCase link reply app next)
    (asks : app.Asks next call)
    (isCode : reply.words[0]!.toNat ≤ 4) :
    (∃ i, app.altmem.ChunkAt (app.faultAddr link) i ∧ app.ChunkCall i call) ∧
      (reply.words[0]! ≠ 0 ∧ next.epc = link.loop ∧
          next.esp = link.stackTop ∨
        reply.words[0]! = 0 ∧ next.epc = app.epc ∧ next.esp = app.esp) := by
  cases isCase with
  | request i altmem other chunkAt isCall =>
      have isOther : call = other :=
        (asks_concludeUpdate :
          App.Asks { app with altmem := altmem } _ call ↔ call = other).mp asks
      have sameZero := toInt_code_eq_zero_iff isCode
      refine ⟨⟨i, chunkAt, isOther ▸ isCall⟩, ?_⟩
      rw [concludeUpdate_updatepmp]
      by_cases isZero : toInt reply.words[0]! = 0
      · rw [if_pos isZero]
        exact Or.inr ⟨sameZero.mp isZero, rfl, rfl⟩
      · rw [if_neg isZero]
        exact Or.inl
          ⟨fun codeZero => isZero (sameZero.mpr codeZero), rfl, rfl⟩
  | reset =>
      exact absurd asks (App.not_asks rfl)
  | hardReset =>
      exact absurd asks (App.not_asks rfl)

/-- The request is about the slot that the search finds. -/
theorem App.ChunkCall.idx
    {i : Nat}
    (isCall : app.ChunkCall i call) :
    call.idx = app.chunkSlot i := by
  rcases isCall with ⟨-, rfl⟩ | ⟨-, rfl⟩
  · rfl
  · rfl

/-- The rights of a granted request, and what has been checked for them. -/
theorem App.ChunkCall.rights
    {i : Nat}
    {mem : Memory}
    (isCall : app.ChunkCall i call)
    (signed : call.buf[3]! &&& 0x4 ≠ 0 → SignedForX call.buf mem) :
    app.ecause = 7 ∧ call.buf[3]! = s3kRw ∨
      app.ecause = 1 ∧ call.buf[3]! = 0x5 ∧
        SignedForX (thUpdatepmpRx (app.altmem.chunks i).start 0x5) mem := by
  rcases isCall with ⟨isStore, rfl⟩ | ⟨isInstruction, rfl⟩
  · exact Or.inl ⟨isStore, rfl⟩
  · have asksX : (0x5 : Word) &&& 0x4 ≠ 0 := by
      decide
    exact Or.inr ⟨isInstruction, rfl, signed asksX⟩

/-- A notice is received without a capability and changes none. -/
theorem loop_noted
    {notice : Notice}
    {buf : Words}
    {mem : Memory}
    {monitor later : Monitor}
    (received :
      s3k.excpt monitor.world.trace
          (.recv (monitor.soccaps[0]!).toNat flightSlot
            (buf.setIfInBounds 0 notice.code) (2 ^ 64 - 1)) =
        s3k.excptNone)
    (passed : loop s3k (notice.request buf mem) monitor = some later) :
    later.world.kernel = monitor.world.kernel := by
  have words :
      (receive s3k (notice.request buf mem) monitor).recvBuf =
        buf.setIfInBounds 0 notice.code :=
    if_pos received
  have noCap : ¬ Attached s3k (notice.request buf mem) monitor :=
    fun attached =>
      absurd attached.2.1 (show ¬ (2 ^ 64 - 1 : Nat) < ncap by decide)
  have unchanged := receive_kernel_of_unattached noCap
  cases LoopStep.passCase passed with
  | finish isFinish =>
      exact unchanged
  | reply isUpdate answered =>
      rw [words] at isUpdate
      exact absurd isUpdate (by simpa using notice.code_ne)
  | ignore isOther =>
      exact unchanged

end Outcome

section Steps

variable
  {s3k : S3k}
  {link : AppLink}
  {label : AppLabel}
  {before after : Platform}
  (parentKept :
    ∀ parent child, parent ≠ .none → s3k.derived parent child ≠ .none)
include parentKept

/-- Every step leaves the app and the monitor in step. -/
theorem PlatformStep.inStep
    (step : PlatformStep s3k link label before after)
    (inStep : InStep before) :
    InStep after := by
  cases step with
  | alloc size =>
      exact ⟨inStep.caps, inStep.empty⟩
  | free ptr =>
      exact ⟨inStep.caps, inStep.empty⟩
  | served fault _ asks serves =>
      exact ⟨trapHandler_cases.caps_of_asks asks,
        (serves.outcome parentKept inStep.empty).1⟩
  | silent fault _ reply quiet =>
      exact ⟨(trapHandler_cases.of_quiet quiet).1.trans inStep.caps,
        inStep.empty⟩
  | noted notice buf mem _ received passed =>
      have unchanged := loop_noted received passed
      refine ⟨?_, ?_⟩
      · rw [unchanged]
        exact inStep.caps
      · rw [World.getcap, unchanged]
        exact inStep.empty

section Served

variable
  {fault : Fault}
  {call : UpdateCall}
  {next : Monitor}
  (inStep : InStep before)
  (asks :
    (before.raised fault).Asks
      (trapHandler link (replyOf next) (before.raised fault)) call)
  (serves : Serves s3k fault.mem call before.monitor next)
include inStep asks serves

/-- A request that is answered with 0 is one for the chunk at the fault. -/
theorem Serves.opensChunk
    (isZero : next.recvBuf[0]! = 0) :
    ∃ i, OpensChunk link fault before (before.answered link fault next) i
      call.buf[3]! := by
  obtain ⟨⟨i, chunkAt, isCall⟩, ⟨notZero, -⟩ | ⟨-, epc, esp⟩⟩ :=
    trapHandler_cases.of_asks asks serves.code_le
  · exact absurd isZero notZero
  · obtain ⟨-, ⟨-, inRange, addr, changes⟩ | ⟨notZero, -⟩⟩ :=
      serves.outcome parentKept inStep.empty
    · have idx : call.idx = before.app.chunkSlot i := isCall.idx
      have replaced := changes.replaced
      obtain ⟨cfg, sent⟩ := changes.sent
      simp only [UpdateCall.request, idx] at sent replaced
      have slotInRange : before.app.chunkSlot i < ncap := idx ▸ inRange
      have shares := before.app.chunkSlot_sharesEnd slotInRange
      rw [inStep.caps] at shares
      refine ⟨i, chunkAt, ⟨epc, esp⟩, isCall.rights changes.signed,
        ⟨slotInRange, shares⟩, ⟨addr, cfg, sent, replaced⟩,
        fun slot other => ?_⟩
      refine changes.elsewhere appPid slot appPid_ne_monitorPid
        fun isSlot => other ?_
      rw [← idx]
      exact or_self_iff.mp isSlot.2
    · exact absurd isZero notZero

/-- With another code the app is reset and keeps its capabilities. -/
theorem Serves.wasReset
    (notZero : next.recvBuf[0]! ≠ 0) :
    WasReset link (before.answered link fault next) ∧
      ∀ slot, (before.answered link fault next).cap slot = before.cap slot := by
  obtain ⟨-, ⟨-, epc, esp⟩ | ⟨isZero, -⟩⟩ :=
    trapHandler_cases.of_asks asks serves.code_le
  · obtain ⟨-, ⟨isZero, -⟩ | ⟨-, same⟩⟩ :=
      serves.outcome parentKept inStep.empty
    · exact absurd isZero notZero
    · exact ⟨⟨Or.inl epc, esp⟩, fun slot => congrFun same slot⟩
  · exact absurd isZero notZero

end Served

/-- An exception either opens the chunk at the fault or resets the app. -/
theorem PlatformStep.outcome
    {fault : Fault}
    (step : PlatformStep s3k link (.fault fault) before after)
    (inStep : InStep before) :
    (∃ i rwx, OpensChunk link fault before after i rwx) ∨
      WasReset link after ∧ ∀ slot, after.cap slot = before.cap slot := by
  cases step with
  | silent _ _ reply quiet =>
      obtain ⟨-, entry, fresh⟩ := trapHandler_cases.of_quiet quiet
      exact Or.inr ⟨⟨entry, fresh⟩, fun _ => rfl⟩
  | @served _ _ call next asks serves =>
      by_cases isZero : next.recvBuf[0]! = 0
      · obtain ⟨i, opens⟩ :=
          serves.opensChunk parentKept inStep asks isZero
        exact Or.inl ⟨i, call.buf[3]!, opens⟩
      · exact Or.inr (serves.wasReset parentKept inStep asks isZero)

/-- So does every run. -/
theorem inStep_run
    {labels : List AppLabel}
    (run : Run (PlatformStep s3k link) labels before after)
    (start : InStep before) :
    InStep after :=
  run.invariant InStep
    (fun _ _ _ _ step inStep => step.inStep parentKept inStep)
    (fun _ _ => True.intro) start

/--
In every run, an exception lets the app go on where it was, with other rights
for the chunk at the fault and for nothing else, or it resets the app, which
then has exactly the capabilities it had.
-/
theorem exception_outcome
    {labels : List AppLabel}
    {initial : Platform}
    (fault : Fault)
    (start : InStep initial)
    (run : Run (PlatformStep s3k link) labels initial before)
    (step : PlatformStep s3k link (.fault fault) before after) :
    (∃ i rwx, OpensChunk link fault before after i rwx) ∨
      WasReset link after ∧ ∀ slot, after.cap slot = before.cap slot :=
  step.outcome parentKept (inStep_run parentKept run start)

end Steps

section Stores

/-- The request of the app when it writes to chunk `i`. -/
def Platform.rwCall (platform : Platform) (i : Nat) : UpdateCall :=
  .rw (platform.app.chunkSlot i) s3kRw

/-- A store to the chunk, with the stack pointer above the end of the heap. -/
structure StoresToChunk
    (link : AppLink)
    (platform : Platform)
    (fault : Fault)
    (i : Nat) :
    Prop where
  isStore : fault.ecause = 7
  above : link.stack < fault.esp
  chunkAt : platform.app.altmem.ChunkAt fault.eval i

/-- The handler asks for the chunk, whatever the reply will be. -/
theorem StoresToChunk.asks
    {link : AppLink}
    {platform : Platform}
    {fault : Fault}
    {i : Nat}
    (stores : StoresToChunk link platform fault i)
    (reply : Reply) :
    (platform.raised fault).Asks
      (trapHandler link reply (platform.raised fault)) (platform.rwCall i) := by
  rw [trapHandler_store link reply stores.isStore]
  rcases storeFault_heap link reply (platform.raised fault) stores.above with
    ⟨j, chunkAt, served⟩ | ⟨noChunk, -⟩
  · obtain rfl := chunkAt.unique stores.chunkAt
    rw [served]
    exact asks_concludeUpdate.mpr rfl
  · exact absurd stores.chunkAt (noChunk i)

end Stores

section Page

/-- One occupied chunk, over the region of the capability of `heapMonitor`. -/
def pageTable : Altmem where
  nchunks := 1
  chunks _ := { start := 0x80023000, size := chunkSize, occupied := true }
  nchunks_le := by decide

/-- The app knows its page of heap, and the monitor has opened nothing yet. -/
def pagePlatform : Platform where
  app :=
    { appWithHeap pageTable with
      caps := heapMonitor.world.kernel.table appPid }
  monitor := heapMonitor

/-- A write into that chunk. -/
def pageFault : Fault where
  mem := fun _ => 0
  epc := 0x80020300
  ecause := 7
  eval := 0x80023100
  esp := 0x8002FF00

/-- There is nothing in flight. -/
theorem pagePlatform_inStep : InStep pagePlatform :=
  ⟨rfl, rfl⟩

/-- The page is found, and the monitor opens it. -/
theorem pageFault_step :
    ∃ next,
      PlatformStep obliging linkedApp (.fault pageFault) pagePlatform next := by
  have stores : StoresToChunk linkedApp pagePlatform pageFault 0 :=
    ⟨rfl, by decide,
      ⟨by decide, by decide, fun _ before => absurd before (Nat.not_lt_zero _)⟩⟩
  have slot : pagePlatform.app.chunkSlot 0 = 0 := by
    decide +kernel
  have isCall : pagePlatform.rwCall 0 = .rw 0 s3kRw := by
    rw [Platform.rwCall, slot]
  have result :
      (loop obliging writeRequest heapMonitor).isSome = true := by
    decide +kernel
  obtain ⟨next, returned⟩ := Option.isSome_iff_exists.mp result
  refine ⟨_, .served pageFault pagePlatform (stores.asks (replyOf next)) ?_⟩
  rw [isCall]
  exact ⟨rfl, obliging_dependable (by decide) _, returned⟩

/-- A store to the page is served. -/
theorem pageFault_run :
    ∃ next,
      Run (PlatformStep obliging linkedApp) [.fault pageFault] pagePlatform
        next := by
  obtain ⟨next, step⟩ := pageFault_step
  exact ⟨next, .cons step (.nil next)⟩

/-- The write makes the app go on or resets it. -/
theorem pageFault_outcome :
    ∃ next,
      PlatformStep obliging linkedApp (.fault pageFault) pagePlatform next ∧
        ((∃ i rwx,
            OpensChunk linkedApp pageFault pagePlatform next i rwx) ∨
          WasReset linkedApp next ∧
            ∀ slot, next.cap slot = pagePlatform.cap slot) := by
  obtain ⟨next, step⟩ := pageFault_step
  exact ⟨next, step,
    exception_outcome (fun _ _ present => present) pageFault
      pagePlatform_inStep (.nil pagePlatform) step⟩

end Page

section Runs

/-- The chunks of the table are the same, and only their marks may differ. -/
structure Altmem.SameChunks (first second : Altmem) : Prop where
  nchunks : second.nchunks = first.nchunks
  start : ∀ i, (second.chunks i).start = (first.chunks i).start
  size : ∀ i, (second.chunks i).size = (first.chunks i).size

/-- A table has its own chunks. -/
theorem Altmem.SameChunks.refl (altmem : Altmem) :
    altmem.SameChunks altmem :=
  ⟨rfl, fun _ => rfl, fun _ => rfl⟩

/-- The chunks stay over several changes. -/
theorem Altmem.SameChunks.trans
    {first second third : Altmem}
    (head : first.SameChunks second)
    (tail : second.SameChunks third) :
    first.SameChunks third :=
  ⟨tail.nchunks.trans head.nchunks,
    fun i => (tail.start i).trans (head.start i),
    fun i => (tail.size i).trans (head.size i)⟩

/-- A mark moves no chunk. -/
theorem setOccupied_sameChunks
    (altmem : Altmem)
    (i : Nat)
    (occupied : Bool) :
    altmem.SameChunks (altmem.setOccupied i occupied) :=
  ⟨rfl, fun _ => setOccupied_start, fun _ => setOccupied_size⟩

/-- An allocation moves no chunk. -/
theorem altmemAlloc_sameChunks
    (altmem : Altmem)
    (size : Word) :
    altmem.SameChunks (altmemAlloc altmem size).2 := by
  rcases altmemAlloc_cases altmem size with
    ⟨i, -, -, -, taken⟩ | ⟨-, unchanged⟩
  · rw [taken]
    exact setOccupied_sameChunks altmem i true
  · rw [unchanged]
    exact .refl altmem

/-- A free moves no chunk. -/
theorem altmemFree_sameChunks
    (altmem : Altmem)
    (ptr : Word) :
    altmem.SameChunks (altmemFree altmem ptr) := by
  rcases altmemFree_cases altmem ptr with ⟨i, -, -, released⟩ | ⟨-, unchanged⟩
  · rw [released]
    exact setOccupied_sameChunks altmem i false
  · rw [unchanged]
    exact .refl altmem

/-- The handler moves no chunk. -/
theorem trapHandler_sameChunks
    (link : AppLink)
    (reply : Reply)
    (app : App) :
    app.altmem.SameChunks (trapHandler link reply app).altmem := by
  rw [trapHandler_altmem]
  split_ifs
  · unfold altmemStackexpansion
    dsimp only
    split_ifs
    · exact .refl app.altmem
    · exact setOccupied_sameChunks _ _ _
  · exact .refl app.altmem

/--
The capability is as it was, or it was one for a region that shares an end
with a chunk of the heap and now has the rights `RW` or `RX` for that region.
-/
def KeptOrReopened
    (before after : Platform)
    (slot : Nat) :
    Prop :=
  after.cap slot = before.cap slot ∨
    ∃ i addr cfg rwx,
      i < before.app.altmem.nchunks ∧
        (before.cap slot).SharesEnd (before.app.altmem.chunks i).start
          (before.app.altmem.chunks i).stop ∧
        before.cap slot = .pmp addr cfg ∧
        (rwx = s3kRw ∨ rwx = 0x5) ∧
        IsPmpFor (s3kPmpNapotBegin addr) (s3kPmpNapotEnd addr) rwx
          (after.cap slot)

/-- What a run leaves of the table of chunks and of the capabilities. -/
structure OnlyReopens (before after : Platform) : Prop where
  chunks : before.app.altmem.SameChunks after.app.altmem
  caps : ∀ slot, KeptOrReopened before after slot

variable
  {s3k : S3k}
  {link : AppLink}
  {first second third : Platform}

/-- A region that is opened again is still the one of the beginning. -/
theorem OnlyReopens.trans
    (head : OnlyReopens first second)
    (tail : OnlyReopens second third) :
    OnlyReopens first third := by
  refine ⟨head.chunks.trans tail.chunks, fun slot => ?_⟩
  rcases tail.caps slot with
    kept | ⟨i, addr, cfg, rwx, inRange, shares, isPmp, isRwx, reopened⟩
  · rcases head.caps slot with
      same | ⟨i, addr, cfg, rwx, inRange, shares, isPmp, isRwx, reopened⟩
    · exact Or.inl (kept.trans same)
    · rw [← kept] at reopened
      exact Or.inr
        ⟨i, addr, cfg, rwx, inRange, shares, isPmp, isRwx, reopened⟩
  · rw [head.chunks.nchunks] at inRange
    rw [Chunk.stop, head.chunks.start, head.chunks.size] at shares
    rcases head.caps slot with
      same | ⟨_, oldAddr, oldCfg, _, -, -, wasPmp, -, between⟩
    · rw [same] at shares isPmp
      exact Or.inr
        ⟨i, addr, cfg, rwx, inRange, shares, isPmp, isRwx, reopened⟩
    · obtain ⟨_, _, isSame, sameRegion⟩ := between
      rw [isPmp] at isSame shares
      cases isSame
      obtain ⟨⟨beginEq, endEq⟩, rfl, -⟩ := sameRegion
      rw [← beginEq, ← endEq] at reopened
      refine Or.inr
        ⟨i, oldAddr, oldCfg, rwx, inRange, ?_, wasPmp, isRwx, reopened⟩
      rw [Cap.SharesEnd, ← beginEq, ← endEq] at shares
      rw [wasPmp]
      exact shares

/-- Doing nothing reopens nothing. -/
theorem OnlyReopens.refl (platform : Platform) :
    OnlyReopens platform platform :=
  ⟨.refl _, fun _ => Or.inl rfl⟩

/-- An exception that opens a chunk reopens what shares an end with it. -/
theorem OpensChunk.onlyReopens
    {fault : Fault}
    {i : Nat}
    {rwx : Word}
    (opens : OpensChunk link fault first second i rwx)
    (chunks : first.app.altmem.SameChunks second.app.altmem) :
    OnlyReopens first second := by
  refine ⟨chunks, fun slot => ?_⟩
  by_cases isSlot : slot = first.app.chunkSlot i
  · subst isSlot
    obtain ⟨addr, cfg, wasPmp, reopened⟩ := opens.replaced
    have isRwx : rwx = s3kRw ∨ rwx = 0x5 :=
      opens.rights.imp (fun isWrite => isWrite.2) fun isJump => isJump.2.1
    exact Or.inr
      ⟨i, addr, cfg, rwx, opens.chunkAt.inRange, opens.found.2, wasPmp, isRwx,
        reopened⟩
  · exact Or.inl (opens.elsewhere slot isSlot)

variable
  (parentKept :
    ∀ parent child, parent ≠ .none → s3k.derived parent child ≠ .none)
include parentKept

/-- A step of the platform only reopens. -/
theorem PlatformStep.onlyReopens
    {label : AppLabel}
    (step : PlatformStep s3k link label first second)
    (inStep : InStep first) :
    OnlyReopens first second := by
  cases step with
  | alloc size =>
      exact ⟨altmemAlloc_sameChunks _ _, fun _ => Or.inl rfl⟩
  | free ptr =>
      exact ⟨altmemFree_sameChunks _ _, fun _ => Or.inl rfl⟩
  | @served fault _ _ next asks serves =>
      have chunks :=
        trapHandler_sameChunks link (replyOf next) (first.raised fault)
      rcases (PlatformStep.served fault first asks serves).outcome parentKept
          inStep with ⟨i, rwx, opens⟩ | ⟨-, same⟩
      · exact opens.onlyReopens chunks
      · exact ⟨chunks, fun slot => Or.inl (same slot)⟩
  | silent fault _ reply quiet =>
      exact ⟨trapHandler_sameChunks link reply (first.raised fault),
        fun _ => Or.inl rfl⟩
  | noted notice buf mem _ received passed =>
      refine ⟨.refl _, fun slot => Or.inl ?_⟩
      rw [Platform.cap, loop_noted received passed]
      rfl

/--
In every run the app keeps each of its capabilities, apart from those whose
region shares an end with a chunk of the heap; these stay over their region,
and each time they change they become `RW` or `RX`.
-/
theorem run_onlyReopens
    {labels : List AppLabel}
    (start : InStep first)
    (run : Run (PlatformStep s3k link) labels first second) :
    OnlyReopens first second := by
  exact
    run.relates InStep OnlyReopens (fun platform => .refl platform)
      (fun _ _ _ head tail => head.trans tail)
      (fun _ _ _ step inStep => step.inStep parentKept inStep)
      (fun _ _ _ step inStep => step.onlyReopens parentKept inStep) start

end Runs

/-- A run that consists of this write. -/
theorem pageFault_onlyReopens :
    ∃ next,
      Run (PlatformStep obliging linkedApp) [.fault pageFault] pagePlatform
          next ∧
        OnlyReopens pagePlatform next := by
  obtain ⟨next, run⟩ := pageFault_run
  exact ⟨next, run,
    run_onlyReopens (fun _ _ present => present) pagePlatform_inStep run⟩

end S3kMonitor
