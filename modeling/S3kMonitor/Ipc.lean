import S3kMonitor.WriteXorExecute
import S3kMonitor.Lib.Rendezvous
import S3kMonitor.Lib.Runs

namespace S3kMonitor

open Rendezvous Runs

/-!
# The app and the monitor as two parties

`th_updatepmp_rw` and `th_updatepmp_rx` of `app/trap.c` send a request and
then receive the reply; `loop` of `monitor/monitor.c` receives, handles and
replies.  Sending and receiving are steps of their own, so either party can be
preempted between them.  IPC is a rendezvous: a message and its capability
move only if the other side is already blocked in the matching call, and what
`s3k_send` returns is not looked at on either side.
-/

/-- The message of `th_updatepmp_rw`. -/
def thUpdatepmpRw (rwx : Word) : Words :=
  #v[0x02, 0x00, 0x00, rwx]

/-- The message of `th_updatepmp_rx`. -/
def thUpdatepmpRx (sigAddr rwx : Word) : Words :=
  #v[0x02, sigAddr, 0x00, rwx]

/-- A call of one of the two functions. -/
inductive UpdateCall where
  | rw (idx : Nat) (rwx : Word)
  | rx (idx : Nat) (sigAddr rwx : Word)

/-- The slot whose capability is sent along. -/
def UpdateCall.idx : UpdateCall → Nat
  | .rw idx _ => idx
  | .rx idx _ _ => idx

/-- The message. -/
def UpdateCall.buf : UpdateCall → Words
  | .rw _ rwx => thUpdatepmpRw rwx
  | .rx _ sigAddr rwx => thUpdatepmpRx sigAddr rwx

/-- What the app tells the monitor without waiting for a reply. -/
inductive Notice where
  | handledException
  | failedException
  | finished
deriving DecidableEq

/-- What stands in the first word. -/
def Notice.code : Notice → Word
  | .handledException => 0x00
  | .failedException => 0x01
  | .finished => -1

/-- The app before its `s3k_send`, between the calls, or in its `s3k_recv`. -/
inductive AppAt where
  | running
  | sending (idx : Nat)
  | sent (idx : Nat)
  | waiting (idx : Nat)
deriving DecidableEq

/-- The monitor before or in its `s3k_recv`, behind it, or at its `s3k_send`. -/
inductive MonitorAt where
  | entering
  | receiving
  | handling
  | answering (answer : Answer)
deriving DecidableEq

/-- The app with its message buffer, and the monitor. -/
structure System where
  appAt : AppAt
  buf : Words
  monitorAt : MonitorAt
  monitor : Monitor

/--
What either party does next.  In `work` the app runs outside the two functions
and leaves its memory and its capability slots in any state.
-/
inductive IpcLabel where
  | work (mem : Memory) (slots : Nat → Cap)
  | notify (notice : Notice)
  | ask (call : UpdateCall)
  | appSend
  | appRecv
  | monitorRecv
  | handle
  | monitorSend

namespace System

variable (system : System)

/-- The app outside the two functions. -/
def work (mem : Memory) (slots : Nat → Cap) : System :=
  let world := system.monitor.world
  let kernel :=
    { world.kernel with
      table := fun pid =>
        if pid = appPid then slots else world.kernel.table pid }
  { system with
    monitor :=
      { system.monitor with
        world := { world with mem := mem, kernel := kernel } } }

/-- The `s3k_recv` of the monitor returns with these words. -/
def received (words : Words) (kernel : Kernel) : System :=
  { system with
    monitorAt := .handling
    monitor :=
      { system.monitor with
        recvBuf := words
        world := { system.monitor.world with kernel := kernel } } }

/-- `buf[0] = code; s3k_send(soccaps[0], buf, -1ull, false)`. -/
def notify (notice : Notice) : System :=
  let told := { system with buf := system.buf.setIfInBounds 0 notice.code }
  match system.monitorAt with
  | .receiving => told.received told.buf system.monitor.world.kernel
  | _ => told

/-- `s3k_send(soccaps[0], buf, idx, false)`. -/
def appSend (idx : Nat) : System :=
  let sent := { system with appAt := .sent idx }
  match system.monitorAt with
  | .receiving =>
      sent.received system.buf
        (system.monitor.world.kernel.transfer appPid idx monitorPid
          flightSlot)
  | _ => sent

/-- The `switch` of `loop` up to the reply. -/
def handle (s3k : S3k) : Option System :=
  if system.monitor.recvBuf[0]! = -1 then
    some
      { system with
        monitorAt := .entering
        monitor := { system.monitor with appRunning := false } }
  else if system.monitor.recvBuf[0]! = 0x02 then
    match answerUpdate s3k system.monitor with
    | none => none
    | some (answer, world) =>
        some
          { system with
            monitorAt := .answering answer
            monitor := { system.monitor with world := world } }
  else
    some { system with monitorAt := .entering }

/-- The monitor behind its `s3k_send`, which has left the kernel like this. -/
def answered (answer : Answer) (kernel : Kernel) : System :=
  let world := { system.monitor.world with kernel := kernel }
  { system with
    monitorAt := .entering
    monitor :=
      { system.monitor with
        recvBuf := system.monitor.recvBuf.setIfInBounds 0 answer.code
        world := if answer.resync then capmanUpdate world else world } }

/-- `s3k_send(soccaps[1], recv_buf, 0x30, false)` and what follows it. -/
def monitorSend (answer : Answer) : System :=
  let kernel := system.monitor.world.kernel
  match system.appAt with
  | .waiting idx =>
      { system.answered answer
          (kernel.transfer monitorPid flightSlot appPid idx) with
        appAt := .running
        buf := system.monitor.recvBuf.setIfInBounds 0 answer.code }
  | _ => system.answered answer kernel

variable
  {system : System}
  {notice : Notice}
  {idx : Nat}
  {answer : Answer}

/-- A notice is received if the monitor waits for one. -/
theorem notify_of_receiving
    (listens : system.monitorAt = .receiving) :
    system.notify notice =
      { system.received (system.buf.setIfInBounds 0 notice.code)
          system.monitor.world.kernel with
        buf := system.buf.setIfInBounds 0 notice.code } := by
  simp [notify, listens, received]

/-- Otherwise it is lost. -/
theorem notify_of_absent
    (absent : system.monitorAt ≠ .receiving) :
    system.notify notice =
      { system with buf := system.buf.setIfInBounds 0 notice.code } := by
  simp [notify]

/-- A request is received if the monitor waits for one. -/
theorem appSend_of_receiving
    (listens : system.monitorAt = .receiving) :
    system.appSend idx =
      { system.received system.buf
          (system.monitor.world.kernel.transfer appPid idx monitorPid
            flightSlot) with
        appAt := .sent idx } := by
  simp [appSend, listens, received]

/-- Otherwise it is lost, with its capability still in the app. -/
theorem appSend_of_absent
    (absent : system.monitorAt ≠ .receiving) :
    system.appSend idx = { system with appAt := .sent idx } := by
  simp [appSend]

/-- A reply is received if the app waits for one. -/
theorem monitorSend_of_waiting
    (waits : system.appAt = .waiting idx) :
    system.monitorSend answer =
      { system.answered answer
          (system.monitor.world.kernel.transfer monitorPid flightSlot appPid
            idx) with
        appAt := .running
        buf := system.monitor.recvBuf.setIfInBounds 0 answer.code } := by
  simp [monitorSend, waits]

/-- Otherwise it is lost. -/
theorem monitorSend_of_absent
    (absent : ∀ idx, system.appAt ≠ .waiting idx) :
    system.monitorSend answer =
      system.answered answer system.monitor.world.kernel := by
  unfold monitorSend
  split
  · next idx waits =>
    exact absurd waits (absent idx)
  · rfl

end System

/-- One step of either party; `none` if it cannot make this step. -/
def ipcStep (s3k : S3k) (label : IpcLabel) (system : System) :
    Option System :=
  match label, system.appAt, system.monitorAt with
  | .work mem slots, .running, _ => some (system.work mem slots)
  | .notify notice, .running, _ => some (system.notify notice)
  | .ask call, .running, _ =>
      some { system with appAt := .sending call.idx, buf := call.buf }
  | .appSend, .sending idx, _ => some (system.appSend idx)
  | .appRecv, .sent idx, _ => some { system with appAt := .waiting idx }
  | .monitorRecv, _, .entering =>
      if system.monitor.appRunning then
        some { system with monitorAt := .receiving }
      else
        none
  | .handle, _, .handling => system.handle s3k
  | .monitorSend, _, .answering answer => some (system.monitorSend answer)
  | _, _, _ => none

/-- One step of either party. -/
def IpcStep (s3k : S3k) (label : IpcLabel) (system next : System) : Prop :=
  ipcStep s3k label system = some next

/-- The steps of a list, one after the other. -/
def ipcRun (s3k : S3k) : List IpcLabel → System → Option System
  | [], system => some system
  | label :: rest, system =>
      match ipcStep s3k label system with
      | none => none
      | some next => ipcRun s3k rest next

/-- The state in which both parties begin, after `setup`. -/
def Started (system : System) : Prop :=
  system.appAt = .running ∧ system.monitorAt = .entering

/--
While the app is blocked waiting for the reply, the monitor works on this very
request.
-/
def NotStranded (system : System) : Prop :=
  ∀ idx, system.appAt = .waiting idx →
    (system.monitorAt = .handling ∨
        ∃ answer, system.monitorAt = .answering answer) ∧
      system.monitor.recvBuf = system.buf

/--
A step in which no request is sent unless the monitor is blocked in its
`s3k_recv`, and no reply unless the app is blocked in its `s3k_recv`.
-/
structure TimelyStep
    (s3k : S3k)
    (label : IpcLabel)
    (system next : System) :
    Prop where
  step : IpcStep s3k label system next
  requested : label = .appSend → system.monitorAt = .receiving
  replied : label = .monitorSend → ∃ idx, system.appAt = .waiting idx

section Protocol

/-- The protocol that the two parties follow. -/
def AppAt.client : AppAt → Client
  | .running => .idle
  | .sending _ => .sending
  | .sent _ => .sent
  | .waiting _ => .waiting

/-- Behind its `s3k_recv` the monitor goes by the first word. -/
def MonitorAt.server (recvBuf : Words) : MonitorAt → Server
  | .entering => .away
  | .receiving => .listening
  | .handling => if recvBuf[0]! = 0x02 then .handling else .noting
  | .answering _ => .replying

/-- Where both parties are, without their data. -/
def System.parties (system : System) : Parties where
  client := system.appAt.client
  server := system.monitorAt.server system.monitor.recvBuf

/-- Which move of the rendezvous a step is. -/
def IpcLabel.move : IpcLabel → Move
  | .work _ _ => .work
  | .notify _ => .notify
  | .ask _ => .ask
  | .appSend => .send
  | .appRecv => .await
  | .monitorRecv => .listen
  | .handle => .handle
  | .monitorSend => .reply

/-- Where the words of a request are while it is open. -/
structure RequestKept (system : System) : Prop where
  asked : system.parties.client ≠ .idle → system.buf[0]! = 0x02
  received : Pending system.parties → system.monitor.recvBuf = system.buf

/-- Every call asks for an update. -/
theorem UpdateCall.buf_opcode (call : UpdateCall) :
    call.buf[0]! = 0x02 := by
  cases call with
  | rw idx rwx =>
      rfl
  | rx idx sigAddr rwx =>
      rfl

/-- No notice does. -/
theorem Notice.code_ne (notice : Notice) :
    notice.code ≠ 0x02 := by
  cases notice <;> decide

variable
  {s3k : S3k}
  {label : IpcLabel}
  {system next : System}

/-- The `switch` ends in a reply if and only if the first word asks for it. -/
theorem System.handle_cases
    (handled : system.handle s3k = some next) :
    (system.monitor.recvBuf[0]! = 0x02 ∧
      ∃ answer world,
        next =
          { system with
            monitorAt := .answering answer
            monitor := { system.monitor with world := world } }) ∨
    (system.monitor.recvBuf[0]! ≠ 0x02 ∧
      ∃ appRunning,
        next =
          { system with
            monitorAt := .entering
            monitor := { system.monitor with appRunning := appRunning } }) := by
  unfold System.handle at handled
  split at handled
  · next finished =>
    cases handled
    refine Or.inr ⟨?_, false, rfl⟩
    rw [finished]
    decide
  · split at handled
    · next asks =>
      split at handled
      · cases handled
      · next answer world _ =>
        cases handled
        exact Or.inl ⟨asks, answer, world, rfl⟩
    · next asksNot =>
      cases handled
      exact Or.inr ⟨asksNot, system.monitor.appRunning, rfl⟩

/-- What a step of either party can be. -/
inductive StepCase (s3k : S3k) (system : System) :
    IpcLabel → System → Prop where
  | work
      (mem : Memory)
      (slots : Nat → Cap)
      (appAt : system.appAt = .running) :
      StepCase s3k system (.work mem slots) (system.work mem slots)
  | notify
      (notice : Notice)
      (appAt : system.appAt = .running) :
      StepCase s3k system (.notify notice) (system.notify notice)
  | ask
      (call : UpdateCall)
      (appAt : system.appAt = .running) :
      StepCase s3k system (.ask call)
        { system with appAt := .sending call.idx, buf := call.buf }
  | appSend
      (idx : Nat)
      (appAt : system.appAt = .sending idx) :
      StepCase s3k system .appSend (system.appSend idx)
  | appRecv
      (idx : Nat)
      (appAt : system.appAt = .sent idx) :
      StepCase s3k system .appRecv { system with appAt := .waiting idx }
  | monitorRecv
      (monitorAt : system.monitorAt = .entering) :
      StepCase s3k system .monitorRecv { system with monitorAt := .receiving }
  | handle
      {next : System}
      (monitorAt : system.monitorAt = .handling)
      (handled : system.handle s3k = some next) :
      StepCase s3k system .handle next
  | monitorSend
      (answer : Answer)
      (monitorAt : system.monitorAt = .answering answer) :
      StepCase s3k system .monitorSend (system.monitorSend answer)

/-- A step of the system is one of the cases. -/
theorem IpcStep.stepCase
    (step : IpcStep s3k label system next) :
    StepCase s3k system label next := by
  unfold IpcStep ipcStep at step
  split at step
  · next mem slots appAt =>
    cases step
    exact .work mem slots appAt
  · next notice appAt =>
    cases step
    exact .notify notice appAt
  · next call appAt =>
    cases step
    exact .ask call appAt
  · next idx appAt =>
    cases step
    exact .appSend idx appAt
  · next idx appAt =>
    cases step
    exact .appRecv idx appAt
  · next monitorAt =>
    split at step
    · cases step
      exact .monitorRecv monitorAt
    · cases step
  · next monitorAt =>
    exact .handle monitorAt step
  · next answer monitorAt =>
    cases step
    exact .monitorSend answer monitorAt
  · cases step

/-- An app outside the functions is idle. -/
@[simp]
theorem AppAt.client_running :
    AppAt.running.client = .idle :=
  rfl

/-- Before its `s3k_send` it is sending. -/
@[simp]
theorem AppAt.client_sending (idx : Nat) :
    (AppAt.sending idx).client = .sending :=
  rfl

/-- Between the two calls it has sent. -/
@[simp]
theorem AppAt.client_sent (idx : Nat) :
    (AppAt.sent idx).client = .sent :=
  rfl

/-- In its `s3k_recv` it waits. -/
@[simp]
theorem AppAt.client_waiting (idx : Nat) :
    (AppAt.waiting idx).client = .waiting :=
  rfl

/-- A monitor before its `s3k_recv` is away. -/
@[simp]
theorem MonitorAt.server_entering (recvBuf : Words) :
    MonitorAt.entering.server recvBuf = .away :=
  rfl

/-- In its `s3k_recv` it listens. -/
@[simp]
theorem MonitorAt.server_receiving (recvBuf : Words) :
    MonitorAt.receiving.server recvBuf = .listening :=
  rfl

/-- Before its `s3k_send` it replies. -/
@[simp]
theorem MonitorAt.server_answering
    (recvBuf : Words)
    (answer : Answer) :
    (MonitorAt.answering answer).server recvBuf = .replying :=
  rfl

/-- It handles a request. -/
theorem MonitorAt.server_request
    {recvBuf : Words}
    (asks : recvBuf[0]! = 0x02) :
    MonitorAt.handling.server recvBuf = .handling :=
  if_pos asks

/-- It takes note of anything else. -/
theorem MonitorAt.server_notice
    {recvBuf : Words}
    (asksNot : recvBuf[0]! ≠ 0x02) :
    MonitorAt.handling.server recvBuf = .noting :=
  if_neg asksNot

/-- A monitor that listens in the protocol is blocked in its `s3k_recv`. -/
theorem MonitorAt.server_eq_listening_iff
    (monitorAt : MonitorAt)
    (recvBuf : Words) :
    monitorAt.server recvBuf = .listening ↔ monitorAt = .receiving := by
  cases monitorAt with
  | handling =>
      simp only [MonitorAt.server, reduceCtorEq, iff_false]
      split <;> simp
  | _ =>
      simp [MonitorAt.server]

/-- A waiting app waits in some slot. -/
theorem AppAt.client_eq_waiting_iff (appAt : AppAt) :
    appAt.client = .waiting ↔ ∃ idx, appAt = .waiting idx := by
  cases appAt <;> simp [AppAt.client]

/-- Every step of the two parties is a move of the protocol. -/
theorem IpcStep.moves
    (step : IpcStep s3k label system next)
    (kept : RequestKept system) :
    Moves label.move system.parties next.parties := by
  cases step.stepCase with
  | work mem slots appAt =>
      exact .work system.parties
  | notify notice appAt =>
      by_cases listens : system.monitorAt = .receiving
      · have asksNot :
            (system.buf.setIfInBounds 0 notice.code)[0]! ≠ 0x02 := by
          simpa using notice.code_ne
        rw [System.notify_of_receiving listens]
        simpa [IpcLabel.move, System.parties, System.received, appAt, listens,
          MonitorAt.server_notice asksNot] using Moves.notifyDelivered
      · have absent : system.parties.server ≠ .listening := by
          simpa [System.parties, MonitorAt.server_eq_listening_iff] using
            listens
        rw [System.notify_of_absent listens]
        simpa [IpcLabel.move, System.parties, appAt] using
          Moves.notifyLost _ absent
  | ask call appAt =>
      simpa [IpcLabel.move, System.parties, appAt] using
        Moves.ask system.parties.server
  | appSend idx appAt =>
      by_cases listens : system.monitorAt = .receiving
      · have asks : system.buf[0]! = 0x02 :=
          kept.asked (by simp [System.parties, appAt])
        rw [System.appSend_of_receiving listens]
        simpa [IpcLabel.move, System.parties, System.received, appAt, listens,
          MonitorAt.server_request asks] using Moves.sendDelivered
      · have absent : system.parties.server ≠ .listening := by
          simpa [System.parties, MonitorAt.server_eq_listening_iff] using
            listens
        rw [System.appSend_of_absent listens]
        simpa [IpcLabel.move, System.parties, appAt] using
          Moves.sendLost _ absent
  | appRecv idx appAt =>
      simpa [IpcLabel.move, System.parties, appAt] using
        Moves.await system.parties.server
  | monitorRecv monitorAt =>
      simpa [IpcLabel.move, System.parties, monitorAt] using
        Moves.listen system.parties.client
  | handle monitorAt handled =>
      rcases System.handle_cases handled with
        ⟨asks, answer, world, rfl⟩ | ⟨asksNot, appRunning, rfl⟩
      · simpa [IpcLabel.move, System.parties, monitorAt,
          MonitorAt.server_request asks] using
          Moves.handleRequest system.parties.client
      · simpa [IpcLabel.move, System.parties, monitorAt,
          MonitorAt.server_notice asksNot] using
          Moves.handleNotice system.parties.client
  | monitorSend answer monitorAt =>
      by_cases waits : ∃ idx, system.appAt = .waiting idx
      · obtain ⟨idx, waits⟩ := waits
        rw [System.monitorSend_of_waiting waits]
        simpa [IpcLabel.move, System.parties, System.answered, waits,
          monitorAt] using Moves.replyDelivered
      · have absent : system.parties.client ≠ .waiting := by
          simpa [System.parties, AppAt.client_eq_waiting_iff] using waits
        rw [System.monitorSend_of_absent (not_exists.mp waits)]
        simpa [IpcLabel.move, System.parties, System.answered, monitorAt] using
          Moves.replyLost _ absent

/-- Until the reply the buffer of the app holds the request. -/
theorem IpcStep.asked
    (step : IpcStep s3k label system next)
    (kept : RequestKept system) :
    next.parties.client ≠ .idle → next.buf[0]! = 0x02 := by
  cases step.stepCase with
  | work mem slots appAt =>
      exact kept.asked
  | notify notice appAt =>
      by_cases listens : system.monitorAt = .receiving
      · rw [System.notify_of_receiving listens]
        simp [System.parties, System.received, appAt]
      · rw [System.notify_of_absent listens]
        simp [System.parties, appAt]
  | ask call appAt =>
      exact fun _ => call.buf_opcode
  | appSend idx appAt =>
      have asks : system.buf[0]! = 0x02 :=
        kept.asked (by simp [System.parties, appAt])
      by_cases listens : system.monitorAt = .receiving
      · rw [System.appSend_of_receiving listens]
        exact fun _ => asks
      · rw [System.appSend_of_absent listens]
        exact fun _ => asks
  | appRecv idx appAt =>
      exact fun _ => kept.asked (by simp [System.parties, appAt])
  | monitorRecv monitorAt =>
      exact kept.asked
  | handle monitorAt handled =>
      rcases System.handle_cases handled with
        ⟨_, answer, world, rfl⟩ | ⟨_, appRunning, rfl⟩
      · exact kept.asked
      · exact kept.asked
  | monitorSend answer monitorAt =>
      by_cases waits : ∃ idx, system.appAt = .waiting idx
      · obtain ⟨idx, waits⟩ := waits
        rw [System.monitorSend_of_waiting waits]
        simp [System.parties]
      · rw [System.monitorSend_of_absent (not_exists.mp waits)]
        exact kept.asked

/-- As long as no message is lost, the monitor has the pending request. -/
theorem TimelyStep.received
    (step : TimelyStep s3k label system next)
    (kept : RequestKept system) :
    Pending next.parties → next.monitor.recvBuf = next.buf := by
  cases step.step.stepCase with
  | work mem slots appAt =>
      exact kept.received
  | notify notice appAt =>
      by_cases listens : system.monitorAt = .receiving
      · rw [System.notify_of_receiving listens]
        simp [System.parties, System.received, appAt, Pending]
      · rw [System.notify_of_absent listens]
        simp [System.parties, appAt, Pending]
  | ask call appAt =>
      simp [System.parties, Pending]
  | appSend idx appAt =>
      rw [System.appSend_of_receiving (step.requested rfl)]
      exact fun _ => rfl
  | appRecv idx appAt =>
      exact fun _ => kept.received (Or.inl (by simp [System.parties, appAt]))
  | monitorRecv monitorAt =>
      exact kept.received
  | handle monitorAt handled =>
      rcases System.handle_cases handled with
        ⟨_, answer, world, rfl⟩ | ⟨_, appRunning, rfl⟩
      · exact kept.received
      · exact kept.received
  | monitorSend answer monitorAt =>
      obtain ⟨idx, waits⟩ := step.replied rfl
      rw [System.monitorSend_of_waiting waits]
      simp [System.parties, Pending]

/-- A timely step of the two parties is a timely move of the protocol. -/
theorem TimelyStep.timely
    (step : TimelyStep s3k label system next) :
    Timely label.move system.parties := by
  cases label with
  | appSend =>
      have listens := step.requested rfl
      simp [IpcLabel.move, Timely, System.parties, listens, MonitorAt.server]
  | monitorSend =>
      obtain ⟨idx, waits⟩ := step.replied rfl
      simp [IpcLabel.move, Timely, System.parties, waits, AppAt.client]
  | _ =>
      trivial

/-- A step that is not timely is no timely move of the protocol either. -/
theorem IpcStep.lost
    (step : IpcStep s3k label system next)
    (untimely : ¬ TimelyStep s3k label system next) :
    ¬ Timely label.move system.parties := by
  intro timely
  refine untimely ⟨step, ?_, ?_⟩
  · rintro rfl
    exact (MonitorAt.server_eq_listening_iff _ _).mp timely
  · rintro rfl
    exact (AppAt.client_eq_waiting_iff _).mp timely

end Protocol

section Runs

/-- The two parties work on the same request, or on none. -/
structure Together (system : System) : Prop where
  paired : Paired system.parties
  kept : RequestKept system

variable
  {s3k : S3k}
  {label : IpcLabel}
  {labels : List IpcLabel}
  {system next start final : System}

/-- A started system is together. -/
theorem Started.together
    (started : Started start) :
    Together start := by
  obtain ⟨appAt, monitorAt⟩ := started
  constructor
  · simp [Paired, Working, Pending, System.parties, appAt, monitorAt]
  · constructor <;> simp [Pending, System.parties, appAt]

/-- A step without loss keeps it together. -/
theorem TimelyStep.together
    (step : TimelyStep s3k label system next)
    (together : Together system) :
    Together next where
  paired :=
    (step.step.moves together.kept).paired step.timely together.paired
  kept := ⟨step.step.asked together.kept, step.received together.kept⟩

/-- So does a run of such steps. -/
theorem Together.of_run
    (started : Started start)
    (run : Run (TimelyStep s3k) labels start final) :
    Together final :=
  run.invariant Together
    (fun _ _ _ (_ : True) step together => step.together together)
    (fun _ _ => trivial)
    started.together

/-- A system that is together is not stranded. -/
theorem Together.notStranded
    (together : Together system) :
    NotStranded system := by
  intro idx waits
  have pending : Pending system.parties :=
    Or.inr (by simp [System.parties, waits])
  refine ⟨?_, together.kept.received pending⟩
  have working := together.paired.mpr pending
  cases monitorAt : system.monitorAt with
  | handling =>
      exact Or.inl rfl
  | answering answer =>
      exact Or.inr ⟨answer, rfl⟩
  | _ =>
      simp [Working, System.parties, monitorAt] at working

/-- While the app waits, the monitor is at its request. -/
theorem NotStranded.working
    {idx : Nat}
    (served : NotStranded system)
    (asks : system.buf[0]! = 0x02)
    (waits : system.appAt = .waiting idx) :
    Working system.parties := by
  obtain ⟨handles | ⟨answer, answers⟩, kept⟩ := served idx waits
  · have received : system.monitor.recvBuf[0]! = 0x02 := by
      rw [kept]
      exact asks
    refine Or.inl ?_
    simp only [System.parties, handles]
    exact MonitorAt.server_request received
  · exact Or.inr (by simp [System.parties, answers])

/--
As long as no request is sent before the monitor is blocked in `s3k_recv`, and
no reply before the app is, an app that waits for a reply is being served.
-/
theorem timely_run_notStranded
    (started : Started start)
    (run : Run (TimelyStep s3k) labels start final) :
    NotStranded final :=
  (Together.of_run started run).notStranded

/-- An app that can read a page of its heap, before it asks to write to it. -/
def heapSystem : System where
  appAt := .running
  buf := Vector.replicate 4 0
  monitorAt := .entering
  monitor := heapMonitor

/-- The app is blocked in its `s3k_recv` while the monitor has the request. -/
theorem writeRequest_notStranded :
    ∃ final,
      Run (TimelyStep (S3k.generous fun _ _ => false))
          [.monitorRecv, .ask (.rw 0 0x3), .appSend, .appRecv, .handle]
          heapSystem final ∧
        final.appAt = .waiting 0 ∧
        NotStranded final := by
  let asked : System :=
    { heapSystem with
      appAt := .sending 0, buf := thUpdatepmpRw 0x3, monitorAt := .receiving }
  let waiting : System := { asked.appSend 0 with appAt := .waiting 0 }
  have result :
      (ipcStep (S3k.generous fun _ _ => false) .handle waiting).map
          System.appAt =
        some (.waiting 0) := by
    decide +kernel
  obtain ⟨final, handled, waits⟩ := Option.map_eq_some_iff.mp result
  have run :
      Run (TimelyStep (S3k.generous fun _ _ => false))
        [.monitorRecv, .ask (.rw 0 0x3), .appSend, .appRecv, .handle]
        heapSystem final :=
    .cons ⟨rfl, nofun, nofun⟩ <|
      .cons ⟨rfl, nofun, nofun⟩ <|
        .cons ⟨rfl, fun _ => rfl, nofun⟩ <|
          .cons ⟨rfl, nofun, nofun⟩ <|
            .cons ⟨handled, nofun, nofun⟩ (.nil final)
  exact ⟨final, run, waits, timely_run_notStranded ⟨rfl, rfl⟩ run⟩

/-- The first step that is not timely ends with the app waiting for nothing. -/
theorem untimely_step_strands
    (started : Started start)
    (run : Run (TimelyStep s3k) labels start system)
    (step : IpcStep s3k label system next)
    (untimely : ¬ TimelyStep s3k label system next) :
    ∃ final, IpcStep s3k .appRecv next final ∧ ¬ NotStranded final := by
  have together := Together.of_run started run
  obtain ⟨isSent, idle⟩ :=
    (step.moves together.kept).stranded (step.lost untimely) together.paired
  obtain ⟨idx, appAt⟩ : ∃ idx, next.appAt = .sent idx := by
    cases appAt : next.appAt with
    | sent idx =>
        exact ⟨idx, rfl⟩
    | _ =>
        simp [System.parties, appAt] at isSent
  have asks : next.buf[0]! = 0x02 :=
    step.asked together.kept (by simp [System.parties, appAt])
  refine ⟨{ next with appAt := .waiting idx }, ?_, fun served => ?_⟩
  · simp [IpcStep, ipcStep, appAt]
  · exact idle (served.working asks rfl)

/-- A computed run is one. -/
theorem run_of_ipcRun
    (ran : ipcRun s3k labels start = some final) :
    Run (IpcStep s3k) labels start final := by
  induction labels generalizing start with
  | nil =>
      cases ran
      exact .nil _
  | cons label rest inductionHypothesis =>
      unfold ipcRun at ran
      cases step : ipcStep s3k label start with
      | none =>
          simp [step] at ran
      | some next =>
          simp only [step] at ran
          exact .cons step (inductionHypothesis ran)

/-- A reply sent before the app is blocked in its `s3k_recv` reaches nobody. -/
theorem early_reply_strands :
    ¬ ∀ (s3k : S3k) (labels : List IpcLabel) (start final : System),
        Started start →
        Run (IpcStep s3k) labels start final →
        NotStranded final := by
  intro never
  have result :
      (ipcRun (S3k.generous fun _ _ => false)
          [.monitorRecv, .ask (.rw 0 0x3), .appSend, .handle, .monitorSend,
            .appRecv]
          heapSystem).map
          (fun final => (final.appAt, final.monitorAt)) =
        some (.waiting 0, .entering) := by
    decide +kernel
  obtain ⟨final, ran, places⟩ := Option.map_eq_some_iff.mp result
  simp only [Prod.mk.injEq] at places
  obtain ⟨waits, enters⟩ := places
  obtain ⟨handles | ⟨answer, answers⟩, _⟩ :=
    never _ _ _ final ⟨rfl, rfl⟩ (run_of_ipcRun ran) 0 waits
  · simp [enters] at handles
  · simp [enters] at answers

end Runs

end S3kMonitor
