import S3kMonitor.FaultService
import S3kMonitor.Ipc
import S3kMonitor.ServingKernel

namespace S3kMonitor

open Runs

/-!
# One pass of the loop for each request

In `Ipc.lean` a request takes six steps of two parties, which can be preempted
between any two of them.  Here every action of the app is one step, and a
request is one pass of `loop`, just as a notice that the monitor receives.  As
long as no request and no reply is lost, the steps of the two parties come to
what the passes come to.
-/

/-- What the app does, whatever the monitor is doing. -/
inductive AppAction where
  | work (mem : Memory) (slots : Nat → Cap)
  | notify (notice : Notice)
  | ask (call : UpdateCall)

/-- The action that a step begins. -/
def IpcLabel.actions : IpcLabel → List AppAction
  | .work mem slots => [.work mem slots]
  | .notify notice => [.notify notice]
  | .ask call => [.ask call]
  | _ => []

/-- The app leaves its memory and its capability slots in some state. -/
def Monitor.work
    (monitor : Monitor)
    (mem : Memory)
    (slots : Nat → Cap) :
    Monitor :=
  let world := monitor.world
  let kernel :=
    { world.kernel with
      table := fun pid =>
        if pid = appPid then slots else world.kernel.table pid }
  { monitor with world := { world with mem := mem, kernel := kernel } }

/-- The buffer of the app and the monitor, between two actions of the app. -/
structure Service where
  buf : Words
  monitor : Monitor

/--
One action of the app.  A notice is lost unless the monitor waits for it, and
a request is not.
-/
inductive ServiceStep (s3k : S3k) :
    AppAction → Service → Service → Prop where
  | work
      (mem : Memory)
      (slots : Nat → Cap)
      (service : Service) :
      ServiceStep s3k (.work mem slots) service
        { service with monitor := service.monitor.work mem slots }
  | lose
      (notice : Notice)
      (service : Service) :
      ServiceStep s3k (.notify notice) service
        { service with buf := service.buf.setIfInBounds 0 notice.code }
  | note
      {notice : Notice}
      {service : Service}
      {next : Monitor}
      (pass :
        LoopStep s3k (notice.request service.buf service.monitor.world.mem)
          service.monitor next) :
      ServiceStep s3k (.notify notice) service
        { buf := service.buf.setIfInBounds 0 notice.code, monitor := next }
  | serve
      {call : UpdateCall}
      {service : Service}
      {next : Monitor}
      (pass :
        LoopStep s3k (call.request service.monitor.world.mem)
          service.monitor next) :
      ServiceStep s3k (.ask call) service
        { buf := next.recvBuf, monitor := next }

section Matching

/-!
## One level stands for the other
-/

/-- The monitor that has taken notice of what it has received. -/
def Monitor.noted (monitor : Monitor) : Monitor :=
  if monitor.recvBuf[0]! = -1 then
    { monitor with appRunning := false }
  else
    monitor

/-- The monitor, as it is without the IPC. -/
structure Shows (n : Nat) (image monitor : Monitor) : Prop where
  silent : image.silent n = monitor
  since : n ≤ image.world.trace.length
  sockets : SocketSlots image

/-- The request that the app is about to send, if any, is due. -/
inductive Due (system : System) (buf : Words) : List AppAction → Prop where
  | nothing
      (appAt : system.appAt = .running)
      (same : system.buf = buf) :
      Due system buf []
  | request
      (call : UpdateCall)
      (appAt : system.appAt = .sending call.idx)
      (asks : system.buf = call.buf) :
      Due system buf [.ask call]

/-- The monitor works on no request; a notice counts from when it is sent. -/
inductive Idle (n : Nat) (image : Monitor) (system : System) : Prop where
  | entering
      (monitorAt : system.monitorAt = .entering)
      (shows : Shows n image system.monitor)
  | receiving
      (monitorAt : system.monitorAt = .receiving)
      (appRunning : system.monitor.appRunning = true)
      (shows : Shows n image system.monitor)
  | noting
      (monitorAt : system.monitorAt = .handling)
      (asksNot : system.monitor.recvBuf[0]! ≠ 0x02)
      (shows : Shows n image system.monitor.noted)

/-- The app has sent this request and has no reply yet. -/
def Waits (call : UpdateCall) (system : System) : Prop :=
  system.appAt = .sent call.idx ∨ system.appAt = .waiting call.idx

/-- The monitor when it has taken the request. -/
def Monitor.tookCall (monitor : Monitor) (call : UpdateCall) : Monitor :=
  monitor.took (call.request monitor.world.mem)

/--
A state of the two parties, the actions that are due, and what the others have
led to.  A request is due until it is answered.
-/
inductive Matches
    (s3k : S3k)
    (n : Nat)
    (system : System) :
    List AppAction → Service → Prop where
  | free
      {pending : List AppAction}
      {service : Service}
      (due : Due system service.buf pending)
      (idle : Idle n service.monitor system) :
      Matches s3k n system pending service
  | handling
      {call : UpdateCall}
      {service : Service}
      {before : Monitor}
      (waits : Waits call system)
      (shows : Shows n service.monitor before)
      (appRunning : before.appRunning = true)
      (monitorAt : system.monitorAt = .handling)
      (took : system.monitor = before.tookCall call) :
      Matches s3k n system [.ask call] service
  | answering
      {call : UpdateCall}
      {service : Service}
      {before : Monitor}
      {answer : Answer}
      {world : World}
      (waits : Waits call system)
      (shows : Shows n service.monitor before)
      (appRunning : before.appRunning = true)
      (monitorAt : system.monitorAt = .answering answer)
      (answered :
        answerUpdate s3k (before.tookCall call) = some (answer, world))
      (took :
        system.monitor = { before.tookCall call with world := world }) :
      Matches s3k n system [.ask call] service

variable
  {s3k : S3k}
  {n : Nat}
  {image monitor next : Monitor}
  {request : Request}
  {call : UpdateCall}
  {notice : Notice}
  {answer : Answer}
  {world : World}

namespace Shows

/-- The image has the same word on whether the app was resumed. -/
theorem appRunning
    (shows : Shows n image monitor) :
    image.appRunning = monitor.appRunning := by
  rw [← shows.silent]
  rfl

/-- The image has the memory of the monitor. -/
theorem mem
    (shows : Shows n image monitor) :
    image.world.mem = monitor.world.mem := by
  rw [← shows.silent]
  rfl

/-- Work of the app changes image and monitor alike. -/
theorem work
    (shows : Shows n image monitor)
    (mem : Memory)
    (slots : Nat → Cap) :
    Shows n (image.work mem slots) (monitor.work mem slots) := by
  refine ⟨?_, shows.since, shows.sockets⟩
  rw [← shows.silent]
  rfl

/-- A notice reopens or stops the app in both alike. -/
theorem noted
    (shows : Shows n image monitor) :
    Shows n image.noted monitor.noted := by
  rw [← shows.silent]
  unfold Monitor.noted
  by_cases finished : image.recvBuf[0]! = -1
  · have finished' : (image.silent n).recvBuf[0]! = -1 := finished
    rw [if_pos finished, if_pos finished']
    exact ⟨rfl, shows.since, shows.sockets⟩
  · have finished' : ¬ (image.silent n).recvBuf[0]! = -1 := finished
    rw [if_neg finished, if_neg finished']
    exact ⟨rfl, shows.since, shows.sockets⟩

/--
The request that arrived at the monitor is the one that the image receives
next.
-/
theorem took
    (shows : Shows n image monitor)
    (s3k : S3k)
    (request : Request) :
    Shows n (receive (s3k.serving n) request image) (monitor.took request) where
  silent := by
    rw [receive_silent shows.sockets shows.since, shows.silent]
  since := Nat.le_succ_of_le shows.since
  sockets := shows.sockets

end Shows

/-- What is answered leaves nothing of the past out. -/
theorem answerUpdate_since
    (answered : answerUpdate s3k monitor = some (answer, world)) :
    monitor.world.trace.length ≤ world.trace.length := by
  obtain ⟨later, append, -⟩ := (answerUpdate_makes answered).trace_append
  rw [append, List.length_append]
  exact Nat.le_add_left _ _

/-- An answer adds entries to the trace and removes none. -/
theorem sendAnswer_since
    {target : Nat}
    (answer : Answer)
    (world : World)
    (monitor : Monitor) :
    world.trace.length ≤
      (sendAnswer s3k target answer world monitor).world.trace.length := by
  unfold sendAnswer
  dsimp only
  split
  · rw [capmanUpdate_trace]
    exact Nat.le_add_right _ 2
  · exact Nat.le_add_right _ 2

/-- A message that is no request is taken as a notice. -/
theorem dispatch_notice
    {target : Nat}
    (asksNot : monitor.recvBuf[0]! ≠ 0x02) :
    dispatch s3k target monitor = some monitor.noted := by
  unfold dispatch Monitor.noted
  rw [if_neg asksNot, apply_ite some]

/--
A request is answered with what the update gives, or the monitor hangs with it.
-/
theorem dispatch_request
    (target : Nat)
    (asks : monitor.recvBuf[0]! = 0x02) :
    dispatch s3k target monitor =
      (answerUpdate s3k monitor).map fun reply =>
        sendAnswer s3k target reply.1 reply.2 monitor := by
  have goesOn : ¬ monitor.recvBuf[0]! = -1 := by
    rw [asks]
    decide
  unfold dispatch
  rw [if_neg goesOn, if_pos asks]
  cases answerUpdate s3k monitor with
  | none =>
      rfl
  | some reply =>
      rfl

namespace Shows

/-- Image and monitor hold the same message. -/
theorem recvBuf
    (shows : Shows n image monitor) :
    image.recvBuf = monitor.recvBuf := by
  rw [← shows.silent]
  rfl

/-- The pass begins as the message arrives. -/
theorem loop_eq
    (shows : Shows n image monitor)
    (appRunning : monitor.appRunning = true)
    (request : Request) :
    loop (s3k.serving n) request image =
      dispatch (s3k.serving n) request.target
        (receive (s3k.serving n) request image) := by
  have runs : ¬ image.appRunning = false := by
    rw [shows.appRunning, appRunning]
    decide
  exact if_neg runs

/-- A pass with a notice. -/
theorem note
    (shows : Shows n image monitor)
    (s3k : S3k)
    (request : Request)
    (appRunning : monitor.appRunning = true)
    (asksNot : request.words[0]! ≠ 0x02) :
    ∃ result,
      LoopStep (s3k.serving n) request image result ∧
        Shows n result (monitor.took request).noted := by
  have received := shows.took s3k request
  refine ⟨_, ?_, received.noted⟩
  rw [LoopStep, shows.loop_eq appRunning]
  apply dispatch_notice
  rw [received.recvBuf]
  exact asksNot

/-- A pass with a request. -/
theorem serve
    (shows : Shows n image monitor)
    (appRunning : monitor.appRunning = true)
    (asks : request.words[0]! = 0x02)
    (answered :
      answerUpdate s3k (monitor.took request) = some (answer, world)) :
    ∃ result,
      LoopStep (s3k.serving n) request image result ∧
        Shows n result
          (Monitor.gave { monitor.took request with world := world }
            request.target answer) := by
  have received := shows.took s3k request
  rw [← received.silent, answerUpdate_silent] at answered
  obtain ⟨⟨answer, later⟩, answeredLater, same⟩ :=
    Option.map_eq_some_iff.mp answered
  cases same
  have since : n ≤ later.trace.length :=
    received.since.trans (answerUpdate_since answeredLater)
  refine ⟨sendAnswer (s3k.serving n) request.target answer later
    (receive (s3k.serving n) request image), ?_, ?_, ?_, ?_⟩
  · rw [LoopStep, shows.loop_eq appRunning,
      dispatch_request _ (by rw [received.recvBuf]; exact asks), answeredLater]
    rfl
  · rw [sendAnswer_silent received.sockets since, ← received.silent]
    rfl
  · exact since.trans (sendAnswer_since answer later _)
  · exact received.sockets

end Shows

end Matching

section Steps

/-!
## The steps of the two parties
-/

variable
  {s3k : S3k}
  {n : Nat}
  {label : IpcLabel}
  {system next : System}
  {service : Service}
  {pending due : List AppAction}
  {image : Monitor}
  {buf : Words}
  {idx : Nat}

/-- What is due can be done, and then the two levels match again. -/
abbrev KeepsUp
    (s3k : S3k)
    (n : Nat)
    (due : List AppAction)
    (system : System)
    (service : Service) :
    Prop :=
  CatchesUp (ServiceStep (s3k.serving n)) (Matches s3k n) due system service

/-- What is due depends on the app alone. -/
theorem Due.congr
    (isDue : Due system buf due)
    (appAt : next.appAt = system.appAt)
    (same : next.buf = system.buf) :
    Due next buf due := by
  cases isDue with
  | nothing runs sameBuf =>
      exact .nothing (appAt.trans runs) (same.trans sameBuf)
  | request call sends asks =>
      exact .request call (appAt.trans sends) (same.trans asks)

/-- What is due has not been sent. -/
theorem Due.unsent
    (isDue : Due system buf due) :
    system.appAt ≠ .sent idx ∧ system.appAt ≠ .waiting idx := by
  cases isDue with
  | nothing appAt =>
      simp [appAt]
  | request call appAt =>
      simp [appAt]

/-- Whether the monitor is idle depends on the monitor alone. -/
theorem Idle.congr
    (idle : Idle n image system)
    (monitorAt : next.monitorAt = system.monitorAt)
    (same : next.monitor = system.monitor) :
    Idle n image next := by
  cases idle with
  | entering enters shows =>
      exact .entering (monitorAt.trans enters) (same ▸ shows)
  | receiving listens appRunning shows =>
      exact .receiving (monitorAt.trans listens) (same ▸ appRunning)
        (same ▸ shows)
  | noting handles asksNot shows =>
      exact .noting (monitorAt.trans handles) (same ▸ asksNot)
        (same ▸ shows)

/-- A monitor that listens has not been told to stop. -/
theorem Idle.listening
    (idle : Idle n image system)
    (listens : system.monitorAt = .receiving) :
    system.monitor.appRunning = true ∧ Shows n image system.monitor := by
  cases idle with
  | entering monitorAt =>
      rw [listens] at monitorAt
      cases monitorAt
  | receiving _ appRunning shows =>
      exact ⟨appRunning, shows⟩
  | noting monitorAt =>
      rw [listens] at monitorAt
      cases monitorAt

/-- The app runs only while nothing is due and the monitor is idle. -/
theorem Matches.running
    (matched : Matches s3k n system pending service)
    (appAt : system.appAt = .running) :
    pending = [] ∧ system.buf = service.buf ∧
      Idle n service.monitor system := by
  cases matched with
  | free due idle =>
      cases due with
      | nothing _ same =>
          exact ⟨rfl, same, idle⟩
      | request call sends =>
          rw [appAt] at sends
          cases sends
  | handling waits =>
      simp [Waits, appAt] at waits
  | answering waits =>
      simp [Waits, appAt] at waits

/-- The app sends what is due, to a monitor that is idle. -/
theorem Matches.sending
    (matched : Matches s3k n system pending service)
    (appAt : system.appAt = .sending idx) :
    ∃ call : UpdateCall,
      pending = [.ask call] ∧ idx = call.idx ∧ system.buf = call.buf ∧
        Idle n service.monitor system := by
  cases matched with
  | free due idle =>
      cases due with
      | nothing runs =>
          rw [appAt] at runs
          cases runs
      | request call sends asks =>
          rw [appAt] at sends
          cases sends
          exact ⟨call, rfl, rfl, asks, idle⟩
  | handling waits =>
      simp [Waits, appAt] at waits
  | answering waits =>
      simp [Waits, appAt] at waits

/-- A notice and the work of the app commute. -/
theorem Monitor.noted_work
    (monitor : Monitor)
    (mem : Memory)
    (slots : Nat → Cap) :
    (monitor.work mem slots).noted = monitor.noted.work mem slots := by
  unfold Monitor.noted
  rw [apply_ite (Monitor.work · mem slots)]
  rfl

/-- Work of the app keeps the match, as one more pending action. -/
theorem Matches.work
    (matched : Matches s3k n system pending service)
    (appAt : system.appAt = .running)
    (mem : Memory)
    (slots : Nat → Cap) :
    KeepsUp s3k n (pending ++ [.work mem slots]) (system.work mem slots)
      service := by
  obtain ⟨rfl, same, idle⟩ := matched.running appAt
  refine .one (.work mem slots service) (.free (.nothing appAt same) ?_)
  cases idle with
  | entering monitorAt shows =>
      exact .entering monitorAt (shows.work mem slots)
  | receiving monitorAt appRunning shows =>
      exact .receiving monitorAt appRunning (shows.work mem slots)
  | noting monitorAt asksNot shows =>
      refine .noting monitorAt asksNot ?_
      rw [show (system.work mem slots).monitor =
          system.monitor.work mem slots from rfl, Monitor.noted_work]
      exact shows.work mem slots

/-- A notice takes no capability along. -/
theorem Monitor.took_notice (monitor : Monitor) (notice : Notice) :
    monitor.took (notice.request buf monitor.world.mem) =
      { monitor with recvBuf := buf.setIfInBounds 0 notice.code } := by
  have stays :
      monitor.world.kernel.transfer appPid (2 ^ 64 - 1) monitorPid
          flightSlot =
        monitor.world.kernel :=
    if_neg fun moves => absurd moves.1 (by decide)
  simp only [Monitor.took, Notice.request, stays]

/-- A notice of the app keeps the match, as one more pending action. -/
theorem Matches.notify
    (matched : Matches s3k n system pending service)
    (appAt : system.appAt = .running)
    (notice : Notice) :
    KeepsUp s3k n (pending ++ [.notify notice]) (system.notify notice)
      service := by
  obtain ⟨rfl, same, idle⟩ := matched.running appAt
  by_cases listens : system.monitorAt = .receiving
  · obtain ⟨appRunning, shows⟩ := idle.listening listens
    have asksNot :
        (service.buf.setIfInBounds 0 notice.code)[0]! ≠ 0x02 := by
      simpa using notice.code_ne
    obtain ⟨result, pass, noted⟩ :=
      shows.note s3k
        (notice.request service.buf service.monitor.world.mem)
        appRunning asksNot
    rw [shows.mem, Monitor.took_notice, ← same] at noted
    rw [← same] at asksNot
    rw [System.notify_of_receiving listens]
    exact .one (.note pass)
      (.free (.nothing appAt (by rw [same])) (.noting rfl asksNot noted))
  · rw [System.notify_of_absent listens]
    exact .one (.lose notice service)
      (.free (.nothing appAt (by rw [same])) (idle.congr rfl rfl))

/-- An update call keeps the match, as one more pending action. -/
theorem Matches.ask
    (matched : Matches s3k n system pending service)
    (appAt : system.appAt = .running)
    (call : UpdateCall) :
    KeepsUp s3k n (pending ++ [.ask call])
      { system with appAt := .sending call.idx, buf := call.buf } service := by
  obtain ⟨rfl, -, idle⟩ := matched.running appAt
  exact .wait (.free (.request call rfl rfl) (idle.congr rfl rfl))

/--
The message of the app arrives while the monitor listens: still the same
pending actions.
-/
theorem Matches.appSend
    (matched : Matches s3k n system pending service)
    (appAt : system.appAt = .sending idx)
    (listens : system.monitorAt = .receiving) :
    KeepsUp s3k n pending (system.appSend idx) service := by
  obtain ⟨call, rfl, rfl, asks, idle⟩ := matched.sending appAt
  obtain ⟨appRunning, shows⟩ := idle.listening listens
  rw [System.appSend_of_receiving listens, asks]
  exact .wait (.handling (Or.inl rfl) shows appRunning rfl rfl)

/-- A call that was sent still waits once the app receives. -/
theorem Waits.await
    {call : UpdateCall}
    (waits : Waits call system)
    (appAt : system.appAt = .sent idx) :
    Waits call { system with appAt := .waiting idx } := by
  have sent : idx = call.idx := by
    simpa [Waits, appAt] using waits
  exact Or.inr (by rw [sent])

/-- The app that sent its request goes on to wait for the reply. -/
theorem Matches.appRecv
    (matched : Matches s3k n system pending service)
    (appAt : system.appAt = .sent idx) :
    KeepsUp s3k n pending { system with appAt := .waiting idx } service := by
  cases matched with
  | free due idle =>
      exact absurd appAt due.unsent.1
  | handling waits shows appRunning monitorAt took =>
      exact .wait
        (.handling (waits.await appAt) shows appRunning monitorAt took)
  | answering waits shows appRunning monitorAt answered took =>
      exact .wait
        (.answering (waits.await appAt) shows appRunning monitorAt answered
          took)

/-- The monitor listens only while the app runs. -/
theorem IpcStep.appRunning
    (step : IpcStep s3k .monitorRecv system next) :
    system.monitor.appRunning = true := by
  unfold IpcStep ipcStep at step
  split at step
  case h_6 =>
    split at step
    · assumption
    · cases step
  all_goals contradiction

/--
The monitor that enters its receive with the app resumed starts to listen.
-/
theorem Matches.monitorRecv
    (matched : Matches s3k n system pending service)
    (enters : system.monitorAt = .entering)
    (appRunning : system.monitor.appRunning = true) :
    KeepsUp s3k n pending { system with monitorAt := .receiving } service := by
  cases matched with
  | free due idle =>
      cases idle with
      | entering _ shows =>
          exact .wait
            (.free (due.congr rfl rfl) (.receiving rfl appRunning shows))
      | receiving monitorAt =>
          rw [enters] at monitorAt
          cases monitorAt
      | noting monitorAt =>
          rw [enters] at monitorAt
          cases monitorAt
  | handling _ _ _ monitorAt =>
      rw [enters] at monitorAt
      cases monitorAt
  | answering _ _ _ monitorAt =>
      rw [enters] at monitorAt
      cases monitorAt

/-- A notice sends the monitor back to its `s3k_recv`. -/
theorem System.handle_notice
    (asksNot : system.monitor.recvBuf[0]! ≠ 0x02) :
    system.handle s3k =
      some
        { system with
          monitorAt := .entering, monitor := system.monitor.noted } := by
  unfold System.handle Monitor.noted
  rw [if_neg asksNot]
  split <;> rfl

/-- A request is handled as it is answered. -/
theorem System.handle_request
    (asks : system.monitor.recvBuf[0]! = 0x02) :
    system.handle s3k =
      (answerUpdate s3k system.monitor).map fun reply =>
        { system with
          monitorAt := .answering reply.1
          monitor := { system.monitor with world := reply.2 } } := by
  have goesOn : ¬ system.monitor.recvBuf[0]! = -1 := by
    rw [asks]
    decide
  unfold System.handle
  rw [if_neg goesOn, if_pos asks]
  cases answerUpdate s3k system.monitor with
  | none =>
      rfl
  | some reply =>
      rfl

/-- A message that the monitor handles is one action of the service. -/
theorem Matches.handle
    (matched : Matches s3k n system pending service)
    (handles : system.monitorAt = .handling)
    (handled : system.handle s3k = some next) :
    KeepsUp s3k n pending next service := by
  cases matched with
  | free due idle =>
      cases idle with
      | entering monitorAt =>
          rw [handles] at monitorAt
          cases monitorAt
      | receiving monitorAt =>
          rw [handles] at monitorAt
          cases monitorAt
      | noting _ asksNot shows =>
          rw [System.handle_notice asksNot] at handled
          cases handled
          exact .wait (.free (due.congr rfl rfl) (.entering rfl shows))
  | @handling call _ before waits shows appRunning _ took =>
      have asks : system.monitor.recvBuf[0]! = 0x02 := by
        rw [took]
        exact call.buf_opcode
      rw [System.handle_request asks] at handled
      obtain ⟨⟨answer, world⟩, answered, rfl⟩ :=
        Option.map_eq_some_iff.mp handled
      rw [took] at answered
      refine .wait (.answering waits shows appRunning rfl answered ?_)
      rw [took]
  | answering _ _ _ monitorAt =>
      rw [handles] at monitorAt
      cases monitorAt

/-- The reply of the monitor frees the app, and no action is pending for it. -/
theorem Matches.monitorSend
    {answer : Answer}
    (matched : Matches s3k n system pending service)
    (answers : system.monitorAt = .answering answer)
    (waits : system.appAt = .waiting idx) :
    KeepsUp s3k n pending (system.monitorSend answer) service := by
  rw [System.monitorSend_of_waiting waits]
  cases matched with
  | free due idle =>
      exact absurd waits due.unsent.2
  | handling _ _ _ monitorAt =>
      rw [answers] at monitorAt
      cases monitorAt
  | @answering call _ before _ world waits' shows appRunning monitorAt answered
      took =>
      rw [answers] at monitorAt
      cases monitorAt
      have sent : idx = call.idx := by
        simpa [Waits, waits] using waits'
      subst sent
      obtain ⟨result, pass, same⟩ :=
        shows.serve appRunning call.buf_opcode answered
      rw [← shows.mem] at pass
      have gave : Shows n result (system.monitor.gave call.idx answer) := by
        rw [took]
        exact same
      exact .one (.serve pass)
        (.free (.nothing rfl gave.recvBuf.symm) (.entering rfl gave))

/-- A step that begins no action leaves what is due as it is. -/
theorem keepsUp_of_silent
    (begins : label.actions = [])
    (keepsUp : KeepsUp s3k n pending next service) :
    KeepsUp s3k n (pending ++ label.actions) next service := by
  rw [begins, List.append_nil]
  exact keepsUp

/-- Every timely step is kept up with. -/
theorem TimelyStep.keepsUp
    (step : TimelyStep s3k label system next)
    (matched : Matches s3k n system pending service) :
    KeepsUp s3k n (pending ++ label.actions) next service := by
  cases step.step.stepCase with
  | work mem slots appAt =>
      exact matched.work appAt mem slots
  | notify notice appAt =>
      exact matched.notify appAt notice
  | ask call appAt =>
      exact matched.ask appAt call
  | appSend idx appAt =>
      exact keepsUp_of_silent rfl (matched.appSend appAt (step.requested rfl))
  | appRecv idx appAt =>
      exact keepsUp_of_silent rfl (matched.appRecv appAt)
  | monitorRecv monitorAt =>
      exact keepsUp_of_silent rfl
        (matched.monitorRecv monitorAt step.step.appRunning)
  | handle monitorAt handled =>
      exact keepsUp_of_silent rfl (matched.handle monitorAt handled)
  | monitorSend answer monitorAt =>
      obtain ⟨idx, waits⟩ := step.replied rfl
      exact keepsUp_of_silent rfl (matched.monitorSend monitorAt waits)

end Steps

section Timely

/-!
## The steps that can be made
-/

variable
  {s3k : S3k}
  {system : System}

/-- Work of the app is timely. -/
theorem timely_work
    (runs : system.appAt = .running)
    (mem : Memory)
    (slots : Nat → Cap) :
    TimelyStep s3k (.work mem slots) system (system.work mem slots) :=
  ⟨by simp [IpcStep, ipcStep, runs], nofun, nofun⟩

/-- A notice of the app is timely. -/
theorem timely_notify
    (runs : system.appAt = .running)
    (notice : Notice) :
    TimelyStep s3k (.notify notice) system (system.notify notice) :=
  ⟨by simp [IpcStep, ipcStep, runs], nofun, nofun⟩

/-- An update call is timely. -/
theorem timely_ask
    (runs : system.appAt = .running)
    (call : UpdateCall) :
    TimelyStep s3k (.ask call) system
      { system with appAt := .sending call.idx, buf := call.buf } :=
  ⟨by simp [IpcStep, ipcStep, runs], nofun, nofun⟩

/-- A message sent while the monitor listens is timely. -/
theorem timely_appSend
    {idx : Nat}
    (sends : system.appAt = .sending idx)
    (listens : system.monitorAt = .receiving) :
    TimelyStep s3k .appSend system (system.appSend idx) :=
  ⟨by simp [IpcStep, ipcStep, sends], fun _ => listens, nofun⟩

/-- The wait for the reply is timely. -/
theorem timely_appRecv
    {idx : Nat}
    (sent : system.appAt = .sent idx) :
    TimelyStep s3k .appRecv system { system with appAt := .waiting idx } :=
  ⟨by simp [IpcStep, ipcStep, sent], nofun, nofun⟩

/-- A receive entered while the app runs is timely. -/
theorem timely_monitorRecv
    (enters : system.monitorAt = .entering)
    (appRunning : system.monitor.appRunning = true) :
    TimelyStep s3k .monitorRecv system
      { system with monitorAt := .receiving } :=
  ⟨by simp [IpcStep, ipcStep, enters, appRunning], nofun, nofun⟩

/-- A message handled is timely. -/
theorem timely_handle
    {next : System}
    (handles : system.monitorAt = .handling)
    (handled : system.handle s3k = some next) :
    TimelyStep s3k .handle system next :=
  ⟨by simp [IpcStep, ipcStep, handles, handled], nofun, nofun⟩

/-- A reply sent while the app waits is timely. -/
theorem timely_monitorSend
    {idx : Nat}
    {answer : Answer}
    (answers : system.monitorAt = .answering answer)
    (waits : system.appAt = .waiting idx) :
    TimelyStep s3k .monitorSend system (system.monitorSend answer) :=
  ⟨by simp [IpcStep, ipcStep, answers], nofun, fun _ => ⟨idx, waits⟩⟩

end Timely

section Runs

variable
  {s3k : S3k}
  {labels : List IpcLabel}
  {start final : System}

/-- The app runs, and nothing that it has sent is left to be handled. -/
structure AtRest (system : System) : Prop where
  appAt : system.appAt = .running
  monitorAt :
    system.monitorAt = .entering ∨ system.monitorAt = .receiving

/-- What the two parties begin with, at the other level. -/
def System.service (system : System) : Service where
  buf := system.buf
  monitor := system.monitor

/-- The number of events that there have been. -/
def System.past (system : System) : Nat :=
  system.monitor.world.trace.length

/-- At the start the image is the monitor itself. -/
theorem SocketSlots.shows
    (sockets : SocketSlots start.monitor) :
    Shows start.past start.monitor start.monitor := by
  refine ⟨?_, le_rfl, sockets⟩
  simp only [Monitor.silent, World.silent, System.past,
    silent_of_length_le le_rfl]

/--
As long as no request and no reply is lost, every run of the two parties comes
to what the actions of the app come to, in the order in which it begins them,
if a request is one pass of `loop`, and a notice that is received is one too.
-/
theorem timely_run_served
    (started : Started start)
    (sockets : SocketSlots start.monitor)
    (run : Run (TimelyStep s3k) labels start final)
    (atRest : AtRest final) :
    ∃ service,
      Run (ServiceStep (s3k.serving start.past))
          (labels.flatMap IpcLabel.actions) start.service service ∧
        service.buf = final.buf ∧
        service.monitor.silent start.past = final.monitor := by
  have begins : Matches s3k start.past start [] start.service :=
    .free (.nothing started.1 rfl) (.entering started.2 sockets.shows)
  obtain ⟨done, later, service, due, served, matched⟩ :=
    run.catchesUp IpcLabel.actions
      (fun _ _ _ _ _ step matched => step.keepsUp matched) begins
  obtain ⟨rfl, same, idle⟩ := matched.running atRest.appAt
  rw [List.append_nil, List.nil_append] at due
  subst due
  refine ⟨service, served, same.symm, ?_⟩
  cases idle with
  | entering _ shows =>
      exact shows.silent
  | receiving _ _ shows =>
      exact shows.silent
  | noting handles =>
      rcases atRest.monitorAt with enters | listens
      · rw [enters] at handles
        cases handles
      · rw [listens] at handles
        cases handles

/-- The request of an app for the right to write is served. -/
theorem writeRequest_served :
    ∃ (final : System) (service : Service),
      Run (ServiceStep ((S3k.generous fun _ _ => false).serving 0))
          [.ask (.rw 0 0x3)] heapSystem.service service ∧
        service.buf = final.buf ∧
        service.monitor.silent 0 = final.monitor ∧
        final.buf[0]! = 0 := by
  let listening : System := { heapSystem with monitorAt := .receiving }
  let asked : System :=
    { listening with appAt := .sending 0, buf := thUpdatepmpRw 0x3 }
  let waiting : System := { asked.appSend 0 with appAt := .waiting 0 }
  let answer : Answer :=
    { cap := .pmp (s3kPmpNapotAddr 0x80023000 0x80024000) 0x1
      code := 0
      resync := true }
  have result :
      (waiting.handle (S3k.generous fun _ _ => false)).map
          (fun handled => (handled.appAt, handled.monitorAt)) =
        some (.waiting 0, .answering answer) := by
    decide +kernel
  obtain ⟨handled, handles, places⟩ := Option.map_eq_some_iff.mp result
  simp only [Prod.mk.injEq] at places
  obtain ⟨waits, answers⟩ := places
  have ask :
      TimelyStep (S3k.generous fun _ _ => false) (.ask (.rw 0 0x3)) listening
        asked :=
    timely_ask rfl _
  have run :
      Run (TimelyStep (S3k.generous fun _ _ => false))
        [.monitorRecv, .ask (.rw 0 0x3), .appSend, .appRecv, .handle,
          .monitorSend]
        heapSystem (handled.monitorSend answer) :=
    .cons (timely_monitorRecv rfl rfl) <|
      .cons ask <|
        .cons (timely_appSend rfl rfl) <|
          .cons (timely_appRecv rfl) <|
            .cons (timely_handle rfl handles) <|
              .cons (timely_monitorSend answers waits) (.nil _)
  have sent : handled.monitorSend answer = _ :=
    System.monitorSend_of_waiting waits
  have atRest : AtRest (handled.monitorSend answer) := by
    rw [sent]
    exact ⟨rfl, Or.inl rfl⟩
  obtain ⟨service, served, sameBuf, sameMonitor⟩ :=
    timely_run_served ⟨rfl, rfl⟩ ⟨by decide, by decide⟩ run atRest
  refine ⟨_, service, served, sameBuf, sameMonitor, ?_⟩
  rw [sent]
  simp [answer]

end Runs

end S3kMonitor
