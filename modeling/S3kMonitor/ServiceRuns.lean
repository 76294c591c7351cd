import S3kMonitor.AtomicService

namespace S3kMonitor

open Runs

/-!
# The passes as steps of the two parties

What one pass of `loop` for each request can come to, the two parties can come
to as well, with no request and no reply lost.  So between two actions of the
app both levels can be in the same states.
-/

section Realization

/-- The two parties between two actions, as the passes have left them. -/
structure Rests (n : Nat) (service : Service) (system : System) : Prop where
  appAt : system.appAt = .running
  monitorAt : system.monitorAt = .entering
  same : system.buf = service.buf
  shows : Shows n service.monitor system.monitor

/-- Timely steps lead to this state and begin this action only. -/
def Realizes
    (s3k : S3k)
    (n : Nat)
    (action : AppAction)
    (system : System)
    (next : Service) :
    Prop :=
  ∃ labels final,
    Run (TimelyStep s3k) labels system final ∧
      labels.flatMap IpcLabel.actions = [action] ∧ Rests n next final

variable
  {s3k : S3k}
  {n : Nat}
  {system : System}
  {service : Service}
  {next : Monitor}
  {call : UpdateCall}
  {notice : Notice}

/-- A pass is made only while the app runs. -/
theorem Shows.appRunning_of_pass
    {image monitor : Monitor}
    {request : Request}
    (shows : Shows n image monitor)
    (pass : LoopStep (s3k.serving n) request image next) :
    monitor.appRunning = true := by
  rw [← shows.appRunning, ← Bool.not_eq_false]
  intro stopped
  rw [LoopStep, loop, if_pos stopped] at pass
  cases pass

theorem Shows.answered_of_pass
    {image monitor : Monitor}
    {request : Request}
    (shows : Shows n image monitor)
    (appRunning : monitor.appRunning = true)
    (asks : request.words[0]! = 0x02)
    (pass : LoopStep (s3k.serving n) request image next) :
    ∃ answer world,
      answerUpdate s3k (monitor.took request) = some (answer, world) := by
  have received := shows.took s3k request
  rw [LoopStep, shows.loop_eq appRunning,
    dispatch_request _ (by rw [received.recvBuf]; exact asks)] at pass
  obtain ⟨reply, answered, -⟩ := Option.map_eq_some_iff.mp pass
  refine ⟨reply.1, reply.2.silent n, ?_⟩
  rw [← received.silent, answerUpdate_silent, answered]
  rfl

namespace Rests

theorem work
    (rests : Rests n service system)
    (mem : Memory)
    (slots : Nat → Cap) :
    Realizes s3k n (.work mem slots) system
      { service with monitor := service.monitor.work mem slots } :=
  ⟨[.work mem slots], _, .cons (timely_work rests.appAt mem slots) (.nil _),
    rfl, rests.appAt, rests.monitorAt, rests.same, rests.shows.work mem slots⟩

/-- A notice is lost if the monitor has not come to its `s3k_recv` yet. -/
theorem lose
    (rests : Rests n service system)
    (notice : Notice) :
    Realizes s3k n (.notify notice) system
      { service with buf := service.buf.setIfInBounds 0 notice.code } := by
  have absent : system.monitorAt ≠ .receiving := by
    rw [rests.monitorAt]
    nofun
  have notify :
      TimelyStep s3k (.notify notice) system (system.notify notice) :=
    timely_notify rests.appAt notice
  rw [System.notify_of_absent absent, rests.same] at notify
  exact ⟨[.notify notice], _, .cons notify (.nil _), rfl, rests.appAt,
    rests.monitorAt, rfl, rests.shows⟩

/-- A notice arrives if the monitor has come to its `s3k_recv`. -/
theorem note
    (rests : Rests n service system)
    (pass :
      LoopStep (s3k.serving n)
        (notice.request service.buf service.monitor.world.mem) service.monitor
        next) :
    Realizes s3k n (.notify notice) system
      { buf := service.buf.setIfInBounds 0 notice.code, monitor := next } := by
  have appRunning := rests.shows.appRunning_of_pass pass
  have asksNot :
      (service.buf.setIfInBounds 0 notice.code)[0]! ≠ 0x02 := by
    simpa using notice.code_ne
  obtain ⟨result, samePass, noted⟩ :=
    rests.shows.note s3k
      (notice.request service.buf service.monitor.world.mem) appRunning asksNot
  obtain rfl : result = next :=
    Option.some.inj (samePass.symm.trans pass)
  rw [rests.shows.mem, Monitor.took_notice, ← rests.same] at noted
  rw [← rests.same] at asksNot ⊢
  let listening : System := { system with monitorAt := .receiving }
  have runs : listening.appAt = .running := rests.appAt
  have notify :
      TimelyStep s3k (.notify notice) listening (listening.notify notice) :=
    timely_notify runs notice
  rw [System.notify_of_receiving rfl] at notify
  exact ⟨[.monitorRecv, .notify notice, .handle], _,
    .cons (timely_monitorRecv rests.monitorAt appRunning)
      (.cons notify
        (.cons (timely_handle rfl (System.handle_notice asksNot)) (.nil _))),
    rfl, rests.appAt, rfl, rfl, noted⟩

/-- A request takes its six steps. -/
theorem serve
    (rests : Rests n service system)
    (pass :
      LoopStep (s3k.serving n) (call.request service.monitor.world.mem)
        service.monitor next) :
    Realizes s3k n (.ask call) system
      { buf := next.recvBuf, monitor := next } := by
  have appRunning := rests.shows.appRunning_of_pass pass
  obtain ⟨answer, world, answered⟩ :=
    rests.shows.answered_of_pass appRunning call.buf_opcode pass
  obtain ⟨result, samePass, gave⟩ :=
    rests.shows.serve appRunning call.buf_opcode answered
  obtain rfl : result = next :=
    Option.some.inj (samePass.symm.trans pass)
  rw [rests.shows.mem] at answered gave
  let listening : System := { system with monitorAt := .receiving }
  let asked : System :=
    { listening with appAt := .sending call.idx, buf := call.buf }
  let waiting : System :=
    { asked.appSend call.idx with appAt := .waiting call.idx }
  let answering : System :=
    { waiting with
      monitorAt := .answering answer
      monitor := { waiting.monitor with world := world } }
  have handled : waiting.handle s3k = some answering := by
    have answered' : answerUpdate s3k waiting.monitor = some (answer, world) :=
      answered
    rw [System.handle_request call.buf_opcode, answered']
    rfl
  have waits : answering.appAt = .waiting call.idx := rfl
  have runs : listening.appAt = .running := rests.appAt
  have ask : TimelyStep s3k (.ask call) listening asked :=
    timely_ask runs call
  have reply :
      TimelyStep s3k .monitorSend answering (answering.monitorSend answer) :=
    timely_monitorSend rfl waits
  rw [System.monitorSend_of_waiting waits] at reply
  exact ⟨[.monitorRecv, .ask call, .appSend, .appRecv, .handle, .monitorSend],
    _,
    .cons (timely_monitorRecv rests.monitorAt appRunning)
      (.cons ask
        (.cons (timely_appSend rfl rfl)
          (.cons (timely_appRecv rfl)
            (.cons (timely_handle rfl handled) (.cons reply (.nil _)))))),
    rfl, rfl, rfl, gave.recvBuf.symm, gave⟩

end Rests

/-- Every action of the passes is realized by steps of the two parties. -/
theorem ServiceStep.realized
    {action : AppAction}
    {last : Service}
    (step : ServiceStep (s3k.serving n) action service last)
    (rests : Rests n service system) :
    Realizes s3k n action system last := by
  cases step with
  | work mem slots =>
      exact rests.work mem slots
  | lose notice =>
      exact rests.lose notice
  | note pass =>
      exact rests.note pass
  | serve pass =>
      exact rests.serve pass

variable
  {actions : List AppAction}
  {start : System}

/-- A run of the passes, action by action. -/
theorem Rests.run
    {last : Service}
    (rests : Rests n service system)
    (run : Run (ServiceStep (s3k.serving n)) actions service last) :
    ∃ labels final,
      Run (TimelyStep s3k) labels system final ∧
        labels.flatMap IpcLabel.actions = actions ∧ Rests n last final := by
  induction run generalizing system with
  | nil service =>
      exact ⟨[], system, .nil system, rfl, rests⟩
  | @cons action actions service middle last head tail inductionHypothesis =>
      obtain ⟨leading, between, headRun, headActions, restsBetween⟩ :=
        head.realized rests
      obtain ⟨trailing, final, tailRun, tailActions, restsFinal⟩ :=
        inductionHypothesis restsBetween
      refine ⟨leading ++ trailing, final, headRun.append tailRun, ?_,
        restsFinal⟩
      rw [List.flatMap_append, headActions, tailActions]
      rfl

/--
Whatever the actions of the app come to with one pass of `loop` each, the two
parties come to in some run in which no request and no reply is lost.
-/
theorem service_run_timely
    (started : Started start)
    (sockets : SocketSlots start.monitor)
    (run :
      Run (ServiceStep (s3k.serving start.past)) actions start.service
        service) :
    ∃ labels final,
      Run (TimelyStep s3k) labels start final ∧
        labels.flatMap IpcLabel.actions = actions ∧ AtRest final ∧
        final.buf = service.buf ∧
        final.monitor = service.monitor.silent start.past := by
  have begins : Rests start.past start.service start :=
    ⟨started.1, started.2, rfl, sockets.shows⟩
  obtain ⟨labels, final, timely, sameActions, rests⟩ := begins.run run
  exact ⟨labels, final, timely, sameActions,
    ⟨rests.appAt, Or.inl rests.monitorAt⟩, rests.same,
    rests.shows.silent.symm⟩

/-- The pass that serves a request for the right to write. -/
theorem writeRequest_timely :
    ∃ (labels : List IpcLabel) (final : System),
      Run (TimelyStep (S3k.generous fun _ _ => false)) labels heapSystem
          final ∧
        labels.flatMap IpcLabel.actions = [.ask (.rw 0 0x3)] ∧
        AtRest final ∧
        final.buf[0]! = 0 := by
  let call : UpdateCall := .rw 0 0x3
  have result :
      (loop ((S3k.generous fun _ _ => false).serving 0)
          (call.request heapMonitor.world.mem) heapMonitor).map
          (fun next => next.recvBuf[0]!) =
        some 0 := by
    decide +kernel
  obtain ⟨next, pass, code⟩ := Option.map_eq_some_iff.mp result
  have run :
      Run (ServiceStep ((S3k.generous fun _ _ => false).serving 0)) [.ask call]
        heapSystem.service ⟨next.recvBuf, next⟩ :=
    .cons (.serve pass) (.nil _)
  have started : Started heapSystem := ⟨rfl, rfl⟩
  obtain ⟨labels, final, timely, sameActions, atRest, sameBuf, -⟩ :=
    service_run_timely started ⟨by decide, by decide⟩ run
  refine ⟨labels, final, timely, sameActions, atRest, ?_⟩
  rw [sameBuf]
  exact code

end Realization

end S3kMonitor
