import S3kMonitor.GrantedRequests

namespace S3kMonitor

open Runs

/-!
# The monitor without `SECURITY`

Without the macro `SECURITY` the loop checks neither the rights of a request
nor the signature of code.  The two builds do the same until the secured one
refuses a request for what it asks, and then it has changed nothing.
-/

section Builds

variable
  (check : Cap → Words → Memory → Verdict)
  (s3k : S3k)

/-- Case `0x02` up to the reply, with the checks of a build. -/
def answerUpdateWith (monitor : Monitor) : Option (Answer × World) :=
  let world := capmanUpdate monitor.world
  let pmp := capmanGet world flightSlot
  match check pmp monitor.recvBuf world.mem with
  | .undefined => none
  | .refuse code => some ({ cap := pmp, code := code, resync := true }, world)
  | .update start stop rwx =>
      let result := capmanUpdatePmp s3k flightSlot start stop rwx world
      let err := BitVec.ofInt 64 result.1
      if err ≠ 0 then
        some ({ cap := pmp, code := err, resync := false }, result.2)
      else
        some ({ cap := pmp, code := 0, resync := true }, result.2)

/-- The `switch` with the checks of a build. -/
def dispatchWith (target : Nat) (monitor : Monitor) : Option Monitor :=
  if monitor.recvBuf[0]! = -1 then
    some { monitor with appRunning := false }
  else if monitor.recvBuf[0]! = 0x02 then
    match answerUpdateWith check s3k monitor with
    | none => none
    | some (answer, world) => some (sendAnswer s3k target answer world monitor)
  else
    some monitor

/-- One call of `loop` with the checks of a build. -/
def loopWith (request : Request) (monitor : Monitor) : Option Monitor :=
  if monitor.appRunning = false then
    none
  else
    dispatchWith check s3k request.target (receive s3k request monitor)

/-- With all checks it is the loop of the secured build. -/
theorem loopWith_checkUpdate : loopWith checkUpdate s3k = loop s3k :=
  rfl

end Builds

/-- The only check that is left, for the type of the capability. -/
def checkUpdatePlain (pmp : Cap) (words : Words) (_ : Memory) : Verdict :=
  match pmp with
  | .pmp addr _ =>
      .update (s3kPmpNapotBegin addr) (s3kPmpNapotEnd addr) words[3]!
  | _ => .refuse 0x02

/-- One call of `loop` without `SECURITY`. -/
def loopPlain (s3k : S3k) : Request → Monitor → Option Monitor :=
  loopWith checkUpdatePlain s3k

/-- A pass of the loop without `SECURITY`. -/
def PlainStep (s3k : S3k) (request : Request) (monitor next : Monitor) :
    Prop :=
  loopPlain s3k request monitor = some next

/-- The secured build refuses the words of a request. -/
def RefusedFor (words : Words) (mem : Memory) (code : Word) : Prop :=
  (words[3]! &&& 0x02 ≠ 0 ∧ words[3]! &&& 0x04 ≠ 0) ∧ code = 0x03 ∨
    (words[3]! &&& 0x02 = 0 ∧ words[3]! &&& 0x04 ≠ 0) ∧ code = 0x01 ∧
      codeSignature words mem ≠ some (givenSignature words mem)

/--
The request has come with a PMP capability and is refused for its words: the
monitor sends the code as it is, and makes no other call of the kernel.
-/
structure SecurityRefuses
    (s3k : S3k)
    (request : Request)
    (monitor next : Monitor) :
    Prop where
  isUpdate : (receive s3k request monitor).recvBuf[0]! = 0x02
  isPmp :
    ∃ addr cfg,
      (receive s3k request monitor).world.getcap flightSlot = .pmp addr cfg
  refused :
    ∃ answer : Answer,
      RefusedFor (receive s3k request monitor).recvBuf request.mem
          answer.code ∧
        next =
          sendAnswer s3k request.target answer
            (capmanUpdate (receive s3k request monitor).world)
            (receive s3k request monitor)

section Checks

variable
  {pmp : Cap}
  {words : Words}
  {mem : Memory}

/-- The checks of the two builds differ on requests that are refused only. -/
theorem checkUpdate_plain_or_refused
    (isDefined : checkUpdate pmp words mem ≠ .undefined) :
    checkUpdatePlain pmp words mem = checkUpdate pmp words mem ∨
      ∃ code,
        checkUpdate pmp words mem = .refuse code ∧
          RefusedFor words mem code ∧ ∃ addr cfg, pmp = .pmp addr cfg := by
  cases pmp with
  | pmp addr cfg =>
      unfold checkUpdate at isDefined ⊢
      dsimp only at isDefined ⊢
      split_ifs at isDefined ⊢ with both asksX
      · exact Or.inr ⟨0x03, rfl, Or.inl ⟨both, rfl⟩, addr, cfg, rfl⟩
      · have notW : words[3]! &&& 0x02 = 0 := by
          by_contra asksW
          exact both ⟨asksW, asksX⟩
        cases computed : codeSignature words mem with
        | none =>
            rw [computed] at isDefined
            exact absurd rfl isDefined
        | some signature =>
            dsimp only
            split_ifs with differs
            · refine Or.inr ⟨0x01, rfl, Or.inr ⟨⟨notW, asksX⟩, rfl, ?_⟩, addr,
                cfg, rfl⟩
              rw [computed]
              intro same
              exact differs ((compSig_eq_one_iff _ _).mpr
                (Option.some.inj same).symm)
            · exact Or.inl rfl
      · exact Or.inl rfl
  | _ =>
      exact Or.inl rfl

end Checks

section Runs

variable
  {s3k : S3k}
  {request : Request}
  {monitor next : Monitor}

/-- The app receives into one of its slots, and the kernel delivers. -/
structure ReplyDelivered
    (s3k : S3k)
    (request : Request)
    (monitor : Monitor) :
    Prop where
  inRange : request.target < ncap
  sends :
    ∀ words,
      s3k.excpt (receive s3k request monitor).world.trace
          (.send (monitor.soccaps[1]!).toNat words flightSlot
            request.target) =
        s3k.excptNone

/-- A refusal for the words of a request only sends the reply. -/
theorem SecurityRefuses.costsNothing
    (refuses : SecurityRefuses s3k request monitor next)
    (empty : monitor.world.getcap flightSlot = .none)
    (delivered : ReplyDelivered s3k request monitor) :
    CostsNothing s3k request monitor next := by
  obtain ⟨-, -, answer, -, rfl⟩ := refuses
  exact costsNothing_of_transfer empty delivered.inRange
    (sendAnswer_kernel delivered.sends)

/-- Two builds whose checks agree on what was received do the same. -/
theorem loopWith_congr
    {check other : Cap → Words → Memory → Verdict}
    (same :
      (receive s3k request monitor).recvBuf[0]! = 0x02 →
      check
          (capmanGet (capmanUpdate (receive s3k request monitor).world)
            flightSlot)
          (receive s3k request monitor).recvBuf request.mem =
        other
          (capmanGet (capmanUpdate (receive s3k request monitor).world)
            flightSlot)
          (receive s3k request monitor).recvBuf request.mem) :
    loopWith check s3k request monitor = loopWith other s3k request monitor := by
  have mem :
      (capmanUpdate (receive s3k request monitor).world).mem = request.mem :=
    capmanUpdate_mem _
  unfold loopWith dispatchWith
  by_cases isUpdate : (receive s3k request monitor).recvBuf[0]! = 0x02
  · simp only [answerUpdateWith, mem, same isUpdate]
  · simp only [if_neg isUpdate]

/-- One pass of the secured loop. -/
theorem LoopStep.plain_or_refused
    (step : LoopStep s3k request monitor next) :
    PlainStep s3k request monitor next ∨
      SecurityRefuses s3k request monitor next := by
  have agrees
      (same :
        (receive s3k request monitor).recvBuf[0]! = 0x02 →
        checkUpdatePlain
            (capmanGet (capmanUpdate (receive s3k request monitor).world)
              flightSlot)
            (receive s3k request monitor).recvBuf request.mem =
          checkUpdate
            (capmanGet (capmanUpdate (receive s3k request monitor).world)
              flightSlot)
            (receive s3k request monitor).recvBuf request.mem) :
      PlainStep s3k request monitor next := by
    rw [PlainStep, loopPlain, loopWith_congr same, loopWith_checkUpdate]
    exact step
  by_cases isUpdate : (receive s3k request monitor).recvBuf[0]! = 0x02
  · obtain ⟨answer, world, answered, rfl⟩ := loop_update isUpdate step
    have mem :
        (capmanUpdate (receive s3k request monitor).world).mem = request.mem :=
      capmanUpdate_mem _
    rw [answerUpdate] at answered
    simp only [mem] at answered
    have isDefined :
        checkUpdate
            (capmanGet (capmanUpdate (receive s3k request monitor).world)
              flightSlot)
            (receive s3k request monitor).recvBuf request.mem ≠
          .undefined := by
      intro undefined
      rw [undefined] at answered
      cases answered
    rcases checkUpdate_plain_or_refused isDefined with
      same | ⟨code, isRefused, refusedFor, isPmp⟩
    · exact Or.inl (agrees fun _ => same)
    · rw [isRefused] at answered
      cases answered
      rw [capmanGet_flight] at isPmp
      exact Or.inr ⟨isUpdate, isPmp, _, refusedFor, rfl⟩
  · exact Or.inl (agrees fun asks => absurd asks isUpdate)

/--
Every run of the secured monitor is one of the plain monitor, up to the first
request that it refuses for what it asks: the secured monitor then makes this
pass and goes on from there.  If the reply is delivered, this request gets its
capability back and has changed nothing.
-/
theorem secured_run_follows
    {requests : List Request}
    (run : Run (LoopStep s3k) requests monitor next) :
    Run (PlainStep s3k) requests monitor next ∨
      ∃ before request after source target,
        Passes (LoopStep s3k) (SecurityRefuses s3k) requests monitor next
            before request after source target ∧
          Run (PlainStep s3k) before monitor source ∧
          (source.world.getcap flightSlot = .none →
            ReplyDelivered s3k request source →
            CostsNothing s3k request source target) := by
  rcases run.follows fun _ _ _ step => step.plain_or_refused with
    isPlain | ⟨before, request, after, source, target, passes, leading⟩
  · exact Or.inl isPlain
  · exact Or.inr
      ⟨before, request, after, source, target, passes, leading,
        passes.isKind.costsNothing⟩

/-- A request for all rights, after one to write to the page. -/
def rwxRequest : Request :=
  { writeRequest with words := #v[0x02, 0, 0, 0x7] }

/-- A run that is granted its first request and refused its second. -/
theorem rwxRequest_follows :
    ∃ next,
      Run (LoopStep obliging) [writeRequest, rwxRequest] heapMonitor next ∧
        (Run (PlainStep obliging) [writeRequest, rwxRequest] heapMonitor next ∨
          ∃ before request after source target,
            Passes (LoopStep obliging) (SecurityRefuses obliging)
                [writeRequest, rwxRequest] heapMonitor next before request
                after source target ∧
              Run (PlainStep obliging) before heapMonitor source ∧
              (source.world.getcap flightSlot = .none →
                ReplyDelivered obliging request source →
                CostsNothing obliging request source target)) := by
  have result :
      ((loop obliging writeRequest heapMonitor).bind
        (loop obliging rwxRequest)).isSome = true := by
    decide +kernel
  obtain ⟨next, returned⟩ := Option.isSome_iff_exists.mp result
  obtain ⟨middle, first, second⟩ := Option.bind_eq_some_iff.mp returned
  have run :
      Run (LoopStep obliging) [writeRequest, rwxRequest] heapMonitor next :=
    .cons first (.cons second (.nil next))
  exact ⟨next, run, secured_run_follows run⟩

end Runs

end S3kMonitor
