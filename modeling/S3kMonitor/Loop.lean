import S3kMonitor.CapmanCalls
import S3kMonitor.CodeAuth

namespace S3kMonitor

/-!
# The request loop of `monitor/monitor.c`

One call of `loop` receives a message, and if the message asks for new rights
of a PMP capability, checks the request, updates the capability and sends it
back.  This is the build with `SECURITY` defined.  What is only printed is
left out.
-/

/-- The global variables of `monitor.c`. -/
structure Monitor where
  world : World
  appRunning : Bool
  recvBuf : Words
  soccaps : Vector Byte 8

/--
What the app contributes to one call of `loop`: its message, the slot of the
capability it attaches, the memory it has left behind, and the slot in which
it takes the capability of the reply.  What counts of the memory is what the
loads of the checks give.  If `recv_buf[1]` names the monitor's own array for
the computed signature, they come behind the store to that array.
-/
structure Request where
  words : Words
  source : Nat
  mem : Memory
  target : Nat

/-- The slot in which capabilities arrive and leave. -/
def flightSlot : Nat := 0x30

/-- The bytes from a pointer on. -/
def bytesAt (mem : Memory) (ptr : Word) : Nat → Byte :=
  fun offset => mem (ptr + BitVec.ofNat 64 offset)

section CodeCheck

variable
  (words : Words)
  (mem : Memory)

/-- The pointer of a request to signature and code. -/
def ptrSig : Word :=
  words[1]!

/-- The code stands behind signature and size. -/
def ptrCode : Word :=
  ptrSig words + 0x20

/-- The size of the code. -/
def codeSize : Word :=
  loadWord (bytesAt mem (ptrSig words)) 0x10

/-- The number of bytes that `calc_sig` is told to read. -/
def codeLen : Int :=
  toInt (codeSize words mem)

/-- The code computed over the code, if the computation is defined. -/
def codeSignature : Option Block :=
  calcSig (bytesAt mem (ptrCode words)) (codeLen words mem)

/-- The signature that stands in front of the code. -/
def givenSignature : Block :=
  blockAt (bytesAt mem (ptrSig words)) 0

end CodeCheck

/-- What the checks of a request come to. -/
inductive Verdict where
  | refuse (code : Word)
  | update (start stop rwx : Word)
  | undefined
deriving DecidableEq

/--
The checks of case `0x02`, for the capability in the flight slot; `mem` is
what their loads give.
-/
def checkUpdate (pmp : Cap) (words : Words) (mem : Memory) : Verdict :=
  match pmp with
  | .pmp addr _ =>
      let start := s3kPmpNapotBegin addr
      let stop := s3kPmpNapotEnd addr
      let rwx := words[3]!
      if rwx &&& 0x02 ≠ 0 ∧ rwx &&& 0x04 ≠ 0 then
        .refuse 0x03
      else if rwx &&& 0x04 ≠ 0 then
        match codeSignature words mem with
        | none => .undefined
        | some signature =>
            if compSig (givenSignature words mem) signature ≠ 1 then
              .refuse 0x01
            else
              .update start stop rwx
      else
        .update start stop rwx
  | _ => .refuse 0x02

/-- The reply to a request, and whether `capman_update` follows it. -/
structure Answer where
  cap : Cap
  code : Word
  resync : Bool
deriving DecidableEq

section Passes

variable (s3k : S3k)

/-- `s3k_recv`; a failing call leaves the buffer as it is. -/
def receive (request : Request) (monitor : Monitor) : Monitor :=
  let result :=
    monitor.world.call s3k
      (.recv (monitor.soccaps[0]!).toNat flightSlot request.words
        request.source)
  { monitor with
    world := { result.2 with mem := request.mem }
    recvBuf :=
      if result.1 = s3k.excptNone then request.words else monitor.recvBuf }

/-- Case `0x02` up to the reply. -/
def answerUpdate (monitor : Monitor) : Option (Answer × World) :=
  let world := capmanUpdate monitor.world
  let pmp := capmanGet world flightSlot
  match checkUpdate pmp monitor.recvBuf world.mem with
  | .undefined => none
  | .refuse code => some ({ cap := pmp, code := code, resync := true }, world)
  | .update start stop rwx =>
      let result := capmanUpdatePmp s3k flightSlot start stop rwx world
      let err := BitVec.ofInt 64 result.1
      if err ≠ 0 then
        some ({ cap := pmp, code := err, resync := false }, result.2)
      else
        some ({ cap := pmp, code := 0, resync := true }, result.2)

/-- `s3k_send` of the reply and what follows it. -/
def sendAnswer
    (target : Nat)
    (answer : Answer)
    (world : World)
    (monitor : Monitor) :
    Monitor :=
  let recvBuf := monitor.recvBuf.setIfInBounds 0 answer.code
  let result :=
    world.call s3k
      (.send (monitor.soccaps[1]!).toNat recvBuf flightSlot target)
  let sent :=
    { result.2 with
      trace := .answered answer.cap answer.code :: result.2.trace }
  { monitor with
    world := if answer.resync then capmanUpdate sent else sent
    recvBuf := recvBuf }

/-- The `switch` over the first word; `none` where the code has no meaning. -/
def dispatch (target : Nat) (monitor : Monitor) : Option Monitor :=
  if monitor.recvBuf[0]! = -1 then
    some { monitor with appRunning := false }
  else if monitor.recvBuf[0]! = 0x02 then
    match answerUpdate s3k monitor with
    | none => none
    | some (answer, world) => some (sendAnswer s3k target answer world monitor)
  else
    some monitor

/-- One call of `loop`; it waits forever if the app is not running. -/
def loop (request : Request) (monitor : Monitor) : Option Monitor :=
  if monitor.appRunning = false then
    none
  else
    dispatch s3k request.target (receive s3k request monitor)

end Passes

/-- One call of `loop` that returns. -/
def LoopStep (s3k : S3k) (request : Request) (monitor next : Monitor) : Prop :=
  loop s3k request monitor = some next

section Checks

variable
  {cap : Cap}
  {words : Words}
  {mem : Memory}
  {start stop rwx : Word}

/-- Everything that a request has passed when its capability is updated. -/
theorem checkUpdate_eq_update_iff :
    checkUpdate cap words mem = .update start stop rwx ↔
      (∃ addr cfg, cap = .pmp addr cfg ∧
        start = s3kPmpNapotBegin addr ∧ stop = s3kPmpNapotEnd addr) ∧
      rwx = words[3]! ∧
      ¬ (rwx &&& 0x02 ≠ 0 ∧ rwx &&& 0x04 ≠ 0) ∧
      (rwx &&& 0x04 ≠ 0 →
        codeSignature words mem = some (givenSignature words mem)) := by
  cases cap with
  | pmp addr cfg =>
      unfold checkUpdate
      dsimp only
      constructor
      · intro updated
        split at updated
        · cases updated
        · next notBoth =>
          split at updated
          · next asksX =>
            split at updated
            · cases updated
            · next signature computed =>
              split at updated
              · cases updated
              · next matches_ =>
                have same := (compSig_eq_one_iff _ _).mp (not_not.mp matches_)
                cases updated
                exact ⟨⟨addr, cfg, rfl, rfl, rfl⟩, rfl, notBoth,
                  fun _ => by rw [computed, same]⟩
          · next noX =>
            cases updated
            exact ⟨⟨addr, cfg, rfl, rfl, rfl⟩, rfl, notBoth,
              fun asksX => absurd asksX noX⟩
      · rintro ⟨⟨_, _, same, rfl, rfl⟩, rfl, notBoth, signed⟩
        cases same
        rw [if_neg notBoth]
        split
        · next asksX =>
          rw [signed asksX]
          simp [compSig_self]
        · rfl
  | _ =>
      simp [checkUpdate]

end Checks

section Cases

/-- The reply's code is 0 where the update returns 0. -/
theorem ne_zero_of_code
    {err : Int}
    (isError : BitVec.ofInt 64 err ≠ 0) :
    err ≠ 0 := by
  rintro rfl
  exact isError rfl

/-- How case `0x02` comes to its reply, in the world that it has read. -/
inductive AnswerCase
    (s3k : S3k)
    (recvBuf : Words)
    (world : World) :
    Answer → World → Prop where
  | refused
      {code : Word}
      (isRefused :
        checkUpdate (capmanGet world flightSlot) recvBuf world.mem =
          .refuse code) :
      AnswerCase s3k recvBuf world
        { cap := capmanGet world flightSlot, code := code, resync := true }
        world
  | failed
      {start stop rwx : Word}
      (passed :
        checkUpdate (capmanGet world flightSlot) recvBuf world.mem =
          .update start stop rwx)
      (isError :
        BitVec.ofInt 64
            (capmanUpdatePmp s3k flightSlot start stop rwx world).1 ≠
          0) :
      AnswerCase s3k recvBuf world
        { cap := capmanGet world flightSlot
          code :=
            BitVec.ofInt 64
              (capmanUpdatePmp s3k flightSlot start stop rwx world).1
          resync := false }
        (capmanUpdatePmp s3k flightSlot start stop rwx world).2
  | updated
      {start stop rwx : Word}
      (passed :
        checkUpdate (capmanGet world flightSlot) recvBuf world.mem =
          .update start stop rwx)
      (isZero :
        BitVec.ofInt 64
            (capmanUpdatePmp s3k flightSlot start stop rwx world).1 =
          0) :
      AnswerCase s3k recvBuf world
        { cap := capmanGet world flightSlot, code := 0, resync := true }
        (capmanUpdatePmp s3k flightSlot start stop rwx world).2

/-- What a pass of the loop does with the message that it has received. -/
inductive PassCase
    (s3k : S3k)
    (request : Request)
    (monitor : Monitor) :
    Monitor → Prop where
  | finish
      (isFinish : (receive s3k request monitor).recvBuf[0]! = -1) :
      PassCase s3k request monitor
        { receive s3k request monitor with appRunning := false }
  | reply
      {answer : Answer}
      {world : World}
      (isUpdate : (receive s3k request monitor).recvBuf[0]! = 0x02)
      (answered :
        answerUpdate s3k (receive s3k request monitor) =
          some (answer, world)) :
      PassCase s3k request monitor
        (sendAnswer s3k request.target answer world
          (receive s3k request monitor))
  | ignore
      (isOther : (receive s3k request monitor).recvBuf[0]! ≠ 0x02) :
      PassCase s3k request monitor (receive s3k request monitor)

variable
  {s3k : S3k}
  {request : Request}
  {monitor next : Monitor}
  {answer : Answer}
  {world : World}

/-- How an answer has come about. -/
theorem answerCase_of_answerUpdate
    (answered : answerUpdate s3k monitor = some (answer, world)) :
    AnswerCase s3k monitor.recvBuf (capmanUpdate monitor.world) answer
      world := by
  unfold answerUpdate at answered
  dsimp only at answered
  split at answered
  · cases answered
  · next code isRefused =>
    cases answered
    exact .refused isRefused
  · next start stop rwx passed =>
    split at answered
    · next isError =>
      cases answered
      exact .failed passed isError
    · next isZero =>
      cases answered
      exact .updated passed (not_not.mp isZero)

/-- How a pass of the loop has come about. -/
theorem LoopStep.passCase
    (step : LoopStep s3k request monitor next) :
    PassCase s3k request monitor next := by
  unfold LoopStep loop at step
  split at step
  · cases step
  · unfold dispatch at step
    split at step
    · next isFinish =>
      cases step
      exact .finish isFinish
    · split at step
      · next isUpdate =>
        split at step
        · cases step
        · next answer world answered =>
          cases step
          exact .reply isUpdate answered
      · next isOther =>
        cases step
        exact .ignore isOther

end Cases

end S3kMonitor
