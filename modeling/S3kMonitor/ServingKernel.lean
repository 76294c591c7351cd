import S3kMonitor.Loop

namespace S3kMonitor

/-!
# A kernel whose IPC never fails

`loop` makes its IPC by kernel calls, which the kernel may refuse and which
become part of what has happened.  In `serving` a call for IPC over a socket
that exists does not fail, and no other call is answered by what IPC there has
been.  A request is then answered as it is by a kernel in which there has been
no IPC at all.
-/

section Kernels

/-- The calls that exchange messages. -/
def KernelCall.isIpc : KernelCall → Bool
  | .recv _ _ _ _ => true
  | .send _ _ _ _ => true
  | _ => false

/-- Messages and answers, as against the other events. -/
def Event.isIpc : Event → Bool
  | .called kernelCall _ => kernelCall.isIpc
  | .answered _ _ => true
  | _ => false

/-- What has happened, without the IPC behind the first `n` events. -/
def silent (n : Nat) : List Event → List Event
  | [] => []
  | event :: earlier =>
      if event.isIpc ∧ n ≤ earlier.length then
        silent n earlier
      else
        event :: silent n earlier

/--
Messages always succeed, and other calls see none of them since event `n`.
-/
def S3k.servingExcpt
    (s3k : S3k)
    (n : Nat)
    (trace : List Event)
    (kernelCall : KernelCall) :
    Int :=
  if kernelCall.isIpc then
    if kernelCall.slots.all (· < ncap) then
      s3k.excptNone
    else
      s3k.excptNone + 1
  else
    s3k.excpt (silent n trace) kernelCall

/-- Slots beyond the table are refused as before. -/
theorem S3k.servingExcpt_ne
    (s3k : S3k)
    (n : Nat)
    (trace : List Event)
    (kernelCall : KernelCall)
    (slot : Nat)
    (member : slot ∈ kernelCall.slots)
    (tooLarge : ncap ≤ slot) :
    s3k.servingExcpt n trace kernelCall ≠ s3k.excptNone := by
  unfold S3k.servingExcpt
  split
  · have bad : kernelCall.slots.all (· < ncap) = false := by
      rw [List.all_eq_false]
      exact ⟨slot, member, by simpa using tooLarge⟩
    simp [bad]
  · exact s3k.excpt_ne _ kernelCall slot member tooLarge

/-- The kernel in which IPC over a socket that exists never fails. -/
def S3k.serving (s3k : S3k) (n : Nat) : S3k :=
  { s3k with
    excpt := s3k.servingExcpt n
    excpt_ne := s3k.servingExcpt_ne n }

/-- The world without the messages since event `n`. -/
def World.silent (world : World) (n : Nat) : World :=
  { world with trace := S3kMonitor.silent n world.trace }

/-- The monitor without them. -/
def Monitor.silent (monitor : Monitor) (n : Nat) : Monitor :=
  { monitor with world := monitor.world.silent n }

/-- The result of a function, without the IPC. -/
def quiet {α : Type} (n : Nat) (result : α × World) : α × World :=
  (result.1, result.2.silent n)

end Kernels

section Functions

variable
  {s3k : S3k}
  {n : Nat}
  {world : World}

/-- A trace that is no longer than that is unchanged. -/
theorem silent_of_length_le
    {trace : List Event}
    (short : trace.length ≤ n) :
    silent n trace = trace := by
  induction trace with
  | nil =>
      rfl
  | cons event earlier inductionHypothesis =>
      simp only [List.length_cons] at short
      rw [silent, if_neg (by omega), inductionHypothesis (by omega)]

/-- A message since then is left out. -/
theorem silent_ipc
    {event : Event}
    {earlier : List Event}
    (isIpc : event.isIpc = true)
    (since : n ≤ earlier.length) :
    silent n (event :: earlier) = silent n earlier :=
  if_pos ⟨isIpc, since⟩

/-- Every other event stays. -/
theorem silent_cons
    {event : Event}
    {earlier : List Event}
    (isOther : event.isIpc = false) :
    silent n (event :: earlier) = event :: silent n earlier :=
  if_neg (by simp [isOther])

/-- A call that is not IPC is answered alike in both kernels. -/
theorem World.call_silent
    {kernelCall : KernelCall}
    (isOther : kernelCall.isIpc = false)
    (world : World) :
    (world.silent n).call s3k kernelCall =
      quiet n (world.call (s3k.serving n) kernelCall) := by
  have answers :
      (s3k.serving n).excpt world.trace kernelCall =
        s3k.excpt (S3kMonitor.silent n world.trace) kernelCall := by
    simp [S3k.serving, S3k.servingExcpt, isOther]
  have traced (excpt : Int) :
      S3kMonitor.silent n (.called kernelCall excpt :: world.trace) =
        .called kernelCall excpt :: S3kMonitor.silent n world.trace :=
    silent_cons isOther
  simp only [World.call, World.silent, quiet, answers, traced]
  rfl

/-- Re-reading the capabilities is not concerned. -/
theorem capmanUpdate_silent (world : World) :
    capmanUpdate (world.silent n) = (capmanUpdate world).silent n := by
  unfold capmanUpdate
  induction slotsUp generalizing world with
  | nil =>
      rfl
  | cons slot slots inductionHypothesis =>
      exact inductionHypothesis (world.reread slot)

/-- The code for success is the same. -/
@[simp]
theorem S3k.serving_excptNone :
    (s3k.serving n).excptNone = s3k.excptNone :=
  rfl

/-- The world of a result is silent. -/
theorem quiet_snd {α : Type} (result : α × World) :
    (quiet n result).2 = result.2.silent n :=
  rfl

/-- What is left out does not decide which way a function goes. -/
theorem quiet_ite
    {α : Type}
    {condition : Prop}
    [Decidable condition]
    (first second : α × World) :
    quiet n (if condition then first else second) =
      if condition then quiet n first else quiet n second :=
  apply_ite (quiet n) condition first second

/-- `capman_move` does the same with and without the messages. -/
theorem capmanMove_silent (src dst : Nat) (world : World) :
    capmanMove s3k src dst (world.silent n) =
      quiet n (capmanMove (s3k.serving n) src dst world) := by
  unfold capmanMove
  dsimp only
  rw [World.call_silent rfl, quiet_ite, quiet_ite]
  rfl

/-- So does `capman_delcap`. -/
theorem capmanDelcap_silent (idx : Nat) (world : World) :
    capmanDelcap s3k idx (world.silent n) =
      quiet n (capmanDelcap (s3k.serving n) idx world) := by
  unfold capmanDelcap
  dsimp only
  rw [World.call_silent rfl, quiet_ite]
  rfl

/-- So does a derivation. -/
theorem deriveFrom_silent (i : Int) (idx : Nat) (cap : Cap) (world : World) :
    deriveFrom s3k i idx cap (world.silent n) =
      quiet n (deriveFrom (s3k.serving n) i idx cap world) := by
  unfold deriveFrom
  dsimp only
  rw [World.call_silent rfl, quiet_ite]
  rfl

/-- So does `capman_derive_pmp`. -/
theorem capmanDerivePmp_silent
    (idx : Nat)
    (start stop rwx : Word)
    (world : World) :
    capmanDerivePmp s3k idx start stop rwx (world.silent n) =
      quiet n (capmanDerivePmp (s3k.serving n) idx start stop rwx world) := by
  unfold capmanDerivePmp
  dsimp only
  rw [deriveFrom_silent, quiet_ite]
  rfl

/-- So does `capman_update_pmp`. -/
theorem capmanUpdatePmp_silent
    (idx : Nat)
    (start stop rwx : Word)
    (world : World) :
    capmanUpdatePmp s3k idx start stop rwx (world.silent n) =
      quiet n (capmanUpdatePmp (s3k.serving n) idx start stop rwx world) := by
  unfold capmanUpdatePmp
  dsimp only
  rw [capmanDerivePmp_silent, quiet_snd, capmanDelcap_silent, quiet_snd,
    capmanMove_silent]
  simp only [quiet_ite]
  rfl

/-- A request is answered alike in both kernels. -/
theorem answerUpdate_silent (monitor : Monitor) :
    answerUpdate s3k (monitor.silent n) =
      (answerUpdate (s3k.serving n) monitor).map (quiet n) := by
  unfold answerUpdate
  dsimp only [Monitor.silent]
  rw [capmanUpdate_silent]
  have same :
      capmanGet ((capmanUpdate monitor.world).silent n) flightSlot =
        capmanGet (capmanUpdate monitor.world) flightSlot :=
    rfl
  have mem :
      ((capmanUpdate monitor.world).silent n).mem =
        (capmanUpdate monitor.world).mem :=
    rfl
  rw [same, mem]
  cases checkUpdate (capmanGet (capmanUpdate monitor.world) flightSlot)
      monitor.recvBuf (capmanUpdate monitor.world).mem with
  | undefined =>
      rfl
  | refuse code =>
      rfl
  | update start stop rwx =>
      dsimp only
      rw [capmanUpdatePmp_silent, apply_ite (Option.map (quiet n))]
      rfl

end Functions

section Passes

/-- Both sockets of the monitor are among its slots. -/
def SocketSlots (monitor : Monitor) : Prop :=
  (monitor.soccaps[0]!).toNat < ncap ∧ (monitor.soccaps[1]!).toNat < ncap

variable
  {s3k : S3k}
  {n : Nat}
  {world : World}
  {monitor : Monitor}
  {request : Request}
  {answer : Answer}

/-- A message is received if the socket is in the table. -/
theorem serving_recv
    {sock capIdx source : Nat}
    {words : Words}
    (inRange : sock < ncap)
    (trace : List Event) :
    (s3k.serving n).excpt trace (.recv sock capIdx words source) =
      s3k.excptNone := by
  simp [S3k.serving, S3k.servingExcpt, KernelCall.isIpc, KernelCall.slots,
    inRange]

/-- A message is sent if the socket is in the table. -/
theorem serving_send
    {sock capIdx target : Nat}
    {words : Words}
    (inRange : sock < ncap)
    (trace : List Event) :
    (s3k.serving n).excpt trace (.send sock words capIdx target) =
      s3k.excptNone := by
  simp [S3k.serving, S3k.servingExcpt, KernelCall.isIpc, KernelCall.slots,
    inRange]

/-- What the monitor has once it has received a request. -/
def Monitor.took (monitor : Monitor) (request : Request) : Monitor :=
  { monitor with
    recvBuf := request.words
    world :=
      { monitor.world with
        mem := request.mem
        kernel :=
          monitor.world.kernel.transfer appPid request.source monitorPid
            flightSlot } }

/-- What the monitor has once its answer has arrived in this slot. -/
def Monitor.gave (monitor : Monitor) (target : Nat) (answer : Answer) :
    Monitor :=
  let world :=
    { monitor.world with
      kernel :=
        monitor.world.kernel.transfer monitorPid flightSlot appPid target }
  { monitor with
    recvBuf := monitor.recvBuf.setIfInBounds 0 answer.code
    world := if answer.resync then capmanUpdate world else world }

/-- The kernel call of `loop` receives what the app has sent. -/
theorem receive_silent
    (sockets : SocketSlots monitor)
    (since : n ≤ monitor.world.trace.length) :
    (receive (s3k.serving n) request monitor).silent n =
      (monitor.silent n).took request := by
  have traced (excpt : Int) (sock : Nat) :
      silent n
          (.called (.recv sock flightSlot request.words request.source) excpt ::
            monitor.world.trace) =
        silent n monitor.world.trace :=
    silent_ipc rfl since
  unfold receive
  simp only [World.call, serving_recv sockets.1, S3k.serving_excptNone,
    if_true, Monitor.silent, World.silent, traced]
  rfl

/-- The kernel call of `loop` sends what the app receives. -/
theorem sendAnswer_silent
    {target : Nat}
    (sockets : SocketSlots monitor)
    (since : n ≤ world.trace.length) :
    (sendAnswer (s3k.serving n) target answer world monitor).silent n =
      { monitor with world := world.silent n }.gave target answer := by
  let recvBuf := monitor.recvBuf.setIfInBounds 0 answer.code
  let sock := (monitor.soccaps[1]!).toNat
  let result :=
    world.call (s3k.serving n) (.send sock recvBuf flightSlot target)
  let sent :=
    { result.2 with
      trace := .answered answer.cap answer.code :: result.2.trace }
  have answers :
      (s3k.serving n).excpt world.trace (.send sock recvBuf flightSlot target) =
        s3k.excptNone :=
    serving_send sockets.2 world.trace
  have traced : silent n sent.trace = silent n world.trace := by
    have sentBefore : silent n result.2.trace = silent n world.trace :=
      silent_ipc rfl since
    rw [← sentBefore]
    exact silent_ipc rfl (Nat.le_succ_of_le since)
  have kernel :
      sent.kernel =
        world.kernel.transfer monitorPid flightSlot appPid target :=
    World.call_kernel_of_ok answers
  have same :
      sent.silent n =
        { world.silent n with
          kernel :=
            world.kernel.transfer monitorPid flightSlot appPid target } := by
    rw [World.silent, traced, kernel]
    rfl
  calc
    (sendAnswer (s3k.serving n) target answer world monitor).silent n
        = { monitor with
            recvBuf := recvBuf
            world :=
              (if answer.resync then capmanUpdate sent else sent).silent n } :=
      rfl
    _ = _ := by
      rw [apply_ite (World.silent · n), ← capmanUpdate_silent, same]
      rfl

end Passes

end S3kMonitor
