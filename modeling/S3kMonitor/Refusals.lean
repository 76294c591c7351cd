import S3kMonitor.UpdatePmp

namespace S3kMonitor

/-!
# Refused requests

A request that `loop` answers with a code other than 0 has changed nothing:
the reply brings back the capability that came with the request, and no slot
of the monitor is left occupied.
-/

/--
A kernel that deletes what a slot holds, moves capabilities to empty slots
and delivers the replies of the monitor, in all states from `first` on.
Derivations may fail.
-/
structure Dependable (s3k : S3k) (sock : Nat) (first : World) : Prop where
  deletes :
    ∀ world, Makes s3k (fun _ => True) first world →
      ∀ idx, idx < ncap → world.getcap idx ≠ .none →
        s3k.excpt world.trace (.delcap idx) = s3k.excptNone
  moves :
    ∀ world, Makes s3k (fun _ => True) first world →
      ∀ src dst, src < ncap → dst < ncap →
        world.getcap src ≠ .none → world.getcap dst = .none →
        s3k.excpt world.trace (.movcap src dst) = s3k.excptNone
  sends :
    ∀ world, Makes s3k (fun _ => True) first world →
      ∀ words target,
        s3k.excpt world.trace (.send sock words flightSlot target) =
          s3k.excptNone

/-- The request arrives with a capability. -/
def Attached (s3k : S3k) (request : Request) (monitor : Monitor) : Prop :=
  s3k.excpt monitor.world.trace
      (.recv (monitor.soccaps[0]!).toNat flightSlot request.words
        request.source) =
    s3k.excptNone ∧
  request.source < ncap ∧
  monitor.world.kernel.table appPid request.source ≠ .none

/-- The capability is back, and nothing else is different. -/
structure CostsNothing
    (s3k : S3k)
    (request : Request)
    (monitor next : Monitor) :
    Prop where
  monitorTable :
    ∀ slot, next.world.getcap slot = monitor.world.getcap slot
  returned :
    Attached s3k request monitor →
      next.world.kernel.table appPid request.target =
        monitor.world.kernel.table appPid request.source
  elsewhere :
    ∀ pid slot,
      ¬ (pid = appPid ∧ (slot = request.source ∨ slot = request.target)) →
      next.world.kernel.table pid slot = monitor.world.kernel.table pid slot
  notAttached :
    ¬ Attached s3k request monitor →
      next.world.kernel = monitor.world.kernel

section Refused

variable
  {s3k : S3k}
  {sock : Nat}
  {world : World}
  (parentKept :
    ∀ parent child, parent ≠ .none → s3k.derived parent child ≠ .none)
include parentKept

/-- Once the new capability is derived, a dependable kernel completes. -/
theorem NewDerived.completes
    {tidx idx : Nat}
    {start stop rwx : Word}
    (derived : NewDerived s3k start stop rwx world tidx)
    (dependable : Dependable s3k sock world)
    (mirrored : Mirrored world)
    (inRange : idx < ncap)
    (taken : world.getcap idx ≠ .none) :
    (capmanUpdatePmp s3k idx start stop rwx world).1 = 0 := by
  have apart := derived.apart mirrored taken
  obtain ⟨-, -, slots⟩ := derived.step
  obtain ⟨present, -, -, -, deleted, deletes⟩ :=
    derived.deletion mirrored inRange taken parentKept
  have trace := derived.deletion_trace mirrored inRange taken parentKept
  obtain ⟨moved, -⟩ := derived.update mirrored inRange taken parentKept
  have derivation :
      Makes s3k (fun _ => True) world
        (capmanDerivePmp s3k tidx start stop rwx world).2 :=
    (capmanDerivePmp_makes world tidx start stop rwx).mono
      fun _ _ => trivial
  have deletion :
      Makes s3k (fun _ => True) world
        (capmanDelcap s3k idx
          (capmanDerivePmp s3k tidx start stop rwx world).2).2 :=
    derivation.trans ((capmanDelcap_makes _ idx).mono fun _ _ => trivial)
  have atTidx := (deleted tidx apart).trans (slots tidx)
  rw [if_pos rfl] at atTidx
  have free := deletes (dependable.deletes _ derivation idx inRange present)
  have answer :=
    dependable.moves _ deletion tidx idx derived.inRange inRange
      (by
        rw [atTidx]
        exact newPmp_ne_none)
      free
  rw [trace] at answer
  exact (moved answer).1

/-- So a failed update has left the kernel alone. -/
theorem capmanUpdatePmp_failed
    {idx : Nat}
    {start stop rwx : Word}
    (dependable : Dependable s3k sock world)
    (mirrored : Mirrored world)
    (inRange : idx < ncap)
    (taken : world.getcap idx ≠ .none)
    (failed : (capmanUpdatePmp s3k idx start stop rwx world).1 ≠ 0) :
    (capmanUpdatePmp s3k idx start stop rwx world).2.kernel =
      world.kernel := by
  have refused :=
    @capmanUpdatePmp_refused s3k world start stop rwx idx
      fun napot slot slotInRange found ok =>
        failed
          (NewDerived.completes parentKept ⟨slotInRange, found, napot, ok⟩
            dependable mirrored inRange taken)
  exact refused.2

/-- Case `0x02` leaves the kernel alone when it answers with a code. -/
theorem answerUpdate_failed
    {received : Monitor}
    {answer : Answer}
    (dependable : Dependable s3k sock received.world)
    (answered : answerUpdate s3k received = some (answer, world))
    (failed : answer.code ≠ 0) :
    world.kernel = received.world.kernel ∧
      Makes s3k (fun _ => True) received.world world := by
  have update :
      Makes s3k (fun _ => True) received.world
        (capmanUpdate received.world) :=
    capmanUpdate_makes received.world
  cases answerCase_of_answerUpdate answered with
  | refused isRefused =>
      exact ⟨capmanUpdate_kernel _, update⟩
  | @failed start stop rwx passed isError =>
      obtain ⟨⟨addr, cfg, isPmp, -, -⟩, -⟩ :=
        checkUpdate_eq_update_iff.mp passed
      have mirrored := mirrored_capmanUpdate received.world
      have taken :
          (capmanUpdate received.world).getcap flightSlot ≠ .none := by
        rw [← mirrored flightSlot (by decide), ← capmanGet, isPmp]
        exact Cap.noConfusion
      have later : Dependable s3k sock (capmanUpdate received.world) :=
        ⟨fun next makes => dependable.deletes next (update.trans makes),
          fun next makes => dependable.moves next (update.trans makes),
          fun next makes => dependable.sends next (update.trans makes)⟩
      have made :
          Makes s3k (fun _ => True) (capmanUpdate received.world)
            (capmanUpdatePmp s3k flightSlot start stop rwx
              (capmanUpdate received.world)).2 := by
        rcases capmanUpdatePmp_makes (capmanUpdate received.world) flightSlot
            start stop rwx with nothing | ⟨_, _, _, makes⟩
        · rw [nothing]
          exact Makes.refl _
        · exact makes.mono fun _ _ => trivial
      have unchanged :=
        capmanUpdatePmp_failed parentKept later mirrored (by decide) taken
          (ne_zero_of_code isError)
      exact ⟨unchanged.trans (capmanUpdate_kernel _), update.trans made⟩
  | updated passed isZero =>
      exact absurd rfl failed

end Refused

section Transfers

variable
  {s3k : S3k}
  {request : Request}
  {monitor : Monitor}

/-- What arrives when the message is received. -/
theorem receive_kernel :
    (receive s3k request monitor).world.kernel =
      if s3k.excpt monitor.world.trace
            (.recv (monitor.soccaps[0]!).toNat flightSlot request.words
              request.source) =
          s3k.excptNone then
        monitor.world.kernel.transfer appPid request.source monitorPid
          flightSlot
      else
        monitor.world.kernel := by
  unfold receive
  dsimp only
  split
  · next ok => exact World.call_kernel_of_ok ok
  · next failed => exact World.call_kernel_of_failed failed

/-- The capability of the request is in the flight slot. -/
theorem receive_kernel_of_attached
    (attached : Attached s3k request monitor) :
    (receive s3k request monitor).world.kernel =
      monitor.world.kernel.move appPid request.source monitorPid
        flightSlot := by
  obtain ⟨ok, sourceInRange, present⟩ := attached
  have flightInRange : flightSlot < ncap := by
    decide
  rw [receive_kernel, if_pos ok, Kernel.transfer,
    if_pos ⟨sourceInRange, flightInRange, present⟩]

/-- Nothing was received, so nothing has moved. -/
theorem receive_kernel_of_unattached
    (notAttached : ¬ Attached s3k request monitor) :
    (receive s3k request monitor).world.kernel = monitor.world.kernel := by
  rw [receive_kernel]
  split
  · next ok =>
    rw [Kernel.transfer, if_neg]
    rintro ⟨sourceInRange, -, present⟩
    exact notAttached ⟨ok, sourceInRange, present⟩
  · rfl

/-- There and back again: the capability only passes the flight slot. -/
theorem costsNothing_of_transfer
    {next : Monitor}
    (empty : monitor.world.getcap flightSlot = .none)
    (inRange : request.target < ncap)
    (back :
      next.world.kernel =
        (receive s3k request monitor).world.kernel.transfer monitorPid
          flightSlot appPid request.target) :
    CostsNothing s3k request monitor next := by
  rw [World.getcap] at empty
  have flightInRange : flightSlot < ncap := by
    decide
  by_cases attached : Attached s3k request monitor
  · have present := attached.2.2
    have atFlight :
        (monitor.world.kernel.move appPid request.source monitorPid
            flightSlot).table monitorPid flightSlot =
          monitor.world.kernel.table appPid request.source := by
      rw [Kernel.move_table, if_pos ⟨rfl, rfl⟩]
    rw [receive_kernel_of_attached attached, Kernel.transfer,
      if_pos ⟨flightInRange, inRange, by rwa [atFlight]⟩] at back
    refine ⟨fun slot => ?_, fun _ => ?_, fun pid slot other => ?_,
      fun notAttached => absurd attached notAttached⟩
    · simp only [World.getcap, back, Kernel.move_table, true_and]
      by_cases isFlight : slot = flightSlot
      · rw [if_neg (by simp [monitorPid, appPid]), if_pos isFlight, isFlight,
          empty]
      · rw [if_neg (by simp [monitorPid, appPid]), if_neg isFlight,
          if_neg isFlight, if_neg (by simp [monitorPid, appPid])]
    · rw [back, Kernel.move_table, if_pos ⟨rfl, rfl⟩, atFlight]
    · have notTarget : ¬ (pid = appPid ∧ slot = request.target) :=
        fun same => other ⟨same.1, Or.inr same.2⟩
      have notSource : ¬ (pid = appPid ∧ slot = request.source) :=
        fun same => other ⟨same.1, Or.inl same.2⟩
      rw [back, Kernel.move_table, if_neg notTarget, Kernel.move_table,
        if_neg notSource]
      by_cases isFlight : pid = monitorPid ∧ slot = flightSlot
      · rw [if_pos isFlight, isFlight.1, isFlight.2, empty]
      · rw [if_neg isFlight, if_neg isFlight]
  · rw [receive_kernel_of_unattached attached, Kernel.transfer,
      if_neg (by simp [empty])] at back
    exact ⟨fun slot => by rw [World.getcap, back, World.getcap],
      fun isAttached => absurd isAttached attached,
      fun _ _ _ => by rw [back], fun _ => back⟩

end Transfers

section Loop

variable
  {s3k : S3k}
  {request : Request}
  {monitor next : Monitor}

/-- An update request that is answered is answered through case `0x02`. -/
theorem loop_update
    (isUpdate : (receive s3k request monitor).recvBuf[0]! = 0x02)
    (answered : loop s3k request monitor = some next) :
    ∃ answer world,
      answerUpdate s3k (receive s3k request monitor) =
          some (answer, world) ∧
        next =
          sendAnswer s3k request.target answer world
            (receive s3k request monitor) := by
  cases LoopStep.passCase answered with
  | finish isFinish =>
      rw [isUpdate] at isFinish
      exact absurd isFinish (by decide)
  | reply _ computed =>
      exact ⟨_, _, computed, rfl⟩
  | ignore isOther =>
      exact absurd isUpdate isOther

/-- The code of an answer is the first word of the message. -/
theorem sendAnswer_code
    (target : Nat)
    (answer : Answer)
    (world : World) :
    (sendAnswer s3k target answer world monitor).recvBuf[0]! =
      answer.code := by
  simp [sendAnswer]

/-- A reply that is delivered takes the capability along. -/
theorem sendAnswer_kernel
    {target : Nat}
    {answer : Answer}
    {world : World}
    (sent :
      ∀ words,
        s3k.excpt world.trace
            (.send (monitor.soccaps[1]!).toNat words flightSlot target) =
          s3k.excptNone) :
    (sendAnswer s3k target answer world monitor).world.kernel =
      world.kernel.transfer monitorPid flightSlot appPid target := by
  have delivered :=
    @World.call_kernel_of_ok s3k
      (.send (monitor.soccaps[1]!).toNat
        (monitor.recvBuf.setIfInBounds 0 answer.code) flightSlot target)
      world (sent _)
  unfold sendAnswer
  dsimp only
  split
  · rw [capmanUpdate_kernel]
    exact delivered
  · exact delivered

end Loop

/--
A request with opcode `0x02` that is answered with a code other than 0 costs
the app nothing, whatever it attaches and whatever the monitor holds.
-/
theorem refused_request_costsNothing
    (s3k : S3k)
    (parentKept :
      ∀ parent child, parent ≠ .none → s3k.derived parent child ≠ .none)
    (request : Request)
    (monitor next : Monitor)
    (dependable :
      Dependable s3k (monitor.soccaps[1]!).toNat
        (receive s3k request monitor).world)
    (empty : monitor.world.getcap flightSlot = .none)
    (inRange : request.target < ncap)
    (isUpdate : (receive s3k request monitor).recvBuf[0]! = 0x02)
    (answered : loop s3k request monitor = some next)
    (refused : next.recvBuf[0]! ≠ 0) :
    CostsNothing s3k request monitor next := by
  obtain ⟨answer, world, computed, rfl⟩ := loop_update isUpdate answered
  rw [sendAnswer_code] at refused
  obtain ⟨unchanged, made⟩ :=
    answerUpdate_failed parentKept dependable computed refused
  apply costsNothing_of_transfer empty inRange
  rw [← unchanged]
  exact sendAnswer_kernel fun words =>
    dependable.sends world made words request.target

/-- A kernel that refuses all derivations and nothing else. -/
def noDerivations : S3k :=
  S3k.generous fun _ call =>
    match call with
    | .drvcap .. => true
    | _ => false

/-- A kernel that derives nothing is dependable. -/
theorem noDerivations_dependable
    {sock : Nat}
    (inRange : sock < ncap)
    (first : World) :
    Dependable noDerivations sock first := by
  simp only [ncap] at inRange
  constructor
  · intro world _ idx idxInRange _
    simp only [ncap] at idxInRange
    simp [noDerivations, S3k.generous, KernelCall.slots, ncap, idxInRange]
  · intro world _ src dst srcInRange dstInRange _ _
    simp only [ncap] at srcInRange dstInRange
    simp [noDerivations, S3k.generous, KernelCall.slots, ncap, srcInRange,
      dstInRange]
  · intro world _ words target
    simp [noDerivations, S3k.generous, KernelCall.slots, ncap, inRange]

/-- The request for a writable page is answered with 2, and costs nothing. -/
theorem writeRequest_costsNothing :
    ∃ next,
      loop noDerivations writeRequest heapMonitor = some next ∧
        next.recvBuf[0]! = 2 ∧
        CostsNothing noDerivations writeRequest heapMonitor next := by
  have result :
      (loop noDerivations writeRequest heapMonitor).map
          (fun next => next.recvBuf[0]!) =
        some 2 := by
    decide +kernel
  obtain ⟨next, returned, code⟩ := Option.map_eq_some_iff.mp result
  refine ⟨next, returned, code,
    refused_request_costsNothing _ (fun _ _ present => present) _ _ _
      (noDerivations_dependable (by decide) _) (by decide) (by decide)
      (by decide) returned ?_⟩
  rw [code]
  decide

end S3kMonitor
