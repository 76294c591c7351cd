import S3kMonitor.ExecutableRights
import S3kMonitor.Refusals
import S3kMonitor.StaticRights

namespace S3kMonitor

open Runs

/-!
# Granted requests

A request is answered with 0 exactly when it passes the checks and the kernel
derives the new capability.  Then one capability of the app has other rights
over the same region, and apart from the memory capability that the new one
is derived from nothing else has changed.
-/

/-- The slot of the memory capability from which a request is served. -/
def requestParent
    (s3k : S3k)
    (request : Request)
    (monitor : Monitor)
    (addr : Word) :
    Nat :=
  parentSlot s3k (s3kPmpNapotBegin addr) (s3kPmpNapotEnd addr)
    request.words[3]! (capmanUpdate (receive s3k request monitor).world)

/-- The capability comes back with the rights that were asked for. -/
structure ChangesOneRight
    (s3k : S3k)
    (request : Request)
    (monitor next : Monitor)
    (addr : Word) :
    Prop where
  sent :
    ∃ cfg, monitor.world.kernel.table appPid request.source = .pmp addr cfg
  replaced :
    IsPmpFor (s3kPmpNapotBegin addr) (s3kPmpNapotEnd addr) request.words[3]!
      (next.world.kernel.table appPid request.target)
  notBoth :
    ¬ (request.words[3]! &&& 0x2 ≠ 0 ∧ request.words[3]! &&& 0x4 ≠ 0)
  signed :
    request.words[3]! &&& 0x4 ≠ 0 → SignedForX request.words request.mem
  elsewhere :
    ∀ pid slot,
      pid ≠ monitorPid →
      ¬ (pid = appPid ∧ (slot = request.source ∨ slot = request.target)) →
      next.world.kernel.table pid slot = monitor.world.kernel.table pid slot
  monitorTable :
    ∀ slot, slot ≠ requestParent s3k request monitor addr →
      next.world.getcap slot = monitor.world.getcap slot
  handedBack : next.world.getcap flightSlot = .none

section Receiving

variable
  {s3k : S3k}
  {request : Request}
  {monitor : Monitor}

/-- The words of the request are in the buffer. -/
theorem Attached.recvBuf
    (attached : Attached s3k request monitor) :
    (receive s3k request monitor).recvBuf = request.words :=
  if_pos attached.1

/-- The received capability is in the flight slot. -/
theorem Attached.getcap
    (attached : Attached s3k request monitor) :
    (receive s3k request monitor).world.getcap flightSlot =
      monitor.world.kernel.table appPid request.source := by
  rw [World.getcap, receive_kernel_of_attached attached, Kernel.move_table,
    if_pos ⟨rfl, rfl⟩]

/-- The mirror shows what is in the flight slot. -/
theorem capmanGet_flight (world : World) :
    capmanGet (capmanUpdate world) flightSlot = world.getcap flightSlot :=
  capmanUpdate_caps world (by decide)

end Receiving

section Answers

variable
  {s3k : S3k}
  {received : Monitor}
  {answer : Answer}
  {world : World}

/-- An answer is made by calls of the kernel. -/
theorem answerUpdate_makes
    (answered : answerUpdate s3k received = some (answer, world)) :
    Makes s3k (fun _ => True) received.world world := by
  have update :
      Makes s3k (fun _ => True) received.world (capmanUpdate received.world) :=
    capmanUpdate_makes received.world
  have updatePmp (start stop rwx : Word) :
      Makes s3k (fun _ => True) received.world
        (capmanUpdatePmp s3k flightSlot start stop rwx
          (capmanUpdate received.world)).2 := by
    rcases capmanUpdatePmp_makes (capmanUpdate received.world) flightSlot start
        stop rwx with nothing | ⟨_, _, _, makes⟩
    · rw [nothing]
      exact update
    · exact update.trans (makes.mono fun _ _ => trivial)
  cases answerCase_of_answerUpdate answered with
  | refused isRefused =>
      exact update
  | failed passed isError =>
      exact updatePmp _ _ _
  | updated passed isZero =>
      exact updatePmp _ _ _

/-- The result of an update is one of five codes. -/
theorem capmanUpdatePmp_code
    (world : World)
    (idx : Nat)
    (start stop rwx : Word) :
    0 ≤ (capmanUpdatePmp s3k idx start stop rwx world).1 ∧
      (capmanUpdatePmp s3k idx start stop rwx world).1 ≤ 4 := by
  unfold capmanUpdatePmp
  dsimp only
  split_ifs <;> simp

/-- A small code is not changed by the conversion to `uint64_t`. -/
theorem ofInt_code_eq_iff
    {code value : Int}
    (isCode : 0 ≤ code ∧ code ≤ 4)
    (isValue : 0 ≤ value ∧ value ≤ 4) :
    BitVec.ofInt 64 code = BitVec.ofInt 64 value ↔ code = value := by
  obtain ⟨lower, upper⟩ := isCode
  constructor
  · intro same
    have toInts := congrArg BitVec.toInt same
    rw [BitVec.toInt_ofInt, BitVec.toInt_ofInt,
      Int.bmod_eq_of_le (by omega) (by omega),
      Int.bmod_eq_of_le (by omega) (by omega)] at toInts
    exact toInts
  · rintro rfl
    rfl

/-- The update of a capability whose rights the monitor has checked. -/
structure Updates
    (s3k : S3k)
    (received : Monitor)
    (addr rwx : Word)
    (world : World) :
    Prop where
  inFlight : ∃ cfg, received.world.getcap flightSlot = .pmp addr cfg
  passed :
    checkUpdate (received.world.getcap flightSlot) received.recvBuf
        received.world.mem =
      .update (s3kPmpNapotBegin addr) (s3kPmpNapotEnd addr) rwx
  isResult :
    world =
      (capmanUpdatePmp s3k flightSlot (s3kPmpNapotBegin addr)
        (s3kPmpNapotEnd addr) rwx (capmanUpdate received.world)).2
  isZero :
    (capmanUpdatePmp s3k flightSlot (s3kPmpNapotBegin addr)
      (s3kPmpNapotEnd addr) rwx (capmanUpdate received.world)).1 = 0

/-- The code 0 stands for an update. -/
theorem answerUpdate_updates
    (answered : answerUpdate s3k received = some (answer, world))
    (isZero : answer.code = 0) :
    ∃ addr rwx, Updates s3k received addr rwx world := by
  cases answerCase_of_answerUpdate answered with
  | refused isRefused =>
      exact absurd isZero (checkUpdate_refuse_ne_zero isRefused)
  | failed passed isError =>
      exact absurd isZero isError
  | updated passed noError =>
      rw [capmanGet_flight, capmanUpdate_mem] at passed
      obtain ⟨⟨addr, cfg, isPmp, rfl, rfl⟩, -⟩ :=
        checkUpdate_eq_update_iff.mp passed
      exact ⟨addr, _, ⟨cfg, isPmp⟩, passed, rfl,
        (ofInt_code_eq_iff (capmanUpdatePmp_code _ _ _ _ _)
          (by decide)).mp noError⟩

/-- What an update that returns 0 has done. -/
structure Updated
    (s3k : S3k)
    (received : Monitor)
    (addr rwx : Word)
    (world : World) :
    Prop where
  derived :
    ∃ tidx,
      NewDerived s3k (s3kPmpNapotBegin addr) (s3kPmpNapotEnd addr) rwx
        (capmanUpdate received.world) tidx
  flight :
    IsPmpFor (s3kPmpNapotBegin addr) (s3kPmpNapotEnd addr) rwx
      (world.getcap flightSlot)
  slots :
    ∀ slot, slot ≠ flightSlot →
      slot ≠
        parentSlot s3k (s3kPmpNapotBegin addr) (s3kPmpNapotEnd addr) rwx
          (capmanUpdate received.world) →
      world.getcap slot = received.world.getcap slot
  others :
    ∀ pid, pid ≠ monitorPid →
      world.kernel.table pid = received.world.kernel.table pid

/-- The received capability that is to be updated. -/
theorem Updates.taken
    {addr rwx : Word}
    (updates : Updates s3k received addr rwx world) :
    (capmanUpdate received.world).getcap flightSlot ≠ .none := by
  obtain ⟨cfg, isPmp⟩ := updates.inFlight
  rw [World.getcap, capmanUpdate_kernel, ← World.getcap, isPmp]
  exact Cap.noConfusion

variable
  {addr rwx : Word}
  (parentKept :
    ∀ parent child, parent ≠ .none → s3k.derived parent child ≠ .none)
include parentKept

/-- An update that returns 0 has derived the capability and moved it. -/
theorem Updates.derivation
    (updates : Updates s3k received addr rwx world) :
    ∃ tidx,
      NewDerived s3k (s3kPmpNapotBegin addr) (s3kPmpNapotEnd addr) rwx
          (capmanUpdate received.world) tidx ∧
        s3k.excpt
            (traceAfterDeletion s3k flightSlot (s3kPmpNapotBegin addr)
              (s3kPmpNapotEnd addr) rwx (capmanUpdate received.world) tidx)
            (.movcap tidx flightSlot) =
          s3k.excptNone := by
  have mirrored := mirrored_capmanUpdate received.world
  have inRange : flightSlot < ncap := by
    decide
  have taken := updates.taken
  have isZero := updates.isZero
  by_cases derivable :
      ∃ tidx,
        NewDerived s3k (s3kPmpNapotBegin addr) (s3kPmpNapotEnd addr) rwx
          (capmanUpdate received.world) tidx
  · obtain ⟨tidx, derived⟩ := derivable
    obtain ⟨-, notMoved⟩ := derived.update mirrored inRange taken parentKept
    refine ⟨tidx, derived, ?_⟩
    by_contra refused
    have isFour := (notMoved refused).1
    rw [isZero] at isFour
    cases isFour
  · obtain ⟨isOne | isTwo, -⟩ :=
      @capmanUpdatePmp_refused s3k (capmanUpdate received.world)
        (s3kPmpNapotBegin addr) (s3kPmpNapotEnd addr) rwx flightSlot
        fun napot slot slotInRange found ok =>
          derivable ⟨slot, slotInRange, found, napot, ok⟩
    · rw [isZero] at isOne
      cases isOne
    · rw [isZero] at isTwo
      cases isTwo

/-- An update that succeeds has made the new capability. -/
theorem Updates.updated
    (updates : Updates s3k received addr rwx world) :
    Updated s3k received addr rwx world := by
  obtain ⟨tidx, derived, moves⟩ := updates.derivation parentKept
  have taken := updates.taken
  obtain ⟨-, -, rfl, isZero⟩ := updates
  have mirrored := mirrored_capmanUpdate received.world
  obtain ⟨isNew, -, same⟩ :=
    (derived.updatesAtomically mirrored (by decide) taken parentKept
      moves).success isZero
  refine ⟨⟨tidx, derived⟩, isNew, fun slot notFlight notParent => ?_, ?_⟩
  · rw [same slot notFlight notParent, World.getcap, capmanUpdate_kernel,
      ← World.getcap]
  · intro pid notMonitor
    rw [(capmanUpdatePmp_slot mirrored taken).1 pid notMonitor,
      capmanUpdate_kernel]

end Answers

section Passes

variable
  {s3k : S3k}
  {request : Request}
  {monitor next : Monitor}

/-- A dependable kernel stays so. -/
theorem Dependable.later
    {sock : Nat}
    {first second : World}
    (dependable : Dependable s3k sock first)
    (makes : Makes s3k (fun _ => True) first second) :
    Dependable s3k sock second :=
  ⟨fun world later => dependable.deletes world (makes.trans later),
    fun world later => dependable.moves world (makes.trans later),
    fun world later => dependable.sends world (makes.trans later)⟩

/-- A capability in the empty flight slot has come with the request. -/
theorem attached_of_present
    (empty : monitor.world.getcap flightSlot = .none)
    (present :
      (receive s3k request monitor).world.getcap flightSlot ≠ .none) :
    Attached s3k request monitor := by
  by_contra notAttached
  rw [World.getcap, receive_kernel_of_unattached notAttached] at present
  exact present empty

/-- The reply takes the new capability to the app. -/
theorem Updated.sent
    {addr rwx : Word}
    {answer : Answer}
    {world : World}
    (updated : Updated s3k (receive s3k request monitor) addr rwx world)
    (inRange : request.target < ncap)
    (sends :
      ∀ words,
        s3k.excpt world.trace
            (.send (monitor.soccaps[1]!).toNat words flightSlot
              request.target) =
          s3k.excptNone) :
    (sendAnswer s3k request.target answer world
        (receive s3k request monitor)).world.kernel =
      world.kernel.move monitorPid flightSlot appPid request.target := by
  have flightInRange : flightSlot < ncap := by
    decide
  have present : world.kernel.table monitorPid flightSlot ≠ .none := by
    obtain ⟨_, _, isPmp, -⟩ := updated.flight
    rw [← World.getcap, isPmp]
    exact Cap.noConfusion
  rw [@sendAnswer_kernel s3k (receive s3k request monitor) _ _ _ sends,
    Kernel.transfer, if_pos ⟨flightInRange, inRange, present⟩]

/-- So the app has the new capability instead of the one that it has sent. -/
theorem Updated.changesOneRight
    {addr rwx : Word}
    {answer : Answer}
    {world : World}
    (updated : Updated s3k (receive s3k request monitor) addr rwx world)
    (updates : Updates s3k (receive s3k request monitor) addr rwx world)
    (attached : Attached s3k request monitor)
    (empty : monitor.world.getcap flightSlot = .none)
    (inRange : request.target < ncap)
    (sends :
      ∀ words,
        s3k.excpt world.trace
            (.send (monitor.soccaps[1]!).toNat words flightSlot
              request.target) =
          s3k.excptNone) :
    ChangesOneRight s3k request monitor
      (sendAnswer s3k request.target answer world
        (receive s3k request monitor)) addr := by
  have received := receive_kernel_of_attached attached
  have sent :
      (sendAnswer s3k request.target answer world
          (receive s3k request monitor)).world.kernel =
        world.kernel.move monitorPid flightSlot appPid request.target :=
    updated.sent inRange sends
  obtain ⟨cfg, isPmp⟩ := updates.inFlight
  have passed := updates.passed
  obtain ⟨-, isRwx, notBoth, -⟩ := checkUpdate_eq_update_iff.mp passed
  rw [attached.recvBuf] at isRwx
  subst isRwx
  rw [isPmp, attached.recvBuf] at passed
  have slots := updated.slots
  have others := updated.others
  simp only [World.getcap, received] at slots others
  refine
    { sent := ⟨cfg, by rw [← attached.getcap, isPmp]⟩
      replaced := ?_
      notBoth := notBoth
      signed := fun asksX =>
        ((checkUpdate_grants_x_iff _ _ _ _ _ _ _).mp ⟨passed, asksX⟩).2.2.2
      elsewhere := fun pid slot notMonitor other => ?_
      monitorTable := fun slot notParent => ?_
      handedBack := ?_ }
  · rw [sent, Kernel.move_table, if_pos ⟨rfl, rfl⟩]
    exact updated.flight
  · have notTarget : ¬ (pid = appPid ∧ slot = request.target) :=
      fun same => other ⟨same.1, Or.inr same.2⟩
    have notSource : ¬ (pid = appPid ∧ slot = request.source) :=
      fun same => other ⟨same.1, Or.inl same.2⟩
    rw [sent, Kernel.move_table, if_neg notTarget,
      if_neg fun same => notMonitor same.1, others pid notMonitor,
      Kernel.move_table, if_neg fun same => notMonitor same.1,
      if_neg notSource]
  · rw [World.getcap, sent, Kernel.move_table,
      if_neg fun same => appPid_ne_monitorPid same.1.symm]
    by_cases isFlight : slot = flightSlot
    · rw [if_pos ⟨rfl, isFlight⟩, isFlight, empty]
    · rw [if_neg fun same => isFlight same.2, slots slot isFlight notParent,
        Kernel.move_table, if_neg fun same => isFlight same.2,
        if_neg fun same => appPid_ne_monitorPid same.1.symm, World.getcap]
  · rw [World.getcap, sent, Kernel.move_table,
      if_neg fun same => appPid_ne_monitorPid same.1.symm, if_pos ⟨rfl, rfl⟩]

section Outcome

variable
  (parentKept :
    ∀ parent child, parent ≠ .none → s3k.derived parent child ≠ .none)
include parentKept

/-- The answer is 0 exactly when the new capability can be derived. -/
theorem answerUpdate_code_eq_zero_iff
    {received : Monitor}
    {answer : Answer}
    {world : World}
    {sock : Nat}
    (dependable : Dependable s3k sock received.world)
    (isUpdate : received.recvBuf[0]! = 0x02)
    (answered : answerUpdate s3k received = some (answer, world)) :
    answer.code = 0 ↔ Derivable s3k received := by
  constructor
  · intro isZero
    obtain ⟨addr, rwx, updates⟩ := answerUpdate_updates answered isZero
    obtain ⟨tidx, derived⟩ := (updates.updated parentKept).derived
    have passed := updates.passed
    rw [← capmanGet_flight, ← capmanUpdate_mem received.world] at passed
    exact ⟨isUpdate, _, _, rwx, passed, derived.napot, tidx, derived.inRange,
      derived.found, derived.ok⟩
  · rintro ⟨-, start, stop, rwx, passed, napot, slot, slotInRange, found, ok⟩
    have derived :
        NewDerived s3k start stop rwx (capmanUpdate received.world) slot :=
      ⟨slotInRange, found, napot, ok⟩
    have taken : (capmanUpdate received.world).getcap flightSlot ≠ .none := by
      obtain ⟨⟨_, cfg, isPmp, -, -⟩, -⟩ := checkUpdate_eq_update_iff.mp passed
      rw [attached, capmanGet_flight] at isPmp
      rw [World.getcap, capmanUpdate_kernel, ← World.getcap, isPmp]
      exact Cap.noConfusion
    have completes :=
      derived.completes parentKept
        (dependable.later (capmanUpdate_makes received.world))
        (mirrored_capmanUpdate received.world) (by decide) taken
    rw [attached] at passed
    cases answerCase_of_answerUpdate answered with
    | refused isRefused =>
        rw [isRefused] at passed
        cases passed
    | failed otherPassed isError =>
        rw [otherPassed] at passed
        cases passed
        rw [completes] at isError
        exact absurd rfl isError
    | updated _ isZero =>
        rfl

/-- A reply with code 0 brings the new capability to the app. -/
theorem changesOneRight_of_answer
    {answer : Answer}
    {world : World}
    (dependable :
      Dependable s3k (monitor.soccaps[1]!).toNat
        (receive s3k request monitor).world)
    (empty : monitor.world.getcap flightSlot = .none)
    (inRange : Attached s3k request monitor → request.target < ncap)
    (answered :
      answerUpdate s3k (receive s3k request monitor) = some (answer, world))
    (isZero : answer.code = 0) :
    Attached s3k request monitor ∧
      ∃ addr,
        ChangesOneRight s3k request monitor
          (sendAnswer s3k request.target answer world
            (receive s3k request monitor)) addr := by
  obtain ⟨addr, rwx, updates⟩ := answerUpdate_updates answered isZero
  have present :
      (receive s3k request monitor).world.getcap flightSlot ≠ .none := by
    obtain ⟨cfg, isPmp⟩ := updates.inFlight
    rw [isPmp]
    exact Cap.noConfusion
  have attached := attached_of_present empty present
  exact ⟨attached, addr,
    (updates.updated parentKept).changesOneRight updates attached empty
      (inRange attached)
      fun words =>
        dependable.sends world (answerUpdate_makes answered) words
          request.target⟩

/--
A request that is answered is answered with 0 if and only if it passes the
checks and the kernel derives the new capability; then the app has it instead
of the old one, and has all its other capabilities as before.
-/
theorem request_granted_iff
    (dependable :
      Dependable s3k (monitor.soccaps[1]!).toNat
        (receive s3k request monitor).world)
    (empty : monitor.world.getcap flightSlot = .none)
    (inRange : request.target < ncap)
    (isUpdate : (receive s3k request monitor).recvBuf[0]! = 0x02)
    (answered : loop s3k request monitor = some next) :
    (next.recvBuf[0]! = 0 ↔ Derivable s3k (receive s3k request monitor)) ∧
      (next.recvBuf[0]! = 0 →
        ∃ addr, ChangesOneRight s3k request monitor next addr) := by
  obtain ⟨answer, world, computed, rfl⟩ := loop_update isUpdate answered
  rw [sendAnswer_code]
  exact
    ⟨answerUpdate_code_eq_zero_iff parentKept dependable isUpdate computed,
      fun isZero =>
        (changesOneRight_of_answer parentKept dependable empty
          (fun _ => inRange) computed isZero).2⟩

end Outcome

/-- This kernel does all that it can. -/
theorem obliging_dependable
    {sock : Nat}
    (inRange : sock < ncap)
    (first : World) :
    Dependable obliging sock first := by
  simp only [ncap] at inRange
  constructor
  · intro world _ idx idxInRange _
    simp only [ncap] at idxInRange
    simp [obliging, S3k.generous, KernelCall.slots, ncap, idxInRange]
  · intro world _ src dst srcInRange dstInRange _ _
    simp only [ncap] at srcInRange dstInRange
    simp [obliging, S3k.generous, KernelCall.slots, ncap, srcInRange,
      dstInRange]
  · intro world _ words target
    simp [obliging, S3k.generous, KernelCall.slots, ncap, inRange]

/-- The request for a writable page is granted. -/
theorem writeRequest_granted :
    ∃ next,
      loop obliging writeRequest heapMonitor = some next ∧
        next.recvBuf[0]! = 0 ∧
        (next.recvBuf[0]! = 0 ↔
          Derivable obliging (receive obliging writeRequest heapMonitor)) ∧
        (next.recvBuf[0]! = 0 →
          ∃ addr,
            ChangesOneRight obliging writeRequest heapMonitor next addr) := by
  have result :
      (loop obliging writeRequest heapMonitor).map
          (fun next => next.recvBuf[0]!) =
        some 0 := by
    decide +kernel
  obtain ⟨next, returned, code⟩ := Option.map_eq_some_iff.mp result
  exact ⟨next, returned, code,
    request_granted_iff (fun _ _ present => present)
      (obliging_dependable (by decide) _) (by decide) (by decide) (by decide)
      returned⟩

end Passes

end S3kMonitor
