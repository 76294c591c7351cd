import S3kMonitor.Mirror
import S3kMonitor.Loop
import S3kMonitor.Lib.Holdings

namespace S3kMonitor

open Runs Holdings

/-!
# Write xor execute over runs of the loop

The PMP capabilities of the app travel between its slots and the flight slot
of the monitor.  Each of these places is a holder; what it holds is a grant
over the region of its capability.  Every pass of the loop hands grants over
or replaces one by a grant over the same region.
-/

/-- The places where a PMP capability of the app can be. -/
inductive Holder where
  | inFlight
  | app (slot : Fin ncap)
deriving DecidableEq

namespace Holder

/-- The process in whose table the slot lies. -/
def pid : Holder → Nat
  | .inFlight => monitorPid
  | .app _ => appPid

/-- The slot in that table. -/
def slot : Holder → Nat
  | .inFlight => flightSlot
  | .app slot => slot

/-- Different places lie at different slots. -/
theorem same_place_iff (first second : Holder) :
    first.pid = second.pid ∧ first.slot = second.slot ↔ first = second := by
  cases first with
  | inFlight =>
      cases second <;> simp [pid, slot, monitorPid, appPid]
  | app first =>
      cases second <;> simp [pid, slot, monitorPid, appPid, Fin.ext_iff]

end Holder

/-- The capability at a place. -/
def holding (kernel : Kernel) (holder : Holder) : Cap :=
  kernel.table holder.pid holder.slot

/-- A PMP capability grants the rights of its `cfg` over its region. -/
def Cap.grant : Cap → Option (Grant Word Word)
  | .pmp addr cfg =>
      some
        { area := region (s3kPmpNapotBegin addr) (s3kPmpNapotEnd addr)
          rights := {right | cfg &&& right ≠ 0} }
  | _ => Option.none

/-- What a grant says about the capability that it comes from. -/
theorem Cap.grant_eq_some_iff
    (cap : Cap)
    (given : Grant Word Word) :
    cap.grant = some given ↔
      ∃ addr cfg, cap = .pmp addr cfg ∧
        given.area = region (s3kPmpNapotBegin addr) (s3kPmpNapotEnd addr) ∧
        given.rights = {right | cfg &&& right ≠ 0} := by
  cases cap with
  | pmp addr cfg =>
      constructor
      · intro same
        cases same
        exact ⟨addr, cfg, rfl, rfl, rfl⟩
      · rintro ⟨_, _, same, areaEq, rightsEq⟩
        cases same
        rw [grant, ← areaEq, ← rightsEq]
  | _ =>
      simp [grant]

/-- Not both `W` and `X`. -/
def NotBoth (rights : Set Word) : Prop :=
  ¬ (0x2 ∈ rights ∧ 0x4 ∈ rights)

/-- What each place grants. -/
def granted (kernel : Kernel) (holder : Holder) : Option (Grant Word Word) :=
  (holding kernel holder).grant

/-- The regions are disjoint and no capability has both `W` and `X`. -/
def WriteXorExecute (kernel : Kernel) : Prop :=
  Sound NotBoth (granted kernel)

/-- No address may be both written and executed. -/
theorem WriteXorExecute.no_address
    {kernel : Kernel}
    (secure : WriteXorExecute kernel)
    (address : Word) :
    ¬ (Permits (granted kernel) 0x2 address ∧
        Permits (granted kernel) 0x4 address) := by
  rintro ⟨writable, executable⟩
  obtain ⟨rights, notBoth, hasW, hasX⟩ :=
    secure.permits_together writable executable
  exact notBoth ⟨hasW, hasX⟩

section Handover

variable
  {kernel : Kernel}
  (secure : WriteXorExecute kernel)
include secure

/-- A capability moves from one place to another one. -/
theorem WriteXorExecute.move
    (src dst : Holder)
    (apart : src ≠ dst) :
    WriteXorExecute (kernel.move src.pid src.slot dst.pid dst.slot) := by
  have moved :
      granted (kernel.move src.pid src.slot dst.pid dst.slot) =
        handOver (granted kernel) src dst := by
    funext holder
    simp only [granted, holding, Kernel.move_table, Holder.same_place_iff,
      handOver]
    by_cases isDst : holder = dst
    · subst isDst
      simp
    · by_cases isSrc : holder = src
      · subst isSrc
        simp [isDst, Cap.grant]
      · simp [isDst, isSrc, granted, holding]
  rw [WriteXorExecute, moved]
  exact Sound.handOver secure apart

/-- The capability that comes with a request changes its place only. -/
theorem WriteXorExecute.receive_transfer (source : Nat) :
    WriteXorExecute
      (kernel.transfer appPid source monitorPid flightSlot) := by
  unfold Kernel.transfer
  split
  · next guard =>
    exact secure.move (.app ⟨source, guard.1⟩) .inFlight (by simp)
  · exact secure

/-- So does the one that goes with an answer. -/
theorem WriteXorExecute.send_transfer (target : Nat) :
    WriteXorExecute
      (kernel.transfer monitorPid flightSlot appPid target) := by
  unfold Kernel.transfer
  split
  · next guard =>
    exact secure.move .inFlight (.app ⟨target, guard.2.1⟩) (by simp)
  · exact secure

end Handover

section Update

variable
  {s3k : S3k}
  {world : World}
  {start stop rwx : Word}

/-- The capability that `capman_update_pmp` puts in place of the old one. -/
def Replaces (start stop rwx addr cfg : Word) : Prop :=
  Napot start stop ∧ addr = s3kPmpNapotAddr start stop ∧
    cfg &&& 7 = rwx &&& 7

/-- What an update that works in the slot `tidx` keeps of the kernel. -/
structure Updating
    (start stop rwx : Word)
    (world : World)
    (idx tidx : Nat)
    (kernel : Kernel) :
    Prop where
  others :
    ∀ pid, pid ≠ monitorPid →
      kernel.table pid = world.kernel.table pid
  atIdx :
    ∀ addr cfg,
      kernel.table monitorPid idx = .pmp addr cfg →
      world.getcap idx = .pmp addr cfg ∨
        Replaces start stop rwx addr cfg
  atTidx :
    ∀ addr cfg,
      kernel.table monitorPid tidx = .pmp addr cfg →
      Replaces start stop rwx addr cfg

/--
The capability made for the request has the region and the rights that were
asked.
-/
theorem replaces_of_pmp
    {addr cfg : Word}
    (isNapot : Napot start stop)
    (same : s3k.pmp (s3kPmpNapotAddr start stop) rwx = .pmp addr cfg) :
    Replaces start stop rwx addr cfg := by
  obtain ⟨newCfg, newEq, rights⟩ :=
    s3k.pmp_eq (s3kPmpNapotAddr start stop) rwx
  rw [newEq] at same
  cases same
  exact ⟨isNapot, rfl, rights⟩

/-- Each of the three calls of an update keeps it. -/
theorem Updating.effect
    {idx tidx : Nat}
    (apart : idx ≠ tidx)
    {kernelCall : KernelCall}
    (isCall : UpdatePmpCall s3k tidx idx start stop rwx kernelCall)
    {kernel : Kernel}
    (updating : Updating start stop rwx world idx tidx kernel) :
    Updating start stop rwx world idx tidx
      (kernelCall.effect s3k.derived kernel) := by
  obtain ⟨others, atIdx, atTidx⟩ := updating
  rcases isCall with ⟨isNapot, orig, rfl⟩ | rfl | rfl
  · refine ⟨fun pid other => ?_, fun addr cfg => ?_, fun addr cfg => ?_⟩
    · funext slot
      simp [KernelCall.effect, other, others pid other]
    · simp only [KernelCall.effect, Kernel.set_table, true_and,
        if_neg apart]
      split
      · next isOrig =>
        intro same
        exact atIdx addr cfg (isOrig ▸ s3k.derived_pmp _ _ _ _ same)
      · exact atIdx addr cfg
    · simp only [KernelCall.effect, Kernel.set_table, true_and, if_true]
      exact replaces_of_pmp isNapot
  · refine ⟨fun pid other => ?_, fun addr cfg => ?_, fun addr cfg => ?_⟩
    · funext slot
      simp [KernelCall.effect, other, others pid other]
    · simp [KernelCall.effect]
    · simp only [KernelCall.effect, Kernel.set_table, true_and,
        if_neg apart.symm]
      exact atTidx addr cfg
  · refine ⟨fun pid other => ?_, fun addr cfg => ?_, fun addr cfg => ?_⟩
    · funext slot
      simp [KernelCall.effect, other, others pid other]
    · simp only [KernelCall.effect, Kernel.move_table, true_and, if_true]
      intro same
      exact Or.inr (atTidx addr cfg same)
    · simp [KernelCall.effect, apart.symm]

/--
Whatever fails on the way, `capman_update_pmp` leaves the other processes
alone, and a PMP capability in the slot is the old one or the new one.
-/
theorem capmanUpdatePmp_slot
    (mirrored : Mirrored world)
    {idx : Nat}
    (taken : world.getcap idx ≠ .none) :
    let final := (capmanUpdatePmp s3k idx start stop rwx world).2
    (∀ pid, pid ≠ monitorPid →
      final.kernel.table pid = world.kernel.table pid) ∧
    ∀ addr cfg,
      final.getcap idx = .pmp addr cfg →
      world.getcap idx = .pmp addr cfg ∨
        Replaces start stop rwx addr cfg := by
  rcases capmanUpdatePmp_makes world idx start stop rwx with
    nothing | ⟨tidx, tidxInRange, tidxFree, makes⟩
  · rw [nothing]
    exact ⟨fun _ _ => rfl, fun _ _ same => Or.inl same⟩
  · have kernelFree : world.kernel.table monitorPid tidx = .none := by
      rw [← tidxFree, mirrored tidx tidxInRange, World.getcap]
    have apart : idx ≠ tidx := by
      rintro rfl
      exact taken kernelFree
    have begun : Updating start stop rwx world idx tidx world.kernel := by
      refine ⟨fun _ _ => rfl, fun _ _ same => Or.inl same, ?_⟩
      intro addr cfg same
      rw [kernelFree] at same
      cases same
    have kept :=
      makes.kernel_invariant (Updating start stop rwx world idx tidx)
        (fun _ _ isCall updating => updating.effect apart isCall) begun
    exact ⟨kept.others, kept.atIdx⟩

end Update

section Passes

variable
  {s3k : S3k}
  {monitor next : Monitor}

/-- The mask of a right below 8 does not look beyond the three rights bits. -/
theorem rights_of_low_bits
    {cfg rwx right : Word}
    (same : cfg &&& 7 = rwx &&& 7)
    (low : 7 &&& right = right) :
    cfg &&& right = rwx &&& right := by
  rw [← low, ← BitVec.and_assoc, ← BitVec.and_assoc, same]

/-- The new capability covers the region of the old one and is allowed. -/
theorem Replaces.grant
    {addr newAddr newCfg rwx : Word}
    (replaces :
      Replaces (s3kPmpNapotBegin addr) (s3kPmpNapotEnd addr) rwx
        newAddr newCfg)
    (notBoth : ¬ (rwx &&& 0x2 ≠ 0 ∧ rwx &&& 0x4 ≠ 0)) :
    region (s3kPmpNapotBegin newAddr) (s3kPmpNapotEnd newAddr) =
        region (s3kPmpNapotBegin addr) (s3kPmpNapotEnd addr) ∧
      NotBoth {right | newCfg &&& right ≠ 0} := by
  obtain ⟨⟨startEq, stopEq⟩, rfl, rights⟩ := replaces
  refine ⟨by rw [← startEq, ← stopEq], ?_⟩
  rintro ⟨hasW, hasX⟩
  apply notBoth
  rw [← rights_of_low_bits rights (by decide),
    ← rights_of_low_bits rights (by decide)]
  exact ⟨hasW, hasX⟩

/-- To receive a request adds no rights. -/
theorem receive_writeXorExecute
    (request : Request)
    (secure : WriteXorExecute monitor.world.kernel) :
    WriteXorExecute (receive s3k request monitor).world.kernel := by
  unfold receive
  dsimp only
  rcases World.call_kernel_cases with effect | unchanged
  · rw [effect]
    exact secure.receive_transfer request.source
  · rw [unchanged]
    exact secure

/-- An update that has passed the checks adds no right that they refuse. -/
theorem capmanUpdatePmp_writeXorExecute
    {start stop rwx : Word}
    (passed :
      checkUpdate (capmanGet (capmanUpdate monitor.world) flightSlot)
          monitor.recvBuf (capmanUpdate monitor.world).mem =
        .update start stop rwx)
    (secure : WriteXorExecute monitor.world.kernel) :
    WriteXorExecute
      (capmanUpdatePmp s3k flightSlot start stop rwx
        (capmanUpdate monitor.world)).2.kernel := by
  have mirrored := mirrored_capmanUpdate monitor.world
  have inFlight :
      capmanGet (capmanUpdate monitor.world) flightSlot =
        holding monitor.world.kernel .inFlight :=
    capmanUpdate_caps monitor.world (by decide)
  obtain ⟨⟨addr, cfg, isPmp, rfl, rfl⟩, -, notBoth, -⟩ :=
    checkUpdate_eq_update_iff.mp passed
  rw [inFlight] at isPmp
  have taken :
      (capmanUpdate monitor.world).getcap flightSlot ≠ .none := by
    rw [World.getcap, capmanUpdate_kernel]
    intro free
    cases isPmp.symm.trans free
  obtain ⟨others, atSlot⟩ :=
    @capmanUpdatePmp_slot s3k _ (s3kPmpNapotBegin addr)
      (s3kPmpNapotEnd addr) rwx mirrored _ taken
  generalize
    (capmanUpdatePmp s3k flightSlot (s3kPmpNapotBegin addr)
      (s3kPmpNapotEnd addr) rwx (capmanUpdate monitor.world)).2 = world
    at others atSlot ⊢
  have replaced :
      granted world.kernel =
        Function.update (granted monitor.world.kernel) .inFlight
          (granted world.kernel .inFlight) := by
    funext holder
    cases holder with
    | inFlight =>
        simp
    | app slot =>
        simp [granted, holding, Holder.pid,
          others appPid (by decide)]
  rw [WriteXorExecute, replaced]
  apply Sound.replace secure
  intro given holds
  obtain ⟨newAddr, newCfg, isNew, areaEq, rightsEq⟩ :=
    (Cap.grant_eq_some_iff _ _).mp holds
  refine ⟨_, congrArg Cap.grant isPmp, ?_⟩
  rcases atSlot newAddr newCfg isNew with isOld | replaces
  · rw [World.getcap, capmanUpdate_kernel] at isOld
    cases isPmp.symm.trans isOld
    exact ⟨areaEq.subset, Or.inl rightsEq⟩
  · obtain ⟨sameRegion, isAllowed⟩ := replaces.grant notBoth
    rw [areaEq, rightsEq, sameRegion]
    exact ⟨subset_rfl, Or.inr isAllowed⟩

/-- Whatever a request comes to, no right is added that the checks refuse. -/
theorem answerUpdate_writeXorExecute
    {answer : Answer}
    {world : World}
    (answered : answerUpdate s3k monitor = some (answer, world))
    (secure : WriteXorExecute monitor.world.kernel) :
    WriteXorExecute world.kernel := by
  cases answerCase_of_answerUpdate answered with
  | refused isRefused =>
      simpa using secure
  | failed passed isError =>
      exact capmanUpdatePmp_writeXorExecute passed secure
  | updated passed isZero =>
      exact capmanUpdatePmp_writeXorExecute passed secure

/-- To send an answer adds no rights. -/
theorem sendAnswer_writeXorExecute
    (target : Nat)
    (answer : Answer)
    {world : World}
    (secure : WriteXorExecute world.kernel) :
    WriteXorExecute
      (sendAnswer s3k target answer world monitor).world.kernel := by
  have sent
      {kernelCall : KernelCall}
      (isSend :
        ∃ sock words,
          kernelCall = .send sock words flightSlot target) :
      WriteXorExecute (world.call s3k kernelCall).2.kernel := by
    obtain ⟨sock, words, rfl⟩ := isSend
    rcases World.call_kernel_cases with effect | unchanged
    · rw [effect]
      exact secure.send_transfer target
    · rw [unchanged]
      exact secure
  unfold sendAnswer
  dsimp only
  split
  · rw [capmanUpdate_kernel]
    exact sent ⟨_, _, rfl⟩
  · exact sent ⟨_, _, rfl⟩

/-- One pass of the loop keeps write xor execute. -/
theorem loop_writeXorExecute
    {request : Request}
    (returned : loop s3k request monitor = some next)
    (secure : WriteXorExecute monitor.world.kernel) :
    WriteXorExecute next.world.kernel := by
  have received :
      WriteXorExecute (receive s3k request monitor).world.kernel :=
    receive_writeXorExecute request secure
  cases LoopStep.passCase returned with
  | finish isFinish =>
      exact received
  | reply isUpdate answered =>
      exact sendAnswer_writeXorExecute request.target _
        (answerUpdate_writeXorExecute answered received)
  | ignore isOther =>
      exact received

/--
After every sequence of messages the regions are disjoint, no capability has
both rights, and no address is both writable and executable.
-/
theorem loop_run_writeXorExecute
    {requests : List Request}
    (run : Run (LoopStep s3k) requests monitor next)
    (secure : WriteXorExecute monitor.world.kernel) :
    WriteXorExecute next.world.kernel ∧
      ∀ address,
        ¬ (Permits (granted next.world.kernel) 0x2 address ∧
            Permits (granted next.world.kernel) 0x4 address) := by
  have kept : WriteXorExecute next.world.kernel :=
    run.invariant (fun monitor => WriteXorExecute monitor.world.kernel)
      (fun _ _ _ _ returned holds => loop_writeXorExecute returned holds)
      (fun _ _ => trivial) secure
  exact ⟨kept, kept.no_address⟩

/-- An app that can only read one page of its heap. -/
def heapMonitor : Monitor where
  world :=
    { kernel :=
        (onlyCap 1 (.memory 0x20 0x30 0x20 0x10 0 7)).set appPid 0
          (.pmp (s3kPmpNapotAddr 0x80023000 0x80024000) 0x1)
      caps := fun _ => .none
      mem := fun _ => 0
      trace := [] }
  appRunning := true
  recvBuf := Vector.replicate 4 0
  soccaps := Vector.replicate 8 0

/-- The request to write to that page. -/
def writeRequest : Request where
  words := #v[0x02, 0, 0, 0x3]
  source := 0
  mem := fun _ => 0
  target := 0

/-- The page becomes writable, and still nothing is executable. -/
theorem writeRequest_run_writeXorExecute :
    ∃ next,
      loop (S3k.generous fun _ _ => false) writeRequest heapMonitor =
          some next ∧
        next.world.kernel.table appPid 0 =
          .pmp (s3kPmpNapotAddr 0x80023000 0x80024000) 0x3 ∧
        WriteXorExecute next.world.kernel ∧
        ∀ address,
          ¬ (Permits (granted next.world.kernel) 0x2 address ∧
              Permits (granted next.world.kernel) 0x4 address) := by
  have result :
      (loop (S3k.generous fun _ _ => false) writeRequest heapMonitor).map
          (fun next => next.world.kernel.table appPid 0) =
        some (.pmp (s3kPmpNapotAddr 0x80023000 0x80024000) 0x3) := by
    decide +kernel
  obtain ⟨next, returned, atSlot⟩ := Option.map_eq_some_iff.mp result
  refine ⟨next, returned, atSlot,
    loop_run_writeXorExecute (.cons returned (.nil next)) ?_⟩
  have onlyHeap
      {holder : Holder}
      {given : Grant Word Word}
      (holds : granted heapMonitor.world.kernel holder = some given) :
      holder = .app ⟨0, by decide⟩ ∧
        given.rights = {right | (0x1 : Word) &&& right ≠ 0} := by
    obtain ⟨addr, cfg, isPmp, -, rightsEq⟩ :=
      (Cap.grant_eq_some_iff _ _).mp holds
    cases holder with
    | inFlight =>
        cases isPmp
    | app slot =>
        by_cases isZero : slot.val = 0
        · simp only [holding, heapMonitor, Holder.pid, Holder.slot,
            Kernel.set_table, isZero, true_and, if_true] at isPmp
          cases isPmp
          exact ⟨congrArg Holder.app (Fin.ext isZero), rightsEq⟩
        · simp [holding, heapMonitor, Holder.pid, Holder.slot, onlyCap,
            isZero, appPid, monitorPid] at isPmp
  constructor
  · intro first second _ _ apart holds otherHolds
    exact absurd
      ((onlyHeap holds).1.trans (onlyHeap otherHolds).1.symm) apart
  · intro holder given holds
    rw [(onlyHeap holds).2]
    rintro ⟨hasW, -⟩
    exact absurd hasW (by decide)

end Passes

end S3kMonitor
