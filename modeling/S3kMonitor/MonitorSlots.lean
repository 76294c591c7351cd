import S3kMonitor.SignedPayloads
import Mathlib.Data.List.Find
import Mathlib.Logic.Relation

namespace S3kMonitor

open Runs
open Relation (ReflTransGen)

/-!
# The slots of the monitor

Each request passes a capability through the monitor's table, and a granted
one derives another there.  In every run the table is afterwards as full as
before: no slot is lost, and the search for a free slot never starts to fail.
-/

/-- The parent of a derivation, before and after it. -/
def LendsRegion (s3k : S3k) (parent rest : Cap) : Prop :=
  ∃ child, s3k.memoryDerive parent child = true ∧ rest = s3k.derived parent child

/-- The slot in which the monitor will derive, or -1. -/
def spareSlot (world : World) : Int :=
  firstSlot slotsDown fun i =>
    i ≠ flightSlot ∧ (world.getcap i).type = .none

/-- What the requests of a run leave of the monitor's table. -/
structure KeepsSlots (s3k : S3k) (before after : World) : Prop where
  lent :
    ∀ slot,
      ReflTransGen (LendsRegion s3k) (before.getcap slot) (after.getcap slot)
  free : ∀ slot, after.getcap slot = .none ↔ before.getcap slot = .none

section Searches

variable
  {first second : World}

/-- The search depends on which of the other slots are free. -/
theorem spareSlot_congr
    (same :
      ∀ slot, slot ≠ flightSlot →
        (second.getcap slot = .none ↔ first.getcap slot = .none)) :
    spareSlot second = spareSlot first := by
  have tests :
      (fun i => decide (i ≠ flightSlot ∧ (second.getcap i).type = .none)) =
        fun i =>
          decide (i ≠ flightSlot ∧ (first.getcap i).type = .none) := by
    funext i
    rw [decide_eq_decide]
    refine and_congr_right fun other => ?_
    rw [Cap.type_eq_none_iff, Cap.type_eq_none_iff, same i other]
  simp only [spareSlot, tests]

/-- While a capability is in flight, the search passes over its slot. -/
theorem capmanFindFree_inFlight
    (taken : first.getcap flightSlot ≠ .none) :
    capmanFindFree (capmanUpdate first) = spareSlot first := by
  rw [capmanFindFree, spareSlot, firstSlot, firstSlot]
  have tests :
      ∀ i ∈ slotsDown,
        decide (((capmanUpdate first).caps i).type = .none) =
          decide (i ≠ flightSlot ∧ (first.getcap i).type = .none) := by
    intro i member
    rw [capmanUpdate_caps first ((mem_slotsDown i).mp member),
      decide_eq_decide]
    constructor
    · intro isNone
      refine ⟨?_, isNone⟩
      rintro rfl
      exact taken ((Cap.type_eq_none_iff _).mp isNone)
    · exact fun both => both.2
  rw [List.find?_congr tests]

end Searches

section Updates

variable
  {s3k : S3k}
  {start stop rwx : Word}
  {world : World}
  {tidx : Nat}

/-- The parent of a derivation that succeeds is one that the search accepts. -/
theorem NewDerived.parent
    (derived : NewDerived s3k start stop rwx world tidx)
    (mirrored : Mirrored world) :
    s3k.memoryDerive
        (world.getcap (parentSlot s3k start stop rwx world))
        (newPmp s3k start stop rwx) =
      true := by
  rcases firstSlot_cases slotsDown
      (fun i =>
        s3k.memoryDerive (world.caps i) (newPmp s3k start stop rwx)) with
    ⟨slot, member, accepts, found⟩ | ⟨notFound, -⟩
  · have inRange := (mem_slotsDown slot).mp member
    have isParent : parentSlot s3k start stop rwx world = slot := by
      rw [parentSlot, findMemoryDerive, found, toIndex_slot inRange]
    rw [isParent, ← mirrored slot inRange]
    exact accepts
  · -- The index -1 names no slot, and the kernel would have refused it.
    have isParent :
        parentSlot s3k start stop rwx world = toIndex (-1) := by
      rw [parentSlot, findMemoryDerive, notFound]
    exact absurd derived.ok
      (s3k.excpt_ne _ _ (parentSlot s3k start stop rwx world)
        (by simp [KernelCall.slots])
        (by rw [isParent]; decide))

/-- Apart from the slot of the update, a slot is as before or has lent. -/
theorem NewDerived.lends
    {idx : Nat}
    (derived : NewDerived s3k start stop rwx world tidx)
    (mirrored : Mirrored world)
    (inRange : idx < ncap)
    (taken : world.getcap idx ≠ .none)
    (parentKept :
      ∀ parent child, parent ≠ .none → s3k.derived parent child ≠ .none)
    (moves :
      s3k.excpt (traceAfterDeletion s3k idx start stop rwx world tidx)
          (.movcap tidx idx) =
        s3k.excptNone)
    {slot : Nat}
    (other : slot ≠ idx) :
    ReflTransGen (LendsRegion s3k) (world.getcap slot)
      ((capmanUpdatePmp s3k idx start stop rwx world).2.getcap slot) := by
  obtain ⟨-, -, slots⟩ := derived.step
  obtain ⟨-, -, -, -, deleted, -⟩ :=
    derived.deletion mirrored inRange taken parentKept
  obtain ⟨moved, -⟩ := derived.update mirrored inRange taken parentKept
  have kernel := (moved moves).2
  have final :
      (capmanUpdatePmp s3k idx start stop rwx world).2.getcap slot =
        if slot = tidx then .none
        else if slot = parentSlot s3k start stop rwx world then
          s3k.derived (world.getcap slot) (newPmp s3k start stop rwx)
        else world.getcap slot := by
    rw [World.getcap, kernel, Kernel.move_table,
      if_neg fun same => other same.2]
    by_cases isTidx : slot = tidx
    · rw [if_pos ⟨rfl, isTidx⟩, if_pos isTidx]
    · rw [if_neg fun same => isTidx same.2, if_neg isTidx, ← World.getcap,
        deleted slot other, slots slot, if_neg isTidx]
  rw [final]
  split_ifs with isTidx isParent
  · rw [isTidx, derived.free mirrored]
  · refine .single ⟨newPmp s3k start stop rwx, ?_, rfl⟩
    rw [isParent]
    exact derived.parent mirrored
  · exact .refl

end Updates

section Transfers

variable
  {s3k : S3k}
  {kernel : Kernel}
  {slot : Nat}
  (notFlight : slot ≠ flightSlot)
include notFlight

/-- A capability that comes or goes only passes the flight slot. -/
theorem transfer_in_other (source : Nat) :
    (kernel.transfer appPid source monitorPid flightSlot).table monitorPid
        slot =
      kernel.table monitorPid slot := by
  unfold Kernel.transfer
  split
  · rw [Kernel.move_table, if_neg fun same => notFlight same.2,
      if_neg fun same => appPid_ne_monitorPid same.1.symm]
  · rfl

/-- An answer moves nothing into or out of the other slots. -/
theorem transfer_out_other (target : Nat) :
    (kernel.transfer monitorPid flightSlot appPid target).table monitorPid
        slot =
      kernel.table monitorPid slot := by
  unfold Kernel.transfer
  split
  · rw [Kernel.move_table,
      if_neg fun same => appPid_ne_monitorPid same.1.symm,
      if_neg fun same => notFlight same.2]
  · rfl

/-- A received capability comes to the flight slot only. -/
theorem receive_getcap_other
    (request : Request)
    (monitor : Monitor) :
    (receive s3k request monitor).world.getcap slot =
      monitor.world.getcap slot := by
  rw [World.getcap, receive_kernel]
  split
  · exact transfer_in_other notFlight request.source
  · rfl

end Transfers

section Passes

variable
  {s3k : S3k}
  {mem : Memory}
  {call : UpdateCall}
  {monitor next : Monitor}

/-- Doing nothing keeps the slots. -/
theorem KeepsSlots.refl (world : World) :
    KeepsSlots s3k world world :=
  ⟨fun _ => .refl, fun _ => .rfl⟩

/-- Two passes that keep the slots keep them one after the other. -/
theorem KeepsSlots.trans
    {first second third : World}
    (head : KeepsSlots s3k first second)
    (tail : KeepsSlots s3k second third) :
    KeepsSlots s3k first third :=
  ⟨fun slot => (head.lent slot).trans (tail.lent slot),
    fun slot => (tail.free slot).trans (head.free slot)⟩

/-- Slots that are unchanged are kept. -/
theorem keepsSlots_of_same
    {first second : World}
    (same : ∀ slot, second.getcap slot = first.getcap slot) :
    KeepsSlots s3k first second :=
  ⟨fun slot => by rw [same slot], fun slot => by rw [same slot]⟩

variable
  (parentKept :
    ∀ parent child, parent ≠ .none → s3k.derived parent child ≠ .none)
include parentKept

/-- What lends regions is not used up, and an empty slot lends none. -/
theorem LendsRegion.free_iff
    (lender :
      ∀ parent child, s3k.memoryDerive parent child = true → parent ≠ .none)
    {first last : Cap}
    (lends : ReflTransGen (LendsRegion s3k) first last) :
    last = .none ↔ first = .none := by
  induction lends with
  | refl =>
      exact .rfl
  | @tail middle last _ step inductionHypothesis =>
      obtain ⟨child, accepts, rfl⟩ := step
      have present := lender middle child accepts
      have kept := parentKept middle child present
      rw [← inductionHypothesis]
      exact iff_of_false kept present

/-- Lending leaves every slot full that was full. -/
theorem keepsSlots_of_lends
    (lender :
      ∀ parent child, s3k.memoryDerive parent child = true → parent ≠ .none)
    {first second : World}
    (lent :
      ∀ slot,
        ReflTransGen (LendsRegion s3k) (first.getcap slot)
          (second.getcap slot)) :
    KeepsSlots s3k first second :=
  ⟨lent, fun slot => LendsRegion.free_iff parentKept lender (lent slot)⟩

/-- A granted request has only taken something from the memory capability. -/
theorem Updates.lends
    {received : Monitor}
    {addr rwx : Word}
    {world : World}
    (updates : Updates s3k received addr rwx world)
    {slot : Nat}
    (notFlight : slot ≠ flightSlot) :
    ReflTransGen (LendsRegion s3k) (received.world.getcap slot)
      (world.getcap slot) := by
  obtain ⟨tidx, derived, moves⟩ := updates.derivation parentKept
  have lends :=
    derived.lends (mirrored_capmanUpdate received.world) (by decide)
      updates.taken parentKept moves notFlight
  rw [← updates.isResult, World.getcap, capmanUpdate_kernel, ← World.getcap]
    at lends
  exact lends

variable
  (lender :
    ∀ parent child, s3k.memoryDerive parent child = true → parent ≠ .none)
  (empty : monitor.world.getcap flightSlot = .none)
include lender empty

/-- A request of the app leaves the monitor's table as full as it was. -/
theorem Serves.keepsSlots
    (serves : Serves s3k mem call monitor next) :
    KeepsSlots s3k monitor.world next.world := by
  have handedBack := (serves.outcome parentKept empty).1
  obtain ⟨answer, world, computed, rfl⟩ :=
    loop_update serves.isUpdate serves.answered
  refine keepsSlots_of_lends parentKept lender fun slot => ?_
  by_cases isFlight : slot = flightSlot
  · rw [isFlight, handedBack, empty]
  · have sent :
        (sendAnswer s3k (call.request mem).target answer world
            (receive s3k (call.request mem) monitor)).world.getcap slot =
          world.getcap slot := by
      rw [World.getcap,
        @sendAnswer_kernel s3k (receive s3k (call.request mem) monitor) _ _ _
          fun words =>
            serves.dependable.sends world (answerUpdate_makes computed) words
              _]
      exact transfer_out_other isFlight _
    rw [sent, ← receive_getcap_other isFlight (call.request mem) monitor]
    by_cases isZero : answer.code = 0
    · obtain ⟨addr, rwx, updates⟩ := answerUpdate_updates computed isZero
      exact updates.lends parentKept isFlight
    · obtain ⟨unchanged, -⟩ :=
        answerUpdate_failed parentKept serves.dependable computed isZero
      rw [World.getcap, World.getcap, unchanged]

end Passes

section Codes

variable
  {s3k : S3k}
  {mem : Memory}
  {call : UpdateCall}
  {monitor next : Monitor}

/-- The code at the pointer is not the code that was signed. -/
def WronglySigned (words : Words) (mem : Memory) : Prop :=
  ∃ signature,
    codeSignature words mem = some signature ∧
      signature ≠ givenSignature words mem

/-- Code 1 is given to a request for code whose signature is wrong. -/
theorem checkUpdate_refuse_one
    {pmp : Cap}
    {words : Words}
    (isRefused : checkUpdate pmp words mem = .refuse 1) :
    words[3]! &&& 0x4 ≠ 0 ∧ WronglySigned words mem := by
  unfold checkUpdate at isRefused
  split at isRefused
  · dsimp only at isRefused
    split_ifs at isRefused with both asksX
    · cases isRefused
    · split at isRefused
      · cases isRefused
      · next signature isSignature =>
        split_ifs at isRefused with different
        refine ⟨asksX, signature, isSignature, ?_⟩
        rintro rfl
        exact different (compSig_self _)
  · cases isRefused

/-- The update itself returns 1 only when its search finds no slot. -/
theorem capmanUpdatePmp_one
    {idx : Nat}
    {start stop rwx : Word}
    {world : World}
    (isOne : (capmanUpdatePmp s3k idx start stop rwx world).1 = 1) :
    capmanFindFree world = -1 := by
  unfold capmanUpdatePmp at isOne
  dsimp only at isOne
  split_ifs at isOne with notFound
  · exact notFound
  all_goals cases isOne

/-- With a spare slot, the reply 1 stands for a wrong signature. -/
theorem Serves.codeOne
    (serves : Serves s3k mem call monitor next)
    (spare : spareSlot monitor.world ≠ -1)
    (isOne : next.recvBuf[0]! = 1) :
    call.buf[3]! &&& 0x4 ≠ 0 ∧ WronglySigned call.buf mem := by
  have words :
      (receive s3k (call.request mem) monitor).recvBuf = call.buf :=
    if_pos serves.received
  obtain ⟨answer, world, computed, rfl⟩ :=
    loop_update serves.isUpdate serves.answered
  rw [sendAnswer_code] at isOne
  cases answerCase_of_answerUpdate computed with
  | refused isRefused =>
      dsimp only at isOne
      rw [isOne, words, capmanUpdate_mem] at isRefused
      exact checkUpdate_refuse_one isRefused
  | @failed start stop rwx passed isError =>
      obtain ⟨⟨_, cfg, isPmp, -, -⟩, -⟩ := checkUpdate_eq_update_iff.mp passed
      rw [capmanGet_flight] at isPmp
      have taken :
          (receive s3k (call.request mem) monitor).world.getcap flightSlot ≠
            .none := by
        rw [isPmp]
        exact Cap.noConfusion
      have notFound :=
        capmanUpdatePmp_one
          ((ofInt_code_eq_iff (capmanUpdatePmp_code _ _ _ _ _)
            (by decide)).mp isOne)
      rw [capmanFindFree_inFlight taken] at notFound
      refine absurd ?_ spare
      rw [← notFound]
      refine (spareSlot_congr fun slot notFlight => ?_).symm
      rw [receive_getcap_other notFlight]
  | updated passed isZero =>
      cases isOne

end Codes

section Runs

variable
  {s3k : S3k}
  {link : AppLink}
  {before after : Platform}
  (parentKept :
    ∀ parent child, parent ≠ .none → s3k.derived parent child ≠ .none)
  (lender :
    ∀ parent child, s3k.memoryDerive parent child = true → parent ≠ .none)
include parentKept lender

/-- A step of the platform keeps the slots of the monitor. -/
theorem PlatformStep.keepsSlots
    {label : AppLabel}
    (step : PlatformStep s3k link label before after)
    (inStep : InStep before) :
    KeepsSlots s3k before.monitor.world after.monitor.world := by
  cases step with
  | alloc size =>
      exact .refl _
  | free ptr =>
      exact .refl _
  | served fault _ asks serves =>
      exact serves.keepsSlots parentKept lender inStep.empty
  | silent fault _ reply quiet =>
      exact .refl _
  | noted notice buf mem _ received passed =>
      refine keepsSlots_of_same fun slot => ?_
      rw [World.getcap, loop_noted received passed]
      rfl

/--
In every run each slot of the monitor is empty at the end if and only if it
was in the beginning, and it still holds the same capability or, in the slot
of a memory capability, what the derivations have left of it.
-/
theorem run_keepsSlots
    {labels : List AppLabel}
    (start : InStep before)
    (run : Run (PlatformStep s3k link) labels before after) :
    KeepsSlots s3k before.monitor.world after.monitor.world := by
  exact
    run.relates InStep
      (fun first second =>
        KeepsSlots s3k first.monitor.world second.monitor.world)
      (fun platform => .refl platform.monitor.world)
      (fun _ _ _ head tail => head.trans tail)
      (fun _ _ _ step inStep => step.inStep parentKept inStep)
      (fun _ _ _ step inStep => step.keepsSlots parentKept lender inStep) start

/--
If the monitor has a spare slot in the beginning, it derives in that slot
throughout the run.  So a reply with code 1 always means that the app has
jumped to a chunk whose code is not signed, and never that no slot was free.
-/
theorem run_codeOne
    {labels : List AppLabel}
    {fault : Fault}
    {call : UpdateCall}
    {next : Monitor}
    (start : InStep before)
    (spare : spareSlot before.monitor.world ≠ -1)
    (run : Run (PlatformStep s3k link) labels before after)
    (asks :
      (after.raised fault).Asks
        (trapHandler link (replyOf next) (after.raised fault)) call)
    (serves : Serves s3k fault.mem call after.monitor next) :
    spareSlot after.monitor.world = spareSlot before.monitor.world ∧
      (next.recvBuf[0]! = 1 →
        fault.ecause = 1 ∧
          ∃ i,
            after.app.altmem.ChunkAt ((after.raised fault).faultAddr link) i ∧
              WronglySigned
                (thUpdatepmpRx (after.app.altmem.chunks i).start 0x5)
                fault.mem) := by
  have keeps := run_keepsSlots parentKept lender start run
  have same :
      spareSlot after.monitor.world = spareSlot before.monitor.world :=
    spareSlot_congr fun slot _ => keeps.free slot
  refine ⟨same, fun isOne => ?_⟩
  obtain ⟨asksX, wrong⟩ := serves.codeOne (by rwa [same]) isOne
  obtain ⟨⟨i, chunkAt, ⟨-, rfl⟩ | ⟨isInstruction, rfl⟩⟩, -⟩ :=
    trapHandler_cases.of_asks asks serves.code_le
  · have noX : s3kRw &&& 0x4 = 0 := by
      decide
    exact absurd noX asksX
  · exact ⟨isInstruction, i, chunkAt, wrong⟩

end Runs

section Page

/-- This kernel derives nothing from an empty slot. -/
theorem obliging_lender
    (parent child : Cap)
    (accepts : obliging.memoryDerive parent child = true) :
    parent ≠ .none := by
  rintro rfl
  cases accepts

/-- A write into the page of the heap takes a slot and gives it back. -/
theorem pageFault_keepsSlots :
    ∃ next,
      Run (PlatformStep obliging linkedApp) [.fault pageFault] pagePlatform
          next ∧
        KeepsSlots obliging pagePlatform.monitor.world
          next.monitor.world := by
  obtain ⟨next, run⟩ := pageFault_run
  exact ⟨next, run,
    run_keepsSlots (fun _ _ present => present) obliging_lender
      pagePlatform_inStep run⟩

/-- A jump to the code of the page, whose signature is now all zeros. -/
def forgedJump : Fault where
  mem :=
    memoryWith 0x80023000 (codeArray (Vector.replicate 16 0) pageCode)
  epc := 0x80023020
  ecause := 1
  eval := 0
  esp := 0x8002FF00

/-- The forged jump is a jump to code of the heap. -/
theorem forgedJump_jumps :
    JumpsToCode linkedApp pagePlatform forgedJump 0 (Vector.replicate 16 0)
      pageCode :=
  { pageJump_jumps with
    placed :=
      placedAt_memoryWith (by simp [codeArray, pageCode, length_codeOf]) }

/-- The monitor answers it with 1. -/
theorem forgedJump_codeOne :
    ∃ next,
      Serves obliging forgedJump.mem (pagePlatform.rxCall 0) heapMonitor
          next ∧
        next.recvBuf[0]! = 1 ∧
        spareSlot pagePlatform.monitor.world =
          spareSlot pagePlatform.monitor.world ∧
        (next.recvBuf[0]! = 1 →
          forgedJump.ecause = 1 ∧
            ∃ i,
              pagePlatform.app.altmem.ChunkAt
                  ((pagePlatform.raised forgedJump).faultAddr linkedApp) i ∧
                WronglySigned
                  (thUpdatepmpRx (pagePlatform.app.altmem.chunks i).start 0x5)
                  forgedJump.mem) := by
  have result :
      (loop obliging ((pagePlatform.rxCall 0).request forgedJump.mem)
          heapMonitor).map
          (fun next => next.recvBuf[0]!) =
        some 1 := by
    decide +kernel
  obtain ⟨next, returned, isOne⟩ := Option.map_eq_some_iff.mp result
  have serves :
      Serves obliging forgedJump.mem (pagePlatform.rxCall 0) heapMonitor
        next :=
    ⟨rfl, obliging_dependable (by decide) _, returned⟩
  exact ⟨next, serves, isOne,
    run_codeOne (fun _ _ present => present) obliging_lender
      pagePlatform_inStep (by decide +kernel) (.nil pagePlatform)
      (forgedJump_jumps.asks _) serves⟩

end Page

end S3kMonitor
