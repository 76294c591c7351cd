import S3kMonitor.Refusals

namespace S3kMonitor

/-!
# The mirror after an update request

The reply takes a capability out of slot `0x30` behind the back of the
mirror, and every branch of case `0x02` has to bring the mirror up to date by
itself.  The branch for a failed update does not.  That goes unnoticed only if
the update failed so late that the mirror had already lost slot `0x30`.
-/

/-- The mirror is right about all slots but one. -/
def MirroredBut (idx : Nat) (world : World) : Prop :=
  ∀ slot, slot < ncap → slot ≠ idx → world.caps slot = world.getcap slot

theorem Mirrored.mirroredBut
    {world : World}
    (mirrored : Mirrored world)
    (idx : Nat) :
    MirroredBut idx world :=
  fun slot inRange _ => mirrored slot inRange

/-- The kernel delivers the reply into a slot that the app has. -/
structure ReplyMoves (s3k : S3k) (request : Request) (monitor : Monitor) :
    Prop where
  inRange : request.target < ncap
  delivers :
    ∀ answer world,
      answerUpdate s3k (receive s3k request monitor) = some (answer, world) →
      s3k.excpt world.trace
          (.send (monitor.soccaps[1]!).toNat
            ((receive s3k request monitor).recvBuf.setIfInBounds 0
              answer.code)
            flightSlot request.target) =
        s3k.excptNone

section Update

variable
  {s3k : S3k}
  {world : World}
  {idx tidx : Nat}
  {start stop rwx : Word}

/-- Whatever the kernel answers, the mirror forgets the deleted slot only. -/
theorem capmanDelcap_mirroredBut
    (mirrored : Mirrored world) :
    (capmanDelcap s3k idx world).2.caps idx = .none ∧
      MirroredBut idx (capmanDelcap s3k idx world).2 := by
  unfold capmanDelcap
  split
  · refine ⟨by simp, fun slot inRange other => ?_⟩
    have slotMirrored := mirrored slot inRange
    simp only [World.getcap] at slotMirrored
    rw [World.setCap_caps, if_neg other, World.call_caps, World.getcap,
      World.setCap_kernel]
    rcases World.call_kernel_cases with effect | unchanged
    · rw [effect]
      simpa [KernelCall.effect, other] using slotMirrored
    · rw [unchanged]
      exact slotMirrored
  · next free =>
    exact ⟨not_not.mp free, mirrored.mirroredBut idx⟩

/-- A move that fails changes neither side. -/
theorem capmanMove_failed
    {src dst : Nat}
    (failed : (capmanMove s3k src dst world).1 = false) :
    (capmanMove s3k src dst world).2.caps = world.caps ∧
      (capmanMove s3k src dst world).2.kernel = world.kernel := by
  unfold capmanMove at failed ⊢
  split
  · exact ⟨rfl, rfl⟩
  · next guard =>
    rw [if_neg guard] at failed
    dsimp only at failed ⊢
    split
    · next ok =>
      rw [if_pos ok] at failed
      cases failed
    · next refused =>
      exact ⟨rfl, World.call_kernel_of_failed refused⟩

/-- An update that fails behind the derivation has emptied the slot. -/
theorem NewDerived.failed_mirroredBut
    (derived : NewDerived s3k start stop rwx world tidx)
    (mirrored : Mirrored world)
    (failed : (capmanUpdatePmp s3k idx start stop rwx world).1 ≠ 0) :
    (capmanUpdatePmp s3k idx start stop rwx world).2.caps idx = .none ∧
      MirroredBut idx (capmanUpdatePmp s3k idx start stop rwx world).2 := by
  obtain ⟨derivedOk, -⟩ := derived.step
  have slotFound : ¬ capmanFindFree world = -1 := by
    rw [derived.found]
    omega
  obtain ⟨forgotten, elsewhere⟩ :=
    @capmanDelcap_mirroredBut s3k _ idx
      (capmanDerivePmp_mirrored mirrored tidx start stop rwx)
  unfold capmanUpdatePmp at failed ⊢
  simp only [if_neg slotFound] at failed ⊢
  rw [derived.found, toIndex_slot derived.inRange, derivedOk] at failed ⊢
  simp only [Bool.true_eq_false, if_false] at failed ⊢
  split
  · exact ⟨forgotten, elsewhere⟩
  · next deletedOk =>
    rw [if_neg deletedOk] at failed
    split
    · next notMoved =>
      obtain ⟨sameCaps, sameKernel⟩ := capmanMove_failed notMoved
      refine ⟨sameCaps ▸ forgotten, fun slot inRange other => ?_⟩
      rw [sameCaps, World.getcap, sameKernel]
      exact elsewhere slot inRange other
    · next isMoved =>
      rw [if_neg isMoved] at failed
      exact absurd rfl failed

/-- An update that fails in front of it has not touched the mirror. -/
theorem capmanUpdatePmp_caps_of_early
    (early :
      (capmanUpdatePmp s3k idx start stop rwx world).1 = 1 ∨
        (capmanUpdatePmp s3k idx start stop rwx world).1 = 2) :
    (capmanUpdatePmp s3k idx start stop rwx world).2.caps = world.caps := by
  unfold capmanUpdatePmp at early ⊢
  dsimp only at early ⊢
  split
  · rfl
  · next slotFound =>
    rw [if_neg slotFound] at early
    split
    · next notDerived =>
      unfold capmanDerivePmp at notDerived ⊢
      dsimp only at notDerived ⊢
      split
      · rfl
      · next napot =>
        rw [if_neg napot] at notDerived
        unfold deriveFrom at notDerived ⊢
        dsimp only at notDerived ⊢
        split
        · next ok =>
          rw [if_pos ok] at notDerived
          cases notDerived
        · rfl
    · next isDerived =>
      rw [if_neg isDerived] at early
      split at early
      · omega
      · split at early <;> omega

/-- Without a derivation the update fails early. -/
theorem capmanUpdatePmp_not_derived
    (notDerived : ¬ ∃ tidx, NewDerived s3k start stop rwx world tidx) :
    ((capmanUpdatePmp s3k idx start stop rwx world).1 = 1 ∨
        (capmanUpdatePmp s3k idx start stop rwx world).1 = 2) ∧
      (capmanUpdatePmp s3k idx start stop rwx world).2.caps = world.caps ∧
      (capmanUpdatePmp s3k idx start stop rwx world).2.kernel =
        world.kernel := by
  obtain ⟨early, unchanged⟩ :=
    @capmanUpdatePmp_refused s3k world start stop rwx idx
      fun napot slot inRange found ok =>
        notDerived ⟨slot, inRange, found, napot, ok⟩
  exact ⟨early, capmanUpdatePmp_caps_of_early early, unchanged⟩

/-- So an update whose code is 0 has derived the new capability. -/
theorem derived_of_code_zero
    (isZero :
      BitVec.ofInt 64 (capmanUpdatePmp s3k idx start stop rwx world).1 = 0) :
    ∃ tidx, NewDerived s3k start stop rwx world tidx := by
  by_contra notDerived
  rcases (@capmanUpdatePmp_not_derived _ _ idx _ _ _ notDerived).1 with
    noSlot | refused
  · rw [noSlot] at isZero
    cases isZero
  · rw [refused] at isZero
    cases isZero

/-- An update without a derivation leaves the capability in the slot. -/
theorem not_derived_mirroredBut
    (mirrored : Mirrored world)
    (notDerived : ¬ ∃ tidx, NewDerived s3k start stop rwx world tidx) :
    (capmanUpdatePmp s3k idx start stop rwx world).2.caps idx =
        world.caps idx ∧
      MirroredBut idx (capmanUpdatePmp s3k idx start stop rwx world).2 := by
  obtain ⟨-, sameCaps, sameKernel⟩ :=
    @capmanUpdatePmp_not_derived _ _ idx _ _ _ notDerived
  refine ⟨congrFun sameCaps idx, fun slot inRange _ => ?_⟩
  rw [sameCaps, World.getcap, sameKernel]
  exact mirrored slot inRange

end Update

section Reply

variable
  {s3k : S3k}
  {world : World}
  {monitor : Monitor}
  {answer : Answer}
  {target : Nat}

/-- The reply leaves the flight slot empty and the other slots alone. -/
theorem transfer_flightSlot
    (kernel : Kernel)
    (inRange : target < ncap)
    (slot : Nat) :
    (kernel.transfer monitorPid flightSlot appPid target).table monitorPid
        slot =
      if slot = flightSlot then .none else kernel.table monitorPid slot := by
  have flightInRange : flightSlot < ncap := by
    decide
  have otherPid : ¬ (monitorPid = appPid ∧ slot = target) := by
    simp [monitorPid, appPid]
  unfold Kernel.transfer
  by_cases present : kernel.table monitorPid flightSlot = .none
  · rw [if_neg (by simp [present])]
    by_cases isFlight : slot = flightSlot
    · rw [if_pos isFlight, isFlight, present]
    · rw [if_neg isFlight]
  · rw [if_pos ⟨flightInRange, inRange, present⟩, Kernel.move_table,
      if_neg otherPid]
    by_cases isFlight : slot = flightSlot
    · rw [if_pos ⟨rfl, isFlight⟩, if_pos isFlight]
    · rw [if_neg (fun both => isFlight both.2), if_neg isFlight]

/-- After the reply the mirror is right if it shows the flight slot empty. -/
theorem sendAnswer_mirrored_iff
    (elsewhere : MirroredBut flightSlot world)
    (inRange : target < ncap)
    (sent :
      s3k.excpt world.trace
          (.send (monitor.soccaps[1]!).toNat
            (monitor.recvBuf.setIfInBounds 0 answer.code) flightSlot
            target) =
        s3k.excptNone)
    (noResync : answer.resync = false) :
    Mirrored (sendAnswer s3k target answer world monitor).world ↔
      world.caps flightSlot = .none := by
  have caps :
      (sendAnswer s3k target answer world monitor).world.caps =
        world.caps := by
    simp [sendAnswer, noResync]
  have kernel :
      (sendAnswer s3k target answer world monitor).world.kernel =
        world.kernel.transfer monitorPid flightSlot appPid target := by
    simp only [sendAnswer, noResync, Bool.false_eq_true, if_false]
    exact World.call_kernel_of_ok sent
  simp only [Mirrored, World.getcap, caps, kernel,
    transfer_flightSlot world.kernel inRange]
  constructor
  · intro mirrored
    have atFlight := mirrored flightSlot (by decide)
    rwa [if_pos rfl] at atFlight
  · intro forgotten slot slotInRange
    by_cases isFlight : slot = flightSlot
    · rw [if_pos isFlight, isFlight, forgotten]
    · rw [if_neg isFlight]
      exact elsewhere slot slotInRange isFlight

end Reply

/--
After an update request whose reply takes slot `0x30` along, the mirror is in
step if and only if no request that passes the checks fails before the new
capability is derived.
-/
theorem loop_mirrored_iff
    (s3k : S3k)
    (request : Request)
    (monitor next : Monitor)
    (isUpdate : (receive s3k request monitor).recvBuf[0]! = 0x02)
    (moves : ReplyMoves s3k request monitor)
    (answered : loop s3k request monitor = some next) :
    Mirrored next.world ↔
      ∀ start stop rwx,
        checkUpdate
            (capmanGet (capmanUpdate (receive s3k request monitor).world)
              flightSlot)
            (receive s3k request monitor).recvBuf request.mem =
          .update start stop rwx →
        ∃ tidx,
          NewDerived s3k start stop rwx
            (capmanUpdate (receive s3k request monitor).world) tidx := by
  have memory :
      (capmanUpdate (receive s3k request monitor).world).mem = request.mem :=
    (capmanUpdate_makes _ : Makes s3k (fun _ => True) _ _).mem_eq
  obtain ⟨answer, world, computed, rfl⟩ := loop_update isUpdate answered
  have sent := moves.delivers answer world computed
  have mirrored := mirrored_capmanUpdate (receive s3k request monitor).world
  cases answerCase_of_answerUpdate computed with
  | refused isRefused =>
      rw [memory] at isRefused
      refine iff_of_true (mirrored_capmanUpdate _)
        fun start stop rwx passed => ?_
      cases isRefused.symm.trans passed
  | updated passed isZero =>
      rw [memory] at passed
      refine iff_of_true (mirrored_capmanUpdate _)
        fun otherStart otherStop otherRwx same => ?_
      cases passed.symm.trans same
      exact derived_of_code_zero isZero
  | @failed start stop rwx passed isError =>
      rw [memory] at passed
      by_cases derivable :
          ∃ tidx,
            NewDerived s3k start stop rwx
              (capmanUpdate (receive s3k request monitor).world) tidx
      · obtain ⟨tidx, derived⟩ := derivable
        obtain ⟨forgotten, elsewhere⟩ :=
          derived.failed_mirroredBut mirrored (ne_zero_of_code isError)
        refine iff_of_true
          ((sendAnswer_mirrored_iff elsewhere moves.inRange sent rfl).mpr
            forgotten) fun otherStart otherStop otherRwx same => ?_
        cases passed.symm.trans same
        exact ⟨tidx, derived⟩
      · obtain ⟨kept, elsewhere⟩ :=
          @not_derived_mirroredBut _ _ flightSlot _ _ _ mirrored derivable
        obtain ⟨⟨addr, cfg, isPmp, -, -⟩, -⟩ :=
          checkUpdate_eq_update_iff.mp passed
        refine iff_of_false (fun isMirrored => ?_)
          (fun all => derivable (all start stop rwx passed))
        have forgotten :=
          (sendAnswer_mirrored_iff elsewhere moves.inRange sent rfl).mp
            isMirrored
        rw [kept, ← capmanGet, isPmp] at forgotten
        cases forgotten

/-- The monitor with one readable page of the app, its mirror in step. -/
def syncedMonitor : Monitor :=
  { heapMonitor with world := capmanUpdate heapMonitor.world }

/-- A kernel that refuses no reply moves the capability back. -/
theorem replyMoves_generous
    {refuses : List Event → KernelCall → Bool}
    (delivers :
      ∀ trace sock words capIdx target,
        refuses trace (.send sock words capIdx target) = false) :
    ReplyMoves (S3k.generous refuses) writeRequest syncedMonitor where
  inRange := by decide
  delivers answer world _ := by
    simp [S3k.generous, KernelCall.slots, delivers, syncedMonitor,
      heapMonitor, ncap]

/-- The page becomes writable, and the mirror is in step. -/
theorem writeRequest_mirrored :
    ∃ next,
      loop (S3k.generous fun _ _ => false) writeRequest syncedMonitor =
          some next ∧
        Mirrored next.world := by
  have returns :
      (loop (S3k.generous fun _ _ => false) writeRequest
          syncedMonitor).isSome = true := by
    decide +kernel
  obtain ⟨next, answered⟩ := Option.isSome_iff_exists.mp returns
  refine ⟨next, answered,
    (loop_mirrored_iff _ writeRequest syncedMonitor next (by decide)
      (replyMoves_generous fun _ _ _ _ _ => rfl) answered).mpr ?_⟩
  intro start stop rwx updated
  have checked :
      checkUpdate
          (capmanGet
            (capmanUpdate
              (receive (S3k.generous fun _ _ => false) writeRequest
                syncedMonitor).world)
            flightSlot)
          (receive (S3k.generous fun _ _ => false) writeRequest
            syncedMonitor).recvBuf
          writeRequest.mem =
        .update 0x80023000 0x80024000 3 := by
    decide +kernel
  cases checked.symm.trans updated
  exact ⟨63,
    { inRange := by decide
      found := by decide +kernel
      napot := by decide
      ok := by decide +kernel }⟩

/-- If the kernel refuses to derive it, the mirror still shows the old page. -/
theorem refused_derivation_not_mirrored :
    ¬ ∀ s3k request monitor next,
        Mirrored monitor.world →
        (receive s3k request monitor).recvBuf[0]! = 0x02 →
        ReplyMoves s3k request monitor →
        loop s3k request monitor = some next →
        Mirrored next.world := by
  intro always
  have stale :
      (loop noDerivations writeRequest syncedMonitor).map
          (fun next =>
            (next.world.caps flightSlot, next.world.getcap flightSlot)) =
        some (.pmp (s3kPmpNapotAddr 0x80023000 0x80024000) 0x1, .none) := by
    decide +kernel
  obtain ⟨next, answered, shown⟩ := Option.map_eq_some_iff.mp stale
  have mirrored :=
    always noDerivations writeRequest syncedMonitor next
      (mirrored_capmanUpdate _) (by decide)
      (replyMoves_generous fun _ _ _ _ _ => rfl) answered flightSlot
      (by decide)
  obtain ⟨isOld, isEmpty⟩ := Prod.mk.inj shown
  rw [isOld, isEmpty] at mirrored
  cases mirrored

end S3kMonitor
