import S3kMonitor.WriteXorExecute

namespace S3kMonitor

/-!
# The steps of `capman_update_pmp`

The new capability is derived into a free slot, the old one is deleted, and
then the new one is moved to its place.  Up to the deletion a failure leaves
everything as it was; after it only the last move can fail, and then the old
capability is already gone.
-/

section Steps

variable
  {s3k : S3k}
  {world : World}
  {start stop rwx : Word}

/-- A derivation that is not tried or that the kernel refuses. -/
theorem capmanDerivePmp_refused
    {idx : Nat}
    (refused :
      Napot start stop →
        let pmp := s3k.pmp (s3kPmpNapotAddr start stop) rwx
        s3k.excpt world.trace
            (.drvcap (toIndex (findMemoryDerive s3k world pmp)) idx pmp) ≠
          s3k.excptNone) :
    (capmanDerivePmp s3k idx start stop rwx world).1 = false ∧
      (capmanDerivePmp s3k idx start stop rwx world).2.kernel =
        world.kernel := by
  unfold capmanDerivePmp
  dsimp only
  split
  · exact ⟨rfl, rfl⟩
  · next passes =>
    have napot : Napot start stop := by
      simpa [Napot] using passes
    have failed := refused napot
    unfold deriveFrom
    dsimp only
    rw [World.call_fst, if_neg failed]
    exact ⟨rfl, World.call_kernel_of_failed failed⟩

/-- A move from a taken slot to a free one is left to the kernel. -/
theorem capmanMove_answer
    {src dst : Nat}
    (srcTaken : world.caps src ≠ .none)
    (dstFree : world.caps dst = .none) :
    (s3k.excpt world.trace (.movcap src dst) = s3k.excptNone →
      (capmanMove s3k src dst world).1 = true ∧
        (capmanMove s3k src dst world).2.kernel =
          world.kernel.move monitorPid src monitorPid dst) ∧
    (s3k.excpt world.trace (.movcap src dst) ≠ s3k.excptNone →
      (capmanMove s3k src dst world).1 = false ∧
        (capmanMove s3k src dst world).2.kernel = world.kernel) := by
  have guard : ¬ (world.caps src = .none ∨ world.caps dst ≠ .none) := by
    simp [srcTaken, dstFree]
  unfold capmanMove
  rw [if_neg guard]
  constructor
  · intro ok
    have returned :
        (world.call s3k (.movcap src dst)).1 = s3k.excptNone := ok
    dsimp only
    rw [if_pos returned]
    exact ⟨rfl, World.call_kernel_of_ok returned⟩
  · intro failed
    have returned :
        (world.call s3k (.movcap src dst)).1 ≠ s3k.excptNone := failed
    dsimp only
    rw [if_neg returned]
    exact ⟨rfl, World.call_kernel_of_failed returned⟩

/-- Without a free slot or a derivation nothing is updated. -/
theorem capmanUpdatePmp_refused
    {idx : Nat}
    (refused :
      Napot start stop →
      ∀ slot : Nat, slot < ncap → capmanFindFree world = slot →
        let pmp := s3k.pmp (s3kPmpNapotAddr start stop) rwx
        s3k.excpt world.trace
            (.drvcap (toIndex (findMemoryDerive s3k world pmp)) slot pmp) ≠
          s3k.excptNone) :
    ((capmanUpdatePmp s3k idx start stop rwx world).1 = 1 ∨
        (capmanUpdatePmp s3k idx start stop rwx world).1 = 2) ∧
      (capmanUpdatePmp s3k idx start stop rwx world).2.kernel =
        world.kernel := by
  rcases capmanFindFree_cases world with
    ⟨slot, inRange, -, found⟩ | ⟨notFound, -⟩
  · obtain ⟨failed, unchanged⟩ :=
      @capmanDerivePmp_refused s3k world start stop rwx slot
        fun napot => refused napot slot inRange found
    have slotFound : ¬ capmanFindFree world = -1 := by
      omega
    unfold capmanUpdatePmp
    simp only [if_neg slotFound]
    rw [found, toIndex_slot inRange, if_pos failed]
    exact ⟨Or.inr rfl, unchanged⟩
  · unfold capmanUpdatePmp
    simp only [if_pos notFound]
    exact ⟨Or.inl trivial, trivial⟩

end Steps

section Update

variable
  (s3k : S3k)
  (idx : Nat)
  (start stop rwx : Word)
  (world : World)

/-- The capability that the update is to put in its slot. -/
def newPmp : Cap :=
  s3k.pmp (s3kPmpNapotAddr start stop) rwx

/-- The memory capability from which it is derived. -/
def parentSlot : Nat :=
  toIndex (findMemoryDerive s3k world (newPmp s3k start stop rwx))

/-- There is a free slot, and the kernel derives the capability there. -/
structure NewDerived (tidx : Nat) : Prop where
  inRange : tidx < ncap
  found : capmanFindFree world = tidx
  napot : Napot start stop
  ok :
    s3k.excpt world.trace
        (.drvcap (parentSlot s3k start stop rwx world) tidx
          (newPmp s3k start stop rwx)) =
      s3k.excptNone

/-- What has happened when the old capability has been deleted. -/
def traceAfterDeletion (tidx : Nat) : List Event :=
  let derivation :=
    .called
        (.drvcap (parentSlot s3k start stop rwx world) tidx
          (newPmp s3k start stop rwx))
        s3k.excptNone ::
      world.trace
  .called (.delcap idx) (s3k.excpt derivation (.delcap idx)) :: derivation

/-- The kernel derives the new capability and then refuses to move it. -/
structure MoveRefused (tidx : Nat) : Prop where
  derived : NewDerived s3k start stop rwx world tidx
  refused :
    s3k.excpt (traceAfterDeletion s3k idx start stop rwx world tidx)
        (.movcap tidx idx) ≠
      s3k.excptNone

/-- A PMP capability with exactly this region and these rights. -/
def IsPmpFor (cap : Cap) : Prop :=
  ∃ addr cfg, cap = .pmp addr cfg ∧ Replaces start stop rwx addr cfg

/-- Either the slot is updated and nothing else, or nothing at all. -/
structure UpdatesAtomically : Prop where
  success :
    let result := capmanUpdatePmp s3k idx start stop rwx world
    result.1 = 0 →
      IsPmpFor start stop rwx (result.2.getcap idx) ∧
      (∀ tidx : Nat, capmanFindFree world = tidx →
        result.2.getcap tidx = .none) ∧
      ∀ other, other ≠ idx → other ≠ parentSlot s3k start stop rwx world →
        result.2.getcap other = world.getcap other
  failure :
    let result := capmanUpdatePmp s3k idx start stop rwx world
    result.1 ≠ 0 →
      ∀ slot, result.2.getcap slot = world.getcap slot

variable {s3k idx start stop rwx world}

/-- A new capability is one. -/
theorem newPmp_ne_none : newPmp s3k start stop rwx ≠ .none := by
  obtain ⟨cfg, isPmp, -⟩ := s3k.pmp_eq (s3kPmpNapotAddr start stop) rwx
  rw [newPmp, isPmp]
  exact Cap.noConfusion

/-- It is over the region and has the rights. -/
theorem newPmp_isPmpFor (napot : Napot start stop) :
    IsPmpFor start stop rwx (newPmp s3k start stop rwx) := by
  obtain ⟨cfg, isPmp, rights⟩ := s3k.pmp_eq (s3kPmpNapotAddr start stop) rwx
  exact ⟨_, cfg, isPmp, napot, rfl, rights⟩

section Derived

variable
  {tidx : Nat}
  (derived : NewDerived s3k start stop rwx world tidx)
include derived

/-- The slots after the derivation. -/
theorem NewDerived.step :
    let result := capmanDerivePmp s3k tidx start stop rwx world
    result.1 = true ∧
      result.2.trace =
        .called
            (.drvcap (parentSlot s3k start stop rwx world) tidx
              (newPmp s3k start stop rwx))
            s3k.excptNone ::
          world.trace ∧
      ∀ slot,
        result.2.getcap slot =
          if slot = tidx then newPmp s3k start stop rwx
          else if slot = parentSlot s3k start stop rwx world then
            s3k.derived (world.getcap slot) (newPmp s3k start stop rwx)
          else world.getcap slot := by
  have passes :
      ¬ (start ≠ s3kPmpNapotBegin (s3kPmpNapotAddr start stop) ∨
        stop ≠ s3kPmpNapotEnd (s3kPmpNapotAddr start stop)) := by
    simpa [Napot] using derived.napot
  have ok :
      (world.call s3k
          (.drvcap (parentSlot s3k start stop rwx world) tidx
            (newPmp s3k start stop rwx))).1 =
        s3k.excptNone :=
    derived.ok
  have derivation :
      capmanDerivePmp s3k tidx start stop rwx world =
        (true,
          ((world.call s3k
              (.drvcap (parentSlot s3k start stop rwx world) tidx
                (newPmp s3k start stop rwx))).2.reread
            (parentSlot s3k start stop rwx world)).reread tidx) := by
    unfold capmanDerivePmp
    dsimp only
    rw [if_neg passes]
    exact if_pos ok
  rw [derivation]
  refine ⟨rfl, ?_, fun slot => ?_⟩
  · simp only [World.reread_trace, World.call, derived.ok]
  · simp only [World.getcap, World.reread_kernel,
      World.call_kernel_of_ok ok, KernelCall.effect, Kernel.set_table,
      true_and]
    by_cases isParent : slot = parentSlot s3k start stop rwx world
    · rw [isParent]
    · rw [if_neg isParent, if_neg isParent]

/-- There is one slot that the search returns. -/
theorem NewDerived.slot_eq
    {slot : Nat}
    (found : capmanFindFree world = slot) :
    slot = tidx := by
  have same := found.symm.trans derived.found
  omega

variable
  (mirrored : Mirrored world)
  (inRange : idx < ncap)
  (taken : world.getcap idx ≠ .none)
  (parentKept :
    ∀ parent child, parent ≠ .none → s3k.derived parent child ≠ .none)
include mirrored

/-- The free slot is free for the kernel, too. -/
theorem NewDerived.free : world.getcap tidx = .none := by
  rcases capmanFindFree_cases world with
    ⟨slot, slotInRange, free, found⟩ | ⟨notFound, -⟩
  · rw [← derived.slot_eq found, ← mirrored slot slotInRange, free]
  · have := derived.found.symm.trans notFound
    omega

include taken

/-- The free slot is another one. -/
theorem NewDerived.apart : tidx ≠ idx := by
  rintro rfl
  exact taken (derived.free mirrored)

include inRange parentKept

/--
The slots after the deletion, which the kernel may have refused.  The result
of `capman_delcap` does not tell.
-/
theorem NewDerived.deletion :
    let world := (capmanDerivePmp s3k tidx start stop rwx world).2
    let result := capmanDelcap s3k idx world
    world.getcap idx ≠ .none ∧
      result.1 = true ∧
      result.2.caps idx = .none ∧
      result.2.caps tidx = newPmp s3k start stop rwx ∧
      (∀ slot, slot ≠ idx → result.2.getcap slot = world.getcap slot) ∧
      (s3k.excpt world.trace (.delcap idx) = s3k.excptNone →
        result.2.getcap idx = .none) := by
  obtain ⟨-, -, slots⟩ := derived.step
  have apart := derived.apart mirrored taken
  have nextMirrored :
      Mirrored (capmanDerivePmp s3k tidx start stop rwx world).2 :=
    capmanDerivePmp_mirrored mirrored tidx start stop rwx
  generalize (capmanDerivePmp s3k tidx start stop rwx world).2 = next
    at slots nextMirrored
  dsimp only
  have present : next.getcap idx ≠ .none := by
    rw [slots idx, if_neg apart.symm]
    split
    · exact parentKept _ _ taken
    · exact taken
  have mirrorPresent : next.caps idx ≠ .none := by
    rw [nextMirrored idx inRange]
    exact present
  have atTidx : next.caps tidx = newPmp s3k start stop rwx := by
    rw [nextMirrored tidx derived.inRange, slots tidx, if_pos rfl]
  unfold capmanDelcap
  rw [if_pos mirrorPresent]
  refine ⟨present, rfl, ?_, ?_, fun slot other => ?_, fun ok => ?_⟩
  · rw [World.setCap_caps, if_pos rfl]
  · rw [World.setCap_caps, if_neg apart, World.call_caps, atTidx]
  · simp only [World.getcap, World.setCap_kernel]
    rcases World.call_kernel_cases with effect | unchanged
    · rw [effect]
      simp [KernelCall.effect, other]
    · rw [unchanged]
  · have returned : (next.call s3k (.delcap idx)).1 = s3k.excptNone := ok
    simp only [World.getcap, World.setCap_kernel,
      World.call_kernel_of_ok returned]
    simp [KernelCall.effect]

/-- What the trace shows once the old capability is deleted. -/
theorem NewDerived.deletion_trace :
    (capmanDelcap s3k idx
        (capmanDerivePmp s3k tidx start stop rwx world).2).2.trace =
      traceAfterDeletion s3k idx start stop rwx world tidx := by
  obtain ⟨-, derivedTrace, -⟩ := derived.step
  obtain ⟨present, -⟩ :=
    derived.deletion mirrored inRange taken parentKept
  have nextMirrored :
      Mirrored (capmanDerivePmp s3k tidx start stop rwx world).2 :=
    capmanDerivePmp_mirrored mirrored tidx start stop rwx
  have mirrorPresent :
      (capmanDerivePmp s3k tidx start stop rwx world).2.caps idx ≠ .none := by
    rw [nextMirrored idx inRange]
    exact present
  rw [capmanDelcap, if_pos mirrorPresent, World.setCap_trace, World.call]
  simp only [derivedTrace, traceAfterDeletion]

/-- After a derivation everything depends on the answer to the last move. -/
theorem NewDerived.update :
    let result := capmanUpdatePmp s3k idx start stop rwx world
    let deleted :=
      (capmanDelcap s3k idx
        (capmanDerivePmp s3k tidx start stop rwx world).2).2
    let moved :=
      s3k.excpt (traceAfterDeletion s3k idx start stop rwx world tidx)
        (.movcap tidx idx)
    (moved = s3k.excptNone →
      result.1 = 0 ∧
        result.2.kernel =
          deleted.kernel.move monitorPid tidx monitorPid idx) ∧
    (moved ≠ s3k.excptNone →
      result.1 = 4 ∧ result.2.kernel = deleted.kernel) := by
  obtain ⟨derivedOk, -⟩ := derived.step
  have slotFound : ¬ capmanFindFree world = -1 := by
    rw [derived.found]
    omega
  obtain ⟨-, deletedOk, dstFree, srcTaken, -⟩ :=
    derived.deletion mirrored inRange taken parentKept
  have srcPresent :
      (capmanDelcap s3k idx
        (capmanDerivePmp s3k tidx start stop rwx world).2).2.caps tidx ≠
        .none := by
    rw [srcTaken]
    exact newPmp_ne_none
  obtain ⟨moved, stayed⟩ :=
    @capmanMove_answer s3k _ tidx idx srcPresent dstFree
  rw [derived.deletion_trace mirrored inRange taken parentKept]
    at moved stayed
  unfold capmanUpdatePmp
  simp only [if_neg slotFound]
  rw [derived.found, toIndex_slot derived.inRange, derivedOk, deletedOk]
  simp only [Bool.true_eq_false, if_false]
  constructor
  · intro ok
    obtain ⟨returned, kernel⟩ := moved ok
    simp [returned, kernel]
  · intro failed
    obtain ⟨returned, kernel⟩ := stayed failed
    simp [returned, kernel]

/-- If the kernel performs the last move, the update is complete. -/
theorem NewDerived.updatesAtomically
    (ok :
      s3k.excpt (traceAfterDeletion s3k idx start stop rwx world tidx)
          (.movcap tidx idx) =
        s3k.excptNone) :
    UpdatesAtomically s3k idx start stop rwx world := by
  obtain ⟨moved, -⟩ := derived.update mirrored inRange taken parentKept
  obtain ⟨-, -, -, -, deleted, -⟩ :=
    derived.deletion mirrored inRange taken parentKept
  obtain ⟨-, -, slots⟩ := derived.step
  have apart := derived.apart mirrored taken
  have free := derived.free mirrored
  have atTidx := (deleted tidx apart).trans (slots tidx)
  rw [if_pos rfl] at atTidx
  obtain ⟨code, kernel⟩ := moved ok
  simp only [World.getcap] at atTidx deleted slots free
  constructor
  · intro result _
    simp only [result, World.getcap, kernel, Kernel.move_table, true_and]
    refine ⟨?_, fun other found => ?_, fun other notIdx notParent => ?_⟩
    · rw [if_pos trivial, atTidx]
      exact newPmp_isPmpFor derived.napot
    · rw [derived.slot_eq found, if_neg apart, if_pos rfl]
    · rw [if_neg notIdx]
      by_cases isTidx : other = tidx
      · rw [if_pos isTidx, isTidx, free]
      · rw [if_neg isTidx, deleted other notIdx, slots other,
          if_neg isTidx, if_neg notParent]
  · intro result failed
    exact absurd code failed

/-- If it does not, the old capability is gone and the result says so. -/
theorem NewDerived.not_updatesAtomically
    (refused :
      s3k.excpt (traceAfterDeletion s3k idx start stop rwx world tidx)
          (.movcap tidx idx) ≠
        s3k.excptNone) :
    ¬ UpdatesAtomically s3k idx start stop rwx world := by
  intro atomic
  obtain ⟨-, stayed⟩ := derived.update mirrored inRange taken parentKept
  obtain ⟨-, -, -, -, deleted, -⟩ :=
    derived.deletion mirrored inRange taken parentKept
  obtain ⟨-, -, slots⟩ := derived.step
  have atTidx :=
    (deleted tidx (derived.apart mirrored taken)).trans (slots tidx)
  rw [if_pos rfl] at atTidx
  obtain ⟨code, kernel⟩ := stayed refused
  have kept := atomic.failure (by rw [code]; decide) tidx
  rw [World.getcap, kernel, ← World.getcap, atTidx, derived.free mirrored]
    at kept
  exact newPmp_ne_none kept

end Derived

end Update

/--
The update is atomic unless the kernel refuses the last move.  The mirror is
up to date when `loop` calls the function, and a derivation changes the memory
capability but does not remove it.
-/
theorem capmanUpdatePmp_atomic_iff
    (s3k : S3k)
    (parentKept :
      ∀ parent child, parent ≠ .none → s3k.derived parent child ≠ .none)
    (world : World)
    (mirrored : Mirrored world)
    {idx : Nat}
    (inRange : idx < ncap)
    (taken : world.getcap idx ≠ .none)
    (start stop rwx : Word) :
    UpdatesAtomically s3k idx start stop rwx world ↔
      ∀ tidx, ¬ MoveRefused s3k idx start stop rwx world tidx := by
  by_cases derivable : ∃ tidx, NewDerived s3k start stop rwx world tidx
  · obtain ⟨tidx, derived⟩ := derivable
    constructor
    · intro atomic other refused
      exact refused.derived.not_updatesAtomically mirrored inRange taken
        parentKept refused.refused atomic
    · intro notRefused
      apply derived.updatesAtomically mirrored inRange taken parentKept
      exact not_not.mp fun refused => notRefused tidx ⟨derived, refused⟩
  · obtain ⟨codes, kernel⟩ :=
      @capmanUpdatePmp_refused s3k world start stop rwx idx
        fun napot slot slotInRange found ok =>
          derivable ⟨slot, slotInRange, found, napot, ok⟩
    refine iff_of_true ⟨fun success => ?_, fun _ slot => ?_⟩
      fun tidx refused => derivable ⟨tidx, refused.derived⟩
    · rcases codes with isOne | isTwo
      · rw [isOne] at success
        cases success
      · rw [isTwo] at success
        cases success
    · simp only [World.getcap, kernel]

/-- A kernel that refuses nothing does not refuse the last move. -/
theorem generous_not_moveRefused
    {idx : Nat}
    (inRange : idx < ncap)
    (start stop rwx : Word)
    (world : World)
    (tidx : Nat) :
    ¬ MoveRefused (S3k.generous fun _ _ => false) idx start stop rwx world
        tidx := by
  intro refused
  have found := refused.derived.inRange
  apply refused.refused
  simp only [ncap] at inRange found
  simp [S3k.generous, KernelCall.slots, inRange, found, ncap]

/-- A readable page has arrived in the flight slot. -/
def arrivedPage : World :=
  afterInit
    ((onlyCap 1 (.memory 0x20 0x30 0x20 0x10 0 7)).set monitorPid flightSlot
      (.pmp (s3kPmpNapotAddr 0x80023000 0x80024000) 0x1))
    (fun _ => .none) fun _ => 0

/-- The page has arrived, and the mirror knows it. -/
theorem arrivedPage_mirrored : Mirrored arrivedPage := by
  rw [arrivedPage, afterInit]
  exact mirrored_capmanInit _

/-- The flight slot is taken. -/
theorem arrivedPage_taken : arrivedPage.getcap flightSlot ≠ .none := by
  rw [arrivedPage, World.getcap, afterInit, capmanInit, capmanUpdate_kernel]
  decide

/-- A kernel that refuses nothing makes the page writable. -/
theorem arrivedPage_atomic :
    UpdatesAtomically (S3k.generous fun _ _ => false) flightSlot 0x80023000
      0x80024000 0x3 arrivedPage :=
  (capmanUpdatePmp_atomic_iff _ (fun _ _ present => present) arrivedPage
    arrivedPage_mirrored (by decide) arrivedPage_taken _ _ _).mpr
    (generous_not_moveRefused (by decide) _ _ _ _)

/-- A kernel that refuses the move leaves the page without a capability. -/
theorem refused_move_not_atomic :
    ¬ ∀ (s3k : S3k) (world : World) (idx : Nat) (start stop rwx : Word),
        (∀ parent child, parent ≠ .none →
          s3k.derived parent child ≠ .none) →
        Mirrored world →
        idx < ncap →
        world.getcap idx ≠ .none →
        UpdatesAtomically s3k idx start stop rwx world := by
  intro always
  have atomic :=
    always (S3k.generous fun _ call => call = .movcap 63 flightSlot)
      arrivedPage flightSlot 0x80023000 0x80024000 0x3
      (fun _ _ present => present) arrivedPage_mirrored (by decide)
      arrivedPage_taken
  have lost :
      let result :=
        capmanUpdatePmp
          (S3k.generous fun _ call => call = .movcap 63 flightSlot) flightSlot
          0x80023000 0x80024000 0x3 arrivedPage
      result.1 ≠ 0 ∧ result.2.getcap flightSlot = .none := by
    decide +kernel
  have kept := atomic.failure lost.1 flightSlot
  rw [lost.2] at kept
  exact arrivedPage_taken kept.symm

end S3kMonitor
