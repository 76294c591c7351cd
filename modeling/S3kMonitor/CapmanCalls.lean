import S3kMonitor.Capman

namespace S3kMonitor

open Runs

/-!
# Which kernel calls a function makes

Every function of `capman.c` is a sequence of kernel calls and assignments to
the mirror.  `Makes` says that some such sequence, with calls of a given kind
only, leads from one state to another.  What a kind of call preserves, the
functions that make only such calls preserve.
-/

/-- A kernel call, or an assignment to the mirror of the capabilities. -/
inductive Action where
  | call (kernelCall : KernelCall)
  | assign (slot : Nat) (cap : Cap)

/-- An assignment is always allowed, a call if it is of the given kind. -/
def Action.Allowed (allowed : KernelCall → Prop) : Action → Prop
  | .call kernelCall => allowed kernelCall
  | .assign _ _ => True

/-- What an action does to the world. -/
def World.act (s3k : S3k) (world : World) : Action → World
  | .call kernelCall => (world.call s3k kernelCall).2
  | .assign slot cap => world.setCap slot cap

/-- The second world comes from the first by allowed actions only. -/
def Makes
    (s3k : S3k)
    (allowed : KernelCall → Prop)
    (first second : World) :
    Prop :=
  Within (fun action world next => next = world.act s3k action)
    (Action.Allowed allowed) first second

variable
  {s3k : S3k}
  {allowed wider : KernelCall → Prop}
  {first second third : World}

namespace Makes

/-- No action at all is allowed. -/
theorem refl (world : World) :
    Makes s3k allowed world world :=
  Within.refl world

/-- One sequence of actions after the other. -/
theorem trans
    (head : Makes s3k allowed first second)
    (tail : Makes s3k allowed second third) :
    Makes s3k allowed first third :=
  Within.trans head tail

/-- What is allowed here may be allowed elsewhere too. -/
theorem mono
    (weaker : ∀ kernelCall, allowed kernelCall → wider kernelCall)
    (makes : Makes s3k allowed first second) :
    Makes s3k wider first second := by
  apply Within.mono _ makes
  intro action isAllowed
  cases action with
  | call kernelCall =>
      exact weaker kernelCall isAllowed
  | assign slot cap =>
      trivial

/-- A single call. -/
theorem call
    {kernelCall : KernelCall}
    (isAllowed : allowed kernelCall)
    (world : World) :
    Makes s3k allowed world (world.call s3k kernelCall).2 :=
  Within.single (.call kernelCall) isAllowed rfl

/-- A single assignment. -/
theorem setCap (world : World) (slot : Nat) (cap : Cap) :
    Makes s3k allowed world (world.setCap slot cap) :=
  Within.single (.assign slot cap) trivial rfl

/-- Re-reading a slot is an assignment. -/
theorem reread (world : World) (slot : Nat) :
    Makes s3k allowed world (world.reread slot) :=
  setCap world slot _

/-- What every allowed call preserves of the kernel. -/
theorem kernel_invariant
    (invariant : Kernel → Prop)
    (preserved :
      ∀ kernelCall kernel,
        allowed kernelCall →
        invariant kernel →
        invariant (kernelCall.effect s3k.derived kernel))
    (makes : Makes s3k allowed first second)
    (start : invariant first.kernel) :
    invariant second.kernel := by
  refine Within.invariant (fun world => invariant world.kernel)
    ?_ makes start
  rintro action world next isAllowed rfl holds
  cases action with
  | call kernelCall =>
      by_cases ok : (world.call s3k kernelCall).1 = s3k.excptNone
      · simp only [World.act, World.call_kernel_of_ok ok]
        exact preserved kernelCall world.kernel isAllowed holds
      · simp only [World.act, World.call_kernel_of_failed ok]
        exact holds
  | assign slot cap =>
      exact holds

/-- No action writes to memory. -/
theorem mem_eq
    (makes : Makes s3k allowed first second) :
    second.mem = first.mem := by
  refine Within.invariant (fun world => world.mem = first.mem)
    ?_ makes rfl
  rintro action world next _ rfl same
  cases action with
  | call kernelCall =>
      exact same
  | assign slot cap =>
      exact same

/-- Nothing that has happened is forgotten, and all that is new is allowed. -/
theorem trace_append
    (makes : Makes s3k allowed first second) :
    ∃ later,
      second.trace = later ++ first.trace ∧
        ∀ event ∈ later,
          ∃ kernelCall excpt,
            allowed kernelCall ∧ event = .called kernelCall excpt := by
  refine Within.invariant
    (fun world => ∃ later,
      world.trace = later ++ first.trace ∧
        ∀ event ∈ later,
          ∃ kernelCall excpt,
            allowed kernelCall ∧ event = .called kernelCall excpt)
    ?_ makes ⟨[], rfl, by simp⟩
  rintro action world next isAllowed rfl ⟨later, append, known⟩
  cases action with
  | call kernelCall =>
      refine ⟨.called kernelCall _ :: later, congrArg (_ :: ·) append, ?_⟩
      exact List.forall_mem_cons.mpr ⟨⟨kernelCall, _, isAllowed, rfl⟩, known⟩
  | assign slot cap =>
      exact ⟨later, append, known⟩

/-- Nothing disappears from the trace. -/
theorem trace_subset
    (makes : Makes s3k allowed first second) :
    first.trace ⊆ second.trace := by
  obtain ⟨later, append, -⟩ := makes.trace_append
  rw [append]
  exact List.subset_append_right _ _

/-- All that happens are allowed calls. -/
theorem event_cases
    (makes : Makes s3k allowed first second)
    {event : Event}
    (member : event ∈ second.trace) :
    event ∈ first.trace ∨
      ∃ kernelCall excpt,
        allowed kernelCall ∧ event = .called kernelCall excpt := by
  obtain ⟨later, append, known⟩ := makes.trace_append
  rw [append] at member
  rcases List.mem_append.mp member with isNew | isOld
  · exact Or.inr (known event isNew)
  · exact Or.inl isOld

end Makes

section Functions

variable (world : World)

/-- `capman_update` only re-reads. -/
theorem capmanUpdate_makes :
    Makes s3k allowed world (capmanUpdate world) := by
  unfold capmanUpdate
  induction slotsUp generalizing world with
  | nil =>
      exact Makes.refl world
  | cons slot slots inductionHypothesis =>
      exact (Makes.reread world slot).trans
        (inductionHypothesis (world.reread slot))

/-- `capman_move` makes its one call. -/
theorem capmanMove_makes (src dst : Nat) :
    Makes s3k (· = .movcap src dst) world
      (capmanMove s3k src dst world).2 := by
  have called :
      Makes s3k (· = .movcap src dst) world
        (world.call s3k (.movcap src dst)).2 :=
    Makes.call (by rfl) world
  unfold capmanMove
  split
  · exact Makes.refl world
  · dsimp only
    split
    · exact (called.trans (Makes.setCap _ _ _)).trans (Makes.setCap _ _ _)
    · exact called

/-- `capman_delcap` makes its one call. -/
theorem capmanDelcap_makes (idx : Nat) :
    Makes s3k (· = .delcap idx) world (capmanDelcap s3k idx world).2 := by
  have called :
      Makes s3k (· = .delcap idx) world
        (world.call s3k (.delcap idx)).2 :=
    Makes.call (by rfl) world
  unfold capmanDelcap
  split
  · exact called.trans (Makes.setCap _ _ _)
  · exact Makes.refl world

/-- A derivation from the slot that was found is one call. -/
theorem deriveFrom_makes (i : Int) (idx : Nat) (cap : Cap) :
    Makes s3k (· = .drvcap (toIndex i) idx cap) world
      (deriveFrom s3k i idx cap world).2 := by
  have called :
      Makes s3k (· = .drvcap (toIndex i) idx cap) world
        (world.call s3k (.drvcap (toIndex i) idx cap)).2 :=
    Makes.call (by rfl) world
  unfold deriveFrom
  dsimp only
  split
  · exact (called.trans (Makes.reread _ _)).trans (Makes.reread _ _)
  · exact called

/-- A derivation is one kernel call. -/
theorem deriveFrom_trace (i : Int) (idx : Nat) (cap : Cap) :
    (deriveFrom s3k i idx cap world).2.trace =
      .called (.drvcap (toIndex i) idx cap)
          (s3k.excpt world.trace (.drvcap (toIndex i) idx cap)) ::
        world.trace := by
  unfold deriveFrom
  dsimp only
  split <;> rfl

/-- The derivations of the capability `cap` into slot `idx`. -/
def Derives (idx : Nat) (cap : Cap) (kernelCall : KernelCall) : Prop :=
  ∃ orig, kernelCall = .drvcap orig idx cap

/-- A derivation is one of the named capability into the named slot. -/
theorem deriveFrom_makes_derives (i : Int) (idx : Nat) (cap : Cap) :
    Makes s3k (Derives idx cap) world (deriveFrom s3k i idx cap world).2 :=
  (deriveFrom_makes world i idx cap).mono fun _ same => ⟨_, same⟩

/-- `capman_derive_pmp` makes its call for a NAPOT region only. -/
theorem capmanDerivePmp_makes (idx : Nat) (start stop rwx : Word) :
    Makes s3k
      (fun kernelCall =>
        Napot start stop ∧
          Derives idx (s3k.pmp (s3kPmpNapotAddr start stop) rwx) kernelCall)
      world
      (capmanDerivePmp s3k idx start stop rwx world).2 := by
  unfold capmanDerivePmp
  dsimp only
  split
  · exact Makes.refl world
  · next napot =>
    have isNapot : Napot start stop := by
      simpa [Napot] using napot
    exact (deriveFrom_makes_derives world _ idx _).mono
      fun _ derives => ⟨isNapot, derives⟩

/-- `capman_derive_mem` derives into the named slot. -/
theorem capmanDeriveMem_makes (idx : Nat) (start stop rwx : Word) :
    Makes s3k (fun kernelCall => ∃ cap, Derives idx cap kernelCall) world
      (capmanDeriveMem s3k idx start stop rwx world).2 := by
  unfold capmanDeriveMem
  dsimp only
  split
  · exact Makes.refl world
  · exact (deriveFrom_makes_derives world _ idx _).mono
      fun _ derives => ⟨_, derives⟩

/-- `capman_derive_time` derives the time slice that it is asked for. -/
theorem capmanDeriveTime_makes (idx : Nat) (hartid start stop : Word) :
    Makes s3k (Derives idx (s3k.time hartid start stop)) world
      (capmanDeriveTime s3k idx hartid start stop world).2 := by
  unfold capmanDeriveTime
  dsimp only
  split
  · exact Makes.refl world
  · exact deriveFrom_makes_derives world _ idx _

/-- `capman_derive_socket` derives the socket that it is asked for. -/
theorem capmanDeriveSocket_makes (idx : Nat) (port tag : Word) :
    Makes s3k (Derives idx (s3k.socket port tag)) world
      (capmanDeriveSocket s3k idx port tag world).2 :=
  deriveFrom_makes_derives world _ idx _

/-- The gives of slot `src` to slot `dest` of process `pid`. -/
def Gives (pid src dest : Nat) (kernelCall : KernelCall) : Prop :=
  ∃ moncap, kernelCall = .mgivecap moncap pid src dest

/-- `capman_mgivecap` gives to the process that it is asked for. -/
theorem capmanMgivecap_makes (pid src dest : Nat) :
    Makes s3k (Gives pid src dest) world
      (capmanMgivecap s3k pid src dest world).2 := by
  have called : Makes s3k (Gives pid src dest) world _ :=
    Makes.call ⟨toIndex (capmanFindMonitor world pid), rfl⟩ world
  unfold capmanMgivecap
  dsimp only
  split
  · exact Makes.refl world
  · split
    · exact called.trans (Makes.setCap _ _ _)
    · exact called

/-- The takes of slot `src` of process `pid` into slot `dest`. -/
def Takes (pid src dest : Nat) (kernelCall : KernelCall) : Prop :=
  ∃ moncap, kernelCall = .mtakecap moncap pid src dest

/-- `capman_mtakecap` takes from the process that it is asked for. -/
theorem capmanMtakecap_makes (pid src dest : Nat) :
    Makes s3k (Takes pid src dest) world
      (capmanMtakecap s3k pid src dest world).2 := by
  have called : Makes s3k (Takes pid src dest) world _ :=
    Makes.call ⟨toIndex (capmanFindMonitor world pid), rfl⟩ world
  unfold capmanMtakecap
  dsimp only
  split
  · exact Makes.refl world
  · split
    · exact called.trans (Makes.reread _ _)
    · exact called

/-- `capman_msetreg` sets the register that it is asked for. -/
theorem capmanMsetreg_makes (pid : Nat) (reg : Reg) (val : Word) :
    Makes s3k (fun kernelCall => ∃ moncap,
        kernelCall = .msetreg moncap pid reg val)
      world (capmanMsetreg s3k pid reg val world).2 := by
  unfold capmanMsetreg
  dsimp only
  split
  · exact Makes.refl world
  · exact Makes.call ⟨_, rfl⟩ world

/-- `capman_mresume` resumes the process that it is asked for. -/
theorem capmanMresume_makes (pid : Nat) :
    Makes s3k (fun kernelCall => ∃ moncap, kernelCall = .mresume moncap pid)
      world (capmanMresume s3k pid world).2 := by
  unfold capmanMresume
  dsimp only
  split
  · exact Makes.refl world
  · exact Makes.call ⟨_, rfl⟩ world

/-- The calls of `capman_update_pmp` once it has chosen the slot `tidx`. -/
def UpdatePmpCall
    (s3k : S3k)
    (tidx idx : Nat)
    (start stop rwx : Word)
    (kernelCall : KernelCall) :
    Prop :=
  Napot start stop ∧
      Derives tidx (s3k.pmp (s3kPmpNapotAddr start stop) rwx) kernelCall ∨
    kernelCall = .delcap idx ∨
    kernelCall = .movcap tidx idx

/--
`capman_update_pmp` does nothing, or works in a slot that the mirror shows
as free.
-/
theorem capmanUpdatePmp_makes (idx : Nat) (start stop rwx : Word) :
    capmanUpdatePmp s3k idx start stop rwx world = (1, world) ∨
      ∃ tidx, tidx < ncap ∧ world.caps tidx = .none ∧
        Makes s3k (UpdatePmpCall s3k tidx idx start stop rwx) world
          (capmanUpdatePmp s3k idx start stop rwx world).2 := by
  rcases capmanFindFree_cases world with
    ⟨tidx, inRange, isFree, found⟩ | ⟨notFound, -⟩
  · refine Or.inr ⟨tidx, inRange, isFree, ?_⟩
    have slotFound : ¬ capmanFindFree world = -1 := by
      omega
    have derivation :
        Makes s3k (UpdatePmpCall s3k tidx idx start stop rwx) world
          (capmanDerivePmp s3k tidx start stop rwx world).2 :=
      (capmanDerivePmp_makes world tidx start stop rwx).mono
        fun _ derives => Or.inl derives
    have deletion (next : World) :
        Makes s3k (UpdatePmpCall s3k tidx idx start stop rwx) next
          (capmanDelcap s3k idx next).2 :=
      (capmanDelcap_makes next idx).mono
        fun _ same => Or.inr (Or.inl same)
    have movement (next : World) :
        Makes s3k (UpdatePmpCall s3k tidx idx start stop rwx) next
          (capmanMove s3k tidx idx next).2 :=
      (capmanMove_makes next tidx idx).mono
        fun _ same => Or.inr (Or.inr same)
    unfold capmanUpdatePmp
    simp only [if_neg slotFound]
    rw [found, toIndex_slot inRange]
    split
    · exact derivation
    · split
      · exact derivation.trans (deletion _)
      · split
        · exact (derivation.trans (deletion _)).trans (movement _)
        · exact (derivation.trans (deletion _)).trans (movement _)
  · left
    unfold capmanUpdatePmp
    simp only [if_pos notFound]

end Functions

end S3kMonitor
