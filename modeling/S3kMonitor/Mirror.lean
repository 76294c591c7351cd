import S3kMonitor.CapmanCalls

namespace S3kMonitor

/-!
# The mirror follows the kernel

The functions of `capman.c` that change a slot, as operations that can be
performed one after the other, and the agreement of the mirror with the
kernel that they are meant to keep.
-/

/-- The mirror shows what the kernel holds. -/
def Mirrored (world : World) : Prop :=
  ∀ slot, slot < ncap → world.caps slot = world.getcap slot

/-- The functions of the capability manager that change anything. -/
inductive CapmanOp where
  | move (src dst : Nat)
  | delcap (idx : Nat)
  | derivePmp (idx : Nat) (start stop rwx : Word)
  | deriveMem (idx : Nat) (start stop rwx : Word)
  | deriveTime (idx : Nat) (hartid start stop : Word)
  | deriveSocket (idx : Nat) (port tag : Word)
  | updatePmp (idx : Nat) (start stop rwx : Word)
  | mgivecap (pid src dest : Nat)
  | mtakecap (pid src dest : Nat)
deriving DecidableEq

namespace CapmanOp

/-- The slots of the monitor that an operation names. -/
def slots : CapmanOp → List Nat
  | .move src dst => [src, dst]
  | .delcap idx => [idx]
  | .derivePmp idx _ _ _ => [idx]
  | .deriveMem idx _ _ _ => [idx]
  | .deriveTime idx _ _ _ => [idx]
  | .deriveSocket idx _ _ => [idx]
  | .updatePmp idx _ _ _ => [idx]
  | .mgivecap _ src _ => [src]
  | .mtakecap _ _ dest => [dest]

/-- All slots that it names are in the table. -/
def InRange (op : CapmanOp) : Prop :=
  ∀ slot ∈ op.slots, slot < ncap

instance (op : CapmanOp) : Decidable op.InRange :=
  inferInstanceAs (Decidable (∀ slot ∈ op.slots, slot < ncap))

/-- What the function does. -/
def run (s3k : S3k) (world : World) : CapmanOp → World
  | .move src dst => (capmanMove s3k src dst world).2
  | .delcap idx => (capmanDelcap s3k idx world).2
  | .derivePmp idx start stop rwx =>
      (capmanDerivePmp s3k idx start stop rwx world).2
  | .deriveMem idx start stop rwx =>
      (capmanDeriveMem s3k idx start stop rwx world).2
  | .deriveTime idx hartid start stop =>
      (capmanDeriveTime s3k idx hartid start stop world).2
  | .deriveSocket idx port tag =>
      (capmanDeriveSocket s3k idx port tag world).2
  | .updatePmp idx start stop rwx =>
      (capmanUpdatePmp s3k idx start stop rwx world).2
  | .mgivecap pid src dest => (capmanMgivecap s3k pid src dest world).2
  | .mtakecap pid src dest => (capmanMtakecap s3k pid src dest world).2

end CapmanOp

/-- One after the other. -/
def runOps (s3k : S3k) (ops : List CapmanOp) (world : World) : World :=
  ops.foldl (CapmanOp.run s3k) world

/-- The monitor right after `capman_init`, with nothing on record yet. -/
def afterInit (kernel : Kernel) (caps : Nat → Cap) (mem : Memory) : World :=
  capmanInit { kernel := kernel, caps := caps, mem := mem, trace := [] }

/--
The two answers of the kernel that the functions do not follow: a refused
deletion, and capabilities that go from the monitor to the monitor itself.
-/
def Followed (s3k : S3k) : Event → Prop
  | .called (.delcap _) excpt => excpt = s3k.excptNone
  | .called (.mgivecap _ pid _ _) excpt =>
      excpt = s3k.excptNone → pid ≠ monitorPid
  | .called (.mtakecap _ pid _ _) excpt =>
      excpt = s3k.excptNone → pid ≠ monitorPid
  | _ => True

variable
  {s3k : S3k}
  {world : World}

/-- Re-reading everything makes the mirror right. -/
theorem mirrored_capmanUpdate (world : World) :
    Mirrored (capmanUpdate world) := by
  intro slot inRange
  simp only [World.getcap, capmanUpdate_kernel]
  exact capmanUpdate_caps world inRange

/-- So `capman_init` does. -/
theorem mirrored_capmanInit (world : World) :
    Mirrored (capmanInit world) :=
  mirrored_capmanUpdate world

section Steps

variable (mirrored : Mirrored world)
include mirrored

/-- A call that fails changes neither side. -/
theorem Mirrored.call_failed
    {kernelCall : KernelCall}
    (failed : (world.call s3k kernelCall).1 ≠ s3k.excptNone) :
    Mirrored (world.call s3k kernelCall).2 := by
  intro slot inRange
  rw [World.call_caps, World.getcap, World.call_kernel_of_failed failed]
  exact mirrored slot inRange

/-- `capman_move` keeps the mirror right. -/
theorem capmanMove_mirrored
    {src dst : Nat}
    (srcInRange : src < ncap) :
    Mirrored (capmanMove s3k src dst world).2 := by
  unfold capmanMove
  split
  · exact mirrored
  · next guard =>
    obtain ⟨srcTaken, dstFree⟩ := not_or.mp guard
    dsimp only
    split
    · next ok =>
      have apart : dst ≠ src := by
        rintro rfl
        exact dstFree srcTaken
      intro slot inRange
      have srcMirrored := mirrored src srcInRange
      have slotMirrored := mirrored slot inRange
      simp only [World.getcap] at srcMirrored slotMirrored
      simp only [World.getcap, World.setCap_caps, World.setCap_kernel,
        World.call_kernel_of_ok ok, World.call_caps, KernelCall.effect,
        Kernel.move_table, true_and, srcMirrored, slotMirrored]
      by_cases isSrc : slot = src
      · rw [if_pos isSrc, if_neg (isSrc ▸ apart.symm), if_pos isSrc]
      · rw [if_neg isSrc, if_neg isSrc]
    · next failed =>
      exact mirrored.call_failed failed

/-- The deletion of a slot is followed if the kernel performs it. -/
theorem capmanDelcap_mirrored
    {idx : Nat}
    (followed :
      ∀ event ∈ (capmanDelcap s3k idx world).2.trace, Followed s3k event) :
    Mirrored (capmanDelcap s3k idx world).2 := by
  unfold capmanDelcap at followed ⊢
  split at followed
  · next taken =>
    rw [if_pos taken]
    have ok : (world.call s3k (.delcap idx)).1 = s3k.excptNone :=
      followed (.called (.delcap idx) _) List.mem_cons_self
    intro slot inRange
    have slotMirrored := mirrored slot inRange
    simp only [World.getcap] at slotMirrored
    simp only [World.getcap, World.setCap_caps, World.setCap_kernel,
      World.call_kernel_of_ok ok, World.call_caps, KernelCall.effect,
      Kernel.set_table, true_and, slotMirrored]
  · next free =>
    rw [if_neg free]
    exact mirrored

/-- A derivation re-reads the two slots that it changes. -/
theorem deriveFrom_mirrored (i : Int) (idx : Nat) (cap : Cap) :
    Mirrored (deriveFrom s3k i idx cap world).2 := by
  unfold deriveFrom
  dsimp only
  split
  · next ok =>
    intro slot inRange
    have slotMirrored := mirrored slot inRange
    simp only [World.getcap] at slotMirrored
    simp only [World.getcap, World.reread_caps, World.reread_kernel,
      World.call_kernel_of_ok ok, World.call_caps, KernelCall.effect,
      Kernel.set_table, true_and, slotMirrored]
    by_cases isChild : slot = idx
    · simp [isChild]
    · by_cases isParent : slot = toIndex i
      · subst isParent
        simp [isChild]
      · simp [isChild, isParent]
  · next failed =>
    exact mirrored.call_failed failed

/-- `capman_derive_pmp` keeps it right. -/
theorem capmanDerivePmp_mirrored (idx : Nat) (start stop rwx : Word) :
    Mirrored (capmanDerivePmp s3k idx start stop rwx world).2 := by
  unfold capmanDerivePmp
  dsimp only
  split
  · exact mirrored
  · exact deriveFrom_mirrored mirrored _ _ _

/-- So does `capman_derive_mem`. -/
theorem capmanDeriveMem_mirrored (idx : Nat) (start stop rwx : Word) :
    Mirrored (capmanDeriveMem s3k idx start stop rwx world).2 := by
  unfold capmanDeriveMem
  dsimp only
  split
  · exact mirrored
  · exact deriveFrom_mirrored mirrored _ _ _

/-- So does `capman_derive_time`. -/
theorem capmanDeriveTime_mirrored (idx : Nat) (hartid start stop : Word) :
    Mirrored (capmanDeriveTime s3k idx hartid start stop world).2 := by
  unfold capmanDeriveTime
  dsimp only
  split
  · exact mirrored
  · exact deriveFrom_mirrored mirrored _ _ _

/-- So does `capman_derive_socket`. -/
theorem capmanDeriveSocket_mirrored (idx : Nat) (port tag : Word) :
    Mirrored (capmanDeriveSocket s3k idx port tag world).2 :=
  deriveFrom_mirrored mirrored _ _ _

/-- `capman_mgivecap` does, if it re-reads what it has given away. -/
theorem capmanMgivecap_mirrored
    {pid src dest : Nat}
    (followed :
      ∀ event ∈ (capmanMgivecap s3k pid src dest world).2.trace,
        Followed s3k event) :
    Mirrored (capmanMgivecap s3k pid src dest world).2 := by
  unfold capmanMgivecap at followed ⊢
  dsimp only at followed ⊢
  split
  · exact mirrored
  · next found =>
    rw [if_neg found] at followed
    split
    · next returned =>
      have ok := returned.trans s3k.captyNone_eq
      rw [if_pos returned] at followed
      have otherPid : monitorPid ≠ pid :=
        (followed (.called (.mgivecap _ pid src dest) _)
          List.mem_cons_self ok).symm
      intro slot inRange
      have slotMirrored := mirrored slot inRange
      simp only [World.getcap] at slotMirrored
      simp only [World.getcap, World.setCap_caps, World.setCap_kernel,
        World.call_kernel_of_ok ok, World.call_caps, KernelCall.effect,
        Kernel.move_table, otherPid, false_and, if_false, true_and,
        slotMirrored]
    · next returned =>
      exact mirrored.call_failed (s3k.captyNone_eq ▸ returned)

/-- `capman_mtakecap` does, if it re-reads what it has taken. -/
theorem capmanMtakecap_mirrored
    {pid src dest : Nat}
    (followed :
      ∀ event ∈ (capmanMtakecap s3k pid src dest world).2.trace,
        Followed s3k event) :
    Mirrored (capmanMtakecap s3k pid src dest world).2 := by
  unfold capmanMtakecap at followed ⊢
  dsimp only at followed ⊢
  split
  · exact mirrored
  · next found =>
    rw [if_neg found] at followed
    split
    · next returned =>
      have ok := returned.trans s3k.captyNone_eq
      rw [if_pos returned] at followed
      have otherPid : monitorPid ≠ pid :=
        (followed (.called (.mtakecap _ pid src dest) _)
          List.mem_cons_self ok).symm
      intro slot inRange
      have slotMirrored := mirrored slot inRange
      simp only [World.getcap] at slotMirrored
      simp only [World.getcap, World.reread_caps, World.reread_kernel,
        World.call_kernel_of_ok ok, World.call_caps, KernelCall.effect,
        Kernel.move_table, otherPid, false_and, if_false, true_and,
        slotMirrored]
      by_cases isDest : slot = dest
      · simp [isDest]
      · simp [isDest]
    · next returned =>
      exact mirrored.call_failed (s3k.captyNone_eq ▸ returned)

/-- `capman_update_pmp` does, if its calls are followed. -/
theorem capmanUpdatePmp_mirrored
    {idx : Nat}
    {start stop rwx : Word}
    (followed :
      ∀ event ∈ (capmanUpdatePmp s3k idx start stop rwx world).2.trace,
        Followed s3k event) :
    Mirrored (capmanUpdatePmp s3k idx start stop rwx world).2 := by
  rcases capmanFindFree_cases world with
    ⟨tidx, tidxInRange, -, found⟩ | ⟨notFound, -⟩
  · have slotFound : ¬ capmanFindFree world = -1 := by
      omega
    unfold capmanUpdatePmp at followed ⊢
    simp only [if_neg slotFound] at followed ⊢
    rw [found, toIndex_slot tidxInRange] at followed ⊢
    have derived :
        Mirrored (capmanDerivePmp s3k tidx start stop rwx world).2 :=
      capmanDerivePmp_mirrored mirrored tidx start stop rwx
    split
    · exact derived
    · next derivedOk =>
      rw [if_neg derivedOk] at followed
      split
      · next notDeleted =>
        rw [if_pos notDeleted] at followed
        exact capmanDelcap_mirrored derived followed
      · next deletedOk =>
        rw [if_neg deletedOk] at followed
        have deleted :
            Mirrored (capmanDelcap s3k idx
              (capmanDerivePmp s3k tidx start stop rwx world).2).2 := by
          apply capmanDelcap_mirrored derived
          intro event member
          have kept :
              event ∈ (capmanMove s3k tidx idx (capmanDelcap s3k idx
                (capmanDerivePmp s3k tidx start stop rwx world).2).2
                  ).2.trace :=
            (capmanMove_makes _ tidx idx).trace_subset member
          split at followed
          · exact followed event kept
          · exact followed event kept
        split
        · exact capmanMove_mirrored deleted tidxInRange
        · exact capmanMove_mirrored deleted tidxInRange
  · unfold capmanUpdatePmp
    simp only [if_pos notFound]
    exact mirrored

/-- One operation keeps the mirror if the kernel's answers are followed. -/
theorem CapmanOp.run_mirrored
    {op : CapmanOp}
    (inRange : op.InRange)
    (followed : ∀ event ∈ (op.run s3k world).trace, Followed s3k event) :
    Mirrored (op.run s3k world) := by
  cases op with
  | move src dst =>
      exact capmanMove_mirrored mirrored (inRange src (by simp [slots]))
  | delcap idx =>
      exact capmanDelcap_mirrored mirrored followed
  | derivePmp idx start stop rwx =>
      exact capmanDerivePmp_mirrored mirrored idx start stop rwx
  | deriveMem idx start stop rwx =>
      exact capmanDeriveMem_mirrored mirrored idx start stop rwx
  | deriveTime idx hartid start stop =>
      exact capmanDeriveTime_mirrored mirrored idx hartid start stop
  | deriveSocket idx port tag =>
      exact capmanDeriveSocket_mirrored mirrored idx port tag
  | updatePmp idx start stop rwx =>
      exact capmanUpdatePmp_mirrored mirrored followed
  | mgivecap pid src dest =>
      exact capmanMgivecap_mirrored mirrored followed
  | mtakecap pid src dest =>
      exact capmanMtakecap_mirrored mirrored followed

end Steps

/-- An operation forgets nothing of what has happened. -/
theorem CapmanOp.trace_subset
    (op : CapmanOp)
    (world : World) :
    world.trace ⊆ (op.run s3k world).trace := by
  cases op with
  | move src dst =>
      exact (capmanMove_makes world src dst).trace_subset
  | delcap idx =>
      exact (capmanDelcap_makes world idx).trace_subset
  | derivePmp idx start stop rwx =>
      exact (capmanDerivePmp_makes world idx start stop rwx).trace_subset
  | deriveMem idx start stop rwx =>
      exact (capmanDeriveMem_makes world idx start stop rwx).trace_subset
  | deriveTime idx hartid start stop =>
      exact (capmanDeriveTime_makes world idx hartid start stop).trace_subset
  | deriveSocket idx port tag =>
      exact (capmanDeriveSocket_makes world idx port tag).trace_subset
  | updatePmp idx start stop rwx =>
      rcases capmanUpdatePmp_makes world idx start stop rwx with
        nothing | ⟨_, _, _, makes⟩
      · rw [run, nothing]
        exact List.Subset.refl _
      · exact makes.trace_subset
  | mgivecap pid src dest =>
      exact (capmanMgivecap_makes world pid src dest).trace_subset
  | mtakecap pid src dest =>
      exact (capmanMtakecap_makes world pid src dest).trace_subset

/-- Nothing disappears from the trace of a sequence. -/
theorem runOps_trace_subset
    (ops : List CapmanOp)
    (world : World) :
    world.trace ⊆ (runOps s3k ops world).trace := by
  induction ops generalizing world with
  | nil =>
      exact List.Subset.refl _
  | cons op ops inductionHypothesis =>
      exact List.Subset.trans (op.trace_subset world)
        (inductionHypothesis (op.run s3k world))

/-- A sequence of functions whose calls are followed keeps the mirror right. -/
theorem runOps_mirrored
    {ops : List CapmanOp}
    (mirrored : Mirrored world)
    (inRange : ∀ op ∈ ops, op.InRange)
    (followed : ∀ event ∈ (runOps s3k ops world).trace, Followed s3k event) :
    Mirrored (runOps s3k ops world) := by
  induction ops generalizing world with
  | nil =>
      exact mirrored
  | cons op ops inductionHypothesis =>
      refine inductionHypothesis ?_
        (fun later member => inRange later (List.mem_cons_of_mem _ member))
        followed
      apply op.run_mirrored mirrored (inRange op List.mem_cons_self)
      intro event member
      exact followed event (runOps_trace_subset ops _ member)

/--
After every sequence of operations the mirror shows what the kernel holds,
provided that the kernel performed every deletion and that no capability went
from the monitor to the monitor itself.
-/
theorem runOps_afterInit_mirrored
    (s3k : S3k)
    (kernel : Kernel)
    (caps : Nat → Cap)
    (mem : Memory)
    (ops : List CapmanOp)
    (inRange : ∀ op ∈ ops, op.InRange)
    (followed :
      ∀ event ∈ (runOps s3k ops (afterInit kernel caps mem)).trace,
        Followed s3k event) :
    Mirrored (runOps s3k ops (afterInit kernel caps mem)) :=
  runOps_mirrored (mirrored_capmanInit _) inRange followed

/-- One capability of the monitor in slot `slot`, and no other one. -/
def onlyCap (slot : Nat) (cap : Cap) : Kernel where
  table pid other := if pid = monitorPid ∧ other = slot then cap else .none
  reg _ _ := 0

/-- A slot is deleted and a socket derived from the channel in another one. -/
theorem runOps_delcap_deriveSocket_mirrored :
    let s3k := S3k.generous fun _ _ => false
    let kernel := (onlyCap 4 (.time 1 0 32 0)).set monitorPid 8
      (.channel 0 2 0)
    Mirrored
      (runOps s3k [.delcap 4, .deriveSocket 4 0 1]
        (afterInit kernel (fun _ => .none) fun _ => 0)) := by
  apply runOps_afterInit_mirrored
  · decide
  · have events :
        (runOps (S3k.generous fun _ _ => false)
          [.delcap 4, .deriveSocket 4 0 1]
          (afterInit ((onlyCap 4 (.time 1 0 32 0)).set monitorPid 8
            (.channel 0 2 0)) (fun _ => .none) fun _ => 0)).trace =
          [.called (.drvcap 8 4 (.socket 0 1)) 0, .called (.delcap 4) 0] := by
      decide +kernel
    rw [events]
    simp [Followed, S3k.generous]

/-- The mirror forgets a capability whose deletion the kernel refused. -/
theorem runOps_refused_delcap_not_mirrored :
    ¬ ∀ (s3k : S3k) (kernel : Kernel) (caps : Nat → Cap) (mem : Memory)
        (ops : List CapmanOp),
        (∀ op ∈ ops, op.InRange) →
        Mirrored (runOps s3k ops (afterInit kernel caps mem)) := by
  intro always
  have mirrored :=
    always (S3k.generous fun _ call => call = .delcap 4)
      (onlyCap 4 (.time 1 0 32 0)) (fun _ => .none) (fun _ => 0)
      [.delcap 4] (by decide) 4 (by decide)
  have forgotten :
      (runOps (S3k.generous fun _ call => call = .delcap 4) [.delcap 4]
        (afterInit (onlyCap 4 (.time 1 0 32 0)) (fun _ => .none)
          fun _ => 0)).caps 4 = .none := by
    decide +kernel
  have kept :
      (runOps (S3k.generous fun _ call => call = .delcap 4) [.delcap 4]
        (afterInit (onlyCap 4 (.time 1 0 32 0)) (fun _ => .none)
          fun _ => 0)).getcap 4 = .time 1 0 32 0 := by
    decide +kernel
  rw [forgotten, kept] at mirrored
  cases mirrored

end S3kMonitor
