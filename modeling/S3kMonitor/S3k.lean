import S3kMonitor.Napot

namespace S3kMonitor

/-!
# The interface of the kernel

The kernel s3k is not part of the repository.  `S3k` collects what the
sources use of it, together with the behaviour they rely on: a call that
names a slot that does not exist fails, a failing call changes nothing, and a
successful one changes only what its arguments name.  Nothing is assumed
about which calls succeed.

A capability is empty exactly when its `raw` word is 0, so a test of `raw`
and a test for `S3K_CAPTY_NONE` are the same test.
-/

/-- The types of capabilities. -/
inductive CapTy where
  | none
  | time
  | memory
  | pmp
  | monitor
  | channel
  | socket
deriving DecidableEq

/-- `union s3k_cap`, with the fields that `capman.c` names. -/
inductive Cap where
  | none
  | time (hartid start stop free : Word)
  | memory (start stop free offset lock rwx : Word)
  | pmp (addr cfg : Word)
  | monitor (start stop free : Word)
  | channel (start stop free : Word)
  | socket (channel tag : Word)
deriving DecidableEq

/-- The type of a capability. -/
def Cap.type : Cap → CapTy
  | .none => .none
  | .time .. => .time
  | .memory .. => .memory
  | .pmp .. => .pmp
  | .monitor .. => .monitor
  | .channel .. => .channel
  | .socket .. => .socket

/-- The empty slot alone has the type for nothing. -/
@[simp]
theorem Cap.type_eq_none_iff (cap : Cap) :
    cap.type = .none ↔ cap = .none := by
  cases cap <;> simp [Cap.type]

/-- A capability with the type of PMP is one. -/
theorem Cap.type_eq_pmp_iff (cap : Cap) :
    cap.type = .pmp ↔ ∃ addr cfg, cap = .pmp addr cfg := by
  cases cap <;> simp [Cap.type]

/-- The registers the monitor writes. -/
inductive Reg where
  | pc
  | pmp
deriving DecidableEq

/-- The capability slots and the registers of every process. -/
structure Kernel where
  table : Nat → Nat → Cap
  reg : Nat → Reg → Word

namespace Kernel

/-- The capability in one slot is another one. -/
def set (kernel : Kernel) (pid slot : Nat) (cap : Cap) : Kernel :=
  { kernel with
    table := fun otherPid otherSlot =>
      if otherPid = pid ∧ otherSlot = slot then cap
      else kernel.table otherPid otherSlot }

/-- The capability leaves one slot and appears in another one. -/
def move
    (kernel : Kernel)
    (srcPid src dstPid dst : Nat) :
    Kernel :=
  (kernel.set srcPid src .none).set dstPid dst (kernel.table srcPid src)

/-- A register of one process has another value. -/
def setReg (kernel : Kernel) (pid : Nat) (reg : Reg) (val : Word) : Kernel :=
  { kernel with
    reg := fun otherPid otherReg =>
      if otherPid = pid ∧ otherReg = reg then val
      else kernel.reg otherPid otherReg }

/-- No other slot is changed. -/
@[simp]
theorem set_table
    (kernel : Kernel)
    (pid slot : Nat)
    (cap : Cap)
    (otherPid otherSlot : Nat) :
    (kernel.set pid slot cap).table otherPid otherSlot =
      if otherPid = pid ∧ otherSlot = slot then cap
      else kernel.table otherPid otherSlot :=
  rfl

/-- A move empties its source and fills its target. -/
@[simp]
theorem move_table
    (kernel : Kernel)
    (srcPid src dstPid dst pid slot : Nat) :
    (kernel.move srcPid src dstPid dst).table pid slot =
      if pid = dstPid ∧ slot = dst then kernel.table srcPid src
      else if pid = srcPid ∧ slot = src then .none
      else kernel.table pid slot :=
  rfl

/-- Registers have no part in the capabilities. -/
@[simp]
theorem setReg_table
    (kernel : Kernel)
    (pid : Nat)
    (reg : Reg)
    (val : Word) :
    (kernel.setReg pid reg val).table = kernel.table :=
  rfl

/-- No other register is changed. -/
@[simp]
theorem setReg_reg
    (kernel : Kernel)
    (pid : Nat)
    (reg : Reg)
    (val : Word)
    (otherPid : Nat)
    (otherReg : Reg) :
    (kernel.setReg pid reg val).reg otherPid otherReg =
      if otherPid = pid ∧ otherReg = reg then val
      else kernel.reg otherPid otherReg :=
  rfl

end Kernel

/-- The four words of a message. -/
abbrev Words := Vector Word 4

/--
A kernel call with its arguments.  A call for IPC also carries what the other
process contributes: `recv` the words and the slot of the capability sent
with them, `send` the slot that takes the capability.  An index that names no
slot stands for no capability.
-/
inductive KernelCall where
  | movcap (src dst : Nat)
  | delcap (idx : Nat)
  | drvcap (orig idx : Nat) (cap : Cap)
  | setreg (reg : Reg) (val : Word)
  | mresume (moncap pid : Nat)
  | mgivecap (moncap pid src dst : Nat)
  | mtakecap (moncap pid src dst : Nat)
  | msetreg (moncap pid : Nat) (reg : Reg) (val : Word)
  | recv (sock capIdx : Nat) (words : Words) (source : Nat)
  | send (sock : Nat) (words : Words) (capIdx target : Nat)
deriving DecidableEq

/-- The slots of the caller that have to exist. -/
def KernelCall.slots : KernelCall → List Nat
  | .movcap src dst => [src, dst]
  | .delcap idx => [idx]
  | .drvcap orig idx _ => [orig, idx]
  | .mgivecap moncap _ src _ => [moncap, src]
  | .mtakecap moncap _ _ dst => [moncap, dst]
  | .mresume moncap _ => [moncap]
  | .msetreg moncap _ _ _ => [moncap]
  | .setreg .. => []
  | .recv sock _ _ _ => [sock]
  | .send sock _ _ _ => [sock]

/-- A capability changes hands if there is one and both slots exist. -/
def Kernel.transfer
    (kernel : Kernel)
    (srcPid src dstPid dst : Nat) :
    Kernel :=
  if src < ncap ∧ dst < ncap ∧ kernel.table srcPid src ≠ .none then
    kernel.move srcPid src dstPid dst
  else
    kernel

/-- What a successful call of the monitor does. -/
def KernelCall.effect
    (derived : Cap → Cap → Cap)
    (kernel : Kernel) :
    KernelCall → Kernel
  | .movcap src dst => kernel.move monitorPid src monitorPid dst
  | .delcap idx => kernel.set monitorPid idx .none
  | .drvcap orig idx cap =>
      (kernel.set monitorPid orig
        (derived (kernel.table monitorPid orig) cap)).set monitorPid idx cap
  | .setreg reg val => kernel.setReg monitorPid reg val
  | .mresume _ _ => kernel
  | .mgivecap _ pid src dst => kernel.move monitorPid src pid dst
  | .mtakecap _ pid src dst => kernel.move pid src monitorPid dst
  | .msetreg _ pid reg val => kernel.setReg pid reg val
  | .recv _ capIdx _ source =>
      kernel.transfer appPid source monitorPid capIdx
  | .send _ _ capIdx target =>
      kernel.transfer monitorPid capIdx appPid target

/-- What the monitor does that an observer can tell. -/
inductive Event where
  | called (call : KernelCall) (excpt : Int)
  | answered (cap : Cap) (code : Word)
  | loadApp
  | setupApp
deriving DecidableEq

/-- One kernel: its constants, its functions and the results of its calls. -/
structure S3k where
  excptNone : Int
  captyNone : Int
  /-- `capman.c` compares results of calls with either constant. -/
  captyNone_eq : captyNone = excptNone
  /-- The result of a call, which may depend on everything before it. -/
  excpt : List Event → KernelCall → Int
  excpt_ne :
    ∀ trace call slot,
      slot ∈ call.slots → ncap ≤ slot → excpt trace call ≠ excptNone
  memory : Word → Word → Word → Word → Cap
  time : Word → Word → Word → Cap
  time_type : ∀ hartid start stop, (time hartid start stop).type = .time
  socket : Word → Word → Cap
  socket_type : ∀ port tag, (socket port tag).type = .socket
  pmp : Word → Word → Cap
  pmp_eq :
    ∀ addr rwx, ∃ cfg, pmp addr rwx = .pmp addr cfg ∧ cfg &&& 7 = rwx &&& 7
  memoryDerive : Cap → Cap → Bool
  timeDerive : Cap → Cap → Bool
  channelDerive : Cap → Cap → Bool
  socketDerive : Cap → Cap → Bool
  /-- The parent after a derivation. -/
  derived : Cap → Cap → Cap
  /-- A derivation turns no parent into a PMP capability. -/
  derived_pmp :
    ∀ parent child addr cfg,
      derived parent child = .pmp addr cfg → parent = .pmp addr cfg

/--
A kernel that derives everything from a capability of the right type and
refuses the calls it is told to refuse.
-/
def S3k.generous (refuses : List Event → KernelCall → Bool) : S3k where
  excptNone := 0
  captyNone := 0
  captyNone_eq := rfl
  excpt trace call :=
    if call.slots.all (· < ncap) && !refuses trace call then 0 else 1
  excpt_ne trace call slot member tooLarge := by
    have bad : call.slots.all (· < ncap) = false := by
      rw [List.all_eq_false]
      exact ⟨slot, member, by simpa using tooLarge⟩
    simp [bad]
  memory start stop offset rwx := .memory start stop start offset 0 rwx
  time hartid start stop := .time hartid start stop start
  time_type _ _ _ := rfl
  socket port tag := .socket port tag
  socket_type _ _ := rfl
  pmp addr rwx := .pmp addr (rwx &&& 7)
  pmp_eq addr rwx := ⟨rwx &&& 7, rfl, by rw [BitVec.and_assoc]; rfl⟩
  memoryDerive parent _ := parent.type = .memory
  timeDerive parent _ := parent.type = .time
  channelDerive parent _ := parent.type = .channel
  socketDerive parent _ := parent.type = .socket
  derived parent _ := parent
  derived_pmp _ _ _ _ same := same

/--
The state the sources work on: the kernel, the mirror `caps` of the monitor's
slots, the memory, and what has happened, last event first.
-/
structure World where
  kernel : Kernel
  caps : Nat → Cap
  mem : Memory
  trace : List Event

namespace World

/-- A kernel call; the result is what the call returns. -/
def call (s3k : S3k) (call : KernelCall) (world : World) : Int × World :=
  let excpt := s3k.excpt world.trace call
  let kernel :=
    if excpt = s3k.excptNone then call.effect s3k.derived world.kernel
    else world.kernel
  (excpt,
    { world with
      kernel := kernel
      trace := .called call excpt :: world.trace })

/-- `s3k_getcap`. -/
def getcap (world : World) (slot : Nat) : Cap :=
  world.kernel.table monitorPid slot

/-- Assignment to one entry of the mirror. -/
def setCap (world : World) (slot : Nat) (cap : Cap) : World :=
  { world with
    caps := fun other => if other = slot then cap else world.caps other }

/-- `caps[slot] = s3k_getcap(slot)`. -/
def reread (world : World) (slot : Nat) : World :=
  world.setCap slot (world.getcap slot)

variable
  (s3k : S3k)
  (kernelCall : KernelCall)
  (world : World)

/-- The kernel does not touch the mirror in the process. -/
@[simp]
theorem call_caps : (world.call s3k kernelCall).2.caps = world.caps :=
  rfl

/-- It does not write to memory. -/
@[simp]
theorem call_mem : (world.call s3k kernelCall).2.mem = world.mem :=
  rfl

/-- What the call returns depends on the trace so far. -/
theorem call_fst :
    (world.call s3k kernelCall).1 = s3k.excpt world.trace kernelCall :=
  rfl

variable {s3k kernelCall world}

/-- A successful call has its effect. -/
theorem call_kernel_of_ok
    (ok : (world.call s3k kernelCall).1 = s3k.excptNone) :
    (world.call s3k kernelCall).2.kernel =
      kernelCall.effect s3k.derived world.kernel :=
  if_pos ok

/-- A call that fails changes nothing. -/
theorem call_kernel_of_failed
    (failed : (world.call s3k kernelCall).1 ≠ s3k.excptNone) :
    (world.call s3k kernelCall).2.kernel = world.kernel :=
  if_neg failed

/-- Every call does one of the two. -/
theorem call_kernel_cases :
    (world.call s3k kernelCall).2.kernel =
        kernelCall.effect s3k.derived world.kernel ∨
      (world.call s3k kernelCall).2.kernel = world.kernel := by
  by_cases ok : (world.call s3k kernelCall).1 = s3k.excptNone
  · exact Or.inl (call_kernel_of_ok ok)
  · exact Or.inr (call_kernel_of_failed ok)

/-- An assignment to the mirror is no call. -/
@[simp]
theorem setCap_kernel (slot : Nat) (cap : Cap) :
    (world.setCap slot cap).kernel = world.kernel :=
  rfl

/-- It is not traced. -/
@[simp]
theorem setCap_trace (slot : Nat) (cap : Cap) :
    (world.setCap slot cap).trace = world.trace :=
  rfl

/-- It does not count as a store. -/
@[simp]
theorem setCap_mem (slot : Nat) (cap : Cap) :
    (world.setCap slot cap).mem = world.mem :=
  rfl

/-- It changes one entry only. -/
@[simp]
theorem setCap_caps (slot : Nat) (cap : Cap) (other : Nat) :
    (world.setCap slot cap).caps other =
      if other = slot then cap else world.caps other :=
  rfl

/-- Re-reading a slot changes nothing in the kernel. -/
@[simp]
theorem reread_kernel (slot : Nat) :
    (world.reread slot).kernel = world.kernel :=
  rfl

/-- It is not traced. -/
@[simp]
theorem reread_trace (slot : Nat) :
    (world.reread slot).trace = world.trace :=
  rfl

/-- It does not count as a store. -/
@[simp]
theorem reread_mem (slot : Nat) :
    (world.reread slot).mem = world.mem :=
  rfl

/-- It changes one entry only. -/
@[simp]
theorem reread_caps (slot other : Nat) :
    (world.reread slot).caps other =
      if other = slot then world.getcap slot else world.caps other :=
  rfl

end World

end S3kMonitor
