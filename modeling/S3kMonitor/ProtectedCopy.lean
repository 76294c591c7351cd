import S3kMonitor.CommonAsm
import S3kMonitor.Lib.Rv64Protection
import S3kMonitor.SignedPayloads

namespace S3kMonitor

open ByteAreas Runs Holdings Rv64

/-!
# `memcpy` into the heap of the app

The tests of `app/test.c` copy code to an allocated chunk, for which the app
has a capability without `W`.  The first store of `memcpy` is then an
exception, and `trap_handler` and the monitor see to it that the copy goes on
and ends as if there had been no protection.
-/

section Way

/-- The two memories agree outside some addresses. -/
def SameOutside (own : Set Word) (first second : Memory) : Prop :=
  ∀ address ∉ own, second address = first address

namespace SameOutside

variable
  {own : Set Word}
  {first second third : Memory}

/-- A memory agrees with itself. -/
theorem refl (own : Set Word) (mem : Memory) : SameOutside own mem mem :=
  fun _ _ => rfl

/-- Agreement goes on. -/
theorem trans
    (same : SameOutside own first second)
    (next : SameOutside own second third) :
    SameOutside own first third :=
  fun address outside =>
    (next address outside).trans (same address outside)

end SameOutside

/--
Where `memcpy` stands, the value of `epc` at each of its instructions, and the
addresses that are written while an exception is handled: `buf`, `caps`, the
chunk table and the stack of `trap_handler`, and what the monitor writes.
-/
structure CopyPlace where
  text : Text Empty
  epc : Nat → Word
  own : Set Word

/--
The routine and its source are not written while an exception is handled, nor
is the routine by its own stores.
-/
structure KeepsApart
    (place : CopyPlace)
    (regs : Rv64.Reg → Word) :
    Prop where
  code :
    ∀ pc < memcpy.length, ∀ address ∈ place.text.span pc,
      address ∉ place.own ∧
        ∀ k < (regs .a2).toNat, address ≠ regs .a0 + BitVec.ofNat 64 k
  source :
    ∀ k < (regs .a2).toNat, regs .a1 + BitVec.ofNat 64 k ∉ place.own

variable
  {place : CopyPlace}
  {regs : Rv64.Reg → Word}
  {mem : Memory}

/-- The accesses of the copy disturb neither the code nor its source. -/
theorem KeepsApart.undisturbed
    (apart : KeepsApart place regs) :
    place.text.Undisturbed memcpy place.own (CopyAccess regs) where
  outside pc inCode address inText :=
    (apart.code pc inCode address inText).1
  stores pc inCode address inText isStore := by
    generalize same : Access.store address = access at isStore
    cases isStore with
    | fetch pc inCode => cases same
    | load k inside => cases same
    | store k inside =>
        cases same
        exact (apart.code pc inCode _ inText).2 k inside rfl
  loads address isLoad := by
    generalize same : Access.load address = access at isLoad
    cases isLoad with
    | fetch pc inCode => cases same
    | load k inside =>
        cases same
        exact apart.source k inside
    | store k inside => cases same

/-- `memcpy` comes to its `ret`, and the copy is complete there. -/
theorem KeepsApart.completes
    (apart : KeepsApart place regs)
    (stands : place.text.Holds memcpy mem) :
    ∃ final,
      Completes place.text memcpy place.own (CopyAccess regs) ⟨regs, mem, 0⟩
          final ∧
        Returned memcpy [.t0, .t2, .a1, .a2] ⟨regs, mem, 0⟩ final ∧
        final.mem = copied mem (regs .a0) (regs .a1) (regs .a2).toNat := by
  obtain ⟨final, way, returned, isCopied⟩ := memcpy_returns regs mem
  have inCode : final.pc < memcpy.length :=
    (List.getElem?_eq_some_iff.mp returned.atRet).1
  have atEnd : accesses memcpy final = [.fetch final.pc] := by
    rw [accesses, returned.atRet]
    rfl
  refine ⟨final, ?_, returned, isCopied⟩
  exact
    { undisturbed := apart.undisturbed
      holds := stands
      way := way
      ends := by
        rw [step, returned.atRet]
        rfl
      inCode := inCode
      lastOk := by
        rw [atEnd]
        exact List.forall_mem_singleton.mpr (.fetch _ inCode) }

/-- A machine that is like one that has returned has returned as well. -/
theorem Returned.of_alike
    {scratch : List Rv64.Reg}
    {start final other : Machine}
    (returned : Returned memcpy scratch start final)
    (alike : Alike place.own final other) :
    Returned memcpy scratch start other where
  atRet := alike.pc ▸ returned.atRet
  kept reg notScratch :=
    (congrFun alike.regs reg).trans (returned.kept reg notScratch)

/-- `memcpy` leaves the stack pointer alone. -/
theorem memcpy_keeps_sp
    {machine : Machine}
    (reached : Reaches memcpy ⟨regs, mem, 0⟩ machine) :
    machine.regs .sp = regs .sp :=
  reached.keeps_reg (by decide)

end Way

section Protection

/-- The bytes of an access. -/
def accessSpan (text : Text Empty) : Access → Set Word
  | .fetch pc => text.span pc
  | .load address => {address}
  | .store address => {address}

/-- What the exception of an access leaves in `eval`. -/
def accessAddress (place : CopyPlace) : Access → Word
  | .fetch pc => place.epc pc
  | .load address => address
  | .store address => address

/-- The right that an access needs. -/
def accessRight : Access → Word
  | .fetch _ => 0x4
  | .load _ => 0x1
  | .store _ => 0x2

/-- Instruction, load and store access fault. -/
def accessCause : Access → Word
  | .fetch _ => 1
  | .load _ => 5
  | .store _ => 7

/-- The exception of an access; the monitor then finds the memory `seen`. -/
def faultOf
    (place : CopyPlace)
    (seen : Memory)
    (access : Access)
    (machine : Machine) :
    Fault where
  mem := seen
  epc := place.epc machine.pc
  ecause := accessCause access
  eval := accessAddress place access
  esp := machine.regs .sp

/-- The app goes on with its instruction, or it starts again elsewhere. -/
def resumed
    (fault : Fault)
    (machine : Machine)
    (mem : Memory)
    (platform : Platform) :
    Guarded Platform where
  machine :=
    if platform.app.epc = fault.epc ∧ platform.app.esp = fault.esp then
      some { regs := machine.regs, mem := mem, pc := machine.pc }
    else none
  env := platform

/--
An exception with the pass of the loop for its request, or without one.  The
handler and the monitor have left the memory `back`, and have written nothing
but memory of their own.
-/
inductive ServesFault
    (s3k : S3k)
    (link : AppLink)
    (own : Set Word)
    (fault : Fault)
    (machine : Machine)
    (platform : Platform) :
    Guarded Platform → Prop where
  | served
      {call : UpdateCall}
      {next : Monitor}
      {back : Memory}
      (asks :
        (platform.raised fault).Asks
          (trapHandler link (replyOf next) (platform.raised fault)) call)
      (serves : Serves s3k fault.mem call platform.monitor next)
      (kept : SameOutside own machine.mem back) :
      ServesFault s3k link own fault machine platform
        (resumed fault machine back (platform.answered link fault next))
  | silent
      {back : Memory}
      (reply : Reply)
      (quiet :
        ∀ call,
          ¬ (platform.raised fault).Asks
            (trapHandler link reply (platform.raised fault)) call)
      (kept : SameOutside own machine.mem back) :
      ServesFault s3k link own fault machine platform
        (resumed fault machine back
          { platform with
            app := trapHandler link reply (platform.raised fault) })

/-- Every access of the app needs a capability with the right. -/
def appProtection
    (s3k : S3k)
    (link : AppLink)
    (place : CopyPlace) :
    Protection Platform where
  allowed platform access :=
    ∀ address ∈ accessSpan place.text access,
      Permits (appGrants platform.cap) (accessRight access) address
  handled access machine platform result :=
    ∃ seen,
      SameOutside place.own machine.mem seen ∧
        ServesFault s3k link place.own (faultOf place seen access machine)
          machine platform result

variable
  {s3k : S3k}
  {link : AppLink}
  {own : Set Word}
  {fault : Fault}
  {machine : Machine}
  {platform : Platform}
  {result : Guarded Platform}

/-- The exception is a step of the app and the monitor. -/
theorem ServesFault.platformStep
    (served : ServesFault s3k link own fault machine platform result) :
    PlatformStep s3k link (.fault fault) platform result.env := by
  cases served with
  | served asks serves kept =>
      exact .served fault platform asks serves
  | silent reply quiet kept =>
      exact .silent fault platform reply quiet

end Protection

section Opening

/-- Whatever is in memory, the kernel and the monitor serve this request. -/
structure WritesServed
    (s3k : S3k)
    (platform : Platform)
    (i : Nat)
    (addr : Word) :
    Prop where
  running : platform.monitor.appRunning = true
  inRange : platform.app.chunkSlot i < ncap
  isPmp : ∃ cfg, platform.cap (platform.app.chunkSlot i) = .pmp addr cfg
  received :
    s3k.excpt platform.monitor.world.trace
        (.recv (platform.monitor.soccaps[0]!).toNat flightSlot
          (platform.rwCall i).buf (platform.rwCall i).idx) =
      s3k.excptNone
  dependable :
    ∀ mem,
      Dependable s3k (platform.monitor.soccaps[1]!).toNat
        (receive s3k ((platform.rwCall i).request mem) platform.monitor).world
  derived :
    ∀ mem, ∃ slot,
      NewDerived s3k (s3kPmpNapotBegin addr) (s3kPmpNapotEnd addr) s3kRw
        (capmanUpdate
          (receive s3k ((platform.rwCall i).request mem)
            platform.monitor).world) slot

variable
  {s3k : S3k}
  {link : AppLink}
  {own : Set Word}
  {fault : Fault}
  {machine : Machine}
  {platform : Platform}
  {result : Guarded Platform}
  {i : Nat}
  {addr : Word}

/-- The request to write to the chunk can be granted. -/
theorem WritesServed.derivable
    (writesServed : WritesServed s3k platform i addr)
    (mem : Memory) :
    Derivable s3k
      (receive s3k ((platform.rwCall i).request mem) platform.monitor) := by
  obtain ⟨cfg, isPmp⟩ := writesServed.isPmp
  obtain ⟨slot, derived⟩ := writesServed.derived mem
  have notBoth : ¬ (s3kRw &&& 0x2 ≠ 0 ∧ s3kRw &&& 0x4 ≠ 0) := by
    decide
  have notX : ¬ s3kRw &&& 0x4 ≠ 0 := by
    decide
  exact UpdateCall.derivable writesServed.inRange isPmp writesServed.received
    notBoth (fun asksX => absurd asksX notX) derived

variable (stores : StoresToChunk link platform fault i)
include stores

variable (writesServed : WritesServed s3k platform i addr)
include writesServed

/-- The exception is served, whatever the handler has stored before. -/
theorem StoresToChunk.served :
    ∃ result, ServesFault s3k link own fault machine platform result := by
  obtain ⟨next, answered⟩ :=
    loop_of_derivable writesServed.running (writesServed.derivable fault.mem)
  exact ⟨_, .served (stores.asks (replyOf next))
    ⟨writesServed.received, writesServed.dependable fault.mem, answered⟩
    (.refl own machine.mem)⟩

variable
  (parentKept :
    ∀ parent child, parent ≠ .none → s3k.derived parent child ≠ .none)
include parentKept

/-- The store is tried again, with a capability that allows it. -/
theorem StoresToChunk.opens
    (inStep : InStep platform)
    (served : ServesFault s3k link own fault machine platform result) :
    ∃ back next,
      result = ⟨some back, next⟩ ∧
        Alike own machine back ∧
        OpensChunk link fault platform next i s3kRw ∧
        next.app.altmem = platform.app.altmem := by
  cases served with
  | silent reply quiet kept =>
      exact absurd (stores.asks reply) (quiet _)
  | @served call next back asks serves kept =>
      have isCall : call = platform.rwCall i :=
        (List.cons.inj (asks.symm.trans (stores.asks _))).1
      subst isCall
      have isZero : next.recvBuf[0]! = 0 :=
        (serves.granted_iff parentKept).mpr (writesServed.derivable fault.mem)
      obtain ⟨j, opens⟩ :=
        serves.opensChunk parentKept inStep asks isZero
      have notJump : ¬ fault.ecause = 1 := by
        rw [stores.isStore]
        decide
      have offStack : ¬ fault.esp ≤ link.stack :=
        BitVec.not_le.mpr stores.above
      have faultAddr : (platform.raised fault).faultAddr link = fault.eval :=
        (if_neg notJump).trans (if_neg offStack)
      have sameChunk := opens.chunkAt
      rw [faultAddr] at sameChunk
      obtain rfl := sameChunk.unique stores.chunkAt
      refine
        ⟨⟨machine.regs, back, machine.pc⟩, platform.answered link fault next,
          ?_, ⟨rfl, rfl, kept⟩, opens, ?_⟩
      · rw [resumed, if_pos opens.resumed]
      · exact (trapHandler_altmem link _ _).trans
          (if_neg fun onStack => offStack onStack.2)

end Opening

section Copy

/--
A call of `memcpy` whose target lies in chunk `i` and in the region of its
capability.  The source can be read, and `memcpy` is executable by another
capability.
-/
structure CopiesToChunk
    (link : AppLink)
    (place : CopyPlace)
    (platform : Platform)
    (regs : Rv64.Reg → Word)
    (i : Nat)
    (addr : Word) :
    Prop where
  apart : KeepsApart place regs
  above : link.stack < regs .sp
  code :
    ∀ pc < memcpy.length, ∀ address ∈ place.text.span pc,
      ∃ slot : Fin ncap,
        slot.val ≠ platform.app.chunkSlot i ∧
          platform.Grants slot 0x4 address
  source :
    ∀ k < (regs .a2).toNat, ∃ slot,
      platform.Grants slot 0x1 (regs .a1 + BitVec.ofNat 64 k)
  target :
    ∀ k < (regs .a2).toNat,
      platform.app.altmem.ChunkAt (regs .a0 + BitVec.ofNat 64 k) i ∧
        regs .a0 + BitVec.ofNat 64 k ∈
          region (s3kPmpNapotBegin addr) (s3kPmpNapotEnd addr)

/-- The platform at the call, or after the exception of the first store. -/
def AtMostOpened
    (link : AppLink)
    (platform : Platform)
    (i : Nat)
    (after : Platform) :
    Prop :=
  after.app.altmem = platform.app.altmem ∧
    (after = platform ∨
      ∃ fault, OpensChunk link fault platform after i s3kRw)

open Classical in
/-- There is one fault left as long as the chunk has not been opened. -/
noncomputable def faultsLeft (platform after : Platform) : Nat :=
  if after = platform then 1 else 0

variable
  {s3k : S3k}
  {link : AppLink}
  {place : CopyPlace}
  {platform after : Platform}
  {regs : Rv64.Reg → Word}
  {mem : Memory}
  {i : Nat}
  {addr : Word}
  {fault : Fault}
  {access : Access}
  {right address : Word}

/-- Another capability grants what it has granted. -/
theorem OpensChunk.grants_elsewhere
    {slot : Fin ncap}
    (opens : OpensChunk link fault platform after i s3kRw)
    (other : slot.val ≠ platform.app.chunkSlot i)
    (grants : platform.Grants slot right address) :
    after.Grants slot right address := by
  obtain ⟨grant, holds, inArea, hasRight⟩ := grants
  refine ⟨grant, ?_, inArea, hasRight⟩
  rw [appGrants, opens.elsewhere slot.val other]
  exact holds

variable
  (writesServed : WritesServed s3k platform i addr)
  (copies : CopiesToChunk link place platform regs i addr)
include writesServed copies

/-- Once the chunk is open, `memcpy` raises no exception any more. -/
theorem CopiesToChunk.allowed_of_opened
    (opens : OpensChunk link fault platform after i s3kRw)
    (isAccess : CopyAccess regs access) :
    (appProtection s3k link place).allowed after access := by
  have readable : 7 &&& (0x1 : Word) = 0x1 ∧ s3kRw &&& 0x1 ≠ 0 := by
    decide
  have writable : 7 &&& (0x2 : Word) = 0x2 ∧ s3kRw &&& 0x2 ≠ 0 := by
    decide
  obtain ⟨cfg, isPmp⟩ := writesServed.isPmp
  intro address inSpan
  cases isAccess with
  | fetch pc inCode =>
      obtain ⟨slot, other, grants⟩ := copies.code pc inCode address inSpan
      exact ⟨slot, opens.grants_elsewhere other grants⟩
  | load k inside =>
      obtain rfl := inSpan
      obtain ⟨slot, grants⟩ := copies.source k inside
      by_cases other : slot.val = platform.app.chunkSlot i
      · obtain ⟨grant, holds, inArea, -⟩ := grants
        have isGrant : (Cap.pmp addr cfg).grant = some grant := by
          rw [← isPmp, ← other]
          exact holds
        cases isGrant
        exact ⟨_, opens.grants_found isPmp inArea readable.1 readable.2⟩
      · exact ⟨slot, opens.grants_elsewhere other grants⟩
  | store k inside =>
      obtain rfl := inSpan
      exact ⟨_, opens.grants_found isPmp (copies.target k inside).2 writable.1
        writable.2⟩

omit writesServed in
/-- Before that, only a store to the chunk can raise one. -/
theorem CopiesToChunk.store_of_forbidden
    (isAccess : CopyAccess regs access)
    (forbidden : ¬ (appProtection s3k link place).allowed platform access) :
    ∃ k < (regs .a2).toNat,
      access = .store (regs .a0 + BitVec.ofNat 64 k) := by
  cases isAccess with
  | fetch pc inCode =>
      refine absurd (fun address inSpan => ?_) forbidden
      obtain ⟨slot, -, grants⟩ := copies.code pc inCode address inSpan
      exact ⟨slot, grants⟩
  | load k inside =>
      refine absurd (fun address inSpan => ?_) forbidden
      obtain rfl := inSpan
      exact copies.source k inside
  | store k inside =>
      exact ⟨k, inside, rfl⟩

variable
  (stands : place.text.Holds memcpy mem)
  (parentKept :
    ∀ parent child, parent ≠ .none → s3k.derived parent child ≠ .none)
  (inStep : InStep platform)
include stands parentKept inStep

/-- `trap_handler` and the monitor are transparent to the copy. -/
theorem CopiesToChunk.transparent :
    Transparent memcpy (appProtection s3k link place) place.own ⟨regs, mem, 0⟩
      (AtMostOpened link platform i) (faultsLeft platform) := by
  obtain ⟨_, isComplete, -⟩ := copies.apart.completes stands
  have storesToChunk
      {plain machine : Machine}
      {current : Platform}
      {access : Access}
      (seen : Memory)
      (reached : Reaches memcpy ⟨regs, mem, 0⟩ plain)
      (alike : Alike place.own plain machine)
      (atMostOpened : AtMostOpened link platform i current)
      (accessed : access ∈ accesses memcpy plain)
      (forbidden :
        ¬ (appProtection s3k link place).allowed current access) :
      current = platform ∧ CopyAccess regs access ∧
        StoresToChunk link platform (faultOf place seen access machine) i := by
    have isAccess : CopyAccess regs access :=
      isComplete.isOk reached access accessed
    rcases atMostOpened with ⟨-, rfl | ⟨fault, opens⟩⟩
    · obtain ⟨k, inside, rfl⟩ := copies.store_of_forbidden isAccess forbidden
      refine ⟨rfl, isAccess, rfl, ?_, (copies.target k inside).1⟩
      rw [faultOf, alike.regs, memcpy_keeps_sp reached]
      exact copies.above
    · exact absurd (copies.allowed_of_opened writesServed opens isAccess)
        forbidden
  constructor
  case returns =>
    rintro plain machine current access result reached alike holds accessed
      forbidden ⟨seen, -, served⟩
    obtain ⟨rfl, isAccess, stores⟩ :=
      storesToChunk seen reached alike holds accessed forbidden
    obtain ⟨back, next, isResult, alikeBack, opens, sameChunks⟩ :=
      stores.opens writesServed parentKept inStep served
    have changed : next ≠ current := by
      rintro rfl
      exact forbidden (copies.allowed_of_opened writesServed opens isAccess)
    refine
      ⟨back, next, isResult, alikeBack, ⟨sameChunks, Or.inr ⟨_, opens⟩⟩, ?_⟩
    rw [faultsLeft, faultsLeft, if_neg changed, if_pos rfl]
    exact Nat.zero_lt_one
  case handles =>
    intro plain machine current access reached alike holds accessed forbidden
    obtain ⟨rfl, -, stores⟩ :=
      storesToChunk machine.mem reached alike holds accessed forbidden
    obtain ⟨result, served⟩ := stores.served writesServed
    exact ⟨result, machine.mem, .refl _ _, served⟩

/--
Whatever has happened since the call, the app has not been reset and has done
nothing that `memcpy` does not do by itself.  It can go on until `memcpy`
returns, and then the copy is complete and at most one exception has been
raised, which has opened the chunk and changed no other capability.
-/
theorem protectedCopy_completes
    {state : Guarded Platform}
    (reached :
      GuardedReaches place.text (appProtection s3k link place)
        ⟨some ⟨regs, mem, 0⟩, platform⟩ state) :
    ∃ plain machine,
      state.machine = some machine ∧
        Reaches memcpy ⟨regs, mem, 0⟩ plain ∧
        Alike place.own plain machine ∧
        AtMostOpened link platform i state.env ∧
        ∃ final after,
          GuardedReaches place.text (appProtection s3k link place) state
              ⟨some final, after⟩ ∧
            Returned memcpy [.t0, .t2, .a1, .a2] ⟨regs, mem, 0⟩ final ∧
            SameOutside place.own
              (copied mem (regs .a0) (regs .a1) (regs .a2).toNat) final.mem ∧
            AtMostOpened link platform i after := by
  obtain ⟨final, isComplete, returned, copiedAll⟩ :=
    copies.apart.completes stands
  obtain ⟨plain, machine, isMachine, reachedPlain, alike, holds, other, after,
      onward, alikeFinal, holdsAfter⟩ :=
    (copies.transparent writesServed stands parentKept inStep).reaches_final
      isComplete ⟨rfl, Or.inl rfl⟩ reached
  refine ⟨plain, machine, isMachine, reachedPlain, alike, holds, other, after,
    onward, returned.of_alike alikeFinal, ?_, holdsAfter⟩
  rw [← copiedAll]
  exact alikeFinal.mem

/-- Once the chunk is open, the copy goes on without an exception. -/
theorem CopiesToChunk.returns_of_opened
    {machine : Machine}
    (opens : OpensChunk link fault platform after i s3kRw)
    (reached :
      GuardedReaches place.text (appProtection s3k link place)
        ⟨some ⟨regs, mem, 0⟩, platform⟩ ⟨some machine, after⟩) :
    ∃ final,
      GuardedReaches place.text (appProtection s3k link place)
          ⟨some machine, after⟩ ⟨some final, after⟩ ∧
        Returned memcpy [.t0, .t2, .a1, .a2] ⟨regs, mem, 0⟩ final := by
  obtain ⟨last, isComplete, returned, -⟩ := copies.apart.completes stands
  obtain ⟨plain, _, _, same, reachedPlain, alike, -⟩ :=
    (copies.transparent writesServed stands parentKept inStep).simulates
      isComplete ⟨rfl, Or.inl rfl⟩ reached
  cases same
  have neverForbidden
      {current : Machine}
      {access : Access}
      (reachedCurrent : Reaches memcpy ⟨regs, mem, 0⟩ current)
      (accessed : access ∈ accesses memcpy current) :
      (appProtection s3k link place).allowed after access :=
    copies.allowed_of_opened writesServed opens
      (isComplete.isOk reachedCurrent access accessed)
  have transparent :
      Transparent memcpy (appProtection s3k link place) place.own
        ⟨regs, mem, 0⟩ (· = after) (fun _ => 0) := by
    constructor
    case returns =>
      rintro current _ _ access result reachedCurrent - rfl accessed forbidden -
      exact absurd (neverForbidden reachedCurrent accessed) forbidden
    case handles =>
      rintro current _ _ access reachedCurrent - rfl accessed forbidden
      exact absurd (neverForbidden reachedCurrent accessed) forbidden
  obtain ⟨final, later, onward, alikeFinal, rfl⟩ :=
    transparent.completes isComplete reachedPlain
      (isComplete.way.onward isComplete.ends reachedPlain).reaches alike rfl
  exact ⟨final, onward, returned.of_alike alikeFinal⟩

end Copy

section Download

/--
An array with a signature, a size and code, which `memcpy` copies as a whole
to the start of an occupied chunk.
-/
structure Downloads
    (place : CopyPlace)
    (platform : Platform)
    (regs : Rv64.Reg → Word)
    (mem : Memory)
    (i : Nat)
    (signature : Block)
    (code : List Byte) :
    Prop where
  signable : Signable code
  held : PlacedAt mem (regs .a1) (codeArray signature code)
  isWhole : (regs .a2).toNat = (codeArray signature code).length
  atStart : regs .a0 = (platform.app.altmem.chunks i).start
  occupied : (platform.app.altmem.chunks i).occupied = true
  apart :
    ¬ (0 < (regs .a0 - regs .a1).toNat ∧
        (regs .a0 - regs .a1).toNat < (regs .a2).toNat)
  targetApart :
    ∀ k < (regs .a2).toNat, regs .a0 + BitVec.ofNat 64 k ∉ place.own

/--
The app jumps to the code behind signature and size, and the check of the
monitor finds the chunk as the app has left it.
-/
structure JumpsBehind
    (link : AppLink)
    (place : CopyPlace)
    (chunkStart : Word)
    (mem : Memory)
    (fault : Fault) :
    Prop where
  sameMem : SameOutside place.own mem fault.mem
  isInstruction : fault.ecause = 1
  isCode : fault.epc = chunkStart + 0x20
  inApp : link.start ≤ fault.epc ∧ fault.epc < link.stack

variable
  {s3k : S3k}
  {link : AppLink}
  {place : CopyPlace}
  {platform after later : Platform}
  {regs : Rv64.Reg → Word}
  {mem : Memory}
  {i : Nat}
  {addr : Word}
  {fault : Fault}
  {final : Machine}
  {signature : Block}
  {code : List Byte}

/-- A protected run is one of the app and the monitor. -/
theorem platformRun_of_guarded
    {first second : Guarded Platform}
    (reached :
      GuardedReaches place.text (appProtection s3k link place) first second) :
    ∃ labels, Run (PlatformStep s3k link) labels first.env second.env := by
  induction reached with
  | refl =>
      exact ⟨[], .nil _⟩
  | tail _ stepped inductionHypothesis =>
      obtain ⟨labels, run⟩ := inductionHypothesis
      cases stepped with
      | executes stepped =>
          exact ⟨labels, run⟩
      | faults accessed forbidden handled =>
          obtain ⟨seen, -, served⟩ := handled
          exact ⟨_, run.append (.cons served.platformStep (.nil _))⟩

/-- What was copied stands at the start of the chunk. -/
theorem Downloads.placed
    (downloads : Downloads place platform regs mem i signature code)
    {seen : Memory}
    (same :
      SameOutside place.own
        (copied mem (regs .a0) (regs .a1) (regs .a2).toNat) seen) :
    PlacedAt seen (platform.app.altmem.chunks i).start
      (codeArray signature code) := by
  intro offset inRange
  have inArea : offset < (regs .a2).toNat := by
    rw [downloads.isWhole]
    exact inRange
  have exact :=
    (copied_exactly_iff (regs .a0) (regs .a1) (regs .a2)).mpr downloads.apart
      mem
  rw [← downloads.atStart, bytesAt, same _ (downloads.targetApart _ inArea),
    exact.1 offset inArea]
  exact downloads.held offset inRange

variable
  (writesServed : WritesServed s3k platform i addr)
  (copies : CopiesToChunk link place platform regs i addr)
  (stands : place.text.Holds memcpy mem)
  (parentKept :
    ∀ parent child, parent ≠ .none → s3k.derived parent child ≠ .none)
  (inStep : InStep platform)
include writesServed copies stands parentKept inStep

/-- Whenever the copy returns, it is complete. -/
theorem CopiesToChunk.returned
    (reached :
      GuardedReaches place.text (appProtection s3k link place)
        ⟨some ⟨regs, mem, 0⟩, platform⟩ ⟨some final, after⟩)
    (atRet : memcpy[final.pc]? = some .ret) :
    SameOutside place.own
        (copied mem (regs .a0) (regs .a1) (regs .a2).toNat) final.mem ∧
      AtMostOpened link platform i after := by
  obtain ⟨last, isComplete, returned, copiedAll⟩ :=
    copies.apart.completes stands
  obtain ⟨plain, machine, env, same, reachedPlain, alike, holds⟩ :=
    (copies.transparent writesServed stands parentKept inStep).simulates
      isComplete ⟨rfl, Or.inl rfl⟩ reached
  cases same
  have stopped : step memcpy plain = none := by
    rw [step, ← alike.pc, atRet]
    rfl
  have onward := isComplete.way.onward isComplete.ends reachedPlain
  rcases Relation.ReflTransGen.cases_head onward with
    rfl | ⟨_, ⟨stepped, -⟩, -⟩
  · exact ⟨copiedAll ▸ alike.mem, holds⟩
  · rw [stopped] at stepped
    cases stepped

/-- A jump into the chunk after the copy is one to the code of the array. -/
theorem Downloads.jumpsToCode
    (downloads : Downloads place platform regs mem i signature code)
    (reached :
      GuardedReaches place.text (appProtection s3k link place)
        ⟨some ⟨regs, mem, 0⟩, platform⟩ ⟨some final, after⟩)
    (atRet : memcpy[final.pc]? = some .ret)
    (jumps :
      JumpsBehind link place (platform.app.altmem.chunks i).start final.mem
        fault) :
    JumpsToCode link after fault i signature code := by
  obtain ⟨copiedAll, sameChunks, -⟩ :=
    copies.returned writesServed stands parentKept inStep reached atRet
  have behind : 0x20 < (regs .a2).toNat := by
    have long := downloads.signable.block
    rw [downloads.isWhole, codeArray]
    simp
    omega
  have chunkAt : platform.app.altmem.ChunkAt fault.epc i := by
    rw [jumps.isCode, ← downloads.atStart]
    exact (copies.target 0x20 behind).1
  constructor
  case isInstruction => exact jumps.isInstruction
  case inApp => exact jumps.inApp
  case chunkAt => exact sameChunks ▸ chunkAt
  case occupied => exact sameChunks ▸ downloads.occupied
  case signable => exact downloads.signable
  case placed =>
    rw [sameChunks]
    exact downloads.placed (copiedAll.trans jumps.sameMem)

omit writesServed copies stands parentKept inStep in
/-- A capability that is opened stays over its region. -/
theorem OpensChunk.sameEnds
    {rwx : Word}
    (opens : OpensChunk link fault platform after i rwx) :
    ∃ oldAddr oldCfg newAddr newCfg,
      platform.cap (platform.app.chunkSlot i) = .pmp oldAddr oldCfg ∧
        after.cap (platform.app.chunkSlot i) = .pmp newAddr newCfg ∧
        s3kPmpNapotBegin newAddr = s3kPmpNapotBegin oldAddr ∧
        s3kPmpNapotEnd newAddr = s3kPmpNapotEnd oldAddr := by
  obtain ⟨oldAddr, oldCfg, wasPmp, newAddr, newCfg, isNew, napot, isAddr, -⟩ :=
    opens.replaced
  refine ⟨oldAddr, oldCfg, newAddr, newCfg, wasPmp, isNew, ?_, ?_⟩
  · rw [isAddr]
    exact napot.1.symm
  · rw [isAddr]
    exact napot.2.symm

omit copies stands parentKept inStep in
/-- The capability of the chunk is still over its region. -/
theorem AtMostOpened.region
    (atMostOpened : AtMostOpened link platform i after) :
    ∃ newAddr newCfg,
      after.cap (platform.app.chunkSlot i) = .pmp newAddr newCfg ∧
        s3kPmpNapotBegin newAddr = s3kPmpNapotBegin addr ∧
        s3kPmpNapotEnd newAddr = s3kPmpNapotEnd addr := by
  obtain ⟨cfg, isPmp⟩ := writesServed.isPmp
  rcases atMostOpened with ⟨-, rfl | ⟨fault, opens⟩⟩
  · exact ⟨addr, cfg, isPmp, rfl, rfl⟩
  · obtain ⟨old, oldCfg, newAddr, newCfg, wasPmp, isNew, sameEnds⟩ :=
      opens.sameEnds
    rw [isPmp] at wasPmp
    cases wasPmp
    exact ⟨newAddr, newCfg, isNew, sameEnds⟩

omit writesServed copies stands parentKept inStep in
/-- After the copy the search finds the same capability for the chunk. -/
theorem AtMostOpened.chunkSlot
    (inStep : InStep platform)
    (atMostOpened : AtMostOpened link platform i after)
    (laterInStep : InStep after) :
    after.app.chunkSlot i = platform.app.chunkSlot i := by
  obtain ⟨sameChunks, rfl | ⟨fault, opens⟩⟩ := atMostOpened
  · rfl
  · rw [App.chunkSlot, App.chunkSlot, sameChunks, laterInStep.caps,
      inStep.caps]
    refine congrArg toIndex
      (capmanFindExistingPmp_congr _ _ _ fun slot inRange => ?_)
    by_cases isSlot : slot = platform.app.chunkSlot i
    · obtain ⟨old, oldCfg, newAddr, newCfg, wasPmp, isNew, isBegin, isEnd⟩ :=
        opens.sameEnds
      rw [← isSlot] at wasPmp isNew
      rw [← Platform.cap, ← Platform.cap, wasPmp, isNew, Cap.SharesEnd,
        Cap.SharesEnd, isBegin, isEnd]
    · rw [← Platform.cap, ← Platform.cap, opens.elsewhere slot isSlot]

omit writesServed copies stands parentKept inStep in
/-- So it makes the same request for it. -/
theorem AtMostOpened.rxCall
    (inStep : InStep platform)
    (atMostOpened : AtMostOpened link platform i after)
    (laterInStep : InStep after) :
    after.rxCall i = platform.rxCall i := by
  rw [Platform.rxCall, Platform.rxCall,
    atMostOpened.chunkSlot inStep laterInStep, atMostOpened.1]

omit copies stands parentKept inStep in
/-- The monitor can open the chunk for code if it can derive the capability. -/
theorem AtMostOpened.canServe
    (inStep : InStep platform)
    (atMostOpened : AtMostOpened link platform i after)
    (laterInStep : InStep after)
    (slot : Nat)
    (derived :
      NewDerived s3k (s3kPmpNapotBegin addr) (s3kPmpNapotEnd addr) 0x5
        (capmanUpdate
          (receive s3k ((platform.rxCall i).request fault.mem)
            after.monitor).world) slot) :
    CanServe s3k after fault i := by
  obtain ⟨newAddr, newCfg, isPmp, isBegin, isEnd⟩ :=
    atMostOpened.region writesServed
  have sameSlot := atMostOpened.chunkSlot inStep laterInStep
  rw [← sameSlot] at isPmp
  refine ⟨sameSlot ▸ writesServed.inRange, newAddr, newCfg, isPmp, slot, ?_⟩
  rw [isBegin, isEnd, atMostOpened.rxCall inStep laterInStep]
  exact derived

/--
Code that `memcpy` has brought to an allocated chunk can be executed exactly
if its signature is right: after the copy a jump to it makes all of it
executable, or else it resets the app, which keeps its capabilities.
-/
theorem downloadedCode_outcome
    (downloads : Downloads place platform regs mem i signature code)
    (reached :
      GuardedReaches place.text (appProtection s3k link place)
        ⟨some ⟨regs, mem, 0⟩, platform⟩ ⟨some final, after⟩)
    (atRet : memcpy[final.pc]? = some .ret)
    (jumps :
      JumpsBehind link place (platform.app.altmem.chunks i).start final.mem
        fault)
    (canServe : CanServe s3k after fault i)
    (step : PlatformStep s3k link (.fault fault) after later) :
    (signature = signatureOf code →
      OpensChunk link fault after later i 0x5 ∧
        ∀ k < (regs .a2).toNat, ∃ slot,
          later.Grants slot 0x4 (regs .a0 + BitVec.ofNat 64 k)) ∧
    (signature ≠ signatureOf code →
      WasReset link later ∧ ∀ slot, later.cap slot = after.cap slot) := by
  have jumpsToCode : JumpsToCode link after fault i signature code :=
    downloads.jumpsToCode writesServed copies stands parentKept inStep reached
      atRet jumps
  obtain ⟨labels, run⟩ := platformRun_of_guarded reached
  have laterInStep : InStep after := inStep_run parentKept run inStep
  have outcome := jumpsToCode.outcome parentKept laterInStep canServe step
  refine ⟨fun isSigned => ?_, outcome.2⟩
  have opens := outcome.1 isSigned
  refine ⟨opens, fun k inside => ?_⟩
  have executable : 7 &&& (0x4 : Word) = 0x4 ∧ (0x5 : Word) &&& 0x4 ≠ 0 := by
    decide
  obtain ⟨-, atMostOpened⟩ :=
    copies.returned writesServed stands parentKept inStep reached atRet
  obtain ⟨newAddr, newCfg, isPmp, isBegin, isEnd⟩ :=
    atMostOpened.region writesServed
  rw [← atMostOpened.chunkSlot inStep laterInStep] at isPmp
  refine ⟨_, opens.grants_found isPmp ?_ executable.1 executable.2⟩
  rw [isBegin, isEnd]
  exact (copies.target k inside).2

end Download

section Page

/-- The app may execute its `.text`, and may read a page of its heap. -/
def copyMonitor : Monitor :=
  { heapMonitor with
    world :=
      { heapMonitor.world with
        kernel :=
          heapMonitor.world.kernel.set appPid 1
            (.pmp (s3kPmpNapotAddr 0x80020000 0x80022000) 0x5) } }

/-- The app knows these capabilities, and the page is its only chunk. -/
def copyPlatform : Platform where
  app :=
    { appWithHeap pageTable with
      caps := copyMonitor.world.kernel.table appPid }
  monitor := copyMonitor

/-- An array of 48 bytes in `.text` goes to the start of the page. -/
def copyRegs : Rv64.Reg → Word
  | .sp => 0x8002FF00
  | .a0 => 0x80023000
  | .a1 => 0x80021000
  | .a2 => 48
  | _ => 0

/-- The routine in `.text`, and the variables of the handler in `.bss`. -/
def copyPlace : CopyPlace where
  text := memcpyText
  epc pc :=
    0x80020440 +
      BitVec.ofNat 64 (Text.offset (memcpy.zip memcpyBytes) pc)
  own := {address | 0x80026000 ≤ address ∧ address < 0x80028000}

/-- The routine, and an array with one signed block. -/
def copyMem : Memory := fun addr =>
  if (addr - 0x80021000).toNat < 48 then
    memoryWith 0x80021000 (codeArray (signatureOf pageCode) pageCode) addr
  else
    memoryOf 0x80020440 memcpyBytes.flatten addr

/-- The routine stands in memory. -/
theorem copyMem_stands : copyPlace.text.Holds memcpy copyMem := by
  decide +kernel

/-- Nothing is in flight. -/
theorem copyPlatform_inStep : InStep copyPlatform :=
  ⟨rfl, rfl⟩

/-- The page has the capability in the first slot. -/
theorem copyPlatform_slot : copyPlatform.app.chunkSlot 0 = 0 := by
  decide +kernel

/-- Whatever the handler has stored, there is room for the new capability. -/
theorem copyPlatform_writesServed :
    WritesServed obliging copyPlatform 0
      (s3kPmpNapotAddr 0x80023000 0x80024000) where
  running := rfl
  inRange := by
    rw [copyPlatform_slot]
    decide
  isPmp := by
    rw [copyPlatform_slot]
    exact ⟨0x1, rfl⟩
  received := rfl
  dependable _ :=
    obliging_dependable (show (heapMonitor.soccaps[1]!).toNat < ncap by decide) _
  derived mem := by
    have blank :
        NewDerived obliging
          (s3kPmpNapotBegin (s3kPmpNapotAddr 0x80023000 0x80024000))
          (s3kPmpNapotEnd (s3kPmpNapotAddr 0x80023000 0x80024000)) s3kRw
          (capmanUpdate
            (receive obliging ((copyPlatform.rwCall 0).request fun _ => 0)
              copyPlatform.monitor).world) 63 :=
      ⟨by decide, by decide +kernel, by decide, by decide +kernel⟩
    exact ⟨63, blank.inRange, blank.found, blank.napot, blank.ok⟩

/-- A byte of the routine lies in `.text`, in front of the array. -/
theorem copyPlace_span
    {pc : Nat}
    (inCode : pc < memcpy.length)
    {address : Word}
    (inText : address ∈ copyPlace.text.span pc) :
    0x80020440 ≤ address ∧ address < 0x80020458 := by
  obtain ⟨k, inBytes, rfl⟩ :=
    Text.mem_span_assembled 0x80020440 (memcpy.zip memcpyBytes) inCode inText
  have few : k < 24 := inBytes
  constructor <;> bv_omega

/-- A copy to a page that can only be read at the call. -/
theorem copyPlatform_copies :
    CopiesToChunk linkedApp copyPlace copyPlatform copyRegs 0
      (s3kPmpNapotAddr 0x80023000 0x80024000) where
  apart :=
    { code := by
        intro pc inCode address inText
        have inSpan := copyPlace_span inCode inText
        simp only [copyPlace, copyRegs, Set.mem_ofPred_eq]
        refine ⟨by bv_omega, fun k inside => ?_⟩
        have few : k < 48 := inside
        bv_omega
      source := by
        intro k inside
        have few : k < 48 := inside
        simp only [copyPlace, copyRegs, Set.mem_ofPred_eq]
        bv_omega }
  above := by decide
  code := by
    intro pc inCode address inText
    have inSpan := copyPlace_span inCode inText
    rw [copyPlatform_slot]
    refine ⟨⟨1, by decide⟩, by decide, _, rfl, ?_,
      show (0x5 : Word) &&& 0x4 ≠ 0 by decide⟩
    exact
      show (0x80020000 : Word) ≤ address ∧ address ≤ (0x80022000 : Word) - 1 by
        constructor <;> bv_omega
  source k inside := by
    have few : k < 48 := inside
    have inText :
        (0x80020000 : Word) ≤ 0x80021000 + BitVec.ofNat 64 k ∧
          0x80021000 + BitVec.ofNat 64 k ≤ (0x80022000 : Word) - 1 := by
      constructor <;> bv_omega
    exact ⟨⟨1, by decide⟩, _, rfl, inText,
      show (0x5 : Word) &&& 0x1 ≠ 0 by decide⟩
  target k inside := by
    have few : k < 48 := inside
    have inPage :
        (0x80023000 : Word) ≤ 0x80023000 + BitVec.ofNat 64 k ∧
          0x80023000 + BitVec.ofNat 64 k < (0x80023000 : Word) + 0x1000 ∧
          0x80023000 + BitVec.ofNat 64 k ≤ (0x80024000 : Word) - 1 := by
      refine ⟨?_, ?_, ?_⟩ <;> bv_omega
    exact
      ⟨⟨Nat.zero_lt_one, ⟨inPage.1, inPage.2.1⟩,
          fun _ before => absurd before (Nat.not_lt_zero _)⟩,
        inPage.1, inPage.2.2⟩

/-- At the first store, with the first byte of the array in `t2`. -/
def atStore : Machine where
  regs :=
    Function.update
      (Function.update
        (Function.update (Function.update copyRegs .t0 0x80023000) .a2
          0x80021030) .t2
        ((copyMem 0x80021000).signExtend 64)) .a1
      0x80021001
  mem := copyMem
  pc := 5

/-- The first six instructions, and what they access. -/
theorem atStore_ran :
    run memcpy 6 ⟨copyRegs, copyMem, 0⟩ =
      some
        (atStore,
          [.fetch 0, .fetch 1, .fetch 2, .fetch 7, .fetch 3,
            .load 0x80021000, .fetch 4]) :=
  rfl

/-- Up to there everything is allowed. -/
theorem atStore_reached :
    GuardedReaches copyPlace.text (appProtection obliging linkedApp copyPlace)
      ⟨some ⟨copyRegs, copyMem, 0⟩, copyPlatform⟩
      ⟨some atStore, copyPlatform⟩ := by
  have copies := copyPlatform_copies
  have isAllowed
      {access : Access}
      (isAccess : CopyAccess copyRegs access)
      (notStore : ∀ address, access ≠ .store address) :
      (appProtection obliging linkedApp copyPlace).allowed copyPlatform
        access := by
    by_contra forbidden
    obtain ⟨k, -, isStore⟩ := copies.store_of_forbidden isAccess forbidden
    exact notStore _ isStore
  have way :
      ReachesWith memcpy
        (fun access =>
          CopyAccess copyRegs access ∧ ∀ address, access ≠ .store address)
        ⟨copyRegs, copyMem, 0⟩ atStore := by
    have firstLoad : CopyAccess copyRegs (.load 0x80021000) :=
      CopyAccess.load 0 (show 0 < 48 by decide)
    refine reachesWith_of_run atStore_ran ?_
    simpa [CopyAccess.fetch] using firstLoad
  have undisturbed := copies.apart.undisturbed
  refine guardedReaches_of_reaches
    (copyMem_stands.reachesInMemory
      ⟨fun _ _ _ _ => Set.notMem_empty _,
        fun pc inCode address inText isStore =>
          undisturbed.stores pc inCode address inText isStore.1,
        fun _ _ => Set.notMem_empty _⟩
      (fun access isAccess => isAllowed isAccess.1 isAccess.2) way)

/-- The exception of the first store. -/
def storeException : Fault :=
  faultOf copyPlace copyMem (.store 0x80023000) atStore

/-- The monitor opens the page, and could open it for code after that. -/
theorem storeException_answered :
    ∃ next,
      loop obliging ((copyPlatform.rwCall 0).request copyMem) copyMonitor =
          some next ∧
        next.appRunning = true ∧
        next.soccaps = Vector.replicate 8 0 ∧
        NewDerived obliging 0x80023000 0x80024000 0x5
          (capmanUpdate
            (receive obliging ((copyPlatform.rxCall 0).request fun _ => 0)
              next).world) 63 := by
  have result :
      (loop obliging ((copyPlatform.rwCall 0).request copyMem)
          copyMonitor).map
          (fun next =>
            let world :=
              (capmanUpdate
                (receive obliging
                  ((copyPlatform.rxCall 0).request fun _ => 0) next).world)
            (next.appRunning, next.soccaps, capmanFindFree world,
              obliging.excpt world.trace
                (.drvcap (parentSlot obliging 0x80023000 0x80024000 0x5 world)
                  63 (newPmp obliging 0x80023000 0x80024000 0x5)))) =
        some (true, Vector.replicate 8 0, 63, 0) := by
    decide +kernel
  obtain ⟨next, answered, same⟩ := Option.map_eq_some_iff.mp result
  simp only [Prod.mk.injEq] at same
  obtain ⟨running, soccaps, free, derived⟩ := same
  exact ⟨next, answered, running, soccaps, by decide, free, by decide, derived⟩

/-- The page is closed at the call. -/
theorem copyPlatform_closed :
    ¬ (appProtection obliging linkedApp copyPlace).allowed copyPlatform
        (.store 0x80023000) := by
  intro allowed
  obtain ⟨slot, grant, holds, inArea, hasRight⟩ :=
    allowed 0x80023000 (Set.mem_singleton _)
  obtain ⟨addr, cfg, isPmp, isArea, isRights⟩ :=
    (Cap.grant_eq_some_iff _ _).mp holds
  rw [isRights] at hasRight
  rw [isArea] at inArea
  by_cases isPage : slot.val = 0
  · rw [isPage] at isPmp
    cases isPmp
    exact hasRight (by decide)
  · by_cases isText : slot.val = 1
    · rw [isText] at isPmp
      cases isPmp
      exact hasRight (by decide)
    · have isNone : copyPlatform.cap slot = .none := by
        simp [Platform.cap, copyPlatform, copyMonitor, heapMonitor, onlyCap,
          Kernel.set_table, isPage, isText, appPid, monitorPid]
      rw [isNone] at isPmp
      cases isPmp

/-- The exception opens the page, and the copy goes on. -/
theorem storeException_opens :
    ∃ next machine,
      loop obliging ((copyPlatform.rwCall 0).request copyMem) copyMonitor =
          some next ∧
        GuardedReaches copyPlace.text
          (appProtection obliging linkedApp copyPlace)
          ⟨some ⟨copyRegs, copyMem, 0⟩, copyPlatform⟩
          ⟨some machine,
            copyPlatform.answered linkedApp storeException next⟩ ∧
        OpensChunk linkedApp storeException copyPlatform
          (copyPlatform.answered linkedApp storeException next) 0 s3kRw := by
  have copies := copyPlatform_copies
  have served := copyPlatform_writesServed
  obtain ⟨next, answered, -⟩ := storeException_answered
  have stores : StoresToChunk linkedApp copyPlatform storeException 0 :=
    ⟨rfl, by decide, (copies.target 0 (by decide)).1⟩
  have handled :
      ServesFault obliging linkedApp copyPlace.own storeException atStore
        copyPlatform
        (resumed storeException atStore copyMem
          (copyPlatform.answered linkedApp storeException next)) :=
    .served (stores.asks (replyOf next))
      ⟨served.received, served.dependable copyMem, answered⟩ (.refl _ _)
  obtain ⟨machine, current, isResult, -, opens, -⟩ :=
    stores.opens served (fun _ _ present => present) copyPlatform_inStep handled
  have isCurrent :
      copyPlatform.answered linkedApp storeException next = current :=
    congrArg Guarded.env isResult
  have accessed : Access.store 0x80023000 ∈ copyPlace.text.accesses atStore := by
    rw [Text.accesses_alike copies.apart.undisturbed copyMem_stands
      (show atStore.pc < 9 by decide) (.refl copyPlace.own atStore)]
    exact List.mem_cons_of_mem _ (List.mem_singleton.mpr rfl)
  refine ⟨next, machine, answered, ?_, isCurrent ▸ opens⟩
  rw [isCurrent, ← isResult]
  exact atStore_reached.tail
    (.faults accessed copyPlatform_closed ⟨copyMem, .refl _ _, handled⟩)

/-- The page gets the array, after the exception of the first store. -/
theorem copyPlatform_completes :
    ∃ machine opened final after,
      OpensChunk linkedApp storeException copyPlatform opened 0 s3kRw ∧
        GuardedReaches copyPlace.text
          (appProtection obliging linkedApp copyPlace)
          ⟨some ⟨copyRegs, copyMem, 0⟩, copyPlatform⟩ ⟨some machine, opened⟩ ∧
        GuardedReaches copyPlace.text
          (appProtection obliging linkedApp copyPlace) ⟨some machine, opened⟩
          ⟨some final, after⟩ ∧
        Returned memcpy [.t0, .t2, .a1, .a2] ⟨copyRegs, copyMem, 0⟩ final ∧
        SameOutside copyPlace.own (copied copyMem 0x80023000 0x80021000 48)
          final.mem ∧
        copyMem 0x80023020 = 0 ∧ final.mem 0x80023020 = 0x13 ∧
        AtMostOpened linkedApp copyPlatform 0 after := by
  obtain ⟨next, machine, -, reached, opens⟩ := storeException_opens
  obtain ⟨_, _, isMachine, -, -, -, final, after, onward, returned, isCopied,
      opened⟩ :=
    protectedCopy_completes copyPlatform_writesServed copyPlatform_copies
      copyMem_stands (fun _ _ present => present) copyPlatform_inStep reached
  have lastByte :
      copied copyMem 0x80023000 0x80021000 48 0x80023020 = 0x13 := by
    decide +kernel
  have outside : (0x80023020 : Word) ∉ copyPlace.own :=
    fun inOwn => absurd inOwn.1 (by decide)
  exact ⟨machine, _, final, after, opens, reached, onward, returned, isCopied,
    by decide +kernel, (isCopied _ outside).trans lastByte, opened⟩

/-- The array goes to the start of the page as a whole. -/
theorem copyMem_downloads :
    Downloads copyPlace copyPlatform copyRegs copyMem 0 (signatureOf pageCode)
      pageCode where
  signable := pageJump_jumps.signable
  held := by
    have length : (codeArray (signatureOf pageCode) pageCode).length = 48 := by
      simp [codeArray, pageCode, length_codeOf]
    intro k inRange
    have isPlaced :=
      @placedAt_memoryWith 0x80021000
        (codeArray (signatureOf pageCode) pageCode) (by omega) k inRange
    have offset :
        ((0x80021000 : Word) + BitVec.ofNat 64 k - 0x80021000).toNat < 48 := by
      bv_omega
    rw [← isPlaced]
    exact if_pos offset
  isWhole := by simp [codeArray, pageCode, length_codeOf, copyRegs]
  atStart := rfl
  occupied := rfl
  apart := by decide
  targetApart k inside := by
    have few : k < 48 := inside
    simp only [copyPlace, copyRegs, Set.mem_ofPred_eq]
    bv_omega

/-- The signed block is copied to the closed page, and then executed. -/
theorem copyMem_outcome :
    ∃ fault after later,
      PlatformStep obliging linkedApp (.fault fault) after later ∧
        OpensChunk linkedApp storeException copyPlatform after 0 s3kRw ∧
        OpensChunk linkedApp fault after later 0 0x5 ∧
        ∃ slot, later.Grants slot 0x4 0x80023020 := by
  have copies := copyPlatform_copies
  have served := copyPlatform_writesServed
  have kept :
      ∀ parent child, parent ≠ Cap.none →
        obliging.derived parent child ≠ .none :=
    fun _ _ present => present
  obtain ⟨next, machine, answered, toOpened, opens⟩ := storeException_opens
  obtain ⟨final, onward, returned⟩ :=
    copies.returns_of_opened served copyMem_stands kept copyPlatform_inStep
      opens toOpened
  have reached := toOpened.trans onward
  obtain ⟨other, otherAnswered, running, soccaps, derived⟩ :=
    storeException_answered
  obtain rfl : other = next :=
    Option.some.inj (otherAnswered.symm.trans answered)
  let after := copyPlatform.answered linkedApp storeException other
  let fault : Fault := { pageJump with mem := final.mem }
  have jumps : JumpsBehind linkedApp copyPlace 0x80023000 final.mem fault :=
    ⟨.refl _ _, rfl, rfl, pageJump_jumps.inApp⟩
  obtain ⟨-, opened⟩ :=
    copies.returned served copyMem_stands kept copyPlatform_inStep reached
      returned.atRet
  obtain ⟨labels, run⟩ := platformRun_of_guarded reached
  have laterInStep : InStep after := inStep_run kept run copyPlatform_inStep
  have canServe : CanServe obliging after fault 0 := by
    have napot : Napot 0x80023000 0x80024000 := by
      decide
    refine opened.canServe served copyPlatform_inStep laterInStep 63 ?_
    rw [← napot.1, ← napot.2]
    exact ⟨derived.inRange, derived.found, derived.napot, derived.ok⟩
  have received :
      obliging.excpt after.monitor.world.trace
          (.recv (after.monitor.soccaps[0]!).toNat flightSlot
            (after.rxCall 0).buf (after.rxCall 0).idx) =
        obliging.excptNone := by
    rw [show after.monitor.soccaps = Vector.replicate 8 0 from soccaps,
      opened.rxCall copyPlatform_inStep laterInStep]
    rfl
  have isAnswered : (after.monitor.soccaps[1]!).toNat < ncap := by
    rw [show after.monitor.soccaps = Vector.replicate 8 0 from soccaps]
    decide
  obtain ⟨later, step⟩ :=
    (copyMem_downloads.jumpsToCode served copies copyMem_stands kept
      copyPlatform_inStep reached returned.atRet jumps).steps canServe running
      received (obliging_dependable isAnswered _) rfl
  obtain ⟨opensCode, executable⟩ :=
    (downloadedCode_outcome served copies copyMem_stands kept
      copyPlatform_inStep copyMem_downloads reached returned.atRet jumps
      canServe step).1 rfl
  exact ⟨fault, after, later, step, opens, opensCode,
    executable 0x20 (by decide)⟩

end Page

end S3kMonitor
