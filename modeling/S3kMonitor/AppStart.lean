import S3kMonitor.BuiltApps
import S3kMonitor.MonitorSlots

namespace S3kMonitor

open Runs
open Relation (ReflTransGen)

/-!
# From the reset to the service of exceptions

`setup` of `app/app.c` follows the one of the monitor.  Together they lead to
a state in which the app and the monitor are in step, so that what is known
of the exceptions of the app holds in every run since the reset.
-/

/-- The global variables that `setup` of the app sets. -/
structure AppGlobals where
  pmpcaps : Vector Byte 8
  soccaps : Vector Byte 8
  app : App

/-- What the capability manager of the app works on after `capman_init`. -/
def appWorld (world : World) : World :=
  { world with caps := world.kernel.table appPid }

/--
`setup` of `app/app.c`, without the two registers for the trap handler.  Its
message to the monitor is the one that also ends the app.
-/
def appSetup
    (link : AppLink)
    (heap : Word)
    (world : World) :
    Option AppGlobals :=
  let world := appWorld world
  match altmemInit heap link.stack blankChunks with
  | none => none
  | some altmem =>
      some
        { pmpcaps := capmanGetpmp appPid world
          soccaps := capmanGetsoc (Vector.replicate 8 0) world
          app :=
            App.notify
              { altmem := altmem
                caps := world.caps
                buf := Vector.replicate 4 0
                epc := 0
                ecause := 0
                eval := 0
                esp := 0
                sends := [] }
              .finished }

/-- The calls that leave the flight slot empty. -/
def KeepsFlight (s3k : S3k) (kernelCall : KernelCall) : Prop :=
  ∀ kernel : Kernel,
    kernel.table monitorPid flightSlot = .none →
    (kernelCall.effect s3k.derived kernel).table monitorPid flightSlot = .none

section Flight

variable
  {s3k : S3k}

/-- A capability given to the app touches no flight slot. -/
theorem KeepsFlight.give
    (moncap src dst : Nat) :
    KeepsFlight s3k (.mgivecap moncap appPid src dst) := by
  intro kernel empty
  rw [KernelCall.effect, Kernel.move_table,
    if_neg fun same => appPid_ne_monitorPid same.1.symm]
  split
  · rfl
  · exact empty

/-- A deletion fills no slot. -/
theorem KeepsFlight.delete
    (idx : Nat) :
    KeepsFlight s3k (.delcap idx) := by
  intro kernel empty
  rw [KernelCall.effect, Kernel.set_table]
  split
  · rfl
  · exact empty

/-- The calls that resume the app touch no slot. -/
theorem ResumeCall.keepsFlight
    {kernelCall : KernelCall}
    (isResume : ResumeCall kernelCall) :
    KeepsFlight s3k kernelCall := by
  intro kernel empty
  rw [isResume.kernel_eq]
  exact empty

variable
  (derivesNothing : ∀ child, s3k.derived .none child = .none)
include derivesNothing

/-- A derivation into another slot finds nothing to derive from here. -/
theorem KeepsFlight.derive
    {idx : Nat}
    (other : idx ≠ flightSlot)
    (orig : Nat)
    (cap : Cap) :
    KeepsFlight s3k (.drvcap orig idx cap) := by
  intro kernel empty
  rw [KernelCall.effect, Kernel.set_table,
    if_neg fun same => other same.2.symm, Kernel.set_table]
  split
  · next isOrig =>
    rw [← isOrig.2, empty, derivesNothing]
  · exact empty

variable (world : World)

/-- A derivation to another slot keeps the flight slot. -/
theorem capmanDerivePmp_keepsFlight
    {idx : Nat}
    (other : idx ≠ flightSlot)
    (start stop rwx : Word) :
    Makes s3k (KeepsFlight s3k) world
      (capmanDerivePmp s3k idx start stop rwx world).2 := by
  apply (capmanDerivePmp_makes world idx start stop rwx).mono
  rintro _ ⟨-, orig, rfl⟩
  exact .derive derivesNothing other orig _

/-- So does the derivation of a socket. -/
theorem capmanDeriveSocket_keepsFlight
    {idx : Nat}
    (other : idx ≠ flightSlot)
    (port tag : Word) :
    Makes s3k (KeepsFlight s3k) world
      (capmanDeriveSocket s3k idx port tag world).2 := by
  apply (capmanDeriveSocket_makes world idx port tag).mono
  rintro _ ⟨orig, rfl⟩
  exact .derive derivesNothing other orig _

omit derivesNothing in
/-- So does a capability given to the app. -/
theorem capmanMgivecap_keepsFlight
    (src dst : Nat) :
    Makes s3k (KeepsFlight s3k) world
      (capmanMgivecap s3k appPid src dst world).2 := by
  apply (capmanMgivecap_makes world appPid src dst).mono
  rintro _ ⟨moncap, rfl⟩
  exact .give moncap src dst

/-- The calls before the authentication keep the flight slot. -/
theorem prepare_keepsFlight
    (kernel : Kernel)
    (mem : Memory) :
    Makes s3k (KeepsFlight s3k) (bootWorld kernel mem)
      (prepare s3k kernel mem) := by
  have deletion (idx : Nat) (next : World) :
      Makes s3k (KeepsFlight s3k) next (next.call s3k (.delcap idx)).2 :=
    Makes.call (.delete idx) next
  have own
      {idx : Nat}
      (other : idx ≠ flightSlot)
      (start stop : Word)
      (next : World) :
      Makes s3k (KeepsFlight s3k) next
        (capmanDerivePmp s3k idx start stop s3kRw next).2 :=
    capmanDerivePmp_keepsFlight derivesNothing next other start stop s3kRw
  have register (pmp : Vector Byte 8) (next : World) :
      Makes s3k (KeepsFlight s3k) next (capmanSetpmp s3k pmp next) :=
    Makes.call (fun _ empty => empty) next
  have time (next : World) :
      Makes s3k (KeepsFlight s3k) next (setupTimeSlices s3k next) := by
    apply (capmanDeriveTime_makes next 0x18 0 0 32).mono
    rintro _ ⟨orig, rfl⟩
    exact .derive derivesNothing (by decide) orig _
  have monitor (next : World) :
      Makes s3k (KeepsFlight s3k) next (setupMonitor s3k next) :=
    (((own (by decide) _ _ _).trans (own (by decide) _ _ _)).trans
      (register _ _)).trans (register _ _)
  exact (((((deletion 4 _).trans (deletion 5 _)).trans
    (deletion 6 _)).trans (capmanUpdate_makes _)).trans
    (monitor _)).trans (time _)

/-- One grant handed out keeps the flight slot. -/
theorem handOut_keepsFlight
    (state : AppSetup)
    (grant : PmpGrant) :
    Makes s3k (KeepsFlight s3k) state.world
      (handOut s3k state grant).world :=
  handOut_makes_of
    (fun _ orig => .derive derivesNothing (by decide) orig _)
    (fun moncap => .give moncap _ _)

/-- All grants of a header handed out keep the flight slot. -/
theorem foldl_handOut_keepsFlight
    (list : List PmpGrant)
    (state : AppSetup) :
    Makes s3k (KeepsFlight s3k) state.world
      (list.foldl (handOut s3k) state).world := by
  induction list generalizing state with
  | nil =>
      exact Makes.refl state.world
  | cons grant list inductionHypothesis =>
      exact (handOut_keepsFlight derivesNothing state grant).trans
        (inductionHypothesis (handOut s3k state grant))

/-- `setup_app` keeps the flight slot. -/
theorem setupApp_keepsFlight
    (fuel : Nat)
    (app : Process) :
    Makes s3k (KeepsFlight s3k) (enterSetupApp world).world
      (setupApp s3k fuel app world).1 := by
  have turns :=
    foldl_handOut_keepsFlight derivesNothing
      (sectionsGrants fuel app.sections).1 (enterSetupApp world)
  rw [setupApp_eq]
  dsimp only
  split
  · exact turns.trans
      (finishApp_makes_of (handOut_keepsFlight derivesNothing _ uartGrant)
        (fun moncap => .give moncap _ _) (fun _ _ _ _ empty => empty))
  · exact turns

/-- `setup_ipc` keeps the flight slot. -/
theorem setupIpc_keepsFlight :
    Makes s3k (KeepsFlight s3k) world (setupIpc s3k world) := by
  have socket
      {idx : Nat}
      (other : idx ≠ flightSlot)
      (port tag : Word)
      (next : World) :
      Makes s3k (KeepsFlight s3k) next
        (capmanDeriveSocket s3k idx port tag next).2 :=
    capmanDeriveSocket_keepsFlight derivesNothing next other port tag
  have give (dst : Nat) (next : World) :
      Makes s3k (KeepsFlight s3k) next
        (capmanMgivecap s3k appPid 0x20 dst next).2 :=
    capmanMgivecap_keepsFlight next 0x20 dst
  exact (((((socket (by decide) _ _ _).trans (socket (by decide) _ _ _)).trans
    (give _ _)).trans (socket (by decide) _ _ _)).trans
    (socket (by decide) _ _ _)).trans (give _ _)

omit derivesNothing in
/-- Behind `setup_ipc` the app is resumed, and its message received. -/
theorem startApp_resumes (hello : Words) :
    Makes s3k ResumeCall (setupIpc s3k world)
      (startApp s3k hello world).2.world := by
  have resume :
      Makes s3k ResumeCall (setupIpc s3k world)
        (capmanMresume s3k appPid (setupIpc s3k world)).2 :=
    (capmanMresume_makes _ appPid).mono fun _ isResume => Or.inl isResume
  have waits (sock : Nat) :=
    resume.trans
      (Makes.call (Or.inr ⟨sock, hello, rfl⟩)
        (capmanMresume s3k appPid (setupIpc s3k world)).2)
  unfold startApp
  dsimp only
  split <;> split <;> exact waits _

/-- The start of the app keeps the flight slot. -/
theorem startApp_keepsFlight (hello : Words) :
    Makes s3k (KeepsFlight s3k) world (startApp s3k hello world).2.world :=
  (setupIpc_keepsFlight derivesNothing world).trans
    ((startApp_resumes world hello).mono
      fun _ isResume => isResume.keepsFlight)

/-- `setup` that starts the app has put nothing into the flight slot. -/
theorem setup_flight_empty
    {fuel : Nat}
    {stack : Process}
    {image : AppBin}
    {hello : Words}
    {kernel : Kernel}
    {mem : Memory}
    (empty : kernel.table monitorPid flightSlot = .none)
    (accepts : Accepts image) :
    (setup s3k fuel stack image hello kernel mem).2.world.getcap flightSlot =
      .none := by
  have keeps
      {first second : World}
      (makes : Makes s3k (KeepsFlight s3k) first second)
      (start : first.getcap flightSlot = .none) :
      second.getcap flightSlot = .none :=
    makes.kernel_invariant
      (fun kernel => kernel.table monitorPid flightSlot = .none)
      (fun _ kernel keepsFlight => keepsFlight kernel) start
  have prepared : (prepare s3k kernel mem).getcap flightSlot = .none :=
    keeps (prepare_keepsFlight derivesNothing kernel mem) empty
  rw [setup_of_accepts s3k fuel stack hello kernel mem accepts,
    afterAuthentication_eq]
  dsimp only
  generalize parseExecutable stack (BitVec.ofNat 8 appPid) image.get = app
  have handed :
      (setupApp s3k fuel app
          (loadApp image (prepare s3k kernel mem))).1.getcap flightSlot =
        .none :=
    keeps (setupApp_keepsFlight derivesNothing _ fuel app) prepared
  split
  · exact keeps (startApp_keepsFlight derivesNothing _ hello) handed
  · exact handed

end Flight

section Reset

/-- The app and the monitor when both have come out of their `setup`. -/
def startedPlatform (globals : AppGlobals) (monitor : Monitor) : Platform where
  app := globals.app
  monitor := monitor

/--
What a PMP capability of the app can be: the region and the rights of a grant,
or this region with `RW` or `RX` if it shares an end with a chunk of the heap.
-/
def GrantedOrReopened
    (heap stack : Word)
    (grants : List PmpGrant)
    (addr cfg : Word) :
    Prop :=
  ∃ grant ∈ grants,
    Napot grant.start grant.stop ∧
      addr = s3kPmpNapotAddr grant.start grant.stop ∧
      (cfg &&& 7 = grant.rwx &&& 7 ∨
        (cfg &&& 7 = 0x3 ∨ cfg &&& 7 = 0x5) ∧
          ∃ i < tileCount heap stack,
            grant.start = tileStart heap i ∨
              grant.stop = tileStart heap i + chunkSize)

/-- What is known of a state that a run since the reset has reached. -/
structure ServedSince
    (s3k : S3k)
    (link : AppLink)
    (heap : Word)
    (grants : List PmpGrant)
    (started reached : Platform) :
    Prop where
  exceptions :
    ∀ fault after,
      PlatformStep s3k link (.fault fault) reached after →
      (∃ i rwx, OpensChunk link fault reached after i rwx) ∨
        WasReset link after ∧ ∀ slot, after.cap slot = reached.cap slot
  rights :
    ∀ slot addr cfg,
      reached.cap slot = .pmp addr cfg →
      GrantedOrReopened heap link.stack grants addr cfg
  monitorSlots :
    KeepsSlots s3k started.monitor.world reached.monitor.world

variable
  {s3k : S3k}
  {link : AppLink}
  {heap : Word}

/-- The app knows its capabilities and the chunks between heap and stack. -/
theorem appSetup_tiles
    (bounds : HeapBounds heap link.stack)
    (world : World) :
    ∃ globals,
      appSetup link heap world = some globals ∧
        globals.app.caps = world.kernel.table appPid ∧
        Tiled heap link.stack globals.app.altmem := by
  obtain ⟨altmem, inited, tiled, -⟩ := altmemInit_tiles bounds blankChunks
  unfold appSetup
  simp only [inited]
  exact ⟨_, rfl, rfl, tiled⟩

/--
A slot kept holds a grant of the header; one reopened holds a chunk of the heap
or the stack.
-/
theorem KeptOrReopened.rights
    {grants : List PmpGrant}
    {started reached : Platform}
    (tiled : Tiled heap link.stack started.app.altmem)
    (granted : ∀ slot, FromGrant (· ∈ grants) (started.cap slot))
    {slot : Nat}
    (keptOrReopened : KeptOrReopened started reached slot)
    {addr cfg : Word}
    (isPmp : reached.cap slot = .pmp addr cfg) :
    GrantedOrReopened heap link.stack grants addr cfg := by
  rcases keptOrReopened with
    kept | ⟨i, oldAddr, oldCfg, rwx, inRange, shares, wasPmp, isRwx, reopened⟩
  · rw [kept] at isPmp
    obtain ⟨grant, member, napot, isAddr, rights⟩ := granted slot addr cfg isPmp
    exact ⟨grant, member, napot, isAddr, Or.inl rights⟩
  · obtain ⟨grant, member, napot, rfl, -⟩ :=
      granted slot oldAddr oldCfg wasPmp
    obtain ⟨newAddr, newCfg, isNew, -, isAddr, rights⟩ := reopened
    rw [isPmp] at isNew
    cases isNew
    rw [← napot.1, ← napot.2] at isAddr
    refine ⟨grant, member, napot, isAddr, Or.inr ⟨?_, i, ?_, ?_⟩⟩
    · rw [rights]
      exact isRwx.imp (fun isRw => by rw [isRw]; rfl)
        (fun isRx => by rw [isRx]; rfl)
    · exact tiled.nchunks_eq ▸ inRange
    · rw [wasPmp, Cap.SharesEnd, ← napot.1, ← napot.2, Chunk.stop,
        tiled.start_eq i inRange, tiled.size_eq i inRange] at shares
      exact shares

/--
From the reset on: once `setup` of the monitor has started the app, `setup` of
the app finds its heap, and in every run from there each exception lets the
app go on with one more right or resets it as it was, each capability of the
app is over a region of the header, and no slot of the monitor is lost.
-/
theorem reset_run_served
    (s3k : S3k)
    (fuel : Nat)
    (stack : Process)
    (image : AppBin)
    (hello : Words)
    (kernel : Kernel)
    (mem : Memory)
    (bounds : HeapBounds heap link.stack)
    (parentKept :
      ∀ parent child, parent ≠ .none → s3k.derived parent child ≠ .none)
    (derivesNothing : ∀ child, s3k.derived .none child = .none)
    (lender :
      ∀ parent child, s3k.memoryDerive parent child = true → parent ≠ .none)
    (booted : Booted kernel)
    (empty : kernel.table monitorPid flightSlot = .none)
    (isStarted :
      (setup s3k fuel stack image hello kernel mem).1 = .started) :
    ∃ globals,
      appSetup link heap
            (setup s3k fuel stack image hello kernel mem).2.world =
          some globals ∧
        ∀ labels reached,
          Run (PlatformStep s3k link) labels
            (startedPlatform globals
              (setup s3k fuel stack image hello kernel mem).2)
            reached →
          ServedSince s3k link heap (appGrantList stack image)
            (startedPlatform globals
              (setup s3k fuel stack image hello kernel mem).2)
            reached := by
  have accepts : Accepts image := by
    rw [← setup_accepted_iff s3k fuel stack hello kernel mem, isStarted]
    exact ⟨nofun, nofun⟩
  have handedOut :=
    @setup_grants s3k fuel stack image hello kernel mem booted accepts
  have noFlight :=
    @setup_flight_empty s3k derivesNothing fuel stack image hello kernel mem
      empty accepts
  generalize (setup s3k fuel stack image hello kernel mem).2 = monitor
    at handedOut noFlight ⊢
  obtain ⟨globals, ready, caps, tiled⟩ := appSetup_tiles bounds monitor.world
  refine ⟨globals, ready, fun labels reached run => ?_⟩
  have inStep : InStep (startedPlatform globals monitor) := ⟨caps, noFlight⟩
  exact
    { exceptions := fun fault after =>
        exception_outcome parentKept fault inStep run
      rights := fun slot _ _ =>
        ((run_onlyReopens parentKept inStep run).caps slot).rights tiled
          handedOut.app
      monitorSlots := run_keepsSlots parentKept lender inStep run }

end Reset

section Linked

/-- The message of `setup` of the app. -/
def appHello : Words :=
  #v[-1, 0, 0, 0]

/-- A store to the first chunk of the heap. -/
def heapFault : Fault where
  mem := fun _ => 0
  epc := 0x80020300
  ecause := 7
  eval := 0x80028000
  esp := 0x8002FF00

/-- The monitor has given the app the chunk in slot 4, and can open it. -/
structure OpensHeap (monitor : Monitor) : Prop where
  found :
    capmanFindExistingPmp (monitor.world.kernel.table appPid) 0x80028000
        0x80029000 =
      4
  answers :
    (loop obliging ((UpdateCall.rw 4 s3kRw).request fun _ => 0)
      monitor).isSome = true
  received :
    obliging.excpt monitor.world.trace
        (.recv (monitor.soccaps[0]!).toNat flightSlot
          (UpdateCall.rw 4 s3kRw).buf 4) =
      obliging.excptNone
  replies : (monitor.soccaps[1]!).toNat < ncap

/-- So the app can allocate, and its first store there is an exception. -/
theorem OpensHeap.serves
    {monitor : Monitor}
    {globals : AppGlobals}
    (opensHeap : OpensHeap monitor)
    (tiled : Tiled linkedHeap linkedApp.stack globals.app.altmem)
    (caps : globals.app.caps = monitor.world.kernel.table appPid) :
    ∃ reached,
      Run (PlatformStep obliging linkedApp) [.alloc 16, .fault heapFault]
        (startedPlatform globals monitor) reached := by
  let platform : Platform :=
    { app :=
        { globals.app with
          altmem := (altmemAlloc globals.app.altmem 16).2 }
      monitor := monitor }
  have same : globals.app.altmem.SameChunks platform.app.altmem :=
    altmemAlloc_sameChunks globals.app.altmem 16
  have many : 0 < globals.app.altmem.nchunks := by
    rw [tiled.nchunks_eq]
    decide
  have start : (platform.app.altmem.chunks 0).start = 0x80028000 := by
    rw [same.start, tiled.start_eq 0 many]
    rfl
  have size : (platform.app.altmem.chunks 0).size = 0x1000 := by
    rw [same.size, tiled.size_eq 0 many]
    rfl
  have stores : StoresToChunk linkedApp platform heapFault 0 := by
    refine ⟨rfl, by decide, same.nchunks ▸ many, ?_,
      fun _ before => absurd before (Nat.not_lt_zero _)⟩
    rw [Chunk.Holds, start, size]
    decide
  have slot : platform.app.chunkSlot 0 = 4 := by
    rw [App.chunkSlot, Chunk.stop, start, size, caps]
    exact congrArg toIndex opensHeap.found
  have isCall : platform.rwCall 0 = .rw 4 s3kRw := by
    rw [Platform.rwCall, slot]
  obtain ⟨next, answered⟩ := Option.isSome_iff_exists.mp opensHeap.answers
  have serves :
      Serves obliging heapFault.mem (platform.rwCall 0) monitor next := by
    rw [isCall]
    exact ⟨opensHeap.received, obliging_dependable opensHeap.replies _,
      answered⟩
  exact ⟨_, .cons (.alloc 16 _) <|
    .cons (.served heapFault platform (stores.asks (replyOf next)) serves)
      (.nil _)⟩

/--
The app with the sections of the linker script starts, allocates, and writes to
what it has allocated.
-/
theorem linkedApp_served :
    ∃ globals reached,
      appSetup linkedApp linkedHeap
            (setup obliging 3 blankStack linkedImage appHello deliveryKernel
              fun _ => 0).2.world =
          some globals ∧
        Run (PlatformStep obliging linkedApp) [.alloc 16, .fault heapFault]
            (startedPlatform globals
              (setup obliging 3 blankStack linkedImage appHello deliveryKernel
                fun _ => 0).2)
            reached ∧
          ServedSince obliging linkedApp linkedHeap
            (appGrantList blankStack linkedImage)
            (startedPlatform globals
              (setup obliging 3 blankStack linkedImage appHello deliveryKernel
                fun _ => 0).2)
            reached := by
  have isStarted :
      (setup obliging 3 blankStack linkedImage appHello deliveryKernel
        fun _ => 0).1 = .started := by
    rw [setup_linked]
    decide +kernel
  have opensHeap :
      OpensHeap
        (setup obliging 3 blankStack linkedImage appHello deliveryKernel
          fun _ => 0).2 := by
    rw [setup_linked]
    exact ⟨by decide +kernel, by decide +kernel, by decide +kernel,
      by decide +kernel⟩
  obtain ⟨globals, ready, served⟩ :=
    @reset_run_served linkedApp linkedHeap obliging 3 blankStack linkedImage
      appHello deliveryKernel (fun _ => 0) linkedBounds
      (fun _ _ present => present) (fun _ => rfl) obliging_lender
      deliveryKernel_booted (by decide) isStarted
  generalize
    (setup obliging 3 blankStack linkedImage appHello deliveryKernel
      fun _ => 0).2 = monitor
    at opensHeap ready served ⊢
  obtain ⟨other, otherReady, caps, tiled⟩ :=
    @appSetup_tiles linkedApp linkedHeap linkedBounds monitor.world
  obtain rfl : other = globals :=
    Option.some.inj (otherReady.symm.trans ready)
  obtain ⟨reached, run⟩ := opensHeap.serves tiled caps
  exact ⟨other, reached, ready, run, served _ _ run⟩

end Linked

end S3kMonitor
