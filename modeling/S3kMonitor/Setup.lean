import S3kMonitor.Header
import S3kMonitor.Loop
import S3kMonitor.Lib.ByteAreas

namespace S3kMonitor

open ByteAreas

/-!
# The start of the monitor

`setup` of `monitor/monitor.c`, in the build with `SECURITY` defined: it
prepares the monitor, authenticates the image, loads the binary, hands out
the capabilities of the app and waits for its first message.  What is only
printed is left out.
-/

/-- `S3K_RW`. -/
def s3kRw : Word := 0x3

/-- `SOCKET_PORT1`. -/
def socketPort1 : Nat := 0xa

/-- `SOCKET_PORT2`. -/
def socketPort2 : Nat := 0xb

section Preparation

variable (s3k : S3k)

/-- `setup_time_slices`. -/
def setupTimeSlices (world : World) : World :=
  (capmanDeriveTime s3k 0x18 0 0 32 world).2

/-- `setup_ipc`. -/
def setupIpc (world : World) : World :=
  let world := (capmanDeriveSocket s3k socketPort1 0 0 world).2
  let world := (capmanDeriveSocket s3k 0x20 0 1 world).2
  let world := (capmanMgivecap s3k appPid 0x20 socketPort2 world).2
  let world := (capmanDeriveSocket s3k 0x20 1 0 world).2
  let world := (capmanDeriveSocket s3k socketPort2 1 1 world).2
  (capmanMgivecap s3k appPid 0x20 socketPort1 world).2

/-- `setup_monitor`. -/
def setupMonitor (world : World) : World :=
  let pmpcaps : Vector Byte 8 := Vector.replicate 8 0
  let world :=
    (capmanDerivePmp s3k 0x09 uartBase (uartBase + 0x100) s3kRw world).2
  let pmpcaps := pmpcaps.setIfInBounds 2 0x09
  let world :=
    (capmanDerivePmp s3k 0xc appBase (appBase + appSize) s3kRw world).2
  let pmpcaps := pmpcaps.setIfInBounds 1 0xc
  capmanSetpmp s3k pmpcaps (capmanSetpmp s3k pmpcaps world)

end Preparation

section Sections

/-- The arguments with which a PMP capability is derived for the app. -/
structure PmpGrant where
  start : Word
  stop : Word
  rwx : Word
deriving DecidableEq

/-- `strcmp` finds no difference up to the end of `text`. -/
def strcmpEqual (name : Nat → Byte) (text : List Byte) : Bool :=
  (text ++ [0]).zipIdx.all fun (char, index) => name index = char

/-- `".heap"`. -/
def heapName : List Byte :=
  [0x2e, 0x68, 0x65, 0x61, 0x70]

namespace MemorySection

variable (memorySection : MemorySection)

/-- The `strcmp` with `.heap`. -/
def isHeap : Bool :=
  strcmpEqual memorySection.sectionName heapName

/-- The chunks of a heap. -/
def nchunks : Word :=
  memorySection.size / chunkSize

/-- The capability for a section that is not the heap. -/
def grant : PmpGrant where
  start := appBase + memorySection.offset
  stop := appBase + memorySection.offset + memorySection.size
  rwx := memorySection.rwx.setWidth 64

/-- The capability for chunk `k` of the heap. -/
def chunk (k : Word) : PmpGrant where
  start := appBase + memorySection.offset + k * chunkSize
  stop := appBase + memorySection.offset + k * chunkSize + chunkSize
  rwx := memorySection.rwx.setWidth 64

end MemorySection

/-- `app.header`, as far as it is filled. -/
def Process.sections (app : Process) : List MemorySection :=
  (List.range app.headerLen).map app.header

/-- The state of `setup_app`: `npmp` is a `uint8_t`. -/
structure AppSetup where
  world : World
  npmp : Byte

variable (s3k : S3k)

/-- A capability is derived into slot `0x20` and given to the app from there. -/
def handOut (state : AppSetup) (grant : PmpGrant) : AppSetup where
  world :=
    (capmanMgivecap s3k appPid 0x20 state.npmp.toNat
      (capmanDerivePmp s3k 0x20 grant.start grant.stop grant.rwx
        state.world).2).2
  npmp := state.npmp + 1

/--
The loop over the chunks of a heap, for at most `fuel` rounds; the flag says
whether it has ended.  The step `nchunks - 1` is 0 for a heap of one chunk.
-/
def heapLoop (memorySection : MemorySection) :
    (fuel : Nat) → (k : Word) → AppSetup → AppSetup × Bool
  | 0, _, state => (state, false)
  | fuel + 1, k, state =>
      if k < memorySection.nchunks then
        heapLoop memorySection fuel (k + (memorySection.nchunks - 1))
          (handOut s3k state (memorySection.chunk k))
      else
        (state, true)

/-- The loop over the sections. -/
def setupSections (fuel : Nat) :
    List MemorySection → AppSetup → AppSetup × Bool
  | [], state => (state, true)
  | memorySection :: rest, state =>
      if memorySection.isHeap then
        let heap := heapLoop s3k memorySection fuel 0 state
        if heap.2 then setupSections fuel rest heap.1 else heap
      else
        setupSections fuel rest (handOut s3k state memorySection.grant)

/-- The slots `0` to `npmp - 1`, one for each byte of the PMP register. -/
def pmpSlots : (npmp : Nat) → (ipmp : Word) → Word
  | 0, ipmp => ipmp
  | j + 1, ipmp =>
      pmpSlots j
        ((ipmp + BitVec.ofNat 64 j) <<< (if j ≠ 0 then 0x08 else 0x00))

/-- What the app gets for the UART. -/
def uartGrant : PmpGrant where
  start := uartBase
  stop := uartBase + 0x100
  rwx := s3kRw

/-- What `setup_app` does after its loop over the sections. -/
def finishApp (state : AppSetup) : World :=
  let state := handOut s3k state uartGrant
  let world := (capmanMgivecap s3k appPid 0x18 0xF state.world).2
  let world := (capmanMsetreg s3k appPid .pc appBase world).2
  (capmanMsetreg s3k appPid .pmp (pmpSlots state.npmp.toNat 0) world).2

/-- The state in which `setup_app` begins. -/
def enterSetupApp (world : World) : AppSetup where
  world := { world with trace := .setupApp :: world.trace }
  npmp := 0

/-- `setup_app`, with a flag that says whether it has ended. -/
def setupApp (fuel : Nat) (app : Process) (world : World) : World × Bool :=
  let loop := setupSections s3k fuel app.sections (enterSetupApp world)
  if loop.2 then (finishApp s3k loop.1, true) else (loop.1.world, false)

end Sections

/-- How far `APP_BASE` lies behind the binary in an image at this address. -/
def copyDistance (address : Word) : Nat :=
  (appBase - (address + BitVec.ofNat 64 headerSize)).toNat

/--
`load_app`: `memcpy` copies the binary forward, byte by byte, to `APP_BASE`.
The image lies in the monitor, in front of `APP_BASE`; where the copy reaches
the part of the image that it has written over, it repeats what it has copied.
-/
def loadApp (image : AppBin) (world : World) : World :=
  let count := (image.len - BitVec.ofNat 64 headerSize).toNat
  { world with
    mem :=
      forwardCopy world.mem appBase
        (fun offset => image.get (headerSize + offset))
        (copyDistance image.address) count
    trace := .loadApp :: world.trace }

/-- The code that `setup` computes for an image. -/
def imageSignature (image : AppBin) : Option Block :=
  calcSig (fun offset => image.get (signatureSize + offset))
    (toInt (image.len - BitVec.ofNat 64 signatureSize))

/-- How `setup` ends; `undefined` where C gives the code no meaning. -/
inductive SetupEnd where
  | undefined
  | rejected
  | diverged
  | failed
  | started
deriving DecidableEq

/-- The state in which the monitor begins. -/
def bootWorld (kernel : Kernel) (mem : Memory) : World where
  kernel := kernel
  caps := fun _ => .none
  mem := mem
  trace := []

section Setup

variable
  (s3k : S3k)
  (fuel : Nat)
  (stack : Process)
  (image : AppBin)
  (hello : Words)
  (kernel : Kernel)
  (mem : Memory)

/-- The part of `setup` before the image is looked at. -/
def prepare : World :=
  let world := bootWorld kernel mem
  let world := (world.call s3k (.delcap 4)).2
  let world := (world.call s3k (.delcap 5)).2
  let world := (world.call s3k (.delcap 6)).2
  setupTimeSlices s3k (setupMonitor s3k (capmanInit world))

/-- The global variables when the monitor starts, around a state. -/
def atStart (world : World) : Monitor where
  world := world
  appRunning := false
  recvBuf := Vector.replicate 4 0
  soccaps := Vector.replicate 8 0

/-- The part of `setup` after the app has its capabilities. -/
def startApp (world : World) : SetupEnd × Monitor :=
  let world := setupIpc s3k world
  let soccaps := capmanGetsoc (Vector.replicate 8 0) world
  let world := (capmanMresume s3k appPid world).2
  let result :=
    world.call s3k (.recv (soccaps[0]!).toNat (2 ^ 64 - 1) hello 0)
  let recvBuf :=
    if result.1 = s3k.excptNone then hello else Vector.replicate 4 0
  if recvBuf[0]! ≠ -1 then
    (.failed, { atStart result.2 with recvBuf, soccaps })
  else
    (.started, { atStart result.2 with recvBuf, soccaps, appRunning := true })

/-- The part of `setup` behind the comparison of the signatures. -/
def afterAuthentication (world : World) : SetupEnd × Monitor :=
  let app := parseExecutable stack (BitVec.ofNat 8 appPid) image.get
  let loaded := loadApp image world
  let appSetup := setupApp s3k fuel app loaded
  if appSetup.2 then startApp s3k hello appSetup.1
  else (.diverged, atStart appSetup.1)

/-- `setup` of the monitor. -/
def setup : SetupEnd × Monitor :=
  let world := prepare s3k kernel mem
  match imageSignature image with
  | none => (.undefined, atStart world)
  | some signature =>
      if compSig (blockAt image.get 0) signature ≠ 1 then
        (.rejected, atStart world)
      else
        afterAuthentication s3k fuel stack image hello world

end Setup

end S3kMonitor
