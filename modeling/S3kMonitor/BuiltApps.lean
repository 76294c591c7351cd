import S3kMonitor.BootIntegrity
import S3kMonitor.HeapChunks

namespace S3kMonitor

open Runs Holdings HexText

/-!
# Apps as the build makes them

`tools/getsections.py` takes six sections from the linked app and gives each
of them fixed permissions, and `tools/app_format.c` makes the image of that.
If the linker has placed the sections apart, as `misc/pmp_compatible.lds`
does, then nothing more has to be asked of an app.
-/

/-- The names that `getsections.py` looks for. -/
inductive AppSection where
  | text
  | data
  | rodata
  | bss
  | heap
  | stack
deriving DecidableEq

namespace AppSection

/-- The name of a section, as text. -/
def name : AppSection → List Byte
  | .text => [0x2e, 0x74, 0x65, 0x78, 0x74]
  | .data => [0x2e, 0x64, 0x61, 0x74, 0x61]
  | .rodata => [0x2e, 0x72, 0x6f, 0x64, 0x61, 0x74, 0x61]
  | .bss => [0x2e, 0x62, 0x73, 0x73]
  | .heap => heapName
  | .stack => [0x2e, 0x73, 0x74, 0x61, 0x63, 0x6b]

/-- `get_permissions`, with a bit each for `R`, `W` and `X`. -/
def getPermissions : AppSection → Nat
  | .text => 0x5
  | .data => 0x3
  | .rodata => 0x1
  | .bss => 0x3
  | .heap => 0x1
  | .stack => 0x3

/-- `sections`, in the order in which they are printed. -/
def all : List AppSection :=
  [.text, .data, .rodata, .bss, .heap, .stack]

/-- No name is empty. -/
theorem name_ne_nil (appSection : AppSection) : appSection.name ≠ [] := by
  cases appSection <;> decide

/-- Every name fits into the seven bytes of the header. -/
theorem name_length_le (appSection : AppSection) :
    appSection.name.length ≤ 7 := by
  cases appSection <;> decide

/-- Names are ASCII and hold no NUL. -/
theorem name_ascii (appSection : AppSection) :
    ∀ byte ∈ appSection.name, byte ≠ 0 ∧ byte.toNat < 0x80 := by
  cases appSection <;> decide

/-- The three permission bits. -/
theorem getPermissions_lt (appSection : AppSection) :
    appSection.getPermissions < 8 := by
  cases appSection <;> decide

/-- The list has all sections. -/
theorem mem_all (appSection : AppSection) : appSection ∈ all := by
  cases appSection <;> decide

/-- It has each of them once. -/
theorem all_nodup : all.Nodup := by
  decide

end AppSection

/-- `sh_addr` and `data_size` of a section below 4 GiB. -/
structure ElfSection where
  shAddr : Nat
  dataSize : Nat
  shAddr_lt : shAddr < 2 ^ 32
  dataSize_lt : dataSize < 2 ^ 32

/-- A linked app: `get_section_by_name`. -/
abbrev AppElf :=
  AppSection → Option ElfSection

/-- What is printed for a section. -/
def sectionInfo (appSection : AppSection) (elfSection : ElfSection) :
    SectionInfo where
  name := appSection.name
  addr := elfSection.shAddr
  size := elfSection.dataSize
  permissions := appSection.getPermissions
  name_ne_nil := appSection.name_ne_nil
  name_length_le := appSection.name_length_le
  name_ascii := appSection.name_ascii
  addr_lt := elfSection.shAddr_lt
  size_lt := elfSection.dataSize_lt
  permissions_lt := appSection.getPermissions_lt

/-- The loop of `getsections.py`; sections that the app has not are skipped. -/
def getsections (appelf : AppElf) : List SectionInfo :=
  AppSection.all.filterMap fun appSection =>
    (appelf appSection).map (sectionInfo appSection)

/-- No two sections share an address. -/
def LaidOut (appelf : AppElf) : Prop :=
  ∀ first second firstElf secondElf,
    first ≠ second →
    appelf first = some firstElf →
    appelf second = some secondElf →
    firstElf.shAddr + firstElf.dataSize ≤ secondElf.shAddr ∨
      secondElf.shAddr + secondElf.dataSize ≤ firstElf.shAddr

/-- What `setup_app` derives for such an app. -/
def builtGrants (appelf : AppElf) : List PmpGrant :=
  ((getsections appelf).map SectionInfo.toSection).flatMap
      MemorySection.endGrants ++
    [uartGrant]

section Placement

/-- The grant lies between two offsets from `APP_BASE`. -/
structure PmpGrant.Within
    (grant : PmpGrant)
    (first last : Nat) :
    Prop where
  start : 0x80020000 + first ≤ grant.start.toNat
  order : grant.start.toNat ≤ grant.stop.toNat
  stop : grant.stop.toNat ≤ 0x80020000 + last

/-- Where one grant ends before another begins, their regions are disjoint. -/
theorem disjoint_of_stop_le
    {first second : PmpGrant}
    (positive : 0 < first.stop.toNat)
    (before : first.stop.toNat ≤ second.start.toNat) :
    Disjoint (region first.start first.stop)
      (region second.start second.stop) := by
  rw [Set.disjoint_left]
  rintro address ⟨-, belowStop⟩ ⟨aboveStart, -⟩
  rw [BitVec.le_def] at belowStop aboveStart
  bv_omega

/-- Regions that lie within ranges apart from each other are disjoint. -/
theorem PmpGrant.Within.disjoint
    {grant other : PmpGrant}
    {first last otherFirst otherLast : Nat}
    (within : grant.Within first last)
    (otherWithin : other.Within otherFirst otherLast)
    (apart : last ≤ otherFirst ∨ otherLast ≤ first) :
    Disjoint (region grant.start grant.stop)
      (region other.start other.stop) := by
  have start := within.start
  have order := within.order
  have stop := within.stop
  have otherStart := otherWithin.start
  have otherOrder := otherWithin.order
  have otherStop := otherWithin.stop
  rcases apart with before | after
  · exact disjoint_of_stop_le (by omega) (by omega)
  · exact (disjoint_of_stop_le (by omega) (by omega)).symm

variable (info : SectionInfo)

/-- The region of a section lies within its bytes. -/
theorem grant_within :
    info.toSection.grant.Within info.addr (info.addr + info.size) := by
  have addr := info.addr_lt
  have size := info.size_lt
  constructor <;>
    simp only [MemorySection.grant, SectionInfo.toSection, appBase] <;>
    bv_omega

/-- The number of chunks of a heap, as a word. -/
theorem nchunks_toSection :
    info.toSection.nchunks = BitVec.ofNat 64 (info.size / 0x1000) := by
  have size := info.size_lt
  have chunk : chunkSize.toNat = 0x1000 := rfl
  apply BitVec.eq_of_toNat_eq
  rw [MemorySection.nchunks, BitVec.toNat_udiv, SectionInfo.toSection,
    BitVec.toNat_ofNat, BitVec.toNat_ofNat, chunk]
  omega

/-- A chunk lies within its page of the heap. -/
theorem chunk_within
    {k : Nat}
    (inHeap : (k + 1) * 0x1000 ≤ info.size) :
    (info.toSection.chunk (BitVec.ofNat 64 k)).Within
      (info.addr + k * 0x1000) (info.addr + (k + 1) * 0x1000) := by
  have addr := info.addr_lt
  have size := info.size_lt
  constructor <;>
    simp only [MemorySection.chunk, SectionInfo.toSection, appBase,
      chunkSize] <;>
    bv_omega

/-- The end chunks of a heap, which are two unless it has fewer. -/
theorem endChunks_toSection :
    info.toSection.endChunks =
      if info.size / 0x1000 = 0 then
        []
      else if info.size / 0x1000 = 1 then
        [0]
      else
        [0, BitVec.ofNat 64 (info.size / 0x1000 - 1)] := by
  have size := info.size_lt
  have isNumber (number : Nat) (small : number < 2 ^ 64) :
      info.toSection.nchunks = BitVec.ofNat 64 number ↔
        info.size / 0x1000 = number := by
    rw [nchunks_toSection]
    bv_omega
  have last :
      info.size / 0x1000 ≠ 0 →
        info.toSection.nchunks - 1 =
          BitVec.ofNat 64 (info.size / 0x1000 - 1) := by
    intro notZero
    rw [nchunks_toSection]
    bv_omega
  have isZero : info.toSection.nchunks = 0 ↔ info.size / 0x1000 = 0 :=
    isNumber 0 (by decide)
  have isOne : info.toSection.nchunks = 1 ↔ info.size / 0x1000 = 1 :=
    isNumber 1 (by decide)
  simp only [MemorySection.endChunks]
  by_cases zero : info.size / 0x1000 = 0
  · rw [if_pos zero, if_pos (isZero.mpr zero)]
  · rw [if_neg zero, if_neg fun same => zero (isZero.mp same), last zero]
    by_cases one : info.size / 0x1000 = 1
    · rw [if_pos one, if_pos (isOne.mpr one)]
    · rw [if_neg one, if_neg fun same => one (isOne.mp same)]

/-- Every grant for a section lies in the section and has its permissions. -/
theorem endGrants_within
    {grant : PmpGrant}
    (member : grant ∈ info.toSection.endGrants) :
    grant.Within info.addr (info.addr + info.size) ∧
      grant.rwx = info.toSection.rwx.setWidth 64 := by
  rw [MemorySection.endGrants] at member
  split at member
  · obtain ⟨k, isEnd, rfl⟩ := List.mem_map.mp member
    refine ⟨?_, rfl⟩
    rw [endChunks_toSection] at isEnd
    have inHeap :
        ∃ number, number < info.size / 0x1000 ∧ k = BitVec.ofNat 64 number := by
      split at isEnd
      · cases isEnd
      · next notZero =>
        split at isEnd
        · exact ⟨0, by omega, by simpa using isEnd⟩
        · rcases List.mem_pair.mp isEnd with isFirst | isLast
          · exact ⟨0, by omega, isFirst⟩
          · exact ⟨_, by omega, isLast⟩
    obtain ⟨number, below, rfl⟩ := inHeap
    have within := chunk_within info (k := number) (by omega)
    exact
      { start := by have := within.start; omega
        order := within.order
        stop := by have := within.stop; omega }
  · rw [List.mem_singleton.mp member]
    exact ⟨grant_within info, rfl⟩

/-- The two end chunks of a heap are apart. -/
theorem endGrants_pairwise :
    info.toSection.endGrants.Pairwise fun first second =>
      Disjoint (region first.start first.stop)
        (region second.start second.stop) := by
  rw [MemorySection.endGrants]
  split
  · rw [endChunks_toSection]
    split
    · exact List.Pairwise.nil
    · split
      · exact List.pairwise_singleton _ _
      · refine List.pairwise_pair.mpr ?_
        have first := chunk_within info (k := 0) (by omega)
        have last :=
          chunk_within info (k := info.size / 0x1000 - 1) (by omega)
        exact first.disjoint last (Or.inl (by omega))
  · exact List.pairwise_singleton _ _

end Placement

section Grants

variable {appelf : AppElf}

/-- The printed sections are those of the linked file. -/
theorem mem_getsections_iff
    {info : SectionInfo} :
    info ∈ getsections appelf ↔
      ∃ appSection elfSection,
        appelf appSection = some elfSection ∧
          info = sectionInfo appSection elfSection := by
  simp only [getsections, List.mem_filterMap, Option.map_eq_some_iff]
  constructor
  · rintro ⟨appSection, -, elfSection, isSection, rfl⟩
    exact ⟨appSection, elfSection, isSection, rfl⟩
  · rintro ⟨appSection, elfSection, isSection, rfl⟩
    exact ⟨appSection, appSection.mem_all, elfSection, isSection, rfl⟩

/-- They are fewer than the eight that the header has room for. -/
theorem length_getsections_lt : (getsections appelf).length < 8 := by
  have atMost :=
    List.length_filterMap_le
      (fun appSection => (appelf appSection).map (sectionInfo appSection))
      AppSection.all
  have six : AppSection.all.length = 6 := rfl
  rw [getsections]
  omega

/-- What the linker has placed apart is printed as apart. -/
theorem LaidOut.pairwise
    (laidOut : LaidOut appelf) :
    (getsections appelf).Pairwise fun first second =>
      first.addr + first.size ≤ second.addr ∨
        second.addr + second.size ≤ first.addr := by
  refine List.Pairwise.filterMap _ ?_ AppSection.all_nodup
  intro first second differ info isFirst otherInfo isSecond
  obtain ⟨firstElf, firstSection, rfl⟩ := Option.map_eq_some_iff.mp isFirst
  obtain ⟨secondElf, secondSection, rfl⟩ := Option.map_eq_some_iff.mp isSecond
  exact laidOut first second firstElf secondElf differ firstSection
    secondSection

/-- The permissions as the monitor passes them on. -/
def AppSection.rwx (appSection : AppSection) : Word :=
  (BitVec.ofNat 8 appSection.getPermissions).setWidth 64

/-- No section of the six is given `W` and `X`. -/
theorem AppSection.rwx_notBoth (appSection : AppSection) :
    ¬ (appSection.rwx &&& 0x2 ≠ 0 ∧ appSection.rwx &&& 0x4 ≠ 0) := by
  cases appSection <;> decide

/-- Only `.text` is executable. -/
theorem AppSection.rwx_executable_iff (appSection : AppSection) :
    appSection.rwx &&& 0x4 ≠ 0 ↔ appSection = .text := by
  cases appSection <;> decide

/-- The grants for a section have its rights. -/
theorem endGrants_rwx
    {appSection : AppSection}
    {elfSection : ElfSection}
    {grant : PmpGrant}
    (member :
      grant ∈ (sectionInfo appSection elfSection).toSection.endGrants) :
    grant.rwx = appSection.rwx :=
  (endGrants_within _ member).2

/-- Every grant but the last belongs to a section of the app. -/
theorem mem_builtGrants
    {grant : PmpGrant}
    (member : grant ∈ builtGrants appelf) :
    (∃ appSection elfSection,
        appelf appSection = some elfSection ∧
          grant ∈ (sectionInfo appSection elfSection).toSection.endGrants) ∨
      grant = uartGrant := by
  rcases List.mem_append.mp member with ofSection | isUart
  · obtain ⟨memorySection, isSection, inSection⟩ :=
      List.mem_flatMap.mp ofSection
    obtain ⟨info, isInfo, rfl⟩ := List.mem_map.mp isSection
    obtain ⟨appSection, elfSection, inElf, rfl⟩ :=
      mem_getsections_iff.mp isInfo
    exact Or.inl ⟨appSection, elfSection, inElf, inSection⟩
  · exact Or.inr (List.mem_singleton.mp isUart)

/-- The grants of an app that is laid out are separate. -/
theorem LaidOut.separate
    (laidOut : LaidOut appelf) :
    Separate (builtGrants appelf) := by
  constructor
  · rw [builtGrants, List.pairwise_append]
    refine ⟨?_, List.pairwise_singleton _ _, ?_⟩
    · rw [List.flatMap_map, List.pairwise_flatMap]
      constructor
      · exact fun info _ =>
          (endGrants_pairwise info).imp fun apart _ _ => apart
      · refine laidOut.pairwise.imp ?_
        intro info otherInfo apart grant member other otherMember _ _
        exact (endGrants_within info member).1.disjoint
          (endGrants_within otherInfo otherMember).1 apart
    · intro grant member uart isUart _ _
      rw [List.mem_singleton.mp isUart]
      obtain ⟨memorySection, isSection, inSection⟩ :=
        List.mem_flatMap.mp member
      obtain ⟨info, -, rfl⟩ := List.mem_map.mp isSection
      have start := (endGrants_within info inSection).1.start
      have uartStop : uartGrant.stop.toNat = 0x10000100 := rfl
      exact (disjoint_of_stop_le (by omega) (by omega)).symm
  · intro grant member
    rcases mem_builtGrants member with
      ⟨appSection, elfSection, -, inSection⟩ | rfl
    · rw [endGrants_rwx inSection]
      exact appSection.rwx_notBoth
    · decide

/-- A section is executable only if it is `.text`, and then as a whole. -/
theorem executable_builtGrant
    {grant : PmpGrant}
    (member : grant ∈ builtGrants appelf)
    (hasX : grant.rwx &&& 0x4 ≠ 0) :
    ∃ text,
      appelf .text = some text ∧
        grant = (sectionInfo .text text).toSection.grant := by
  rcases mem_builtGrants member with
    ⟨appSection, elfSection, inElf, inSection⟩ | rfl
  · rw [endGrants_rwx inSection, appSection.rwx_executable_iff] at hasX
    subst hasX
    have notHeap :
        (sectionInfo .text elfSection).toSection.isHeap ≠ true := by
      rw [Ne, isHeap_iff, SectionInfo.cString_toSection]
      exact nofun
    rw [MemorySection.endGrants, if_neg notHeap] at inSection
    exact ⟨elfSection, inElf, List.mem_singleton.mp inSection⟩
  · exact absurd hasX (by decide)

end Grants

section Built

/-- The addresses at which the linked section stands once it is loaded. -/
def ElfSection.area (elfSection : ElfSection) : Set Word :=
  region (appBase + BitVec.ofNat 64 elfSection.shAddr)
    (appBase + BitVec.ofNat 64 elfSection.shAddr +
      BitVec.ofNat 64 elfSection.dataSize)

/--
What holds in a run of an app that was built from a linked file and a binary:
no address is writable and executable, the app writes nothing outside its
sections and the UART, and what is executable is its `.text` as it was loaded,
or has been made so in a pass in which a signature verified.  Others write to
the addresses in `foreign`, and may have done so there.
-/
structure RunsAsBuilt
    (s3k : S3k)
    (foreign : Set Word)
    (appelf : AppElf)
    (loaded : Memory)
    (labels : List ConfinedLabel)
    (start final : System) :
    Prop where
  writeXorExecute :
    ∀ address,
      ¬ (Permits (granted final.monitor.world.kernel) 0x2 address ∧
          Permits (granted final.monitor.world.kernel) 0x4 address)
  isolation :
    ∀ address ∉ foreign,
      (∀ appSection elfSection, appelf appSection = some elfSection →
        address ∉ elfSection.area) →
      address ∉ uartRegion →
      final.monitor.world.mem address = loaded address
  code :
    ∀ area, Executable area final →
      (∃ text,
        appelf .text = some text ∧ area = text.area ∧
          ∀ address ∈ area \ foreign,
            final.monitor.world.mem address = loaded address) ∨
      GrantedXAndKept s3k foreign labels start final area

variable
  {s3k : S3k}
  {fuel : Nat}
  {stack : Process}
  {image : AppBin}
  {hello : Words}
  {kernel : Kernel}
  {mem : Memory}
  {appelf : AppElf}
  {binary : List Byte}

/-- The regions for a section lie in the section. -/
theorem region_subset_area
    {appSection : AppSection}
    {elfSection : ElfSection}
    {grant : PmpGrant}
    (member :
      grant ∈ (sectionInfo appSection elfSection).toSection.endGrants)
    (napot : Napot grant.start grant.stop) :
    region grant.start grant.stop ⊆ elfSection.area := by
  have within := (endGrants_within _ member).1
  have start := within.start
  have order := within.order
  have stop := within.stop
  have nonempty := napot.start_le
  have addr := elfSection.shAddr_lt
  have size := elfSection.dataSize_lt
  rw [ElfSection.area, region_subset_iff nonempty, appBase]
  simp only [sectionInfo] at start stop
  rw [BitVec.le_def] at nonempty
  constructor <;> bv_omega

/-- The image is the one that `app_format.c` has written. -/
theorem appFormat_some
    {sectioninfo : Text}
    {file : List Byte}
    (written : appFormat sectioninfo binary = some file) :
    binary.length + sectionsSize ≤ 2 ^ 31 - 16 ∧
      file =
        (signatureOf (headerBuffer sectioninfo ++ binary)).toList ++
          (headerBuffer sectioninfo ++ binary) := by
  have isInt : binary.length + sectionsSize < 2 ^ 31 := by
    by_contra tooLarge
    have notInt : ¬ (binary.length + sectionsSize : Nat) ≤ intMax := by
      simp only [intMax]
      omega
    rw [appFormat, if_neg notInt] at written
    cases written
  rw [appFormat_eq isInt] at written
  split at written
  · next defined =>
    exact ⟨defined, (Option.some.inj written).symm⟩
  · cases written

/-- What the monitor hands out is what the linker has laid out. -/
theorem appGrantList_built
    (isImage :
      image.bytes =
        (signatureOf
            (headerBuffer (sectionsText (getsections appelf)) ++
              binary)).toList ++
          (headerBuffer (sectionsText (getsections appelf)) ++ binary))
    (isStarted :
      (setup s3k fuel stack image hello kernel mem).1 = .started) :
    appGrantList stack image = builtGrants appelf := by
  have resumes : Resumes s3k fuel stack image hello kernel mem :=
    Or.inr isStarted
  have same :=
    imageSections_written length_getsections_lt isImage stack
  have noneEndless :
      ∀ memorySection ∈ imageSections stack image,
        ¬ memorySection.Endless := by
    intro memorySection member endless
    have diverges :=
      setupApp_diverges s3k fuel member endless
        (beforeSetupApp s3k image kernel mem)
    rw [resumes.finishes] at diverges
    cases diverges
  have printedEnd := (noneEndless_congr same).mp noneEndless
  have reached := sectionsGrants_endGrants printedEnd
  rw [appGrantList, builtGrants, reachedGrants_congr same,
    ← sectionsGrants_ended (congrArg Prod.snd reached), reached]

end Built

section Linked

/-- A section that `misc/pmp_compatible.lds` places. -/
def placedSection (shAddr dataSize : BitVec 32) : Option ElfSection :=
  some
    { shAddr := shAddr.toNat
      dataSize := dataSize.toNat
      shAddr_lt := shAddr.isLt
      dataSize_lt := dataSize.isLt }

/-- The layout of `misc/pmp_compatible.lds`, with the stack of `start.S`. -/
def linkedElf : AppElf
  | .text => placedSection 0x0 0x2000
  | .data => placedSection 0x2000 0x2000
  | .rodata => placedSection 0x4000 0x2000
  | .bss => placedSection 0x6000 0x2000
  | .heap => placedSection 0x8000 0x7000
  | .stack => placedSection 0xF000 0x1000

/-- The sections of the linker script lie apart. -/
theorem linkedElf_laidOut : LaidOut linkedElf := by
  intro first second firstElf secondElf differ isFirst isSecond
  cases first <;> cases second <;> cases isFirst <;> cases isSecond <;>
    first
      | exact absurd rfl differ
      | decide

/-- `nop` and a jump to itself. -/
def linkedBinary : List Byte :=
  [0x13, 0x00, 0x00, 0x00, 0x6f, 0x00, 0x00, 0x00]

/-- The image of such an app. -/
def linkedImage : AppBin :=
  signedImage
    (headerBuffer (sectionsText (getsections linkedElf)) ++ linkedBinary)
    (by rw [length_formatted]; decide)

/-- The signature stands in front of header and binary. -/
theorem linkedImage_bytes :
    linkedImage.bytes =
      (signatureOf
          (headerBuffer (sectionsText (getsections linkedElf)) ++
            linkedBinary)).toList ++
        (headerBuffer (sectionsText (getsections linkedElf)) ++
          linkedBinary) :=
  rfl

/-- The rounds of `setup_app` for its seven grants, and what comes after. -/
theorem setup_linked (hello : Words) :
    setup obliging 3 blankStack linkedImage hello deliveryKernel
        (fun _ => 0) =
      startApp obliging hello
        (finishApp obliging
          ((((getsections linkedElf).map SectionInfo.toSection).flatMap
            MemorySection.endGrants).foldl (handOut obliging)
            (enterSetupApp
              (beforeSetupApp obliging linkedImage deliveryKernel
                fun _ => 0)))) := by
  have grants :
      sectionsGrants 3
          ((getsections linkedElf).map SectionInfo.toSection) =
        (((getsections linkedElf).map SectionInfo.toSection).flatMap
          MemorySection.endGrants, true) := by
    decide +kernel
  have accepts : Accepts linkedImage :=
    signedImage_accepts _ (by rw [length_formatted]; decide)
  have outcome :=
    setup_written obliging 3 blankStack hello deliveryKernel (fun _ => 0)
      length_getsections_lt linkedImage_bytes accepts
  simp only [grants, if_true] at outcome
  exact outcome

/-- It is what the tool makes of the linked file. -/
theorem linkedImage_built :
    appFormat (sectionsText (getsections linkedElf)) linkedBinary =
      some linkedImage.bytes := by
  rw [appFormat_eq (by decide), if_pos (by decide), linkedImage_bytes]

/-- The app and the monitor once this app has been started. -/
def linkedSystem : System :=
  runningSystem
    (setup obliging 3 blankStack linkedImage helloWords deliveryKernel
      fun _ => 0).2

end Linked

end S3kMonitor
