import S3kMonitor.AppFormat
import S3kMonitor.Handout

namespace S3kMonitor

/-!
# What a written header hands out

A header that the tools write for up to seven sections makes `setup_app` hand
out what these sections say.
-/

section Names

variable
  {Value : Type}
  {test : Value → Bool}
  {first : Value}
  {rest : List Value}

private theorem takeWhile_eq_nil_iff :
    (first :: rest).takeWhile test = [] ↔ test first = false := by
  rw [List.takeWhile_cons]
  split
  · next passes => simp [passes]
  · next fails => simpa using fails

private theorem takeWhile_eq_cons_iff
    {second : Value}
    {list : List Value} :
    (first :: rest).takeWhile test = second :: list ↔
      test first = true ∧ first = second ∧ rest.takeWhile test = list := by
  rw [List.takeWhile_cons]
  split
  · next passes => simp [passes]
  · next fails => simp [fails]

/-- The comparison with `".heap"` looks at the name as a C string. -/
theorem isHeap_iff (memorySection : MemorySection) :
    memorySection.isHeap = true ↔
      cString memorySection.sectionName = heapName := by
  have eight (name : Nat → Byte) :
      (List.range 8).map name =
        [name 0, name 1, name 2, name 3, name 4, name 5, name 6, name 7] :=
    rfl
  simp only [cString, eight, heapName, takeWhile_eq_cons_iff,
    takeWhile_eq_nil_iff, MemorySection.isHeap, strcmpEqual]
  constructor
  · intro same
    simp at same
    simp [same]
  · intro same
    simp at same
    simp [same]

end Names

/-- Two sections that `setup_app` cannot tell apart. -/
structure SameGrants (first second : MemorySection) : Prop where
  name : cString first.sectionName = cString second.sectionName
  offset : first.offset = second.offset
  size : first.size = second.size
  rwx : first.rwx = second.rwx

section Sections

variable {first second : MemorySection}

/-- Sections with the same grants are both heaps, or neither is. -/
theorem SameGrants.isHeap
    (same : SameGrants first second) :
    first.isHeap = second.isHeap := by
  rw [Bool.eq_iff_iff, isHeap_iff, isHeap_iff, same.name]

/-- They have the same number of chunks. -/
theorem SameGrants.nchunks
    (same : SameGrants first second) :
    first.nchunks = second.nchunks := by
  rw [MemorySection.nchunks, MemorySection.nchunks, same.size]

/-- Their chunks are the same. -/
theorem SameGrants.chunk
    (same : SameGrants first second) :
    first.chunk = second.chunk := by
  funext k
  rw [MemorySection.chunk, MemorySection.chunk, same.offset, same.rwx]

/-- So is the grant for the whole section. -/
theorem SameGrants.grant
    (same : SameGrants first second) :
    first.grant = second.grant := by
  rw [MemorySection.grant, MemorySection.grant, same.offset, same.size,
    same.rwx]

/-- So are the grants that the loop makes. -/
theorem SameGrants.grants
    (same : SameGrants first second) :
    first.grants = second.grants := by
  rw [MemorySection.grants, MemorySection.grants, same.isHeap, same.nchunks,
    same.chunk, same.grant]

/-- And those of the loop over a heap, from any chunk on. -/
theorem SameGrants.heapGrants
    (same : SameGrants first second)
    (fuel : Nat)
    (k : Word) :
    heapGrants first fuel k = heapGrants second fuel k := by
  induction fuel generalizing k with
  | zero =>
      rfl
  | succ fuel inductionHypothesis =>
      rw [S3kMonitor.heapGrants, S3kMonitor.heapGrants, same.nchunks,
        same.chunk, inductionHypothesis]

/-- The loop over them ends, or does not, for both. -/
theorem SameGrants.endless
    (same : SameGrants first second) :
    first.Endless ↔ second.Endless := by
  simp only [MemorySection.Endless, MemorySection.nchunks, same.isHeap,
    same.size]

/-- Headers with the same grants reach the same grants. -/
theorem reachedGrants_congr
    {firstSections secondSections : List MemorySection}
    (same : List.Forall₂ SameGrants firstSections secondSections) :
    reachedGrants firstSections = reachedGrants secondSections := by
  induction same with
  | nil =>
      rfl
  | cons head _ inductionHypothesis =>
      simp only [reachedGrants, head.grants, head.endless,
        inductionHypothesis]

/-- Their loops come to the same, with any bound on the rounds. -/
theorem sectionsGrants_congr
    {firstSections secondSections : List MemorySection}
    (same : List.Forall₂ SameGrants firstSections secondSections)
    (fuel : Nat) :
    sectionsGrants fuel firstSections = sectionsGrants fuel secondSections := by
  induction same with
  | nil =>
      rfl
  | cons head _ inductionHypothesis =>
      simp only [sectionsGrants, head.isHeap, head.heapGrants, head.grant,
        inductionHypothesis]

/-- They have their heaps in the same places. -/
theorem isHeap_congr
    {firstSections secondSections : List MemorySection}
    (same : List.Forall₂ SameGrants firstSections secondSections) :
    firstSections.map MemorySection.isHeap =
      secondSections.map MemorySection.isHeap := by
  induction same with
  | nil =>
      rfl
  | cons head _ inductionHypothesis =>
      rw [List.map_cons, List.map_cons, head.isHeap, inductionHypothesis]

/-- None of their loops is endless, or one is in both. -/
theorem noneEndless_congr
    {firstSections secondSections : List MemorySection}
    (same : List.Forall₂ SameGrants firstSections secondSections) :
    (∀ memorySection ∈ firstSections, ¬ memorySection.Endless) ↔
      ∀ memorySection ∈ secondSections, ¬ memorySection.Endless := by
  induction same with
  | nil =>
      simp
  | cons head _ inductionHypothesis =>
      simp only [List.forall_mem_cons, head.endless, inductionHypothesis]

end Sections

namespace SectionInfo

/-- The section that a description stands for. -/
def toSection (info : SectionInfo) : MemorySection where
  sectionName := fun index => info.name.getD index 0
  offset := BitVec.ofNat 64 info.addr
  size := BitVec.ofNat 64 info.size
  rwx := BitVec.ofNat 8 info.permissions

/-- The name in the header is the one that was printed. -/
theorem cString_toSection (info : SectionInfo) :
    cString info.toSection.sectionName = info.name := by
  have short := info.name_length_le
  have filled :
      (List.range 8).map info.toSection.sectionName =
        info.name ++ List.replicate (8 - info.name.length) 0 := by
    apply List.ext_getElem
    · simp
      omega
    · intro index _ _
      rw [List.getElem_map, List.getElem_range, List.getElem_append]
      split
      · next inName => simp [toSection, inName]
      · next outside => simp [toSection, Nat.le_of_not_lt outside]
  have noNul : ∀ byte ∈ info.name, decide (byte ≠ 0) = true :=
    fun byte member => by simpa using (info.name_ascii byte member).1
  rw [cString, filled, List.takeWhile_append_of_pos noNul]
  simp

end SectionInfo

section Written

variable
  {infos : List SectionInfo}
  {signature : Block}
  {binary : List Byte}
  {image : AppBin}

/-- The monitor sees the sections that the tools were given. -/
theorem imageSections_written
    (notFull : infos.length < 8)
    (isImage :
      image.bytes =
        signature.toList ++ (headerBuffer (sectionsText infos) ++ binary))
    (stack : Process) :
    List.Forall₂ SameGrants (imageSections stack image)
      (infos.map SectionInfo.toSection) := by
  have reads :
      image.get =
        sectionsImage infos signature (listBuffer binary image.beyond) := by
    rw [AppBin.get, isImage, ← List.append_assoc, listBuffer_append,
      sectionsImage]
  obtain ⟨length, sections⟩ :=
    readBack_of_lt notFull signature (listBuffer binary image.beyond) stack
      (BitVec.ofNat 8 appPid)
  rw [← reads] at length sections
  rw [imageSections, Process.sections, List.forall₂_iff_get]
  refine ⟨by simp [length], fun index inFirst inSecond => ?_⟩
  have inRange : index < infos.length := by
    simpa using inSecond
  obtain ⟨name, offset, size, rwx⟩ := sections index inRange
  simp only [List.get_eq_getElem, List.getElem_map, List.getElem_range]
  exact ⟨name.trans infos[index].cString_toSection.symm, offset, size, rwx⟩

/-- So the grants are those of the sections that the tools were given. -/
theorem appGrant_written
    (notFull : infos.length < 8)
    (isImage :
      image.bytes =
        signature.toList ++ (headerBuffer (sectionsText infos) ++ binary))
    (stack : Process)
    (grant : PmpGrant) :
    AppGrant (imageSections stack image) grant ↔
      AppGrant (infos.map SectionInfo.toSection) grant := by
  have same := imageSections_written notFull isImage stack
  rw [AppGrant, AppGrant, reachedGrants_congr same, noneEndless_congr same]

/-- Behind the signature the run of `setup` depends on the sections only. -/
theorem setup_written
    (s3k : S3k)
    (fuel : Nat)
    (stack : Process)
    (hello : Words)
    (kernel : Kernel)
    (mem : Memory)
    (notFull : infos.length < 8)
    (isImage :
      image.bytes =
        signature.toList ++ (headerBuffer (sectionsText infos) ++ binary))
    (accepts : Accepts image) :
    setup s3k fuel stack image hello kernel mem =
      let grants := sectionsGrants fuel (infos.map SectionInfo.toSection)
      let state :=
        grants.1.foldl (handOut s3k)
          (enterSetupApp (beforeSetupApp s3k image kernel mem))
      if grants.2 then startApp s3k hello (finishApp s3k state)
      else (.diverged, atStart state.world) := by
  have grants :
      sectionsGrants fuel
          (parseExecutable stack (BitVec.ofNat 8 appPid) image.get).sections =
        sectionsGrants fuel (infos.map SectionInfo.toSection) :=
    sectionsGrants_congr (imageSections_written notFull isImage stack) fuel
  rw [setup_of_accepts s3k fuel stack hello kernel mem accepts,
    afterAuthentication_eq]
  simp only [setupApp_eq, grants, beforeSetupApp]
  by_cases ends :
      (sectionsGrants fuel (infos.map SectionInfo.toSection)).2
  · simp only [if_pos ends, if_true]
  · simp only [if_neg ends, Bool.false_eq_true, if_false]

/-- An image without a binary, as the tools sign it. -/
def writtenImage (infos : List SectionInfo) : AppBin :=
  signedImage (headerBuffer (sectionsText infos))
    (by rw [length_headerBuffer]; decide)

/-- The monitor takes such an image. -/
theorem writtenImage_accepts (infos : List SectionInfo) :
    Accepts (writtenImage infos) :=
  signedImage_accepts _ (by rw [length_headerBuffer]; decide)

/-- It is laid out as one with an empty binary. -/
theorem writtenImage_bytes (infos : List SectionInfo) :
    (writtenImage infos).bytes =
      (signatureOf (headerBuffer (sectionsText infos))).toList ++
        (headerBuffer (sectionsText infos) ++ []) := by
  rw [List.append_nil]
  rfl

end Written

end S3kMonitor
