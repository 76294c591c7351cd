import S3kMonitor.Confinement

namespace S3kMonitor

/-!
# The end of `setup_app`

The loop over the chunks of a heap steps from the first chunk to the last one
and then past the end.  A heap of exactly one chunk has no such step, and
there `setup_app` never returns.
-/

namespace MemorySection

variable (memorySection : MemorySection)

/-- The first and the last chunk, which are the same one when there is one. -/
def endChunks : List Word :=
  if memorySection.nchunks = 0 then
    []
  else if memorySection.nchunks = 1 then
    [0]
  else
    [0, memorySection.nchunks - 1]

/-- What a section is to be given: of a heap the first and the last chunk. -/
def endGrants : List PmpGrant :=
  if memorySection.isHeap then
    memorySection.endChunks.map memorySection.chunk
  else
    [memorySection.grant]

end MemorySection

/-- All rounds of a heap loop: they visit the end chunks, and then it ends. -/
def VisitsEndChunks (memorySection : MemorySection) (fuel : Nat) : Prop :=
  ∀ s3k state,
    heapLoop s3k memorySection fuel 0 state =
      ((memorySection.endChunks.map memorySection.chunk).foldl
        (handOut s3k) state, true)

/--
`setup_app` returns, and on the way it has handed out one capability for each
section and one for each end chunk of a heap, in order and nothing else.
-/
structure SetupAppFinishes (app : Process) (fuel : Nat) : Prop where
  returns :
    ∀ s3k world,
      setupApp s3k fuel app world =
        (finishApp s3k
          ((app.sections.flatMap MemorySection.endGrants).foldl (handOut s3k)
            (enterSetupApp world)), true)
  heaps :
    ∀ memorySection ∈ app.sections,
      memorySection.isHeap = true → VisitsEndChunks memorySection fuel

/-- Three rounds take a heap loop past its end. -/
theorem heapGrants_three
    {memorySection : MemorySection}
    (notOne : memorySection.nchunks ≠ 1) :
    heapGrants memorySection 3 0 =
      (memorySection.endChunks.map memorySection.chunk, true) := by
  rw [MemorySection.endChunks]
  by_cases isZero : memorySection.nchunks = 0
  · rw [if_pos isZero, heapGrants, if_neg (by rw [isZero]; decide)]
    rfl
  · rw [if_neg isZero, if_neg notOne, heapGrants_many isZero notOne]
    rfl

theorem visitsEndChunks_three
    {memorySection : MemorySection}
    (notOne : memorySection.nchunks ≠ 1) :
    VisitsEndChunks memorySection 3 := by
  intro s3k state
  rw [heapLoop_eq, heapGrants_three notOne]

theorem sectionsGrants_endGrants
    {sections : List MemorySection}
    (noneEndless : ∀ memorySection ∈ sections, ¬ memorySection.Endless) :
    sectionsGrants 3 sections =
      (sections.flatMap MemorySection.endGrants, true) := by
  induction sections with
  | nil =>
      rfl
  | cons memorySection rest inductionHypothesis =>
      obtain ⟨notEndless, restEnds⟩ := List.forall_mem_cons.mp noneEndless
      rw [sectionsGrants, inductionHypothesis restEnds, List.flatMap_cons,
        MemorySection.endGrants]
      by_cases isHeap : memorySection.isHeap
      · have notOne : memorySection.nchunks ≠ 1 :=
          fun isOne => notEndless ⟨isHeap, isOne⟩
        rw [if_pos isHeap, if_pos isHeap, heapGrants_three notOne]
        rfl
      · rw [if_neg isHeap, if_neg isHeap]
        rfl

/-- A heap of one chunk keeps `setup_app` busy for ever. -/
theorem setupApp_diverges
    (s3k : S3k)
    (fuel : Nat)
    {app : Process}
    {memorySection : MemorySection}
    (member : memorySection ∈ app.sections)
    (endless : memorySection.Endless)
    (world : World) :
    (setupApp s3k fuel app world).2 = false := by
  have notEnded : ¬ (sectionsGrants fuel app.sections).2 = true :=
    fun ended => sectionsGrants_reached.2 ended memorySection member endless
  rw [setupApp_eq]
  dsimp only
  rw [if_neg notEnded]

/-- So a header on which `setup_app` returns has no such heap. -/
theorem SetupAppFinishes.noneEndless
    {app : Process}
    {fuel : Nat}
    (finishes : SetupAppFinishes app fuel)
    {memorySection : MemorySection}
    (member : memorySection ∈ app.sections) :
    ¬ memorySection.Endless := by
  intro endless
  have ended :=
    congrArg Prod.snd
      (finishes.returns (S3k.generous fun _ _ => false)
        (bootWorld blankKernel fun _ => 0))
  rw [setupApp_diverges _ fuel member endless] at ended
  cases ended

/--
`setup_app` returns with exactly the intended chunks handed out if and only if
no heap of the header has exactly one chunk.
-/
theorem setupApp_finishes_iff
    (stack : Process)
    (pid : Byte)
    (base : Nat → Byte) :
    (∃ fuel, SetupAppFinishes (parseExecutable stack pid base) fuel) ↔
      ∀ memorySection ∈ (parseExecutable stack pid base).sections,
        ¬ (memorySection.isHeap = true ∧ memorySection.nchunks = 1) := by
  generalize parseExecutable stack pid base = app
  constructor
  · rintro ⟨fuel, finishes⟩ memorySection member
    exact finishes.noneEndless member
  · intro noneEndless
    refine ⟨3, ?_, ?_⟩
    · intro s3k world
      rw [setupApp_eq, sectionsGrants_endGrants noneEndless]
      rfl
    · intro memorySection member isHeap
      exact visitsEndChunks_three fun isOne =>
        noneEndless memorySection member ⟨isHeap, isOne⟩

/-- A heap of one page. -/
def heapInfo : SectionInfo :=
  { outsideInfo with
    name := heapName
    addr := 0x8000
    name_ne_nil := by decide
    name_length_le := by decide
    name_ascii := by decide
    addr_lt := by decide }

/-- On a header with this heap alone `setup_app` does not return. -/
theorem heapInfo_never_finishes :
    ¬ ∀ (stack : Process) (pid : Byte) (base : Nat → Byte),
        ∃ fuel, SetupAppFinishes (parseExecutable stack pid base) fuel := by
  intro always
  obtain ⟨fuel, finishes⟩ :=
    always blankStack (BitVec.ofNat 8 appPid) (writtenImage [heapInfo]).get
  have same :=
    imageSections_written (by decide) (writtenImage_bytes [heapInfo])
      blankStack
  have noneEndless :
      ¬ ∀ memorySection ∈ imageSections blankStack (writtenImage [heapInfo]),
          ¬ memorySection.Endless := by
    rw [noneEndless_congr same]
    decide
  rw [imageSections] at noneEndless
  generalize parseExecutable blankStack (BitVec.ofNat 8 appPid)
    (writtenImage [heapInfo]).get = app at finishes noneEndless
  exact noneEndless fun memorySection => finishes.noneEndless

end S3kMonitor
