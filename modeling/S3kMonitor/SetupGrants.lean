import S3kMonitor.Setup

namespace S3kMonitor

/-!
# What the loops of `setup_app` hand out

The loops derive and give one capability after the other.  Which ones, and
whether the loops end, is a list computed from the header alone.
-/

/-- The grants of a loop over the chunks, in order, and whether it ends. -/
def heapGrants (memorySection : MemorySection) :
    (fuel : Nat) → (k : Word) → List PmpGrant × Bool
  | 0, _ => ([], false)
  | fuel + 1, k =>
      if k < memorySection.nchunks then
        let later :=
          heapGrants memorySection fuel (k + (memorySection.nchunks - 1))
        (memorySection.chunk k :: later.1, later.2)
      else
        ([], true)

/-- The grants of the loop over the sections. -/
def sectionsGrants (fuel : Nat) :
    List MemorySection → List PmpGrant × Bool
  | [] => ([], true)
  | memorySection :: rest =>
      let later := sectionsGrants fuel rest
      if memorySection.isHeap then
        let heap := heapGrants memorySection fuel 0
        if heap.2 then (heap.1 ++ later.1, later.2) else heap
      else
        (memorySection.grant :: later.1, later.2)

/-- The loop over a heap hands out its grants. -/
theorem heapLoop_eq
    (s3k : S3k)
    (memorySection : MemorySection)
    (fuel : Nat)
    (k : Word)
    (state : AppSetup) :
    heapLoop s3k memorySection fuel k state =
      ((heapGrants memorySection fuel k).1.foldl (handOut s3k) state,
        (heapGrants memorySection fuel k).2) := by
  induction fuel generalizing k state with
  | zero =>
      rfl
  | succ fuel inductionHypothesis =>
      rw [heapLoop, heapGrants]
      split
      · rw [inductionHypothesis, List.foldl_cons]
      · rfl

/-- The loop over the sections hands out its list of grants. -/
theorem setupSections_eq
    (s3k : S3k)
    (fuel : Nat)
    (sections : List MemorySection)
    (state : AppSetup) :
    setupSections s3k fuel sections state =
      ((sectionsGrants fuel sections).1.foldl (handOut s3k) state,
        (sectionsGrants fuel sections).2) := by
  induction sections generalizing state with
  | nil =>
      rfl
  | cons memorySection rest inductionHypothesis =>
      rw [setupSections, sectionsGrants]
      by_cases isHeap : memorySection.isHeap
      · rw [if_pos isHeap, if_pos isHeap]
        dsimp only
        rw [heapLoop_eq]
        dsimp only
        by_cases ends : (heapGrants memorySection fuel 0).2
        · rw [if_pos ends, if_pos ends, inductionHypothesis,
            List.foldl_append]
        · rw [if_neg ends, if_neg ends]
      · rw [if_neg isHeap, if_neg isHeap, inductionHypothesis,
          List.foldl_cons]

/-- `setup_app` looks at the header for its list of grants only. -/
theorem setupApp_eq
    (s3k : S3k)
    (fuel : Nat)
    (app : Process)
    (world : World) :
    setupApp s3k fuel app world =
      let grants := sectionsGrants fuel app.sections
      let state := grants.1.foldl (handOut s3k) (enterSetupApp world)
      if grants.2 then (finishApp s3k state, true) else (state.world, false) := by
  rw [setupApp, setupSections_eq]

/-- The grants of one section: of a heap only its first and last chunk. -/
def MemorySection.grants (memorySection : MemorySection) :
    List PmpGrant :=
  if memorySection.isHeap then
    if memorySection.nchunks = 0 then
      []
    else
      [memorySection.chunk 0, memorySection.chunk (memorySection.nchunks - 1)]
  else
    [memorySection.grant]

/-- On a heap of one chunk the loop does not move on. -/
def MemorySection.Endless (memorySection : MemorySection) : Prop :=
  memorySection.isHeap = true ∧ memorySection.nchunks = 1

instance (memorySection : MemorySection) :
    Decidable memorySection.Endless :=
  inferInstanceAs (Decidable (_ ∧ _))

/-- The grants of all sections up to the first one without an end. -/
def reachedGrants : List MemorySection → List PmpGrant
  | [] => []
  | memorySection :: rest =>
      memorySection.grants ++
        if memorySection.Endless then [] else reachedGrants rest

/-- There are fewer than `2^52` chunks. -/
theorem nchunks_lt (memorySection : MemorySection) :
    memorySection.nchunks.toNat < 2 ^ 52 := by
  have bound := memorySection.size.isLt
  rw [MemorySection.nchunks, BitVec.toNat_udiv]
  exact Nat.div_lt_of_lt_mul bound

/-- With no chunk the loop ends at once, with one it never does. -/
theorem heapGrants_few
    {memorySection : MemorySection}
    (fuel : Nat) :
    (memorySection.nchunks = 0 →
      (heapGrants memorySection fuel 0).1 = []) ∧
    (memorySection.nchunks = 1 →
      heapGrants memorySection fuel 0 =
        (List.replicate fuel (memorySection.chunk 0), false)) := by
  constructor
  · intro isZero
    cases fuel with
    | zero =>
        rfl
    | succ fuel =>
        rw [heapGrants, if_neg (by rw [isZero]; decide)]
  · intro isOne
    have noStep : (0 : Word) + (memorySection.nchunks - 1) = 0 := by
      rw [isOne]
      rfl
    induction fuel with
    | zero =>
        rfl
    | succ fuel inductionHypothesis =>
        rw [heapGrants, if_pos (by rw [isOne]; decide), noStep,
          inductionHypothesis]
        rfl

/-- With more chunks it takes the first and the last one. -/
theorem heapGrants_many
    {memorySection : MemorySection}
    (notZero : memorySection.nchunks ≠ 0)
    (notOne : memorySection.nchunks ≠ 1)
    (fuel : Nat) :
    heapGrants memorySection fuel 0 =
      ([memorySection.chunk 0,
          memorySection.chunk (memorySection.nchunks - 1)].take fuel,
        decide (3 ≤ fuel)) := by
  have bound := nchunks_lt memorySection
  have step :
      (0 : Word) + (memorySection.nchunks - 1) =
        memorySection.nchunks - 1 := by
    bv_omega
  have first : (0 : Word) < memorySection.nchunks := by
    bv_omega
  have last : memorySection.nchunks - 1 < memorySection.nchunks := by
    bv_omega
  have done :
      ¬ memorySection.nchunks - 1 + (memorySection.nchunks - 1) <
        memorySection.nchunks := by
    bv_omega
  match fuel with
  | 0 =>
      rfl
  | 1 =>
      rw [heapGrants, if_pos first]
      rfl
  | 2 =>
      rw [heapGrants, if_pos first, heapGrants, step, if_pos last]
      rfl
  | fuel + 3 =>
      rw [heapGrants, if_pos first, heapGrants, step, if_pos last, heapGrants,
        if_neg done]
      simp

/-- What a loop over the chunks hands out is reached. -/
theorem mem_heapGrants
    {memorySection : MemorySection}
    (isHeap : memorySection.isHeap = true)
    {fuel : Nat}
    {grant : PmpGrant}
    (member : grant ∈ (heapGrants memorySection fuel 0).1) :
    grant ∈ memorySection.grants := by
  rw [MemorySection.grants, if_pos isHeap]
  by_cases isZero : memorySection.nchunks = 0
  · rw [(heapGrants_few fuel).1 isZero] at member
    cases member
  · rw [if_neg isZero]
    by_cases isOne : memorySection.nchunks = 1
    · rw [(heapGrants_few fuel).2 isOne] at member
      rw [List.eq_of_mem_replicate member]
      exact List.mem_cons_self
    · rw [heapGrants_many isZero isOne] at member
      exact List.mem_of_mem_take member

/-- A heap whose turns end does not go on forever. -/
theorem heapGrants_ends
    {memorySection : MemorySection}
    {fuel : Nat}
    (ends : (heapGrants memorySection fuel 0).2 = true) :
    ¬ memorySection.Endless := by
  rintro ⟨-, isOne⟩
  rw [(heapGrants_few fuel).2 isOne] at ends
  cases ends

/-- Only reached grants are handed out, and all of them before the end. -/
theorem sectionsGrants_reached
    {fuel : Nat}
    {sections : List MemorySection} :
    (∀ grant ∈ (sectionsGrants fuel sections).1,
      grant ∈ reachedGrants sections) ∧
    ((sectionsGrants fuel sections).2 = true →
      ∀ memorySection ∈ sections, ¬ memorySection.Endless) := by
  induction sections with
  | nil =>
      exact ⟨by simp [sectionsGrants], by simp⟩
  | cons memorySection rest inductionHypothesis =>
      obtain ⟨reached, allEnd⟩ := inductionHypothesis
      rw [sectionsGrants, reachedGrants]
      by_cases isHeap : memorySection.isHeap
      · rw [if_pos isHeap]
        by_cases ends : (heapGrants memorySection fuel 0).2
        · have notEndless := heapGrants_ends ends
          rw [if_pos ends, if_neg notEndless]
          refine ⟨fun grant member => ?_, fun laterEnds => ?_⟩
          · rcases List.mem_append.mp member with inHeap | later
            · exact List.mem_append_left _ (mem_heapGrants isHeap inHeap)
            · exact List.mem_append_right _ (reached grant later)
          · exact List.forall_mem_cons.mpr ⟨notEndless, allEnd laterEnds⟩
        · rw [if_neg ends]
          refine ⟨fun grant member => ?_, fun ended => absurd ended ends⟩
          exact List.mem_append_left _ (mem_heapGrants isHeap member)
      · have notEndless : ¬ memorySection.Endless :=
          fun endless => isHeap endless.1
        rw [if_neg isHeap, if_neg notEndless, MemorySection.grants,
          if_neg isHeap]
        refine ⟨fun grant member => ?_, fun laterEnds => ?_⟩
        · rcases List.mem_cons.mp member with isFirst | later
          · exact List.mem_append_left _ (List.mem_singleton.mpr isFirst)
          · exact List.mem_append_right _ (reached grant later)
        · exact List.forall_mem_cons.mpr ⟨notEndless, allEnd laterEnds⟩

/-- Three rounds are enough to hand out everything that is reached. -/
theorem sectionsGrants_three
    (sections : List MemorySection) :
    (∀ grant ∈ reachedGrants sections,
      grant ∈ (sectionsGrants 3 sections).1) ∧
    ((∀ memorySection ∈ sections, ¬ memorySection.Endless) →
      (sectionsGrants 3 sections).2 = true) ∧
    (sectionsGrants 3 sections).1.length ≤ 3 * sections.length := by
  induction sections with
  | nil =>
      exact ⟨by simp [reachedGrants], fun _ => rfl, by simp [sectionsGrants]⟩
  | cons memorySection rest inductionHypothesis =>
      obtain ⟨handedOut, ends, atMost⟩ := inductionHypothesis
      rw [sectionsGrants, reachedGrants, List.length_cons,
        MemorySection.grants]
      by_cases isHeap : memorySection.isHeap
      · rw [if_pos isHeap, if_pos isHeap]
        by_cases isOne : memorySection.nchunks = 1
        · have endless : memorySection.Endless := ⟨isHeap, isOne⟩
          rw [(heapGrants_few 3).2 isOne, if_pos endless, isOne]
          refine ⟨?_, fun none => absurd endless
            (none memorySection List.mem_cons_self), by simp⟩
          simp [List.replicate_succ]
        · have notEndless : ¬ memorySection.Endless :=
            fun endless => isOne endless.2
          have laterEnds
              (none :
                ∀ other ∈ memorySection :: rest, ¬ other.Endless) :=
            ends fun other member => none other (List.mem_cons_of_mem _ member)
          rw [if_neg notEndless]
          by_cases isZero : memorySection.nchunks = 0
          · have empty : heapGrants memorySection 3 0 = ([], true) := by
              rw [heapGrants, if_neg (by rw [isZero]; decide)]
            rw [empty, if_pos isZero]
            simp only [if_true, List.nil_append]
            exact ⟨handedOut, laterEnds, by omega⟩
          · rw [heapGrants_many isZero isOne, if_neg isZero]
            simp only [le_refl, decide_true, if_true, List.take,
              List.mem_append, List.length_append, List.length_cons,
              List.length_nil]
            refine ⟨?_, laterEnds, by omega⟩
            rintro grant (isChunk | later)
            · exact Or.inl isChunk
            · exact Or.inr (handedOut grant later)
      · have notEndless : ¬ memorySection.Endless :=
          fun endless => isHeap endless.1
        rw [if_neg isHeap, if_neg isHeap, if_neg notEndless]
        simp only [List.cons_append, List.nil_append, List.length_cons]
        refine ⟨?_, fun none => ends fun other member =>
          none other (List.mem_cons_of_mem _ member), by omega⟩
        intro grant member
        rcases List.mem_cons.mp member with isFirst | later
        · exact List.mem_cons.mpr (Or.inl isFirst)
        · exact List.mem_cons_of_mem _ (handedOut grant later)

end S3kMonitor
