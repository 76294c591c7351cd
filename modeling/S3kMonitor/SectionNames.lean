import S3kMonitor.HeaderGrants

namespace S3kMonitor

/-!
# The names of the parsed sections

A name is copied byte by byte until its NUL.  A name that fills its whole
field has none, and the name of the eighth section is cut at its first byte.
-/

/-- The eight bytes of the name of section `k`, as they stand in the image. -/
def nameField (base : Nat → Byte) (k : Nat) : Nat → Byte :=
  fun j => base (16 + 32 * k + j)

/-- The encoded name: the bytes of the field up to its first NUL. -/
def encodedName (base : Nat → Byte) (k : Nat) : List Byte :=
  cString (nameField base k)

/-- What one section name has to be. -/
structure NameIsCString
    (base : Nat → Byte)
    (k : Nat)
    (memorySection : MemorySection) :
    Prop where
  terminated : ∃ j, j < 8 ∧ memorySection.sectionName j = 0
  faithful :
    cString memorySection.sectionName = (encodedName base k).take 7
  withinField :
    ∀ other : Nat → Byte,
      (∀ j, j < 8 → other j = memorySection.sectionName j) →
      strcmpEqual other heapName = memorySection.isHeap
  recognised :
    memorySection.isHeap = true ↔ encodedName base k = heapName

/-- Section `k` is one of those that the header of an image has. -/
def HasSection (base : Nat → Byte) (k : Nat) : Prop :=
  k < 8 ∧ ∀ earlier, earlier ≤ k → loadWord base (16 + 32 * earlier) ≠ 0

def NamesAreCStrings (base : Nat → Byte) (proc : Process) : Prop :=
  ∀ k, k < proc.headerLen → NameIsCString base k (proc.header k)

/-- The name ends inside its field; the eighth one has to be empty. -/
def NameEnds (base : Nat → Byte) (k : Nat) : Prop :=
  if k = 7 then nameField base k 0 = 0
  else ∃ j, j < 8 ∧ nameField base k j = 0

/-- A field with a NUL has a first one. -/
theorem exists_first_nul
    {name : Nat → Byte}
    (ends : ∃ j, j < 8 ∧ name j = 0) :
    ∃ length, length < 8 ∧ (∀ j, j < length → name j ≠ 0) ∧
      name length = 0 := by
  refine
    ⟨Nat.find ends, (Nat.find_spec ends).1, fun j before nul => ?_,
      (Nat.find_spec ends).2⟩
  exact Nat.find_min ends before ⟨before.trans (Nat.find_spec ends).1, nul⟩

theorem cString_eq_nil_iff (name : Nat → Byte) :
    cString name = [] ↔ name 0 = 0 := by
  rw [cString, List.range_succ_eq_map, List.map_cons, List.takeWhile_cons]
  simp

/-- Names that agree as C strings agree for `strcmp`. -/
theorem strcmpEqual_heapName_congr
    {first second : Nat → Byte}
    (same : ∀ j, j < 8 → first j = second j) :
    strcmpEqual first heapName = strcmpEqual second heapName := by
  simp only [strcmpEqual, heapName, List.cons_append, List.nil_append,
    List.zipIdx_cons, List.zipIdx_nil, List.all_cons, List.all_nil,
    Nat.zero_add, Nat.reduceAdd]
  rw [same 0 (by decide), same 1 (by decide), same 2 (by decide),
    same 3 (by decide), same 4 (by decide), same 5 (by decide)]

section Copies

variable
  {base : Nat → Byte}
  {k : Nat}
  {name : Nat → Byte}

/-- Before the eighth section a name with a NUL is copied up to it. -/
theorem cString_copyName_of_ends
    (notLast : k ≠ 7)
    (ends : ∃ j, j < 8 ∧ nameField base k j = 0) :
    cString (copyName k (nameField base k) 8 0 name) = encodedName base k ∧
      (encodedName base k).length ≤ 7 ∧
      ∃ j, j < 8 ∧ copyName k (nameField base k) 8 0 name j = 0 := by
  obtain ⟨length, inField, noNul, nul⟩ := exists_first_nul ends
  have copied
      {j : Nat}
      (inName : j ≤ length) :
      copyName k (nameField base k) 8 0 name j = nameField base k j := by
    rw [copyName_apply notLast, if_pos]
    exact ⟨Nat.zero_le _, by omega, fun earlier _ before =>
      noNul earlier (by omega)⟩
  have encoded := cString_of_nul inField noNul nul
  refine ⟨?_, ?_, length, inField, (copied le_rfl).trans nul⟩
  · rw [cString_of_nul inField
      (fun j before => by
        rw [copied before.le]
        exact noNul j before)
      ((copied le_rfl).trans nul), encodedName, encoded]
    apply List.map_congr_left
    intro j member
    exact copied (List.mem_range.mp member).le
  · rw [encodedName, encoded]
    simp
    omega

/-- A name that fills its field is copied without an end. -/
theorem copyName_ne_zero
    (notLast : k ≠ 7)
    (noNul : ∀ j, j < 8 → nameField base k j ≠ 0)
    {j : Nat}
    (inField : j < 8) :
    copyName k (nameField base k) 8 0 name j ≠ 0 := by
  rw [copyName_apply notLast, if_pos]
  · exact noNul j inField
  · exact ⟨Nat.zero_le _, by omega, fun earlier _ before =>
      noNul earlier (by omega)⟩

/-- One section is read with a proper name exactly when its name ends. -/
theorem readSection_nameIsCString_iff :
    NameIsCString base k (readSection base k (2 + 4 * k) name) ↔
      NameEnds base k := by
  have field :
      (fun j => base (8 * (2 + 4 * k) + j)) = nameField base k := by
    funext j
    rw [nameField, show 8 * (2 + 4 * k) = 16 + 32 * k by omega]
  have sectionName :
      (readSection base k (2 + 4 * k) name).sectionName =
        copyName k (nameField base k) 8 0 name := by
    rw [readSection, field]
  have heap := isHeap_iff (readSection base k (2 + 4 * k) name)
  rw [sectionName] at heap
  constructor
  · rintro ⟨⟨j, inField, nul⟩, faithful, -, -⟩
    rw [sectionName] at nul faithful
    rw [NameEnds]
    split
    · next isLast =>
      subst isLast
      rw [cString_copyName_last] at faithful
      rw [← cString_eq_nil_iff]
      simpa [encodedName] using faithful.symm
    · next notLast =>
      by_contra noEnd
      push Not at noEnd
      exact copyName_ne_zero notLast noEnd inField nul
  · intro ends
    rw [NameEnds] at ends
    split at ends
    · next isLast =>
      subst isLast
      have empty : encodedName base 7 = [] :=
        (cString_eq_nil_iff _).mpr ends
      have copied := cString_copyName_last (nameField base 7) name
      refine ⟨⟨0, by decide, ?_⟩, ?_, ?_, ?_⟩
      · rw [sectionName, ← cString_eq_nil_iff, copied]
      · rw [sectionName, copied, empty]
        rfl
      · intro other same
        exact strcmpEqual_heapName_congr same
      · rw [heap, copied, empty]
    · next notLast =>
      obtain ⟨copied, short, terminated⟩ :=
        @cString_copyName_of_ends base k name notLast ends
      refine ⟨?_, ?_, ?_, ?_⟩
      · rw [sectionName]
        exact terminated
      · rw [sectionName, copied, List.take_of_length_le short]
      · intro other same
        exact strcmpEqual_heapName_congr same
      · rw [heap, copied]

end Copies

/-- The header of an image has some number of sections. -/
theorem exists_section_count (base : Nat → Byte) (limit : Nat) :
    ∃ count, count ≤ limit ∧
      (∀ k, k < count → loadWord base (16 + 32 * k) ≠ 0) ∧
      (count < limit → loadWord base (16 + 32 * count) = 0) := by
  induction limit with
  | zero =>
      exact ⟨0, le_rfl, by omega, by omega⟩
  | succ limit inductionHypothesis =>
      obtain ⟨count, atMost, present, ends⟩ := inductionHypothesis
      by_cases isFull : count = limit
      · by_cases isEnd : loadWord base (16 + 32 * count) = 0
        · exact ⟨count, by omega, present, fun _ => isEnd⟩
        · refine ⟨count + 1, by omega, fun k before => ?_, by omega⟩
          rcases Nat.lt_succ_iff_lt_or_eq.mp before with inside | isLast
          · exact present k inside
          · rw [isLast]
            exact isEnd
      · exact ⟨count, by omega, present, fun _ => ends (by omega)⟩

theorem lt_headerLen_iff
    (stack : Process)
    (pid : Byte)
    (base : Nat → Byte)
    (k : Nat) :
    k < (parseExecutable stack pid base).headerLen ↔ HasSection base k := by
  obtain ⟨count, atMost, present, ends⟩ := exists_section_count base 8
  rw [(parseExecutable_spec stack pid base atMost present ends).1]
  constructor
  · intro inRange
    exact ⟨by omega, fun earlier before => present earlier (by omega)⟩
  · rintro ⟨inHeader, allPresent⟩
    by_contra outside
    exact allPresent count (by omega) (ends (by omega))

/--
Every parsed section name is a C string, cut to seven bytes at most, exactly
when every name of the header has a NUL in its field and the eighth is empty.
-/
theorem parseExecutable_namesAreCStrings_iff
    (stack : Process)
    (pid : Byte)
    (base : Nat → Byte) :
    NamesAreCStrings base (parseExecutable stack pid base) ↔
      ∀ k, HasSection base k → NameEnds base k := by
  obtain ⟨count, atMost, present, ends⟩ := exists_section_count base 8
  obtain ⟨length, sections⟩ :=
    parseExecutable_spec stack pid base atMost present ends
  simp only [NamesAreCStrings, ← lt_headerLen_iff stack pid base, length]
  constructor
  · intro names k inRange
    have isCString := names k inRange
    rw [sections k inRange] at isCString
    exact readSection_nameIsCString_iff.mp isCString
  · intro allEnd k inRange
    rw [sections k inRange]
    exact readSection_nameIsCString_iff.mpr (allEnd k inRange)

/-- A header in which the name of every section is `"A"`. -/
def eightNames : Nat → Byte :=
  fun offset => if offset % 8 = 0 then 0x41 else 0

/-- The name of its eighth section is parsed as an empty string. -/
theorem eightNames_not_cStrings :
    ¬ ∀ (stack : Process) (pid : Byte) (base : Nat → Byte),
        NamesAreCStrings base (parseExecutable stack pid base) := by
  intro always
  have present
      (k : Nat)
      (_ : k < 8) :
      loadWord eightNames (16 + 32 * k) ≠ 0 := by
    have word :
        loadWord eightNames (16 + 32 * k) = loadWord eightNames 0 := by
      apply loadWord_congr
      intro index _
      rw [eightNames, eightNames,
        show (16 + 32 * k + index) % 8 = (0 + index) % 8 by omega]
    rw [word]
    decide
  obtain ⟨length, sections⟩ :=
    parseExecutable_spec blankStack 1 eightNames le_rfl present (by omega)
  have last := always blankStack 1 eightNames 7 (by rw [length]; decide)
  rw [sections 7 (by decide), readSection_nameIsCString_iff, NameEnds,
    if_pos rfl] at last
  exact absurd last (by decide)

end S3kMonitor
