import S3kMonitor.CodeAuth

namespace S3kMonitor

/-!
# The header of an image

An image is a signature, a header of section descriptions and the binary.
`parse_executable` of `monitor/monitor.c` walks over the header word by word.
Arrays inside a record are functions of the index.
-/

/-- Reads from an object with the given bytes, and from what lies behind it. -/
def listBuffer (bytes : List Byte) (beyond : Nat → Byte) : Nat → Byte :=
  fun offset =>
    if inRange : offset < bytes.length then bytes[offset]
    else beyond (offset - bytes.length)

/-- What comes first, comes first in the buffer. -/
theorem listBuffer_append
    (first second : List Byte)
    (beyond : Nat → Byte) :
    listBuffer (first ++ second) beyond =
      listBuffer first (listBuffer second beyond) := by
  funext offset
  simp only [listBuffer, List.length_append]
  by_cases inFirst : offset < first.length
  · rw [dif_pos (by omega), dif_pos inFirst, List.getElem_append_left inFirst]
  · rw [dif_neg inFirst]
    by_cases inSecond : offset < first.length + second.length
    · rw [dif_pos inSecond, dif_pos (by omega),
        List.getElem_append_right (by omega)]
    · rw [dif_neg inSecond, dif_neg (by omega), Nat.sub_add_eq]

/-- Behind an object the reads go to what follows it. -/
theorem listBuffer_beyond
    (bytes : List Byte)
    (beyond : Nat → Byte)
    {start : Nat}
    (isLength : bytes.length = start)
    (offset : Nat) :
    listBuffer bytes beyond (start + offset) = beyond offset := by
  subst isLength
  rw [listBuffer, dif_neg (by omega), Nat.add_sub_cancel_left]

/-- The image that is linked into the monitor, and where the linker puts it. -/
structure AppBin where
  address : Word
  bytes : List Byte
  beyond : Nat → Byte
  length_lt : bytes.length < 2 ^ 64

namespace AppBin

/-- `app_bin`. -/
def get (image : AppBin) : Nat → Byte :=
  listBuffer image.bytes image.beyond

/-- `app_bin_len`. -/
def len (image : AppBin) : Word :=
  BitVec.ofNat 64 image.bytes.length

end AppBin

/-- `struct memory_section`. -/
structure MemorySection where
  sectionName : Nat → Byte
  offset : Word
  size : Word
  rwx : Byte

/-- `struct process`. -/
structure Process where
  pid : Byte
  headerLen : Nat
  header : Nat → MemorySection

/-- Assignment to one element of an array. -/
def setAt {Value : Type} (array : Nat → Value) (index : Nat) (value : Value) :
    Nat → Value :=
  fun other => if other = index then value else array other

/-- Only the element at the index is assigned to. -/
@[simp]
theorem setAt_apply
    {Value : Type}
    (array : Nat → Value)
    (index : Nat)
    (value : Value)
    (other : Nat) :
    setAt array index value other =
      if other = index then value else array other :=
  rfl

/--
The loop over `j` that copies a name.  The test that is to cut the name at its
last byte looks at the number `i` of the section.
-/
def copyName (i : Nat) (pn : Nat → Byte) :
    (remaining j : Nat) → (Nat → Byte) → Nat → Byte
  | 0, _, name => name
  | remaining + 1, j, name =>
      if i = 7 then
        setAt name j 0
      else
        let name := setAt name j (pn j)
        if name j = 0 then
          name
        else
          copyName i pn remaining (j + 1) name

/-- The section at word `p`, over the `name` that was in its place before. -/
def readSection
    (base : Nat → Byte)
    (i p : Nat)
    (name : Nat → Byte) :
    MemorySection where
  sectionName := copyName i (fun j => base (8 * p + j)) 8 0 name
  offset := loadWord base (8 * (p + 1))
  size := loadWord base (8 * (p + 2))
  rwx := (loadWord base (8 * (p + 3))).setWidth 8

/-- The loop over `i`, with the word pointer `p`. -/
def parseSections (base : Nat → Byte) :
    (remaining i p : Nat) → Process → Process
  | 0, _, _, proc => proc
  | remaining + 1, i, p, proc =>
      if loadWord base (8 * p) = 0 then
        proc
      else
        parseSections base remaining (i + 1) (p + 4)
          { proc with
            header :=
              setAt proc.header i
                (readSection base i p (proc.header i).sectionName)
            headerLen := proc.headerLen + 1 }

/-- The result starts as whatever is on the stack. -/
def parseExecutable
    (stack : Process)
    (pid : Byte)
    (base : Nat → Byte) :
    Process :=
  parseSections base 8 0 (signatureSize / 8)
    { stack with pid := pid, headerLen := 0 }

/-- The bytes of a name as a C string. -/
def cString (name : Nat → Byte) : List Byte :=
  ((List.range 8).map name).takeWhile (· ≠ 0)

/-- What the copy of a name leaves, for every section but the last one. -/
theorem copyName_apply
    {i : Nat}
    (notLast : i ≠ 7)
    (pn : Nat → Byte)
    (remaining j : Nat)
    (name : Nat → Byte)
    (index : Nat) :
    copyName i pn remaining j name index =
      if j ≤ index ∧ index < j + remaining ∧
          ∀ earlier, j ≤ earlier → earlier < index → pn earlier ≠ 0 then
        pn index
      else
        name index := by
  induction remaining generalizing j name with
  | zero =>
      rw [copyName, if_neg (by omega)]
  | succ remaining inductionHypothesis =>
      have copied : setAt name j (pn j) j = pn j := by
        simp
      rw [copyName, if_neg notLast, copied]
      by_cases isEnd : pn j = 0
      · rw [if_pos isEnd, setAt_apply]
        by_cases atEnd : index = j
        · subst atEnd
          rw [if_pos rfl, if_pos ⟨le_rfl, by omega, by omega⟩, isEnd]
        · rw [if_neg atEnd, if_neg]
          rintro ⟨above, -, noEnd⟩
          exact noEnd j le_rfl (by omega) isEnd
      · rw [if_neg isEnd, inductionHypothesis, setAt_apply]
        by_cases atStart : index = j
        · subst atStart
          rw [if_neg (by omega), if_pos rfl,
            if_pos ⟨le_rfl, by omega, by omega⟩]
        · rw [if_neg atStart]
          congr 1
          apply propext
          constructor
          · rintro ⟨above, below, noEnd⟩
            refine ⟨by omega, by omega, fun earlier from_ before => ?_⟩
            by_cases isStart : earlier = j
            · rw [isStart]
              exact isEnd
            · exact noEnd earlier (by omega) before
          · rintro ⟨above, below, noEnd⟩
            exact ⟨by omega, by omega,
              fun earlier from_ before => noEnd earlier (by omega) before⟩

/-- A C string ends before its first NUL. -/
theorem cString_of_nul
    {name : Nat → Byte}
    {length : Nat}
    (inField : length < 8)
    (noNul : ∀ j, j < length → name j ≠ 0)
    (nul : name length = 0) :
    cString name = (List.range length).map name := by
  have split :
      List.range 8 =
        List.range length ++
          length :: List.range' (length + 1) (7 - length) := by
    have joined := @List.range'_append_1 0 length (8 - length)
    rw [Nat.zero_add, show length + (8 - length) = 8 by omega,
      show 8 - length = 7 - length + 1 by omega, List.range'_succ] at joined
    rw [List.range_eq_range', List.range_eq_range']
    exact joined.symm
  have front : ∀ byte ∈ (List.range length).map name, byte ≠ 0 := by
    intro byte member
    obtain ⟨j, inRange, rfl⟩ := List.mem_map.mp member
    exact noNul j (List.mem_range.mp inRange)
  rw [cString, split, List.map_append, List.map_cons, nul,
    List.takeWhile_append_of_pos (by simpa using front)]
  simp

/-- The copied name reads as the text that stands in the header. -/
theorem cString_copyName
    {i : Nat}
    (notLast : i ≠ 7)
    {pn : Nat → Byte}
    {text : List Byte}
    (short : text.length ≤ 7)
    (noNul : ∀ byte ∈ text, byte ≠ 0)
    (reads : ∀ index (inRange : index < text.length), pn index = text[index])
    (nul : pn text.length = 0)
    (name : Nat → Byte) :
    cString (copyName i pn 8 0 name) = text := by
  have noEnd
      {index : Nat}
      (inRange : index < text.length) :
      pn index ≠ 0 := by
    rw [reads index inRange]
    exact noNul _ (List.getElem_mem inRange)
  have copied
      {index : Nat}
      (inRange : index ≤ text.length) :
      copyName i pn 8 0 name index = pn index := by
    rw [copyName_apply notLast, if_pos]
    exact ⟨Nat.zero_le _, by omega, fun earlier _ before => noEnd (by omega)⟩
  have copiedNul : copyName i pn 8 0 name text.length = 0 := by
    rw [copied le_rfl, nul]
  rw [cString_of_nul (by omega)
    (fun index inRange => by
      rw [copied inRange.le]
      exact noEnd inRange)
    copiedNul]
  apply List.ext_getElem
  · simp
  · intro index inMap inText
    rw [List.getElem_map, List.getElem_range, copied (by omega),
      reads index inText]

/-- The name of the last of eight sections is always empty. -/
theorem cString_copyName_last
    (pn name : Nat → Byte) :
    cString (copyName 7 pn 8 0 name) = [] := by
  rw [cString, copyName, if_pos rfl, List.range_succ_eq_map]
  simp

/-- The walk ends at a zero word, or when no section is left to read. -/
theorem parseSections_ends
    {base : Nat → Byte}
    {remaining p : Nat}
    (ends : 0 < remaining → loadWord base (8 * p) = 0)
    (i : Nat)
    (proc : Process) :
    parseSections base remaining i p proc = proc := by
  cases remaining with
  | zero =>
      rfl
  | succ remaining =>
      rw [parseSections, if_pos (ends (Nat.succ_pos remaining))]

/-- What the walk over the header leaves. -/
theorem parseSections_spec
    (base : Nat → Byte)
    {count : Nat}
    (remaining i p : Nat)
    (proc : Process)
    (fits : count ≤ remaining)
    (present : ∀ k, k < count → loadWord base (8 * (p + 4 * k)) ≠ 0)
    (ends : count < remaining → loadWord base (8 * (p + 4 * count)) = 0) :
    (parseSections base remaining i p proc).headerLen =
        proc.headerLen + count ∧
      ∀ index,
        (parseSections base remaining i p proc).header index =
          if i ≤ index ∧ index < i + count then
            readSection base index (p + 4 * (index - i))
              (proc.header index).sectionName
          else
            proc.header index := by
  induction count generalizing remaining i p proc with
  | zero =>
      rw [@parseSections_ends base remaining p ends]
      refine ⟨rfl, fun index => ?_⟩
      rw [if_neg (by omega)]
  | succ count inductionHypothesis =>
      cases remaining with
      | zero =>
          exact absurd fits (by omega)
      | succ remaining =>
          have first : loadWord base (8 * p) ≠ 0 :=
            present 0 (by omega)
          rw [parseSections, if_neg first]
          obtain ⟨length, sections⟩ :=
            inductionHypothesis remaining (i + 1) (p + 4)
              { proc with
                header :=
                  setAt proc.header i
                    (readSection base i p (proc.header i).sectionName)
                headerLen := proc.headerLen + 1 }
              (by omega)
              (fun k inRange => by
                rw [show p + 4 + 4 * k = p + 4 * (k + 1) by omega]
                exact present (k + 1) (by omega))
              (fun more => by
                rw [show p + 4 + 4 * count = p + 4 * (count + 1) by omega]
                exact ends (by omega))
          dsimp only at length sections
          refine ⟨by rw [length]; omega, fun index => ?_⟩
          rw [sections index]
          by_cases isFirst : index = i
          · subst isFirst
            rw [if_neg (by omega), if_pos (by omega), setAt_apply,
              if_pos rfl, Nat.sub_self, Nat.mul_zero, Nat.add_zero]
          · simp only [setAt_apply, if_neg isFirst]
            by_cases inRange : i + 1 ≤ index ∧ index < i + 1 + count
            · rw [if_pos inRange, if_pos (by omega),
                show p + 4 + 4 * (index - (i + 1)) =
                  p + 4 * (index - i) by omega]
            · rw [if_neg inRange, if_neg (by omega)]

/-- The header of a process counts the sections that are parsed. -/
theorem parseSections_headerLen_le
    (base : Nat → Byte)
    (remaining i p : Nat)
    (proc : Process) :
    (parseSections base remaining i p proc).headerLen ≤
      proc.headerLen + remaining := by
  induction remaining generalizing i p proc with
  | zero =>
      exact le_rfl
  | succ remaining inductionHypothesis =>
      rw [parseSections]
      split
      · exact Nat.le_add_right _ _
      · apply le_trans (inductionHypothesis _ _ _)
        dsimp only
        omega

/-- There are never more than eight sections. -/
theorem parseExecutable_headerLen_le
    (stack : Process)
    (pid : Byte)
    (base : Nat → Byte) :
    (parseExecutable stack pid base).headerLen ≤ 8 :=
  parseSections_headerLen_le base 8 0 _ _

/-- The sections that `parse_executable` finds are the ones in the header. -/
theorem parseExecutable_spec
    (stack : Process)
    (pid : Byte)
    (base : Nat → Byte)
    {count : Nat}
    (fits : count ≤ 8)
    (present : ∀ k, k < count → loadWord base (16 + 32 * k) ≠ 0)
    (ends : count < 8 → loadWord base (16 + 32 * count) = 0) :
    (parseExecutable stack pid base).headerLen = count ∧
      ∀ k, k < count →
        (parseExecutable stack pid base).header k =
          readSection base k (2 + 4 * k) (stack.header k).sectionName := by
  have firstWord : signatureSize / 8 = 2 := by
    decide
  have place (k : Nat) : 8 * (2 + 4 * k) = 16 + 32 * k := by
    omega
  obtain ⟨length, sections⟩ :=
    parseSections_spec base 8 0 2 { stack with pid := pid, headerLen := 0 }
      fits
      (fun k inRange => by
        rw [place]
        exact present k inRange)
      (fun more => by
        rw [place]
        exact ends more)
  rw [parseExecutable, firstWord]
  refine ⟨by rw [length, Nat.zero_add], fun k inRange => ?_⟩
  rw [sections k, if_pos ⟨Nat.zero_le k, by omega⟩, Nat.sub_zero]

end S3kMonitor
