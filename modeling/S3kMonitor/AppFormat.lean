import S3kMonitor.Header
import S3kMonitor.Lib.HexText

namespace S3kMonitor

open HexText

/-!
# The tools that write an image

`tools/getsections.py` prints four lines for each section, and
`tools/app_format.c` turns the lines into a header, appends the binary and
signs both.  The names of files and what is done with a missing one are left
out.
-/

/-- The bytes of the table of sections. -/
def sectionsSize : Nat := 496

/-- The line buffer of `app_format.c`. -/
def lineSize : Nat := 18

/-- The eight bytes of a `long`. -/
def longBytes (value : Int) : List Byte :=
  LittleEndian.encode 8 (BitVec.ofInt 64 value).toNat

/-- A C `long` has eight bytes. -/
@[simp]
theorem length_longBytes (value : Int) :
    (longBytes value).length = 8 :=
  LittleEndian.length_encode _ _

/-- The bytes of a number below `2^64`, little end first. -/
theorem longBytes_natCast
    {value : Nat}
    (fits : value < 2 ^ 64) :
    longBytes value = LittleEndian.encode 8 value := by
  rw [longBytes, BitVec.ofInt_natCast, BitVec.toNat_ofNat,
    Nat.mod_eq_of_lt fits]

/-- The loop over the lines; the buffer index is the length of the buffer. -/
def fillSections (buffer : List Byte) (sectioninfo : Text) : List Byte :=
  if buffer.length < sectionsSize then
    match fgets lineSize sectioninfo with
    | none => buffer
    | some (line, rest) =>
        fillSections (buffer ++ longBytes (strtol line)) rest
  else
    buffer
termination_by sectionsSize - buffer.length
decreasing_by
  simp only [List.length_append, length_longBytes]
  omega

/-- The rest of the header is filled with zeros. -/
def headerBuffer (sectioninfo : Text) : List Byte :=
  let buffer := fillSections [] sectioninfo
  buffer ++ List.replicate (sectionsSize - buffer.length) 0

/--
The file that `app_format.c` writes.  There is none where the size of the
buffer is no `int`, or the signature is not defined.
-/
def appFormat (sectioninfo : Text) (binary : List Byte) :
    Option (List Byte) :=
  let appBuffer := headerBuffer sectioninfo ++ binary
  let bufsize := binary.length + sectionsSize
  if bufsize ≤ intMax then
    match calcSig (listBuffer appBuffer fun _ => 0) bufsize with
    | none => none
    | some signature => some (signature.toList ++ appBuffer)
  else
    none

/-- Lines fill the header by eight bytes each, so they fill it exactly. -/
theorem length_headerBuffer (sectioninfo : Text) :
    (headerBuffer sectioninfo).length = sectionsSize := by
  have atMost
      (buffer : List Byte)
      (words : buffer.length % 8 = 0)
      (fits : buffer.length ≤ sectionsSize) :
      (fillSections buffer sectioninfo).length ≤ sectionsSize := by
    induction buffer, sectioninfo using fillSections.induct with
    | case1 buffer sectioninfo room noLine =>
        rw [fillSections, if_pos room, noLine]
        exact fits
    | case2 buffer sectioninfo room line rest taken inductionHypothesis =>
        rw [fillSections, if_pos room, taken]
        simp only [List.length_append, length_longBytes] at inductionHypothesis
        simp only [sectionsSize] at room inductionHypothesis ⊢
        exact inductionHypothesis (by omega) (by omega)
    | case3 buffer sectioninfo full =>
        rw [fillSections, if_neg full]
        exact fits
  have filled := atMost [] rfl (by decide)
  rw [headerBuffer, List.length_append, List.length_replicate]
  omega

/-- What `getsections.py` knows of a section. -/
structure SectionInfo where
  name : List Byte
  addr : Nat
  size : Nat
  permissions : Nat
  name_ne_nil : name ≠ []
  name_length_le : name.length ≤ 7
  name_ascii : ∀ byte ∈ name, byte ≠ 0 ∧ byte.toNat < 0x80
  addr_lt : addr < 2 ^ 32
  size_lt : size < 2 ^ 32
  permissions_lt : permissions < 8

namespace SectionInfo

/-- The lines that are printed for a section. -/
def printed (info : SectionInfo) : Text :=
  hexlify info.name.reverse ++ newline ::
    (pyHex info.addr ++ newline ::
      (pyHex info.size ++ newline ::
        (pyHex info.permissions ++ [newline])))

/-- The 32 bytes that the lines become. -/
def encoded (info : SectionInfo) : List Byte :=
  LittleEndian.encode 8 (LittleEndian.decode info.name) ++
    (LittleEndian.encode 8 info.addr ++
      (LittleEndian.encode 8 info.size ++
        LittleEndian.encode 8 info.permissions))

/-- An encoded section has 32 bytes. -/
@[simp]
theorem length_encoded (info : SectionInfo) :
    info.encoded.length = 32 := by
  simp [encoded]

/-- The seven bytes of a name, as a number. -/
theorem decode_name_lt (info : SectionInfo) :
    LittleEndian.decode info.name < 2 ^ 56 := by
  have bound := LittleEndian.decode_lt info.name
  have powers : 256 ^ info.name.length ≤ 256 ^ 7 :=
    Nat.pow_le_pow_right (by omega) info.name_length_le
  omega

/-- A name is not empty. -/
theorem decode_name_ne_zero (info : SectionInfo) :
    LittleEndian.decode info.name ≠ 0 := by
  intro isZero
  obtain ⟨byte, rest, nameEq⟩ := List.exists_cons_of_ne_nil info.name_ne_nil
  have member : byte ∈ info.name := by
    rw [nameEq]
    exact List.mem_cons_self
  exact (info.name_ascii byte member).1
    ((LittleEndian.decode_eq_zero_iff _).mp isZero byte member)

/-- The first word of a section is its name, filled up with zeros. -/
theorem encode_name (info : SectionInfo) :
    LittleEndian.encode 8 (LittleEndian.decode info.name) =
      info.name ++ List.replicate (8 - info.name.length) 0 := by
  have short := info.name_length_le
  have length :
      (info.name ++ List.replicate (8 - info.name.length) (0 : Byte)).length =
        8 := by
    rw [List.length_append, List.length_replicate]
    omega
  have encoded :=
    LittleEndian.encode_decode
      (info.name ++ List.replicate (8 - info.name.length) (0 : Byte))
  rwa [length, LittleEndian.decode_append_zeros] at encoded

end SectionInfo

/-- What `getsections` prints for a list of sections. -/
def sectionsText (sections : List SectionInfo) : Text :=
  sections.flatMap SectionInfo.printed

section Writing

/-- One line that fits the line buffer becomes one word. -/
theorem fillSections_line
    {buffer : List Byte}
    (room : buffer.length < sectionsSize)
    {line : Text}
    (noNewline : newline ∉ line)
    (fits : line.length + 2 ≤ lineSize)
    (rest : Text) :
    fillSections buffer (line ++ newline :: rest) =
      fillSections (buffer ++ longBytes (strtol (line ++ [newline]))) rest := by
  rw [fillSections, if_pos room, fgets_line noNewline fits]

/-- The line of a number becomes the number. -/
theorem fillSections_pyHex
    {buffer : List Byte}
    (room : buffer.length < sectionsSize)
    {number : Nat}
    (small : number < 2 ^ 32)
    (rest : Text) :
    fillSections buffer (pyHex number ++ newline :: rest) =
      fillSections (buffer ++ LittleEndian.encode 8 number) rest := by
  have short : (pyHex number).length ≤ 8 + 2 :=
    length_pyHex_le (by omega) (by omega)
  rw [fillSections_line room (newline_notMem_pyHex number)
    (by simp only [lineSize]; omega), strtol_pyHex (by omega),
    longBytes_natCast (by omega)]

/-- The lines of one section become its 32 bytes. -/
theorem fillSections_printed
    {buffer : List Byte}
    (info : SectionInfo)
    (room : buffer.length + 32 ≤ sectionsSize)
    (rest : Text) :
    fillSections buffer (info.printed ++ rest) =
      fillSections (buffer ++ info.encoded) rest := by
  have nameBound := info.decode_name_lt
  have nameShort := info.name_length_le
  have addrBound := info.addr_lt
  have sizeBound := info.size_lt
  have permissionsBound := info.permissions_lt
  rw [SectionInfo.printed]
  simp only [List.append_assoc, List.cons_append, List.nil_append]
  rw [fillSections_line (by omega) (newline_notMem_hexlify _)
      (by rw [length_hexlify, List.length_reverse, lineSize]; omega),
    strtol_hexlify info.name_ne_nil info.name_length_le,
    longBytes_natCast (by omega),
    fillSections_pyHex (by simp; omega) addrBound,
    fillSections_pyHex (by simp; omega) sizeBound,
    fillSections_pyHex (by simp; omega) (by omega)]
  simp only [SectionInfo.encoded, List.append_assoc]

/-- The printed sections are read back and encoded in order. -/
theorem fillSections_sectionsText
    {buffer : List Byte}
    (sections : List SectionInfo)
    (room : buffer.length + 32 * sections.length ≤ sectionsSize) :
    fillSections buffer (sectionsText sections) =
      buffer ++ sections.flatMap SectionInfo.encoded := by
  induction sections generalizing buffer with
  | nil =>
      rw [fillSections]
      simp [sectionsText, fgets]
  | cons info sections inductionHypothesis =>
      rw [List.length_cons] at room
      rw [sectionsText, List.flatMap_cons,
        fillSections_printed info (by omega)]
      have next :=
        @inductionHypothesis (buffer ++ info.encoded)
          (by rw [List.length_append, info.length_encoded]; omega)
      rw [sectionsText] at next
      rw [next, List.flatMap_cons, List.append_assoc]

/-- The encoded sections together. -/
theorem length_flatMap_encoded (sections : List SectionInfo) :
    (sections.flatMap SectionInfo.encoded).length = 32 * sections.length := by
  induction sections with
  | nil =>
      rfl
  | cons info sections inductionHypothesis =>
      rw [List.flatMap_cons, List.length_append, info.length_encoded,
        inductionHypothesis, List.length_cons]
      omega

/-- The header of a list of sections. -/
theorem headerBuffer_sectionsText
    {sections : List SectionInfo}
    (atMost : sections.length ≤ 8) :
    headerBuffer (sectionsText sections) =
      sections.flatMap SectionInfo.encoded ++
        List.replicate (sectionsSize - 32 * sections.length) 0 := by
  have filled :=
    @fillSections_sectionsText [] sections
      (by simp only [List.length_nil, sectionsSize]; omega)
  rw [List.nil_append] at filled
  rw [headerBuffer, filled, length_flatMap_encoded]

end Writing

section Reading

/-- The word at an offset depends on eight bytes only. -/
theorem loadWord_congr
    {first second : Nat → Byte}
    {offset otherOffset : Nat}
    (same :
      ∀ index, index < 8 →
        first (offset + index) = second (otherOffset + index)) :
    loadWord first offset = loadWord second otherOffset := by
  rw [loadWord, loadWord]
  congr 2
  apply List.map_congr_left
  intro index member
  exact same index (List.mem_range.mp member)

/-- A word that was written is the word that is loaded. -/
theorem loadWord_encode
    {value : Nat}
    (fits : value < 2 ^ 64)
    (beyond : Nat → Byte) :
    loadWord (listBuffer (LittleEndian.encode 8 value) beyond) 0 =
      BitVec.ofNat 64 value := by
  have bytes :
      ((List.range 8).map fun index =>
          listBuffer (LittleEndian.encode 8 value) beyond (0 + index)) =
        LittleEndian.encode 8 value := by
    apply List.ext_getElem
    · simp
    · intro index inMap inBytes
      simp only [List.getElem_map, List.getElem_range, Nat.zero_add]
      rw [listBuffer, dif_pos inBytes]
  rw [loadWord, bytes, LittleEndian.decode_encode (by omega)]

/-- Reads of the `m`-th word of a section, and of the name in its first. -/
theorem loadWord_encoded
    (info : SectionInfo)
    (beyond : Nat → Byte) :
    loadWord (listBuffer info.encoded beyond) 0 =
        BitVec.ofNat 64 (LittleEndian.decode info.name) ∧
      loadWord (listBuffer info.encoded beyond) 8 =
        BitVec.ofNat 64 info.addr ∧
      loadWord (listBuffer info.encoded beyond) 16 =
        BitVec.ofNat 64 info.size ∧
      loadWord (listBuffer info.encoded beyond) 24 =
        BitVec.ofNat 64 info.permissions := by
  have nameBound := info.decode_name_lt
  have addrBound := info.addr_lt
  have sizeBound := info.size_lt
  have permissionsBound := info.permissions_lt
  have skip
      (value : Nat)
      (rest : Nat → Byte)
      (offset : Nat) :
      loadWord (listBuffer (LittleEndian.encode 8 value) rest) (8 + offset) =
        loadWord rest offset := by
    apply loadWord_congr
    intro index _
    rw [Nat.add_assoc, listBuffer_beyond _ _ (LittleEndian.length_encode _ _)]
  simp only [SectionInfo.encoded, listBuffer_append]
  refine ⟨loadWord_encode (by omega) _, ?_, ?_, ?_⟩
  · rw [skip _ _ 0, loadWord_encode (by omega)]
  · rw [skip _ _ 8, skip _ _ 0, loadWord_encode (by omega)]
  · rw [skip _ _ 16, skip _ _ 8, skip _ _ 0, loadWord_encode (by omega)]

/-- An encoded section starts with its name and a NUL. -/
theorem listBuffer_name
    (info : SectionInfo)
    (beyond : Nat → Byte) :
    (∀ index (inRange : index < info.name.length),
      listBuffer info.encoded beyond index = info.name[index]) ∧
    listBuffer info.encoded beyond info.name.length = 0 := by
  have short := info.name_length_le
  rw [SectionInfo.encoded, info.encode_name]
  simp only [listBuffer_append]
  constructor
  · intro index inRange
    rw [listBuffer, dif_pos inRange]
  · have next :=
      listBuffer_beyond info.name
        (listBuffer (List.replicate (8 - info.name.length) 0)
          (listBuffer (LittleEndian.encode 8 info.addr)
            (listBuffer (LittleEndian.encode 8 info.size)
              (listBuffer (LittleEndian.encode 8 info.permissions) beyond))))
        rfl 0
    rw [Nat.add_zero] at next
    rw [next, listBuffer, dif_pos (by rw [List.length_replicate]; omega),
      List.getElem_replicate]

variable
  {sections : List SectionInfo}
  (atMost : sections.length ≤ 8)
  (signature : Block)
  (beyond : Nat → Byte)

/-- The image of a list of sections, with whatever follows the header. -/
def sectionsImage
    (sections : List SectionInfo)
    (signature : Block)
    (beyond : Nat → Byte) :
    Nat → Byte :=
  listBuffer (signature.toList ++ headerBuffer (sectionsText sections)) beyond

include atMost

/-- From the place of section `k` on, the image holds this section. -/
theorem sectionsImage_section
    {k : Nat}
    (inRange : k < sections.length) :
    ∃ rest,
      ∀ offset,
        sectionsImage sections signature beyond (16 + 32 * k + offset) =
          listBuffer sections[k].encoded rest offset := by
  have parts :
      sections.flatMap SectionInfo.encoded =
        (sections.take k).flatMap SectionInfo.encoded ++
          (sections[k].encoded ++
            (sections.drop (k + 1)).flatMap SectionInfo.encoded) := by
    rw [← List.flatMap_cons, ← List.drop_eq_getElem_cons inRange,
      ← List.flatMap_append, List.take_append_drop]
  refine
    ⟨listBuffer ((sections.drop (k + 1)).flatMap SectionInfo.encoded)
      (listBuffer
        (List.replicate (sectionsSize - 32 * sections.length) 0) beyond),
      fun offset => ?_⟩
  rw [sectionsImage, headerBuffer_sectionsText atMost, parts]
  simp only [listBuffer_append]
  rw [Nat.add_assoc,
    listBuffer_beyond _ _ (by simp : signature.toList.length = 16),
    listBuffer_beyond _ _
      (by rw [length_flatMap_encoded, List.length_take,
        Nat.min_eq_left (by omega)])]

/-- Behind the last section the header is zero. -/
theorem sectionsImage_end
    (notFull : sections.length < 8) :
    loadWord (sectionsImage sections signature beyond)
      (16 + 32 * sections.length) = 0 := by
  have zeros :
      loadWord (sectionsImage sections signature beyond)
          (16 + 32 * sections.length) =
        loadWord (fun _ => 0) 0 := by
    apply loadWord_congr
    intro index small
    rw [sectionsImage, headerBuffer_sectionsText atMost]
    simp only [listBuffer_append]
    rw [Nat.add_assoc,
      listBuffer_beyond _ _ (by simp : signature.toList.length = 16),
      listBuffer_beyond _ _ (length_flatMap_encoded sections), listBuffer,
      dif_pos (by
        simp only [List.length_replicate, sectionsSize]
        omega),
      List.getElem_replicate]
  rw [zeros]
  decide

/-- The first word of a section is not the end of the header. -/
theorem sectionsImage_present
    {k : Nat}
    (inRange : k < sections.length) :
    loadWord (sectionsImage sections signature beyond) (16 + 32 * k) ≠ 0 := by
  obtain ⟨rest, reads⟩ :=
    sectionsImage_section atMost signature beyond inRange
  have nameBound := sections[k].decode_name_lt
  have word :
      loadWord (sectionsImage sections signature beyond) (16 + 32 * k) =
        BitVec.ofNat 64 (LittleEndian.decode sections[k].name) := by
    rw [← (loadWord_encoded sections[k] rest).1]
    apply loadWord_congr
    intro index _
    rw [reads, Nat.zero_add]
  rw [word]
  intro isZero
  have same := congrArg BitVec.toNat isZero
  rw [BitVec.toNat_ofNat, Nat.mod_eq_of_lt (by omega)] at same
  exact sections[k].decode_name_ne_zero same

end Reading

/-- The parsed header is the list of sections again. -/
def ReadBack (sections : List SectionInfo) (proc : Process) : Prop :=
  proc.headerLen = sections.length ∧
    ∀ k (inRange : k < sections.length),
      cString (proc.header k).sectionName = sections[k].name ∧
      (proc.header k).offset = BitVec.ofNat 64 sections[k].addr ∧
      (proc.header k).size = BitVec.ofNat 64 sections[k].size ∧
      (proc.header k).rwx = BitVec.ofNat 8 sections[k].permissions

/-- Up to seven sections are read back. -/
theorem readBack_of_lt
    {sections : List SectionInfo}
    (notFull : sections.length < 8)
    (signature : Block)
    (beyond : Nat → Byte)
    (stack : Process)
    (pid : Byte) :
    ReadBack sections
      (parseExecutable stack pid
        (sectionsImage sections signature beyond)) := by
  have atMost : sections.length ≤ 8 := by
    omega
  obtain ⟨length, headers⟩ :=
    parseExecutable_spec stack pid (sectionsImage sections signature beyond)
      atMost (fun k => sectionsImage_present atMost signature beyond)
      (sectionsImage_end atMost signature beyond)
  refine ⟨length, fun k inRange => ?_⟩
  obtain ⟨rest, reads⟩ :=
    sectionsImage_section atMost signature beyond inRange
  obtain ⟨-, addrWord, sizeWord, permissionsWord⟩ :=
    loadWord_encoded sections[k] rest
  obtain ⟨nameReads, nul⟩ := listBuffer_name sections[k] rest
  have wordAt
      {m place : Nat}
      (isPlace : place = 8 * m) :
      loadWord (sectionsImage sections signature beyond)
          (8 * (2 + 4 * k + m)) =
        loadWord (listBuffer sections[k].encoded rest) place := by
    apply loadWord_congr
    intro index _
    rw [show 8 * (2 + 4 * k + m) + index =
      16 + 32 * k + (place + index) by omega, reads]
  have byteAt (index : Nat) :
      sectionsImage sections signature beyond (8 * (2 + 4 * k) + index) =
        listBuffer sections[k].encoded rest index := by
    rw [show 8 * (2 + 4 * k) + index = 16 + 32 * k + index by omega, reads]
  rw [headers k inRange]
  refine ⟨?_, ?_, ?_, ?_⟩
  · have notLast : k ≠ 7 := by
      omega
    simp only [readSection]
    apply cString_copyName notLast sections[k].name_length_le
      (fun byte member => (sections[k].name_ascii byte member).1)
    · intro index inName
      rw [byteAt, nameReads index inName]
    · rw [byteAt, nul]
  · exact (wordAt rfl).trans addrWord
  · exact (wordAt rfl).trans sizeWord
  · have permissionsBound := sections[k].permissions_lt
    have word := (@wordAt 3 24 rfl).trans permissionsWord
    simp only [readSection, word]
    apply BitVec.eq_of_toNat_eq
    rw [BitVec.toNat_setWidth, BitVec.toNat_ofNat, BitVec.toNat_ofNat]
    omega

/-- Eight sections are not: the name of the eighth one comes out empty. -/
theorem not_readBack_of_eight
    {sections : List SectionInfo}
    (full : sections.length = 8)
    (signature : Block)
    (beyond : Nat → Byte)
    (stack : Process)
    (pid : Byte) :
    ¬ ReadBack sections
      (parseExecutable stack pid
        (sectionsImage sections signature beyond)) := by
  obtain ⟨-, headers⟩ :=
    parseExecutable_spec stack pid (sectionsImage sections signature beyond)
      full.le (fun k => sectionsImage_present full.le signature beyond)
      (sectionsImage_end full.le signature beyond)
  rintro ⟨-, readBack⟩
  have last : 7 < sections.length := by
    omega
  have name := (readBack 7 last).1
  rw [headers 7 last, readSection, cString_copyName_last] at name
  exact sections[7].name_ne_nil name.symm

/--
The monitor reads back what the tools wrote exactly when there are fewer than
eight sections.
-/
theorem parseExecutable_readBack_iff
    (sections : List SectionInfo)
    (atMost : sections.length ≤ 8)
    (signature : Block)
    (beyond : Nat → Byte)
    (stack : Process)
    (pid : Byte) :
    ReadBack sections
        (parseExecutable stack pid
          (sectionsImage sections signature beyond)) ↔
      sections.length < 8 := by
  constructor
  · intro readBack
    by_contra full
    exact not_readBack_of_eight (by omega) signature beyond stack pid readBack
  · intro notFull
    exact readBack_of_lt notFull signature beyond stack pid

/-- A `.text` section of two pages. -/
def textInfo : SectionInfo where
  name := [0x2e, 0x74, 0x65, 0x78, 0x74]
  addr := 0
  size := 0x2000
  permissions := 5
  name_ne_nil := by decide
  name_length_le := by decide
  name_ascii := by decide
  addr_lt := by decide
  size_lt := by decide
  permissions_lt := by decide

/-- One section is read back as it was written. -/
theorem textInfo_readBack :
    ReadBack [textInfo]
      (parseExecutable ⟨0, 0, fun _ => ⟨fun _ => 0, 0, 0, 0⟩⟩ 1
        (sectionsImage [textInfo] (Vector.replicate 16 0) fun _ => 0)) :=
  (parseExecutable_readBack_iff [textInfo] (by decide) _ _ _ _).mpr
    (by decide)

/-- Eight sections are not: the last name is lost. -/
theorem eight_sections_not_readBack :
    ¬ ∀ (sections : List SectionInfo),
        sections.length ≤ 8 →
        ∀ (signature : Block) (beyond : Nat → Byte) (stack : Process)
          (pid : Byte),
          ReadBack sections
            (parseExecutable stack pid
              (sectionsImage sections signature beyond)) := by
  intro always
  exact
    not_readBack_of_eight (by rfl) (Vector.replicate 16 0) (fun _ => 0)
      ⟨0, 0, fun _ => ⟨fun _ => 0, 0, 0, 0⟩⟩ 1
      (always (List.replicate 8 textInfo) (by decide) _ _ _ _)

end S3kMonitor
