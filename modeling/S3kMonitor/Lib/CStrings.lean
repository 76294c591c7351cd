import Mathlib.Data.BitVec
import Mathlib.Data.List.Range
import Mathlib.Data.Nat.Find

namespace CStrings

/-!
# Strings that end in a NUL

A C string is a memory with a NUL in it; its text is what stands in front of
the first one.  What a scanner has still to read is a suffix of the text, and
each suffix tells the byte at the scanner's offset.
-/

/-- The bytes from a pointer on, with a NUL somewhere among them. -/
structure CString where
  bytes : Nat → BitVec 8
  terminated : ∃ index, bytes index = 0

namespace CString

/-- `strlen`. -/
def length (str : CString) : Nat :=
  Nat.find str.terminated

/-- The characters in front of the NUL. -/
def text (str : CString) : List (BitVec 8) :=
  (List.range str.length).map str.bytes

variable (str : CString)

/-- The text has the length of the string. -/
@[simp]
theorem length_text : str.text.length = str.length := by
  rw [text, List.length_map, List.length_range]

/-- The NUL stands behind the text. -/
@[simp]
theorem bytes_length : str.bytes str.length = 0 :=
  Nat.find_spec str.terminated

/-- There is no NUL in front of it. -/
theorem bytes_ne_zero
    {index : Nat}
    (inText : index < str.length) :
    str.bytes index ≠ 0 :=
  Nat.find_min str.terminated inText

variable
  {str}
  {index : Nat}

/-- In front of a character the scanner is inside the text. -/
theorem scan_cons
    {char : BitVec 8}
    {rest : List (BitVec 8)}
    (ahead : str.text.drop index = char :: rest) :
    index < str.length ∧ str.bytes index = char ∧
      str.text.drop (index + 1) = rest := by
  have inText : index < str.text.length := by
    by_contra beyond
    rw [List.drop_eq_nil_of_le (Nat.le_of_not_lt beyond)] at ahead
    cases ahead
  rw [List.drop_eq_getElem_cons inText] at ahead
  obtain ⟨isChar, isRest⟩ := List.cons.inj ahead
  rw [length_text] at inText
  refine ⟨inText, ?_, isRest⟩
  simpa [text] using isChar

/-- With nothing ahead it has arrived at the NUL. -/
theorem scan_nil
    (ahead : str.text.drop index = [])
    (inRange : index ≤ str.length) :
    index = str.length := by
  rw [List.drop_eq_nil_iff, length_text] at ahead
  exact Nat.le_antisymm inRange ahead

/-- A text as it stands in memory, with NULs behind it. -/
def ofText (text : List (BitVec 8)) : CString where
  bytes index := text.getD index 0
  terminated := ⟨text.length, by simp⟩

/-- A text without NUL is the text of its string. -/
theorem text_ofText
    {text : List (BitVec 8)}
    (noNul : (0 : BitVec 8) ∉ text) :
    (ofText text).text = text := by
  have isLength : (ofText text).length = text.length := by
    rw [length, Nat.find_eq_iff]
    refine ⟨by simp [ofText], fun index below isNul => noNul ?_⟩
    have inText : text[index] = 0 := by
      simpa [ofText, below] using isNul
    exact inText ▸ List.getElem_mem below
  apply List.ext_getElem
  · rw [length_text, isLength]
  · intro index inFirst inSecond
    simp [CString.text, ofText, inSecond]

end CString

end CStrings
