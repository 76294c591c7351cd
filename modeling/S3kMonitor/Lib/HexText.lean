import S3kMonitor.Lib.LittleEndian
import Mathlib.Data.Nat.Digits.Lemmas

namespace HexText

/-!
# Hexadecimal text

How C reads a line of text and a hexadecimal number in it (`fgets` and
`strtol` with base 16), how Python writes one (`hex` of a number and of a
byte string), and that the reader recovers what the writer wrote.  A
character is its code.
-/

/-- A text in ASCII. -/
abbrev Text := List (BitVec 8)

/-- The end of a line. -/
def newline : BitVec 8 :=
  0x0a

/-- The lower-case digit for a value below 16. -/
def digit (value : Nat) : BitVec 8 :=
  BitVec.ofNat 8 (if value < 10 then 0x30 + value else 0x57 + value)

/-- The value of a digit in either case. -/
def digitValue (char : BitVec 8) : Option Nat :=
  let code := char.toNat
  if 0x30 ≤ code ∧ code ≤ 0x39 then
    some (code - 0x30)
  else if 0x41 ≤ code ∧ code ≤ 0x46 then
    some (code - 0x37)
  else if 0x61 ≤ code ∧ code ≤ 0x66 then
    some (code - 0x57)
  else
    none

section Reading

/-- `isspace` of the C locale. -/
def isSpace (char : BitVec 8) : Bool :=
  let code := char.toNat
  code = 0x20 ∨ 0x09 ≤ code ∧ code ≤ 0x0d

/-- Digits are read up to the first character that is none. -/
def scan (value : Nat) : Text → Nat
  | [] => value
  | char :: rest =>
      match digitValue char with
      | some low => scan (16 * value + low) rest
      | none => value

/-- `0x` may stand before the digits. -/
def dropRadix : Text → Text
  | zero :: x :: char :: rest =>
      if zero = 0x30 ∧ (x = 0x78 ∨ x = 0x58) ∧ (digitValue char).isSome then
        char :: rest
      else
        zero :: x :: char :: rest
  | text => text

/-- `strtol` with base 16, for a `long` of 64 bits; it clamps. -/
def strtol (text : Text) : Int :=
  match text.dropWhile isSpace with
  | [] => 0
  | char :: rest =>
      if char = 0x2d then
        -(min (scan 0 (dropRadix rest)) (2 ^ 63) : Nat)
      else if char = 0x2b then
        (min (scan 0 (dropRadix rest)) (2 ^ 63 - 1) : Nat)
      else
        (min (scan 0 (dropRadix (char :: rest))) (2 ^ 63 - 1) : Nat)

/-- At most `room` characters, up to and with the first newline. -/
def takeLine : (room : Nat) → Text → Text × Text
  | 0, text => ([], text)
  | _ + 1, [] => ([], [])
  | room + 1, char :: text =>
      if char = newline then
        ([char], text)
      else
        let (line, rest) := takeLine room text
        (char :: line, rest)

/-- `fgets` into a buffer of `size` bytes; `none` at the end of the file. -/
def fgets (size : Nat) (text : Text) : Option (Text × Text) :=
  match text with
  | [] => none
  | _ => some (takeLine (size - 1) text)

end Reading

section Writing

/-- Python's `bytes.hex`. -/
def hexlify (bytes : List (BitVec 8)) : Text :=
  bytes.flatMap fun byte =>
    [digit (byte.toNat / 16), digit (byte.toNat % 16)]

/-- Python's `hex`. -/
def pyHex (number : Nat) : Text :=
  0x30 :: 0x78 ::
    (if number = 0 then [digit 0]
    else (Nat.digits 16 number).reverse.map digit)

/-- A number without a radix in front and without leading zeros. -/
def numeral (number : Nat) : Text :=
  if number = 0 then [digit 0]
  else (Nat.digits 16 number).reverse.map digit

/--
The digits that a loop over `count` places finds, the highest place first,
when it passes over a place with nothing in it or above it.
-/
def placeDigits (number : Nat) : (count : Nat) → List Nat
  | 0 => []
  | count + 1 =>
      if number / 16 ^ count = 0 then
        placeDigits number count
      else
        number / 16 ^ count % 16 :: placeDigits number count

end Writing

/-- Lower-case digits that denote the number, with no zero too many. -/
structure IsNumeral (number : Nat) (text : Text) : Prop where
  nonempty : text ≠ []
  lowerCase : ∀ char ∈ text, ∃ value, value < 16 ∧ digit value = char
  noLeadingZero : text.head? = some (digit 0) → text = [digit 0]
  reads : scan 0 text = number

section Digits

/-- A digit has its value. -/
theorem digitValue_digit
    {value : Nat}
    (small : value < 16) :
    digitValue (digit value) = some value := by
  have allDigits : ∀ index : Fin 16,
      digitValue (digit index) = some index.val := by
    decide
  exact allDigits ⟨value, small⟩

/-- A character that is no digit is not one that was written. -/
theorem digit_ne
    {value : Nat}
    (small : value < 16)
    {char : BitVec 8}
    (noDigit : digitValue char = none) :
    digit value ≠ char := by
  rintro rfl
  rw [digitValue_digit small] at noDigit
  cases noDigit

/-- A digit is no space. -/
theorem isSpace_digit
    {value : Nat}
    (small : value < 16) :
    isSpace (digit value) = false := by
  have allDigits : ∀ index : Fin 16, isSpace (digit index) = false := by
    decide
  exact allDigits ⟨value, small⟩

/-- The end of a line is no digit. -/
theorem digitValue_newline :
    digitValue newline = none := by
  decide

/-- A byte is written with two digits. -/
theorem digits_lt (byte : BitVec 8) :
    byte.toNat / 16 < 16 ∧ byte.toNat % 16 < 16 := by
  have byteBound := byte.isLt
  omega

/-- Scanning written digits adds them to the value. -/
theorem scan_digits
    (values : List Nat)
    (small : ∀ value ∈ values, value < 16)
    (start : Nat)
    (rest : Text) :
    scan start (values.map digit ++ rest) =
      scan (values.foldl (fun total value => 16 * total + value) start)
        rest := by
  induction values generalizing start with
  | nil =>
      rfl
  | cons value values inductionHypothesis =>
      obtain ⟨valueSmall, restSmall⟩ := List.forall_mem_cons.mp small
      simp only [List.map_cons, List.cons_append, scan,
        digitValue_digit valueSmall, List.foldl_cons]
      exact inductionHypothesis restSmall _

/-- The digits of a number, highest first, give the number. -/
theorem foldl_digits (number : Nat) :
    (Nat.digits 16 number).reverse.foldl
      (fun total value => 16 * total + value) 0 = number := by
  have value := Nat.ofDigits_digits 16 number
  rw [Nat.ofDigits_eq_foldr] at value
  rw [List.foldl_reverse]
  simpa [Nat.add_comm] using value

/-- Bytes written highest first give the number they denote. -/
theorem scan_hexlify
    (bytes : List (BitVec 8))
    (start : Nat)
    (rest : Text) :
    scan start (hexlify bytes.reverse ++ rest) =
      scan (256 ^ bytes.length * start + LittleEndian.decode bytes) rest := by
  induction bytes generalizing rest with
  | nil =>
      simp [hexlify]
  | cons byte bytes inductionHypothesis =>
      obtain ⟨high, low⟩ := digits_lt byte
      have written :
          hexlify (byte :: bytes).reverse ++ rest =
            hexlify bytes.reverse ++
              (digit (byte.toNat / 16) :: digit (byte.toNat % 16) ::
                rest) := by
        simp [hexlify]
      rw [written, inductionHypothesis]
      simp only [scan, digitValue_digit high, digitValue_digit low,
        List.length_cons, Nat.pow_succ, LittleEndian.decode]
      congr 1
      have halves := Nat.div_add_mod byte.toNat 16
      calc
        16 * (16 * (256 ^ bytes.length * start + LittleEndian.decode bytes) +
              byte.toNat / 16) + byte.toNat % 16 =
            256 ^ bytes.length * 256 * start +
              ((16 * (byte.toNat / 16) + byte.toNat % 16) +
                256 * LittleEndian.decode bytes) := by
          ring
        _ = 256 ^ bytes.length * 256 * start +
              (byte.toNat + 256 * LittleEndian.decode bytes) := by
          rw [halves]

/-- The lowest place is the last one of the loop. -/
theorem placeDigits_succ (number count : Nat) :
    placeDigits number (count + 1) =
      placeDigits (number / 16) count ++
        if number = 0 then [] else [number % 16] := by
  induction count with
  | zero =>
      simp [placeDigits]
  | succ count inductionHypothesis =>
      have shifted : number / 16 ^ (count + 1) = number / 16 / 16 ^ count := by
        rw [Nat.div_div_eq_div_mul, Nat.pow_succ']
      rw [placeDigits, inductionHypothesis, placeDigits, shifted]
      split
      · rfl
      · rfl

/-- With enough places the loop finds the digits of the number. -/
theorem placeDigits_eq
    {number count : Nat}
    (fits : number < 16 ^ count) :
    placeDigits number count = (Nat.digits 16 number).reverse := by
  induction count generalizing number with
  | zero =>
      have isZero : number = 0 := by
        omega
      rw [isZero, Nat.digits_zero]
      rfl
  | succ count inductionHypothesis =>
      rw [placeDigits_succ]
      by_cases isZero : number = 0
      · rw [if_pos isZero, isZero, List.append_nil, inductionHypothesis]
        exact Nat.pow_pos (by decide)
      · have rest : number / 16 < 16 ^ count := by
          rw [Nat.pow_succ] at fits
          omega
        rw [if_neg isZero, inductionHypothesis rest,
          Nat.digits_def' (by decide) (Nat.pos_of_ne_zero isZero),
          List.reverse_cons]

/-- A numeral is made of digits whose value is the number. -/
theorem numeral_digits (number : Nat) :
    ∃ values : List Nat,
      (∀ value ∈ values, value < 16) ∧ values ≠ [] ∧
      values.foldl (fun total value => 16 * total + value) 0 = number ∧
      numeral number = values.map digit := by
  by_cases isZero : number = 0
  · subst isZero
    exact ⟨[0], by simp, by simp, rfl, rfl⟩
  · refine ⟨(Nat.digits 16 number).reverse, ?_, ?_, foldl_digits number, ?_⟩
    · intro value member
      exact Nat.digits_lt_base (by omega) (List.mem_reverse.mp member)
    · simpa [Nat.digits_ne_nil_iff_ne_zero] using isZero
    · rw [numeral, if_neg isZero]

/-- The highest digit is not 0, and no other digit is written like 0. -/
theorem numeral_noLeadingZero
    {number : Nat}
    (leading : (numeral number).head? = some (digit 0)) :
    numeral number = [digit 0] := by
  by_cases isZero : number = 0
  · rw [numeral, if_pos isZero]
  · have someDigits : Nat.digits 16 number ≠ [] :=
      Nat.digits_ne_nil_iff_ne_zero.mpr isZero
    rw [numeral, if_neg isZero, List.head?_map, List.head?_reverse,
      List.getLast?_eq_some_getLast someDigits] at leading
    have last :=
      Nat.digits_lt_base (by decide) (List.getLast_mem someDigits)
    have sameValue :=
      congrArg digitValue (Option.some.inj leading)
    rw [digitValue_digit last, digitValue_digit (by decide)] at sameValue
    exact absurd (Option.some.inj sameValue)
      (Nat.getLast_digit_ne_zero 16 isZero)

/-- A number is written as its numeral. -/
theorem numeral_isNumeral (number : Nat) :
    IsNumeral number (numeral number) := by
  obtain ⟨values, small, nonempty, total, written⟩ := numeral_digits number
  constructor
  case nonempty =>
    rw [written]
    simpa using nonempty
  case lowerCase =>
    intro char member
    rw [written] at member
    obtain ⟨value, inDigits, isDigit⟩ := List.mem_map.mp member
    exact ⟨value, small value inDigits, isDigit⟩
  case noLeadingZero =>
    exact numeral_noLeadingZero
  case reads =>
    have scanned := scan_digits values small 0 []
    rw [List.append_nil, total] at scanned
    rw [written]
    exact scanned

end Digits

section RoundTrip

/-- A digit starts a number: it is neither a blank nor a sign. -/
private theorem strtol_digit
    {value : Nat}
    (small : value < 16)
    (rest : Text) :
    strtol (digit value :: rest) =
      (min (scan 0 (dropRadix (digit value :: rest))) (2 ^ 63 - 1) :
        Nat) := by
  have notMinus : digit value ≠ 0x2d :=
    digit_ne small (by decide)
  have notPlus : digit value ≠ 0x2b :=
    digit_ne small (by decide)
  simp only [strtol, List.dropWhile, isSpace_digit small, if_neg notMinus,
    if_neg notPlus]

/-- A number written by `hex` on a line of its own is read back. -/
theorem strtol_pyHex
    {number : Nat}
    (fits : number < 2 ^ 63) :
    strtol (pyHex number ++ [newline]) = number := by
  obtain ⟨values, small, nonempty, total, isNumeral⟩ := numeral_digits number
  have written : pyHex number = 0x30 :: 0x78 :: values.map digit :=
    congrArg (0x30 :: 0x78 :: ·) isNumeral
  cases values with
  | nil =>
      exact absurd rfl nonempty
  | cons value values =>
      have valueSmall := small value List.mem_cons_self
      have scanned :=
        scan_digits (value :: values) small 0 [newline]
      rw [total] at scanned
      have stop : scan number [newline] = number := by
        simp [scan, digitValue_newline]
      have radix :
          dropRadix (0x30 :: 0x78 ::
              ((value :: values).map digit ++ [newline])) =
            (value :: values).map digit ++ [newline] := by
        simp [dropRadix, digitValue_digit valueSmall]
      have zeroDigit : (0x30 : BitVec 8) = digit 0 := rfl
      have read := strtol_digit (by omega : 0 < 16)
        (0x78 :: ((value :: values).map digit ++ [newline]))
      rw [← zeroDigit, radix, scanned, stop] at read
      rw [written]
      simp only [List.cons_append]
      simp only [List.map_cons, List.cons_append] at read
      rw [List.map_cons, List.cons_append, read]
      omega

/-- Bytes written by `bytes.hex`, last byte first, are read back. -/
theorem strtol_hexlify
    {bytes : List (BitVec 8)}
    (nonempty : bytes ≠ [])
    (short : bytes.length ≤ 7) :
    strtol (hexlify bytes.reverse ++ [newline]) =
      LittleEndian.decode bytes := by
  have stop :
      scan (LittleEndian.decode bytes) [newline] =
        LittleEndian.decode bytes := by
    simp [scan, digitValue_newline]
  have scanned := scan_hexlify bytes 0 [newline]
  rw [Nat.mul_zero, Nat.zero_add, stop] at scanned
  have bound : LittleEndian.decode bytes < 2 ^ 63 := by
    have fits := LittleEndian.decode_lt bytes
    have powers : 256 ^ bytes.length ≤ 256 ^ 7 :=
      Nat.pow_le_pow_right (by omega) short
    omega
  obtain ⟨byte, rest, reversed⟩ :=
    List.exists_cons_of_ne_nil (by simpa using nonempty :
      bytes.reverse ≠ [])
  obtain ⟨high, low⟩ := digits_lt byte
  have written :
      hexlify bytes.reverse ++ [newline] =
        digit (byte.toNat / 16) :: digit (byte.toNat % 16) ::
          (hexlify rest ++ [newline]) := by
    rw [reversed]
    simp [hexlify]
  have noRadix :
      dropRadix (hexlify bytes.reverse ++ [newline]) =
        hexlify bytes.reverse ++ [newline] := by
    have noX :
        ¬ (digit (byte.toNat % 16) = 0x78 ∨
          digit (byte.toNat % 16) = 0x58) := by
      rintro (isLower | isUpper)
      · exact digit_ne low (by decide) isLower
      · exact digit_ne low (by decide) isUpper
    rw [written]
    cases hexlify rest ++ [newline] with
    | nil =>
        rfl
    | cons char text =>
        rw [dropRadix, if_neg fun radix => noX radix.2.1]
  have read := strtol_digit high
    (digit (byte.toNat % 16) :: (hexlify rest ++ [newline]))
  rw [← written, noRadix, scanned] at read
  rw [read]
  omega

end RoundTrip

section Lines

/-- A line that fits the buffer is taken with its newline. -/
theorem fgets_line
    {size : Nat}
    {line : Text}
    (noNewline : newline ∉ line)
    (fits : line.length + 2 ≤ size)
    (rest : Text) :
    fgets size (line ++ newline :: rest) = some (line ++ [newline], rest) := by
  have taken (room : Nat) (enough : line.length < room) :
      takeLine room (line ++ newline :: rest) =
        (line ++ [newline], rest) := by
    clear fits
    induction line generalizing room with
    | nil =>
        cases room with
        | zero =>
            exact absurd enough (Nat.not_lt_zero _)
        | succ room =>
            simp [takeLine]
    | cons char line inductionHypothesis =>
        cases room with
        | zero =>
            exact absurd enough (Nat.not_lt_zero _)
        | succ room =>
            rw [List.mem_cons, not_or] at noNewline
            simp only [List.length_cons] at enough
            have tail :=
              inductionHypothesis noNewline.2 room (by omega)
            simp [takeLine, Ne.symm noNewline.1, tail]
  have next := taken (size - 1) (by omega)
  unfold fgets
  split
  · next empty => simp at empty
  · rw [next]

/-- There is no end of a line in hexadecimal bytes. -/
theorem newline_notMem_hexlify (bytes : List (BitVec 8)) :
    newline ∉ hexlify bytes := by
  intro member
  simp only [hexlify, List.mem_flatMap, List.mem_cons, List.not_mem_nil,
    or_false] at member
  obtain ⟨byte, -, isDigit⟩ := member
  obtain ⟨high, low⟩ := digits_lt byte
  rcases isDigit with isHigh | isLow
  · exact digit_ne high digitValue_newline isHigh.symm
  · exact digit_ne low digitValue_newline isLow.symm

/-- Each byte takes two digits. -/
theorem length_hexlify (bytes : List (BitVec 8)) :
    (hexlify bytes).length = 2 * bytes.length := by
  simp [hexlify, List.length_flatMap, Nat.mul_comm]

/-- Nor is there one in a number of Python. -/
theorem newline_notMem_pyHex (number : Nat) :
    newline ∉ pyHex number := by
  intro member
  rw [pyHex, List.mem_cons, List.mem_cons] at member
  rcases member with isZero | isX | inDigits
  · exact absurd isZero (by decide)
  · exact absurd isX (by decide)
  · split at inDigits
    · exact absurd inDigits (by decide)
    · obtain ⟨value, inReversed, isDigit⟩ := List.mem_map.mp inDigits
      exact digit_ne
        (Nat.digits_lt_base (by omega) (List.mem_reverse.mp inReversed))
        digitValue_newline isDigit

/-- A number below `16 ^ count` takes at most `count` digits. -/
theorem length_pyHex_le
    {number count : Nat}
    (fits : number < 16 ^ count)
    (positive : 0 < count) :
    (pyHex number).length ≤ count + 2 := by
  rw [pyHex, List.length_cons, List.length_cons]
  split
  · simpa using Nat.succ_le_of_lt positive
  · have bound := (Nat.digits_length_le_iff (by omega : 1 < 16) number).mpr fits
    simpa using bound

end Lines

end HexText
