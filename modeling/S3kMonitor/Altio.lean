import S3kMonitor.Machine
import S3kMonitor.Lib.CStrings
import S3kMonitor.Lib.HexText

namespace S3kMonitor

open CStrings (CString)

open HexText (numeral placeDigits)

/-!
# Formatted output of `common/altio.c`

`alt_printf` scans its format with a pointer and writes to the UART.  The
state below is what it changes, with a log of the offsets at which it reads
the format.  Its counters are of type `int`, and an overflow is `none`.
-/

/-- The code of a character. -/
def ascii (char : Char) : Byte :=
  BitVec.ofNat 8 char.toNat

/-- What `va_arg` can find next; `int` stands for `unsigned int`, too. -/
inductive VaArg where
  | int (value : BitVec 32)
  | longLong (value : BitVec 64)
  | charPtr (str : CString)

/-- The state of `alt_printf`: `fmt` is an offset, `fetched` its reads. -/
structure Printing where
  fmt : Nat
  args : List VaArg
  len : Nat
  isInt : len ≤ intMax
  written : List Byte
  fetched : List Nat

/-- `static const char hex[16]`. -/
def hex : Vector Byte 16 :=
  #v[0x30, 0x31, 0x32, 0x33, 0x34, 0x35, 0x36, 0x37, 0x38, 0x39, 0x61, 0x62,
    0x63, 0x64, 0x65, 0x66]

namespace Printing

variable (print : Printing)

/-- The format is read at an offset. -/
def fetch (offset : Nat) : Printing :=
  { print with fetched := offset :: print.fetched }

/-- `alt_putchar`. -/
def altPutchar (c : Byte) : Printing :=
  { print with written := print.written ++ [c] }

/-- `len += number`. -/
def addLen (number : Nat) : Option Printing :=
  if fits : print.len + number ≤ intMax then
    some { print with len := print.len + number, isInt := fits }
  else
    none

end Printing

/-- The loop of `alt_putstr`, entered with counter `i`. -/
def altPutstrLoop
    (str : Nat → Byte)
    (i : Nat)
    (print : Printing) :
    Option (Nat × Printing) :=
  if str i ≠ 0 then
    if i + 1 ≤ intMax then
      altPutstrLoop str (i + 1) (print.altPutchar (str i))
    else
      none
  else
    some (i, print)
termination_by intMax - i

/-- `alt_putstr`. -/
def altPutstr (str : Nat → Byte) (print : Printing) :
    Option (Nat × Printing) :=
  altPutstrLoop str 0 print

/-- The loop over the digits of `x`, from `i = 4 * (count - 1)` down to 0. -/
def altHexLoop (x : Word) : (count : Nat) → Printing → Option Printing
  | 0, print => some print
  | count + 1, print =>
      let i := 4 * count
      if x >>> i ≠ 0 then
        let char := hex.get (Fin.ofNat 16 ((x >>> i) &&& 0xF).toNat)
        ((print.altPutchar char).addLen 1).bind (altHexLoop x count)
      else
        altHexLoop x count print

/-- The cases `'x'` and `'X'`, which differ in the number of digits. -/
def altHex (x : Word) (count : Nat) (print : Printing) : Option Printing :=
  if x = 0 then
    (print.altPutchar (ascii '0')).addLen 1
  else
    altHexLoop x count print

/-- The `switch`; an argument of another type is undefined. -/
def altConvert (c : Byte) (print : Printing) : Option Printing :=
  if c = ascii 'c' then
    match print.args with
    | .int value :: args =>
        (({ print with args := args }).altPutchar (value.setWidth 8)).addLen 1
    | _ => none
  else if c = ascii 's' then
    match print.args with
    | .charPtr str :: args =>
        (altPutstr str.bytes { print with args := args }).bind
          fun (number, print) => print.addLen number
    | _ => none
  else if c = ascii 'x' then
    match print.args with
    | .int value :: args =>
        altHex (value.setWidth 64) 8 { print with args := args }
    | _ => none
  else if c = ascii 'X' then
    match print.args with
    | .longLong value :: args =>
        altHex value 16 { print with args := args }
    | _ => none
  else if c = ascii '%' then
    (print.altPutchar (ascii '%')).addLen 1
  else
    some print

/-- The body of the loop: each `*fmt++` reads, and then moves the pointer. -/
def altPrintfTurn (fmt : Nat → Byte) (print : Printing) : Option Printing :=
  let first := print.fmt
  let print := { print.fetch first with fmt := first + 1 }
  if fmt first ≠ ascii '%' then
    -- `*(fmt - 1)` reads the character once more.
    ((print.fetch first).altPutchar (fmt first)).addLen 1
  else
    let second := print.fmt
    let print := { print.fetch second with fmt := second + 1 }
    altConvert (fmt second) print

/-- The loop over the format, for at most `fuel` turns. -/
def altPrintfLoop (fmt : Nat → Byte) : (fuel : Nat) → Printing → Option Printing
  | 0, _ => none
  | fuel + 1, print =>
      let offset := print.fmt
      let print := print.fetch offset
      if fmt offset ≠ 0 then
        (altPrintfTurn fmt print).bind (altPrintfLoop fmt fuel)
      else
        some print

/-- The state in which `alt_printf` enters its loop. -/
def Printing.start (args : List VaArg) : Printing where
  fmt := 0
  args := args
  len := 0
  isInt := Nat.zero_le intMax
  written := []
  fetched := []

/-- What `alt_printf` returns is the field `len` of the result. -/
def altPrintf (fmt : Nat → Byte) (args : List VaArg) (fuel : Nat) :
    Option Printing :=
  altPrintfLoop fmt fuel (Printing.start args)

/-- Write characters and count them. -/
def Printing.emit (print : Printing) (text : List Byte) : Option Printing :=
  if fits : print.len + text.length ≤ intMax then
    some
      { print with
        len := print.len + text.length
        isInt := fits
        written := print.written ++ text }
  else
    none

section Emitting

variable (print : Printing)

/-- One `alt_putchar` with its `len++`. -/
theorem altPutchar_addLen (c : Byte) :
    (print.altPutchar c).addLen 1 = print.emit [c] :=
  rfl

/-- An empty piece is put out. -/
theorem emit_nil : print.emit [] = some print := by
  simp [Printing.emit, print.isInt]

/-- Two pieces are put out as one. -/
theorem emit_append (first second : List Byte) :
    (print.emit first).bind (fun print => print.emit second) =
      print.emit (first ++ second) := by
  simp only [Printing.emit, List.length_append]
  by_cases firstFits : print.len + first.length ≤ intMax
  · rw [dif_pos firstFits, Option.bind_some]
    simp only [Nat.add_assoc, List.append_assoc]
  · rw [dif_neg firstFits, dif_neg (by omega)]
    rfl

end Emitting

section Strings

variable
  (str : CString)
  (print : Printing)

/-- The loop writes what is left of the string. -/
theorem altPutstrLoop_eq
    (rest : List Byte)
    (i : Nat)
    (ahead : str.text.drop i = rest)
    (inRange : i ≤ str.length)
    (isInt : i ≤ intMax) :
    altPutstrLoop str.bytes i print =
      if str.length ≤ intMax then
        some (str.length, { print with written := print.written ++ rest })
      else
        none := by
  induction rest generalizing i print with
  | nil =>
      have atEnd := str.scan_nil ahead inRange
      rw [altPutstrLoop, atEnd, CString.bytes_length, if_neg (by simp)]
      rw [atEnd] at isInt
      rw [if_pos isInt, List.append_nil]
  | cons char rest inductionHypothesis =>
      obtain ⟨inText, isChar, isRest⟩ := CString.scan_cons ahead
      have notNul := str.bytes_ne_zero inText
      rw [altPutstrLoop, if_pos notNul]
      by_cases counterFits : i + 1 ≤ intMax
      · rw [if_pos counterFits,
          inductionHypothesis _ (i + 1) isRest inText counterFits, isChar]
        simp [Printing.altPutchar]
      · rw [if_neg counterFits, if_neg (by omega)]

/-- `%s` writes the text of its string. -/
theorem altPutstr_addLen :
    (altPutstr str.bytes print).bind
        (fun (number, print) => print.addLen number) =
      print.emit str.text := by
  rw [altPutstr, altPutstrLoop_eq str print str.text 0 rfl (Nat.zero_le _)
    (Nat.zero_le _)]
  by_cases short : str.length ≤ intMax
  · rw [if_pos short, Option.bind_some]
    simp only [Printing.addLen, Printing.emit, CString.length_text]
  · rw [if_neg short, Option.bind_none, Printing.emit, CString.length_text,
      dif_neg (by omega)]

end Strings

section Hexadecimal

variable (print : Printing)

/-- A digit is looked up in the table. -/
theorem hex_get (x : Word) :
    hex.get (Fin.ofNat 16 (x &&& 0xF).toNat) =
      HexText.digit (x.toNat % 16) := by
  have table : ∀ index : Fin 16, hex.get index = HexText.digit index.val := by
    decide
  have low : (x &&& 0xF).toNat = x.toNat % 16 := by
    rw [BitVec.toNat_and]
    exact Nat.and_two_pow_sub_one_eq_mod _ 4
  rw [table, low]
  exact congrArg HexText.digit (Nat.mod_mod x.toNat 16)

/-- The shift leaves the digits from place `count` on. -/
theorem shift_toNat (x : Word) (count : Nat) :
    (x >>> (4 * count)).toNat = x.toNat / 16 ^ count := by
  rw [BitVec.toNat_ushiftRight, Nat.shiftRight_eq_div_pow, Nat.pow_mul]

/-- The loop puts out so many digits. -/
theorem altHexLoop_eq (x : Word) (count : Nat) :
    altHexLoop x count print =
      print.emit ((placeDigits x.toNat count).map HexText.digit) := by
  induction count generalizing print with
  | zero =>
      exact (emit_nil print).symm
  | succ count inductionHypothesis =>
      have isZero : x >>> (4 * count) = 0 ↔ x.toNat / 16 ^ count = 0 := by
        rw [← shift_toNat, ← BitVec.toNat_inj]
        rfl
      rw [altHexLoop, placeDigits]
      by_cases passed : x.toNat / 16 ^ count = 0
      · simp only [ne_eq, isZero, passed, not_true_eq_false, if_false,
          if_true]
        exact inductionHypothesis print
      · simp only [ne_eq, isZero, passed, not_false_eq_true, if_true,
          if_false, altPutchar_addLen, hex_get, shift_toNat, List.map_cons]
        rw [funext inductionHypothesis]
        exact emit_append print [_] _

/-- `%x` and `%X` write the numeral of a value that fits the places. -/
theorem altHex_eq
    {x : Word}
    {count : Nat}
    (fits : x.toNat < 16 ^ count) :
    altHex x count print = print.emit (numeral x.toNat) := by
  rw [altHex, numeral]
  by_cases isZero : x = 0
  · rw [if_pos isZero, isZero, altPutchar_addLen]
    rfl
  · have notZero : x.toNat ≠ 0 :=
      fun value => isZero (BitVec.eq_of_toNat_eq value)
    rw [if_neg isZero, if_neg notZero, altHexLoop_eq,
      HexText.placeDigits_eq fits]

end Hexadecimal

end S3kMonitor
