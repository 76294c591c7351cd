import S3kMonitor.Altio
import Mathlib.Algebra.Group.Nat.Even

namespace S3kMonitor

open CStrings (CString)

open HexText (IsNumeral numeral numeral_isNumeral)

/-!
# What `alt_printf` makes of a format

A format means its text with every conversion replaced by its argument.  The
pointer moves over a conversion in two steps, and after a `%` that is the last
character the second step moves it over the NUL.
-/

/-- What takes the place of a conversion, and the arguments behind it. -/
def replacement (c : Byte) (args : List VaArg) :
    Option (List Byte × List VaArg) :=
  if c = ascii 'c' then
    match args with
    | .int value :: args => some ([value.setWidth 8], args)
    | _ => none
  else if c = ascii 's' then
    match args with
    | .charPtr str :: args => some (str.text, args)
    | _ => none
  else if c = ascii 'x' then
    match args with
    | .int value :: args => some (numeral value.toNat, args)
    | _ => none
  else if c = ascii 'X' then
    match args with
    | .longLong value :: args => some (numeral value.toNat, args)
    | _ => none
  else if c = ascii '%' then
    some ([ascii '%'], args)
  else
    some ([], args)

/-- The text with its conversions replaced, if the arguments match them. -/
def expansion : List Byte → List VaArg → Option (List Byte)
  | [], _ => some []
  | [char], _ => some (if char = ascii '%' then [] else [char])
  | char :: next :: rest, args =>
      if char = ascii '%' then
        (replacement next args).bind fun (out, args) =>
          (expansion rest args).map (out ++ ·)
      else
        (expansion (next :: rest) args).map (char :: ·)

/-- The conversions that there are. -/
def conversions : List Byte :=
  [ascii 'c', ascii 's', ascii 'x', ascii 'X', ascii '%']

/-- Behind each `%` stands one of them. -/
def WellFormed : List Byte → Prop
  | [] => True
  | [char] => char ≠ ascii '%'
  | char :: next :: rest =>
      if char = ascii '%' then
        next ∈ conversions ∧ WellFormed rest
      else
        WellFormed (next :: rest)

/-- The last conversion is a `%` with nothing behind it. -/
def EndsLone : List Byte → Prop
  | [] => False
  | [char] => char = ascii '%'
  | char :: next :: rest =>
      if char = ascii '%' then EndsLone rest else EndsLone (next :: rest)

/-- How many `%` stand at the end of the text. -/
def trailingPercents (text : List Byte) : Nat :=
  (text.reverse.takeWhile (· = ascii '%')).length

section Texts

section Literals

variable
  {char : Byte}
  (notPercent : char ≠ ascii '%')
  (rest : List Byte)
include notPercent

/-- Any other character stands for itself. -/
theorem expansion_literal (args : List VaArg) :
    expansion (char :: rest) args =
      (expansion rest args).map (char :: ·) := by
  cases rest with
  | nil =>
      simp [expansion, notPercent]
  | cons next rest =>
      rw [expansion, if_neg notPercent]

/-- Another character in front does not change how a text ends. -/
theorem endsLone_literal : EndsLone (char :: rest) ↔ EndsLone rest := by
  cases rest with
  | nil =>
      simp [EndsLone, notPercent]
  | cons next rest =>
      rw [EndsLone, if_neg notPercent]

end Literals

/-- A well-formed text does not end in a lone percent sign. -/
theorem WellFormed.not_endsLone
    {text : List Byte}
    (wellFormed : WellFormed text) :
    ¬ EndsLone text := by
  induction text using WellFormed.induct with
  | case1 =>
      exact id
  | case2 char =>
      exact wellFormed
  | case3 next rest inductionHypothesis =>
      rw [WellFormed, if_pos rfl] at wellFormed
      rw [EndsLone, if_pos rfl]
      exact inductionHypothesis wellFormed.2
  | case4 char next rest notPercent inductionHypothesis =>
      rw [WellFormed, if_neg notPercent] at wellFormed
      rw [EndsLone, if_neg notPercent]
      exact inductionHypothesis wellFormed

/-- A character counts if only percent signs follow. -/
theorem trailingPercents_cons (char : Byte) (rest : List Byte) :
    trailingPercents (char :: rest) =
      if trailingPercents rest = rest.length then
        rest.length + if char = ascii '%' then 1 else 0
      else
        trailingPercents rest := by
  have split :
      (char :: rest).reverse.takeWhile (· = ascii '%') =
        if trailingPercents rest = rest.length then
          rest.reverse ++ [char].takeWhile (· = ascii '%')
        else
          rest.reverse.takeWhile (· = ascii '%') := by
    rw [List.reverse_cons, List.takeWhile_append, List.length_reverse]
    rfl
  rw [trailingPercents, split]
  by_cases all : trailingPercents rest = rest.length
  · rw [if_pos all, if_pos all, List.length_append, List.length_reverse]
    by_cases isPercent : char = ascii '%'
    · simp [isPercent]
    · simp [isPercent]
  · rw [if_neg all, if_neg all]
    rfl

/-- At most the whole text is percent signs. -/
theorem trailingPercents_le (text : List Byte) :
    trailingPercents text ≤ text.length := by
  have bound :=
    (@List.takeWhile_prefix _ text.reverse (· = ascii '%')).length_le
  rwa [List.length_reverse] at bound

/-- The `%` at the end go in pairs, and one may be left over. -/
theorem endsLone_iff (text : List Byte) :
    EndsLone text ↔ ¬ Even (trailingPercents text) := by
  induction text using EndsLone.induct with
  | case1 =>
      simp [EndsLone, trailingPercents]
  | case2 char =>
      rw [EndsLone, trailingPercents_cons]
      by_cases isPercent : char = ascii '%'
      · simp [isPercent, trailingPercents]
      · simp [isPercent, trailingPercents]
  | case3 next rest inductionHypothesis =>
      have bound := trailingPercents_le rest
      rw [EndsLone, if_pos rfl, inductionHypothesis, trailingPercents_cons,
        trailingPercents_cons, List.length_cons, if_pos rfl]
      by_cases all : trailingPercents rest = rest.length
      · rw [if_pos all, all]
        by_cases isPercent : next = ascii '%'
        · rw [if_pos isPercent, if_pos rfl, Nat.even_add_one,
            Nat.even_add_one, not_not]
        · rw [if_neg isPercent, Nat.add_zero, if_neg (by omega)]
      · rw [if_neg all, if_neg (by omega)]
  | case4 char next rest notPercent inductionHypothesis =>
      rw [EndsLone, if_neg notPercent, inductionHypothesis,
        trailingPercents_cons char, if_neg notPercent]
      split
      · next all =>
        rw [all, Nat.add_zero]
      · rfl

end Texts

section Turns

variable
  (fmt : CString)
  (print : Printing)

/-- The `switch` writes what takes the place of the conversion. -/
theorem altConvert_eq (c : Byte) :
    altConvert c print =
      (replacement c print.args).bind fun (out, args) =>
        { print with args := args }.emit out := by
  obtain ⟨fmt, args, len, isInt, written, fetched⟩ := print
  unfold altConvert replacement
  by_cases isChar : c = ascii 'c'
  · rw [if_pos isChar, if_pos isChar]
    rcases args with _ | ⟨value | value | str, args⟩ <;> rfl
  · rw [if_neg isChar, if_neg isChar]
    by_cases isString : c = ascii 's'
    · rw [if_pos isString, if_pos isString]
      rcases args with _ | ⟨value | value | str, args⟩
      · rfl
      · rfl
      · rfl
      · exact altPutstr_addLen str _
    · rw [if_neg isString, if_neg isString]
      by_cases isLower : c = ascii 'x'
      · rw [if_pos isLower, if_pos isLower]
        rcases args with _ | ⟨value | value | str, args⟩
        · rfl
        · have wide : (value.setWidth 64).toNat = value.toNat :=
            BitVec.toNat_setWidth_of_le (by decide)
          have written :=
            @altHex_eq ⟨fmt, args, len, isInt, written, fetched⟩
              (value.setWidth 64) 8 (wide ▸ value.isLt)
          rw [wide] at written
          exact written
        · rfl
        · rfl
      · rw [if_neg isLower, if_neg isLower]
        by_cases isUpper : c = ascii 'X'
        · rw [if_pos isUpper, if_pos isUpper]
          rcases args with _ | ⟨value | value | str, args⟩
          · rfl
          · rfl
          · exact @altHex_eq ⟨fmt, args, len, isInt, written, fetched⟩ value
              16 value.isLt
          · rfl
        · rw [if_neg isUpper, if_neg isUpper]
          split
          · rfl
          · exact (emit_nil _).symm

variable {print}

/-- What writing leaves alone. -/
theorem emit_frame
    {text : List Byte}
    {next : Printing}
    (emitted : print.emit text = some next) :
    next.fmt = print.fmt ∧ next.args = print.args ∧
      next.len = print.len + text.length ∧
      next.written = print.written ++ text ∧
      next.fetched = print.fetched := by
  unfold Printing.emit at emitted
  split at emitted
  · cases emitted
    exact ⟨rfl, rfl, rfl, rfl, rfl⟩
  · cases emitted

/-- Only the counter of the output can overflow. -/
theorem emit_eq_none_iff {text : List Byte} :
    print.emit text = none ↔ intMax < print.len + text.length := by
  unfold Printing.emit
  split
  · simp only [reduceCtorEq, false_iff]
    omega
  · simp only [true_iff]
    omega

variable
  {fmt}
  {char next : Byte}
  {rest : List Byte}

/-- A turn at a character that is no `%`. -/
theorem altPrintfTurn_literal
    (ahead : fmt.text.drop print.fmt = char :: rest)
    (notPercent : char ≠ ascii '%') :
    altPrintfTurn fmt.bytes print =
      { print with
        fmt := print.fmt + 1
        fetched := print.fmt :: print.fmt :: print.fetched }.emit [char] := by
  obtain ⟨-, isChar, -⟩ := CString.scan_cons ahead
  rw [altPrintfTurn]
  simp only [isChar, if_pos notPercent]
  rfl

/-- A turn at a `%`, which reads the next character, too. -/
theorem altPrintfTurn_percent
    (ahead : fmt.text.drop print.fmt = ascii '%' :: rest) :
    altPrintfTurn fmt.bytes print =
      altConvert (fmt.bytes (print.fmt + 1))
        { print with
          fmt := print.fmt + 2
          fetched := (print.fmt + 1) :: print.fmt :: print.fetched } := by
  obtain ⟨-, isPercent, -⟩ := CString.scan_cons ahead
  rw [altPrintfTurn]
  simp only [isPercent, ne_eq, not_true_eq_false, if_false]
  rfl

end Turns

section Runs

variable
  {fmt : CString}
  {print begun middle final : Printing}
  {first second piece rest : List Byte}

/-- On the way from one state to the other the characters were written. -/
structure Printed
    (fmt : CString)
    (print : Printing)
    (out : List Byte)
    (final : Printing) :
    Prop where
  written : final.written = print.written ++ out
  len : final.len = print.len + out.length
  inside :
    ∀ offset ∈ final.fetched, offset ∈ print.fetched ∨ offset ≤ fmt.length

/-- What is printed in two parts is printed as a whole. -/
theorem Printed.trans
    (before : Printed fmt print first middle)
    (behind : Printed fmt middle second final) :
    Printed fmt print (first ++ second) final := by
  constructor
  case written =>
    rw [behind.written, before.written, List.append_assoc]
  case len =>
    rw [behind.len, before.len, List.length_append, Nat.add_assoc]
  case inside =>
    intro offset fetched
    rcases behind.inside offset fetched with earlier | inText
    · exact before.inside offset earlier
    · exact Or.inr inText

/-- A piece that is put out is printed. -/
theorem printed_of_emit
    (emitted : print.emit piece = some final) :
    Printed fmt print piece final := by
  obtain ⟨-, -, len, written, fetched⟩ := emit_frame emitted
  exact ⟨written, len, fun offset member => Or.inl (fetched ▸ member)⟩

/-- Reads in front of the NUL, or of the NUL itself, print nothing. -/
theorem printed_of_reads
    {reads : List Nat}
    (sameWritten : begun.written = print.written)
    (sameLen : begun.len = print.len)
    (logged : begun.fetched = reads ++ print.fetched)
    (inside : ∀ offset ∈ reads, offset ≤ fmt.length) :
    Printed fmt print [] begun := by
  constructor
  case written =>
    rw [sameWritten, List.append_nil]
  case len =>
    rw [sameLen, List.length_nil, Nat.add_zero]
  case inside =>
    intro offset fetched
    rw [logged, List.mem_append] at fetched
    rcases fetched with isRead | earlier
    · exact Or.inr (inside offset isRead)
    · exact Or.inl earlier

/-- The loop ends with the output written, or its counter overflows. -/
def Finishes
    (fmt : CString)
    (fuel : Nat)
    (print : Printing)
    (out : List Byte) :
    Prop :=
  (∃ final,
    altPrintfLoop fmt.bytes fuel print = some final ∧
      Printed fmt print out final) ∨
  intMax < print.len + out.length ∧
    altPrintfLoop fmt.bytes fuel print = none

/-- A turn that writes a piece, and then the rest of the loop. -/
theorem Finishes.of_turn
    {fuel : Nat}
    (inText : print.fmt < fmt.length)
    (turn :
      altPrintfTurn fmt.bytes (print.fetch print.fmt) = begun.emit piece)
    (started : Printed fmt print [] begun)
    (later :
      ∀ next, begun.emit piece = some next → Finishes fmt fuel next rest) :
    Finishes fmt (fuel + 1) print (piece ++ rest) := by
  have loop :
      altPrintfLoop fmt.bytes (fuel + 1) print =
        (begun.emit piece).bind (altPrintfLoop fmt.bytes fuel) := by
    rw [altPrintfLoop]
    simp only [if_pos (fmt.bytes_ne_zero inText), turn]
  have len := started.len
  rw [List.length_nil, Nat.add_zero] at len
  rw [Finishes, loop, List.length_append]
  cases emitted : begun.emit piece with
  | none =>
      have overflow := emit_eq_none_iff.mp emitted
      rw [len] at overflow
      exact Or.inr ⟨by omega, rfl⟩
  | some next =>
      have upToNext := started.trans (printed_of_emit emitted)
      rcases later next emitted with
        ⟨final, returned, printed⟩ | ⟨overflow, failed⟩
      · exact Or.inl ⟨final, returned, upToNext.trans printed⟩
      · rw [upToNext.len] at overflow
        exact Or.inr ⟨by simpa [Nat.add_assoc] using overflow, failed⟩

section Pieces

variable
  {fuel : Nat}
  {char : Byte}
  {text out : List Byte}

/-- A character is copied. -/
theorem Finishes.literal
    (ahead : fmt.text.drop print.fmt = char :: text)
    (notPercent : char ≠ ascii '%')
    (later :
      ∀ next, next.fmt = print.fmt + 1 → next.args = print.args →
        Finishes fmt fuel next out) :
    Finishes fmt (fuel + 1) print (char :: out) := by
  obtain ⟨inText, -, -⟩ := CString.scan_cons ahead
  have turn :=
    @altPrintfTurn_literal fmt (print.fetch print.fmt) char text ahead
      notPercent
  have reads :
      ∀ offset ∈ [print.fmt, print.fmt, print.fmt], offset ≤ fmt.length := by
    simpa using Nat.le_of_lt inText
  apply Finishes.of_turn inText turn (printed_of_reads rfl rfl rfl reads)
  intro next emitted
  obtain ⟨moved, sameArgs, -⟩ := emit_frame emitted
  exact later next moved sameArgs

/-- A conversion puts out its replacement. -/
theorem Finishes.conversion
    (ahead : fmt.text.drop print.fmt = ascii '%' :: char :: text)
    {args : List VaArg}
    (replaced : replacement char print.args = some (piece, args))
    (later :
      ∀ next, next.fmt = print.fmt + 2 → next.args = args →
        Finishes fmt fuel next out) :
    Finishes fmt (fuel + 1) print (piece ++ out) := by
  obtain ⟨inText, -, behind⟩ := CString.scan_cons ahead
  obtain ⟨nextInText, isChar, -⟩ := CString.scan_cons behind
  have turn :=
    @altPrintfTurn_percent fmt (print.fetch print.fmt) (char :: text) ahead
  have converted :
      replacement (fmt.bytes (print.fmt + 1)) print.args =
        some (piece, args) := by
    rw [isChar, replaced]
  rw [altConvert_eq] at turn
  simp only [Printing.fetch, converted, Option.bind_some] at turn
  have reads :
      ∀ offset ∈ [print.fmt + 1, print.fmt, print.fmt],
        offset ≤ fmt.length := by
    simpa using ⟨Nat.le_of_lt nextInText, Nat.le_of_lt inText⟩
  apply Finishes.of_turn inText turn (printed_of_reads rfl rfl rfl reads)
  intro next emitted
  obtain ⟨moved, sameArgs, -⟩ := emit_frame emitted
  exact later next moved sameArgs

end Pieces

/-- A format with no lone `%` at the end is printed inside its text. -/
theorem altPrintfLoop_finishes
    {fuel : Nat}
    {text out : List Byte}
    (enough : text.length < fuel)
    (ahead : fmt.text.drop print.fmt = text)
    (inRange : print.fmt ≤ fmt.length)
    (matching : expansion text print.args = some out)
    (notLone : ¬ EndsLone text) :
    Finishes fmt fuel print out := by
  induction fuel generalizing print text out with
  | zero =>
      exact absurd enough (Nat.not_lt_zero _)
  | succ fuel inductionHypothesis =>
      cases text with
      | nil =>
          have atEnd := fmt.scan_nil ahead inRange
          cases matching
          have reads : ∀ offset ∈ [print.fmt], offset ≤ fmt.length := by
            simpa using inRange
          refine Or.inl ⟨print.fetch print.fmt, ?_,
            printed_of_reads rfl rfl rfl reads⟩
          rw [altPrintfLoop]
          simp [atEnd]
      | cons char text =>
          obtain ⟨inText, -, behind⟩ := CString.scan_cons ahead
          rw [List.length_cons] at enough
          by_cases isPercent : char = ascii '%'
          · subst isPercent
            cases text with
            | nil =>
                exact absurd rfl notLone
            | cons char text =>
                obtain ⟨nextInText, -, behind⟩ := CString.scan_cons behind
                rw [expansion, if_pos rfl] at matching
                obtain ⟨⟨piece, args⟩, replaced, later⟩ :=
                  Option.bind_eq_some_iff.mp matching
                obtain ⟨out, expands, rfl⟩ := Option.map_eq_some_iff.mp later
                rw [EndsLone, if_pos rfl] at notLone
                rw [List.length_cons] at enough
                apply Finishes.conversion ahead replaced
                intro next moved taken
                apply inductionHypothesis (by omega) _ (by omega) _ notLone
                · rw [moved, behind]
                · rw [taken, expands]
          · rw [expansion_literal isPercent] at matching
            obtain ⟨out, expands, rfl⟩ := Option.map_eq_some_iff.mp matching
            rw [endsLone_literal isPercent] at notLone
            apply Finishes.literal ahead isPercent
            intro next moved sameArgs
            apply inductionHypothesis (by omega) _ (by omega) _ notLone
            · rw [moved, behind]
            · rw [sameArgs, expands]

end Runs

section Overrun

variable
  {bytes : Nat → Byte}
  {fmt : CString}
  {print next final : Printing}
  {fuel : Nat}

/-- A conversion leaves the pointer and the log to its caller. -/
theorem altConvert_frame
    {c : Byte}
    (converted : altConvert c print = some next) :
    next.fmt = print.fmt ∧ next.fetched = print.fetched := by
  rw [altConvert_eq] at converted
  obtain ⟨⟨piece, args⟩, -, emitted⟩ := Option.bind_eq_some_iff.mp converted
  obtain ⟨sameFmt, -, -, -, sameFetched⟩ := emit_frame emitted
  exact ⟨sameFmt, sameFetched⟩

/-- A turn never takes a read back. -/
theorem altPrintfTurn_fetched
    (turned : altPrintfTurn bytes print = some next)
    {offset : Nat}
    (member : offset ∈ print.fetched) :
    offset ∈ next.fetched := by
  unfold altPrintfTurn at turned
  dsimp only at turned
  split at turned
  · rw [altPutchar_addLen] at turned
    obtain ⟨-, -, -, -, fetched⟩ := emit_frame turned
    rw [fetched]
    exact List.mem_cons_of_mem _ (List.mem_cons_of_mem _ member)
  · rw [(altConvert_frame turned).2]
    exact List.mem_cons_of_mem _ (List.mem_cons_of_mem _ member)

/-- The loop reads where it starts, and it keeps its log. -/
theorem altPrintfLoop_fetched
    (returned : altPrintfLoop bytes fuel print = some final)
    {offset : Nat}
    (member : offset = print.fmt ∨ offset ∈ print.fetched) :
    offset ∈ final.fetched := by
  induction fuel generalizing print with
  | zero =>
      cases returned
  | succ fuel inductionHypothesis =>
      have logged : offset ∈ (print.fetch print.fmt).fetched :=
        List.mem_cons.mpr member
      rw [altPrintfLoop] at returned
      split at returned
      · obtain ⟨next, turned, later⟩ := Option.bind_eq_some_iff.mp returned
        exact inductionHypothesis later
          (Or.inr (altPrintfTurn_fetched turned logged))
      · cases returned
        exact logged

/-- More fuel does not change a result. -/
theorem altPrintfLoop_more
    (returned : altPrintfLoop bytes fuel print = some final)
    (more : Nat) :
    altPrintfLoop bytes (fuel + more) print = some final := by
  induction fuel generalizing print with
  | zero =>
      cases returned
  | succ fuel inductionHypothesis =>
      rw [Nat.add_right_comm, altPrintfLoop]
      rw [altPrintfLoop] at returned
      split
      · next running =>
        rw [if_pos running] at returned
        obtain ⟨next, turned, later⟩ := Option.bind_eq_some_iff.mp returned
        rw [turned, Option.bind_some]
        exact inductionHypothesis later
      · next finished =>
        rw [if_neg finished] at returned
        exact returned

/-- In front of a character the loop takes a turn. -/
theorem altPrintfLoop_turn
    (inText : print.fmt < fmt.length)
    (returned : altPrintfLoop fmt.bytes (fuel + 1) print = some final) :
    ∃ next,
      altPrintfTurn fmt.bytes (print.fetch print.fmt) = some next ∧
        altPrintfLoop fmt.bytes fuel next = some final := by
  rw [altPrintfLoop] at returned
  simp only [if_pos (fmt.bytes_ne_zero inText)] at returned
  exact Option.bind_eq_some_iff.mp returned

/-- After a lone `%` the byte behind the NUL is read. -/
theorem altPrintfLoop_overruns
    {text : List Byte}
    (ahead : fmt.text.drop print.fmt = text)
    (lone : EndsLone text)
    (returned : altPrintfLoop fmt.bytes fuel print = some final) :
    fmt.length + 1 ∈ final.fetched := by
  induction fuel generalizing print text with
  | zero =>
      cases returned
  | succ fuel inductionHypothesis =>
      cases text with
      | nil =>
          exact lone.elim
      | cons char text =>
          obtain ⟨inText, -, behind⟩ := CString.scan_cons ahead
          obtain ⟨next, turned, later⟩ := altPrintfLoop_turn inText returned
          by_cases isPercent : char = ascii '%'
          · subst isPercent
            have turn :=
              @altPrintfTurn_percent fmt (print.fetch print.fmt) text ahead
            rw [turned] at turn
            have moved : next.fmt = print.fmt + 2 :=
              (altConvert_frame turn.symm).1
            cases text with
            | nil =>
                have atEnd := fmt.scan_nil behind inText
                apply altPrintfLoop_fetched later
                exact Or.inl (by omega)
            | cons char text =>
                obtain ⟨-, -, behind⟩ := CString.scan_cons behind
                rw [EndsLone, if_pos rfl] at lone
                exact inductionHypothesis (by rw [moved, behind]) lone later
          · have turn :=
              @altPrintfTurn_literal fmt (print.fetch print.fmt) char text
                ahead isPercent
            rw [turned] at turn
            have moved : next.fmt = print.fmt + 1 :=
              (emit_frame turn.symm).1
            rw [endsLone_literal isPercent] at lone
            exact inductionHypothesis (by rw [moved, behind]) lone later

end Overrun

/-- `alt_printf` returns, and has read nothing behind the NUL. -/
def StaysInside (fmt : CString) (args : List VaArg) : Prop :=
  ∃ fuel final,
    altPrintf fmt.bytes args fuel = some final ∧
      ∀ offset ∈ final.fetched, offset ≤ fmt.length

section Formats

variable
  (fmt : CString)
  (args : List VaArg)
  {out : List Byte}
  (matching : expansion fmt.text args = some out)
include matching

/-- What a format with no lone `%` does, or fails to do. -/
theorem altPrintf_finishes
    (notLone : ¬ EndsLone fmt.text)
    (fuel : Nat) :
    (∃ final,
      altPrintf fmt.bytes args (fuel + fmt.length + 1) = some final ∧
        final.written = out ∧ final.len = out.length ∧
        ∀ offset ∈ final.fetched, offset ≤ fmt.length) ∨
    intMax < out.length ∧
      altPrintf fmt.bytes args (fuel + fmt.length + 1) = none := by
  have enough : fmt.text.length < fuel + fmt.length + 1 := by
    rw [CString.length_text]
    omega
  rcases @altPrintfLoop_finishes fmt (Printing.start args) _ fmt.text out
      enough List.drop_zero (Nat.zero_le _) matching notLone with
    ⟨final, returned, printed⟩ | ⟨overflow, failed⟩
  · refine Or.inl ⟨final, returned, printed.written, ?_, ?_⟩
    · exact printed.len.trans (Nat.zero_add _)
    · intro offset member
      exact (printed.inside offset member).resolve_left (List.not_mem_nil)
  · exact Or.inr ⟨by simpa [Printing.start] using overflow, failed⟩

/--
`alt_printf` stays inside its format if and only if the `%` at the end of the
format go in pairs and its counter does not overflow.
-/
theorem altPrintf_staysInside_iff :
    StaysInside fmt args ↔
      Even (trailingPercents fmt.text) ∧ out.length ≤ intMax := by
  constructor
  · rintro ⟨fuel, final, returned, inside⟩
    have notLone : ¬ EndsLone fmt.text := by
      intro lone
      have overrun :=
        inside _
          (@altPrintfLoop_overruns fmt (Printing.start args) final fuel
            fmt.text List.drop_zero lone returned)
      omega
    refine ⟨not_not.mp fun odd => notLone ((endsLone_iff _).mpr odd), ?_⟩
    by_contra overflows
    have more := altPrintfLoop_more returned (fmt.length + 1)
    rcases altPrintf_finishes fmt args matching notLone fuel with
      ⟨printed, -, -, len, -⟩ | ⟨-, failed⟩
    · exact overflows (len ▸ printed.isInt)
    · exact Option.some_ne_none _ (more.symm.trans failed)
  · rintro ⟨even, fits⟩
    have notLone : ¬ EndsLone fmt.text :=
      fun lone => (endsLone_iff _).mp lone even
    rcases altPrintf_finishes fmt args matching notLone 0 with
      ⟨final, returned, -, -, inside⟩ | ⟨overflow, -⟩
    · exact ⟨_, final, returned, inside⟩
    · exact absurd fits (Nat.not_le_of_lt overflow)

end Formats

/-- `"%c=%X%%"`. -/
def sampleText : List Byte :=
  ['%', 'c', '=', '%', 'X', '%', '%'].map ascii

/-- The text that the sample stands for. -/
theorem sampleText_expansion :
    expansion (CString.ofText sampleText).text
        [.int 0x61, .longLong 0x1f0] =
      some (['a', '=', '1', 'f', '0', '%'].map ascii) := by
  rw [CString.text_ofText (by decide)]
  decide +kernel

/-- The sample is printed within its bounds. -/
theorem sampleText_staysInside :
    StaysInside (CString.ofText sampleText) [.int 0x61, .longLong 0x1f0] := by
  apply (altPrintf_staysInside_iff _ _ sampleText_expansion).mpr
  rw [CString.text_ofText (by decide)]
  decide +kernel

/-- A format that is nothing but a `%` is left at its end. -/
theorem lonePercent_not_staysInside :
    ¬ ∀ fmt args out,
        expansion fmt.text args = some out → StaysInside fmt args := by
  intro always
  have isText :
      (CString.ofText [ascii '%']).text = [ascii '%'] :=
    CString.text_ofText (by decide)
  obtain ⟨fuel, final, returned, inside⟩ :=
    always (CString.ofText [ascii '%']) [] [] (by rw [isText]; rfl)
  have overrun :=
    inside _
      (@altPrintfLoop_overruns _ (Printing.start []) final fuel [ascii '%']
        isText rfl returned)
  omega

/--
A well-formed format comes out with every conversion replaced, in order, and
all characters counted; the hexadecimal conversions give the numeral.
-/
theorem altPrintf_faithful
    (fmt : CString)
    (args : List VaArg)
    {out : List Byte}
    (matching : expansion fmt.text args = some out)
    (wellFormed : WellFormed fmt.text)
    (short : out.length < 2 ^ 31) :
    (∃ fuel final,
      altPrintf fmt.bytes args fuel = some final ∧
        final.written = out ∧ final.len = final.written.length) ∧
    (∀ (value : BitVec 64) (behind : List VaArg), ∃ text,
      replacement (ascii 'X') (.longLong value :: behind) =
          some (text, behind) ∧
        IsNumeral value.toNat text) ∧
    ∀ (value : BitVec 32) (behind : List VaArg), ∃ text,
      replacement (ascii 'x') (.int value :: behind) = some (text, behind) ∧
        IsNumeral value.toNat text := by
  refine ⟨?_, fun value behind => ?_, fun value behind => ?_⟩
  · rcases altPrintf_finishes fmt args matching wellFormed.not_endsLone 0 with
      ⟨final, returned, written, len, -⟩ | ⟨overflow, -⟩
    · exact ⟨_, final, returned, written, written ▸ len⟩
    · rw [intMax] at overflow
      omega
  · exact ⟨numeral value.toNat, rfl, numeral_isNumeral value.toNat⟩
  · exact ⟨numeral value.toNat, rfl, numeral_isNumeral value.toNat⟩

/-- The sample is printed as it should be. -/
theorem sampleText_faithful :
    ∃ fuel final,
      altPrintf (CString.ofText sampleText).bytes
          [.int 0x61, .longLong 0x1f0] fuel =
        some final ∧
        final.written = ['a', '=', '1', 'f', '0', '%'].map ascii ∧
        final.len = final.written.length :=
  (altPrintf_faithful _ _ sampleText_expansion
    (by
      rw [CString.text_ofText (by decide)]
      simp [sampleText, WellFormed, conversions, ascii])
    (by decide)).1

end S3kMonitor
