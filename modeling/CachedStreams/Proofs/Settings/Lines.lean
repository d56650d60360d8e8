import CachedStreams.Proofs.Settings.SizeText
import CachedStreams.Toml.Document
import Mathlib.Data.List.GetD
import Mathlib.Tactic.FinCases

/-!
# Reading lines of a document

What the scanners make of plain lines: of a header with one name, and of a name with a whole number
or with a quoted text. A document of such lines is read line by line.
-/

set_option autoImplicit false

namespace CachedStreams.Toml

open Size (digits isDigit_of_mem_digits takeWhile_of_all dropWhile_of_all)

/-! ### Names -/

/-- A name that needs no quotes. -/
structure IsBareName (name : List Char) : Prop where
  nonempty : name ≠ []
  bare : ∀ c ∈ name, isBareKeyChar c = true

/-- A line that does not begin with a blank has none to skip. -/
theorem skipBlanks_cons {c : Char} (rest : List Char) (h : (c == ' ' || c == '\t') = false) :
    skipBlanks (c :: rest) = c :: rest :=
  List.dropWhile_cons_of_neg (by simp [h])

section Names

variable {name : List Char} {c : Char}

/-- A bare name has a first character, and that may stand in a key. -/
theorem IsBareName.exists_cons (h : IsBareName name) :
    ∃ first rest, name = first :: rest ∧ isBareKeyChar first = true := by
  obtain _ | ⟨first, rest⟩ := name
  · exact absurd rfl h.nonempty
  · exact ⟨first, rest, rfl, h.bare first List.mem_cons_self⟩

/-- A bare name is read up to the first character that cannot stand in a key. -/
theorem scanSimpleKey_bare (h : IsBareName name) (stop : isBareKeyChar c = false)
    (rest : List Char) :
    scanSimpleKey (name ++ c :: rest) = some (String.ofList name, c :: rest) := by
  obtain ⟨first, tail, starts, bare⟩ := h.exists_cons
  have taken := takeWhile_of_all rest h.bare stop
  have nonempty : name.isEmpty = false := by simp [h.nonempty]
  unfold scanSimpleKey
  split
  · rename_i heq
    rw [starts, List.cons_append, List.cons.injEq] at heq
    exact absurd (heq.1 ▸ bare) (by decide)
  · rename_i heq
    rw [starts, List.cons_append, List.cons.injEq] at heq
    exact absurd (heq.1 ▸ bare) (by decide)
  · simp only [taken, nonempty, Bool.false_eq_true, if_false, List.drop_left]

/-- A bare name has no blanks before it. -/
theorem skipBlanks_bare (h : IsBareName name) (rest : List Char) :
    skipBlanks (name ++ rest) = name ++ rest := by
  obtain ⟨first, tail, rfl, bare⟩ := h.exists_cons
  refine skipBlanks_cons _ ?_
  by_contra blank
  simp only [Bool.not_eq_false, Bool.or_eq_true, beq_iff_eq] at blank
  rcases blank with rfl | rfl <;> exact absurd bare (by decide)

/-- A bare name that no dot follows is read as a key of one part. -/
theorem scanKey_bare (h : IsBareName name) (stop : isBareKeyChar c = false) (rest : List Char)
    (noDot : ∀ more, skipBlanks (c :: rest) ≠ '.' :: more) :
    scanKey (name ++ c :: rest) = some ([String.ofList name], skipBlanks (c :: rest)) := by
  have parts : ∀ fuel, scanKeyParts (fuel + 1) (name ++ c :: rest) =
      some ([String.ofList name], skipBlanks (c :: rest)) := by
    intro fuel
    simp only [scanKeyParts, skipBlanks_bare h, scanSimpleKey_bare h stop]
  unfold scanKey
  simp [parts, nestingLimit]

end Names

/-! ### Whole numbers -/

/-- There are ten digits. -/
theorem isDigit_cases {c : Char} (h : c.isDigit = true) :
    c ∈ ['0', '1', '2', '3', '4', '5', '6', '7', '8', '9'] := by
  have low : 48 ≤ c.toNat := by
    simp only [Char.isDigit, Bool.and_eq_true, decide_eq_true_eq] at h
    exact h.1
  have high : c.toNat ≤ 57 := by
    simp only [Char.isDigit, Bool.and_eq_true, decide_eq_true_eq] at h
    exact h.2
  have : c = Char.ofNat c.toNat := (Char.ofNat_toNat c).symm
  rw [this]
  generalize c.toNat = n at low high
  interval_cases n <;> decide

/-- A number is what its decimal digits spell. -/
theorem ofBase_digits (n : ℕ) : ofBase 10 (digits n) = n := by
  have same : ∀ (cs : List Char) (init : ℕ), (∀ c ∈ cs, c.isDigit = true) →
      cs.foldl (fun n c => n * 10 + (hexValue? c).getD 0) init = Nat.ofDigitChars 10 cs init := by
    intro cs
    induction cs with
    | nil => simp
    | cons c cs ih =>
        intro init all
        have digit := all c List.mem_cons_self
        rw [List.foldl_cons, Nat.ofDigitChars_cons,
          ih _ fun d h => all d (List.mem_cons_of_mem c h)]
        simp [hexValue?, digit, Nat.mul_comm]
  rw [ofBase, same _ 0 fun c => isDigit_of_mem_digits, Nat.ofDigitChars_ten_toDigits]

/-- Digits are read up to what is not one. -/
theorem scanDigits_of_all {ds : List Char} (rest : List Char) (nonempty : ds ≠ [])
    (all : ∀ c ∈ ds, c.isDigit = true) (fuel : ℕ) (enough : ds.length < fuel) :
    scanDigits Char.isDigit fuel (ds ++ '\n' :: rest) = some (ds, '\n' :: rest) := by
  induction ds generalizing fuel with
  | nil => exact absurd rfl nonempty
  | cons d ds ih =>
      obtain _ | fuel := fuel
      · exact absurd enough (Nat.not_lt_zero _)
      have digit : d.isDigit = true := all d List.mem_cons_self
      rcases ds with _ | ⟨e, ds⟩
      · obtain _ | fuel := fuel
        · simp [scanDigits, scanDigits.startsDigit, digit]
        · simp [scanDigits, scanDigits.startsDigit, digit]
      · have next : e.isDigit = true := all e (by simp)
        have ne : e ≠ '_' := fun h => absurd (h ▸ next) (by decide)
        have := ih (by simp) (fun c h => all c (List.mem_cons_of_mem d h)) fuel
          (by simpa using enough)
        rw [List.cons_append] at this
        simp only [List.cons_append, scanDigits, digit, Bool.not_true, Bool.false_eq_true, if_false]
        split
        · rename_i heq
          exact absurd (List.cons.inj heq).1 ne
        · rw [this]

/-- The digits of a number above zero do not start with a zero. -/
theorem digits_of_pos {n : ℕ} (pos : 0 < n) :
    ∃ first rest, digits n = first :: rest ∧ first ≠ '0' := by
  induction n using Nat.strongRecOn with
  | ind n ih =>
      by_cases small : n < 10
      · refine ⟨n.digitChar, [], Nat.toDigits_of_lt_base small, ?_⟩
        simp [Nat.digitChar_eq_zero, pos.ne']
      · obtain ⟨first, rest, starts, nonzero⟩ := ih (n / 10) (by omega) (by omega)
        refine ⟨first, rest ++ [(n % 10).digitChar], ?_, nonzero⟩
        rw [digits, Nat.toDigits_of_base_le (by decide) (by omega)]
        change digits (n / 10) ++ [(n % 10).digitChar] = _
        rw [starts, List.cons_append]

/-- The digits of a number are read to the end of the line. -/
theorem scanWhole_digits (n : ℕ) (rest : List Char) :
    scanWhole (digits n ++ '\n' :: rest) = some (digits n, '\n' :: rest) := by
  have scanned : scanDecimalDigits (digits n ++ '\n' :: rest) = some (digits n, '\n' :: rest) :=
    scanDigits_of_all rest Nat.toDigits_ne_nil (fun _ => isDigit_of_mem_digits) _ (by
      simp only [List.length_append, List.length_cons]
      exact Nat.lt_add_right _ (Nat.lt_add_of_pos_right (Nat.succ_pos _)))
  rcases Nat.eq_zero_or_pos n with rfl | pos
  · rfl
  · obtain ⟨first, tail, starts, nonzero⟩ := digits_of_pos pos
    rw [← scanned]
    unfold scanWhole
    split
    · rename_i heq
      rw [starts, List.cons_append, List.cons.injEq] at heq
      exact absurd heq.1 nonzero
    · rfl

/-- Nothing but digits, a line end and more. -/
def IsNumeric (cs : List Char) : Prop :=
  ∃ ds rest, cs = ds ++ '\n' :: rest ∧ ∀ c ∈ ds, c.isDigit = true

/-- A number at the end of a line has digits only. -/
theorem isNumeric_digits (n : ℕ) (rest : List Char) : IsNumeric (digits n ++ '\n' :: rest) :=
  ⟨digits n, rest, rfl, fun _ => isDigit_of_mem_digits⟩

/-- Where a number stands, there is no mark of a date or a time. -/
theorem scanMark_isNumeric {mark : Char} {cs : List Char} (h : IsNumeric cs)
    (digit : mark.isDigit = false) (lineEnd : mark ≠ '\n') : scanMark mark cs = none := by
  obtain ⟨ds, rest, rfl, all⟩ := h
  obtain _ | ⟨d, ds⟩ := ds
  · simp [scanMark, lineEnd.symm]
  · have : d ≠ mark := by
      rintro rfl
      exact absurd (all d List.mem_cons_self) (by simp [digit])
    simp [scanMark, this]

/-- What is left of a number after a field of a date is still a number. -/
theorem scanField_isNumeric {count low high n : ℕ} {cs rest : List Char} (h : IsNumeric cs)
    (scanned : scanField count low high cs = some (n, rest)) : IsNumeric rest := by
  obtain ⟨ds, more, rfl, all⟩ := h
  simp only [scanField] at scanned
  split at scanned
  case isFalse => cases scanned
  case isTrue field =>
    obtain ⟨length, digit, -, -⟩ := field
    have within : count ≤ ds.length := by
      -- otherwise the line end were among the digits of the field
      by_contra beyond
      have : '\n' ∈ (ds ++ '\n' :: more).take count := by
        rw [List.take_append, List.mem_append]
        obtain ⟨k, hk⟩ : ∃ k, count - ds.length = k + 1 := ⟨count - ds.length - 1, by omega⟩
        right
        rw [hk]
        exact List.mem_cons_self
      exact absurd (List.all_eq_true.mp digit _ this) (by decide)
    cases scanned
    refine ⟨ds.drop count, more, List.drop_append_of_le_length within, fun c hc => ?_⟩
    exact all c (List.mem_of_mem_drop hc)

/-- A number is not read as a date. -/
theorem scanDatetime_isNumeric {cs : List Char} (h : IsNumeric cs) : scanDatetime cs = none := by
  have noDate : scanDate cs = none := by
    unfold scanDate
    rcases year : scanField 4 0 9999 cs with _ | ⟨n, rest⟩
    · rfl
    · have unmarked : scanMark '-' rest = none :=
        scanMark_isNumeric (scanField_isNumeric h year) (by decide) (by decide)
      simp [unmarked]
  have noTime : scanTime cs = none := by
    unfold scanTime
    rcases hour : scanField 2 0 23 cs with _ | ⟨n, rest⟩
    · rfl
    · have unmarked : scanMark ':' rest = none :=
        scanMark_isNumeric (scanField_isNumeric h hour) (by decide) (by decide)
      simp [unmarked]
  unfold scanDatetime
  rw [noDate, noTime]
  rfl

/-- The digits of a number have no sign. -/
theorem scanSign_digits (n : ℕ) (rest : List Char) :
    scanSign (digits n ++ rest) = (false, digits n ++ rest) := by
  obtain ⟨first, tail, starts, digit⟩ := Size.digits_eq_cons n
  rw [starts]
  have cases := isDigit_cases digit
  fin_cases cases <;> rfl

/-- A whole number is not read as a fraction. -/
theorem scanFloat_digits (n : ℕ) (rest : List Char) :
    scanFloat (digits n ++ '\n' :: rest) = none := by
  unfold scanFloat
  rw [scanSign_digits]
  simp [scanWhole_digits, scanExponentMark]

/-- A number is not read as infinite or undefined. -/
theorem scanSpecial_digits (n : ℕ) (rest : List Char) :
    scanSpecial (digits n ++ rest) = none := by
  unfold scanSpecial
  rw [scanSign_digits]
  obtain ⟨first, tail, starts, digit⟩ := Size.digits_eq_cons n
  rw [starts]
  have cases := isDigit_cases digit
  fin_cases cases <;> rfl

/-- The digits of a number that fits are read as that number. -/
theorem scanInteger_digits {n : ℕ} (fits : n ≤ maxInteger) (rest : List Char) :
    scanInteger (digits n ++ '\n' :: rest) = some (.integer n, '\n' :: rest) := by
  rcases Nat.eq_zero_or_pos n with rfl | pos
  · rfl
  · obtain ⟨first, tail, starts, nonzero⟩ := digits_of_pos pos
    have decimal : ∀ more, digits n ++ '\n' :: rest ≠ '0' :: more := by
      intro more same
      rw [starts, List.cons_append, List.cons.injEq] at same
      exact nonzero same.1
    unfold scanInteger
    split
    · exact absurd (by assumption) (decimal _)
    · exact absurd (by assumption) (decimal _)
    · exact absurd (by assumption) (decimal _)
    · rw [scanSign_digits]
      simp [scanWhole_digits, ofBase_digits, integerOf, fits]

/-- The digits of a number at the end of a line are a whole number. -/
theorem scanScalar_digits {n : ℕ} (fits : n ≤ maxInteger) (rest : List Char) :
    scanScalar (digits n ++ '\n' :: rest) = some (.integer n, '\n' :: rest) := by
  have number : ((scanDatetime (digits n ++ '\n' :: rest)).or
      ((scanFloat (digits n ++ '\n' :: rest)).or ((scanSpecial (digits n ++ '\n' :: rest)).or
        (scanInteger (digits n ++ '\n' :: rest))))) = some (.integer n, '\n' :: rest) := by
    rw [scanDatetime_isNumeric (isNumeric_digits n rest), scanFloat_digits, scanSpecial_digits,
      scanInteger_digits fits]
    rfl
  rw [← number]
  obtain ⟨first, tail, starts, digit⟩ := Size.digits_eq_cons n
  rw [starts]
  have cases := isDigit_cases digit
  fin_cases cases <;> rfl

/-! ### Quoted texts -/

/-- A text that stands between double quotes as it is. -/
structure IsPlainText (text : List Char) : Prop where
  nonempty : text ≠ []
  plain : ∀ c ∈ text, isPlain c = true ∧ c ≠ '"' ∧ c ≠ '\\'

/-- A plain text is read up to the quote that ends it. -/
theorem scanBasic_plain {cs : List Char} (rest : List Char)
    (plain : ∀ c ∈ cs, isPlain c = true ∧ c ≠ '"' ∧ c ≠ '\\') (text : List Char) (fuel : ℕ)
    (enough : cs.length < fuel) :
    scanBasic fuel text (cs ++ '"' :: rest) = some (text.reverse ++ cs, rest) := by
  induction cs generalizing fuel text with
  | nil =>
      obtain _ | fuel := fuel
      · exact absurd enough (Nat.not_lt_zero _)
      · simp [scanBasic]
  | cons c cs ih =>
      obtain _ | fuel := fuel
      · exact absurd enough (Nat.not_lt_zero _)
      obtain ⟨shown, notQuote, notSlash⟩ := plain c List.mem_cons_self
      have := ih (fun d h => plain d (List.mem_cons_of_mem c h)) (c :: text) fuel
        (by simpa using enough)
      simp [scanBasic, shown, this]

/-- A plain text in quotation marks is read as that text. -/
theorem scanScalar_quoted {text : List Char} (h : IsPlainText text) (rest : List Char) :
    scanScalar ('"' :: text ++ '"' :: rest) = some (.string (String.ofList text), rest) := by
  obtain _ | ⟨first, tail⟩ := text
  · exact absurd rfl h.nonempty
  have scanned := scanBasic_plain rest h.plain [] ((first :: tail ++ '"' :: rest).length + 1)
    (by rw [List.length_append]; exact Nat.lt_succ_of_le (Nat.le_add_right _ _))
  have notQuote : first ≠ '"' := (h.plain first List.mem_cons_self).2.1
  have quoted : scanString ('"' :: (first :: tail ++ '"' :: rest)) =
      some (String.ofList (first :: tail), rest) := by
    unfold scanString
    split
    case h_1 heq => exact absurd (List.cons.inj (List.cons.inj heq).2).1 notQuote
    case h_2 heq =>
      obtain rfl := (List.cons.inj heq).2
      rw [scanned]
      rfl
    all_goals simp_all
  show (scanString _).map _ = _
  rw [List.cons_append, quoted]
  rfl

/-! ### Lines -/

/-- Some characters that are read as a line, whatever follows the end of the line. -/
structure IsLine (cs : List Char) (line : Line) : Prop where
  scan : ∀ rest, scanLine (cs ++ '\n' :: rest) = some (line, '\n' :: rest)
  starts : ∃ first more, cs = first :: more ∧ first ∉ [' ', '\t', '\r', '\n', '#']

/-- The name of a section in brackets is a line. -/
theorem isLine_header {name : List Char} (h : IsBareName name) :
    IsLine ('[' :: name ++ [']']) (.header ⟨false, [String.ofList name]⟩) where
  scan rest := by
    have key := scanKey_bare h (c := ']') (by decide) ('\n' :: rest) (by
      rw [skipBlanks_cons _ (by decide)]
      simp)
    rw [skipBlanks_cons _ (by decide)] at key
    obtain ⟨first, tail, starts, bare⟩ := h.exists_cons
    have header : scanHeader (name ++ ']' :: '\n' :: rest) =
        some (⟨false, [String.ofList name]⟩, '\n' :: rest) := by
      unfold scanHeader
      split
      · rename_i heq
        rw [starts, List.cons_append, List.cons.injEq] at heq
        exact absurd (heq.1 ▸ bare) (by decide)
      · simp [key]
    simp [scanLine, header]
  starts := ⟨'[', name ++ [']'], rfl, by decide⟩

/-- A value without brackets is read as such. -/
theorem scanValue_scalar (levels : ℕ) {c : Char} (rest : List Char) (noArray : c ≠ '[')
    (noTable : c ≠ '\x7b') : scanValue levels (c :: rest) = scanScalar (c :: rest) := by
  obtain _ | levels := levels
  · rw [scanValue]
  · rw [scanValue]
    · rintro _ ⟨rfl, -⟩
      exact noArray rfl
    · rintro _ ⟨rfl, -⟩
      exact noTable rfl

/-- A name with a value that needs no brackets. -/
theorem isLine_pair {name text : List Char} {value : Value} (h : IsBareName name)
    (scalar : ∀ rest, scanScalar (text ++ '\n' :: rest) = some (value, '\n' :: rest))
    (starts : ∃ first more, text = first :: more ∧ first ∉ [' ', '\t', '[', '\x7b']) :
    IsLine (name ++ ' ' :: '=' :: ' ' :: text) (.pair [String.ofList name] value) where
  scan rest := by
    obtain ⟨v, more, rfl, clear⟩ := starts
    obtain ⟨first, tail, rfl, bare⟩ := h.exists_cons
    simp only [List.mem_cons, List.not_mem_nil, or_false, not_or] at clear
    have gap : skipBlanks (' ' :: '=' :: ' ' :: (v :: more ++ '\n' :: rest)) =
        '=' :: ' ' :: (v :: more ++ '\n' :: rest) := by
      simp [skipBlanks]
    have key := scanKey_bare h (c := ' ') (by decide) ('=' :: ' ' :: (v :: more ++ '\n' :: rest))
      (by rw [gap]; simp)
    rw [gap] at key
    have blanks : skipBlanks (' ' :: (v :: more ++ '\n' :: rest)) = v :: more ++ '\n' :: rest := by
      simp [skipBlanks, clear]
    have read : scanValue (nestingLimit - 1) (v :: more ++ '\n' :: rest) =
        some (value, '\n' :: rest) := by
      rw [← scalar rest]
      exact scanValue_scalar _ _ clear.2.2.1 clear.2.2.2
    have pair : scanPair (scanValue (nestingLimit - 1))
        (first :: tail ++ ' ' :: '=' :: ' ' :: (v :: more ++ '\n' :: rest)) =
        some (([String.ofList (first :: tail)], value), '\n' :: rest) := by
      unfold scanPair
      rw [key]
      simp only [blanks, read, Option.map_some]
    have noHeader : first ≠ '[' := fun h => absurd (h ▸ bare) (by decide)
    have shape : first :: tail ++ ' ' :: '=' :: ' ' :: (v :: more) ++ '\n' :: rest =
        first :: tail ++ ' ' :: '=' :: ' ' :: (v :: more ++ '\n' :: rest) := by simp
    rw [shape]
    unfold scanLine
    split
    · exact absurd (List.cons.inj ‹_›).1 noHeader
    · rw [pair]
      rfl
  starts := by
    obtain ⟨first, tail, rfl, bare⟩ := h.exists_cons
    refine ⟨first, _, rfl, fun blank => ?_⟩
    fin_cases blank <;> exact absurd bare (by decide)

/-- Nothing has to be skipped before the end of a line. -/
theorem scanTrailing_lineEnd (rest : List Char) : scanTrailing ('\n' :: rest) = some rest := rfl

/-- An empty text has no lines. -/
theorem scanLines_nil (fuel : ℕ) : scanLines (fuel + 1) [] = some [] := rfl

/-- An empty line is skipped. -/
theorem scanLines_empty (fuel : ℕ) (rest : List Char) :
    scanLines (fuel + 1) ('\n' :: rest) = scanLines fuel rest := rfl

/-- A document is read line by line. -/
theorem scanLines_line {cs : List Char} {line : Line} (h : IsLine cs line) (fuel : ℕ)
    (rest : List Char) :
    scanLines (fuel + 1) (cs ++ '\n' :: rest) = (scanLines fuel rest).map (line :: ·) := by
  obtain ⟨first, more, rfl, clear⟩ := h.starts
  simp only [List.mem_cons, List.not_mem_nil, or_false, not_or] at clear
  have blanks : skipBlanks (first :: more ++ '\n' :: rest) = first :: more ++ '\n' :: rest :=
    skipBlanks_cons _ (by simp [clear])
  rw [scanLines, blanks]
  split
  case h_1 heq => simp at heq
  case h_2 heq => exact absurd (List.cons.inj heq).1 clear.2.2.2.2
  case h_3 heq => exact absurd (List.cons.inj heq).1 clear.2.2.2.1
  case h_4 heq => exact absurd (List.cons.inj heq).1 clear.2.2.1
  case h_5 =>
    rw [h.scan rest]
    simp only [Option.bind_eq_bind, Option.bind_some, scanTrailing_lineEnd]
    cases scanLines fuel rest <;> rfl

end CachedStreams.Toml
