import Mathlib.Data.Nat.Digits.Lemmas
import Mathlib.Data.List.Basic

/-!
# Formatted text

Numerals of a base are printed and scanned as bytes, and a format is a list of directives that
both printing and scanning follow: literal bytes, white space, and decimal integers. Scanning
reads an integer as the C library does: white space in front of it does not count, a sign and,
in base sixteen, a prefix `0x` are part of it, and the field ends at the first byte that is no
digit or at the width of the field. `scanFormat_print` is the round trip: a format whose
integers are each followed by a byte that is no digit scans what it prints.
-/

namespace Scanf

/-- The value of a byte as a digit, in bases up to sixteen. -/
def digitValue (base : Nat) (byte : UInt8) : Option Nat :=
  let value :=
    if 48 ≤ byte ∧ byte ≤ 57 then some (byte.toNat - 48)
    else if 97 ≤ byte ∧ byte ≤ 102 then some (byte.toNat - 87)
    else if 65 ≤ byte ∧ byte ≤ 70 then some (byte.toNat - 55)
    else none
  value.filter (· < base)

/-- White space in the C locale. -/
def isSpace (byte : UInt8) : Bool := byte = 32 || (9 ≤ byte && byte ≤ 13)

/-- The digits at the front of a text, at most `width` of them, and the bytes behind them. -/
def scanDigits (base : Nat) : Nat → List UInt8 → List Nat × List UInt8
  | 0, text => ([], text)
  | _ + 1, [] => ([], [])
  | width + 1, byte :: rest =>
    match digitValue base byte with
    | some digit =>
      let more := scanDigits base width rest
      (digit :: more.1, more.2)
    | none => ([], byte :: rest)

/-- The digits of a field, behind a prefix `0x` that base sixteen allows. The `0` of the prefix
is a digit of the field. -/
def scanMagnitude (base width : Nat) (text : List UInt8) : List Nat × List UInt8 :=
  match text with
  | zero :: mark :: rest =>
    if base = 16 ∧ 2 ≤ width ∧ zero = 48 ∧ (mark = 120 ∨ mark = 88) then
      let digits := scanDigits base (width - 2) rest
      (0 :: digits.1, digits.2)
    else scanDigits base width text
  | _ => scanDigits base width text

/-- An integer field of at most `width` bytes, sign included and white space in front not
counted; no integer is scanned where no digit stands. -/
def scanInteger (base width : Nat) (text : List UInt8) : Option (Int × List UInt8) :=
  let field := text.dropWhile isSpace
  let negative := 0 < width ∧ field.head? = some 45
  let signed := negative ∨ (0 < width ∧ field.head? = some 43)
  let scanned :=
    if signed then scanMagnitude base (width - 1) field.tail else scanMagnitude base width field
  if scanned.1 = [] then none
  else
    let magnitude : Nat := Nat.ofDigits base scanned.1.reverse
    some (if negative then -(magnitude : Int) else magnitude, scanned.2)

/-- The byte that prints a digit below ten. -/
def digitByte (digit : Nat) : UInt8 := UInt8.ofNat (48 + digit)

/-- A natural number in decimal. -/
def decimal (number : Nat) : List UInt8 :=
  if number = 0 then [48] else (Nat.digits 10 number).reverse.map digitByte

/-- An integer in decimal, with a minus sign when it is negative. -/
def printInteger (number : Int) : List UInt8 :=
  if number < 0 then 45 :: decimal number.natAbs else decimal number.natAbs

/-! ## Digits of base sixteen -/

/-- The bytes that are digits. -/
theorem digitValue_range {base value : Nat} {byte : UInt8}
    (digit : digitValue base byte = some value) :
    (48 ≤ byte.toNat ∧ byte.toNat ≤ 57) ∨ (97 ≤ byte.toNat ∧ byte.toNat ≤ 102) ∨
      (65 ≤ byte.toNat ∧ byte.toNat ≤ 70) := by
  simp only [digitValue, UInt8.le_iff_toNat_le, UInt8.reduceToNat] at digit
  split at digit
  · left; assumption
  · split at digit
    · right; left; assumption
    · split at digit
      · right; right; assumption
      · simp at digit

/-- The value of a digit is below the base. -/
theorem digitValue_lt {base value : Nat} {byte : UInt8}
    (digit : digitValue base byte = some value) : value < base := by
  have kept := (Option.filter_eq_some_iff.mp digit).2
  simpa using kept

/-- A digit is no white space, no sign, no mark of base sixteen and no terminator. -/
theorem digitValue_apart {base value : Nat} {byte : UInt8}
    (digit : digitValue base byte = some value) :
    isSpace byte = false ∧ byte ≠ 45 ∧ byte ≠ 43 ∧ byte ≠ 120 ∧ byte ≠ 88 ∧ byte ≠ 0 := by
  have range := digitValue_range digit
  have differs : ∀ other : UInt8, byte.toNat ≠ other.toNat → byte ≠ other :=
    fun other apart same => apart (congrArg UInt8.toNat same)
  refine ⟨?_, differs 45 (show byte.toNat ≠ 45 by omega),
    differs 43 (show byte.toNat ≠ 43 by omega), differs 120 (show byte.toNat ≠ 120 by omega),
    differs 88 (show byte.toNat ≠ 88 by omega), differs 0 (show byte.toNat ≠ 0 by omega)⟩
  have blank : byte ≠ 32 := differs 32 (show byte.toNat ≠ 32 by omega)
  simp only [isSpace, Bool.or_eq_false_iff, decide_eq_false_iff_not, Bool.and_eq_false_iff,
    UInt8.le_iff_toNat_le, UInt8.reduceToNat]
  exact ⟨blank, by omega⟩

/-- Two digits of base sixteen fill a field of two bytes. -/
theorem scanInteger_pair {high low : UInt8} {first second : Nat}
    (high_digit : digitValue 16 high = some first) (low_digit : digitValue 16 low = some second)
    (rest : List UInt8) :
    scanInteger 16 2 (high :: low :: rest) = some (((16 * first + second : Nat) : Int), rest) := by
  obtain ⟨dark, minus, plus, -⟩ := digitValue_apart high_digit
  obtain ⟨-, -, -, mark, capital, -⟩ := digitValue_apart low_digit
  have digits : scanDigits 16 2 (high :: low :: rest) = ([first, second], rest) := by
    simp only [scanDigits, high_digit, low_digit]
  have magnitude : scanMagnitude 16 2 (high :: low :: rest) = ([first, second], rest) := by
    rw [scanMagnitude, if_neg, digits]
    rintro ⟨-, -, -, prefixed⟩
    exact prefixed.elim mark capital
  have value : Nat.ofDigits 16 [second, first] = 16 * first + second := by
    simp [Nat.ofDigits]
    omega
  simp only [scanInteger]
  rw [List.dropWhile_cons_of_neg (by simp [dark])]
  simp only [List.head?_cons, Option.some.injEq, minus, plus, and_false, or_self, if_false,
    magnitude, List.reverse_cons, List.reverse_nil, List.nil_append, List.singleton_append, value,
    reduceCtorEq]

/-- Two digits of base sixteen in front of none are scanned alone, whatever the width. -/
theorem scanInteger_two {high low : UInt8} {first second width : Nat} {rest : List UInt8}
    (high_digit : digitValue 16 high = some first) (low_digit : digitValue 16 low = some second)
    (room : 2 ≤ width) (ends : ∀ byte ∈ rest.head?, digitValue 16 byte = none) :
    scanInteger 16 width (high :: low :: rest) =
      some (((16 * first + second : Nat) : Int), rest) := by
  have stops : ∀ width, scanDigits 16 width rest = ([], rest) := by
    intro width
    cases width with
    | zero => rfl
    | succ width =>
      cases rest with
      | nil => rfl
      | cons byte rest => rw [scanDigits, ends byte rfl]
  have ⟨more, two⟩ : ∃ more, width = more + 2 := ⟨width - 2, by omega⟩
  have field := scanInteger_pair high_digit low_digit rest
  have digits : scanDigits 16 (more + 2) (high :: low :: rest) = ([first, second], rest) := by
    simp only [scanDigits, high_digit, low_digit, stops]
  have apart := digitValue_apart low_digit
  have magnitude : scanMagnitude 16 (more + 2) (high :: low :: rest) =
      scanMagnitude 16 2 (high :: low :: rest) := by
    have unmarked (width : Nat) : ¬ ((16 : Nat) = 16 ∧ 2 ≤ width ∧ high = 48 ∧
        (low = 120 ∨ low = 88)) := by
      rintro ⟨_, _, _, mark⟩
      exact mark.elim apart.2.2.2.1 apart.2.2.2.2.1
    rw [scanMagnitude, scanMagnitude, if_neg (unmarked _), if_neg (unmarked _), digits]
    simp only [scanDigits, high_digit, low_digit]
  have ⟨dark, minus, plus, _⟩ := digitValue_apart high_digit
  have signs : ∀ sign : UInt8, high ≠ sign → (high :: low :: rest).head? ≠ some sign := by
    intro sign differs
    simpa using differs
  have skip : (high :: low :: rest).dropWhile isSpace = high :: low :: rest :=
    List.dropWhile_cons_of_neg (by simp [dark])
  rw [two, ← field]
  simp only [scanInteger, skip, signs 45 minus, signs 43 plus, and_false, or_self, if_false,
    magnitude]

/-- A text that begins with neither white space nor a sign nor a digit is no integer. -/
theorem scanInteger_none {base width : Nat} {byte : UInt8} (text : List UInt8)
    (dark : isSpace byte = false) (minus : byte ≠ 45) (plus : byte ≠ 43)
    (digit : digitValue base byte = none) : scanInteger base width (byte :: text) = none := by
  have digits : ∀ width, (scanDigits base width (byte :: text)).1 = [] := by
    intro width
    cases width with
    | zero => rfl
    | succ width => rw [scanDigits, digit]
  have magnitude : (scanMagnitude base width (byte :: text)).1 = [] := by
    unfold scanMagnitude
    split
    · rename_i same
      obtain ⟨rfl, -⟩ := List.cons.inj same
      rw [if_neg]
      · exact digits width
      · rintro ⟨rfl, -, rfl, -⟩
        exact absurd digit (by decide)
    · exact digits width
  simp only [scanInteger]
  rw [List.dropWhile_cons_of_neg (by simp [dark])]
  simp only [List.head?_cons, Option.some.injEq, minus, plus, and_false, or_self, if_false,
    magnitude, if_true]

/-! ## Terminated text -/

/-- A terminator is not scanned as a digit: the digits of a text end there at the latest. -/
theorem scanDigits_terminated (base width : Nat) (text rest : List UInt8) :
    scanDigits base width (text ++ 0 :: rest) =
      ((scanDigits base width text).1, (scanDigits base width text).2 ++ 0 :: rest) := by
  induction text generalizing width with
  | nil =>
    cases width with
    | zero => rfl
    | succ width => rfl
  | cons byte text ih =>
    cases width with
    | zero => rfl
    | succ width =>
      rw [List.cons_append, scanDigits, scanDigits]
      cases digitValue base byte with
      | none => rfl
      | some digit => simp only [ih]

/-- Nor is it part of a prefix. -/
theorem scanMagnitude_terminated (base width : Nat) (text rest : List UInt8) :
    scanMagnitude base width (text ++ 0 :: rest) =
      ((scanMagnitude base width text).1, (scanMagnitude base width text).2 ++ 0 :: rest) := by
  match text with
  | [] =>
    have unprefixed : scanMagnitude base width (0 :: rest) = scanDigits base width (0 :: rest) := by
      unfold scanMagnitude
      split
      · rename_i same
        obtain ⟨rfl, -⟩ := List.cons.inj same
        exact if_neg fun marked => absurd marked.2.2.1 (by decide)
      · rfl
    rw [List.nil_append, unprefixed]
    exact scanDigits_terminated base width [] rest
  | [zero] =>
    rw [List.singleton_append, scanMagnitude, if_neg fun marked => absurd marked.2.2.2 (by decide)]
    exact scanDigits_terminated base width [zero] rest
  | zero :: mark :: text =>
    rw [List.cons_append, List.cons_append, scanMagnitude, scanMagnitude]
    split
    · rw [scanDigits_terminated]
    · exact scanDigits_terminated base width (zero :: mark :: text) rest

/-- White space in front of a field ends at a terminator. -/
theorem dropWhile_terminated (text rest : List UInt8) :
    (text ++ 0 :: rest).dropWhile isSpace = text.dropWhile isSpace ++ 0 :: rest := by
  induction text with
  | nil => rfl
  | cons byte text ih =>
    rw [List.cons_append, List.dropWhile_cons, List.dropWhile_cons, ih]
    split <;> rfl

/-- A terminator ends a field: what is scanned does not depend on the bytes behind it. -/
theorem scanInteger_terminated (base width : Nat) (text rest : List UInt8) :
    scanInteger base width (text ++ 0 :: rest) =
      (scanInteger base width text).map fun scanned => (scanned.1, scanned.2 ++ 0 :: rest) := by
  unfold scanInteger
  rw [dropWhile_terminated]
  generalize text.dropWhile isSpace = field
  cases field with
  | nil =>
    have unsigned : ∀ sign : UInt8, sign ≠ 0 → ¬ (some 0 = some sign) :=
      fun sign apart same => apart (Option.some.inj same).symm
    have scanned := scanMagnitude_terminated base width [] rest
    rw [List.nil_append] at scanned
    simp only [List.nil_append, List.head?_cons, List.head?_nil, reduceCtorEq, and_false, or_self,
      unsigned 45 (by decide), unsigned 43 (by decide), if_false, scanned]
    split <;> rfl
  | cons first field =>
    have whole := scanMagnitude_terminated base width (first :: field) rest
    rw [List.cons_append] at whole
    simp only [List.cons_append, List.head?_cons, List.tail_cons, scanMagnitude_terminated, whole]
    by_cases signed : (0 < width ∧ some first = some 45) ∨ (0 < width ∧ some first = some 43)
    · simp only [signed, if_true]
      split <;> rfl
    · simp only [signed, if_false]
      split <;> rfl

/-! ## Printed integers -/

/-- The decimal digit bytes are those from `0` on. -/
theorem digitValue_digitByte {digit : Nat} (small : digit < 10) :
    digitValue 10 (digitByte digit) = some digit := by
  interval_cases digit <;> decide

/-- A byte that is white space or a sign is no digit. -/
theorem isSpace_digitByte {digit : Nat} (small : digit < 10) :
    isSpace (digitByte digit) = false ∧ digitByte digit ≠ 45 ∧ digitByte digit ≠ 43 := by
  interval_cases digit <;> decide

/-- The digits of a number, most significant first; zero has the digit zero. -/
def decimalDigits (number : Nat) : List Nat :=
  if number = 0 then [0] else (Nat.digits 10 number).reverse

/-- A number is printed as the bytes of its digits. -/
theorem decimal_eq (number : Nat) : decimal number = (decimalDigits number).map digitByte := by
  unfold decimal decimalDigits
  split <;> rfl

/-- Every digit of a number is below ten. -/
theorem decimalDigits_small {number digit : Nat} (member : digit ∈ decimalDigits number) :
    digit < 10 := by
  unfold decimalDigits at member
  split at member
  · rw [List.mem_singleton.mp member]
    decide
  · exact Nat.digits_lt_base (by decide) (List.mem_reverse.mp member)

/-- A number has at least one digit. -/
theorem decimalDigits_ne_nil (number : Nat) : decimalDigits number ≠ [] := by
  unfold decimalDigits
  split
  · simp
  · rename_i positive
    simpa [Nat.digits_eq_nil_iff_eq_zero] using positive

/-- A number is the value of its digits. -/
theorem ofDigits_decimalDigits (number : Nat) :
    Nat.ofDigits 10 (decimalDigits number).reverse = number := by
  unfold decimalDigits
  split
  · rename_i zero
    rw [zero]
    rfl
  · rw [List.reverse_reverse, Nat.ofDigits_digits]

/-- A text that does not begin with a digit. -/
def Undigited (text : List UInt8) : Prop := ∀ byte ∈ text.head?, digitValue 10 byte = none

/-- Digits are scanned up to the first byte that is no digit. -/
theorem scanDigits_map {digits : List Nat} {rest : List UInt8} {width : Nat}
    (small : ∀ digit ∈ digits, digit < 10) (room : digits.length ≤ width)
    (ends : Undigited rest) :
    scanDigits 10 width (digits.map digitByte ++ rest) = (digits, rest) := by
  induction digits generalizing width with
  | nil =>
    cases width with
    | zero => rfl
    | succ width =>
      cases rest with
      | nil => rfl
      | cons byte rest =>
        rw [List.map_nil, List.nil_append, scanDigits, ends byte rfl]
  | cons digit digits ih =>
    cases width with
    | zero => simp at room
    | succ width =>
      have onward : scanDigits 10 width (digits.map digitByte ++ rest) = (digits, rest) :=
        ih (fun other member => small other (.tail _ member)) (by simpa using room)
      rw [List.map_cons, List.cons_append, scanDigits,
        digitValue_digitByte (small digit List.mem_cons_self), onward]

/-- In base ten there is no prefix. -/
theorem scanMagnitude_ten (width : Nat) (text : List UInt8) :
    scanMagnitude 10 width text = scanDigits 10 width text := by
  unfold scanMagnitude
  split
  · rw [if_neg (fun prefixed => absurd prefixed.1 (by decide))]
  · rfl

/-- A printed integer is scanned back, and the bytes behind it are left. -/
theorem scanInteger_print (number : Int) {rest : List UInt8} {width : Nat}
    (room : (printInteger number).length ≤ width) (ends : Undigited rest) :
    scanInteger 10 width (printInteger number ++ rest) = some (number, rest) := by
  have digits := ofDigits_decimalDigits number.natAbs
  have nonempty := decimalDigits_ne_nil number.natAbs
  unfold printInteger at room ⊢
  split at room
  · rename_i negative
    rw [if_pos negative]
    rw [decimal_eq, List.length_cons, List.length_map] at room
    have scanned : scanDigits 10 (width - 1)
        ((decimalDigits number.natAbs).map digitByte ++ rest) =
          (decimalDigits number.natAbs, rest) :=
      scanDigits_map (fun _ member => decimalDigits_small member) (by omega) ends
    have positive : 0 < width := by omega
    simp only [scanInteger, List.cons_append, decimal_eq, scanMagnitude_ten]
    rw [List.dropWhile_cons_of_neg (by decide)]
    simp only [List.head?_cons, List.tail_cons, positive, true_and, true_or, if_true, scanned,
      if_neg nonempty, digits]
    simp only [Option.some.injEq, Prod.mk.injEq, and_true]
    omega
  · rename_i nonnegative
    rw [if_neg nonnegative]
    rw [decimal_eq, List.length_map] at room
    have scanned : scanDigits 10 width ((decimalDigits number.natAbs).map digitByte ++ rest) =
        (decimalDigits number.natAbs, rest) :=
      scanDigits_map (fun _ member => decimalDigits_small member) room ends
    obtain ⟨first, others, split⟩ := List.exists_cons_of_ne_nil nonempty
    have small : first < 10 := decimalDigits_small (split ▸ List.mem_cons_self)
    obtain ⟨dark, minus, plus⟩ := isSpace_digitByte small
    have head : decimal number.natAbs = digitByte first :: others.map digitByte := by
      rw [decimal_eq, split, List.map_cons]
    rw [← decimal_eq] at scanned
    simp only [scanInteger, scanMagnitude_ten]
    rw [head, List.cons_append, List.dropWhile_cons_of_neg (by simp [dark]), ← List.cons_append,
      ← head]
    have unsigned : ∀ sign : UInt8, digitByte first ≠ sign →
        (decimal number.natAbs ++ rest).head? ≠ some sign := by
      intro sign apart
      rw [head]
      simpa using apart
    simp only [unsigned 45 minus, unsigned 43 plus, and_false, or_self, if_false, scanned,
      if_neg nonempty, digits]
    simp only [Option.some.injEq, Prod.mk.injEq, and_true]
    omega

/-- White space in front of an integer does not count. -/
theorem scanInteger_blanks (base width : Nat) {blanks : List UInt8}
    (every : ∀ byte ∈ blanks, isSpace byte = true) (text : List UInt8) :
    scanInteger base width (blanks ++ text) = scanInteger base width text := by
  have skipped : (blanks ++ text).dropWhile isSpace = text.dropWhile isSpace :=
    List.dropWhile_append_of_pos every
  rw [scanInteger, scanInteger, skipped]

/-! ## Formats -/

/-- A directive of a format. -/
inductive Directive where
  /-- One byte that must stand in the text as it is. -/
  | literal (byte : UInt8)
  /-- White space: any amount of it in a scanned text, this byte in a printed one. -/
  | space (byte : UInt8)
  /-- A decimal integer. -/
  | integer
deriving DecidableEq, Repr

/-- The directives of a format string. -/
def directives : List UInt8 → List Directive
  | 37 :: 100 :: rest => .integer :: directives rest
  | byte :: rest =>
    if isSpace byte then .space byte :: directives rest else .literal byte :: directives rest
  | [] => []

/-- Print integers by a format; an integer that is missing prints nothing. -/
def printFormat : List Directive → List Int → List UInt8
  | [], _ => []
  | .literal byte :: rest, numbers => byte :: printFormat rest numbers
  | .space byte :: rest, numbers => byte :: printFormat rest numbers
  | .integer :: rest, number :: numbers => printInteger number ++ printFormat rest numbers
  | .integer :: rest, [] => printFormat rest []

/-- Scan a text by a format, up to the first directive it does not follow: the integers
converted until then. -/
def scanFormat : List Directive → List UInt8 → List Int
  | [], _ => []
  | .literal byte :: rest, text =>
    match text with
    | found :: more => if found = byte then scanFormat rest more else []
    | [] => []
  | .space _ :: rest, text => scanFormat rest (text.dropWhile isSpace)
  | .integer :: rest, text =>
    match scanInteger 10 text.length text with
    | some (number, more) => number :: scanFormat rest more
    | none => []

/-- The number of integers a format asks for. -/
def arity (format : List Directive) : Nat := format.count .integer

/-- A format that asks for no white space at its front. -/
def Unspaced : List Directive → Prop
  | .literal byte :: _ => isSpace byte = false
  | .space _ :: _ => False
  | _ => True

/-- Every integer of a format is followed by a byte that is no digit, and white space is asked
for at once. -/
def Delimited : List Directive → Prop
  | [] => True
  | .literal _ :: rest => Delimited rest
  | .space byte :: rest => isSpace byte = true ∧ Unspaced rest ∧ Delimited rest
  | .integer :: .literal byte :: rest => digitValue 10 byte = none ∧ Delimited rest
  | .integer :: .space byte :: rest => digitValue 10 byte = none ∧ Delimited (.space byte :: rest)
  | .integer :: _ => False

instance decidableUnspaced : (format : List Directive) → Decidable (Unspaced format)
  | [] => inferInstanceAs (Decidable True)
  | .literal byte :: _ => inferInstanceAs (Decidable (isSpace byte = false))
  | .space _ :: _ => inferInstanceAs (Decidable False)
  | .integer :: _ => inferInstanceAs (Decidable True)

instance decidableDelimited : (format : List Directive) → Decidable (Delimited format)
  | [] => inferInstanceAs (Decidable True)
  | .literal _ :: rest => decidableDelimited rest
  | .space byte :: rest =>
    have := decidableDelimited rest
    inferInstanceAs (Decidable (isSpace byte = true ∧ Unspaced rest ∧ Delimited rest))
  | .integer :: .literal byte :: rest =>
    have := decidableDelimited rest
    inferInstanceAs (Decidable (digitValue 10 byte = none ∧ Delimited rest))
  | .integer :: .space byte :: rest =>
    have := decidableDelimited (.space byte :: rest)
    inferInstanceAs (Decidable (digitValue 10 byte = none ∧ Delimited (.space byte :: rest)))
  | .integer :: .integer :: _ => inferInstanceAs (Decidable False)
  | [.integer] => inferInstanceAs (Decidable False)

variable {format : List Directive} {numbers : List Int}

/-- Text behind an integer, printed by the rest of a delimited format, begins with no digit. -/
theorem delimited_undigited (numbers : List Int) (rest : List UInt8)
    (delimited : Delimited (.integer :: format)) :
    Undigited (printFormat format numbers ++ rest) ∧ Delimited format := by
  match format, delimited with
  | .literal byte :: _, ⟨ends, later⟩ =>
    refine ⟨?_, later⟩
    intro found at_head
    obtain rfl : byte = found := by simpa [printFormat] using at_head
    exact ends
  | .space byte :: _, ⟨ends, later⟩ =>
    refine ⟨?_, later⟩
    intro found at_head
    obtain rfl : byte = found := by simpa [printFormat] using at_head
    exact ends

/-- A printed integer does not begin with white space. -/
theorem dropWhile_printInteger (number : Int) (rest : List UInt8) :
    (printInteger number ++ rest).dropWhile isSpace = printInteger number ++ rest := by
  unfold printInteger
  split
  · rw [List.cons_append, List.dropWhile_cons_of_neg (by decide)]
  · obtain ⟨first, others, split⟩ :=
      List.exists_cons_of_ne_nil (decimalDigits_ne_nil number.natAbs)
    have small : first < 10 := decimalDigits_small (split ▸ List.mem_cons_self)
    rw [decimal_eq, split, List.map_cons, List.cons_append,
      List.dropWhile_cons_of_neg (by simp [isSpace_digitByte small])]

/-- White space in front of a format that asks for none does not matter to what it scans. -/
theorem scanFormat_unspaced (unspaced : Unspaced format) (asked : numbers.length = arity format)
    (rest : List UInt8) :
    scanFormat format ((printFormat format numbers ++ rest).dropWhile isSpace) =
      scanFormat format (printFormat format numbers ++ rest) := by
  match format, unspaced with
  | [], _ => rw [scanFormat, scanFormat]
  | .literal byte :: format, dark =>
    rw [printFormat, List.cons_append,
      List.dropWhile_cons_of_neg (by simp [show isSpace byte = false from dark])]
  | .integer :: format, _ =>
    have more : arity (.integer :: format) = arity format + 1 := by simp [arity]
    obtain ⟨number, numbers, rfl⟩ :=
      List.exists_cons_of_length_pos (show 0 < numbers.length by omega)
    rw [printFormat, List.append_assoc, dropWhile_printInteger]

/-- The round trip: a format whose integers are each followed by a byte that is no digit
scans the integers it prints, whatever follows. -/
theorem scanFormat_print (delimited : Delimited format) (asked : numbers.length = arity format)
    (rest : List UInt8) : scanFormat format (printFormat format numbers ++ rest) = numbers := by
  induction format generalizing numbers rest with
  | nil => rw [List.length_eq_zero_iff.mp asked, scanFormat]
  | cons directive format ih =>
    cases directive with
    | literal byte =>
      have same : arity (.literal byte :: format) = arity format := by simp [arity]
      rw [printFormat, List.cons_append, scanFormat, if_pos rfl]
      exact ih delimited (asked.trans same) rest
    | space byte =>
      have same : arity (.space byte :: format) = arity format := by simp [arity]
      obtain ⟨blank, unspaced, later⟩ := delimited
      rw [printFormat, List.cons_append, scanFormat, List.dropWhile_cons_of_pos blank,
        scanFormat_unspaced unspaced (asked.trans same)]
      exact ih later (asked.trans same) rest
    | integer =>
      have more : arity (.integer :: format) = arity format + 1 := by simp [arity]
      obtain ⟨number, numbers, rfl⟩ :=
        List.exists_cons_of_length_pos (show 0 < numbers.length by omega)
      obtain ⟨ends, later⟩ := delimited_undigited numbers rest delimited
      have scanned : scanInteger 10
          (printInteger number ++ (printFormat format numbers ++ rest)).length
          (printInteger number ++ (printFormat format numbers ++ rest)) =
            some (number, printFormat format numbers ++ rest) :=
        scanInteger_print number (by rw [List.length_append]; omega) ends
      rw [printFormat, List.append_assoc, scanFormat, scanned]
      simp only [List.cons.injEq, true_and]
      exact ih later (by simpa [more] using asked) rest

/-! ## The bytes of printed text -/

/-- A byte of a printed integer: the minus sign, or a decimal digit. -/
def IntegerByte (byte : UInt8) : Prop := byte = 45 ∨ ∃ digit, digit < 10 ∧ byte = digitByte digit

/-- An integer is printed in such bytes. -/
theorem mem_printInteger {number : Int} {byte : UInt8} (member : byte ∈ printInteger number) :
    IntegerByte byte := by
  have digits : ∀ natural : Nat, byte ∈ decimal natural → IntegerByte byte := by
    intro natural among
    rw [decimal_eq] at among
    obtain ⟨digit, inside, same⟩ := List.mem_map.mp among
    exact .inr ⟨digit, decimalDigits_small inside, same.symm⟩
  unfold printInteger at member
  split at member
  · rcases List.mem_cons.mp member with sign | among
    · exact .inl sign
    · exact digits _ among
  · exact digits _ member

/-- The byte that a directive prints whatever the integers are. -/
def Directive.own : Directive → List UInt8
  | .literal byte | .space byte => [byte]
  | .integer => []

/-- A printed format consists of its own bytes and those of integers. -/
theorem mem_printFormat {byte : UInt8} (member : byte ∈ printFormat format numbers) :
    byte ∈ format.flatMap Directive.own ∨ IntegerByte byte := by
  induction format generalizing numbers with
  | nil => simp [printFormat] at member
  | cons directive format ih =>
    rw [List.flatMap_cons]
    have wider : ∀ numbers, byte ∈ printFormat format numbers →
        byte ∈ directive.own ++ format.flatMap Directive.own ∨ IntegerByte byte :=
      fun numbers among => (ih among).imp_left (List.mem_append_right _)
    cases directive with
    | literal own =>
      rcases List.mem_cons.mp member with same | among
      · exact .inl (same ▸ List.mem_cons_self)
      · exact wider numbers among
    | space own =>
      rcases List.mem_cons.mp member with same | among
      · exact .inl (same ▸ List.mem_cons_self)
      · exact wider numbers among
    | integer =>
      cases numbers with
      | nil => exact wider [] member
      | cons number numbers =>
        rcases List.mem_append.mp member with among | among
        · exact .inr (mem_printInteger among)
        · exact wider numbers among

/-- A number below a power of ten has no more digits than its exponent. -/
theorem decimal_length {number count : Nat} (small : number < 10 ^ count) (positive : 0 < count) :
    (decimal number).length ≤ count := by
  unfold decimal
  split
  · exact positive
  · rw [List.length_map, List.length_reverse]
    exact Nat.digits_length_le_iff (by decide) number |>.mpr small

/-- A printed integer is no longer than its digits and a sign. -/
theorem printInteger_length {number : Int} {count : Nat} (small : number.natAbs < 10 ^ count)
    (positive : 0 < count) : (printInteger number).length ≤ count + 1 := by
  have digits := decimal_length small positive
  unfold printInteger
  split
  · rw [List.length_cons]
    omega
  · omega

/-- A printed format is no longer than its directives and its integers. -/
theorem printFormat_length {bound : Nat}
    (short : ∀ number ∈ numbers, (printInteger number).length ≤ bound) :
    (printFormat format numbers).length ≤ format.length + numbers.length * bound := by
  induction format generalizing numbers with
  | nil => exact Nat.zero_le _
  | cons directive format ih =>
    cases directive with
    | literal byte =>
      have rest := ih short
      simp only [printFormat, List.length_cons]
      omega
    | space byte =>
      have rest := ih short
      simp only [printFormat, List.length_cons]
      omega
    | integer =>
      cases numbers with
      | nil =>
        have rest := ih short
        simp only [printFormat, List.length_cons]
        omega
      | cons number numbers =>
        have first := short number List.mem_cons_self
        have rest := ih fun other member => short other (.tail _ member)
        simp only [printFormat, List.length_append, List.length_cons, Nat.add_mul]
        omega

end Scanf
