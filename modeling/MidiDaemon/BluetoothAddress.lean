import MidiDaemon.NoteEvent

/-!
# Bluetooth addresses as texts

`ba2str` prints an address as six pairs of digits, the last byte of the address first, and `main`
has room for just this text and its terminator. `str2ba` reads such a text back. It takes digits of
either case and nothing else: what it accepts is the text of the address it returns, but for the
case of its digits (`str2ba_iff`).
-/

namespace MidiDaemon

open Scanf

/-- `bdaddr_t`. -/
structure BdAddr where
  /-- `b`. -/
  b : List UInt8
  /-- There are six bytes. -/
  six : b.length = 6
deriving DecidableEq

/-- The separator of pairs, a colon. -/
def colon : UInt8 := 58

/-- The size of `cDst` in `main`. -/
def cDstLength : Nat := 18

/-- `%2.2X:%2.2X:...`. -/
def colonPairs : List UInt8 → List UInt8
  | [] => []
  | [byte] => hexByte true true byte
  | byte :: rest => hexByte true true byte ++ colon :: colonPairs rest

/-- `baswap`. -/
def baswap (src : BdAddr) : BdAddr := ⟨src.b.reverse, by rw [List.length_reverse, src.six]⟩

/-- `ba2str`: what it writes, without the terminator. -/
def ba2str (ba : BdAddr) : List UInt8 := colonPairs ba.b.reverse

/-- `batostr`. -/
def batostr (ba : BdAddr) : List UInt8 := colonPairs ba.b

/-- `isxdigit`. -/
def isxdigit (byte : UInt8) : Bool := (digitValue 16 byte).isSome

/-- The loop of `bachk`, over a string without its terminator. -/
def bachkLoop : List UInt8 → Bool
  | [] => true
  | [_] => false
  | high :: low :: rest =>
    isxdigit high && isxdigit low &&
      match rest with
      | [] => true
      | separator :: more => separator = colon && bachkLoop more

/-- `bachk` of a string. -/
def bachk (str : List UInt8) : Int :=
  if str.length ≠ 17 then -1
  else if bachkLoop str then 0
  else -1

/-- `strtol(text, NULL, 16)`. -/
def strtol16 (text : List UInt8) : Int := ((scanInteger 16 text.length text).map Prod.fst).getD 0

/-- The bytes of so many pairs, in the order of the text. -/
def pairBytes (count : Nat) (str : List UInt8) : List UInt8 :=
  (List.range count).map fun place => UInt8.ofInt (strtol16 (str.drop (place * 3)))

/-- `str2ba` of a string: its result, and the address. -/
def str2ba (str : List UInt8) : Int × BdAddr :=
  if bachk str < 0 then (-1, ⟨List.replicate 6 0, rfl⟩)
  else (0, ⟨(pairBytes 6 str).reverse, by simp [pairBytes]⟩)

/-- `strtoba`, when there is room for the address. -/
def strtoba (str : List UInt8) : BdAddr := baswap (str2ba str).2

/-- `toupper`. -/
def toupper (byte : UInt8) : UInt8 := if 97 ≤ byte ∧ byte ≤ 122 then byte - 32 else byte

/-! ## Digits of either case -/

/-- A byte is a digit exactly when it is that of a value in capitals. -/
theorem toupper_digit (byte : UInt8) {value : Nat} (small : value < 16) :
    toupper byte = hexDigit true value ↔ digitValue 16 byte = some value := by
  have every : ∀ number < 256, ∀ value < 16,
      toupper (UInt8.ofNat number) = hexDigit true value ↔
        digitValue 16 (UInt8.ofNat number) = some value := by decide +kernel
  have one := every byte.toNat byte.toNat_lt value small
  rwa [UInt8.ofNat_toNat] at one

/-- A colon has no case. -/
theorem toupper_colon (byte : UInt8) : toupper byte = colon ↔ byte = colon := by
  have every : ∀ number < 256, toupper (UInt8.ofNat number) = colon ↔
      UInt8.ofNat number = colon := by decide +kernel
  have one := every byte.toNat byte.toNat_lt
  rwa [UInt8.ofNat_toNat] at one

/-- A pair of digits in capitals is that of a byte exactly when the digits have its values. -/
theorem toupper_pair {high low byte : UInt8} :
    [toupper high, toupper low] = hexByte true true byte ↔
      digitValue 16 high = some (byte.toNat / 16) ∧ digitValue 16 low = some (byte.toNat % 16) := by
  have bound := byte.toNat_lt
  rw [hexByte, List.cons.injEq, List.cons.injEq, toupper_digit high (by omega),
    toupper_digit low (Nat.mod_lt _ (by decide)), and_iff_left rfl]

/-! ## Texts of pairs -/

/-- Two digits that are followed by none are read as their byte. -/
theorem strtol_pair {high low byte : UInt8} {rest : List UInt8}
    (pair : [toupper high, toupper low] = hexByte true true byte)
    (ends : ∀ next ∈ rest.head?, digitValue 16 next = none) :
    UInt8.ofInt (strtol16 (high :: low :: rest)) = byte := by
  have ⟨high_digit, low_digit⟩ := toupper_pair.mp pair
  have whole : 16 * (byte.toNat / 16) + byte.toNat % 16 = byte.toNat := Nat.div_add_mod _ _
  have bound := byte.toNat_lt
  rw [strtol16, scanInteger_two high_digit low_digit (by simp) ends, whole, Option.map_some,
    Option.getD_some, UInt8.ofInt]
  have reduced : ((byte.toNat : Int) % 2 ^ 8).toNat = byte.toNat := by omega
  rw [reduced, UInt8.ofNat_toNat]

/-- The bytes of the first pair, and of those behind it. -/
theorem pairBytes_succ (count : Nat) (str : List UInt8) :
    pairBytes (count + 1) str = UInt8.ofInt (strtol16 str) :: pairBytes count (str.drop 3) := by
  rw [pairBytes, List.range_succ_eq_map, List.map_cons, Nat.zero_mul, List.drop_zero, List.map_map,
    pairBytes]
  congr 1
  apply List.map_congr_left
  intro place _
  rw [Function.comp_apply, List.drop_drop]
  congr 3
  omega

/-- The text of some bytes passes the check and is read back, in digits of either case. -/
theorem pairs_read {bytes str : List UInt8} (some_byte : bytes ≠ [])
    (same : str.map toupper = colonPairs bytes) :
    bachkLoop str = true ∧ pairBytes bytes.length str = bytes ∧
      str.length + 1 = 3 * bytes.length := by
  induction bytes generalizing str with
  | nil => exact absurd rfl some_byte
  | cons byte bytes ih =>
    cases bytes with
    | nil =>
      obtain ⟨high, low, two⟩ : ∃ high low, str = [high, low] := by
        have length := congrArg List.length same
        rw [List.length_map] at length
        exact List.length_eq_two.mp length
      rw [two] at same ⊢
      obtain ⟨high_digit, low_digit⟩ := toupper_pair.mp same
      refine ⟨?_, ?_, rfl⟩
      · simp [bachkLoop, isxdigit, high_digit, low_digit]
      · rw [List.length_singleton, pairBytes_succ, strtol_pair same (by simp)]
        rfl
    | cons next bytes =>
      obtain ⟨high, low, separator, more, four, pair, colon_at, behind⟩ :
          ∃ high low separator more, str = high :: low :: separator :: more ∧
            [toupper high, toupper low] = hexByte true true byte ∧
            toupper separator = colon ∧ more.map toupper = colonPairs (next :: bytes) := by
        have parts : str.map toupper =
            hexByte true true byte ++ colon :: colonPairs (next :: bytes) := same
        match str, parts with
        | [], parts => simp [hexByte] at parts
        | [_], parts => simp [hexByte] at parts
        | [_, _], parts => simp [hexByte] at parts
        | high :: low :: separator :: more, parts =>
          have split : [toupper high, toupper low] ++ toupper separator :: more.map toupper =
              hexByte true true byte ++ colon :: colonPairs (next :: bytes) := parts
          obtain ⟨pair, rest⟩ := List.append_inj split rfl
          obtain ⟨mark, behind⟩ := List.cons.inj rest
          exact ⟨high, low, separator, more, rfl, pair, mark, behind⟩
      obtain ⟨passes, read, length⟩ := ih (by simp) behind
      obtain ⟨high_digit, low_digit⟩ := toupper_pair.mp pair
      have mark := (toupper_colon separator).mp colon_at
      rw [four]
      refine ⟨?_, ?_, ?_⟩
      · simp [bachkLoop, isxdigit, high_digit, low_digit, mark, passes]
      · rw [List.length_cons, pairBytes_succ, strtol_pair pair]
        · exact congrArg (byte :: ·) read
        · intro after first
          rw [← Option.some.inj first, mark]
          decide
      · simp only [List.length_cons] at length ⊢
        omega

/-- Two digits are the pair of a byte. -/
theorem pair_of_digits {high low : UInt8} (high_digit : isxdigit high = true)
    (low_digit : isxdigit low = true) :
    ∃ byte, [toupper high, toupper low] = hexByte true true byte := by
  have ⟨first, one⟩ := Option.isSome_iff_exists.mp high_digit
  have ⟨second, two⟩ := Option.isSome_iff_exists.mp low_digit
  have small := digitValue_lt one
  have also := digitValue_lt two
  have value : (UInt8.ofNat (16 * first + second)).toNat = 16 * first + second :=
    UInt8.toNat_ofNat_of_lt' (show 16 * first + second < 256 by omega)
  refine ⟨UInt8.ofNat (16 * first + second), toupper_pair.mpr ⟨?_, ?_⟩⟩
  · rw [value, one]
    congr 1
    omega
  · rw [value, two]
    congr 1
    omega

/-- What passes the check is the text of some bytes, but for the case of its digits. -/
theorem pairs_accepted {count : Nat} {str : List UInt8} (length : str.length = 3 * count + 2)
    (passes : bachkLoop str = true) :
    ∃ bytes, bytes.length = count + 1 ∧ str.map toupper = colonPairs bytes := by
  induction count generalizing str with
  | zero =>
    match str, length with
    | [high, low], _ =>
      have both : isxdigit high = true ∧ isxdigit low = true := by
        simpa [bachkLoop] using passes
      have ⟨byte, pair⟩ := pair_of_digits both.1 both.2
      exact ⟨[byte], rfl, pair⟩
  | succ count ih =>
    match str, length with
    | high :: low :: separator :: more, length =>
      have parts : (isxdigit high = true ∧ isxdigit low = true) ∧ separator = colon ∧
          bachkLoop more = true := by
        simpa [bachkLoop] using passes
      have ⟨byte, pair⟩ := pair_of_digits parts.1.1 parts.1.2
      have shorter : more.length = 3 * count + 2 := by
        simp only [List.length_cons] at length
        omega
      have ⟨bytes, number, behind⟩ := ih shorter parts.2.2
      have ⟨next, others, several⟩ := List.exists_cons_of_length_pos (by omega : 0 < bytes.length)
      refine ⟨byte :: bytes, by rw [List.length_cons, number], ?_⟩
      have mark := (toupper_colon separator).mpr parts.2.1
      rw [several] at behind ⊢
      show [toupper high, toupper low] ++ toupper separator :: more.map toupper =
        hexByte true true byte ++ colon :: colonPairs (next :: others)
      rw [pair, mark, behind]

/-- A text of pairs has three bytes for each, and no colon behind the last. -/
theorem colonPairs_length (bytes : List UInt8) :
    (colonPairs bytes).length = 3 * bytes.length - 1 := by
  induction bytes with
  | nil => rfl
  | cons byte bytes ih =>
    cases bytes with
    | nil => rfl
    | cons next bytes =>
      have pair : (hexByte true true byte).length = 2 := rfl
      rw [colonPairs, List.length_append, List.length_cons, ih, pair]
      · simp only [List.length_cons]
        omega
      · simp

/-- Digits in capitals stay as they are. -/
theorem colonPairs_toupper (bytes : List UInt8) :
    (colonPairs bytes).map toupper = colonPairs bytes := by
  have capital (value : Nat) (small : value < 16) :
      toupper (hexDigit true value) = hexDigit true value :=
    (toupper_digit _ small).mpr (digitValue_hexDigit true small)
  have pair (byte : UInt8) : (hexByte true true byte).map toupper = hexByte true true byte := by
    have bound := byte.toNat_lt
    rw [hexByte, List.map_cons, List.map_cons, capital _ (by omega),
      capital _ (Nat.mod_lt _ (by decide))]
    rfl
  have mark : toupper colon = colon := by decide
  induction bytes with
  | nil => rfl
  | cons byte bytes ih =>
    cases bytes with
    | nil => exact pair byte
    | cons next bytes =>
      show (hexByte true true byte ++ colon :: colonPairs (next :: bytes)).map toupper =
        hexByte true true byte ++ colon :: colonPairs (next :: bytes)
      rw [List.map_append, List.map_cons, pair, mark, ih]

/-! ## Addresses -/

/-- The size of the text is that of the array of `main`, with the terminator. -/
theorem ba2str_length (ba : BdAddr) : (ba2str ba).length + 1 = cDstLength := by
  rw [ba2str, colonPairs_length, List.length_reverse, ba.six]
  rfl

/-- What `str2ba` accepts: for every string and every address, it returns the address without an
error exactly when the string is the text that `ba2str` prints for the address, in digits of either
case; any other string is refused. The text fits the array of `main`, and the texts of `batostr` are
read by `strtoba`. -/
theorem str2ba_iff (str : List UInt8) (ba : BdAddr) :
    (str2ba str = (0, ba) ↔ str.map toupper = ba2str ba) ∧
      ((∀ other, str.map toupper ≠ ba2str other) → str2ba str = (-1, ⟨List.replicate 6 0, rfl⟩)) ∧
      (ba2str ba).length + 1 = cDstLength ∧ str2ba (ba2str ba) = (0, ba) ∧
      strtoba (batostr ba) = ba := by
  have accepts (str : List UInt8) (ba : BdAddr) (same : str.map toupper = ba2str ba) :
      str2ba str = (0, ba) := by
    have filled : ba.b.reverse ≠ [] := by
      intro empty
      have six := congrArg List.length empty
      rw [List.length_reverse, ba.six] at six
      cases six
    have ⟨passes, read, length⟩ := pairs_read filled same
    rw [List.length_reverse, ba.six] at read length
    have long : str.length = 17 := by omega
    have checked : bachk str = 0 := by simp [bachk, long, passes]
    have bytes : (pairBytes 6 str).reverse = ba.b := by rw [read, List.reverse_reverse]
    simp [str2ba, checked, bytes]
  have accepted (str : List UInt8) (checked : ¬ bachk str < 0) :
      ∃ other, str.map toupper = ba2str other := by
    unfold bachk at checked
    split at checked
    · exact absurd (by decide) checked
    · rename_i long
      split at checked
      · rename_i passes
        have ⟨bytes, number, same⟩ := pairs_accepted (show str.length = 3 * 5 + 2 by omega) passes
        refine ⟨⟨bytes.reverse, by rw [List.length_reverse, number]⟩, ?_⟩
        rw [same, ba2str, List.reverse_reverse]
      · exact absurd (by decide) checked
  refine ⟨⟨fun returned => ?_, accepts str ba⟩, fun refused => ?_, ba2str_length ba, ?_, ?_⟩
  · have checked : ¬ bachk str < 0 := by
      intro negative
      rw [str2ba, if_pos negative] at returned
      have result : (-1 : Int) = 0 := congrArg Prod.fst returned
      exact absurd result (by decide)
    have ⟨other, same⟩ := accepted str checked
    have address := accepts str other same
    rw [returned] at address
    rw [same, (Prod.mk.inj address).2]
  · by_cases checked : bachk str < 0
    · exact if_pos checked
    · have ⟨other, same⟩ := accepted str checked
      exact absurd same (refused other)
  · exact accepts _ ba (colonPairs_toupper _)
  · have swapped : batostr ba = ba2str (baswap ba) := by
      rw [batostr, ba2str, baswap, List.reverse_reverse]
    have read := accepts (ba2str (baswap ba)) (baswap ba) (colonPairs_toupper _)
    rw [strtoba, swapped, read]
    simp [baswap]

end MidiDaemon
