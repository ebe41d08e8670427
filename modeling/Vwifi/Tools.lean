import Vwifi.Lib.Numeral
import Vwifi.Types

/-!
# Arguments that are numbers

The four programs let an argument through `isInt`, `isPositiveInt` or
`isIntOrFloat` before the C library converts it. The scanners of integers do not
ask for a digit.
-/

namespace Vwifi

set_option autoImplicit false

open Numeral

/-! ## The validators -/

/-- The first character is skipped when it is a sign. -/
def skipSign : List UInt8 → List UInt8
  | [] => []
  | c :: str => if c = '-'.toUInt8 ∨ c = '+'.toUInt8 then str else c :: str

/-- A character above 127 is refused whether or not `char` is signed. -/
def isIntLoop : List UInt8 → Bool
  | [] => true
  | c :: str => if c < '0'.toUInt8 ∨ c > '9'.toUInt8 then false else isIntLoop str

def isInt (str : CString) : Bool := isIntLoop (skipSign str.bytes)

def isPositiveInt (str : CString) : Bool :=
  if str.bytes.head? = some '-'.toUInt8 then false else isInt str

def isIntOrFloatLoop : Bool → Bool → List UInt8 → Bool
  | _, seeDigit, [] => seeDigit
  | seeDot, seeDigit, c :: str =>
    if c = '.'.toUInt8 then
      if seeDot then false else isIntOrFloatLoop true seeDigit str
    else if c < '0'.toUInt8 ∨ c > '9'.toUInt8 then false
    else isIntOrFloatLoop seeDot true str

def isIntOrFloat (str : CString) : Bool := isIntOrFloatLoop false false (skipSign str.bytes)

/-! ## The conversions of the C library -/

def isspace (c : UInt8) : Bool := c = ' '.toUInt8 ∨ 9 ≤ c ∧ c ≤ 13

/-- `strtol( str , NULL , 10 )`: a number outside of `long` becomes the nearest
one in it. There is no result when `str` does not begin with a number. -/
def strtol (str : List UInt8) : Option Int :=
  (Integer.read (str.dropWhile isspace)).map fun r =>
    if r.1.value < Int64.minValue.toInt then Int64.minValue.toInt
    else if Int64.maxValue.toInt < r.1.value then Int64.maxValue.toInt
    else r.1.value

def FitsInt (n : Int) : Prop := Int32.minValue.toInt ≤ n ∧ n ≤ Int32.maxValue.toInt

instance (n : Int) : Decidable (FitsInt n) :=
  inferInstanceAs (Decidable (Int32.minValue.toInt ≤ n ∧ n ≤ Int32.maxValue.toInt))

inductive StoiError where
  | invalidArgument | outOfRange
deriving DecidableEq

/-- What `std::stoi` returns or throws. -/
def stoi (str : CString) : Except StoiError Int :=
  match strtol str.bytes with
  | none => .error .invalidArgument
  | some n => if FitsInt n then .ok n else .error .outOfRange

def atoi (str : CString) : Int32 :=
  match strtol str.bytes with
  | none => 0
  | some n => Int32.ofInt n

/-- What `atof` rounds to a `double`, of a text without letters: no exponent, no
hexadecimal number, no infinity. -/
def strtod (str : List UInt8) : Option Rat :=
  (Decimal.read (str.dropWhile isspace)).map fun r => r.1.value

/-! ## Numbers -/

def IsInteger (str : CString) : Prop := ∃ n : Integer, n.text = str.bytes

def IsDecimal (str : CString) : Prop := ∃ n : Decimal, n.text = str.bytes

/-- Nothing but an optional sign. -/
def OnlySign (str : CString) : Prop := ∃ sign, str.bytes = signText sign

/-- The validators know a number when they see one. -/
structure Recognised (str : CString) : Prop where
  isInt : isInt str = true ↔ IsInteger str
  isPositiveInt : isPositiveInt str = true ↔
    IsInteger str ∧ str.bytes.head? ≠ some '-'.toUInt8
  isIntOrFloat : isIntOrFloat str = true ↔ IsDecimal str

/-- What a validator lets through, the call behind it converts to the number it stands for. -/
structure Converts (str : CString) : Prop where
  stoi : isPositiveInt str = true → ∃ n : Integer, n.text = str.bytes ∧ stoi str = .ok n.value
  atoi : isInt str = true → ∃ n : Integer, n.text = str.bytes ∧ (atoi str).toInt = n.value
  atof : isIntOrFloat str = true →
    ∃ n : Decimal, n.text = str.bytes ∧ strtod str.bytes = some n.value

/-! ## Scanning a sign and digits -/

theorem outside_iff (c : UInt8) : c < '0'.toUInt8 ∨ c > '9'.toUInt8 ↔ digit? c = none := by
  have h0 : '0'.toUInt8.toNat = 48 := rfl
  have h9 : '9'.toUInt8.toNat = 57 := rfl
  rw [gt_iff_lt, UInt8.lt_iff_toNat_lt, UInt8.lt_iff_toNat_lt, h0, h9, digit?]
  split
  · rename_i hin
    exact iff_of_false (by omega) (by simp)
  · rename_i hout
    exact iff_of_true (by omega) rfl

theorem not_outside (d : Digit) :
    ¬ (digitByte d < '0'.toUInt8 ∨ digitByte d > '9'.toUInt8) := by
  rw [outside_iff, digit?_digitByte]
  simp

theorem digit_or_outside (c : UInt8) :
    (∃ d, c = digitByte d) ∨ c < '0'.toUInt8 ∨ c > '9'.toUInt8 := by
  cases h : digit? c with
  | none => exact Or.inr ((outside_iff c).mpr h)
  | some d => exact Or.inl ⟨d, digit?_eq_some h⟩

theorem skipSign_append (sign : Option Sign) {rest : List UInt8}
    (h : ∀ b ∈ rest.head?, sign? b = none) : skipSign (signText sign ++ rest) = rest := by
  cases sign with
  | none =>
    cases rest with
    | nil => rfl
    | cons b rest =>
      have hb := h b rfl
      have hne : ¬ (b = '-'.toUInt8 ∨ b = '+'.toUInt8) := by
        rintro (rfl | rfl)
        · cases hb
        · cases hb
      exact if_neg hne
  | some s => cases s <;> rfl

/-- The text is an optional sign and what the scanners look at. -/
theorem skipSign_split (str : List UInt8) : ∃ sign, str = signText sign ++ skipSign str := by
  cases str with
  | nil => exact ⟨none, rfl⟩
  | cons c str =>
    by_cases hminus : c = '-'.toUInt8
    · subst hminus
      exact ⟨some .minus, rfl⟩
    · by_cases hplus : c = '+'.toUInt8
      · subst hplus
        exact ⟨some .plus, rfl⟩
      · refine ⟨none, ?_⟩
        rw [skipSign, if_neg (not_or.mpr ⟨hminus, hplus⟩)]
        rfl

theorem isIntLoop_iff (str : List UInt8) :
    isIntLoop str = true ↔ ∃ digits, digitsText digits = str := by
  induction str with
  | nil => exact ⟨fun _ => ⟨[], rfl⟩, fun _ => rfl⟩
  | cons c str ih =>
    rw [isIntLoop]
    rcases digit_or_outside c with ⟨d, rfl⟩ | hout
    · rw [if_neg (not_outside d), ih]
      constructor
      · rintro ⟨digits, rfl⟩
        exact ⟨d :: digits, rfl⟩
      · rintro ⟨digits, h⟩
        cases digits with
        | nil => cases h
        | cons d' digits => exact ⟨digits, (List.cons.inj h).2⟩
    · rw [if_pos hout]
      constructor
      · intro h
        cases h
      · rintro ⟨digits, h⟩
        cases digits with
        | nil => cases h
        | cons d digits =>
          rw [outside_iff, digit?_eq_none_iff] at hout
          exact absurd (List.cons.inj h).1.symm (hout d)

/-- What `isInt` accepts: the digits may be missing. -/
theorem isInt_iff (str : CString) :
    isInt str = true ↔ ∃ sign digits, str.bytes = signText sign ++ digitsText digits := by
  rw [isInt, isIntLoop_iff]
  constructor
  · rintro ⟨digits, h⟩
    obtain ⟨sign, hsplit⟩ := skipSign_split str.bytes
    exact ⟨sign, digits, by rw [h, ← hsplit]⟩
  · rintro ⟨sign, digits, h⟩
    exact ⟨digits, by rw [h, skipSign_append sign (digitsText_head digits)]⟩

theorem isInt_iff_or (str : CString) : isInt str = true ↔ IsInteger str ∨ OnlySign str := by
  rw [isInt_iff]
  constructor
  · rintro ⟨sign, digits, h⟩
    by_cases hdigits : digits = []
    · subst hdigits
      exact Or.inr ⟨sign, by rw [h]; exact List.append_nil _⟩
    · exact Or.inl ⟨⟨sign, digits, hdigits⟩, h.symm⟩
  · rintro (⟨n, hn⟩ | ⟨sign, h⟩)
    · exact ⟨n.sign, n.digits, hn.symm⟩
    · exact ⟨sign, [], by rw [h]; exact (List.append_nil _).symm⟩

theorem isPositiveInt_iff (str : CString) :
    isPositiveInt str = true ↔ isInt str = true ∧ str.bytes.head? ≠ some '-'.toUInt8 := by
  rw [isPositiveInt]
  split
  · rename_i hminus
    simp [hminus]
  · rename_i hminus
    exact ⟨fun h => ⟨h, hminus⟩, And.left⟩

/-! ## Scanning a fraction -/

/-- Digits leave nothing behind in the scanner but that it has seen them. -/
theorem isIntOrFloatLoop_digits (seeDot seeDigit : Bool) (digits : List Digit) (rest : List UInt8) :
    isIntOrFloatLoop seeDot seeDigit (digitsText digits ++ rest) =
      isIntOrFloatLoop seeDot (seeDigit || !digits.isEmpty) rest := by
  induction digits generalizing seeDigit with
  | nil => simp [digitsText]
  | cons d digits ih =>
    have hcons : digitsText (d :: digits) ++ rest =
        digitByte d :: (digitsText digits ++ rest) := rfl
    have hpoint : digitByte d ≠ '.'.toUInt8 := digitByte_ne_point d
    rw [hcons, isIntOrFloatLoop, if_neg hpoint, if_neg (not_outside d), ih]
    simp

theorem isIntOrFloatLoop_text (whole : List Digit) (fraction : Option (List Digit)) :
    isIntOrFloatLoop false false (digitsText whole ++ fractionText fraction) = true ↔
      whole ++ fraction.getD [] ≠ [] := by
  rw [isIntOrFloatLoop_digits]
  cases fraction with
  | none => simp [fractionText, isIntOrFloatLoop]
  | some digits =>
    have hpoint : point = '.'.toUInt8 := rfl
    have hdigits := isIntOrFloatLoop_digits true (false || !whole.isEmpty) digits []
    rw [List.append_nil] at hdigits
    rw [fractionText, isIntOrFloatLoop, if_pos hpoint, if_neg Bool.false_ne_true, hdigits]
    simp [isIntOrFloatLoop, imp_iff_not_or]

/-- What the scanner has accepted from a state of its two flags on. -/
theorem isIntOrFloatLoop_split {seeDot seeDigit : Bool} {str : List UInt8}
    (h : isIntOrFloatLoop seeDot seeDigit str = true) :
    ∃ whole fraction, digitsText whole ++ fractionText fraction = str ∧
      (seeDot = true → fraction = none) := by
  induction str generalizing seeDot seeDigit with
  | nil => exact ⟨[], none, rfl, fun _ => rfl⟩
  | cons c str ih =>
    rw [isIntOrFloatLoop] at h
    split at h
    · rename_i hpoint
      subst hpoint
      split at h
      · cases h
      · rename_i hdot
        -- the second part has no point of its own, so it is the fraction
        obtain ⟨whole, fraction, hstr, hnone⟩ := ih h
        rw [hnone rfl] at hstr
        refine ⟨[], some whole, ?_, fun hseen => absurd hseen hdot⟩
        rw [← hstr, fractionText, fractionText, List.append_nil]
        rfl
    · split at h
      · cases h
      · rename_i hin
        obtain ⟨d, rfl⟩ := (digit_or_outside c).resolve_right hin
        obtain ⟨whole, fraction, rfl, hnone⟩ := ih h
        exact ⟨d :: whole, fraction, rfl, hnone⟩

theorem isIntOrFloat_iff (str : CString) : isIntOrFloat str = true ↔ IsDecimal str := by
  rw [isIntOrFloat]
  constructor
  · intro h
    obtain ⟨whole, fraction, hstr, _⟩ := isIntOrFloatLoop_split h
    obtain ⟨sign, hsplit⟩ := skipSign_split str.bytes
    rw [← hstr] at h hsplit
    exact ⟨⟨sign, whole, fraction, (isIntOrFloatLoop_text whole fraction).mp h⟩, hsplit.symm⟩
  · rintro ⟨n, hn⟩
    rw [← hn, Decimal.text, skipSign_append n.sign (unsigned_head n.whole n.fraction)]
    exact (isIntOrFloatLoop_text n.whole n.fraction).mpr n.nonempty

/-! ## Converting what was accepted -/

section Converting

variable {str : CString}

theorem isspace_digitByte (d : Digit) : isspace (digitByte d) = false := by
  have hd := digitByte_toNat d
  have hspace : ' '.toUInt8.toNat = 32 := rfl
  apply decide_eq_false
  rw [← UInt8.toNat_inj, UInt8.le_iff_toNat_le, UInt8.le_iff_toNat_le, hspace, hd]
  have h13 : UInt8.toNat 13 = 13 := rfl
  omega

theorem isspace_head (sign : Option Sign) (whole : List Digit) (fraction : Option (List Digit)) :
    ∀ b ∈ (signText sign ++ (digitsText whole ++ fractionText fraction)).head?,
      isspace b = false := by
  intro b hb
  cases sign with
  | some s =>
    cases hb
    cases s <;> rfl
  | none =>
    cases whole with
    | cons d whole =>
      cases hb
      exact isspace_digitByte d
    | nil =>
      cases fraction with
      | none => cases hb
      | some digits =>
        cases hb
        rfl

theorem dropWhile_isspace {str : List UInt8} (h : ∀ b ∈ str.head?, isspace b = false) :
    str.dropWhile isspace = str := by
  cases str with
  | nil => rfl
  | cons b str =>
    apply List.dropWhile_cons_of_neg
    rw [h b rfl]
    exact Bool.false_ne_true

theorem read_integer (n : Integer) (h : n.text = str.bytes) :
    Integer.read (str.bytes.dropWhile isspace) = some (n, []) := by
  have hhead : ∀ b ∈ n.text.head?, isspace b = false := by
    have htext := isspace_head n.sign n.digits none
    rwa [fractionText, List.append_nil] at htext
  rw [← h, dropWhile_isspace hhead, n.read_text]

theorem strtod_text (n : Decimal) (h : n.text = str.bytes) :
    strtod str.bytes = some n.value := by
  have hhead : ∀ b ∈ n.text.head?, isspace b = false := isspace_head n.sign n.whole n.fraction
  rw [strtod, ← h, dropWhile_isspace hhead, n.read_text]
  rfl

theorem integer_unique {n m : Integer} (hn : n.text = str.bytes) (hm : m.text = str.bytes) :
    n = m := by
  have hread := read_integer n hn
  rw [read_integer m hm, Option.some.injEq, Prod.mk.injEq] at hread
  exact hread.1.symm

theorem strtol_text (n : Integer) (h : n.text = str.bytes) (hfits : FitsInt n.value) :
    strtol str.bytes = some n.value := by
  have hint : Int32.minValue.toInt = -2147483648 ∧ Int32.maxValue.toInt = 2147483647 := ⟨rfl, rfl⟩
  have hlong : Int64.minValue.toInt = -9223372036854775808 ∧
      Int64.maxValue.toInt = 9223372036854775807 := ⟨rfl, rfl⟩
  obtain ⟨hlow, hhigh⟩ := hfits
  rw [strtol, read_integer n h]
  simp only [Option.map_some]
  rw [if_neg (by omega), if_neg (by omega)]

theorem fitsInt_toInt (n : Int32) : FitsInt n.toInt :=
  ⟨Int32.minValue_le_toInt n, Int32.toInt_le n⟩

theorem toInt_ofInt {n : Int} (h : FitsInt n) : (Int32.ofInt n).toInt = n := by
  have hint : Int32.minValue.toInt = -2147483648 ∧ Int32.maxValue.toInt = 2147483647 := ⟨rfl, rfl⟩
  obtain ⟨hlow, hhigh⟩ := h
  exact Int32.toInt_ofInt_of_le (by omega) (by omega)

theorem onlySign_iff_isInt : OnlySign str ↔ isInt str = true ∧ ¬ IsInteger str := by
  rw [isInt_iff_or]
  constructor
  · rintro ⟨sign, h⟩
    refine ⟨Or.inr ⟨sign, h⟩, ?_⟩
    rintro ⟨n, hn⟩
    exact n.text_ne_sign sign (hn.trans h)
  · rintro ⟨hor, hnot⟩
    exact hor.resolve_left hnot

theorem recognised_iff : Recognised str ↔ ¬ OnlySign str := by
  constructor
  · intro h honly
    obtain ⟨hint, hnot⟩ := onlySign_iff_isInt.mp honly
    exact hnot (h.isInt.mp hint)
  · intro h
    have hint : isInt str = true ↔ IsInteger str := by
      rw [isInt_iff_or]
      exact or_iff_left h
    exact ⟨hint, by rw [isPositiveInt_iff, hint], isIntOrFloat_iff str⟩

theorem converts_iff (h : Recognised str) :
    Converts str ↔ ∀ n : Integer, n.text = str.bytes → FitsInt n.value := by
  constructor
  · intro hconv n hn
    obtain ⟨m, hm, hvalue⟩ := hconv.atoi (h.isInt.mpr ⟨n, hn⟩)
    rw [integer_unique hn hm, ← hvalue]
    exact fitsInt_toInt (atoi str)
  · intro hfits
    have hconverted : isInt str = true → ∃ n : Integer, n.text = str.bytes ∧ FitsInt n.value ∧
        strtol str.bytes = some n.value := by
      intro hint
      obtain ⟨n, hn⟩ := h.isInt.mp hint
      exact ⟨n, hn, hfits n hn, strtol_text n hn (hfits n hn)⟩
    constructor
    · intro hpositive
      obtain ⟨n, hn, hfit, hstrtol⟩ := hconverted ((isPositiveInt_iff str).mp hpositive).1
      refine ⟨n, hn, ?_⟩
      rw [stoi, hstrtol]
      exact if_pos hfit
    · intro hint
      obtain ⟨n, hn, hfit, hstrtol⟩ := hconverted hint
      refine ⟨n, hn, ?_⟩
      rw [atoi, hstrtol]
      exact toInt_ofInt hfit
    · intro hfloat
      obtain ⟨n, hn⟩ := h.isIntOrFloat.mp hfloat
      exact ⟨n, hn, strtod_text n hn⟩

end Converting

/-- The validators recognise the numbers among the arguments unless the argument
is an optional sign and nothing else, and `int` has room for what is converted. -/
theorem validates_iff (str : CString) :
    (Recognised str ↔ ¬ OnlySign str) ∧
      (Recognised str ∧ Converts str ↔
        ¬ OnlySign str ∧ ∀ n : Integer, n.text = str.bytes → FitsInt n.value) := by
  refine ⟨recognised_iff, ?_⟩
  rw [← recognised_iff]
  exact and_congr_right converts_iff

/-- `vwifi-server -p ""` -/
theorem validates_fails :
    isPositiveInt CString.empty = true ∧ stoi CString.empty = .error .invalidArgument ∧
      ¬ ∀ str, Recognised str ∧ Converts str := by
  refine ⟨by decide, by decide, ?_⟩
  intro h
  exact recognised_iff.mp (h CString.empty).1 ⟨none, rfl⟩

end Vwifi
