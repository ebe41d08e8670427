import Mathlib.Data.Nat.Digits.Defs

/-!
# Decimal numerals

An integer is an optional sign and decimal digits; a decimal fraction may have a
point before, among or behind its digits. Neither is without a digit. A reader
takes from a text the longest numeral it begins with.
-/

namespace Numeral

set_option autoImplicit false

abbrev Digit := Fin 10

inductive Sign where
  | plus | minus
deriving DecidableEq

/-! ## Text -/

def Sign.byte : Sign → UInt8
  | plus => 43
  | minus => 45

def point : UInt8 := 46

def digitByte (d : Digit) : UInt8 := UInt8.ofNat (48 + d.val)

def signText (sign : Option Sign) : List UInt8 := (sign.map Sign.byte).toList

def digitsText (digits : List Digit) : List UInt8 := digits.map digitByte

def fractionText : Option (List Digit) → List UInt8
  | none => []
  | some digits => point :: digitsText digits

structure Integer where
  sign : Option Sign
  digits : List Digit
  nonempty : digits ≠ []

def Integer.text (n : Integer) : List UInt8 := signText n.sign ++ digitsText n.digits

structure Decimal where
  sign : Option Sign
  whole : List Digit
  fraction : Option (List Digit)
  nonempty : whole ++ fraction.getD [] ≠ []

def Decimal.text (n : Decimal) : List UInt8 :=
  signText n.sign ++ (digitsText n.whole ++ fractionText n.fraction)

/-! ## Value -/

def magnitude (digits : List Digit) : Nat := Nat.ofDigits 10 (digits.reverse.map Fin.val)

def signed : Option Sign → Int → Int
  | some .minus, n => -n
  | _, n => n

def Integer.value (n : Integer) : Int := signed n.sign (magnitude n.digits)

def Decimal.value (n : Decimal) : Rat :=
  mkRat (signed n.sign (magnitude (n.whole ++ n.fraction.getD [])))
    (10 ^ (n.fraction.getD []).length)

/-! ## Reading -/

theorem digit_lt {n : Nat} (h : 48 ≤ n ∧ n < 58) : n - 48 < 10 := by omega

def digit? (b : UInt8) : Option Digit :=
  if h : 48 ≤ b.toNat ∧ b.toNat < 58 then some ⟨b.toNat - 48, digit_lt h⟩ else none

def sign? (b : UInt8) : Option Sign :=
  if b = Sign.plus.byte then some .plus else if b = Sign.minus.byte then some .minus else none

def readSign : List UInt8 → Option Sign × List UInt8
  | [] => (none, [])
  | b :: bs => if (sign? b).isSome then (sign? b, bs) else (none, b :: bs)

def readDigits : List UInt8 → List Digit × List UInt8
  | [] => ([], [])
  | b :: bs =>
    match digit? b with
    | none => ([], b :: bs)
    | some d => (d :: (readDigits bs).1, (readDigits bs).2)

def readFraction : List UInt8 → Option (List Digit) × List UInt8
  | [] => (none, [])
  | b :: bs =>
    if b = point then (some (readDigits bs).1, (readDigits bs).2) else (none, b :: bs)

def Integer.read (bs : List UInt8) : Option (Integer × List UInt8) :=
  let sign := readSign bs
  let digits := readDigits sign.2
  if h : digits.1 ≠ [] then some (⟨sign.1, digits.1, h⟩, digits.2) else none

def Decimal.read (bs : List UInt8) : Option (Decimal × List UInt8) :=
  let sign := readSign bs
  let whole := readDigits sign.2
  let fraction := readFraction whole.2
  if h : whole.1 ++ fraction.1.getD [] ≠ [] then
    some (⟨sign.1, whole.1, fraction.1, h⟩, fraction.2)
  else none

/-! ## Bytes -/

theorem digitByte_toNat (d : Digit) : (digitByte d).toNat = 48 + d.val := by
  rw [digitByte, UInt8.toNat_ofNat']
  omega

@[simp] theorem digit?_digitByte (d : Digit) : digit? (digitByte d) = some d := by
  have hb := digitByte_toNat d
  have hd := d.isLt
  rw [digit?, dif_pos (by omega)]
  simp [hb]

theorem digit?_eq_none_iff {b : UInt8} : digit? b = none ↔ ∀ d, b ≠ digitByte d := by
  constructor
  · rintro h d rfl
    rw [digit?_digitByte] at h
    cases h
  · intro h
    rw [digit?]
    split
    · rename_i hb
      refine absurd ?_ (h ⟨b.toNat - 48, digit_lt hb⟩)
      rw [← UInt8.toNat_inj, digitByte_toNat]
      dsimp only
      omega
    · rfl

theorem digit?_eq_some {b : UInt8} {d : Digit} (h : digit? b = some d) : b = digitByte d := by
  by_contra hne
  have hall : ∀ d', b ≠ digitByte d' := by
    rintro d' rfl
    rw [digit?_digitByte, Option.some.injEq] at h
    exact hne (congrArg digitByte h)
  rw [digit?_eq_none_iff.mpr hall] at h
  cases h

theorem digitByte_ne_sign (d : Digit) (s : Sign) : digitByte d ≠ s.byte := by
  intro h
  have hb := congrArg UInt8.toNat h
  rw [digitByte_toNat] at hb
  cases s <;> simp [Sign.byte] at hb <;> omega

theorem digitByte_ne_point (d : Digit) : digitByte d ≠ point := by
  intro h
  have hb := congrArg UInt8.toNat h
  rw [digitByte_toNat] at hb
  simp [point] at hb
  omega

/-! ## Reading what was written -/

theorem sign?_byte (s : Sign) : sign? s.byte = some s := by
  cases s <;> rfl

theorem sign?_digitByte (d : Digit) : sign? (digitByte d) = none := by
  rw [sign?, if_neg (digitByte_ne_sign d .plus), if_neg (digitByte_ne_sign d .minus)]

theorem readSign_append (sign : Option Sign) {rest : List UInt8}
    (h : ∀ b ∈ rest.head?, sign? b = none) : readSign (signText sign ++ rest) = (sign, rest) := by
  cases sign with
  | none =>
    cases rest with
    | nil => rfl
    | cons b rest =>
      have hb := h b rfl
      simp [signText, readSign, hb]
  | some s => simp [signText, readSign, sign?_byte]

theorem readDigits_append (digits : List Digit) {rest : List UInt8}
    (h : ∀ b ∈ rest.head?, digit? b = none) :
    readDigits (digitsText digits ++ rest) = (digits, rest) := by
  induction digits with
  | nil =>
    cases rest with
    | nil => rfl
    | cons b rest =>
      have hb := h b rfl
      simp [digitsText, readDigits, hb]
  | cons d digits ih =>
    have hcons : digitsText (d :: digits) ++ rest =
        digitByte d :: (digitsText digits ++ rest) := rfl
    rw [hcons, readDigits, digit?_digitByte]
    simp only [ih]

theorem readDigits_text (digits : List Digit) : readDigits (digitsText digits) = (digits, []) := by
  have h := @readDigits_append digits [] (by simp)
  rwa [List.append_nil] at h

theorem readFraction_text (fraction : Option (List Digit)) :
    readFraction (fractionText fraction) = (fraction, []) := by
  cases fraction with
  | none => rfl
  | some digits => rw [fractionText, readFraction, if_pos rfl, readDigits_text]

/-- Neither a digit nor a point is taken for a sign. -/
theorem unsigned_head (whole : List Digit) (fraction : Option (List Digit)) :
    ∀ b ∈ (digitsText whole ++ fractionText fraction).head?, sign? b = none := by
  intro b hb
  cases whole with
  | cons d whole =>
    cases hb
    exact sign?_digitByte d
  | nil =>
    cases fraction with
    | none => cases hb
    | some digits =>
      cases hb
      rfl

theorem digitsText_head (digits : List Digit) :
    ∀ b ∈ (digitsText digits).head?, sign? b = none := by
  have h := unsigned_head digits none
  rwa [fractionText, List.append_nil] at h

theorem Integer.read_text (n : Integer) : Integer.read n.text = some (n, []) := by
  simp only [Integer.read, Integer.text, readSign_append n.sign (digitsText_head n.digits),
    readDigits_text]
  exact dif_pos n.nonempty

/-- A sign alone is not a numeral. -/
theorem Integer.read_sign (sign : Option Sign) : Integer.read (signText sign) = none := by
  have h := @readSign_append sign [] (by simp)
  rw [List.append_nil] at h
  simp only [Integer.read, h]
  rfl

theorem Integer.text_ne_sign (n : Integer) (sign : Option Sign) : n.text ≠ signText sign := by
  intro h
  have hread := n.read_text
  rw [h, Integer.read_sign] at hread
  cases hread

theorem Decimal.read_text (n : Decimal) : Decimal.read n.text = some (n, []) := by
  have hpoint : ∀ b ∈ (fractionText n.fraction).head?, digit? b = none := by
    intro b hb
    cases hfraction : n.fraction with
    | none =>
      rw [hfraction] at hb
      cases hb
    | some digits =>
      rw [hfraction] at hb
      cases hb
      rfl
  simp only [Decimal.read, Decimal.text, readSign_append n.sign (unsigned_head n.whole n.fraction),
    readDigits_append n.whole hpoint, readFraction_text]
  exact dif_pos n.nonempty

end Numeral
