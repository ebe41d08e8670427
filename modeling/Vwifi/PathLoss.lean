import Mathlib.Analysis.SpecialFunctions.Log.Base
import Vwifi.Lib.Signed
import Vwifi.Lib.TowardZero
import Vwifi.Visit

/-!
# Levels and distances

The path loss with the logarithm as the exact function. It grows with the distance, but
it is negative at small distances, while at the distance 0 there is none: only a
receiver at the place of the sender can hear less than one that is further away.
-/

namespace Vwifi

set_option autoImplicit false

open Signed TowardZero

namespace CWifi

/-! ## The path loss -/

/-- `ConstanteC` -/
noncomputable def constanteC : ℝ := 92.45

/-- What `Attenuation` converts to `int`. -/
noncomputable def loss (distance : ℝ) (frequency : TFrequency) : ℝ :=
  constanteC + 20 * (Real.logb 10 frequency.toNat - 3) + 20 * (Real.logb 10 distance - 3)

variable {distance distance' : ℝ} {frequency : TFrequency}

theorem frequency_pos (h : 0 < frequency) : (0 : ℝ) < frequency.toNat :=
  Nat.cast_pos.mpr (UInt32.lt_iff_toNat_lt.mp h)

theorem loss_mono (hpos : 0 < distance) (hle : distance ≤ distance') :
    loss distance frequency ≤ loss distance' frequency := by
  have hlog := Real.logb_le_logb_of_le (by norm_num : (1 : ℝ) < 10) hpos hle
  rw [loss, loss]
  linarith

/-- The distance up to which a signal gains at least 1. -/
theorem loss_le_neg_one_iff (hpos : 0 < distance) (hfrequency : 0 < frequency) :
    loss distance frequency ≤ -1 ↔ frequency.toNat * distance ≤ (10 : ℝ) ^ (1.3275 : ℝ) := by
  have hf := frequency_pos hfrequency
  have hlog := Real.logb_mul (b := 10) hf.ne' hpos.ne'
  rw [← Real.logb_le_iff_le_rpow (by norm_num : (1 : ℝ) < 10) (mul_pos hf hpos), hlog, loss,
    constanteC]
  constructor
  · intro h
    linarith
  · intro h
    linarith

end CWifi

/-- What a positive `double`, or its product with a root of a sum of squares, can be. -/
def DoubleRange (x : ℝ) : Prop := (2 : ℝ) ^ (-1100 : ℝ) ≤ x ∧ x ≤ (2 : ℝ) ^ (1100 : ℝ)

/-- The arithmetic of the medium is exact: `metres` is the value of a distance, and the
logarithm is the function. -/
structure Medium.Exact (medium : Medium) (metres : TDistance → ℝ) : Prop where
  zero : ∀ distance, distance &&& 0x7FFFFFFFFFFFFFFF = 0 ↔ metres distance = 0
  range : ∀ distance, 0 < metres distance → DoubleRange (metres distance)
  pathLoss : ∀ distance frequency, 0 < metres distance → 0 < frequency →
    (medium.pathLoss distance frequency).toInt =
      towardZero (CWifi.loss (metres distance) frequency)

namespace CWifi

/-- The path loss is far from the limits of an `int`. -/
theorem loss_bounds {distance : ℝ} {frequency : TFrequency} (hpos : 0 < distance)
    (hrange : DoubleRange distance) (hfrequency : 0 < frequency) :
    ((-30000 : Int) : ℝ) ≤ loss distance frequency ∧
      loss distance frequency ≤ ((30000 : Int) : ℝ) := by
  have hten : (1 : ℝ) < 10 := by norm_num
  have hf := frequency_pos hfrequency
  have hone : (1 : ℝ) ≤ frequency.toNat :=
    Nat.one_le_cast.mpr (UInt32.lt_iff_toNat_lt.mp hfrequency)
  have hlast : (frequency.toNat : ℝ) ≤ (10 : ℝ) ^ (10 : ℝ) := by
    have hlt : (frequency.toNat : ℝ) < ((2 ^ 32 : Nat) : ℝ) := Nat.cast_lt.mpr frequency.toNat_lt
    have hcast : ((10 : Nat) : ℝ) = 10 := rfl
    rw [← hcast, Real.rpow_natCast]
    norm_num at hlt ⊢
    linarith
  have hlow : (10 : ℝ) ^ (-1100 : ℝ) ≤ distance :=
    (Real.rpow_le_rpow_of_nonpos two_pos (by norm_num) (by norm_num)).trans hrange.1
  have hhigh : distance ≤ (10 : ℝ) ^ (1100 : ℝ) :=
    hrange.2.trans (Real.rpow_le_rpow two_pos.le (by norm_num) (by norm_num))
  have hlogLow := (Real.le_logb_iff_rpow_le hten hpos).mpr hlow
  have hlogHigh := (Real.logb_le_iff_le_rpow hten hpos).mpr hhigh
  have hlogOne := Real.logb_nonneg hten hone
  have hlogLast := (Real.logb_le_iff_le_rpow hten hf).mpr hlast
  rw [loss, constanteC]
  constructor
  · push_cast
    linarith
  · push_cast
    linarith

variable {medium : Medium} {metres : TDistance → ℝ} {d d' : TDistance} {frequency : TFrequency}

theorem attenuation_zero (hexact : medium.Exact metres) (h : metres d = 0) :
    attenuation medium d frequency = 0 :=
  if_pos ((hexact.zero d).mpr h)

theorem attenuation_pos (hexact : medium.Exact metres) (hfrequency : 0 < frequency)
    (h : 0 < metres d) :
    (attenuation medium d frequency).toInt = towardZero (loss (metres d) frequency) := by
  have hne : ¬ d &&& 0x7FFFFFFFFFFFFFFF = 0 := fun hzero => h.ne' ((hexact.zero d).mp hzero)
  rw [attenuation, if_neg hne, hexact.pathLoss d frequency h hfrequency]

/-- Away from the sender the attenuation grows with the distance. -/
theorem attenuation_mono (hexact : medium.Exact metres) (hfrequency : 0 < frequency)
    (hpos : 0 < metres d) (hle : metres d ≤ metres d') :
    (attenuation medium d frequency).toInt ≤ (attenuation medium d' frequency).toInt := by
  rw [attenuation_pos hexact hfrequency hpos,
    attenuation_pos hexact hfrequency (hpos.trans_le hle)]
  exact towardZero_mono (loss_mono hpos hle)

theorem attenuation_neg_iff (hexact : medium.Exact metres) (hfrequency : 0 < frequency)
    (hpos : 0 < metres d) :
    (attenuation medium d frequency).toInt < 0 ↔
      frequency.toNat * metres d ≤ (10 : ℝ) ^ (1.3275 : ℝ) := by
  have hround := @towardZero_le_iff ℝ _ _ _ (loss (metres d) frequency) _ (-1) (by omega)
  rw [Int.cast_neg, Int.cast_one] at hround
  rw [attenuation_pos hexact hfrequency hpos, ← loss_le_neg_one_iff hpos hfrequency, ← hround]
  omega

/-! ## The level -/

/-- The difference from the power of the sender does not wrap. -/
theorem toInt_sub_attenuation (hexact : medium.Exact metres) (hfrequency : 0 < frequency)
    (hnonneg : 0 ≤ metres d) (power : TPower) :
    (power.toInt32 - attenuation medium d frequency).toInt =
      power.toInt - (attenuation medium d frequency).toInt := by
  have hlow := power.minValue_le_toInt
  have hhigh := power.toInt_le
  have hmin : Int8.minValue.toInt = -128 := by decide
  have hmax : Int8.maxValue.toInt = 127 := by decide
  rw [← Int8.toInt_toInt32 power]
  apply toInt_sub_iff.mpr
  rw [Int8.toInt_toInt32 power]
  rcases hnonneg.lt_or_eq with hpos | hzero
  · obtain ⟨hleast, hmost⟩ := loss_bounds hpos (hexact.range d hpos) hfrequency
    have hleast' := towardZero_mono hleast
    have hmost' := towardZero_mono hmost
    rw [towardZero_intCast] at hleast' hmost'
    rw [attenuation_pos hexact hfrequency hpos]
    constructor <;> omega
  · have hnone := @attenuation_zero medium metres d frequency hexact hzero.symm
    rw [hnone, Int32.toInt_zero]
    constructor <;> omega

theorem boundedPower_toInt (power : Int32) :
    (boundedPower power).toInt = max tPowerMin.toInt (min tPowerMax.toInt power.toInt) := by
  have hmin : tPowerMin.toInt = -128 := by decide
  have hmax : tPowerMax.toInt = -10 := by decide
  have hmin' : tPowerMin.toInt32.toInt = -128 := by decide
  have hmax' : tPowerMax.toInt32.toInt = -10 := by decide
  unfold boundedPower
  split
  · rename_i hlow
    rw [Int32.lt_iff_toInt_lt, hmin'] at hlow
    omega
  · rename_i hlow
    rw [Int32.lt_iff_toInt_lt, hmin'] at hlow
    split
    · rename_i hhigh
      rw [gt_iff_lt, Int32.lt_iff_toInt_lt, hmax'] at hhigh
      omega
    · rename_i hhigh
      rw [gt_iff_lt, Int32.lt_iff_toInt_lt, hmax'] at hhigh
      rw [Int32.toInt_toInt8, Int.bmod_eq_of_le (by omega) (by omega)]
      omega

theorem boundedPower_bounds (power : Int32) :
    tPowerMin ≤ boundedPower power ∧ boundedPower power ≤ tPowerMax := by
  have hmin : tPowerMin.toInt = -128 := by decide
  have hmax : tPowerMax.toInt = -10 := by decide
  rw [Int8.le_iff_toInt_le, Int8.le_iff_toInt_le, boundedPower_toInt]
  omega

theorem boundedPower_le_iff (power power' : Int32) :
    boundedPower power ≤ boundedPower power' ↔
      power.toInt ≤ power'.toInt ∨ power.toInt ≤ tPowerMin.toInt ∨
        tPowerMax.toInt ≤ power'.toInt := by
  have hmin : tPowerMin.toInt = -128 := by decide
  have hmax : tPowerMax.toInt = -10 := by decide
  rw [Int8.le_iff_toInt_le, boundedPower_toInt, boundedPower_toInt]
  omega

/-- With the same draw, a packet that is lost at some level is lost at any lower one. -/
theorem packetIsLost_mono {level level' : TPower} (h : level' ≤ level) (k : Kernel)
    (hlost : (packetIsLost k level).1 = true) : (packetIsLost k level').1 = true := by
  have hle := Int8.le_iff_toInt_le.mp h
  unfold packetIsLost at hlost ⊢
  dsimp only at hlost ⊢
  split at hlost
  · cases hlost
  · rename_i hnot
    exact if_neg (by omega)

end CWifi

variable {medium : Medium} {metres : TDistance → ℝ} {scale : TScale} {coo : CCoordinate}
  {power : TPower} {data : List UInt8} {e₁ e₂ : Entry}

/-- The entry `e₁` hears the sender at `coo` as well as `e₂` does, and with the same draw
it gets every packet that `e₂` gets. -/
structure HearsAsWell (medium : Medium) (scale : TScale) (coo : CCoordinate) (power : TPower)
    (data : List UInt8) (e₁ e₂ : Entry) : Prop where
  level : signalLevel medium scale coo power data e₂ ≤ signalLevel medium scale coo power data e₁
  bounds : ∀ e ∈ [e₁, e₂], tPowerMin ≤ signalLevel medium scale coo power data e ∧
    signalLevel medium scale coo power data e ≤ tPowerMax
  lost : ∀ k : Kernel,
    (CWifi.packetIsLost k (signalLevel medium scale coo power data e₁)).1 = true →
      (CWifi.packetIsLost k (signalLevel medium scale coo power data e₂)).1 = true

theorem hearsAsWell_iff_level :
    HearsAsWell medium scale coo power data e₁ e₂ ↔
      signalLevel medium scale coo power data e₂ ≤ signalLevel medium scale coo power data e₁ := by
  constructor
  · exact HearsAsWell.level
  · intro h
    exact ⟨h, fun e _ => CWifi.boundedPower_bounds _, fun k => CWifi.packetIsLost_mono h k⟩

/-- The nearer of two receivers hears as well as the other one, unless it is at the place
of the sender, the other one is so near that the attenuation is negative, and the
transmitted power is below the highest level. -/
theorem hearsAsWell_iff (hexact : medium.Exact metres)
    (hfrequency : 0 < CWifi.getFrequency medium data)
    (hnonneg : 0 ≤ metres (coo.distanceWith medium scale e₁.info.toCCoordinate))
    (hle : metres (coo.distanceWith medium scale e₁.info.toCCoordinate) ≤
      metres (coo.distanceWith medium scale e₂.info.toCCoordinate)) :
    HearsAsWell medium scale coo power data e₁ e₂ ↔
      0 < metres (coo.distanceWith medium scale e₁.info.toCCoordinate) ∨
      metres (coo.distanceWith medium scale e₂.info.toCCoordinate) = 0 ∨
      tPowerMax ≤ power ∨
      (10 : ℝ) ^ (1.3275 : ℝ) < (CWifi.getFrequency medium data).toNat *
        metres (coo.distanceWith medium scale e₂.info.toCCoordinate) := by
  rw [hearsAsWell_iff_level, signalLevel, signalLevel, CWifi.boundedPower_le_iff]
  generalize coo.distanceWith medium scale e₁.info.toCCoordinate = d₁ at hnonneg hle ⊢
  generalize coo.distanceWith medium scale e₂.info.toCCoordinate = d₂ at hle ⊢
  generalize CWifi.getFrequency medium data = frequency at hfrequency ⊢
  rw [CWifi.toInt_sub_attenuation hexact hfrequency hnonneg power,
    CWifi.toInt_sub_attenuation hexact hfrequency (hnonneg.trans hle) power]
  rcases hnonneg.lt_or_eq with hpos | hzero
  · have hmono := CWifi.attenuation_mono hexact hfrequency hpos hle
    exact iff_of_true (.inl (by omega)) (.inl hpos)
  · have hnone : (CWifi.attenuation medium d₁ frequency).toInt = 0 := by
      rw [CWifi.attenuation_zero hexact hzero.symm, Int32.toInt_zero]
    have hlow : tPowerMin.toInt ≤ power.toInt := power.minValue_le_toInt
    have hmin : tPowerMin.toInt = -128 := by decide
    have hmax : tPowerMax.toInt = -10 := by decide
    rw [← hzero] at hle
    rcases hle.lt_or_eq with hpos | hzero'
    · have hneg := CWifi.attenuation_neg_iff hexact hfrequency hpos
      rw [hnone]
      constructor
      · intro h
        by_cases hloud : tPowerMax ≤ power
        · exact .inr (.inr (.inl hloud))
        · rw [Int8.le_iff_toInt_le] at hloud
          refine .inr (.inr (.inr (not_le.mp fun hnear => ?_)))
          have hgain := hneg.mpr hnear
          omega
      · rintro (h | h | h | h)
        · exact absurd hzero h.ne
        · exact absurd h hpos.ne'
        · rw [Int8.le_iff_toInt_le] at h
          exact .inr (.inr (by omega))
        · have hloss := mt hneg.mp (not_le.mpr h)
          exact .inl (by omega)
    · have hnone' : (CWifi.attenuation medium d₂ frequency).toInt = 0 := by
        rw [CWifi.attenuation_zero hexact hzero'.symm, Int32.toInt_zero]
      exact iff_of_true (.inl (by omega)) (.inr (.inl hzero'.symm))

/-! ## Distances as the bits of a `double` -/

/-- The value of a finite `double`. -/
def doubleValue (bits : UInt64) : ℚ :=
  let sign : ℚ := if bits.toNat < 2 ^ 63 then 1 else -1
  let exponent : Nat := bits.toNat / 2 ^ 52 % 2 ^ 11
  let fraction : Nat := bits.toNat % 2 ^ 52
  if exponent = 0 then sign * (fraction * 2 ^ (-1074 : ℤ))
  else sign * ((2 ^ 52 + fraction) * 2 ^ ((exponent : ℤ) - 1075))

theorem doubleValue_eq_zero_iff (bits : UInt64) :
    doubleValue bits = 0 ↔ bits.toNat % 2 ^ 63 = 0 := by
  have hsign : (if bits.toNat < 2 ^ 63 then (1 : ℚ) else -1) ≠ 0 := by
    split
    · exact one_ne_zero
    · exact neg_ne_zero.mpr one_ne_zero
  have htwo : (2 : ℚ) ≠ 0 := two_ne_zero
  rw [doubleValue]
  split
  · rw [mul_eq_zero_iff_left hsign, mul_eq_zero_iff_right (zpow_ne_zero _ htwo), Nat.cast_eq_zero]
    omega
  · have hpositive : (0 : ℚ) < 2 ^ 52 + (bits.toNat % 2 ^ 52 : Nat) := by positivity
    refine iff_of_false ?_ (by omega)
    exact mul_ne_zero hsign (mul_ne_zero hpositive.ne' (zpow_ne_zero _ htwo))

/-- A mantissa and an exponent of a `double`. -/
theorem scaled_range {mantissa : ℚ} {exponent : ℤ} (hone : 1 ≤ mantissa)
    (hbits : mantissa ≤ 2 ^ (53 : ℤ)) (hmin : -1100 ≤ exponent) (hmax : exponent ≤ 1000) :
    (2 : ℚ) ^ (-1100 : ℤ) ≤ mantissa * 2 ^ exponent ∧
      mantissa * 2 ^ exponent ≤ (2 : ℚ) ^ (1100 : ℤ) := by
  have htwo : (1 : ℚ) ≤ 2 := one_le_two
  constructor
  · calc (2 : ℚ) ^ (-1100 : ℤ) ≤ 2 ^ exponent := zpow_le_zpow_right₀ htwo hmin
      _ = 1 * 2 ^ exponent := (one_mul _).symm
      _ ≤ mantissa * 2 ^ exponent := mul_le_mul_of_nonneg_right hone (by positivity)
  · calc mantissa * 2 ^ exponent
        ≤ 2 ^ (53 : ℤ) * 2 ^ exponent := mul_le_mul_of_nonneg_right hbits (by positivity)
      _ = 2 ^ (53 + exponent) := (zpow_add₀ two_ne_zero _ _).symm
      _ ≤ 2 ^ (1100 : ℤ) := zpow_le_zpow_right₀ htwo (by omega)

/-- What lies behind the sign of a `double` that is not zero. -/
theorem doubleValue_range {bits : UInt64} (hpos : 0 < doubleValue bits) :
    (2 : ℚ) ^ (-1100 : ℤ) ≤ doubleValue bits ∧ doubleValue bits ≤ (2 : ℚ) ^ (1100 : ℤ) := by
  have hsign : bits.toNat < 2 ^ 63 := by
    by_contra hneg
    rw [doubleValue, if_neg hneg] at hpos
    split at hpos
    · have hnonneg : (0 : ℚ) ≤ (bits.toNat % 2 ^ 52 : Nat) * 2 ^ (-1074 : ℤ) := by positivity
      linarith
    · have hnonneg : (0 : ℚ) ≤ (2 ^ 52 + (bits.toNat % 2 ^ 52 : Nat)) *
          2 ^ ((bits.toNat / 2 ^ 52 % 2 ^ 11 : Nat) - 1075 : ℤ) := by positivity
      linarith
  have hnonneg : (0 : ℚ) ≤ (bits.toNat % 2 ^ 52 : Nat) := Nat.cast_nonneg _
  have hfraction : ((bits.toNat % 2 ^ 52 : Nat) : ℚ) ≤ 2 ^ (52 : ℤ) := by
    have hlt := Nat.mod_lt bits.toNat (by decide : 0 < 2 ^ 52)
    exact_mod_cast hlt.le
  have htwice : (2 : ℚ) ^ (53 : ℤ) = 2 ^ 52 + 2 ^ (52 : ℤ) := by norm_num
  rw [doubleValue, if_pos hsign] at hpos ⊢
  split at hpos
  · rename_i hzero
    rw [if_pos hzero, one_mul] at *
    have hone : (1 : ℚ) ≤ (bits.toNat % 2 ^ 52 : Nat) := by
      have hne : bits.toNat % 2 ^ 52 ≠ 0 := by
        intro h
        rw [h, Nat.cast_zero, zero_mul] at hpos
        exact lt_irrefl _ hpos
      exact_mod_cast Nat.pos_of_ne_zero hne
    exact scaled_range hone (by linarith) (by norm_num) (by norm_num)
  · rename_i hnonzero
    have hexponent := Nat.mod_lt (bits.toNat / 2 ^ 52) (by decide : 0 < 2 ^ 11)
    rw [if_neg hnonzero, one_mul] at *
    generalize bits.toNat / 2 ^ 52 % 2 ^ 11 = exponent at *
    exact scaled_range (by linarith) (by linarith) (by omega) (by omega)

theorem doubleRange_value {bits : UInt64} (hpos : (0 : ℝ) < doubleValue bits) :
    DoubleRange (doubleValue bits) := by
  obtain ⟨hlow, hhigh⟩ := doubleValue_range (Rat.cast_pos.mp hpos)
  have hcast (n : ℤ) : (2 : ℝ) ^ (n : ℝ) = (((2 : ℚ) ^ n : ℚ) : ℝ) := by
    rw [Real.rpow_intCast, Rat.cast_zpow, Rat.cast_ofNat]
  have hlow' : ((-1100 : ℤ) : ℝ) = -1100 := by norm_num
  have hhigh' : ((1100 : ℤ) : ℝ) = 1100 := by norm_num
  rw [DoubleRange, ← hlow', ← hhigh', hcast, hcast]
  exact ⟨Rat.cast_le.mpr hlow, Rat.cast_le.mpr hhigh⟩

/-- An exact medium; `Scale*sqrt(n)` is there for the sums 0 and 1. -/
noncomputable def Medium.exact : Medium where
  scaledSqrt scale n := if n = 0 then 0 else scale
  pathLoss distance frequency :=
    Int32.ofInt (towardZero (CWifi.loss (doubleValue distance : ℝ) frequency))
  freqAttr _ := none

theorem Medium.exact_exact : Medium.exact.Exact fun distance => (doubleValue distance : ℝ) where
  zero := by
    intro distance
    have hmask : (0x7FFFFFFFFFFFFFFF : UInt64).toNat = 2 ^ 63 - 1 := by decide
    rw [Rat.cast_eq_zero, doubleValue_eq_zero_iff, ← UInt64.toNat_inj, UInt64.toNat_and, hmask,
      Nat.and_two_pow_sub_one_eq_mod]
    rfl
  range := fun _ hpos => doubleRange_value hpos
  pathLoss := by
    intro distance frequency hpos hfrequency
    obtain ⟨hleast, hmost⟩ := CWifi.loss_bounds hpos (doubleRange_value hpos) hfrequency
    have hleast' := towardZero_mono hleast
    have hmost' := towardZero_mono hmost
    rw [towardZero_intCast] at hleast' hmost'
    exact Int32.toInt_ofInt_of_le (by omega) (by omega)

def entryAt (coo : CCoordinate) : Entry := ⟨⟨5, true⟩, CInfoWifi.default.set coo⟩

theorem distanceWith_entryAt (scale : TScale) (x : TValue) :
    CCoordinate.zero.distanceWith Medium.exact scale (entryAt ⟨x, 0, 0⟩).info.toCCoordinate =
      if (0 - x) * (0 - x) + (0 - 0) * (0 - 0) + (0 - 0) * (0 - 0) = 0 then 0 else scale := rfl

/-- One receiver at the sender, the other one a meter away. -/
theorem hearsAsWell_meter :
    HearsAsWell Medium.exact 0x3FF0000000000000 CCoordinate.zero (-50) []
      (entryAt ⟨0, 0, 0⟩) (entryAt ⟨1, 0, 0⟩) := by
  have hnear : doubleValue (CCoordinate.zero.distanceWith Medium.exact 0x3FF0000000000000
      (entryAt ⟨0, 0, 0⟩).info.toCCoordinate) = 0 := by
    rw [distanceWith_entryAt]
    decide +kernel
  have hfar : doubleValue (CCoordinate.zero.distanceWith Medium.exact 0x3FF0000000000000
      (entryAt ⟨1, 0, 0⟩).info.toCCoordinate) = 1 := by
    rw [distanceWith_entryAt]
    decide +kernel
  refine (hearsAsWell_iff Medium.exact_exact (by decide) ?_ ?_).mpr (.inr (.inr (.inr ?_)))
  · rw [hnear, Rat.cast_zero]
  · rw [hnear, hfar, Rat.cast_zero, Rat.cast_one]
    exact zero_le_one
  · have hle := Real.rpow_le_rpow_of_exponent_le (by norm_num : (1 : ℝ) ≤ 10)
      (by norm_num : (1.3275 : ℝ) ≤ (2 : Nat))
    have hfrequency : (CWifi.getFrequency Medium.exact []).toNat = 2412 := by decide
    rw [Real.rpow_natCast] at hle
    rw [hfar, hfrequency]
    norm_num at hle ⊢
    linarith

/-- With the scale 0.005 the receiver at the sender hears less than the one next to it. -/
theorem hearsAsWell_fails :
    doubleValue (CCoordinate.zero.distanceWith Medium.exact 0x3F747AE147AE147B
        (entryAt ⟨0, 0, 0⟩).info.toCCoordinate) <
      doubleValue (CCoordinate.zero.distanceWith Medium.exact 0x3F747AE147AE147B
        (entryAt ⟨1, 0, 0⟩).info.toCCoordinate) ∧
      ¬ HearsAsWell Medium.exact 0x3F747AE147AE147B CCoordinate.zero (-50) []
        (entryAt ⟨0, 0, 0⟩) (entryAt ⟨1, 0, 0⟩) := by
  have hvalue : doubleValue 0x3F747AE147AE147B = 5764607523034235 / 2 ^ 60 := by decide +kernel
  have hnear : CCoordinate.zero.distanceWith Medium.exact 0x3F747AE147AE147B
      (entryAt ⟨0, 0, 0⟩).info.toCCoordinate = 0 := by
    rw [distanceWith_entryAt]
    decide
  have hfar : CCoordinate.zero.distanceWith Medium.exact 0x3F747AE147AE147B
      (entryAt ⟨1, 0, 0⟩).info.toCCoordinate = 0x3F747AE147AE147B := by
    rw [distanceWith_entryAt]
    decide
  refine ⟨by rw [hnear, hfar]; decide +kernel, ?_⟩
  rw [hearsAsWell_iff_level, signalLevel, signalLevel, CWifi.boundedPower_le_iff, hnear, hfar]
  have hnone := @CWifi.attenuation_zero Medium.exact _ 0
    (CWifi.getFrequency Medium.exact []) Medium.exact_exact (by norm_num [doubleValue])
  have hneg := @CWifi.attenuation_neg_iff Medium.exact _ 0x3F747AE147AE147B
    (CWifi.getFrequency Medium.exact []) Medium.exact_exact (by decide)
    (by rw [hvalue]; norm_num)
  have hfrequency : (CWifi.getFrequency Medium.exact []).toNat = 2412 := by decide
  -- 13 to the fourth is less than 10 to the fifth
  have hfour : ((10 : ℝ) ^ (1.25 : ℝ)) ^ 4 = 100000 := by
    rw [← Real.rpow_natCast, ← Real.rpow_mul (by norm_num)]
    norm_num
  have hroot : (13 : ℝ) ≤ (10 : ℝ) ^ (1.25 : ℝ) := by
    apply le_of_pow_le_pow_left₀ (by norm_num : 4 ≠ 0) (by positivity)
    rw [hfour]
    norm_num
  have hle := Real.rpow_le_rpow_of_exponent_le (by norm_num : (1 : ℝ) ≤ 10)
    (by norm_num : (1.25 : ℝ) ≤ 1.3275)
  have hgain := hneg.mpr (by rw [hvalue, hfrequency]; norm_num; linarith)
  have hpower : (-50 : TPower).toInt = -50 := by decide
  have hmin : tPowerMin.toInt = -128 := by decide
  have hmax : tPowerMax.toInt = -10 := by decide
  rw [CWifi.toInt_sub_attenuation Medium.exact_exact (by decide) (by rw [hvalue]; norm_num),
    CWifi.toInt_sub_attenuation Medium.exact_exact (by decide) (by norm_num [doubleValue]), hnone,
     hpower, hmin, hmax, Int32.toInt_zero]
  omega

end Vwifi
