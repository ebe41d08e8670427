import Vwifi.Lib.Signed
import Vwifi.Signal

/-!
# The distance of two positions

`DistanceWith` takes the root of a sum of squares that it computes in 32 bits. The
sum is compared with the exact one: the two agree as long as the positions are not
too far apart, and what one expects of a distance holds as long as they agree.
-/

namespace Vwifi

set_option autoImplicit false

namespace CCoordinate

/-- What `DistanceWith` takes the root of. -/
def squareSum (a b : CCoordinate) : TValue :=
  (a.x - b.x) * (a.x - b.x) + (a.y - b.y) * (a.y - b.y) + (a.z - b.z) * (a.z - b.z)

theorem distanceWith_squareSum (medium : Medium) (scale : TScale) (a b : CCoordinate) :
    a.distanceWith medium scale b = medium.scaledSqrt scale (squareSum a b) := rfl

/-- The difference of one component, without a bound. -/
def difference (component : CCoordinate → TValue) (a b : CCoordinate) : Int :=
  (component a).toInt - (component b).toInt

/-- The square of the distance, without a bound. -/
def squaredDistance (a b : CCoordinate) : Int :=
  difference x a b ^ 2 + difference y a b ^ 2 + difference z a b ^ 2

/-- None of the eight operations of `squareSum` overflows. -/
structure NoOverflow (a b : CCoordinate) : Prop where
  difference : ∀ component ∈ [x, y, z],
    (component a - component b).toInt = (component a).toInt - (component b).toInt
  square : ∀ component ∈ [x, y, z],
    ((component a - component b) * (component a - component b)).toInt =
      (component a - component b).toInt * (component a - component b).toInt
  twoSquares : ((a.x - b.x) * (a.x - b.x) + (a.y - b.y) * (a.y - b.y)).toInt =
    ((a.x - b.x) * (a.x - b.x)).toInt + ((a.y - b.y) * (a.y - b.y)).toInt
  threeSquares : (squareSum a b).toInt =
    ((a.x - b.x) * (a.x - b.x) + (a.y - b.y) * (a.y - b.y)).toInt +
      ((a.z - b.z) * (a.z - b.z)).toInt

/-- In no component are `a'` and `b'` further apart than `a` and `b`. -/
def Nearer (a' b' a b : CCoordinate) : Prop :=
  ∀ component ∈ [x, y, z], |difference component a' b'| ≤ |difference component a b|

/-- The sum is the exact one, and it measures how far the two positions are apart. -/
structure Measures (a b : CCoordinate) : Prop where
  noOverflow : NoOverflow a b
  exact : (squareSum a b).toInt = squaredDistance a b
  symmetric : squareSum b a = squareSum a b
  zero : squareSum a b = 0 ↔ a = b
  grows : ∀ a' b', Nearer a' b' a b → squareSum a' b' ≤ squareSum a b
  growsStrictly : ∀ a' b', Nearer a' b' a b →
    (∃ component ∈ [x, y, z], |difference component a' b'| < |difference component a b|) →
      squareSum a' b' < squareSum a b

variable {a b a' b' : CCoordinate}

theorem squaredDistance_comm (a b : CCoordinate) : squaredDistance b a = squaredDistance a b := by
  have hflip : ∀ component, difference component b a ^ 2 = difference component a b ^ 2 := by
    intro component
    rw [← neg_sq, difference, difference, neg_sub]
  rw [squaredDistance, squaredDistance, hflip, hflip, hflip]

theorem difference_eq_zero {component : CCoordinate → TValue} :
    difference component a b = 0 ↔ component a = component b := by
  rw [difference, sub_eq_zero, Int32.toInt_inj]

theorem squaredDistance_eq_zero : squaredDistance a b = 0 ↔ a = b := by
  have hx := sq_nonneg (difference x a b)
  have hy := sq_nonneg (difference y a b)
  have hz := sq_nonneg (difference z a b)
  constructor
  · intro h
    rw [squaredDistance] at h
    have hx' := pow_eq_zero_iff (two_ne_zero) |>.mp (by omega : difference x a b ^ 2 = 0)
    have hy' := pow_eq_zero_iff (two_ne_zero) |>.mp (by omega : difference y a b ^ 2 = 0)
    have hz' := pow_eq_zero_iff (two_ne_zero) |>.mp (by omega : difference z a b ^ 2 = 0)
    rw [difference_eq_zero] at hx' hy' hz'
    cases a
    cases b
    cases hx'
    cases hy'
    cases hz'
    rfl
  · rintro rfl
    simp [squaredDistance, difference]

theorem squaredDistance_mono (h : Nearer a' b' a b) :
    squaredDistance a' b' ≤ squaredDistance a b := by
  have hle : ∀ component ∈ [x, y, z],
      difference component a' b' ^ 2 ≤ difference component a b ^ 2 := fun component hmem =>
    sq_le_sq.mpr (h component hmem)
  have hx := hle x (by simp)
  have hy := hle y (by simp)
  have hz := hle z (by simp)
  rw [squaredDistance, squaredDistance]
  omega

theorem squaredDistance_strictMono (h : Nearer a' b' a b)
    (hlt : ∃ component ∈ [x, y, z], |difference component a' b'| < |difference component a b|) :
    squaredDistance a' b' < squaredDistance a b := by
  have hle : ∀ component ∈ [x, y, z],
      difference component a' b' ^ 2 ≤ difference component a b ^ 2 := fun component hmem =>
    sq_le_sq.mpr (h component hmem)
  have hx := hle x (by simp)
  have hy := hle y (by simp)
  have hz := hle z (by simp)
  obtain ⟨component, hmem, hless⟩ := hlt
  have hsq := sq_lt_sq.mpr hless
  simp only [List.mem_cons, List.not_mem_nil, or_false] at hmem
  rw [squaredDistance, squaredDistance]
  rcases hmem with rfl | rfl | rfl
  · omega
  · omega
  · omega

/-- Where the exact sum fits, every operation on the way to it is exact. -/
theorem noOverflow_of_lt (h : squaredDistance a b < 2 ^ 31) :
    NoOverflow a b ∧ (squareSum a b).toInt = squaredDistance a b := by
  have hx := sq_nonneg (difference x a b)
  have hy := sq_nonneg (difference y a b)
  have hz := sq_nonneg (difference z a b)
  rw [squaredDistance] at h
  have hsmall : ∀ component ∈ [x, y, z], difference component a b ^ 2 < 2 ^ 31 := by
    intro component hmem
    simp only [List.mem_cons, List.not_mem_nil, or_false] at hmem
    rcases hmem with rfl | rfl | rfl
    · omega
    · omega
    · omega
  have hdifference : ∀ component ∈ [x, y, z],
      (component a - component b).toInt = difference component a b := fun component hmem =>
    Signed.toInt_sub_iff.mpr (Signed.fits_of_sq_lt (hsmall component hmem))
  have hsquare : ∀ component ∈ [x, y, z],
      ((component a - component b) * (component a - component b)).toInt =
        difference component a b ^ 2 := by
    intro component hmem
    have hlt := hsmall component hmem
    have hnonneg := sq_nonneg (difference component a b)
    have hmul := hdifference component hmem
    rw [sq] at hlt hnonneg ⊢
    rw [← hmul] at hlt hnonneg ⊢
    exact Signed.toInt_mul_iff.mpr ⟨by omega, hlt⟩
  have hx' := hsquare x (by simp)
  have hy' := hsquare y (by simp)
  have hz' := hsquare z (by simp)
  have htwo := @Signed.toInt_add_iff ((a.x - b.x) * (a.x - b.x)) ((a.y - b.y) * (a.y - b.y))
  rw [hx', hy'] at htwo
  have htwo' := htwo.mpr ⟨by omega, by omega⟩
  have hthree := @Signed.toInt_add_iff ((a.x - b.x) * (a.x - b.x) + (a.y - b.y) * (a.y - b.y))
    ((a.z - b.z) * (a.z - b.z))
  rw [htwo', hz'] at hthree
  have hthree' := hthree.mpr ⟨by omega, by omega⟩
  refine ⟨⟨hdifference, ?_, ?_, ?_⟩, hthree'⟩
  · intro component hmem
    rw [hsquare component hmem, hdifference component hmem, sq]
  · rw [htwo', hx', hy']
  · rw [squareSum, hthree', htwo', hz']

/-- The sum is exact, and measures the distance, exactly when the square of the
distance is less than 2^31. -/
theorem measures_iff (a b : CCoordinate) : Measures a b ↔ squaredDistance a b < 2 ^ 31 := by
  constructor
  · intro h
    rw [← h.exact]
    exact Int32.toInt_lt _
  · intro h
    obtain ⟨hnoOverflow, hexact⟩ := noOverflow_of_lt h
    refine ⟨hnoOverflow, hexact, ?_, ?_, ?_, ?_⟩
    · have hback := (noOverflow_of_lt (squaredDistance_comm a b ▸ h)).2
      rw [← Int32.toInt_inj, hback, hexact, squaredDistance_comm]
    · rw [← Int32.toInt_inj, hexact]
      exact squaredDistance_eq_zero
    · intro a' b' hnearer
      have hle := squaredDistance_mono hnearer
      have hexact' := (noOverflow_of_lt (lt_of_le_of_lt hle h)).2
      rw [Int32.le_iff_toInt_le, hexact, hexact']
      exact hle
    · intro a' b' hnearer hless
      have hlt := squaredDistance_strictMono hnearer hless
      have hexact' := (noOverflow_of_lt (lt_trans hlt h)).2
      rw [Int32.lt_iff_toInt_lt, hexact, hexact']
      exact hlt

/-- Two guests 65536 apart count as being at one place. -/
theorem measures_fails :
    squareSum ⟨0, 0, 0⟩ ⟨65536, 0, 0⟩ = 0 ∧ ¬ Measures ⟨0, 0, 0⟩ ⟨65536, 0, 0⟩ := by
  refine ⟨by decide, fun h => ?_⟩
  exact absurd h.exact (by decide)

end CCoordinate

end Vwifi
