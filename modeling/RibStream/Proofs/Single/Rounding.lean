/-
This file rounds numerals to singles, to the nearest one and with ties to the even bit pattern.
It proves that this is the only single that is nearest.
-/

import Mathlib.Data.Nat.Log
import Mathlib.Data.Rat.Floor
import RibStream.Proofs.Single.Nearest

namespace RibStream.Single

/-- The place of an infinity. Those after it belong to the NaNs. -/
def infinitePlace : Nat := 255 * 2 ^ 23

/-- How often the spacing has doubled below a magnitude. Up to twice the least normal number it has
not doubled yet. -/
def doublings (magnitude : ℚ) : Nat :=
  Nat.log 2 ⌊magnitude * 2 ^ 126⌋₊

/-- The place of the greatest magnitude that is not above the given one, as if there were no end to
the places. -/
def placeBelow (magnitude : ℚ) : Nat :=
  doublings magnitude * 2 ^ 23 + ⌊magnitude * 2 ^ 149 / 2 ^ doublings magnitude⌋₊

/-- The nearer one of the two places around a magnitude, and the even one of them in the middle. -/
def placeNear (magnitude : ℚ) : Nat :=
  let below := placeBelow magnitude
  let down := magnitude - magnitudeAt below
  let up := magnitudeAt (below + 1) - magnitude
  if down < up then below else if up < down then below + 1 else below + below % 2

/-- The single with the given sign whose magnitude is nearest. Everything beyond the greatest finite
number is drawn to the infinity. -/
def ofMagnitude (negative : Bool) (magnitude : ℚ) : Single :=
  ⟨UInt32.ofNat ((if negative then 2 ^ 31 else 0) + min (placeNear magnitude) infinitePlace)⟩

/-- A place that is not subnormal has a leading one in its significand. -/
theorem place_parts {doubled significand : Nat} (fits : significand < 2 ^ 24)
    (leading : doubled ≠ 0 → 2 ^ 23 ≤ significand) :
    significandAt (doubled * 2 ^ 23 + significand) = significand ∧
      powerAt (doubled * 2 ^ 23 + significand) = (doubled : Int) - 149 := by
  rw [significandAt, powerAt]
  constructor
  · split_ifs <;> omega
  · omega

/-- The number of doublings brings a magnitude to at most 24 bits before the point. -/
theorem scaled_bounds {magnitude : ℚ} (positive : 0 ≤ magnitude) :
    magnitude * 2 ^ 149 / 2 ^ doublings magnitude < 2 ^ 24 ∧
      (doublings magnitude ≠ 0 →
        2 ^ 23 ≤ magnitude * 2 ^ 149 / 2 ^ doublings magnitude) := by
  have scale : magnitude * 2 ^ 149 = magnitude * 2 ^ 126 * 2 ^ 23 := by ring
  have power : (0 : ℚ) < 2 ^ doublings magnitude := by positivity
  rw [div_lt_iff₀ power, le_div_iff₀ power, scale]
  constructor
  · have whole : ⌊magnitude * 2 ^ 126⌋₊ + 1 ≤ 2 ^ (doublings magnitude + 1) :=
      Nat.lt_pow_succ_log_self (by decide) _
    have bound : (⌊magnitude * 2 ^ 126⌋₊ + 1 : ℚ) ≤ 2 ^ (doublings magnitude + 1) := by
      exact_mod_cast whole
    have below := (Nat.lt_floor_add_one (magnitude * 2 ^ 126)).trans_le bound
    rw [pow_succ (2 : ℚ) (doublings magnitude)] at below
    linarith
  · intro doubled
    have nonzero : ⌊magnitude * 2 ^ 126⌋₊ ≠ 0 := by
      intro none
      rw [doublings, none, Nat.log_zero_right] at doubled
      exact doubled rfl
    have whole : 2 ^ doublings magnitude ≤ ⌊magnitude * 2 ^ 126⌋₊ :=
      Nat.pow_log_le_self 2 nonzero
    have bound : (2 ^ doublings magnitude : ℚ) ≤ ⌊magnitude * 2 ^ 126⌋₊ := by exact_mod_cast whole
    have above := bound.trans (Nat.floor_le (by positivity))
    linarith

/-- A magnitude lies between two neighbouring places. -/
theorem placeBelow_spec {magnitude : ℚ} (positive : 0 ≤ magnitude) :
    magnitudeAt (placeBelow magnitude) ≤ magnitude ∧
      magnitude < magnitudeAt (placeBelow magnitude + 1) := by
  obtain ⟨fits, leading⟩ := scaled_bounds positive
  have restored : magnitude = magnitude * 2 ^ 149 / 2 ^ doublings magnitude *
      2 ^ ((doublings magnitude : Int) - 149) := by
    rw [zpow_sub₀ (by norm_num), zpow_natCast]
    field_simp
  have step : (0 : ℚ) < 2 ^ ((doublings magnitude : Int) - 149) := zpow_pos (by norm_num) _
  have scaledPositive : 0 ≤ magnitude * 2 ^ 149 / 2 ^ doublings magnitude := by positivity
  rw [magnitudeAt_succ, spacing, magnitudeAt, placeBelow]
  generalize magnitude * 2 ^ 149 / 2 ^ doublings magnitude = scaled at *
  have whole := Nat.floor_le scaledPositive
  have next := Nat.lt_floor_add_one scaled
  have fitting : ⌊scaled⌋₊ < 2 ^ 24 := (Nat.floor_lt scaledPositive).mpr (by exact_mod_cast fits)
  have led : doublings magnitude ≠ 0 → 2 ^ 23 ≤ ⌊scaled⌋₊ :=
    fun doubled => Nat.le_floor (by exact_mod_cast leading doubled)
  obtain ⟨significand, power⟩ := place_parts fitting led
  rw [significand, power]
  generalize (2 : ℚ) ^ ((doublings magnitude : Int) - 149) = unit at restored step ⊢
  constructor
  · rw [restored]
    exact mul_le_mul_of_nonneg_right whole step.le
  · rw [restored]
    calc scaled * unit < (⌊scaled⌋₊ + 1) * unit := mul_lt_mul_of_pos_right next step
      _ = ⌊scaled⌋₊ * unit + unit := by ring

/-- No place is nearer to a magnitude than the two around it, and no other one is as near. -/
theorem distance_cases {magnitude : ℚ} {below : Nat} (least : magnitudeAt below ≤ magnitude)
    (greatest : magnitude < magnitudeAt (below + 1)) (other : Nat) :
    (magnitude - magnitudeAt below ≤ |magnitude - magnitudeAt other| ∧
      (magnitude - magnitudeAt below = |magnitude - magnitudeAt other| →
        magnitudeAt other = magnitudeAt below)) ∨
    (magnitudeAt (below + 1) - magnitude ≤ |magnitude - magnitudeAt other| ∧
      (magnitudeAt (below + 1) - magnitude = |magnitude - magnitudeAt other| →
        magnitudeAt other = magnitudeAt (below + 1))) := by
  rcases Nat.lt_or_ge below other with after | before
  · have order : magnitudeAt (below + 1) ≤ magnitudeAt other :=
      magnitudeAt_strictMono.monotone after
    right
    rw [abs_of_nonpos (by linarith)]
    exact ⟨by linarith, fun same => by linarith⟩
  · have order : magnitudeAt other ≤ magnitudeAt below := magnitudeAt_strictMono.monotone before
    left
    rw [abs_of_nonneg (by linarith)]
    exact ⟨by linarith, fun same => by linarith⟩

/-- The place is nearest among all those up to the given end, and one that is as near has the same
magnitude or gives way to an even one. -/
def IsNearestPlace (magnitude : ℚ) (last place : Nat) : Prop :=
  ∀ other ≤ last,
    |magnitude - magnitudeAt place| ≤ |magnitude - magnitudeAt other| ∧
      (|magnitude - magnitudeAt place| = |magnitude - magnitudeAt other| →
        magnitudeAt other = magnitudeAt place ∨ place % 2 = 0)

/-- The chosen one of the two places around a magnitude is nearest, whatever the end. -/
theorem isNearestPlace_placeNear {magnitude : ℚ} (positive : 0 ≤ magnitude) (last : Nat) :
    IsNearestPlace magnitude last (placeNear magnitude) := by
  obtain ⟨least, greatest⟩ := placeBelow_spec positive
  rw [placeNear]
  generalize placeBelow magnitude = below at least greatest ⊢
  have down : |magnitude - magnitudeAt below| = magnitude - magnitudeAt below :=
    abs_of_nonneg (sub_nonneg.mpr least)
  have up : |magnitude - magnitudeAt (below + 1)| = magnitudeAt (below + 1) - magnitude := by
    rw [abs_sub_comm]
    exact abs_of_pos (sub_pos.mpr greatest)
  intro other _
  have cases := distance_cases least greatest other
  rcases lt_trichotomy (magnitude - magnitudeAt below) (magnitudeAt (below + 1) - magnitude)
    with nearer | middle | further
  · rw [if_pos nearer, down]
    rcases cases with ⟨atLeast, same⟩ | ⟨atLeast, -⟩
    · exact ⟨atLeast, fun equal => .inl (same equal)⟩
    · exact ⟨nearer.le.trans atLeast, fun equal => absurd equal (nearer.trans_le atLeast).ne⟩
  · have chosen : |magnitude - magnitudeAt (below + below % 2)| =
        magnitude - magnitudeAt below := by
      rcases Nat.mod_two_eq_zero_or_one below with even | odd
      · rw [even, Nat.add_zero, down]
      · rw [odd, up, middle]
    rw [if_neg middle.not_lt, if_neg middle.not_gt, chosen]
    refine ⟨?_, fun _ => .inr (by omega)⟩
    rcases cases with ⟨atLeast, -⟩ | ⟨atLeast, -⟩
    · exact atLeast
    · exact middle.le.trans atLeast
  · rw [if_neg further.not_gt, if_pos further, up]
    rcases cases with ⟨atLeast, -⟩ | ⟨atLeast, same⟩
    · exact ⟨further.le.trans atLeast, fun equal => absurd equal (further.trans_le atLeast).ne⟩
    · exact ⟨atLeast, fun equal => .inl (same equal)⟩

theorem placeNear_le (magnitude : ℚ) : placeNear magnitude ≤ placeBelow magnitude + 1 := by
  rw [placeNear]
  split_ifs <;> omega

/-- If the nearest place is beyond the end, then the end is the nearest one up to it. -/
theorem isNearestPlace_min {magnitude : ℚ} (positive : 0 ≤ magnitude) (last : Nat) :
    IsNearestPlace magnitude last (min (placeNear magnitude) last) := by
  rcases le_or_gt (placeNear magnitude) last with inside | beyond
  · rw [Nat.min_eq_left inside]
    exact isNearestPlace_placeNear positive last
  · rw [Nat.min_eq_right beyond.le]
    have reached : last ≤ placeBelow magnitude := by
      have near := placeNear_le magnitude
      omega
    have above : magnitudeAt last ≤ magnitude :=
      (magnitudeAt_strictMono.monotone reached).trans (placeBelow_spec positive).1
    intro other before
    have order : magnitudeAt other ≤ magnitudeAt last := magnitudeAt_strictMono.monotone before
    rw [abs_of_nonneg (sub_nonneg.mpr above), abs_of_nonneg (sub_nonneg.mpr (order.trans above))]
    exact ⟨by linarith, fun equal => .inl (by linarith)⟩

theorem place_ofMagnitude (negative : Bool) (magnitude : ℚ) :
    (ofMagnitude negative magnitude).place = min (placeNear magnitude) infinitePlace := by
  have inside : min (placeNear magnitude) infinitePlace ≤ 255 * 2 ^ 23 := Nat.min_le_right _ _
  rw [place, ofMagnitude, UInt32.toNat_ofNat']
  split <;> omega

theorem isNegative_ofMagnitude (negative : Bool) (magnitude : ℚ) :
    (ofMagnitude negative magnitude).isNegative = negative := by
  have inside : min (placeNear magnitude) infinitePlace ≤ 255 * 2 ^ 23 := Nat.min_le_right _ _
  rw [isNegative, ofMagnitude, UInt32.toNat_ofNat']
  cases negative with
  | true =>
      rw [if_pos rfl, decide_eq_true_iff]
      omega
  | false =>
      rw [if_neg Bool.false_ne_true, decide_eq_false_iff_not]
      omega

end RibStream.Single

namespace RibStream.Numeral

theorem magnitude_nonneg (numeral : Numeral) : 0 ≤ numeral.magnitude := by
  rw [magnitude]
  positivity

/-- The single that a numeral is rounded to. -/
def round (numeral : Numeral) : Single :=
  .ofMagnitude numeral.negative numeral.magnitude

/-- Rounding gives the nearest single. -/
theorem isNearest_round (numeral : Numeral) : numeral.IsNearest numeral.round := by
  have place_eq : numeral.round.place = min (Single.placeNear numeral.magnitude) Single.infinitePlace :=
    Single.place_ofMagnitude _ _
  have nearest := Single.isNearestPlace_min numeral.magnitude_nonneg Single.infinitePlace
  rw [← place_eq] at nearest
  have bits : numeral.round.bits.toNat % 2 = numeral.round.place % 2 := by
    rw [Single.place]
    omega
  have bounded (other : Single) (number : other.isNaN = false) :
      other.place ≤ Single.infinitePlace := (Single.isNaN_eq_false_iff other).mp number
  refine ⟨?_, Single.isNegative_ofMagnitude _ _, ?_, ?_⟩
  · rw [Single.isNaN_eq_false_iff, place_eq]
    exact Nat.min_le_right _ _
  · intro other number
    rw [Single.magnitude_eq, Single.magnitude_eq]
    exact (nearest other.place (bounded other number)).1
  · intro other number equal
    rw [Single.magnitude_eq, Single.magnitude_eq] at equal ⊢
    rw [bits]
    exact (nearest other.place (bounded other number)).2 equal

/-- Every numeral has exactly one nearest single. -/
theorem isNearest_iff (numeral : Numeral) (value : Single) :
    numeral.IsNearest value ↔ value = numeral.round := by
  constructor
  · intro nearest
    exact nearest.unique numeral.isNearest_round
  · rintro rfl
    exact numeral.isNearest_round

end RibStream.Numeral
