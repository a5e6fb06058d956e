import Sandroid.Core.Audio

/-!
# Resampling stays in range

`_resample_linear` reads its input at positions that go in even steps from the first sample
to the last.  Around each position it reads two neighbours and takes a value between them, so
no index is out of range, and the cast back to int16 has nothing to wrap.

With two equal rates the input is returned as it is; that is the same grid, one position for
each sample (`resampleLinear_eq`).
-/

namespace Sandroid
namespace Core

open Lib

section Grid

variable {stop num i : Nat}

theorem linspace_zero : linspace stop num 0 = 0 := by
  rw [linspace]
  split_ifs
  · rfl
  · rw [Nat.cast_zero, zero_mul, zero_div]

theorem linspace_le (h : i < num) : linspace stop num i ≤ stop := by
  rw [linspace]
  split_ifs with hone
  · exact Nat.cast_nonneg stop
  · have hpos : (0 : ℚ) < (num - 1 : Nat) := Nat.cast_pos.mpr (by omega)
    have hstep : (i : ℚ) ≤ (num - 1 : Nat) := Nat.cast_le.mpr (by omega)
    rw [div_le_iff₀ hpos, mul_comm (stop : ℚ)]
    exact mul_le_mul_of_nonneg_right hstep (Nat.cast_nonneg stop)

/-- The last of several positions is the last sample. -/
theorem linspace_last (h : 2 ≤ num) : linspace stop num (num - 1) = stop := by
  have hne : ((num - 1 : Nat) : ℚ) ≠ 0 := Nat.cast_ne_zero.mpr (by omega)
  rw [linspace, if_neg (by omega), mul_div_cancel_left₀ _ hne]

/-- As many positions as samples are the samples. -/
theorem linspace_self (h : i < num) : linspace (num - 1) num i = i := by
  rw [linspace]
  split_ifs with hone
  · have hzero : i = 0 := by omega
    rw [hzero, Nat.cast_zero]
  · have hne : ((num - 1 : Nat) : ℚ) ≠ 0 := Nat.cast_ne_zero.mpr (by omega)
    rw [mul_div_cancel_right₀ _ hne]

end Grid

/-- `value` comes from the samples `a` and `b` of the source.  The indices are those of NumPy,
where a negative one would count from the end. -/
structure Interpolates (samples : List Int) (position : ℚ) (value a b : Int) : Prop where
  floor_nonneg : 0 ≤ ⌊position⌋
  floor_read : samples[⌊position⌋.toNat]? = some a
  high_nonneg : 0 ≤ min (⌊position⌋ + 1) ((samples.length : Int) - 1)
  high_read : samples[(min (⌊position⌋ + 1) ((samples.length : Int) - 1)).toNat]? = some b
  value_eq : value = truncate (between a b position)
  exact_mem : ((min a b : Int) : ℚ) ≤ between a b position ∧
    between a b position ≤ (max a b : Int)
  value_mem : min a b ≤ value ∧ value ≤ max a b

section Sample

variable {samples : List Int} {position : ℚ}

/-- A position on the grid has two samples around it. -/
theorem interpolate_spec (hne : samples ≠ []) (hpos : 0 ≤ position)
    (hle : position ≤ (samples.length - 1 : Nat)) :
    ∃ a b, Interpolates samples position (interpolate samples position) a b := by
  have hlength : 0 < samples.length := List.length_pos_iff.mpr hne
  have hfloor₀ : 0 ≤ ⌊position⌋ := Int.floor_nonneg.mpr hpos
  have hfloor₁ : ⌊position⌋ ≤ (samples.length - 1 : Nat) := by
    rw [← Int.floor_natCast (R := ℚ)]
    exact Int.floor_mono hle
  obtain ⟨k, hk⟩ : ∃ k : Nat, ⌊position⌋ = k := ⟨_, (Int.toNat_of_nonneg hfloor₀).symm⟩
  rw [hk] at hfloor₁
  have hk' : k < samples.length := by omega
  have hhigh : min (k + 1) (samples.length - 1) < samples.length := by omega
  have hindex : (min ((k : Int) + 1) ((samples.length : Int) - 1)).toNat =
      min (k + 1) (samples.length - 1) := by
    omega
  refine ⟨samples[k], samples[min (k + 1) (samples.length - 1)], ?_⟩
  have hvalue := interpolate_eq samples hpos
  rw [hk, Int.toNat_natCast, List.getD_eq_getElem _ _ hk', List.getD_eq_getElem _ _ hhigh] at hvalue
  have hmem := between_mem ⟨min_le_left _ _, le_max_left _ _⟩
    ⟨min_le_right samples[k] samples[min (k + 1) (samples.length - 1)], le_max_right _ _⟩ position
  exact
    { floor_nonneg := hfloor₀
      floor_read := by rw [hk, Int.toNat_natCast, List.getElem?_eq_getElem hk']
      high_nonneg := by omega
      high_read := by rw [hk, hindex, List.getElem?_eq_getElem hhigh]
      value_eq := hvalue
      exact_mem := hmem
      value_mem := by
        rw [hvalue]
        exact truncate_mem hmem.1 hmem.2 }

/-- At a sample there is nothing to interpolate. -/
theorem interpolate_natCast {i : Nat} (h : i < samples.length) :
    interpolate samples (i : ℚ) = samples[i] := by
  rw [interpolate]
  simp only [Int.floor_natCast, Int.toNat_natCast, sub_self, sub_zero, mul_one, mul_zero, add_zero,
    truncate_intCast, List.getD_eq_getElem _ _ h]

end Sample

/-- `dst_count`. -/
def dstCount (samples : List Int) (srcRate dstRate : Nat) : Nat :=
  max 1 (roundHalfEven ((samples.length * dstRate : ℚ) / srcRate)).toNat

/-- What `_resample_linear` to 16 kHz makes of `samples`. -/
structure Resampled (samples : List Int) (srcRate : Nat) (resampled : List Int) : Prop where
  length_eq : resampled.length = dstCount samples srcRate targetSampleRate
  sample : ∀ (i : Nat) (hi : i < resampled.length), ∃ a b,
    Interpolates samples (linspace (samples.length - 1) resampled.length i) resampled[i] a b
  bounded : ∀ lo hi, (∀ x ∈ samples, lo ≤ x ∧ x ≤ hi) → ∀ y ∈ resampled, lo ≤ y ∧ y ≤ hi
  inRange : ∀ y ∈ resampled, InRange y
  first : resampled.head? = samples.head?
  last : 2 ≤ resampled.length → resampled.getLast? = samples.getLast?

section Run

variable {samples : List Int} {srcRate dstRate : Nat}

theorem dstCount_pos : 0 < dstCount samples srcRate dstRate := by
  rw [dstCount]
  omega

/-- A multiple of the rate asks for as many times the samples: from 8 kHz, for two of each. -/
theorem dstCount_mul (hne : samples ≠ []) (hrate : 0 < srcRate) {k : Nat} (hk : 0 < k) :
    dstCount samples srcRate (k * srcRate) = k * samples.length := by
  have hrate' : (srcRate : ℚ) ≠ 0 := Nat.cast_ne_zero.mpr hrate.ne'
  have hpos : 0 < k * samples.length := Nat.mul_pos hk (List.length_pos_iff.mpr hne)
  have hcast : (samples.length * (k * srcRate : Nat) : ℚ) / srcRate =
      ((k * samples.length : Nat) : Int) := by
    push_cast
    rw [← mul_assoc, mul_div_cancel_right₀ _ hrate', mul_comm]
  rw [dstCount, hcast, roundHalfEven_intCast, Int.toNat_natCast]
  omega

/-- Equal rates ask for the samples that there are. -/
theorem dstCount_self (hne : samples ≠ []) (hrate : 0 < srcRate) :
    dstCount samples srcRate srcRate = samples.length := by
  have h := dstCount_mul hne hrate Nat.one_pos
  rw [Nat.one_mul, Nat.one_mul] at h
  exact h

/-- One way to say it for all rates. -/
theorem resampleLinear_eq (hne : samples ≠ []) (hrate : 0 < srcRate) :
    resampleLinear samples srcRate dstRate =
      .ok ((List.range (dstCount samples srcRate dstRate)).map fun i =>
        interpolate samples
          (linspace (samples.length - 1) (dstCount samples srcRate dstRate) i)) := by
  rw [resampleLinear]
  by_cases hsame : srcRate = dstRate
  · subst hsame
    rw [if_pos rfl, dstCount_self hne hrate]
    congr 1
    refine List.ext_getElem (by simp) ?_
    intro i hi _
    rw [List.getElem_map, List.getElem_range, linspace_self hi, interpolate_natCast hi]
  · rw [if_neg hsame, if_neg hne, if_neg hrate.ne']
    simp only [dstCount, div_mul_eq_mul_div]

theorem interpolates_of_lt (hne : samples ≠ []) {count i : Nat} (hi : i < count) :
    ∃ a b, Interpolates samples (linspace (samples.length - 1) count i)
      (interpolate samples (linspace (samples.length - 1) count i)) a b :=
  interpolate_spec hne (linspace_nonneg _ _ _) (linspace_le hi)

/-- Between two samples is between all bounds of the samples. -/
theorem Interpolates.bounded {position : ℚ} {value a b lo hi : Int}
    (h : Interpolates samples position value a b) (hbounds : ∀ x ∈ samples, lo ≤ x ∧ x ≤ hi) :
    lo ≤ value ∧ value ≤ hi := by
  have ha := hbounds a (List.mem_of_getElem? h.floor_read)
  have hb := hbounds b (List.mem_of_getElem? h.high_read)
  have hvalue := h.value_mem
  omega

theorem interpolate_first (hne : samples ≠ []) (count : Nat) :
    some (interpolate samples (linspace (samples.length - 1) count 0)) = samples.head? := by
  have hlength : 0 < samples.length := List.length_pos_iff.mpr hne
  have hfirst := interpolate_natCast hlength
  rw [Nat.cast_zero] at hfirst
  rw [linspace_zero, hfirst, List.head?_eq_getElem?, List.getElem?_eq_getElem hlength]

theorem interpolate_last (hne : samples ≠ []) {count : Nat} (hcount : 2 ≤ count) :
    some (interpolate samples (linspace (samples.length - 1) count (count - 1))) =
      samples.getLast? := by
  have hlength : samples.length - 1 < samples.length :=
    Nat.sub_lt (List.length_pos_iff.mpr hne) Nat.one_pos
  rw [linspace_last hcount, interpolate_natCast hlength, List.getLast?_eq_getElem?,
    List.getElem?_eq_getElem hlength]

end Run

/-- Resampling reads valid indices only, keeps between the samples it reads, and keeps the ends
of the input. -/
theorem resampleLinear_in_range {samples : List Int} {srcRate : Nat} (hne : samples ≠ [])
    (hrange : ∀ x ∈ samples, InRange x) (hrate : 0 < srcRate) :
    ∃ resampled, resampleLinear samples srcRate targetSampleRate = .ok resampled ∧
      Resampled samples srcRate resampled := by
  obtain ⟨count, hcount⟩ : ∃ n, n = dstCount samples srcRate targetSampleRate := ⟨_, rfl⟩
  refine ⟨_, resampleLinear_eq hne hrate, ?_⟩
  have hpos : 0 < count := by
    rw [hcount]
    exact dstCount_pos
  rw [← hcount]
  have hbounded (lo hi : Int) (hbounds : ∀ x ∈ samples, lo ≤ x ∧ x ≤ hi) :
      ∀ y ∈ (List.range count).map fun i =>
        interpolate samples (linspace (samples.length - 1) count i), lo ≤ y ∧ y ≤ hi := by
    intro y hy
    obtain ⟨i, hi, rfl⟩ := List.mem_map.mp hy
    obtain ⟨a, b, h⟩ := interpolates_of_lt hne (List.mem_range.mp hi)
    exact h.bounded hbounds
  refine ⟨?_, ?_, hbounded, hbounded _ _ hrange, ?_, ?_⟩
  · rw [List.length_map, List.length_range, hcount]
  · intro i hi
    rw [List.length_map, List.length_range] at hi ⊢
    rw [List.getElem_map, List.getElem_range]
    exact interpolates_of_lt hne hi
  · rw [List.head?_map, List.head?_range, if_neg hpos.ne', Option.map_some]
    exact interpolate_first hne count
  · rw [List.length_map, List.length_range]
    intro htwo
    rw [List.getLast?_map, List.getLast?_range, if_neg hpos.ne', Option.map_some]
    exact interpolate_last hne htwo

/-- Down from 24 kHz: three samples of four. -/
theorem resampleLinear_in_range_three :
    ∃ resampled, resampleLinear [-32768, 7, 32767, -5] 24000 targetSampleRate = .ok resampled ∧
      Resampled [-32768, 7, 32767, -5] 24000 resampled :=
  resampleLinear_in_range (by decide) (by unfold InRange; decide) (by decide)

example : resampleLinear [-32768, 7, 32767, -5] 24000 16000 = .ok [-32768, 16387, -5] := by
  decide +kernel

end Core
end Sandroid
