import Mathlib.Algebra.Order.Round
import Mathlib.Data.Rat.Floor
import Mathlib.Tactic.Linarith

/-!
# Rounding a rational

Python's `round` to an integer, and the conversion to an integer that drops the fraction.
Both stay within integer bounds of their argument.
-/

namespace Sandroid
namespace Lib

/-- The nearest integer, the even one of two. -/
def roundHalfEven (q : ℚ) : Int :=
  let n := q.floor
  let r := q - n
  if r < 1 / 2 ∨ r = 1 / 2 ∧ n % 2 = 0 then n else n + 1

/-- The integer part, towards zero. -/
def truncate (q : ℚ) : Int :=
  if q < 0 then -⌊-q⌋ else ⌊q⌋

theorem roundHalfEven_cases (q : ℚ) :
    (roundHalfEven q = ⌊q⌋ ∧ q - ⌊q⌋ ≤ 1 / 2) ∨ (roundHalfEven q = ⌊q⌋ + 1 ∧ 1 / 2 ≤ q - ⌊q⌋) := by
  have hfloor : q.floor = ⌊q⌋ := rfl
  simp only [roundHalfEven, hfloor]
  split_ifs with h
  · refine Or.inl ⟨rfl, ?_⟩
    rcases h with h | h
    · exact h.le
    · exact h.1.le
  · rw [not_or, not_lt] at h
    exact Or.inr ⟨rfl, h.1⟩

@[simp] theorem roundHalfEven_intCast (n : Int) : roundHalfEven n = n := by
  rcases roundHalfEven_cases (n : ℚ) with ⟨hround, -⟩ | ⟨-, hr⟩
  · rw [hround, Int.floor_intCast]
  · rw [Int.floor_intCast, sub_self] at hr
    norm_num at hr

theorem truncate_of_nonneg {q : ℚ} (h : 0 ≤ q) : truncate q = ⌊q⌋ :=
  if_neg (not_lt.mpr h)

theorem truncate_of_neg {q : ℚ} (h : q < 0) : truncate q = -⌊-q⌋ :=
  if_pos h

@[simp] theorem truncate_intCast (n : Int) : truncate n = n := by
  rcases lt_or_ge (n : ℚ) 0 with h | h
  · rw [truncate_of_neg h, ← Int.cast_neg, Int.floor_intCast, neg_neg]
  · rw [truncate_of_nonneg h, Int.floor_intCast]

theorem truncate_mono {p q : ℚ} (h : p ≤ q) : truncate p ≤ truncate q := by
  rcases lt_or_ge p 0 with hp | hp
  · rcases lt_or_ge q 0 with hq | hq
    · rw [truncate_of_neg hp, truncate_of_neg hq]
      exact neg_le_neg (Int.floor_mono (neg_le_neg h))
    · rw [truncate_of_neg hp, truncate_of_nonneg hq]
      have hnonpos : -⌊-p⌋ ≤ 0 := neg_nonpos.mpr (Int.floor_nonneg.mpr (by linarith))
      exact hnonpos.trans (Int.floor_nonneg.mpr hq)
  · rw [truncate_of_nonneg hp, truncate_of_nonneg (hp.trans h)]
    exact Int.floor_mono h

/-- Dropping the fraction stays between integers. -/
theorem truncate_mem {q : ℚ} {lo hi : Int} (hlo : (lo : ℚ) ≤ q) (hhi : q ≤ hi) :
    lo ≤ truncate q ∧ truncate q ≤ hi := by
  have h₁ := truncate_mono hlo
  have h₂ := truncate_mono hhi
  rw [truncate_intCast] at h₁ h₂
  exact ⟨h₁, h₂⟩

end Lib
end Sandroid
