import Mathlib.Data.List.Basic
import Mathlib.Order.Lattice

/-!
# Tilings by half-open intervals

Lists of half-open intervals of a linear order, how often they cover a point,
and the lists that tile an interval: there every point is covered once.
-/

namespace Sandroid
namespace Lib

section Tiling

variable {α : Type*} [LinearOrder α] {lo mid hi k : α} {ivs ivs' : List (α × α)}

/-- The intervals follow each other without a gap from `lo` to `hi`. -/
inductive Tiles : α → List (α × α) → α → Prop
  | nil (lo : α) : Tiles lo [] lo
  | cons {lo mid hi : α} {ivs : List (α × α)} (hle : lo ≤ mid) (h : Tiles mid ivs hi) :
      Tiles lo ((lo, mid) :: ivs) hi

theorem Tiles.le (h : Tiles lo ivs hi) : lo ≤ hi := by
  induction h with
  | nil lo => exact le_rfl
  | cons hle _ ih => exact hle.trans ih

theorem Tiles.le_of_mem {iv : α × α} (h : Tiles lo ivs hi) (hiv : iv ∈ ivs) : iv.1 ≤ iv.2 := by
  induction h with
  | nil lo => exact absurd hiv List.not_mem_nil
  | cons hle _ ih =>
      rcases List.mem_cons.mp hiv with rfl | hiv
      · exact hle
      · exact ih hiv

theorem Tiles.append (h : Tiles lo ivs mid) (h' : Tiles mid ivs' hi) :
    Tiles lo (ivs ++ ivs') hi := by
  induction h with
  | nil lo => exact h'
  | cons hle _ ih => exact .cons hle (ih h')

theorem Tiles.singleton (hle : lo ≤ hi) : Tiles lo [(lo, hi)] hi :=
  .cons hle (.nil hi)

/-- How many of the intervals hold the point. -/
def coverCount (k : α) (ivs : List (α × α)) : Nat :=
  ivs.countP fun iv => iv.1 ≤ k ∧ k < iv.2

theorem coverCount_append (k : α) (ivs ivs' : List (α × α)) :
    coverCount k (ivs ++ ivs') = coverCount k ivs + coverCount k ivs' :=
  List.countP_append

theorem coverCount_cons (k i j : α) (ivs : List (α × α)) :
    coverCount k ((i, j) :: ivs) = (if i ≤ k ∧ k < j then 1 else 0) + coverCount k ivs := by
  rw [coverCount, List.countP_cons, coverCount, Nat.add_comm]
  simp

theorem coverCount_filter_singleton (k i j : α) (p : α × α → Bool) :
    coverCount k ([(i, j)].filter p) = if p (i, j) ∧ i ≤ k ∧ k < j then 1 else 0 := by
  cases hp : p (i, j) with
  | false =>
      rw [List.filter_cons_of_neg (by simp [hp])]
      simp [coverCount]
  | true =>
      rw [List.filter_cons_of_pos hp, List.filter_nil, coverCount_cons]
      simp [coverCount]

/-- A tiling covers its points once and no others. -/
theorem Tiles.coverCount (h : Tiles lo ivs hi) :
    coverCount k ivs = if lo ≤ k ∧ k < hi then 1 else 0 := by
  induction h with
  | nil lo =>
      rw [if_neg fun hk => absurd hk.1 (not_le.mpr hk.2)]
      rfl
  | @cons lo mid hi ivs hle hrest ih =>
      have hle' := hrest.le
      rw [coverCount_cons, ih]
      rcases lt_or_ge k mid with hk | hk
      · have hrest_no : ¬ (mid ≤ k ∧ k < hi) := fun hc => absurd hc.1 (not_le.mpr hk)
        rw [if_neg hrest_no, Nat.add_zero]
        by_cases hlo : lo ≤ k
        · rw [if_pos (And.intro hlo hk), if_pos (And.intro hlo (hk.trans_le hle'))]
        · rw [if_neg fun hc => hlo hc.1, if_neg fun hc => hlo hc.1]
      · have hfirst_no : ¬ (lo ≤ k ∧ k < mid) := fun hc => absurd hc.2 (not_lt.mpr hk)
        rw [if_neg hfirst_no, Nat.zero_add]
        by_cases hhi : k < hi
        · rw [if_pos (And.intro hk hhi), if_pos (And.intro (hle.trans hk) hhi)]
        · rw [if_neg fun hc => hhi hc.2, if_neg fun hc => hhi hc.2]

/-- The intervals lie between `lo` and `hi`. -/
def Between (lo : α) (ivs : List (α × α)) (hi : α) : Prop :=
  ∀ iv ∈ ivs, lo ≤ iv.1 ∧ iv.2 ≤ hi

theorem Between.mono {lo' hi' : α} (h : Between lo ivs hi) (hlo : lo' ≤ lo) (hhi : hi ≤ hi') :
    Between lo' ivs hi' :=
  fun iv hiv => ⟨hlo.trans (h iv hiv).1, (h iv hiv).2.trans hhi⟩

theorem Between.append (h : Between lo ivs hi) (h' : Between lo ivs' hi) :
    Between lo (ivs ++ ivs') hi := by
  intro iv hiv
  rcases List.mem_append.mp hiv with hiv | hiv
  · exact h iv hiv
  · exact h' iv hiv

theorem Between.sublist (h : Between lo ivs hi) (hsub : ivs'.Sublist ivs) :
    Between lo ivs' hi :=
  fun iv hiv => h iv (hsub.subset hiv)

/-- A point outside is not covered. -/
theorem Between.coverCount_eq_zero (h : Between lo ivs hi) (hk : k < lo ∨ hi ≤ k) :
    coverCount k ivs = 0 := by
  rw [coverCount, List.countP_eq_zero]
  intro iv hiv hholds
  obtain ⟨hle, hlt⟩ := of_decide_eq_true hholds
  obtain ⟨hlo, hhi⟩ := h iv hiv
  rcases hk with hk | hk
  · exact absurd (hk.trans_le hlo) (not_lt.mpr hle)
  · exact absurd (hlt.trans_le hhi) (not_lt.mpr hk)

end Tiling

end Lib
end Sandroid
