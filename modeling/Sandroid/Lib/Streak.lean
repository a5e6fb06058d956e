import Mathlib.Data.List.Basic
import Mathlib.Order.Bounds.Basic

/-!
# Blocks of equal values and the counter that finds them

A block is a stretch of a list that holds one value only.  The first block of a
given length behind a position can be found online: a counter holds the length
of the current streak and is set back by every other value.  `Streak` is the
invariant of that counter.
-/

namespace Sandroid
namespace Lib

section Streak

variable {α : Type*} {l : List α} {b : α} {K p n run : Nat}

/-- The `k` values from `i` on are all `b`. -/
def Block (l : List α) (b : α) (i k : Nat) : Prop :=
  ∀ m, i ≤ m → m < i + k → l[m]? = some b

theorem block_zero (l : List α) (b : α) (i : Nat) : Block l b i 0 := by
  intro m hi hm
  omega

theorem Block.succ {i k : Nat} (h : Block l b i k) (hb : l[i + k]? = some b) :
    Block l b i (k + 1) := by
  intro m hi hm
  rcases Nat.lt_or_ge m (i + k) with hlt | hge
  · exact h m hi hlt
  · obtain rfl : m = i + k := by omega
    exact hb

theorem Block.mono {i k i' k' : Nat} (h : Block l b i k) (hi : i ≤ i')
    (hk : i' + k' ≤ i + k) : Block l b i' k' :=
  fun m hm hm' => h m (hi.trans hm) (by omega)

/-- After `n` values the counter stands at `run`, and from `p` on it has not yet
found a block of length `K`. -/
structure Streak (l : List α) (b : α) (K p n run : Nat) : Prop where
  le : p + run ≤ n
  lt : run < K
  block : Block l b (n - run) run
  before : ∀ i, p ≤ i → i + run < n → ¬ Block l b i K

theorem Streak.start (hK : 0 < K) (l : List α) (b : α) (n : Nat) : Streak l b K n n 0 where
  le := le_rfl
  lt := hK
  block := block_zero l b n
  before i hp hn := by omega

/-- No block that could still be found begins before the streak. -/
theorem Streak.not_block (h : Streak l b K p n run) (hb : l[n]? ≠ some b) {i : Nat} (hp : p ≤ i)
    (hn : i ≤ n) : ¬ Block l b i K := by
  intro hblock
  rcases Nat.lt_or_ge (i + run) n with hlt | hge
  · exact h.before i hp hlt hblock
  · have hlt := h.lt
    exact hb (hblock n hn (by omega))

theorem Streak.grown (h : Streak l b K p n run) (hb : l[n]? = some b) :
    Block l b (n - run) (run + 1) := by
  have hle := h.le
  apply h.block.succ
  rwa [Nat.sub_add_cancel (by omega)]

theorem Streak.same (h : Streak l b K p n run) (hb : l[n]? = some b) (hlt : run + 1 < K) :
    Streak l b K p (n + 1) (run + 1) where
  le := Nat.succ_le_succ h.le
  lt := hlt
  block := by
    rw [Nat.add_sub_add_right]
    exact h.grown hb
  before i hp hn := h.before i hp (by omega)

theorem Streak.other (h : Streak l b K p n run) (hb : l[n]? ≠ some b) :
    Streak l b K p (n + 1) 0 where
  le := by
    have hle := h.le
    omega
  lt := (Nat.zero_le _).trans_lt h.lt
  block := block_zero l b _
  before i hp hn := h.not_block hb hp (by omega)

/-- The counter reaches `K` at the first block. -/
theorem Streak.found (h : Streak l b K p n run) (hb : l[n]? = some b) (hK : K ≤ run + 1) :
    IsLeast {i | p ≤ i ∧ Block l b i K} (n - run) := by
  have hle := h.le
  have hlt := h.lt
  refine ⟨⟨by omega, (h.grown hb).mono le_rfl (by omega)⟩, ?_⟩
  rintro i ⟨hp, hblock⟩
  by_contra hi
  exact h.before i hp (by omega) hblock

/-- At the end of the list there is no block. -/
theorem Streak.none_left (h : Streak l b K p n run) (hn : l.length = n) :
    ∀ i, p ≤ i → ¬ Block l b i K := by
  intro i hp
  have hend : l[n]? ≠ some b := by
    rw [List.getElem?_eq_none hn.le]
    exact (Option.some_ne_none b).symm
  rcases Nat.lt_or_ge n i with hlt | hge
  · intro hblock
    have hK := (Nat.zero_le _).trans_lt h.lt
    have hi := hblock i le_rfl (by omega)
    rw [List.getElem?_eq_none (by omega)] at hi
    cases hi
  · exact h.not_block hend hp hge

end Streak

end Lib
end Sandroid
