import Mathlib.Data.List.Sort
import Mathlib.Order.Basic

/-!
# Rankings by score

Lists of items sorted by descending score, ties broken by ascending id, cut
after the first `n` items.  An item is kept by the cut exactly when fewer than
`n` items rank before it (`mem_take_iff_countP_lt`).  For two score functions on
one set of ids, the first `n` places agree exactly when every id whose score
differs is out of their reach under both (`take_ranking_eq_iff`).
-/

namespace Sandroid
namespace Lib

universe u v w

section Order

variable {κ : Type u} {σ : Type v} [LinearOrder κ] [LinearOrder σ]

/-- `a` stands strictly before `b` in a ranking. -/
def RanksBefore (a b : κ × σ) : Prop :=
  b.2 < a.2 ∨ a.2 = b.2 ∧ a.1 < b.1

/-- `a` may stand before `b` in a ranking. -/
def RanksAtLeast (a b : κ × σ) : Prop :=
  b.2 < a.2 ∨ a.2 = b.2 ∧ a.1 ≤ b.1

instance decidableRanksBefore (a b : κ × σ) : Decidable (RanksBefore a b) :=
  inferInstanceAs (Decidable (_ ∨ _))

instance decidableRanksAtLeast (a b : κ × σ) : Decidable (RanksAtLeast a b) :=
  inferInstanceAs (Decidable (_ ∨ _))

theorem ranksAtLeast_total (a b : κ × σ) : RanksAtLeast a b ∨ RanksAtLeast b a := by
  rcases lt_trichotomy a.2 b.2 with h | h | h
  · exact Or.inr (Or.inl h)
  · rcases le_total a.1 b.1 with hid | hid
    · exact Or.inl (Or.inr ⟨h, hid⟩)
    · exact Or.inr (Or.inr ⟨h.symm, hid⟩)
  · exact Or.inl (Or.inl h)

theorem ranksAtLeast_trans {a b c : κ × σ}
    (hab : RanksAtLeast a b) (hbc : RanksAtLeast b c) : RanksAtLeast a c := by
  rcases hab with hab | ⟨hab, hid⟩
  · rcases hbc with hbc | ⟨hbc, _⟩
    · exact Or.inl (hbc.trans hab)
    · exact Or.inl (hbc ▸ hab)
  · rcases hbc with hbc | ⟨hbc, hid'⟩
    · exact Or.inl (hab ▸ hbc)
    · exact Or.inr ⟨hab.trans hbc, hid.trans hid'⟩

theorem ranksAtLeast_antisymm {a b : κ × σ}
    (hab : RanksAtLeast a b) (hba : RanksAtLeast b a) : a = b := by
  rcases hab with hab | ⟨hab, hid⟩
  · rcases hba with hba | ⟨hba, _⟩
    · exact absurd hab hba.asymm
    · exact absurd hba hab.ne
  · rcases hba with hba | ⟨_, hid'⟩
    · exact absurd hab hba.ne
    · exact Prod.ext (hid.antisymm hid') hab

theorem ranksBefore_irrefl (a : κ × σ) : ¬ RanksBefore a a := by
  rintro (h | ⟨_, h⟩)
  · exact lt_irrefl _ h
  · exact lt_irrefl _ h

/-- Between different ids the ranking order is strict. -/
theorem ranksBefore_of_ranksAtLeast {a b : κ × σ} (hid : a.1 ≠ b.1)
    (h : RanksAtLeast a b) : RanksBefore a b := by
  rcases h with h | ⟨hs, h⟩
  · exact Or.inl h
  · exact Or.inr ⟨hs, lt_of_le_of_ne h hid⟩

theorem not_ranksBefore_of_ranksAtLeast {a b : κ × σ} (h : RanksAtLeast a b) :
    ¬ RanksBefore b a := by
  rintro (hba | ⟨hba, hid⟩)
  · rcases h with h | ⟨h, _⟩
    · exact h.asymm hba
    · exact hba.ne h
  · rcases h with h | ⟨_, h⟩
    · exact h.ne hba
    · exact absurd hid h.not_gt

theorem ranksAtLeast_of_not_ranksBefore {a b : κ × σ} (h : ¬ RanksBefore b a) :
    RanksAtLeast a b := by
  by_contra hab
  rcases ranksAtLeast_total a b with hle | hle
  · exact hab hle
  · rcases hle with hlt | ⟨hs, hid⟩
    · exact h (Or.inl hlt)
    · rcases hid.lt_or_eq with hlt | heq
      · exact h (Or.inr ⟨hs, hlt⟩)
      · exact hab (Or.inr ⟨hs.symm, heq.ge⟩)

theorem RanksBefore.ranksAtLeast {a b : κ × σ} (h : RanksBefore a b) : RanksAtLeast a b :=
  h.imp id fun hid => ⟨hid.1, hid.2.le⟩

theorem ranksBefore_asymm {a b : κ × σ} (hab : RanksBefore a b) : ¬ RanksBefore b a :=
  not_ranksBefore_of_ranksAtLeast hab.ranksAtLeast

end Order

section Sorting

variable {κ : Type u} {σ : Type v} [LinearOrder κ] [LinearOrder σ]
variable {α : Type w} (key : α → κ × σ)

/-- `sorted(l, key=lambda x: (-score(x), id(x)))`; the sort is stable. -/
def rankBy (l : List α) : List α :=
  l.insertionSort (fun a b => RanksAtLeast (key a) (key b))

theorem perm_rankBy (l : List α) : (rankBy key l).Perm l :=
  List.perm_insertionSort _ _

theorem pairwise_rankBy (l : List α) :
    (rankBy key l).Pairwise (fun a b => RanksAtLeast (key a) (key b)) := by
  have : Std.Total (fun a b : α => RanksAtLeast (key a) (key b)) :=
    ⟨fun a b => ranksAtLeast_total (key a) (key b)⟩
  have : IsTrans α (fun a b => RanksAtLeast (key a) (key b)) :=
    ⟨fun _ _ _ => ranksAtLeast_trans⟩
  exact List.pairwise_insertionSort _ _

variable {key}

/-- With an injective key, a ranking is determined by its items. -/
theorem rankBy_congr (hinj : Function.Injective key) {l₁ l₂ : List α}
    (h : l₁.Perm l₂) : rankBy key l₁ = rankBy key l₂ := by
  have hperm : (rankBy key l₁).Perm (rankBy key l₂) :=
    ((perm_rankBy key l₁).trans h).trans (perm_rankBy key l₂).symm
  refine hperm.eq_of_pairwise ?_ (pairwise_rankBy key l₁) (pairwise_rankBy key l₂)
  intro a b _ _ hab hba
  exact hinj (ranksAtLeast_antisymm hab hba)

/-- The keys of a ranking are the ranking of the keys. -/
theorem map_rankBy (key : α → κ × σ) (l : List α) :
    (rankBy key l).map key = rankBy id (l.map key) := by
  refine List.Perm.eq_of_pairwise (fun _ _ _ _ h h' => ranksAtLeast_antisymm h h')
    (List.pairwise_map.mpr (pairwise_rankBy _ _)) (pairwise_rankBy id _) ?_
  exact ((perm_rankBy _ _).map _).trans (perm_rankBy id _).symm

/-- Filtering a ranking ranks the filtered items. -/
theorem filter_rankBy (hinj : Function.Injective key) (p : α → Bool) (l : List α) :
    (rankBy key l).filter p = rankBy key (l.filter p) := by
  have hperm : ((rankBy key l).filter p).Perm (rankBy key (l.filter p)) :=
    ((perm_rankBy key l).filter p).trans (perm_rankBy key (l.filter p)).symm
  refine hperm.eq_of_pairwise ?_ ((pairwise_rankBy key l).filter p)
    (pairwise_rankBy key (l.filter p))
  intro a b _ _ hab hba
  exact hinj (ranksAtLeast_antisymm hab hba)

/-- If the first `n` items all satisfy `p`, filtering by `p` keeps them. -/
theorem take_filter_of_forall {p : α → Bool} :
    ∀ {n : Nat} {l : List α}, (∀ x, x ∈ l.take n → p x = true) →
      (l.filter p).take n = l.take n
  | 0, l, _ => by simp
  | n + 1, [], _ => rfl
  | n + 1, x :: l, h => by
      have hx : p x = true := h x List.mem_cons_self
      have hl : ∀ y, y ∈ l.take n → p y = true := by
        intro y hy
        exact h y (List.mem_cons_of_mem _ hy)
      rw [List.filter_cons_of_pos hx, List.take_succ_cons, List.take_succ_cons,
        take_filter_of_forall hl]

/-- In a strictly sorted list, the first `n` items are those with fewer than
`n` items before them. -/
theorem mem_take_iff_countP_lt {r : α → α → Prop} [DecidableRel r]
    (hirrefl : ∀ a, ¬ r a a) (hasymm : ∀ {a b}, r a b → ¬ r b a) {x : α} :
    ∀ {l : List α}, l.Pairwise r → x ∈ l → ∀ n : Nat,
      x ∈ l.take n ↔ l.countP (fun y => decide (r y x)) < n
  | a :: l, hsort, hx, 0 => by simp
  | a :: l, hsort, hx, n + 1 => by
      obtain ⟨hfirst, hsort'⟩ := List.pairwise_cons.mp hsort
      rcases List.mem_cons.mp hx with rfl | hxl
      · have hzero : (x :: l).countP (fun y => decide (r y x)) = 0 := by
          rw [List.countP_eq_zero]
          intro y hy
          rcases List.mem_cons.mp hy with rfl | hyl
          · simpa using hirrefl y
          · simpa using hasymm (hfirst y hyl)
        rw [hzero]
        simp
      · have hax : r a x := hfirst x hxl
        have hne : x ≠ a := by
          intro h
          rw [h] at hax
          exact hirrefl a hax
        rw [List.take_succ_cons, List.mem_cons, or_iff_right hne,
          mem_take_iff_countP_lt hirrefl hasymm hsort' hxl n,
          List.countP_cons_of_pos (by simpa using hax)]
        omega

end Sorting

section Places

variable {κ : Type u} {σ : Type v} [LinearOrder κ] [LinearOrder σ]

/-- The ids with a score above `t`, ranked. -/
def ranking (ids : List κ) (s : κ → σ) (t : σ) : List (κ × σ) :=
  rankBy id ((ids.map (fun j => (j, s j))).filter (fun x => t < x.2))

variable {ids ids' : List κ} {s s' : κ → σ} {t : σ}

/-- The places of a ranking go to the ids with a score above `t`. -/
theorem mem_ranking_iff {x : κ × σ} :
    x ∈ ranking ids s t ↔ x.1 ∈ ids ∧ x.2 = s x.1 ∧ t < s x.1 := by
  rw [ranking, (perm_rankBy id _).mem_iff, List.mem_filter, List.mem_map]
  constructor
  · rintro ⟨⟨j, hj, rfl⟩, ht⟩
    exact ⟨hj, rfl, by simpa using ht⟩
  · rintro ⟨hj, hx, ht⟩
    exact ⟨⟨x.1, hj, Prod.ext rfl hx.symm⟩, by simpa [hx] using ht⟩

/-- A ranking does not depend on the order of the ids. -/
theorem ranking_perm (h : ids.Perm ids') (s : κ → σ) (t : σ) :
    ranking ids s t = ranking ids' s t :=
  rankBy_congr Function.injective_id ((h.map _).filter _)

theorem ranking_congr (h : ∀ i, i ∈ ids → s i = s' i) : ranking ids s t = ranking ids s' t := by
  have hmap : ids.map (fun j => (j, s j)) = ids.map (fun j => (j, s' j)) := by
    apply List.map_congr_left
    intro j hj
    rw [h j hj]
  rw [ranking, ranking, hmap]

theorem nodup_ranking (hids : ids.Nodup) (s : κ → σ) (t : σ) :
    ((ranking ids s t).map Prod.fst).Nodup := by
  have hsub := (List.filter_sublist (p := fun x : κ × σ => decide (t < x.2))
    (l := ids.map (fun j => (j, s j)))).map Prod.fst
  have hfst : (ids.map (fun j => (j, s j))).map Prod.fst = ids := by
    rw [List.map_map]
    exact List.map_id ids
  rw [hfst] at hsub
  exact ((perm_rankBy id _).map Prod.fst).nodup_iff.mpr (hids.sublist hsub)

/-- The places of a ranking of distinct ids are strictly ordered. -/
theorem pairwise_ranking (hids : ids.Nodup) (s : κ → σ) (t : σ) :
    (ranking ids s t).Pairwise RanksBefore := by
  refine (List.Pairwise.and (pairwise_rankBy id _)
    (List.pairwise_map.mp (nodup_ranking hids s t))).imp ?_
  intro a b h
  exact ranksBefore_of_ranksAtLeast h.2 h.1

/-- A strictly ordered list is the ranking of its members. -/
theorem ranking_eq_of_mem_iff (hids : ids.Nodup) {l : List (κ × σ)}
    (hl : l.Pairwise RanksBefore)
    (hmem : ∀ x, x ∈ l ↔ x.1 ∈ ids ∧ x.2 = s x.1 ∧ t < s x.1) : ranking ids s t = l := by
  have hne {x y : κ × σ} (h : RanksBefore x y) : x ≠ y := by
    intro heq
    rw [heq] at h
    exact ranksBefore_irrefl y h
  have hperm : (ranking ids s t).Perm l := by
    refine (List.perm_ext_iff_of_nodup ((pairwise_ranking hids s t).imp hne) (hl.imp hne)).mpr ?_
    intro x
    rw [mem_ranking_iff, hmem]
  refine hperm.eq_of_pairwise ?_ (pairwise_ranking hids s t) hl
  intro a b _ _ hab hba
  exact absurd hba (ranksBefore_asymm hab)

end Places

section ScoreFunctions

variable {κ : Type u} {σ : Type v} [LinearOrder κ] [LinearOrder σ]

/-- The first `n` places have no room for `i`. -/
def OutOfReach (ids : List κ) (s : κ → σ) (t : σ) (n : Nat) (i : κ) : Prop :=
  s i ≤ t ∨ n ≤ ids.countP (fun j => decide (RanksBefore (j, s j) (i, s i)))

variable {ids : List κ} (hids : ids.Nodup) (s s' : κ → σ) (t : σ)
include hids

theorem mem_take_ranking_iff (n : Nat) (x : κ × σ) :
    x ∈ (ranking ids s t).take n ↔
      x.1 ∈ ids ∧ x.2 = s x.1 ∧ ¬ OutOfReach ids s t n x.1 := by
  have hcut (hx : x ∈ ranking ids s t) : x ∈ (ranking ids s t).take n ↔
      ids.countP (fun j => decide (RanksBefore (j, s j) (x.1, s x.1))) < n := by
    obtain ⟨-, hs, ht⟩ := mem_ranking_iff.mp hx
    rw [mem_take_iff_countP_lt ranksBefore_irrefl ranksBefore_asymm (pairwise_ranking hids s t) hx,
      ranking, (perm_rankBy id _).countP_eq, List.countP_filter, List.countP_map]
    have habove {j : κ} (hj : RanksBefore (j, s j) x) : t < s j := by
      rw [← hs] at ht
      rcases hj with hj | ⟨hj, _⟩
      · exact ht.trans hj
      · exact lt_of_lt_of_eq ht hj.symm
    refine iff_of_eq (congrArg (· < n) (List.countP_congr ?_))
    intro j _
    rw [Function.comp_apply, Bool.and_eq_true, decide_eq_true_eq, decide_eq_true_eq,
      decide_eq_true_eq, ← hs]
    exact ⟨And.left, fun hj => ⟨hj, habove hj⟩⟩
  constructor
  · intro hx
    have hplace := List.mem_of_mem_take hx
    obtain ⟨hid, hs, ht⟩ := mem_ranking_iff.mp hplace
    refine ⟨hid, hs, ?_⟩
    rw [OutOfReach, not_or, not_le, not_le]
    exact ⟨ht, (hcut hplace).mp hx⟩
  · rintro ⟨hid, hs, hreach⟩
    rw [OutOfReach, not_or, not_le, not_le] at hreach
    exact (hcut (mem_ranking_iff.mpr ⟨hid, hs, hreach.1⟩)).mpr hreach.2

/-- **Two score functions give the same first `n` places exactly when every id
they score differently is out of reach for both.** -/
theorem take_ranking_eq_iff (n : Nat) :
    (ranking ids s t).take n = (ranking ids s' t).take n ↔
      ∀ i, i ∈ ids → s i ≠ s' i → OutOfReach ids s t n i ∧ OutOfReach ids s' t n i := by
  constructor
  · intro heq i hi hne
    constructor
    · by_contra hreach
      have hmem := (mem_take_ranking_iff hids s t n (i, s i)).mpr ⟨hi, rfl, hreach⟩
      rw [heq] at hmem
      exact hne ((mem_take_ranking_iff hids s' t n (i, s i)).mp hmem).2.1
    · by_contra hreach
      have hmem := (mem_take_ranking_iff hids s' t n (i, s' i)).mpr ⟨hi, rfl, hreach⟩
      rw [← heq] at hmem
      exact hne ((mem_take_ranking_iff hids s t n (i, s' i)).mp hmem).2.1.symm
  · intro h
    have hkept : ∀ x, x ∈ (ranking ids s t).take n → decide (s x.1 = s' x.1) = true := by
      intro x hx
      obtain ⟨hi, _, hreach⟩ := (mem_take_ranking_iff hids s t n x).mp hx
      by_contra hne
      exact hreach (h x.1 hi (by simpa using hne)).1
    have hkept' : ∀ x, x ∈ (ranking ids s' t).take n → decide (s x.1 = s' x.1) = true := by
      intro x hx
      obtain ⟨hi, _, hreach⟩ := (mem_take_ranking_iff hids s' t n x).mp hx
      by_contra hne
      exact hreach (h x.1 hi (by simpa using hne)).2
    rw [← take_filter_of_forall hkept, ← take_filter_of_forall hkept']
    unfold ranking
    rw [filter_rankBy Function.injective_id, filter_rankBy Function.injective_id]
    congr 2
    simp only [List.filter_map, List.filter_filter]
    have hfilter : ids.filter (fun j => decide (s j = s' j) && decide (t < s j)) =
        ids.filter (fun j => decide (s j = s' j) && decide (t < s' j)) := by
      apply List.filter_congr
      intro j _
      by_cases hj : s j = s' j
      · simp [hj]
      · simp [hj]
    show List.map _ (ids.filter (fun j => decide (s j = s' j) && decide (t < s j))) =
      List.map _ (ids.filter (fun j => decide (s j = s' j) && decide (t < s' j)))
    rw [← hfilter]
    apply List.map_congr_left
    intro j hj
    have hj := (List.mem_filter.mp hj).2
    rw [Bool.and_eq_true, decide_eq_true_eq] at hj
    rw [hj.1]

end ScoreFunctions

section Raise

variable {κ : Type u} {σ : Type v} [LinearOrder κ] [LinearOrder σ]

/-- The place where `x` goes into a ranked list. -/
def insertionPlace (x : κ × σ) (l : List (κ × σ)) : Nat :=
  (l.takeWhile (fun y => decide (¬ RanksAtLeast x y))).length

theorem insertionPlace_le_length (x : κ × σ) (l : List (κ × σ)) :
    insertionPlace x l ≤ l.length :=
  (List.takeWhile_prefix _).length_le

theorem orderedInsert_eq_insertionPlace (x : κ × σ) (l : List (κ × σ)) :
    l.orderedInsert RanksAtLeast x =
      l.take (insertionPlace x l) ++ x :: l.drop (insertionPlace x l) := by
  induction l with
  | nil => rfl
  | cons y l ih =>
      rw [List.orderedInsert_cons, insertionPlace, List.takeWhile_cons]
      by_cases h : RanksAtLeast x y
      · simp [h]
      · rw [insertionPlace] at ih
        simp [h, ih]

/-- What ranks higher goes in no later. -/
theorem insertionPlace_le {x x' : κ × σ} (h : RanksAtLeast x' x) (l : List (κ × σ)) :
    insertionPlace x' l ≤ insertionPlace x l := by
  induction l with
  | nil => exact le_rfl
  | cons y l ih =>
      simp only [insertionPlace, List.takeWhile_cons] at ih ⊢
      by_cases hy : RanksAtLeast x y
      · simp [hy, ranksAtLeast_trans h hy]
      · by_cases hy' : RanksAtLeast x' y
        · simp [hy']
        · simpa [hy, hy'] using ih

variable {ids : List κ} {s s' : κ → σ} {t : σ} {b : κ}

/-- Ranking the other ids first and then inserting `b`. -/
theorem ranking_eq_insert (hb : b ∈ ids) :
    ranking ids s t =
      if t < s b then (ranking (ids.erase b) s t).orderedInsert RanksAtLeast (b, s b)
      else ranking (ids.erase b) s t := by
  rw [ranking_perm (List.perm_cons_erase hb) s t, ranking, List.map_cons, List.filter_cons]
  by_cases h : t < s b
  · rw [if_pos (by simpa using h), if_pos h]
    rfl
  · rw [if_neg (by simpa using h), if_neg h]
    rfl

variable (hids : ids.Nodup)
include hids

theorem fst_ne_of_mem_others {x : κ × σ} (hx : x ∈ ranking (ids.erase b) s t) : x.1 ≠ b := by
  intro heq
  have hmem := (mem_ranking_iff.mp hx).1
  rw [heq] at hmem
  exact hids.not_mem_erase hmem

variable (hb : b ∈ ids)
include hb

/-- Where `b` stands in the ranking. -/
theorem getElem?_ranking_iff (k : Nat) :
    (ranking ids s t)[k]? = some (b, s b) ↔
      t < s b ∧ k = insertionPlace (b, s b) (ranking (ids.erase b) s t) := by
  by_cases ht : t < s b
  · have hplace : (ranking ids s t)[insertionPlace (b, s b) (ranking (ids.erase b) s t)]? =
        some (b, s b) := by
      rw [ranking_eq_insert hb, if_pos ht, orderedInsert_eq_insertionPlace,
        List.getElem?_append_right (by simp)]
      simp [insertionPlace_le_length]
    constructor
    · intro hk
      refine ⟨ht, ?_⟩
      have hlt := (List.getElem?_eq_some_iff.mp hk).1
      have hnodup := List.Nodup.of_map _ (nodup_ranking hids s t)
      exact (List.getElem?_inj hlt hnodup).mp (hk.trans hplace.symm)
    · rintro ⟨_, rfl⟩
      exact hplace
  · constructor
    · intro hk
      exact absurd (mem_ranking_iff.mp (List.mem_of_getElem? hk)).2.2 ht
    · intro h
      exact absurd h.1 ht

/-- The other ids in the first `n` places: `b` takes one of them if it stands there. -/
theorem filter_take_ranking (n : Nat) :
    ((ranking ids s t).take n).filter (fun x => decide (x.1 ≠ b)) =
      (ranking (ids.erase b) s t).take
        (if t < s b ∧ insertionPlace (b, s b) (ranking (ids.erase b) s t) < n then n - 1
          else n) := by
  have hkeep {l : List (κ × σ)} (hl : ∀ x, x ∈ l → x ∈ ranking (ids.erase b) s t) :
      l.filter (fun x => decide (x.1 ≠ b)) = l := by
    rw [List.filter_eq_self]
    intro x hx
    exact decide_eq_true (fst_ne_of_mem_others hids (hl x hx))
  rw [ranking_eq_insert hb]
  by_cases ht : t < s b
  · rw [if_pos ht, orderedInsert_eq_insertionPlace]
    generalize hL : ranking (ids.erase b) s t = L at hkeep ⊢
    have hp := insertionPlace_le_length (b, s b) L
    generalize insertionPlace (b, s b) L = p at hp ⊢
    by_cases hn : p < n
    · rw [if_pos ⟨ht, hn⟩]
      obtain ⟨d, rfl⟩ := Nat.exists_eq_add_of_lt hn
      have htake : (L.take p ++ (b, s b) :: L.drop p).take (p + d + 1) =
          L.take p ++ (b, s b) :: (L.drop p).take d := by
        rw [List.take_append, List.length_take, min_eq_left hp,
          List.take_of_length_le (by simp; omega),
          show p + d + 1 - p = d + 1 by omega, List.take_succ_cons]
      rw [htake, List.filter_append, List.filter_cons_of_neg (by simp),
        hkeep (fun x hx => List.mem_of_mem_take hx),
        hkeep (fun x hx => List.mem_of_mem_drop (List.mem_of_mem_take hx)), ← List.take_add]
      rfl
    · rw [if_neg (fun h => hn h.2), List.take_append_of_le_length (by simp; omega),
        List.take_take, min_eq_left (by omega)]
      exact hkeep (fun x hx => List.mem_of_mem_take hx)
  · rw [if_neg ht, if_neg (fun h => ht h.1)]
    exact hkeep (fun x hx => List.mem_of_mem_take hx)

/-- **Raising the score of one id.**  It moves up, if it moves at all, and the
first `n` places keep the others in order, without new ones. -/
theorem take_ranking_raise (hoff : ∀ j, j ≠ b → s j = s' j) (hle : s b ≤ s' b) (n : Nat) :
    (∀ k : Nat, ((ranking ids s t).take n)[k]? = some (b, s b) →
      ∃ k' : Nat, k' ≤ k ∧ ((ranking ids s' t).take n)[k']? = some (b, s' b)) ∧
    ((ranking ids s' t).take n).filter (fun x => decide (x.1 ≠ b)) <+:
      ((ranking ids s t).take n).filter (fun x => decide (x.1 ≠ b)) := by
  have hothers : ranking (ids.erase b) s' t = ranking (ids.erase b) s t := by
    apply ranking_congr
    intro j hj
    refine (hoff j ?_).symm
    rintro rfl
    exact hids.not_mem_erase hj
  have hup : RanksAtLeast (b, s' b) (b, s b) := by
    rcases hle.lt_or_eq with h | h
    · exact Or.inl h
    · exact Or.inr ⟨h.symm, le_rfl⟩
  have hplace := insertionPlace_le hup (ranking (ids.erase b) s t)
  constructor
  · intro k hk
    rw [List.getElem?_take] at hk
    split_ifs at hk with hkn
    obtain ⟨ht, rfl⟩ := (getElem?_ranking_iff hids hb k).mp hk
    refine ⟨_, hplace, ?_⟩
    rw [List.getElem?_take, if_pos (hplace.trans_lt hkn), getElem?_ranking_iff hids hb, hothers]
    exact ⟨ht.trans_le hle, rfl⟩
  · rw [filter_take_ranking hids hb, filter_take_ranking hids hb, hothers]
    apply List.take_prefix_take_left
    split_ifs with h h' h'
    · exact le_rfl
    · exact Nat.sub_le _ _
    · exact absurd ⟨h'.1.trans_le hle, hplace.trans_lt h'.2⟩ h
    · exact le_rfl

end Raise

section Repeated

variable {κ : Type u} {σ : Type v} [LinearOrder κ] [LinearOrder σ]

/-- Two items with one id, and at most `n - 2` others before the lower of them. -/
def Crowded (items : List (κ × σ)) (n : Nat) : Prop :=
  ∃ a b rest, items.Perm (a :: b :: rest) ∧ a.1 = b.1 ∧ RanksAtLeast a b ∧
    rest.countP (fun y => decide (RanksBefore y b)) + 2 ≤ n

/-- Items with an id each are not crowded. -/
theorem not_crowded_of_nodup {items : List (κ × σ)} (h : (items.map Prod.fst).Nodup) (n : Nat) :
    ¬ Crowded items n := by
  rintro ⟨a, b, rest, hperm, hid, -, -⟩
  have hnodup := (hperm.map Prod.fst).nodup_iff.mp h
  simp [hid] at hnodup

section Sorted

variable {l items : List (κ × σ)} (hsort : l.Pairwise RanksAtLeast) (hperm : l.Perm items)
include hsort hperm

/-- The sorted items, written out around one of them. -/
theorem eq_rankBy_append {a b : κ × σ} {rest : List (κ × σ)}
    (hitems : items.Perm (a :: b :: rest)) (hab : RanksAtLeast a b) :
    l = rankBy id (a :: rest.filter (fun y => decide (RanksBefore y b))) ++
      b :: rankBy id (rest.filter (fun y => !decide (RanksBefore y b))) := by
  generalize hfirst : rankBy id (a :: rest.filter (fun y => decide (RanksBefore y b))) = first
  generalize hlast : rankBy id (rest.filter (fun y => !decide (RanksBefore y b))) = last
  have hpfirst : first.Perm (a :: rest.filter (fun y => decide (RanksBefore y b))) :=
    hfirst ▸ perm_rankBy id _
  have hplast : last.Perm (rest.filter (fun y => !decide (RanksBefore y b))) :=
    hlast ▸ perm_rankBy id _
  have hall : l.Perm (first ++ b :: last) := by
    refine (hperm.trans hitems).trans ?_
    refine .trans ?_ (List.Perm.append hpfirst (hplast.cons b)).symm
    refine .cons a (.trans ?_ List.perm_middle.symm)
    exact ((List.filter_append_perm _ rest).symm).cons b
  refine hall.eq_of_pairwise (fun _ _ _ _ h h' => ranksAtLeast_antisymm h h') hsort ?_
  have hbefore : ∀ y, y ∈ first → RanksAtLeast y b := by
    intro y hy
    rcases List.mem_cons.mp (hpfirst.mem_iff.mp hy) with rfl | hy
    · exact hab
    · have hy : RanksBefore y b := by simpa using (List.mem_filter.mp hy).2
      exact hy.ranksAtLeast
  have hafter : ∀ y, y ∈ last → RanksAtLeast b y := by
    intro y hy
    apply ranksAtLeast_of_not_ranksBefore
    simpa using (List.mem_filter.mp (hplast.mem_iff.mp hy)).2
  refine List.pairwise_append.mpr ⟨hfirst ▸ pairwise_rankBy id _,
    List.pairwise_cons.mpr ⟨hafter, hlast ▸ pairwise_rankBy id _⟩, ?_⟩
  intro y hy z hz
  rcases List.mem_cons.mp hz with rfl | hz
  · exact hbefore y hy
  · exact ranksAtLeast_trans (hbefore y hy) (hafter z hz)

theorem not_nodup_take_of_crowded {n : Nat} (h : Crowded items n) :
    ¬ ((l.take n).map Prod.fst).Nodup := by
  intro hnodup
  obtain ⟨a, b, rest, hitems, hid, hab, hcount⟩ := h
  have hl := eq_rankBy_append hsort hperm hitems hab
  have hpfirst := perm_rankBy id (a :: rest.filter (fun y => decide (RanksBefore y b)))
  generalize rankBy id (a :: rest.filter (fun y => decide (RanksBefore y b))) = first
    at hl hpfirst
  have hlen : first.length + 1 ≤ n := by
    rw [hpfirst.length_eq, List.length_cons, ← List.countP_eq_length_filter]
    exact hcount
  have hsub : (first ++ [b]).Sublist (l.take n) := by
    rw [List.append_cons] at hl
    rw [hl, List.take_append, List.take_of_length_le (by simpa using hlen)]
    exact List.sublist_append_left _ _
  have hnodup := (hsub.map Prod.fst).nodup hnodup
  rw [List.map_append, List.nodup_append] at hnodup
  exact hnodup.2.2 a.1 (List.mem_map_of_mem (hpfirst.mem_iff.mpr List.mem_cons_self)) b.1
    (by simp) hid

theorem crowded_of_sublist {n : Nat} {a b : κ × σ} (hab : [a, b].Sublist (l.take n))
    (hid : a.1 = b.1) : Crowded items n := by
  obtain ⟨rest, hrest⟩ := hab.exists_perm_append
  have hsplit : (l.take n).Pairwise RanksAtLeast ∧ (l.drop n).Pairwise RanksAtLeast ∧
      ∀ y, y ∈ l.take n → ∀ z, z ∈ l.drop n → RanksAtLeast y z := by
    rw [← List.pairwise_append, List.take_append_drop]
    exact hsort
  refine ⟨a, b, rest ++ l.drop n, ?_, hid, ?_, ?_⟩
  · have hcut := hrest.append_right (l.drop n)
    rw [List.take_append_drop] at hcut
    exact hperm.symm.trans hcut
  · simpa using hsplit.1.sublist hab
  · have hafter : (l.drop n).countP (fun y => decide (RanksBefore y b)) = 0 := by
      rw [List.countP_eq_zero]
      intro y hy
      have hb : b ∈ l.take n := hab.subset (by simp)
      simpa using not_ranksBefore_of_ranksAtLeast (hsplit.2.2 b hb y hy)
    have hlen := hrest.length_eq
    have hcount := List.countP_le_length (p := fun y => decide (RanksBefore y b)) (l := rest)
    rw [List.countP_append, hafter]
    simp at hlen
    omega

/-- The first `n` places of sorted items repeat an id exactly when the items
are crowded. -/
theorem nodup_take_iff_not_crowded (n : Nat) :
    ((l.take n).map Prod.fst).Nodup ↔ ¬ Crowded items n := by
  constructor
  · intro hnodup hcrowded
    exact not_nodup_take_of_crowded hsort hperm hcrowded hnodup
  · intro hcrowded
    rw [List.nodup_iff_sublist]
    intro w hw
    obtain ⟨l', hl', hmap⟩ := List.sublist_map_iff.mp hw
    rcases l' with _ | ⟨a, _ | ⟨b, _ | ⟨c, l'⟩⟩⟩
    · cases hmap
    · cases hmap
    · simp only [List.map_cons, List.map_nil, List.cons.injEq, and_true] at hmap
      exact hcrowded (crowded_of_sublist hsort hperm hl' (hmap.1.symm.trans hmap.2))
    · simp at hmap

end Sorted

end Repeated

end Lib
end Sandroid
