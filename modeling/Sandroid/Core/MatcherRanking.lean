import Sandroid.Core.Matcher
import Mathlib.Data.List.Infix
import Mathlib.Order.Bounds.Basic

/-!
# The stub matcher as a ranking

`StubMatcher.score` of `core/matcher.py`.  The n-grams of a text are the stretches of that
length in the stripped text, or the stripped text itself where it is shorter; a candidate
scores the greatest similarity of its questions.

`score_top_by_jaccard`: the matcher returns the first entries of a ranking that the scores
and the ids determine, in whatever order candidates and questions come.
-/

namespace Sandroid
namespace Core

open Lib

/-- The windows of a list are its stretches of that length. -/
theorem window_iff {text w : List Char} {n : Nat} (h : n ≤ text.length) :
    (∃ i < text.length - n + 1, (text.drop i).take n = w) ↔ w.length = n ∧ w <:+: text := by
  constructor
  · rintro ⟨i, hi, rfl⟩
    refine ⟨?_, (List.take_prefix _ _).isInfix.trans (List.drop_suffix _ _).isInfix⟩
    rw [List.length_take, List.length_drop]
    omega
  · rintro ⟨rfl, before, after, rfl⟩
    refine ⟨before.length, ?_, ?_⟩
    · simp only [List.length_append]
      omega
    · rw [List.append_assoc, List.drop_left, List.take_left]

/-- A stretch of `n` characters of a text, or the whole text where that is shorter. -/
def IsNgram (n : Nat) (text w : List Char) : Prop :=
  text ≠ [] ∧ if text.length < n then w = text else w.length = n ∧ w <:+: text

theorem mem_charNgrams_iff {text : String} {n : Nat} {w : List Char} :
    w ∈ charNgrams text n ↔ IsNgram n (strip text.toList) w := by
  unfold charNgrams IsNgram
  simp only
  split_ifs with hempty hshort hshort
  · exact iff_of_false (Finset.notMem_empty w) (fun h => h.1 hempty)
  · exact iff_of_false (Finset.notMem_empty w) (fun h => h.1 hempty)
  · rw [Finset.mem_singleton]
    exact ⟨fun h => ⟨hempty, h⟩, fun h => h.2⟩
  · rw [List.mem_toFinset, List.mem_map, ← window_iff (not_lt.mp hshort)]
    simp only [List.mem_range]
    exact ⟨fun h => ⟨hempty, h⟩, fun h => h.2⟩

theorem jaccard_eq_div (a b : Finset (List Char)) :
    jaccard a b = ((a ∩ b).card : ℚ) / ((a ∪ b).card : ℚ) := by
  rw [jaccard]
  split_ifs with h
  · have hinter : a ∩ b = ∅ := by
      rcases h with rfl | rfl
      · exact Finset.empty_inter b
      · exact Finset.inter_empty a
    rw [hinter, Finset.card_empty, Nat.cast_zero, zero_div]
  · rfl

/-- Two sets are fully similar if and only if they are one non-empty set. -/
theorem jaccard_eq_one_iff {a b : Finset (List Char)} : jaccard a b = 1 ↔ b = a ∧ a ≠ ∅ := by
  rw [jaccard]
  split_ifs with h
  · refine iff_of_false zero_ne_one ?_
    rintro ⟨rfl, hne⟩
    rcases h with h | h
    · exact hne h
    · exact hne h
  · rw [not_or] at h
    have hpos : ((a ∪ b).card : ℚ) ≠ 0 := by
      rw [Nat.cast_ne_zero, Finset.card_ne_zero]
      exact (Finset.nonempty_iff_ne_empty.mpr h.1).mono Finset.subset_union_left
    rw [div_eq_one_iff_eq hpos, Nat.cast_inj]
    constructor
    · intro hcard
      have hsame : a ∩ b = a ∪ b :=
        Finset.eq_of_subset_of_card_le Finset.inter_subset_union hcard.ge
      exact ⟨(inf_eq_sup.mp hsame).symm, h.1⟩
    · rintro ⟨rfl, -⟩
      rw [Finset.inter_self, Finset.union_self]

section Best

variable {α : Type}

/-- A running maximum is the greatest of the values and of where it began. -/
theorem isGreatest_foldl_max (f : α → ℚ) (xs : List α) (b : ℚ) :
    IsGreatest {q | q = b ∨ ∃ x ∈ xs, q = f x} (xs.foldl (fun best x => max best (f x)) b) := by
  induction xs generalizing b with
  | nil =>
      refine ⟨Or.inl rfl, ?_⟩
      rintro q (rfl | ⟨x, hx, -⟩)
      · exact le_rfl
      · cases hx
  | cons x xs ih =>
      obtain ⟨hmem, hle⟩ := ih (max b (f x))
      rw [List.foldl_cons]
      constructor
      · rcases hmem with hmax | ⟨y, hy, hvalue⟩
        · rw [hmax]
          rcases max_choice b (f x) with h | h
          · exact Or.inl h
          · exact Or.inr ⟨x, List.mem_cons_self, h⟩
        · exact Or.inr ⟨y, List.mem_cons_of_mem _ hy, hvalue⟩
      · have hfirst := hle (Or.inl rfl)
        rintro q (rfl | ⟨y, hy, rfl⟩)
        · exact (le_max_left _ _).trans hfirst
        · rcases List.mem_cons.mp hy with rfl | hy
          · exact (le_max_right _ _).trans hfirst
          · exact hle (Or.inr ⟨y, hy, rfl⟩)

end Best

namespace StubMatcher

variable {tGrams : Finset (List Char)} {ngram : Nat} {questions : List String}

theorem best_isGreatest (tGrams : Finset (List Char)) (ngram : Nat) (questions : List String) :
    IsGreatest {q | q = 0 ∨ ∃ question ∈ questions, q = jaccard tGrams (charNgrams question ngram)}
      (best tGrams ngram questions) :=
  isGreatest_foldl_max _ _ _

/-- With any question at all the zero that the maximum begins with does not matter. -/
theorem best_isGreatest_div (hne : questions ≠ []) :
    IsGreatest {q : ℚ | ∃ question ∈ questions,
        q = ((tGrams ∩ charNgrams question ngram).card : ℚ) /
          ((tGrams ∪ charNgrams question ngram).card : ℚ)}
      (best tGrams ngram questions) := by
  obtain ⟨hmem, hle⟩ := best_isGreatest tGrams ngram questions
  simp only [← jaccard_eq_div]
  constructor
  · rcases hmem with hzero | hattained
    · obtain ⟨question, hquestion⟩ := List.exists_mem_of_ne_nil _ hne
      have hnonneg := (jaccard_mem_unit tGrams (charNgrams question ngram)).1
      have hupper := hle (Or.inr ⟨question, hquestion, rfl⟩)
      rw [hzero] at hupper
      exact ⟨question, hquestion, hzero.trans (hnonneg.antisymm hupper)⟩
    · exact hattained
  · exact fun q hq => hle (Or.inr hq)

theorem best_eq_one_iff : best tGrams ngram questions = 1 ↔
    ∃ question ∈ questions, charNgrams question ngram = tGrams ∧ tGrams ≠ ∅ := by
  obtain ⟨hmem, hle⟩ := best_isGreatest tGrams ngram questions
  constructor
  · intro hone
    rw [hone] at hmem
    rcases hmem with hzero | ⟨question, hquestion, hvalue⟩
    · exact absurd hzero one_ne_zero
    · exact ⟨question, hquestion, jaccard_eq_one_iff.mp hvalue.symm⟩
  · rintro ⟨question, hquestion, hsame⟩
    have hlower := hle (Or.inr ⟨question, hquestion, rfl⟩)
    rw [jaccard_eq_one_iff.mpr hsame] at hlower
    exact (best_mem_unit _ _ _).2.antisymm hlower

theorem best_perm {questions' : List String} (h : questions.Perm questions') :
    best tGrams ngram questions' = best tGrams ngram questions := by
  have hgreatest := best_isGreatest tGrams ngram questions'
  simp only [← h.mem_iff] at hgreatest
  exact hgreatest.unique (best_isGreatest tGrams ngram questions)

/-- `best` over a candidate's questions. -/
def candidateScore (ngram : Nat) (transcript : String) (intent : Intent) : ℚ :=
  best (charNgrams transcript ngram) ngram intent.question

/-- What an entry for a candidate is sorted by. -/
def candidateKey (ngram : Nat) (transcript : String) (intent : Intent) : IntentId × ℚ :=
  (intent.id, candidateScore ngram transcript intent)

/-- The candidates in another order, each with its questions in another order. -/
def Rearranged (candidates candidates' : List Intent) : Prop :=
  ∃ moved, candidates.Perm moved ∧
    List.Forall₂ (fun a b => a.id = b.id ∧ a.question.Perm b.question) moved candidates'

/-- The first `nBest` entries of all candidates with a positive score, by descending score
and ascending id. -/
structure TopByJaccard (ngram : Nat) (transcript : String) (candidates : List Intent)
    (nBest : Nat) (ranked : List MatchCandidate) : Prop where
  top : ∃ places : List Intent,
    places.Perm (candidates.filter fun intent => 0 < candidateScore ngram transcript intent) ∧
      places.Pairwise (fun a b => RanksAtLeast (candidateKey ngram transcript a)
        (candidateKey ngram transcript b)) ∧
      ranked.map MatchCandidate.key = (places.take nBest).map (candidateKey ngram transcript)
  grams : ∀ text w, w ∈ charNgrams text ngram ↔ IsNgram ngram (strip text.toList) w
  greatest : ∀ intent ∈ candidates, intent.question ≠ [] →
    IsGreatest {q : ℚ | ∃ question ∈ intent.question,
        q = ((charNgrams transcript ngram ∩ charNgrams question ngram).card : ℚ) /
          ((charNgrams transcript ngram ∪ charNgrams question ngram).card : ℚ)}
      (candidateScore ngram transcript intent)
  silent : ∀ intent ∈ candidates, intent.question = [] →
    candidateScore ngram transcript intent = 0
  confident : ∀ c ∈ ranked, 0 < c.confidence.val ∧ c.confidence.val ≤ 1
  certain : ∀ c ∈ ranked, ∀ intent ∈ candidates, c.key = candidateKey ngram transcript intent →
    (c.confidence.val = 1 ↔ ∃ question ∈ intent.question,
      charNgrams question ngram = charNgrams transcript ngram ∧ charNgrams transcript ngram ≠ ∅)
  anyOrder : ∀ candidates', Rearranged candidates candidates' →
    score ngram transcript candidates' nBest = .ok ranked

section Ranking

variable {transcript : String} {candidates candidates' : List Intent}

theorem scored_eq (ngram : Nat) (transcript : String) (candidates : List Intent) :
    scored ngram transcript candidates =
      (candidates.filter fun intent => 0 < candidateScore ngram transcript intent).map
        (candidateKey ngram transcript) := by
  rw [scored, List.filter_map]
  rfl

/-- What is sorted in two lists by one order is in the same order. -/
theorem map_key_eq_of_perm {ranking : List MatchCandidate} {places : List (IntentId × ℚ)}
    (hranking : ranking.Pairwise fun a b => RanksAtLeast a.key b.key)
    (hplaces : places.Pairwise RanksAtLeast)
    (hperm : (ranking.map MatchCandidate.key).Perm places) :
    ranking.map MatchCandidate.key = places :=
  hperm.eq_of_pairwise (fun _ _ _ _ h h' => ranksAtLeast_antisymm h h')
    (List.pairwise_map.mpr hranking) hplaces

/-- The result depends on which entries there are, and not on their order. -/
theorem score_eq_of_perm (nBest : Nat)
    (h : (scored ngram transcript candidates').Perm (scored ngram transcript candidates)) :
    score ngram transcript candidates' nBest = score ngram transcript candidates nBest := by
  obtain ⟨ranking, hsorted, hperm, hscore⟩ := exists_ranking ngram transcript candidates
  obtain ⟨ranking', hsorted', hperm', hscore'⟩ := exists_ranking ngram transcript candidates'
  have hkeys : ranking'.map MatchCandidate.key = ranking.map MatchCandidate.key :=
    map_key_eq_of_perm hsorted' (List.pairwise_map.mpr hsorted)
      ((hperm'.trans h).trans hperm.symm)
  rw [hscore, hscore', List.map_injective_iff.mpr MatchCandidate.key_injective hkeys]

theorem candidateKey_congr {a b : Intent} (hid : a.id = b.id)
    (hquestion : a.question.Perm b.question) :
    candidateKey ngram transcript b = candidateKey ngram transcript a := by
  rw [candidateKey, candidateKey, candidateScore, candidateScore, hid, best_perm hquestion]

theorem scored_perm (h : Rearranged candidates candidates') :
    (scored ngram transcript candidates').Perm (scored ngram transcript candidates) := by
  obtain ⟨moved, hperm, hquestions⟩ := h
  have hkeys : candidates'.map (candidateKey ngram transcript) =
      moved.map (candidateKey ngram transcript) := by
    clear hperm
    induction hquestions with
    | nil => rfl
    | cons hab _ ih => rw [List.map_cons, List.map_cons, ih, candidateKey_congr hab.1 hab.2]
  have hmoved : scored ngram transcript candidates' = scored ngram transcript moved :=
    congrArg (List.filter fun item : IntentId × ℚ => decide (0 < item.2)) hkeys
  rw [hmoved]
  exact ((hperm.map _).filter _).symm

/-- The candidates with a positive score in their ranking. -/
def placesOf (ngram : Nat) (transcript : String) (candidates : List Intent) : List Intent :=
  rankBy (candidateKey ngram transcript)
    (candidates.filter fun intent => 0 < candidateScore ngram transcript intent)

/-- The matcher returns the entries of the first places. -/
theorem exists_score_eq (ngram : Nat) (transcript : String) (candidates : List Intent)
    (nBest : Nat) : ∃ ranked, score ngram transcript candidates nBest = .ok ranked ∧
      ranked.map MatchCandidate.key =
        ((placesOf ngram transcript candidates).take nBest).map
          (candidateKey ngram transcript) := by
  obtain ⟨ranking, hsorted, hperm, hscore⟩ := exists_ranking ngram transcript candidates
  have hplaces : ((placesOf ngram transcript candidates).map
      (candidateKey ngram transcript)).Perm (scored ngram transcript candidates) := by
    rw [scored_eq]
    exact (perm_rankBy _ _).map _
  have hkeys := map_key_eq_of_perm hsorted (List.pairwise_map.mpr (pairwise_rankBy _ _))
    (hperm.trans hplaces.symm)
  refine ⟨_, hscore nBest, ?_⟩
  rw [List.map_take, hkeys, List.map_take]
  rfl

/-- An entry is the entry of a candidate with a positive score. -/
theorem exists_candidate_of_mem {nBest : Nat} {ranked : List MatchCandidate} {c : MatchCandidate}
    (hkeys : ranked.map MatchCandidate.key =
      ((placesOf ngram transcript candidates).take nBest).map (candidateKey ngram transcript))
    (hc : c ∈ ranked) : ∃ intent ∈ candidates, 0 < candidateScore ngram transcript intent ∧
      c.key = candidateKey ngram transcript intent := by
  have hmem : c.key ∈ ((placesOf ngram transcript candidates).take nBest).map
      (candidateKey ngram transcript) := by
    rw [← hkeys]
    exact List.mem_map_of_mem hc
  obtain ⟨intent, hplace, hkey⟩ := List.mem_map.mp hmem
  have hintent := (perm_rankBy _ _).mem_iff.mp (List.mem_of_mem_take hplace)
  rw [List.mem_filter, decide_eq_true_eq] at hintent
  exact ⟨intent, hintent.1, hintent.2, hkey.symm⟩

/-- **The matcher returns the first entries of the candidates with a positive score, ranked
by their greatest similarity, and the order of candidates and questions does not matter.** -/
theorem score_top_by_jaccard (ngram : Nat) (transcript : String) (candidates : List Intent)
    (nBest : Nat) : ∃ ranked, score ngram transcript candidates nBest = .ok ranked ∧
      TopByJaccard ngram transcript candidates nBest ranked := by
  obtain ⟨ranked, hscore, hkeys⟩ := exists_score_eq ngram transcript candidates nBest
  refine ⟨ranked, hscore, ?_⟩
  constructor
  case top => exact ⟨_, perm_rankBy _ _, pairwise_rankBy _ _, hkeys⟩
  case grams => exact fun text w => mem_charNgrams_iff
  case greatest => exact fun intent _ hne => best_isGreatest_div hne
  case silent =>
    intro intent _ hnone
    rw [candidateScore, hnone]
    rfl
  case confident =>
    intro c hc
    obtain ⟨intent, -, hpos, hkey⟩ := exists_candidate_of_mem hkeys hc
    have hvalue : c.confidence.val = candidateScore ngram transcript intent :=
      congrArg Prod.snd hkey
    rw [hvalue]
    exact ⟨hpos, (best_mem_unit _ _ _).2⟩
  case certain =>
    intro c _ intent _ hkey
    have hvalue : c.confidence.val = candidateScore ngram transcript intent :=
      congrArg Prod.snd hkey
    rw [hvalue]
    exact best_eq_one_iff
  case anyOrder =>
    intro candidates' hmoved
    rw [score_eq_of_perm nBest (scored_perm hmoved), hscore]

end Ranking

end StubMatcher

end Core
end Sandroid
