import Sandroid.Core.Domain
import Sandroid.Lib.ExceptLoop
import Sandroid.Lib.Ranking
import Mathlib.Algebra.Order.Field.Rat
import Mathlib.Data.Finset.Card
import Mathlib.Data.String.Basic

/-!
# Intent matching

`core/matcher.py`: `StubMatcher` scores every candidate by the best character
n-gram Jaccard similarity of its questions and returns the first `n_best`
entries by descending confidence, ties by intent id.  Scores are exact
rationals.

A confidence is a number between 0 and 1 by its type; the field check of the
source is the fallible constructor `MatchCandidate.create`, which the matcher's
own scores always pass (`StubMatcher.exists_ranking`).
-/

namespace Sandroid
namespace Core

open Lib

/-- A field `confidence: float = Field(ge=0.0, le=1.0)`. -/
abbrev Confidence := {q : ℚ // 0 ≤ q ∧ q ≤ 1}

theorem confidence_one : (0 : ℚ) ≤ 1 ∧ (1 : ℚ) ≤ 1 :=
  ⟨zero_le_one, le_rfl⟩

theorem confidence_half : (0 : ℚ) ≤ 1 / 2 ∧ (1 / 2 : ℚ) ≤ 1 := by
  decide +kernel

theorem confidence_third : (0 : ℚ) ≤ 1 / 3 ∧ (1 / 3 : ℚ) ≤ 1 := by
  decide +kernel

structure MatchCandidate where
  intentId : IntentId
  confidence : Confidence
deriving DecidableEq

namespace MatchCandidate

/-- `MatchCandidate(intent_id=id, confidence=score)`. -/
def create (id : IntentId) (score : ℚ) : Except PyError MatchCandidate :=
  if h : 0 ≤ score ∧ score ≤ 1 then
    .ok { intentId := id, confidence := ⟨score, h⟩ }
  else
    .error (.confidenceOutOfRange "MatchCandidate")

/-- The pair a candidate is sorted by. -/
def key (c : MatchCandidate) : IntentId × ℚ :=
  (c.intentId, c.confidence.val)

theorem key_injective : Function.Injective key := by
  intro a b h
  cases a
  cases b
  simp only [key, Prod.mk.injEq] at h
  rw [MatchCandidate.mk.injEq]
  exact ⟨h.1, Subtype.ext h.2⟩

theorem create_eq_ok_iff {id : IntentId} {score : ℚ} {c : MatchCandidate} :
    create id score = .ok c ↔ c.key = (id, score) := by
  unfold create
  split_ifs with h
  · constructor
    · intro hc
      cases hc
      rfl
    · intro hc
      rw [Except.ok.injEq]
      exact key_injective hc.symm
  · refine ⟨nofun, fun hc => absurd ?_ h⟩
    rw [key, Prod.mk.injEq] at hc
    rw [← hc.2]
    exact c.confidence.property

/-- `[MatchCandidate(intent_id=iid, confidence=score) for iid, score in items]`. -/
def createAll : List (IntentId × ℚ) → Except PyError (List MatchCandidate)
  | [] => .ok []
  | item :: items => do
      let c ← create item.1 item.2
      let cs ← createAll items
      .ok (c :: cs)

theorem createAll_eq_ok_iff :
    ∀ {items : List (IntentId × ℚ)} {out : List MatchCandidate},
      createAll items = .ok out ↔ out.map key = items
  | [], out => by
      rw [createAll, Except.ok.injEq, List.map_eq_nil_iff]
      exact eq_comm
  | item :: items, out => by
      rw [createAll, except_bind_eq_ok_iff]
      constructor
      · rintro ⟨c, hc, h⟩
        rw [except_bind_eq_ok_iff] at h
        obtain ⟨cs, hcs, h⟩ := h
        rw [Except.ok.injEq] at h
        rw [← h, List.map_cons, create_eq_ok_iff.mp hc, createAll_eq_ok_iff.mp hcs]
      · intro h
        cases out with
        | nil => cases h
        | cons c cs =>
            rw [List.map_cons, List.cons.injEq] at h
            refine ⟨c, create_eq_ok_iff.mpr h.1, ?_⟩
            rw [except_bind_eq_ok_iff]
            exact ⟨cs, createAll_eq_ok_iff.mpr h.2, rfl⟩

/-- Scores between 0 and 1 pass the field check. -/
theorem exists_createAll {items : List (IntentId × ℚ)}
    (h : ∀ item, item ∈ items → 0 ≤ item.2 ∧ item.2 ≤ 1) :
    ∃ out, createAll items = .ok out := by
  induction items with
  | nil => exact ⟨[], rfl⟩
  | cons item items ih =>
      obtain ⟨out, hout⟩ := ih (fun x hx => h x (List.mem_cons_of_mem _ hx))
      have hitem := h item List.mem_cons_self
      refine ⟨⟨item.1, ⟨item.2, hitem⟩⟩ :: out, createAll_eq_ok_iff.mpr ?_⟩
      rw [List.map_cons, createAll_eq_ok_iff.mp hout]
      rfl

end MatchCandidate

/-- Characters that `str.strip()` removes. -/
def isPySpace (c : Char) : Bool :=
  let n := c.toNat
  (9 ≤ n && n ≤ 13) || (28 ≤ n && n ≤ 32) || n == 0x85 || n == 0xa0 ||
    n == 0x1680 || (0x2000 ≤ n && n ≤ 0x200a) || n == 0x2028 || n == 0x2029 ||
    n == 0x202f || n == 0x205f || n == 0x3000

/-- `text.strip()`, on code points. -/
def strip (text : List Char) : List Char :=
  ((text.dropWhile isPySpace).reverse.dropWhile isPySpace).reverse

def charNgrams (text : String) (n : Nat) : Finset (List Char) :=
  let text := strip text.toList
  if text = [] then
    ∅
  else if text.length < n then
    {text}
  else
    ((List.range (text.length - n + 1)).map (fun i => (text.drop i).take n)).toFinset

def jaccard (a b : Finset (List Char)) : ℚ :=
  if a = ∅ ∨ b = ∅ then
    0
  else
    ((a ∩ b).card : ℚ) / ((a ∪ b).card : ℚ)

theorem jaccard_mem_unit (a b : Finset (List Char)) :
    0 ≤ jaccard a b ∧ jaccard a b ≤ 1 := by
  unfold jaccard
  split_ifs with h
  · exact ⟨le_refl 0, zero_le_one⟩
  · have hcard : ((a ∩ b).card : ℚ) ≤ ((a ∪ b).card : ℚ) := by
      exact_mod_cast Finset.card_le_card
        (Finset.inter_subset_left.trans Finset.subset_union_left)
    exact ⟨div_nonneg (Nat.cast_nonneg _) (Nat.cast_nonneg _),
      div_le_one_of_le₀ hcard (Nat.cast_nonneg _)⟩

/-- The matcher backend: transcript, candidates and `n_best`. -/
abbrev IntentMatcher :=
  String → List Intent → Nat → Except PyError (List MatchCandidate)

namespace StubMatcher

/-- The inner loop over an intent's questions: `best = max(best, score)`. -/
def best (tGrams : Finset (List Char)) (ngram : Nat) (questions : List String) : ℚ :=
  questions.foldl (fun best question => max best (jaccard tGrams (charNgrams question ngram))) 0

/-- Ids and scores of the candidates with a positive score, in pool order. -/
def scored (ngram : Nat) (transcript : String) (candidates : List Intent) :
    List (IntentId × ℚ) :=
  (candidates.map (fun intent =>
    (intent.id, best (charNgrams transcript ngram) ngram intent.question))).filter
      (fun item => 0 < item.2)

def score (ngram : Nat) : IntentMatcher := fun transcript candidates nBest => do
  let scored ← MatchCandidate.createAll (scored ngram transcript candidates)
  .ok ((rankBy MatchCandidate.key scored).take nBest)

theorem foldl_max_mem_unit (f : String → ℚ) (hf : ∀ q, 0 ≤ f q ∧ f q ≤ 1) :
    ∀ (questions : List String) (b : ℚ), 0 ≤ b ∧ b ≤ 1 →
      0 ≤ questions.foldl (fun best q => max best (f q)) b ∧
        questions.foldl (fun best q => max best (f q)) b ≤ 1
  | [], _, hb => hb
  | q :: questions, b, hb =>
      foldl_max_mem_unit f hf questions (max b (f q))
        ⟨le_max_of_le_left hb.1, max_le hb.2 (hf q).2⟩

theorem best_mem_unit (tGrams : Finset (List Char)) (ngram : Nat)
    (questions : List String) :
    0 ≤ best tGrams ngram questions ∧ best tGrams ngram questions ≤ 1 :=
  foldl_max_mem_unit _ (fun _ => jaccard_mem_unit _ _) questions 0
    ⟨le_refl 0, zero_le_one⟩

theorem scored_mem_unit {ngram : Nat} {transcript : String} {candidates : List Intent}
    {item : IntentId × ℚ} (h : item ∈ scored ngram transcript candidates) :
    0 ≤ item.2 ∧ item.2 ≤ 1 := by
  obtain ⟨h, _⟩ := List.mem_filter.mp h
  obtain ⟨intent, _, rfl⟩ := List.mem_map.mp h
  exact best_mem_unit _ _ _

/-- The whole ranking, before the cut to `n_best`. -/
theorem exists_ranking (ngram : Nat) (transcript : String) (candidates : List Intent) :
    ∃ ranking : List MatchCandidate,
      ranking.Pairwise (fun a b => RanksAtLeast a.key b.key) ∧
      (ranking.map MatchCandidate.key).Perm (scored ngram transcript candidates) ∧
      ∀ nBest, score ngram transcript candidates nBest = .ok (ranking.take nBest) := by
  have hunit : ∀ item, item ∈ scored ngram transcript candidates →
      0 ≤ item.2 ∧ item.2 ≤ 1 := fun _ h => scored_mem_unit h
  obtain ⟨out, hout⟩ := MatchCandidate.exists_createAll hunit
  refine ⟨rankBy MatchCandidate.key out, pairwise_rankBy _ _, ?_, ?_⟩
  · rw [← MatchCandidate.createAll_eq_ok_iff.mp hout]
    exact (perm_rankBy _ _).map _
  · intro nBest
    rw [score, hout]
    rfl

end StubMatcher

end Core
end Sandroid
