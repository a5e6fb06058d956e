import Sandroid.Core.Matcher
import Mathlib.Tactic.Linarith

/-!
# Fusion of the two recognition paths

`core/fusion.py`: `fuse` combines Path A's ranked list with Path B's single
hypothesis.  With no vote in scope it returns Path A's list unchanged; otherwise
it fills a dictionary with one score per candidate id,

    score(intent) = w_A * conf_A(intent) + w_B * conf_B(intent),

and ranks it.  `fuse_voting` reads the result off the score function
`fusedScore`; the field check on the fused confidences never fires, because the
normalised weights sum to one.
-/

namespace Sandroid
namespace Core

open Lib

/-- Per-scene weights of Path A and Path B. -/
structure FusionWeights where
  wA : ℚ
  wB : ℚ
  wA_unit : 0 ≤ wA ∧ wA ≤ 1
  wB_unit : 0 ≤ wB ∧ wB ≤ 1
  atLeastOneNonzero : ¬ (wA = 0 ∧ wB = 0)

namespace FusionWeights

/-- The weights rescaled so that they sum to one. -/
def normalized (w : FusionWeights) : ℚ × ℚ :=
  let total := w.wA + w.wB
  (w.wA / total, w.wB / total)

variable (w : FusionWeights)

theorem total_pos : 0 < w.wA + w.wB := by
  have hA := w.wA_unit.1
  have hB := w.wB_unit.1
  refine lt_of_le_of_ne (by linarith) ?_
  intro h
  exact w.atLeastOneNonzero ⟨by linarith, by linarith⟩

theorem normalized_nonneg : 0 ≤ w.normalized.1 ∧ 0 ≤ w.normalized.2 :=
  ⟨div_nonneg w.wA_unit.1 w.total_pos.le, div_nonneg w.wB_unit.1 w.total_pos.le⟩

theorem normalized_sum : w.normalized.1 + w.normalized.2 = 1 := by
  unfold normalized
  rw [← add_div, div_self w.total_pos.ne']

end FusionWeights

/-- Default weights and overrides by scene. -/
structure FusionConfig where
  default : FusionWeights
  scenes : Dict String FusionWeights

/-- The orchestrator always passes a scene id. -/
def FusionConfig.forScene (config : FusionConfig) (sceneId : String) : FusionWeights :=
  match config.scenes.get? sceneId with
  | some weights => weights
  | none => config.default

/-- Path B's hypothesis; `intentId` is `none` when the backend abstains. -/
structure FinalIntent where
  intentId : Option IntentId
  confidence : Confidence
  durationMs : Nat

/-- Path B's vote, if it has one in scope (`b_active`). -/
def activeVote (sluB : Option FinalIntent) (candidates : List Intent) :
    Option (IntentId × Confidence) :=
  match sluB with
  | none => none
  | some slu =>
      match slu.intentId with
      | none => none
      | some b =>
          if candidates.any (fun c => c.id == b) then some (b, slu.confidence) else none

/-- `{c.id for c in candidates}`. -/
def candidateIds (candidates : List Intent) : List IntentId :=
  (candidates.map Intent.id).dedup

abbrev Scores := Dict IntentId ℚ

/-- `{iid: 0.0 for iid in candidate_ids}`. -/
def initScores (ids : List IntentId) : Scores :=
  ids.foldl (fun scores iid => scores.set iid 0) Dict.empty

/-- The loop over `ranked_a`: a later entry of an id overwrites an earlier one. -/
def addPathA (wA : ℚ) (scores : Scores) (rankedA : List MatchCandidate) : Scores :=
  rankedA.foldl (fun scores cand =>
    if (scores.get? cand.intentId).isSome then
      scores.set cand.intentId (wA * cand.confidence.val)
    else
      scores) scores

/-- `scores[b] += w_b * slu_b.confidence`. -/
def addPathB (wB : ℚ) (scores : Scores) (vote : IntentId × Confidence) :
    Except PyError Scores :=
  match scores.get? vote.1 with
  | none => .error (.unknownIntent vote.1)
  | some score => .ok (scores.set vote.1 (score + wB * vote.2.val))

def fuse (rankedA : List MatchCandidate) (sluB : Option FinalIntent)
    (candidates : List Intent) (weights : FusionWeights) (nBest : Nat) :
    Except PyError (List MatchCandidate) :=
  match activeVote sluB candidates with
  | none => .ok (rankedA.take nBest)
  | some vote => do
      let scores := addPathA weights.normalized.1 (initScores (candidateIds candidates)) rankedA
      let scores ← addPathB weights.normalized.2 scores vote
      let ranked := rankBy id scores.entries
      let fused ← MatchCandidate.createAll (ranked.filter (fun kv => 0 < kv.2))
      .ok (fused.take nBest)

section Scores

/-- Path A's confidence for an id: that of its last entry in the list. -/
def confA (rankedA : List MatchCandidate) (id : IntentId) : ℚ :=
  match rankedA.reverse.find? (fun cand => cand.intentId == id) with
  | none => 0
  | some cand => cand.confidence.val

/-- `score(intent) = w_A * conf_A(intent) + w_B * conf_B(intent)`. -/
def fusedScore (weights : FusionWeights) (rankedA : List MatchCandidate)
    (vote : IntentId × Confidence) (id : IntentId) : ℚ :=
  weights.normalized.1 * confA rankedA id +
    if vote.1 = id then weights.normalized.2 * vote.2.val else 0

theorem confA_mem_unit (rankedA : List MatchCandidate) (id : IntentId) :
    0 ≤ confA rankedA id ∧ confA rankedA id ≤ 1 := by
  unfold confA
  split
  · exact ⟨le_refl 0, zero_le_one⟩
  · rename_i cand _
    exact cand.confidence.property

theorem confA_snoc (rankedA : List MatchCandidate) (cand : MatchCandidate) (id : IntentId) :
    confA (rankedA ++ [cand]) id =
      if cand.intentId = id then cand.confidence.val else confA rankedA id := by
  unfold confA
  rw [List.reverse_append, List.reverse_singleton, List.singleton_append, List.find?_cons]
  by_cases h : cand.intentId = id
  · simp [h]
  · rw [if_neg h, beq_eq_false_iff_ne.mpr h]

/-- Fused scores lie between 0 and 1. -/
theorem fusedScore_mem_unit (weights : FusionWeights) (rankedA : List MatchCandidate)
    (vote : IntentId × Confidence) (id : IntentId) :
    0 ≤ fusedScore weights rankedA vote id ∧ fusedScore weights rankedA vote id ≤ 1 := by
  obtain ⟨hA, hB⟩ := weights.normalized_nonneg
  have hsum := weights.normalized_sum
  obtain ⟨hc, hc1⟩ := confA_mem_unit rankedA id
  obtain ⟨hv, hv1⟩ := vote.2.property
  have hmulA : weights.normalized.1 * confA rankedA id ≤ weights.normalized.1 :=
    mul_le_of_le_one_right hA hc1
  have hmulB : weights.normalized.2 * vote.2.val ≤ weights.normalized.2 :=
    mul_le_of_le_one_right hB hv1
  have hposA := mul_nonneg hA hc
  have hposB := mul_nonneg hB hv
  unfold fusedScore
  split_ifs
  · exact ⟨by linarith, by linarith⟩
  · exact ⟨by linarith, by linarith⟩

theorem get?_initScores_loop (id : IntentId) :
    ∀ (ids : List IntentId) (scores : Scores),
      (ids.foldl (fun scores iid => scores.set iid 0) scores).get? id =
        if id ∈ ids then some 0 else scores.get? id
  | [], scores => by simp
  | iid :: ids, scores => by
      rw [List.foldl_cons, get?_initScores_loop id ids, Dict.get?_set]
      by_cases hmem : id ∈ ids
      · simp [hmem]
      · by_cases hid : iid = id
        · simp [hid]
        · have hid' : ¬ id = iid := fun h => hid h.symm
          simp [hmem, hid, hid']

theorem get?_initScores (ids : List IntentId) (id : IntentId) :
    (initScores ids).get? id = if id ∈ ids then some 0 else none := by
  rw [initScores, get?_initScores_loop, Dict.get?_empty]

/-- After the loop over Path A, each candidate id holds its weighted confidence. -/
theorem get?_addPathA (wA : ℚ) (ids : List IntentId) (id : IntentId)
    (rankedA : List MatchCandidate) :
    (addPathA wA (initScores ids) rankedA).get? id =
      if id ∈ ids then some (wA * confA rankedA id) else none := by
  induction rankedA using List.reverseRecOn generalizing id with
  | nil =>
      rw [addPathA, List.foldl_nil, get?_initScores]
      simp [confA]
  | append_singleton rankedA cand ih =>
      rw [addPathA, List.foldl_append, List.foldl_cons, List.foldl_nil, ← addPathA,
        confA_snoc]
      by_cases hid : cand.intentId = id
      · subst hid
        rw [ih cand.intentId]
        by_cases hmem : cand.intentId ∈ ids
        · simp [hmem]
        · simp [hmem, ih]
      · split_ifs with hsome hmem hmem
        · rw [Dict.get?_set_ne _ hid, ih, if_pos hmem]
        · rw [Dict.get?_set_ne _ hid, ih, if_neg hmem]
        · rw [ih, if_pos hmem]
        · rw [ih, if_neg hmem]

theorem mem_candidateIds {candidates : List Intent} {id : IntentId} :
    id ∈ candidateIds candidates ↔ ∃ c, c ∈ candidates ∧ c.id = id := by
  rw [candidateIds, List.mem_dedup, List.mem_map]

theorem activeVote_mem {sluB : Option FinalIntent} {candidates : List Intent}
    {vote : IntentId × Confidence} (h : activeVote sluB candidates = some vote) :
    vote.1 ∈ candidateIds candidates := by
  unfold activeVote at h
  split at h
  · cases h
  · split at h
    · cases h
    · split_ifs at h with hany
      cases h
      obtain ⟨c, hc, hid⟩ := List.any_eq_true.mp hany
      exact mem_candidateIds.mpr ⟨c, hc, by simpa using hid⟩

/-- The items that are ranked when Path B votes: the fused score of every
candidate id. -/
theorem exists_scores (weights : FusionWeights) (rankedA : List MatchCandidate)
    {ids : List IntentId} {vote : IntentId × Confidence} (hvote : vote.1 ∈ ids) :
    ∃ scores : Scores,
      addPathB weights.normalized.2
        (addPathA weights.normalized.1 (initScores ids) rankedA) vote = .ok scores ∧
      ∀ id score, (id, score) ∈ scores.entries ↔
        id ∈ ids ∧ score = fusedScore weights rankedA vote id := by
  refine ⟨(addPathA weights.normalized.1 (initScores ids) rankedA).set vote.1
    (fusedScore weights rankedA vote vote.1), ?_, ?_⟩
  · rw [addPathB, get?_addPathA, if_pos hvote, fusedScore, if_pos rfl]
  · intro id score
    rw [← Dict.get?_eq_some_iff, Dict.get?_set, get?_addPathA]
    by_cases hid : vote.1 = id
    · rw [if_pos hid, ← hid, Option.some.injEq]
      exact ⟨fun h => ⟨hvote, h.symm⟩, fun h => h.2.symm⟩
    · rw [if_neg hid]
      split_ifs with hmem
      · rw [Option.some.injEq, fusedScore, if_neg hid, add_zero]
        exact ⟨fun h => ⟨hmem, h.symm⟩, fun h => h.2.symm⟩
      · exact ⟨nofun, fun h => absurd h.1 hmem⟩

end Scores

theorem nodup_candidateIds (candidates : List Intent) : (candidateIds candidates).Nodup :=
  List.nodup_dedup _

/-- **With a vote in scope `fuse` returns the first `nBest` places of the ranking
of the candidate ids by fused score.** -/
theorem fuse_voting {sluB : Option FinalIntent} {candidates : List Intent}
    {vote : IntentId × Confidence} (hvote : activeVote sluB candidates = some vote)
    (rankedA : List MatchCandidate) (weights : FusionWeights) (nBest : Nat) :
    ∃ fused,
      fuse rankedA sluB candidates weights nBest = .ok fused ∧
      fused.map MatchCandidate.key =
        (ranking (candidateIds candidates) (fusedScore weights rankedA vote) 0).take nBest := by
  obtain ⟨scores, hscores, hentries⟩ :=
    exists_scores weights rankedA (activeVote_mem hvote)
  have hperm : scores.entries.Perm
      ((candidateIds candidates).map (fun j => (j, fusedScore weights rankedA vote j))) := by
    refine (List.perm_ext_iff_of_nodup (List.Nodup.of_map _ scores.nodupKeys) ?_).mpr ?_
    · refine (nodup_candidateIds candidates).map ?_
      intro i j hij
      exact (Prod.mk.inj hij).1
    · intro item
      rw [hentries item.1 item.2, List.mem_map]
      constructor
      · rintro ⟨hid, hscore⟩
        exact ⟨item.1, hid, Prod.ext rfl hscore.symm⟩
      · rintro ⟨j, hj, rfl⟩
        exact ⟨hj, rfl⟩
  have hranked : (rankBy id scores.entries).filter (fun kv => decide (0 < kv.2)) =
      ranking (candidateIds candidates) (fusedScore weights rankedA vote) 0 := by
    rw [ranking, filter_rankBy Function.injective_id]
    exact rankBy_congr Function.injective_id (hperm.filter _)
  have hunit : ∀ item, item ∈ (rankBy id scores.entries).filter (fun kv => decide (0 < kv.2)) →
      0 ≤ item.2 ∧ item.2 ≤ 1 := by
    intro item hitem
    have hmem := (perm_rankBy id scores.entries).mem_iff.mp (List.mem_filter.mp hitem).1
    rw [((hentries item.1 item.2).mp hmem).2]
    exact fusedScore_mem_unit weights rankedA vote item.1
  obtain ⟨out, hout⟩ := MatchCandidate.exists_createAll hunit
  refine ⟨out.take nBest, ?_, ?_⟩
  · rw [fuse, hvote]
    simp only [hscores, hout, bind, Except.bind]
  · rw [List.map_take, MatchCandidate.createAll_eq_ok_iff.mp hout, hranked]

/-- Without a vote in scope `fuse` only cuts Path A's list. -/
theorem fuse_silent {sluB : Option FinalIntent} {candidates : List Intent}
    (hvote : activeVote sluB candidates = none) (rankedA : List MatchCandidate)
    (weights : FusionWeights) (nBest : Nat) :
    fuse rankedA sluB candidates weights nBest = .ok (rankedA.take nBest) := by
  rw [fuse, hvote]

end Core
end Sandroid
