import Sandroid.Core.Orchestrator
import Sandroid.Core.SceneLoader
import Mathlib.Tactic.NormNum

/-!
# N-best lists of different lengths

`n_best` is applied twice: the matcher cuts Path A's ranking before fusion, and
`fuse` cuts the fused ranking.  A candidate outside Path A's first `n` entries
enters fusion with Path A confidence zero, so Path B's vote can be worth more in
a longer list than in a shorter one.

`nBest_prefix_iff` compares two calls that differ in `n_best` only: the shorter
list is the beginning of the longer one exactly when every candidate whose Path
A confidence depends on the first cut is out of reach of the first `n` places.
-/

namespace Sandroid
namespace Core

open Lib Storage

/-- Scene id, candidate pool and Path B's vote of a request. -/
def Orchestrator.contest (o : Orchestrator) (uuid : Nat → String) (store : SessionStore)
    (req : RecognitionRequest) :
    Except PyError (String × List Intent × Option (IntentId × Confidence)) := do
  let place ← o.resolveScene req
  let loaded := Orchestrator.loadOrCreateSession uuid store req.sessionId place.2.1
  let session := Orchestrator.override req place.2.1 loaded.1
  let candidates ← o.candidatesAt place.2.2 session.currentCategoryId
  let slu ← o.runPathB req.audio place.1
  .ok (place.1, candidates, activeVote slu candidates)

/-- The matcher's cut at `n` instead of `m` does no harm: a candidate to which
it gives another Path A confidence scores nothing or is outranked by `n`
candidates, whichever cut is used. -/
def CutHarmless (ngram : Nat) (text : String) (weights : FusionWeights)
    (candidates : List Intent) (vote : Option (IntentId × Confidence)) (n m : Nat) : Prop :=
  ∀ b firstN firstM, vote = some b →
    StubMatcher.score ngram text candidates n = .ok firstN →
    StubMatcher.score ngram text candidates m = .ok firstM →
    weights.wA ≠ 0 →
    ∀ id, id ∈ candidateIds candidates → confA firstN id ≠ confA firstM id →
      OutOfReach (candidateIds candidates) (fusedScore weights firstN b) 0 n id ∧
        OutOfReach (candidateIds candidates) (fusedScore weights firstM b) 0 n id

theorem fusedScore_ne_iff (weights : FusionWeights) (firstN firstM : List MatchCandidate)
    (b : IntentId × Confidence) (id : IntentId) :
    fusedScore weights firstN b id ≠ fusedScore weights firstM b id ↔
      weights.wA ≠ 0 ∧ confA firstN id ≠ confA firstM id := by
  have hw : weights.normalized.1 = 0 ↔ weights.wA = 0 := by
    simp [FusionWeights.normalized, weights.total_pos.ne']
  rw [← not_iff_not, not_not, not_and_or, not_not, not_not, ← hw, fusedScore, fusedScore,
    add_left_inj, mul_eq_mul_left_iff]
  exact or_comm

/-- Two fusions of the same vote with different Path A lists. -/
theorem fuse_take_eq_iff {slu : Option FinalIntent} {candidates : List Intent}
    {b : IntentId × Confidence} (hvote : activeVote slu candidates = some b)
    {weights : FusionWeights} {n m : Nat} (hnm : n ≤ m)
    {firstN firstM fusedN fusedM : List MatchCandidate}
    (hn : fuse firstN slu candidates weights n = .ok fusedN)
    (hm : fuse firstM slu candidates weights m = .ok fusedM) :
    fusedN = fusedM.take n ↔
      ∀ id, id ∈ candidateIds candidates →
        fusedScore weights firstN b id ≠ fusedScore weights firstM b id →
        OutOfReach (candidateIds candidates) (fusedScore weights firstN b) 0 n id ∧
          OutOfReach (candidateIds candidates) (fusedScore weights firstM b) 0 n id := by
  obtain ⟨fused, hfuse, hkeysN⟩ := fuse_voting hvote firstN weights n
  rw [hn, Except.ok.injEq] at hfuse
  subst hfuse
  obtain ⟨fused, hfuse, hkeysM⟩ := fuse_voting hvote firstM weights m
  rw [hm, Except.ok.injEq] at hfuse
  subst hfuse
  have hmap : fusedN = fusedM.take n ↔
      fusedN.map MatchCandidate.key = (fusedM.take n).map MatchCandidate.key :=
    (List.map_injective_iff.mpr MatchCandidate.key_injective).eq_iff.symm
  rw [hmap, List.map_take, hkeysN, hkeysM, List.take_take, min_eq_left hnm]
  exact take_ranking_eq_iff (nodup_candidateIds candidates) _ _ 0 n

/-- Only the first entry decides the top hit. -/
theorem resolveTop_take {n : Nat} (hn : 1 ≤ n) (ranked : List MatchCandidate)
    (candidates : List Intent) :
    resolveTop (ranked.take n) candidates = resolveTop ranked candidates := by
  cases n with
  | zero => omega
  | succ n =>
      cases ranked with
      | nil => rfl
      | cons top rest => rfl

section Calls

variable {o : Orchestrator} {uuid : Nat → String} {store : SessionStore}
variable {req : RecognitionRequest}

/-- A successful call, with the data its n-best list is computed from. -/
theorem recognize_contest {n : NBest} {response : RecognitionResponse}
    (h : (o.recognize uuid store { req with nBest := n }).1 = .ok response) :
    ∃ sceneId candidates slu ranked followUp,
      o.contest uuid store req = .ok (sceneId, candidates, activeVote slu candidates) ∧
      o.runPathB req.audio sceneId = .ok slu ∧
      o.matcher req.text candidates n.val = .ok ranked ∧
      fuse ranked slu candidates (o.fusionConfig.forScene sceneId) n.val =
        .ok response.nBest ∧
      resolveTop response.nBest candidates = .ok (response.top, followUp) := by
  obtain ⟨sceneId, categoryId, tree, session', hscene, hturn, _⟩ := Orchestrator.recognize_ok h
  obtain ⟨fused, top, followUp, target, hscore, _, _, rfl⟩ :=
    Orchestrator.turn_eq_ok_iff.mp hturn
  obtain ⟨candidates, ranked, slu, hpool, hranked, hslu, hfuse, htop⟩ :=
    Orchestrator.scoreTurn_eq_ok_iff.mp hscore
  refine ⟨sceneId, candidates, slu, ranked, followUp, ?_, hslu, hranked, hfuse, htop⟩
  have hscene' : o.resolveScene req = .ok (sceneId, categoryId, tree) := hscene
  have hpool' : o.candidatesAt tree
      (Orchestrator.override req categoryId
        (Orchestrator.loadOrCreateSession uuid store req.sessionId
          categoryId).1).currentCategoryId =
      .ok candidates := hpool
  have hslu' : o.runPathB req.audio sceneId = .ok slu := hslu
  simp only [Orchestrator.contest, hscene', bind, Except.bind, hpool', hslu']

/-- **The shorter n-best list begins the longer one, with the same top hit,
exactly when the matcher's cut is harmless.** -/
theorem nBest_prefix_iff {ngram : Nat} (hmatcher : o.matcher = StubMatcher.score ngram)
    {n m : NBest} (hnm : n.val ≤ m.val) {rn rm : RecognitionResponse}
    (hn : (o.recognize uuid store { req with nBest := n }).1 = .ok rn)
    (hm : (o.recognize uuid store { req with nBest := m }).1 = .ok rm) :
    (rn.nBest = rm.nBest.take n.val ∧ rn.top = rm.top) ↔
      ∀ sceneId candidates vote,
        o.contest uuid store req = .ok (sceneId, candidates, vote) →
        CutHarmless ngram req.text (o.fusionConfig.forScene sceneId) candidates vote
          n.val m.val := by
  obtain ⟨sceneId, candidates, slu, firstN, followUp, hcontest, hslu, hrankN, hfuseN, htopN⟩ :=
    recognize_contest hn
  obtain ⟨sceneId', candidates', slu', firstM, followUp', hcontest', hslu', hrankM, hfuseM,
    htopM⟩ := recognize_contest hm
  rw [hcontest, Except.ok.injEq, Prod.mk.injEq, Prod.mk.injEq] at hcontest'
  obtain ⟨rfl, rfl, _⟩ := hcontest'
  rw [hslu, Except.ok.injEq] at hslu'
  subst hslu'
  rw [hmatcher] at hrankN hrankM
  have htop : rn.nBest = rm.nBest.take n.val → rn.top = rm.top := by
    intro h
    rw [h, resolveTop_take n.property.1, htopM, Except.ok.injEq, Prod.mk.injEq] at htopN
    exact htopN.1.symm
  rw [and_iff_left_of_imp htop]
  cases hvote : activeVote slu candidates with
  | none =>
      rw [hvote] at hcontest
      constructor
      · intro _ sceneId' candidates' vote hc b _ _ hb
        rw [hcontest, Except.ok.injEq, Prod.mk.injEq, Prod.mk.injEq] at hc
        rw [← hc.2.2] at hb
        cases hb
      · intro _
        obtain ⟨full, _, _, hfull⟩ := StubMatcher.exists_ranking ngram req.text candidates
        rw [hfull, Except.ok.injEq] at hrankN hrankM
        rw [fuse_silent hvote, Except.ok.injEq] at hfuseN hfuseM
        rw [← hfuseN, ← hfuseM, ← hrankN, ← hrankM]
        simp only [List.take_take, min_self, min_eq_left hnm]
  | some b =>
      rw [hvote] at hcontest
      rw [fuse_take_eq_iff hvote hnm hfuseN hfuseM]
      constructor
      · intro h sceneId' candidates' vote hc b' firstN' firstM' hb hN hM hw id hid hconf
        rw [hcontest, Except.ok.injEq, Prod.mk.injEq, Prod.mk.injEq] at hc
        obtain ⟨rfl, rfl, rfl⟩ := hc
        rw [Option.some.injEq] at hb
        subst hb
        rw [hrankN, Except.ok.injEq] at hN
        rw [hrankM, Except.ok.injEq] at hM
        subst hN hM
        exact h id hid ((fusedScore_ne_iff _ _ _ _ _).mpr ⟨hw, hconf⟩)
      · intro h id hid hne
        obtain ⟨hw, hconf⟩ := (fusedScore_ne_iff _ _ _ _ _).mp hne
        exact h _ _ _ hcontest b firstN firstM rfl hrankN hrankM hw id hid hconf

end Calls

/-- A scene with two intents whose questions share a bigram. -/
def pairEntries : List CategoryEntry :=
  [{ id := "root", name := "root",
     intents := [{ id := "a", categoryId := "root", question := ["abc"] },
       { id := "b", categoryId := "root", question := ["abd"] }] }]

def pairTree : CategoryTree :=
  { rootId := "root"
    categories := ⟨[("root",
      { id := "root", name := "root",
        intents := [{ id := "a", categoryId := "root", question := ["abc"] },
          { id := "b", categoryId := "root", question := ["abd"] }] })], by decide⟩ }

def halfWeights : FusionWeights :=
  { wA := 1 / 2
    wB := 1 / 2
    wA_unit := by norm_num
    wB_unit := by norm_num
    atLeastOneNonzero := by norm_num }

/-- Path B votes for `b` with confidence 9/10. -/
def pairOrchestrator : Orchestrator :=
  { registry := ⟨⟨[("pair", pairTree)], by decide⟩⟩
    matcher := StubMatcher.score 2
    slu := some (fun _ _ =>
      .ok { intentId := some "b", confidence := ⟨9 / 10, by norm_num⟩, durationMs := 20 })
    fusionConfig := { default := halfWeights, scenes := Dict.empty }
    recursionLimit := 10 }

def pairRequest : RecognitionRequest :=
  { sceneId := some "pair", text := "abc", audio := some [0, 0] }

def pairCall (n : NBest) : Except PyError RecognitionResponse :=
  (pairOrchestrator.recognize (fun _ => "s0") .empty
    { pairRequest with nBest := n }).1

/-- `a` at one half, the vote for `b` not lifted by Path A. -/
def pairResponseShort : RecognitionResponse :=
  { sessionId := "s0"
    top := some { intentId := "a", confidence := 1 / 2, answer := none, followUp := none }
    nBest := [⟨"a", ⟨1 / 2, confidence_half⟩⟩]
    followUp := none
    currentCategoryId := "root" }

/-- The vote for `b` lifted by its Path A confidence 1/3. -/
def pairResponseLong : RecognitionResponse :=
  { sessionId := "s0"
    top := some { intentId := "b", confidence := 37 / 60, answer := none, followUp := none }
    nBest := [⟨"b", ⟨37 / 60, by norm_num⟩⟩, ⟨"a", ⟨1 / 2, confidence_half⟩⟩]
    followUp := none
    currentCategoryId := "root" }

/-- `b` first with its vote, and `a` behind it at half of its Path A confidence 1/3. -/
def votedResponse : RecognitionResponse :=
  { sessionId := "s0"
    top := some { intentId := "b", confidence := 19 / 20, answer := none, followUp := none }
    nBest := [⟨"b", ⟨19 / 20, by norm_num⟩⟩, ⟨"a", ⟨1 / 6, by norm_num⟩⟩]
    followUp := none
    currentCategoryId := "root" }

/-- Asked for `b`, the matcher's cut behind `b` does no harm: the list of one entry begins the
list of two. -/
theorem nBest_prefix_pair :
    (pairOrchestrator.recognize (fun _ => "s0") .empty
        { pairRequest with text := "abd", nBest := ⟨1, by decide⟩ }).1 =
      .ok { votedResponse with nBest := votedResponse.nBest.take 1 } ∧
    (pairOrchestrator.recognize (fun _ => "s0") .empty
        { pairRequest with text := "abd", nBest := ⟨2, by decide⟩ }).1 = .ok votedResponse ∧
    ∀ sceneId candidates vote,
      pairOrchestrator.contest (fun _ => "s0") .empty { pairRequest with text := "abd" } =
        .ok (sceneId, candidates, vote) →
      CutHarmless 2 "abd" (pairOrchestrator.fusionConfig.forScene sceneId) candidates vote 1 2 := by
  have hn : (pairOrchestrator.recognize (fun _ => "s0") .empty
      { pairRequest with text := "abd", nBest := ⟨1, by decide⟩ }).1 =
      .ok { votedResponse with nBest := votedResponse.nBest.take 1 } := by decide +kernel
  have hm : (pairOrchestrator.recognize (fun _ => "s0") .empty
      { pairRequest with text := "abd", nBest := ⟨2, by decide⟩ }).1 = .ok votedResponse := by
    decide +kernel
  exact ⟨hn, hm, (@nBest_prefix_iff pairOrchestrator (fun _ => "s0") .empty
    { pairRequest with text := "abd" } 2 rfl ⟨1, by decide⟩ ⟨2, by decide⟩ (by decide) _ _
    hn hm).mp ⟨rfl, rfl⟩⟩

/-- With `n_best = 1` the top hit is `a`, with `n_best = 2` it is `b`. -/
theorem nBest_cut_pair :
    buildTree "root" pairEntries = .ok pairTree ∧
      pairCall ⟨1, by decide⟩ = .ok pairResponseShort ∧
      pairCall ⟨2, by decide⟩ = .ok pairResponseLong ∧
      pairResponseShort.nBest ≠ pairResponseLong.nBest.take 1 ∧
      pairResponseShort.top ≠ pairResponseLong.top := by
  refine ⟨by decide, ?_, ?_, ?_, ?_⟩
  · decide +kernel
  · decide +kernel
  · decide +kernel
  · decide +kernel

end Core
end Sandroid
