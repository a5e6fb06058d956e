import Sandroid.Core.NBest
import Sandroid.Models.OnnxEmbedder

/-!
# Recognition with the shipped backends

A deployment with its model files runs `ONNXEmbedderMatcher` as Path A and `StubSLU` of
`models/slu/stub.py` as Path B, which always abstains.

`shipped_recognize_cut`: such a system answers as one without Path B, and `n_best` decides
only where the answer's list is cut.
-/

namespace Sandroid
namespace Models

open Lib Sandroid.Core Storage

theorem zero_confidence : (0 : ℚ) ≤ 0 ∧ (0 : ℚ) ≤ 1 := ⟨le_refl 0, zero_le_one⟩

/-- `StubSLU.recognize_audio`. -/
def StubSLU.recognizeAudio : SLUBackend := fun _ _ =>
  .ok { intentId := none, confidence := ⟨0, zero_confidence⟩, durationMs := 0 }

/-- Path B, if there is one, never has a vote. -/
def Abstains (slu : Option SLUBackend) : Prop :=
  ∀ backend, slu = some backend →
    ∀ pcm sceneId, ∃ result, backend pcm sceneId = .ok result ∧ result.intentId = none

theorem abstains_stubSLU : Abstains (some StubSLU.recognizeAudio) := by
  intro backend hbackend pcm sceneId
  cases hbackend
  exact ⟨_, rfl, rfl⟩

/-- `n_best` only cuts a list that does not depend on it. -/
def CutsAtNBest (matcher : IntentMatcher) : Prop :=
  ∀ transcript candidates, ∃ full : Except PyError (List MatchCandidate), ∀ nBest,
    matcher transcript candidates nBest = full.map (List.take nBest)

theorem ONNXEmbedderMatcher.score_cuts {dim : Nat} (e : ONNXEmbedderMatcher dim) :
    CutsAtNBest e.score := by
  intro transcript candidates
  by_cases hnone : stripped transcript = "" ∨ candidates = []
  · exact ⟨.ok [], fun nBest => by simp [score, hnone, Except.map]⟩
  · simp only [score, hnone, if_false]
    cases e.embed (candidates.foldl flattenStep ([stripped transcript], [])).1 with
    | error err => exact ⟨.error err, fun _ => rfl⟩
    | ok vectors =>
        cases vectors with
        | nil => exact ⟨.error _, fun _ => rfl⟩
        | cons transcriptVec rest =>
            cases hloop : scoredLoop (transcriptVec :: rest) transcriptVec
                (candidates.zip (candidates.foldl flattenStep ([stripped transcript], [])).2) with
            | error err =>
                refine ⟨.error err, fun nBest => ?_⟩
                simp [hloop, bind, Except.bind, Except.map]
            | ok scored =>
                refine ⟨.ok (rankBy MatchCandidate.key scored), fun nBest => ?_⟩
                simp [hloop, bind, Except.bind, Except.map]

theorem StubMatcher.score_cuts (ngram : Nat) : CutsAtNBest (Core.StubMatcher.score ngram) := by
  intro transcript candidates
  obtain ⟨ranking, -, -, hscore⟩ := Core.StubMatcher.exists_ranking ngram transcript candidates
  exact ⟨.ok ranking, hscore⟩

section Orchestrator

variable {o : Orchestrator} {uuid : Nat → String} {store : SessionStore}
  {req : RecognitionRequest}

/-- A system whose Path B abstains scores as one without, and without audio. -/
theorem scoreTurn_abstains (habstains : Abstains o.slu)
    (sceneId : String) (tree : CategoryTree) (current : CategoryId) :
    o.scoreTurn req sceneId tree current =
      { o with slu := none }.scoreTurn { req with audio := none } sceneId tree current := by
  have hpathB : ∃ result, o.runPathB req.audio sceneId = .ok result ∧
      ∀ candidates, activeVote result candidates = none := by
    cases hslu : o.slu with
    | none => exact ⟨none, by simp [Orchestrator.runPathB, hslu], fun _ => rfl⟩
    | some backend =>
        cases haudio : req.audio with
        | none => exact ⟨none, by simp [Orchestrator.runPathB, hslu], fun _ => rfl⟩
        | some pcm =>
            obtain ⟨result, hresult, hnone⟩ := habstains backend hslu pcm sceneId
            refine ⟨some result, ?_, fun candidates => by simp [activeVote, hnone]⟩
            simp [Orchestrator.runPathB, hslu, hresult, bind, Except.bind]
  obtain ⟨result, hresult, hsilent⟩ := hpathB
  have hnone : { o with slu := none }.runPathB none sceneId = .ok none := rfl
  simp only [Orchestrator.scoreTurn, Orchestrator.runDualPaths, hresult, hnone]
  have hpool : { o with slu := none }.candidatesAt tree current = o.candidatesAt tree current := rfl
  rw [hpool]
  cases o.candidatesAt tree current with
  | error e => rfl
  | ok candidates =>
      have hfuse ranked : fuse ranked result candidates (o.fusionConfig.forScene sceneId)
          req.nBest.val =
            fuse ranked none candidates (o.fusionConfig.forScene sceneId) req.nBest.val := by
        rw [fuse_silent (hsilent candidates), fuse_silent rfl]
      cases hmatch : o.matcher req.text candidates req.nBest.val with
      | error e => simp [hmatch, bind, Except.bind]
      | ok ranked => simp [hmatch, bind, Except.bind, hfuse]

/-- Without a Path B `n_best` only cuts the list. -/
theorem scoreTurn_cut (hslu : o.slu = none) (hcuts : CutsAtNBest o.matcher) {n m : NBest}
    (hnm : n.val ≤ m.val) (sceneId : String) (tree : CategoryTree) (current : CategoryId) :
    o.scoreTurn { req with nBest := n } sceneId tree current =
      (o.scoreTurn { req with nBest := m } sceneId tree current).map
        (fun hit => (hit.1.take n.val, hit.2)) := by
  have hpathB : o.runPathB req.audio sceneId = .ok none := by
    simp [Orchestrator.runPathB, hslu]
  simp only [Orchestrator.scoreTurn, Orchestrator.runDualPaths, hpathB]
  cases o.candidatesAt tree current with
  | error e => rfl
  | ok candidates =>
      obtain ⟨full, hfull⟩ := hcuts req.text candidates
      simp only [bind, Except.bind, hfull]
      cases full with
      | error e => rfl
      | ok ranked =>
          have hsilent (ranked : List MatchCandidate) (nBest : Nat) :
              fuse ranked none candidates (o.fusionConfig.forScene sceneId) nBest =
                .ok (ranked.take nBest) := fuse_silent rfl _ _ _
          simp only [Except.map, hsilent, List.take_take, min_self,
            resolveTop_take n.property.1, resolveTop_take m.property.1]
          cases resolveTop ranked candidates with
          | error e => rfl
          | ok top => simp [List.take_take, min_eq_left hnm]

/-- The answer with its list cut. -/
def cutNBest (n : NBest) (response : RecognitionResponse) : RecognitionResponse :=
  { response with nBest := response.nBest.take n.val }

theorem turn_cut (hslu : o.slu = none) (hcuts : CutsAtNBest o.matcher) {n m : NBest}
    (hnm : n.val ≤ m.val) (sceneId : String) (tree : CategoryTree) (session : Session) :
    o.turn { req with nBest := n } sceneId tree session =
      (o.turn { req with nBest := m } sceneId tree session).map
        (fun result => (cutNBest n result.1, result.2)) := by
  simp only [Orchestrator.turn, scoreTurn_cut hslu hcuts hnm]
  cases o.scoreTurn { req with nBest := m } sceneId tree session.currentCategoryId with
  | error e => rfl
  | ok hit =>
      simp only [Except.map, bind, Except.bind]
      cases Orchestrator.followTarget tree hit.2.2 with
      | error e => rfl
      | ok target => rfl

theorem recognize_cut (hslu : o.slu = none) (hcuts : CutsAtNBest o.matcher) {n m : NBest}
    (hnm : n.val ≤ m.val) :
    o.recognize uuid store { req with nBest := n } =
      ((o.recognize uuid store { req with nBest := m }).1.map (cutNBest n),
        (o.recognize uuid store { req with nBest := m }).2) := by
  have hscene : o.resolveScene { req with nBest := n } = o.resolveScene { req with nBest := m } :=
    rfl
  simp only [Orchestrator.recognize, hscene]
  cases o.resolveScene { req with nBest := m } with
  | error e => rfl
  | ok place =>
      obtain ⟨sceneId, categoryId, tree⟩ := place
      simp only [turn_cut hslu hcuts hnm]
      have hoverride : Orchestrator.override { req with nBest := n } categoryId =
          Orchestrator.override { req with nBest := m } categoryId := rfl
      rw [hoverride]
      cases o.turn { req with nBest := m } sceneId tree
          (Orchestrator.override { req with nBest := m } categoryId
            (Orchestrator.loadOrCreateSession uuid store req.sessionId categoryId).1) with
      | error e => rfl
      | ok result => rfl

theorem recognize_abstains (habstains : Abstains o.slu) :
    o.recognize uuid store req =
      { o with slu := none }.recognize uuid store { req with audio := none } := by
  have hturn (sceneId : String) (tree : CategoryTree) (session : Session) :
      o.turn req sceneId tree session =
        { o with slu := none }.turn { req with audio := none } sceneId tree session := by
    rw [Orchestrator.turn, Orchestrator.turn, scoreTurn_abstains habstains]
  have hscene : o.resolveScene req =
      { o with slu := none }.resolveScene { req with audio := none } := rfl
  simp only [Orchestrator.recognize, hturn, hscene]
  rfl

end Orchestrator

/-- The matchers that `get_matcher` returns. -/
def Shipped (matcher : IntentMatcher) : Prop :=
  (∃ dim, ∃ e : ONNXEmbedderMatcher dim, matcher = e.score) ∨
    ∃ ngram, matcher = Core.StubMatcher.score ngram

theorem Shipped.cuts {matcher : IntentMatcher} (h : Shipped matcher) : CutsAtNBest matcher := by
  rcases h with ⟨dim, e, rfl⟩ | ⟨ngram, rfl⟩
  · exact e.score_cuts
  · exact StubMatcher.score_cuts ngram

/-- **With the shipped backends Path B and the audio make no difference, and `n_best` only
cuts the list.**  Whatever the call comes to, an answer or an exception, it comes to the
same without Path B and without audio, with the same sessions stored, for every `n_best`;
an answer to the longer list differs from that to the shorter one in nothing else. -/
theorem shipped_recognize_cut (o : Orchestrator) (uuid : Nat → String) (store : SessionStore)
    (req : RecognitionRequest) (n m : NBest) (hmatcher : Shipped o.matcher)
    (hslu : o.slu = none ∨ o.slu = some StubSLU.recognizeAudio) (hnm : n.val ≤ m.val) :
    o.recognize uuid store { req with nBest := n } =
      (({ o with slu := none }.recognize uuid store
          { req with nBest := m, audio := none }).1.map (cutNBest n),
        ({ o with slu := none }.recognize uuid store
          { req with nBest := m, audio := none }).2) := by
  have habstains : Abstains o.slu := by
    rcases hslu with hslu | hslu
    · intro backend hbackend
      cases hslu.symm.trans hbackend
    · exact hslu ▸ abstains_stubSLU
  rw [recognize_abstains habstains]
  exact @recognize_cut { o with slu := none } uuid store { req with audio := none } rfl
    hmatcher.cuts n m hnm

section Examples

/-- The pair scene with the shipped backends. -/
def pairShipped : Orchestrator :=
  { pairOrchestrator with slu := some StubSLU.recognizeAudio }

theorem shipped_recognize_cut_pair :
    (pairShipped.recognize (fun _ => "s0") .empty
        { pairRequest with nBest := ⟨1, by decide⟩ }).1.map
          (fun response => response.nBest.map MatchCandidate.key) = .ok [("a", 1)] ∧
      pairShipped.recognize (fun _ => "s0") .empty { pairRequest with nBest := ⟨1, by decide⟩ } =
        (({ pairShipped with slu := none }.recognize (fun _ => "s0") .empty
            { pairRequest with nBest := ⟨3, by decide⟩, audio := none }).1.map
              (cutNBest ⟨1, by decide⟩),
          ({ pairShipped with slu := none }.recognize (fun _ => "s0") .empty
            { pairRequest with nBest := ⟨3, by decide⟩, audio := none }).2) :=
  ⟨by decide +kernel, shipped_recognize_cut pairShipped (fun _ => "s0") .empty pairRequest
    ⟨1, by decide⟩ ⟨3, by decide⟩ (.inr ⟨2, rfl⟩) (.inr rfl) (by decide)⟩

end Examples

end Models
end Sandroid
