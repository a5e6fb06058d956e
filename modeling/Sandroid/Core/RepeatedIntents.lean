import Sandroid.Core.FusionRanking

/-!
# Pools that name an intent twice

The loader checks that category ids are distinct, but not intent ids, and
`scope` concatenates what it collects: an ENUM subtree that is reached both as
a child and through an `extends_enum_category` pointer stands in the pool twice.

* `nBest_distinct_iff`: an n-best list names an id twice exactly when Path B has
  no vote in scope and the pool is crowded, that is, two entries of one id both
  make the cut.
* `top_answer_iff`: the winner is looked up again by its id, and the lookup
  returns the last intent with it.

A pool that lists every id once is never crowded, and in a pool without two intents
of one id the winner gives its own answer.
-/

namespace Sandroid
namespace Core

open Lib Storage

section Calls

variable {o : Orchestrator} {uuid : Nat → String} {store : SessionStore}
variable {req : RecognitionRequest} {response : RecognitionResponse} {ngram : Nat}

/-- The n-best list names each intent once, names intents of the pool, and is
in order. -/
structure CleanNBest (candidates : List Intent) (nBest : List MatchCandidate) : Prop where
  distinct : (nBest.map MatchCandidate.intentId).Nodup
  inScope : ∀ e, e ∈ nBest → InScope candidates e.intentId
  ordered : nBest.Pairwise (fun e e' => e'.confidence.val ≤ e.confidence.val)

theorem confidence_le_of_ranksAtLeast {e e' : MatchCandidate} (h : RanksAtLeast e.key e'.key) :
    e'.confidence.val ≤ e.confidence.val := by
  rcases h with h | ⟨h, -⟩
  · exact h.le
  · exact h.ge

/-- Entries of the scored pool belong to candidates. -/
theorem mem_scored_iff {text : String} {candidates : List Intent} {x : IntentId × ℚ} :
    x ∈ StubMatcher.scored ngram text candidates ↔
      ∃ c, c ∈ candidates ∧
        x = (c.id, StubMatcher.best (charNgrams text ngram) ngram c.question) ∧ 0 < x.2 := by
  rw [StubMatcher.scored, List.mem_filter, List.mem_map]
  constructor
  · rintro ⟨⟨c, hc, rfl⟩, hpos⟩
    exact ⟨c, hc, rfl, by simpa using hpos⟩
  · rintro ⟨c, hc, rfl, hpos⟩
    exact ⟨⟨c, hc, rfl⟩, by simpa using hpos⟩

/-- Without a vote in scope the n-best list is the beginning of the matcher's
ranking. -/
theorem exists_ranking_of_silent {sceneId : String} {candidates : List Intent}
    {slu : Option FinalIntent} {ranked : List MatchCandidate} {n : Nat}
    (hranked : StubMatcher.score ngram req.text candidates n = .ok ranked)
    (hvote : activeVote slu candidates = none)
    (hfuse : fuse ranked slu candidates (o.fusionConfig.forScene sceneId) n =
      .ok response.nBest) :
    ∃ full : List MatchCandidate,
      (full.map MatchCandidate.key).Pairwise RanksAtLeast ∧
      (full.map MatchCandidate.key).Perm (StubMatcher.scored ngram req.text candidates) ∧
      response.nBest = full.take n := by
  obtain ⟨full, hsort, hperm, hfull⟩ := StubMatcher.exists_ranking ngram req.text candidates
  rw [hfull, Except.ok.injEq] at hranked
  rw [fuse_silent hvote, Except.ok.injEq, ← hranked, List.take_take, min_self] at hfuse
  exact ⟨full, List.pairwise_map.mpr hsort, hperm, hfuse.symm⟩

/-- A vote in scope leaves a clean list; without one it is the matcher's, cut. -/
theorem cleanNBest_iff {sceneId : String} {candidates : List Intent} {slu : Option FinalIntent}
    {ranked : List MatchCandidate}
    (hranked : StubMatcher.score ngram req.text candidates req.nBest.val = .ok ranked)
    (hfuse : fuse ranked slu candidates (o.fusionConfig.forScene sceneId) req.nBest.val =
      .ok response.nBest) :
    CleanNBest candidates response.nBest ↔
      activeVote slu candidates ≠ none ∨
        ¬ Crowded (StubMatcher.scored ngram req.text candidates) req.nBest.val := by
  cases hvote : activeVote slu candidates with
  | some vote =>
      refine ⟨fun _ => Or.inl nofun, fun _ => ?_⟩
      obtain ⟨fused, hfused, hkeys⟩ := fuse_voting hvote ranked
        (o.fusionConfig.forScene sceneId) req.nBest.val
      rw [hfuse, Except.ok.injEq] at hfused
      subst hfused
      have hrank : FusedRanking ranked vote.1 vote.2 candidates _ _ response.nBest :=
        fusedRanking_of_keys hkeys
      refine ⟨hrank.distinct, hrank.inScope, hrank.ordered.imp ?_⟩
      intro e e' hlt
      rcases hlt with hlt | ⟨heq, -⟩
      · exact hlt.le
      · exact heq.ge
  | none =>
      obtain ⟨full, hsort, hperm, hcut⟩ := exists_ranking_of_silent hranked hvote hfuse
      have hnodup := nodup_take_iff_not_crowded hsort hperm req.nBest.val
      rw [← List.map_take, List.map_map] at hnodup
      constructor
      · intro hclean
        rw [hcut] at hclean
        exact Or.inr (hnodup.mp hclean.distinct)
      · intro hcond
        rw [hcut]
        refine ⟨hnodup.mpr (hcond.resolve_left (fun hne => hne rfl)), ?_, ?_⟩
        · intro e he
          have hkey := hperm.mem_iff.mp (List.mem_map_of_mem (List.mem_of_mem_take he))
          obtain ⟨c, hc, heq, -⟩ := mem_scored_iff.mp hkey
          exact ⟨c, hc, (congrArg Prod.fst heq).symm⟩
        · exact ((List.pairwise_map.mp hsort).sublist (List.take_sublist _ _)).imp
            confidence_le_of_ranksAtLeast

/-- **The n-best list of a call is clean exactly when Path B votes in scope or
the pool is not crowded.** -/
theorem nBest_distinct_iff (hmatcher : o.matcher = StubMatcher.score ngram)
    (h : (o.recognize uuid store req).1 = .ok response) :
    ∃ sceneId candidates vote,
      o.contest uuid store req = .ok (sceneId, candidates, vote) ∧
      (CleanNBest candidates response.nBest ↔
        vote ≠ none ∨
          ¬ Crowded (StubMatcher.scored ngram req.text candidates) req.nBest.val) := by
  obtain ⟨sceneId, candidates, slu, ranked, followUp, hcontest, -, hranked, hfuse, -⟩ :=
    recognize_contest (n := req.nBest) h
  rw [hmatcher] at hranked
  exact ⟨sceneId, candidates, activeVote slu candidates, hcontest, cleanNBest_iff hranked hfuse⟩

/-- A pool that lists every id once gives a clean list. -/
theorem cleanNBest_of_nodup (hmatcher : o.matcher = StubMatcher.score ngram)
    (h : (o.recognize uuid store req).1 = .ok response) :
    ∃ sceneId candidates vote,
      o.contest uuid store req = .ok (sceneId, candidates, vote) ∧
      ((candidates.map Intent.id).Nodup → CleanNBest candidates response.nBest) := by
  obtain ⟨sceneId, candidates, slu, ranked, followUp, hcontest, -, hranked, hfuse, -⟩ :=
    recognize_contest (n := req.nBest) h
  rw [hmatcher] at hranked
  refine ⟨sceneId, candidates, activeVote slu candidates, hcontest, ?_⟩
  intro hnodup
  refine (cleanNBest_iff hranked hfuse).mpr (Or.inr (not_crowded_of_nodup ?_ _))
  rw [StubMatcher.scored]
  refine ((List.filter_sublist).map Prod.fst).nodup ?_
  rwa [List.map_map]

/-- An intent's own score against the text. -/
def ownScore (ngram : Nat) (text : String) (c : Intent) : ℚ :=
  StubMatcher.best (charNgrams text ngram) ngram c.question

/-- No candidate ranks before `w`. -/
def Wins (ngram : Nat) (text : String) (candidates : List Intent) (w : Intent) : Prop :=
  w ∈ candidates ∧ 0 < ownScore ngram text w ∧
    ∀ c, c ∈ candidates →
      ¬ RanksBefore (c.id, ownScore ngram text c) (w.id, ownScore ngram text w)

/-- A candidate with this answer and follow-up scores `q`. -/
def AnsweredBy (ngram : Nat) (text : String) (candidates : List Intent)
    (answer : Option String) (followUp : Option CategoryPath) (q : ℚ) : Prop :=
  ∃ c, c ∈ candidates ∧ c.answer = answer ∧ pyOr c.switching c.followUp = followUp ∧
    ownScore ngram text c = q

/-- `c` is the last candidate with its id. -/
def LastOfId (candidates : List Intent) (c : Intent) : Prop :=
  ∃ before after, candidates = before ++ c :: after ∧ ∀ d, d ∈ after → d.id ≠ c.id

/-- `last` scores `q`, or shares its answer and its follow-up with a candidate that does. -/
def SpeaksFor (ngram : Nat) (text : String) (candidates : List Intent) (q : ℚ)
    (last : Intent) : Prop :=
  ownScore ngram text last = q ∨
    ∃ c, c ∈ candidates ∧ ownScore ngram text c = q ∧ c.answer = last.answer ∧
      pyOr c.switching c.followUp = pyOr last.switching last.followUp

theorem LastOfId.mem {candidates : List Intent} {c : Intent} (h : LastOfId candidates c) :
    c ∈ candidates := by
  obtain ⟨before, after, heq, -⟩ := h
  simp [heq]

/-- The lookup by id finds the last candidate with it. -/
theorem intentById_eq_ok_iff {candidates : List Intent} {id : IntentId} {c : Intent} :
    intentById candidates id = .ok c ↔ c.id = id ∧ LastOfId candidates c := by
  have hfind : intentById candidates id = .ok c ↔
      candidates.reverse.find? (fun i => i.id == id) = some c := by
    rw [intentById]
    cases candidates.reverse.find? (fun i => i.id == id) with
    | none => simp
    | some d => simp
  rw [hfind, List.find?_eq_some_iff_append]
  constructor
  · rintro ⟨hid, after, before, hsplit, hafter⟩
    rw [beq_iff_eq] at hid
    refine ⟨hid, before.reverse, after.reverse, ?_, ?_⟩
    · rw [← List.reverse_reverse candidates, hsplit]
      simp
    · intro d hd
      rw [hid]
      simpa using hafter d (List.mem_reverse.mp hd)
  · rintro ⟨hid, before, after, rfl, hafter⟩
    refine ⟨by simpa using hid, after.reverse, before.reverse, by simp, ?_⟩
    intro d hd
    simpa [← hid] using hafter d (List.mem_reverse.mp hd)

theorem answeredBy_iff_speaksFor {text : String} {candidates : List Intent} {q : ℚ}
    {last : Intent} (hmem : last ∈ candidates) :
    AnsweredBy ngram text candidates last.answer (pyOr last.switching last.followUp) q ↔
      SpeaksFor ngram text candidates q last := by
  constructor
  · rintro ⟨c, hc, hanswer, hfollow, hscore⟩
    exact Or.inr ⟨c, hc, hscore, hanswer, hfollow⟩
  · rintro (hscore | ⟨c, hc, hscore, hanswer, hfollow⟩)
    · exact ⟨last, hmem, rfl, rfl, hscore⟩
    · exact ⟨c, hc, hanswer, hfollow, hscore⟩

/-- Two winners have one id and one score. -/
theorem Wins.unique {text : String} {candidates : List Intent} {v w : Intent}
    (hv : Wins ngram text candidates v) (hw : Wins ngram text candidates w) :
    v.id = w.id ∧ ownScore ngram text v = ownScore ngram text w := by
  have hkey := ranksAtLeast_antisymm
    (ranksAtLeast_of_not_ranksBefore (hv.2.2 w hw.1))
    (ranksAtLeast_of_not_ranksBefore (hw.2.2 v hv.1))
  rw [Prod.mk.injEq] at hkey
  exact hkey

/-- The head of the ranking is what wins. -/
theorem wins_iff_head {text : String} {candidates : List Intent} {e : MatchCandidate}
    {rest : List MatchCandidate}
    (hsort : ((e :: rest).map MatchCandidate.key).Pairwise RanksAtLeast)
    (hperm : ((e :: rest).map MatchCandidate.key).Perm
      (StubMatcher.scored ngram text candidates)) (w : Intent) :
    Wins ngram text candidates w ↔ w ∈ candidates ∧ e.key = (w.id, ownScore ngram text w) := by
  have hhead : ∀ x, x ∈ StubMatcher.scored ngram text candidates → RanksAtLeast e.key x := by
    intro x hx
    rcases List.mem_cons.mp (hperm.mem_iff.mpr hx) with rfl | hx
    · exact Or.inr ⟨rfl, le_rfl⟩
    · exact (List.pairwise_cons.mp hsort).1 x hx
  obtain ⟨c, hc, hkey, hpos⟩ := mem_scored_iff.mp (hperm.mem_iff.mp List.mem_cons_self)
  constructor
  · rintro ⟨hw, hwpos, hfirst⟩
    refine ⟨hw, ranksAtLeast_antisymm (hhead _ (mem_scored_iff.mpr ⟨w, hw, rfl, hwpos⟩)) ?_⟩
    rw [hkey]
    exact ranksAtLeast_of_not_ranksBefore (hfirst c hc)
  · rintro ⟨hw, heq⟩
    rw [heq] at hpos hhead
    refine ⟨hw, hpos, ?_⟩
    intro d hd hbefore
    have hdpos : 0 < ownScore ngram text d := by
      rcases hbefore with h | ⟨h, -⟩
      · exact hpos.trans h
      · exact hpos.trans_eq h.symm
    exact not_ranksBefore_of_ranksAtLeast
      (hhead _ (mem_scored_iff.mpr ⟨d, hd, rfl, hdpos⟩)) hbefore

/-- Who answers a text-only call: nobody wins, or the last candidate with the winner's id
speaks, under the winner's score. -/
theorem top_of_textOnly (hmatcher : o.matcher = StubMatcher.score ngram)
    (htext : req.audio = none) (h : (o.recognize uuid store req).1 = .ok response) :
    ∃ sceneId candidates,
      o.contest uuid store req = .ok (sceneId, candidates, none) ∧
      ((response.top = none ∧ ∀ w, ¬ Wins ngram req.text candidates w) ∨
        ∃ w last, Wins ngram req.text candidates w ∧ last.id = w.id ∧
          LastOfId candidates last ∧
          response.top = some
            { intentId := last.id
              confidence := ownScore ngram req.text w
              answer := last.answer
              followUp := pyOr last.switching last.followUp }) := by
  obtain ⟨sceneId, candidates, slu, ranked, followUp, hcontest, hslu, hranked, hfuse, htop⟩ :=
    recognize_contest (n := req.nBest) h
  have hslu' : o.runPathB none sceneId = .ok slu := htext ▸ hslu
  have hnone : slu = none := by
    rw [Orchestrator.runPathB, Except.ok.injEq] at hslu'
    · exact hslu'.symm
    · intro _ _ _ hpcm
      cases hpcm
  subst hnone
  rw [hmatcher] at hranked
  obtain ⟨full, hsort, hperm, hcut⟩ := exists_ranking_of_silent hranked rfl hfuse
  refine ⟨sceneId, candidates, hcontest, ?_⟩
  rw [hcut, resolveTop_take req.nBest.property.1] at htop
  cases full with
  | nil =>
      rw [resolveTop, Except.ok.injEq, Prod.mk.injEq] at htop
      refine Or.inl ⟨htop.1.symm, fun w hw => ?_⟩
      have hmem := mem_scored_iff.mpr ⟨w, hw.1, rfl, hw.2.1⟩
      exact absurd (hperm.mem_iff.mpr hmem) List.not_mem_nil
  | cons e rest =>
      rw [resolveTop, except_bind_eq_ok_iff] at htop
      obtain ⟨last, hlast, htop⟩ := htop
      rw [Except.ok.injEq, Prod.mk.injEq] at htop
      obtain ⟨w, hw, hkey, -⟩ := mem_scored_iff.mp (hperm.mem_iff.mp List.mem_cons_self)
      have hid : e.intentId = w.id := congrArg Prod.fst hkey
      have hscore : e.confidence.val = ownScore ngram req.text w := congrArg Prod.snd hkey
      obtain ⟨hlastId, hlastOf⟩ := intentById_eq_ok_iff.mp hlast
      refine Or.inr ⟨w, last, (wins_iff_head hsort hperm w).mpr ⟨hw, hkey⟩,
        hlastId.trans hid, hlastOf, ?_⟩
      rw [← htop.1, hscore]

/-- **The answer of a text-only call belongs to a candidate with the top
confidence exactly when the last candidate with the winner's id attains it, or shares
answer and follow-up with one that does.** -/
theorem top_answer_iff (hmatcher : o.matcher = StubMatcher.score ngram)
    (htext : req.audio = none) (h : (o.recognize uuid store req).1 = .ok response) :
    ∃ sceneId candidates,
      o.contest uuid store req = .ok (sceneId, candidates, none) ∧
      ((∀ top, response.top = some top →
          AnsweredBy ngram req.text candidates top.answer top.followUp top.confidence) ↔
        ∀ w last, Wins ngram req.text candidates w → last.id = w.id →
          LastOfId candidates last →
            SpeaksFor ngram req.text candidates (ownScore ngram req.text w) last) := by
  obtain ⟨sceneId, candidates, hcontest, hcase⟩ := top_of_textOnly hmatcher htext h
  refine ⟨sceneId, candidates, hcontest, ?_⟩
  rcases hcase with ⟨hnone, hloses⟩ | ⟨w, last, hwins, hid, hlast, htop⟩
  · rw [hnone]
    exact ⟨fun _ v _ hv => absurd hv (hloses v), fun _ top htop => by cases htop⟩
  · simp only [htop, Option.some.injEq, forall_eq', answeredBy_iff_speaksFor hlast.mem]
    constructor
    · intro hspeaks v last' hv hid' hlast'
      obtain ⟨hsame, hscore⟩ := hv.unique hwins
      have hfirst := intentById_eq_ok_iff.mpr ⟨hid'.trans hsame, hlast'⟩
      rw [intentById_eq_ok_iff.mpr ⟨hid, hlast⟩, Except.ok.injEq] at hfirst
      rw [← hfirst, hscore]
      exact hspeaks
    · intro hall
      exact hall w last hwins hid hlast

/-- Where no two intents of the pool share an id, the winner gives its own answer. -/
theorem answered_of_uniqueIds (hmatcher : o.matcher = StubMatcher.score ngram)
    (htext : req.audio = none) (h : (o.recognize uuid store req).1 = .ok response) :
    ∃ sceneId candidates,
      o.contest uuid store req = .ok (sceneId, candidates, none) ∧
      ((∀ c d, c ∈ candidates → d ∈ candidates → c.id = d.id → c = d) →
        ∀ top, response.top = some top →
          AnsweredBy ngram req.text candidates top.answer top.followUp top.confidence) := by
  obtain ⟨sceneId, candidates, hcontest, hcase⟩ := top_of_textOnly hmatcher htext h
  refine ⟨sceneId, candidates, hcontest, ?_⟩
  intro hunique top hsome
  rcases hcase with ⟨hnone, -⟩ | ⟨w, last, hwins, hid, hlast, htop⟩
  · rw [hnone] at hsome
    cases hsome
  · rw [htop] at hsome
    cases hsome
    rw [hunique last w hlast.mem hwins.1 hid]
    exact ⟨w, hwins.1, rfl, rfl, rfl⟩

end Calls

/-- The scene of two cities' intents, served without Path B. -/
def sharedOrchestrator : Orchestrator :=
  { registry := ⟨⟨[("shared", sharedTree)], by decide⟩⟩
    matcher := StubMatcher.score 2
    fusionConfig := { default := pathAWeights, scenes := Dict.empty }
    recursionLimit := 10 }

def sharedRequest : RecognitionRequest :=
  { sceneId := some "shared", text := "paris" }

def sharedResponse : RecognitionResponse :=
  { sessionId := "s0"
    top := some { intentId := "paris", confidence := 1, answer := none, followUp := none }
    nBest := sharedRanking
    followUp := none
    currentCategoryId := "root" }

/-- An accepted scene whose n-best list names `paris` twice. -/
theorem nBest_repeats_shared :
    buildTree "root" sharedEntries = .ok sharedTree ∧
      (sharedOrchestrator.recognize (fun _ => "s0") .empty sharedRequest).1 =
        .ok sharedResponse ∧
      ¬ (sharedResponse.nBest.map MatchCandidate.intentId).Nodup := by
  refine ⟨by decide, by decide +kernel, by decide⟩

/-- With two places the pool is crowded and the list repeats `paris`; with one it is not,
and the list is clean. -/
theorem nBest_distinct_shared :
    ¬ CleanNBest sharedPool sharedRanking ∧ CleanNBest sharedPool (sharedRanking.take 1) ∧
      (sharedOrchestrator.recognize (fun _ => "s0") .empty sharedRequest).1 =
        .ok sharedResponse ∧
      (sharedOrchestrator.recognize (fun _ => "s0") .empty
        { sharedRequest with nBest := ⟨1, by decide⟩ }).1 =
        .ok { sharedResponse with nBest := sharedRanking.take 1 } := by
  have hwide : (sharedOrchestrator.recognize (fun _ => "s0") .empty sharedRequest).1 =
      .ok sharedResponse := by decide +kernel
  have hnarrow : (sharedOrchestrator.recognize (fun _ => "s0") .empty
      { sharedRequest with nBest := ⟨1, by decide⟩ }).1 =
      .ok { sharedResponse with nBest := sharedRanking.take 1 } := by decide +kernel
  have hpool : sharedOrchestrator.contest (fun _ => "s0") .empty sharedRequest =
      .ok ("shared", sharedPool, none) := by decide +kernel
  have hcounted : StubMatcher.scored 2 "paris" sharedPool = [("paris", 1), ("paris", 1)] := by
    decide +kernel
  have hcrowded (n : Nat) : Crowded [("paris", (1 : ℚ)), ("paris", 1)] n ↔ 2 ≤ n := by
    constructor
    · rintro ⟨a, b, rest, hperm, -, -, hcount⟩
      omega
    · intro hn
      exact ⟨_, _, [], .refl _, rfl, Or.inr ⟨rfl, le_refl _⟩, by simpa using hn⟩
  refine ⟨?_, ?_, hwide, hnarrow⟩
  · obtain ⟨sceneId, candidates, vote, hcontest, hiff⟩ :=
      @nBest_distinct_iff sharedOrchestrator (fun _ => "s0") .empty sharedRequest
        sharedResponse 2 rfl hwide
    rw [hpool, Except.ok.injEq, Prod.mk.injEq, Prod.mk.injEq] at hcontest
    obtain ⟨-, rfl, rfl⟩ := hcontest
    intro hclean
    rcases hiff.mp hclean with hvote | hnot
    · exact hvote rfl
    · exact hnot (hcounted ▸ (hcrowded 5).mpr (by decide))
  · obtain ⟨sceneId, candidates, vote, hcontest, hiff⟩ :=
      @nBest_distinct_iff sharedOrchestrator (fun _ => "s0") .empty
        { sharedRequest with nBest := ⟨1, by decide⟩ }
        { sharedResponse with nBest := sharedRanking.take 1 } 2 rfl hnarrow
    have hsame : sharedOrchestrator.contest (fun _ => "s0") .empty
        { sharedRequest with nBest := ⟨1, by decide⟩ } = .ok ("shared", sharedPool, none) := hpool
    rw [hsame, Except.ok.injEq, Prod.mk.injEq, Prod.mk.injEq] at hcontest
    obtain ⟨-, rfl, rfl⟩ := hcontest
    refine hiff.mpr (Or.inr ?_)
    intro hcrowd
    have htwo := (hcrowded 1).mp (hcounted ▸ hcrowd)
    omega

def bankHours : Intent :=
  { id := "hours", categoryId := "bank", question := ["bank"], answer := some "from nine" }

def shopHours : Intent :=
  { id := "hours", categoryId := "shop", question := ["shop"], answer := some "from ten" }

/-- Two categories with an intent `hours` each. -/
def twinEntries : List CategoryEntry :=
  [{ id := "root", name := "root" },
    { id := "bank", name := "bank", parentId := some "root",
      intents := [bankHours] },
    { id := "shop", name := "shop", parentId := some "root",
      intents := [shopHours] }]

def twinTree : CategoryTree :=
  { rootId := "root"
    categories := ⟨[
      ("root", { id := "root", name := "root", childIds := ["bank", "shop"] }),
      ("bank", { id := "bank", name := "bank", parentId := some "root",
                 intents := [bankHours] }),
      ("shop", { id := "shop", name := "shop", parentId := some "root",
                 intents := [shopHours] })], by decide⟩ }

def twinOrchestrator : Orchestrator :=
  { sharedOrchestrator with registry := ⟨⟨[("twin", twinTree)], by decide⟩⟩ }

def twinResponse (answer : String) : RecognitionResponse :=
  { sessionId := "s0"
    top := some { intentId := "hours", confidence := 1, answer := some answer, followUp := none }
    nBest := [⟨"hours", ⟨1, confidence_one⟩⟩]
    followUp := none
    currentCategoryId := "root" }

/-- Asked about the bank, the scene answers for the shop, which scores nothing. -/
theorem top_answer_twin :
    buildTree "root" twinEntries = .ok twinTree ∧
      scope twinTree 10 "root" = .ok [bankHours, shopHours] ∧
      (twinOrchestrator.recognize (fun _ => "s0") .empty
        { sceneId := some "twin", text := "bank" }).1 = .ok (twinResponse "from ten") ∧
      ¬ AnsweredBy 2 "bank" [bankHours, shopHours] (some "from ten") none 1 := by
  refine ⟨by decide, by decide, by decide +kernel, ?_⟩
  rintro ⟨c, hc, hanswer, -, hscore⟩
  rcases List.mem_cons.mp hc with rfl | hc
  · exact absurd hanswer (by decide)
  · rw [List.mem_singleton.mp hc] at hscore
    have hzero : ownScore 2 "bank" shopHours = 0 := by decide +kernel
    rw [hzero] at hscore
    exact absurd hscore zero_ne_one

/-- Asked about the shop, it answers for the shop. -/
theorem top_answer_shop :
    (twinOrchestrator.recognize (fun _ => "s0") .empty
        { sceneId := some "twin", text := "shop" }).1 = .ok (twinResponse "from ten") ∧
      AnsweredBy 2 "shop" [bankHours, shopHours] (some "from ten") none 1 := by
  have hcall : (twinOrchestrator.recognize (fun _ => "s0") .empty
      { sceneId := some "twin", text := "shop" }).1 = .ok (twinResponse "from ten") := by
    decide +kernel
  have hpool : twinOrchestrator.contest (fun _ => "s0") .empty
      { sceneId := some "twin", text := "shop" } =
        .ok ("twin", [bankHours, shopHours], none) := by decide +kernel
  refine ⟨hcall, ?_⟩
  obtain ⟨sceneId, candidates, hcontest, hiff⟩ :=
    @top_answer_iff twinOrchestrator (fun _ => "s0") .empty
      { sceneId := some "twin", text := "shop" } (twinResponse "from ten") 2 rfl rfl hcall
  rw [hpool, Except.ok.injEq, Prod.mk.injEq, Prod.mk.injEq] at hcontest
  obtain ⟨-, rfl, -⟩ := hcontest
  refine hiff.mpr ?_ _ rfl
  intro w last hwins hid hlast
  have hone : ownScore 2 "shop" shopHours = 1 := by decide +kernel
  have hbank : ownScore 2 "shop" bankHours = 0 := by decide +kernel
  have hw : w = shopHours := by
    rcases List.mem_cons.mp hwins.1 with rfl | hmem
    · exact absurd hwins.2.1 (by rw [hbank]; exact lt_irrefl 0)
    · exact List.mem_singleton.mp hmem
  have hfind : intentById [bankHours, shopHours] "hours" = .ok shopHours := by decide
  have hlast' : intentById [bankHours, shopHours] "hours" = .ok last :=
    intentById_eq_ok_iff.mpr ⟨hid.trans (by rw [hw]; rfl), hlast⟩
  rw [hfind, Except.ok.injEq] at hlast'
  rw [← hlast', hw]
  exact Or.inl rfl

end Core
end Sandroid
