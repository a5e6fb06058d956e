import Sandroid.Core.NBest

/-!
# What a fused ranking is

Three results about `fuse` over exact rationals.

* `fuse_ranks_votes`: with Path B's vote in scope, the list that comes out is
  the strict ranking of the pool's ids by fused score, cut to `n_best`.
* `fuse_monotone_vote`: a more confident vote moves its intent up and leaves
  the others alone.
* `fuse_pathA_only_iff`: with `w_b = 0` fusion gives back Path A's ranking,
  whatever Path B says, exactly when that ranking names no intent twice and
  holds no zero confidence.  The silent path cuts the list as it is; the voting
  path rebuilds it through a dictionary and a positivity filter.
-/

namespace Sandroid
namespace Core

open Lib

/-- The ids of a candidate list. -/
def InScope (candidates : List Intent) (id : IntentId) : Prop :=
  ∃ c, c ∈ candidates ∧ c.id = id

section Votes

variable {candidates : List Intent} {slu : FinalIntent} {b : IntentId}

theorem activeVote_eq_some (hb : slu.intentId = some b) (hscope : InScope candidates b) :
    activeVote (some slu) candidates = some (b, slu.confidence) := by
  obtain ⟨c, hc, hid⟩ := hscope
  have hany : candidates.any (fun c => c.id == b) = true :=
    List.any_eq_true.mpr ⟨c, hc, by simpa using hid⟩
  simp only [activeVote, hb, hany, if_true]

/-- What `fuse` returns for a vote `(b, conf)` in scope. -/
structure FusedRanking (rankedA : List MatchCandidate) (b : IntentId) (conf : Confidence)
    (candidates : List Intent) (weights : FusionWeights) (n : Nat)
    (fused : List MatchCandidate) : Prop where
  length_le : fused.length ≤ n
  distinct : (fused.map MatchCandidate.intentId).Nodup
  inScope : ∀ e, e ∈ fused → InScope candidates e.intentId
  scored : ∀ e, e ∈ fused →
    e.confidence.val = fusedScore weights rankedA (b, conf) e.intentId ∧
      0 < e.confidence.val ∧ e.confidence.val ≤ 1
  ordered : fused.Pairwise (fun e e' => RanksBefore e.key e'.key)
  leftOut : ∀ id, InScope candidates id → (∀ e, e ∈ fused → e.intentId ≠ id) →
    fusedScore weights rankedA (b, conf) id = 0 ∨
      fused.length = n ∧
        ∀ e, e ∈ fused → RanksBefore e.key (id, fusedScore weights rankedA (b, conf) id)

/-- The fused list, in terms of the ranking that it is cut from. -/
theorem fusedRanking_of_keys {rankedA : List MatchCandidate} {conf : Confidence}
    {weights : FusionWeights} {n : Nat} {fused : List MatchCandidate}
    (hkeys : fused.map MatchCandidate.key =
      (ranking (candidateIds candidates) (fusedScore weights rankedA (b, conf)) 0).take n) :
    FusedRanking rankedA b conf candidates weights n fused := by
  have hids := nodup_candidateIds candidates
  generalize hL : ranking (candidateIds candidates) (fusedScore weights rankedA (b, conf)) 0 = L
    at hkeys
  have hmem : ∀ e, e ∈ fused → e.intentId ∈ candidateIds candidates ∧
      e.confidence.val = fusedScore weights rankedA (b, conf) e.intentId ∧
      0 < fusedScore weights rankedA (b, conf) e.intentId := by
    intro e he
    have hkey : e.key ∈ L.take n := hkeys ▸ List.mem_map_of_mem he
    rw [← hL] at hkey
    exact mem_ranking_iff.mp (List.mem_of_mem_take hkey)
  have hsplit : (L.take n).Pairwise RanksBefore ∧ (L.drop n).Pairwise RanksBefore ∧
      ∀ x, x ∈ L.take n → ∀ y, y ∈ L.drop n → RanksBefore x y := by
    rw [← List.pairwise_append, List.take_append_drop, ← hL]
    exact pairwise_ranking hids _ 0
  refine ⟨?_, ?_, ?_, ?_, ?_, ?_⟩
  · have hlen := congrArg List.length hkeys
    rw [List.length_map, List.length_take] at hlen
    omega
  · have hfst : fused.map MatchCandidate.intentId = (L.take n).map Prod.fst := by
      rw [← hkeys, List.map_map]
      rfl
    rw [hfst, ← hL]
    exact ((List.take_sublist _ _).map _).nodup (nodup_ranking hids _ 0)
  · intro e he
    exact mem_candidateIds.mp (hmem e he).1
  · intro e he
    obtain ⟨-, hscore, hpos⟩ := hmem e he
    exact ⟨hscore, hscore ▸ hpos, e.confidence.property.2⟩
  · rw [← List.pairwise_map (f := MatchCandidate.key), hkeys]
    exact hsplit.1
  · intro id hid hout
    have hunit := fusedScore_mem_unit weights rankedA (b, conf) id
    rcases hunit.1.eq_or_lt with hzero | hpos
    · exact Or.inl hzero.symm
    · refine Or.inr ?_
      have hrest : (id, fusedScore weights rankedA (b, conf) id) ∈ L.drop n := by
        have hL' : (id, fusedScore weights rankedA (b, conf) id) ∈ L :=
          hL ▸ mem_ranking_iff.mpr ⟨mem_candidateIds.mpr hid, rfl, hpos⟩
        rw [← List.take_append_drop n L] at hL'
        refine (List.mem_append.mp hL').resolve_left ?_
        intro htake
        rw [← hkeys] at htake
        obtain ⟨e, he, hkey⟩ := List.mem_map.mp htake
        exact hout e he (congrArg Prod.fst hkey)
      constructor
      · have hlen := congrArg List.length hkeys
        have hdrop := List.length_pos_of_mem hrest
        rw [List.length_map, List.length_take] at hlen
        rw [List.length_drop] at hdrop
        omega
      · intro e he
        exact hsplit.2.2 e.key (hkeys ▸ List.mem_map_of_mem he) _ hrest

/-- Candidate lists with the same ids. -/
theorem candidateIds_perm {candidates' : List Intent}
    (h : ∀ id, InScope candidates' id ↔ InScope candidates id) :
    (candidateIds candidates').Perm (candidateIds candidates) := by
  refine (List.perm_ext_iff_of_nodup (nodup_candidateIds _) (nodup_candidateIds _)).mpr ?_
  intro id
  rw [mem_candidateIds, mem_candidateIds]
  exact h id

/-- **With a vote in scope `fuse` ranks correctly**, and the order and the
repetition of the candidates do not matter. -/
theorem fuse_ranks_votes (hb : slu.intentId = some b) (hscope : InScope candidates b)
    (rankedA : List MatchCandidate) (weights : FusionWeights) (n : Nat) :
    weights.normalized.1 + weights.normalized.2 = 1 ∧
    ∃ fused, fuse rankedA (some slu) candidates weights n = .ok fused ∧
      FusedRanking rankedA b slu.confidence candidates weights n fused ∧
      ∀ candidates', (∀ id, InScope candidates' id ↔ InScope candidates id) →
        fuse rankedA (some slu) candidates' weights n = .ok fused := by
  refine ⟨weights.normalized_sum, ?_⟩
  obtain ⟨fused, hfuse, hkeys⟩ := fuse_voting (activeVote_eq_some hb hscope) rankedA weights n
  refine ⟨fused, hfuse, fusedRanking_of_keys hkeys, ?_⟩
  intro candidates' hsame
  have hscope' := (hsame b).mpr hscope
  obtain ⟨fused', hfuse', hkeys'⟩ :=
    fuse_voting (activeVote_eq_some hb hscope') rankedA weights n
  rw [ranking_perm (candidateIds_perm hsame), ← hkeys] at hkeys'
  rw [hfuse', List.map_injective_iff.mpr MatchCandidate.key_injective hkeys']

/-- A pool of two intents, and a Path A list that names one of them twice. -/
def pairPool : List Intent :=
  [{ id := "a", categoryId := "root", question := ["abc"] },
    { id := "b", categoryId := "root", question := ["abd"] }]

def pairVote (conf : Confidence) : FinalIntent :=
  { intentId := some "b", confidence := conf, durationMs := 20 }

def pairRankedA : List MatchCandidate :=
  [⟨"a", ⟨1, confidence_one⟩⟩, ⟨"b", ⟨1 / 3, confidence_third⟩⟩, ⟨"a", ⟨1 / 2, confidence_half⟩⟩]

theorem inScope_pairPool : InScope pairPool "b" :=
  ⟨{ id := "b", categoryId := "root", question := ["abd"] }, by decide, rfl⟩

theorem fuse_ranks_pairVote :
    (halfWeights.normalized.1 + halfWeights.normalized.2 = 1) ∧
    ∃ fused, fuse pairRankedA (some (pairVote ⟨9 / 10, by norm_num⟩)) pairPool halfWeights 2 =
        .ok fused ∧
      FusedRanking pairRankedA "b" ⟨9 / 10, by norm_num⟩ pairPool halfWeights 2 fused ∧
      ∀ candidates', (∀ id, InScope candidates' id ↔ InScope pairPool id) →
        fuse pairRankedA (some (pairVote ⟨9 / 10, by norm_num⟩)) candidates' halfWeights 2 =
          .ok fused :=
  @fuse_ranks_votes pairPool (pairVote ⟨9 / 10, by norm_num⟩) "b" rfl inScope_pairPool
    pairRankedA halfWeights 2

/-- A more confident vote raises the fused score of its intent, and no other. -/
theorem fusedScore_vote_le (weights : FusionWeights) (rankedA : List MatchCandidate)
    {conf conf' : Confidence} (hle : conf.val ≤ conf'.val) :
    fusedScore weights rankedA (b, conf) b ≤ fusedScore weights rankedA (b, conf') b := by
  rw [fusedScore, fusedScore, if_pos rfl, if_pos rfl]
  have hmul := mul_le_mul_of_nonneg_left hle weights.normalized_nonneg.2
  linarith

theorem fusedScore_vote_ne (weights : FusionWeights) (rankedA : List MatchCandidate)
    (conf conf' : Confidence) {id : IntentId} (hid : id ≠ b) :
    fusedScore weights rankedA (b, conf) id = fusedScore weights rankedA (b, conf') id := by
  rw [fusedScore, fusedScore, if_neg hid.symm, if_neg hid.symm]

/-- **A more confident vote moves its intent up**, and the others keep their
order and their confidences, with no new ones among them. -/
theorem fuse_monotone_vote {slu' : FinalIntent} (hscope : InScope candidates b)
    (hb : slu.intentId = some b) (hb' : slu'.intentId = some b)
    (hle : slu.confidence.val ≤ slu'.confidence.val)
    (rankedA : List MatchCandidate) (weights : FusionWeights) (n : Nat) :
    ∃ fused fused',
      fuse rankedA (some slu) candidates weights n = .ok fused ∧
      fuse rankedA (some slu') candidates weights n = .ok fused' ∧
      (∀ (k : Nat) e, fused[k]? = some e → e.intentId = b →
        ∃ (k' : Nat) (e' : MatchCandidate), k' ≤ k ∧ fused'[k']? = some e' ∧
          e'.intentId = b ∧ e.confidence.val ≤ e'.confidence.val) ∧
      fused'.filter (fun e => decide (e.intentId ≠ b)) <+:
        fused.filter (fun e => decide (e.intentId ≠ b)) := by
  obtain ⟨fused, hfuse, hkeys⟩ := fuse_voting (activeVote_eq_some hb hscope) rankedA weights n
  obtain ⟨fused', hfuse', hkeys'⟩ :=
    fuse_voting (activeVote_eq_some hb' hscope) rankedA weights n
  obtain ⟨hup, hothers⟩ := take_ranking_raise (t := 0) (nodup_candidateIds candidates)
    (mem_candidateIds.mpr hscope)
    (fun _ hid => fusedScore_vote_ne weights rankedA slu.confidence slu'.confidence hid)
    (fusedScore_vote_le weights rankedA hle) n
  rw [← hkeys, ← hkeys'] at hup hothers
  refine ⟨fused, fused', hfuse, hfuse', ?_, ?_⟩
  · intro k e hk hid
    have hkey : (fused.map MatchCandidate.key)[k]? = some e.key := by
      rw [List.getElem?_map, hk]
      rfl
    have hmem := List.mem_of_getElem? hkey
    rw [hkeys] at hmem
    have hscore : e.key = (b, fusedScore weights rankedA (b, slu.confidence) b) := by
      have h := (mem_ranking_iff.mp (List.mem_of_mem_take hmem)).2.1
      rw [show e.key.1 = b from hid] at h
      exact Prod.ext hid h
    rw [hscore] at hkey
    obtain ⟨k', hk', hplace⟩ := hup k hkey
    rw [List.getElem?_map] at hplace
    obtain ⟨e', he', hkey'⟩ := Option.map_eq_some_iff.mp hplace
    refine ⟨k', e', hk', he', congrArg Prod.fst hkey', ?_⟩
    have hconf : e.confidence.val = _ := congrArg Prod.snd hscore
    have hconf' : e'.confidence.val = _ := congrArg Prod.snd hkey'
    rw [hconf, hconf']
    exact fusedScore_vote_le weights rankedA hle
  · have hfilter (l : List MatchCandidate) :
        (l.map MatchCandidate.key).filter (fun x => decide (x.1 ≠ b)) =
          (l.filter (fun e => decide (e.intentId ≠ b))).map MatchCandidate.key := by
      rw [List.filter_map]
      rfl
    rw [hfilter, hfilter] at hothers
    obtain ⟨rest, hrest⟩ := hothers
    obtain ⟨l₁, l₂, hl, hl₁, -⟩ := List.append_eq_map_iff.mp hrest
    rw [hl, ← List.map_injective_iff.mpr MatchCandidate.key_injective hl₁]
    exact List.prefix_append _ _

theorem fuse_monotone_pairVote :
    ∃ fused fused',
      fuse pairRankedA (some (pairVote ⟨1 / 10, by norm_num⟩)) pairPool halfWeights 2 =
        .ok fused ∧
      fuse pairRankedA (some (pairVote ⟨9 / 10, by norm_num⟩)) pairPool halfWeights 2 =
        .ok fused' ∧
      (∀ (k : Nat) e, fused[k]? = some e → e.intentId = "b" →
        ∃ (k' : Nat) (e' : MatchCandidate), k' ≤ k ∧ fused'[k']? = some e' ∧
          e'.intentId = "b" ∧ e.confidence.val ≤ e'.confidence.val) ∧
      fused'.filter (fun e => decide (e.intentId ≠ "b")) <+:
        fused.filter (fun e => decide (e.intentId ≠ "b")) :=
  @fuse_monotone_vote pairPool (pairVote ⟨1 / 10, by norm_num⟩) "b"
    (pairVote ⟨9 / 10, by norm_num⟩) inScope_pairPool rfl rfl
    (by simp only [pairVote]; norm_num) pairRankedA halfWeights 2

end Votes

section PathAOnly

variable {candidates : List Intent} {rankedA : List MatchCandidate} {weights : FusionWeights}
variable {n : Nat}

/-- A ranking that a matcher may return for the pool. -/
structure PathARanking (candidates : List Intent) (n : Nat) (rankedA : List MatchCandidate) :
    Prop where
  inScope : ∀ e, e ∈ rankedA → InScope candidates e.intentId
  sorted : rankedA.Pairwise (fun e e' => RanksAtLeast e.key e'.key)
  length_le : rankedA.length ≤ n

theorem normalized_of_wB_zero (hw : weights.wB = 0) : weights.normalized = (1, 0) := by
  have hpos := weights.total_pos
  rw [FusionWeights.normalized]
  simp only [hw, add_zero, zero_div] at hpos ⊢
  rw [div_self hpos.ne']

theorem fusedScore_of_wB_zero (hw : weights.wB = 0) (rankedA : List MatchCandidate)
    (vote : IntentId × Confidence) (id : IntentId) :
    fusedScore weights rankedA vote id = confA rankedA id := by
  rw [fusedScore, normalized_of_wB_zero hw]
  simp

/-- An id with a Path A confidence has an entry with that confidence. -/
theorem exists_of_confA_pos {id : IntentId} (h : 0 < confA rankedA id) :
    ∃ e, e ∈ rankedA ∧ e.key = (id, confA rankedA id) := by
  unfold confA at h ⊢
  split
  · rename_i hnone
    rw [hnone] at h
    exact absurd h (lt_irrefl 0)
  · rename_i e he
    have hid : e.intentId = id := by simpa using List.find?_some he
    exact ⟨e, List.mem_reverse.mp (List.mem_of_find?_eq_some he), Prod.ext hid rfl⟩

theorem confA_of_mem (hnodup : (rankedA.map MatchCandidate.intentId).Nodup)
    {e : MatchCandidate} (he : e ∈ rankedA) : confA rankedA e.intentId = e.confidence.val := by
  unfold confA
  split
  · rename_i hnone
    have h := List.find?_eq_none.mp hnone e (List.mem_reverse.mpr he)
    simp at h
  · rename_i e' he'
    have hid : e'.intentId = e.intentId := by simpa using List.find?_some he'
    have hmem := List.mem_reverse.mp (List.mem_of_find?_eq_some he')
    rw [List.inj_on_of_nodup_map hnodup hmem he hid]

/-- A ranking without repeated ids and zero confidences is the ranking of the
pool by Path A confidence. -/
theorem ranking_confA (hA : PathARanking candidates n rankedA)
    (hnodup : (rankedA.map MatchCandidate.intentId).Nodup)
    (hpos : ∀ e, e ∈ rankedA → 0 < e.confidence.val) :
    ranking (candidateIds candidates) (confA rankedA) 0 = rankedA.map MatchCandidate.key := by
  apply ranking_eq_of_mem_iff (nodup_candidateIds candidates)
  · rw [List.pairwise_map]
    refine (hA.sorted.and (List.pairwise_map.mp hnodup)).imp ?_
    intro e e' h
    exact ranksBefore_of_ranksAtLeast h.2 h.1
  · intro x
    rw [List.mem_map]
    constructor
    · rintro ⟨e, he, rfl⟩
      have hconf := confA_of_mem hnodup he
      exact ⟨mem_candidateIds.mpr (hA.inScope e he), hconf.symm, hconf ▸ hpos e he⟩
    · rintro ⟨-, hx, hpos⟩
      obtain ⟨e, he, hkey⟩ := exists_of_confA_pos hpos
      exact ⟨e, he, hkey.trans (Prod.ext rfl hx.symm)⟩

/-- **With `w_b = 0` fusion gives back Path A's ranking for every Path B
hypothesis exactly when it repeats no id and holds no zero confidence.** -/
theorem fuse_pathA_only_iff (hA : PathARanking candidates n rankedA) (hw : weights.wB = 0) :
    (∀ sluB, fuse rankedA sluB candidates weights n = .ok rankedA) ↔
      (rankedA.map MatchCandidate.intentId).Nodup ∧
        ∀ e, e ∈ rankedA → 0 < e.confidence.val := by
  constructor
  · intro hall
    have hfused : ∀ e, e ∈ rankedA → ∃ b conf,
        FusedRanking rankedA b conf candidates weights n rankedA := by
      intro e he
      let slu : FinalIntent := ⟨some e.intentId, e.confidence, 0⟩
      have hvote : activeVote (some slu) candidates = some (e.intentId, e.confidence) :=
        activeVote_eq_some rfl (hA.inScope e he)
      obtain ⟨fused, hfuse, hkeys⟩ := fuse_voting hvote rankedA weights n
      rw [hall, Except.ok.injEq] at hfuse
      subst hfuse
      exact ⟨_, _, fusedRanking_of_keys hkeys⟩
    constructor
    · cases rankedA with
      | nil => exact List.nodup_nil
      | cons e rest =>
          obtain ⟨b, conf, h⟩ := hfused e List.mem_cons_self
          exact h.distinct
    · intro e he
      obtain ⟨b, conf, h⟩ := hfused e he
      exact (h.scored e he).2.1
  · rintro ⟨hnodup, hpos⟩ sluB
    cases hvote : activeVote sluB candidates with
    | none => rw [fuse_silent hvote, List.take_of_length_le hA.length_le]
    | some vote =>
        obtain ⟨fused, hfuse, hkeys⟩ := fuse_voting hvote rankedA weights n
        have hscore : fusedScore weights rankedA vote = confA rankedA :=
          funext (fusedScore_of_wB_zero hw rankedA vote)
        rw [hscore, ranking_confA hA hnodup hpos, ← List.map_take,
          List.take_of_length_le hA.length_le] at hkeys
        rw [hfuse, List.map_injective_iff.mpr MatchCandidate.key_injective hkeys]

/-- Weights for Path A only, as in the default configuration. -/
def pathAWeights : FusionWeights :=
  { wA := 1
    wB := 0
    wA_unit := by norm_num
    wB_unit := by norm_num
    atLeastOneNonzero := by norm_num }

theorem fuse_pathA_only_pair :
    let rankedA : List MatchCandidate :=
      [⟨"a", ⟨1, confidence_one⟩⟩, ⟨"b", ⟨1 / 3, confidence_third⟩⟩]
    fuse rankedA none pairPool pathAWeights 5 = .ok rankedA ∧
      fuse rankedA (some (pairVote ⟨9 / 10, by norm_num⟩)) pairPool pathAWeights 5 =
        .ok rankedA := by
  intro rankedA
  have hranking : PathARanking pairPool 5 rankedA := by
    refine ⟨?_, ?_, ?_⟩
    · intro e he
      rcases List.mem_cons.mp he with rfl | he
      · exact ⟨{ id := "a", categoryId := "root", question := ["abc"] }, by decide, rfl⟩
      · rw [List.mem_singleton.mp he]
        exact inScope_pairPool
    · decide +kernel
    · decide
  have hsame := (@fuse_pathA_only_iff pairPool rankedA pathAWeights 5 hranking rfl).mpr
    ⟨by decide, by decide +kernel⟩
  exact ⟨hsame none, hsame (some (pairVote ⟨9 / 10, by norm_num⟩))⟩

/-- A scene that meets one ENUM category twice: as a child of the root, and
through the pointer of another child. -/
def sharedEntries : List CategoryEntry :=
  [{ id := "root", name := "root" },
    { id := "cities", name := "cities", parentId := some "root", mode := .enum,
      intents := [{ id := "paris", categoryId := "cities", question := ["paris"] }] },
    { id := "travel", name := "travel", parentId := some "root",
      extendsEnumCategory := some "cities" }]

def sharedTree : CategoryTree :=
  { rootId := "root"
    categories := ⟨[
      ("root", { id := "root", name := "root", childIds := ["cities", "travel"] }),
      ("cities", { id := "cities", name := "cities", parentId := some "root", mode := .enum,
                   intents := [{ id := "paris", categoryId := "cities",
                                 question := ["paris"] }] }),
      ("travel", { id := "travel", name := "travel", parentId := some "root",
                   extendsEnumCategory := some "cities" })], by decide⟩ }

def sharedPool : List Intent :=
  [{ id := "paris", categoryId := "cities", question := ["paris"] },
    { id := "paris", categoryId := "cities", question := ["paris"] }]

def sharedRanking : List MatchCandidate :=
  [⟨"paris", ⟨1, confidence_one⟩⟩, ⟨"paris", ⟨1, confidence_one⟩⟩]

/-- A vote in scope drops the second mention of the intent from the list. -/
theorem fuse_pathA_only_shared :
    buildTree "root" sharedEntries = .ok sharedTree ∧
      scope sharedTree 10 "root" = .ok sharedPool ∧
      StubMatcher.score 2 "paris" sharedPool 5 = .ok sharedRanking ∧
      PathARanking sharedPool 5 sharedRanking ∧ pathAWeights.wB = 0 ∧
      fuse sharedRanking none sharedPool pathAWeights 5 = .ok sharedRanking ∧
      fuse sharedRanking (some ⟨some "paris", ⟨1, confidence_one⟩, 20⟩) sharedPool pathAWeights 5 =
        .ok [⟨"paris", ⟨1, confidence_one⟩⟩] ∧
      ¬ ∀ sluB, fuse sharedRanking sluB sharedPool pathAWeights 5 = .ok sharedRanking := by
  have hvote : fuse sharedRanking (some ⟨some "paris", ⟨1, confidence_one⟩, 20⟩) sharedPool
      pathAWeights 5 = .ok [⟨"paris", ⟨1, confidence_one⟩⟩] := by decide +kernel
  refine ⟨by decide, by decide, by decide +kernel, ⟨?_, ?_, by decide⟩, rfl, rfl, hvote, ?_⟩
  · intro e he
    refine ⟨{ id := "paris", categoryId := "cities", question := ["paris"] }, by decide, ?_⟩
    rcases List.mem_cons.mp he with rfl | he
    · rfl
    · rw [List.mem_singleton.mp he]
  · decide +kernel
  · intro hall
    rw [hall, Except.ok.injEq] at hvote
    exact absurd (congrArg List.length hvote) (by decide)

end PathAOnly

end Core
end Sandroid
