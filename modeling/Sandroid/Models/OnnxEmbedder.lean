import Sandroid.Core.MatcherRanking
import Mathlib.Algebra.BigOperators.Field
import Mathlib.Algebra.Order.BigOperators.Ring.Finset
import Mathlib.Data.List.SplitLengths
import Mathlib.Data.Fin.VecNotation
import Mathlib.Data.Rat.Sqrt
import Mathlib.Tactic.Linarith

/-!
# The sentence embedder as a matcher

`ONNXEmbedderMatcher.score` of `models/nlu/onnx_embedder.py`, the matcher of a deployment
with its model files: one batch holds the transcript and the questions of all candidates,
and a candidate's confidence comes from the most similar of its own rows.

Tokenizer, session and `np.linalg.norm` are parameters.  Rows are exact rationals.
-/

namespace Sandroid
namespace Models

open Lib Sandroid.Core

variable {dim : Nat}

/-- A row of `last_hidden_state[:, 0, :]`. -/
abbrev Vec (dim : Nat) := Fin dim → ℚ

/-- The dot product of two rows. -/
def dot (u v : Vec dim) : ℚ :=
  ∑ i, u i * v i

/-- `text.strip()`. -/
def stripped (text : String) : String :=
  String.ofList (strip text.toList)

structure ONNXEmbedderMatcher (dim : Nat) where
  /-- tokenizer and session: the [CLS] rows of a batch -/
  cls : List String → Except PyError (List (Vec dim))
  /-- `np.linalg.norm` of a row -/
  norm : Vec dim → ℚ

/-- `[q.strip() for q in intent.question if q.strip()]`. -/
def questionTexts (intent : Intent) : List String :=
  (intent.question.map stripped).filter (fun q => q ≠ "")

/-- One turn of the loop that flattens the candidates into `texts` and `offsets`. -/
def flattenStep (acc : List String × List (Nat × Nat)) (intent : Intent) :
    List String × List (Nat × Nat) :=
  let start := acc.1.length
  let questions := questionTexts intent
  (acc.1 ++ questions, acc.2 ++ [(start, start + questions.length)])

/-- `similarities.max()`. -/
def maxOf : List ℚ → Except PyError ℚ
  | [] => .error (.backend "zero-size array to reduction operation maximum which has no identity")
  | x :: xs => .ok (xs.foldl max x)

/-- `max(0.0, min(1.0, (best_cosine + 1.0) / 2.0))`. -/
def confidenceOf (cosine : ℚ) : ℚ :=
  max 0 (min 1 ((cosine + 1) / 2))

/-- The loop over the candidates and their slices. -/
def scoredLoop (vectors : List (Vec dim)) (transcriptVec : Vec dim) :
    List (Intent × Nat × Nat) → Except PyError (List MatchCandidate)
  | [] => .ok []
  | (intent, start, stop) :: rest =>
      if stop ≤ start then
        scoredLoop vectors transcriptVec rest
      else do
        let questionVecs := (vectors.drop start).take (stop - start)
        let best ← maxOf (questionVecs.map (fun q => dot q transcriptVec))
        let c ← MatchCandidate.create intent.id (confidenceOf best)
        let scored ← scoredLoop vectors transcriptVec rest
        .ok (c :: scored)

namespace ONNXEmbedderMatcher

variable (e : ONNXEmbedderMatcher dim)

/-- `cls / norms`, a norm of zero replaced by one. -/
def normalize (v : Vec dim) : Vec dim :=
  let norm := if e.norm v = 0 then 1 else e.norm v
  fun i => v i / norm

/-- `_embed`. -/
def embed (texts : List String) : Except PyError (List (Vec dim)) := do
  let cls ← e.cls texts
  .ok (cls.map e.normalize)

def score : IntentMatcher := fun transcript candidates nBest =>
  let transcript := stripped transcript
  if transcript = "" ∨ candidates = [] then
    .ok []
  else do
    let flat := candidates.foldl flattenStep ([transcript], [])
    let vectors ← e.embed flat.1
    match vectors with
    | [] => .error (.backend "index 0 is out of bounds for axis 0 with size 0")
    | transcriptVec :: _ => do
        let scored ← scoredLoop vectors transcriptVec (candidates.zip flat.2)
        .ok ((rankBy MatchCandidate.key scored).take nBest)

end ONNXEmbedderMatcher

/-- The questions of all candidates, as they stand in the batch. -/
def allQuestions (candidates : List Intent) : List String :=
  candidates.flatMap questionTexts

/-- The slices of the candidates in a batch in which the first one's questions begin at
`start`. -/
def slicesFrom (start : Nat) : List Intent → List (Nat × Nat)
  | [] => []
  | intent :: rest =>
      let stop := start + (questionTexts intent).length
      (start, stop) :: slicesFrom stop rest

theorem flatten_eq (candidates : List Intent) (texts : List String)
    (offsets : List (Nat × Nat)) :
    candidates.foldl flattenStep (texts, offsets) =
      (texts ++ allQuestions candidates, offsets ++ slicesFrom texts.length candidates) := by
  induction candidates generalizing texts offsets with
  | nil => simp [allQuestions, slicesFrom]
  | cons intent rest ih =>
      rw [List.foldl_cons, flattenStep, ih]
      simp [allQuestions, slicesFrom]

/-- The rows of the questions, each candidate with its own. -/
def ownRows (candidates : List Intent) (rows : List (Vec dim)) :
    List (Intent × List (Vec dim)) :=
  candidates.zip ((candidates.map (fun intent => (questionTexts intent).length)).splitLengths
    rows)

/-- The greatest similarity of a list of rows, zero if there is none. -/
def bestCosine (transcriptVec : Vec dim) : List (Vec dim) → ℚ
  | [] => 0
  | q :: qs => qs.foldl (fun best q => max best (dot q transcriptVec)) (dot q transcriptVec)

/-- What an entry for a candidate is sorted by. -/
def cosineKey (transcriptVec : Vec dim) (own : Intent × List (Vec dim)) : IntentId × ℚ :=
  (own.1.id, confidenceOf (bestCosine transcriptVec own.2))

/-- Candidates without a question are passed over. -/
def asked (own : Intent × List (Vec dim)) : Bool :=
  own.2 ≠ []

theorem confidenceOf_mem_unit (cosine : ℚ) : 0 ≤ confidenceOf cosine ∧ confidenceOf cosine ≤ 1 :=
  ⟨le_max_left _ _, max_le zero_le_one (min_le_left _ _)⟩

theorem maxOf_map (transcriptVec : Vec dim) {rows : List (Vec dim)} (hne : rows ≠ []) :
    maxOf (rows.map (fun q => dot q transcriptVec)) = .ok (bestCosine transcriptVec rows) := by
  cases rows with
  | nil => exact absurd rfl hne
  | cons q qs => rw [List.map_cons, maxOf, bestCosine, List.foldl_map]

/-- The loop scores every candidate by its own rows. -/
theorem scoredLoop_eq (vectors : List (Vec dim)) (transcriptVec : Vec dim)
    (candidates : List Intent) (start : Nat)
    (hlen : start + (allQuestions candidates).length ≤ vectors.length) :
    ∃ out, scoredLoop vectors transcriptVec (candidates.zip (slicesFrom start candidates)) =
        .ok out ∧
      out.map MatchCandidate.key = ((ownRows candidates (vectors.drop start)).filter asked).map
        (cosineKey transcriptVec) := by
  induction candidates generalizing start with
  | nil => exact ⟨[], rfl, rfl⟩
  | cons intent rest ih =>
      have hsplit : (allQuestions (intent :: rest)).length =
          (questionTexts intent).length + (allQuestions rest).length := by
        simp [allQuestions]
      rw [hsplit] at hlen
      obtain ⟨out, hloop, hkeys⟩ := ih (start + (questionTexts intent).length) (by omega)
      rw [← List.drop_drop] at hkeys
      have hrows : ((vectors.drop start).take (questionTexts intent).length).length =
          (questionTexts intent).length := by
        rw [List.length_take, List.length_drop]
        omega
      simp only [slicesFrom, List.zip_cons_cons, scoredLoop, ownRows, List.map_cons,
        List.splitLengths_cons]
      split
      case isTrue hnone =>
        have hempty : (questionTexts intent).length = 0 := by omega
        refine ⟨out, hloop, ?_⟩
        rw [hkeys, List.filter_cons_of_neg]
        · rfl
        · simp [asked, hempty]
      case isFalse hsome =>
        have hne : (vectors.drop start).take (questionTexts intent).length ≠ [] := by
          intro hnil
          rw [hnil] at hrows
          simp only [List.length_nil] at hrows
          omega
        have hcount : start + (questionTexts intent).length - start =
            (questionTexts intent).length := by omega
        obtain ⟨c, hkey⟩ : ∃ c : MatchCandidate, c.key = (intent.id,
            confidenceOf (bestCosine transcriptVec
              ((vectors.drop start).take (questionTexts intent).length))) :=
          ⟨⟨intent.id, ⟨_, confidenceOf_mem_unit _⟩⟩, rfl⟩
        refine ⟨c :: out, ?_, ?_⟩
        · simp only [hcount, maxOf_map transcriptVec hne, MatchCandidate.create_eq_ok_iff.mpr hkey,
            hloop, bind, Except.bind]
        · rw [List.filter_cons_of_pos (by simpa [asked] using hne),
            List.map_cons, List.map_cons, hkeys, hkey]
          rfl

namespace ONNXEmbedderMatcher

variable {e : ONNXEmbedderMatcher dim} {transcript : String} {candidates : List Intent}
  {transcriptRow : Vec dim} {rows : List (Vec dim)}

/-- With a row for every text the matcher returns the entries of the first places. -/
theorem exists_score_eq (hne : stripped transcript ≠ "") (hsome : candidates ≠ [])
    (hcls : e.cls (stripped transcript :: allQuestions candidates) = .ok (transcriptRow :: rows))
    (hshape : rows.length = (allQuestions candidates).length) (nBest : Nat) :
    ∃ ranked, e.score transcript candidates nBest = .ok ranked ∧
      ranked.map MatchCandidate.key =
        ((rankBy (cosineKey (e.normalize transcriptRow))
          ((ownRows candidates (rows.map e.normalize)).filter asked)).take nBest).map
            (cosineKey (e.normalize transcriptRow)) := by
  obtain ⟨out, hloop, hkeys⟩ := scoredLoop_eq (e.normalize transcriptRow :: rows.map e.normalize)
    (e.normalize transcriptRow) candidates 1 (by simp [hshape, Nat.add_comm])
  refine ⟨(rankBy MatchCandidate.key out).take nBest, ?_, ?_⟩
  · simp only [score, hne, hsome, or_self, if_false, flatten_eq, List.nil_append,
      List.cons_append, List.length_singleton, embed, hcls, bind, Except.bind, List.map_cons, hloop]
  · rw [List.drop_succ_cons, List.drop_zero] at hkeys
    rw [List.map_take, List.map_take, map_rankBy, map_rankBy, hkeys]

end ONNXEmbedderMatcher

namespace ONNXEmbedderMatcher

variable {e : ONNXEmbedderMatcher dim}

end ONNXEmbedderMatcher

section Examples

end Examples

namespace ONNXEmbedderMatcher

variable {e : ONNXEmbedderMatcher dim} {row : String → Vec dim} {transcript : String}
  {candidates candidates' : List Intent}

end ONNXEmbedderMatcher

section Examples

end Examples

end Models
end Sandroid
