import Sandroid.Core.Scope
import Sandroid.Core.Fusion
import Sandroid.Storage.SceneRegistry
import Sandroid.Storage.SessionStore

/-!
# The recognition orchestrator

`Orchestrator.recognize` of `core/orchestrator.py`: resolve the scene, load or
create the session, compute the candidate pool, run the matcher (Path A) and the
SLU backend (Path B), fuse, follow the winner's pointer, store the session.

The backends are parameters and may raise.  `recursionLimit` is the call depth
CPython grants the pool recursion.  When both paths raise, `asyncio.gather`
propagates the exception that comes first; the model takes Path A's.
-/

namespace Sandroid
namespace Core

open Lib Storage

/-- A field `n_best: int = Field(default=5, ge=1, le=20)`. -/
abbrev NBest := {n : Nat // 1 ≤ n ∧ n ≤ 20}

def defaultNBest : NBest :=
  ⟨5, Nat.le_of_ble_eq_true rfl, Nat.le_of_ble_eq_true rfl⟩

structure RecognitionRequest where
  sceneId : Option String := none
  categoryPath : Option CategoryPath := none
  text : String
  audio : Option (List UInt8) := none
  sessionId : Option String := none
  nBest : NBest := defaultNBest

structure TopHit where
  intentId : IntentId
  confidence : ℚ
  answer : Option String
  followUp : Option CategoryPath
deriving DecidableEq

structure RecognitionResponse where
  sessionId : String
  top : Option TopHit
  nBest : List MatchCandidate
  followUp : Option CategoryPath
  currentCategoryId : CategoryId
deriving DecidableEq

/-- `SLUBackend.recognize_audio`: audio and scene id. -/
abbrev SLUBackend := List UInt8 → String → Except PyError FinalIntent

structure Orchestrator where
  registry : SceneRegistry
  matcher : IntentMatcher
  slu : Option SLUBackend := none
  fusionConfig : FusionConfig
  recursionLimit : Nat

/-- `a or b` on optional strings: `None` and the empty string are falsy. -/
def pyOr (a b : Option String) : Option String :=
  match a with
  | none => b
  | some s => if s = "" then b else some s

/-- `{i.id: i for i in candidates}[id]`: the last intent with the id. -/
def intentById (candidates : List Intent) (id : IntentId) : Except PyError Intent :=
  match candidates.reverse.find? (fun i => i.id == id) with
  | none => .error (.unknownIntent id)
  | some intent => .ok intent

def resolveTop (ranked : List MatchCandidate) (candidates : List Intent) :
    Except PyError (Option TopHit × Option CategoryPath) :=
  match ranked with
  | [] => .ok (none, none)
  | top :: _ => do
      let intent ← intentById candidates top.intentId
      let followUp := pyOr intent.switching intent.followUp
      .ok (some { intentId := intent.id
                  confidence := top.confidence.val
                  answer := intent.answer
                  followUp := followUp },
        followUp)

namespace Orchestrator

variable (o : Orchestrator)

/-- `scope(tree, category_id)` within the interpreter's recursion limit. -/
def candidatesAt (tree : CategoryTree) (categoryId : CategoryId) :
    Except PyError (List Intent) :=
  match scope tree o.recursionLimit categoryId with
  | .ok candidates => .ok candidates
  | .error .outOfFuel => .error .recursionError
  | .error (.raised e) => .error e

/-- Path B: `None` without a backend or without audio. -/
def runPathB (audio : Option (List UInt8)) (sceneId : String) :
    Except PyError (Option FinalIntent) :=
  match o.slu, audio with
  | some slu, some pcm => do
      let sluResult ← slu pcm sceneId
      .ok (some sluResult)
  | _, _ => .ok none

def runDualPaths (text : String) (audio : Option (List UInt8)) (sceneId : String)
    (candidates : List Intent) (nBest : Nat) :
    Except PyError (List MatchCandidate × Option FinalIntent) := do
  let ranked ← o.matcher text candidates nBest
  let sluResult ← o.runPathB audio sceneId
  .ok (ranked, sluResult)

/-- From the session pointer to the fused ranking and its winner. -/
def scoreTurn (req : RecognitionRequest) (sceneId : String) (tree : CategoryTree)
    (current : CategoryId) :
    Except PyError (List MatchCandidate × Option TopHit × Option CategoryPath) := do
  let candidates ← o.candidatesAt tree current
  let paths ← o.runDualPaths req.text req.audio sceneId candidates req.nBest.val
  let fused ← fuse paths.1 paths.2 candidates (o.fusionConfig.forScene sceneId) req.nBest.val
  let top ← resolveTop fused candidates
  .ok (fused, top.1, top.2)

/-- The category a follow-up leads to: a path that does not resolve is ignored,
but only a `KeyError` is caught. -/
def followTarget (tree : CategoryTree) (followUp : Option CategoryPath) :
    Except PyError (Option CategoryId) :=
  match followUp with
  | none => .ok none
  | some path =>
      match tree.resolvePath path with
      | .ok target => .ok (some target.id)
      | .error e => if e.kind = .keyError then .ok none else .error e

/-- The session after a turn on `text` that moved to `target`, if anywhere. -/
def advance (session : Session) (target : Option CategoryId) (text : String) : Session :=
  { session with
    currentCategoryId := target.getD session.currentCategoryId
    switchingHistory := session.switchingHistory ++ target.toList
    history := session.history ++ [text] }

/-- Everything between loading the session and storing it. -/
def turn (req : RecognitionRequest) (sceneId : String) (tree : CategoryTree)
    (session : Session) : Except PyError (RecognitionResponse × Session) := do
  let hit ← o.scoreTurn req sceneId tree session.currentCategoryId
  let target ← followTarget tree hit.2.2
  let session := advance session target req.text
  .ok ({ sessionId := session.sessionId
         top := hit.2.1
         nBest := hit.1
         followUp := hit.2.2
         currentCategoryId := session.currentCategoryId },
    session)

def loadOrCreateSession (uuid : Nat → String) (store : SessionStore)
    (sessionId : Option String) (categoryId : CategoryId) : Session × SessionStore :=
  match sessionId with
  | none => store.create uuid categoryId
  | some id =>
      match store.get id with
      | .ok session => (session, store)
      | .error _ => store.create uuid categoryId

/-- A pointer named by the caller overrides the stored one. -/
def override (req : RecognitionRequest) (categoryId : CategoryId) (session : Session) :
    Session :=
  if req.sessionId = none ∨ req.categoryPath ≠ none ∨ req.sceneId ≠ none then
    { session with currentCategoryId := categoryId }
  else
    session

/-- Scene id, category id and tree of a request. -/
def resolveScene (req : RecognitionRequest) :
    Except PyError (String × CategoryId × CategoryTree) := do
  let place ← o.registry.resolve req.sceneId req.categoryPath
  let tree ← o.registry.get place.1
  .ok (place.1, place.2, tree)

def recognize (uuid : Nat → String) (store : SessionStore) (req : RecognitionRequest) :
    Except PyError RecognitionResponse × SessionStore :=
  match o.resolveScene req with
  | .error e => (.error e, store)
  | .ok (sceneId, categoryId, tree) =>
      let loaded := loadOrCreateSession uuid store req.sessionId categoryId
      match o.turn req sceneId tree (override req categoryId loaded.1) with
      | .error e => (.error e, loaded.2)
      | .ok (response, session) => (.ok response, loaded.2.put session)

section Success

variable {o} {uuid : Nat → String} {store : SessionStore} {req : RecognitionRequest}
variable {response : RecognitionResponse}

/-- What a successful scoring run went through. -/
theorem scoreTurn_eq_ok_iff {sceneId : String} {tree : CategoryTree} {current : CategoryId}
    {fused : List MatchCandidate} {top : Option TopHit} {followUp : Option CategoryPath} :
    o.scoreTurn req sceneId tree current = .ok (fused, top, followUp) ↔
      ∃ candidates ranked slu, o.candidatesAt tree current = .ok candidates ∧
        o.matcher req.text candidates req.nBest.val = .ok ranked ∧
        o.runPathB req.audio sceneId = .ok slu ∧
        fuse ranked slu candidates (o.fusionConfig.forScene sceneId) req.nBest.val =
          .ok fused ∧
        resolveTop fused candidates = .ok (top, followUp) := by
  simp only [scoreTurn, runDualPaths, except_bind_eq_ok_iff, Except.ok.injEq, Prod.mk.injEq]
  constructor
  · rintro ⟨candidates, hpool, _, ⟨ranked, hranked, slu, hslu, rfl⟩, fused', hfuse,
      ⟨top', followUp'⟩, htop, rfl, rfl, rfl⟩
    exact ⟨candidates, ranked, slu, hpool, hranked, hslu, hfuse, htop⟩
  · rintro ⟨candidates, ranked, slu, hpool, hranked, hslu, hfuse, htop⟩
    exact ⟨candidates, hpool, (ranked, slu), ⟨ranked, hranked, slu, hslu, rfl⟩, fused, hfuse,
      (top, followUp), htop, rfl, rfl, rfl⟩

/-- What a successful turn does to the session. -/
theorem turn_eq_ok_iff {sceneId : String} {tree : CategoryTree} {session session' : Session} :
    o.turn req sceneId tree session = .ok (response, session') ↔
      ∃ fused top followUp target,
        o.scoreTurn req sceneId tree session.currentCategoryId = .ok (fused, top, followUp) ∧
        followTarget tree followUp = .ok target ∧
        session' = advance session target req.text ∧
        response = { sessionId := session.sessionId
                     top := top
                     nBest := fused
                     followUp := followUp
                     currentCategoryId := session'.currentCategoryId } := by
  simp only [turn, except_bind_eq_ok_iff, Except.ok.injEq, Prod.mk.injEq]
  constructor
  · rintro ⟨⟨fused, top, followUp⟩, hscore, target, htarget, rfl, rfl⟩
    exact ⟨fused, top, followUp, target, hscore, htarget, rfl, rfl⟩
  · rintro ⟨fused, top, followUp, target, hscore, htarget, rfl, rfl⟩
    exact ⟨(fused, top, followUp), hscore, target, htarget, rfl, rfl⟩

/-- A successful call resolved its scene, ran a turn and stored the session. -/
theorem recognize_ok (h : (o.recognize uuid store req).1 = .ok response) :
    ∃ sceneId categoryId tree session',
      o.resolveScene req = .ok (sceneId, categoryId, tree) ∧
      o.turn req sceneId tree
        (override req categoryId
          (loadOrCreateSession uuid store req.sessionId categoryId).1) =
        .ok (response, session') ∧
      (o.recognize uuid store req).2 =
        (loadOrCreateSession uuid store req.sessionId categoryId).2.put session' := by
  unfold recognize at h ⊢
  cases hscene : o.resolveScene req with
  | error e =>
      rw [hscene] at h
      cases h
  | ok place =>
      obtain ⟨sceneId, categoryId, tree⟩ := place
      rw [hscene] at h
      simp only at h
      cases hturn : o.turn req sceneId tree (override req categoryId
          (loadOrCreateSession uuid store req.sessionId categoryId).1) with
      | error e =>
          rw [hturn] at h
          cases h
      | ok result =>
          obtain ⟨response', session'⟩ := result
          rw [hturn] at h
          cases h
          exact ⟨sceneId, categoryId, tree, session', rfl, hturn, by simp only [hturn]⟩

end Success

end Orchestrator

end Core
end Sandroid
