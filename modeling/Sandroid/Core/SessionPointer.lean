import Sandroid.Core.SessionContinuity

/-!
# The session pointer

A follow-up moves `current_category_id` of the session, and `recognize` keeps the
stored pointer when the caller names no scene.  But the scene is resolved before
the session is loaded, and `resolve` refuses a request that names neither a scene
nor a path: the stored pointer is written after every turn and never read.
-/

namespace Sandroid
namespace Core

open Lib Storage

/-- The request succeeds and is scored against the pool of category `t` in the
scene `sceneId`. -/
structure ScoredAt (o : Orchestrator) (uuid : Nat → String) (store : SessionStore)
    (req : RecognitionRequest) (sceneId : String) (t : CategoryId) : Prop where
  scored : ∃ tree response, o.registry.get sceneId = .ok tree ∧
    (o.recognize uuid store req).1 = .ok response ∧
    o.scoreTurn req sceneId tree t = .ok (response.nBest, response.top, response.followUp)

section OneCall

variable {o : Orchestrator} {uuid : Nat → String} {store : SessionStore}
variable {req : RecognitionRequest} {response : RecognitionResponse}

/-- A turn stores the pointer that it reports. -/
theorem recognize_stores_pointer (hok : (o.recognize uuid store req).1 = .ok response) :
    ∃ session, (o.recognize uuid store req).2.byId.get? response.sessionId = some session ∧
      session.currentCategoryId = response.currentCategoryId := by
  obtain ⟨sceneId, categoryId, tree, session', _, hturn, hstore⟩ :=
    Orchestrator.recognize_ok hok
  obtain ⟨fused, top, followUp, target, _, _, rfl, rfl⟩ := Orchestrator.turn_eq_ok_iff.mp hturn
  refine ⟨_, ?_, rfl⟩
  rw [hstore, SessionStore.byId_put]
  exact Dict.get?_set_self _ _ _

theorem recognize_without_scene (hscene : req.sceneId = none) (hpath : req.categoryPath = none) :
    o.recognize uuid store req = (.error .noSceneGiven, store) := by
  have hresolve : o.resolveScene req = .error .noSceneGiven := by
    rw [Orchestrator.resolveScene, hscene, hpath]
    rfl
  rw [Orchestrator.recognize, hresolve]

/-- Whenever the scene resolves, the resolved category replaces the stored pointer. -/
theorem override_of_resolved {sceneId : String} {categoryId : CategoryId} {tree : CategoryTree}
    (hresolved : o.resolveScene req = .ok (sceneId, categoryId, tree)) (session : Session) :
    (Orchestrator.override req categoryId session).currentCategoryId = categoryId := by
  by_cases hnamed : req.categoryPath ≠ none ∨ req.sceneId ≠ none
  · rw [Orchestrator.override, if_pos (Or.inr hnamed)]
  · rw [not_or, not_not, not_not] at hnamed
    rw [Orchestrator.resolveScene, hnamed.1, hnamed.2] at hresolved
    cases hresolved

/-- Every successful call is scored where the request points, whatever is stored. -/
theorem recognize_scored_at_named (hok : (o.recognize uuid store req).1 = .ok response) :
    ∃ sceneId categoryId tree, o.resolveScene req = .ok (sceneId, categoryId, tree) ∧
      o.scoreTurn req sceneId tree categoryId =
        .ok (response.nBest, response.top, response.followUp) := by
  obtain ⟨sceneId, categoryId, tree, session', hresolved, hturn, _⟩ :=
    Orchestrator.recognize_ok hok
  obtain ⟨fused, top, followUp, target, hscore, _, rfl, rfl⟩ :=
    Orchestrator.turn_eq_ok_iff.mp hturn
  rw [override_of_resolved hresolved] at hscore
  exact ⟨sceneId, categoryId, tree, hresolved, hscore⟩

end OneCall

section Runs

variable {o : Orchestrator} {uuid : Nat → String} {store store' : SessionStore}

theorem recognizeAll_append (reqs reqs' : List RecognitionRequest) :
    o.recognizeAll uuid store (reqs ++ reqs') =
      ((o.recognizeAll uuid store reqs).1 ++
          (o.recognizeAll uuid (o.recognizeAll uuid store reqs).2 reqs').1,
        (o.recognizeAll uuid (o.recognizeAll uuid store reqs).2 reqs').2) := by
  induction reqs generalizing store with
  | nil => rfl
  | cons req reqs ih =>
    rw [List.cons_append, Orchestrator.recognizeAll, Orchestrator.recognizeAll]
    simp only [ih, List.cons_append]

/-- **A turn that names no scene is refused, although the pointer that the previous
turn reported is in the store.** -/
theorem sessionPointer_never_carried {reqs : List RecognitionRequest}
    {last next : RecognitionRequest} {outcomes : List (Except PyError RecognitionResponse)}
    {response : RecognitionResponse}
    (hrun : o.recognizeAll uuid store (reqs ++ [last]) = (outcomes ++ [.ok response], store'))
    (hsession : next.sessionId = some response.sessionId)
    (hscene : next.sceneId = none) (hpath : next.categoryPath = none) :
    (∃ session, store'.get response.sessionId = .ok session ∧
      next.sessionId = some session.sessionId ∧
      session.currentCategoryId = response.currentCategoryId) ∧
    o.recognize uuid store' next = (.error .noSceneGiven, store') ∧
    ∀ sceneId, ¬ ScoredAt o uuid store' next sceneId response.currentCategoryId := by
  have hrefused : o.recognize uuid store' next = (.error .noSceneGiven, store') :=
    recognize_without_scene hscene hpath
  refine ⟨?_, hrefused, ?_⟩
  · rw [recognizeAll_append, Prod.mk.injEq] at hrun
    obtain ⟨houts, rfl⟩ := hrun
    rw [Orchestrator.recognizeAll, Orchestrator.recognizeAll] at houts ⊢
    obtain ⟨-, hlast⟩ := List.append_inj' houts rfl
    obtain ⟨session, hstored, hpointer⟩ := recognize_stores_pointer (List.cons.inj hlast).1
    refine ⟨session, (SessionStore.get_eq_ok_iff _ _ _).mpr hstored, ?_, hpointer⟩
    rw [hsession, SessionStore.keyed _ _ _ hstored]
  · rintro sceneId ⟨tree, response', _, hok, _⟩
    rw [hrefused] at hok
    cases hok

end Runs

/-- A scene whose greeting leads on to a second category. -/
def leadingEntries : List CategoryEntry :=
  [{ id := "root", name := "root",
     intents := [{ id := "go", categoryId := "root", question := ["abc"],
                   followUp := some "root->pay" }] },
   { id := "pay", name := "pay", parentId := some "root",
     intents := [{ id := "sum", categoryId := "pay", question := ["xyz"] }] }]

def leadingTree : CategoryTree :=
  { rootId := "root"
    categories := ⟨[("root",
        { id := "root", name := "root", childIds := ["pay"],
          intents := [{ id := "go", categoryId := "root", question := ["abc"],
                        followUp := some "root->pay" }] }),
      ("pay",
        { id := "pay", name := "pay", parentId := some "root",
          intents := [{ id := "sum", categoryId := "pay", question := ["xyz"] }] })],
      by decide⟩ }

def leadingOrchestrator : Orchestrator :=
  { registry := ⟨⟨[("lead", leadingTree)], by decide⟩⟩
    matcher := StubMatcher.score 2
    fusionConfig := { default := halfWeights, scenes := Dict.empty }
    recursionLimit := 10 }

/-- The turn that moves the pointer. -/
def leadingTurn : RecognitionRequest :=
  { sceneId := some "lead", text := "abc" }

/-- The next turn of the same caller, which leaves the scene to the session. -/
def followingTurn : RecognitionRequest :=
  { text := "xyz", sessionId := some "7f3a" }

theorem certain_mem : (0 : ℚ) ≤ 1 ∧ (1 : ℚ) ≤ 1 :=
  ⟨zero_le_one, le_rfl⟩

def leadingResponse : RecognitionResponse :=
  { sessionId := "7f3a"
    top := some { intentId := "go", confidence := 1, answer := none,
                  followUp := some "root->pay" }
    nBest := [⟨"go", ⟨1, certain_mem⟩⟩]
    followUp := some "root->pay"
    currentCategoryId := "pay" }

/-- The store after the turn that moves the pointer. -/
def leadingStore : SessionStore :=
  (leadingOrchestrator.recognizeAll drawnId SessionStore.empty [leadingTurn]).2

theorem leadingTurn_responses :
    (leadingOrchestrator.recognizeAll drawnId SessionStore.empty [leadingTurn]).1 =
      [.ok leadingResponse] := by
  decide +kernel

theorem sessionPointer_never_carried_leading :
    leadingOrchestrator.recognize drawnId leadingStore followingTurn =
      (.error .noSceneGiven, leadingStore) ∧
    ∀ sceneId, ¬ ScoredAt leadingOrchestrator drawnId leadingStore followingTurn sceneId
      leadingResponse.currentCategoryId := by
  have hrun : leadingOrchestrator.recognizeAll drawnId SessionStore.empty ([] ++ [leadingTurn]) =
      ([] ++ [.ok leadingResponse], leadingStore) :=
    Prod.ext leadingTurn_responses rfl
  exact (sessionPointer_never_carried hrun rfl rfl rfl).2

/-- The follow-up moved the pointer to `pay`; the next turn on the session is not
scored there. -/
theorem sessionPointer_lost :
    buildTree "root" leadingEntries = .ok leadingTree ∧
    (leadingOrchestrator.recognizeAll drawnId SessionStore.empty [leadingTurn]).1 =
      [.ok leadingResponse] ∧
    leadingResponse.currentCategoryId = "pay" ∧
    (leadingOrchestrator.recognize drawnId leadingStore followingTurn).1 =
      .error .noSceneGiven ∧
    ¬ ScoredAt leadingOrchestrator drawnId leadingStore followingTurn "lead" "pay" := by
  have hrefused : (leadingOrchestrator.recognize drawnId leadingStore followingTurn).1 =
      .error .noSceneGiven := by
    rw [recognize_without_scene rfl rfl]
  refine ⟨by decide, leadingTurn_responses, rfl, hrefused, ?_⟩
  rintro ⟨tree, response, _, hok, _⟩
  rw [hrefused] at hok
  cases hok

end Core
end Sandroid
