import Sandroid.Core.SessionContinuity
import Sandroid.Core.ScopeVisibility

/-!
# What a failed recognition leaves behind

`recognize` makes the session of a new caller before the steps that can fail: the candidate
pool, the matcher, the SLU backend, the fusion and the follow-up.  None of them takes the
session back, and nothing else of the store has been written by then.

`failed_recognition_iff`: when a call that raises leaves the sessions as they were.
`failed_calls_accumulate`: new callers that fail leave a session each.
-/

namespace Sandroid
namespace Core

open Lib Storage

/-- The same sessions under the same ids. -/
def SameSessions (store store' : SessionStore) : Prop :=
  ∀ id, store'.byId.get? id = store.byId.get? id

theorem SameSessions.refl (store : SessionStore) : SameSessions store store :=
  fun _ => rfl

/-- A session of which nothing has been heard. -/
def freshSession (sessionId : String) (categoryId : CategoryId) : Session :=
  { sessionId := sessionId, currentCategoryId := categoryId }

section Store

variable {store : SessionStore} {uuid : Nat → String}

/-- Storing a session goes unnoticed if it is there already. -/
theorem sameSessions_put_iff (session : Session) :
    SameSessions store (store.put session) ↔
      store.byId.get? session.sessionId = some session := by
  constructor
  · intro h
    have hself := h session.sessionId
    rw [SessionStore.byId_put, Dict.get?_set_self] at hself
    exact hself.symm
  · intro h id
    rw [SessionStore.byId_put, Dict.get?_set]
    split_ifs with hid
    · rw [← hid, h]
    · rfl

theorem sameSessions_create_iff (categoryId : CategoryId) :
    SameSessions store (store.create uuid categoryId).2 ↔
      store.byId.get? (uuid store.issued) = some (freshSession (uuid store.issued) categoryId) :=
  sameSessions_put_iff (freshSession (uuid store.issued) categoryId)

theorem size_create {categoryId : CategoryId}
    (h : store.byId.get? (uuid store.issued) = none) :
    (store.create uuid categoryId).2.byId.size = store.byId.size + 1 := by
  have hnew : uuid store.issued ∉ store.byId.keys := (Dict.get?_eq_none_iff _ _).mp h
  change (store.put (freshSession (uuid store.issued) categoryId)).byId.size = _
  rw [SessionStore.byId_put, Dict.size_set]
  exact if_neg hnew

/-- Loading keeps the sessions if it finds one, and makes one otherwise. -/
theorem sameSessions_loadOrCreateSession_iff (sessionId : Option String)
    (categoryId : CategoryId) :
    SameSessions store
        (Orchestrator.loadOrCreateSession uuid store sessionId categoryId).2 ↔
      (∃ id session, sessionId = some id ∧ store.byId.get? id = some session) ∨
        store.byId.get? (uuid store.issued) =
          some (freshSession (uuid store.issued) categoryId) := by
  cases sessionId with
  | none =>
      rw [Orchestrator.loadOrCreateSession, sameSessions_create_iff]
      refine (or_iff_right ?_).symm
      rintro ⟨id, session, h, -⟩
      cases h
  | some id =>
      cases hknown : store.byId.get? id with
      | some session =>
          have hget := (store.get_eq_ok_iff id session).mpr hknown
          rw [Orchestrator.loadOrCreateSession]
          simp only [hget]
          exact iff_of_true (.refl store) (Or.inl ⟨id, session, rfl, hknown⟩)
      | none =>
          rw [Orchestrator.loadOrCreateSession]
          simp only [SessionStore.get, hknown, sameSessions_create_iff]
          refine (or_iff_right ?_).symm
          rintro ⟨id', session, h, hget⟩
          rw [← Option.some.inj h, hknown] at hget
          cases hget

end Store

section Failure

variable {o : Orchestrator} {uuid : Nat → String} {store : SessionStore}
variable {req : RecognitionRequest} {e : PyError}

/-- The call makes no session: its scene does not resolve, or it names a stored session,
or the id it would draw already has a session that is just like the new one. -/
inductive MakesNoSession (o : Orchestrator) (uuid : Nat → String) (store : SessionStore)
    (req : RecognitionRequest) : Prop
  | unresolved {e : PyError} (scene : o.resolveScene req = .error e)
  | known {id : String} {session : Session} (named : req.sessionId = some id)
      (stored : store.byId.get? id = some session)
  | drawn {sceneId : String} {categoryId : CategoryId} {tree : CategoryTree}
      (scene : o.resolveScene req = .ok (sceneId, categoryId, tree))
      (stored : store.byId.get? (uuid store.issued) =
        some (freshSession (uuid store.issued) categoryId))

/-- A call that raises has resolved no scene, or it has loaded a session and stored
nothing since. -/
theorem recognize_error (h : (o.recognize uuid store req).1 = .error e) :
    (o.resolveScene req = .error e ∧ (o.recognize uuid store req).2 = store) ∨
      ∃ sceneId categoryId tree,
        o.resolveScene req = .ok (sceneId, categoryId, tree) ∧
        o.turn req sceneId tree (Orchestrator.override req categoryId
          (Orchestrator.loadOrCreateSession uuid store req.sessionId categoryId).1) = .error e ∧
        (o.recognize uuid store req).2 =
          (Orchestrator.loadOrCreateSession uuid store req.sessionId categoryId).2 := by
  unfold Orchestrator.recognize at h ⊢
  cases hscene : o.resolveScene req with
  | error e' =>
      rw [hscene] at h
      cases h
      exact Or.inl ⟨rfl, rfl⟩
  | ok place =>
      obtain ⟨sceneId, categoryId, tree⟩ := place
      rw [hscene] at h
      simp only at h ⊢
      cases hturn : o.turn req sceneId tree (Orchestrator.override req categoryId
          (Orchestrator.loadOrCreateSession uuid store req.sessionId categoryId).1) with
      | error e' =>
          rw [hturn] at h
          cases h
          exact Or.inr ⟨sceneId, categoryId, tree, rfl, hturn, rfl⟩
      | ok result =>
          rw [hturn] at h
          cases h

/-- A call that raises leaves the sessions as they were if and only if it made none. -/
theorem failed_recognition_iff (h : (o.recognize uuid store req).1 = .error e) :
    SameSessions store (o.recognize uuid store req).2 ↔ MakesNoSession o uuid store req := by
  rcases recognize_error h with ⟨hscene, hstore⟩ | ⟨sceneId, categoryId, tree, hscene, -, hstore⟩
  · rw [hstore]
    exact iff_of_true (.refl store) (.unresolved hscene)
  · rw [hstore, sameSessions_loadOrCreateSession_iff]
    constructor
    · rintro (⟨id, session, hnamed, hstored⟩ | hdrawn)
      · exact .known hnamed hstored
      · exact .drawn hscene hdrawn
    · intro hnone
      cases hnone with
      | unresolved hunresolved =>
          rw [hscene] at hunresolved
          cases hunresolved
      | known hnamed hstored => exact Or.inl ⟨_, _, hnamed, hstored⟩
      | drawn hscene' hdrawn =>
          rw [hscene] at hscene'
          cases hscene'
          exact Or.inr hdrawn

/-- The ids that are still to be drawn are new. -/
def FreshIds (uuid : Nat → String) (store : SessionStore) : Prop :=
  ∀ k, store.issued ≤ k → store.byId.get? (uuid k) = none

theorem FreshIds.create (h : FreshIds uuid store) (hinj : Function.Injective uuid)
    (categoryId : CategoryId) : FreshIds uuid (store.create uuid categoryId).2 := by
  intro k hk
  have hlater : store.issued < k := hk
  have hne : uuid store.issued ≠ uuid k := fun heq => hlater.ne (hinj heq)
  exact (Dict.get?_set_ne store.byId hne _).trans (h k hlater.le)

/-- A run of calls without a session id that resolve their scenes and then raise: the store
ends with one more session for each of them. -/
theorem failed_calls_accumulate (hinj : Function.Injective uuid) {store' : SessionStore}
    {reqs : List RecognitionRequest} {errors : List PyError} (hfresh : FreshIds uuid store)
    (hnew : ∀ req ∈ reqs, req.sessionId = none ∧ ∃ place, o.resolveScene req = .ok place)
    (hrun : o.recognizeAll uuid store reqs = (errors.map .error, store')) :
    store'.byId.size = store.byId.size + reqs.length := by
  induction reqs generalizing store errors with
  | nil =>
      rw [Orchestrator.recognizeAll, Prod.mk.injEq] at hrun
      rw [← hrun.2, List.length_nil, Nat.add_zero]
  | cons req reqs ih =>
      obtain ⟨e, errors, rfl, hfirst, hrest⟩ := recognizeAll_cons hrun
      obtain ⟨hnone, place, hplace⟩ := hnew req List.mem_cons_self
      rcases recognize_error hfirst with ⟨hscene, -⟩ | ⟨_, categoryId, _, -, -, hstore⟩
      · rw [hplace] at hscene
        cases hscene
      · rw [hnone, Orchestrator.loadOrCreateSession] at hstore
        have hfresh₁ : FreshIds uuid (o.recognize uuid store req).2 := by
          rw [hstore]
          exact hfresh.create hinj categoryId
        have hsize₁ : (o.recognize uuid store req).2.byId.size = store.byId.size + 1 := by
          rw [hstore, size_create (hfresh _ le_rfl)]
        have hmore := ih hfresh₁ (fun r hr => hnew r (List.mem_cons_of_mem _ hr)) hrest
        rw [hmore, hsize₁, List.length_cons]
        omega

end Failure

section Examples

def menuOrchestrator : Orchestrator :=
  { registry := ⟨⟨[("menu", menuTree)], by decide⟩⟩
    matcher := StubMatcher.score 2
    fusionConfig := { default := halfWeights, scenes := Dict.empty }
    recursionLimit := 10 }

/-- The path of an ENUM category, which is no scene. -/
def enumRequest (sessionId : Option String) : RecognitionRequest :=
  { categoryPath := some "root->e", text := "paris", sessionId := sessionId }

theorem failed_recognition_known :
    SameSessions knownStore
      (menuOrchestrator.recognize drawnId knownStore (enumRequest (some "call-1"))).2 := by
  have hraised : (menuOrchestrator.recognize drawnId knownStore (enumRequest (some "call-1"))).1 =
      .error (.enumScene "e") := by
    decide +kernel
  have hstored : knownStore.byId.get? "call-1" =
      some { sessionId := "call-1", currentCategoryId := "root" } := by
    decide
  exact (failed_recognition_iff hraised).mpr (.known rfl hstored)

/-- A new caller names the ENUM category: the call raises and its session stays. -/
theorem failed_recognition_leaves_session :
    buildTree "root" menuEntries = .ok menuTree ∧
      (menuOrchestrator.recognize drawnId SessionStore.empty (enumRequest none)).1 =
        .error (.enumScene "e") ∧
      SessionStore.empty.byId.get? "7f3a" = none ∧
      (menuOrchestrator.recognize drawnId SessionStore.empty
        (enumRequest none)).2.byId.get? "7f3a" =
        some { sessionId := "7f3a", currentCategoryId := "e" } ∧
      ¬ SameSessions SessionStore.empty
        (menuOrchestrator.recognize drawnId SessionStore.empty (enumRequest none)).2 := by
  have hleft : (menuOrchestrator.recognize drawnId SessionStore.empty
      (enumRequest none)).2.byId.get? "7f3a" =
        some { sessionId := "7f3a", currentCategoryId := "e" } := by
    decide +kernel
  refine ⟨by decide, by decide +kernel, rfl, hleft, ?_⟩
  intro hsame
  have hnone := hsame "7f3a"
  rw [hleft] at hnone
  cases hnone

end Examples

end Core
end Sandroid
