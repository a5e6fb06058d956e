import Sandroid.Core.NBest

/-!
# Turns of one caller

A caller that names its own session id expects its turns to accumulate under
that id.  `recognizeAll` runs calls one after the other;
`sessionContinuity_iff` says when a successful run keeps to the id: the store
must know it already, or draw exactly it when the first call creates a session.
`create` never takes the caller's id over.
-/

namespace Sandroid
namespace Core

open Lib Storage

/-- Calls one after the other, each on the store its predecessor left. -/
def Orchestrator.recognizeAll (o : Orchestrator) (uuid : Nat → String) :
    SessionStore → List RecognitionRequest →
      List (Except PyError RecognitionResponse) × SessionStore
  | store, [] => ([], store)
  | store, req :: reqs =>
      let first := o.recognize uuid store req
      let rest := o.recognizeAll uuid first.2 reqs
      (first.1 :: rest.1, rest.2)

/-- The history stored under an id; empty if there is no session. -/
def historyOf (store : SessionStore) (s : String) : List String :=
  match store.byId.get? s with
  | none => []
  | some session => session.history

/-- The turns of a run all went to the session `s`. -/
structure Continuous (s : String) (store store' : SessionStore)
    (reqs : List RecognitionRequest) (responses : List RecognitionResponse) : Prop where
  reported : ∀ response, response ∈ responses → response.sessionId = s
  stored : ∃ session, store'.byId.get? s = some session ∧
    session.history = historyOf store s ++ reqs.map RecognitionRequest.text
  size : store'.byId.size ≤ store.byId.size + 1

section OneCall

variable {o : Orchestrator} {uuid : Nat → String} {store : SessionStore}
variable {req : RecognitionRequest} {response : RecognitionResponse}
variable {s : String}

theorem override_sessionId (categoryId : CategoryId) (session : Session) :
    (Orchestrator.override req categoryId session).sessionId = session.sessionId := by
  unfold Orchestrator.override
  split_ifs
  · rfl
  · rfl

theorem override_history (categoryId : CategoryId) (session : Session) :
    (Orchestrator.override req categoryId session).history = session.history := by
  unfold Orchestrator.override
  split_ifs
  · rfl
  · rfl

/-- A successful turn keeps the session's id and appends its text. -/
theorem turn_session {sceneId : String} {tree : CategoryTree} {session session' : Session}
    (h : o.turn req sceneId tree session = .ok (response, session')) :
    response.sessionId = session.sessionId ∧ session'.sessionId = session.sessionId ∧
      session'.history = session.history ++ [req.text] := by
  obtain ⟨fused, top, followUp, target, _, _, rfl, rfl⟩ := Orchestrator.turn_eq_ok_iff.mp h
  exact ⟨rfl, rfl, rfl⟩

theorem loadOrCreateSession_known {session : Session} (hs : req.sessionId = some s)
    (hknown : store.byId.get? s = some session) (categoryId : CategoryId) :
    Orchestrator.loadOrCreateSession uuid store req.sessionId categoryId = (session, store) := by
  rw [hs, Orchestrator.loadOrCreateSession]
  simp only [(store.get_eq_ok_iff s session).mpr hknown]

theorem loadOrCreateSession_unknown (hs : req.sessionId = some s)
    (hunknown : store.byId.get? s = none) (categoryId : CategoryId) :
    Orchestrator.loadOrCreateSession uuid store req.sessionId categoryId =
      store.create uuid categoryId := by
  rw [hs, Orchestrator.loadOrCreateSession]
  simp only [SessionStore.get, hunknown]

/-- A successful call on a known session. -/
theorem recognize_known {session : Session} (hs : req.sessionId = some s)
    (hknown : store.byId.get? s = some session)
    (hok : (o.recognize uuid store req).1 = .ok response) :
    response.sessionId = s ∧
      (o.recognize uuid store req).2.byId.size = store.byId.size ∧
      ∃ session', (o.recognize uuid store req).2.byId.get? s = some session' ∧
        session'.history = session.history ++ [req.text] := by
  obtain ⟨sceneId, categoryId, tree, session', _, hturn, hstore⟩ :=
    Orchestrator.recognize_ok hok
  rw [loadOrCreateSession_known hs hknown categoryId] at hturn hstore
  obtain ⟨hresp, hid, hhist⟩ := turn_session hturn
  have hkey : session.sessionId = s := store.keyed s session hknown
  rw [override_sessionId, hkey] at hresp hid
  rw [override_history] at hhist
  rw [hstore]
  refine ⟨hresp, ?_, session', ?_, hhist⟩
  · have hold : store.byId.get? session'.sessionId = some session := by
      rw [hid]
      exact hknown
    exact SessionStore.size_put_of_known hold
  · rw [SessionStore.byId_put, hid, Dict.get?_set_self]

/-- A successful call on an unknown id starts a session under a drawn id. -/
theorem recognize_unknown (hs : req.sessionId = some s)
    (hunknown : store.byId.get? s = none)
    (hok : (o.recognize uuid store req).1 = .ok response) :
    response.sessionId = uuid store.issued ∧
      (o.recognize uuid store req).2.byId.size ≤ store.byId.size + 1 ∧
      ∃ session', (o.recognize uuid store req).2.byId.get? (uuid store.issued) =
          some session' ∧ session'.history = [req.text] := by
  obtain ⟨sceneId, categoryId, tree, session', _, hturn, hstore⟩ :=
    Orchestrator.recognize_ok hok
  rw [loadOrCreateSession_unknown hs hunknown categoryId] at hturn hstore
  obtain ⟨hresp, hid, hhist⟩ := turn_session hturn
  rw [override_sessionId] at hresp hid
  rw [override_history] at hhist
  rw [hstore]
  refine ⟨hresp, ?_, session', ?_, hhist⟩
  · have hold : (store.create uuid categoryId).2.byId.get? session'.sessionId =
        some (store.create uuid categoryId).1 := by
      rw [hid]
      exact Dict.get?_set_self _ _ _
    rw [SessionStore.size_put_of_known hold]
    show (store.byId.set _ _).size ≤ _
    rw [Dict.size_set]
    split_ifs
    · omega
    · omega
  · rw [SessionStore.byId_put, hid]
    exact Dict.get?_set_self _ _ _

end OneCall

section Runs

variable {o : Orchestrator} {uuid : Nat → String} {s : String}

/-- The first call of a run, and the rest of it from where that leaves the store. -/
theorem recognizeAll_cons {β : Type*} {f : β → Except PyError RecognitionResponse}
    {req : RecognitionRequest} {reqs : List RecognitionRequest} {store store' : SessionStore}
    {outcomes : List β}
    (hrun : o.recognizeAll uuid store (req :: reqs) = (outcomes.map f, store')) :
    ∃ first rest, outcomes = first :: rest ∧ (o.recognize uuid store req).1 = f first ∧
      o.recognizeAll uuid (o.recognize uuid store req).2 reqs = (rest.map f, store') := by
  rw [Orchestrator.recognizeAll, Prod.mk.injEq] at hrun
  obtain ⟨houtcomes, hstore⟩ := hrun
  obtain ⟨first, rest, rfl, hfirst, hrest⟩ := List.map_eq_cons_iff.mp houtcomes.symm
  exact ⟨first, rest, rfl, hfirst.symm, Prod.ext hrest.symm hstore⟩

/-- On a known session every turn is appended to its history. -/
theorem recognizeAll_known :
    ∀ {reqs : List RecognitionRequest} {store store' : SessionStore} {session : Session}
      {responses : List RecognitionResponse},
      (∀ req, req ∈ reqs → req.sessionId = some s) →
      store.byId.get? s = some session →
      o.recognizeAll uuid store reqs = (responses.map .ok, store') →
      (∀ response, response ∈ responses → response.sessionId = s) ∧
        store'.byId.size = store.byId.size ∧
        ∃ session', store'.byId.get? s = some session' ∧
          session'.history = session.history ++ reqs.map RecognitionRequest.text
  | [], store, store', session, responses, _, hknown, hrun => by
      rw [Orchestrator.recognizeAll, Prod.mk.injEq] at hrun
      obtain ⟨hresp, rfl⟩ := hrun
      have hnil : responses = [] := List.map_eq_nil_iff.mp hresp.symm
      subst hnil
      exact ⟨nofun, rfl, session, hknown, (List.append_nil _).symm⟩
  | req :: reqs, store, store', session, responses, hs, hknown, hrun => by
      obtain ⟨response, responses, rfl, hfirst, hrest⟩ := recognizeAll_cons hrun
      obtain ⟨hid, hsize, session₁, hknown₁, hhist₁⟩ :=
        recognize_known (hs req List.mem_cons_self) hknown hfirst
      obtain ⟨hids, hsizes, session', hknown', hhist'⟩ :=
        recognizeAll_known (fun r hr => hs r (List.mem_cons_of_mem _ hr)) hknown₁ hrest
      refine ⟨?_, hsizes.trans hsize, session', hknown', ?_⟩
      · intro r hr
        rcases List.mem_cons.mp hr with rfl | hr
        · exact hid
        · exact hids r hr
      · rw [hhist', hhist₁, List.map_cons, List.append_assoc]
        rfl

/-- **A caller's turns accumulate under its id exactly when the store knows the
id, or the first call draws it.** -/
theorem sessionContinuity_iff {store store' : SessionStore} {reqs : List RecognitionRequest}
    {responses : List RecognitionResponse}
    (hs : ∀ req, req ∈ reqs → req.sessionId = some s)
    (hrun : o.recognizeAll uuid store reqs = (responses.map .ok, store')) :
    Continuous s store store' reqs responses ↔
      (∃ session, store.byId.get? s = some session) ∨
        reqs ≠ [] ∧ uuid store.issued = s := by
  cases hknown : store.byId.get? s with
  | some session =>
      obtain ⟨hids, hsize, session', hstored, hhist⟩ := recognizeAll_known hs hknown hrun
      refine iff_of_true ⟨hids, ⟨session', hstored, ?_⟩, ?_⟩ (Or.inl ⟨session, rfl⟩)
      · rw [hhist, historyOf, hknown]
      · omega
  | none =>
      cases reqs with
      | nil =>
          rw [Orchestrator.recognizeAll, Prod.mk.injEq] at hrun
          refine iff_of_false ?_ ?_
          · rintro ⟨_, ⟨session, hstored, _⟩, _⟩
            rw [← hrun.2, hknown] at hstored
            cases hstored
          · rintro (⟨session, h⟩ | ⟨h, _⟩)
            · cases h
            · exact h rfl
      | cons req reqs =>
          obtain ⟨response, responses, rfl, hfirst, hrest⟩ := recognizeAll_cons hrun
          obtain ⟨hid, hsize, session₁, hknown₁, hhist₁⟩ :=
            recognize_unknown (hs req List.mem_cons_self) hknown hfirst
          constructor
          · rintro ⟨hreported, _, _⟩
            exact Or.inr ⟨List.cons_ne_nil _ _,
              hid.symm.trans (hreported response List.mem_cons_self)⟩
          · rintro (⟨session, h⟩ | ⟨_, hdrawn⟩)
            · cases h
            · rw [hdrawn] at hid hknown₁
              obtain ⟨hids, hsizes, session', hstored, hhist⟩ :=
                recognizeAll_known (fun r hr => hs r (List.mem_cons_of_mem _ hr)) hknown₁ hrest
              refine ⟨?_, ⟨session', hstored, ?_⟩, ?_⟩
              · intro r hr
                rcases List.mem_cons.mp hr with rfl | hr
                · exact hid
                · exact hids r hr
              · rw [hhist, hhist₁, historyOf, hknown]
                rfl
              · omega

end Runs

/-- A turn of the caller `s` on the two-intent scene. -/
def callerRequest (s text : String) : RecognitionRequest :=
  { sceneId := some "pair", text := text, sessionId := some s }

/-- Ids drawn by the store in the examples below. -/
def drawnId (k : Nat) : String :=
  if k = 0 then "7f3a" else "9c01"

def knownStore : SessionStore :=
  SessionStore.empty.put { sessionId := "call-1", currentCategoryId := "root" }

def quietResponse (s : String) : RecognitionResponse :=
  { sessionId := s
    top := some { intentId := "a", confidence := 1, answer := none, followUp := none }
    nBest := [⟨"a", ⟨1, confidence_one⟩⟩, ⟨"b", ⟨1 / 3, confidence_third⟩⟩]
    followUp := none
    currentCategoryId := "root" }

/-- Two turns of the caller `call-1`. -/
def callerTurns : List RecognitionRequest :=
  [callerRequest "call-1" "abc", callerRequest "call-1" "abc"]

theorem sessionContinuity_known :
    Continuous "call-1" knownStore
      (pairOrchestrator.recognizeAll drawnId knownStore callerTurns).2 callerTurns
      [quietResponse "call-1", quietResponse "call-1"] := by
  have hs : ∀ req, req ∈ callerTurns → req.sessionId = some "call-1" := by
    intro req hreq
    simp only [callerTurns, List.mem_cons, List.not_mem_nil, or_false, or_self] at hreq
    rw [hreq]
    rfl
  have hrun : pairOrchestrator.recognizeAll drawnId knownStore callerTurns =
      ([quietResponse "call-1", quietResponse "call-1"].map .ok,
        (pairOrchestrator.recognizeAll drawnId knownStore callerTurns).2) := by
    refine Prod.ext ?_ rfl
    decide +kernel
  exact (sessionContinuity_iff hs hrun).mpr
    (Or.inl ⟨{ sessionId := "call-1", currentCategoryId := "root" }, by decide⟩)

/-- Two turns of a caller with an id of its own: two sessions, none under the
caller's id. -/
theorem sessionContinuity_fails :
    (pairOrchestrator.recognizeAll drawnId SessionStore.empty callerTurns).1 =
      [.ok (quietResponse "7f3a"), .ok (quietResponse "9c01")] ∧
    (pairOrchestrator.recognizeAll drawnId SessionStore.empty callerTurns).2.byId.get? "call-1" =
      none ∧
    (pairOrchestrator.recognizeAll drawnId SessionStore.empty callerTurns).2.byId.size = 2 ∧
    ¬ Continuous "call-1" SessionStore.empty
      (pairOrchestrator.recognizeAll drawnId SessionStore.empty callerTurns).2 callerTurns
      [quietResponse "7f3a", quietResponse "9c01"] := by
  have hnone :
      (pairOrchestrator.recognizeAll drawnId SessionStore.empty callerTurns).2.byId.get? "call-1" =
      none := by decide +kernel
  refine ⟨by decide +kernel, hnone, by decide +kernel, ?_⟩
  rintro ⟨_, ⟨session, hstored, _⟩, _⟩
  rw [hnone] at hstored
  cases hstored

end Core
end Sandroid
