import Sandroid.Core.SessionContinuity
import Mathlib.Data.List.FinRange

/-!
# Concurrent turns on one session

`recognize` reads the session, computes, and writes the session back, and the
store's lock covers the read and the write only.  Here any number of calls on
one known session run interleaved: a call makes a get step, a compute step and a
put step, and a schedule says which call moves next.

A put overwrites whatever was stored since the call's get.  Hence
`noLostUpdate_iff`: when all calls have ended, every text and every reported
move is in the stored session exactly when each get was made while no other call
was between its get and its put.
-/

namespace Sandroid
namespace Core

open Lib Storage

/-- Where a call of `recognize` stands. -/
inductive CallState where
  | waiting
  | loaded (sceneId : String) (tree : CategoryTree) (session : Session)
  | computed (response : RecognitionResponse) (moved : Option CategoryId) (session : Session)
  | done (response : RecognitionResponse) (moved : Option CategoryId)
  | failed (e : PyError)
deriving DecidableEq

namespace CallState

/-- The call is between its get and its put. -/
def IsOpen : CallState → Prop
  | loaded _ _ _ => True
  | computed _ _ _ => True
  | _ => False

/-- The call has made its put. -/
def IsDone : CallState → Prop
  | done _ _ => True
  | _ => False

instance decidableIsOpen : DecidablePred IsOpen := fun state =>
  match state with
  | waiting => inferInstanceAs (Decidable False)
  | loaded _ _ _ => inferInstanceAs (Decidable True)
  | computed _ _ _ => inferInstanceAs (Decidable True)
  | done _ _ => inferInstanceAs (Decidable False)
  | failed _ => inferInstanceAs (Decidable False)

instance decidableIsDone : DecidablePred IsDone := fun state =>
  match state with
  | waiting => inferInstanceAs (Decidable False)
  | loaded _ _ _ => inferInstanceAs (Decidable False)
  | computed _ _ _ => inferInstanceAs (Decidable False)
  | done _ _ => inferInstanceAs (Decidable True)
  | failed _ => inferInstanceAs (Decidable False)

theorem not_isDone_iff {state : CallState} :
    ¬ state.IsDone ↔ ∀ response moved, state ≠ .done response moved := by
  cases state with
  | done response moved => exact ⟨fun h => absurd trivial h, fun h => absurd rfl (h _ _)⟩
  | waiting => exact ⟨fun _ => nofun, fun _ => id⟩
  | loaded _ _ _ => exact ⟨fun _ => nofun, fun _ => id⟩
  | computed _ _ _ => exact ⟨fun _ => nofun, fun _ => id⟩
  | failed _ => exact ⟨fun _ => nofun, fun _ => id⟩

/-- The session an open call holds. -/
def held : CallState → Option Session
  | loaded _ _ session => some session
  | computed _ _ session => some session
  | _ => none

/-- The history that the put of an open call on `text` will store. -/
def pending (text : String) : CallState → Option (List String)
  | loaded _ _ session => some (session.history ++ [text])
  | computed _ _ session => some session.history
  | _ => none

end CallState

/-- The category the response says the session moved to. -/
def movedTo (tree : CategoryTree) (response : RecognitionResponse) : Option CategoryId :=
  match Orchestrator.followTarget tree response.followUp with
  | .ok target => target
  | .error _ => none

/-- The store, the calls, and the calls that have made their put, in order. -/
structure Config (n : Nat) where
  store : SessionStore
  calls : Fin n → CallState
  finished : List (Fin n)

section Steps

variable (o : Orchestrator) (uuid : Nat → String) {n : Nat}
variable (reqs : Fin n → RecognitionRequest)

def Config.start (store : SessionStore) : Config n :=
  { store := store, calls := fun _ => .waiting, finished := [] }

/-- The next step of call `i`; a finished call has none. -/
def stepCall (c : Config n) (i : Fin n) : Option (Config n) :=
  match c.calls i with
  | .waiting =>
      match o.resolveScene (reqs i) with
      | .error e => some { c with calls := Function.update c.calls i (.failed e) }
      | .ok (sceneId, categoryId, tree) =>
          let loaded :=
            Orchestrator.loadOrCreateSession uuid c.store (reqs i).sessionId categoryId
          let session := Orchestrator.override (reqs i) categoryId loaded.1
          some { c with
            store := loaded.2
            calls := Function.update c.calls i (.loaded sceneId tree session) }
  | .loaded sceneId tree session =>
      match o.turn (reqs i) sceneId tree session with
      | .error e => some { c with calls := Function.update c.calls i (.failed e) }
      | .ok (response, session') =>
          some { c with
            calls := Function.update c.calls i
              (.computed response (movedTo tree response) session') }
  | .computed response moved session =>
      some
        { store := c.store.put session
          calls := Function.update c.calls i (.done response moved)
          finished := c.finished ++ [i] }
  | .done _ _ => none
  | .failed _ => none

/-- Follow a schedule: each entry names the call that moves next. -/
def runSchedule (c : Config n) : List (Fin n) → Option (Config n)
  | [] => some c
  | i :: schedule =>
      match stepCall o uuid reqs c i with
      | none => none
      | some c' => runSchedule c' schedule

/-- Along the schedule every get is made while no call is open. -/
def IsolatedGets (c : Config n) : List (Fin n) → Prop
  | [] => True
  | i :: schedule =>
      (c.calls i = .waiting → ∀ j, ¬ (c.calls j).IsOpen) ∧
        ∀ c', stepCall o uuid reqs c i = some c' → IsolatedGets c' schedule

instance decidableIsolatedGets : ∀ (c : Config n) (schedule : List (Fin n)),
    Decidable (IsolatedGets o uuid reqs c schedule)
  | _, [] => inferInstanceAs (Decidable True)
  | c, i :: schedule =>
      match h : stepCall o uuid reqs c i with
      | none =>
          decidable_of_iff (c.calls i = .waiting → ∀ j, ¬ (c.calls j).IsOpen)
            (by simp [IsolatedGets, h])
      | some c' =>
          haveI := decidableIsolatedGets c' schedule
          decidable_of_iff
            ((c.calls i = .waiting → ∀ j, ¬ (c.calls j).IsOpen) ∧
              IsolatedGets o uuid reqs c' schedule)
            (by simp [IsolatedGets, h])

/-- Every text is in the stored history exactly once after the initial history,
and every reported move is in the switching history. -/
def NoLostUpdate (s : String) (initial : Session) (c : Config n) : Prop :=
  ∃ session, c.store.byId.get? s = some session ∧
    (∃ texts, session.history = initial.history ++ texts ∧
      texts.Perm ((List.finRange n).map (fun i => (reqs i).text))) ∧
    ∀ i response t, c.calls i = .done response (some t) → t ∈ session.switchingHistory

/-- All calls have made their put. -/
def Config.AllDone (c : Config n) : Prop :=
  ∀ i, (c.calls i).IsDone

instance decidableAllDone (c : Config n) : Decidable c.AllDone :=
  inferInstanceAs (Decidable (∀ i, (c.calls i).IsDone))

end Steps

section Runs

variable {o : Orchestrator} {uuid : Nat → String} {n : Nat}
variable {reqs : Fin n → RecognitionRequest} {s : String}

/-- What one step of call `i` can do to its state, the store and the record of
finished calls. -/
inductive StepKind (reqs : Fin n → RecognitionRequest) (s : String) (i : Fin n)
    (c c' : Config n) : Prop
  | fail (e : PyError) :
      (∀ response moved, c.calls i ≠ .done response moved) →
      c'.calls i = .failed e → c'.store = c.store → c'.finished = c.finished →
      StepKind reqs s i c c'
  | get {stored session : Session} {sceneId : String} {tree : CategoryTree} :
      c.calls i = .waiting →
      c.store.byId.get? s = some stored →
      session.sessionId = s →
      session.history = stored.history →
      session.switchingHistory = stored.switchingHistory →
      c'.calls i = .loaded sceneId tree session →
      c'.store = c.store → c'.finished = c.finished →
      StepKind reqs s i c c'
  | compute {sceneId : String} {tree : CategoryTree} {session session' : Session}
      {response : RecognitionResponse} {moved : Option CategoryId} :
      c.calls i = .loaded sceneId tree session →
      session'.sessionId = session.sessionId →
      session'.history = session.history ++ [(reqs i).text] →
      session'.switchingHistory = session.switchingHistory ++ moved.toList →
      c'.calls i = .computed response moved session' →
      c'.store = c.store → c'.finished = c.finished →
      StepKind reqs s i c c'
  | put {response : RecognitionResponse} {moved : Option CategoryId} {session : Session} :
      c.calls i = .computed response moved session →
      c'.calls i = .done response moved →
      c'.store = c.store.put session → c'.finished = c.finished ++ [i] →
      StepKind reqs s i c c'

/-- The session is stored, open calls hold copies of it, and `finished` lists
the calls that are done. -/
structure ConfigInvariant (s : String) (c : Config n) : Prop where
  known : ∃ session, c.store.byId.get? s = some session
  heldId : ∀ i session, (c.calls i).held = some session → session.sessionId = s
  nodup : c.finished.Nodup
  finished : ∀ i, i ∈ c.finished ↔ (c.calls i).IsDone

theorem configInvariant_start {store : SessionStore} {initial : Session}
    (hknown : store.byId.get? s = some initial) :
    ConfigInvariant s (Config.start (n := n) store) :=
  ⟨⟨initial, hknown⟩, nofun, List.nodup_nil, fun _ => ⟨nofun, False.elim⟩⟩

theorem override_switchingHistory {req : RecognitionRequest} (categoryId : CategoryId)
    (session : Session) :
    (Orchestrator.override req categoryId session).switchingHistory =
      session.switchingHistory := by
  unfold Orchestrator.override
  split_ifs
  · rfl
  · rfl

/-- A step changes the state of its own call only. -/
theorem stepCall_frame {c c' : Config n} {i j : Fin n}
    (h : stepCall o uuid reqs c i = some c') (hj : j ≠ i) : c'.calls j = c.calls j := by
  unfold stepCall at h
  split at h
  · split at h
    · cases h
      exact Function.update_of_ne hj _ _
    · cases h
      exact Function.update_of_ne hj _ _
  · split at h
    · cases h
      exact Function.update_of_ne hj _ _
    · cases h
      exact Function.update_of_ne hj _ _
  · cases h
    exact Function.update_of_ne hj _ _
  · cases h
  · cases h

theorem stepCall_kind (hs : ∀ i, (reqs i).sessionId = some s) {c c' : Config n} {i : Fin n}
    (hinv : ConfigInvariant s c) (h : stepCall o uuid reqs c i = some c') :
    StepKind reqs s i c c' := by
  unfold stepCall at h
  split at h
  · rename_i hwait
    split at h
    · cases h
      refine .fail _ ?_ (Function.update_self _ _ _) rfl rfl
      rw [hwait]
      exact nofun
    · rename_i sceneId categoryId tree hscene
      obtain ⟨stored, hstored⟩ := hinv.known
      rw [loadOrCreateSession_known (hs i) hstored categoryId] at h
      cases h
      refine .get hwait hstored ?_ (override_history categoryId stored)
        (override_switchingHistory categoryId stored) (Function.update_self _ _ _) rfl rfl
      rw [override_sessionId]
      exact c.store.keyed s stored hstored
  · rename_i sceneId tree session hloaded
    split at h
    · cases h
      refine .fail _ ?_ (Function.update_self _ _ _) rfl rfl
      rw [hloaded]
      exact nofun
    · rename_i response session' hturn
      obtain ⟨fused, top, followUp, target, _, htarget, rfl, rfl⟩ :=
        Orchestrator.turn_eq_ok_iff.mp hturn
      cases h
      have hmoved : movedTo tree
          { sessionId := session.sessionId
            top := top
            nBest := fused
            followUp := followUp
            currentCategoryId :=
              (Orchestrator.advance session target (reqs i).text).currentCategoryId } =
          target := by
        simp only [movedTo, htarget]
      rw [hmoved]
      refine .compute hloaded ?_ ?_ ?_ (Function.update_self _ _ _) rfl rfl
      · rfl
      · rfl
      · rfl
  · rename_i response moved session hcomputed
    cases h
    exact .put hcomputed (Function.update_self _ _ _) rfl rfl
  · cases h
  · cases h

section Step

variable {c c' : Config n} {i : Fin n}
variable (hframe : ∀ j, j ≠ i → c'.calls j = c.calls j)
include hframe

/-- A property of single calls holds after a step if it held before and the
moving call has it. -/
theorem forall_calls_of_frame {P : Fin n → CallState → Prop}
    (hold : ∀ j, j ≠ i → P j (c.calls j)) (hnew : P i (c'.calls i)) :
    ∀ j, P j (c'.calls j) := by
  intro j
  by_cases hj : j = i
  · rw [hj]
    exact hnew
  · rw [hframe j hj]
    exact hold j hj

/-- A step before the put leaves the store and the finished calls alone. -/
theorem configInvariant_quiet (hinv : ConfigInvariant s c)
    (hstore : c'.store = c.store) (hfinished : c'.finished = c.finished)
    (hdone : ¬ (c.calls i).IsDone) (hdone' : ¬ (c'.calls i).IsDone)
    (hheld : ∀ session, (c'.calls i).held = some session → session.sessionId = s) :
    ConfigInvariant s c' := by
  refine ⟨?_, ?_, ?_, ?_⟩
  · rw [hstore]
    exact hinv.known
  · exact forall_calls_of_frame hframe
      (P := fun _ state => ∀ session, state.held = some session → session.sessionId = s)
      (fun j _ => hinv.heldId j) hheld
  · rw [hfinished]
    exact hinv.nodup
  · rw [hfinished]
    refine forall_calls_of_frame hframe (P := fun j state => j ∈ c.finished ↔ state.IsDone)
      (fun j _ => hinv.finished j) ?_
    exact iff_of_false (fun h => hdone ((hinv.finished i).mp h)) hdone'

theorem configInvariant_step (hinv : ConfigInvariant s c) (h : StepKind reqs s i c c') :
    ConfigInvariant s c' := by
  cases h with
  | fail e hnot hcall hstore hfinished =>
      refine configInvariant_quiet hframe hinv hstore hfinished
        (CallState.not_isDone_iff.mpr hnot) ?_ ?_
      · rw [hcall]
        exact id
      · rw [hcall]
        exact nofun
  | get hwait _ hid _ _ hcall hstore hfinished =>
      refine configInvariant_quiet hframe hinv hstore hfinished ?_ ?_ ?_
      · rw [hwait]
        exact id
      · rw [hcall]
        exact id
      · rw [hcall]
        rintro session' ⟨⟩
        exact hid
  | compute hloaded hid _ _ hcall hstore hfinished =>
      refine configInvariant_quiet hframe hinv hstore hfinished ?_ ?_ ?_
      · rw [hloaded]
        exact id
      · rw [hcall]
        exact id
      · rw [hcall]
        rintro session'' ⟨⟩
        rw [hid]
        exact hinv.heldId i _ (by rw [hloaded]; rfl)
  | @put response moved session hcomputed hcall hstore hfinished =>
      have hid := hinv.heldId i session (by rw [hcomputed]; rfl)
      have hnew : i ∉ c.finished := by
        rw [hinv.finished, hcomputed]
        exact id
      refine ⟨⟨session, ?_⟩, ?_, ?_, ?_⟩
      · rw [hstore, SessionStore.byId_put, hid, Dict.get?_set_self]
      · refine forall_calls_of_frame hframe
          (P := fun _ state => ∀ session, state.held = some session → session.sessionId = s)
          (fun j _ => hinv.heldId j) ?_
        rw [hcall]
        exact nofun
      · rw [hfinished, ← List.concat_eq_append]
        exact hinv.nodup.concat hnew
      · rw [hfinished]
        refine forall_calls_of_frame hframe
          (P := fun j state => j ∈ c.finished ++ [i] ↔ state.IsDone) ?_ ?_
        · intro j hj
          rw [List.mem_append, hinv.finished, List.mem_singleton]
          exact or_iff_left hj
        · rw [hcall]
          exact ⟨fun _ => trivial, fun _ => List.mem_append_right _ (List.mem_singleton_self i)⟩

/-- Upper bounds on what is stored and what is about to be stored: there is at
most one text per finished call. -/
structure LengthBound (reqs : Fin n → RecognitionRequest) (s : String) (initial : Session)
    (c : Config n) : Prop where
  stored : ∀ session, c.store.byId.get? s = some session →
    session.history.length ≤ initial.history.length + c.finished.length
  pending : ∀ i history, (c.calls i).pending (reqs i).text = some history →
    history.length ≤ initial.history.length + c.finished.length + 1

/-- A text has been overwritten or is bound to be: two calls are open, or an open
call misses a finished one, or the store does. -/
def Lost (reqs : Fin n → RecognitionRequest) (s : String) (initial : Session)
    (c : Config n) : Prop :=
  (∃ i j, i ≠ j ∧ (c.calls i).IsOpen ∧ (c.calls j).IsOpen) ∨
    (∃ i history, (c.calls i).pending (reqs i).text = some history ∧
      history.length ≤ initial.history.length + c.finished.length) ∨
    (∀ i, ¬ (c.calls i).IsOpen) ∧ ∃ session, c.store.byId.get? s = some session ∧
      session.history.length < initial.history.length + c.finished.length

omit hframe in
theorem CallState.isOpen_iff_pending (text : String) (state : CallState) :
    state.IsOpen ↔ ∃ history, state.pending text = some history := by
  cases state with
  | loaded _ _ session => exact ⟨fun _ => ⟨_, rfl⟩, fun _ => trivial⟩
  | computed _ _ session => exact ⟨fun _ => ⟨_, rfl⟩, fun _ => trivial⟩
  | waiting => exact ⟨False.elim, nofun⟩
  | done _ _ => exact ⟨False.elim, nofun⟩
  | failed _ => exact ⟨False.elim, nofun⟩

variable {initial : Session}

/-- A step before the put keeps the bounds, if what it is about to store is within them. -/
theorem lengthBound_quiet (hbound : LengthBound reqs s initial c) (hstore : c'.store = c.store)
    (hfinished : c'.finished = c.finished)
    (hpending : ∀ history, (c'.calls i).pending (reqs i).text = some history →
      history.length ≤ initial.history.length + c.finished.length + 1) :
    LengthBound reqs s initial c' := by
  refine ⟨?_, ?_⟩
  · rw [hstore, hfinished]
    exact hbound.stored
  · rw [hfinished]
    exact forall_calls_of_frame hframe (P := fun j state => ∀ history,
      state.pending (reqs j).text = some history →
        history.length ≤ initial.history.length + c.finished.length + 1)
      (fun j _ => hbound.pending j) hpending

theorem lengthBound_step (hinv : ConfigInvariant s c) (hbound : LengthBound reqs s initial c)
    (h : StepKind reqs s i c c') : LengthBound reqs s initial c' := by
  cases h with
  | fail e _ hcall hstore hfinished =>
      refine lengthBound_quiet hframe hbound hstore hfinished ?_
      rw [hcall]
      exact nofun
  | @get stored session _ _ _ hstored _ hhist _ hcall hstore hfinished =>
      refine lengthBound_quiet hframe hbound hstore hfinished ?_
      rw [hcall]
      rintro history ⟨⟩
      have := hbound.stored stored hstored
      rw [List.length_append, hhist, List.length_singleton]
      omega
  | @compute _ _ session session' _ _ hloaded _ hhist _ hcall hstore hfinished =>
      refine lengthBound_quiet hframe hbound hstore hfinished ?_
      rw [hcall]
      rintro history ⟨⟩
      rw [hhist]
      exact hbound.pending i _ (by rw [hloaded]; rfl)
  | @put response moved session hcomputed hcall hstore hfinished =>
      have hid := hinv.heldId i session (by rw [hcomputed]; rfl)
      have hlen := hbound.pending i session.history (by rw [hcomputed]; rfl)
      refine ⟨?_, ?_⟩
      · intro session' hget
        rw [hstore, SessionStore.byId_put, hid, Dict.get?_set_self, Option.some.injEq] at hget
        subst hget
        rw [hfinished, List.length_append, List.length_singleton]
        omega
      · rw [hfinished, List.length_append, List.length_singleton]
        refine forall_calls_of_frame hframe (P := fun j state => ∀ history,
          state.pending (reqs j).text = some history →
            history.length ≤ initial.history.length + (c.finished.length + 1) + 1) ?_ ?_
        · intro j _ history hj
          have := hbound.pending j history hj
          omega
        · rw [hcall]
          exact nofun

/-- Once a text is lost it stays lost: later puts only build on stale copies. -/
theorem lost_step (hinv : ConfigInvariant s c) (hbound : LengthBound reqs s initial c)
    (hlost : Lost reqs s initial c) (h : StepKind reqs s i c c')
    (hfail : ∀ e, c'.calls i ≠ .failed e) : Lost reqs s initial c' := by
  cases h with
  | fail e _ hcall _ _ => exact absurd hcall (hfail e)
  | @get stored session _ _ hwait hstored _ hhist _ hcall hstore hfinished =>
      have hopen : (c'.calls i).IsOpen := by
        rw [hcall]
        trivial
      by_cases hother : ∃ j, (c.calls j).IsOpen
      · obtain ⟨j, hj⟩ := hother
        have hji : j ≠ i := by
          rintro rfl
          rw [hwait] at hj
          exact hj
        exact Or.inl ⟨j, i, hji, by rw [hframe j hji]; exact hj, hopen⟩
      · rcases hlost with ⟨j, _, _, hj, _⟩ | ⟨j, history, hj, _⟩ | ⟨_, session', hget, hlen⟩
        · exact absurd ⟨j, hj⟩ hother
        · exact absurd ⟨j, (CallState.isOpen_iff_pending _ _).mpr ⟨history, hj⟩⟩ hother
        · rw [hstored, Option.some.injEq] at hget
          subst hget
          refine Or.inr (Or.inl ⟨i, session.history ++ [(reqs i).text], by rw [hcall]; rfl, ?_⟩)
          rw [hfinished, List.length_append, hhist, List.length_singleton]
          omega
  | @compute _ _ session session' _ _ hloaded _ hhist _ hcall hstore hfinished =>
      have hpending : ∀ j, (c'.calls j).pending (reqs j).text =
          (c.calls j).pending (reqs j).text := by
        refine forall_calls_of_frame hframe (P := fun j state =>
          state.pending (reqs j).text = (c.calls j).pending (reqs j).text) (fun _ _ => rfl) ?_
        rw [hcall, hloaded]
        exact congrArg some hhist
      have hopen : ∀ j, (c'.calls j).IsOpen ↔ (c.calls j).IsOpen := by
        intro j
        rw [CallState.isOpen_iff_pending (reqs j).text, hpending,
          ← CallState.isOpen_iff_pending]
      unfold Lost
      rw [hfinished, hstore]
      simp only [hpending, hopen]
      exact hlost
  | @put response moved session hcomputed hcall hstore hfinished =>
      have hid := hinv.heldId i session (by rw [hcomputed]; rfl)
      by_cases hother : ∃ j, j ≠ i ∧ (c.calls j).IsOpen
      · -- another open call now misses this put
        obtain ⟨j, hji, hj⟩ := hother
        obtain ⟨history, hhist⟩ := (CallState.isOpen_iff_pending (reqs j).text _).mp hj
        have hlen := hbound.pending j history hhist
        refine Or.inr (Or.inl ⟨j, history, by rw [hframe j hji]; exact hhist, ?_⟩)
        rw [hfinished, List.length_append, List.length_singleton]
        omega
      · have hnone : ∀ j, j ≠ i → ¬ (c.calls j).IsOpen := by
          intro j hji hj
          exact hother ⟨j, hji, hj⟩
        refine Or.inr (Or.inr ⟨?_, session, ?_, ?_⟩)
        · refine forall_calls_of_frame hframe (P := fun _ state => ¬ state.IsOpen) hnone ?_
          rw [hcall]
          exact id
        · rw [hstore, SessionStore.byId_put, hid, Dict.get?_set_self]
        · rw [hfinished, List.length_append, List.length_singleton]
          have hi : (c.calls i).IsOpen := by
            rw [hcomputed]
            trivial
          rcases hlost with ⟨j, k, hjk, hj, hk⟩ | ⟨j, history, hj, hlen⟩ | ⟨hclosed, _⟩
          · rcases ne_or_eq j i with hji | rfl
            · exact absurd hj (hnone j hji)
            · exact absurd hk (hnone k hjk.symm)
          · rcases ne_or_eq j i with hji | rfl
            · exact absurd ((CallState.isOpen_iff_pending _ _).mpr ⟨history, hj⟩) (hnone j hji)
            · rw [hcomputed] at hj
              cases hj
              omega
          · exact absurd hi (hclosed i)

/-- A call's copy of the session, or what it added, agrees with the stored
session. -/
def UpToDate (stored : Session) (text : String) : CallState → Prop
  | .loaded _ _ session =>
      session.history = stored.history ∧
        session.switchingHistory = stored.switchingHistory
  | .computed _ moved session =>
      session.history = stored.history ++ [text] ∧
        session.switchingHistory = stored.switchingHistory ++ moved.toList
  | .done _ moved => ∀ t, moved = some t → t ∈ stored.switchingHistory
  | _ => True

/-- Nothing has been lost: at most one call is open and it is up to date. -/
structure Kept (reqs : Fin n → RecognitionRequest) (s : String) (initial : Session)
    (c : Config n) : Prop where
  atMostOne : ∀ i j, (c.calls i).IsOpen → (c.calls j).IsOpen → i = j
  stored : ∃ session, c.store.byId.get? s = some session ∧
    session.history = initial.history ++ c.finished.map (fun i => (reqs i).text) ∧
    ∀ i, UpToDate session (reqs i).text (c.calls i)

theorem kept_step (hinv : ConfigInvariant s c) (hkept : Kept reqs s initial c)
    (h : StepKind reqs s i c c')
    (hisolated : c.calls i = .waiting → ∀ j, ¬ (c.calls j).IsOpen) :
    Kept reqs s initial c' := by
  obtain ⟨stored, hstored, hhistory, hup⟩ := hkept.stored
  -- while the moving call stays open, or closes, no second call opens
  have hone : ((c'.calls i).IsOpen → ∀ j, j ≠ i → ¬ (c.calls j).IsOpen) →
      ∀ j k, (c'.calls j).IsOpen → (c'.calls k).IsOpen → j = k := by
    intro hexcl j k hj hk
    rcases ne_or_eq j i with hji | rfl
    · rcases ne_or_eq k i with hki | rfl
      · rw [hframe j hji] at hj
        rw [hframe k hki] at hk
        exact hkept.atMostOne j k hj hk
      · rw [hframe j hji] at hj
        exact absurd hj (hexcl hk j hji)
    · rcases ne_or_eq k j with hkj | rfl
      · rw [hframe k hkj] at hk
        exact absurd hk (hexcl hj k hkj)
      · rfl
  cases h with
  | fail e _ hcall hstore hfinished =>
      refine ⟨hone ?_, stored, by rw [hstore]; exact hstored, by rw [hfinished]; exact hhistory,
        ?_⟩
      · rw [hcall]
        exact False.elim
      · refine forall_calls_of_frame hframe
          (P := fun j state => UpToDate stored (reqs j).text state) (fun j _ => hup j) ?_
        rw [hcall]
        trivial
  | @get stored' session _ _ hwait hstored' _ hhist hswitch hcall hstore hfinished =>
      rw [hstored, Option.some.injEq] at hstored'
      subst hstored'
      refine ⟨hone ?_, stored, by rw [hstore]; exact hstored, by rw [hfinished]; exact hhistory,
        ?_⟩
      · intro _ j _
        exact hisolated hwait j
      · refine forall_calls_of_frame hframe
          (P := fun j state => UpToDate stored (reqs j).text state) (fun j _ => hup j) ?_
        rw [hcall]
        exact ⟨hhist, hswitch⟩
  | @compute _ _ session session' _ moved hloaded _ hhist hswitch hcall hstore hfinished =>
      have hi := hup i
      rw [hloaded] at hi
      refine ⟨hone ?_, stored, by rw [hstore]; exact hstored, by rw [hfinished]; exact hhistory,
        ?_⟩
      · intro _ j hji hj
        exact hji (hkept.atMostOne j i hj (by rw [hloaded]; trivial))
      · refine forall_calls_of_frame hframe
          (P := fun j state => UpToDate stored (reqs j).text state) (fun j _ => hup j) ?_
        rw [hcall]
        exact ⟨by rw [hhist, hi.1], by rw [hswitch, hi.2]⟩
  | @put response moved session hcomputed hcall hstore hfinished =>
      have hid := hinv.heldId i session (by rw [hcomputed]; rfl)
      have hi := hup i
      rw [hcomputed] at hi
      obtain ⟨hhist, hswitch⟩ := hi
      refine ⟨hone ?_, session, ?_, ?_, ?_⟩
      · rw [hcall]
        exact False.elim
      · rw [hstore, SessionStore.byId_put, hid, Dict.get?_set_self]
      · rw [hhist, hhistory, hfinished, List.map_append, List.append_assoc]
        rfl
      · refine forall_calls_of_frame hframe
          (P := fun j state => UpToDate session (reqs j).text state) ?_ ?_
        · intro j hji
          have hclosed : ¬ (c.calls j).IsOpen := by
            intro hj
            exact hji (hkept.atMostOne j i hj (by rw [hcomputed]; trivial))
          have hj := hup j
          cases hstate : c.calls j with
          | loaded _ _ _ => exact absurd (by rw [hstate]; trivial) hclosed
          | computed _ _ _ => exact absurd (by rw [hstate]; trivial) hclosed
          | waiting => trivial
          | failed _ => trivial
          | done response' moved' =>
              rw [hstate] at hj
              intro t ht
              rw [hswitch]
              exact List.mem_append_left _ (hj t ht)
        · rw [hcall]
          intro t ht
          rw [hswitch, ht]
          exact List.mem_append_right _ (List.mem_singleton_self t)

end Step

/-- A failed call stays failed. -/
theorem runSchedule_failed {i : Fin n} {e : PyError} :
    ∀ {schedule : List (Fin n)} {c c' : Config n},
      runSchedule o uuid reqs c schedule = some c' → c.calls i = .failed e →
      c'.calls i = .failed e
  | [], c, c', hrun, hfail => by
      cases hrun
      exact hfail
  | j :: schedule, c, c', hrun, hfail => by
      rw [runSchedule] at hrun
      cases hstep : stepCall o uuid reqs c j with
      | none =>
          rw [hstep] at hrun
          cases hrun
      | some c₁ =>
          rw [hstep] at hrun
          refine runSchedule_failed hrun ?_
          rcases ne_or_eq i j with hij | rfl
          · rw [stepCall_frame hstep hij]
            exact hfail
          · rw [stepCall, hfail] at hstep
            cases hstep

section Schedules

variable (hs : ∀ i, (reqs i).sessionId = some s) {initial : Session}
include hs

/-- With isolated gets nothing is lost along a run. -/
theorem kept_run :
    ∀ {schedule : List (Fin n)} {c c' : Config n},
      ConfigInvariant s c → Kept reqs s initial c →
      IsolatedGets o uuid reqs c schedule →
      runSchedule o uuid reqs c schedule = some c' →
      ConfigInvariant s c' ∧ Kept reqs s initial c'
  | [], c, c', hinv, hkept, _, hrun => by
      cases hrun
      exact ⟨hinv, hkept⟩
  | i :: schedule, c, c', hinv, hkept, hisolated, hrun => by
      rw [runSchedule] at hrun
      cases hstep : stepCall o uuid reqs c i with
      | none =>
          rw [hstep] at hrun
          cases hrun
      | some c₁ =>
          rw [hstep] at hrun
          have hframe : ∀ j, j ≠ i → c₁.calls j = c.calls j := fun j => stepCall_frame hstep
          have hkind := stepCall_kind hs hinv hstep
          exact kept_run (configInvariant_step hframe hinv hkind)
            (kept_step hframe hinv hkept hkind hisolated.1) (hisolated.2 c₁ hstep) hrun

/-- A run whose calls all end has lost a text if it starts from a loss or makes a
get that is not isolated. -/
theorem lost_run :
    ∀ {schedule : List (Fin n)} {c c' : Config n},
      ConfigInvariant s c → LengthBound reqs s initial c →
      runSchedule o uuid reqs c schedule = some c' → c'.AllDone →
      (Lost reqs s initial c ∨ ¬ IsolatedGets o uuid reqs c schedule) →
      ConfigInvariant s c' ∧ Lost reqs s initial c'
  | [], c, c', hinv, _, hrun, _, hlost => by
      cases hrun
      rcases hlost with hlost | hnot
      · exact ⟨hinv, hlost⟩
      · exact absurd trivial hnot
  | i :: schedule, c, c', hinv, hbound, hrun, hdone, hlost => by
      rw [runSchedule] at hrun
      cases hstep : stepCall o uuid reqs c i with
      | none =>
          rw [hstep] at hrun
          cases hrun
      | some c₁ =>
          rw [hstep] at hrun
          have hframe : ∀ j, j ≠ i → c₁.calls j = c.calls j := fun j => stepCall_frame hstep
          have hkind := stepCall_kind hs hinv hstep
          have hfail : ∀ e, c₁.calls i ≠ .failed e := by
            intro e hcall
            have hi := hdone i
            rw [runSchedule_failed hrun hcall] at hi
            exact hi
          refine lost_run (configInvariant_step hframe hinv hkind)
            (lengthBound_step hframe hinv hbound hkind) hrun hdone ?_
          rcases hlost with hlost | hnot
          · exact Or.inl (lost_step hframe hinv hbound hlost hkind hfail)
          · by_cases hget : c.calls i = .waiting → ∀ j, ¬ (c.calls j).IsOpen
            · right
              intro hrest
              refine hnot ⟨hget, ?_⟩
              intro c₂ hstep₂
              rw [hstep, Option.some.injEq] at hstep₂
              rw [← hstep₂]
              exact hrest
            · left
              push Not at hget
              obtain ⟨hwait, j, hj⟩ := hget
              have hji : j ≠ i := by
                rintro rfl
                rw [hwait] at hj
                exact hj
              refine Or.inl ⟨j, i, hji, by rw [hframe j hji]; exact hj, ?_⟩
              cases hkind with
              | fail e _ hcall _ _ => exact absurd hcall (hfail e)
              | get _ _ _ _ _ hcall _ _ =>
                  rw [hcall]
                  trivial
              | compute hloaded _ _ _ _ _ _ =>
                  rw [hwait] at hloaded
                  cases hloaded
              | put hcomputed _ _ _ =>
                  rw [hwait] at hcomputed
                  cases hcomputed

omit hs in
theorem finished_perm {c : Config n} (hinv : ConfigInvariant s c) (hdone : c.AllDone) :
    c.finished.Perm (List.finRange n) := by
  refine (List.perm_ext_iff_of_nodup hinv.nodup (List.nodup_finRange n)).mpr ?_
  intro i
  exact iff_of_true ((hinv.finished i).mpr (hdone i)) (List.mem_finRange i)

omit hs in
theorem not_isOpen_of_isDone {state : CallState} (h : state.IsDone) : ¬ state.IsOpen := by
  cases state with
  | done _ _ => exact id
  | waiting => exact h.elim
  | loaded _ _ _ => exact h.elim
  | computed _ _ _ => exact h.elim
  | failed _ => exact h.elim

/-- **Once all calls on a known session have ended, no update is lost exactly
when every get was made while no other call was open.** -/
theorem noLostUpdate_iff {store : SessionStore} (hknown : store.byId.get? s = some initial)
    {schedule : List (Fin n)} {c : Config n}
    (hrun : runSchedule o uuid reqs (Config.start store) schedule = some c)
    (hdone : c.AllDone) :
    NoLostUpdate reqs s initial c ↔
      IsolatedGets o uuid reqs (Config.start store) schedule := by
  have hinv : ConfigInvariant s (Config.start (n := n) store) := configInvariant_start hknown
  have hclosed : ∀ i, ¬ (c.calls i).IsOpen := fun i => not_isOpen_of_isDone (hdone i)
  constructor
  · rintro ⟨session, hstored, ⟨texts, hhistory, hperm⟩, _⟩
    by_contra hnot
    have hbound : LengthBound reqs s initial (Config.start (n := n) store) := by
      refine ⟨?_, nofun⟩
      intro session' hget
      rw [show (Config.start (n := n) store).store = store from rfl, hknown,
        Option.some.injEq] at hget
      rw [hget]
      exact Nat.le_add_right _ _
    obtain ⟨hinv', hlost⟩ := lost_run hs hinv hbound hrun hdone (Or.inr hnot)
    rcases hlost with ⟨i, _, _, hi, _⟩ | ⟨i, history, hi, _⟩ | ⟨_, session', hstored', hlen⟩
    · exact hclosed i hi
    · exact hclosed i ((CallState.isOpen_iff_pending _ _).mpr ⟨history, hi⟩)
    · rw [hstored, Option.some.injEq] at hstored'
      rw [← hstored', hhistory, (finished_perm hinv' hdone).length_eq, List.length_append,
        hperm.length_eq, List.length_map] at hlen
      exact absurd hlen (lt_irrefl _)
  · intro hisolated
    have hkept₀ : Kept reqs s initial (Config.start (n := n) store) := by
      refine ⟨nofun, initial, hknown, ?_, fun _ => trivial⟩
      exact (List.append_nil _).symm
    obtain ⟨hinv', hkept⟩ := kept_run hs hinv hkept₀ hisolated hrun
    obtain ⟨session, hstored, hhistory, hup⟩ := hkept.stored
    refine ⟨session, hstored, ⟨_, hhistory, (finished_perm hinv' hdone).map _⟩, ?_⟩
    intro i response t hi
    have hi' := hup i
    rw [hi] at hi'
    exact hi' t rfl

end Schedules

end Runs

/-- Two calls of the caller `call-1` with different texts. -/
def twoCalls : Fin 2 → RecognitionRequest
  | 0 => callerRequest "call-1" "abc"
  | 1 => callerRequest "call-1" "abd"

/-- Whether a run ended with all calls done, and the history it left. -/
def twoCallsOutcome (schedule : List (Fin 2)) : Option (Bool × List String) :=
  (runSchedule pairOrchestrator drawnId twoCalls (Config.start knownStore) schedule).map
    (fun c => (decide c.AllDone, historyOf c.store "call-1"))

theorem noLostUpdate_serial :
    ∃ c, runSchedule pairOrchestrator drawnId twoCalls (Config.start knownStore)
        [0, 0, 0, 1, 1, 1] = some c ∧
      NoLostUpdate twoCalls "call-1" { sessionId := "call-1", currentCategoryId := "root" } c := by
  have houtcome : twoCallsOutcome [0, 0, 0, 1, 1, 1] = some (true, ["abc", "abd"]) := by
    decide +kernel
  obtain ⟨c, hrun, hc⟩ := Option.map_eq_some_iff.mp houtcome
  have hdone : c.AllDone := of_decide_eq_true (Prod.mk.inj hc).1
  refine ⟨c, hrun, (noLostUpdate_iff ?_ (by decide) hrun hdone).mpr (by decide +kernel)⟩
  intro i
  match i with
  | 0 => rfl
  | 1 => rfl

/-- Both calls read before either writes: the first text is lost. -/
theorem noLostUpdate_fails :
    ∃ c, runSchedule pairOrchestrator drawnId twoCalls (Config.start knownStore)
        [0, 1, 0, 1, 0, 1] = some c ∧
      c.AllDone ∧ historyOf c.store "call-1" = ["abd"] ∧
      ¬ NoLostUpdate twoCalls "call-1"
        { sessionId := "call-1", currentCategoryId := "root" } c := by
  have houtcome : twoCallsOutcome [0, 1, 0, 1, 0, 1] = some (true, ["abd"]) := by
    decide +kernel
  obtain ⟨c, hrun, hc⟩ := Option.map_eq_some_iff.mp houtcome
  have hhistory : historyOf c.store "call-1" = ["abd"] := (Prod.mk.inj hc).2
  refine ⟨c, hrun, of_decide_eq_true (Prod.mk.inj hc).1, hhistory, ?_⟩
  rintro ⟨session, hstored, ⟨texts, htexts, hperm⟩, _⟩
  rw [historyOf, hstored] at hhistory
  have hlength := congrArg List.length (hhistory.symm.trans htexts)
  rw [List.length_append, hperm.length_eq] at hlength
  exact absurd hlength (by decide)

end Core
end Sandroid
