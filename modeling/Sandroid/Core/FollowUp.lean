import Sandroid.Core.SessionPointer

/-!
# Follow-ups that lead nowhere

The winner of a turn may carry a path, an unchecked string of the scene file.  `recognize`
looks it up before it stores the session and means to ignore a path that does not resolve,
but catches `KeyError` only.  `resolve_path` answers a path without any name in it, such as
`"->"`, with a `ValueError`: that turn is lost.

`follow_up_harmless_iff`: a turn survives the path of its winner exactly when the path,
if there is one, names something.
-/

namespace Sandroid
namespace Core

open Lib Storage

/-- The path names something: it is not made of separators alone. -/
def NamesSomething (path : CategoryPath) : Prop :=
  pathParts path ≠ []

instance (path : CategoryPath) : Decidable (NamesSomething path) :=
  inferInstanceAs (Decidable (pathParts path ≠ []))

/-- The path a turn follows once `intent` has won it. -/
def Intent.pointer (intent : Intent) : Option CategoryPath :=
  pyOr intent.switching intent.followUp

section Resolve

variable {tree : CategoryTree}

theorem mapM_get_error {e : PyError} :
    ∀ {ids : List CategoryId}, ids.mapM tree.get = .error e → e.kind = .keyError
  | [], h => by
      rw [List.mapM_nil] at h
      cases h
  | id :: ids, h => by
      rw [List.mapM_cons, except_bind_eq_error_iff] at h
      rcases h with hid | ⟨c, _, h⟩
      · rw [CategoryTree.get] at hid
        split at hid
        · cases hid
          rfl
        · cases hid
      · rw [except_bind_eq_error_iff] at h
        rcases h with hids | ⟨cs, _, h⟩
        · exact mapM_get_error hids
        · cases h

/-- On its way down `resolve_path` raises nothing but `KeyError`. -/
theorem resolveLoop_error {e : PyError} :
    ∀ {names : List String} {cur : Category},
      tree.resolveLoop cur names = .error e → e.kind = .keyError
  | [], cur, h => by
      rw [CategoryTree.resolveLoop] at h
      cases h
  | name :: names, cur, h => by
      rw [CategoryTree.resolveLoop, except_bind_eq_error_iff] at h
      rcases h with hchildren | ⟨children, _, h⟩
      · exact mapM_get_error hchildren
      · split at h
        · cases h
          rfl
        · exact resolveLoop_error h
        · cases h
          rfl

theorem resolvePath_error {path : CategoryPath} {e : PyError} (hnames : NamesSomething path)
    (h : tree.resolvePath path = .error e) : e.kind = .keyError := by
  rw [CategoryTree.resolvePath] at h
  split at h
  · exact absurd ‹pathParts path = []› hnames
  · rw [except_bind_eq_error_iff] at h
    rcases h with hroot | ⟨root, _, h⟩
    · rw [CategoryTree.get] at hroot
      split at hroot
      · cases hroot
        rfl
      · cases hroot
    · split_ifs at h
      · cases h
        rfl
      · exact resolveLoop_error h

theorem resolvePath_of_not_namesSomething {path : CategoryPath} (h : ¬ NamesSomething path) :
    tree.resolvePath path = .error (.emptyCategoryPath path) := by
  rw [NamesSomething, not_not] at h
  rw [CategoryTree.resolvePath, h]

end Resolve

/-- Where a follow-up leads: nowhere without a path, or if its path does not resolve. -/
def leadsTo (tree : CategoryTree) (followUp : Option CategoryPath) : Option CategoryId :=
  match followUp with
  | none => none
  | some path =>
      match tree.resolvePath path with
      | .ok target => some target.id
      | .error _ => none

theorem leadsTo_of_resolved {tree : CategoryTree} {path : CategoryPath} {target : Category}
    (h : tree.resolvePath path = .ok target) : leadsTo tree (some path) = some target.id := by
  simp only [leadsTo, h]

theorem leadsTo_of_unresolved {tree : CategoryTree} {followUp : Option CategoryPath}
    (h : ∀ path target, followUp = some path → tree.resolvePath path ≠ .ok target) :
    leadsTo tree followUp = none := by
  cases followUp with
  | none => rfl
  | some path =>
      rw [leadsTo]
      cases hpath : tree.resolvePath path with
      | error e => rfl
      | ok target => exact absurd hpath (h path target rfl)

/-- A path that names something is followed or ignored. -/
theorem followTarget_eq_ok {tree : CategoryTree} {followUp : Option CategoryPath}
    (h : ∀ path, followUp = some path → NamesSomething path) :
    Orchestrator.followTarget tree followUp = .ok (leadsTo tree followUp) := by
  cases followUp with
  | none => rfl
  | some path =>
      rw [Orchestrator.followTarget, leadsTo]
      cases hpath : tree.resolvePath path with
      | ok target => rfl
      | error e => exact if_pos (resolvePath_error (h path rfl) hpath)

theorem followTarget_of_not_namesSomething {tree : CategoryTree} {path : CategoryPath}
    (h : ¬ NamesSomething path) :
    Orchestrator.followTarget tree (some path) = .error (.emptyCategoryPath path) := by
  rw [Orchestrator.followTarget, resolvePath_of_not_namesSomething h]
  exact if_neg (fun h => by cases h)

/-- Scoring the request at the category `current` puts `intent` first. -/
def TopHitIs (o : Orchestrator) (req : RecognitionRequest) (sceneId : String)
    (tree : CategoryTree) (current : CategoryId) (intent : Intent) : Prop :=
  ∃ candidates ranked slu top rest, o.candidatesAt tree current = .ok candidates ∧
    o.matcher req.text candidates req.nBest.val = .ok ranked ∧
    o.runPathB req.audio sceneId = .ok slu ∧
    fuse ranked slu candidates (o.fusionConfig.forScene sceneId) req.nBest.val =
      .ok (top :: rest) ∧
    intentById candidates top.intentId = .ok intent

section Turn

variable {o : Orchestrator} {uuid : Nat → String} {store : SessionStore}
variable {req : RecognitionRequest} {sceneId : String} {categoryId : CategoryId}
variable {tree : CategoryTree} {intent : Intent}

/-- The session that the turn of a request starts from. -/
def sessionBefore (uuid : Nat → String) (store : SessionStore) (req : RecognitionRequest)
    (categoryId : CategoryId) : Session :=
  Orchestrator.override req categoryId
    (Orchestrator.loadOrCreateSession uuid store req.sessionId categoryId).1

/-- The call succeeds and records its text; the session follows the path if it resolves in
`tree`, and keeps its pointer and its history of switches if it does not. -/
structure TurnSurvives (o : Orchestrator) (uuid : Nat → String) (store : SessionStore)
    (req : RecognitionRequest) (before : Session) (tree : CategoryTree)
    (followUp : Option CategoryPath) (response : RecognitionResponse) (after : Session) :
    Prop where
  succeeds : (o.recognize uuid store req).1 = .ok response
  stored : (o.recognize uuid store req).2.byId.get? response.sessionId = some after
  recorded : after.history = before.history ++ [req.text]
  followed : ∀ path target, followUp = some path → tree.resolvePath path = .ok target →
    after.currentCategoryId = target.id ∧
      after.switchingHistory = before.switchingHistory ++ [target.id]
  ignored : (∀ path target, followUp = some path → tree.resolvePath path ≠ .ok target) →
    after.currentCategoryId = before.currentCategoryId ∧
      after.switchingHistory = before.switchingHistory

theorem TopHitIs.scoreTurn {current : CategoryId}
    (h : TopHitIs o req sceneId tree current intent) :
    ∃ fused hit, o.scoreTurn req sceneId tree current = .ok (fused, hit, intent.pointer) := by
  obtain ⟨candidates, ranked, slu, top, rest, hpool, hranked, hslu, hfuse, hintent⟩ := h
  have hresolve : resolveTop (top :: rest) candidates =
      .ok (some { intentId := intent.id, confidence := top.confidence.val,
                  answer := intent.answer, followUp := intent.pointer }, intent.pointer) := by
    rw [resolveTop, hintent]
    rfl
  exact ⟨_, _, Orchestrator.scoreTurn_eq_ok_iff.mpr
    ⟨candidates, ranked, slu, hpool, hranked, hslu, hfuse, hresolve⟩⟩

variable (hscene : o.resolveScene req = .ok (sceneId, categoryId, tree))
include hscene

theorem recognize_of_turn {response : RecognitionResponse} {after : Session}
    (hturn : o.turn req sceneId tree (sessionBefore uuid store req categoryId) =
      .ok (response, after)) :
    o.recognize uuid store req =
      (.ok response,
        (Orchestrator.loadOrCreateSession uuid store req.sessionId categoryId).2.put after) := by
  rw [sessionBefore] at hturn
  simp only [Orchestrator.recognize, hscene, hturn]

variable (htop : TopHitIs o req sceneId tree categoryId intent)
include htop

/-- With a pointer that names something the turn goes through, wherever it leads. -/
theorem turnSurvives_of_namesSomething
    (hnames : ∀ path, intent.pointer = some path → NamesSomething path) :
    ∃ response after, TurnSurvives o uuid store req (sessionBefore uuid store req categoryId) tree
      intent.pointer response after := by
  obtain ⟨fused, hit, hscore⟩ := htop.scoreTurn
  have hcurrent : (sessionBefore uuid store req categoryId).currentCategoryId = categoryId :=
    override_of_resolved hscene _
  rw [← hcurrent] at hscore
  obtain ⟨after, hafter⟩ : ∃ after, after = Orchestrator.advance
      (sessionBefore uuid store req categoryId) (leadsTo tree intent.pointer) req.text := ⟨_, rfl⟩
  have hrecognize := recognize_of_turn hscene (Orchestrator.turn_eq_ok_iff.mpr
    ⟨fused, hit, intent.pointer, _, hscore, followTarget_eq_ok hnames, hafter, rfl⟩)
  refine ⟨_, after, by rw [hrecognize], ?stored, by rw [hafter]; rfl, ?followed, ?ignored⟩
  case stored =>
    rw [hrecognize, hafter]
    exact Dict.get?_set_self _ _ _
  case followed =>
    intro path target hpath htarget
    rw [hafter, hpath, leadsTo_of_resolved htarget]
    exact ⟨rfl, rfl⟩
  case ignored =>
    intro hnone
    rw [hafter, leadsTo_of_unresolved hnone]
    exact ⟨rfl, List.append_nil _⟩

/-- A pointer without any name takes the whole turn down. -/
theorem recognize_of_not_namesSomething {path : CategoryPath}
    (hpointer : intent.pointer = some path) (hnot : ¬ NamesSomething path) :
    (o.recognize uuid store req).1 = .error (.emptyCategoryPath path) := by
  obtain ⟨fused, hit, hscore⟩ := htop.scoreTurn
  have hcurrent : (sessionBefore uuid store req categoryId).currentCategoryId = categoryId :=
    override_of_resolved hscene _
  have hturn : o.turn req sceneId tree (sessionBefore uuid store req categoryId) =
      .error (.emptyCategoryPath path) := by
    rw [Orchestrator.turn, hcurrent, hscore]
    simp only [bind, Except.bind, hpointer, followTarget_of_not_namesSomething hnot]
  rw [sessionBefore] at hturn
  simp only [Orchestrator.recognize, hscene, hturn]

/-- **The path of the winner never breaks a turn, unless it is made of separators.** -/
theorem follow_up_harmless_iff :
    (∃ response after, TurnSurvives o uuid store req
      (sessionBefore uuid store req categoryId) tree intent.pointer response after) ↔
      ∀ path, intent.pointer = some path → NamesSomething path := by
  constructor
  · rintro ⟨response, after, hsurvives⟩ path hpointer
    by_contra hnot
    have herror : (o.recognize uuid store req).1 = .error (.emptyCategoryPath path) :=
      recognize_of_not_namesSomething hscene htop hpointer hnot
    rw [hsurvives.succeeds] at herror
    cases herror
  · exact turnSurvives_of_namesSomething hscene htop

end Turn

/-- A scene of one category whose only intent points along `path`. -/
def signpostEntries (path : CategoryPath) : List CategoryEntry :=
  [{ id := "root", name := "root",
     intents := [{ id := "go", categoryId := "root", question := ["abc"],
                   followUp := some path }] }]

def signpostIntent (path : CategoryPath) : Intent :=
  { id := "go", categoryId := "root", question := ["abc"], followUp := some path }

def signpostTree (path : CategoryPath) : CategoryTree :=
  { rootId := "root"
    categories := ⟨[("root", { id := "root", name := "root", intents := [signpostIntent path] })],
      List.nodup_singleton _⟩ }

def signpostOrchestrator (path : CategoryPath) : Orchestrator :=
  { registry := ⟨⟨[("sign", signpostTree path)], List.nodup_singleton _⟩⟩
    matcher := StubMatcher.score 2
    fusionConfig := { default := halfWeights, scenes := Dict.empty }
    recursionLimit := 10 }

def signpostTurn : RecognitionRequest :=
  { sceneId := some "sign", text := "abc" }

theorem topHitIs_signpost (path : CategoryPath) :
    TopHitIs (signpostOrchestrator path) signpostTurn "sign" (signpostTree path) "root"
      (signpostIntent path) := by
  refine ⟨[signpostIntent path], [⟨"go", ⟨1, certain_mem⟩⟩], none, ⟨"go", ⟨1, certain_mem⟩⟩, [],
    ?_, ?_, rfl, ?_, ?_⟩
  · rfl
  · with_unfolding_all rfl
  · with_unfolding_all rfl
  · rfl

theorem resolveScene_signpost (path : CategoryPath) :
    (signpostOrchestrator path).resolveScene signpostTurn =
      .ok ("sign", "root", signpostTree path) := rfl

theorem follow_up_harmless_menu :
    buildTree "root" (signpostEntries "menu") = .ok (signpostTree "menu") ∧
    ∃ response after, TurnSurvives (signpostOrchestrator "menu") drawnId SessionStore.empty
      signpostTurn (sessionBefore drawnId SessionStore.empty signpostTurn "root")
      (signpostTree "menu") (signpostIntent "menu").pointer response after := by
  refine ⟨by decide, (follow_up_harmless_iff (resolveScene_signpost "menu")
    (topHitIs_signpost "menu")).mpr ?_⟩
  intro path hpointer
  cases hpointer
  decide

/-- The loader takes a follow-up that is a lone arrow, and every turn that its intent wins
fails. -/
theorem follow_up_arrow_breaks_turn :
    buildTree "root" (signpostEntries "->") = .ok (signpostTree "->") ∧
    TopHitIs (signpostOrchestrator "->") signpostTurn "sign" (signpostTree "->") "root"
      (signpostIntent "->") ∧
    ((signpostOrchestrator "->").recognize drawnId SessionStore.empty signpostTurn).1 =
      .error (.emptyCategoryPath "->") ∧
    ¬ ∃ response after, TurnSurvives (signpostOrchestrator "->") drawnId SessionStore.empty
      signpostTurn (sessionBefore drawnId SessionStore.empty signpostTurn "root")
      (signpostTree "->") (signpostIntent "->").pointer response after := by
  have herror : ((signpostOrchestrator "->").recognize drawnId SessionStore.empty
      signpostTurn).1 = .error (.emptyCategoryPath "->") :=
    recognize_of_not_namesSomething (resolveScene_signpost "->") (topHitIs_signpost "->") rfl
      (by decide)
  refine ⟨by decide, topHitIs_signpost "->", herror, ?_⟩
  rintro ⟨response, after, hsurvives⟩
  have hok := hsurvives.succeeds
  rw [herror] at hok
  cases hok

end Core
end Sandroid
