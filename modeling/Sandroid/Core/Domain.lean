import Sandroid.Lib.Dict

/-!
# Domain model: modes, intents, categories, the category tree

The data of `core/domain.py`.  A mode is a row of the V3 property table
(`Mode.props`): the A group says what a node may hold, the S group how it
behaves as the scene, the E group how it behaves when an ancestor reaches it.

`CategoryTree.get` and `CategoryTree.resolvePath` look categories up by id and
by path.  Failures are values of `PyError`: one
constructor per `raise` of the source, with the data its text shows;
`PyError.message` is the text itself (`repr` stands for Python's `!r`).

Fields that no modelled function reads are left out: the slots of an intent
and of a session, and `on_complete`.
-/

namespace Sandroid
namespace Core

open Lib

abbrev CategoryId := String
abbrev IntentId := String
abbrev CategoryPath := String

/-- How far a searching scene looks into its subtree. -/
inductive SearchDepth where
  | none
  | immediate
  | all
deriving DecidableEq, Repr

/-- Orthogonal property bits of a category mode. -/
structure ModeProperties where
  mayHoldOrdinary : Bool
  mayHoldSpecial : Bool
  requiresSpecial : Bool := false
  searchesDown : Bool
  searchDepth : SearchDepth
  exposeOrdinary : Bool
  exposeSpecial : Bool
  allowPenetration : Bool
  singleChildChain : Bool := false
  forbidsChildren : Bool := false
deriving DecidableEq, Repr

/-- Category modes. -/
inductive Mode where
  | standard
  | enum
  | sequential
  | branching
  | drilldown
  | memory
deriving DecidableEq, Repr

/-- The `value` of the enumeration member. -/
def Mode.value : Mode → String
  | .standard => "STANDARD"
  | .enum => "ENUM"
  | .sequential => "SEQUENTIAL"
  | .branching => "BRANCHING"
  | .drilldown => "DRILLDOWN"
  | .memory => "MEMORY"

/-- The table `MODE_PROPERTIES`. -/
def Mode.props : Mode → ModeProperties
  | .standard =>
      { mayHoldOrdinary := true
        mayHoldSpecial := false
        searchesDown := true
        searchDepth := .all
        exposeOrdinary := true
        exposeSpecial := false
        allowPenetration := true }
  | .enum =>
      { mayHoldOrdinary := true
        mayHoldSpecial := false
        searchesDown := false
        searchDepth := .none
        exposeOrdinary := true
        exposeSpecial := false
        allowPenetration := true }
  | .sequential =>
      { mayHoldOrdinary := true
        mayHoldSpecial := true
        requiresSpecial := true
        searchesDown := false
        searchDepth := .none
        exposeOrdinary := false
        exposeSpecial := true
        allowPenetration := false
        singleChildChain := true }
  | .branching =>
      { mayHoldOrdinary := false
        mayHoldSpecial := true
        requiresSpecial := true
        searchesDown := true
        searchDepth := .immediate
        exposeOrdinary := false
        exposeSpecial := true
        allowPenetration := false }
  | .drilldown =>
      { mayHoldOrdinary := true
        mayHoldSpecial := true
        requiresSpecial := true
        searchesDown := true
        searchDepth := .all
        exposeOrdinary := true
        exposeSpecial := true
        allowPenetration := true }
  | .memory =>
      { mayHoldOrdinary := true
        mayHoldSpecial := false
        searchesDown := false
        searchDepth := .none
        exposeOrdinary := false
        exposeSpecial := false
        allowPenetration := false
        forbidsChildren := true }

/-- A knowledge point attached to a category. -/
structure Intent where
  id : IntentId
  categoryId : CategoryId
  question : List String := []
  answer : Option String := none
  isSpecial : Bool := false
  followUp : Option CategoryPath := none
  switching : Option CategoryPath := none
deriving DecidableEq, Repr

/-- Node of the global category tree. -/
structure Category where
  id : CategoryId
  name : String
  parentId : Option CategoryId := none
  mode : Mode := .standard
  extendsEnumCategory : Option CategoryId := none
  intents : List Intent := []
  childIds : List CategoryId := []
deriving DecidableEq, Repr

namespace Category

def ordinaryIntents (c : Category) : List Intent :=
  c.intents.filter (fun i => !i.isSpecial)

def specialIntents (c : Category) : List Intent :=
  c.intents.filter (fun i => i.isSpecial)

end Category

/-- Exceptions raised by the modelled Python code. -/
inductive PyError where
  /-- `CategoryTree.get` -/
  | unknownCategoryId (id : CategoryId)
  /-- `CategoryTree.resolve_path` -/
  | emptyCategoryPath (path : CategoryPath)
  | pathNotAtRoot (path : CategoryPath)
  | noChildNamed (name parent : String)
  | nameCollision (parent name : String)
  /-- `scope` and `_collect_enum_subtree` -/
  | enumScene (id : CategoryId)
  | extendsNonEnum (id : CategoryId) (mode : Mode)
  /-- `SceneRegistry` -/
  | unknownScene (id : String)
  | emptyRegistryPath
  | noSceneRoot (name : String)
  | ambiguousSceneRoot (name : String)
  | noSceneGiven
  /-- `InMemorySessionStore.get` -/
  | unknownSession (id : String)
  /-- `intent_by_id[top.intent_id]` in `_resolve_top` -/
  | unknownIntent (id : IntentId)
  /-- the field check `ge=0.0, le=1.0` of a confidence -/
  | confidenceOutOfRange (model : String)
  /-- Python's own recursion limit -/
  | recursionError
  /-- any exception of a matcher or SLU backend -/
  | backend (text : String)
deriving DecidableEq, Repr

namespace PyError

/-- Exception class, as far as the callers' `except` clauses tell them apart. -/
inductive Kind where
  | keyError
  | valueError
  | other
deriving DecidableEq, Repr

def kind : PyError → Kind
  | unknownCategoryId _ => .keyError
  | emptyCategoryPath _ => .valueError
  | pathNotAtRoot _ => .keyError
  | noChildNamed _ _ => .keyError
  | nameCollision _ _ => .keyError
  | enumScene _ => .valueError
  | extendsNonEnum _ _ => .valueError
  | unknownScene _ => .keyError
  | emptyRegistryPath => .valueError
  | noSceneRoot _ => .keyError
  | ambiguousSceneRoot _ => .keyError
  | noSceneGiven => .valueError
  | unknownSession _ => .keyError
  | unknownIntent _ => .keyError
  | confidenceOutOfRange _ => .valueError
  | recursionError => .other
  | backend _ => .other

/-- Text of the exception. -/
def message (repr : String → String) : PyError → String
  | unknownCategoryId id => "unknown category_id: " ++ repr id
  | emptyCategoryPath path => "empty category_path: " ++ repr path
  | pathNotAtRoot path => "category_path does not start at root: " ++ repr path
  | noChildNamed name parent =>
      "no child named " ++ repr name ++ " under " ++ repr parent
  | nameCollision parent name =>
      "name collision under " ++ repr parent ++ ": " ++ repr name
  | enumScene id =>
      "category " ++ repr id ++ " is ENUM and cannot be used as a scene directly"
  | extendsNonEnum id mode =>
      "extends_enum_category must point at an ENUM node; got " ++ repr id ++
        " with mode=" ++ mode.value
  | unknownScene id => "unknown scene: " ++ repr id
  | emptyRegistryPath => "category_path is empty"
  | noSceneRoot name => "no scene has root named " ++ repr name
  | ambiguousSceneRoot name => "scene root name " ++ repr name ++ " is ambiguous"
  | noSceneGiven => "either scene_id or category_path must be provided"
  | unknownSession id => "unknown session: " ++ repr id
  | unknownIntent id => repr id
  | confidenceOutOfRange model => "1 validation error for " ++ model ++ "\nconfidence"
  | recursionError => "maximum recursion depth exceeded"
  | backend text => text

end PyError

/-- In-memory view of the global category tree. -/
structure CategoryTree where
  rootId : CategoryId
  categories : Dict CategoryId Category
deriving DecidableEq

/-- `text.split("->")`, on code points. -/
def splitArrow : List Char → List (List Char)
  | [] => [[]]
  | '-' :: '>' :: rest => [] :: splitArrow rest
  | c :: rest =>
      match splitArrow rest with
      | [] => [[c]]
      | part :: parts => (c :: part) :: parts

/-- `[p for p in path.split("->") if p]`. -/
def pathParts (path : CategoryPath) : List String :=
  ((splitArrow path.toList).filter (fun p => !p.isEmpty)).map String.ofList

namespace CategoryTree

def get (tree : CategoryTree) (categoryId : CategoryId) : Except PyError Category :=
  match tree.categories.get? categoryId with
  | none => .error (.unknownCategoryId categoryId)
  | some category => .ok category

/-- The `for name in parts[1:]` loop of `resolve_path`. -/
def resolveLoop (tree : CategoryTree) (cur : Category) :
    List String → Except PyError Category
  | [] => .ok cur
  | name :: names => do
      let children ← cur.childIds.mapM tree.get
      match children.filter (fun c => c.name = name) with
      | [] => .error (.noChildNamed name cur.name)
      | [child] => tree.resolveLoop child names
      | _ => .error (.nameCollision cur.name name)

def resolvePath (tree : CategoryTree) (path : CategoryPath) :
    Except PyError Category :=
  match pathParts path with
  | [] => .error (.emptyCategoryPath path)
  | first :: names => do
      let root ← tree.get tree.rootId
      if first ≠ root.name then
        .error (.pathNotAtRoot path)
      else
        tree.resolveLoop root names

/-- Looking a listed category up succeeds, and only then. -/
theorem get_eq_ok_iff
    (tree : CategoryTree) (id : CategoryId) (c : Category) :
    tree.get id = .ok c ↔ tree.categories.get? id = some c := by
  unfold get
  cases tree.categories.get? id with
  | none => simp
  | some d => simp

end CategoryTree

/-- Per-call dialogue state. -/
structure Session where
  sessionId : String
  currentCategoryId : CategoryId
  history : List String := []
  switchingHistory : List CategoryId := []
deriving DecidableEq, Repr

end Core
end Sandroid
