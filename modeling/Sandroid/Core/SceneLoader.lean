import Sandroid.Core.Domain
import Sandroid.Lib.ExceptLoop
import Mathlib.Data.List.Sort

/-!
# The scene loader

`core/scene_loader.py` from the parsed category entries on: `buildTree` and the
helpers it runs in order.

* `insertCategories`: the first loop, which rejects duplicate ids;
* `wireChildren`: fills `child_ids` from the parent pointers and then calls
  `assertAcyclic`, a stack-based reachability loop;
* `validateStructuralRules`, `validateUniqueNamesPerParent`,
  `validateExtendsEnum`: the per-category checks of the V3 mode rules.

A validation failure is a `SceneValidationError` with the data its text shows.
`LoadError` adds what Python could raise instead (`by_id[...]` on a missing key)
and `outOfRounds`, which stands for a `while` loop that has not ended within
the given number of rounds; that neither occurs is proved, not assumed.
-/

namespace Sandroid
namespace Core

open Lib

/-- One `raise SceneValidationError(...)` of the loader per constructor. -/
inductive SceneValidationError where
  | duplicateCategoryId (id : CategoryId)
  | rootNotInCategories (rootId : CategoryId)
  | rootHasParent (id : CategoryId)
  | missingParentId (id : CategoryId)
  | unknownParent (id parentId : CategoryId)
  | cycleDetected (id : CategoryId)
  | unreachableFromRoot (orphans : List CategoryId)
  | mayNotHoldOrdinary (mode : Mode) (id : CategoryId) (count : Nat)
  | mayNotHoldSpecial (mode : Mode) (id : CategoryId) (count : Nat)
  | requiresSpecialIntent (mode : Mode) (id : CategoryId)
  | mayNotHaveChildren (mode : Mode) (id : CategoryId)
  | notSingleChildChain (mode : Mode) (id : CategoryId) (count : Nat)
  | duplicateName (name : String) (parentId : CategoryId)
  | extendsUnknown (id targetId : CategoryId)
  | extendsTargetNotEnum (targetId : CategoryId) (mode : Mode)
  | enumExtends (id : CategoryId)
deriving DecidableEq, Repr

namespace SceneValidationError

/-- Text of the error; `repr` stands for Python's `!r`. -/
def message (repr : String → String) (source : String) :
    SceneValidationError → String
  | duplicateCategoryId id => source ++ ": duplicate category id " ++ repr id
  | rootNotInCategories rootId =>
      source ++ ": root_id " ++ repr rootId ++ " not in categories"
  | rootHasParent id =>
      source ++ ": root category " ++ repr id ++ " must have parent_id=null"
  | missingParentId id =>
      source ++ ": non-root category " ++ repr id ++ " is missing parent_id"
  | unknownParent id parentId =>
      source ++ ": category " ++ repr id ++ " points at unknown parent " ++
        repr parentId
  | cycleDetected id => source ++ ": cycle detected at " ++ repr id
  | unreachableFromRoot orphans =>
      source ++ ": categories unreachable from root: [" ++
        ", ".intercalate (orphans.map repr) ++ "]"
  | mayNotHoldOrdinary mode id count =>
      source ++ ": " ++ mode.value ++ " category " ++ repr id ++
        " may not hold ordinary intents (has " ++ toString count ++ ")"
  | mayNotHoldSpecial mode id count =>
      source ++ ": " ++ mode.value ++ " category " ++ repr id ++
        " may not hold special intents (has " ++ toString count ++ ")"
  | requiresSpecialIntent mode id =>
      source ++ ": " ++ mode.value ++ " category " ++ repr id ++
        " requires at least one special intent"
  | mayNotHaveChildren mode id =>
      source ++ ": " ++ mode.value ++ " category " ++ repr id ++
        " may not have child categories"
  | notSingleChildChain mode id count =>
      source ++ ": " ++ mode.value ++ " category " ++ repr id ++
        " must be a single-child chain (has " ++ toString count ++ " children)"
  | duplicateName name parentId =>
      source ++ ": duplicate name " ++ repr name ++ " among children of " ++
        repr parentId ++ " — names must be unique per parent"
  | extendsUnknown id targetId =>
      source ++ ": category " ++ repr id ++ " extends unknown category " ++
        repr targetId
  | extendsTargetNotEnum targetId mode =>
      source ++ ": extends_enum_category target " ++ repr targetId ++
        " must be ENUM (got " ++ mode.value ++ ")"
  | enumExtends id =>
      source ++ ": ENUM category " ++ repr id ++
        " may not itself declare extends_enum_category"

end SceneValidationError

/-- How `buildTree` may fail. -/
inductive LoadError where
  | sceneValidation (e : SceneValidationError)
  | keyError (id : CategoryId)
  | outOfRounds
deriving DecidableEq, Repr

/-- A parsed entry of the `categories:` list. -/
structure CategoryEntry where
  id : CategoryId
  name : String
  parentId : Option CategoryId := none
  mode : Mode := .standard
  extendsEnumCategory : Option CategoryId := none
  intents : List Intent := []
deriving DecidableEq, Repr

/-- The category an entry becomes: its intents get the entry's id. -/
def parseCategory (entry : CategoryEntry) : Category :=
  { id := entry.id
    name := entry.name
    parentId := entry.parentId
    mode := entry.mode
    extendsEnumCategory := entry.extendsEnumCategory
    intents := entry.intents.map (fun i => { i with categoryId := entry.id }) }

abbrev ById := Dict CategoryId Category

/-- The loop of `_build_tree` over `raw.categories`. -/
def insertCategories (byId : ById) : List CategoryEntry → Except LoadError ById
  | [] => .ok byId
  | entry :: entries =>
      let category := parseCategory entry
      if (byId.get? category.id).isSome then
        .error (.sceneValidation (.duplicateCategoryId category.id))
      else
        insertCategories (byId.set category.id category) entries

/-- The loop of `_wire_children` over `by_id.values()`. -/
def wireLoop (rootId : CategoryId) (byId : ById) :
    List Category → Except LoadError ById
  | [] => .ok byId
  | category :: categories =>
      if category.id = rootId then
        if category.parentId.isSome then
          .error (.sceneValidation (.rootHasParent category.id))
        else
          wireLoop rootId byId categories
      else
        match category.parentId with
        | none => .error (.sceneValidation (.missingParentId category.id))
        | some parentId =>
            match byId.get? parentId with
            | none =>
                .error (.sceneValidation (.unknownParent category.id parentId))
            | some parent =>
                wireLoop rootId
                  (byId.set parentId
                    { parent with childIds := parent.childIds ++ [category.id] })
                  categories

/-- The `while stack` loop of `_assert_acyclic`.  The top of the stack is the
head of the list, so `extend` puts the children there in reverse. -/
def acyclicLoop (byId : ById) :
    Nat → List CategoryId → List CategoryId → Except LoadError (List CategoryId)
  | 0, _, _ => .error .outOfRounds
  | _ + 1, seen, [] => .ok seen
  | rounds + 1, seen, cur :: stack =>
      if cur ∈ seen then
        .error (.sceneValidation (.cycleDetected cur))
      else
        match byId.get? cur with
        | none => .error (.keyError cur)
        | some category =>
            acyclicLoop byId rounds (cur :: seen)
              (category.childIds.reverse ++ stack)

/-- Every round but the last marks a new category, so `size + 1` rounds do. -/
def assertAcyclic (byId : ById) (rootId : CategoryId) : Except LoadError Unit := do
  let seen ← acyclicLoop byId (byId.size + 1) [] [rootId]
  match byId.keys.filter (fun id => id ∉ seen) with
  | [] => .ok ()
  | orphan :: orphans =>
      .error (.sceneValidation
        (.unreachableFromRoot ((orphan :: orphans).insertionSort (· ≤ ·))))

def wireChildren (byId : ById) (rootId : CategoryId) : Except LoadError ById := do
  let byId ← wireLoop rootId byId byId.values
  assertAcyclic byId rootId
  .ok byId

/-- Body of the loop of `_validate_structural_rules`. -/
def checkStructuralRules (category : Category) : Except LoadError Unit :=
  let props := category.mode.props
  let ordinary := category.ordinaryIntents
  let special := category.specialIntents
  if ordinary ≠ [] ∧ props.mayHoldOrdinary = false then
    .error (.sceneValidation
      (.mayNotHoldOrdinary category.mode category.id ordinary.length))
  else if special ≠ [] ∧ props.mayHoldSpecial = false then
    .error (.sceneValidation
      (.mayNotHoldSpecial category.mode category.id special.length))
  else if props.requiresSpecial = true ∧ special = [] then
    .error (.sceneValidation (.requiresSpecialIntent category.mode category.id))
  else if props.forbidsChildren = true ∧ category.childIds ≠ [] then
    .error (.sceneValidation (.mayNotHaveChildren category.mode category.id))
  else if props.singleChildChain = true ∧ 1 < category.childIds.length then
    .error (.sceneValidation
      (.notSingleChildChain category.mode category.id category.childIds.length))
  else
    .ok ()

def validateStructuralRules (byId : ById) : Except LoadError Unit :=
  forEach checkStructuralRules byId.values

/-- `_assert_unique` over the names of `ids`, which `by_id[cid].name` looks up
one at a time. -/
def assertUniqueNames (byId : ById) (parentId : CategoryId) (seen : List String) :
    List CategoryId → Except LoadError Unit
  | [] => .ok ()
  | id :: ids =>
      match byId.get? id with
      | none => .error (.keyError id)
      | some category =>
          if category.name ∈ seen then
            .error (.sceneValidation (.duplicateName category.name parentId))
          else
            assertUniqueNames byId parentId (category.name :: seen) ids

def validateUniqueNamesPerParent (byId : ById) : Except LoadError Unit :=
  forEach
    (fun category => assertUniqueNames byId category.id [] category.childIds)
    byId.values

/-- Body of the loop of `_validate_extends_enum`. -/
def checkExtendsEnum (byId : ById) (category : Category) : Except LoadError Unit :=
  match category.extendsEnumCategory with
  | none => .ok ()
  | some targetId =>
      match byId.get? targetId with
      | none => .error (.sceneValidation (.extendsUnknown category.id targetId))
      | some target =>
          if target.mode ≠ .enum then
            .error (.sceneValidation (.extendsTargetNotEnum targetId target.mode))
          else if category.mode = .enum then
            .error (.sceneValidation (.enumExtends category.id))
          else
            .ok ()

def validateExtendsEnum (byId : ById) : Except LoadError Unit :=
  forEach (checkExtendsEnum byId) byId.values

def buildTree (rootId : CategoryId) (entries : List CategoryEntry) :
    Except LoadError CategoryTree := do
  let byId ← insertCategories Dict.empty entries
  if (byId.get? rootId).isNone then
    .error (.sceneValidation (.rootNotInCategories rootId))
  else do
    let byId ← wireChildren byId rootId
    validateStructuralRules byId
    validateUniqueNamesPerParent byId
    validateExtendsEnum byId
    .ok { rootId := rootId, categories := byId }

end Core
end Sandroid
