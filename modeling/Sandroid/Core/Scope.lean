import Sandroid.Core.SceneLoader

/-!
# Candidate pools

The recursion of `core/scope.py`.  `collectViaAncestorView` pulls what an
ancestor sees at a category and below; a category that carries an
`extends_enum_category` pointer and exposes anything also drags the subtree of
its target in, through `collectEnumSubtree`.

Python's recursion need not end, so both functions take the number of nested
calls they may still make; `Stop.outOfFuel` is a run that needs more.
-/

namespace Sandroid
namespace Core

open Lib

/-- Why a call returned no value. -/
inductive Stop where
  | outOfFuel
  | raised (e : PyError)
deriving DecidableEq, Repr

/-- A call of `CategoryTree.get` from inside the recursion. -/
def CategoryTree.fetch (tree : CategoryTree) (id : CategoryId) :
    Except Stop Category :=
  (tree.get id).mapError .raised

/-- Numeric budget of a search depth; `none` is unbounded. -/
def initialDepth : SearchDepth → Option Nat
  | .immediate => some 1
  | .all => none
  | .none => some 0

mutual

def collectViaAncestorView (tree : CategoryTree) :
    Nat → Category → Option Nat → Except Stop (List Intent)
  | 0, _, _ => .error .outOfFuel
  | fuel + 1, category, remainingDepth =>
      if remainingDepth = some 0 then
        .ok []
      else do
        let props := category.mode.props
        let nextBudget := remainingDepth.map (fun d => d - 1)
        let below ←
          (if props.allowPenetration = true ∧ nextBudget ≠ some 0 then
            concatMapM
              (fun childId => do
                let child ← tree.fetch childId
                collectViaAncestorView tree fuel child nextBudget)
              category.childIds
          else
            .ok [])
        let enum ←
          (match category.extendsEnumCategory with
          | none => .ok []
          | some targetId =>
              if props.exposeOrdinary = true ∨ props.exposeSpecial = true then do
                let enumRoot ← tree.fetch targetId
                collectEnumSubtree tree fuel enumRoot
              else
                .ok [])
        .ok ((if props.exposeOrdinary then category.ordinaryIntents else []) ++
          (if props.exposeSpecial then category.specialIntents else []) ++
          below ++ enum)

def collectEnumSubtree (tree : CategoryTree) :
    Nat → Category → Except Stop (List Intent)
  | 0, _ => .error .outOfFuel
  | fuel + 1, enumRoot =>
      if enumRoot.mode ≠ .enum then
        .error (.raised (.extendsNonEnum enumRoot.id enumRoot.mode))
      else
        collectViaAncestorView tree fuel enumRoot none

end

/-- The candidate pool of a scene. -/
def scope (tree : CategoryTree) (fuel : Nat) (sceneId : CategoryId) :
    Except Stop (List Intent) := do
  let scene ← tree.fetch sceneId
  if scene.mode = .enum then
    .error (.raised (.enumScene sceneId))
  else do
    let props := scene.mode.props
    let below ←
      (if props.searchesDown = true then
        concatMapM
          (fun childId => do
            let child ← tree.fetch childId
            collectViaAncestorView tree fuel child (initialDepth props.searchDepth))
          scene.childIds
      else
        .ok [])
    let enum ←
      (match scene.extendsEnumCategory with
      | none => .ok []
      | some targetId => do
          let enumRoot ← tree.fetch targetId
          collectEnumSubtree tree fuel enumRoot)
    .ok (scene.ordinaryIntents ++ below ++ enum)

theorem CategoryTree.fetch_eq_ok {tree : CategoryTree} {id : CategoryId}
    {c : Category} (h : tree.categories.get? id = some c) :
    tree.fetch id = .ok c := by
  rw [CategoryTree.fetch, (CategoryTree.get_eq_ok_iff tree id c).mpr h]
  rfl

end Core
end Sandroid
