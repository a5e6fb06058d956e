import Sandroid.Core.Domain
import Sandroid.Lib.ExceptLoop

/-!
# The scene registry

`storage/scene_registry.py`: the loaded scenes by id, and `resolve`, which turns
the scene pointer of a request into a scene id and a category id.
-/

namespace Sandroid
namespace Storage

open Lib Sandroid.Core

/-- One category tree per scene file, in file-name order. -/
structure SceneRegistry where
  trees : Dict String CategoryTree

namespace SceneRegistry

variable (registry : SceneRegistry)

def get (sceneId : String) : Except PyError CategoryTree :=
  match registry.trees.get? sceneId with
  | none => .error (.unknownScene sceneId)
  | some tree => .ok tree

/-- The scenes whose root category has the given name. -/
def rootMatches (rootName : String) : Except PyError (List String) :=
  concatMapM
    (fun entry : String × CategoryTree => do
      let root ← entry.2.get entry.2.rootId
      .ok (if root.name = rootName then [entry.1] else []))
    registry.trees.entries

def resolve (sceneId : Option String) (categoryPath : Option CategoryPath) :
    Except PyError (String × CategoryId) :=
  match categoryPath with
  | some path =>
      match pathParts path with
      | [] => .error .emptyRegistryPath
      | rootName :: _ => do
          let sceneIds ← registry.rootMatches rootName
          match sceneIds with
          | [] => .error (.noSceneRoot rootName)
          | [sceneId] => do
              let tree ← registry.get sceneId
              let category ← tree.resolvePath path
              .ok (sceneId, category.id)
          | _ => .error (.ambiguousSceneRoot rootName)
  | none =>
      match sceneId with
      | none => .error .noSceneGiven
      | some sceneId => do
          let tree ← registry.get sceneId
          .ok (sceneId, tree.rootId)

end SceneRegistry

end Storage
end Sandroid
