import Sandroid.Core.SceneWellFormed
import Sandroid.Storage.SceneRegistry

/-!
# Whose category a path names

`SceneRegistry.resolve` documents two forms: a scene id, with a path in that scene if the
caller has one, and a path alone, whose first name tells the scene.  The code takes the
second way whenever there is a path: it looks among all scenes for the one root with the first
name, and the scene id of the caller is not read.

* `resolve_path_eq_ok_iff`: what `resolve` answers to a path;
* `resolve_respects_scene_iff`: when that agrees with the scene id.
-/

namespace Sandroid
namespace Storage

open Lib Sandroid.Core

/-- Every scene of the registry has come through the loader. -/
def SceneRegistry.Accepted (registry : SceneRegistry) : Prop :=
  ∀ sceneId tree, registry.get sceneId = .ok tree →
    ∃ rootId entries, buildTree rootId entries = .ok tree

/-- The root category of the scene has the given name. -/
def RootNamed (registry : SceneRegistry) (name sceneId : String) : Prop :=
  ∃ tree root, registry.get sceneId = .ok tree ∧ tree.get tree.rootId = .ok root ∧
    root.name = name

/-- The path resolves in the tree of the scene. -/
def ResolvesIn (registry : SceneRegistry) (path : CategoryPath) (sceneId : String) : Prop :=
  ∃ tree target, registry.get sceneId = .ok tree ∧ tree.resolvePath path = .ok target

/-- The scene is the only one whose root has the name that the path begins with. -/
def OnlyRoot (registry : SceneRegistry) (path : CategoryPath) (sceneId : String) : Prop :=
  ∃ name names, pathParts path = name :: names ∧
    ∀ other, RootNamed registry name other ↔ other = sceneId

/-- A path that resolves in the tree of the given scene is answered with the category it names
there, and no path is answered with a category of another scene. -/
structure RespectsScene (registry : SceneRegistry) (sceneId : String) (path : CategoryPath) :
    Prop where
  named : ∀ tree target, registry.get sceneId = .ok tree → tree.resolvePath path = .ok target →
    registry.resolve (some sceneId) (some path) = .ok (sceneId, target.id)
  own : ∀ answered categoryId,
    registry.resolve (some sceneId) (some path) = .ok (answered, categoryId) → answered = sceneId

/-- The first name of the path tells the scenes apart: it belongs to the given scene alone if
the path resolves there, and to no other scene alone that resolves the path. -/
structure Unmistakable (registry : SceneRegistry) (sceneId : String) (path : CategoryPath) :
    Prop where
  own : ResolvesIn registry path sceneId → OnlyRoot registry path sceneId
  others : ∀ other, ResolvesIn registry path other → OnlyRoot registry path other →
    other = sceneId

section Registry

variable {registry : SceneRegistry}

theorem registry_get_eq_ok_iff (sceneId : String) (tree : CategoryTree) :
    registry.get sceneId = .ok tree ↔ (sceneId, tree) ∈ registry.trees.entries := by
  rw [← Dict.get?_eq_some_iff, SceneRegistry.get]
  cases registry.trees.get? sceneId with
  | none => simp
  | some t => simp

/-- The scenes are collected in the order of the registry, each at most once. -/
theorem sublist_of_matches {name : String} {f : String × CategoryTree → Except PyError Category} :
    ∀ {scenes : List (String × CategoryTree)} {ids : List String},
      concatMapM (fun entry => do
        let root ← f entry
        .ok (if root.name = name then [entry.1] else [])) scenes = .ok ids →
      ids.Sublist (scenes.map Prod.fst)
  | [], ids, h => by
      rw [concatMapM, Except.ok.injEq] at h
      rw [← h]
      exact List.Sublist.slnil
  | entry :: scenes, ids, h => by
      rw [concatMapM, except_bind_eq_ok_iff] at h
      obtain ⟨part, hpart, h⟩ := h
      rw [except_bind_eq_ok_iff] at hpart h
      obtain ⟨root, _, hpart⟩ := hpart
      obtain ⟨rest, hrest, h⟩ := h
      have ih := sublist_of_matches hrest
      rw [Except.ok.injEq] at hpart h
      rw [← h, ← hpart, List.map_cons]
      split_ifs
      · exact ih.cons_cons entry.1
      · exact ih.cons entry.1

variable (haccepted : registry.Accepted)
include haccepted

theorem exists_root {sceneId : String} {tree : CategoryTree}
    (h : registry.get sceneId = .ok tree) : ∃ root, tree.get tree.rootId = .ok root := by
  obtain ⟨rootId, entries, hload⟩ := haccepted sceneId tree h
  obtain ⟨root, hroot⟩ :=
    (Dict.mem_keys_iff _ _).mp (treeInvariant_of_buildTree hload).forest.rootListed
  exact ⟨root, (CategoryTree.get_eq_ok_iff tree _ root).mpr hroot⟩

/-- The search over the roots succeeds and finds each scene with the name once. -/
theorem rootMatches_spec (name : String) :
    ∃ ids, registry.rootMatches name = .ok ids ∧ ids.Nodup ∧
      ∀ sceneId, sceneId ∈ ids ↔ RootNamed registry name sceneId := by
  have hall : ∀ entry, entry ∈ registry.trees.entries → ∃ part,
      (do let root ← entry.2.get entry.2.rootId
          Except.ok (if root.name = name then [entry.1] else []) :
        Except PyError (List String)) = .ok part := by
    intro entry hentry
    obtain ⟨root, hroot⟩ := exists_root haccepted ((registry_get_eq_ok_iff _ _).mpr hentry)
    rw [hroot]
    exact ⟨_, rfl⟩
  obtain ⟨ids, hids⟩ := (concatMapM_ok_iff _ _).mpr hall
  refine ⟨ids, hids, (sublist_of_matches hids).nodup registry.trees.nodupKeys, ?_⟩
  intro sceneId
  rw [mem_concatMapM hids]
  constructor
  · rintro ⟨⟨other, tree⟩, hentry, part, hpart, hmem⟩
    rw [except_bind_eq_ok_iff] at hpart
    obtain ⟨root, hroot, hpart⟩ := hpart
    rw [Except.ok.injEq] at hpart
    rw [← hpart] at hmem
    split_ifs at hmem with hname
    · rw [List.mem_singleton] at hmem
      subst hmem
      exact ⟨tree, root, (registry_get_eq_ok_iff _ _).mpr hentry, hroot, hname⟩
    · cases hmem
  · rintro ⟨tree, root, hget, hroot, hname⟩
    refine ⟨(sceneId, tree), (registry_get_eq_ok_iff _ _).mp hget, [sceneId], ?_,
      List.mem_singleton.mpr rfl⟩
    rw [hroot]
    exact congrArg Except.ok (if_pos hname)

/-- **What `resolve` answers to a path**: the category that it names in the one scene whose
root has its first name, whatever the scene id. -/
theorem resolve_path_eq_ok_iff (sceneId : Option String) (path : CategoryPath)
    (answered : String) (categoryId : CategoryId) :
    registry.resolve sceneId (some path) = .ok (answered, categoryId) ↔
      OnlyRoot registry path answered ∧
      ∃ tree target, registry.get answered = .ok tree ∧
        tree.resolvePath path = .ok target ∧ target.id = categoryId := by
  rw [SceneRegistry.resolve]
  cases hparts : pathParts path with
  | nil =>
      refine ⟨fun h => (by cases h), ?_⟩
      rintro ⟨⟨name, names, hcons, _⟩, _⟩
      rw [hparts] at hcons
      cases hcons
  | cons name names =>
      obtain ⟨ids, hids, hnodup, hmem⟩ := rootMatches_spec haccepted name
      have honly : ∀ s, OnlyRoot registry path s ↔ ids = [s] := by
        intro s
        constructor
        · rintro ⟨name', names', hcons, hall⟩
          rw [hparts, List.cons.injEq] at hcons
          rw [← hcons.1] at hall
          rw [← List.perm_singleton, List.perm_ext_iff_of_nodup hnodup (List.nodup_singleton s)]
          intro other
          rw [hmem, hall, List.mem_singleton]
        · rintro rfl
          refine ⟨name, names, hparts, ?_⟩
          intro other
          rw [← hmem, List.mem_singleton]
      simp only [hids, bind, Except.bind]
      cases ids with
      | nil =>
          refine ⟨fun h => (by cases h), fun h => ?_⟩
          cases (honly answered).mp h.1
      | cons s rest =>
          cases rest with
          | cons s' rest =>
              refine ⟨fun h => (by cases h), fun h => ?_⟩
              cases (honly answered).mp h.1
          | nil =>
              change (registry.get s >>= fun tree => tree.resolvePath path >>= fun category =>
                .ok (s, category.id)) = _ ↔ _
              simp only [honly, List.cons.injEq, and_true, except_bind_eq_ok_iff, Except.ok.injEq,
                Prod.mk.injEq]
              constructor
              · rintro ⟨tree, htree, target, htarget, rfl, rfl⟩
                exact ⟨rfl, tree, target, htree, htarget, rfl⟩
              · rintro ⟨rfl, tree, target, htree, htarget, rfl⟩
                exact ⟨tree, htree, target, htarget, rfl, rfl⟩

/-- **A path is answered in the scene of the caller exactly when its first name cannot be
mistaken for the root of another scene.** -/
theorem resolve_respects_scene_iff (sceneId : String) (path : CategoryPath) :
    RespectsScene registry sceneId path ↔ Unmistakable registry sceneId path := by
  constructor
  · rintro ⟨hnamed, hown⟩
    refine ⟨?own, ?others⟩
    case own =>
      rintro ⟨tree, target, htree, htarget⟩
      exact ((resolve_path_eq_ok_iff haccepted _ _ _ _).mp (hnamed tree target htree htarget)).1
    case others =>
      rintro other ⟨tree, target, htree, htarget⟩ honly
      exact hown other target.id ((resolve_path_eq_ok_iff haccepted _ _ _ _).mpr
        ⟨honly, tree, target, htree, htarget, rfl⟩)
  · rintro ⟨hown, hothers⟩
    refine ⟨?named, ?own⟩
    case named =>
      intro tree target htree htarget
      exact (resolve_path_eq_ok_iff haccepted _ _ _ _).mpr
        ⟨hown ⟨tree, target, htree, htarget⟩, tree, target, htree, htarget, rfl⟩
    case own =>
      intro answered categoryId hanswer
      obtain ⟨honly, tree, target, htree, htarget, -⟩ :=
        (resolve_path_eq_ok_iff haccepted _ _ _ _).mp hanswer
      exact hothers answered ⟨tree, target, htree, htarget⟩ honly

end Registry

/-- A scene of one category. -/
def hallTree (id : CategoryId) (name : String) : CategoryTree :=
  { rootId := id, categories := ⟨[(id, { id := id, name := name })], List.nodup_singleton id⟩ }

theorem north_south : ["north", "south"].Nodup := by
  decide

/-- Two scenes of one category each; the names of their roots are given. -/
def northSouth (north south : String) : SceneRegistry :=
  ⟨⟨[("north", hallTree "n" north), ("south", hallTree "s" south)], north_south⟩⟩

theorem accepted_northSouth (north south : String) : (northSouth north south).Accepted := by
  intro sceneId tree hget
  have hmem := (registry_get_eq_ok_iff _ _).mp hget
  simp only [northSouth, List.mem_cons, Prod.mk.injEq, List.not_mem_nil, or_false] at hmem
  rcases hmem with ⟨-, rfl⟩ | ⟨-, rfl⟩
  · exact ⟨"n", [{ id := "n", name := north }], rfl⟩
  · exact ⟨"s", [{ id := "s", name := south }], rfl⟩

theorem resolve_respects_north : RespectsScene (northSouth "hall" "yard") "north" "hall" := by
  have honly : ∀ other, RootNamed (northSouth "hall" "yard") "hall" other ↔ other = "north" := by
    intro other
    constructor
    · rintro ⟨tree, root, hget, hroot, hname⟩
      have hmem := (registry_get_eq_ok_iff _ _).mp hget
      simp only [northSouth, List.mem_cons, Prod.mk.injEq, List.not_mem_nil, or_false] at hmem
      rcases hmem with ⟨rfl, rfl⟩ | ⟨rfl, rfl⟩
      · rfl
      · cases hroot
        exact absurd hname (by decide)
    · rintro rfl
      exact ⟨hallTree "n" "hall", _, rfl, rfl, rfl⟩
  refine (resolve_respects_scene_iff (accepted_northSouth "hall" "yard") "north" "hall").mpr
    ⟨fun _ => ⟨"hall", [], by decide, honly⟩, ?_⟩
  rintro other _ ⟨name, names, hparts, hall⟩
  have hname : "hall" = name := (List.cons.inj (show ["hall"] = name :: names from hparts)).1
  exact ((hall "north").mp (hname ▸ (honly "north").mpr rfl)).symm

/-- With two roots of one name the path of a scene is refused, and a path aimed at the other
scene is answered there. -/
theorem resolve_ignores_scene :
    (northSouth "hall" "hall").Accepted ∧ (northSouth "hall" "yard").Accepted ∧
    (northSouth "hall" "hall").resolve (some "north") (some "hall") =
      .error (.ambiguousSceneRoot "hall") ∧
    (hallTree "n" "hall").resolvePath "hall" = .ok { id := "n", name := "hall" } ∧
    ¬ RespectsScene (northSouth "hall" "hall") "north" "hall" ∧
    (northSouth "hall" "yard").resolve (some "north") (some "yard") = .ok ("south", "s") ∧
    ¬ RespectsScene (northSouth "hall" "yard") "north" "yard" := by
  have hambiguous : (northSouth "hall" "hall").resolve (some "north") (some "hall") =
      .error (.ambiguousSceneRoot "hall") := by decide
  have hpath : (hallTree "n" "hall").resolvePath "hall" = .ok { id := "n", name := "hall" } := by
    decide
  have hsouth : (northSouth "hall" "yard").resolve (some "north") (some "yard") =
      .ok ("south", "s") := by decide
  refine ⟨accepted_northSouth _ _, accepted_northSouth _ _, hambiguous, hpath, ?twin, hsouth,
    ?foreign⟩
  case twin =>
    intro h
    have hnamed := h.named (hallTree "n" "hall") _ rfl hpath
    rw [hambiguous] at hnamed
    cases hnamed
  case foreign =>
    intro h
    exact absurd (h.own "south" "s" hsouth) (by decide)

end Storage
end Sandroid
