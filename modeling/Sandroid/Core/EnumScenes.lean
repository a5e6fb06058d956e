import Sandroid.Core.CategoryPaths

/-!
# ENUM categories as scenes

`scope` refuses an ENUM category as the scene, and the mode table says that the loader is to
reject one at config time.  It has no such check: the root of a scene may be ENUM, and so may
a category that a follow-up or a switching path leads to.

`every_scene_legal_iff`: what the loader would have to check, stated on the entries.
-/

namespace Sandroid
namespace Core

open Lib

/-- The paths by which an intent may move the session. -/
def Intent.paths (intent : Intent) : List CategoryPath :=
  intent.switching.toList ++ intent.followUp.toList

/-- `scope` does not turn the category down for being ENUM. -/
def LegalScene (tree : CategoryTree) (id : CategoryId) : Prop :=
  ∀ fuel, scope tree fuel id ≠ .error (.raised (.enumScene id))

/-- The root and all that the paths of the intents resolve to are legal scenes. -/
structure EverySceneLegal (tree : CategoryTree) : Prop where
  root : LegalScene tree tree.rootId
  pathTargets : ∀ id category, tree.get id = .ok category →
    ∀ intent, intent ∈ category.intents → ∀ path, path ∈ intent.paths →
      ∀ target, tree.resolvePath path = .ok target → LegalScene tree target.id

/-- The names on the way from the root entry down to an entry. -/
inductive EntryPath (rootId : CategoryId) (entries : List CategoryEntry) :
    List String → CategoryEntry → Prop
  | root {e : CategoryEntry} :
      e ∈ entries → e.id = rootId → EntryPath rootId entries [e.name] e
  | child {names : List String} {p e : CategoryEntry} :
      EntryPath rootId entries names p → e ∈ entries → e.parentId = some p.id →
      EntryPath rootId entries (names ++ [e.name]) e

/-- No place of the scene file that makes a category the scene names an ENUM entry. -/
structure NoEnumScene (rootId : CategoryId) (entries : List CategoryEntry) : Prop where
  root : ∀ e, e ∈ entries → e.id = rootId → e.mode ≠ .enum
  pathTargets : ∀ e, e ∈ entries → ∀ intent, intent ∈ e.intents →
    ∀ path, path ∈ intent.paths →
      ∀ target, EntryPath rootId entries (pathParts path) target → target.mode ≠ .enum

section Legal

variable {tree : CategoryTree} {id : CategoryId} {c : Category}

theorem scope_enum (fuel : Nat) (hget : tree.categories.get? id = some c)
    (hmode : c.mode = .enum) : scope tree fuel id = .error (.raised (.enumScene id)) := by
  rw [scope, CategoryTree.fetch_eq_ok hget]
  exact if_pos hmode

/-- On a loaded tree the ENUM check is the only way for `scope` to raise. -/
theorem legalScene_iff (hinv : TreeInvariant tree)
    (hget : tree.categories.get? id = some c) : LegalScene tree id ↔ c.mode ≠ .enum := by
  constructor
  · intro hlegal hmode
    exact hlegal 0 (scope_enum 0 hget hmode)
  · intro hmode fuel hraised
    have hfuel := scope_error hinv hget hmode hraised
    cases hfuel

end Legal

section Loaded

variable {rootId : CategoryId} {entries : List CategoryEntry} {tree : CategoryTree}

theorem EntryPath.mem {names : List String} {e : CategoryEntry}
    (h : EntryPath rootId entries names e) : e ∈ entries := by
  cases h with
  | root he _ => exact he
  | child _ he _ => exact he

variable (hload : buildTree rootId entries = .ok tree)
include hload

theorem entryPath_of_namedPath {names : List String} {c : Category}
    (h : NamedPath tree names c) :
    ∃ e, EntryPath rootId entries names e ∧ c = wiredCategory entries e := by
  have hw := wired_of_buildTree hload
  have hroot : tree.rootId = rootId := ((buildTree_eq_ok_iff tree).mp hload).2.1
  induction h with
  | root hget =>
      obtain ⟨e, he, hid, rfl⟩ := (hw.get?_eq_some_iff _ _).mp hget
      exact ⟨e, .root he (hid.trans hroot), rfl⟩
  | child _ hx hget ih =>
      obtain ⟨p, hp, rfl⟩ := ih
      obtain ⟨e, he, hid, rfl⟩ := (hw.get?_eq_some_iff _ _).mp hget
      obtain ⟨f, hf, hfid, hparent⟩ := (mem_childrenOf p.id _).mp hx
      have hfe := eq_of_id_eq hw.idsDistinct hf he (hfid.trans hid.symm)
      subst hfe
      exact ⟨f, hp.child hf hparent, rfl⟩

theorem namedPath_of_entryPath {names : List String} {e : CategoryEntry}
    (h : EntryPath rootId entries names e) : NamedPath tree names (wiredCategory entries e) := by
  have hw := wired_of_buildTree hload
  have hroot : tree.rootId = rootId := ((buildTree_eq_ok_iff tree).mp hload).2.1
  induction h with
  | @root e he hid =>
      have hget := hw.get?_id he
      rw [hid, ← hroot] at hget
      exact .root hget
  | @child names p e _ he hparent ih =>
      exact ih.child ((mem_childrenOf p.id e.id).mpr ⟨e, he, rfl, hparent⟩) (hw.get?_id he)

/-- A path resolves to the entry that its names lead to. -/
theorem resolvePath_eq_ok_iff_entryPath (path : CategoryPath) (c : Category) :
    tree.resolvePath path = .ok c ↔
      ∃ e, EntryPath rootId entries (pathParts path) e ∧ c = wiredCategory entries e := by
  rw [resolvePath_eq_ok_iff hload]
  constructor
  · exact entryPath_of_namedPath hload
  · rintro ⟨e, he, rfl⟩
    exact namedPath_of_entryPath hload he

theorem legalScene_entry_iff {e : CategoryEntry} (he : e ∈ entries) :
    LegalScene tree e.id ↔ e.mode ≠ .enum :=
  legalScene_iff (treeInvariant_of_buildTree hload) ((wired_of_buildTree hload).get?_id he)

/-- **A loaded scene has no illegal scene in it exactly when its file names none.** -/
theorem every_scene_legal_iff : EverySceneLegal tree ↔ NoEnumScene rootId entries := by
  have hw := wired_of_buildTree hload
  obtain ⟨hwf, hroot, -⟩ := (buildTree_eq_ok_iff tree).mp hload
  constructor
  · rintro ⟨hlegal, htargets⟩
    refine ⟨?root, ?pathTargets⟩
    case root =>
      intro e he hid
      rw [hroot, ← hid] at hlegal
      exact (legalScene_entry_iff hload he).mp hlegal
    case pathTargets =>
      intro e he intent hintent path hpath target htarget
      have hget := (CategoryTree.get_eq_ok_iff tree e.id _).mpr (hw.get?_id he)
      have hresolved :=
        (resolvePath_eq_ok_iff_entryPath hload path _).mpr ⟨target, htarget, rfl⟩
      exact (legalScene_entry_iff hload htarget.mem).mp
        (htargets e.id _ hget _ (List.mem_map_of_mem hintent) path hpath _ hresolved)
  · rintro ⟨hmode, htargets⟩
    refine ⟨?root, ?pathTargets⟩
    case root =>
      obtain ⟨r, hr, hrid, -⟩ := hwf.rootListed
      rw [hroot, ← hrid]
      exact (legalScene_entry_iff hload hr).mpr (hmode r hr hrid)
    case pathTargets =>
      intro id category hget intent hintent path hpath target hresolved
      obtain ⟨e, he, rfl, rfl⟩ :=
        (hw.get?_eq_some_iff id category).mp ((CategoryTree.get_eq_ok_iff tree id _).mp hget)
      obtain ⟨raw, hraw, rfl⟩ := List.mem_map.mp hintent
      obtain ⟨t, ht, rfl⟩ := (resolvePath_eq_ok_iff_entryPath hload path target).mp hresolved
      exact (legalScene_entry_iff hload ht.mem).mpr (htargets e he raw hraw path hpath t ht)

end Loaded

/-- A scene whose root is ENUM. -/
def enumRootEntries : List CategoryEntry :=
  [{ id := "root", name := "root", mode := .enum }]

def enumRootTree : CategoryTree :=
  { rootId := "root"
    categories := ⟨[("root", { id := "root", name := "root", mode := .enum })],
      List.nodup_singleton _⟩ }

/-- A scene whose greeting leads on to the category `city`. -/
def cityEntries (mode : Mode) : List CategoryEntry :=
  [{ id := "root", name := "root",
     intents := [{ id := "go", categoryId := "root", followUp := some "root->city" }] },
   { id := "city", name := "city", parentId := some "root", mode := mode }]

theorem cityTree_keys : ["root", "city"].Nodup := by
  decide

def cityTree (mode : Mode) : CategoryTree :=
  { rootId := "root"
    categories := ⟨[
      ("root", { id := "root", name := "root", childIds := ["city"],
                 intents := [{ id := "go", categoryId := "root",
                               followUp := some "root->city" }] }),
      ("city", { id := "city", name := "city", parentId := some "root", mode := mode })],
      cityTree_keys⟩ }

theorem every_scene_legal_city : EverySceneLegal (cityTree .standard) := by
  have hload : buildTree "root" (cityEntries .standard) = .ok (cityTree .standard) := by decide
  have hmode : ∀ e, e ∈ cityEntries .standard → e.mode ≠ .enum := by decide
  refine (every_scene_legal_iff hload).mpr ⟨fun e he _ => hmode e he, ?_⟩
  intro e _ intent _ path _ target htarget
  exact hmode target htarget.mem

/-- The loader takes an ENUM root, and it takes a follow-up that leads to an ENUM category. -/
theorem enum_scenes_loaded :
    buildTree "root" enumRootEntries = .ok enumRootTree ∧
    ¬ LegalScene enumRootTree "root" ∧ ¬ EverySceneLegal enumRootTree ∧
    buildTree "root" (cityEntries .enum) = .ok (cityTree .enum) ∧
    ¬ LegalScene (cityTree .enum) "city" ∧ ¬ EverySceneLegal (cityTree .enum) := by
  have hroot : ¬ LegalScene enumRootTree "root" := fun h => h 0 (scope_enum 0 rfl rfl)
  have hcity : ¬ LegalScene (cityTree .enum) "city" := fun h => h 0 (scope_enum 0 rfl rfl)
  refine ⟨by decide, hroot, fun h => hroot h.root, by decide, hcity, fun h => hcity ?_⟩
  exact h.pathTargets "root" _ rfl _ List.mem_cons_self "root->city" (by decide)
    { id := "city", name := "city", parentId := some "root", mode := .enum } (by decide)

end Core
end Sandroid
