import Sandroid.Core.ScopeVisibility

/-!
# When a scene offers its own hooks

`scope` leaves the scene's own special intents out: they are there to be matched
by an ancestor.  The search can nevertheless come back to the scene from above,
when an ENUM node that it pulls in has the scene in its penetrable subtree.

For most modes such a search never ends.  A BRANCHING scene is passed through
only once: its children are searched, but an ancestor's view of it stops there.
So its special intents enter its own pool (`own_specials_excluded_iff`).
-/

namespace Sandroid
namespace Core

open Lib

/-- An ENUM node that the scene pulls in, directly or along a chain of
pointers, has the scene in its penetrable subtree. -/
def ComesBack (tree : CategoryTree) (x : CategoryId) : Prop :=
  ∃ e e', PulledBy tree x e ∧ Relation.ReflTransGen (Pulls tree) e e' ∧
    Relation.ReflTransGen (Penetrates tree) e' x

section Walks

variable {tree : CategoryTree} {x : CategoryId} {scene : Category}

/-- Visibility in terms of the calls of the search. -/
theorem visible_iff_calls (hget : tree.categories.get? x = some scene) (i : Intent) :
    Visible tree scene i ↔ i ∈ scene.ordinaryIntents ∨
      ∃ k budget, Relation.ReflTransGen (CallStep tree x) .scope (.view k budget) ∧
        ExposesIntent tree k i := by
  constructor
  · rintro (hown | ⟨hdown, c, hc, b, hwalk, hexp⟩ | ⟨t, ht, b, hwalk, hexp⟩)
    · exact Or.inl hown
    · obtain ⟨-, hcalls⟩ := calls_of_walk x (Or.inr hdown) hwalk
      exact Or.inr ⟨b.2, _, .head (.sceneChild hget hdown hc) hcalls, hexp⟩
    · obtain ⟨-, hcalls⟩ := calls_of_walk x (Or.inl rfl) hwalk
      exact Or.inr ⟨b.2, _, .head (.sceneJump hget ht) hcalls, hexp⟩
  · rintro (hown | ⟨k, budget, hcalls, hexp⟩)
    · exact Or.inl hown
    · rcases Relation.ReflTransGen.cases_head hcalls with h | ⟨v, hfirst, hrest⟩
      · cases h
      · cases hfirst with
        | @sceneChild scene' c hget' hdown hc =>
            rw [hget, Option.some.injEq] at hget'
            subst hget'
            have hopen : WalkOpen scene (false, c) := Or.inr hdown
            obtain ⟨b, heq, -, hwalk⟩ := walk_of_calls hopen hrest
            cases heq
            exact Or.inr (Or.inl ⟨hdown, c, hc, b, hwalk, hexp⟩)
        | @sceneJump scene' t hget' ht =>
            rw [hget, Option.some.injEq] at hget'
            subst hget'
            have hopen : WalkOpen scene (true, t) := Or.inl rfl
            obtain ⟨b, heq, -, hwalk⟩ := walk_of_calls hopen hrest
            cases heq
            exact Or.inr (Or.inr ⟨t, ht, b, hwalk, hexp⟩)

/-- A search meets its own scene again exactly when it comes back to it. -/
theorem calls_self_iff (hinv : TreeInvariant tree) :
    (∃ budget, Relation.ReflTransGen (CallStep tree x) .scope (.view x budget)) ↔
      ComesBack tree x := by
  constructor
  · rintro ⟨budget, hcalls⟩
    rcases calls_from_scope hcalls with h | hown | ⟨e, e', c, hby, hpulls, hpen, heq⟩
    · cases h
    · obtain ⟨scene, y, hget, -, hy, hdepth⟩ := hown.searched
      have hfirst : ChildOf tree.categories x y := ⟨scene, hget, hy⟩
      refine absurd ?_ (no_child_cycle hinv x)
      rcases hdepth with ⟨-, hpen⟩ | ⟨-, rfl⟩
      · refine .head' hfirst (Relation.ReflTransGen.mono ?_ _ _ hpen)
        rintro a b ⟨cat, hcat, -, hb⟩
        exact ⟨cat, hcat, hb⟩
      · exact .single hfirst
    · cases heq
      exact ⟨e, e', hby, hpulls, hpen⟩
  · rintro ⟨e, e', hby, hpulls, hpen⟩
    exact ⟨none, ((pulledBy_calls hby).trans (pulls_star_calls hpulls)).trans
      (penetrates_calls hpen)⟩

end Walks

section Loaded

variable {rootId : CategoryId} {entries : List CategoryEntry} {tree : CategoryTree}
variable (hload : buildTree rootId entries = .ok tree)
include hload

/-- A category of a loaded tree, with what the loader has checked of it. -/
theorem entry_of_get? {k : CategoryId} {c : Category} (hget : tree.categories.get? k = some c) :
    ∃ e, e ∈ entries ∧ e.id = k ∧ c = wiredCategory entries e ∧
      StructuralRules e (childrenOf entries e.id) := by
  obtain ⟨hwf, -, -⟩ := (buildTree_eq_ok_iff tree).mp hload
  obtain ⟨e, he, hid, rfl⟩ := ((wired_of_buildTree hload).get?_eq_some_iff k c).mp hget
  exact ⟨e, he, hid, rfl, hwf.structural e he⟩

/-- The loader stamps every intent with the category that holds it. -/
theorem categoryId_of_mem {k : CategoryId} {c : Category} {i : Intent}
    (hget : tree.categories.get? k = some c) (hi : i ∈ c.intents) : i.categoryId = k := by
  obtain ⟨e, -, rfl, rfl, -⟩ := entry_of_get? hload hget
  obtain ⟨j, -, rfl⟩ := List.mem_map.mp hi
  rfl

/-- An intent is exposed by its own category only. -/
theorem eq_of_exposes {k : CategoryId} {c : Category} {i : Intent}
    (hget : tree.categories.get? k = some c) (hi : i ∈ c.intents) {k' : CategoryId}
    (hexp : ExposesIntent tree k' i) : k' = k := by
  obtain ⟨c', hget', hi'⟩ := hexp
  have hmem : i ∈ c'.intents := by
    rcases hi' with ⟨-, hi'⟩ | ⟨-, hi'⟩
    · exact (List.mem_filter.mp hi').1
    · exact (List.mem_filter.mp hi').1
  rw [← categoryId_of_mem hload hget' hmem, categoryId_of_mem hload hget hi]

/-- A mode that must hold a special intent does. -/
theorem exists_special {k : CategoryId} {c : Category}
    (hget : tree.categories.get? k = some c) (hmode : c.mode.props.requiresSpecial = true) :
    ∃ i, i ∈ c.specialIntents := by
  obtain ⟨e, -, -, rfl, hrules⟩ := entry_of_get? hload hget
  obtain ⟨j, hj, hspecial⟩ := hrules.required hmode
  exact ⟨{ j with categoryId := e.id },
    List.mem_filter.mpr ⟨List.mem_map.mpr ⟨j, hj, rfl⟩, hspecial⟩⟩

/-- A special intent of the scene is visible from it exactly when the search
comes back to an exposing scene. -/
theorem visible_special_iff {x : CategoryId} {scene : Category} {i : Intent}
    (hget : tree.categories.get? x = some scene) (hi : i ∈ scene.specialIntents) :
    Visible tree scene i ↔ scene.mode.props.exposeSpecial = true ∧ ComesBack tree x := by
  obtain ⟨hmem, hspecial⟩ := List.mem_filter.mp hi
  rw [visible_iff_calls hget, ← calls_self_iff (treeInvariant_of_buildTree hload)]
  constructor
  · rintro (hord | ⟨k, budget, hcalls, hexp⟩)
    · have hord := (List.mem_filter.mp hord).2
      rw [hspecial] at hord
      cases hord
    · have hk := eq_of_exposes hload hget hmem hexp
      subst hk
      obtain ⟨c, hget', ⟨-, hord⟩ | ⟨hexp, -⟩⟩ := hexp
      · have hord := (List.mem_filter.mp hord).2
        rw [hspecial] at hord
        cases hord
      · rw [hget, Option.some.injEq] at hget'
        exact ⟨hget' ▸ hexp, budget, hcalls⟩
  · rintro ⟨hexp, budget, hcalls⟩
    exact Or.inr ⟨x, budget, hcalls, scene, hget, Or.inr ⟨hexp, hi⟩⟩

end Loaded

/-- A scene that an ancestor's view passes through as deeply as the scene
searches itself pulls the same ENUM nodes in again when the search comes back. -/
theorem not_noExtendsLoop_of_comesBack {tree : CategoryTree} {x : CategoryId} {scene : Category}
    (hget : tree.categories.get? x = some scene) (hexp : scene.exposes)
    (hdeep : scene.mode.props.searchesDown = true →
      scene.mode.props.searchDepth = .all ∧ scene.mode.props.allowPenetration = true)
    (h : ComesBack tree x) : ¬ NoExtendsLoop tree x := by
  obtain ⟨e, e', hby, hpulls, hpen⟩ := h
  have hagain : Pulls tree e' e := by
    rcases hby with ⟨scene', hget', ht⟩ | ⟨c, ⟨scene', y, hget', hdown, hy, hdepth⟩, hext⟩
    · rw [hget, Option.some.injEq] at hget'
      subst hget'
      exact ⟨x, hpen, scene, hget, hexp, ht⟩
    · rw [hget, Option.some.injEq] at hget'
      subst hget'
      obtain ⟨hall, hopen⟩ := hdeep hdown
      rcases hdepth with ⟨-, hrest⟩ | ⟨himm, -⟩
      · exact ⟨c, hpen.trans (.head ⟨scene, hget, hopen, hy⟩ hrest), hext⟩
      · rw [hall] at himm
        cases himm
  intro hloop
  exact hloop e e hby .refl (Relation.TransGen.tail' hpulls hagain)

/-- A finished search has no loop of pointers. -/
theorem noExtendsLoop_of_finished {tree : CategoryTree} {x : CategoryId} {scene : Category}
    (hinv : TreeInvariant tree) (hget : tree.categories.get? x = some scene)
    (hmode : scene.mode ≠ .enum) (hfinished : Terminates tree x) : NoExtendsLoop tree x := by
  rw [terminates_iff_depthWithin hinv hget hmode,
    exists_depthWithin_iff (reachable_finite hinv x)] at hfinished
  exact noExtendsLoop_of_neverRevisits hfinished

/-- **A finished search leaves out the special intents of its own scene unless
the scene is BRANCHING and the search comes back to it.** -/
theorem own_specials_excluded_iff
    {rootId : CategoryId} {entries : List CategoryEntry} {tree : CategoryTree}
    (hload : buildTree rootId entries = .ok tree)
    {x : CategoryId} {scene : Category} (hget : tree.get x = .ok scene)
    (hmode : scene.mode ≠ .enum) {fuel : Nat}
    (hfinished : scope tree fuel x ≠ .error .outOfFuel) :
    ∃ pool, scope tree fuel x = .ok pool ∧
      ((∀ i, i ∈ scene.specialIntents → i ∉ pool) ↔
        ¬ (scene.mode = .branching ∧ ComesBack tree x)) := by
  obtain ⟨pool, hpool, hmem⟩ := mem_scope_iff hload hget hmode hfinished
  have hc := (CategoryTree.get_eq_ok_iff tree x scene).mp hget
  refine ⟨pool, hpool, ?_⟩
  constructor
  · rintro hout ⟨hbranch, hback⟩
    obtain ⟨i, hi⟩ := exists_special hload hc (by rw [hbranch]; rfl)
    refine hout i hi ((hmem i).mpr ((visible_special_iff hload hc hi).mpr ⟨?_, hback⟩))
    rw [hbranch]
    rfl
  · intro hcond i hi hin
    obtain ⟨hexp, hback⟩ := (visible_special_iff hload hc hi).mp ((hmem i).mp hin)
    have hloop := noExtendsLoop_of_finished (treeInvariant_of_buildTree hload) hc hmode
      ⟨fuel, hfinished⟩
    refine not_noExtendsLoop_of_comesBack hc (Or.inr hexp) ?_ hback hloop
    intro hdown
    cases hm : scene.mode with
    | branching => exact absurd ⟨hm, hback⟩ hcond
    | standard => exact ⟨rfl, rfl⟩
    | enum => exact absurd hm hmode
    | drilldown => exact ⟨rfl, rfl⟩
    | sequential =>
        rw [hm] at hdown
        cases hdown
    | memory =>
        rw [hm] at hdown
        cases hdown

/-- A BRANCHING scene below an ENUM node that its own child extends. -/
def hookEntries : List CategoryEntry :=
  [{ id := "root", name := "root" },
    { id := "e", name := "e", parentId := some "root", mode := .enum },
    { id := "b", name := "b", parentId := some "e", mode := .branching,
      intents := [{ id := "hook", categoryId := "b", isSpecial := true }] },
    { id := "leaf", name := "leaf", parentId := some "b",
      extendsEnumCategory := some "e" }]

def hookTree : CategoryTree :=
  { rootId := "root"
    categories := ⟨[
      ("root", { id := "root", name := "root", childIds := ["e"] }),
      ("e", { id := "e", name := "e", parentId := some "root", mode := .enum,
              childIds := ["b"] }),
      ("b", { id := "b", name := "b", parentId := some "e", mode := .branching,
              intents := [{ id := "hook", categoryId := "b", isSpecial := true }],
              childIds := ["leaf"] }),
      ("leaf", { id := "leaf", name := "leaf", parentId := some "b",
                 extendsEnumCategory := some "e" })], by decide⟩ }

/-- The loader accepts the scene, the search ends, and the hook is in the pool. -/
theorem own_special_hookTree :
    buildTree "root" hookEntries = .ok hookTree ∧
      (∃ scene, hookTree.get "b" = .ok scene ∧ scene.mode ≠ .enum ∧
        scene.specialIntents = [{ id := "hook", categoryId := "b", isSpecial := true }]) ∧
      scope hookTree 10 "b" = .ok [{ id := "hook", categoryId := "b", isSpecial := true }] :=
  ⟨by decide, ⟨_, rfl, by decide, by decide⟩, by decide⟩

def menuScene : Category :=
  { id := "b", name := "b", parentId := some "root", mode := .branching,
    extendsEnumCategory := some "e",
    intents := [{ id := "open", categoryId := "b", isSpecial := true }] }

theorem own_specials_menuTree :
    ∃ pool, scope menuTree 4 "b" = .ok pool ∧
      ((∀ i, i ∈ menuScene.specialIntents → i ∉ pool) ↔
        ¬ (menuScene.mode = .branching ∧ ComesBack menuTree "b")) := by
  have hload : buildTree "root" menuEntries = .ok menuTree := by decide
  have hrun : scope menuTree 4 "b" ≠ .error .outOfFuel := by decide
  exact own_specials_excluded_iff (x := "b") hload rfl (by decide) hrun

end Core
end Sandroid
