import Sandroid.Core.ScopeTermination

/-!
# What a scene can see

The V3 visibility relation on the static tree, without depth budgets: a walk
goes down through penetrable categories and along `extends_enum_category`
pointers, and an intent is visible if a category at the end of a walk exposes
it.  `mem_scope_iff` says that a pool returned by `scope` is that relation.

The recursion's budget appears here only as one bit, whether the walk has made
an enum jump: a BRANCHING scene sees its direct children only, and a jump lifts
the restriction.
-/

namespace Sandroid
namespace Core

open Lib

/-- One step of a walk for the scene; the flag says whether an enum jump has
been made. -/
inductive WalkStep (tree : CategoryTree) (scene : Category) :
    Bool × CategoryId → Bool × CategoryId → Prop
  | child {jumped : Bool} {d x : CategoryId} {c : Category} :
      tree.categories.get? d = some c →
      c.mode.props.allowPenetration = true →
      x ∈ c.childIds →
      (scene.mode = .branching → jumped = true) →
      WalkStep tree scene (jumped, d) (jumped, x)
  | jump {jumped : Bool} {d t : CategoryId} {c : Category} :
      tree.categories.get? d = some c →
      c.exposes →
      c.extendsEnumCategory = some t →
      WalkStep tree scene (jumped, d) (true, t)

/-- A walk from `a` ends at a category that exposes `i`. -/
def VisibleFrom (tree : CategoryTree) (scene : Category) (a : Bool × CategoryId)
    (i : Intent) : Prop :=
  ∃ b, Relation.ReflTransGen (WalkStep tree scene) a b ∧ ExposesIntent tree b.2 i

/-- The visibility relation of a scene.  A walk that enters through the scene's
own pointer starts with an enum jump. -/
def Visible (tree : CategoryTree) (scene : Category) (i : Intent) : Prop :=
  i ∈ scene.ordinaryIntents ∨
    (scene.mode.props.searchesDown = true ∧
      ∃ x, x ∈ scene.childIds ∧ VisibleFrom tree scene (false, x) i) ∨
    ∃ t, scene.extendsEnumCategory = some t ∧ VisibleFrom tree scene (true, t) i

section Walks

variable {tree : CategoryTree} {sceneId : CategoryId} {scene : Category}

/-- The budget with which the recursion stands at the end of a walk. -/
def walkBudget (scene : Category) (jumped : Bool) : Option Nat :=
  if jumped then none else initialDepth scene.mode.props.searchDepth

/-- The activation at the end of a walk. -/
def walkView (scene : Category) (a : Bool × CategoryId) : Activation :=
  .view a.2 (walkBudget scene a.1)

/-- Walks are only followed for a scene that searches down, or after a jump. -/
def WalkOpen (scene : Category) (a : Bool × CategoryId) : Prop :=
  a.1 = true ∨ scene.mode.props.searchesDown = true

theorem walkBudget_ne_zero {a : Bool × CategoryId} (hopen : WalkOpen scene a) :
    walkBudget scene a.1 ≠ some 0 := by
  unfold walkBudget
  rcases hopen with hj | hdown
  · rw [hj]
    exact nofun
  · cases hj : a.1 with
    | true => exact nofun
    | false =>
        rcases searchDepth_of_searchesDown _ hdown with h | h
        · rw [h]
          exact nofun
        · rw [h]
          simp [initialDepth]

/-- Below a direct child of the scene the search goes on only if the scene is
not BRANCHING. -/
theorem walkBudget_next {a : Bool × CategoryId} (hopen : WalkOpen scene a) :
    (walkBudget scene a.1).map (fun d => d - 1) ≠ some 0 ↔
      (scene.mode = .branching → a.1 = true) := by
  unfold walkBudget
  cases hj : a.1 with
  | true => simp
  | false =>
      have hdown : scene.mode.props.searchesDown = true := by
        rcases hopen with h | h
        · rw [hj] at h
          cases h
        · exact h
      cases hmode : scene.mode <;> rw [hmode] at hdown <;>
        simp [Mode.props, initialDepth] at hdown ⊢

theorem walkBudget_pred {a : Bool × CategoryId} (hopen : WalkOpen scene a)
    (hnext : scene.mode = .branching → a.1 = true) :
    (walkBudget scene a.1).map (fun d => d - 1) = walkBudget scene a.1 := by
  unfold walkBudget
  cases hj : a.1 with
  | true => rfl
  | false =>
      have hdown : scene.mode.props.searchesDown = true := by
        rcases hopen with h | h
        · rw [hj] at h
          cases h
        · exact h
      rw [hj] at hnext
      cases hmode : scene.mode <;> rw [hmode] at hdown hnext <;>
        simp [Mode.props, initialDepth] at hdown hnext ⊢

theorem WalkOpen.step {a b : Bool × CategoryId} (hopen : WalkOpen scene a)
    (hstep : WalkStep tree scene a b) : WalkOpen scene b := by
  cases hstep with
  | child _ _ _ _ => exact hopen
  | jump _ _ _ => exact Or.inl rfl

/-- Walks are call paths. -/
theorem calls_of_walk (sceneId : CategoryId) {a b : Bool × CategoryId} (hopen : WalkOpen scene a)
    (h : Relation.ReflTransGen (WalkStep tree scene) a b) :
    WalkOpen scene b ∧
      Relation.ReflTransGen (CallStep tree sceneId) (walkView scene a)
        (walkView scene b) := by
  induction h with
  | refl => exact ⟨hopen, .refl⟩
  | tail _ hstep ih =>
      obtain ⟨hmid, hcalls⟩ := ih
      refine ⟨hmid.step hstep, hcalls.tail ?_⟩
      cases hstep with
      | @child jumped d x c hget hpen hx hbranch =>
          have hcall : CallStep tree sceneId (.view d (walkBudget scene jumped))
              (.view x ((walkBudget scene jumped).map (fun d => d - 1))) :=
            .child hget (walkBudget_ne_zero hmid) hpen
              ((walkBudget_next hmid).mpr hbranch) hx
          rw [walkBudget_pred hmid hbranch] at hcall
          exact hcall
      | @jump jumped d t c hget hexp ht =>
          exact .jump hget (walkBudget_ne_zero hmid) hexp ht

/-- Call paths below the scene are walks. -/
theorem walk_of_calls {a : Bool × CategoryId} {v : Activation}
    (hopen : WalkOpen scene a)
    (h : Relation.ReflTransGen (CallStep tree sceneId) (walkView scene a) v) :
    ∃ b, v = walkView scene b ∧ WalkOpen scene b ∧
      Relation.ReflTransGen (WalkStep tree scene) a b := by
  induction h with
  | refl => exact ⟨a, rfl, hopen, .refl⟩
  | tail _ hstep ih =>
      obtain ⟨⟨jumped, d⟩, rfl, hmid, hwalk⟩ := ih
      cases hstep with
      | child hget _ hpen hnext hx =>
          have hbranch := (walkBudget_next hmid).mp hnext
          have hwalkStep : WalkStep tree scene (jumped, d) (jumped, _) :=
            .child hget hpen hx hbranch
          refine ⟨(jumped, _), ?_, hmid.step hwalkStep, hwalk.tail hwalkStep⟩
          exact congrArg _ (walkBudget_pred hmid hbranch)
      | jump hget _ hexp ht =>
          have hwalkStep : WalkStep tree scene (jumped, d) (true, _) :=
            .jump hget hexp ht
          exact ⟨(true, _), rfl, Or.inl rfl, hwalk.tail hwalkStep⟩

end Walks

section Pool

variable {tree : CategoryTree} {sceneId : CategoryId} {scene : Category}
variable (hinv : TreeInvariant tree)
include hinv

/-- A returned part of the pool is what is visible from its first category. -/
theorem mem_view_iff_visibleFrom {fuel : Nat} {a : Bool × CategoryId} {c : Category}
    {part : List Intent} (hopen : WalkOpen scene a)
    (hget : tree.categories.get? a.2 = some c)
    (hview : view tree fuel a.2 (walkBudget scene a.1) = .ok part) (i : Intent) :
    i ∈ part ↔ VisibleFrom tree scene a i := by
  rw [mem_view_iff hinv scene.id fuel hget hview]
  constructor
  · rintro ⟨k, budget, hcalls, _, hexp⟩
    obtain ⟨b, heq, _, hwalk⟩ := walk_of_calls hopen hcalls
    cases heq
    exact ⟨b, hwalk, hexp⟩
  · rintro ⟨b, hwalk, hexp⟩
    obtain ⟨hopenb, hcalls⟩ := calls_of_walk scene.id hopen hwalk
    exact ⟨b.2, walkBudget scene b.1, hcalls, walkBudget_ne_zero hopenb, hexp⟩

theorem mem_sceneChildPart_iff {fuel : Nat} {below : List Intent}
    (hget : tree.categories.get? sceneId = some scene)
    (hbelow : sceneChildPart tree fuel scene = .ok below) (i : Intent) :
    i ∈ below ↔ scene.mode.props.searchesDown = true ∧
      ∃ x, x ∈ scene.childIds ∧ VisibleFrom tree scene (false, x) i := by
  unfold sceneChildPart at hbelow
  split_ifs at hbelow with hdown
  · rw [mem_concatMapM hbelow]
    have hopen : ∀ x, WalkOpen scene (false, x) := fun _ => Or.inr hdown
    constructor
    · rintro ⟨x, hx, part, hpart, hi⟩
      obtain ⟨d, hd⟩ := get?_of_child hinv hget hx
      exact ⟨hdown, x, hx,
        (mem_view_iff_visibleFrom hinv (hopen x) hd hpart i).mp hi⟩
    · rintro ⟨_, x, hx, hvis⟩
      obtain ⟨part, hpart⟩ := (concatMapM_ok_iff _ _).mp ⟨below, hbelow⟩ x hx
      obtain ⟨d, hd⟩ := get?_of_child hinv hget hx
      exact ⟨x, hx, part, hpart,
        (mem_view_iff_visibleFrom hinv (hopen x) hd hpart i).mpr hvis⟩
  · cases hbelow
    constructor
    · intro h
      cases h
    · intro h
      exact absurd h.1 hdown

theorem mem_sceneJumpPart_iff {fuel : Nat} {enum : List Intent}
    (hget : tree.categories.get? sceneId = some scene)
    (henum : sceneJumpPart tree fuel scene = .ok enum) (i : Intent) :
    i ∈ enum ↔
      ∃ t, scene.extendsEnumCategory = some t ∧ VisibleFrom tree scene (true, t) i := by
  unfold sceneJumpPart at henum
  cases ht : scene.extendsEnumCategory with
  | none =>
      rw [ht] at henum
      cases henum
      simp
  | some t =>
      rw [ht] at henum
      obtain ⟨_, d, hd, hdm⟩ := hinv.extendsEnum hget ht
      have hpart : ∃ fuel', view tree fuel' t none = .ok enum := by
        cases fuel with
        | zero =>
            simp only [enumJump_zero hd] at henum
            cases henum
        | succ fuel =>
            simp only [enumJump_succ fuel hd hdm] at henum
            exact ⟨fuel, henum⟩
      obtain ⟨fuel', hview⟩ := hpart
      have hiff : i ∈ enum ↔ VisibleFrom tree scene (true, t) i :=
        mem_view_iff_visibleFrom hinv (Or.inl rfl) hd hview i
      simpa using hiff

end Pool

/-- **A scene's candidate pool is exactly what is visible from it**: on an
accepted tree a finished call of `scope` on a non-ENUM category returns. -/
theorem mem_scope_iff
    {rootId : CategoryId} {entries : List CategoryEntry} {tree : CategoryTree}
    (hload : buildTree rootId entries = .ok tree)
    {x : CategoryId} {scene : Category} (hget : tree.get x = .ok scene)
    (hmode : scene.mode ≠ .enum) {fuel : Nat}
    (hfinished : scope tree fuel x ≠ .error .outOfFuel) :
    ∃ pool, scope tree fuel x = .ok pool ∧
      ∀ i, i ∈ pool ↔ Visible tree scene i := by
  have hinv := treeInvariant_of_buildTree hload
  have hc := (CategoryTree.get_eq_ok_iff tree x scene).mp hget
  cases hrun : scope tree fuel x with
  | error e =>
      rw [scope_error hinv hc hmode hrun] at hrun
      exact absurd hrun hfinished
  | ok pool =>
      refine ⟨pool, rfl, ?_⟩
      intro i
      rw [scope_eq fuel hc hmode, except_bind_eq_ok_iff] at hrun
      obtain ⟨below, hbelow, hrun⟩ := hrun
      rw [except_bind_eq_ok_iff] at hrun
      obtain ⟨enum, henum, hrun⟩ := hrun
      rw [Except.ok.injEq] at hrun
      rw [← hrun, List.mem_append, List.mem_append,
        mem_sceneChildPart_iff hinv hc hbelow, mem_sceneJumpPart_iff hinv hc henum,
        Visible, or_assoc]

/-- A BRANCHING scene `b` that extends an ENUM node with a child of its own. -/
def menuEntries : List CategoryEntry :=
  [{ id := "root", name := "root" },
    { id := "e", name := "e", parentId := some "root", mode := .enum },
    { id := "city", name := "city", parentId := some "e",
      intents := [{ id := "paris", categoryId := "city" }] },
    { id := "b", name := "b", parentId := some "root", mode := .branching,
      extendsEnumCategory := some "e",
      intents := [{ id := "open", categoryId := "b", isSpecial := true }] }]

def menuTree : CategoryTree :=
  { rootId := "root"
    categories := ⟨[
      ("root", { id := "root", name := "root", childIds := ["e", "b"] }),
      ("e", { id := "e", name := "e", parentId := some "root", mode := .enum,
              childIds := ["city"] }),
      ("city", { id := "city", name := "city", parentId := some "e",
                 intents := [{ id := "paris", categoryId := "city" }] }),
      ("b", { id := "b", name := "b", parentId := some "root", mode := .branching,
              extendsEnumCategory := some "e",
              intents := [{ id := "open", categoryId := "b", isSpecial := true }] })],
      by decide⟩ }

theorem mem_scope_menuTree :
    ∃ pool, scope menuTree 4 "b" = .ok pool ∧
      ∀ i, i ∈ pool ↔ Visible menuTree
        { id := "b", name := "b", parentId := some "root", mode := .branching,
          extendsEnumCategory := some "e",
          intents := [{ id := "open", categoryId := "b", isSpecial := true }] } i := by
  have hload : buildTree "root" menuEntries = .ok menuTree := by decide
  have hrun : scope menuTree 4 "b" ≠ .error .outOfFuel := by decide
  exact mem_scope_iff (x := "b") hload rfl (by decide) hrun

end Core
end Sandroid
