import Sandroid.Core.Scope
import Sandroid.Core.SceneWellFormed
import Sandroid.Lib.CallGraph

/-!
# The call graph of the pool recursion

`CallStep tree sceneId` relates an activation of the recursion started by
`scope tree sceneId` to the activations it calls: child steps, and jumps along
`extends_enum_category`.  On a loaded tree the recursion is read off this graph:

* `view_error`: a call never raises, it can only run out of depth;
* `depthWithin_of_view_ok`, `view_ok_of_depthWithin`: a call returns within some
  depth iff the call graph below it has finite depth;
* `mem_view_iff`: a returned pool holds exactly what the activations reached
  from the call expose.
-/

namespace Sandroid
namespace Core

open Lib

/-- An activation of the recursion: the call of `scope` itself, or a call of
`_collect_via_ancestor_view` on a category with a remaining budget. -/
inductive Activation where
  | scope
  | view (category : CategoryId) (budget : Option Nat)

/-- A category's mode lets an ancestor see ordinary or special intents. -/
def Category.exposes (c : Category) : Prop :=
  c.mode.props.exposeOrdinary = true ∨ c.mode.props.exposeSpecial = true

/-- One activation calls another; a call of `_collect_enum_subtree` counts as
the call it forwards to. -/
inductive CallStep (tree : CategoryTree) (sceneId : CategoryId) :
    Activation → Activation → Prop
  | sceneChild {scene : Category} {x : CategoryId} :
      tree.categories.get? sceneId = some scene →
      scene.mode.props.searchesDown = true →
      x ∈ scene.childIds →
      CallStep tree sceneId .scope
        (.view x (initialDepth scene.mode.props.searchDepth))
  | sceneJump {scene : Category} {t : CategoryId} :
      tree.categories.get? sceneId = some scene →
      scene.extendsEnumCategory = some t →
      CallStep tree sceneId .scope (.view t none)
  | child {k x : CategoryId} {c : Category} {budget : Option Nat} :
      tree.categories.get? k = some c →
      budget ≠ some 0 →
      c.mode.props.allowPenetration = true →
      budget.map (fun d => d - 1) ≠ some 0 →
      x ∈ c.childIds →
      CallStep tree sceneId (.view k budget) (.view x (budget.map (fun d => d - 1)))
  | jump {k t : CategoryId} {c : Category} {budget : Option Nat} :
      tree.categories.get? k = some c →
      budget ≠ some 0 →
      c.exposes →
      c.extendsEnumCategory = some t →
      CallStep tree sceneId (.view k budget) (.view t none)

/-- The category `k` exposes the intent `i` to an ancestor. -/
def ExposesIntent (tree : CategoryTree) (k : CategoryId) (i : Intent) : Prop :=
  ∃ c, tree.categories.get? k = some c ∧
    (c.mode.props.exposeOrdinary = true ∧ i ∈ c.ordinaryIntents ∨
      c.mode.props.exposeSpecial = true ∧ i ∈ c.specialIntents)

/-- What a call on a category itself contributes. -/
def Category.exposed (c : Category) : List Intent :=
  (if c.mode.props.exposeOrdinary then c.ordinaryIntents else []) ++
    (if c.mode.props.exposeSpecial then c.specialIntents else [])

theorem mem_exposed_iff {tree : CategoryTree} {k : CategoryId} {c : Category}
    (hget : tree.categories.get? k = some c) (i : Intent) :
    i ∈ c.exposed ↔ ExposesIntent tree k i := by
  unfold Category.exposed ExposesIntent
  simp only [hget, Option.some.injEq, exists_eq_left']
  cases c.mode.props.exposeOrdinary <;> cases c.mode.props.exposeSpecial <;>
    simp

section Calls

variable (tree : CategoryTree)

/-- `_collect_via_ancestor_view(tree, tree.get(k), remaining_depth=budget)`. -/
def view (fuel : Nat) (k : CategoryId) (budget : Option Nat) :
    Except Stop (List Intent) := do
  let c ← tree.fetch k
  collectViaAncestorView tree fuel c budget

/-- `_collect_enum_subtree(tree, tree.get(t))`. -/
def enumJump (fuel : Nat) (t : CategoryId) : Except Stop (List Intent) := do
  let enumRoot ← tree.fetch t
  collectEnumSubtree tree fuel enumRoot

/-- The child loop of a call. -/
def childPart (fuel : Nat) (c : Category) (budget : Option Nat) :
    Except Stop (List Intent) :=
  if c.mode.props.allowPenetration = true ∧ budget.map (fun d => d - 1) ≠ some 0 then
    concatMapM (fun x => view tree fuel x (budget.map (fun d => d - 1))) c.childIds
  else
    .ok []

/-- The enum jump of a call. -/
def jumpPart (fuel : Nat) (c : Category) : Except Stop (List Intent) :=
  match c.extendsEnumCategory with
  | none => .ok []
  | some t =>
      if c.mode.props.exposeOrdinary = true ∨ c.mode.props.exposeSpecial = true then
        enumJump tree fuel t
      else
        .ok []

variable {tree}

theorem view_zero {k : CategoryId} {c : Category} (budget : Option Nat)
    (hget : tree.categories.get? k = some c) :
    view tree 0 k budget = .error .outOfFuel := by
  rw [view, CategoryTree.fetch_eq_ok hget]
  rfl

theorem view_succ_spent {k : CategoryId} {c : Category} (fuel : Nat)
    (hget : tree.categories.get? k = some c) :
    view tree (fuel + 1) k (some 0) = .ok [] := by
  rw [view, CategoryTree.fetch_eq_ok hget]
  rfl

/-- One unfolding of a call with budget left. -/
theorem view_succ {k : CategoryId} {c : Category} (fuel : Nat) {budget : Option Nat}
    (hget : tree.categories.get? k = some c) (hb : budget ≠ some 0) :
    view tree (fuel + 1) k budget =
      (childPart tree fuel c budget >>= fun below =>
        jumpPart tree fuel c >>= fun enum =>
          .ok (c.exposed ++ below ++ enum)) := by
  have hunfold : view tree (fuel + 1) k budget =
      collectViaAncestorView tree (fuel + 1) c budget := by
    rw [view, CategoryTree.fetch_eq_ok hget]
    rfl
  rw [hunfold, collectViaAncestorView, if_neg hb]
  rfl

theorem enumJump_zero {t : CategoryId} {d : Category}
    (hget : tree.categories.get? t = some d) :
    enumJump tree 0 t = .error .outOfFuel := by
  rw [enumJump, CategoryTree.fetch_eq_ok hget]
  rfl

theorem enumJump_succ {t : CategoryId} {d : Category} (fuel : Nat)
    (hget : tree.categories.get? t = some d) (henum : d.mode = .enum) :
    enumJump tree (fuel + 1) t = view tree fuel t none := by
  rw [enumJump, view, CategoryTree.fetch_eq_ok hget]
  have hmode : ¬ d.mode ≠ .enum := fun h => h henum
  show collectEnumSubtree tree (fuel + 1) d = collectViaAncestorView tree fuel d none
  rw [collectEnumSubtree, if_neg hmode]

end Calls

section LoadedTree

variable {tree : CategoryTree} (hinv : TreeInvariant tree) (sceneId : CategoryId)
include hinv

theorem get?_of_child {k x : CategoryId} {c : Category}
    (hget : tree.categories.get? k = some c) (hx : x ∈ c.childIds) :
    ∃ d, tree.categories.get? x = some d :=
  (Dict.mem_keys_iff _ _).mp (hinv.forest.listed ⟨c, hget, hx⟩)

/-- A jump that returns is the view of an ENUM category, one call further down. -/
theorem view_of_enumJump_ok {k t : CategoryId} {c : Category} {fuel : Nat} {out : List Intent}
    (hget : tree.categories.get? k = some c) (ht : c.extendsEnumCategory = some t)
    (h : enumJump tree fuel t = .ok out) :
    ∃ fuel' d, fuel = fuel' + 1 ∧ tree.categories.get? t = some d ∧
      view tree fuel' t none = .ok out := by
  obtain ⟨_, d, hd, hdm⟩ := hinv.extendsEnum hget ht
  cases fuel with
  | zero =>
      rw [enumJump_zero hd] at h
      cases h
  | succ fuel =>
      rw [enumJump_succ fuel hd hdm] at h
      exact ⟨fuel, d, rfl, hd, h⟩

/-- One that fails is out of depth at once, or its view fails. -/
theorem view_of_enumJump_error {k t : CategoryId} {c : Category} {fuel : Nat} {e : Stop}
    (hget : tree.categories.get? k = some c) (ht : c.extendsEnumCategory = some t)
    (h : enumJump tree fuel t = .error e) :
    e = .outOfFuel ∨ ∃ fuel' d, fuel = fuel' + 1 ∧ tree.categories.get? t = some d ∧
      view tree fuel' t none = .error e := by
  obtain ⟨_, d, hd, hdm⟩ := hinv.extendsEnum hget ht
  cases fuel with
  | zero =>
      rw [enumJump_zero hd] at h
      cases h
      exact Or.inl rfl
  | succ fuel =>
      rw [enumJump_succ fuel hd hdm] at h
      exact Or.inr ⟨fuel, d, rfl, hd, h⟩

/-- A call never raises: it returns, or runs out of depth. -/
theorem view_error :
    ∀ (fuel : Nat) {k : CategoryId} {c : Category} {budget : Option Nat} {e : Stop},
      tree.categories.get? k = some c →
      view tree fuel k budget = .error e → e = .outOfFuel := by
  intro fuel
  induction fuel using Nat.strong_induction_on with
  | _ fuel ih =>
    intro k c budget e hget h
    cases fuel with
    | zero =>
        rw [view_zero budget hget] at h
        cases h
        rfl
    | succ fuel =>
        by_cases hb : budget = some 0
        · rw [hb, view_succ_spent fuel hget] at h
          cases h
        · rw [view_succ fuel hget hb, except_bind_eq_error_iff] at h
          rcases h with h | ⟨below, _, h⟩
          · unfold childPart at h
            split_ifs at h
            obtain ⟨x, hx, hxe⟩ := concatMapM_eq_error h
            obtain ⟨d, hd⟩ := get?_of_child hinv hget hx
            exact ih fuel (Nat.lt_succ_self _) hd hxe
          · rw [except_bind_eq_error_iff] at h
            rcases h with h | ⟨enum, _, h⟩
            · unfold jumpPart at h
              split at h
              · cases h
              · rename_i t ht
                split_ifs at h
                rcases view_of_enumJump_error hinv hget ht h with h | ⟨fuel', d, rfl, hd, h⟩
                · exact h
                · exact ih fuel' (by omega) hd h
            · cases h

/-- A call that returned within depth `fuel` has a call graph of that depth. -/
theorem depthWithin_of_view_ok :
    ∀ (fuel : Nat) {k : CategoryId} {c : Category} {budget : Option Nat}
      {out : List Intent},
      tree.categories.get? k = some c →
      view tree fuel k budget = .ok out →
      DepthWithin (CallStep tree sceneId) fuel (.view k budget) := by
  intro fuel
  induction fuel using Nat.strong_induction_on with
  | _ fuel ih =>
    intro k c budget out hget h
    cases fuel with
    | zero =>
        rw [view_zero budget hget] at h
        cases h
    | succ fuel =>
        intro b hstep
        cases hstep with
        | @child _ x c' _ hget' hb hpen hnext hx =>
            rw [hget, Option.some.injEq] at hget'
            subst hget'
            rw [view_succ fuel hget hb, except_bind_eq_ok_iff] at h
            obtain ⟨below, hbelow, _⟩ := h
            rw [childPart, if_pos ⟨hpen, hnext⟩] at hbelow
            obtain ⟨part, hpart⟩ := (concatMapM_ok_iff _ _).mp ⟨below, hbelow⟩ x hx
            obtain ⟨d, hd⟩ := get?_of_child hinv hget hx
            exact ih fuel (Nat.lt_succ_self _) hd hpart
        | @jump _ t c' _ hget' hb hexp ht =>
            rw [hget, Option.some.injEq] at hget'
            subst hget'
            rw [view_succ fuel hget hb, except_bind_eq_ok_iff] at h
            obtain ⟨below, _, h⟩ := h
            rw [except_bind_eq_ok_iff] at h
            obtain ⟨enum, henum, _⟩ := h
            have hjump : enumJump tree fuel t = .ok enum := by
              rw [← henum, jumpPart, ht]
              exact (if_pos hexp).symm
            obtain ⟨fuel', d, rfl, hd, hview⟩ := view_of_enumJump_ok hinv hget ht hjump
            exact depthWithin_mono_succ (ih fuel' (by omega) hd hview)

/-- Twice the depth of the call graph is enough recursion depth: a jump takes
two nested calls. -/
theorem view_ok_of_depthWithin :
    ∀ (n : Nat) {k : CategoryId} {c : Category} {budget : Option Nat},
      tree.categories.get? k = some c →
      DepthWithin (CallStep tree sceneId) n (.view k budget) →
      ∀ m, 2 * n ≤ m → ∃ out, view tree m k budget = .ok out
  | 0, _, _, _, _, h, _, _ => h.elim
  | n + 1, k, c, budget, hget, h, m, hm => by
      obtain ⟨m, rfl⟩ : ∃ m', m = m' + 2 := ⟨m - 2, by omega⟩
      by_cases hb : budget = some 0
      · exact ⟨[], by rw [hb, view_succ_spent (m + 1) hget]⟩
      · have hbelow : ∃ below, childPart tree (m + 1) c budget = .ok below := by
          unfold childPart
          split_ifs with hcond
          · apply (concatMapM_ok_iff _ _).mpr
            intro x hx
            obtain ⟨d, hd⟩ := get?_of_child hinv hget hx
            have hstep : CallStep tree sceneId (.view k budget)
                (.view x (budget.map (fun d => d - 1))) :=
              .child hget hb hcond.1 hcond.2 hx
            exact view_ok_of_depthWithin n hd (h _ hstep) (m + 1) (by omega)
          · exact ⟨[], rfl⟩
        have henum : ∃ enum, jumpPart tree (m + 1) c = .ok enum := by
          unfold jumpPart
          cases ht : c.extendsEnumCategory with
          | none => exact ⟨[], rfl⟩
          | some t =>
              simp only
              split_ifs with hexp
              · obtain ⟨_, d, hd, hdm⟩ := hinv.extendsEnum hget ht
                rw [enumJump_succ m hd hdm]
                have hstep : CallStep tree sceneId (.view k budget) (.view t none) :=
                  .jump hget hb hexp ht
                exact view_ok_of_depthWithin n hd (h _ hstep) m (by omega)
              · exact ⟨[], rfl⟩
        obtain ⟨below, hbelow⟩ := hbelow
        obtain ⟨enum, henum⟩ := henum
        refine ⟨c.exposed ++ below ++ enum, ?_⟩
        rw [view_succ (m + 1) hget hb, hbelow, henum]
        rfl

/-- A returned pool holds exactly what the activations reached from the call
expose. -/
theorem mem_view_iff :
    ∀ (fuel : Nat) {k : CategoryId} {c : Category} {budget : Option Nat}
      {out : List Intent},
      tree.categories.get? k = some c →
      view tree fuel k budget = .ok out →
      ∀ i, i ∈ out ↔ ∃ k' budget',
        Relation.ReflTransGen (CallStep tree sceneId)
          (.view k budget) (.view k' budget') ∧
        budget' ≠ some 0 ∧ ExposesIntent tree k' i := by
  intro fuel
  induction fuel using Nat.strong_induction_on with
  | _ fuel ih =>
    intro k c budget out hget h i
    cases fuel with
    | zero =>
        rw [view_zero budget hget] at h
        cases h
    | succ fuel =>
        by_cases hb : budget = some 0
        · subst hb
          rw [view_succ_spent fuel hget] at h
          cases h
          refine ⟨fun h => absurd h List.not_mem_nil, ?_⟩
          rintro ⟨k', b', hreach, hb', _⟩
          rcases Relation.ReflTransGen.cases_head hreach with heq | ⟨a, hstep, _⟩
          · cases heq
            exact absurd rfl hb'
          · cases hstep with
            | child _ hne _ _ _ => exact absurd rfl hne
            | jump _ hne _ _ => exact absurd rfl hne
        · rw [view_succ fuel hget hb, except_bind_eq_ok_iff] at h
          obtain ⟨below, hbelow, h⟩ := h
          rw [except_bind_eq_ok_iff] at h
          obtain ⟨enum, henum, h⟩ := h
          rw [Except.ok.injEq] at h
          subst h
          rw [List.mem_append, List.mem_append, mem_exposed_iff hget]
          constructor
          · rintro ((hown | hin) | hin)
            · exact ⟨k, budget, .refl, hb, hown⟩
            · unfold childPart at hbelow
              split_ifs at hbelow with hcond
              · obtain ⟨x, hx, part, hpart, hi⟩ := (mem_concatMapM hbelow i).mp hin
                obtain ⟨d, hd⟩ := get?_of_child hinv hget hx
                obtain ⟨k', b', hreach, hb', hexp⟩ :=
                  (ih fuel (Nat.lt_succ_self _) hd hpart i).mp hi
                exact ⟨k', b', .head (.child hget hb hcond.1 hcond.2 hx) hreach, hb',
                  hexp⟩
              · cases hbelow
                exact absurd hin List.not_mem_nil
            · unfold jumpPart at henum
              split at henum
              · cases henum
                exact absurd hin List.not_mem_nil
              · rename_i t ht
                split_ifs at henum with hexposes
                · obtain ⟨fuel', d, rfl, hd, hview⟩ := view_of_enumJump_ok hinv hget ht henum
                  obtain ⟨k', b', hreach, hb', hexp⟩ := (ih fuel' (by omega) hd hview i).mp hin
                  exact ⟨k', b', .head (.jump hget hb hexposes ht) hreach, hb', hexp⟩
                · cases henum
                  exact absurd hin List.not_mem_nil
          · rintro ⟨k', b', hreach, hb', hexp⟩
            rcases Relation.ReflTransGen.cases_head hreach with heq | ⟨a, hstep, hrest⟩
            · cases heq
              exact Or.inl (Or.inl hexp)
            · cases hstep with
              | @child _ x c' _ hget' _ hpen hnext hx =>
                  rw [hget, Option.some.injEq] at hget'
                  subst hget'
                  left
                  right
                  rw [childPart, if_pos ⟨hpen, hnext⟩] at hbelow
                  rw [mem_concatMapM hbelow]
                  obtain ⟨part, hpart⟩ :=
                    (concatMapM_ok_iff _ _).mp ⟨below, hbelow⟩ x hx
                  obtain ⟨d, hd⟩ := get?_of_child hinv hget hx
                  refine ⟨x, hx, part, hpart, ?_⟩
                  exact (ih fuel (Nat.lt_succ_self _) hd hpart i).mpr
                    ⟨k', b', hrest, hb', hexp⟩
              | @jump _ t c' _ hget' _ hexposes ht =>
                  rw [hget, Option.some.injEq] at hget'
                  subst hget'
                  right
                  have hjump : enumJump tree fuel t = .ok enum := by
                    rw [← henum, jumpPart, ht]
                    exact (if_pos hexposes).symm
                  obtain ⟨fuel', d, rfl, hd, hview⟩ := view_of_enumJump_ok hinv hget ht hjump
                  exact (ih fuel' (by omega) hd hview i).mpr ⟨k', b', hrest, hb', hexp⟩

end LoadedTree

end Core
end Sandroid
