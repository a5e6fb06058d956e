import Sandroid.Core.ScopeCalls

/-!
# When the pool recursion ends

Child steps go down the tree, but a jump along `extends_enum_category` may land
anywhere, also on an ancestor of the category that jumps.  The loader's checks
on the pointer (target listed, target ENUM, source not ENUM) do not exclude
this: a category that extends the ENUM node it lies below is accepted, and the
search from it never ends.

`Pulls tree e e'` says, on the static tree, that the subtree of the ENUM node
`e` drags in the one of `e'`.  The recursion from a scene ends exactly when no
ENUM node pulled in by the scene pulls itself in again
(`scope_terminates_iff`).
-/

namespace Sandroid
namespace Core

open Lib

section Static

variable (tree : CategoryTree)

/-- An ancestor's search passes through `d` to its child `c`. -/
def Penetrates (d c : CategoryId) : Prop :=
  ∃ cat, tree.categories.get? d = some cat ∧
    cat.mode.props.allowPenetration = true ∧ c ∈ cat.childIds

/-- An exposing category `c` extends the ENUM node `e`. -/
def ExtendsFrom (c e : CategoryId) : Prop :=
  ∃ cat, tree.categories.get? c = some cat ∧ cat.exposes ∧
    cat.extendsEnumCategory = some e

/-- Some category in the penetrable subtree of `e` extends `e'`. -/
def Pulls (e e' : CategoryId) : Prop :=
  ∃ c, Relation.ReflTransGen (Penetrates tree) e c ∧ ExtendsFrom tree c e'

/-- The scene searches `c` in its own subtree, within its search depth. -/
def Searched (sceneId c : CategoryId) : Prop :=
  ∃ scene x, tree.categories.get? sceneId = some scene ∧
    scene.mode.props.searchesDown = true ∧ x ∈ scene.childIds ∧
    (scene.mode.props.searchDepth = .all ∧
        Relation.ReflTransGen (Penetrates tree) x c ∨
      scene.mode.props.searchDepth = .immediate ∧ c = x)

/-- The ENUM nodes that the scene pulls in itself: its own target and those of
the categories it searches. -/
def PulledBy (sceneId e : CategoryId) : Prop :=
  (∃ scene, tree.categories.get? sceneId = some scene ∧
      scene.extendsEnumCategory = some e) ∨
    ∃ c, Searched tree sceneId c ∧ ExtendsFrom tree c e

/-- No ENUM node that the scene pulls in, directly or along a chain of
pointers, pulls itself in again. -/
def NoExtendsLoop (sceneId : CategoryId) : Prop :=
  ∀ e e', PulledBy tree sceneId e → Relation.ReflTransGen (Pulls tree) e e' →
    ¬ Relation.TransGen (Pulls tree) e' e'

end Static

/-- The call `scope(tree, sceneId)` comes to an end. -/
def Terminates (tree : CategoryTree) (sceneId : CategoryId) : Prop :=
  ∃ fuel, scope tree fuel sceneId ≠ .error .outOfFuel

/-- No call path of `scope(tree, sceneId)` meets an activation twice. -/
def NeverRevisits (tree : CategoryTree) (sceneId : CategoryId) : Prop :=
  ∀ a, Relation.ReflTransGen (CallStep tree sceneId) .scope a →
    ¬ Relation.TransGen (CallStep tree sceneId) a a

section Scene

variable {tree : CategoryTree} {sceneId : CategoryId} {scene : Category}

/-- The enum jump of the scene itself. -/
def sceneJumpPart (tree : CategoryTree) (fuel : Nat) (scene : Category) :
    Except Stop (List Intent) :=
  match scene.extendsEnumCategory with
  | none => .ok []
  | some t => enumJump tree fuel t

/-- The child loop of the scene. -/
def sceneChildPart (tree : CategoryTree) (fuel : Nat) (scene : Category) :
    Except Stop (List Intent) :=
  if scene.mode.props.searchesDown = true then
    concatMapM
      (fun x => view tree fuel x (initialDepth scene.mode.props.searchDepth))
      scene.childIds
  else
    .ok []

theorem scope_eq (fuel : Nat)
    (hget : tree.categories.get? sceneId = some scene) (hmode : scene.mode ≠ .enum) :
    scope tree fuel sceneId =
      (sceneChildPart tree fuel scene >>= fun below =>
        sceneJumpPart tree fuel scene >>= fun enum =>
          .ok (scene.ordinaryIntents ++ below ++ enum)) := by
  rw [scope, CategoryTree.fetch_eq_ok hget]
  show (if scene.mode = .enum then _ else _) = _
  rw [if_neg hmode]
  rfl

variable (hinv : TreeInvariant tree)
  (hget : tree.categories.get? sceneId = some scene) (hmode : scene.mode ≠ .enum)
include hinv hget hmode

theorem scope_error {fuel : Nat} {e : Stop}
    (h : scope tree fuel sceneId = .error e) : e = .outOfFuel := by
  rw [scope_eq fuel hget hmode, except_bind_eq_error_iff] at h
  rcases h with h | ⟨below, _, h⟩
  · unfold sceneChildPart at h
    split_ifs at h
    obtain ⟨x, hx, hxe⟩ := concatMapM_eq_error h
    obtain ⟨d, hd⟩ := get?_of_child hinv hget hx
    exact view_error hinv fuel hd hxe
  · rw [except_bind_eq_error_iff] at h
    rcases h with h | ⟨enum, _, h⟩
    · unfold sceneJumpPart at h
      split at h
      · cases h
      · rename_i t ht
        rcases view_of_enumJump_error hinv hget ht h with h | ⟨fuel', d, -, hd, h⟩
        · exact h
        · exact view_error hinv fuel' hd h
    · cases h

theorem depthWithin_of_scope_ok {fuel : Nat} {out : List Intent}
    (h : scope tree fuel sceneId = .ok out) :
    DepthWithin (CallStep tree sceneId) (fuel + 1) .scope := by
  rw [scope_eq fuel hget hmode, except_bind_eq_ok_iff] at h
  obtain ⟨below, hbelow, h⟩ := h
  rw [except_bind_eq_ok_iff] at h
  obtain ⟨enum, henum, _⟩ := h
  intro b hstep
  cases hstep with
  | @sceneChild scene' x hget' hdown hx =>
      rw [hget, Option.some.injEq] at hget'
      subst hget'
      rw [sceneChildPart, if_pos hdown] at hbelow
      obtain ⟨part, hpart⟩ := (concatMapM_ok_iff _ _).mp ⟨below, hbelow⟩ x hx
      obtain ⟨d, hd⟩ := get?_of_child hinv hget hx
      exact depthWithin_of_view_ok hinv sceneId fuel hd hpart
  | @sceneJump scene' t hget' ht =>
      rw [hget, Option.some.injEq] at hget'
      subst hget'
      have hjump : enumJump tree fuel t = .ok enum := by
        rw [← henum, sceneJumpPart, ht]
      obtain ⟨fuel', d, rfl, hd, hview⟩ := view_of_enumJump_ok hinv hget ht hjump
      exact depthWithin_mono_succ (depthWithin_of_view_ok hinv sceneId fuel' hd hview)

theorem scope_ok_of_depthWithin {n : Nat}
    (h : DepthWithin (CallStep tree sceneId) (n + 1) .scope) :
    ∃ out, scope tree (2 * n + 1) sceneId = .ok out := by
  have hbelow : ∃ below, sceneChildPart tree (2 * n + 1) scene = .ok below := by
    unfold sceneChildPart
    split_ifs with hdown
    · apply (concatMapM_ok_iff _ _).mpr
      intro x hx
      obtain ⟨d, hd⟩ := get?_of_child hinv hget hx
      exact view_ok_of_depthWithin hinv sceneId n hd
        (h _ (.sceneChild hget hdown hx)) _ (by omega)
    · exact ⟨[], rfl⟩
  have henum : ∃ enum, sceneJumpPart tree (2 * n + 1) scene = .ok enum := by
    unfold sceneJumpPart
    cases ht : scene.extendsEnumCategory with
    | none => exact ⟨[], rfl⟩
    | some t =>
        obtain ⟨_, d, hd, hdm⟩ := hinv.extendsEnum hget ht
        simp only
        rw [enumJump_succ (2 * n) hd hdm]
        exact view_ok_of_depthWithin hinv sceneId n hd (h _ (.sceneJump hget ht)) _
          (le_refl _)
  obtain ⟨below, hbelow⟩ := hbelow
  obtain ⟨enum, henum⟩ := henum
  refine ⟨scene.ordinaryIntents ++ below ++ enum, ?_⟩
  rw [scope_eq _ hget hmode, hbelow, henum]
  rfl

/-- The recursion ends iff its call graph has finite depth. -/
theorem terminates_iff_depthWithin :
    Terminates tree sceneId ↔
      ∃ n, DepthWithin (CallStep tree sceneId) n .scope := by
  constructor
  · rintro ⟨fuel, h⟩
    cases hrun : scope tree fuel sceneId with
    | ok out => exact ⟨fuel + 1, depthWithin_of_scope_ok hinv hget hmode hrun⟩
    | error e =>
        rw [scope_error hinv hget hmode hrun] at hrun
        exact absurd hrun h
  · rintro ⟨n, hn⟩
    cases n with
    | zero => exact hn.elim
    | succ n =>
        obtain ⟨out, hout⟩ := scope_ok_of_depthWithin hinv hget hmode hn
        refine ⟨2 * n + 1, ?_⟩
        rw [hout]
        exact nofun

end Scene

section Finite

variable {tree : CategoryTree} (hinv : TreeInvariant tree) (sceneId : CategoryId)
include hinv

/-- Only three budgets ever occur, so only finitely many activations do. -/
theorem reachable_finite :
    {a | Relation.ReflTransGen (CallStep tree sceneId) .scope a}.Finite := by
  classical
  let budgets : Finset (Option Nat) := {none, some 0, some 1}
  let views : Finset (CategoryId × Option Nat) :=
    tree.categories.keys.toFinset ×ˢ budgets
  have hfin : ((fun p : CategoryId × Option Nat => Activation.view p.1 p.2) ''
      (views : Set (CategoryId × Option Nat))).Finite := views.finite_toSet.image _
  apply (hfin.insert .scope).subset
  intro a ha
  have hinit : ∀ depth, initialDepth depth ∈ budgets := by
    intro depth
    cases depth <;> simp [initialDepth, budgets]
  have hview : ∀ k b, k ∈ tree.categories.keys → b ∈ budgets →
      Activation.view k b ∈ insert Activation.scope
        ((fun p : CategoryId × Option Nat => Activation.view p.1 p.2) ''
          (views : Set (CategoryId × Option Nat))) := by
    intro k b hk hb
    refine Set.mem_insert_of_mem _ ⟨(k, b), ?_, rfl⟩
    rw [Finset.mem_coe, Finset.mem_product, List.mem_toFinset]
    exact ⟨hk, hb⟩
  have hlisted : ∀ {k c t}, tree.categories.get? k = some c →
      c.extendsEnumCategory = some t → t ∈ tree.categories.keys := by
    intro k c t hget ht
    obtain ⟨_, d, hd, _⟩ := hinv.extendsEnum hget ht
    exact (Dict.mem_keys_iff _ _).mpr ⟨d, hd⟩
  induction ha with
  | refl => exact Set.mem_insert _ _
  | tail hreach hstep ih =>
      cases hstep with
      | sceneChild hget _ hx =>
          exact hview _ _ (hinv.forest.listed ⟨_, hget, hx⟩) (hinit _)
      | sceneJump hget ht =>
          exact hview _ _ (hlisted hget ht) (by simp [budgets])
      | @child k x c budget hget hb _ hnext hx =>
          apply hview _ _ (hinv.forest.listed ⟨_, hget, hx⟩)
          have hbudget : budget ∈ budgets := by
            rcases ih with h | ⟨p, hp, h⟩
            · cases h
            · cases h
              exact (Finset.mem_product.mp hp).2
          simp only [budgets, Finset.mem_insert, Finset.mem_singleton] at hbudget ⊢
          rcases hbudget with rfl | rfl | rfl
          · exact Or.inl rfl
          · exact absurd rfl hb
          · exact Or.inr (Or.inl rfl)
      | jump hget _ _ ht =>
          exact hview _ _ (hlisted hget ht) (by simp [budgets])

/-- Child edges of a loaded tree form no cycle: the unique child path to a
category would have to contain itself. -/
theorem no_child_cycle (k : CategoryId) :
    ¬ Relation.TransGen (ChildOf tree.categories) k k := by
  intro hcycle
  have hkeys : k ∈ tree.categories.keys := by
    cases hcycle with
    | single h => exact hinv.forest.listed h
    | tail _ h => exact hinv.forest.listed h
  obtain ⟨path, hpath⟩ := exists_childPath (hinv.reached hkeys)
  have hext : ∀ {a b}, Relation.TransGen (ChildOf tree.categories) a b →
      ∀ {p}, ChildPath tree.categories tree.rootId p a →
      ∃ q, q ≠ [] ∧ ChildPath tree.categories tree.rootId (p ++ q) b := by
    intro a b hab
    induction hab with
    | single h =>
        intro p hp
        exact ⟨[_], List.cons_ne_nil _ _, (childPath_snoc _ _).mpr ⟨rfl, _, hp, h⟩⟩
    | @tail _ c _ h ih =>
        intro p hp
        obtain ⟨q, _, hq⟩ := ih hp
        refine ⟨q ++ [c], List.append_ne_nil_of_right_ne_nil _ (List.cons_ne_nil _ _), ?_⟩
        rw [← List.append_assoc]
        exact (childPath_snoc _ _).mpr ⟨rfl, _, hq, h⟩
  obtain ⟨q, hne, hq⟩ := hext hcycle hpath
  have heq := childPath_unique hinv.forest _ hpath hq
  exact hne (List.append_right_eq_self.mp heq.symm)

end Finite

section Loops

variable {tree : CategoryTree} {sceneId : CategoryId}

theorem penetrates_calls {d c : CategoryId}
    (h : Relation.ReflTransGen (Penetrates tree) d c) :
    Relation.ReflTransGen (CallStep tree sceneId) (.view d none) (.view c none) := by
  induction h with
  | refl => exact .refl
  | tail _ hstep ih =>
      obtain ⟨cat, hget, hpen, hx⟩ := hstep
      exact ih.tail (.child hget nofun hpen nofun hx)

theorem extendsFrom_calls {c e : CategoryId} {budget : Option Nat}
    (hb : budget ≠ some 0) (h : ExtendsFrom tree c e) :
    CallStep tree sceneId (.view c budget) (.view e none) := by
  obtain ⟨cat, hget, hexp, ht⟩ := h
  exact .jump hget hb hexp ht

theorem pulls_calls {e e' : CategoryId} (h : Pulls tree e e') :
    Relation.TransGen (CallStep tree sceneId) (.view e none) (.view e' none) := by
  obtain ⟨c, hpen, hext⟩ := h
  exact Relation.TransGen.tail' (penetrates_calls hpen) (extendsFrom_calls nofun hext)

theorem pulls_star_calls {e e' : CategoryId}
    (h : Relation.ReflTransGen (Pulls tree) e e') :
    Relation.ReflTransGen (CallStep tree sceneId) (.view e none) (.view e' none) := by
  induction h with
  | refl => exact .refl
  | tail _ hstep ih => exact ih.trans (pulls_calls hstep).to_reflTransGen

theorem pulls_plus_calls {e e' : CategoryId}
    (h : Relation.TransGen (Pulls tree) e e') :
    Relation.TransGen (CallStep tree sceneId) (.view e none) (.view e' none) := by
  induction h with
  | single hstep => exact pulls_calls hstep
  | tail _ hstep ih => exact ih.trans (pulls_calls hstep)

theorem pulledBy_calls {e : CategoryId} (h : PulledBy tree sceneId e) :
    Relation.ReflTransGen (CallStep tree sceneId) .scope (.view e none) := by
  rcases h with ⟨scene, hget, ht⟩ | ⟨c, ⟨scene, x, hget, hdown, hx, hdepth⟩, hext⟩
  · exact .single (.sceneJump hget ht)
  · have hfirst := CallStep.sceneChild hget hdown hx
    rcases hdepth with ⟨hall, hpen⟩ | ⟨himm, rfl⟩
    · rw [hall] at hfirst
      exact ((Relation.ReflTransGen.single hfirst).trans (penetrates_calls hpen)).tail
        (extendsFrom_calls nofun hext)
    · rw [himm] at hfirst
      exact (Relation.ReflTransGen.single hfirst).tail (extendsFrom_calls nofun hext)

/-- Below an enum jump all budgets are unbounded, and every activation lies in
the penetrable subtree of an ENUM node that was pulled in. -/
theorem calls_below_jump {e : CategoryId} {a : Activation}
    (h : Relation.ReflTransGen (CallStep tree sceneId) (.view e none) a) :
    ∃ c e', a = .view c none ∧ Relation.ReflTransGen (Pulls tree) e e' ∧
      Relation.ReflTransGen (Penetrates tree) e' c := by
  induction h with
  | refl => exact ⟨e, e, rfl, .refl, .refl⟩
  | tail _ hstep ih =>
      obtain ⟨c, e', rfl, hpulls, hpen⟩ := ih
      cases hstep with
      | child hget _ hp _ hx =>
          exact ⟨_, e', rfl, hpulls, hpen.tail ⟨_, hget, hp, hx⟩⟩
      | jump hget _ hexp ht =>
          exact ⟨_, _, rfl, hpulls.tail ⟨c, hpen, _, hget, hexp, ht⟩, .refl⟩

/-- A mode that searches down has a proper search depth. -/
theorem searchDepth_of_searchesDown (mode : Mode)
    (h : mode.props.searchesDown = true) :
    mode.props.searchDepth = .all ∨ mode.props.searchDepth = .immediate := by
  cases mode <;> simp [Mode.props] at h ⊢

/-- An activation in the scene's own region, before any enum jump. -/
def OwnRegion (tree : CategoryTree) (sceneId : CategoryId) (a : Activation) : Prop :=
  ∃ scene x, tree.categories.get? sceneId = some scene ∧
    scene.mode.props.searchesDown = true ∧ x ∈ scene.childIds ∧
    ((∃ c, scene.mode.props.searchDepth = .all ∧
        Relation.ReflTransGen (Penetrates tree) x c ∧ a = .view c none) ∨
      scene.mode.props.searchDepth = .immediate ∧ a = .view x (some 1))

/-- An activation below an ENUM node that the scene has pulled in. -/
def PulledRegion (tree : CategoryTree) (sceneId : CategoryId) (a : Activation) :
    Prop :=
  ∃ e e' c, PulledBy tree sceneId e ∧ Relation.ReflTransGen (Pulls tree) e e' ∧
    Relation.ReflTransGen (Penetrates tree) e' c ∧ a = .view c none

theorem OwnRegion.searched {k : CategoryId} {budget : Option Nat}
    (h : OwnRegion tree sceneId (.view k budget)) : Searched tree sceneId k := by
  obtain ⟨scene, x, hget, hdown, hx, ⟨c, hall, hpen, heq⟩ | ⟨himm, heq⟩⟩ := h
  · cases heq
    exact ⟨scene, x, hget, hdown, hx, Or.inl ⟨hall, hpen⟩⟩
  · cases heq
    exact ⟨scene, k, hget, hdown, hx, Or.inr ⟨himm, rfl⟩⟩

/-- Where an activation of the search can lie. -/
theorem calls_from_scope {a : Activation}
    (h : Relation.ReflTransGen (CallStep tree sceneId) .scope a) :
    a = .scope ∨ OwnRegion tree sceneId a ∨ PulledRegion tree sceneId a := by
  induction h with
  | refl => exact Or.inl rfl
  | tail _ hstep ih =>
      right
      cases hstep with
      | @sceneChild scene x hget hdown hx =>
          left
          refine ⟨scene, x, hget, hdown, hx, ?_⟩
          rcases searchDepth_of_searchesDown _ hdown with hall | himm
          · left
            exact ⟨x, hall, .refl, by rw [hall]; rfl⟩
          · right
            exact ⟨himm, by rw [himm]; rfl⟩
      | @sceneJump scene t hget ht =>
          right
          exact ⟨t, t, t, Or.inl ⟨scene, hget, ht⟩, .refl, .refl, rfl⟩
      | @child k x c budget hget hb hpen hnext hx =>
          rcases ih with h | hown | ⟨e, e', c', hby, hpulls, hp, heq⟩
          · cases h
          · obtain ⟨scene, y, hs, hdown, hy, ⟨c', hall, hp, heq⟩ | ⟨himm, heq⟩⟩ := hown
            · cases heq
              left
              exact ⟨scene, y, hs, hdown, hy, Or.inl
                ⟨x, hall, hp.tail ⟨c, hget, hpen, hx⟩, rfl⟩⟩
            · cases heq
              exact absurd rfl hnext
          · cases heq
            right
            exact ⟨e, e', x, hby, hpulls, hp.tail ⟨c, hget, hpen, hx⟩, rfl⟩
      | @jump k t c budget hget hb hexp ht =>
          right
          rcases ih with h | hown | ⟨e, e', c', hby, hpulls, hp, heq⟩
          · cases h
          · have hby : PulledBy tree sceneId t :=
              Or.inr ⟨k, hown.searched, c, hget, hexp, ht⟩
            exact ⟨t, t, t, hby, .refl, .refl, rfl⟩
          · cases heq
            exact ⟨e, t, t, hby, hpulls.tail ⟨k, hp, c, hget, hexp, ht⟩, .refl, rfl⟩

/-- An enum jump that the search makes lands on a node that was pulled in. -/
theorem pulledBy_of_jump {k t : CategoryId} {budget : Option Nat}
    (hreach : Relation.ReflTransGen (CallStep tree sceneId) .scope (.view k budget))
    (hext : ExtendsFrom tree k t) :
    ∃ e, PulledBy tree sceneId e ∧ Relation.ReflTransGen (Pulls tree) e t := by
  rcases calls_from_scope hreach with h | hown | ⟨e, e', c, hby, hpulls, hp, heq⟩
  · cases h
  · exact ⟨t, Or.inr ⟨k, hown.searched, hext⟩, .refl⟩
  · cases heq
    exact ⟨e, hby, hpulls.tail ⟨k, hp, hext⟩⟩

/-- A call path without enum jumps is a path of child edges. -/
theorem childOf_or_jump {k : CategoryId} {budget : Option Nat} {a : Activation}
    (h : Relation.TransGen (CallStep tree sceneId) (.view k budget) a) :
    (∃ x budget', a = .view x budget' ∧
      Relation.TransGen (ChildOf tree.categories) k x) ∨
    ∃ c budget' t,
      Relation.ReflTransGen (CallStep tree sceneId) (.view k budget) (.view c budget') ∧
      budget' ≠ some 0 ∧ ExtendsFrom tree c t ∧
      Relation.ReflTransGen (CallStep tree sceneId) (.view t none) a := by
  induction h with
  | single hstep =>
      cases hstep with
      | child hget _ _ _ hx => exact Or.inl ⟨_, _, rfl, .single ⟨_, hget, hx⟩⟩
      | jump hget hb hexp ht =>
          exact Or.inr ⟨_, _, _, .refl, hb, ⟨_, hget, hexp, ht⟩, .refl⟩
  | tail hpath hstep ih =>
      rcases ih with ⟨x, b', rfl, hchild⟩ | ⟨c, b', t, hc, hb, hext, hrest⟩
      · cases hstep with
        | child hget _ _ _ hx =>
            exact Or.inl ⟨_, _, rfl, hchild.tail ⟨_, hget, hx⟩⟩
        | jump hget hb hexp ht =>
            exact Or.inr ⟨_, _, _, hpath.to_reflTransGen, hb, ⟨_, hget, hexp, ht⟩, .refl⟩
      · exact Or.inr ⟨c, b', t, hc, hb, hext, hrest.tail hstep⟩

/-- **A revisited activation comes from a loop of `extends` pointers.** -/
theorem neverRevisits_of_noExtendsLoop (hinv : TreeInvariant tree)
    (h : NoExtendsLoop tree sceneId) : NeverRevisits tree sceneId := by
  intro a hreach hcycle
  cases a with
  | scope =>
      rcases Relation.TransGen.tail'_iff.mp hcycle with ⟨b, _, hstep⟩
      cases hstep
  | view k budget =>
      rcases childOf_or_jump hcycle with ⟨x, b', heq, hchild⟩ | ⟨c, b', t, hc, hb, hext, hrest⟩
      · cases heq
        exact no_child_cycle hinv k hchild
      · -- close the loop at the target of the jump: `t` reaches `c`, which extends `t`
        obtain ⟨e, hby, hpulls⟩ := pulledBy_of_jump (hreach.trans hc) hext
        obtain ⟨c', e', heq, hpulls', hpen⟩ := calls_below_jump (hrest.trans hc)
        cases heq
        exact h e t hby hpulls (Relation.TransGen.tail' hpulls' ⟨c, hpen, hext⟩)

/-- A loop of `extends` pointers is a loop of activations. -/
theorem noExtendsLoop_of_neverRevisits (h : NeverRevisits tree sceneId) :
    NoExtendsLoop tree sceneId := by
  intro e e' hby hpulls hloop
  exact h (.view e' none) ((pulledBy_calls hby).trans (pulls_star_calls hpulls))
    (pulls_plus_calls hloop)

end Loops

/-- **On an accepted scene list the search from `x` ends, and meets no
activation twice on a call path, exactly when no ENUM node it pulls in pulls
itself in again.** -/
theorem scope_terminates_iff
    {rootId : CategoryId} {entries : List CategoryEntry} {tree : CategoryTree}
    (hload : buildTree rootId entries = .ok tree)
    {x : CategoryId} {c : Category} (hget : tree.get x = .ok c)
    (hmode : c.mode ≠ .enum) :
    Terminates tree x ∧ NeverRevisits tree x ↔ NoExtendsLoop tree x := by
  have hinv := treeInvariant_of_buildTree hload
  have hc := (CategoryTree.get_eq_ok_iff tree x c).mp hget
  constructor
  · intro h
    exact noExtendsLoop_of_neverRevisits h.2
  · intro h
    have hnever := neverRevisits_of_noExtendsLoop hinv h
    refine ⟨?_, hnever⟩
    rw [terminates_iff_depthWithin hinv hc hmode,
      exists_depthWithin_iff (reachable_finite hinv x)]
    exact hnever

/-- An ENUM node `e` below the root, and `x` elsewhere that extends it. -/
def sideEntries : List CategoryEntry :=
  [{ id := "root", name := "root" },
    { id := "e", name := "e", parentId := some "root", mode := .enum },
    { id := "x", name := "x", parentId := some "root",
      extendsEnumCategory := some "e" }]

/-- The same nodes with `x` below the node it extends. -/
def loopEntries : List CategoryEntry :=
  [{ id := "root", name := "root" },
    { id := "e", name := "e", parentId := some "root", mode := .enum },
    { id := "x", name := "x", parentId := some "e",
      extendsEnumCategory := some "e" }]

def sideTree : CategoryTree :=
  { rootId := "root"
    categories := ⟨[
      ("root", { id := "root", name := "root", childIds := ["e", "x"] }),
      ("e", { id := "e", name := "e", parentId := some "root", mode := .enum }),
      ("x", { id := "x", name := "x", parentId := some "root",
              extendsEnumCategory := some "e" })], by decide⟩ }

def loopTree : CategoryTree :=
  { rootId := "root"
    categories := ⟨[
      ("root", { id := "root", name := "root", childIds := ["e"] }),
      ("e", { id := "e", name := "e", parentId := some "root", mode := .enum,
              childIds := ["x"] }),
      ("x", { id := "x", name := "x", parentId := some "e",
              extendsEnumCategory := some "e" })], by decide⟩ }

theorem no_pulls_sideTree (e' : CategoryId) : ¬ Pulls sideTree "e" e' := by
  rintro ⟨c, hpen, cat, hget, hexp, hext⟩
  have hc : c = "e" := by
    rcases Relation.ReflTransGen.cases_head hpen with h | ⟨d, ⟨cat', hget', _, hd⟩, _⟩
    · exact h.symm
    · have hcat : cat' = { id := "e", name := "e", parentId := some "root", mode := .enum } :=
        Option.some.inj (hget'.symm.trans rfl)
      rw [hcat] at hd
      cases hd
  rw [hc] at hget
  have hcat : cat = { id := "e", name := "e", parentId := some "root", mode := .enum } :=
    Option.some.inj (hget.symm.trans rfl)
  rw [hcat] at hext
  cases hext

theorem scope_terminates_sideTree :
    buildTree "root" sideEntries = .ok sideTree ∧
      Terminates sideTree "x" ∧ NeverRevisits sideTree "x" := by
  have hload : buildTree "root" sideEntries = .ok sideTree := by decide
  refine ⟨hload, (scope_terminates_iff (x := "x") hload rfl (by decide)).mpr ?_⟩
  intro e e' hby hpulls hloop
  have he : e = "e" := by
    rcases hby with ⟨scene, hget, hext⟩ | ⟨c, ⟨scene, y, hget, _, hy, _⟩, _⟩
    · have hscene := Option.some.inj (hget.symm.trans (b := some _) rfl)
      rw [hscene] at hext
      exact (Option.some.inj hext).symm
    · have hscene := Option.some.inj (hget.symm.trans (b := some _) rfl)
      rw [hscene] at hy
      cases hy
  subst he
  have he' : e' = "e" := by
    rcases Relation.ReflTransGen.cases_head hpulls with h | ⟨d, h, _⟩
    · exact h.symm
    · exact (no_pulls_sideTree d h).elim
  subst he'
  obtain ⟨d, h, _⟩ := Relation.TransGen.head'_iff.mp hloop
  exact no_pulls_sideTree d h

/-- The loader accepts a category below the ENUM node it extends; the search
from it runs round that loop. -/
theorem scope_loops_loopTree :
    buildTree "root" loopEntries = .ok loopTree ∧
      (∃ c, loopTree.get "x" = .ok c ∧ c.mode ≠ .enum) ∧
      (∀ fuel, scope loopTree fuel "x" = .error .outOfFuel) ∧
      ¬ Terminates loopTree "x" ∧ ¬ NeverRevisits loopTree "x" := by
  have hload : buildTree "root" loopEntries = .ok loopTree := by decide
  have hinv := treeInvariant_of_buildTree hload
  have hx : loopTree.categories.get? "x" =
      some { id := "x", name := "x", parentId := some "e",
             extendsEnumCategory := some "e" } := rfl
  have hpulls : Pulls loopTree "e" "e" := by
    refine ⟨"x", .single ⟨_, rfl, rfl, ?_⟩, _, hx, ?_, rfl⟩
    · exact List.mem_singleton.mpr rfl
    · exact Or.inl rfl
  have hnever : ¬ NeverRevisits loopTree "x" := by
    intro h
    exact noExtendsLoop_of_neverRevisits h "e" "e" (Or.inl ⟨_, hx, rfl⟩) .refl
      (.single hpulls)
  have hterm : ¬ Terminates loopTree "x" := by
    rw [terminates_iff_depthWithin hinv hx (by decide),
      exists_depthWithin_iff (reachable_finite hinv "x")]
    exact hnever
  refine ⟨hload, ⟨_, rfl, by decide⟩, ?_, hterm, hnever⟩
  intro fuel
  by_contra h
  exact hterm ⟨fuel, h⟩

end Core
end Sandroid
