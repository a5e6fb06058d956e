import Mathlib.Data.Set.Finite.Lattice
import Mathlib.Logic.Relation
import Mathlib.Order.WellFounded
import Mathlib.Data.Fintype.Order

/-!
# Call graphs and recursion depth

`calls a b` says that the activation `a` of a recursive program makes the call
`b`.  `DepthWithin calls n a` says that no call path that starts at `a` has more
than `n` activations, so a program that follows `calls` finishes from `a` within
recursion depth `n`.

When only finitely many activations can be reached from `a`, a finite depth
exists exactly when no reachable activation calls itself again, directly or
through others (`exists_depthWithin_iff`).
-/

namespace Sandroid
namespace Lib

universe u

variable {α : Type u} {calls : α → α → Prop}

/-- Every call path from the given activation has at most `n` activations. -/
def DepthWithin (calls : α → α → Prop) : Nat → α → Prop
  | 0, _ => False
  | n + 1, a => ∀ b, calls a b → DepthWithin calls n b

theorem depthWithin_mono_succ :
    ∀ {n : Nat} {a : α}, DepthWithin calls n a → DepthWithin calls (n + 1) a
  | 0, _, h => h.elim
  | _ + 1, _, h => fun b hb => depthWithin_mono_succ (h b hb)

theorem depthWithin_mono {n m : Nat} (hnm : n ≤ m) {a : α}
    (h : DepthWithin calls n a) : DepthWithin calls m a := by
  induction hnm with
  | refl => exact h
  | step _ ih => exact depthWithin_mono_succ ih

/-- Along a call path of at least one step the depth strictly drops. -/
theorem depthWithin_of_transGen {a b : α} (hab : Relation.TransGen calls a b) :
    ∀ {n : Nat}, DepthWithin calls (n + 1) a → DepthWithin calls n b := by
  induction hab with
  | single h =>
      intro n ha
      exact ha _ h
  | tail _ h ih =>
      intro n ha
      cases n with
      | zero => exact (ih ha).elim
      | succ n => exact depthWithin_mono_succ (ih ha _ h)

/-- An activation on a cycle has no finite depth. -/
theorem not_depthWithin_of_cycle {c : α} (hc : Relation.TransGen calls c c) :
    ∀ n, ¬ DepthWithin calls n c
  | 0 => id
  | n + 1 => fun h =>
      not_depthWithin_of_cycle hc n (depthWithin_of_transGen hc h)

/-- A depth of the caller bounds the depth of everything it reaches. -/
theorem depthWithin_of_reflTransGen {a b : α} {n : Nat}
    (hab : Relation.ReflTransGen calls a b) (h : DepthWithin calls n a) :
    DepthWithin calls n b := by
  rcases Relation.reflTransGen_iff_eq_or_transGen.mp hab with rfl | hab
  · exact h
  · exact depthWithin_of_transGen hab (depthWithin_mono_succ h)

/-- Without a reachable cycle, finitely many activations have a finite depth.
The induction is on the call relation itself, which is well founded there. -/
theorem exists_depthWithin_of_acyclic {a : α}
    (hfin : {x | Relation.ReflTransGen calls a x}.Finite)
    (hacyclic : ∀ c, Relation.ReflTransGen calls a c →
      ¬ Relation.TransGen calls c c) :
    ∃ n, DepthWithin calls n a := by
  classical
  let S := {x // Relation.ReflTransGen calls a x}
  have hS : Finite S := hfin.to_subtype
  let callee : S → S → Prop := fun y x => Relation.TransGen calls x.1 y.1
  have htrans : IsTrans S callee :=
    ⟨fun x y z hxy hyz => Relation.TransGen.trans hyz hxy⟩
  have hirrefl : Std.Irrefl callee :=
    ⟨fun x hx => hacyclic x.1 x.2 hx⟩
  have hwf : WellFounded callee := Finite.wellFounded_of_trans_of_irrefl callee
  have hall : ∀ x : S, ∃ n, DepthWithin calls n x.1 := by
    intro x
    induction x using hwf.induction with
    | h x ih =>
        let bound : S → Nat := fun y =>
          if h : ∃ n, DepthWithin calls n y.1 then h.choose else 0
        obtain ⟨N, hN⟩ := (Set.finite_range bound).bddAbove
        refine ⟨N + 1, ?_⟩
        intro b hb
        have hxb : Relation.ReflTransGen calls a b := x.2.tail hb
        have hex := ih ⟨b, hxb⟩ (Relation.TransGen.single hb)
        have hle : bound ⟨b, hxb⟩ ≤ N := hN (Set.mem_range_self _)
        have hbound : bound ⟨b, hxb⟩ = hex.choose := dif_pos hex
        rw [hbound] at hle
        exact depthWithin_mono hle hex.choose_spec
  exact hall ⟨a, Relation.ReflTransGen.refl⟩

/-- **Finite depth means no reachable cycle.** -/
theorem exists_depthWithin_iff {a : α}
    (hfin : {x | Relation.ReflTransGen calls a x}.Finite) :
    (∃ n, DepthWithin calls n a) ↔
      ∀ c, Relation.ReflTransGen calls a c → ¬ Relation.TransGen calls c c := by
  constructor
  · rintro ⟨n, hn⟩ c hac hc
    exact not_depthWithin_of_cycle hc n (depthWithin_of_reflTransGen hac hn)
  · exact exists_depthWithin_of_acyclic hfin

end Lib
end Sandroid
