import Sandroid.Core.ScopeTermination

/-!
# Category paths as names

`CategoryTree.path_of` walks up the parent pointers and joins the names it meets
with `->`; `resolve_path` splits a path and walks down by names.  On a loaded
tree both describe one relation, `NamedPath`: the names on the way from the root
to a category.

* `resolvePath_eq_ok_iff`, `pathOf_eq_ok`: what the two walks compute;
* `paths_faithful`: they undo each other, as far as the text of the names lets
  the split find the joints again.
-/

namespace Sandroid
namespace Core

open Lib

/-- The text contains `->`. -/
def HasArrow (text : List Char) : Prop :=
  ['-', '>'] <:+: text

section Arrows

theorem splitArrow_arrow (rest : List Char) :
    splitArrow ('-' :: '>' :: rest) = [] :: splitArrow rest := by
  rw [splitArrow]

theorem splitArrow_ne_nil (text : List Char) : splitArrow text ≠ [] := by
  induction text using splitArrow.induct with
  | case1 => simp [splitArrow]
  | case2 rest _ => simp [splitArrow]
  | case3 c rest h heq ih => exact absurd heq ih
  | case4 c rest h part parts heq ih =>
      rw [splitArrow, heq]
      · exact List.cons_ne_nil _ _
      · exact h

/-- A character that does not begin an arrow goes to the first part. -/
theorem splitArrow_cons {c : Char} {text : List Char}
    (h : ¬ ['-', '>'] <+: c :: text) {part : List Char} {parts : List (List Char)}
    (hrest : splitArrow text = part :: parts) :
    splitArrow (c :: text) = (c :: part) :: parts := by
  rw [splitArrow, hrest]
  intro rest hc htext
  apply h
  rw [hc, htext]
  exact ⟨rest, rfl⟩

/-- The first part is the beginning of the text. -/
theorem prefix_of_splitArrow {text part : List Char} {parts : List (List Char)}
    (h : splitArrow text = part :: parts) : part <+: text := by
  induction text using splitArrow.induct generalizing part parts with
  | case1 =>
      rw [splitArrow] at h
      cases h
      exact List.nil_prefix
  | case2 rest _ =>
      rw [splitArrow_arrow] at h
      cases h
      exact List.nil_prefix
  | case3 c rest h heq ih => exact absurd heq (splitArrow_ne_nil rest)
  | case4 c rest hc part' parts' heq ih =>
      rw [splitArrow, heq] at h
      · cases h
        exact List.prefix_cons_inj c |>.mpr (ih heq)
      · exact hc

theorem splitArrow_of_not_hasArrow {text : List Char} (h : ¬ HasArrow text) :
    splitArrow text = [text] := by
  induction text with
  | nil => rfl
  | cons c text ih =>
      refine splitArrow_cons (fun hpre => h hpre.isInfix) (ih ?_)
      exact fun hin => h (hin.trans (List.suffix_cons c text).isInfix)

/-- A joint is found at its place: the text before it neither contains an arrow
nor begins one that the joint completes. -/
theorem splitArrow_joint {text : List Char} (h : ¬ HasArrow text) (rest : List Char) :
    splitArrow (text ++ '-' :: '>' :: rest) = text :: splitArrow rest := by
  induction text with
  | nil => exact splitArrow_arrow rest
  | cons c text ih =>
      refine splitArrow_cons ?_ (ih ?_)
      · cases text with
        | nil =>
            intro hpre
            simp at hpre
        | cons d text =>
            intro hpre
            obtain ⟨hc, hnext⟩ := List.cons_prefix_cons.mp hpre
            obtain ⟨hd, -⟩ := List.cons_prefix_cons.mp hnext
            rw [← hc, ← hd] at h
            exact h ⟨[], text, rfl⟩
      · exact fun hin => h (hin.trans (List.suffix_cons c text).isInfix)

theorem not_hasArrow_of_mem_splitArrow {text part : List Char} (h : part ∈ splitArrow text) :
    ¬ HasArrow part := by
  induction text using splitArrow.induct generalizing part with
  | case1 =>
      rw [splitArrow, List.mem_singleton] at h
      rw [h]
      exact fun hin => by simpa [HasArrow] using hin.length_le
  | case2 rest ih =>
      rw [splitArrow_arrow, List.mem_cons] at h
      rcases h with rfl | h
      · exact fun hin => by simpa [HasArrow] using hin.length_le
      · exact ih h
  | case3 c rest h heq ih => exact absurd heq (splitArrow_ne_nil rest)
  | case4 c rest hc part' parts' heq ih =>
      rw [splitArrow, heq, List.mem_cons] at h
      · rcases h with rfl | h
        · intro hin
          rcases List.infix_cons_iff.mp hin with hpre | hin
          · -- an arrow across the boundary would have been found
            obtain ⟨l, hl⟩ := (List.cons_prefix_cons.mp hpre).2.trans (prefix_of_splitArrow heq)
            exact hc l (List.cons_prefix_cons.mp hpre).1.symm hl.symm
          · exact ih (heq ▸ List.mem_cons_self) hin
        · exact ih (heq ▸ List.mem_cons_of_mem _ h)
      · exact hc

theorem splitArrow_intercalate : ∀ {names : List String}, names ≠ [] →
    (∀ name, name ∈ names → ¬ HasArrow name.toList) →
      splitArrow ("->".intercalate names).toList = names.map String.toList
  | [], h, _ => absurd rfl h
  | [name], _, harrow => by
      rw [String.intercalate_singleton, splitArrow_of_not_hasArrow (harrow name (by simp))]
      rfl
  | name :: next :: names, _, harrow => by
      rw [List.forall_mem_cons] at harrow
      have ih := splitArrow_intercalate (List.cons_ne_nil next names) harrow.2
      rw [String.intercalate_cons_cons, String.toList_append, String.toList_append,
        List.append_assoc]
      show splitArrow (name.toList ++ '-' :: '>' :: ("->".intercalate (next :: names)).toList) = _
      rw [splitArrow_joint harrow.1, ih]
      rfl

/-- Joined names are found again when none of them is empty or contains an arrow. -/
theorem pathParts_intercalate {names : List String} (hne : names ≠ [])
    (h : ∀ name, name ∈ names → name ≠ "" ∧ ¬ HasArrow name.toList) :
    pathParts ("->".intercalate names) = names := by
  rw [pathParts, splitArrow_intercalate hne (fun name hname => (h name hname).2),
    List.filter_eq_self.mpr, List.map_map]
  · simp
  · intro part hpart
    obtain ⟨name, hname, rfl⟩ := List.mem_map.mp hpart
    simpa using (h name hname).1

/-- The parts of a path are not empty and contain no arrow. -/
theorem pathParts_clean {path : CategoryPath} {name : String} (h : name ∈ pathParts path) :
    name ≠ "" ∧ ¬ HasArrow name.toList := by
  obtain ⟨part, hpart, rfl⟩ := List.mem_map.mp h
  obtain ⟨hmem, hne⟩ := List.mem_filter.mp hpart
  refine ⟨?_, ?_⟩
  · simpa using hne
  · rw [String.toList_ofList]
    exact not_hasArrow_of_mem_splitArrow hmem

end Arrows

namespace CategoryTree

/-- The `while cur is not None` loop of `path_of`. -/
def pathOfLoop (tree : CategoryTree) :
    Nat → List String → Option CategoryId → Except Stop (List String)
  | _, parts, none => .ok parts
  | 0, _, some _ => .error .outOfFuel
  | rounds + 1, parts, some cur => do
      let node ← tree.fetch cur
      tree.pathOfLoop rounds (parts ++ [node.name]) node.parentId

/-- Every round visits another category, so `size` rounds do. -/
def pathOf (tree : CategoryTree) (categoryId : CategoryId) : Except Stop CategoryPath := do
  let parts ← tree.pathOfLoop tree.categories.size [] (some categoryId)
  .ok ("->".intercalate parts.reverse)

end CategoryTree

/-- The names on the way from the root to a category. -/
inductive NamedPath (tree : CategoryTree) : List String → Category → Prop
  | root {r : Category} :
      tree.categories.get? tree.rootId = some r → NamedPath tree [r.name] r
  | child {names : List String} {p c : Category} {x : CategoryId} :
      NamedPath tree names p → x ∈ p.childIds → tree.categories.get? x = some c →
      NamedPath tree (names ++ [c.name]) c

section Upwards

variable {tree : CategoryTree} (hinv : TreeInvariant tree)
include hinv

theorem NamedPath.get? {names : List String} {c : Category} (h : NamedPath tree names c) :
    tree.categories.get? c.id = some c := by
  cases h with
  | root hget => rw [hinv.keyedById hget, hget]
  | child _ _ hget => rw [hinv.keyedById hget, hget]

theorem NamedPath.childOf {names : List String} {p c : Category} {x : CategoryId}
    (h : NamedPath tree names p) (hx : x ∈ p.childIds)
    (hget : tree.categories.get? x = some c) : ChildOf tree.categories p.id c.id := by
  rw [hinv.keyedById hget]
  exact ⟨p, h.get? hinv, hx⟩

theorem exists_namedPath {k : CategoryId} {c : Category}
    (hget : tree.categories.get? k = some c) : ∃ names, NamedPath tree names c := by
  have hreach := hinv.reached ((Dict.mem_keys_iff _ k).mpr ⟨c, hget⟩)
  induction hreach generalizing c with
  | refl => exact ⟨_, .root hget⟩
  | tail _ hstep ih =>
      obtain ⟨p, hp, hx⟩ := hstep
      obtain ⟨names, hnames⟩ := ih hp
      exact ⟨_, hnames.child hx hget⟩

/-- The way from the root visits no category twice. -/
theorem NamedPath.length_le {names : List String} {c : Category} (h : NamedPath tree names c) :
    names.length ≤ tree.categories.size := by
  have hids : ∃ ids : List CategoryId, ids.length = names.length ∧ ids.Nodup ∧
      ids ⊆ tree.categories.keys ∧
      ∀ id, id ∈ ids → Relation.ReflTransGen (ChildOf tree.categories) id c.id := by
    induction h with
    | @root r hget =>
        refine ⟨[r.id], rfl, List.nodup_singleton _, ?_, ?_⟩
        · intro id hid
          rw [List.mem_singleton.mp hid, Dict.mem_keys_iff]
          exact ⟨r, (NamedPath.root hget).get? hinv⟩
        · intro id hid
          rw [List.mem_singleton.mp hid]
    | @child names p c x hp hx hget ih =>
        obtain ⟨ids, hlen, hnodup, hkeys, hreach⟩ := ih
        have hstep := hp.childOf hinv hx hget
        refine ⟨ids ++ [c.id], by simp [hlen], ?_, ?_, ?_⟩
        · refine List.nodup_append.mpr ⟨hnodup, List.nodup_singleton _, ?_⟩
          rintro id hid _ hc rfl
          rw [List.mem_singleton.mp hc] at hid
          exact no_child_cycle hinv c.id (.tail' (hreach c.id hid) hstep)
        · intro id hid
          rcases List.mem_append.mp hid with hid | hid
          · exact hkeys hid
          · rw [List.mem_singleton.mp hid, Dict.mem_keys_iff]
            exact ⟨c, (hp.child hx hget).get? hinv⟩
        · intro id hid
          rcases List.mem_append.mp hid with hid | hid
          · exact (hreach id hid).tail hstep
          · rw [List.mem_singleton.mp hid]
  obtain ⟨ids, hlen, hnodup, hkeys, -⟩ := hids
  rw [← hlen, ← Dict.length_keys]
  exact (List.subperm_of_subset hnodup hkeys).length_le

/-- The upward walk collects the names in reverse. -/
theorem pathOfLoop_eq_ok {names : List String} {c : Category} (h : NamedPath tree names c) :
    ∀ {rounds : Nat} (parts : List String), names.length ≤ rounds →
      tree.pathOfLoop rounds parts (some c.id) = .ok (parts ++ names.reverse) := by
  have hstep {c : Category} (hget : tree.categories.get? c.id = some c) (rounds : Nat)
      (parts : List String) : tree.pathOfLoop (rounds + 1) parts (some c.id) =
        tree.pathOfLoop rounds (parts ++ [c.name]) c.parentId := by
    rw [CategoryTree.pathOfLoop, CategoryTree.fetch_eq_ok hget]
    rfl
  induction h with
  | @root r hget =>
      intro rounds parts hrounds
      have hself := (NamedPath.root hget).get? hinv
      have hroot : r.parentId = none := by
        rw [Option.eq_none_iff_forall_ne_some]
        intro p hp
        exact hinv.forest.rootless ((hinv.parentIff hget p).mp hp)
      obtain ⟨rounds, rfl⟩ := Nat.exists_eq_add_of_le' hrounds
      rw [List.length_singleton, hstep hself, hroot]
      cases rounds <;> rfl
  | @child names p c x hp hx hget ih =>
      intro rounds parts hrounds
      have hself := (hp.child hx hget).get? hinv
      have hparent : c.parentId = some p.id :=
        (hinv.parentIff hself p.id).mpr (hp.childOf hinv hx hget)
      rw [List.length_append, List.length_singleton] at hrounds
      obtain ⟨rounds, rfl⟩ := Nat.exists_eq_add_of_le' (Nat.le_of_add_left_le hrounds)
      rw [hstep hself, hparent, ih _ (by omega)]
      simp

/-- `path_of` returns the joined names from the root. -/
theorem pathOf_eq_ok {names : List String} {c : Category} (h : NamedPath tree names c) :
    tree.pathOf c.id = .ok ("->".intercalate names) := by
  rw [CategoryTree.pathOf, pathOfLoop_eq_ok hinv h [] (h.length_le hinv)]
  simp [bind, Except.bind]

/-- The last name of a path, and what comes before it. -/
theorem NamedPath.last {names : List String} {c : Category} (h : NamedPath tree names c) :
    ∃ l, names = l ++ [c.name] ∧
      (l = [] ∧ c.id = tree.rootId ∨ ∃ p, NamedPath tree l p ∧ c.id ∈ p.childIds) := by
  cases h with
  | root hget => exact ⟨[], rfl, Or.inl ⟨rfl, hinv.keyedById hget⟩⟩
  | @child names p c x hp hx hget =>
      refine ⟨names, rfl, Or.inr ⟨p, hp, ?_⟩⟩
      rw [hinv.keyedById hget]
      exact hx

theorem not_namedPath_nil {c : Category} : ¬ NamedPath tree [] c := by
  intro h
  obtain ⟨l, heq, -⟩ := h.last hinv
  simp at heq

/-- Every beginning of a path leads somewhere. -/
theorem NamedPath.beginning {l : List String} (hl : l ≠ []) :
    ∀ (m : List String) {c : Category}, NamedPath tree (l ++ m) c → ∃ d, NamedPath tree l d := by
  intro m
  induction m using List.reverseRecOn with
  | nil =>
      intro c h
      rw [List.append_nil] at h
      exact ⟨c, h⟩
  | append_singleton m n ih =>
      intro c h
      obtain ⟨l', heq, hcase⟩ := h.last hinv
      rw [← List.append_assoc] at heq
      obtain ⟨rfl, -⟩ := List.append_inj' heq rfl
      rcases hcase with ⟨hnil, -⟩ | ⟨p, hp, -⟩
      · exact absurd (List.append_eq_nil_iff.mp hnil).1 hl
      · exact ih hp

/-- Looking up listed children one by one. -/
theorem mapM_get_eq_ok :
    ∀ {ids : List CategoryId}, (∀ x, x ∈ ids → x ∈ tree.categories.keys) →
      ∃ cs, ids.mapM tree.get = .ok cs ∧ cs.map Category.id = ids ∧
        ∀ d, d ∈ cs → tree.categories.get? d.id = some d
  | [], _ => ⟨[], rfl, rfl, fun _ h => absurd h List.not_mem_nil⟩
  | x :: ids, h => by
      rw [List.forall_mem_cons] at h
      obtain ⟨d, hd⟩ := (Dict.mem_keys_iff _ x).mp h.1
      have hid := hinv.keyedById hd
      obtain ⟨cs, hcs, hids, hget⟩ := mapM_get_eq_ok h.2
      refine ⟨d :: cs, ?_, ?_, ?_⟩
      · rw [List.mapM_cons, (CategoryTree.get_eq_ok_iff tree x d).mpr hd, hcs]
        rfl
      · rw [List.map_cons, hid, hids]
      · rw [List.forall_mem_cons, hid]
        exact ⟨hd, hget⟩

end Upwards

section Downwards

variable {rootId : CategoryId} {entries : List CategoryEntry} {tree : CategoryTree}
variable (hload : buildTree rootId entries = .ok tree)
include hload

/-- Siblings with one name are one category. -/
theorem sibling_eq {p c d : Category} (hc : c.id ∈ p.childIds) (hd : d.id ∈ p.childIds)
    (hp : tree.categories.get? p.id = some p) (hgc : tree.categories.get? c.id = some c)
    (hgd : tree.categories.get? d.id = some d) (hname : c.name = d.name) : c = d := by
  have hw := wired_of_buildTree hload
  obtain ⟨hwf, -, -⟩ := (buildTree_eq_ok_iff tree).mp hload
  obtain ⟨e, he, heid, rfl⟩ := (hw.get?_eq_some_iff c.id c).mp hgc
  obtain ⟨f, hf, hfid, rfl⟩ := (hw.get?_eq_some_iff d.id d).mp hgd
  have hparent {e : CategoryEntry} (he : e ∈ entries)
      (hchild : (wiredCategory entries e).id ∈ p.childIds) : e.parentId = some p.id := by
    obtain ⟨g, hg, hid, hgp⟩ := (hw.childOf_iff p.id e.id).mp ⟨p, hp, hchild⟩
    rw [← eq_of_id_eq hw.idsDistinct hg he hid]
    exact hgp
  have hpe := hparent he hc
  have hpf := hparent hf hd
  rw [hwf.siblingNames e f he hf (by rw [hpe]; exact nofun) (hpe.trans hpf.symm) hname]

/-- The names of a path determine the category. -/
theorem namedPath_unique (names : List String) :
    ∀ {c d : Category}, NamedPath tree names c → NamedPath tree names d → c = d := by
  have hinv := treeInvariant_of_buildTree hload
  induction names using List.reverseRecOn with
  | nil =>
      intro c d hc
      exact absurd hc (not_namedPath_nil hinv)
  | append_singleton l n ih =>
      intro c d hc hd
      have hgc := hc.get? hinv
      have hgd := hd.get? hinv
      obtain ⟨l₁, heq₁, hcase₁⟩ := hc.last hinv
      obtain ⟨l₂, heq₂, hcase₂⟩ := hd.last hinv
      obtain ⟨rfl, hn₁⟩ := List.append_inj' heq₁ rfl
      obtain ⟨rfl, hn₂⟩ := List.append_inj' heq₂ rfl
      have hname : c.name = d.name := by simpa using hn₁.symm.trans hn₂
      rcases hcase₁ with ⟨hnil, hrc⟩ | ⟨p, hp, hcp⟩
      · rcases hcase₂ with ⟨-, hrd⟩ | ⟨q, hq, -⟩
        · rw [hrc] at hgc
          rw [hrd, hgc, Option.some.injEq] at hgd
          exact hgd
        · rw [hnil] at hq
          exact absurd hq (not_namedPath_nil hinv)
      · rcases hcase₂ with ⟨hnil, -⟩ | ⟨q, hq, hdq⟩
        · rw [hnil] at hp
          exact absurd hp (not_namedPath_nil hinv)
        · rw [← ih hp hq] at hdq
          exact sibling_eq hload hcp hdq (hp.get? hinv) hgc hgd hname

/-- The children with a name: none, or the one that the name leads to. -/
theorem children_named {names : List String} {cur : Category} (h : NamedPath tree names cur)
    (n : String) :
    ∃ cs, cur.childIds.mapM tree.get = .ok cs ∧
      ((cs.filter (fun c => c.name = n) = [] ∧ ∀ d, ¬ NamedPath tree (names ++ [n]) d) ∨
        ∃ d, cs.filter (fun c => c.name = n) = [d] ∧ NamedPath tree (names ++ [n]) d) := by
  have hinv := treeInvariant_of_buildTree hload
  have hcur := h.get? hinv
  obtain ⟨cs, hcs, hids, hget⟩ :=
    mapM_get_eq_ok hinv (fun x hx => hinv.forest.listed ⟨cur, hcur, hx⟩)
  have hchild : ∀ d, d ∈ cs → d.id ∈ cur.childIds := by
    intro d hd
    rw [← hids]
    exact List.mem_map_of_mem hd
  refine ⟨cs, hcs, ?_⟩
  have hnodup : (cs.filter (fun c => c.name = n)).Nodup := by
    refine List.Nodup.filter _ (List.Nodup.of_map Category.id ?_)
    rw [hids]
    exact hinv.forest.childNodup hcur
  have hnamed : ∀ d, d ∈ cs.filter (fun c => c.name = n) ↔ NamedPath tree (names ++ [n]) d := by
    intro d
    rw [List.mem_filter, decide_eq_true_eq]
    constructor
    · rintro ⟨hd, rfl⟩
      exact h.child (hchild d hd) (hget d hd)
    · intro hd
      obtain ⟨l, heq, hcase⟩ := hd.last hinv
      obtain ⟨rfl, hn⟩ := List.append_inj' heq rfl
      rcases hcase with ⟨hnil, -⟩ | ⟨p, hp, hdp⟩
      · rw [hnil] at h
        exact absurd h (not_namedPath_nil hinv)
      · rw [namedPath_unique hload _ hp h, ← hids] at hdp
        obtain ⟨d', hd', hid⟩ := List.mem_map.mp hdp
        have hsame := hget d' hd'
        rw [hid, hd.get? hinv, Option.some.injEq] at hsame
        subst hsame
        exact ⟨hd', by simpa using hn.symm⟩
  cases hfilter : cs.filter (fun c => c.name = n) with
  | nil =>
      refine Or.inl ⟨rfl, fun d hd => ?_⟩
      rw [← hnamed, hfilter] at hd
      exact absurd hd List.not_mem_nil
  | cons d rest =>
      rw [hfilter] at hnodup hnamed
      have hd := (hnamed d).mp List.mem_cons_self
      refine Or.inr ⟨d, ?_, hd⟩
      cases rest with
      | nil => rfl
      | cons d' rest =>
          have hd' := (hnamed d').mp (List.mem_cons_of_mem _ List.mem_cons_self)
          rw [namedPath_unique hload _ hd hd'] at hnodup
          exact absurd List.mem_cons_self (List.nodup_cons.mp hnodup).1

/-- The downward walk from a category follows the names. -/
theorem resolveLoop_eq_ok_iff (c : Category) :
    ∀ (rest : List String) {names : List String} {cur : Category}, NamedPath tree names cur →
      (tree.resolveLoop cur rest = .ok c ↔ NamedPath tree (names ++ rest) c)
  | [], names, cur, h => by
      rw [CategoryTree.resolveLoop, Except.ok.injEq, List.append_nil]
      constructor
      · intro heq
        exact heq ▸ h
      · intro hc
        exact namedPath_unique hload _ h hc
  | n :: rest, names, cur, h => by
      have hinv := treeInvariant_of_buildTree hload
      obtain ⟨cs, hcs, ⟨hnone, hnot⟩ | ⟨d, hone, hd⟩⟩ := children_named hload h n
      · rw [CategoryTree.resolveLoop, hcs]
        simp only [bind, Except.bind, hnone]
        constructor
        · intro herr
          cases herr
        · intro hc
          rw [List.append_cons] at hc
          obtain ⟨d, hd⟩ := NamedPath.beginning hinv (by simp) rest hc
          exact absurd hd (hnot d)
      · rw [CategoryTree.resolveLoop, hcs]
        simp only [bind, Except.bind, hone]
        rw [resolveLoop_eq_ok_iff c rest hd, ← List.append_cons]

/-- `resolve_path` follows the non-empty parts of a path. -/
theorem resolvePath_eq_ok_iff (path : CategoryPath) (c : Category) :
    tree.resolvePath path = .ok c ↔ NamedPath tree (pathParts path) c := by
  have hinv := treeInvariant_of_buildTree hload
  rw [CategoryTree.resolvePath]
  cases hparts : pathParts path with
  | nil =>
      refine ⟨fun h => (by cases h), fun h => absurd h (not_namedPath_nil hinv)⟩
  | cons first names =>
      obtain ⟨r, hr⟩ := (Dict.mem_keys_iff _ _).mp hinv.forest.rootListed
      rw [(CategoryTree.get_eq_ok_iff tree _ r).mpr hr]
      simp only [bind, Except.bind]
      split_ifs with hname
      · refine ⟨fun h => (by cases h), fun h => ?_⟩
        obtain ⟨d, hd⟩ :=
          NamedPath.beginning hinv (List.cons_ne_nil first []) names h
        have hget := hd.get? hinv
        obtain ⟨l, heq, hcase⟩ := hd.last hinv
        obtain ⟨hl, hn⟩ := List.append_inj' (show [] ++ [first] = l ++ [d.name] from heq) rfl
        rcases hcase with ⟨-, hroot⟩ | ⟨p, hp, -⟩
        · rw [hroot, hr, Option.some.injEq] at hget
          subst hget
          exact absurd (by simpa using hn) hname
        · rw [← hl] at hp
          exact absurd hp (not_namedPath_nil hinv)
      · rw [not_not] at hname
        subst hname
        exact resolveLoop_eq_ok_iff hload c names (.root hr)

/-- **Category paths are a faithful naming.**  `path_of` ends on every category;
a path that resolves is, without its empty parts, the path of what it resolves
to; and all categories are found again under their own paths exactly when no
name is empty or contains an arrow. -/
theorem paths_faithful :
    (∀ k c, tree.get k = .ok c → ∃ path, tree.pathOf k = .ok path) ∧
    (∀ p c, tree.resolvePath p = .ok c →
      tree.pathOf c.id = .ok ("->".intercalate (pathParts p))) ∧
    ((∀ k c, tree.get k = .ok c →
        ∃ path, tree.pathOf k = .ok path ∧ tree.resolvePath path = .ok c) ↔
      ∀ k c, tree.get k = .ok c → c.name ≠ "" ∧ ¬ HasArrow c.name.toList) := by
  have hinv := treeInvariant_of_buildTree hload
  have hpath {k : CategoryId} {c : Category} (hget : tree.get k = .ok c) :
      ∃ names, NamedPath tree names c ∧ tree.pathOf k = .ok ("->".intercalate names) := by
    have hc := (CategoryTree.get_eq_ok_iff tree k c).mp hget
    obtain ⟨names, hnames⟩ := exists_namedPath hinv hc
    refine ⟨names, hnames, ?_⟩
    rw [← hinv.keyedById hc]
    exact pathOf_eq_ok hinv hnames
  refine ⟨?_, ?_, ?_, ?_⟩
  · intro k c hget
    obtain ⟨names, -, hok⟩ := hpath hget
    exact ⟨_, hok⟩
  · intro p c hp
    exact pathOf_eq_ok hinv ((resolvePath_eq_ok_iff hload p c).mp hp)
  · intro hall k c hget
    obtain ⟨path, -, hresolve⟩ := hall k c hget
    obtain ⟨l, heq, -⟩ := ((resolvePath_eq_ok_iff hload path c).mp hresolve).last hinv
    exact pathParts_clean (heq ▸ List.mem_append_right l List.mem_cons_self)
  · intro hclean k c hget
    obtain ⟨names, hnames, hok⟩ := hpath hget
    refine ⟨_, hok, (resolvePath_eq_ok_iff hload _ c).mpr ?_⟩
    have hmem : ∀ {names : List String} {c : Category}, NamedPath tree names c →
        names ≠ [] ∧ ∀ name, name ∈ names → name ≠ "" ∧ ¬ HasArrow name.toList := by
      intro names c h
      induction h with
      | @root r hr =>
          refine ⟨List.cons_ne_nil _ _, ?_⟩
          rw [List.forall_mem_singleton]
          exact hclean _ r ((CategoryTree.get_eq_ok_iff tree _ r).mpr hr)
      | @child names p c x _ _ hc ih =>
          refine ⟨by simp, ?_⟩
          rw [List.forall_mem_append, List.forall_mem_singleton]
          exact ⟨ih.2, hclean _ c ((CategoryTree.get_eq_ok_iff tree _ c).mpr hc)⟩
    obtain ⟨hne, hnames'⟩ := hmem hnames
    rw [pathParts_intercalate hne hnames']
    exact hnames

end Downwards

-- names that border on an arrow are split at the right places
example : pathParts "a-->>b->->-" = ["a-", ">b", "-"] := by decide

theorem paths_faithful_sideTree :
    (∀ k c, sideTree.get k = .ok c → ∃ path, sideTree.pathOf k = .ok path) ∧
    (∀ p c, sideTree.resolvePath p = .ok c →
      sideTree.pathOf c.id = .ok ("->".intercalate (pathParts p))) ∧
    ((∀ k c, sideTree.get k = .ok c →
        ∃ path, sideTree.pathOf k = .ok path ∧ sideTree.resolvePath path = .ok c) ↔
      ∀ k c, sideTree.get k = .ok c → c.name ≠ "" ∧ ¬ HasArrow c.name.toList) := by
  have hload : buildTree "root" sideEntries = .ok sideTree := by decide
  exact paths_faithful hload

end Core
end Sandroid
