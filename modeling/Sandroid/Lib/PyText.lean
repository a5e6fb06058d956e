import Mathlib.Algebra.Group.Nat.Defs
import Mathlib.Data.List.TakeWhile
import Mathlib.Tactic.Common

/-!
# Text primitives

The list versions of the string operations that line-based codecs use: cutting at
the first occurrence of a separator, splitting into words and lines, stripping,
and reading decimal integers the way `int()` does; and Python's own strings, which may
hold what no encoder takes.
-/

namespace Sandroid
namespace Lib

variable {α : Type*}

/-- What stands before and after the first occurrence of `sep`. -/
def cutAt [DecidableEq α] (sep : List α) : List α → Option (List α × List α)
  | [] => none
  | x :: xs =>
      if sep.isPrefixOf (x :: xs) then
        some ([], (x :: xs).drop sep.length)
      else
        (cutAt sep xs).map fun p => (x :: p.1, p.2)

section Cut

variable [DecidableEq α]

/-- Something is put before a cut. -/
def prepend (xs : List α) (p : List α × List α) : List α × List α :=
  (xs ++ p.1, p.2)

theorem cutAt_cons_of_ne {c x : α} {sep xs : List α} (h : x ≠ c) :
    cutAt (c :: sep) (x :: xs) = (cutAt (c :: sep) xs).map (prepend [x]) := by
  rw [cutAt, if_neg]
  · rfl
  · simp [Ne.symm h]

/-- A part without the first element of the separator is passed over. -/
theorem cutAt_append_of_not_mem {c : α} {xs : List α} (h : c ∉ xs) (sep rest : List α) :
    cutAt (c :: sep) (xs ++ rest) = (cutAt (c :: sep) rest).map (prepend xs) := by
  induction xs with
  | nil =>
    rw [List.nil_append]
    cases cutAt (c :: sep) rest with
    | none => rfl
    | some p => rfl
  | cons x xs ih =>
    rw [List.mem_cons, not_or] at h
    rw [List.cons_append, cutAt_cons_of_ne (Ne.symm h.1), ih h.2]
    cases cutAt (c :: sep) rest <;> rfl

theorem cutAt_sep (sep rest : List α) (hne : sep ≠ []) :
    cutAt sep (sep ++ rest) = some ([], rest) := by
  cases sep with
  | nil => exact absurd rfl hne
  | cons c sep =>
    have hpre : List.isPrefixOf (c :: sep) ((c :: sep) ++ rest) = true := by
      rw [List.isPrefixOf_iff_prefix]
      exact List.prefix_append _ _
    rw [List.cons_append] at hpre ⊢
    rw [cutAt, if_pos hpre]
    simp

/-- A cut puts the list together again. -/
theorem cutAt_eq_some {sep xs : List α} {p : List α × List α} (h : cutAt sep xs = some p) :
    xs = p.1 ++ sep ++ p.2 := by
  induction xs generalizing p with
  | nil => cases h
  | cons x xs ih =>
    rw [cutAt] at h
    split_ifs at h with hpre
    · rw [List.isPrefixOf_iff_prefix] at hpre
      obtain ⟨rest, hrest⟩ := hpre
      rw [← Option.some.inj h, ← hrest]
      simp
    · rw [Option.map_eq_some_iff] at h
      obtain ⟨q, hq, rfl⟩ := h
      rw [ih hq]
      rfl

/-- What follows the list does not move the cut. -/
theorem cutAt_append {sep xs before after : List α} (h : cutAt sep xs = some (before, after))
    (ys : List α) : cutAt sep (xs ++ ys) = some (before, after ++ ys) := by
  induction xs generalizing before after with
  | nil => cases h
  | cons x xs ih =>
    rw [cutAt] at h
    rw [List.cons_append, cutAt]
    split_ifs at h with hpre
    · cases h
      have hpre := List.isPrefixOf_iff_prefix.mp hpre
      have hlonger : sep <+: x :: (xs ++ ys) := hpre.trans (List.prefix_append (x :: xs) ys)
      rw [if_pos (List.isPrefixOf_iff_prefix.mpr hlonger), ← List.cons_append,
        List.drop_append_of_le_length hpre.length_le]
    · obtain ⟨p, hp, hsplit⟩ := Option.map_eq_some_iff.mp h
      cases hsplit
      have hlength : sep.length ≤ (x :: xs).length := by
        rw [cutAt_eq_some hp]
        simp only [List.length_cons, List.length_append]
        omega
      have hnot : ¬ sep.isPrefixOf (x :: (xs ++ ys)) = true := by
        intro hlonger
        have hlonger := List.isPrefixOf_iff_prefix.mp hlonger
        exact hpre (List.isPrefixOf_iff_prefix.mpr
          (List.prefix_of_prefix_length_le hlonger (List.prefix_append (x :: xs) ys) hlength))
      rw [if_neg hnot, ih hp]
      rfl

end Cut

/-- `split()`: the maximal runs without white space. -/
def words (space : α → Bool) (xs : List α) : List (List α) :=
  (xs.splitOnP space).filter fun w => !w.isEmpty

/-- `strip()`. -/
def stripBy (space : α → Bool) (xs : List α) : List α :=
  ((xs.dropWhile space).reverse.dropWhile space).reverse

section Words

variable {space : α → Bool}

/-- The check of a given word, as a computation. -/
theorem forall_of_all {b : Bool} {xs : List α} (h : xs.all (fun x => space x == b) = true) :
    ∀ x ∈ xs, space x = b := by
  simpa using h

theorem words_append_cons (xs ys : List α) {s : α} (hs : space s = true) :
    words space (xs ++ s :: ys) = words space xs ++ words space ys := by
  rw [words, List.splitOnP_append_cons xs ys hs, List.filter_append]
  rfl

theorem words_nil : words space [] = [] := by
  simp [words]

/-- A word without white space is one word. -/
theorem words_word {w : List α} (hne : w ≠ []) (hw : ∀ x ∈ w, space x = false) :
    words space w = [w] := by
  rw [words, List.splitOnP_eq_singleton hw]
  simp [hne]

theorem words_dropWhile (xs : List α) : words space (xs.dropWhile space) = words space xs := by
  induction xs with
  | nil => rfl
  | cons x xs ih =>
    rw [List.dropWhile_cons]
    split_ifs with hx
    · rw [ih]
      have h := words_append_cons [] xs hx
      rw [words_nil, List.nil_append, List.nil_append] at h
      exact h.symm
    · rfl

theorem words_append_space (xs : List α) {ys : List α} (h : ∀ y ∈ ys, space y = true) :
    words space (xs ++ ys) = words space xs := by
  cases ys with
  | nil => rw [List.append_nil]
  | cons y ys =>
    have hys : words space ys = [] := by
      rw [← words_dropWhile, List.dropWhile_eq_nil_iff.mpr (fun z hz => h z (by simp [hz])),
        words_nil]
    rw [words_append_cons xs ys (h y (by simp)), hys, List.append_nil]

/-- White space at the ends does not matter. -/
theorem words_stripBy (xs : List α) : words space (stripBy space xs) = words space xs := by
  have hsplit : xs.dropWhile space = stripBy space xs ++
      ((xs.dropWhile space).reverse.takeWhile space).reverse := by
    rw [stripBy, ← List.reverse_append, List.takeWhile_append_dropWhile, List.reverse_reverse]
  have hws : ∀ y ∈ ((xs.dropWhile space).reverse.takeWhile space).reverse, space y = true := by
    intro y hy
    exact List.mem_takeWhile_imp (List.mem_reverse.mp hy)
  rw [← words_dropWhile xs, hsplit, words_append_space _ hws]

end Words

/-- `split(ab)` on a separator of two elements. -/
def splitPair [DecidableEq α] (a b : α) : List α → List (List α)
  | [] => [[]]
  | [x] => [[x]]
  | x :: y :: rest =>
      if x = a ∧ y = b then
        [] :: splitPair a b rest
      else
        match splitPair a b (y :: rest) with
        | [] => [[x]]
        | part :: parts => (x :: part) :: parts

/-- Lines with a separator between them. -/
def joinLines (sep : List α) : List (List α) → List α
  | [] => []
  | [line] => line
  | line :: more => line ++ sep ++ joinLines sep more

theorem joinLines_cons_cons (sep line line' : List α) (more : List (List α)) :
    joinLines sep (line :: line' :: more) = line ++ sep ++ joinLines sep (line' :: more) := rfl

section Lines

variable [DecidableEq α] {a b : α}

theorem splitPair_cons_of_ne {x : α} (h : x ≠ a) {part : List α} {parts : List (List α)}
    {xs : List α} (hxs : splitPair a b xs = part :: parts) :
    splitPair a b (x :: xs) = (x :: part) :: parts := by
  cases xs with
  | nil =>
    cases hxs
    rfl
  | cons y rest =>
    rw [splitPair, if_neg (fun hxy => h hxy.1), hxs]

theorem splitPair_line {line : List α} (h : a ∉ line) : splitPair a b line = [line] := by
  induction line with
  | nil => rfl
  | cons x line ih =>
    rw [List.mem_cons, not_or] at h
    exact splitPair_cons_of_ne (Ne.symm h.1) (ih h.2)

theorem splitPair_append {line rest : List α} (h : a ∉ line) :
    splitPair a b (line ++ a :: b :: rest) = line :: splitPair a b rest := by
  induction line with
  | nil => rw [List.nil_append, splitPair, if_pos ⟨rfl, rfl⟩]
  | cons x line ih =>
    rw [List.mem_cons, not_or] at h
    exact splitPair_cons_of_ne (Ne.symm h.1) (ih h.2)

/-- Splitting takes joined lines apart. -/
theorem splitPair_joinLines {lines : List (List α)} (hne : lines ≠ [])
    (h : ∀ line ∈ lines, a ∉ line) : splitPair a b (joinLines [a, b] lines) = lines := by
  induction lines with
  | nil => exact absurd rfl hne
  | cons line more ih =>
    cases more with
    | nil => exact splitPair_line (h line (by simp))
    | cons line' more =>
      rw [joinLines, List.append_assoc, List.cons_append, List.cons_append, List.nil_append,
        splitPair_append (h line (by simp)), ih (by simp) (fun l hl => h l (by simp [hl]))]
      simp

end Lines

/-- The zeros of the other decimal digits of Unicode 15; nine digits follow each. -/
def decimalZeros : List Nat :=
  [0x660, 0x6f0, 0x7c0, 0x966, 0x9e6, 0xa66, 0xae6, 0xb66, 0xbe6, 0xc66, 0xce6, 0xd66,
    0xde6, 0xe50, 0xed0, 0xf20, 0x1040, 0x1090, 0x17e0, 0x1810, 0x1946, 0x19d0, 0x1a80, 0x1a90,
    0x1b50, 0x1bb0, 0x1c40, 0x1c50, 0xa620, 0xa8d0, 0xa900, 0xa9d0, 0xa9f0, 0xaa50, 0xabf0,
    0xff10, 0x104a0, 0x10d30, 0x11066, 0x110f0, 0x11136, 0x111d0, 0x112f0, 0x11450, 0x114d0,
    0x11650, 0x116c0, 0x11730, 0x118e0, 0x11950, 0x11c50, 0x11d50, 0x11da0, 0x11f50, 0x16a60,
    0x16ac0, 0x16b50, 0x1d7ce, 0x1d7d8, 0x1d7e2, 0x1d7ec, 0x1d7f6, 0x1e140, 0x1e2f0, 0x1e4f0,
    0x1e950, 0x1fbf0]

/-- The value of an ASCII digit. -/
def asciiDigit (c : Char) : Option Nat :=
  if 48 ≤ c.toNat ∧ c.toNat < 58 then some (c.toNat - 48) else none

/-- The value of a decimal digit. -/
def decimalValue (c : Char) : Option Nat :=
  match asciiDigit c with
  | some d => some d
  | none =>
      (decimalZeros.find? fun z => z ≤ c.toNat && c.toNat < z + 10).map fun z => c.toNat - z

/-- Digits with single underscores between them; `seen` after a digit. -/
def readDigits (digit : Char → Option Nat) : Bool → Nat → List Char → Option Nat
  | true, acc, [] => some acc
  | false, _, [] => none
  | seen, acc, c :: rest =>
      match digit c with
      | some d => readDigits digit true (acc * 10 + d) rest
      | none => if c = '_' ∧ seen then readDigits digit false acc rest else none

/-- Conversions between integers and text are refused beyond this number of digits. -/
def maxStrDigits : Nat := 4300

/-- The unsigned part of `int()`. -/
def readNat (digit : Char → Option Nat) (text : List Char) : Option Nat :=
  if maxStrDigits < (text.filter fun c => (digit c).isSome).length then
    none
  else
    readDigits digit false 0 text

/-- `int(text)`, `none` for a `ValueError`. -/
def pyInt (space : Char → Bool) (digit : Char → Option Nat) (text : List Char) : Option Int :=
  match stripBy space text with
  | '-' :: rest => (readNat digit rest).map fun n : Nat => -(n : Int)
  | '+' :: rest => (readNat digit rest).map fun n : Nat => (n : Int)
  | rest => (readNat digit rest).map fun n : Nat => (n : Int)

/-- The decimal digits of a number. -/
def decimal (n : Nat) : List Char :=
  Nat.toDigits 10 n

/-- `str(n)`, `none` for a `ValueError`. -/
def pyStr (n : Int) : Option (List Char) :=
  if maxStrDigits < (decimal n.natAbs).length then
    none
  else
    some (if n < 0 then '-' :: decimal n.natAbs else decimal n.natAbs)

section Integers

variable {space : Char → Bool} {digit : Char → Option Nat}

/-- The table agrees with the ASCII digits on them. -/
def ReadsAscii (digit : Char → Option Nat) : Prop :=
  ∀ c : Char, c.isDigit = true → digit c = some (c.toNat - 48)

theorem toNat_of_isDigit {c : Char} (h : c.isDigit = true) : 48 ≤ c.toNat ∧ c.toNat ≤ 57 := by
  rw [Char.isDigit, Bool.and_eq_true, decide_eq_true_eq, decide_eq_true_eq] at h
  exact ⟨h.1, h.2⟩

theorem readsAscii_asciiDigit : ReadsAscii asciiDigit := by
  intro c h
  obtain ⟨hlo, hhi⟩ := toNat_of_isDigit h
  rw [asciiDigit, if_pos ⟨hlo, by omega⟩]

theorem readsAscii_decimalValue : ReadsAscii decimalValue := by
  intro c h
  rw [decimalValue, readsAscii_asciiDigit c h]

theorem isDigit_of_mem_decimal {n : Nat} {c : Char} (h : c ∈ decimal n) : c.isDigit = true :=
  Nat.isDigit_of_mem_toDigits (by decide) (by decide) h

theorem readDigits_of_isDigit (hdigit : ReadsAscii digit) {text : List Char}
    (h : ∀ c ∈ text, c.isDigit = true) (acc : Nat) :
    readDigits digit true acc text = some (Nat.ofDigitChars 10 text acc) := by
  induction text generalizing acc with
  | nil => rw [readDigits, Nat.ofDigitChars_nil]
  | cons c text ih =>
    rw [readDigits, hdigit c (h c (by simp))]
    simp only
    rw [ih (fun c' hc' => h c' (by simp [hc'])), Nat.ofDigitChars_cons, Nat.mul_comm acc 10]
    rfl

theorem readNat_decimal (hdigit : ReadsAscii digit) {n : Nat}
    (hlen : (decimal n).length ≤ maxStrDigits) : readNat digit (decimal n) = some n := by
  have hall : ((decimal n).filter fun c => (digit c).isSome) = decimal n := by
    rw [List.filter_eq_self]
    intro c hc
    rw [hdigit c (isDigit_of_mem_decimal hc)]
    rfl
  have hvalue : Nat.ofDigitChars 10 (decimal n) 0 = n := Nat.ofDigitChars_ten_toDigits
  rw [readNat, hall, if_neg (by omega)]
  cases hd : decimal n with
  | nil => exact absurd hd Nat.toDigits_ne_nil
  | cons c rest =>
    have hdigits : ∀ c' ∈ c :: rest, c'.isDigit = true := by
      intro c' hc'
      rw [← hd] at hc'
      exact isDigit_of_mem_decimal hc'
    have hread := readDigits_of_isDigit hdigit hdigits 0
    rw [← hd, hvalue, hd] at hread
    rw [readDigits, hdigit c (hdigits c (by simp))] at hread ⊢
    exact hread

/-- A list that begins and ends with something else than white space. -/
def Trimmed (space : α → Bool) (xs : List α) : Prop :=
  stripBy space xs = xs

theorem trimmed_of_forall {space : α → Bool} {xs : List α} (h : ∀ x ∈ xs, space x = false) :
    Trimmed space xs := by
  have hdrop : ∀ ys : List α, (∀ x ∈ ys, space x = false) → ys.dropWhile space = ys := by
    intro ys hys
    cases ys with
    | nil => rfl
    | cons y ys =>
      rw [List.dropWhile_cons, if_neg]
      rw [hys y (by simp)]
      decide
  rw [Trimmed, stripBy, hdrop xs h, hdrop xs.reverse (by simpa using h), List.reverse_reverse]

/-- Digits carry no sign. -/
theorem pyInt_of_isDigit {text : List Char} (htrim : Trimmed space text)
    (h : ∀ c ∈ text, c.isDigit = true) :
    pyInt space digit text = (readNat digit text).map fun n : Nat => (n : Int) := by
  rw [pyInt, htrim]
  split
  next rest => exact absurd (h '-' (by simp)) (by decide)
  next rest => exact absurd (h '+' (by simp)) (by decide)
  next => rfl

/-- `int(str(n))`. -/
theorem pyInt_pyStr (hdigit : ReadsAscii digit)
    (hspace : ∀ c : Char, c.isDigit = true → space c = false)
    (hminus : space '-' = false) {n : Int} {text : List Char} (h : pyStr n = some text) :
    pyInt space digit text = some n := by
  rw [pyStr] at h
  split_ifs at h with hlong hneg
  · have htext := (Option.some.inj h).symm
    have htrim : Trimmed space text := by
      apply trimmed_of_forall
      intro c hc
      rw [htext, List.mem_cons] at hc
      rcases hc with rfl | hc
      · exact hminus
      · exact hspace c (isDigit_of_mem_decimal hc)
    rw [pyInt, htrim, htext]
    simp only [readNat_decimal hdigit (not_lt.mp hlong), Option.map_some, Option.some.injEq]
    omega
  · have htext := (Option.some.inj h).symm
    have htrim : Trimmed space text := by
      apply trimmed_of_forall
      intro c hc
      rw [htext] at hc
      exact hspace c (isDigit_of_mem_decimal hc)
    have hdigits : ∀ c ∈ text, c.isDigit = true := by
      intro c hc
      rw [htext] at hc
      exact isDigit_of_mem_decimal hc
    rw [pyInt_of_isDigit htrim hdigits, htext, readNat_decimal hdigit (not_lt.mp hlong),
      Option.map_some, Option.some.injEq]
    omega

end Integers

theorem length_decimal_le_iff {n k : Nat} (hk : 0 < k) : (decimal n).length ≤ k ↔ n < 10 ^ k :=
  Nat.length_toDigits_le_iff (by decide) hk

theorem length_decimal_pos (n : Nat) : 0 < (decimal n).length :=
  Nat.length_toDigits_pos

theorem length_decimal_mono {m n : Nat} (h : m ≤ n) :
    (decimal m).length ≤ (decimal n).length := by
  rw [length_decimal_le_iff (length_decimal_pos n)]
  exact h.trans_lt ((length_decimal_le_iff (length_decimal_pos n)).mp le_rfl)

section ReadLength

variable {space : Char → Bool} {digit : Char → Option Nat}

/-- Every digit is one of ten. -/
def ReadsDecimal (digit : Char → Option Nat) : Prop :=
  ∀ c d, digit c = some d → d < 10

theorem readsDecimal_asciiDigit : ReadsDecimal asciiDigit := by
  intro c d h
  rw [asciiDigit] at h
  split_ifs at h with hrange
  cases h
  omega

theorem readsDecimal_decimalValue : ReadsDecimal decimalValue := by
  intro c d h
  rw [decimalValue] at h
  split at h
  · rename_i d' hascii
    cases h
    exact readsDecimal_asciiDigit c _ hascii
  · obtain ⟨z, hz, rfl⟩ := Option.map_eq_some_iff.mp h
    have hrange := List.find?_some hz
    simp only [Bool.and_eq_true, decide_eq_true_eq] at hrange
    omega

/-- The value of a text is below the power of its number of digits. -/
theorem readDigits_lt (hdigit : ReadsDecimal digit) {seen : Bool} {acc n : Nat}
    {text : List Char} (h : readDigits digit seen acc text = some n) :
    n < (acc + 1) * 10 ^ (text.filter fun c => (digit c).isSome).length := by
  induction text generalizing seen acc with
  | nil =>
      cases seen with
      | false => cases h
      | true =>
          cases h
          simp
  | cons c text ih =>
      rw [readDigits] at h
      cases hc : digit c with
      | some d =>
          simp only [hc] at h
          have hd := hdigit c d hc
          have hcount : ((c :: text).filter fun c => (digit c).isSome).length =
              (text.filter fun c => (digit c).isSome).length + 1 := by
            rw [List.filter_cons_of_pos (by simp [hc]), List.length_cons]
          rw [hcount, pow_succ', ← mul_assoc]
          exact (ih h).trans_le (Nat.mul_le_mul_right _ (by omega))
      | none =>
          simp only [hc] at h
          split_ifs at h
          rw [List.filter_cons_of_neg (by simp [hc])]
          exact ih h

theorem length_decimal_readNat (hdigit : ReadsDecimal digit) {text : List Char} {n : Nat}
    (h : readNat digit text = some n) : (decimal n).length ≤ maxStrDigits := by
  rw [readNat] at h
  split_ifs at h with hcount
  have hlt := readDigits_lt hdigit h
  rw [zero_add, one_mul] at hlt
  exact (length_decimal_le_iff (by decide)).mpr
    (hlt.trans_le (Nat.pow_le_pow_right (by decide) (not_lt.mp hcount)))

/-- An integer that has been read can be written. -/
theorem length_decimal_pyInt (hdigit : ReadsDecimal digit) {text : List Char} {n : Int}
    (h : pyInt space digit text = some n) : (decimal n.natAbs).length ≤ maxStrDigits := by
  rw [pyInt] at h
  split at h
  · obtain ⟨m, hm, rfl⟩ := Option.map_eq_some_iff.mp h
    rw [Int.natAbs_neg, Int.natAbs_natCast]
    exact length_decimal_readNat hdigit hm
  · obtain ⟨m, hm, rfl⟩ := Option.map_eq_some_iff.mp h
    exact length_decimal_readNat hdigit hm
  · obtain ⟨m, hm, rfl⟩ := Option.map_eq_some_iff.mp h
    exact length_decimal_readNat hdigit hm

end ReadLength

section LengthField

/-- The length of a text with a number of `base` further characters. -/
def lengthWith (base n : Nat) : Nat :=
  base + (decimal n).length

/-- Counting again changes the length at most twice: the first number of digits may
grow by one, and then there is room for it. -/
theorem lengthWith_stable (base : Nat) :
    lengthWith base (lengthWith base (lengthWith base (lengthWith base 0))) =
      lengthWith base (lengthWith base (lengthWith base 0)) := by
  have hzero : lengthWith base 0 = base + 1 := rfl
  rw [hzero]
  have hk := length_decimal_pos (base + 1)
  have hbase : base + 1 < 10 ^ (decimal (base + 1)).length :=
    (length_decimal_le_iff hk).mp le_rfl
  have hgrow : (decimal (base + 1)).length ≤
      (decimal (base + (decimal (base + 1)).length)).length :=
    length_decimal_mono (by omega)
  simp only [lengthWith]
  generalize (decimal (base + 1)).length = k at *
  have hpow : k < 10 ^ k := Nat.lt_pow_self (by decide)
  have hroom : base + k + 1 < 10 ^ (k + 1) := by
    rw [Nat.pow_succ]
    omega
  have hfit : (decimal (base + k)).length ≤ k + 1 :=
    (length_decimal_le_iff (Nat.succ_pos k)).mpr (by omega)
  have hcases : (decimal (base + k)).length = k ∨ (decimal (base + k)).length = k + 1 := by
    omega
  rcases hcases with hsame | hmore
  · rw [hsame, hsame]
  · have hlast : (decimal (base + (k + 1))).length = k + 1 := by
      apply Nat.le_antisymm
      · exact (length_decimal_le_iff (Nat.succ_pos k)).mpr (by omega)
      · rw [← hmore]
        exact length_decimal_mono (by omega)
    rw [hmore, hlast]

end LengthField

/-- A Python string: text, or code points with a surrogate among them, which cannot be
encoded. -/
inductive PyStr where
  | text (s : String)
  | unencodable (codes : List (Fin 0x110000))
      (hsurrogate : codes.any (fun c => 0xD800 ≤ c.val && c.val ≤ 0xDFFF) = true)
deriving DecidableEq, Repr

instance : Coe String PyStr :=
  ⟨.text⟩

namespace PyStr

def encodes : PyStr → Bool
  | .text _ => true
  | .unencodable _ _ => false

def asText : PyStr → Option String
  | .text s => some s
  | .unencodable _ _ => none

end PyStr

end Lib
end Sandroid
