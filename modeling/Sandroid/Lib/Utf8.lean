import Mathlib.Data.List.Basic
import Mathlib.Tactic.Common

/-!
# UTF-8 over lists of bytes

Encoding and strict decoding of strings, over the byte lists that codecs work on.
-/

namespace Sandroid
namespace Lib

/-- `s.encode("utf-8")`. -/
def utf8 (s : String) : List UInt8 :=
  s.toList.flatMap String.utf8EncodeChar

/-- `b.decode("utf-8")`, if the bytes are well formed. -/
def utf8Decode? (b : List UInt8) : Option String :=
  String.fromUTF8? b.toByteArray

theorem toByteArray_utf8 (s : String) : (utf8 s).toByteArray = s.toByteArray := by
  rw [← String.utf8Encode_toList]
  rfl

@[simp] theorem utf8Decode?_utf8 (s : String) : utf8Decode? (utf8 s) = some s := by
  rw [utf8Decode?, toByteArray_utf8, String.fromUTF8?, dif_pos s.isValidUTF8]
  rfl

theorem utf8_injective {s t : String} (h : utf8 s = utf8 t) : s = t := by
  have hs := utf8Decode?_utf8 s
  rw [h, utf8Decode?_utf8] at hs
  exact (Option.some.inj hs).symm

@[simp] theorem utf8_append (s t : String) : utf8 (s ++ t) = utf8 s ++ utf8 t := by
  rw [utf8, String.toList_append, List.flatMap_append]
  rfl

/-- An ASCII byte occurs in the encoding only as that character. -/
theorem mem_utf8EncodeChar_of_lt {b : UInt8} (hb : b.toNat < 128) {c : Char} :
    b ∈ String.utf8EncodeChar c ↔ c.toNat = b.toNat := by
  have hc : c.val.toNat = c.toNat := rfl
  have hlt : c.toNat < 0x110000 := by
    have := c.valid
    unfold UInt32.isValidChar Nat.isValidChar at this
    omega
  simp only [String.utf8EncodeChar, hc]
  split_ifs with h₁ h₂ h₃
  · simp only [List.mem_singleton, ← UInt8.toNat_inj, UInt8.toNat_ofNat']
    omega
  · simp only [List.mem_cons, List.not_mem_nil, or_false, ← UInt8.toNat_inj,
      UInt8.toNat_ofNat']
    omega
  · simp only [List.mem_cons, List.not_mem_nil, or_false, ← UInt8.toNat_inj,
      UInt8.toNat_ofNat']
    omega
  · simp only [List.mem_cons, List.not_mem_nil, or_false, ← UInt8.toNat_inj,
      UInt8.toNat_ofNat']
    omega

theorem mem_utf8_iff {b : UInt8} (hb : b.toNat < 128) {s : String} :
    b ∈ utf8 s ↔ ∃ c ∈ s.toList, c.toNat = b.toNat := by
  simp only [utf8, List.mem_flatMap, mem_utf8EncodeChar_of_lt hb]

theorem utf8_ofList (cs : List Char) :
    utf8 (String.ofList cs) = cs.flatMap String.utf8EncodeChar := by
  rw [utf8, String.toList_ofList]

/-- ASCII text is encoded character by character. -/
theorem utf8_ofList_ascii {cs : List Char} (h : ∀ c ∈ cs, c.toNat < 128) :
    utf8 (String.ofList cs) = cs.map fun c => UInt8.ofNat c.toNat := by
  rw [utf8_ofList]
  induction cs with
  | nil => rfl
  | cons c cs ih =>
    have hc : c.val.toNat ≤ 0x7f := Nat.le_of_lt_succ (h c (by simp))
    have hchar : String.utf8EncodeChar c = [UInt8.ofNat c.toNat] := by
      simp only [String.utf8EncodeChar, if_pos hc]
      rfl
    rw [List.flatMap_cons, hchar, ih (fun c' hc' => h c' (by simp [hc'])), List.map_cons]
    rfl

theorem length_utf8_ascii {cs : List Char} (h : cs.all (fun c => c.toNat < 128) = true) :
    (utf8 (String.ofList cs)).length = cs.length := by
  rw [utf8_ofList_ascii (by simpa using h), List.length_map]

theorem length_utf8_replicate (n : Nat) :
    (utf8 (String.ofList (List.replicate n 'A'))).length = n := by
  have hascii : (List.replicate n 'A').all (fun c => c.toNat < 128) = true := by
    rw [List.all_eq_true]
    intro c hc
    rw [List.eq_of_mem_replicate hc]
    decide
  rw [length_utf8_ascii hascii, List.length_replicate]

theorem ofNat_toNat_ascii {c : Char} (h : c.toNat < 128) :
    Char.ofNat (UInt8.ofNat c.toNat).toNat = c := by
  have hbyte : (UInt8.ofNat c.toNat).toNat = c.toNat := by
    rw [UInt8.toNat_ofNat']
    omega
  rw [hbyte, Char.ofNat_toNat]

end Lib
end Sandroid
