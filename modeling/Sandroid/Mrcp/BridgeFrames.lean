import Mathlib.Data.List.Basic
import Mathlib.Tactic.NormNum

/-!
# Frames of the plugin bridge

The wire format shared by the C plugin and the Python bridge: a length in four
big-endian bytes, a type byte that the length counts, and the payload.
`readFrame` is the function of that name in `adapters/mrcp/bridge.py`, as far as
the bytes at hand allow; `readFrames` is the loop around it.

`readFrames_wire`: a concatenation of whole frames followed by an unfinished one
decodes to exactly those frames.
-/

namespace Sandroid
namespace Mrcp

abbrev Bytes := List UInt8

/-- `MAX_FRAME_SIZE`, `SBR_MAX_FRAME_SIZE`. -/
def maxFrameSize : Nat := 1024 * 1024

def frameStart : UInt8 := 0x01
def frameAudio : UInt8 := 0x02
def frameEos : UInt8 := 0x03
def frameStop : UInt8 := 0x04
def frameResult : UInt8 := 0x10
def frameError : UInt8 := 0x11

structure Frame where
  ftype : UInt8
  payload : Bytes
deriving DecidableEq, Repr

/-- Two big-endian bytes. -/
def packU16 (n : Nat) : Bytes :=
  [UInt8.ofNat (n / 2 ^ 8), UInt8.ofNat n]

def unpackU16 (b₀ b₁ : UInt8) : Nat :=
  b₀.toNat * 2 ^ 8 + b₁.toNat

/-- Four big-endian bytes. -/
def packU32 (n : Nat) : Bytes :=
  [UInt8.ofNat (n / 2 ^ 24), UInt8.ofNat (n / 2 ^ 16), UInt8.ofNat (n / 2 ^ 8), UInt8.ofNat n]

def unpackU32 (b₀ b₁ b₂ b₃ : UInt8) : Nat :=
  b₀.toNat * 2 ^ 24 + b₁.toNat * 2 ^ 16 + b₂.toNat * 2 ^ 8 + b₃.toNat

theorem unpackU16_packU16 {n : Nat} (hn : n < 2 ^ 16) :
    unpackU16 (UInt8.ofNat (n / 2 ^ 8)) (UInt8.ofNat n) = n := by
  simp only [unpackU16, UInt8.toNat_ofNat']
  omega

theorem unpackU32_packU32 {n : Nat} (hn : n < 2 ^ 32) :
    unpackU32 (UInt8.ofNat (n / 2 ^ 24)) (UInt8.ofNat (n / 2 ^ 16)) (UInt8.ofNat (n / 2 ^ 8))
      (UInt8.ofNat n) = n := by
  simp only [unpackU32, UInt8.toNat_ofNat']
  omega

namespace Frame

/-- The bytes of a frame on the wire. -/
def wire (f : Frame) : Bytes :=
  packU32 (f.payload.length + 1) ++ f.ftype :: f.payload

theorem length_wire (f : Frame) : f.wire.length = f.payload.length + 5 := by
  simp [wire, packU32]

/-- Both sides refuse longer payloads. -/
def Fits (f : Frame) : Prop :=
  f.payload.length ≤ maxFrameSize

end Frame

/-- What one call of `read_frame` finds at the head of the stream. -/
inductive ReadResult where
  /-- `readexactly` still waits for bytes -/
  | incomplete
  /-- `ValueError("invalid frame size ...")` -/
  | invalidSize (total : Nat)
  | frame (f : Frame) (rest : Bytes)
deriving DecidableEq, Repr

def readFrame : Bytes → ReadResult
  | b₀ :: b₁ :: b₂ :: b₃ :: ftype :: rest =>
      let total := unpackU32 b₀ b₁ b₂ b₃
      if total < 1 ∨ maxFrameSize < total - 1 then
        .invalidSize total
      else if rest.length < total - 1 then
        .incomplete
      else
        .frame ⟨ftype, rest.take (total - 1)⟩ (rest.drop (total - 1))
  | _ => .incomplete

/-- `read_frame` again and again, at most `fuel` times: the frames, the bytes
left over, and the size that was refused, if any. -/
def readLoop : Nat → Bytes → List Frame × Bytes × Option Nat
  | 0, data => ([], data, none)
  | fuel + 1, data =>
      match readFrame data with
      | .incomplete => ([], data, none)
      | .invalidSize total => ([], data, some total)
      | .frame f rest =>
          let more := readLoop fuel rest
          (f :: more.1, more.2)

/-- Every frame takes at least five bytes, so this is enough fuel. -/
def readFrames (data : Bytes) : List Frame × Bytes × Option Nat :=
  readLoop data.length data

theorem readFrame_wire {f : Frame} (hf : f.Fits) (rest : Bytes) :
    readFrame (f.wire ++ rest) = .frame f rest := by
  have hlen : f.payload.length + 1 < 2 ^ 32 := by
    unfold Frame.Fits maxFrameSize at hf
    omega
  unfold Frame.Fits at hf
  simp only [Frame.wire, packU32, List.cons_append, List.nil_append, readFrame,
    unpackU32_packU32 hlen]
  rw [if_neg (by omega), if_neg (by simp)]
  simp

/-- A frame cut short is not read. -/
theorem readFrame_cut {f : Frame} (hf : f.Fits) {data : Bytes} (hcut : data <+: f.wire)
    (hne : data ≠ f.wire) : readFrame data = .incomplete := by
  have hlen : f.payload.length + 1 < 2 ^ 32 := by
    unfold Frame.Fits maxFrameSize at hf
    omega
  unfold Frame.Fits at hf
  obtain ⟨tail, htail⟩ := hcut
  have htailne : tail ≠ [] := by
    rintro rfl
    rw [List.append_nil] at htail
    exact hne htail
  simp only [Frame.wire, packU32, List.cons_append, List.nil_append] at htail
  match data, htail with
  | [], _ => rfl
  | [_], _ => rfl
  | [_, _], _ => rfl
  | [_, _, _], _ => rfl
  | [_, _, _, _], _ => rfl
  | b₀ :: b₁ :: b₂ :: b₃ :: t :: rest, htail =>
      simp only [List.cons_append, List.cons.injEq] at htail
      obtain ⟨rfl, rfl, rfl, rfl, rfl, hrest⟩ := htail
      have hshort : rest.length < f.payload.length := by
        have hpos : 0 < tail.length := List.length_pos_iff.mpr htailne
        rw [← hrest, List.length_append]
        omega
      simp only [readFrame, unpackU32_packU32 hlen]
      rw [if_neg (by omega), if_pos (by omega)]

/-- Whole frames followed by a frame cut short, or by nothing, decode to the
whole frames. -/
theorem readLoop_wire {cut : Bytes}
    (hcut : cut = [] ∨ ∃ f : Frame, f.Fits ∧ cut <+: f.wire ∧ cut ≠ f.wire) :
    ∀ {frames : List Frame} {fuel : Nat}, (∀ f, f ∈ frames → f.Fits) →
      (frames.flatMap Frame.wire ++ cut).length ≤ fuel →
      readLoop fuel (frames.flatMap Frame.wire ++ cut) = (frames, cut, none)
  | [], fuel, _, _ => by
      have hread : readFrame cut = .incomplete := by
        rcases hcut with rfl | ⟨f, hf, hpre, hne⟩
        · rfl
        · exact readFrame_cut hf hpre hne
      cases fuel with
      | zero => rfl
      | succ fuel => simp [readLoop, hread]
  | f :: frames, 0, _, hfuel => by
      simp [Frame.length_wire] at hfuel
  | f :: frames, fuel + 1, hfits, hfuel => by
      have hf := hfits f List.mem_cons_self
      have hlength : (frames.flatMap Frame.wire ++ cut).length ≤ fuel := by
        simp [Frame.length_wire] at hfuel ⊢
        omega
      have ih := readLoop_wire hcut (fun g hg => hfits g (List.mem_cons_of_mem _ hg)) hlength
      rw [List.flatMap_cons, List.append_assoc, readLoop, readFrame_wire hf]
      simp [ih]

theorem readFrames_wire {frames : List Frame} {cut : Bytes} (hfits : ∀ f, f ∈ frames → f.Fits)
    (hcut : cut = [] ∨ ∃ f : Frame, f.Fits ∧ cut <+: f.wire ∧ cut ≠ f.wire) :
    readFrames (frames.flatMap Frame.wire ++ cut) = (frames, cut, none) :=
  readLoop_wire hcut hfits (le_refl _)

end Mrcp
end Sandroid
