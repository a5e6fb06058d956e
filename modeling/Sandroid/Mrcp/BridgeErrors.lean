import Sandroid.Mrcp.BridgeConnection
import Sandroid.Mrcp.CborGrammar

/-!
# Errors of the bridge protocol

What becomes of malformed input on a bridge connection.  The handler turns some faults of a
START payload into ERROR frames; the others, and a frame of an invalid length, end it with
an exception that nothing catches.

`malformed_reported_iff`: which, for each place of the input that the handler comes to read.
-/

namespace Sandroid
namespace Mrcp

open Lib

variable {config : BridgeConfig}

/-- What leaves `_handle` when it reads the next frame. -/
inductive Uncaught where
  /-- `ValueError("invalid frame size ...")` -/
  | frameSize (total : Nat)
  /-- an exception of `_cbor_decode` that is no `CBORError` -/
  | decode (e : CborError)
deriving DecidableEq, Repr

namespace Connection

def uncaught? (c : Connection config) : Option Uncaught :=
  match readFrame c.input with
  | .incomplete => none
  | .invalidSize total => some (.frameSize total)
  | .frame f _ =>
      if f.ftype = frameStart then
        match cborDecode (config.spareCalls + 2) f.payload with
        | .ok _ => none
        | .error e => if cborErrorText e = none then some (.decode e) else none
      else
        none

/-- The read closes the connection, after one ERROR with this code. -/
def ClosesWith (c : Connection config) (code : String) : Prop :=
  ∃ message frame, errorFrame? code message = some frame ∧
    c.readNext.written = c.written ++ [⟨c.readNext.arrived.length, frame, []⟩] ∧
    c.readNext.phase = .closed

/-- The read ends without an exception, and what is malformed is reported. -/
structure Reports (c : Connection config) : Prop where
  caught : c.uncaught? = none
  start : ∀ f rest, readFrame c.input = .frame f rest → f.ftype = frameStart →
    (∀ rest', ¬ CborItemAt (config.spareCalls + 2) f.payload (.read .map rest')) →
      c.ClosesWith "BAD_START"
  length : ∀ total, readFrame c.input = .invalidSize total → c.ClosesWith "FRAME_TOO_LARGE"

end Connection

/-- A fault for which there is a `CBORError`. -/
def CborFault.reported : CborFault → Bool
  | .missing | .reserved | .unsupported => true
  | _ => false

/-- Bytes that begin with a frame of a valid length, or with less than a head; and where that
is a START, its payload has no fault but a reported one. -/
structure WellFramed (limit : Nat) (input : Bytes) : Prop where
  length : ∀ b₀ b₁ b₂ b₃ ftype rest, input = b₀ :: b₁ :: b₂ :: b₃ :: ftype :: rest →
    1 ≤ bigEndian [b₀, b₁, b₂, b₃] ∧ bigEndian [b₀, b₁, b₂, b₃] ≤ maxFrameSize + 1
  start : ∀ (f : Frame) rest, f.Fits → input = f.wire ++ rest → f.ftype = frameStart →
    ∀ fault, CborItemAt limit f.payload (.fault fault) → fault.reported = true

theorem bigEndian_four (b₀ b₁ b₂ b₃ : UInt8) :
    bigEndian [b₀, b₁, b₂, b₃] = unpackU32 b₀ b₁ b₂ b₃ := by
  simp only [bigEndian, unpackU32, List.foldl_cons, List.foldl_nil]
  omega

theorem packU32_unpackU32 (b₀ b₁ b₂ b₃ : UInt8) :
    packU32 (unpackU32 b₀ b₁ b₂ b₃) = [b₀, b₁, b₂, b₃] := by
  have h₀ := b₀.toNat_lt
  have h₁ := b₁.toNat_lt
  have h₂ := b₂.toNat_lt
  have h₃ := b₃.toNat_lt
  have hbyte {n : Nat} {b : UInt8} (h : n % 2 ^ 8 = b.toNat) : UInt8.ofNat n = b := by
    refine UInt8.toNat_inj.mp ?_
    rw [UInt8.toNat_ofNat', h]
  rw [packU32, unpackU32, hbyte (b := b₀) (by omega), hbyte (b := b₁) (by omega),
    hbyte (b := b₂) (by omega), hbyte (b := b₃) (by omega)]

/-- A frame that is read is on the wire. -/
theorem readFrame_eq_frame {input rest : Bytes} {f : Frame} (h : readFrame input = .frame f rest) :
    f.Fits ∧ input = f.wire ++ rest := by
  match input with
  | [] | [_] | [_, _] | [_, _, _] | [_, _, _, _] => cases h
  | b₀ :: b₁ :: b₂ :: b₃ :: ftype :: tail =>
      obtain ⟨total, htotal⟩ : ∃ total, total = unpackU32 b₀ b₁ b₂ b₃ := ⟨_, rfl⟩
      have hhead : packU32 total = [b₀, b₁, b₂, b₃] := by
        rw [htotal, packU32_unpackU32]
      simp only [readFrame, ← htotal] at h
      by_cases hsize : total < 1 ∨ maxFrameSize < total - 1
      · rw [if_pos hsize] at h
        cases h
      rw [if_neg hsize] at h
      by_cases hshort : tail.length < total - 1
      · rw [if_pos hshort] at h
        cases h
      rw [if_neg hshort] at h
      obtain ⟨rfl, rfl⟩ := ReadResult.frame.inj h
      have hlength : (tail.take (total - 1)).length = total - 1 :=
        List.length_take_of_le (not_lt.mp hshort)
      obtain ⟨hone, hmax⟩ := not_or.mp hsize
      refine ⟨?_, ?_⟩
      · rw [Frame.Fits, hlength]
        exact not_lt.mp hmax
      · rw [Frame.wire, hlength, Nat.sub_add_cancel (not_lt.mp hone), hhead]
        simp

/-- A length that is refused. -/
theorem readFrame_eq_invalidSize {input : Bytes} {total : Nat} :
    readFrame input = .invalidSize total ↔
      ∃ b₀ b₁ b₂ b₃ ftype rest, input = b₀ :: b₁ :: b₂ :: b₃ :: ftype :: rest ∧
        total = bigEndian [b₀, b₁, b₂, b₃] ∧ (total < 1 ∨ maxFrameSize + 1 < total) := by
  have hsame {n : Nat} : (n < 1 ∨ maxFrameSize + 1 < n) ↔ (n < 1 ∨ maxFrameSize < n - 1) := by
    omega
  constructor
  · intro h
    match input with
    | [] | [_] | [_, _] | [_, _, _] | [_, _, _, _] => cases h
    | b₀ :: b₁ :: b₂ :: b₃ :: ftype :: tail =>
        simp only [readFrame] at h
        by_cases hsize : unpackU32 b₀ b₁ b₂ b₃ < 1 ∨ maxFrameSize < unpackU32 b₀ b₁ b₂ b₃ - 1
        · rw [if_pos hsize] at h
          have htotal := ReadResult.invalidSize.inj h
          refine ⟨b₀, b₁, b₂, b₃, ftype, tail, rfl, ?_, ?_⟩
          · rw [bigEndian_four, htotal]
          · rw [← htotal]
            exact hsame.mpr hsize
        · rw [if_neg hsize] at h
          split_ifs at h
  · rintro ⟨b₀, b₁, b₂, b₃, ftype, tail, rfl, htotal, hsize⟩
    rw [bigEndian_four] at htotal
    simp only [readFrame]
    rw [← htotal, if_pos (hsame.mp hsize)]

/-- The numbers in a `CBORError` are those of a head. -/
def CborError.Small : CborError → Prop
  | .additionalInfo ai => ai < 32
  | .majorType major => major < 8
  | _ => True

theorem cborHead_small {data : Bytes} {e : CborError} (h : cborHead data = .error e) : e.Small := by
  cases data with
  | nil =>
      cases h
      trivial
  | cons ib rest =>
      obtain ⟨major, n, hib, hn⟩ : ∃ major n, ib.toNat = major * 32 + n ∧ n < 32 :=
        ⟨ib.toNat / 32, ib.toNat % 32, by omega, by omega⟩
      by_cases hshort : n < 24
      · rw [cborHead_short hib hshort] at h
        cases h
      by_cases hreserved : 28 ≤ n
      · rw [cborHead_reserved hib ⟨hreserved, hn⟩] at h
        cases h
        exact hn
      obtain ⟨k, rfl⟩ := Nat.exists_eq_add_of_le (not_lt.mp hshort)
      rw [cborHead_long hib (by omega)] at h
      split_ifs at h
      · cases h
        trivial
      · cases h
        trivial

theorem CborHead.major_lt {data rest : Bytes} {major n : Nat} (h : CborHead data major n rest) :
    major < 8 := by
  cases h with
  | @short ib _ _ _ hib hn =>
      have := ib.toNat_lt
      omega
  | @long ib _ _ _ _ hib hk harg =>
      have := ib.toNat_lt
      omega

theorem cborEntries_small {decode : Bytes → Except CborError (CborItem × Nat)}
    (hdecode : ∀ data e, decode data = .error e → e.Small) {data : Bytes} {e : CborError}
    {count pos : Nat} {out : List (CborKey × CborItem)}
    (h : cborEntries decode data count pos out = .error e) : e.Small := by
  induction count generalizing pos out with
  | zero => cases h
  | succ count ih =>
      simp only [cborEntries, bind, Except.bind] at h
      cases hkey : decode (data.drop pos) with
      | error e' =>
          rw [hkey] at h
          cases h
          exact hdecode _ _ hkey
      | ok r =>
          rw [hkey] at h
          simp only at h
          cases hvalue : decode (data.drop (pos + r.2)) with
          | error e' =>
              rw [hvalue] at h
              cases h
              exact hdecode _ _ hvalue
          | ok r' =>
              rw [hvalue] at h
              simp only at h
              obtain ⟨-, hasKey⟩ | ⟨-, key, hasKey⟩ := r.1.asKey_cases
              · rw [hasKey] at h
                cases h
                trivial
              · rw [hasKey] at h
                exact ih h

theorem cborDecode_small {limit : Nat} {data : Bytes} {e : CborError}
    (h : cborDecode limit data = .error e) : e.Small := by
  induction limit generalizing data e with
  | zero =>
      cases h
      trivial
  | succ limit ih =>
      obtain ⟨major, n, len, hdecoded, hhead⟩ | ⟨e', hdecoded, -⟩ := cborHead_cases data
      · rw [cborDecode_head hdecoded] at h
        split_ifs at h
        · rw [cborText] at h
          split at h
          · cases h
            trivial
          · cases h
        · exact cborEntries_small (fun data e => ih) h
        · cases h
          exact hhead.major_lt
      · rw [cborDecode_error hdecoded] at h
        cases h
        exact cborHead_small hdecoded

/-- There is an ERROR frame for it. -/
theorem errorFrame?_of_small {e : CborError} {message : String} (h : e.Small)
    (htext : Connection.cborErrorText e = some message) :
    ∃ frame, Connection.errorFrame? "BAD_START" message = some frame := by
  have hinfo : ∀ ai < 32, (Connection.errorFrame? "BAD_START"
      ("unsupported additional info " ++ String.ofList (decimal ai))).isSome = true := by
    decide +kernel
  have hmajor : ∀ major < 8, (Connection.errorFrame? "BAD_START"
      ("unsupported major type " ++ String.ofList (decimal major))).isSome = true := by
    decide +kernel
  cases e with
  | empty =>
      cases htext
      exact ⟨_, rfl⟩
  | additionalInfo ai =>
      cases htext
      exact Option.isSome_iff_exists.mp (hinfo ai h)
  | majorType major =>
      cases htext
      exact Option.isSome_iff_exists.mp (hmajor major h)
  | _ => cases htext

theorem reported_iff {e : CborError} :
    e.fault.reported = true ↔ ∃ message, Connection.cborErrorText e = some message := by
  cases e <;> simp [CborError.fault, CborFault.reported, Connection.cborErrorText]

namespace Connection

variable {c c' : Connection config}

/-- Refusing a START reports it. -/
theorem closesWith_of_refuse {f : Frame} {rest : Bytes} {message : String}
    (hframe : ∃ frame, errorFrame? "BAD_START" message = some frame)
    (hread : c.readNext = (c.taken f rest).refuse "BAD_START" message) :
    c.ClosesWith "BAD_START" := by
  obtain ⟨frame, hframe⟩ := hframe
  refine ⟨message, frame, hframe, ?_⟩
  rw [hread, refuse, hframe]
  exact ⟨rfl, rfl⟩

/-- Wherever the handler reads. -/
theorem reports_iff : c.Reports ↔ WellFramed (config.spareCalls + 2) c.input := by
  constructor
  · intro h
    refine ⟨?_, ?_⟩
    · intro b₀ b₁ b₂ b₃ ftype rest hinput
      by_contra hbad
      have hinvalid : readFrame c.input = .invalidSize (bigEndian [b₀, b₁, b₂, b₃]) :=
        readFrame_eq_invalidSize.mpr ⟨b₀, b₁, b₂, b₃, ftype, rest, hinput, rfl, by omega⟩
      have hcaught := h.caught
      simp [uncaught?, hinvalid] at hcaught
    · intro f rest hfits hinput hstart fault hfault
      have hframe : readFrame c.input = .frame f rest := by
        rw [hinput, readFrame_wire hfits]
      have hcaught := h.caught
      simp only [uncaught?, hframe, if_pos hstart] at hcaught
      have houtcome := (item_iff _ _ _).mp hfault
      cases hdecode : cborDecode (config.spareCalls + 2) f.payload with
      | ok r => simp [hdecode, outcome] at houtcome
      | error e =>
          rw [hdecode] at houtcome hcaught
          cases houtcome
          refine reported_iff.mpr (Option.ne_none_iff_exists'.mp ?_)
          intro hnone
          simp [hnone] at hcaught
  · intro h
    have hvalid : ∀ total, readFrame c.input ≠ .invalidSize total := by
      intro total hinvalid
      obtain ⟨b₀, b₁, b₂, b₃, ftype, rest, hinput, rfl, hsize⟩ :=
        readFrame_eq_invalidSize.mp hinvalid
      have := h.length b₀ b₁ b₂ b₃ ftype rest hinput
      omega
    have hreported {f : Frame} {rest : Bytes} {e : CborError}
        (hframe : readFrame c.input = .frame f rest) (hstart : f.ftype = frameStart)
        (hdecode : cborDecode (config.spareCalls + 2) f.payload = .error e) :
        ∃ message, cborErrorText e = some message := by
      obtain ⟨hfits, hinput⟩ := readFrame_eq_frame hframe
      refine reported_iff.mp (h.start f rest hfits hinput hstart _ ?_)
      rw [item_iff, hdecode]
      rfl
    refine ⟨?_, ?_, fun total hinvalid => absurd hinvalid (hvalid total)⟩
    · cases hread : readFrame c.input with
      | incomplete => simp [uncaught?, hread]
      | invalidSize total => exact absurd hread (hvalid total)
      | frame f rest =>
          simp only [uncaught?, hread]
          by_cases hstart : f.ftype = frameStart
          · rw [if_pos hstart]
            cases hdecode : cborDecode (config.spareCalls + 2) f.payload with
            | ok r => rfl
            | error e =>
                obtain ⟨message, htext⟩ := hreported hread hstart hdecode
                simp [htext]
          · rw [if_neg hstart]
    · intro f rest hframe hstart hnot
      have hread : c.readNext = (c.taken f rest).handleStart f.payload := by
        rw [readNext_of_frame hframe, dispatch_start hstart]
      cases hdecode : cborDecode (config.spareCalls + 2) f.payload with
      | error e =>
          obtain ⟨message, htext⟩ := hreported hframe hstart hdecode
          have hrefused : c.readNext = (c.taken f rest).refuse "BAD_START" message := by
            rw [hread, handleStart, hdecode]
            simp only [htext]
          exact closesWith_of_refuse
            (errorFrame?_of_small (cborDecode_small hdecode) htext) hrefused
      | ok r =>
          obtain ⟨item, n⟩ := r
          have hnotMap : item.kind ≠ .map := by
            intro hkind
            refine hnot (f.payload.drop n) ((item_iff _ _ _).mpr ?_)
            rw [hdecode, outcome, hkind]
          have hrefused : c.readNext = (c.taken f rest).refuse "BAD_START" "not a map" := by
            rw [hread, handleStart, hdecode]
            cases item with
            | map entries => exact absurd rfl hnotMap
            | uint n => rfl
            | tstr s => rfl
          exact closesWith_of_refuse ⟨_, rfl⟩ hrefused

/-- What the handler has read and what is left are the client's bytes. -/
theorem input_step {input : Bytes} {label : Label}
    (h : c.arrived.flatMap Frame.wire ++ c.input = input) (hstep : c.step label = some c') :
    c'.arrived.flatMap Frame.wire ++ c'.input = input := by
  have hkeep (hsame : c.SameInput c') : c'.arrived.flatMap Frame.wire ++ c'.input = input := by
    rw [hsame.1, hsame.2, h]
  cases label with
  | read =>
      rw [step] at hstep
      split_ifs at hstep
      cases hstep
      cases hread : readFrame c.input with
      | incomplete =>
          rw [readNext, hread]
          exact h
      | invalidSize total =>
          rw [readNext, hread]
          exact h
      | frame f rest =>
          obtain ⟨hinput, harrived⟩ := sameInput_dispatch (c := c.taken f rest) f
          rw [readNext_of_frame hread, hinput, harrived, taken]
          simp only
          rw [List.flatMap_append, List.flatMap_singleton, List.append_assoc,
            ← (readFrame_eq_frame hread).2, h]
  | asr i =>
      obtain ⟨_, _, _, -, -, -, rfl⟩ := asrStep_eq_some hstep
      exact h
  | finish => exact hkeep (sameInput_finishEos hstep)
  | timeout => exact hkeep (sameInput_timeout hstep)

end Connection

/-- At every place of the client's bytes that the handler comes to read, in every run: it
goes on or closes the connection with an ERROR for what is malformed, if and only if the
length of the frame is valid and a START has no fault but a reported one. -/
theorem malformed_reported_iff (config : BridgeConfig) (input : Bytes)
    (labels : List Connection.Label) (c : Connection config)
    (hrun : runSteps Connection.step (connected config input) labels = some c) :
    c.arrived.flatMap Frame.wire ++ c.input = input ∧
      (c.Reports ↔ WellFramed (config.spareCalls + 2) c.input) := by
  refine ⟨?_, Connection.reports_iff⟩
  have hany : AlongRun Connection.step (fun _ _ => True) (connected config input) labels :=
    alongRun_of_forall (fun _ _ => trivial) _ _
  exact runSteps_invariant (fun h _ hstep => Connection.input_step h hstep) rfl hany hrun

section Examples

def silentConfig : BridgeConfig := scriptedConfig fun _ => ""

/-- A START whose payload is a negative integer. -/
def negativeStart : Bytes := [0, 0, 0, 2, 1, 0x20]

theorem readFrame_negativeStart :
    readFrame negativeStart = .frame ⟨frameStart, [0x20]⟩ [] := by
  have hwire : negativeStart = Frame.wire ⟨frameStart, [0x20]⟩ ++ [] := by
    decide
  have hfits : Frame.Fits ⟨frameStart, [0x20]⟩ := by
    rw [Frame.Fits, List.length_singleton, maxFrameSize]
    norm_num
  rw [hwire, readFrame_wire hfits]

theorem wellFramed_negative : WellFramed 2 negativeStart where
  length := by
    intro b₀ b₁ b₂ b₃ ftype rest h
    simp only [negativeStart, List.cons.injEq] at h
    obtain ⟨rfl, rfl, rfl, rfl, -⟩ := h
    decide
  start := by
    intro f rest hfits hinput _ fault hfault
    have hread := readFrame_wire hfits rest
    rw [← hinput, readFrame_negativeStart] at hread
    obtain ⟨rfl, rfl⟩ := ReadResult.frame.inj hread
    have houtcome := (item_iff _ _ _).mp hfault
    cases houtcome
    rfl

theorem malformed_reported_negative :
    (connected silentConfig negativeStart).Reports ∧
      (connected silentConfig negativeStart).ClosesWith "BAD_START" := by
  have h : (connected silentConfig negativeStart).Reports :=
    (malformed_reported_iff silentConfig negativeStart [] _ rfl).2.mpr wellFramed_negative
  refine ⟨h, h.start ⟨frameStart, [0x20]⟩ [] readFrame_negativeStart rfl ?_⟩
  intro rest hitem
  cases (item_iff _ _ _).mp hitem

/-- A START whose text has no length, and a frame of length 0: both end the handler with an
exception, and nothing is written. -/
theorem malformed_unreported :
    (connected silentConfig [0, 0, 0, 2, 1, 0x78]).uncaught? = some (.decode .indexError) ∧
      (connected silentConfig [0, 0, 0, 2, 1, 0x78]).readNext.phase = .closed ∧
      (connected silentConfig [0, 0, 0, 2, 1, 0x78]).readNext.written = [] ∧
      ¬ (connected silentConfig [0, 0, 0, 2, 1, 0x78]).Reports ∧
      (connected silentConfig [0, 0, 0, 0, 1]).uncaught? = some (.frameSize 0) ∧
      (connected silentConfig [0, 0, 0, 0, 1]).readNext.written = [] ∧
      ¬ (connected silentConfig [0, 0, 0, 0, 1]).Reports := by
  refine ⟨rfl, rfl, rfl, ?_, rfl, rfl, ?_⟩
  · intro h
    cases h.caught
  · intro h
    cases h.caught

end Examples

end Mrcp
end Sandroid
