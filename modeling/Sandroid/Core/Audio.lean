import Sandroid.Lib.ExceptLoop
import Sandroid.Lib.Rounding
import Sandroid.Lib.Wave
import Sandroid.Vad.SileroAgreement
import Mathlib.Data.List.GetD

/-!
# The audio front end

`core/audio.py`: a WAVE file in, 16 kHz mono PCM16 out.  Samples are integers; where the
source interpolates in floating point, the numbers here are exact.

`decodeWav_eq_ok_iff` says what is accepted and what comes out; `decodeWav_canonical`, that
it has the canonical form.
-/

namespace Sandroid
namespace Core

open Lib Api Vad

def targetSampleRate : Nat := 16000
def targetChannels : Nat := 1
def targetSampleWidth : Nat := 2

structure AudioBuffer where
  pcm16 : Pcm
  sampleRate : Nat
  channels : Nat
deriving DecidableEq, Repr

def AudioBuffer.durationMs (buffer : AudioBuffer) : Nat :=
  buffer.pcm16.length / (buffer.channels * targetSampleWidth) * 1000 / buffer.sampleRate

/-- What leaves `decode_wav`. -/
inductive AudioFault where
  /-- `AudioFormatError` -/
  | format (message : String)
  /-- an exception of `wave` that is not `wave.Error` -/
  | wave (e : WaveError)
  /-- NumPy: half a sample, or half a frame -/
  | value
  | zeroDivision
deriving DecidableEq, Repr

/-- The samples of PCM16; half a sample at the end is not one. -/
def int16s : Pcm → List Int
  | lo :: hi :: rest => int16 lo hi :: int16s rest
  | _ => []

/-- `np.frombuffer(frames, dtype=np.int16)`. -/
def fromBuffer (frames : Pcm) : Except AudioFault (List Int) :=
  if frames.length % 2 = 1 then .error .value else .ok (int16s frames)

/-- `samples.tobytes()`. -/
def toBytes (samples : List Int) : Pcm :=
  samples.flatMap fun x => leBytes 2 (x % 65536).toNat

/-- `samples.reshape(-1, 2).mean(axis=1).astype(np.int16)` of an even number of samples. -/
def mixDown : List Int → List Int
  | left :: right :: rest => truncate (((left + right : Int) : ℚ) / 2) :: mixDown rest
  | _ => []

/-- `np.linspace(0.0, stop, num)[i]`. -/
def linspace (stop num i : Nat) : ℚ :=
  if num = 1 then 0 else i * stop / (num - 1 : Nat)

/-- Between the two samples around a position. -/
def interpolate (samples : List Int) (position : ℚ) : Int :=
  let floor := ⌊position⌋.toNat
  let frac := position - floor
  let high := min (floor + 1) (samples.length - 1)
  truncate ((samples.getD floor 0 : ℚ) * (1 - frac) + (samples.getD high 0 : ℚ) * frac)

/-- `_resample_linear`. -/
def resampleLinear (samples : List Int) (srcRate dstRate : Nat) : Except AudioFault (List Int) :=
  if srcRate = dstRate then
    .ok samples
  else if samples = [] then
    .ok samples
  else if srcRate = 0 then
    .error .zeroDivision
  else
    let duration : ℚ := samples.length / srcRate
    let dstCount := max 1 (roundHalfEven (duration * dstRate)).toNat
    .ok ((List.range dstCount).map fun i =>
      interpolate samples (linspace (samples.length - 1) dstCount i))

/-- The frames as one channel. -/
def toMono (channels : Nat) (samples : List Int) : Except AudioFault (List Int) :=
  if channels = 2 then
    if samples.length % 2 = 1 then .error .value else .ok (mixDown samples)
  else
    .ok samples

def decodeWav (data : Pcm) : Except AudioFault AudioBuffer :=
  if data = [] then
    .error (.format "empty audio payload")
  else
    match openWave data with
    | .error (.error message) => .error (.format ("invalid WAV payload: " ++ message))
    | .error e => .error (.wave e)
    | .ok reader =>
        let channels := reader.fmt.nchannels
        let sampleWidth := reader.fmt.sampwidth
        let sampleRate := reader.fmt.framerate
        let frames := reader.readframes reader.nframes
        if sampleWidth ≠ targetSampleWidth then
          .error (.format ("unsupported sample width " ++
            String.ofList (decimal (sampleWidth * 8)) ++
            "-bit; v0.1 accepts 16-bit PCM WAV only"))
        else if channels ≠ 1 ∧ channels ≠ 2 then
          .error (.format ("unsupported channel count " ++ String.ofList (decimal channels)))
        else do
          let samples ← fromBuffer frames
          let mono ← toMono channels samples
          let resampled ← resampleLinear mono sampleRate targetSampleRate
          .ok ⟨toBytes resampled, targetSampleRate, targetChannels⟩

/-- The range of an int16. -/
def InRange (x : Int) : Prop :=
  -32768 ≤ x ∧ x ≤ 32767

theorem int16_eq (lo hi : UInt8) : int16 lo hi =
    if ((lo.toNat + 256 * hi.toNat : Nat) : Int) < 32768 then
      ((lo.toNat + 256 * hi.toNat : Nat) : Int)
    else
      ((lo.toNat + 256 * hi.toNat : Nat) : Int) - 65536 := by
  unfold int16
  simp only

/-- Two's complement of the two bytes as a number. -/
theorem int16_cases (lo hi : UInt8) : ∃ n : Nat, n = lo.toNat + 256 * hi.toNat ∧ n < 65536 ∧
    ((int16 lo hi = n ∧ n < 32768) ∨ (int16 lo hi = n - 65536 ∧ 32768 ≤ n)) := by
  have hlo : lo.toNat < 256 := lo.toNat_lt
  have hhi : hi.toNat < 256 := hi.toNat_lt
  obtain ⟨n, hn⟩ : ∃ n, n = lo.toNat + 256 * hi.toNat := ⟨_, rfl⟩
  refine ⟨n, hn, by omega, ?_⟩
  rw [int16_eq, ← hn]
  by_cases h : (n : Int) < 32768
  · rw [if_pos h]
    omega
  · rw [if_neg h]
    omega

theorem int16_range (lo hi : UInt8) : InRange (int16 lo hi) := by
  obtain ⟨n, -, hlt, h⟩ := int16_cases lo hi
  rw [InRange]
  omega

theorem int16s_range : ∀ (pcm : Pcm), ∀ x ∈ int16s pcm, InRange x
  | [] => by simp [int16s]
  | [_] => by simp [int16s]
  | lo :: hi :: rest => by
      intro x hx
      rw [int16s, List.mem_cons] at hx
      rcases hx with hx | hx
      · rw [hx]
        exact int16_range lo hi
      · exact int16s_range rest x hx

theorem leBytes_int16 (lo hi : UInt8) : leBytes 2 (int16 lo hi % 65536).toNat = [lo, hi] := by
  obtain ⟨n, hn, hlt, h⟩ := int16_cases lo hi
  have hlo : lo.toNat < 256 := lo.toNat_lt
  have hhi : hi.toNat < 256 := hi.toNat_lt
  have hvalue : (int16 lo hi % 65536).toNat = n := by omega
  have hfirst : UInt8.ofNat n = lo := by
    refine UInt8.toNat_inj.mp ?_
    rw [UInt8.toNat_ofNat']
    omega
  have hsecond : UInt8.ofNat (n / 256) = hi := by
    refine UInt8.toNat_inj.mp ?_
    rw [UInt8.toNat_ofNat']
    omega
  rw [hvalue, leBytes, leBytes, leBytes, hfirst, hsecond]

/-- Whole samples come back as the same bytes. -/
theorem toBytes_int16s : ∀ {pcm : Pcm}, pcm.length % 2 = 0 → toBytes (int16s pcm) = pcm
  | [], _ => rfl
  | [_], h => by cases h
  | lo :: hi :: rest, h => by
      have hrest : rest.length % 2 = 0 := by
        rw [List.length_cons, List.length_cons] at h
        omega
      have ih := toBytes_int16s hrest
      rw [toBytes] at ih ⊢
      rw [int16s, List.flatMap_cons, leBytes_int16, ih]
      rfl

theorem int16_leBytes {x : Int} (h : InRange x) :
    ∃ lo hi, leBytes 2 (x % 65536).toNat = [lo, hi] ∧ int16 lo hi = x := by
  obtain ⟨hlow, hhigh⟩ := h
  obtain ⟨m, hm⟩ : ∃ m, m = (x % 65536).toNat := ⟨_, rfl⟩
  obtain ⟨n, hn, hlt, hvalue⟩ := int16_cases (UInt8.ofNat m) (UInt8.ofNat (m / 256))
  rw [UInt8.toNat_ofNat', UInt8.toNat_ofNat'] at hn
  rw [← hm]
  refine ⟨UInt8.ofNat m, UInt8.ofNat (m / 256), rfl, ?_⟩
  omega

/-- And int16 samples survive the bytes. -/
theorem int16s_toBytes {samples : List Int} (h : ∀ x ∈ samples, InRange x) :
    int16s (toBytes samples) = samples := by
  induction samples with
  | nil => rfl
  | cons x samples ih =>
      obtain ⟨lo, hi, hbytes, hvalue⟩ := int16_leBytes (h x List.mem_cons_self)
      have ih := ih fun y hy => h y (List.mem_cons_of_mem _ hy)
      rw [toBytes] at ih ⊢
      rw [List.flatMap_cons, hbytes, List.cons_append, List.cons_append, List.nil_append, int16s,
        hvalue, ih]

theorem length_toBytes (samples : List Int) : (toBytes samples).length = 2 * samples.length := by
  induction samples with
  | nil => rfl
  | cons x samples ih =>
      rw [toBytes] at ih ⊢
      rw [List.flatMap_cons, List.length_append, length_leBytes, ih, List.length_cons]
      omega

theorem length_int16s : ∀ pcm : Pcm, (int16s pcm).length = pcm.length / 2
  | [] => rfl
  | [_] => by simp [int16s]
  | _ :: _ :: rest => by
      rw [int16s, List.length_cons, length_int16s rest, List.length_cons, List.length_cons]
      omega

theorem length_mixDown : ∀ samples : List Int, (mixDown samples).length = samples.length / 2
  | [] => rfl
  | [_] => by simp [mixDown]
  | _ :: _ :: rest => by
      rw [mixDown, List.length_cons, length_mixDown rest, List.length_cons, List.length_cons]
      omega

section Steps

variable {frames : Pcm} {samples mono : List Int} {channels rate : Nat}

theorem fromBuffer_eq_ok_iff :
    fromBuffer frames = .ok samples ↔ frames.length % 2 = 0 ∧ int16s frames = samples := by
  rw [fromBuffer]
  split_ifs with hodd
  · exact iff_of_false (fun h => by cases h) (fun h => by omega)
  · rw [Except.ok.injEq]
    exact ⟨fun h => ⟨by omega, h⟩, fun h => h.2⟩

/-- What comes out of a mix of whole frames. -/
theorem toMono_eq_ok_iff : toMono channels samples = .ok mono ↔
    (channels = 2 → samples.length % 2 = 0) ∧
      (if channels = 2 then mixDown samples else samples) = mono := by
  rw [toMono]
  split_ifs with htwo hodd
  · exact iff_of_false (fun h => by cases h) (fun h => by have := h.1 htwo; omega)
  · rw [Except.ok.injEq]
    exact ⟨fun h => ⟨fun _ => by omega, h⟩, fun h => h.2⟩
  · rw [Except.ok.injEq]
    exact ⟨fun h => ⟨fun h' => absurd h' htwo, h⟩, fun h => h.2⟩

/-- Only a rate of zero is in the way. -/
theorem resampleLinear_ok_iff :
    (∃ resampled, resampleLinear mono rate targetSampleRate = .ok resampled) ↔
      mono = [] ∨ rate ≠ 0 := by
  rw [resampleLinear]
  split_ifs with hsame hempty hzero
  · refine iff_of_true ⟨mono, rfl⟩ (Or.inr ?_)
    rw [hsame]
    decide
  · exact iff_of_true ⟨mono, rfl⟩ (Or.inl hempty)
  · constructor
    · rintro ⟨resampled, h⟩
      cases h
    · rintro (h | h)
      · exact absurd h hempty
      · exact absurd hzero h
  · exact iff_of_true ⟨_, rfl⟩ (Or.inr hzero)

theorem fromBuffer_ne_format (message : String) :
    fromBuffer frames ≠ .error (.format message) := by
  rw [fromBuffer]
  split_ifs
  · exact fun h => by cases h
  · exact fun h => by cases h

theorem toMono_ne_format (message : String) :
    toMono channels samples ≠ .error (.format message) := by
  rw [toMono]
  split_ifs
  · exact fun h => by cases h
  · exact fun h => by cases h
  · exact fun h => by cases h

theorem resampleLinear_ne_format (message : String) :
    resampleLinear mono rate targetSampleRate ≠ .error (.format message) := by
  rw [resampleLinear]
  split_ifs
  · exact fun h => by cases h
  · exact fun h => by cases h
  · exact fun h => by cases h
  · exact fun h => by cases h

end Steps

theorem mixDown_range : ∀ {samples : List Int}, (∀ x ∈ samples, InRange x) →
    ∀ x ∈ mixDown samples, InRange x
  | [], _ => by simp [mixDown]
  | [_], _ => by simp [mixDown]
  | left :: right :: rest, h => by
      intro x hx
      rw [mixDown, List.mem_cons] at hx
      rcases hx with rfl | hx
      · obtain ⟨hl₁, hl₂⟩ := h left (by simp)
        obtain ⟨hr₁, hr₂⟩ := h right (by simp)
        have hlo : ((-32768 : Int) : ℚ) ≤ ((left + right : Int) : ℚ) / 2 := by
          rw [le_div_iff₀ two_pos]
          exact_mod_cast (by omega : (-32768 : Int) * 2 ≤ left + right)
        have hhi : ((left + right : Int) : ℚ) / 2 ≤ ((32767 : Int) : ℚ) := by
          rw [div_le_iff₀ two_pos]
          exact_mod_cast (by omega : left + right ≤ (32767 : Int) * 2)
        exact truncate_mem hlo hhi
      · exact mixDown_range (fun y hy => h y (by simp [hy])) x hx

/-- A weighted mean of two numbers is between common bounds of them. -/
theorem mean_mem {lo hi a b f : ℚ} (h₀ : 0 ≤ f) (h₁ : f ≤ 1) (ha : lo ≤ a ∧ a ≤ hi)
    (hb : lo ≤ b ∧ b ≤ hi) : lo ≤ a * (1 - f) + b * f ∧ a * (1 - f) + b * f ≤ hi := by
  have h₁' : 0 ≤ 1 - f := sub_nonneg.mpr h₁
  constructor
  · have := mul_le_mul_of_nonneg_right ha.1 h₁'
    have := mul_le_mul_of_nonneg_right hb.1 h₀
    linarith
  · have := mul_le_mul_of_nonneg_right ha.2 h₁'
    have := mul_le_mul_of_nonneg_right hb.2 h₀
    linarith

/-- The value between two samples that the cast to int16 gets. -/
def between (a b : Int) (position : ℚ) : ℚ :=
  a * (1 - Int.fract position) + b * Int.fract position

/-- It is between all bounds of the two. -/
theorem between_mem {a b lo hi : Int} (ha : lo ≤ a ∧ a ≤ hi) (hb : lo ≤ b ∧ b ≤ hi)
    (position : ℚ) : (lo : ℚ) ≤ between a b position ∧ between a b position ≤ (hi : ℚ) :=
  mean_mem (Int.fract_nonneg position) (Int.fract_lt_one position).le
    ⟨Int.cast_le.mpr ha.1, Int.cast_le.mpr ha.2⟩ ⟨Int.cast_le.mpr hb.1, Int.cast_le.mpr hb.2⟩

theorem interpolate_eq (samples : List Int) {position : ℚ} (hpos : 0 ≤ position) :
    interpolate samples position = truncate (between (samples.getD ⌊position⌋.toNat 0)
      (samples.getD (min (⌊position⌋.toNat + 1) (samples.length - 1)) 0) position) := by
  have hfloor : ((⌊position⌋.toNat : Nat) : ℚ) = (⌊position⌋ : ℚ) := by
    have hnonneg : 0 ≤ ⌊position⌋ := Int.floor_nonneg.mpr hpos
    exact_mod_cast Int.toNat_of_nonneg hnonneg
  rw [interpolate, between, Int.fract]
  simp only [hfloor]

/-- A value between two samples stays in their range. -/
theorem interpolate_range {samples : List Int} (h : ∀ x ∈ samples, InRange x) {position : ℚ}
    (hpos : 0 ≤ position) : InRange (interpolate samples position) := by
  have hget (i : Nat) : InRange (samples.getD i 0) := by
    rcases lt_or_ge i samples.length with hi | hi
    · rw [List.getD_eq_getElem _ _ hi]
      exact h _ (List.getElem_mem hi)
    · rw [List.getD_eq_default _ _ hi, InRange]
      omega
  rw [interpolate_eq samples hpos]
  have hmem := between_mem (hget ⌊position⌋.toNat)
    (hget (min (⌊position⌋.toNat + 1) (samples.length - 1))) position
  exact truncate_mem hmem.1 hmem.2

theorem linspace_nonneg (stop num i : Nat) : 0 ≤ linspace stop num i := by
  rw [linspace]
  split_ifs
  · exact le_rfl
  · positivity

theorem resampleLinear_range {samples resampled : List Int} {srcRate dstRate : Nat}
    (h : ∀ x ∈ samples, InRange x) (hok : resampleLinear samples srcRate dstRate = .ok resampled) :
    ∀ x ∈ resampled, InRange x := by
  rw [resampleLinear] at hok
  split_ifs at hok
  · rw [← Except.ok.inj hok]
    exact h
  · rw [← Except.ok.inj hok]
    exact h
  · rw [← Except.ok.inj hok]
    intro x hx
    obtain ⟨i, -, rfl⟩ := List.mem_map.mp hx
    exact interpolate_range h (linspace_nonneg _ _ _)

theorem toMono_range {channels : Nat} {samples mono : List Int} (h : ∀ x ∈ samples, InRange x)
    (hok : toMono channels samples = .ok mono) : ∀ x ∈ mono, InRange x := by
  rw [toMono] at hok
  split_ifs at hok
  · rw [← Except.ok.inj hok]
    exact mixDown_range h
  · rw [← Except.ok.inj hok]
    exact h

/-- What is accepted, and what becomes of it. -/
theorem decodeWav_eq_ok_iff {data : Pcm} {buffer : AudioBuffer} :
    decodeWav data = .ok buffer ↔
      ∃ reader mono resampled, openWave data = .ok reader ∧ reader.fmt.sampwidth = 2 ∧
        (reader.fmt.nchannels = 1 ∨ reader.fmt.nchannels = 2) ∧
        (reader.readframes reader.nframes).length % 2 = 0 ∧
        toMono reader.fmt.nchannels (int16s (reader.readframes reader.nframes)) = .ok mono ∧
        resampleLinear mono reader.fmt.framerate 16000 = .ok resampled ∧
        buffer = ⟨toBytes resampled, 16000, 1⟩ := by
  constructor
  · intro h
    rw [decodeWav] at h
    split_ifs at h
    split at h
    next => cases h
    next => cases h
    next reader hopen =>
      simp only at h
      split_ifs at h with hwidth hchannels
      rw [not_not] at hwidth
      simp only [except_bind_eq_ok_iff] at h
      obtain ⟨samples, hsamples, mono, hmono, resampled, hresampled, hbuffer⟩ := h
      obtain ⟨heven, rfl⟩ := fromBuffer_eq_ok_iff.mp hsamples
      refine ⟨reader, mono, resampled, hopen, hwidth, ?_, heven, hmono, hresampled,
        (Except.ok.inj hbuffer).symm⟩
      rw [not_and_or, not_not, not_not] at hchannels
      exact hchannels
  · rintro ⟨reader, mono, resampled, hopen, hwidth, hchannels, heven, hmono, hresampled, rfl⟩
    have hdata : data ≠ [] := by
      rintro rfl
      cases hopen
    have hwidth' : ¬ reader.fmt.sampwidth ≠ targetSampleWidth := not_not.mpr hwidth
    have hchannels' : ¬ (reader.fmt.nchannels ≠ 1 ∧ reader.fmt.nchannels ≠ 2) := by
      rw [not_and_or, not_not, not_not]
      exact hchannels
    rw [decodeWav, if_neg hdata, hopen]
    simp only [if_neg hwidth', if_neg hchannels', except_bind_eq_ok_iff]
    exact ⟨_, fromBuffer_eq_ok_iff.mpr ⟨heven, rfl⟩, mono, hmono, resampled, hresampled, rfl⟩

/-- The canonical form: its samples are there again, and the rate and the channel are those
that everything downstream assumes. -/
theorem decodeWav_canonical {data : Pcm} {buffer : AudioBuffer} (h : decodeWav data = .ok buffer) :
    buffer.sampleRate = 16000 ∧ buffer.channels = 1 ∧
      buffer.pcm16 = toBytes (int16s buffer.pcm16) := by
  obtain ⟨reader, mono, resampled, -, -, -, -, hmono, hresampled, rfl⟩ :=
    decodeWav_eq_ok_iff.mp h
  refine ⟨rfl, rfl, ?_⟩
  rw [int16s_toBytes]
  exact resampleLinear_range (toMono_range (int16s_range _) hmono) hresampled

/-- A file that is in the canonical form already passes through. -/
theorem decodeWav_native {data : Pcm} {buffer : AudioBuffer} {reader : WaveFile}
    (h : decodeWav data = .ok buffer) (hopen : openWave data = .ok reader)
    (hmono : reader.fmt.nchannels = 1) (hrate : reader.fmt.framerate = 16000) :
    reader.fmt.sampwidth = 2 ∧ (reader.readframes reader.nframes).length % 2 = 0 ∧
      buffer.pcm16 = reader.readframes reader.nframes := by
  obtain ⟨reader', mono, resampled, hopen', hwidth, -, heven, hmono', hresampled, rfl⟩ :=
    decodeWav_eq_ok_iff.mp h
  rw [hopen] at hopen'
  obtain rfl := Except.ok.inj hopen'
  refine ⟨hwidth, heven, ?_⟩
  rw [hmono, toMono, if_neg (by decide)] at hmono'
  rw [hrate, resampleLinear, if_pos rfl, ← Except.ok.inj hmono'] at hresampled
  rw [← Except.ok.inj hresampled, toBytes_int16s heven]

end Core
end Sandroid
