import Sandroid.Lib.PyText
import Mathlib.Data.Nat.Digits.Lemmas
import Mathlib.Tactic.Common

/-!
# Reading WAVE files

Python's `wave` module for reading: a RIFF chunk over the file, the chunks inside it, the
format and the samples.  A chunk reads from a file or from the chunk that it is in; it is
padded to an even length.

The loop over the chunks has fuel; `scanChunks_fuel` shows that the length of the file is
enough.  `openWave_waveBytes` is the reading of a file with nothing but a format and a data
chunk.
-/

namespace Sandroid
namespace Lib

def leValue (bytes : List UInt8) : Nat :=
  bytes.foldr (fun b n => b.toNat + 256 * n) 0

def leBytes : Nat → Nat → List UInt8
  | 0, _ => []
  | width + 1, n => UInt8.ofNat n :: leBytes width (n / 256)

@[simp] theorem length_leBytes (width n : Nat) : (leBytes width n).length = width := by
  induction width generalizing n with
  | zero => rfl
  | succ width ih => rw [leBytes, List.length_cons, ih]

theorem leValue_leBytes {width n : Nat} (h : n < 256 ^ width) : leValue (leBytes width n) = n := by
  induction width generalizing n with
  | zero =>
      rw [pow_zero, Nat.lt_one_iff] at h
      rw [h]
      rfl
  | succ width ih =>
      have hrest : n / 256 < 256 ^ width := by
        rw [Nat.div_lt_iff_lt_mul (by decide), ← pow_succ]
        exact h
      have hstep : leValue (leBytes (width + 1) n) =
          (UInt8.ofNat n).toNat + 256 * leValue (leBytes width (n / 256)) := rfl
      rw [hstep, ih hrest, UInt8.toNat_ofNat']
      omega

structure Chunk where
  name : List UInt8
  size : Nat
  sizeRead : Nat := 0
deriving DecidableEq, Repr

section Chunk

variable {File : Type}

/-- `_Chunk(file, bigendian=False)`; `none` is the `EOFError`. -/
def Chunk.open? (read : File → Nat → List UInt8 × File) (file : File) : Option (Chunk × File) :=
  let name := read file 4
  if name.1.length < 4 then
    none
  else
    let size := read name.2 4
    if size.1.length < 4 then
      none
    else
      some ({ name := name.1, size := leValue size.1 }, size.2)

/-- `chunk.read(n)`, with the pad byte after the last one. -/
def Chunk.read (read : File → Nat → List UInt8 × File) (c : Chunk) (file : File) (n : Nat) :
    List UInt8 × Chunk × File :=
  if c.size ≤ c.sizeRead then
    ([], c, file)
  else
    let data := read file (min n (c.size - c.sizeRead))
    let c' := { c with sizeRead := c.sizeRead + data.1.length }
    if c'.sizeRead = c.size ∧ c.size % 2 = 1 then
      let pad := read data.2 1
      (data.1, { c' with sizeRead := c'.sizeRead + pad.1.length }, pad.2)
    else
      (data.1, c', data.2)

end Chunk

/-- A file in memory, from the current position on. -/
def readBytes (file : List UInt8) (n : Nat) : List UInt8 × List UInt8 :=
  (file.take n, file.drop n)

/-- The RIFF chunk, and the file behind it. -/
structure Riff where
  chunk : Chunk
  file : List UInt8
deriving DecidableEq, Repr

namespace Riff

def read (r : Riff) (n : Nat) : List UInt8 × Riff :=
  let out := r.chunk.read readBytes r.file n
  (out.1, ⟨out.2.1, out.2.2⟩)

/-- `seek(n, 1)`; `none` is the `RuntimeError`. -/
def skip? (r : Riff) (n : Nat) : Option Riff :=
  let pos := r.chunk.sizeRead + n
  if r.chunk.size < pos then
    none
  else
    some ⟨{ r.chunk with sizeRead := pos }, r.file.drop n⟩

/-- `chunk.skip()` for a chunk inside. -/
def skipRest? (r : Riff) (c : Chunk) : Option Riff :=
  r.skip? (c.size + c.size % 2 - c.sizeRead)

end Riff

inductive WaveError where
  /-- `wave.Error` -/
  | error (message : String)
  /-- `EOFError` -/
  | eof
  /-- the `RuntimeError` of `seek` -/
  | runtime
deriving DecidableEq, Repr

/-- What the format chunk says, with the checks of the reader. -/
structure WaveFormat where
  nchannels : Nat
  sampwidth : Nat
  framerate : Nat
  nchannels_pos : 0 < nchannels
  sampwidth_pos : 0 < sampwidth
deriving DecidableEq, Repr

def WaveFormat.framesize (fmt : WaveFormat) : Nat :=
  fmt.nchannels * fmt.sampwidth

/-- An open `Wave_read`, at its first frame. -/
structure WaveFile where
  fmt : WaveFormat
  nframes : Nat
  data : Chunk
  riff : Riff
deriving DecidableEq, Repr

def asciiBytes (s : String) : List UInt8 :=
  s.toList.map fun x => UInt8.ofNat x.toNat

/-- `_read_fmt_chunk`. -/
def readFmtChunk (c : Chunk) (r : Riff) : Except WaveError (WaveFormat × Chunk × Riff) :=
  let head := c.read Riff.read r 14
  if head.1.length < 14 then
    .error .eof
  else
    let formatTag := leValue (head.1.take 2)
    let nchannels := leValue ((head.1.drop 2).take 2)
    let framerate := leValue ((head.1.drop 4).take 4)
    if formatTag = 1 then
      let width := head.2.1.read Riff.read head.2.2 2
      if width.1.length < 2 then
        .error .eof
      else
        let sampwidth := (leValue width.1 + 7) / 8
        if hwidth : sampwidth = 0 then
          .error (.error "bad sample width")
        else if hchannels : nchannels = 0 then
          .error (.error "bad # of channels")
        else
          .ok (⟨nchannels, sampwidth, framerate, Nat.pos_of_ne_zero hchannels,
            Nat.pos_of_ne_zero hwidth⟩, width.2)
    else
      .error (.error ("unknown format: " ++ String.ofList (decimal formatTag)))

def missingChunk : WaveError :=
  .error "fmt chunk and/or data chunk missing"

/-- The loop of `initfp`, given the format read so far. -/
def scanChunks : Nat → Option WaveFormat → Riff → Except WaveError WaveFile
  | 0, _, _ => .error missingChunk
  | fuel + 1, fmt, r =>
      match Chunk.open? Riff.read r with
      | none => .error missingChunk
      | some (c, r) =>
          if c.name = asciiBytes "fmt " then
            match readFmtChunk c r with
            | .error e => .error e
            | .ok (fmt, c, r) =>
                match r.skipRest? c with
                | none => .error .runtime
                | some r => scanChunks fuel (some fmt) r
          else if c.name = asciiBytes "data" then
            match fmt with
            | none => .error (.error "data chunk before fmt chunk")
            | some fmt => .ok ⟨fmt, c.size / fmt.framesize, c, r⟩
          else
            match r.skipRest? c with
            | none => .error .runtime
            | some r => scanChunks fuel fmt r

/-- `wave.open(io.BytesIO(data), "rb")`. -/
def openWave (data : List UInt8) : Except WaveError WaveFile :=
  match Chunk.open? readBytes data with
  | none => .error .eof
  | some (c, file) =>
      if c.name ≠ asciiBytes "RIFF" then
        .error (.error "file does not start with RIFF id")
      else
        let form := Riff.read ⟨c, file⟩ 4
        if form.1 ≠ asciiBytes "WAVE" then
          .error (.error "not a WAVE file")
        else
          scanChunks (data.length + 1) none form.2

/-- `readframes(n)` at the first frame. -/
def WaveFile.readframes (w : WaveFile) (n : Nat) : List UInt8 :=
  if n = 0 then [] else (w.data.read Riff.read w.riff (n * w.fmt.framesize)).1

section Shrinking

variable {File : Type} {read : File → Nat → List UInt8 × File} {size : File → Nat}

/-- What is read is no longer in the file. -/
def Shrinks (read : File → Nat → List UInt8 × File) (size : File → Nat) : Prop :=
  ∀ file n, (read file n).1.length + size (read file n).2 ≤ size file

theorem shrinks_readBytes : Shrinks readBytes List.length := by
  intro file n
  simp only [readBytes, List.length_take, List.length_drop]
  omega

theorem Shrinks.chunkRead (h : Shrinks read size) (c : Chunk) (file : File) (n : Nat) :
    (c.read read file n).1.length + size (c.read read file n).2.2 ≤ size file := by
  simp only [Chunk.read]
  split_ifs
  · simp
  · have hdata := h file (min n (c.size - c.sizeRead))
    have hpad := h (read file (min n (c.size - c.sizeRead))).2 1
    simp only
    omega
  · exact h file _

theorem shrinks_riff : Shrinks Riff.read fun r => r.file.length :=
  fun r n => shrinks_readBytes.chunkRead r.chunk r.file n

/-- A head takes eight bytes. -/
theorem Shrinks.open (h : Shrinks read size) {file file' : File} {c : Chunk}
    (hopen : Chunk.open? read file = some (c, file')) : size file' + 8 ≤ size file := by
  rw [Chunk.open?] at hopen
  simp only at hopen
  split_ifs at hopen with hname hsize
  have hpair := Option.some.inj hopen
  have hfile : (read (read file 4).2 4).2 = file' := congrArg Prod.snd hpair
  have h₁ := h file 4
  have h₂ := h (read file 4).2 4
  rw [hfile] at h₂
  omega

end Shrinking

theorem Riff.length_skipRest {r r' : Riff} {c : Chunk} (h : r.skipRest? c = some r') :
    r'.file.length ≤ r.file.length := by
  rw [Riff.skipRest?, Riff.skip?] at h
  simp only at h
  split_ifs at h
  rw [← Option.some.inj h, List.length_drop]
  exact Nat.sub_le _ _

theorem length_readFmtChunk {c c' : Chunk} {r r' : Riff} {fmt : WaveFormat}
    (h : readFmtChunk c r = .ok (fmt, c', r')) : r'.file.length ≤ r.file.length := by
  rw [readFmtChunk] at h
  simp only at h
  split_ifs at h
  have hpair := Except.ok.inj h
  have hwidth : ((c.read Riff.read r 14).2.1.read Riff.read (c.read Riff.read r 14).2.2 2).2 =
      (c', r') := congrArg Prod.snd hpair
  have h₁ := shrinks_riff.chunkRead c r 14
  have h₂ := shrinks_riff.chunkRead (c.read Riff.read r 14).2.1 (c.read Riff.read r 14).2.2 2
  rw [hwidth] at h₂
  simp only at h₁ h₂
  omega

/-- The loop does not run out of fuel: the file is shorter every time. -/
theorem scanChunks_fuel {fuel more : Nat} {fmt : Option WaveFormat} {r : Riff}
    (h : r.file.length < fuel) : scanChunks (fuel + more) fmt r = scanChunks fuel fmt r := by
  induction fuel generalizing fmt r with
  | zero => exact absurd h (Nat.not_lt_zero _)
  | succ fuel ih =>
      rw [Nat.add_right_comm, scanChunks, scanChunks]
      cases hopen : Chunk.open? Riff.read r with
      | none => rfl
      | some opened =>
          obtain ⟨c, r₁⟩ := opened
          have hshort := shrinks_riff.open hopen
          simp only at hshort ⊢
          have hnext {fmt' : Option WaveFormat} {r₂ : Riff}
              (hle : r₂.file.length ≤ r₁.file.length) :
              scanChunks (fuel + more) fmt' r₂ = scanChunks fuel fmt' r₂ :=
            ih (by omega)
          split_ifs
          · cases hfmt : readFmtChunk c r₁ with
            | error e => rfl
            | ok read =>
                obtain ⟨fmt', c', r₂⟩ := read
                cases hskip : r₂.skipRest? c' with
                | none => simp only [hskip]
                | some r₃ =>
                    simp only [hskip]
                    exact hnext ((Riff.length_skipRest hskip).trans (length_readFmtChunk hfmt))
          · rfl
          · cases hskip : r₁.skipRest? c with
            | none => rfl
            | some r₂ => exact hnext (Riff.length_skipRest hskip)

/-- The format chunk and the data chunk that `Wave_write` makes. -/
def waveChunks (nchannels sampwidth framerate : Nat) (frames : List UInt8) : List UInt8 :=
  asciiBytes "fmt " ++ (leBytes 4 16 ++
    ((leBytes 2 1 ++ (leBytes 2 nchannels ++ (leBytes 4 framerate ++
      (leBytes 4 (nchannels * framerate * sampwidth) ++ leBytes 2 (nchannels * sampwidth))))) ++
    (leBytes 2 (sampwidth * 8) ++
      (asciiBytes "data" ++ (leBytes 4 frames.length ++ frames)))))

/-- The file. -/
def waveBytes (nchannels sampwidth framerate : Nat) (frames : List UInt8) : List UInt8 :=
  asciiBytes "RIFF" ++ (leBytes 4 (36 + frames.length) ++
    (asciiBytes "WAVE" ++ waveChunks nchannels sampwidth framerate frames))

section Plain

variable {File : Type} {read : File → Nat → List UInt8 × File}

/-- Reading inside a chunk of even size. -/
theorem Chunk.read_of_even {c : Chunk} {file file' : File} {data : List UInt8}
    (heven : c.size % 2 = 0) (hpos : 0 < data.length)
    (hfits : c.sizeRead + data.length ≤ c.size)
    (hread : read file data.length = (data, file')) :
    c.read read file data.length =
      (data, { c with sizeRead := c.sizeRead + data.length }, file') := by
  have hmore : ¬ c.size ≤ c.sizeRead := by omega
  have hodd {p : Prop} : ¬ (p ∧ c.size % 2 = 1) := by omega
  have hmin : min data.length (c.size - c.sizeRead) = data.length := min_eq_left (by omega)
  simp only [Chunk.read, if_neg hmore, hmin, hread, if_neg hodd]

theorem readBytes_append (data rest : List UInt8) :
    readBytes (data ++ rest) data.length = (data, rest) := by
  rw [readBytes, List.take_left', List.drop_left']
  · rfl
  · rfl

theorem Riff.read_append (c : Chunk) (data rest : List UInt8) (heven : c.size % 2 = 0)
    (hpos : 0 < data.length) (hfits : c.sizeRead + data.length ≤ c.size) :
    Riff.read ⟨c, data ++ rest⟩ data.length =
      (data, ⟨{ c with sizeRead := c.sizeRead + data.length }, rest⟩) := by
  rw [Riff.read, Chunk.read_of_even heven hpos hfits (readBytes_append data rest)]

/-- The head of a chunk. -/
theorem Chunk.open?_of_read {file file₁ file₂ : File} {name size : List UInt8}
    (hname : read file 4 = (name, file₁)) (hsize : read file₁ 4 = (size, file₂))
    (hlength : name.length = 4 ∧ size.length = 4) :
    Chunk.open? read file = some ({ name := name, size := leValue size }, file₂) := by
  simp only [Chunk.open?, hname, hsize, hlength.1, hlength.2, lt_irrefl, if_false]

/-- The head of a chunk inside the RIFF chunk. -/
theorem Riff.open?_append (c : Chunk) (name rest : List UInt8) {n : Nat}
    (heven : c.size % 2 = 0) (hname : name.length = 4) (hfits : c.sizeRead + 8 ≤ c.size)
    (hn : n < 256 ^ 4) :
    Chunk.open? Riff.read ⟨c, name ++ (leBytes 4 n ++ rest)⟩ =
      some ({ name := name, size := n }, ⟨{ c with sizeRead := c.sizeRead + 8 }, rest⟩) := by
  have hsize : (leBytes 4 n).length = 4 := length_leBytes 4 n
  have hfirst := Riff.read_append c name (leBytes 4 n ++ rest) heven
    (by omega) (by omega)
  have hsecond := Riff.read_append { c with sizeRead := c.sizeRead + name.length }
    (leBytes 4 n) rest heven (by omega) (by simp only; omega)
  rw [hname] at hfirst hsecond
  rw [hsize] at hsecond
  rw [Chunk.open?_of_read hfirst hsecond ⟨hname, hsize⟩, leValue_leBytes hn]

/-- Reading from a chunk inside the RIFF chunk. -/
theorem Chunk.read_append (c d : Chunk) (data rest : List UInt8) (hc : c.size % 2 = 0)
    (hd : d.size % 2 = 0) (hpos : 0 < data.length) (hcfits : c.sizeRead + data.length ≤ c.size)
    (hdfits : d.sizeRead + data.length ≤ d.size) :
    d.read Riff.read ⟨c, data ++ rest⟩ data.length =
      (data, { d with sizeRead := d.sizeRead + data.length },
        ⟨{ c with sizeRead := c.sizeRead + data.length }, rest⟩) :=
  Chunk.read_of_even hd hpos hdfits (Riff.read_append c data rest hc hpos hcfits)

theorem readFmtChunk_append (c : Chunk) {nchannels sampwidth framerate : Nat}
    (tail rest : List UInt8) (hc : c.size % 2 = 0) (hcfits : c.sizeRead + 16 ≤ c.size)
    (htail : tail.length = 6) (hchannels : 0 < nchannels) (hchannels' : nchannels < 256 ^ 2)
    (hwidth : 0 < sampwidth) (hwidth' : sampwidth * 8 < 256 ^ 2) (hrate : framerate < 256 ^ 4) :
    readFmtChunk { name := asciiBytes "fmt ", size := 16 }
        ⟨c, (leBytes 2 1 ++ (leBytes 2 nchannels ++ (leBytes 4 framerate ++ tail))) ++
          (leBytes 2 (sampwidth * 8) ++ rest)⟩ =
      .ok (⟨nchannels, sampwidth, framerate, hchannels, hwidth⟩,
        { name := asciiBytes "fmt ", size := 16, sizeRead := 16 },
        ⟨{ c with sizeRead := c.sizeRead + 16 }, rest⟩) := by
  obtain ⟨head, hhead⟩ : ∃ head, head =
      leBytes 2 1 ++ (leBytes 2 nchannels ++ (leBytes 4 framerate ++ tail)) := ⟨_, rfl⟩
  have hlength : head.length = 14 := by
    rw [hhead]
    simp [htail]
  have htag : head.take 2 = leBytes 2 1 := by
    rw [hhead]
    exact List.take_left' (length_leBytes 2 1)
  have hdrop : head.drop 2 = leBytes 2 nchannels ++ (leBytes 4 framerate ++ tail) := by
    rw [hhead]
    exact List.drop_left' (length_leBytes 2 1)
  have hnchannels : (head.drop 2).take 2 = leBytes 2 nchannels := by
    rw [hdrop]
    exact List.take_left' (length_leBytes 2 nchannels)
  have hframerate : (head.drop 4).take 4 = leBytes 4 framerate := by
    have hdrop' : head.drop 4 = leBytes 4 framerate ++ tail := by
      rw [show (4 : Nat) = 2 + 2 from rfl, ← List.drop_drop, hdrop]
      exact List.drop_left' (length_leBytes 2 nchannels)
    rw [hdrop']
    exact List.take_left' (length_leBytes 4 framerate)
  have hbits : (leBytes 2 (sampwidth * 8)).length = 2 := length_leBytes 2 _
  have hd : 16 % 2 = 0 := rfl
  have hfirst := Chunk.read_append c { name := asciiBytes "fmt ", size := 16 } head
    (leBytes 2 (sampwidth * 8) ++ rest) hc hd (by omega) (by omega)
    (by simp only; omega)
  have hsecond := Chunk.read_append { c with sizeRead := c.sizeRead + head.length }
    { name := asciiBytes "fmt ", size := 16, sizeRead := 0 + head.length }
    (leBytes 2 (sampwidth * 8)) rest hc hd (by omega) (by simp only; omega)
    (by simp only; omega)
  rw [hlength] at hfirst hsecond
  rw [hbits] at hsecond
  have hone : leValue (leBytes 2 1) = 1 := by decide
  have hround : (sampwidth * 8 + 7) / 8 = sampwidth := by omega
  rw [← hhead]
  simp only [readFmtChunk, hfirst, hlength, lt_irrefl, if_false, htag, hnchannels, hframerate,
    hone, if_true, hsecond, hbits, leValue_leBytes hchannels', leValue_leBytes hwidth',
    leValue_leBytes hrate, hround, dif_neg hwidth.ne', dif_neg hchannels.ne']

section File

variable {frames : List UInt8}

/-- What the reader makes of the file. -/
def plainFile (fmt : WaveFormat) (frames : List UInt8) : WaveFile where
  fmt := fmt
  nframes := frames.length / fmt.framesize
  data := { name := asciiBytes "data", size := frames.length }
  riff := ⟨{ name := asciiBytes "RIFF", size := 36 + frames.length, sizeRead := 36 }, frames⟩

theorem scanChunks_waveChunks {fmt : WaveFormat} (hchannels : fmt.nchannels < 256 ^ 2)
    (hwidth : fmt.sampwidth * 8 < 256 ^ 2) (hrate : fmt.framerate < 256 ^ 4)
    (heven : frames.length % 2 = 0) (hfits : 36 + frames.length < 256 ^ 4) (fuel : Nat) :
    scanChunks (fuel + 2) none
        ⟨{ name := asciiBytes "RIFF", size := 36 + frames.length, sizeRead := 4 },
          waveChunks fmt.nchannels fmt.sampwidth fmt.framerate frames⟩ =
      .ok (plainFile fmt frames) := by
  obtain ⟨size, hsize⟩ : ∃ size, size = 36 + frames.length := ⟨_, rfl⟩
  have heven' : size % 2 = 0 := by omega
  have hfmt := readFmtChunk_append
    { name := asciiBytes "RIFF", size := size, sizeRead := 12 }
    (leBytes 4 (fmt.nchannels * fmt.framerate * fmt.sampwidth) ++
      leBytes 2 (fmt.nchannels * fmt.sampwidth))
    (asciiBytes "data" ++ (leBytes 4 frames.length ++ frames)) heven'
    (by simp only; omega) (by simp) fmt.nchannels_pos hchannels fmt.sampwidth_pos hwidth hrate
  have hdata := Riff.open?_append
    { name := asciiBytes "RIFF", size := size, sizeRead := 28 }
    (asciiBytes "data") frames (n := frames.length) heven' rfl
    (by simp only; omega) (by omega)
  have hskip : Riff.skipRest? ⟨{ name := asciiBytes "RIFF", size := size, sizeRead := 28 },
      asciiBytes "data" ++ (leBytes 4 frames.length ++ frames)⟩
      { name := asciiBytes "fmt ", size := 16, sizeRead := 16 } =
      some ⟨{ name := asciiBytes "RIFF", size := size, sizeRead := 28 },
        asciiBytes "data" ++ (leBytes 4 frames.length ++ frames)⟩ := by
    have hfar : ¬ size < 28 := by omega
    simp only [Riff.skipRest?, Riff.skip?, Nat.reduceMod, Nat.add_zero, Nat.sub_self, if_neg hfar,
      List.drop_zero]
  have hne : asciiBytes "data" ≠ asciiBytes "fmt " := by decide
  rw [← hsize, scanChunks, waveChunks,
    Riff.open?_append { name := asciiBytes "RIFF", size := size, sizeRead := 4 } _ _ heven' rfl
      (by simp only; omega) (by decide)]
  simp only [if_true, hfmt, hskip]
  rw [scanChunks, hdata]
  simp only [if_neg hne, if_true]
  rw [plainFile, hsize]

/-- The reader gets back what the writer was given. -/
theorem openWave_waveBytes (fmt : WaveFormat) (hchannels : fmt.nchannels < 256 ^ 2)
    (hwidth : fmt.sampwidth * 8 < 256 ^ 2) (hrate : fmt.framerate < 256 ^ 4)
    (heven : frames.length % 2 = 0) (hfits : 36 + frames.length < 256 ^ 4) :
    openWave (waveBytes fmt.nchannels fmt.sampwidth fmt.framerate frames) =
      .ok (plainFile fmt frames) := by
  have hname (name rest : List UInt8) (h : name.length = 4) :
      readBytes (name ++ rest) 4 = (name, rest) := by
    rw [← h]
    exact readBytes_append name rest
  have hopen := Chunk.open?_of_read (hname (asciiBytes "RIFF") _ rfl)
    (hname (leBytes 4 (36 + frames.length))
      (asciiBytes "WAVE" ++ waveChunks fmt.nchannels fmt.sampwidth fmt.framerate frames)
      (length_leBytes 4 _)) ⟨rfl, length_leBytes 4 _⟩
  rw [leValue_leBytes hfits] at hopen
  have heven' : (36 + frames.length) % 2 = 0 := by omega
  have hform := Riff.read_append
    { name := asciiBytes "RIFF", size := 36 + frames.length } (asciiBytes "WAVE")
    (waveChunks fmt.nchannels fmt.sampwidth fmt.framerate frames) heven' (by decide)
    (by simp only; change 0 + 4 ≤ _; omega)
  have hlength : (asciiBytes "WAVE").length = 4 := rfl
  rw [hlength] at hform
  obtain ⟨fuel, hfuel⟩ : ∃ fuel,
      (waveBytes fmt.nchannels fmt.sampwidth fmt.framerate frames).length + 1 = fuel + 2 := by
    refine ⟨(waveBytes fmt.nchannels fmt.sampwidth fmt.framerate frames).length - 1, ?_⟩
    have hlong : 4 ≤ (waveBytes fmt.nchannels fmt.sampwidth fmt.framerate frames).length := by
      rw [waveBytes, List.length_append]
      exact Nat.le_add_right _ _
    omega
  rw [openWave, hfuel]
  rw [waveBytes, hopen]
  simp only [ne_eq, not_true_eq_false, if_false, hform]
  exact scanChunks_waveChunks hchannels hwidth hrate heven hfits fuel

/-- And its frames, when they are whole. -/
theorem readframes_plainFile {fmt : WaveFormat} (heven : frames.length % 2 = 0)
    (hwhole : fmt.framesize ∣ frames.length) :
    (plainFile fmt frames).readframes (plainFile fmt frames).nframes = frames := by
  have hall : frames.length / fmt.framesize * fmt.framesize = frames.length :=
    Nat.div_mul_cancel hwhole
  rw [WaveFile.readframes]
  by_cases hzero : (plainFile fmt frames).nframes = 0
  · rw [if_pos hzero]
    have hdiv : frames.length / fmt.framesize = 0 := hzero
    rw [hdiv, Nat.zero_mul] at hall
    exact (List.length_eq_zero_iff.mp hall.symm).symm
  · rw [if_neg hzero]
    have hpos : 0 < frames.length := by
      refine Nat.pos_of_ne_zero fun hempty => hzero ?_
      change frames.length / fmt.framesize = 0
      rw [hempty, Nat.zero_div]
    have hread := Chunk.read_append
      { name := asciiBytes "RIFF", size := 36 + frames.length, sizeRead := 36 }
      { name := asciiBytes "data", size := frames.length } frames []
      (by simp only; omega) heven hpos (by simp only; omega) (by simp only; omega)
    rw [List.append_nil] at hread
    change (Chunk.read Riff.read _ _ (frames.length / fmt.framesize * fmt.framesize)).1 = frames
    rw [hall]
    exact congrArg Prod.fst hread

end File

end Plain

end Lib
end Sandroid
