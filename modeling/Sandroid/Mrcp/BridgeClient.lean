import Sandroid.Mrcp.BridgeFrames

/-!
# The plugin's bridge client

The senders of `native/unimrcp-plugin/src/bridge_client.c` over a non-blocking
socket.  The socket is a script of answers to successive `write()` calls; a
script that ends in the middle of a call shows the connection while that call is
still running.

* `writeAllTimeout`, `writeNonblockOrDrop`: the two write loops;
* `encodeStart`: the CBOR writer on its 512-byte buffer, return codes included;
* `sbrSendStart`, `sbrSendAudio`, `sbrSendEos`, `sbrSendStop`;
* `runCalls`: calls on one connection, ended by a return value of `-1`.
-/

namespace Sandroid
namespace Mrcp

/-- The socket's answer to a `write()` of at least one byte. -/
inductive SockAnswer where
  /-- takes `more + 1` bytes, or all that are offered if these are fewer -/
  | accept (more : Nat)
  /-- `EAGAIN`; `ready` is what a poll for `POLLOUT` answers within the timeout -/
  | eagain (ready : Bool)
  | eintr
  | fatal
deriving DecidableEq, Repr

/-- Whether a call has returned, and what. -/
inductive Outcome where
  | blocked
  | ret (rc : Int)
deriving DecidableEq, Repr

/-- A call's outcome, the bytes the socket accepted, the answers it used up and
those left, and how often it counted a dropped frame. -/
structure IoResult where
  outcome : Outcome
  written : Bytes
  used : List SockAnswer
  rest : List SockAnswer
  dropped : Nat
deriving DecidableEq, Repr

namespace IoResult

/-- Return at once. -/
def done (rc : Int) (script : List SockAnswer) : IoResult :=
  { outcome := .ret rc, written := [], used := [], rest := script, dropped := 0 }

/-- Account for an answer and the bytes it took. -/
def after (answer : SockAnswer) (bytes : Bytes) (r : IoResult) : IoResult :=
  { r with written := bytes ++ r.written, used := answer :: r.used }

/-- Go on with a returned call's code. -/
def andThen (r : IoResult) (next : Int → List SockAnswer → IoResult) : IoResult :=
  match r.outcome with
  | .blocked => r
  | .ret rc =>
      let r' := next rc r.rest
      { r' with
        written := r.written ++ r'.written
        used := r.used ++ r'.used
        dropped := r.dropped + r'.dropped }

end IoResult

open IoResult

/-- Write all bytes or fail; `EAGAIN` polls with a timeout. -/
def writeAllTimeout : List SockAnswer → Bytes → IoResult
  | [], buf =>
      if buf = [] then
        done 0 []
      else
        { outcome := .blocked, written := [], used := [], rest := [], dropped := 0 }
  | answer :: script, buf =>
      if buf = [] then
        done 0 (answer :: script)
      else
        match answer with
        | .accept more =>
            (writeAllTimeout script (buf.drop (more + 1))).after answer (buf.take (more + 1))
        | .eagain ready =>
            if ready then
              (writeAllTimeout script buf).after answer []
            else
              (done (-1) script).after answer []
        | .eintr => (writeAllTimeout script buf).after answer []
        | .fatal => (done (-1) script).after answer []

/-- Write as much as possible; `EAGAIN` gives up with code 1. -/
def writeNonblockOrDrop : List SockAnswer → Bytes → IoResult
  | [], buf =>
      if buf = [] then
        done 0 []
      else
        { outcome := .blocked, written := [], used := [], rest := [], dropped := 0 }
  | answer :: script, buf =>
      if buf = [] then
        done 0 (answer :: script)
      else
        match answer with
        | .accept more =>
            (writeNonblockOrDrop script (buf.drop (more + 1))).after answer (buf.take (more + 1))
        | .eagain _ => (done 1 script).after answer []
        | .eintr => (writeNonblockOrDrop script buf).after answer []
        | .fatal => (done (-1) script).after answer []

/-- Length and type bytes; the type is part of the length. -/
def frameHeader (payloadLen : Nat) (ftype : UInt8) : Bytes :=
  packU32 ((payloadLen % 2 ^ 32 + 1) % 2 ^ 32) ++ [ftype]

section Cbor

/-- `cbor_w_t`. -/
structure CborWriter where
  cap : Nat
  buf : Bytes

def cborPut (w : CborWriter) (src : Bytes) : Int × CborWriter :=
  if w.buf.length + src.length > w.cap then
    (-1, w)
  else
    (0, { w with buf := w.buf ++ src })

/-- `cbor_put(..) || cbor_put(..)`: one or zero, never negative. -/
def cborPut2 (w : CborWriter) (first second : Bytes) : Int × CborWriter :=
  let r := cborPut w first
  if r.1 ≠ 0 then
    (1, r.2)
  else
    let r' := cborPut r.2 second
    (if r'.1 ≠ 0 then 1 else 0, r'.2)

def cborWriteHead (w : CborWriter) (major val : Nat) : Int × CborWriter :=
  if val < 24 then
    cborPut w [UInt8.ofNat (major * 32 + val)]
  else if val ≤ 0xFF then
    cborPut2 w [UInt8.ofNat (major * 32 + 24)] [UInt8.ofNat val]
  else if val ≤ 0xFFFF then
    cborPut2 w [UInt8.ofNat (major * 32 + 25)] [UInt8.ofNat (val / 2 ^ 8), UInt8.ofNat val]
  else if val ≤ 0xFFFFFFFF then
    cborPut2 w [UInt8.ofNat (major * 32 + 26)] (packU32 val)
  else
    (-1, w)

def cborTstr (w : CborWriter) (s : Bytes) : Int × CborWriter :=
  let r := cborWriteHead w 3 s.length
  if r.1 < 0 then
    (-1, r.2)
  else
    cborPut r.2 s

def cborUint (w : CborWriter) (v : Nat) : Int × CborWriter :=
  cborWriteHead w 0 v

def cborMapHeader (w : CborWriter) (n : Nat) : Int × CborWriter :=
  cborWriteHead w 5 n

/-- `if (rc < 0) return -1;` -/
def checked (r : Int × CborWriter) : Option CborWriter :=
  if r.1 < 0 then none else some r.2

/-- A C string: its bytes up to the terminating NUL. -/
abbrev CString := {bytes : Bytes // (0 : UInt8) ∉ bytes}

def ascii (s : String) : Bytes :=
  s.toList.map (fun c => UInt8.ofNat c.toNat)

/-- A string argument that may be `NULL`. -/
def orDefault (s : Option CString) (default : String) : Bytes :=
  match s with
  | none => ascii default
  | some s => s.val

/-- The payload of START, or `none` where the encoding phase returns `-1`. -/
def encodeStart (channelId sessionId : Option CString) (sampleRate : UInt32)
    (codec : Option CString) : Option Bytes := do
  let w ← checked (cborMapHeader { cap := 512, buf := [] } 4)
  let w ← checked (cborTstr w (ascii "channel_id"))
  let w ← checked (cborTstr w (orDefault channelId ""))
  let w ← checked (cborTstr w (ascii "session_id"))
  let w ← checked (cborTstr w (orDefault sessionId ""))
  let w ← checked (cborTstr w (ascii "sample_rate"))
  let w ← checked (cborUint w sampleRate.toNat)
  let w ← checked (cborTstr w (ascii "codec"))
  let w ← checked (cborTstr w (orDefault codec "LPCM"))
  some w.buf

end Cbor

section Senders

def sbrSendStart (channelId sessionId : Option CString) (sampleRate : UInt32)
    (codec : Option CString) (script : List SockAnswer) : IoResult :=
  match encodeStart channelId sessionId sampleRate codec with
  | none => done (-1) script
  | some payload =>
      (writeAllTimeout script (frameHeader payload.length frameStart)).andThen
        (fun rc script =>
          if rc < 0 then
            done (-1) script
          else
            (writeAllTimeout script payload).andThen
              (fun rc script => if rc < 0 then done (-1) script else done 0 script))

def sbrSendAudio (pcm : Bytes) (script : List SockAnswer) : IoResult :=
  if pcm.length = 0 then
    done 0 script
  else if pcm.length > maxFrameSize - 1 then
    done (-1) script
  else
    (writeNonblockOrDrop script (frameHeader pcm.length frameAudio)).andThen
      (fun rc script =>
        if rc < 0 then
          done (-1) script
        else if rc = 1 then
          { done 0 script with dropped := 1 }
        else
          (writeNonblockOrDrop script pcm).andThen
            (fun rc script =>
              if rc < 0 then
                done (-1) script
              else if rc = 1 then
                { done 0 script with dropped := 1 }
              else
                done 0 script))

def sbrSendEos (script : List SockAnswer) : IoResult :=
  writeAllTimeout script (frameHeader 0 frameEos)

/-- Best effort: the write's failure is ignored. -/
def sbrSendStop (script : List SockAnswer) : IoResult :=
  (writeAllTimeout script (frameHeader 0 frameStop)).andThen (fun _ script => done 0 script)

end Senders

/-- A call of one of the senders. -/
inductive Call where
  | start (channelId sessionId : Option CString) (sampleRate : UInt32) (codec : Option CString)
  | audio (pcm : Bytes)
  | eos
  | stop
deriving DecidableEq

def Call.send : Call → List SockAnswer → IoResult
  | start channelId sessionId sampleRate codec =>
      sbrSendStart channelId sessionId sampleRate codec
  | audio pcm => sbrSendAudio pcm
  | eos => sbrSendEos
  | stop => sbrSendStop

/-- The frame a call is to send: none for an empty AUDIO payload and for
arguments that the sender refuses. -/
def Call.frame : Call → Option Frame
  | start channelId sessionId sampleRate codec =>
      (encodeStart channelId sessionId sampleRate codec).map (fun payload => ⟨frameStart, payload⟩)
  | audio pcm =>
      if pcm.length = 0 ∨ pcm.length > maxFrameSize - 1 then none
      else some ⟨frameAudio, pcm⟩
  | eos => some ⟨frameEos, []⟩
  | stop => some ⟨frameStop, []⟩

/-- A call that was made on the connection. -/
structure CallRecord where
  call : Call
  result : IoResult
deriving DecidableEq

/-- The connection can take the next call. -/
def Outcome.goesOn : Outcome → Bool
  | .blocked => false
  | .ret rc => rc != -1

/-- Calls on one connection: a call that is still running holds up the next
ones, and one that returns `-1` ends the connection. -/
def runCalls : List Call → List SockAnswer → List CallRecord
  | [], _ => []
  | call :: calls, script =>
      let r := call.send script
      ⟨call, r⟩ :: if r.outcome.goesOn then runCalls calls r.rest else []

/-- All bytes the socket has accepted. -/
def accepted (records : List CallRecord) : Bytes :=
  records.flatMap (fun record => record.result.written)

/-- The frames of the calls made, without those counted as dropped. -/
def keptFrames (records : List CallRecord) : List Frame :=
  records.flatMap (fun record =>
    if record.result.dropped = 0 then record.call.frame.toList else [])

end Mrcp
end Sandroid
