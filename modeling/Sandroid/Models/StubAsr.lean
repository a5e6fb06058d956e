import Sandroid.Models.PseudoStreaming

/-!
# The ASR stub

`StubASR.stream` of `models/asr/stub.py`: a partial for every chunk, and at the end one final
whose text is the scripted one or a digest of all the audio.

`StubAt` is the invariant of its states; `stub_returned` is what has been yielded when it
returns.
-/

namespace Sandroid
namespace Models

open Lib Api

structure StubASR where
  scripted : Option String := none
  /-- the first eight hexadecimal digits of `hashlib.sha1` -/
  sha1 : Pcm → String

/-- Where the generator stands, with its local variables. -/
inductive StubState where
  /-- at the head of the loop -/
  | awaiting (accumulated : Pcm) (lastEmitMs : Nat)
  /-- about to yield the partial of a chunk -/
  | emitting (accumulated : Pcm) (lastEmitMs : Nat)
  /-- behind the loop -/
  | ending (accumulated : Pcm) (lastEmitMs : Nat)
  | returned

namespace StubASR

/-- `final_text`; an empty script is none. -/
def finalText (asr : StubASR) (accumulated : Pcm) : String :=
  match asr.scripted with
  | some text => if text ≠ "" then text else "stub:" ++ asr.sha1 accumulated
  | none => "stub:" ++ asr.sha1 accumulated

def stream (asr : StubASR) : Asr where
  State := StubState
  start := .awaiting [] 0
  next
    | .awaiting accumulated lastEmitMs =>
        .pull fun
          | some chunk =>
              .emitting (accumulated ++ chunk.pcm16)
                (lastEmitMs + chunk.pcm16.length / 2 * 1000 / 16000)
          | none => .ending accumulated lastEmitMs
    | .emitting accumulated lastEmitMs =>
        .emit ⟨asr.scripted.getD "", false, 0, lastEmitMs⟩ (.awaiting accumulated lastEmitMs)
    | .ending accumulated lastEmitMs =>
        .emit ⟨asr.finalText accumulated, true, 0, lastEmitMs⟩ .returned
    | .returned => .stop

end StubASR

section Stub

variable {asr : StubASR}

/-- Where the generator is once it has received `heard` and has yielded `sent`. -/
inductive StubAt (asr : StubASR) :
    StubState → List AudioChunk → Bool → List PartialTranscript → Prop
  | awaiting {heard : List AudioChunk} {sent : List PartialTranscript} {lastEmitMs : Nat}
      (hsent : ∀ p ∈ sent, p.isFinal = false) (hcount : sent.length = heard.length) :
      StubAt asr (.awaiting (audioOf heard) lastEmitMs) heard false sent
  | emitting {heard : List AudioChunk} {sent : List PartialTranscript} {lastEmitMs : Nat}
      (hsent : ∀ p ∈ sent, p.isFinal = false) (hcount : sent.length + 1 = heard.length) :
      StubAt asr (.emitting (audioOf heard) lastEmitMs) heard false sent
  | ending {heard : List AudioChunk} {sent : List PartialTranscript} {lastEmitMs : Nat}
      (hsent : ∀ p ∈ sent, p.isFinal = false) (hcount : sent.length = heard.length) :
      StubAt asr (.ending (audioOf heard) lastEmitMs) heard true sent
  | returned {heard : List AudioChunk} {sent : List PartialTranscript} {lastEmitMs : Nat}
      (hsent : ∀ p ∈ sent, p.isFinal = false) (hcount : sent.length = heard.length) :
      StubAt asr .returned heard true
        (sent ++ [⟨asr.finalText (audioOf heard), true, 0, lastEmitMs⟩])

theorem stubAt_of_reaches {s : asr.stream.State} {heard : List AudioChunk} {ended : Bool}
    {sent : List PartialTranscript} (h : asr.stream.Reaches s heard ended sent) :
    StubAt asr s heard ended sent := by
  induction h with
  | start => exact @StubAt.awaiting _ [] [] 0 nofun rfl
  | emit _ hnext ih =>
      cases ih with
      | awaiting hsent hcount => cases hnext
      | emitting hsent hcount =>
          cases hnext
          refine .awaiting ?_ ?_
          · intro p hp
            rcases List.mem_append.mp hp with hp | hp
            · exact hsent p hp
            · rw [List.mem_singleton.mp hp]
          · rw [List.length_append, List.length_singleton, hcount]
      | ending hsent hcount =>
          cases hnext
          exact .returned hsent hcount
      | returned hsent hcount => cases hnext
  | pull _ hnext chunk ih =>
      cases ih with
      | awaiting hsent hcount =>
          cases hnext
          simp only
          rw [← audioOf_snoc]
          exact .emitting hsent (by rw [List.length_append, List.length_singleton, hcount])
      | emitting hsent hcount => cases hnext
  | finish _ hnext ih =>
      cases ih with
      | awaiting hsent hcount =>
          cases hnext
          exact .ending hsent hcount
      | emitting hsent hcount => cases hnext
      | ending hsent hcount => cases hnext
      | returned hsent hcount => cases hnext

/-- It returns after the end of the source, with a partial for every chunk and one final. -/
theorem stub_returned {s : asr.stream.State} {heard : List AudioChunk} {ended : Bool}
    {sent : List PartialTranscript} (h : asr.stream.Reaches s heard ended sent)
    (hnext : asr.stream.next s = .stop) :
    ended = true ∧ ∃ partials final, sent = partials ++ [final] ∧
      partials.length = heard.length ∧ (∀ p ∈ partials, p.isFinal = false) ∧
        final.isFinal = true ∧ final.text = asr.finalText (audioOf heard) := by
  cases stubAt_of_reaches h with
  | awaiting hsent hcount => cases hnext
  | emitting hsent hcount => cases hnext
  | ending hsent hcount => cases hnext
  | returned hsent hcount => exact ⟨rfl, _, _, rfl, hcount, hsent, rfl, rfl⟩

end Stub

end Models
end Sandroid
