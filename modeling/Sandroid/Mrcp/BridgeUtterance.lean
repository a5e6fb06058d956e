import Sandroid.Mrcp.BridgeServer

/-!
# The handler's way through one utterance

START, audio and EOS as the plugin sends them on a connection, and where the
handler and its ASR task stand after having read a part of these frames.  A step
of the handler moves on along the utterance, so the RESULT it sends in the end is
about all of the audio.
-/

namespace Sandroid
namespace Mrcp

/-- START, the audio and, once speech has ended, EOS. -/
def utterance (opening : ToBridge) (audio : List Bytes) (closed : Bool) : List ToBridge :=
  opening :: (audio.map .audio ++ if closed then [.eos] else [])

/-- After the audio `done` of an utterance comes more audio, or EOS and nothing else. -/
theorem next_frame {closed : Bool} {m : ToBridge} {rest : List ToBridge} :
    ∀ {done audio : List Bytes},
      done.map ToBridge.audio ++ m :: rest
          = audio.map .audio ++ (if closed then [.eos] else []) →
        (∃ pcm, m = .audio pcm) ∨ (m = .eos ∧ done = audio)
  | [], [] => by
      intro h
      cases closed with
      | false => simp at h
      | true =>
          simp only [List.map_nil, List.nil_append, if_true, List.cons.injEq] at h
          exact Or.inr ⟨h.1, rfl⟩
  | [], pcm :: audio => by
      intro h
      simp only [List.map_nil, List.nil_append, List.map_cons, List.cons_append,
        List.cons.injEq] at h
      exact Or.inl ⟨pcm, h.1⟩
  | pcm :: done, [] => by
      intro h
      cases closed <;> simp at h
  | pcm :: done, pcm' :: audio => by
      intro h
      simp only [List.map_cons, List.cons_append, List.cons.injEq, ToBridge.audio.injEq] at h
      cases next_frame h.2 with
      | inl h' => exact Or.inl h'
      | inr h' => exact Or.inr ⟨h'.1, by rw [h.1, h'.2]⟩

/-- An utterance that starts with a closed one is that one. -/
theorem closed_utterance_append {opening opening' : ToBridge} {done audio : List Bytes}
    {closed : Bool} {rest : List ToBridge}
    (h : utterance opening done true ++ rest = utterance opening' audio closed) :
    done = audio ∧ rest = [] := by
  simp only [utterance, if_true, List.cons_append, List.cons.injEq, List.append_assoc,
    List.nil_append] at h
  cases next_frame h.2 with
  | inl hm =>
      obtain ⟨pcm, hm⟩ := hm
      cases hm
  | inr hm =>
      have hda := hm.2
      subst hda
      have hrest := List.append_cancel_left h.2
      cases closed <;> simp_all

/-- Path B gets the audio as one piece, or nothing after an overflow. -/
def Mirrors (ch : BridgeChannel) (audio : List Bytes) : Prop :=
  pathBAudio ch = none ∨ pathBAudio ch = some audio.flatten

/-- The handler's place in the frames it has read, `replies` not yet taken. -/
inductive BridgeAt : List ToBridge → Handler → List Reply → Prop
  | idle : BridgeAt [] {} []
  | listening {opening : ToBridge} {chunks todo : List Bytes} {h : Handler}
      (started : h.channel.started = true) (eosSeen : h.channel.eosSeen = false)
      (queue : h.channel.audioQueue = todo.map some)
      (tasks : h.tasks = [⟨chunks, false⟩]) (phase : h.phase = .reading)
      (mirror : Mirrors h.channel (chunks ++ todo)) :
      BridgeAt (utterance opening (chunks ++ todo) false) h []
  | draining {opening : ToBridge} {chunks todo : List Bytes} {h : Handler}
      (queue : h.channel.audioQueue = todo.map some ++ [none])
      (tasks : h.tasks = [⟨chunks, false⟩]) (phase : h.phase = .awaitingAsr)
      (mirror : Mirrors h.channel (chunks ++ todo)) :
      BridgeAt (utterance opening (chunks ++ todo) true) h []
  | drained {opening : ToBridge} {chunks : List Bytes} {h : Handler}
      (tasks : h.tasks = [⟨chunks, true⟩]) (phase : h.phase = .awaitingAsr)
      (mirror : Mirrors h.channel chunks) :
      BridgeAt (utterance opening chunks true) h []
  | answered {opening : ToBridge} {chunks : List Bytes} {h : Handler} {replies : List Reply}
      (tasks : h.tasks = [⟨chunks, true⟩]) (phase : h.phase = .reading)
      (result : ∀ reply, reply ∈ replies →
        ∃ r, reply = .result r ∧ r.chunks = chunks ∧
          (r.pathB = none ∨ r.pathB = some chunks.flatten) ∧
          0 < r.nlsml.length ∧ r.nlsml.length ≤ maxFrameSize) :
      BridgeAt (utterance opening chunks true) h replies

theorem Mirrors.accumulate {ch : BridgeChannel} {audio : List Bytes} (payload : Bytes)
    (h : Mirrors ch audio) : Mirrors (accumulate ch payload) (audio ++ [payload]) := by
  by_cases hover : ch.audioOverflow = true
  · exact Or.inl (by simp [Mrcp.accumulate, pathBAudio, hover])
  · have hacc : ch.audioAccum = audio.flatten := by simpa [Mirrors, pathBAudio, hover] using h
    by_cases hlen : ch.audioAccum.length + payload.length > ch.maxAudioBytes
    · exact Or.inl (by simp only [Mrcp.accumulate, pathBAudio, hover, hlen, if_true, if_false,
        Bool.false_eq_true])
    · right
      simp only [Mrcp.accumulate, pathBAudio, hover, hlen, if_false, Bool.false_eq_true]
      simp [hacc]

@[simp] theorem accumulate_started (ch : BridgeChannel) (payload : Bytes) :
    (accumulate ch payload).started = ch.started := by
  simp only [accumulate]
  split_ifs <;> rfl

@[simp] theorem accumulate_eosSeen (ch : BridgeChannel) (payload : Bytes) :
    (accumulate ch payload).eosSeen = ch.eosSeen := by
  simp only [accumulate]
  split_ifs <;> rfl

@[simp] theorem accumulate_audioQueue (ch : BridgeChannel) (payload : Bytes) :
    (accumulate ch payload).audioQueue = ch.audioQueue := by
  simp only [accumulate]
  split_ifs <;> rfl

theorem utterance_append (opening : ToBridge) (audio more : List Bytes) :
    utterance opening audio false ++ more.map .audio
      = utterance opening (audio ++ more) false := by
  simp [utterance]

theorem utterance_close (opening : ToBridge) (audio : List Bytes) :
    utterance opening audio false ++ [.eos] = utterance opening audio true := by
  simp [utterance]

/-- The frames sent on the connection: none yet, or one utterance. -/
def OneUtterance (sent : List ToBridge) : Prop :=
  sent = [] ∨ ∃ a b c d audio closed, sent = utterance (.start a b c d) audio closed

/-- Reading the next frame of the utterance. -/
theorem BridgeAt.dispatch {backend : BridgeBackend} {processed rest : List ToBridge} {h : Handler}
    {m : ToBridge} {replies : List Reply} (hat : BridgeAt processed h replies)
    (hone : OneUtterance (processed ++ m :: rest)) (hphase : h.phase = .reading) :
    BridgeAt (processed ++ [m]) (Mrcp.dispatch backend h m).1
      (replies ++ (Mrcp.dispatch backend h m).2) := by
  obtain hnil | ⟨a, b, c, d, audio, closed, hone⟩ := hone
  · simp at hnil
  cases hat with
  | idle =>
      have hm : m = .start a b c d := by
        simp only [utterance, List.nil_append, List.cons.injEq] at hone
        exact hone.1
      subst hm
      exact @BridgeAt.listening _ [] [] _ rfl rfl rfl rfl rfl (Or.inr rfl)
  | @listening opening chunks todo _ started eosSeen queue tasks phase mirror =>
      have hframes : (chunks ++ todo).map ToBridge.audio ++ m :: rest
          = audio.map .audio ++ (if closed then [.eos] else []) := by
        simpa [utterance] using (List.cons.inj hone).2
      obtain ⟨pcm, rfl⟩ | ⟨rfl, -⟩ := next_frame hframes
      · have hmore : utterance opening (chunks ++ todo) false ++ [.audio pcm]
            = utterance opening (chunks ++ (todo ++ [pcm])) false := by
          rw [← List.append_assoc]
          exact utterance_append opening (chunks ++ todo) [pcm]
        rw [hmore]
        simp only [Mrcp.dispatch, handleAudio, started, not_true_eq_false, if_false]
        refine .listening ?_ ?_ ?_ tasks phase ?_
        · simpa using started
        · simpa using eosSeen
        · simp [queue]
        · rw [← List.append_assoc]
          exact mirror.accumulate pcm
      · rw [utterance_close]
        simp only [Mrcp.dispatch, handleEos, started, eosSeen, tasks, not_true_eq_false,
          Bool.false_eq_true, or_self, if_false, List.cons_ne_nil]
        exact .draining (by simp [queue]) rfl rfl mirror
  | draining queue tasks phase mirror =>
      rw [phase] at hphase
      cases hphase
  | drained tasks phase mirror =>
      rw [phase] at hphase
      cases hphase
  | answered tasks phase result =>
      have hrest := (closed_utterance_append hone).2
      cases hrest

/-- An ASR task takes an item of the queue. -/
theorem BridgeAt.asrRead {processed : List ToBridge} {h h' : Handler} {i : Nat}
    {replies : List Reply} (hat : BridgeAt processed h replies)
    (hread : Mrcp.asrRead h i = some h') : BridgeAt processed h' replies := by
  cases hat with
  | idle => simp [Mrcp.asrRead] at hread
  | @listening opening chunks todo _ started eosSeen queue tasks phase mirror =>
      cases i with
      | succ i => simp [Mrcp.asrRead, tasks] at hread
      | zero =>
          cases todo with
          | nil => simp [Mrcp.asrRead, tasks, queue] at hread
          | cons chunk todo =>
              simp only [Mrcp.asrRead, tasks, queue, List.getElem?_cons_zero, List.map_cons,
                Bool.false_eq_true, if_false, Option.some.injEq] at hread
              subst hread
              have hsplit : chunks ++ chunk :: todo = (chunks ++ [chunk]) ++ todo := by simp
              rw [hsplit] at mirror ⊢
              exact .listening started eosSeen rfl rfl phase mirror
  | @draining opening chunks todo _ queue tasks phase mirror =>
      cases i with
      | succ i => simp [Mrcp.asrRead, tasks] at hread
      | zero =>
          cases todo with
          | nil =>
              simp only [Mrcp.asrRead, tasks, queue, List.getElem?_cons_zero, List.map_nil,
                List.nil_append, Bool.false_eq_true, if_false, Option.some.injEq] at hread
              subst hread
              rw [List.append_nil] at mirror ⊢
              exact .drained rfl phase mirror
          | cons chunk todo =>
              simp only [Mrcp.asrRead, tasks, queue, List.getElem?_cons_zero, List.map_cons,
                List.cons_append, Bool.false_eq_true, if_false, Option.some.injEq] at hread
              subst hread
              have hsplit : chunks ++ chunk :: todo = (chunks ++ [chunk]) ++ todo := by simp
              rw [hsplit] at mirror ⊢
              exact .draining rfl rfl phase mirror
  | drained tasks phase mirror =>
      cases i <;> cases hq : h.channel.audioQueue <;> simp [Mrcp.asrRead, tasks, hq] at hread
  | answered tasks phase result =>
      cases i <;> cases hq : h.channel.audioQueue <;> simp [Mrcp.asrRead, tasks, hq] at hread

/-- The ASR has answered: the RESULT is about the whole utterance. -/
theorem BridgeAt.finishEos {backend : BridgeBackend} {processed : List ToBridge} {h : Handler}
    {r : Handler × List Reply} {replies : List Reply} (hat : BridgeAt processed h replies)
    (hasr : ∀ task, h.tasks.getLast? = some task →
      ∃ transcript, backend.asr task.chunks = .ok transcript ∧
        ∀ audio, 0 < (backend.nlsml transcript audio h.channel.sessionId).length ∧
          (backend.nlsml transcript audio h.channel.sessionId).length ≤ maxFrameSize)
    (hfinish : Mrcp.finishEos backend h = some r) : BridgeAt processed r.1 (replies ++ r.2) := by
  cases hat with
  | idle => simp [Mrcp.finishEos] at hfinish
  | listening started eosSeen queue tasks phase mirror =>
      simp [Mrcp.finishEos, phase] at hfinish
  | draining queue tasks phase mirror => simp [Mrcp.finishEos, phase, tasks] at hfinish
  | @drained opening chunks _ tasks phase mirror =>
      have hlast : h.tasks.getLast? = some ⟨chunks, true⟩ := by
        rw [tasks]
        rfl
      obtain ⟨transcript, htranscript, hlen⟩ := hasr _ hlast
      simp only [Mrcp.finishEos, phase, tasks, List.getLast?_singleton, if_true, htranscript,
        Option.some.injEq] at hfinish
      subst hfinish
      refine .answered rfl rfl ?_
      intro reply hreply
      simp only [List.nil_append, List.mem_singleton] at hreply
      exact ⟨_, hreply, rfl, mirror, hlen _⟩
  | answered tasks phase result => simp [Mrcp.finishEos, phase] at hfinish

end Mrcp
end Sandroid
