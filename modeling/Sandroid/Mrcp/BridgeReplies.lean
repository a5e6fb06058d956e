import Sandroid.Mrcp.BridgeErrors
import Sandroid.Mrcp.BridgeFraming

/-!
# Waiting for the bridge's answer

`sbr_wait_result` of `native/unimrcp-plugin/src/bridge_client.c` over the bytes that the
bridge writes.  The call reads frame after frame until a RESULT or an ERROR, within a time
budget that it checks before each header and each payload.

The socket is a script of answers to `poll` and `read`, as for the senders; the input is all
that the bridge writes until it closes its side.

* `sbrWaitResult_spec`: how a call ends, and what it has taken from the input;
* `sbrWaitResult_prompt`: the answer comes however the input is cut into pieces;
* `wait_results_inOrder`: successive calls return the RESULT frames in order, unless one of
  them gives up in the middle of a frame.
-/

namespace Sandroid
namespace Mrcp

/-- The socket's answer to one turn of the loop in `read_exact_timeout`. -/
inductive RecvAnswer where
  /-- `read` takes `more + 1` bytes, or all that are asked for or all that are left if these
  are fewer -/
  | ready (more : Nat)
  | eagain
  | eintr
  /-- `poll` times out or fails, or `read` does -/
  | failed
deriving DecidableEq, Repr

/-- What `read_exact_timeout` has done: its outcome, the bytes read, the input behind them
and the answers left. -/
structure RecvResult where
  outcome : Outcome
  got : Bytes
  input : Bytes
  rest : List RecvAnswer
deriving DecidableEq, Repr

def readExactTimeout : List RecvAnswer → Nat → Bytes → RecvResult
  | [], left, input =>
      if left = 0 then
        ⟨.ret 0, [], input, []⟩
      else
        ⟨.blocked, [], input, []⟩
  | answer :: script, left, input =>
      if left = 0 then
        ⟨.ret 0, [], input, answer :: script⟩
      else
        match answer with
        | .ready more =>
            if input = [] then
              -- the peer has closed
              ⟨.ret (-1), [], input, script⟩
            else
              let taken := input.take (min (more + 1) left)
              let r := readExactTimeout script (left - taken.length) (input.drop taken.length)
              { r with got := taken ++ r.got }
        | .eagain => readExactTimeout script left input
        | .eintr => readExactTimeout script left input
        | .failed => ⟨.ret (-1), [], input, script⟩

/-- What a call of `sbr_wait_result` has done: its outcome, `*out_nlsml` where it is set, the
input behind what was read and the answers left. -/
structure WaitResult where
  outcome : Outcome
  nlsml : Option Bytes
  input : Bytes
  rest : List RecvAnswer
deriving DecidableEq, Repr

section Wait

/-- `timeout_ms`, and the time elapsed at each look at the clock. -/
structure Budget where
  timeoutMs : Int
  elapsedMs : Nat → Int

/-- `remain_ms` at the `look`-th look at the clock. -/
def Budget.remainMs (budget : Budget) (look : Nat) : Int :=
  budget.timeoutMs - budget.elapsedMs look

variable (budget : Budget)

/-- The payload after a header; an empty one is not read. -/
def readPayload (look : Nat) (script : List RecvAnswer) (payloadLen : Nat) (input : Bytes) :
    RecvResult :=
  if payloadLen = 0 then
    ⟨.ret 0, [], input, script⟩
  else if budget.remainMs look ≤ 0 then
    ⟨.ret (-1), [], input, script⟩
  else
    readExactTimeout script payloadLen input

/-- `total` of a header. -/
def totalOf : Bytes → Nat
  | b₀ :: b₁ :: b₂ :: b₃ :: _ => unpackU32 b₀ b₁ b₂ b₃
  | _ => 0

/-- `header[4]`. -/
def typeOf (header : Bytes) : UInt8 := header.getD 4 0

/-- The loop; `look` counts the looks at the clock. -/
def waitLoop : Nat → Nat → List RecvAnswer → Bytes → WaitResult
  | 0, _, script, input => ⟨.blocked, none, input, script⟩
  | turns + 1, look, script, input =>
      if budget.remainMs look ≤ 0 then
        ⟨.ret (-1), none, input, script⟩
      else
        let header := readExactTimeout script 5 input
        if header.outcome ≠ .ret 0 then
          ⟨header.outcome, none, header.input, header.rest⟩
        else
          let total := totalOf header.got
          if total < 1 ∨ maxFrameSize < total - 1 then
            ⟨.ret (-2), none, header.input, header.rest⟩
          else
            let payload := readPayload budget (look + 1) header.rest (total - 1) header.input
            if payload.outcome ≠ .ret 0 then
              ⟨payload.outcome, none, payload.input, payload.rest⟩
            else if typeOf header.got = frameResult then
              ⟨.ret 0, some payload.got, payload.input, payload.rest⟩
            else if typeOf header.got = frameError then
              ⟨.ret (-1), none, payload.input, payload.rest⟩
            else
              waitLoop turns (look + if total - 1 = 0 then 1 else 2) payload.rest payload.input

/-- Every turn of the loop takes an answer, so these turns are enough. -/
def sbrWaitResult (script : List RecvAnswer) (input : Bytes) : WaitResult :=
  waitLoop budget (script.length + 1) 0 script input

end Wait

section Spec

/-- A frame that the loop passes over. -/
def Frame.PassedOver (f : Frame) : Prop :=
  f.ftype ≠ frameResult ∧ f.ftype ≠ frameError

instance (f : Frame) : Decidable f.PassedOver :=
  inferInstanceAs (Decidable (f.ftype ≠ frameResult ∧ f.ftype ≠ frameError))

instance (f : Frame) : Decidable f.Fits :=
  inferInstanceAs (Decidable (f.payload.length ≤ maxFrameSize))

/-- The read goes on until it has all bytes, or ends before. -/
inductive RecvSpec (script : List RecvAnswer) (left : Nat) (input : Bytes) (r : RecvResult) :
    Prop
  | whole (hret : r.outcome = .ret 0) (hinput : input = r.got ++ r.input)
      (hgot : r.got.length = left) (hrest : r.rest.length ≤ script.length)
      (hused : 0 < left → r.rest.length < script.length)
  | short (hret : r.outcome = .ret (-1) ∨ r.outcome = .blocked ∧ r.rest = [])
      (hinput : input = r.got ++ r.input) (hgot : r.got.length < left)

/-- One more answer that changes nothing. -/
theorem RecvSpec.again {script : List RecvAnswer} {left : Nat} {input : Bytes} {r : RecvResult}
    {answer : RecvAnswer} (h : RecvSpec script left input r) :
    RecvSpec (answer :: script) left input r := by
  cases h with
  | whole hret hinput hgot hrest hused =>
      exact .whole hret hinput hgot (hrest.trans (Nat.le_succ _))
        (fun _ => Nat.lt_succ_of_le hrest)
  | short hret hinput hgot => exact .short hret hinput hgot

theorem readExactTimeout_zero (script : List RecvAnswer) (input : Bytes) :
    readExactTimeout script 0 input = ⟨.ret 0, [], input, script⟩ := by
  cases script with
  | nil => rfl
  | cons answer script => rfl

theorem readExactTimeout_spec :
    ∀ (script : List RecvAnswer) (left : Nat) (input : Bytes),
      RecvSpec script left input (readExactTimeout script left input)
  | script, 0, input => by
      rw [readExactTimeout_zero]
      exact .whole rfl rfl rfl le_rfl (fun h => absurd h (lt_irrefl 0))
  | [], left + 1, input => by
      rw [readExactTimeout, if_neg (Nat.succ_ne_zero left)]
      exact .short (.inr ⟨rfl, rfl⟩) rfl (Nat.succ_pos left)
  | .ready more :: script, left + 1, input => by
      rw [readExactTimeout, if_neg (Nat.succ_ne_zero left)]
      by_cases hclosed : input = []
      · simp only [if_pos hclosed]
        exact .short (.inl rfl) rfl (Nat.succ_pos left)
      · simp only [if_neg hclosed]
        obtain ⟨taken, htaken⟩ :
            ∃ taken, taken = input.take (min (more + 1) (left + 1)) := ⟨_, rfl⟩
        have hprefix : taken <+: input := htaken ▸ List.take_prefix _ _
        have hsplit : input = taken ++ input.drop taken.length :=
          (List.prefix_iff_eq_append.mp hprefix).symm
        have hle : taken.length ≤ left + 1 := by
          rw [htaken, List.length_take]
          omega
        rw [← htaken]
        cases readExactTimeout_spec script (left + 1 - taken.length)
            (input.drop taken.length) with
        | whole hret hinput hgot hrest hused =>
            refine .whole hret ?_ ?_ ?_ (fun _ => ?_)
            · simp only [List.append_assoc]
              rw [← hinput]
              exact hsplit
            · rw [List.length_append, hgot]
              omega
            · exact hrest.trans (Nat.le_succ _)
            · exact Nat.lt_succ_of_le hrest
        | short hret hinput hgot =>
            refine .short hret ?_ ?_
            · simp only [List.append_assoc]
              rw [← hinput]
              exact hsplit
            · rw [List.length_append]
              omega
  | .eagain :: script, left + 1, input => by
      rw [readExactTimeout, if_neg (Nat.succ_ne_zero left)]
      exact (readExactTimeout_spec script (left + 1) input).again
  | .eintr :: script, left + 1, input => by
      rw [readExactTimeout, if_neg (Nat.succ_ne_zero left)]
      exact (readExactTimeout_spec script (left + 1) input).again
  | .failed :: script, left + 1, input => by
      rw [readExactTimeout, if_neg (Nat.succ_ne_zero left)]
      exact .short (.inl rfl) rfl (Nat.succ_pos left)

/-- How a call ends, and what it has taken from the input: frames that it passes over, and
then a RESULT, an ERROR, a header with a size that it refuses, or a frame cut short. -/
inductive WaitSpec (input : Bytes) (r : WaitResult) : Prop
  | result {skipped : List Frame} {payload : Bytes}
      (hskipped : ∀ f ∈ skipped, f.Fits ∧ f.PassedOver)
      (hfits : Frame.Fits ⟨frameResult, payload⟩)
      (hinput : input = skipped.flatMap Frame.wire ++
        (Frame.wire ⟨frameResult, payload⟩ ++ r.input))
      (hret : r.outcome = .ret 0) (hnlsml : r.nlsml = some payload)
  | error {skipped : List Frame} {payload : Bytes}
      (hskipped : ∀ f ∈ skipped, f.Fits ∧ f.PassedOver)
      (hfits : Frame.Fits ⟨frameError, payload⟩)
      (hinput : input = skipped.flatMap Frame.wire ++
        (Frame.wire ⟨frameError, payload⟩ ++ r.input))
      (hret : r.outcome = .ret (-1)) (hnlsml : r.nlsml = none)
  | invalidSize {skipped : List Frame} {header : Bytes} {total : Nat}
      (hskipped : ∀ f ∈ skipped, f.Fits ∧ f.PassedOver)
      (hheader : header.length = 5) (hsize : readFrame header = .invalidSize total)
      (hinput : input = skipped.flatMap Frame.wire ++ (header ++ r.input))
      (hret : r.outcome = .ret (-2)) (hnlsml : r.nlsml = none)
  | gaveUp {skipped : List Frame} {cut : Bytes}
      (hskipped : ∀ f ∈ skipped, f.Fits ∧ f.PassedOver)
      (hcut : readFrame cut = .incomplete)
      (hinput : input = skipped.flatMap Frame.wire ++ (cut ++ r.input))
      (hret : r.outcome = .ret (-1) ∨ r.outcome = .blocked ∧ r.rest = [])
      (hnlsml : r.nlsml = none)

/-- One more frame passed over before. -/
theorem WaitSpec.cons {input : Bytes} {r : WaitResult} {f : Frame} (h : WaitSpec input r)
    (hfits : f.Fits) (hover : f.PassedOver) : WaitSpec (f.wire ++ input) r := by
  have hall {skipped : List Frame} (hskipped : ∀ g ∈ skipped, g.Fits ∧ g.PassedOver) :
      ∀ g ∈ f :: skipped, g.Fits ∧ g.PassedOver := by
    simpa using ⟨⟨hfits, hover⟩, fun g hg => hskipped g hg⟩
  have hmore {skipped : List Frame} {tail : Bytes}
      (hinput : input = skipped.flatMap Frame.wire ++ tail) :
      f.wire ++ input = (f :: skipped).flatMap Frame.wire ++ tail := by
    rw [hinput, List.flatMap_cons, List.append_assoc]
  cases h with
  | result hskipped hpayload hinput hret hnlsml =>
      exact .result (hall hskipped) hpayload (hmore hinput) hret hnlsml
  | error hskipped hpayload hinput hret hnlsml =>
      exact .error (hall hskipped) hpayload (hmore hinput) hret hnlsml
  | invalidSize hskipped hheader hsize hinput hret hnlsml =>
      exact .invalidSize (hall hskipped) hheader hsize (hmore hinput) hret hnlsml
  | gaveUp hskipped hcut hinput hret hnlsml =>
      exact .gaveUp (hall hskipped) hcut (hmore hinput) hret hnlsml

variable {budget : Budget}

theorem readPayload_spec (look : Nat) (script : List RecvAnswer) (payloadLen : Nat)
    (input : Bytes) :
    RecvSpec script payloadLen input (readPayload budget look script payloadLen input) := by
  rw [readPayload]
  split_ifs with hempty hlate
  · subst hempty
    exact .whole rfl rfl rfl le_rfl (fun h => absurd h (lt_irrefl 0))
  · exact .short (.inl rfl) rfl (Nat.pos_of_ne_zero hempty)
  · exact readExactTimeout_spec script payloadLen input

section Header

variable {header got : Bytes}

theorem header_cases (h : header.length = 5) :
    ∃ b₀ b₁ b₂ b₃, header = [b₀, b₁, b₂, b₃, typeOf header] ∧
      totalOf header = unpackU32 b₀ b₁ b₂ b₃ := by
  rcases header with _ | ⟨b₀, _ | ⟨b₁, _ | ⟨b₂, _ | ⟨b₃, _ | ⟨ftype, rest⟩⟩⟩⟩⟩
  all_goals simp only [List.length_cons, List.length_nil] at h
  all_goals try omega
  have hrest : rest = [] := List.length_eq_zero_iff.mp (by omega)
  subst hrest
  exact ⟨b₀, b₁, b₂, b₃, rfl, rfl⟩

/-- The size is refused here where `read_frame` refuses it. -/
theorem readFrame_invalid (h : header.length = 5)
    (hsize : totalOf header < 1 ∨ maxFrameSize < totalOf header - 1) :
    readFrame header = .invalidSize (totalOf header) := by
  obtain ⟨b₀, b₁, b₂, b₃, hheader, htotal⟩ := header_cases h
  rw [htotal] at hsize ⊢
  rw [hheader, readFrame, if_pos hsize]

/-- A header whose payload is still to come. -/
theorem readFrame_unfinished (h : header.length = 5)
    (hsize : ¬ (totalOf header < 1 ∨ maxFrameSize < totalOf header - 1))
    (hgot : got.length < totalOf header - 1) : readFrame (header ++ got) = .incomplete := by
  obtain ⟨b₀, b₁, b₂, b₃, hheader, htotal⟩ := header_cases h
  rw [htotal] at hsize hgot
  rw [hheader]
  simp only [List.cons_append, List.nil_append, readFrame, if_neg hsize, if_pos hgot]

/-- A header with its payload is a frame. -/
theorem wire_of_header (h : header.length = 5)
    (hsize : ¬ (totalOf header < 1 ∨ maxFrameSize < totalOf header - 1))
    (hgot : got.length = totalOf header - 1) :
    Frame.Fits ⟨typeOf header, got⟩ ∧ header ++ got = Frame.wire ⟨typeOf header, got⟩ := by
  obtain ⟨b₀, b₁, b₂, b₃, hheader, htotal⟩ := header_cases h
  rw [not_or, not_lt, not_lt] at hsize
  refine ⟨hgot.trans_le hsize.2, ?_⟩
  have hlength : got.length + 1 = unpackU32 b₀ b₁ b₂ b₃ := by omega
  rw [Frame.wire, hlength, packU32_unpackU32, hheader]
  rfl

theorem readFrame_short {cut : Bytes} (h : cut.length < 5) : readFrame cut = .incomplete := by
  rcases cut with _ | ⟨b₀, _ | ⟨b₁, _ | ⟨b₂, _ | ⟨b₃, _ | ⟨ftype, rest⟩⟩⟩⟩⟩
  all_goals try rfl
  simp only [List.length_cons] at h
  omega

end Header

/-- One turn of the loop after another. -/
theorem waitLoop_spec :
    ∀ (turns look : Nat) (script : List RecvAnswer) (input : Bytes), script.length < turns →
      WaitSpec input (waitLoop budget turns look script input)
  | 0, _, script, _, hturns => absurd hturns (Nat.not_lt_zero _)
  | turns + 1, look, script, input, hturns => by
      rw [waitLoop]
      by_cases hlate : budget.remainMs look ≤ 0
      · rw [if_pos hlate]
        exact @WaitSpec.gaveUp _ _ [] [] nofun rfl rfl (.inl rfl) rfl
      rw [if_neg hlate]
      simp only
      generalize hheader : readExactTimeout script 5 input = header
      have hread := readExactTimeout_spec script 5 input
      rw [hheader] at hread
      cases hread with
      | short hret hinput hgot =>
          have hne : header.outcome ≠ .ret 0 := by
            rcases hret with h | ⟨h, -⟩
            · simp [h]
            · simp [h]
          rw [if_pos hne]
          exact @WaitSpec.gaveUp _ _ [] _ nofun (readFrame_short hgot) hinput hret rfl
      | whole hret hinput hgot hrest hused =>
          rw [if_neg (not_not.mpr hret)]
          by_cases hsize : totalOf header.got < 1 ∨ maxFrameSize < totalOf header.got - 1
          · rw [if_pos hsize]
            exact @WaitSpec.invalidSize _ _ [] _ _ nofun hgot (readFrame_invalid hgot hsize) hinput
              rfl rfl
          rw [if_neg hsize]
          generalize hpayload : readPayload budget (look + 1) header.rest (totalOf header.got - 1)
            header.input = payload
          have hread := @readPayload_spec budget (look + 1) header.rest (totalOf header.got - 1)
            header.input
          rw [hpayload] at hread
          cases hread with
          | short hret' hinput' hgot' =>
              have hne : payload.outcome ≠ .ret 0 := by
                rcases hret' with h | ⟨h, -⟩
                · simp [h]
                · simp [h]
              rw [if_pos hne]
              refine @WaitSpec.gaveUp _ _ [] _ nofun (readFrame_unfinished hgot hsize hgot') ?_
                hret' rfl
              rw [hinput, hinput']
              simp
          | whole hret' hinput' hgot' hrest' _ =>
              rw [if_neg (not_not.mpr hret')]
              obtain ⟨hfits, hwire⟩ := wire_of_header hgot hsize hgot'
              have hsplit : input = Frame.wire ⟨typeOf header.got, payload.got⟩ ++
                  payload.input := by
                rw [hinput, hinput', ← hwire, List.append_assoc]
              by_cases hresult : typeOf header.got = frameResult
              · rw [if_pos hresult]
                rw [hresult] at hfits hsplit
                exact @WaitSpec.result _ _ [] _ nofun hfits hsplit rfl rfl
              rw [if_neg hresult]
              by_cases herror : typeOf header.got = frameError
              · rw [if_pos herror]
                rw [herror] at hfits hsplit
                exact @WaitSpec.error _ _ [] _ nofun hfits hsplit rfl rfl
              rw [if_neg herror, hsplit]
              have hturn : payload.rest.length < turns := by
                have := hused (by omega)
                omega
              exact (waitLoop_spec turns _ payload.rest payload.input hturn).cons hfits
                ⟨hresult, herror⟩

/-- **How a call ends**, whatever the socket and the clock do. -/
theorem sbrWaitResult_spec (budget : Budget) (script : List RecvAnswer) (input : Bytes) :
    WaitSpec input (sbrWaitResult budget script input) :=
  waitLoop_spec _ 0 script input (Nat.lt_succ_self _)

end Spec

section Prompt

variable {budget : Budget} {script : List RecvAnswer} {input : Bytes}

def RecvAnswer.isReady : RecvAnswer → Bool
  | .ready _ => true
  | _ => false

/-- The socket does not fail, and it is ready often enough for this many bytes even if it
hands them out one at a time. -/
def Steady (script : List RecvAnswer) (bytes : Nat) : Prop :=
  .failed ∉ script ∧ bytes ≤ script.countP RecvAnswer.isReady

/-- There is time left whenever the call looks at the clock. -/
def Budget.Ample (budget : Budget) : Prop :=
  ∀ look, 0 < budget.remainMs look

theorem Steady.ready {bytes fewer more : Nat} (h : Steady (.ready more :: script) bytes)
    (hfewer : fewer + 1 ≤ bytes) : Steady script fewer := by
  obtain ⟨hfailed, hready⟩ := h
  rw [List.countP_cons_of_pos rfl] at hready
  exact ⟨fun hmem => hfailed (List.mem_cons_of_mem _ hmem), by omega⟩

theorem Steady.again {answer : RecvAnswer} {bytes : Nat} (h : Steady (answer :: script) bytes)
    (hanswer : answer.isReady = false) : Steady script bytes := by
  obtain ⟨hfailed, hready⟩ := h
  rw [List.countP_cons_of_neg (by simp [hanswer])] at hready
  exact ⟨fun hmem => hfailed (List.mem_cons_of_mem _ hmem), hready⟩

theorem Steady.le {bytes fewer : Nat} (h : Steady script bytes) (hle : fewer ≤ bytes) :
    Steady script fewer :=
  ⟨h.1, hle.trans h.2⟩

/-- A steady socket hands out all that is asked for, if it is there. -/
theorem readExactTimeout_steady :
    ∀ {script : List RecvAnswer} {left more : Nat} {input : Bytes},
      Steady script (left + more) → left ≤ input.length →
      (readExactTimeout script left input).outcome = .ret 0 ∧
        Steady (readExactTimeout script left input).rest more
  | script, 0, more, input, hsteady, _ => by
      rw [readExactTimeout_zero]
      exact ⟨rfl, hsteady.le (Nat.le_add_left more 0)⟩
  | [], left + 1, more, input, hsteady, _ => by
      have hready := hsteady.2
      rw [List.countP_nil] at hready
      omega
  | .ready n :: script, left + 1, more, input, hsteady, hleft => by
      have hne : input ≠ [] := by
        rintro rfl
        exact absurd hleft (Nat.not_succ_le_zero left)
      rw [readExactTimeout, if_neg (Nat.succ_ne_zero left)]
      simp only [if_neg hne]
      have htaken : (input.take (min (n + 1) (left + 1))).length = min (n + 1) (left + 1) := by
        rw [List.length_take]
        omega
      rw [htaken]
      have hrest : left + 1 - min (n + 1) (left + 1) ≤
          (input.drop (min (n + 1) (left + 1))).length := by
        rw [List.length_drop]
        omega
      exact readExactTimeout_steady (hsteady.ready (by omega)) hrest
  | .eagain :: script, left + 1, more, input, hsteady, hleft => by
      rw [readExactTimeout, if_neg (Nat.succ_ne_zero left)]
      exact readExactTimeout_steady (hsteady.again rfl) hleft
  | .eintr :: script, left + 1, more, input, hsteady, hleft => by
      rw [readExactTimeout, if_neg (Nat.succ_ne_zero left)]
      exact readExactTimeout_steady (hsteady.again rfl) hleft
  | .failed :: script, left + 1, more, input, hsteady, _ =>
      absurd List.mem_cons_self hsteady.1

/-- It takes as many bytes off the input. -/
theorem readExactTimeout_eq {left more : Nat} {front : Bytes}
    (hsteady : Steady script (left + more)) (hfront : front.length = left) (back : Bytes) :
    ∃ rest, readExactTimeout script left (front ++ back) = ⟨.ret 0, front, back, rest⟩ ∧
      Steady rest more ∧ rest.length ≤ script.length ∧
        (0 < left → rest.length < script.length) := by
  have hleft : left ≤ (front ++ back).length := by
    rw [List.length_append]
    omega
  obtain ⟨hret, hmore⟩ := readExactTimeout_steady hsteady hleft
  have hspec := readExactTimeout_spec script left (front ++ back)
  generalize readExactTimeout script left (front ++ back) = r at hret hmore hspec
  cases hspec with
  | short hret' hinput hgot =>
      rw [hret] at hret'
      rcases hret' with h | ⟨h, -⟩
      · cases h
      · cases h
  | whole _ hinput hgot hrest hused =>
      obtain ⟨rfl, rfl⟩ := List.append_inj hinput (hfront.trans hgot.symm)
      obtain ⟨outcome, got, input, rest⟩ := r
      cases hret
      exact ⟨rest, rfl, hmore, hrest, hused⟩

theorem readPayload_eq {more : Nat} {payload : Bytes} (hample : budget.Ample) (look : Nat)
    (hsteady : Steady script (payload.length + more)) (back : Bytes) :
    ∃ rest, readPayload budget look script payload.length (payload ++ back) =
        ⟨.ret 0, payload, back, rest⟩ ∧ Steady rest more ∧ rest.length ≤ script.length := by
  rw [readPayload]
  split_ifs with hempty hlate
  · have hnil : payload = [] := List.length_eq_zero_iff.mp hempty
    subst hnil
    exact ⟨script, rfl, hsteady.le (Nat.le_add_left _ _), le_rfl⟩
  · exact absurd (hample look) (not_lt.mpr hlate)
  · obtain ⟨rest, hread, hmore, hrest, -⟩ := readExactTimeout_eq hsteady rfl back
    exact ⟨rest, hread, hmore, hrest⟩

/-- One turn of the loop takes one frame. -/
theorem waitLoop_frame {f : Frame} {more : Nat} (hample : budget.Ample) (hfits : f.Fits)
    (hsteady : Steady script (f.wire.length + more)) (turns look : Nat) (back : Bytes) :
    ∃ look' rest, Steady rest more ∧ rest.length < script.length ∧
      waitLoop budget (turns + 1) look script (f.wire ++ back) =
        if f.ftype = frameResult then
          ⟨.ret 0, some f.payload, back, rest⟩
        else if f.ftype = frameError then
          ⟨.ret (-1), none, back, rest⟩
        else
          waitLoop budget turns look' rest back := by
  obtain ⟨header, hheader⟩ :
      ∃ header, header = packU32 (f.payload.length + 1) ++ [f.ftype] := ⟨_, rfl⟩
  have hlength : header.length = 5 := by rw [hheader]; rfl
  have hwire : f.wire ++ back = header ++ (f.payload ++ back) := by
    rw [hheader, Frame.wire, List.append_assoc, List.append_assoc, List.cons_append,
      List.singleton_append]
  have htotal : totalOf header = f.payload.length + 1 := by
    have hfits := hfits
    unfold Frame.Fits maxFrameSize at hfits
    rw [hheader]
    exact unpackU32_packU32 (by omega)
  have htype : typeOf header = f.ftype := by rw [hheader]; rfl
  rw [Frame.length_wire] at hsteady
  have hsteady : Steady script (5 + (f.payload.length + more)) := hsteady.le (by omega)
  obtain ⟨afterHeader, hread, hpayload, -, hused⟩ :=
    readExactTimeout_eq hsteady hlength (f.payload ++ back)
  obtain ⟨rest, hread', hmore, hrest⟩ := readPayload_eq hample (look + 1) hpayload back
  refine ⟨look + if f.payload.length = 0 then 1 else 2, rest, hmore,
    hrest.trans_lt (hused (by omega)), ?_⟩
  have hsize : ¬ (totalOf header < 1 ∨ maxFrameSize < totalOf header - 1) := by
    have hfits := hfits
    unfold Frame.Fits at hfits
    omega
  have hrefl : ¬ Outcome.ret 0 ≠ .ret 0 := not_not.mpr rfl
  rw [waitLoop, if_neg (not_le.mpr (hample look)), hwire, hread]
  simp only [if_neg hrefl, if_neg hsize]
  rw [htotal, Nat.add_sub_cancel, hread', htype]
  simp only [if_neg hrefl]

/-- The frames that are passed over make no difference. -/
theorem waitLoop_passes {f : Frame} (hample : budget.Ample) (hfits : f.Fits) (back : Bytes) :
    ∀ {skipped : List Frame} {script : List RecvAnswer} {turns : Nat} (look : Nat),
      (∀ g ∈ skipped, g.Fits ∧ g.PassedOver) → script.length < turns →
      Steady script ((skipped ++ [f]).flatMap Frame.wire).length →
      ∃ turns' look' script', Steady script' f.wire.length ∧
        waitLoop budget turns look script ((skipped ++ [f]).flatMap Frame.wire ++ back) =
          waitLoop budget (turns' + 1) look' script' (f.wire ++ back)
  | _, _, 0, _, _, hturns, _ => absurd hturns (Nat.not_lt_zero _)
  | [], script, turns + 1, look, _, _, hsteady => by
      rw [List.nil_append, List.flatMap_singleton] at hsteady ⊢
      exact ⟨turns, look, script, hsteady, rfl⟩
  | g :: skipped, script, turns + 1, look, hskipped, hturns, hsteady => by
      obtain ⟨hgfits, hresult, herror⟩ := hskipped g List.mem_cons_self
      rw [List.cons_append, List.flatMap_cons, List.length_append] at hsteady
      obtain ⟨look', rest, hmore, hused, hturn⟩ := waitLoop_frame hample hgfits hsteady turns look
        ((skipped ++ [f]).flatMap Frame.wire ++ back)
      obtain ⟨turns', look'', script', hlast, hloop⟩ := waitLoop_passes hample hfits back look'
        (fun g hg => hskipped g (List.mem_cons_of_mem _ hg)) (by omega : rest.length < turns) hmore
      refine ⟨turns', look'', script', hlast, ?_⟩
      rw [List.cons_append, List.flatMap_cons, List.append_assoc, hturn, if_neg hresult,
        if_neg herror, hloop]

/-- **The answer comes in time**, however the bytes come: the call takes what it passes over
and the answer, and no more. -/
theorem sbrWaitResult_prompt (budget : Budget) (hample : budget.Ample) (skipped : List Frame)
    (hskipped : ∀ g ∈ skipped, g.Fits ∧ g.PassedOver) (f : Frame) (hfits : f.Fits)
    (hanswer : ¬ f.PassedOver) (back : Bytes) (script : List RecvAnswer)
    (hsteady : Steady script ((skipped ++ [f]).flatMap Frame.wire).length) :
    ∃ rest, sbrWaitResult budget script ((skipped ++ [f]).flatMap Frame.wire ++ back) =
      if f.ftype = frameResult then ⟨.ret 0, some f.payload, back, rest⟩
      else ⟨.ret (-1), none, back, rest⟩ := by
  obtain ⟨turns, look, script', hlast, hloop⟩ := waitLoop_passes hample hfits back 0 hskipped
    (Nat.lt_succ_self script.length) hsteady
  have hlast : Steady script' (f.wire.length + 0) := hlast
  obtain ⟨_, rest, -, -, hturn⟩ := waitLoop_frame hample hfits hlast turns look back
  refine ⟨rest, ?_⟩
  rw [sbrWaitResult, hloop, hturn]
  by_cases hresult : f.ftype = frameResult
  · rw [if_pos hresult, if_pos hresult]
  · have herror : f.ftype = frameError := by
      by_contra herror
      exact hanswer ⟨hresult, herror⟩
    rw [if_neg hresult, if_neg hresult, if_pos herror]

end Prompt

section Calls

/-- A call, with what the clock and the socket do during it. -/
structure WaitCall where
  budget : Budget
  script : List RecvAnswer

/-- Calls on one connection; one that is still running holds up the next. -/
def waitCalls : List WaitCall → Bytes → List WaitResult
  | [], _ => []
  | call :: calls, input =>
      let r := sbrWaitResult call.budget call.script input
      r :: if r.outcome = .blocked then [] else waitCalls calls r.input

/-- Whole frames lie between two places of the input. -/
def WholeFrames (input rest : Bytes) : Prop :=
  ∃ frames : List Frame, (∀ f ∈ frames, f.Fits) ∧ input = frames.flatMap Frame.wire ++ rest

/-- No call gives up in the middle of a frame. -/
def BetweenFrames : Bytes → List WaitResult → Prop
  | _, [] => True
  | input, r :: rs => WholeFrames input r.input ∧ BetweenFrames r.input rs

/-- The input behind the last call. -/
def unread (input : Bytes) : List WaitResult → Bytes
  | [] => input
  | r :: rs => unread r.input rs

/-- The document of a RESULT frame. -/
def Frame.document (f : Frame) : Option Bytes :=
  if f.ftype = frameResult then some f.payload else none

variable {frames taken : List Frame} {tail rest : Bytes}

/-- Frames at the head of a stream of frames are the first of them. -/
theorem frames_of_append (htail : readFrame tail = .incomplete) :
    ∀ {taken frames : List Frame}, (∀ f ∈ taken, f.Fits) → (∀ f ∈ frames, f.Fits) →
      frames.flatMap Frame.wire ++ tail = taken.flatMap Frame.wire ++ rest →
      ∃ left, frames = taken ++ left ∧ rest = left.flatMap Frame.wire ++ tail
  | [], frames, _, _, hstream => ⟨frames, rfl, hstream.symm⟩
  | f :: taken, [], htaken, _, hstream => by
      have hread := readFrame_wire (htaken f List.mem_cons_self)
        (taken.flatMap Frame.wire ++ rest)
      rw [List.flatMap_nil, List.nil_append, List.flatMap_cons, List.append_assoc] at hstream
      rw [← hstream, htail] at hread
      cases hread
  | f :: taken, g :: frames, htaken, hframes, hstream => by
      have hf := readFrame_wire (htaken f List.mem_cons_self) (taken.flatMap Frame.wire ++ rest)
      have hg := readFrame_wire (hframes g List.mem_cons_self) (frames.flatMap Frame.wire ++ tail)
      rw [List.flatMap_cons, List.flatMap_cons, List.append_assoc, List.append_assoc] at hstream
      rw [hstream, hf] at hg
      obtain ⟨rfl, hback⟩ := ReadResult.frame.inj hg
      obtain ⟨left, rfl, hleft⟩ := frames_of_append htail
        (fun f hf => htaken f (List.mem_cons_of_mem _ hf))
        (fun f hf => hframes f (List.mem_cons_of_mem _ hf)) hback.symm
      exact ⟨left, rfl, hleft⟩

theorem document_passedOver {skipped : List Frame}
    (hskipped : ∀ f ∈ skipped, f.Fits ∧ f.PassedOver) :
    skipped.filterMap Frame.document = [] := by
  rw [List.filterMap_eq_nil_iff]
  intro f hf
  rw [Frame.document, if_neg (hskipped f hf).2.1]

theorem readFrame_header_append {header : Bytes} {total : Nat} (h : header.length = 5)
    (hsize : readFrame header = .invalidSize total) (more : Bytes) :
    readFrame (header ++ more) = .invalidSize total := by
  obtain ⟨b₀, b₁, b₂, b₃, hheader, -⟩ := header_cases h
  rw [hheader] at hsize ⊢
  simp only [readFrame, List.cons_append, List.nil_append] at hsize ⊢
  split_ifs at hsize with hinvalid
  rw [if_pos hinvalid, hsize]

theorem readFrame_frames_ne (htail : readFrame tail = .incomplete)
    (hframes : ∀ f ∈ frames, f.Fits) (total : Nat) :
    readFrame (frames.flatMap Frame.wire ++ tail) ≠ .invalidSize total := by
  cases frames with
  | nil =>
      rw [List.flatMap_nil, List.nil_append, htail]
      nofun
  | cons f frames =>
      rw [List.flatMap_cons, List.append_assoc, readFrame_wire (hframes f List.mem_cons_self)]
      nofun

theorem frames_eq_nil (hframes : ∀ f ∈ frames, f.Fits)
    (hcut : readFrame (frames.flatMap Frame.wire) = .incomplete) : frames = [] := by
  cases frames with
  | nil => rfl
  | cons f frames =>
      rw [List.flatMap_cons, readFrame_wire (hframes f List.mem_cons_self)] at hcut
      cases hcut

/-- A call on a stream of frames that takes whole frames: it returns the document of the
last of them, if that is a RESULT, and no other of them is one. -/
theorem WaitSpec.wholeFrames {r : WaitResult} (htail : readFrame tail = .incomplete)
    (hframes : ∀ f ∈ frames, f.Fits)
    (h : WaitSpec (frames.flatMap Frame.wire ++ tail) r)
    (hwhole : WholeFrames (frames.flatMap Frame.wire ++ tail) r.input) :
    ∃ read left, frames = read ++ left ∧ r.input = left.flatMap Frame.wire ++ tail ∧
      read.filterMap Frame.document = r.nlsml.toList ∧ r.outcome ≠ .ret (-2) := by
  have hsingle {skipped : List Frame} {ftype : UInt8} {payload : Bytes}
      (hinput : frames.flatMap Frame.wire ++ tail = skipped.flatMap Frame.wire ++
        (Frame.wire ⟨ftype, payload⟩ ++ r.input)) :
      frames.flatMap Frame.wire ++ tail =
        (skipped ++ [(⟨ftype, payload⟩ : Frame)]).flatMap Frame.wire ++ r.input := by
    rw [hinput, List.flatMap_append, List.flatMap_singleton, List.append_assoc]
  have hall {skipped : List Frame} {f : Frame} (hskipped : ∀ g ∈ skipped, g.Fits ∧ g.PassedOver)
      (hf : f.Fits) : ∀ g ∈ skipped ++ [f], g.Fits := by
    intro g hg
    rcases List.mem_append.mp hg with hg | hg
    · exact (hskipped g hg).1
    · rw [List.mem_singleton.mp hg]
      exact hf
  cases h with
  | result hskipped hfits hinput hret hnlsml =>
      obtain ⟨left, hread, hleft⟩ :=
        frames_of_append htail (hall hskipped hfits) hframes (hsingle hinput)
      refine ⟨_, left, hread, hleft, ?_, by simp [hret]⟩
      rw [List.filterMap_append, document_passedOver hskipped, hnlsml]
      rfl
  | error hskipped hfits hinput hret hnlsml =>
      obtain ⟨left, hread, hleft⟩ :=
        frames_of_append htail (hall hskipped hfits) hframes (hsingle hinput)
      refine ⟨_, left, hread, hleft, ?_, by simp [hret]⟩
      rw [List.filterMap_append, document_passedOver hskipped, hnlsml]
      rfl
  | @invalidSize skipped header total hskipped hheader hsize hinput hret hnlsml =>
      obtain ⟨left, rfl, hleft⟩ :=
        frames_of_append htail (fun f hf => (hskipped f hf).1) hframes hinput
      have hinvalid := readFrame_header_append hheader hsize r.input
      rw [hleft] at hinvalid
      exact absurd hinvalid
        (readFrame_frames_ne htail (fun f hf => hframes f (List.mem_append_right _ hf)) total)
  | @gaveUp skipped cut hskipped hcut hinput hret hnlsml =>
      obtain ⟨whole, hfits, hsplit⟩ := hwhole
      rw [hinput, ← List.append_assoc] at hsplit
      have hcutWhole := List.append_cancel_right hsplit
      have hflat : whole.flatMap Frame.wire ++ [] = skipped.flatMap Frame.wire ++ cut := by
        rw [List.append_nil, hcutWhole]
      obtain ⟨inCut, rfl, hinCut⟩ :=
        frames_of_append (by rfl) (fun f hf => (hskipped f hf).1) hfits hflat
      have hnone : cut = [] := by
        rw [List.append_nil] at hinCut
        rw [hinCut] at hcut ⊢
        rw [frames_eq_nil (fun f hf => hfits f (List.mem_append_right _ hf)) hcut]
        rfl
      rw [hnone, List.nil_append] at hinput
      obtain ⟨left, hread, hleft⟩ :=
        frames_of_append htail (fun f hf => (hskipped f hf).1) hframes hinput
      refine ⟨skipped, left, hread, hleft, ?_, ?_⟩
      · rw [document_passedOver hskipped, hnlsml]
        rfl
      · rcases hret with h | ⟨h, -⟩
        · simp [h]
        · simp [h]

/-- A document that a call returns is that of a RESULT frame. -/
theorem waitCalls_document {calls : List WaitCall} (htail : readFrame tail = .incomplete)
    (hframes : ∀ f ∈ frames, f.Fits)
    (hbetween : BetweenFrames (frames.flatMap Frame.wire ++ tail)
      (waitCalls calls (frames.flatMap Frame.wire ++ tail)))
    {r : WaitResult} (hr : r ∈ waitCalls calls (frames.flatMap Frame.wire ++ tail)) {text : Bytes}
    (htext : r.nlsml = some text) : ∃ f ∈ frames, f.ftype = frameResult ∧ f.payload = text := by
  induction calls generalizing frames with
  | nil => exact absurd hr List.not_mem_nil
  | cons call calls ih =>
      rw [waitCalls] at hbetween hr
      obtain ⟨hwhole, hbetween⟩ := hbetween
      have hspec := sbrWaitResult_spec call.budget call.script (frames.flatMap Frame.wire ++ tail)
      obtain ⟨read, left, rfl, hleft, hdocuments, -⟩ := hspec.wholeFrames htail hframes hwhole
      rcases List.mem_cons.mp hr with rfl | hr
      · rw [htext] at hdocuments
        have hmem : text ∈ read.filterMap Frame.document := by
          rw [hdocuments]
          exact List.mem_singleton_self text
        obtain ⟨f, hf, hdocument⟩ := List.mem_filterMap.mp hmem
        rw [Frame.document] at hdocument
        split at hdocument
        · rename_i hresult
          exact ⟨f, List.mem_append_left _ hf, hresult, Option.some.inj hdocument⟩
        · cases hdocument
      · split at hr
        · exact absurd hr List.not_mem_nil
        · rename_i hgoes
          rw [if_neg hgoes, hleft] at hbetween
          rw [hleft] at hr
          obtain ⟨f, hf, hdocument⟩ :=
            ih (fun f hf => hframes f (List.mem_append_right _ hf)) hbetween hr
          exact ⟨f, List.mem_append_right _ hf, hdocument⟩

theorem filterMap_nlsml_cons (r : WaitResult) (rs : List WaitResult) :
    (r :: rs).filterMap WaitResult.nlsml = r.nlsml.toList ++ rs.filterMap WaitResult.nlsml := by
  rw [List.filterMap_cons]
  cases r.nlsml with
  | none => rfl
  | some nlsml => rfl

/-- **Successive calls return the RESULT frames in order**, none left out and none twice, as
long as no call gives up in the middle of a frame. -/
theorem wait_results_inOrder (frames : List Frame) (tail : Bytes) (calls : List WaitCall)
    (hframes : ∀ f ∈ frames, f.Fits) (htail : readFrame tail = .incomplete)
    (hbetween : BetweenFrames (frames.flatMap Frame.wire ++ tail)
      (waitCalls calls (frames.flatMap Frame.wire ++ tail))) :
    ∃ read left, frames = read ++ left ∧
      (waitCalls calls (frames.flatMap Frame.wire ++ tail)).filterMap WaitResult.nlsml =
        read.filterMap Frame.document ∧
      unread (frames.flatMap Frame.wire ++ tail)
        (waitCalls calls (frames.flatMap Frame.wire ++ tail)) =
        left.flatMap Frame.wire ++ tail ∧
      ∀ r ∈ waitCalls calls (frames.flatMap Frame.wire ++ tail), r.outcome ≠ .ret (-2) := by
  induction calls generalizing frames with
  | nil => exact ⟨[], frames, rfl, rfl, rfl, nofun⟩
  | cons call calls ih =>
      rw [waitCalls] at hbetween ⊢
      obtain ⟨hwhole, hbetween⟩ := hbetween
      have hspec := sbrWaitResult_spec call.budget call.script (frames.flatMap Frame.wire ++ tail)
      generalize sbrWaitResult call.budget call.script (frames.flatMap Frame.wire ++ tail) = r
        at hwhole hbetween hspec
      obtain ⟨read, left, rfl, hleft, hdocuments, hret⟩ := hspec.wholeFrames htail hframes hwhole
      by_cases hblocked : r.outcome = .blocked
      · rw [if_pos hblocked]
        refine ⟨read, left, rfl, ?_, hleft, ?_⟩
        · rw [filterMap_nlsml_cons, hdocuments, List.filterMap_nil, List.append_nil]
        · simpa using hret
      · rw [if_neg hblocked] at hbetween ⊢
        rw [hleft] at hbetween ⊢
        obtain ⟨read', left', rfl, hdocuments', hunread, hrets⟩ :=
          ih left (fun f hf => hframes f (List.mem_append_right _ hf)) hbetween
        refine ⟨read ++ read', left', (List.append_assoc _ _ _).symm, ?_, ?_, ?_⟩
        · rw [filterMap_nlsml_cons, hdocuments', List.filterMap_append, hdocuments]
        · rw [unread, hleft, hunread]
        · exact List.forall_mem_cons.mpr ⟨hret, hrets⟩

/-- An answer, and the frames before it that are passed over. -/
structure BridgeAnswer where
  skipped : List Frame
  answer : Frame
  skipped_over : ∀ f ∈ skipped, f.Fits ∧ f.PassedOver
  fits : answer.Fits
  answers : ¬ answer.PassedOver

def BridgeAnswer.all (a : BridgeAnswer) : List Frame := a.skipped ++ [a.answer]

/-- **Each call gets the next answer**, if the clock and the socket let it: whatever the
pieces in which the bytes come, and whatever frames are in between. -/
theorem wait_results_prompt (answered : List BridgeAnswer) (tail : Bytes) (calls : List WaitCall)
    (hcalls : calls.length ≤ answered.length)
    (hprompt : ∀ call ∈ calls, call.budget.Ample ∧ ∀ a ∈ answered,
      Steady call.script (a.all.flatMap Frame.wire).length) :
    (waitCalls calls ((answered.flatMap BridgeAnswer.all).flatMap Frame.wire ++ tail)).map
        (fun r => (r.outcome, r.nlsml)) =
      (answered.take calls.length).map fun a =>
        if a.answer.ftype = frameResult then (.ret 0, some a.answer.payload)
        else (.ret (-1), none) := by
  induction calls generalizing answered with
  | nil => rfl
  | cons call calls ih =>
      cases answered with
      | nil => exact absurd hcalls (Nat.not_succ_le_zero _)
      | cons a answered =>
          obtain ⟨hample, hsteady⟩ := hprompt call List.mem_cons_self
          obtain ⟨rest, hcall⟩ := sbrWaitResult_prompt call.budget hample a.skipped a.skipped_over
            a.answer a.fits a.answers
            ((answered.flatMap BridgeAnswer.all).flatMap Frame.wire ++ tail) call.script
            (hsteady a List.mem_cons_self)
          have hmore := ih answered (Nat.le_of_succ_le_succ hcalls) (fun c hc =>
            ⟨(hprompt c (List.mem_cons_of_mem _ hc)).1,
              fun b hb => (hprompt c (List.mem_cons_of_mem _ hc)).2 b (List.mem_cons_of_mem _ hb)⟩)
          rw [List.flatMap_cons, List.flatMap_append, List.append_assoc, waitCalls,
            show a.all = a.skipped ++ [a.answer] from rfl, hcall]
          by_cases hresult : a.answer.ftype = frameResult
          · simp only [if_pos hresult, reduceCtorEq, if_false, List.map_cons, List.length_cons,
              List.take_succ_cons, hmore]
          · simp only [if_neg hresult, reduceCtorEq, if_false, List.map_cons, List.length_cons,
              List.take_succ_cons, hmore]

end Calls

/-- A clock that stands still. -/
def patient : Budget := ⟨10000, fun _ => 0⟩

theorem patient_ample : patient.Ample := by
  intro look
  change (0 : Int) < 10000 - 0
  decide

def noted : Frame := ⟨0x12, [1]⟩
def heardBody : Frame := ⟨frameResult, [7, 8]⟩
def failedBody : Frame := ⟨frameError, []⟩

/-- A socket that hands out three bytes at a time, with a pause before. -/
def byThrees : List RecvAnswer := .eagain :: .eintr :: List.replicate 20 (.ready 2)

theorem wait_results_inOrder_pieces :
    ∃ read left, [noted, heardBody, failedBody] = read ++ left ∧
      (waitCalls [⟨patient, byThrees⟩, ⟨patient, byThrees⟩]
          ([noted, heardBody, failedBody].flatMap Frame.wire ++ [0, 0])).filterMap
          WaitResult.nlsml = read.filterMap Frame.document ∧
      unread ([noted, heardBody, failedBody].flatMap Frame.wire ++ [0, 0])
          (waitCalls [⟨patient, byThrees⟩, ⟨patient, byThrees⟩]
            ([noted, heardBody, failedBody].flatMap Frame.wire ++ [0, 0])) =
        left.flatMap Frame.wire ++ [0, 0] ∧
      ∀ r ∈ waitCalls [⟨patient, byThrees⟩, ⟨patient, byThrees⟩]
          ([noted, heardBody, failedBody].flatMap Frame.wire ++ [0, 0]), r.outcome ≠ .ret (-2) := by
  refine wait_results_inOrder [noted, heardBody, failedBody] [0, 0] _ (by decide) rfl ?_
  exact ⟨⟨[noted, heardBody], by decide, by decide⟩, ⟨[failedBody], by decide, by decide⟩, trivial⟩

def firstAnswer : BridgeAnswer :=
  ⟨[noted], heardBody, by decide, by decide, by decide⟩

def secondAnswer : BridgeAnswer :=
  ⟨[], failedBody, by decide, by decide, by decide⟩

/-- Two waits, one for a document and one for an error; the third answer is left. -/
theorem wait_results_prompt_pieces :
    (waitCalls [⟨patient, byThrees⟩, ⟨patient, byThrees⟩]
        (([firstAnswer, secondAnswer, firstAnswer].flatMap BridgeAnswer.all).flatMap Frame.wire ++
          [0, 0])).map (fun r => (r.outcome, r.nlsml)) =
      [(.ret 0, some [7, 8]), (.ret (-1), none)] := by
  refine wait_results_prompt [firstAnswer, secondAnswer, firstAnswer] [0, 0]
    [⟨patient, byThrees⟩, ⟨patient, byThrees⟩] (by decide) ?_
  have hcalls : ∀ call ∈ [(⟨patient, byThrees⟩ : WaitCall), ⟨patient, byThrees⟩],
      call = ⟨patient, byThrees⟩ := by
    simp
  intro call hcall
  rw [hcalls call hcall]
  refine ⟨patient_ample, fun a ha => ?_⟩
  have hanswer : a = firstAnswer ∨ a = secondAnswer ∨ a = firstAnswer := by
    simpa using ha
  rcases hanswer with rfl | rfl | rfl <;> exact ⟨by decide, by decide⟩

-- The time of the first call is up behind the header of a RESULT whose payload looks like a
-- frame; the second returns a document that the bridge has never sent.
example :
    (waitCalls [⟨⟨10000, fun look => 10000 * look⟩, List.replicate 20 (.ready 2)⟩,
        ⟨⟨10000, fun _ => 0⟩, List.replicate 20 (.ready 2)⟩]
        (Frame.wire ⟨frameResult, Frame.wire ⟨frameResult, [66]⟩⟩)).map
        (fun r => (r.outcome, r.nlsml)) =
      [(.ret (-1), none), (.ret 0, some [66])] := by
  decide +kernel

end Mrcp
end Sandroid
