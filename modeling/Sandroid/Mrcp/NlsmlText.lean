import Sandroid.Lib.Entities
import Sandroid.Mrcp.BridgeConnection

/-!
# The text in an NLSML document

`nlsml_transcript` of `adapters/mrcp/messages.py` and `render_nlsml` of
`adapters/mrcp/bridge.py` put text between two tags, with three characters replaced one
after another.  In this order the replacements come to one pass with a table of entities
(`replacements_eq_escape`), and of that reading is the inverse.

`readNlsml` is a reader of the document that takes the text of an element up to the next
`<`.  It gets back what was put there, so the text does not end its element.
-/

namespace Sandroid
namespace Mrcp

open Lib

/-- `safe_text` of `nlsml_transcript`. -/
def safeText (text : String) : String :=
  String.ofList (replaceChar '>' "&gt;".toList (replaceChar '<' "&lt;".toList
    (replaceChar '&' "&amp;".toList text.toList)))

def nlsmlTranscript (text : String) (confidence : ℚ) : Bytes :=
  let xml := "<?xml version=\"1.0\"?>\n" ++
    "<result xmlns=\"urn:ietf:params:xml:ns:nlsml:1.0\" grammar=\"session:any\">\n" ++
    "  <interpretation confidence=\"" ++ fixed2 confidence ++ "\">\n" ++
    "    <instance>" ++ safeText text ++ "</instance>\n" ++
    "  </interpretation>\n" ++
    "</result>\n"
  utf8 xml

/-- The three entities. -/
def xmlEntities : Entities Char where
  mark := '&'
  entries := [('&', "&amp;".toList), ('<', "&lt;".toList), ('>', "&gt;".toList)]
  mark_named := ⟨_, List.mem_cons_self, rfl⟩
  head_name := by decide
  tail_plain := by decide
  prefix_free := by decide

/-- The entities replaced from left to right. -/
def xmlUnescape (text : String) : String :=
  String.ofList (xmlEntities.unescape text.toList)

/-- Three replacements, each over what the one before has put, come to one pass. -/
theorem replacements_eq_escape (text : List Char) :
    replaceChar '>' "&gt;".toList (replaceChar '<' "&lt;".toList
      (replaceChar '&' "&amp;".toList text)) = xmlEntities.escape text := by
  rw [replaceChar, replaceChar, replaceChar, List.flatMap_assoc, List.flatMap_assoc,
    Entities.escape]
  congr 1
  funext x
  by_cases hamp : x = '&'
  · -- the mark is put by the first replacement, and no later one changes its name
    rw [hamp]
    rfl
  by_cases hlt : x = '<'
  · rw [hlt]
    rfl
  by_cases hgt : x = '>'
  · rw [hgt]
    rfl
  · have hplain : ∀ e ∈ xmlEntities.entries, e.1 ≠ x := by
      simp [xmlEntities, Ne.symm hamp, Ne.symm hlt, Ne.symm hgt]
    rw [xmlEntities.escapeOne_plain hplain, if_neg hamp, List.flatMap_singleton, if_neg hlt,
      List.flatMap_singleton, if_neg hgt]

theorem toList_xmlEscape (text : String) :
    (xmlEscape text).toList = xmlEntities.escape text.toList := by
  rw [xmlEscape, String.toList_ofList, replacements_eq_escape]

theorem safeText_eq (text : String) : safeText text = xmlEscape text := rfl

/-- Escaped text is plain up to the three entities, and it can be read back. -/
structure KeepsText (escape : String → String) : Prop where
  no_lt : ∀ text, '<' ∉ (escape text).toList
  no_gt : ∀ text, '>' ∉ (escape text).toList
  ampersand : ∀ text before after, (escape text).toList = before ++ '&' :: after →
    "&amp;".toList <+: '&' :: after ∨ "&lt;".toList <+: '&' :: after ∨
      "&gt;".toList <+: '&' :: after
  unescape : ∀ text, xmlUnescape (escape text) = text
  injective : Function.Injective escape

theorem keepsText_xmlEscape : KeepsText xmlEscape := by
  have hunescape (text : String) : xmlUnescape (xmlEscape text) = text := by
    rw [xmlUnescape, toList_xmlEscape, Entities.unescape_escape, String.ofList_toList]
  refine ⟨fun text => ?_, fun text => ?_, fun text before after h => ?_, hunescape,
    Function.LeftInverse.injective hunescape⟩
  · rw [toList_xmlEscape]
    exact xmlEntities.not_mem_escape (e := ('<', "&lt;".toList)) (by decide) (by decide) _
  · rw [toList_xmlEscape]
    exact xmlEntities.not_mem_escape (e := ('>', "&gt;".toList)) (by decide) (by decide) _
  · rw [toList_xmlEscape] at h
    obtain ⟨e, he, hprefix⟩ := xmlEntities.mark_begins_name h
    simp only [xmlEntities, List.mem_cons, List.not_mem_nil, or_false] at he
    rcases he with rfl | rfl | rfl
    · exact .inl hprefix
    · exact .inr (.inl hprefix)
    · exact .inr (.inr hprefix)

/-- Up to the confidence, behind the quote that ends it, and between the two texts. -/
def nlsmlHead : String :=
  "<?xml version=\"1.0\"?>\n" ++ "<result xmlns=\"http://www.ietf.org/xml/ns/mrcpv2\"\n" ++
    "        grammar=\"session:grammar@sandroid\">\n" ++ "  <interpretation confidence=\""

def nlsmlInput : String := ">\n" ++ "    <input mode=\"speech\">"
def nlsmlInstance : String := "/input>\n" ++ "    <instance>"
def nlsmlTail : String := "/instance>\n" ++ "  </interpretation>\n" ++ "</result>\n"

/-- The transcript and the intent of a document. -/
def readNlsml (document : Bytes) : Option (String × String) := do
  let text ← utf8Decode? document
  let (_, rest) ← cutAt ['"'] (text.toList.drop nlsmlHead.toList.length)
  let (transcript, rest) ← cutAt ['<'] (rest.drop nlsmlInput.toList.length)
  let (intentId, _) ← cutAt ['<'] (rest.drop nlsmlInstance.toList.length)
  some (xmlUnescape (String.ofList transcript), xmlUnescape (String.ofList intentId))

theorem renderNlsml_eq (transcript : String) (confidence : ℚ) (intentId : String) :
    renderNlsml transcript confidence intentId =
      utf8 (nlsmlHead ++ (fixed2 confidence ++ ("\"" ++ (nlsmlInput ++ (xmlEscape transcript ++
        ("<" ++ (nlsmlInstance ++ (xmlEscape intentId ++ ("<" ++ nlsmlTail))))))))) := by
  have hquote : "\">\n" = "\"" ++ ">\n" := by simp
  have hinput : "</input>\n" = "<" ++ "/input>\n" := by simp
  have hinstance : "</instance>\n" = "<" ++ "/instance>\n" := by simp
  rw [renderNlsml, hquote, hinput, hinstance]
  unfold nlsmlHead nlsmlInput nlsmlInstance nlsmlTail
  simp only [-String.reduceAppend, String.append_assoc]

theorem quote_not_mem_fixed2 (q : ℚ) : '"' ∉ (fixed2 q).toList := by
  have hdecimal (n : Nat) : '"' ∉ decimal n := by
    intro h
    exact absurd (isDigit_of_mem_decimal h) (by decide)
  have hsign : '"' ∉ (if q < 0 then "-" else "").toList := by
    split_ifs <;> decide
  have hpad (p : Prop) [Decidable p] : '"' ∉ (if p then "0" else "").toList := by
    split_ifs <;> decide
  rw [fixed2]
  simp only [String.toList_append, String.toList_ofList, List.mem_append, not_or]
  exact ⟨⟨⟨⟨hsign, hdecimal _⟩, by decide⟩, hpad _⟩, hdecimal _⟩

/-- The text of an element ends at the next tag. -/
theorem cutAt_text {c : Char} {text : List Char} (h : c ∉ text) (rest : List Char) :
    cutAt [c] (text ++ c :: rest) = some (text, rest) := by
  have hsep : cutAt [c] (c :: rest) = some ([], rest) :=
    cutAt_sep [c] rest (List.cons_ne_nil c [])
  rw [cutAt_append_of_not_mem h, hsep, Option.map_some, prepend, List.append_nil]

theorem readNlsml_renderNlsml (transcript : String) (confidence : ℚ) (intentId : String) :
    readNlsml (renderNlsml transcript confidence intentId) = some (transcript, intentId) := by
  have hquote := quote_not_mem_fixed2 confidence
  have htranscript := keepsText_xmlEscape.no_lt transcript
  have hintent := keepsText_xmlEscape.no_lt intentId
  have hend : "\"".toList = ['"'] := rfl
  have htag : "<".toList = ['<'] := rfl
  rw [readNlsml, renderNlsml_eq, utf8Decode?_utf8]
  simp only [Option.bind_eq_bind, Option.bind_some, String.toList_append, hend, htag,
    List.singleton_append, List.drop_left, cutAt_text hquote, cutAt_text htranscript,
    cutAt_text hintent, String.ofList_toList, keepsText_xmlEscape.unescape]

def transcriptHead : String :=
  "<?xml version=\"1.0\"?>\n" ++
    "<result xmlns=\"urn:ietf:params:xml:ns:nlsml:1.0\" grammar=\"session:any\">\n" ++
    "  <interpretation confidence=\""

def transcriptInstance : String := ">\n" ++ "    <instance>"

def readNlsmlTranscript (document : Bytes) : Option String := do
  let text ← utf8Decode? document
  let (_, rest) ← cutAt ['"'] (text.toList.drop transcriptHead.toList.length)
  let (transcript, _) ← cutAt ['<'] (rest.drop transcriptInstance.toList.length)
  some (xmlUnescape (String.ofList transcript))

theorem nlsmlTranscript_eq (text : String) (confidence : ℚ) :
    nlsmlTranscript text confidence =
      utf8 (transcriptHead ++ (fixed2 confidence ++ ("\"" ++ (transcriptInstance ++
        (safeText text ++ ("<" ++ nlsmlTail)))))) := by
  have hquote : "\">\n" = "\"" ++ ">\n" := by simp
  have hinstance : "</instance>\n" = "<" ++ "/instance>\n" := by simp
  rw [nlsmlTranscript, hquote, hinstance]
  unfold transcriptHead transcriptInstance nlsmlTail
  simp only [-String.reduceAppend, String.append_assoc]

theorem readNlsmlTranscript_nlsmlTranscript (text : String) (confidence : ℚ) :
    readNlsmlTranscript (nlsmlTranscript text confidence) = some text := by
  have hquote := quote_not_mem_fixed2 confidence
  have htext := keepsText_xmlEscape.no_lt text
  have hend : "\"".toList = ['"'] := rfl
  have htag : "<".toList = ['<'] := rfl
  rw [readNlsmlTranscript, nlsmlTranscript_eq, utf8Decode?_utf8, safeText_eq]
  simp only [Option.bind_eq_bind, Option.bind_some, String.toList_append, hend, htag,
    List.singleton_append, List.drop_left, cutAt_text hquote, cutAt_text htext,
    String.ofList_toList, keepsText_xmlEscape.unescape]

/-- Escaped text does not end its element, and a document has one transcript and one intent. -/
theorem nlsml_text_kept :
    KeepsText xmlEscape ∧ KeepsText safeText ∧ (∀ text, safeText text = xmlEscape text) ∧
      (∀ transcript confidence intentId,
        readNlsml (renderNlsml transcript confidence intentId) = some (transcript, intentId)) ∧
      (∀ transcript confidence intentId transcript' confidence' intentId',
        renderNlsml transcript confidence intentId =
          renderNlsml transcript' confidence' intentId' →
        transcript = transcript' ∧ intentId = intentId') ∧
      ∀ text confidence, readNlsmlTranscript (nlsmlTranscript text confidence) = some text := by
  have hsame : safeText = xmlEscape := funext safeText_eq
  refine ⟨keepsText_xmlEscape, ?_, safeText_eq, readNlsml_renderNlsml, ?_,
    readNlsmlTranscript_nlsmlTranscript⟩
  · rw [hsame]
    exact keepsText_xmlEscape
  · intro transcript confidence intentId transcript' confidence' intentId' h
    have hread := readNlsml_renderNlsml transcript confidence intentId
    rw [h, readNlsml_renderNlsml, Option.some.injEq, Prod.mk.injEq] at hread
    exact ⟨hread.1.symm, hread.2.symm⟩

-- text that looks like an entity comes back as it was
example : xmlEscape "&amp;lt; <" = "&amp;amp;lt; &lt;" ∧
    xmlUnescape "&amp;amp;lt; &lt;" = "&amp;lt; <" := by
  decide +kernel

end Mrcp
end Sandroid
