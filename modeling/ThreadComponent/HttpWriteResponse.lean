import ThreadComponent.HttpHeaders
import ThreadComponent.HttpResponseSafety

/-!
# The bytes of a response

`writeResponse` is the writer of every response of cHTTPServer and cHTTPSServer, the same text in
both. What it writes is given to an HTTP/1.1 reader.
-/

set_option autoImplicit false

namespace ThreadComponent

open Transitions System HeaderText

section Writer
-- `SimpleWeb::status_code`
variable (statusCodeText : Nat → String)

def makeStatusLine (statusCode : Nat) : String :=
  if statusCodeText statusCode ≠ "" then statusCodeText statusCode else toString statusCode

def writeResponse (statusCode : Nat) (body : String) (headers : Fields) : List Char :=
  "HTTP/1.1 ".toList ++ (makeStatusLine statusCodeText statusCode).toList ++ ['\r', '\n'] ++
    (headers.flatMap fun header => if header.name = "" then [] else writeField header.text) ++
    (if hasHeader headers "Content-Length" then []
      else "Content-Length: ".toList ++ (toString body.length).toList ++ ['\r', '\n']) ++
    ['\r', '\n'] ++ body.toList

def ResponseState.sent (x : ResponseState) : List Char :=
  x.written.flatMap fun w => writeResponse statusCodeText w.statusCode w.body w.headers

end Writer

/-- The library knows a code by a text that begins with it, or not at all. -/
def KnowsCodes (statusCodeText : Nat → String) : Prop :=
  ∀ code, statusCodeText code = "" ∨ ∃ reason : List Char,
    (statusCodeText code).toList = (toString code).toList ++ ' ' :: reason ∧
      '\r' ∉ reason ∧ '\n' ∉ reason

/-! ## The reader -/

structure Message where
  statusCode : Nat
  headers : List (List Char × List Char)
  body : List Char
  rest : List Char
  deriving DecidableEq, Repr

def readNat (text : List Char) : Option Nat :=
  if text ≠ [] ∧ text.all Char.isDigit then some (Nat.ofDigitChars 10 text 0) else none

/-- The code of a status line; a blank separates it from its reason. -/
def readStatusLine (line : List Char) : Option Nat :=
  if "HTTP/1.1 ".toList.isPrefixOf line then
    readNat ((line.drop "HTTP/1.1 ".length).takeWhile (· ≠ ' '))
  else none

def readContentLength (headers : List (List Char × List Char)) : Option Nat :=
  (headers.find? fun f => iequals f.1 "Content-Length".toList).bind fun f => readNat f.2

def readResponse (e : LineEnd) (text : List Char) : Option Message :=
  (takeLine e text).bind fun (line, text) =>
    (readStatusLine line).bind fun statusCode =>
      (readFields e text).bind fun (headers, text) =>
        (readContentLength headers).bind fun length =>
          if length ≤ text.length then
            some ⟨statusCode, headers, text.take length, text.drop length⟩
          else none

/-- What is to be read of a response: its headers, with their length behind them. -/
def Written.message (w : Written) : Message where
  statusCode := w.statusCode
  headers := ((w.headers.filter fun header => header.name ≠ "").map Field.text) ++
    [("Content-Length".toList, (toString w.body.length).toList)]
  body := w.body.toList
  rest := []

/-! ## What it reads -/

theorem isDigit_of_mem_toString {n : Nat} {c : Char} (hc : c ∈ (toString n).toList) :
    c.isDigit = true := by
  rw [Nat.toString_eq_repr, Nat.toList_repr] at hc
  exact Nat.isDigit_of_mem_toDigits (by decide) (by decide) hc

theorem notMem_toString {n : Nat} {c : Char} (hc : c.isDigit = false) :
    c ∉ (toString n).toList := by
  intro hmem
  rw [isDigit_of_mem_toString hmem] at hc
  cases hc

theorem readNat_toString (n : Nat) : readNat (toString n).toList = some n := by
  have hne : (toString n).toList ≠ [] := by
    rw [Nat.toString_eq_repr, Nat.toList_repr]
    exact Nat.toDigits_ne_nil
  have hdigits : (toString n).toList.all Char.isDigit = true :=
    List.all_eq_true.mpr fun c hc => isDigit_of_mem_toString hc
  rw [readNat, if_pos ⟨hne, hdigits⟩, Nat.toString_eq_repr, Nat.toList_repr,
    Nat.ofDigitChars_ten_toDigits]

section Read
variable {statusCodeText : Nat → String} {e : LineEnd}

theorem makeStatusLine_cases (hcodes : KnowsCodes statusCodeText) (statusCode : Nat) :
    (makeStatusLine statusCodeText statusCode).toList = (toString statusCode).toList ∨
      ∃ reason, (makeStatusLine statusCodeText statusCode).toList =
        (toString statusCode).toList ++ ' ' :: reason ∧ '\n' ∉ reason := by
  unfold makeStatusLine
  split
  · rename_i hknown
    obtain ⟨reason, htext, -, hline⟩ := (hcodes statusCode).resolve_left hknown
    exact .inr ⟨reason, htext, hline⟩
  · exact .inl rfl

theorem readStatusLine_makeStatusLine (hcodes : KnowsCodes statusCodeText) (statusCode : Nat) :
    readStatusLine ("HTTP/1.1 ".toList ++ (makeStatusLine statusCodeText statusCode).toList) =
      some statusCode := by
  have hdigits : ∀ c ∈ (toString statusCode).toList, decide (c ≠ ' ') = true := by
    intro c hc
    refine decide_eq_true ?_
    rintro rfl
    exact notMem_toString (by decide) hc
  have hcode : ((makeStatusLine statusCodeText statusCode).toList).takeWhile (· ≠ ' ') =
      (toString statusCode).toList := by
    rcases makeStatusLine_cases hcodes statusCode with htext | ⟨reason, htext, -⟩
    · rw [htext, List.takeWhile_eq_self_iff.mpr hdigits]
    · rw [htext, List.takeWhile_append_of_pos hdigits, List.takeWhile_cons_of_neg (by simp),
        List.append_nil]
  have hdrop : ("HTTP/1.1 ".toList ++ (makeStatusLine statusCodeText statusCode).toList).drop
      "HTTP/1.1 ".length = (makeStatusLine statusCodeText statusCode).toList :=
    List.drop_left
  rw [readStatusLine, if_pos (List.isPrefixOf_iff_prefix.mpr (List.prefix_append ..)), hdrop, hcode,
    readNat_toString]

theorem statusLine_not_breaks (hcodes : KnowsCodes statusCodeText) (statusCode : Nat) :
    ¬ e.Breaks ("HTTP/1.1 ".toList ++ (makeStatusLine statusCodeText statusCode).toList) := by
  have hversion : '\n' ∉ "HTTP/1.1 ".toList := by decide
  have hcode : '\n' ∉ (toString statusCode).toList := notMem_toString (by decide)
  refine not_breaks_of_notMem ?_
  rw [List.mem_append, not_or]
  refine ⟨hversion, ?_⟩
  rcases makeStatusLine_cases hcodes statusCode with htext | ⟨reason, htext, hline⟩
  · rwa [htext]
  · rw [htext, List.mem_append, not_or, List.mem_cons, not_or]
    exact ⟨hcode, by decide, hline⟩

theorem flatMap_writeField (headers : Fields) :
    (headers.flatMap fun header => if header.name = "" then [] else writeField header.text) =
      ((headers.filter fun header => header.name ≠ "").map Field.text).flatMap writeField := by
  induction headers with
  | nil => rfl
  | cons header headers ih =>
    rw [List.flatMap_cons, ih, List.filter_cons]
    by_cases hname : header.name = ""
    · simp [hname]
    · simp [hname]

theorem message_headers (w : Written) : w.message.headers =
    ((w.headers.filter fun header => header.name ≠ "").map Field.text) ++
      [("Content-Length".toList, (toString w.body.length).toList)] := rfl

/-- The header section of a response without a length of its own is a list of fields. -/
theorem writeResponse_eq (w : Written) (hlength : hasHeader w.headers "Content-Length" = false) :
    writeResponse statusCodeText w.statusCode w.body w.headers =
      "HTTP/1.1 ".toList ++ (makeStatusLine statusCodeText w.statusCode).toList ++ '\r' :: '\n' ::
        (w.message.headers.flatMap writeField ++ '\r' :: '\n' :: w.body.toList) := by
  have hname : "Content-Length: ".toList = "Content-Length".toList ++ [':', ' '] := by decide
  unfold writeResponse
  simp only [flatMap_writeField, message_headers, List.flatMap_append, List.flatMap_singleton]
  simp only [hlength, writeField, hname, Bool.false_eq_true, if_false, List.append_assoc,
    List.cons_append, List.nil_append]

theorem readContentLength_message {w : Written}
    (hlength : hasHeader w.headers "Content-Length" = false) :
    readContentLength w.message.headers = some w.body.length := by
  have hfind : ((w.headers.filter fun header => header.name ≠ "").map Field.text).find?
      (fun f => iequals f.1 "Content-Length".toList) = none := by
    rw [List.find?_eq_none]
    intro f hf
    obtain ⟨header, hheader, rfl⟩ := List.mem_map.mp hf
    have hnone := List.any_eq_false.mp hlength header (List.mem_filter.mp hheader).1
    simpa [Field.text] using hnone
  have hlast : iequals "Content-Length".toList "Content-Length".toList = true := by decide
  rw [readContentLength, Written.message, List.find?_append, hfind, Option.none_or,
    List.find?_cons, hlast]
  exact readNat_toString _

theorem readable_message {w : Written}
    (h : ∀ header ∈ w.headers, header.name ≠ "" → Readable e header.text) :
    ∀ f ∈ w.message.headers, Readable e f := by
  intro f hf
  rw [message_headers, List.mem_append] at hf
  rcases hf with hf | hf
  · obtain ⟨header, hheader, rfl⟩ := List.mem_map.mp hf
    obtain ⟨hmem, hname⟩ := List.mem_filter.mp hheader
    exact h header hmem (of_decide_eq_true hname)
  · obtain rfl := List.mem_singleton.mp hf
    have hdigits : '\n' ∉ (toString w.body.length).toList := notMem_toString (by decide)
    have hcolon : ':' ∉ "Content-Length".toList := by decide
    have hline : '\n' ∉ "Content-Length".toList := by decide
    refine ⟨hcolon, not_breaks_of_notMem hline, not_breaks_of_notMem hdigits, ?_⟩
    refine trim_eq_self fun c hc => ?_
    have hdigit := isDigit_of_mem_toString hc
    cases hblank : isBlank c with
    | false => rfl
    | true =>
      simp only [isBlank, Bool.or_eq_true, decide_eq_true_eq] at hblank
      rcases hblank with rfl | rfl <;> cases hdigit

/-- A response is read as it was written if the reader finds its fields. -/
theorem readResponse_writeResponse (hcodes : KnowsCodes statusCodeText) {w : Written}
    (hlength : hasHeader w.headers "Content-Length" = false) :
    readResponse e (writeResponse statusCodeText w.statusCode w.body w.headers) =
        some w.message ↔
      ∀ header ∈ w.headers, header.name ≠ "" → Readable e header.text := by
  have hline := takeLine_append (statusLine_not_breaks (e := e) hcodes w.statusCode)
    (w.message.headers.flatMap writeField ++ '\r' :: '\n' :: w.body.toList)
  rw [writeResponse_eq w hlength]
  have hstatus := readStatusLine_makeStatusLine hcodes w.statusCode
  have hread : ∀ text, readResponse e text = some w.message →
      ∃ line rest more, takeLine e text = some (line, rest) ∧
        readFields e rest = some (w.message.headers, more) := by
    intro text h
    obtain ⟨⟨line, rest⟩, hfirst, h⟩ := Option.bind_eq_some_iff.mp h
    obtain ⟨code, -, h⟩ := Option.bind_eq_some_iff.mp h
    obtain ⟨⟨fields, more⟩, hfields, h⟩ := Option.bind_eq_some_iff.mp h
    obtain ⟨length, -, h⟩ := Option.bind_eq_some_iff.mp h
    refine ⟨line, rest, more, hfirst, ?_⟩
    simp only [Option.ite_none_right_eq_some, Option.some.injEq] at h
    rw [hfields, ← h.2]
  constructor
  · intro h header hheader hname
    obtain ⟨line, rest, more, -, hfields⟩ := hread _ h
    refine (readable_of_readFields hfields _ ?_).1
    rw [message_headers]
    refine List.mem_append_left _ (List.mem_map_of_mem ?_)
    exact List.mem_filter.mpr ⟨hheader, decide_eq_true hname⟩
  · intro hreadable
    have hfields := readFields_writeFields (e := e) (readable_message hreadable) w.body.toList
    have hcontent := readContentLength_message hlength
    unfold readResponse
    simp only [hline, hstatus, hfields, hcontent, Option.bind_some, String.length_toList,
      Nat.le_refl, if_true]
    rw [← String.length_toList, List.take_length, List.drop_length]
    rfl

/-- One response is all that is sent. -/
theorem sent_of_reachable {responses : Responses} (hr : responseSystem.Reachable responses)
    {i : Nat} {w : Written} (hw : w ∈ (responses.state i).written) :
    (responses.state i).sent statusCodeText =
      writeResponse statusCodeText w.statusCode w.body w.headers := by
  have honce := Responses.written_at_most_once hr i
  obtain ⟨w', hwritten⟩ : ∃ w', (responses.state i).written = [w'] :=
    List.length_eq_one_iff.mp (Nat.le_antisymm honce (List.length_pos_of_mem hw))
  rw [hwritten] at hw
  obtain rfl := List.mem_singleton.mp hw
  rw [ResponseState.sent, hwritten, List.flatMap_singleton]

/-- Whoever responds first, what is sent is read as that response if the reader finds its
fields. -/
theorem sent_response_is_decodable_iff (hcodes : KnowsCodes statusCodeText) (e : LineEnd)
    {responses : Responses} (hr : responseSystem.Reachable responses) {i : Nat} {w : Written}
    (hw : w ∈ (responses.state i).written)
    (hlength : hasHeader w.headers "Content-Length" = false) :
    readResponse e ((responses.state i).sent statusCodeText) = some w.message ↔
      ∀ header ∈ w.headers, header.name ≠ "" → Readable e header.text := by
  rw [sent_of_reachable hr hw]
  exact readResponse_writeResponse hcodes hlength

end Read

def knownCodes (code : Nat) : String := if code = 302 then "302 Found" else ""

theorem knownCodes_known : KnowsCodes knownCodes := by
  intro code
  by_cases hcode : code = 302
  · subst hcode
    exact .inr ⟨"Found".toList, by decide, by decide, by decide⟩
  · exact .inl (if_neg hcode)

def redirectSchedule (location : String) : List ResponseAction :=
  [.make, .write 0 (.redirect location 302), .callWriter 0]

theorem sent_response_is_decodable_iff_redirect :
    let responses := responseSystem.after Free {} (redirectSchedule "/")
    readResponse .crlf ((responses.state 0).sent knownCodes) =
      some ⟨302, [("Location".toList, ['/']), ("Content-Length".toList, ['0'])], [], []⟩ := by
  have hreadable : ∀ header ∈ [(⟨"Location", "/"⟩ : Field)], header.name ≠ "" →
      Readable .crlf header.text := by
    intro header hheader _
    obtain rfl := List.mem_singleton.mp hheader
    have hcolon : ':' ∉ (⟨"Location", "/"⟩ : Field).text.1 := by decide
    have hname : '\n' ∉ (⟨"Location", "/"⟩ : Field).text.1 := by decide
    have hvalue : '\n' ∉ (⟨"Location", "/"⟩ : Field).text.2 := by decide
    exact ⟨hcolon, not_breaks_of_notMem hname, not_breaks_of_notMem hvalue, by decide⟩
  exact (sent_response_is_decodable_iff knownCodes_known .crlf (i := 0)
    (w := ⟨302, "", [⟨"Location", "/"⟩]⟩) (reaches_after (by decide)) (by decide)
    (by decide)).mpr hreadable

/-- A redirect to a location with the end of a line in it. -/
theorem redirect_splits_response :
    ¬ ∀ statusCodeText, KnowsCodes statusCodeText → ∀ (e : LineEnd) (responses : Responses),
      responseSystem.Reachable responses → ∀ (i : Nat) (w : Written),
        w ∈ (responses.state i).written → hasHeader w.headers "Content-Length" = false →
          readResponse e ((responses.state i).sent statusCodeText) = some w.message := by
  intro h
  have hr : responseSystem.Reachable (responseSystem.after Free {}
      (redirectSchedule "/\r\nSet-Cookie: a=b")) := reaches_after (by decide)
  have hw : (⟨302, "", [⟨"Location", "/\r\nSet-Cookie: a=b"⟩]⟩ : Written) ∈
      ((responseSystem.after Free {}
        (redirectSchedule "/\r\nSet-Cookie: a=b")).state 0).written := by
    decide
  have hlength : hasHeader [⟨"Location", "/\r\nSet-Cookie: a=b"⟩] "Content-Length" = false := by
    decide
  have hread := h knownCodes knownCodes_known .crlf _ hr 0 _ hw hlength
  rw [sent_of_reachable hr hw] at hread
  have hreadable := (readResponse_writeResponse knownCodes_known hlength).mp hread _
    List.mem_cons_self (by decide)
  exact hreadable.value ⟨['/'], "Set-Cookie: a=b".toList, by decide⟩

end ThreadComponent
