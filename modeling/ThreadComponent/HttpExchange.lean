import ThreadComponent.HeaderLines
import ThreadComponent.HttpClientHeaders
import ThreadComponent.HttpRequests
import ThreadComponent.HttpWriteResponse

/-!
# From the handler of a server to the response of a client

A handler of cHTTPServer or cHTTPSServer responds, the writer puts the response on the wire, and
a cHTTPClient is called back with its lines and the parts of its body. What libcurl does in
between is a hypothesis.
-/

set_option autoImplicit false

namespace ThreadComponent.HttpClient

open HeaderText

/-! ## What libcurl documents -/

/-- Is the response to this method with this code one that may have a body? -/
def hasBody (method : Method) (statusCode : Nat) : Bool :=
  method ≠ .head && statusCode ≠ 204 && statusCode ≠ 304

/-- Is the body of a response not on the wire as it is? -/
def isCoded (headers : List (List Char × List Char)) : Bool :=
  headers.any fun f =>
    iequals f.1 "Transfer-Encoding".toList || iequals f.1 "Content-Encoding".toList

/-- A transfer that ends with the response `text` to a request with this method; the responses
before it are redirects and interim ones. Its header is handed over line by line and its body in
parts. -/
structure Transfer.HandsOver (t : Transfer) (method : Method) (earlier : List ResponseBlock)
    (text : List Char) : Prop where
  header : ∀ lines rest, takeHeader [] text = some (lines, rest) →
    t.calls.filterMap CurlCall.headerLine? = earlier.flatMap ResponseBlock.lines ++ lines
  body : ∀ m, readResponse .lf text = some m → hasBody method m.statusCode = true →
    isCoded m.headers = false → (t.calls.filterMap CurlCall.bodyPart?).flatten = m.body
  noBody : ∀ m, readResponse .lf text = some m → hasBody method m.statusCode = false →
    (t.calls.filterMap CurlCall.bodyPart?).flatten = []
  -- a code below 200 is the one of an interim response
  responseCode : ∀ m, readResponse .lf text = some m → 200 ≤ m.statusCode → m.statusCode < 1000 →
    t.responseCode = m.statusCode

/-! ## A response as a block of lines -/

/-- A field that a client takes as it was given. -/
structure Sendable (f : List Char × List Char) : Prop where
  name_ne_nil : f.1 ≠ []
  name_token : ∀ c ∈ f.1, isToken c = true
  value_line : '\n' ∉ f.2
  trimmed : trimCopy f.2 = f.2

def HeaderLine.ofField (f : List Char × List Char) (h : Sendable f) : HeaderLine where
  name := f.1
  value := ' ' :: f.2
  ending := .crlf
  name_ne_nil := h.name_ne_nil
  name_token := h.name_token
  value_line := by
    rw [List.mem_cons, not_or]
    exact ⟨by decide, h.value_line⟩

section Field
variable {f : List Char × List Char}

theorem HeaderLine.line_ofField (h : Sendable f) : (HeaderLine.ofField f h).line = writeField f :=
  rfl

theorem isToken_of_isspace {c : Char} (h : isspace c = true) : isToken c = false := by
  simp only [isspace, Bool.or_eq_true, decide_eq_true_eq] at h
  rcases h with ((((rfl | rfl) | rfl) | rfl) | rfl) | rfl <;> decide

theorem HeaderLine.field_ofField (h : Sendable f) :
    (HeaderLine.ofField f h).field = ⟨String.ofList f.1, String.ofList f.2⟩ := by
  have hname : trimCopy f.1 = f.1 := by
    refine trim_eq_self fun c hc => ?_
    cases hspace : isspace c with
    | false => rfl
    | true =>
      have htoken := h.name_token c hc
      rw [isToken_of_isspace hspace] at htoken
      cases htoken
  have hvalue : trimCopy (' ' :: f.2) = f.2 := by
    unfold trimCopy
    rw [trim_cons (by decide)]
    exact h.trimmed
  unfold HeaderLine.field HeaderLine.ofField
  simp only [hname, hvalue]

theorem Sendable.notMem_name (h : Sendable f) {c : Char} (hc : isToken c = false) : c ∉ f.1 := by
  intro hmem
  rw [h.name_token c hmem] at hc
  cases hc

theorem Sendable.readable (h : Sendable f) (e : LineEnd) : Readable e f where
  colon := h.notMem_name (by decide)
  name := not_breaks_of_notMem (h.notMem_name (by decide))
  value := not_breaks_of_notMem h.value_line
  trimmed := by
    refine trim_eq_self_of_trim (fun c hc => ?_) h.trimmed
    simp only [isBlank, Bool.or_eq_true, decide_eq_true_eq] at hc
    rcases hc with rfl | rfl <;> decide

end Field

/-- What is written for a field is one line, and not the empty one. -/
theorem HeaderLine.isHeaderLine (l : HeaderLine) : IsHeaderLine l.line := by
  have hname : '\n' ∉ l.name := l.notMem_name (by decide)
  obtain ⟨c, name, hcons⟩ := List.exists_cons_of_ne_nil l.name_ne_nil
  have hc : isToken c = true := l.name_token c (by rw [hcons]; exact List.mem_cons_self)
  constructor
  · cases hending : l.ending with
    | crlf =>
      refine ⟨l.name ++ ':' :: l.value ++ ['\r'], ?_, ?_⟩
      · rw [HeaderLine.line, hending, List.append_assoc _ ['\r'] ['\n']]
        rfl
      · simp [hname, l.value_line]
    | lf =>
      refine ⟨l.name ++ ':' :: l.value, ?_, ?_⟩
      · rw [HeaderLine.line, hending]
        rfl
      · simp [hname, l.value_line]
  · have hfirst : l.line.head? = some c := by rw [HeaderLine.line, hcons]; rfl
    cases hempty : isEmptyLine l.line with
    | false => rfl
    | true =>
      simp only [isEmptyLine, Bool.or_eq_true, decide_eq_true_eq] at hempty
      rcases hempty with heq | heq
      · rw [heq] at hfirst
        obtain rfl := Option.some.inj hfirst
        exact absurd hc (by decide)
      · rw [heq] at hfirst
        obtain rfl := Option.some.inj hfirst
        exact absurd hc (by decide)

theorem ResponseBlock.isHeaderLine_statusLine (b : ResponseBlock) : IsHeaderLine b.statusLine := by
  have hversion : '\n' ∉ "HTTP/".toList := by decide
  constructor
  · cases hending : b.statusEnding with
    | crlf =>
      refine ⟨"HTTP/".toList ++ b.status ++ ['\r'], ?_, ?_⟩
      · unfold ResponseBlock.statusLine
        rw [hending, List.append_assoc _ ['\r'] ['\n']]
        rfl
      · simp [b.status_line]
    | lf =>
      refine ⟨"HTTP/".toList ++ b.status, ?_, ?_⟩
      · unfold ResponseBlock.statusLine
        rw [hending]
        rfl
      · rw [List.mem_append, not_or]
        exact ⟨hversion, b.status_line⟩
  · have hfirst : b.statusLine.head? = some 'H' := rfl
    cases hempty : isEmptyLine b.statusLine with
    | false => rfl
    | true =>
      simp only [isEmptyLine, Bool.or_eq_true, decide_eq_true_eq] at hempty
      rcases hempty with heq | heq
      · rw [heq] at hfirst
        exact absurd hfirst (by decide)
      · rw [heq] at hfirst
        exact absurd hfirst (by decide)

/-- A reader of lines finds a block, whatever comes behind it. -/
theorem ResponseBlock.takeHeader_lines (b : ResponseBlock) (rest : List Char) :
    takeHeader [] (b.lines.flatten ++ rest) = some (b.lines, rest) := by
  have hlines : ∀ line ∈ b.statusLine :: b.fields.map HeaderLine.line, IsHeaderLine line := by
    intro line hline
    rcases List.mem_cons.mp hline with rfl | hline
    · exact b.isHeaderLine_statusLine
    · obtain ⟨l, -, rfl⟩ := List.mem_map.mp hline
      exact l.isHeaderLine
  have hending : isEmptyLine (lineEnd b.ending) = true := by cases b.ending <;> decide
  have htext : b.lines.flatten ++ rest =
      (b.statusLine :: b.fields.map HeaderLine.line).flatten ++ (lineEnd b.ending ++ rest) := by
    rw [ResponseBlock.lines, ← List.cons_append, List.flatten_append, List.append_assoc]
    simp
  rw [htext, HeaderText.takeHeader_lines hlines hending]
  rfl

/-! ## The response of a handler -/

section Response
variable {statusCodeText : Nat → String} {w : Written}

theorem notMem_status (hcodes : KnowsCodes statusCodeText) (statusCode : Nat) :
    '\n' ∉ "1.1 ".toList ++ (makeStatusLine statusCodeText statusCode).toList := by
  have hcode : '\n' ∉ (toString statusCode).toList := notMem_toString (by decide)
  rw [List.mem_append, not_or]
  refine ⟨by decide, ?_⟩
  rcases makeStatusLine_cases hcodes statusCode with htext | ⟨reason, htext, hline⟩
  · rwa [htext]
  · rw [htext, List.mem_append, not_or, List.mem_cons, not_or]
    exact ⟨hcode, by decide, hline⟩

/-- The header of a response. -/
def responseBlock (hcodes : KnowsCodes statusCodeText) (w : Written)
    (h : ∀ f ∈ w.message.headers, Sendable f) : ResponseBlock where
  status := "1.1 ".toList ++ (makeStatusLine statusCodeText w.statusCode).toList
  statusEnding := .crlf
  fields := w.message.headers.pmap HeaderLine.ofField h
  ending := .crlf
  status_line := notMem_status hcodes w.statusCode

theorem fields_responseBlock (hcodes : KnowsCodes statusCodeText)
    (h : ∀ f ∈ w.message.headers, Sendable f) :
    (responseBlock hcodes w h).fields.map HeaderLine.field =
      w.message.headers.map fun f => ⟨String.ofList f.1, String.ofList f.2⟩ := by
  unfold responseBlock
  rw [List.map_pmap]
  simp only [HeaderLine.field_ofField]
  exact List.pmap_eq_map _

theorem lines_responseBlock (hcodes : KnowsCodes statusCodeText)
    (h : ∀ f ∈ w.message.headers, Sendable f)
    (hlength : hasHeader w.headers "Content-Length" = false) :
    writeResponse statusCodeText w.statusCode w.body w.headers =
      (responseBlock hcodes w h).lines.flatten ++ w.body.toList := by
  have hversion : "HTTP/1.1 ".toList = "HTTP/".toList ++ "1.1 ".toList := by decide
  have hfields : ((responseBlock hcodes w h).fields.map HeaderLine.line).flatten =
      w.message.headers.flatMap writeField := by
    unfold responseBlock
    rw [List.map_pmap]
    simp only [HeaderLine.line_ofField]
    rw [List.pmap_eq_map, List.flatMap_def]
  have hstatus : (responseBlock hcodes w h).statusLine =
      "HTTP/".toList ++ ("1.1 ".toList ++ (makeStatusLine statusCodeText w.statusCode).toList) ++
        ['\r', '\n'] := rfl
  have hending : lineEnd (responseBlock hcodes w h).ending = ['\r', '\n'] := rfl
  rw [writeResponse_eq w hlength, ResponseBlock.lines, List.flatten_cons, List.flatten_append,
    hfields, hversion, hstatus, hending]
  simp only [List.append_assoc, List.cons_append, List.nil_append, List.flatten_cons,
    List.flatten_nil, List.append_nil]

theorem sendable_contentLength (w : Written) :
    Sendable ("Content-Length".toList, (toString w.body.length).toList) where
  name_ne_nil := by
    have hname : "Content-Length".toList ≠ [] := by decide
    exact hname
  name_token := by
    have hname : "Content-Length".toList.all isToken = true := by decide
    exact List.all_eq_true.mp hname
  value_line := notMem_toString (by decide)
  trimmed := by
    refine trim_eq_self fun c hc => ?_
    have hdigit := isDigit_of_mem_toString hc
    cases hspace : isspace c with
    | false => rfl
    | true =>
      simp only [isspace, Bool.or_eq_true, decide_eq_true_eq] at hspace
      rcases hspace with ((((rfl | rfl) | rfl) | rfl) | rfl) | rfl <;> cases hdigit

theorem sendable_message
    (h : ∀ header ∈ w.headers, header.name ≠ "" → Sendable header.text) :
    ∀ f ∈ w.message.headers, Sendable f := by
  intro f hf
  rw [message_headers, List.mem_append] at hf
  rcases hf with hf | hf
  · obtain ⟨header, hheader, rfl⟩ := List.mem_map.mp hf
    obtain ⟨hmem, hname⟩ := List.mem_filter.mp hheader
    exact h header hmem (of_decide_eq_true hname)
  · obtain rfl := List.mem_singleton.mp hf
    exact sendable_contentLength w

theorem message_headers_fields (w : Written) :
    (w.message.headers.map fun f => (⟨String.ofList f.1, String.ofList f.2⟩ : Field)) =
      (w.headers.filter fun header => header.name ≠ "") ++
        [⟨"Content-Length", toString w.body.length⟩] := by
  rw [message_headers, List.map_append, List.map_map]
  have htext : ∀ headers : Fields, headers.map
      ((fun f : List Char × List Char => (⟨String.ofList f.1, String.ofList f.2⟩ : Field)) ∘
        Field.text) = headers := by
    intro headers
    refine List.map_id'' (fun header => ?_) _
    simp only [Function.comp, Field.text, String.ofList_toList]
  rw [htext, List.map_singleton, String.ofList_toList, String.ofList_toList]

theorem colon_notMem_status (hcodes : KnowsCodes statusCodeText)
    (hcolon : ':' ∉ (statusCodeText w.statusCode).toList)
    (h : ∀ f ∈ w.message.headers, Sendable f) : ':' ∉ (responseBlock hcodes w h).status := by
  have hcode : ':' ∉ (toString w.statusCode).toList := notMem_toString (by decide)
  unfold responseBlock makeStatusLine
  rw [List.mem_append, not_or]
  refine ⟨by decide, ?_⟩
  split
  · exact hcolon
  · exact hcode

end Response

/-- What a client has in hand behind its request: the status, the headers and the body of a
response. -/
structure Received (response : Response) (method : Method) (w : Written) : Prop where
  statusCode : response.statusCode = w.statusCode
  headers : response.headers = (w.headers.filter fun header => header.name ≠ "") ++
    [⟨"Content-Length", toString w.body.length⟩]
  body : response.body = if hasBody method w.statusCode then w.body.toList else []

section Exchange
variable {statusCodeText : Nat → String} {w : Written} {curl : Libcurl} {request : Request}
  {t : Transfer} {method : Method} {earlier : List ResponseBlock}

/-- A response that is written is the response that is returned, whatever redirects and interim
responses come before it. -/
theorem received_of_handsOver (hcodes : KnowsCodes statusCodeText)
    (hcolon : ':' ∉ (statusCodeText w.statusCode).toList)
    (hcode : 200 ≤ w.statusCode ∧ w.statusCode < 1000)
    (hlength : hasHeader w.headers "Content-Length" = false)
    (hfields : ∀ header ∈ w.headers, header.name ≠ "" → Sendable header.text)
    (hcoded : isCoded w.message.headers = false) (ht : transfer curl request = .ok t)
    (hover : t.HandsOver method earlier
      (writeResponse statusCodeText w.statusCode w.body w.headers)) :
    Received (perform curl request) method w := by
  have hsendable := sendable_message hfields
  have hread : readResponse .lf (writeResponse statusCodeText w.statusCode w.body w.headers) =
      some w.message :=
    (readResponse_writeResponse hcodes hlength).mpr fun header hmem hname =>
      (hfields header hmem hname).readable .lf
  have hlines := hover.header (responseBlock hcodes w hsendable).lines w.body.toList (by
    rw [lines_responseBlock hcodes hsendable hlength]
    exact ResponseBlock.takeHeader_lines _ _)
  have hcalls : t.calls.filterMap CurlCall.headerLine? =
      (earlier ++ [responseBlock hcodes w hsendable]).flatMap ResponseBlock.lines := by
    rw [hlines, List.flatMap_append, List.flatMap_singleton]
  obtain ⟨hheaders, -, hbody⟩ := perform_of_blocks ht hcalls
  have hstatus := (statusEntry_eq_nil_iff _).mpr (colon_notMem_status hcodes hcolon hsendable)
  constructor
  · have hresponse := hover.responseCode _ hread hcode.1 hcode.2
    rw [perform, ht]
    exact hresponse
  · rw [hheaders, hstatus, List.nil_append, fields_responseBlock, message_headers_fields]
  · rw [hbody]
    cases hhas : hasBody method w.statusCode with
    | true => exact hover.body _ hread hhas hcoded
    | false => exact hover.noBody _ hread hhas

/-- From the handler to the client: with a transfer that hands over what the wrapper of the route
has sent, the client returns the response that the outcome of the handler asks for. -/
theorem handler_outcome_is_received {ServerRequest : Type} (kind : HttpKind) (table : RouteTable)
    (handler : RequestHandler ServerRequest)
    (errorHandler : Option (RequestErrorHandler ServerRequest)) (served : ServerRequest)
    (lastError : String)
    (hreturns : ErrorHandlerReturns (unhandledMessage kind table) (handler served) errorHandler
      served)
    (hw : expectedResponse (unhandledMessage kind table) (handler served) = w)
    (hcodes : KnowsCodes statusCodeText) (hcolon : ':' ∉ (statusCodeText w.statusCode).toList)
    (hcode : 200 ≤ w.statusCode ∧ w.statusCode < 1000)
    (hlength : hasHeader w.headers "Content-Length" = false)
    (hfields : ∀ header ∈ w.headers, header.name ≠ "" → Sendable header.text)
    (hcoded : isCoded w.message.headers = false) (ht : transfer curl request = .ok t)
    (hover : t.HandsOver method earlier
      ((preRunWrapper kind table handler errorHandler served lastError).response.sent
        statusCodeText)) :
    Received (perform curl request) method w := by
  have hwritten : (preRunWrapper kind table handler errorHandler served
      lastError).response.written = [w] := by
    rw [← hw]
    exact requestWrapper_answers_iff.mpr hreturns
  have hsent : (preRunWrapper kind table handler errorHandler served
      lastError).response.sent statusCodeText =
      writeResponse statusCodeText w.statusCode w.body w.headers := by
    rw [ResponseState.sent, hwritten, List.flatMap_singleton]
  rw [hsent] at hover
  exact received_of_handsOver hcodes hcolon hcode hlength hfields hcoded ht hover

/-- A library that has one response for every request, in one part. -/
def respondingCurl (statusCode : Nat) (text : List Char) : Libcurl where
  globalInit := curleOk
  easyInit := true
  easyStrerror _ := ""
  easyPerform _ :=
    { request := ⟨"GET".toList, [], []⟩
      calls :=
        match takeHeader [] text with
        | some (lines, rest) => lines.map .header ++ [.body rest]
        | none => []
      result := curleOk
      errorBuffer := ""
      elapsed := 0
      responseCode := statusCode
      effectiveUrl := none }

theorem respondingCurl_handsOver (hcodes : KnowsCodes statusCodeText)
    (hlength : hasHeader w.headers "Content-Length" = false)
    (hfields : ∀ header ∈ w.headers, header.name ≠ "" → Sendable header.text)
    (options : List CurlOption) (hbody : hasBody method w.statusCode = true) :
    Transfer.HandsOver ((respondingCurl w.statusCode
      (writeResponse statusCodeText w.statusCode w.body w.headers)).easyPerform options) method []
      (writeResponse statusCodeText w.statusCode w.body w.headers) := by
  have hsendable := sendable_message hfields
  have hread : readResponse .lf (writeResponse statusCodeText w.statusCode w.body w.headers) =
      some w.message :=
    (readResponse_writeResponse hcodes hlength).mpr fun header hmem hname =>
      (hfields header hmem hname).readable .lf
  have hheader : takeHeader [] (writeResponse statusCodeText w.statusCode w.body w.headers) =
      some ((responseBlock hcodes w hsendable).lines, w.body.toList) := by
    rw [lines_responseBlock hcodes hsendable hlength]
    exact ResponseBlock.takeHeader_lines _ _
  have hheaderLine : ∀ lines : List (List Char),
      (lines.map CurlCall.header).filterMap CurlCall.headerLine? = lines := by
    intro lines
    rw [List.filterMap_map]
    exact List.filterMap_some
  have hbodyPart : ∀ lines : List (List Char),
      (lines.map CurlCall.header).filterMap CurlCall.bodyPart? = [] := by
    intro lines
    rw [List.filterMap_map]
    exact List.filterMap_none lines
  constructor
  · intro lines rest hlines
    simp only [respondingCurl, hlines, List.filterMap_append, hheaderLine]
    simp [CurlCall.headerLine?]
  · intro m hm _ _
    rw [hread] at hm
    obtain rfl := Option.some.inj hm
    simp only [respondingCurl, hheader, List.filterMap_append, hbodyPart]
    simp [CurlCall.bodyPart?, Written.message]
  · intro m hm hnone
    rw [hread] at hm
    obtain rfl := Option.some.inj hm
    have hstatus : w.message.statusCode = w.statusCode := rfl
    rw [hstatus, hbody] at hnone
    cases hnone
  · intro m hm _ _
    rw [hread] at hm
    obtain rfl := Option.some.inj hm
    rfl

end Exchange

def redirectingHandler : RequestHandler Unit := fun _ =>
  { writes := [.redirect "/v2" 302], thrown := some ⟨0, some "too late"⟩ }

theorem handler_outcome_is_received_redirect :
    let text := (preRunWrapper .http .resource redirectingHandler none () "").response.sent
      knownCodes
    Received (perform (respondingCurl 302 text) { url := "http://localhost" }) .get
      ⟨302, "", [⟨"Location", "/v2"⟩]⟩ := by
  intro text
  have hfields : ∀ header ∈ [(⟨"Location", "/v2"⟩ : Field)], header.name ≠ "" →
      Sendable header.text := by
    intro header hheader _
    obtain rfl := List.mem_singleton.mp hheader
    have hname : (Field.mk "Location" "/v2").text.1 ≠ [] := by decide
    have htoken : (Field.mk "Location" "/v2").text.1.all isToken = true := by decide
    have hline : '\n' ∉ (Field.mk "Location" "/v2").text.2 := by decide
    exact ⟨hname, List.all_eq_true.mp htoken, hline, by decide⟩
  have hover : Transfer.HandsOver ((respondingCurl 302 text).easyPerform
      (performOptions { url := "http://localhost" })) .get [] text :=
    respondingCurl_handsOver (w := ⟨302, "", [⟨"Location", "/v2"⟩]⟩) knownCodes_known (by decide)
      hfields _ (by decide)
  refine handler_outcome_is_received .http .resource redirectingHandler none () "" ?_ rfl
    knownCodes_known (by decide) (by decide) (by decide) hfields (by decide) rfl hover
  intro h
  cases h

end ThreadComponent.HttpClient
