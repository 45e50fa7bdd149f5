import ThreadComponent.HttpClient

/-!
# The headers of a response

libcurl hands over the header of every response of a transfer, redirects and interim responses
too, one line for each call. The callback starts again at each status line.
-/

set_option autoImplicit false

namespace ThreadComponent.HttpClient

open HeaderText

def isToken (c : Char) : Bool := c.isAlphanum || "!#$%&'*+-.^_`|~".toList.contains c

def lineEnd : LineEnd → List Char
  | .crlf => ['\r', '\n']
  | .lf => ['\n']

structure HeaderLine where
  name : List Char
  value : List Char
  ending : LineEnd
  name_ne_nil : name ≠ []
  name_token : ∀ c ∈ name, isToken c = true
  value_line : '\n' ∉ value

def HeaderLine.line (l : HeaderLine) : List Char := l.name ++ ':' :: l.value ++ lineEnd l.ending

def HeaderLine.field (l : HeaderLine) : Field :=
  ⟨String.ofList (trimCopy l.name), String.ofList (trimCopy l.value)⟩

/-- The header of one response: what follows `HTTP/` on the status line, the header lines and the
empty line. -/
structure ResponseBlock where
  status : List Char
  statusEnding : LineEnd
  fields : List HeaderLine
  ending : LineEnd
  status_line : '\n' ∉ status

def ResponseBlock.statusLine (b : ResponseBlock) : List Char :=
  "HTTP/".toList ++ b.status ++ lineEnd b.statusEnding

def ResponseBlock.lines (b : ResponseBlock) : List (List Char) :=
  b.statusLine :: (b.fields.map HeaderLine.line ++ [lineEnd b.ending])

/-- What a call of the callback with one line does to the response. -/
def deliver (response : Response) (line : List Char) : Response :=
  response.receive (.header line)

def ResponseBlock.statusEntry (b : ResponseBlock) : Fields :=
  match cut ':' b.statusLine with
  | some (name, value) => [⟨String.ofList (trimCopy name), String.ofList (trimCopy value)⟩]
  | none => []

/-! ## One line -/

section Line
variable {response : Response} {line : List Char} {b : ResponseBlock} {l : HeaderLine}

theorem deliver_statusLine (response : Response) (b : ResponseBlock) :
    (deliver response b.statusLine).headers = b.statusEntry ∧
      (deliver response b.statusLine).rawHeaders = b.statusLine := by
  have hstart : 5 ≤ b.statusLine.length ∧ b.statusLine.take 5 = "HTTP/".toList := by
    have hlength : "HTTP/".toList.length = 5 := by decide
    unfold ResponseBlock.statusLine
    rw [List.append_assoc]
    refine ⟨?_, by rw [← hlength, List.take_left]⟩
    rw [List.length_append, hlength]
    exact Nat.le_add_right 5 _
  unfold deliver Response.receive writeHeaderCallback ResponseBlock.statusEntry
  simp only [if_pos hstart, Option.getD_some]
  cases cut ':' b.statusLine with
  | none => exact ⟨rfl, rfl⟩
  | some p => exact ⟨rfl, rfl⟩

/-- A line without the start of a status line adds to what is there. -/
theorem deliver_of_ne_status (response : Response) (hline : line.take 5 ≠ "HTTP/".toList) :
    (deliver response line).rawHeaders = response.rawHeaders ++ line ∧
      (deliver response line).headers = response.headers ++
        match cut ':' line with
        | some (name, value) => [⟨String.ofList (trimCopy name), String.ofList (trimCopy value)⟩]
        | none => [] := by
  have hother : ¬ (5 ≤ line.length ∧ line.take 5 = "HTTP/".toList) := fun h => hline h.2
  unfold deliver Response.receive writeHeaderCallback
  simp only [if_neg hother, Option.getD_some]
  cases cut ':' line with
  | none => exact ⟨rfl, (List.append_nil _).symm⟩
  | some p => exact ⟨rfl, rfl⟩

theorem trimCopy_append_lineEnd (text : List Char) (e : LineEnd) :
    trimCopy (text ++ lineEnd e) = trimCopy text := by
  refine trim_append fun c hc => ?_
  cases e with
  | crlf =>
    rcases List.mem_cons.mp hc with rfl | hc
    · decide
    · obtain rfl := List.mem_singleton.mp hc
      decide
  | lf =>
    obtain rfl := List.mem_singleton.mp hc
    decide

theorem HeaderLine.notMem_name (l : HeaderLine) {c : Char} (hc : isToken c = false) :
    c ∉ l.name := by
  intro hmem
  rw [l.name_token c hmem] at hc
  cases hc

/-- A header line is not taken for a status line: no token has a slash. -/
theorem HeaderLine.take_ne_status (l : HeaderLine) : l.line.take 5 ≠ "HTTP/".toList := by
  intro h
  have hstatus : "HTTP/".toList = ['H', 'T', 'T', 'P'] ++ '/' :: [] := by decide
  have hcolon : ':' ∉ l.name := l.notMem_name (by decide)
  have hslash : '/' ∉ l.name := l.notMem_name (by decide)
  have hline : l.line = "HTTP/".toList ++ l.line.drop 5 := by
    rw [← h, List.take_append_drop]
  -- the name ends at the first colon, and the slash comes before it
  rcases Nat.lt_or_ge 4 l.name.length with hlong | hshort
  · refine hslash ?_
    have htake : l.line.take 5 = l.name.take 5 := by
      rw [HeaderLine.line, List.append_assoc, List.take_append_of_le_length hlong]
    rw [htake] at h
    refine List.mem_of_mem_take (i := 5) ?_
    rw [h]
    decide
  · have hmem : ':' ∈ l.line.take 5 := by
      rw [HeaderLine.line, List.append_assoc, List.take_append, List.mem_append]
      refine .inr ?_
      obtain ⟨k, hk⟩ : ∃ k, 5 - l.name.length = k + 1 := ⟨4 - l.name.length, by omega⟩
      rw [hk]
      exact List.mem_cons_self
    rw [h] at hmem
    exact absurd hmem (by decide)

theorem deliver_headerLine (response : Response) (l : HeaderLine) :
    (deliver response l.line).headers = response.headers ++ [l.field] ∧
      (deliver response l.line).rawHeaders = response.rawHeaders ++ l.line := by
  obtain ⟨hraw, hheaders⟩ := deliver_of_ne_status response l.take_ne_status
  have hcut : cut ':' l.line = some (l.name, l.value ++ lineEnd l.ending) := by
    rw [HeaderLine.line, List.append_assoc]
    exact cut_append (l.notMem_name (by decide)) _
  refine ⟨?_, hraw⟩
  rw [hheaders, hcut]
  simp only [trimCopy_append_lineEnd]
  rfl

theorem deliver_lineEnd (response : Response) (e : LineEnd) :
    (deliver response (lineEnd e)).headers = response.headers ∧
      (deliver response (lineEnd e)).rawHeaders = response.rawHeaders ++ lineEnd e := by
  have hstart : (lineEnd e).take 5 ≠ "HTTP/".toList := by cases e <;> decide
  have hcut : cut ':' (lineEnd e) = none := by cases e <;> rfl
  obtain ⟨hraw, hheaders⟩ := deliver_of_ne_status response hstart
  refine ⟨?_, hraw⟩
  rw [hheaders, hcut]
  exact List.append_nil _

end Line

/-! ## Blocks of lines -/

section Blocks
variable {response : Response}

theorem deliver_headerLines (response : Response) (fields : List HeaderLine) :
    ((fields.map HeaderLine.line).foldl deliver response).headers =
        response.headers ++ fields.map HeaderLine.field ∧
      ((fields.map HeaderLine.line).foldl deliver response).rawHeaders =
        response.rawHeaders ++ (fields.map HeaderLine.line).flatten := by
  induction fields generalizing response with
  | nil => simp
  | cons l fields ih =>
    obtain ⟨hheaders, hraw⟩ := ih (deliver response l.line)
    obtain ⟨hfirst, hfirstRaw⟩ := deliver_headerLine response l
    rw [List.map_cons, List.foldl_cons]
    constructor
    · rw [hheaders, hfirst, List.append_assoc]
      rfl
    · rw [hraw, hfirstRaw, List.append_assoc]
      rfl

/-- Behind a block nothing is left of what was there before. -/
theorem deliver_block (response : Response) (b : ResponseBlock) :
    (b.lines.foldl deliver response).headers = b.statusEntry ++ b.fields.map HeaderLine.field ∧
      (b.lines.foldl deliver response).rawHeaders = b.lines.flatten := by
  obtain ⟨hstatus, hstatusRaw⟩ := deliver_statusLine response b
  obtain ⟨hfields, hfieldsRaw⟩ := deliver_headerLines (deliver response b.statusLine) b.fields
  obtain ⟨hend, hendRaw⟩ := deliver_lineEnd
    ((b.fields.map HeaderLine.line).foldl deliver (deliver response b.statusLine)) b.ending
  have hlines : b.lines.foldl deliver response = deliver ((b.fields.map HeaderLine.line).foldl
      deliver (deliver response b.statusLine)) (lineEnd b.ending) := by
    rw [ResponseBlock.lines, List.foldl_cons, List.foldl_append]
    rfl
  rw [hlines]
  constructor
  · rw [hend, hfields, hstatus]
  · rw [hendRaw, hfieldsRaw, hstatusRaw, ResponseBlock.lines, List.flatten_cons,
      List.flatten_append, List.append_assoc]
    simp

theorem statusEntry_eq_nil_iff (b : ResponseBlock) : b.statusEntry = [] ↔ ':' ∉ b.status := by
  have hmem : ':' ∈ b.statusLine ↔ ':' ∈ b.status := by
    have hversion : ':' ∉ "HTTP/".toList := by decide
    have hending : ':' ∉ lineEnd b.statusEnding := by
      cases b.statusEnding <;> decide
    unfold ResponseBlock.statusLine
    simp only [List.mem_append, hversion, hending, or_false, false_or]
  rw [← hmem, ← cut_eq_none_iff, ResponseBlock.statusEntry]
  cases cut ':' b.statusLine with
  | none => simp
  | some p => simp

/-- Behind any number of blocks the response has the fields and the lines of the last one, if its
status line has no colon. -/
theorem headers_are_last_block_iff (response : Response) (blocks : List ResponseBlock)
    (last : ResponseBlock) :
    let after := ((blocks ++ [last]).flatMap ResponseBlock.lines).foldl deliver response
    (after.headers = last.fields.map HeaderLine.field ∧
        after.rawHeaders = last.lines.flatten) ↔ ':' ∉ last.status := by
  intro after
  have hafter : after = last.lines.foldl deliver
      ((blocks.flatMap ResponseBlock.lines).foldl deliver response) := by
    change List.foldl deliver response _ = _
    rw [List.flatMap_append, List.foldl_append, List.flatMap_singleton]
  obtain ⟨hheaders, hraw⟩ := deliver_block
    ((blocks.flatMap ResponseBlock.lines).foldl deliver response) last
  rw [hafter, hheaders, hraw, ← statusEntry_eq_nil_iff]
  constructor
  · intro h
    exact List.append_left_eq_self.mp h.1
  · intro h
    exact ⟨by rw [h, List.nil_append], rfl⟩

/-- A status line whose reason has a colon in it. -/
theorem reason_becomes_header :
    ¬ ∀ (response : Response) (blocks : List ResponseBlock) (last : ResponseBlock),
      let after := ((blocks ++ [last]).flatMap ResponseBlock.lines).foldl deliver response
      after.headers = last.fields.map HeaderLine.field ∧
        after.rawHeaders = last.lines.flatten := by
  intro h
  have hheaders := (h {} [] ⟨"1.1 200 OK: fine".toList, .crlf, [], .crlf, by decide⟩).1
  revert hheaders
  decide

end Blocks

/-! ## A whole transfer -/

section Transfer
variable {response : Response}

def CurlCall.headerLine? : CurlCall → Option (List Char)
  | .header line => some line
  | .body _ => none

def CurlCall.bodyPart? : CurlCall → Option (List Char)
  | .header _ => none
  | .body data => some data

def Response.setBody (response : Response) (body : List Char) : Response :=
  { response with body := body }

theorem deliver_setBody (response : Response) (body line : List Char) :
    deliver (response.setBody body) line = (deliver response line).setBody body := by
  unfold deliver Response.receive writeHeaderCallback Response.setBody
  simp only [Option.getD_some]
  split <;> split <;> rfl

theorem foldl_deliver_setBody (response : Response) (body : List Char)
    (lines : List (List Char)) :
    lines.foldl deliver (response.setBody body) = (lines.foldl deliver response).setBody body := by
  induction lines generalizing response with
  | nil => rfl
  | cons line lines ih => rw [List.foldl_cons, deliver_setBody, ih, List.foldl_cons]

theorem deliver_body (response : Response) (line : List Char) :
    (deliver response line).body = response.body := by
  have hset : deliver response line = (deliver response line).setBody response.body :=
    deliver_setBody response response.body line
  rw [hset]
  rfl

/-- The two callbacks do not touch each other's part of the response, in whatever order they are
called. -/
theorem receive_calls (response : Response) (calls : List CurlCall) :
    calls.foldl Response.receive response =
      ((calls.filterMap CurlCall.headerLine?).foldl deliver response).setBody
        (response.body ++ (calls.filterMap CurlCall.bodyPart?).flatten) := by
  induction calls generalizing response with
  | nil => simp [Response.setBody]
  | cons call calls ih =>
    rw [List.foldl_cons, ih]
    cases call with
    | body data =>
      have hreceive : response.receive (.body data) = response.setBody (response.body ++ data) :=
        rfl
      rw [hreceive, foldl_deliver_setBody,
        List.filterMap_cons_none (by rfl : CurlCall.headerLine? (.body data) = none),
        List.filterMap_cons_some (by rfl : CurlCall.bodyPart? (.body data) = some data),
        List.flatten_cons, ← List.append_assoc]
      rfl
    | header line =>
      have hreceive : response.receive (.header line) = deliver response line := rfl
      rw [hreceive, deliver_body,
        List.filterMap_cons_some (by rfl : CurlCall.headerLine? (.header line) = some line),
        List.filterMap_cons_none (by rfl : CurlCall.bodyPart? (.header line) = none),
        List.foldl_cons]

/-- What `perform` returns of a transfer: the last header and every body. -/
theorem perform_of_blocks {curl : Libcurl} {request : Request} {t : Transfer}
    (h : transfer curl request = .ok t) {blocks : List ResponseBlock} {last : ResponseBlock}
    (hcalls : t.calls.filterMap CurlCall.headerLine? =
      (blocks ++ [last]).flatMap ResponseBlock.lines) :
    (perform curl request).headers = last.statusEntry ++ last.fields.map HeaderLine.field ∧
      (perform curl request).rawHeaders = last.lines.flatten ∧
      (perform curl request).body = (t.calls.filterMap CurlCall.bodyPart?).flatten := by
  have hblock := deliver_block ((blocks.flatMap ResponseBlock.lines).foldl deliver {}) last
  rw [List.flatMap_append, List.flatMap_singleton] at hcalls
  rw [← List.foldl_append, ← hcalls] at hblock
  rw [perform, h]
  simp only [receive_calls]
  exact ⟨hblock.1, hblock.2, List.nil_append _⟩

end Transfer

end ThreadComponent.HttpClient
