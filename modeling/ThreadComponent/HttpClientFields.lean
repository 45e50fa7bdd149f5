import ThreadComponent.HttpClientRequest

/-!
# The headers of a request

`perform` joins name and value of every header into a line, and libcurl decides from the line
alone whether it is sent. What is sent is read back as header fields.
-/

set_option autoImplicit false

namespace ThreadComponent.HttpClient

open HeaderText

/-- What libcurl documents about the list of `CURLOPT_HTTPHEADER`: `sendLine` is what it sends for
one entry, `blank` are the characters that it skips behind the colon. It does not document that it
moves a `Host` entry to the front and sends the first such entry only. -/
structure HeaderLaws (curl : Libcurl) (sendLine : List Char → List Char)
    (blank : Char → Bool) : Prop where
  start : (curl.easyPerform []).request.fields = []
  other : ∀ options (option : CurlOption), (∀ lines, option ≠ .httpHeader lines) →
    (curl.easyPerform (options ++ [option])).request.fields =
      (curl.easyPerform options).request.fields
  httpHeader : ∀ options lines,
    (curl.easyPerform (options ++ [.httpHeader lines])).request.fields = lines.flatMap sendLine
  -- the built-in header of that name is not sent either
  suppressed : ∀ line name value, cut ':' line = some (name, value) → value.all blank = true →
    sendLine line = []
  verbatim : ∀ line name value, cut ':' line = some (name, value) → name ≠ [] →
    value.all blank = false → sendLine line = line ++ ['\r', '\n']
  space : blank ' ' = true
  -- an entry is a C string
  noNul : ∀ line, '\x00' ∉ line → '\x00' ∉ sendLine line

/-! ## What is to be sent -/

abbrev SameName (lhs rhs : String) : Prop :=
  lhs.toList.map Char.toLower = rhs.toList.map Char.toLower

/-- A default goes with a request that has no header of its name. -/
def defaultField (request : Request) (name value : String) : Fields :=
  if value ≠ "" ∧ ∀ header ∈ request.headers, ¬ SameName header.name name then [⟨name, value⟩]
  else []

def transmittedFields (request : Request) : Fields :=
  request.headers.filter (fun header => header.name ≠ "") ++
    defaultField request "Content-Type" request.contentType ++
    defaultField request "Accept" request.accept

/-- A field that arrives as it was given. -/
structure Transmissible (e : LineEnd) (blank : Char → Bool) (f : Field) : Prop where
  readable : Readable e f.text
  noNul : '\x00' ∉ f.text.1 ∧ '\x00' ∉ f.text.2
  visible : f.text.2.all blank = false

section Names
variable {request : Request}

theorem iequals_iff (lhs rhs : List Char) :
    iequals lhs rhs = true ↔ lhs.map Char.toLower = rhs.map Char.toLower := by
  unfold iequals
  induction lhs generalizing rhs with
  | nil => cases rhs <;> simp
  | cons c lhs ih =>
    cases rhs with
    | nil => simp
    | cons d rhs =>
      have hrest := ih rhs
      simp only [Bool.and_eq_true, decide_eq_true_eq] at hrest
      simp only [List.length_cons, Nat.add_right_cancel_iff, List.zip_cons_cons, List.all_cons,
        Bool.and_eq_true, decide_eq_true_eq, List.map_cons, List.cons.injEq, ← hrest]
      exact and_left_comm

theorem hasHeader_eq_false_iff (headers : Fields) (name : String) :
    hasHeader headers name = false ↔ ∀ header ∈ headers, ¬ SameName header.name name := by
  unfold hasHeader
  rw [List.any_eq_false]
  simp only [iequals_iff]

/-- The search for `Accept` does not find the default that is there before it. -/
theorem hasHeader_accept (request : Request) :
    hasHeader (request.headers ++ [⟨"Content-Type", request.contentType⟩]) "Accept" =
      hasHeader request.headers "Accept" := by
  have hname : iequals "Content-Type".toList "Accept".toList = false := by decide
  rw [hasHeader, List.any_append, List.any_cons, hname, List.any_nil, Bool.or_false, Bool.or_false,
    hasHeader]

theorem requestHeaders_eq (request : Request) :
    requestHeaders request = request.headers ++
      defaultField request "Content-Type" request.contentType ++
      defaultField request "Accept" request.accept := by
  unfold requestHeaders defaultField
  simp only [← hasHeader_eq_false_iff]
  by_cases htype : request.contentType ≠ "" ∧ hasHeader request.headers "Content-Type" = false
  · simp only [if_pos htype, hasHeader_accept]
    split
    · rfl
    · exact (List.append_nil _).symm
  · simp only [if_neg htype, List.append_nil]
    split
    · rfl
    · exact (List.append_nil _).symm

theorem filter_defaultField (request : Request) {name : String} (hname : name ≠ "")
    (value : String) :
    (defaultField request name value).filter (fun header => header.name ≠ "") =
      defaultField request name value := by
  unfold defaultField
  split
  · simp [hname]
  · rfl

theorem filter_requestHeaders (request : Request) :
    (requestHeaders request).filter (fun header => header.name ≠ "") =
      transmittedFields request := by
  rw [requestHeaders_eq, List.filter_append, List.filter_append,
    filter_defaultField request (by decide), filter_defaultField request (by decide),
    transmittedFields]

theorem name_ne_of_mem {f : Field} (hf : f ∈ transmittedFields request) : f.name ≠ "" := by
  rw [← filter_requestHeaders] at hf
  exact of_decide_eq_true (List.mem_filter.mp hf).2

end Names

/-! ## The lines -/

def entry (f : Field) : List Char := cString (f.name.toList ++ ':' :: ' ' :: f.value.toList)

theorem foldl_appendHeader (lines : List (List Char)) (headers : Fields) :
    headers.foldl appendHeader lines =
      lines ++ (headers.filter (fun header => header.name ≠ "")).map entry := by
  induction headers generalizing lines with
  | nil => simp
  | cons header headers ih =>
    rw [List.foldl_cons, ih, List.filter_cons, appendHeader]
    by_cases hname : header.name = ""
    · simp [hname]
    · simp [hname, entry]

theorem curlHeaders_eq (request : Request) :
    curlHeaders request = (transmittedFields request).map entry := by
  rw [curlHeaders, foldl_appendHeader, filter_requestHeaders, List.nil_append]

theorem nul_notMem_cString (text : List Char) : '\x00' ∉ cString text := by
  intro hmem
  have hnot := List.mem_takeWhile_imp hmem
  simp at hnot

theorem cString_eq_self {text : List Char} (h : '\x00' ∉ text) : cString text = text := by
  refine List.takeWhile_eq_self_iff.mpr fun c hc => decide_eq_true ?_
  rintro rfl
  exact h hc

section Lines
variable {curl : Libcurl} {sendLine : List Char → List Char} {blank : Char → Bool}
  {request : Request} {e : LineEnd} {f : Field} {fs : Fields}

theorem entry_eq (hnul : '\x00' ∉ f.text.1 ∧ '\x00' ∉ f.text.2) :
    entry f = f.text.1 ++ ':' :: ' ' :: f.text.2 := by
  refine cString_eq_self ?_
  rw [List.mem_append, List.mem_cons, List.mem_cons, not_or, not_or, not_or]
  exact ⟨hnul.1, by decide, by decide, hnul.2⟩

/-- What libcurl sends of a field whose line says what the field says. -/
theorem HeaderLaws.sendLine_entry (hlaws : HeaderLaws curl sendLine blank) (hname : f.name ≠ "")
    (hcolon : ':' ∉ f.text.1) (hnul : '\x00' ∉ f.text.1 ∧ '\x00' ∉ f.text.2) :
    sendLine (entry f) = if f.text.2.all blank then [] else writeField f.text := by
  have hcut : cut ':' (entry f) = some (f.text.1, ' ' :: f.text.2) := by
    rw [entry_eq hnul]
    exact cut_append hcolon _
  have hblank : (' ' :: f.text.2).all blank = f.text.2.all blank := by
    rw [List.all_cons, hlaws.space, Bool.true_and]
  split
  · rename_i hall
    exact hlaws.suppressed _ _ _ hcut (hblank.trans hall)
  · rename_i hall
    have hne : f.text.1 ≠ [] := by
      intro hnil
      exact hname (String.toList_eq_nil_iff.mp hnil)
    have hline := hlaws.verbatim _ _ _ hcut hne (hblank.trans (Bool.eq_false_iff.mpr hall))
    rw [hline, entry_eq hnul]
    rfl

theorem HeaderLaws.flatMap_sendLine (hlaws : HeaderLaws curl sendLine blank)
    (hname : ∀ f ∈ fs, f.name ≠ "") (hcolon : ∀ f ∈ fs, ':' ∉ f.text.1)
    (hnul : ∀ f ∈ fs, '\x00' ∉ f.text.1 ∧ '\x00' ∉ f.text.2) :
    (fs.map entry).flatMap sendLine =
      ((fs.filter fun f => f.text.2.all blank = false).map Field.text).flatMap writeField := by
  induction fs with
  | nil => rfl
  | cons f fs ih =>
    have hrest := ih (fun g hg => hname g (List.mem_cons_of_mem f hg))
      (fun g hg => hcolon g (List.mem_cons_of_mem f hg))
      (fun g hg => hnul g (List.mem_cons_of_mem f hg))
    have hfirst := hlaws.sendLine_entry (hname f List.mem_cons_self)
      (hcolon f List.mem_cons_self) (hnul f List.mem_cons_self)
    rw [List.map_cons, List.flatMap_cons, hfirst, hrest, List.filter_cons]
    cases hall : f.text.2.all blank with
    | true => simp
    | false => simp

theorem HeaderLaws.fields_append (hlaws : HeaderLaws curl sendLine blank)
    {options more : List CurlOption} (h : ∀ option ∈ more, ∀ lines, option ≠ .httpHeader lines) :
    (curl.easyPerform (options ++ more)).request.fields =
      (curl.easyPerform options).request.fields := by
  induction more generalizing options with
  | nil => rw [List.append_nil]
  | cons option more ih =>
    have hfirst := hlaws.other options option (h option List.mem_cons_self)
    rw [List.append_cons, ih fun option hmem => h option (List.mem_cons_of_mem _ hmem), hfirst]

theorem transferOptions_ne_httpHeader {option : CurlOption} (h : option ∈ transferOptions request)
    (lines : List (List Char)) : option ≠ .httpHeader lines := by
  rintro rfl
  cases transferOptions_isPlain h

theorem applyMethod_ne_httpHeader {option : CurlOption} (h : option ∈ applyMethod request)
    (lines : List (List Char)) : option ≠ .httpHeader lines := by
  rintro rfl
  unfold applyMethod at h
  split at h <;> simp at h

theorem bodyOptions_ne_httpHeader {option : CurlOption} (h : option ∈ bodyOptions request)
    (lines : List (List Char)) : option ≠ .httpHeader lines := by
  rintro rfl
  unfold bodyOptions at h
  split at h <;> simp at h

theorem HeaderLaws.fields_performOptions (hlaws : HeaderLaws curl sendLine blank)
    (request : Request) :
    (curl.easyPerform (performOptions request)).request.fields =
      ((transmittedFields request).map entry).flatMap sendLine := by
  have htransfer : (curl.easyPerform (transferOptions request)).request.fields = [] := by
    rw [← List.nil_append (transferOptions request),
      hlaws.fields_append fun _ hmem => transferOptions_ne_httpHeader hmem, hlaws.start]
  rw [performOptions, hlaws.fields_append fun _ hmem => bodyOptions_ne_httpHeader hmem,
    hlaws.fields_append fun _ hmem => applyMethod_ne_httpHeader hmem, headerOptions,
    ← curlHeaders_eq]
  split
  · exact hlaws.httpHeader _ _
  · rename_i hempty
    rw [List.append_nil, htransfer, not_not.mp hempty]
    rfl

theorem HeaderLaws.nul_notMem_fields (hlaws : HeaderLaws curl sendLine blank) (fs : Fields) :
    '\x00' ∉ (fs.map entry).flatMap sendLine := by
  intro hmem
  obtain ⟨line, hline, hnul⟩ := List.mem_flatMap.mp hmem
  obtain ⟨f, -, rfl⟩ := List.mem_map.mp hline
  exact hlaws.noNul _ (nul_notMem_cString _) hnul

/-- The fields that are read from the wire are those that were given, if every one of them can be
written on a line of its own. -/
theorem fields_are_transmitted_iff (hlaws : HeaderLaws curl sendLine blank) (e : LineEnd)
    {t : Transfer} (h : transfer curl request = .ok t) :
    readFields e (t.request.fields ++ ['\r', '\n']) =
        some ((transmittedFields request).map Field.text, []) ↔
      ∀ f ∈ transmittedFields request, Transmissible e blank f := by
  rw [(transfer_ok h).2, hlaws.fields_performOptions]
  constructor
  · intro hread
    have hreadable : ∀ f ∈ transmittedFields request, Readable e f.text ∧
        ∀ c ∈ f.text.1 ++ f.text.2,
          c ∈ ((transmittedFields request).map entry).flatMap sendLine ++ ['\r', '\n'] :=
      fun f hf => readable_of_readFields hread _ (List.mem_map_of_mem hf)
    -- a character that is read has been sent
    have hnul : ∀ f ∈ transmittedFields request, '\x00' ∉ f.text.1 ∧ '\x00' ∉ f.text.2 := by
      intro f hf
      rw [← not_or, ← List.mem_append]
      intro hmem
      rcases List.mem_append.mp ((hreadable f hf).2 _ hmem) with hmem | hmem
      · exact hlaws.nul_notMem_fields _ hmem
      · exact absurd hmem (by decide)
    -- and the fields that were not sent are missing
    have hvisible : ∀ f ∈ ((transmittedFields request).filter
        fun f => f.text.2.all blank = false).map Field.text, Readable e f := by
      intro f hf
      obtain ⟨g, hg, rfl⟩ := List.mem_map.mp hf
      exact (hreadable g (List.mem_filter.mp hg).1).1
    have hsent := readFields_writeFields hvisible []
    rw [← hlaws.flatMap_sendLine (fun f hf => name_ne_of_mem hf)
      (fun f hf => (hreadable f hf).1.colon) hnul, hread, Option.some.injEq, Prod.mk.injEq] at hsent
    have hlength := congrArg List.length hsent.1
    rw [List.length_map, List.length_map, eq_comm, List.length_filter_eq_length_iff] at hlength
    intro f hf
    exact ⟨(hreadable f hf).1, hnul f hf, of_decide_eq_true (hlength f hf)⟩
  · intro hfields
    have hall : (transmittedFields request).filter (fun f => f.text.2.all blank = false) =
        transmittedFields request :=
      List.filter_eq_self.mpr fun f hf => decide_eq_true (hfields f hf).visible
    rw [hlaws.flatMap_sendLine (fun f hf => name_ne_of_mem hf)
      (fun f hf => (hfields f hf).readable.colon) (fun f hf => (hfields f hf).noNul), hall]
    refine readFields_writeFields (fun f hf => ?_) []
    obtain ⟨g, hg, rfl⟩ := List.mem_map.mp hf
    exact (hfields g hg).readable

end Lines

theorem plainCurl_headerLaws (input : List Char) :
    HeaderLaws (plainCurl input) sendLine isBlank where
  start := rfl
  other options option h := by
    unfold plainCurl
    simp only [List.foldl_append, List.foldl_cons, List.foldl_nil]
    cases option with
    | httpHeader lines => exact absurd rfl (h lines)
    | _ => rfl
  httpHeader options lines := by
    unfold plainCurl
    simp only [List.foldl_append]
    rfl
  suppressed line name value hcut hblank := by
    rw [sendLine, hcut]
    exact if_pos hblank
  verbatim line name value hcut _ hvisible := by
    rw [sendLine, hcut]
    exact if_neg (Bool.eq_false_iff.mp hvisible)
  space := rfl
  noNul line hline := by
    unfold sendLine
    split
    · split
      · exact List.not_mem_nil
      · rw [List.mem_append, not_or]
        exact ⟨hline, by decide⟩
    · exact List.not_mem_nil

def acceptRequest : Request := { url := "http://localhost", accept := "*/*" }

theorem fields_are_transmitted_iff_accept :
    readFields .crlf (((plainCurl []).easyPerform (performOptions acceptRequest)).request.fields ++
        ['\r', '\n']) =
      some ([("Accept".toList, "*/*".toList)], []) := by
  have htransfer : transfer (plainCurl []) acceptRequest =
      .ok ((plainCurl []).easyPerform (performOptions acceptRequest)) := rfl
  have hfields : ∀ f ∈ transmittedFields acceptRequest, Transmissible .crlf isBlank f := by
    intro f hf
    obtain rfl := List.mem_singleton.mp hf
    have hcolon : ':' ∉ (⟨"Accept", "*/*"⟩ : Field).text.1 := by decide
    have hname : '\n' ∉ (⟨"Accept", "*/*"⟩ : Field).text.1 := by decide
    have hvalue : '\n' ∉ (⟨"Accept", "*/*"⟩ : Field).text.2 := by decide
    exact ⟨⟨hcolon, not_breaks_of_notMem hname, not_breaks_of_notMem hvalue, by decide⟩,
      by decide, by decide⟩
  exact (fields_are_transmitted_iff (plainCurl_headerLaws []) .crlf htransfer).mpr hfields

/-- A header without a value is not sent. -/
theorem empty_header_is_lost :
    ¬ ∀ (curl : Libcurl) (sendLine : List Char → List Char) (blank : Char → Bool),
      HeaderLaws curl sendLine blank → ∀ (e : LineEnd) (request : Request) (t : Transfer),
        transfer curl request = .ok t →
          readFields e (t.request.fields ++ ['\r', '\n']) =
            some ((transmittedFields request).map Field.text, []) := by
  intro h
  have hread := h (plainCurl []) sendLine isBlank (plainCurl_headerLaws []) .crlf
    { url := "http://localhost", headers := [⟨"X-Empty", ""⟩] } _ rfl
  have hwire : ((plainCurl []).easyPerform (performOptions
      { url := "http://localhost", headers := [⟨"X-Empty", ""⟩] })).request.fields = [] := by decide
  rw [hwire, List.nil_append, readFields_end] at hread
  cases hread

end ThreadComponent.HttpClient
