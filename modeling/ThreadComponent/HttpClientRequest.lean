import ThreadComponent.HttpClient

/-!
# The method and the body of a request

Method and body are set by options of their own, and libcurl takes some of them for a choice of
the method. What it documents about them is a hypothesis.
-/

set_option autoImplicit false

namespace ThreadComponent.HttpClient

open HeaderText

/-! ## What libcurl documents -/

def Libcurl.line (curl : Libcurl) (options : List CurlOption) : List Char × List Char :=
  ((curl.easyPerform options).request.method, (curl.easyPerform options).request.body)

def CurlOption.keepsLine : CurlOption → Bool
  | .httpGet | .post | .noBody | .customRequest _ | .postFields _ | .postFieldSizeLarge _ => false
  | _ => true

def NoWord (options : List CurlOption) : Prop := ∀ word, .customRequest word ∉ options

/-- The options of method and body, as their documentation has them; `input` is what the read
callback gives, which is the standard input by default. -/
structure MethodLaws (curl : Libcurl) (input : List Char) : Prop where
  start : curl.line [] = ("GET".toList, [])
  other : ∀ options (option : CurlOption), option.keepsLine = true →
    curl.line (options ++ [option]) = curl.line options
  httpGet : ∀ options, NoWord options →
    curl.line (options ++ [.httpGet]) = ("GET".toList, [])
  noBody : ∀ options, NoWord options →
    curl.line (options ++ [.noBody]) = ("HEAD".toList, [])
  -- without fields of its own a POST reads its body
  post : ∀ options, NoWord options → (∀ data, .postFields data ∉ options) →
    curl.line (options ++ [.post]) = ("POST".toList, input)
  -- only the word of the request is replaced
  customRequest : ∀ options word,
    curl.line (options ++ [.customRequest word]) = (word, (curl.line options).2)
  -- the fields make a POST of any request
  postFields : ∀ options data size, NoWord options →
    curl.line (options ++ [.postFields data, .postFieldSizeLarge size]) =
      ("POST".toList, data.take size)
  postFieldsWord : ∀ options word data size,
    curl.line (options ++ [.customRequest word, .postFields data, .postFieldSizeLarge size]) =
      (word, data.take size)

/-! ## The options that are set -/

section Options
variable {request : Request} {option : CurlOption}

/-- Is an option neither about the method and the body nor about the headers? -/
def CurlOption.isPlain : CurlOption → Bool
  | .httpHeader _ => false
  | option => option.keepsLine

theorem CurlOption.keepsLine_of_isPlain (h : option.isPlain = true) : option.keepsLine = true := by
  cases option with
  | httpHeader lines => rfl
  | _ => exact h

theorem eq_of_mem_setIf {p : Prop} [Decidable p] {set : CurlOption} (h : option ∈ setIf p set) :
    option = set := by
  unfold setIf at h
  split at h
  · exact List.mem_singleton.mp h
  · cases h

theorem commonOptions_isPlain (h : option ∈ commonOptions request) : option.isPlain = true := by
  unfold commonOptions at h
  simp only [List.mem_cons, List.not_mem_nil, or_false] at h
  rcases h with rfl | rfl | rfl | rfl | rfl | rfl | rfl | rfl | rfl | rfl | rfl | rfl | rfl <;> rfl

theorem authOptions_isPlain (h : option ∈ authOptions request) : option.isPlain = true := by
  unfold authOptions at h
  split at h
  · simp only [List.mem_cons, List.not_mem_nil, or_false] at h
    rcases h with rfl | rfl <;> rfl
  · split at h
    · simp only [List.mem_cons, List.not_mem_nil, or_false] at h
      rcases h with rfl | rfl | rfl <;> rfl
    · cases h

theorem transferOptions_isPlain (h : option ∈ transferOptions request) :
    option.isPlain = true := by
  unfold transferOptions at h
  simp only [List.mem_append] at h
  rcases h with (((h | h) | h) | h) | h
  · exact commonOptions_isPlain h
  · rw [eq_of_mem_setIf h]
    rfl
  · rw [eq_of_mem_setIf h]
    rfl
  · rw [eq_of_mem_setIf h]
    rfl
  · exact authOptions_isPlain h

/-- Any method but GET and POST is a custom word, which for HEAD stands behind an option of its
own. -/
theorem applyMethod_cases (request : Request) :
    (request.method = .get ∧ applyMethod request = [.httpGet]) ∨
      (request.method = .post ∧ applyMethod request = [.post]) ∨
        ((request.method ≠ .get ∧ request.method ≠ .post) ∧
          ∃ front, (front = [] ∨ front = [.noBody]) ∧
            applyMethod request =
              front ++ [.customRequest (methodToString request.method).toList]) := by
  unfold applyMethod
  cases request.method with
  | get => exact .inl ⟨rfl, rfl⟩
  | post => exact .inr (.inl ⟨rfl, rfl⟩)
  | head => exact .inr (.inr ⟨⟨by simp, by simp⟩, [.noBody], .inr rfl, rfl⟩)
  | _ => exact .inr (.inr ⟨⟨by simp, by simp⟩, [], .inl rfl, rfl⟩)

theorem headerOptions_keepsLine (h : option ∈ headerOptions request) :
    option.keepsLine = true := by
  unfold headerOptions at h
  split at h
  · obtain rfl := List.mem_singleton.mp h
    rfl
  · cases h

/-- The options in front of those of the method and the body. -/
def frontOptions (request : Request) : List CurlOption :=
  transferOptions request ++ headerOptions request

theorem frontOptions_keepsLine (h : option ∈ frontOptions request) :
    option.keepsLine = true := by
  rcases List.mem_append.mp h with h | h
  · exact CurlOption.keepsLine_of_isPlain (transferOptions_isPlain h)
  · exact headerOptions_keepsLine h

theorem frontOptions_noWord (request : Request) : NoWord (frontOptions request) := by
  intro word hmem
  cases frontOptions_keepsLine hmem

theorem frontOptions_noFields (request : Request) (data : List Char) :
    .postFields data ∉ frontOptions request := by
  intro hmem
  cases frontOptions_keepsLine hmem

theorem NoWord.append {options more : List CurlOption} (h : NoWord options) (hmore : NoWord more) :
    NoWord (options ++ more) := by
  intro word hmem
  rcases List.mem_append.mp hmem with hmem | hmem
  · exact h word hmem
  · exact hmore word hmem

end Options

/-! ## The first request -/

section Sent
variable {curl : Libcurl} {input : List Char} {request : Request}

theorem MethodLaws.line_append (hlaws : MethodLaws curl input) {options more : List CurlOption}
    (h : ∀ option ∈ more, option.keepsLine = true) :
    curl.line (options ++ more) = curl.line options := by
  induction more generalizing options with
  | nil => rw [List.append_nil]
  | cons option more ih =>
    have hfirst := hlaws.other options option (h option List.mem_cons_self)
    rw [List.append_cons, ih fun option hmem => h option (List.mem_cons_of_mem _ hmem), hfirst]

theorem MethodLaws.line_frontOptions (hlaws : MethodLaws curl input) (request : Request) :
    curl.line (frontOptions request) = ("GET".toList, []) := by
  rw [← List.nil_append (frontOptions request),
    hlaws.line_append fun _ hmem => frontOptions_keepsLine hmem, hlaws.start]

theorem MethodLaws.line_applyMethod (hlaws : MethodLaws curl input) (request : Request) :
    curl.line (frontOptions request ++ applyMethod request) =
      ((methodToString request.method).toList, if request.method = .post then input else []) := by
  have hstart := hlaws.line_frontOptions request
  have hword := frontOptions_noWord request
  rcases applyMethod_cases request with ⟨hget, happly⟩ | ⟨hpost, happly⟩ |
    ⟨⟨-, hpost⟩, front, hfront, happly⟩
  · rw [happly, hget]
    exact hlaws.httpGet _ hword
  · rw [happly, hpost]
    exact hlaws.post _ hword (frontOptions_noFields request)
  · have hbody : (curl.line (frontOptions request ++ front)).2 = [] := by
      rcases hfront with rfl | rfl
      · rw [List.append_nil, hstart]
      · rw [hlaws.noBody _ hword]
    rw [happly, ← List.append_assoc, hlaws.customRequest, hbody, if_neg hpost]

/-- A request with a body: the custom word is all that keeps it from being a POST. -/
theorem MethodLaws.line_postFields (hlaws : MethodLaws curl input) (request : Request)
    (data : List Char) (size : Nat) :
    curl.line (frontOptions request ++ applyMethod request ++
        [.postFields data, .postFieldSizeLarge size]) =
      (if request.method = .get then "POST".toList else (methodToString request.method).toList,
        data.take size) := by
  have hword := frontOptions_noWord request
  rcases applyMethod_cases request with ⟨hget, happly⟩ | ⟨hpost, happly⟩ |
    ⟨⟨hget, -⟩, front, -, happly⟩
  · rw [happly, if_pos hget]
    exact hlaws.postFields _ data size (hword.append fun word hmem => by
      cases List.mem_singleton.mp hmem)
  · rw [happly, hpost]
    exact hlaws.postFields _ data size (hword.append fun word hmem => by
      cases List.mem_singleton.mp hmem)
  · have hfields := hlaws.postFieldsWord (frontOptions request ++ front)
      (methodToString request.method).toList data size
    rw [happly, if_neg hget, List.append_assoc, List.append_assoc]
    rw [List.append_assoc] at hfields
    exact hfields

theorem MethodLaws.line_performOptions (hlaws : MethodLaws curl input) (request : Request) :
    curl.line (performOptions request) =
      (if request.method = .get ∧ request.body ≠ "" then "POST".toList
        else (methodToString request.method).toList,
      if request.method = .post ∧ request.body = "" then input else request.body.toList) := by
  have hoptions : performOptions request =
      frontOptions request ++ applyMethod request ++ bodyOptions request := rfl
  rw [hoptions, bodyOptions]
  by_cases hbody : request.body = ""
  · simp only [hbody, ne_eq, not_true_eq_false, if_false, and_false, List.append_nil, and_true,
      hlaws.line_applyMethod request]
    rfl
  · simp only [hbody, ne_eq, not_false_eq_true, if_true, and_true, and_false, if_false,
      hlaws.line_postFields request]
    rw [← String.length_toList, List.take_length]

/-- The first request is the one that was asked for, but for a GET with a body and a POST without
one. -/
theorem first_request_is_given_iff (hlaws : MethodLaws curl input) {t : Transfer}
    (h : transfer curl request = .ok t) :
    (t.request.method = (methodToString request.method).toList ∧
        t.request.body = request.body.toList) ↔
      (request.method = .get → request.body = "") ∧
        (request.method = .post → request.body = "" → input = []) := by
  have hline := hlaws.line_performOptions request
  rw [(transfer_ok h).2]
  unfold Libcurl.line at hline
  obtain ⟨hmethod, hbody⟩ := Prod.mk.inj hline
  rw [hmethod, hbody]
  cases hm : request.method with
  | get =>
    by_cases hempty : request.body = ""
    · simp [hempty, methodToString]
    · simp [hempty, methodToString]
  | post =>
    by_cases hempty : request.body = ""
    · simp [hempty]
    · simp [hempty]
  | put => simp
  | patch => simp
  | delete => simp
  | head => simp

end Sent

/-! ## A library that does what is documented -/

structure CurlState where
  method : List Char := "GET".toList
  word : Option (List Char) := none
  data : Option (List Char) := none
  size : Option Nat := none
  lines : List (List Char) := []

def CurlState.set (s : CurlState) : CurlOption → CurlState
  | .httpGet => { s with method := "GET".toList }
  | .post => { s with method := "POST".toList }
  | .noBody => { s with method := "HEAD".toList }
  | .customRequest word => { s with word := some word }
  | .postFields data => { s with method := "POST".toList, data := some data }
  | .postFieldSizeLarge size => { s with size := some size }
  | .httpHeader lines => { s with lines := lines }
  | _ => s

/-- A line without anything but blanks behind its colon is not sent. -/
def sendLine (line : List Char) : List Char :=
  match cut ':' line with
  | some (_, value) => if value.all isBlank then [] else line ++ ['\r', '\n']
  | none => []

def CurlState.body (input : List Char) (s : CurlState) : List Char :=
  if s.method = "POST".toList then
    match s.data with
    | some data => data.take (s.size.getD data.length)
    | none => input
  else []

def CurlState.line (input : List Char) (s : CurlState) : List Char × List Char :=
  (s.word.getD s.method, s.body input)

def CurlState.request (input : List Char) (s : CurlState) : SentRequest :=
  ⟨(s.line input).1, s.lines.flatMap sendLine, (s.line input).2⟩

def plainCurl (input : List Char) : Libcurl where
  globalInit := curleOk
  easyInit := true
  easyStrerror _ := ""
  easyPerform options :=
    { request := (options.foldl CurlState.set {}).request input
      calls := []
      result := curleOk
      errorBuffer := ""
      elapsed := 0
      responseCode := 200
      effectiveUrl := none }

section Plain
variable {input : List Char} {options : List CurlOption} {s : CurlState}

theorem foldl_set_word (h : NoWord options) : (options.foldl CurlState.set s).word = s.word := by
  induction options generalizing s with
  | nil => rfl
  | cons option options ih =>
    have hfirst : (s.set option).word = s.word := by
      cases option with
      | customRequest word => exact absurd List.mem_cons_self (h word)
      | _ => rfl
    rw [List.foldl_cons, ih fun word hmem => h word (List.mem_cons_of_mem _ hmem), hfirst]

theorem foldl_set_data (h : ∀ data, .postFields data ∉ options) :
    (options.foldl CurlState.set s).data = s.data := by
  induction options generalizing s with
  | nil => rfl
  | cons option options ih =>
    have hfirst : (s.set option).data = s.data := by
      cases option with
      | postFields data => exact absurd List.mem_cons_self (h data)
      | _ => rfl
    rw [List.foldl_cons, ih fun data hmem => h data (List.mem_cons_of_mem _ hmem), hfirst]

theorem plainCurl_line (input : List Char) (options more : List CurlOption) :
    (plainCurl input).line (options ++ more) =
      ((more.foldl CurlState.set (options.foldl CurlState.set {})).line input) := by
  unfold Libcurl.line plainCurl
  simp only [List.foldl_append]
  rfl

/-- The word of a POST, a GET or a HEAD is its own. -/
theorem line_of_noWord (hword : s.word = none) (input : List Char) :
    s.line input = (s.method, s.body input) := by
  unfold CurlState.line
  rw [hword]
  rfl

theorem body_of_not_post (hmethod : s.method ≠ "POST".toList) (input : List Char) :
    s.body input = [] := if_neg hmethod

theorem plainCurl_methodLaws (input : List Char) : MethodLaws (plainCurl input) input where
  start := rfl
  other options option h := by
    rw [plainCurl_line, ← List.append_nil options, plainCurl_line, List.append_nil]
    cases option <;> first | rfl | cases h
  httpGet options h := by
    have hword : ((options.foldl CurlState.set {}).set .httpGet).word = none := foldl_set_word h
    have hmethod : "GET".toList ≠ "POST".toList := by decide
    rw [plainCurl_line, List.foldl_cons, List.foldl_nil, line_of_noWord hword,
      body_of_not_post hmethod]
    rfl
  noBody options h := by
    have hword : ((options.foldl CurlState.set {}).set .noBody).word = none := foldl_set_word h
    have hmethod : "HEAD".toList ≠ "POST".toList := by decide
    rw [plainCurl_line, List.foldl_cons, List.foldl_nil, line_of_noWord hword,
      body_of_not_post hmethod]
    rfl
  post options h hdata := by
    have hword : ((options.foldl CurlState.set {}).set .post).word = none := foldl_set_word h
    have hnone : ((options.foldl CurlState.set {}).set .post).data = none := foldl_set_data hdata
    rw [plainCurl_line, List.foldl_cons, List.foldl_nil, line_of_noWord hword, CurlState.body,
      hnone]
    rfl
  customRequest options word := by
    rw [plainCurl_line, ← List.append_nil options, plainCurl_line, List.append_nil]
    rfl
  postFields options data size h := by
    have hword : (([.postFields data, .postFieldSizeLarge size] : List CurlOption).foldl
        CurlState.set (options.foldl CurlState.set {})).word = none := foldl_set_word h
    rw [plainCurl_line, line_of_noWord hword]
    rfl
  postFieldsWord options word data size := by
    rw [plainCurl_line]
    rfl

def putRequest : Request := { url := "http://localhost", method := .put, body := "a" }

theorem first_request_is_given_iff_put :
    let sent := ((plainCurl []).easyPerform (performOptions putRequest)).request
    sent.method = "PUT".toList ∧ sent.body = ['a'] := by
  have htransfer : transfer (plainCurl []) putRequest =
      .ok ((plainCurl []).easyPerform (performOptions putRequest)) := rfl
  exact (first_request_is_given_iff (plainCurl_methodLaws []) htransfer).mpr
    ⟨by rintro ⟨⟩, by rintro ⟨⟩⟩

/-- A GET with a body is sent as a POST. -/
theorem get_with_body_is_post :
    ¬ ∀ (curl : Libcurl) (input : List Char), MethodLaws curl input →
      ∀ (request : Request) (t : Transfer), transfer curl request = .ok t →
        t.request.method = (methodToString request.method).toList ∧
          t.request.body = request.body.toList := by
  intro h
  have hmethod := (h (plainCurl []) [] (plainCurl_methodLaws [])
    { url := "http://localhost", body := "a" } _ rfl).1
  revert hmethod
  decide

end Plain

end ThreadComponent.HttpClient
