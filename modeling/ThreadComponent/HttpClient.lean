import ThreadComponent.HttpHeaders

/-!
# cHTTPClient

One transfer of libcurl for each request. `perform` sets the options one after the other, libcurl
sends the request and hands over the lines of the header and the parts of the body, and the
callbacks gather them in the response. What libcurl answers is a parameter.
-/

set_option autoImplicit false

namespace ThreadComponent.HttpClient

open HeaderText

/-! ## Requests and responses -/

inductive Method where
  | get
  | post
  | put
  | patch
  | delete
  | head
  deriving DecidableEq, Repr

structure Request where
  url : String := ""
  method : Method := .get
  headers : Fields := []
  body : String := ""
  userAgent : String := "HotBits/cHTTPClient"
  contentType : String := ""
  accept : String := ""
  basicAuthUser : String := ""
  basicAuthPassword : String := ""
  bearerToken : String := ""
  caInfoPath : String := ""
  connectTimeout : Int := 10000
  timeout : Int := 180000
  maxRedirects : Int := 10
  followRedirects : Bool := true
  verifyPeer : Bool := true
  verifyHost : Bool := true
  acceptCompressedResponse : Bool := true

structure Response where
  statusCode : Int := 0
  curlCode : Int := 0
  body : List Char := []
  headers : Fields := []
  rawHeaders : List Char := []
  effectiveUrl : String := ""
  errorMessage : String := ""
  elapsed : Int := 0
  deriving DecidableEq, Repr

-- `CURLcode`
def curleOk : Int := 0
def curleFailedInit : Int := 2
def curleUrlMalformat : Int := 3

def Response.ok (response : Response) : Bool :=
  response.curlCode = curleOk && 200 ≤ response.statusCode && response.statusCode < 300

def Response.headerValue (response : Response) (headerName : String) : String :=
  match response.headers.find? fun header => iequals header.name.toList headerName.toList with
  | some header => header.value
  | none => ""

/-! ## The options of a transfer -/

/-- A call of `curl_easy_setopt`. -/
inductive CurlOption where
  | errorBuffer
  | url (text : List Char)
  | noSignal
  | connectTimeoutMs (value : Int)
  | timeoutMs (value : Int)
  | followLocation (value : Int)
  | maxRedirs (value : Int)
  | sslVerifyPeer (value : Int)
  | sslVerifyHost (value : Int)
  | writeFunction
  | writeData
  | headerFunction
  | headerData
  | userAgent (text : List Char)
  | acceptEncoding (text : List Char)
  | caInfo (text : List Char)
  | httpAuthBearer
  | xoauth2Bearer (text : List Char)
  | httpAuthBasic
  | username (text : List Char)
  | password (text : List Char)
  | httpHeader (lines : List (List Char))
  | httpGet
  | post
  | noBody
  | customRequest (word : List Char)
  | postFields (data : List Char)
  | postFieldSizeLarge (size : Nat)
  deriving DecidableEq

/-- What a C function reads of a `c_str()`. -/
def cString (text : List Char) : List Char := text.takeWhile (· ≠ '\x00')

def methodToString : Method → String
  | .post => "POST"
  | .put => "PUT"
  | .patch => "PATCH"
  | .delete => "DELETE"
  | .head => "HEAD"
  | .get => "GET"

def applyMethod (request : Request) : List CurlOption :=
  match request.method with
  | .post => [.post]
  | .put | .patch | .delete => [.customRequest (methodToString request.method).toList]
  | .head => [.noBody, .customRequest (methodToString request.method).toList]
  | .get => [.httpGet]

/-- The list of `curl_slist_append` behind a header. -/
def appendHeader (curlHeaders : List (List Char)) (header : Field) : List (List Char) :=
  if header.name = "" then curlHeaders
  else curlHeaders ++ [cString (header.name.toList ++ ':' :: ' ' :: header.value.toList)]

/-- `requestHeaders`, with the defaults behind the headers of the request. -/
def requestHeaders (request : Request) : Fields :=
  let requestHeaders := request.headers
  let requestHeaders :=
    if request.contentType ≠ "" ∧ hasHeader requestHeaders "Content-Type" = false then
      requestHeaders ++ [⟨"Content-Type", request.contentType⟩]
    else requestHeaders
  if request.accept ≠ "" ∧ hasHeader requestHeaders "Accept" = false then
    requestHeaders ++ [⟨"Accept", request.accept⟩]
  else requestHeaders

def curlHeaders (request : Request) : List (List Char) :=
  (requestHeaders request).foldl appendHeader []

def authOptions (request : Request) : List CurlOption :=
  if request.bearerToken ≠ "" then
    [.httpAuthBearer, .xoauth2Bearer (cString request.bearerToken.toList)]
  else if request.basicAuthUser ≠ "" then
    [.httpAuthBasic, .username (cString request.basicAuthUser.toList),
      .password (cString request.basicAuthPassword.toList)]
  else []

def setIf (p : Prop) [Decidable p] (option : CurlOption) : List CurlOption :=
  if p then [option] else []

def commonOptions (request : Request) : List CurlOption :=
  [.errorBuffer, .url (cString request.url.toList), .noSignal,
    .connectTimeoutMs request.connectTimeout, .timeoutMs request.timeout,
    .followLocation (if request.followRedirects then 1 else 0), .maxRedirs request.maxRedirects,
    .sslVerifyPeer (if request.verifyPeer then 1 else 0),
    .sslVerifyHost (if request.verifyHost then 2 else 0),
    .writeFunction, .writeData, .headerFunction, .headerData]

/-- The options that `perform` sets in front of the list of headers. -/
def transferOptions (request : Request) : List CurlOption :=
  commonOptions request ++
    setIf (request.userAgent ≠ "") (.userAgent (cString request.userAgent.toList)) ++
    setIf (request.acceptCompressedResponse = true) (.acceptEncoding []) ++
    setIf (request.caInfoPath ≠ "") (.caInfo (cString request.caInfoPath.toList)) ++
    authOptions request

def headerOptions (request : Request) : List CurlOption :=
  if curlHeaders request ≠ [] then [.httpHeader (curlHeaders request)] else []

def bodyOptions (request : Request) : List CurlOption :=
  if request.body ≠ "" then
    [.postFields request.body.toList, .postFieldSizeLarge request.body.length]
  else []

/-- The options of a request, in the order in which `perform` sets them. -/
def performOptions (request : Request) : List CurlOption :=
  transferOptions request ++ headerOptions request ++ applyMethod request ++ bodyOptions request

/-! ## The callbacks -/

/-- The number of bytes taken and the response behind the call; no data and no response stand for
null pointers. -/
def writeBodyCallback (data : Option (List Char)) (userData : Option Response) :
    Nat × Option Response :=
  match data, userData with
  | some data, some response =>
    (data.length, some { response with body := response.body ++ data })
  | _, _ => (0, userData)

def writeHeaderCallback (data : Option (List Char)) (userData : Option Response) :
    Nat × Option Response :=
  match data, userData with
  | some line, some response =>
    let response :=
      if 5 ≤ line.length ∧ line.take 5 = "HTTP/".toList then
        { response with headers := [], rawHeaders := [] }
      else response
    let response := { response with rawHeaders := response.rawHeaders ++ line }
    let response :=
      match cut ':' line with
      | some (name, value) =>
        { response with
          headers := response.headers ++
            [⟨String.ofList (trimCopy name), String.ofList (trimCopy value)⟩] }
      | none => response
    (line.length, some response)
  | _, _ => (0, userData)

/-! ## A transfer -/

/-- A call of libcurl into the program. -/
inductive CurlCall where
  | body (data : List Char)
  | header (data : List Char)
  deriving DecidableEq, Repr

/-- The first request of a transfer on the wire: its method, the lines of the fields that the
program has added, and its body. -/
structure SentRequest where
  method : List Char
  fields : List Char
  body : List Char
  deriving DecidableEq, Repr

structure Transfer where
  request : SentRequest
  calls : List CurlCall
  result : Int
  errorBuffer : String
  elapsed : Int
  responseCode : Int
  effectiveUrl : Option String

structure Libcurl where
  globalInit : Int
  easyInit : Bool
  easyStrerror : Int → String
  easyPerform : List CurlOption → Transfer

/-- What a call of libcurl does to the response that `perform` has registered. -/
def Response.receive (response : Response) : CurlCall → Response
  | .body data => (writeBodyCallback (some data) (some response)).2.getD response
  | .header data => (writeHeaderCallback (some data) (some response)).2.getD response

/-- The transfer of a request, or the response of a request that has none. -/
def transfer (curl : Libcurl) (request : Request) : Except Response Transfer :=
  if request.url = "" then
    .error { errorMessage := "Request URL is empty", curlCode := curleUrlMalformat }
  else if curl.globalInit ≠ curleOk then
    .error { errorMessage := curl.easyStrerror curl.globalInit, curlCode := curl.globalInit }
  else if curl.easyInit = false then
    .error { errorMessage := "curl_easy_init failed", curlCode := curleFailedInit }
  else .ok (curl.easyPerform (performOptions request))

def perform (curl : Libcurl) (request : Request) : Response :=
  match transfer curl request with
  | .error response => response
  | .ok transfer =>
    let response := transfer.calls.foldl Response.receive {}
    { response with
      elapsed := transfer.elapsed
      curlCode := transfer.result
      errorMessage :=
        if transfer.result ≠ curleOk then
          if transfer.errorBuffer ≠ "" then transfer.errorBuffer
          else curl.easyStrerror transfer.result
        else response.errorMessage
      statusCode := transfer.responseCode
      effectiveUrl := transfer.effectiveUrl.getD response.effectiveUrl }

section Wrappers
variable (curl : Libcurl) (url body : String) (headers : Fields) (contentType : String)

def get : Response := perform curl { url, method := .get, headers }

def post : Response := perform curl { url, method := .post, headers, body, contentType }

def put : Response := perform curl { url, method := .put, headers, body, contentType }

def patch : Response := perform curl { url, method := .patch, headers, body, contentType }

def del : Response := perform curl { url, method := .delete, headers }

def head : Response := perform curl { url, method := .head, headers }

end Wrappers

/-! ## What `perform` returns -/

section Perform
variable {curl : Libcurl} {request : Request} {response : Response} {t : Transfer}

theorem transfer_error (h : transfer curl request = .error response) :
    response.curlCode ≠ curleOk ∧ response.headers = [] ∧ response.body = [] := by
  unfold transfer at h
  split at h
  · cases h
    exact ⟨by decide, rfl, rfl⟩
  · split at h
    · rename_i hinit
      cases h
      exact ⟨hinit, rfl, rfl⟩
    · split at h
      · cases h
        exact ⟨by decide, rfl, rfl⟩
      · cases h

theorem transfer_ok (h : transfer curl request = .ok t) :
    request.url ≠ "" ∧ t = curl.easyPerform (performOptions request) := by
  unfold transfer at h
  split at h
  · cases h
  · rename_i hurl
    split at h
    · cases h
    · split at h
      · cases h
      · exact ⟨hurl, (Except.ok.inj h).symm⟩

/-- A request without a transfer is not answered with success. -/
theorem perform_of_transfer_error (h : transfer curl request = .error response) :
    (perform curl request).ok = false := by
  have hcode := (transfer_error h).1
  rw [perform, h]
  simp [Response.ok, hcode]

end Perform

end ThreadComponent.HttpClient
