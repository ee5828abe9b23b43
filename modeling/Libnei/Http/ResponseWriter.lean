import Libnei.Http.GzipStream

/-!
# Responses on the wire

`HttpResponseWriter` (`http_response_writer.cpp`), and the compression of
simple responses in front of it (`http_server.cpp`).
-/

namespace Libnei.Http

def statusTable : List (Nat × Bytes) :=
  [(100, ascii "Continue"), (101, ascii "Switching Protocols"),
    (200, ascii "OK"), (201, ascii "Created"), (202, ascii "Accepted"),
    (204, ascii "No Content"), (206, ascii "Partial Content"),
    (301, ascii "Moved Permanently"), (302, ascii "Found"),
    (303, ascii "See Other"), (304, ascii "Not Modified"),
    (307, ascii "Temporary Redirect"), (308, ascii "Permanent Redirect"),
    (400, ascii "Bad Request"), (401, ascii "Unauthorized"),
    (403, ascii "Forbidden"), (404, ascii "Not Found"),
    (405, ascii "Method Not Allowed"), (408, ascii "Request Timeout"),
    (409, ascii "Conflict"), (410, ascii "Gone"),
    (411, ascii "Length Required"), (413, ascii "Payload Too Large"),
    (414, ascii "URI Too Long"), (415, ascii "Unsupported Media Type"),
    (429, ascii "Too Many Requests"), (500, ascii "Internal Server Error"),
    (501, ascii "Not Implemented"), (502, ascii "Bad Gateway"),
    (503, ascii "Service Unavailable"), (504, ascii "Gateway Timeout")]

def httpStatusCodeToString (code : Nat) : Bytes :=
  match statusTable.find? fun entry => entry.1 == code with
  | some entry => entry.2
  | none => ascii "Unknown Status"

/-- `status.code()`: the raw code as a `uint16_t`. -/
def HttpResponse.code (response : HttpResponse) : Nat :=
  (response.status % 2 ^ 16).toNat

namespace HttpResponseWriter

def serializeStatusLine (response : HttpResponse) : Bytes :=
  let version :=
    if response.httpVersion = .http10 then ascii "HTTP/1.0"
    else ascii "HTTP/1.1"
  let code :=
    if response.status < 100 ∨ 999 < response.status then response.code
    else response.status.toNat
  version ++ ascii " " ++ digits 10 code ++ ascii " " ++
    httpStatusCodeToString response.code ++ ascii "\r\n"

/-- The statuses that must not announce a body. -/
def bodyless (status : Int) : Bool :=
  (100 ≤ status && status < 200) || status == 204 || status == 304

def named (name : String) (header : HttpHeader) : Bool :=
  header.name.map toLower == ascii name

def serializeHeaders (response : HttpResponse) : Bytes :=
  let hasContentLength := response.headers.any (named "content-length")
  let hasTransferEncoding :=
    response.headers.any (named "transfer-encoding")
  let headers :=
    if !bodyless response.status && !hasTransferEncoding &&
        !hasContentLength then
      response.headers ++
        [⟨ascii "Content-Length", digits 10 response.body.length⟩]
    else response.headers
  serializeStatusLine response ++ (headers.flatMap fun header =>
      header.name ++ ascii ": " ++ header.value ++ ascii "\r\n") ++
    ascii "\r\n"

def serializeChunkHeader (length : Nat) : Bytes :=
  digits 16 length ++ ascii "\r\n"

def serializeChunk (data : Bytes) : Bytes :=
  if data = [] then serializeChunkHeader 0
  else serializeChunkHeader data.length ++ data ++ ascii "\r\n"

def serializeLastChunk : Bytes := ascii "0\r\n\r\n"

/-- The first `Transfer-Encoding` decides. -/
def isChunked (headers : HttpHeaders) : Bool :=
  match headers.find? (named "transfer-encoding") with
  | some header =>
      Bytes.contains (header.value.map toLower) (ascii "chunked")
  | none => false

def serialize (response : HttpResponse) : Bytes :=
  let head := serializeHeaders response
  if isChunked response.headers then
    if response.body = [] then head ++ serializeLastChunk
    else head ++ serializeChunk response.body ++ serializeLastChunk
  else head ++ response.body

theorem serializeHeaders_ne_nil (response : HttpResponse) :
    serializeHeaders response ≠ [] := by
  apply List.append_ne_nil_of_right_ne_nil
  decide

theorem serialize_ne_nil (response : HttpResponse) :
    serialize response ≠ [] := by
  have head := serializeHeaders_ne_nil response
  rw [serialize]
  split
  · split
    · exact List.append_ne_nil_of_left_ne_nil head _
    · rw [List.append_assoc]
      exact List.append_ne_nil_of_left_ne_nil head _
  · exact List.append_ne_nil_of_left_ne_nil head _

end HttpResponseWriter

/-! ## Compression -/

def minCompressBytes : Nat := 256

/-- A token of `Accept-Encoding`: is it gzip, and if so, not with `q=0`? -/
def gzipToken (token : Bytes) : Option Bool :=
  let semi := token.find (· == ';'.toUInt8) 0
  let name := token.take (semi.getD token.length)
  if name = ascii "gzip" then
    match semi with
    | none => some true
    | some semi =>
        let params := token.drop semi
        match params.tails.find? (ascii "q=").isPrefixOf with
        | some (_ :: _ :: quality :: _) => some (quality != '0'.toUInt8)
        | _ => some true
  else none

/-- What `WantsGzip` skips in front of a token. -/
def isSeparator (char : UInt8) : Bool :=
  char == ','.toUInt8 || char == ' '.toUInt8

/-- What is left behind the next token of `Accept-Encoding`, and the token:
separators, and then everything up to a comma. -/
def nextToken (text : Bytes) : Bytes × Bytes :=
  let start := text.dropWhile isSeparator
  (start.dropWhile (· != ','.toUInt8), start.takeWhile (· != ','.toUInt8))

theorem nextToken_length {text : Bytes} (some : text ≠ []) :
    (nextToken text).1.length < text.length := by
  obtain ⟨char, rest, rfl⟩ := List.exists_cons_of_ne_nil some
  have shorter (test : UInt8 → Bool) (text : Bytes) :
      (text.dropWhile test).length ≤ text.length :=
    (List.dropWhile_sublist test).length_le
  rw [nextToken, List.length_cons, Nat.lt_succ_iff]
  by_cases separator : isSeparator char = true
  · rw [List.dropWhile_cons_of_pos separator]
    exact (shorter _ _).trans (shorter _ _)
  · have inside : (char != ','.toUInt8) = true := by
      simp only [isSeparator, Bool.or_eq_true, not_or] at separator
      simpa using separator.1
    have token : (char :: rest).dropWhile (· != ','.toUInt8) =
        rest.dropWhile (· != ','.toUInt8) :=
      List.dropWhile_cons_of_pos inside
    rw [List.dropWhile_cons_of_neg separator, token]
    exact shorter _ _

/-- The loop of `WantsGzip` over the tokens. -/
def wantsGzipLoop (text : Bytes) : Bool :=
  if _ : text = [] then false
  else
    match gzipToken (nextToken text).2 with
    | some wanted => wanted
    | none => wantsGzipLoop (nextToken text).1
termination_by text.length
decreasing_by exact nextToken_length ‹_›

def wantsGzip (acceptEncoding : Bytes) : Bool :=
  wantsGzipLoop (acceptEncoding.map toLower)

def maybeCompressResponse (zlib : Zlib) (request : HttpRequest)
    (response : HttpResponse) : HttpResponse :=
  if response.body.length < minCompressBytes then response
  else if getHeaderValue response.headers (ascii "Content-Encoding") ≠ []
  then response
  else if !wantsGzip (getHeaderValue request.headers
      (ascii "Accept-Encoding")) then response
  else
    let compressed := gzipCompress zlib response.body
    if response.body.length ≤ compressed.length then response
    else
      { response with body := compressed }.pushHeader "Content-Encoding"
        "gzip"

end Libnei.Http
