import Mathlib.Data.Finmap
import Libnei.Url

/-!
# HTTP messages

The protocol-independent request and response types (`http_common.h`,
`http_request.h`, `http_response.h`).
-/

namespace Libnei.Http

inductive HttpMethod
  | delete | get | head | post | put | connect | options | trace | patch
  | unknown
deriving DecidableEq

def methodTable : List (Bytes × HttpMethod) :=
  [(ascii "DELETE", .delete), (ascii "GET", .get), (ascii "HEAD", .head),
    (ascii "POST", .post), (ascii "PUT", .put),
    (ascii "CONNECT", .connect), (ascii "OPTIONS", .options),
    (ascii "TRACE", .trace), (ascii "PATCH", .patch)]

def stringToHttpMethod (text : Bytes) : HttpMethod :=
  match methodTable.find? fun entry =>
      equalsCaseInsensitiveASCII text entry.1 with
  | some entry => entry.2
  | none => .unknown

inductive HttpVersion
  | http10 | http11 | unknown
deriving DecidableEq

structure HttpHeader where
  name : Bytes
  value : Bytes
deriving DecidableEq

abbrev HttpHeaders := List HttpHeader

/-- `RouteParams`, a `std::unordered_map`. -/
abbrev RouteParams := Finmap fun _ : Bytes => Bytes

/-- `FindHeader` and `GetHeaderValue`: the first header of that name, or the
empty view. -/
def getHeaderValue (headers : HttpHeaders) (name : Bytes) : Bytes :=
  match headers.find? fun header =>
      equalsCaseInsensitiveASCII header.name name with
  | some header => header.value
  | none => []

/-- `keep_alive()` of requests and responses. -/
def keepAlive (version : HttpVersion) (headers : HttpHeaders) : Bool :=
  let value := getHeaderValue headers (ascii "Connection")
  if version = .http10 then
    equalsCaseInsensitiveASCII value (ascii "keep-alive")
  else !equalsCaseInsensitiveASCII value (ascii "close")

structure HttpRequest where
  method : HttpMethod := .unknown
  url : Url := {}
  headers : HttpHeaders := []
  body : Bytes := []
  httpVersion : HttpVersion := .unknown
  routeParams : RouteParams := ∅
deriving DecidableEq

namespace HttpRequest

def keepAlive (request : HttpRequest) : Bool :=
  Http.keepAlive request.httpVersion request.headers

end HttpRequest

/-- The status codes the engines compare with or set. -/
inductive HttpStatusCode
  | switchingProtocols | ok | badRequest | forbidden | notFound
deriving DecidableEq

def HttpStatusCode.raw : HttpStatusCode → Int
  | .switchingProtocols => 101
  | .ok => 200
  | .badRequest => 400
  | .forbidden => 403
  | .notFound => 404

@[ext] structure HttpResponse where
  status : Int := HttpStatusCode.raw .ok
  headers : HttpHeaders := []
  body : Bytes := []
  httpVersion : HttpVersion := .unknown
deriving DecidableEq

namespace HttpResponse

def keepAlive (response : HttpResponse) : Bool :=
  Http.keepAlive response.httpVersion response.headers

/-- `headers.push_back({name, value})`. -/
def pushHeader (response : HttpResponse) (name value : String) : HttpResponse :=
  { response with
    headers := response.headers ++ [⟨ascii name, ascii value⟩] }

/-- The plain-text responses the engines make up themselves. -/
def plainText (code : HttpStatusCode) (body : Bytes) : HttpResponse :=
  pushHeader { status := code.raw, body := body } "Content-Type"
    "text/plain"

/-- The default of `Dispatch` and `DefaultNotFound`. -/
def notFound : HttpResponse :=
  plainText .notFound (ascii "404 Not Found\r\n")

end HttpResponse

end Libnei.Http
