import Libnei.Http.GzipStream
import Libnei.Http1.Callbacks

/-!
# Parser delegates

What is accumulated from the callbacks: `ConnectionDelegate`
(`http_server.cpp`) builds the request of a server connection and
`ResponseDelegate` (`http_client.cpp`) the response of the client.
-/

namespace Libnei.Http1

open Libnei.Http

/-- `OnHttpVersion` of both delegates: the version is only changed by a text
that holds all of it. -/
def onHttpVersion (data : Bytes) (current : HttpVersion) : HttpVersion :=
  match data with
  | major :: dot :: minor :: _ =>
      if major = '1'.toUInt8 ∧ dot = '.'.toUInt8 then
        if minor = '1'.toUInt8 then .http11
        else if minor = '0'.toUInt8 then .http10
        else current
      else current
  | _ => current

/-! ## Server -/

structure ConnectionDelegate where
  request : HttpRequest := {}
  url : Bytes := []
  headerField : Bytes := []
  messageComplete : Bool := false
  headersComplete : Bool := false
  forwardingBody : Bool := false
deriving DecidableEq

namespace ConnectionDelegate

def onMessageBegin (delegate : ConnectionDelegate) : ConnectionDelegate :=
  { delegate with request := {}, headerField := [] }

def onHeaderValue (delegate : ConnectionDelegate) (data : Bytes) :
    ConnectionDelegate :=
  { delegate with
    request := { delegate.request with
      headers := delegate.request.headers ++ [⟨delegate.headerField, data⟩] }
    headerField := [] }

/-- `OnBody`.  A body that is forwarded goes to the connection and leaves the
request alone. -/
def onBody (delegate : ConnectionDelegate) (data : Bytes) :
    ConnectionDelegate :=
  if delegate.forwardingBody then delegate
  else
    { delegate with
      request := { delegate.request with
        body := delegate.request.body ++ data } }

/-- `if (!url_.empty()) req_.url = Url(url_)`. -/
def resolveUrl (delegate : ConnectionDelegate) : ConnectionDelegate :=
  if delegate.url = [] then delegate
  else
    { delegate with
      request := { delegate.request with url := Url.parse delegate.url } }

def onSpan (delegate : ConnectionDelegate) (data : Bytes) :
    SpanKind → ConnectionDelegate
  | .method =>
      { delegate with
        request := { delegate.request with
          method := stringToHttpMethod data } }
  | .url => { delegate with url := data }
  | .status => delegate
  | .version =>
      { delegate with
        request := { delegate.request with
          httpVersion := onHttpVersion data delegate.request.httpVersion } }
  | .headerField => { delegate with headerField := data }
  | .headerValue => delegate.onHeaderValue data
  | .body => delegate.onBody data

def on (delegate : ConnectionDelegate) : Callback → ConnectionDelegate
  | .messageBegin => delegate.onMessageBegin
  | .span kind data => delegate.onSpan data kind
  | .headersComplete _ => { delegate.resolveUrl with headersComplete := true }
  | .messageComplete => { delegate.resolveUrl with messageComplete := true }

def reset : ConnectionDelegate := {}

end ConnectionDelegate

end Libnei.Http1
