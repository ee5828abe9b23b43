import Libnei.Bytes

/-!
# The callbacks of llhttp

llhttp reads a message from one buffer after the other and reports its spans
(URL, header names and values, body) through callbacks.  Of a span that
crosses the end of a buffer each buffer's fragment is reported on its own.

A message is laid out as a list of tokens: the spans, the text between them,
and the points at which llhttp makes a callback without text.
-/

namespace Libnei.Http1

inductive SpanKind
  | method | url | status | version | headerField | headerValue | body
deriving DecidableEq

/-- A call into `Http1Parser::Delegate`.  When the headers are complete the
parser knows the status code of a response. -/
inductive Callback
  | messageBegin
  | span (kind : SpanKind) (text : Bytes)
  | headersComplete (statusCode : Nat)
  | messageComplete
deriving DecidableEq

inductive Token
  | signal (callback : Callback)
  | span (kind : SpanKind) (text : Bytes)
  | gap (text : Bytes)
deriving DecidableEq

namespace Token

def text : Token → Bytes
  | .signal _ => []
  | .span _ text => text
  | .gap text => text

/-- The bytes laid out by a list of tokens. -/
def bytes (tokens : List Token) : Bytes :=
  tokens.flatMap text

/-- The callbacks of a token that was reported in these fragments. -/
def callbacks : Token → List Bytes → List Callback
  | .signal callback, _ => [callback]
  | .span kind _, fragments => fragments.map (.span kind)
  | .gap _, _ => []

end Token

open Token

/-- The callbacks made for tokens that were reported in these fragments. -/
def emitted : List Token → List (List Bytes) → List Callback
  | token :: tokens, fragments :: others =>
      token.callbacks fragments ++ emitted tokens others
  | _, _ => []

/-- A token is reported at once. -/
def Token.once : Token → List Bytes
  | .span _ text => [text]
  | _ => []

end Libnei.Http1
