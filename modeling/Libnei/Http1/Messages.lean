import Libnei.Http.Message
import Libnei.Http1.Callbacks

/-!
# Messages on the wire

Well-formed requests and responses as llhttp sees them: a start line, header
lines, and behind the blank line the body in one piece or in chunks, with
trailers.  What stands between the spans (blanks, colons, line ends, chunk
sizes) is arbitrary text.
-/

namespace Libnei.Http1

open Libnei.Http Token

/-- Text between two spans, or body data: at least one byte. -/
abbrev Gap := { text : Bytes // text ≠ [] }

structure HeaderLine where
  name : Bytes
  colon : Gap
  value : Bytes
  ending : Gap
  name_nonempty : name ≠ []

namespace HeaderLine

def tokens (line : HeaderLine) : List Token :=
  [.span .headerField line.name, .gap line.colon,
    .span .headerValue line.value, .gap line.ending]

end HeaderLine

/-- A part of a message behind its start line. -/
inductive Part
  | headerLine (line : HeaderLine)
  | data (text : Gap)
  | framing (text : Gap)

namespace Part

def tokens : Part → List Token
  | .headerLine line => line.tokens
  | .data text => [.span .body text]
  | .framing text => [.gap text]

end Part

/-- A message behind its start line. -/
structure Layout where
  lines : List HeaderLine
  blank : Gap
  content : List Part

namespace Layout

def head (layout : Layout) : List Part :=
  layout.lines.map .headerLine

/-- The tokens, given the status code that the parser knows when the headers
are complete and whether the end of the message can be seen. -/
def tokens (layout : Layout) (statusCode : Nat) (ended : Bool) : List Token :=
  layout.head.flatMap Part.tokens ++
    .gap layout.blank :: .signal (.headersComplete statusCode) ::
      (layout.content.flatMap Part.tokens ++
        if ended then [.signal .messageComplete] else [])

end Layout

structure RequestMessage extends Layout where
  method : Bytes
  methodGap : Gap
  url : Bytes
  urlGap : Gap
  version : Bytes
  versionGap : Gap
  url_nonempty : url ≠ []
  version_length : version.length = 3

namespace RequestMessage

def tokens (message : RequestMessage) : List Token :=
  .signal .messageBegin ::
    .span .method message.method :: .gap message.methodGap ::
    .span .url message.url :: .gap message.urlGap ::
    .span .version message.version :: .gap message.versionGap ::
    message.toLayout.tokens 0 true

def bytes (message : RequestMessage) : Bytes :=
  Token.bytes message.tokens

end RequestMessage

/-- `GET /ab HTTP/1.1` without headers. -/
def plainGet : RequestMessage where
  method := ascii "GET"
  methodGap := ⟨ascii " ", by decide⟩
  url := ascii "/ab"
  urlGap := ⟨ascii " HTTP/", by decide⟩
  version := ascii "1.1"
  versionGap := ⟨ascii "\r\n", by decide⟩
  lines := []
  blank := ⟨ascii "\r\n", by decide⟩
  content := []
  url_nonempty := by decide
  version_length := by decide

end Libnei.Http1
