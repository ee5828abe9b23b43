import Libnei.Text

/-!
# URLs

`Url::Impl::Parse` (`url.cpp`).  A parsed URL is its text together with the
offsets of its components; the scheme and the host are lowercased in place.
-/

namespace Libnei

def isSchemeChar (char : UInt8) : Bool :=
  isAlpha char || isDigit char || char == '+'.toUInt8 ||
    char == '-'.toUInt8 || char == '.'.toUInt8

/-- The characters of `find_first_of("/?#")`, which end an authority. -/
def endsAuthority (char : UInt8) : Bool :=
  char == '/'.toUInt8 || char == '?'.toUInt8 || char == '#'.toUInt8

def defaultPortForScheme (scheme : Bytes) : Nat :=
  if scheme == ascii "http" || scheme == ascii "ws" then 80
  else if scheme == ascii "https" || scheme == ascii "wss" then 443
  else if scheme == ascii "ftp" then 21
  else if scheme == ascii "ssh" then 22
  else 0

def isSpace (char : UInt8) : Bool :=
  char == 32 || (9 ≤ char && char ≤ 13)

/-- `std::strtol(text, &end, 10)`: the value and the number of bytes read,
which is 0 when there is no digit. -/
def strtol (text : Bytes) : Int × Nat :=
  let blanks := (text.takeWhile isSpace).length
  let unsigned := text.drop blanks
  let signs :=
    if unsigned.head? == some '+'.toUInt8 ||
        unsigned.head? == some '-'.toUInt8 then 1 else 0
  let digits := (unsigned.drop signs).takeWhile isDigit
  let magnitude : Int :=
    digits.foldl (fun value digit => value * 10 + (digit.toNat - 48)) 0
  if digits.isEmpty then (0, 0)
  else if unsigned.head? == some '-'.toUInt8 then
    (max (-magnitude) (-2 ^ 63), blanks + signs + digits.length)
  else (min magnitude (2 ^ 63 - 1), blanks + signs + digits.length)

/-- The offsets of a component: `*_begin` and `*_end`. -/
structure Span where
  first : Nat := 0
  last : Nat := 0
deriving DecidableEq

/-- `Url::Impl`. -/
structure Url where
  spec : Bytes := []
  schemeSpan : Span := {}
  userSpan : Span := {}
  passSpan : Span := {}
  hostSpan : Span := {}
  portSpan : Span := {}
  pathSpan : Span := {}
  querySpan : Span := {}
  fragSpan : Span := {}
  portValue : Nat := 0
  portExplicit : Bool := false
  valid : Bool := false
deriving DecidableEq

namespace Url

/-- A component accessor: the empty view unless `begin < end`. -/
def component (url : Url) (span : Span) : Bytes :=
  if span.first < span.last then url.spec.slice span.first span.last
  else []

def scheme (url : Url) : Bytes := url.component url.schemeSpan
def host (url : Url) : Bytes := url.component url.hostSpan
def path (url : Url) : Bytes := url.component url.pathSpan
def query (url : Url) : Bytes := url.component url.querySpan
def fragment (url : Url) : Bytes := url.component url.fragSpan

/-- The in-place loop of `std::tolower` over `[first, last)`. -/
def lowered (spec : Bytes) (first last : Nat) : Bytes :=
  spec.overwrite first ((spec.slice first last).map toLower)

def eatHost (spec : Bytes) (position : Nat) : Nat :=
  position + ((spec.drop position).takeWhile fun char =>
    !(char == ':'.toUInt8 || endsAuthority char)).length

def eatIPv6Literal (spec : Bytes) (position : Nat) : Option Nat :=
  if spec[position]? == some '['.toUInt8 then
    (spec.find (· == ']'.toUInt8) position).map (· + 1)
  else none

/-! ## The stages of `Parse` -/

/-- No scheme: the whole text is a path, a query or a fragment. -/
def relative (spec : Bytes) : Url :=
  if spec.head? == some '?'.toUInt8 then
    { spec := spec, querySpan := ⟨1, spec.length⟩, valid := true }
  else if spec.head? == some '#'.toUInt8 then
    { spec := spec, fragSpan := ⟨1, spec.length⟩, valid := true }
  else
    { spec := spec, pathSpan := ⟨0, spec.length⟩, valid := true }

/-- `user:password@`, in front of the host. -/
def readUserInfo (url : Url) (position authEnd : Nat) : Url × Nat :=
  match url.spec.find (· == '@'.toUInt8) position with
  | some atSign =>
      if atSign < authEnd then
        match url.spec.find (· == ':'.toUInt8) position with
        | some colon =>
            if colon < atSign then
              ({ url with userSpan := ⟨position, colon⟩
                          passSpan := ⟨colon + 1, atSign⟩ }, atSign + 1)
            else
              ({ url with userSpan := ⟨position, atSign⟩ }, atSign + 1)
        | none =>
            ({ url with userSpan := ⟨position, atSign⟩ }, atSign + 1)
      else (url, position)
  | none => (url, position)

/-- Lowercase the host (RFC 3986 §6.2.2.1). -/
def lowerHost (url : Url) : Url :=
  if url.hostSpan.first < url.hostSpan.last then
    { url with
      spec := lowered url.spec url.hostSpan.first url.hostSpan.last }
  else url

/-- The host, an IPv6 literal or a registered name. -/
def readHost (url : Url) (position authEnd : Nat) : Url × Nat :=
  if position < authEnd && url.spec[position]? == some '['.toUInt8 then
    match eatIPv6Literal url.spec position with
    | some close =>
        (lowerHost { url with hostSpan := ⟨position, close⟩ }, close)
    | none => (lowerHost url, position)
  else
    let last := eatHost url.spec position
    (lowerHost { url with hostSpan := ⟨position, last⟩ }, last)

/-- `:port`. -/
def readPort (url : Url) (position authEnd : Nat) : Url × Nat :=
  if position < authEnd && url.spec[position]? == some ':'.toUInt8 then
    let first := position + 1
    let last := eatHost url.spec first
    let (value, size) := strtol (url.spec.drop first)
    let url := { url with portSpan := ⟨first, last⟩ }
    if size = last - first ∧ 0 < value ∧ value ≤ 65535 then
      ({ url with portValue := value.toNat, portExplicit := true }, last)
    else (url, last)
  else (url, position)

/-- The authority, from behind its two slashes. -/
def readAuthority (url : Url) (position : Nat) : Url × Nat :=
  let authEnd := (url.spec.find endsAuthority position).getD url.spec.length
  let (url, position) := readUserInfo url position authEnd
  let (url, position) := readHost url position authEnd
  let (url, position) := readPort url position authEnd
  if url.hostSpan.last ≤ url.hostSpan.first then
    ({ url with hostSpan := ⟨0, 0⟩ }, position)
  else (url, position)

def readPath (url : Url) (position : Nat) : Url :=
  if position < url.spec.length then
    { url with pathSpan := ⟨position, url.spec.length⟩ }
  else url

def readQuery (url : Url) : Url :=
  match url.spec.find (· == '?'.toUInt8) url.pathSpan.first with
  | some mark =>
      { url with pathSpan := { url.pathSpan with last := mark }
                 querySpan := ⟨mark + 1, url.spec.length⟩ }
  | none => url

def readFragment (url : Url) : Url :=
  let start :=
    if 0 < url.querySpan.first then url.querySpan.first
    else url.pathSpan.first
  match url.spec.find (· == '#'.toUInt8) start with
  | some mark =>
      if 0 < url.querySpan.first then
        { url with querySpan := { url.querySpan with last := mark }
                   fragSpan := ⟨mark + 1, url.spec.length⟩ }
      else
        { url with pathSpan := { url.pathSpan with last := mark }
                   fragSpan := ⟨mark + 1, url.spec.length⟩ }
  | none => url

def setDefaultPort (url : Url) : Url :=
  if url.portExplicit then url
  else
    { url with
      portValue := defaultPortForScheme
        (url.spec.slice url.schemeSpan.first url.schemeSpan.last) }

/-- What follows the `:` of a scheme. -/
def readAfterScheme (url : Url) (position : Nat) : Url :=
  let (url, position) :=
    if url.spec[position]? == some '/'.toUInt8 &&
        url.spec[position + 1]? == some '/'.toUInt8 then
      readAuthority url (position + 2)
    else (url, position)
  { setDefaultPort (readFragment (readQuery (readPath url position))) with
    valid := true }

/-- `Url::Url(std::string)`: `Url::Impl::Parse` of the text. -/
def parse (spec : Bytes) : Url :=
  if spec.isEmpty then {}
  else
    let schemeEnd := (spec.takeWhile isSchemeChar).length
    if 0 < schemeEnd && spec[schemeEnd]? == some ':'.toUInt8 then
      readAfterScheme
        { spec := lowered spec 0 schemeEnd
          schemeSpan := ⟨0, schemeEnd⟩ }
        (schemeEnd + 1)
    else relative spec

end Url

end Libnei
