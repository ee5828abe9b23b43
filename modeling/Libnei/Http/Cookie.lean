import Mathlib.Data.List.DropRight
import Libnei.Lib.Keyed
import Libnei.Url

/-!
# Cookies

`Cookie` and `CookieJar` (`cookie.cpp`).  `Time::Now()` is an argument, and
so is what `std::sscanf` reads out of a date.  Signed overflow of a time,
which the source leaves undefined, is not modelled.
-/

namespace Libnei.Http

/-- `Time`: microseconds since the Unix epoch. -/
abbrev Time := Int

namespace Time

def unixEpoch : Time := 0

def fromUnixSeconds (seconds : Int) : Time := seconds * 1000000

def toUnixSeconds (time : Time) : Int := Int.tdiv time 1000000

end Time

/-! ## The helpers of `cookie.cpp` -/

def trimWhitespace (text : Bytes) : Bytes :=
  (text.dropWhile isSpace).rdropWhile isSpace

/-- `ToLower`. -/
def lowercase (text : Bytes) : Bytes := text.map toLower

def equalsIgnoreCase (left right : Bytes) : Bool :=
  lowercase left == lowercase right

/-- The fields of a date, as `std::sscanf` assigns them. -/
structure DateFields where
  day : Int
  month : Bytes
  year : Int
  hour : Int
  minute : Int
  second : Int
deriving DecidableEq

/-- The two `std::sscanf` calls of `ParseHttpDate`: the fields, if all six
were assigned. -/
structure DateScanner where
  fixdate : Bytes → Option DateFields
  asctime : Bytes → Option DateFields

def kMonths : List Bytes :=
  [ascii "Jan", ascii "Feb", ascii "Mar", ascii "Apr", ascii "May",
    ascii "Jun", ascii "Jul", ascii "Aug", ascii "Sep", ascii "Oct",
    ascii "Nov", ascii "Dec"]

/-- Days from civil: `mon` counts from 0. -/
def daysFromCivil (year mon day : Int) : Int :=
  let y := year - (if mon ≤ 1 then 1 else 0)
  let era := Int.tdiv (if 0 ≤ y then y else y - 399) 400
  -- `unsigned` from here on
  let yoe := (y - era * 400) % 2 ^ 32
  let doy :=
    (Int.tdiv (153 * (mon + (if 1 < mon then -2 else 10)) + 2) 5 +
      day - 1) % 2 ^ 32
  let doe := (yoe * 365 + yoe / 4 - yoe / 100 + doy) % 2 ^ 32
  era * 146097 + Int.bmod doe (2 ^ 32) - 719468

def parseHttpDate (scanner : DateScanner) (text : Bytes) : Option Int :=
  match scanner.fixdate text <|> scanner.asctime text with
  | none => none
  | some date =>
      match kMonths.findIdx? (· == date.month) with
      | none => none
      | some mon =>
          let year :=
            if date.year < 70 then date.year + 2000
            else if date.year < 100 then date.year + 1900
            else date.year
          some (daysFromCivil year mon date.day * 86400 +
            date.hour * 3600 + date.minute * 60 + date.second)

/-- RFC 6265 §5.1.4. -/
def defaultPath (requestPath : Bytes) : Bytes :=
  if requestPath.head? != some '/'.toUInt8 then ascii "/"
  else if requestPath.length = 1 then ascii "/"
  else
    match requestPath.findLast (· == '/'.toUInt8) with
    | some 0 => ascii "/"
    | some lastSlash => requestPath.take lastSlash
    | none => requestPath

/-- RFC 6265 §5.1.3. -/
def domainMatches (host cookieDomain : Bytes) : Bool :=
  equalsIgnoreCase host cookieDomain ||
    (decide (cookieDomain.length + 1 < host.length) &&
      host[host.length - cookieDomain.length - 1]? == some '.'.toUInt8 &&
      equalsIgnoreCase (host.drop (host.length - cookieDomain.length))
        cookieDomain)

/-- RFC 6265 §5.1.4. -/
def pathMatches (requestPath cookiePath : Bytes) : Bool :=
  if requestPath == cookiePath then true
  else if cookiePath.length < requestPath.length &&
      requestPath.take cookiePath.length == cookiePath then
    cookiePath.getLast? == some '/'.toUInt8 ||
      requestPath[cookiePath.length]? == some '/'.toUInt8
  else false

/-! ## `Cookie` -/

structure Cookie where
  name : Bytes := []
  value : Bytes := []
  domain : Bytes := []
  path : Bytes := []
  expires : Option Time := none
  secure : Bool := false
  httpOnly : Bool := false
  hostOnly : Bool := true
deriving DecidableEq

namespace Cookie

/-- What makes two cookies of a jar the same. -/
structure Key where
  name : Bytes
  domain : Bytes
  path : Bytes
deriving DecidableEq

def key (cookie : Cookie) : Key := ⟨cookie.name, cookie.domain, cookie.path⟩

def isExpired (cookie : Cookie) (now : Time) : Bool :=
  match cookie.expires with
  | some expires => expires ≤ now
  | none => false

def toCookiePair (cookie : Cookie) : Bytes :=
  cookie.name ++ ascii "=" ++ cookie.value

/-- The bytes that make a name malformed. -/
def isForbidden (char : UInt8) : Bool :=
  char ≤ 0x20 || char == ';'.toUInt8 || char == ','.toUInt8 ||
    char == '"'.toUInt8 || char == '\\'.toUInt8

/-- A `Domain` attribute, without a single leading dot. -/
def strippedDomain (value : Bytes) : Bytes :=
  let domain := lowercase value
  if 1 < domain.length && domain.head? == some '.'.toUInt8 then
    domain.tail
  else domain

/-- The name in front of the first `=` of an attribute, or all of it. -/
def attributeKey (attr : Bytes) : Bytes :=
  attr.takeWhile (· != '='.toUInt8)

def attributeValue (attr : Bytes) : Bytes :=
  trimWhitespace (attr.drop ((attributeKey attr).length + 1))

/-- What `Max-Age` sets: `std::strtoll` reads as `std::strtol` does. -/
def maxAge (now : Time) (value : Bytes) : Option Time :=
  let (seconds, size) := strtol value
  if size = 0 then none
  else if seconds ≤ 0 then some Time.unixEpoch
  else some (Time.fromUnixSeconds (Time.toUnixSeconds now + seconds))

/-- One attribute; `none` rejects the cookie. -/
def applyAttribute (scanner : DateScanner) (requestUrl : Url) (now : Time)
    (cookie : Cookie) (attr : Bytes) : Option Cookie :=
  let key := attributeKey attr
  let value := attributeValue attr
  if equalsIgnoreCase key (ascii "Domain") then
    if value.isEmpty then some cookie
    else if domainMatches (lowercase requestUrl.host)
        (strippedDomain value) then
      some { cookie with domain := strippedDomain value, hostOnly := false }
    else none
  else if equalsIgnoreCase key (ascii "Path") then
    if value.isEmpty then some cookie
    else if value.head? == some '/'.toUInt8 then
      some { cookie with path := value }
    else some { cookie with path := defaultPath requestUrl.path }
  else if equalsIgnoreCase key (ascii "Max-Age") then
    match maxAge now value with
    | some expires => some { cookie with expires := some expires }
    | none => some cookie
  else if equalsIgnoreCase key (ascii "Expires") then
    if cookie.expires.isSome then some cookie
    else
      match parseHttpDate scanner value with
      | some parsed =>
          some { cookie with expires := some (Time.fromUnixSeconds parsed) }
      | none => some cookie
  else if equalsIgnoreCase key (ascii "Secure") then
    some { cookie with secure := true }
  else if equalsIgnoreCase key (ascii "HttpOnly") then
    some { cookie with httpOnly := true }
  else some cookie

/-- What the loop over the attribute list skips in front of each of them. -/
def isSkipped (char : UInt8) : Bool :=
  char == ';'.toUInt8 || char == ' '.toUInt8 || char == '\t'.toUInt8

/-- The loop over the attribute list; `rest` is the text from `pos` on.
Every pass moves `pos`, so the length of the text is fuel enough. -/
def applyAttributes (scanner : DateScanner) (requestUrl : Url)
    (now : Time) : Nat → Bytes → Cookie → Option Cookie
  | 0, _, cookie => some cookie
  | fuel + 1, rest, cookie =>
      if rest.isEmpty then some cookie
      else
        let text := rest.dropWhile isSkipped
        let attr := text.takeWhile (· != ';'.toUInt8)
        (applyAttribute scanner requestUrl now cookie attr).bind
          (applyAttributes scanner requestUrl now fuel
            (text.drop (attr.length + 1)))

/-- The `name=value` pair in front of the first `;`. -/
def nameValue (text : Bytes) : Bytes :=
  text.takeWhile (· != ';'.toUInt8)

/-- The attribute list behind the first `;`. -/
def attributeList (text : Bytes) : Bytes :=
  text.drop ((nameValue text).length + 1)

/-- `Cookie::Parse` at the time `now`. -/
def parse (scanner : DateScanner) (now : Time) (setCookieValue : Bytes)
    (requestUrl : Url) : Option Cookie :=
  let nv := nameValue setCookieValue
  match nv.find (· == '='.toUInt8) 0 with
  | none => none
  | some eq =>
      let name := lowercase (nv.take eq)
      let defaultDomain := lowercase requestUrl.host
      if eq = 0 || name.any isForbidden || defaultDomain.isEmpty then none
      else
        applyAttributes scanner requestUrl now setCookieValue.length
          (attributeList setCookieValue)
          { name := name
            value := trimWhitespace (nv.drop (eq + 1))
            domain := defaultDomain
            path := defaultPath requestUrl.path }

end Cookie

def Cookie.matches (cookie : Cookie) (requestUrl : Url) (now : Time) : Bool :=
  if cookie.isExpired now then false
  else if cookie.secure &&
      !equalsIgnoreCase requestUrl.scheme (ascii "https") then false
  else if cookie.hostOnly then
    equalsIgnoreCase requestUrl.host cookie.domain &&
      pathMatches requestUrl.path cookie.path
  else
    domainMatches requestUrl.host cookie.domain &&
      pathMatches requestUrl.path cookie.path

/-! ## `CookieJar` -/

/-- `cookies_`. -/
abbrev CookieJar := List Cookie

namespace CookieJar

/-- `SetCookie` at the time `now`. -/
def setCookie (now : Time) (cookie : Cookie) (jar : CookieJar) : CookieJar :=
  if cookie.name.isEmpty then jar
  else if cookie.isExpired now then jar
  else Lib.put Cookie.key cookie jar

/-- `GetCookieHeader` at the time `now`. -/
def getCookieHeader (requestUrl : Url) (now : Time) (jar : CookieJar) : Bytes :=
  jar.foldl
    (fun header cookie =>
      if cookie.matches requestUrl now then
        (if header.isEmpty then header else header ++ ascii "; ") ++
          cookie.toCookiePair
      else header) []

end CookieJar

end Libnei.Http
