import Libnei.Url

/-!
# Reference resolution

`Url::Resolve`, `NormalizePathSegments` and `Url::origin` (`url.cpp`).
-/

namespace Libnei

/-- What one segment does to the segments that are kept. -/
def pushSegment (segments : List Bytes) (segment : Bytes) : List Bytes :=
  if segment == ascii ".." then segments.dropLast
  else if segment != ascii "." && !segment.isEmpty then
    segments ++ [segment]
  else segments

/-- The splitting loop of `NormalizePathSegments`. -/
def splitSegments (path : Bytes) (segments : List Bytes) : List Bytes :=
  if path.isEmpty then segments
  else
    match path.find (· == '/'.toUInt8) 0 with
    | none => pushSegment segments path
    | some position =>
        splitSegments (path.drop (position + 1))
          (pushSegment segments (path.take position))
termination_by path.length
decreasing_by
  rename_i nonempty
  have positive : 0 < path.length := by
    cases path with
    | nil => exact absurd rfl nonempty
    | cons char rest => exact Nat.succ_pos _
  rw [List.length_drop]
  omega

def normalizePathSegments (path : Bytes) : Bytes :=
  if path.isEmpty then ascii "/"
  else
    let rooted := path.head? == some '/'.toUInt8
    let segments :=
      splitSegments (if rooted then path.drop 1 else path) []
    let result :=
      (if rooted then ascii "/" else []) ++
        (segments.intersperse (ascii "/")).flatten
    if path.getLast? == some '/'.toUInt8 && !result.isEmpty &&
        result.getLast? != some '/'.toUInt8 then
      result ++ ascii "/"
    else result

namespace Url

def port (url : Url) : Nat := url.portValue

/-- `:port`, unless it is the one of the scheme. -/
def explicitPort (url : Url) : Bytes :=
  if url.portExplicit && url.portValue != defaultPortForScheme url.scheme
  then ':'.toUInt8 :: digits 10 url.portValue
  else []

def origin (url : Url) : Bytes :=
  if url.spec.isEmpty || url.scheme.isEmpty || url.host.isEmpty then []
  else url.scheme ++ ascii "://" ++ url.host ++ url.explicitPort

/-- A component behind its mark, if it is not empty. -/
def marked (mark : Char) (component : Bytes) : Bytes :=
  if component.isEmpty then [] else mark.toUInt8 :: component

/-- The base path up to its last slash. -/
def directory (url : Url) : Bytes :=
  let path := url.spec.slice url.pathSpan.first url.pathSpan.last
  match path.findLast (· == '/'.toUInt8) with
  | some slash => path.take (slash + 1)
  | none => ascii "/"

def resolve (url : Url) (relative : Bytes) : Url :=
  if relative.isEmpty then url
  else
    let ref := parse relative
    if !ref.valid then url
    else if !ref.scheme.isEmpty then ref
    else if !ref.host.isEmpty then
      parse (url.scheme ++ ascii "://" ++ ref.spec.drop ref.hostSpan.first)
    else if ref.path.isEmpty then
      parse (url.spec.take url.pathSpan.last ++ marked '?' ref.query ++
        marked '#' ref.fragment)
    else if ref.path.head? == some '/'.toUInt8 then
      parse (url.scheme ++ ascii "://" ++ url.host ++ url.explicitPort ++
        ref.spec.drop ref.pathSpan.first)
    else
      parse (url.scheme ++ ascii "://" ++ url.host ++ url.explicitPort ++
        normalizePathSegments (url.directory ++ ref.path) ++
          marked '?' ref.query ++ marked '#' ref.fragment)

end Url

end Libnei
