import Libnei.Http.Cookie
import Libnei.Lib.Search

/-!
# Where a parsed cookie is sent

A cookie parsed from a response of one URL, against the requests it is
attached to.  The attribute list is read twice: by the source's loop, and as
the pieces between its semicolons, with the white space around the name and
the value of each taken away (RFC 6265 §5.2).  The source takes it away from
the values only, and a cookie stays in its scope where the two readings agree
on what narrows it.
-/

namespace Libnei.Http

/-! ## Letter case and white space -/

theorem equalsIgnoreCase_iff {left right : Bytes} :
    equalsIgnoreCase left right = true ↔ lowercase left = lowercase right := by
  simp [equalsIgnoreCase]

theorem equalsIgnoreCase_other {text one other : Bytes}
    (same : equalsIgnoreCase text one = true)
    (apart : equalsIgnoreCase one other = false) :
    equalsIgnoreCase text other = false := by
  rw [equalsIgnoreCase_iff] at same
  rw [← apart, equalsIgnoreCase, equalsIgnoreCase, same]

theorem isSpace_toLower (char : UInt8) :
    isSpace (toLower char) = isSpace char := by
  have all : ∀ value : Fin 256, isSpace (toLower (UInt8.ofFin value)) =
      isSpace (UInt8.ofFin value) := by
    decide +kernel
  exact all char.toFin

@[simp] theorem lowercase_lowercase (text : Bytes) :
    lowercase (lowercase text) = lowercase text :=
  map_toLower_twice text

theorem trimWhitespace_of_equalsIgnoreCase {text word : Bytes}
    (same : equalsIgnoreCase text word = true)
    (solid : ∀ char ∈ lowercase word, isSpace char = false) :
    trimWhitespace text = text := by
  apply Lib.dropWhile_rdropWhile_eq_self
  intro char member
  rw [← isSpace_toLower]
  apply solid
  rw [← equalsIgnoreCase_iff.mp same]
  exact List.mem_map_of_mem member

/-! ## Domains and paths -/

/-- RFC 6265 §5.1.3: the domain itself, or a name below it. -/
def DomainMatch (host domain : Bytes) : Prop :=
  host = domain ∨ ∃ front, host = front ++ '.'.toUInt8 :: domain

/-- RFC 6265 §5.1.4: the cookie's path itself, or a path below it. -/
def PathMatch (requestPath cookiePath : Bytes) : Prop :=
  requestPath = cookiePath ∨
    ∃ rest, requestPath = cookiePath ++ rest ∧
      (cookiePath.getLast? = some '/'.toUInt8 ∨ rest.head? = some '/'.toUInt8)

theorem domainMatch_of_domainMatches {host domain : Bytes}
    (found : domainMatches host domain = true) :
    DomainMatch (lowercase host) (lowercase domain) := by
  simp only [domainMatches, Bool.or_eq_true, Bool.and_eq_true,
    decide_eq_true_eq, beq_iff_eq] at found
  rcases found with same | ⟨⟨longer, dot⟩, same⟩
  · exact Or.inl (equalsIgnoreCase_iff.mp same)
  · right
    refine ⟨lowercase (host.take (host.length - domain.length - 1)), ?_⟩
    have next : host.length - domain.length - 1 + 1 =
        host.length - domain.length := by omega
    have split : host = host.take (host.length - domain.length - 1) ++
          '.'.toUInt8 :: host.drop (host.length - domain.length) := by
      have cons := List.drop_eq_getElem_cons
        (List.getElem?_eq_some_iff.mp dot).1
      rw [(List.getElem?_eq_some_iff.mp dot).2, next] at cons
      rw [← cons, List.take_append_drop]
    rw [← equalsIgnoreCase_iff.mp same]
    conv_lhs => rw [split]
    simp only [lowercase, List.map_append, List.map_cons]
    rfl

theorem pathMatch_of_pathMatches {requestPath cookiePath : Bytes}
    (found : pathMatches requestPath cookiePath = true) :
    PathMatch requestPath cookiePath := by
  unfold pathMatches at found
  split at found
  case isTrue same => exact Or.inl (eq_of_beq same)
  case isFalse =>
    split at found
    case isFalse => exact absurd found Bool.false_ne_true
    case isTrue longer =>
      simp only [Bool.and_eq_true, decide_eq_true_eq, beq_iff_eq] at longer
      simp only [Bool.or_eq_true, beq_iff_eq] at found
      right
      refine ⟨requestPath.drop cookiePath.length, ?_, ?_⟩
      · conv_lhs => rw [← List.take_append_drop cookiePath.length requestPath]
        rw [longer.2]
      · rw [List.head?_drop]
        exact found

theorem PathMatch.trans {requestPath path cookiePath : Bytes}
    (below : PathMatch requestPath path) (above : PathMatch path cookiePath) :
    PathMatch requestPath cookiePath := by
  rcases above with rfl | ⟨rest, rfl, ends⟩
  · exact below
  · right
    rcases below with rfl | ⟨more, rfl, -⟩
    · exact ⟨rest, rfl, ends⟩
    · refine ⟨rest ++ more, List.append_assoc .., ends.imp_right ?_⟩
      intro slash
      rw [List.head?_append, slash]
      rfl

namespace Cookie

/-! ## The attributes of a text -/

def isBlank (char : UInt8) : Bool :=
  char == ' '.toUInt8 || char == '\t'.toUInt8

/-- The pieces between the semicolons, without the blanks in front. -/
def attributes (list : Bytes) : List Bytes :=
  (list.splitOnP (· == ';'.toUInt8)).map (List.dropWhile isBlank)

variable (rest : Bytes)

theorem attributes_semicolon :
    attributes (';'.toUInt8 :: rest) = [] :: attributes rest := by
  simp [attributes, List.splitOnP_cons_eq_if_modifyHead]

theorem attributes_blank {char : UInt8} (blank : isBlank char = true) :
    attributes (char :: rest) = attributes rest := by
  have inside : (char == ';'.toUInt8) = false := by
    rcases (by simpa [isBlank] using blank :
      char = ' '.toUInt8 ∨ char = '\t'.toUInt8) with rfl | rfl <;> rfl
  obtain ⟨first, others, split⟩ := List.exists_cons_of_ne_nil
    (List.splitOnP_ne_nil (· == ';'.toUInt8) rest)
  simp [attributes, List.splitOnP_cons_eq_if_modifyHead, inside, split, blank]

section

variable {attr : Bytes} (solid : ∀ char ∈ attr, (char == ';'.toUInt8) = false)

include solid

variable (flush : attr.dropWhile isBlank = attr)

include flush

theorem attributes_piece :
    attributes (attr ++ ';'.toUInt8 :: rest) = attr :: attributes rest := by
  rw [attributes, List.splitOnP_append_cons_of_forall_mem solid _ rfl]
  simp [attributes, flush]

theorem attributes_last :
    attributes attr = [attr] := by
  rw [attributes, List.splitOnP_eq_singleton solid]
  simp [flush]

end

section Run

variable (scanner : DateScanner) (requestUrl : Url) (now : Time)

@[simp] theorem applyAttribute_nil (cookie : Cookie) :
    applyAttribute scanner requestUrl now cookie [] = some cookie := by
  rfl

theorem foldlM_dropWhile_isSkipped (cookie : Cookie) :
    (attributes (rest.dropWhile isSkipped)).foldlM
        (applyAttribute scanner requestUrl now) cookie =
      (attributes rest).foldlM
        (applyAttribute scanner requestUrl now) cookie := by
  induction rest with
  | nil => rfl
  | cons char rest ih =>
    cases skipped : isSkipped char with
    | false => rw [List.dropWhile_cons_of_neg (by simp [skipped])]
    | true =>
      rw [List.dropWhile_cons_of_pos skipped, ih]
      cases blank : isBlank char with
      | true => rw [attributes_blank rest blank]
      | false =>
        have semicolon : char = ';'.toUInt8 := by
          simp only [isSkipped, isBlank, Bool.or_assoc] at *
          simpa [blank] using skipped
        rw [semicolon, attributes_semicolon]
        simp

/-- One pass of the loop takes the first attribute of what it skips to. -/
theorem foldlM_attribute {text : Bytes} (cookie : Cookie)
    (flush : ∀ char ∈ text.head?, isSkipped char = false) :
    (attributes text).foldlM (applyAttribute scanner requestUrl now)
        cookie =
      (applyAttribute scanner requestUrl now cookie
          (text.takeWhile (· != ';'.toUInt8))).bind
        ((attributes (text.drop
            ((text.takeWhile (· != ';'.toUInt8)).length + 1))).foldlM
          (applyAttribute scanner requestUrl now)) := by
  have solid : ∀ char ∈ text.takeWhile (· != ';'.toUInt8),
      (char == ';'.toUInt8) = false := by
    intro char member
    simpa using List.mem_takeWhile_imp member
  have unblank : (text.takeWhile (· != ';'.toUInt8)).dropWhile isBlank =
      text.takeWhile (· != ';'.toUInt8) := by
    cases text with
    | nil => rfl
    | cons char rest =>
      have kept : isSkipped char = false := flush char rfl
      have parts : char ≠ ';'.toUInt8 ∧ isBlank char = false := by
        simpa [isSkipped, isBlank, and_assoc] using kept
      rw [List.takeWhile_cons_of_pos (by simpa using parts.1)]
      exact List.dropWhile_cons_of_neg (by simp [parts.2])
  have split := List.takeWhile_append_dropWhile
    (p := (· != ';'.toUInt8)) (l := text)
  generalize text.takeWhile (· != ';'.toUInt8) = attr at *
  cases behind : text.dropWhile (· != ';'.toUInt8) with
  | nil =>
    rw [behind, List.append_nil] at split
    rw [← split, attributes_last solid unblank,
      List.drop_eq_nil_of_le (Nat.le_succ _)]
    simp [attributes]
  | cons semicolon rest =>
    have found : semicolon = ';'.toUInt8 := by
      have stopped := List.head?_dropWhile_not
        (· != ';'.toUInt8) text
      rw [behind] at stopped
      simpa using stopped
    rw [behind, found] at split
    rw [← split, attributes_piece rest solid unblank, List.drop_append,
      List.drop_eq_nil_of_le (Nat.le_succ _)]
    simp

theorem applyAttributes_eq_foldlM (fuel : Nat) (rest : Bytes)
    (cookie : Cookie) (enough : rest.length ≤ fuel) :
    applyAttributes scanner requestUrl now fuel rest cookie =
      (attributes rest).foldlM
        (applyAttribute scanner requestUrl now) cookie := by
  induction fuel generalizing rest cookie with
  | zero =>
    rw [List.eq_nil_of_length_eq_zero (Nat.le_zero.mp enough)]
    rfl
  | succ fuel ih =>
    cases rest with
    | nil => rfl
    | cons char rest =>
      have flush : ∀ first ∈ ((char :: rest).dropWhile isSkipped).head?,
          isSkipped first = false := by
        intro first member
        have stopped := List.head?_dropWhile_not isSkipped (char :: rest)
        rw [member] at stopped
        simpa using stopped
      have shorter : ∀ taken, (((char :: rest).dropWhile isSkipped).drop
            (taken + 1)).length ≤ fuel := by
        intro taken
        have bound := (List.dropWhile_sublist isSkipped
          (l := char :: rest)).length_le
        simp only [List.length_drop, List.length_cons] at *
        omega
      rw [← foldlM_dropWhile_isSkipped, foldlM_attribute _ _ _ _ flush]
      simp only [applyAttributes, List.isEmpty_cons,
        Bool.false_eq_true, if_false]
      congr 1
      funext next
      exact ih _ next (shorter _)

end Run

/-! ## What an attribute does -/

/-- The source's test of a name. -/
def isKey (name : String) (attr : Bytes) : Bool :=
  equalsIgnoreCase (attributeKey attr) (ascii name)

/-- The path that a `Path` attribute asks for. -/
def pathFor (requestUrl : Url) (value : Bytes) : Bytes :=
  if value.head? == some '/'.toUInt8 then value
  else defaultPath requestUrl.path

def pathAfter (requestUrl : Url) (path attr : Bytes) : Bytes :=
  if isKey "Path" attr && !(attributeValue attr).isEmpty then
    pathFor requestUrl (attributeValue attr)
  else path

structure Applied (requestUrl : Url) (attr : Bytes)
    (before after : Cookie) : Prop where
  name : after.name = before.name
  secure : after.secure = (before.secure || isKey "Secure" attr)
  path : after.path = pathAfter requestUrl before.path attr
  domain : (after.hostOnly = before.hostOnly ∧ after.domain = before.domain) ∨
    (after.hostOnly = false ∧
      domainMatches (lowercase requestUrl.host) after.domain = true ∧
      isKey "Domain" attr = true)

variable {requestUrl : Url} {scanner : DateScanner} {now : Time}
  {before after : Cookie} {attr text : Bytes}

/-- An attribute that is neither `Secure` nor a `Path` with a value, and
leaves these fields alone. -/
theorem Applied.of_frame (name : after.name = before.name)
    (secure : after.secure = before.secure) (path : after.path = before.path)
    (hostOnly : after.hostOnly = before.hostOnly)
    (domain : after.domain = before.domain)
    (notSecure : isKey "Secure" attr = false)
    (noPath : isKey "Path" attr = false ∨
      (attributeValue attr).isEmpty = true) :
    Applied requestUrl attr before after := by
  refine ⟨name, ?_, ?_, Or.inl ⟨hostOnly, domain⟩⟩
  · rw [secure, notSecure, Bool.or_false]
  · rw [path, pathAfter]
    rcases noPath with other | empty
    · simp [other]
    · simp [empty]

theorem applied (result : applyAttribute scanner requestUrl now before attr =
      some after) :
    Applied requestUrl attr before after := by
  unfold applyAttribute at result
  dsimp only at result
  split at result
  case isTrue domain =>
    have notSecure : isKey "Secure" attr = false :=
      equalsIgnoreCase_other domain (by decide)
    have notPath : isKey "Path" attr = false :=
      equalsIgnoreCase_other domain (by decide)
    split at result
    · cases result
      exact .of_frame rfl rfl rfl rfl rfl notSecure (Or.inl notPath)
    · split at result
      case isTrue matched =>
        cases result
        refine ⟨rfl, ?_, ?_, Or.inr ⟨rfl, matched, domain⟩⟩
        · rw [notSecure, Bool.or_false]
        · simp [pathAfter, notPath]
      case isFalse => cases result
  case isFalse notDomain =>
    split at result
    case isTrue path =>
      have notSecure : isKey "Secure" attr = false :=
        equalsIgnoreCase_other path (by decide)
      have isPath : isKey "Path" attr = true := path
      split at result
      case isTrue empty =>
        cases result
        exact .of_frame rfl rfl rfl rfl rfl notSecure (Or.inr empty)
      case isFalse nonempty =>
        split at result <;> rename_i rooted <;> cases result
        all_goals
          refine ⟨rfl, ?_, ?_, Or.inl ⟨rfl, rfl⟩⟩
          · rw [notSecure, Bool.or_false]
          · simp [pathAfter, pathFor, isPath, nonempty, rooted]
    case isFalse notPath =>
      have notPath : isKey "Path" attr = false :=
        eq_false_of_ne_true notPath
      split at result
      case isTrue maxAge =>
        have notSecure : isKey "Secure" attr = false :=
          equalsIgnoreCase_other maxAge (by decide)
        split at result <;> cases result <;>
          exact .of_frame rfl rfl rfl rfl rfl notSecure (Or.inl notPath)
      case isFalse =>
        split at result
        case isTrue expires =>
          have notSecure : isKey "Secure" attr = false :=
            equalsIgnoreCase_other expires (by decide)
          split at result
          · cases result
            exact .of_frame rfl rfl rfl rfl rfl notSecure (Or.inl notPath)
          · split at result <;> cases result <;>
              exact .of_frame rfl rfl rfl rfl rfl notSecure
                (Or.inl notPath)
        case isFalse =>
          split at result
          case isTrue secure =>
            have isSecure : isKey "Secure" attr = true := secure
            cases result
            refine ⟨rfl, ?_, ?_, Or.inl ⟨rfl, rfl⟩⟩
            · rw [isSecure, Bool.or_true]
            · simp [pathAfter, notPath]
          case isFalse notSecure =>
            have notSecure : isKey "Secure" attr = false :=
              eq_false_of_ne_true notSecure
            split at result <;> cases result <;>
              exact .of_frame rfl rfl rfl rfl rfl notSecure
                (Or.inl notPath)

/-! ## What all of them do -/

structure AppliedAll (requestUrl : Url) (attrs : List Bytes)
    (before after : Cookie) : Prop where
  name : after.name = before.name
  secure : after.secure = (before.secure || attrs.any (isKey "Secure"))
  path : after.path = attrs.foldl (pathAfter requestUrl) before.path
  domain : (after.hostOnly = before.hostOnly ∧ after.domain = before.domain) ∨
    (after.hostOnly = false ∧
      domainMatches (lowercase requestUrl.host) after.domain = true ∧
      attrs.any (isKey "Domain") = true)

variable {attrs : List Bytes} {cookie : Cookie} {name : String}

theorem appliedAll
    (result : attrs.foldlM (applyAttribute scanner requestUrl now) before =
      some after) :
    AppliedAll requestUrl attrs before after := by
  induction attrs generalizing before with
  | nil =>
    cases result
    exact ⟨rfl, by simp, rfl, Or.inl ⟨rfl, rfl⟩⟩
  | cons attr attrs ih =>
    rw [List.foldlM_cons] at result
    obtain ⟨next, first, rest⟩ := Option.bind_eq_some_iff.mp result
    have here := applied first
    have behind := ih rest
    refine ⟨?_, ?_, ?_, ?_⟩
    · rw [behind.name, here.name]
    · rw [behind.secure, here.secure, List.any_cons, Bool.or_assoc]
    · rw [behind.path, here.path, List.foldl_cons]
    · rcases behind.domain with ⟨hostOnly, domain⟩ | ⟨open', found, key⟩
      · rcases here.domain with kept | ⟨open', found, key⟩
        · exact Or.inl ⟨hostOnly.trans kept.1, domain.trans kept.2⟩
        · refine Or.inr ⟨hostOnly.trans open', ?_, by simp [key]⟩
          rw [domain]
          exact found
      · exact Or.inr ⟨open', found, by simp [key]⟩

/-- What `Parse` makes of a text. -/
structure Parsed (requestUrl : Url) (attrs : List Bytes)
    (cookie : Cookie) : Prop where
  named : cookie.name ≠ []
  secure : cookie.secure = attrs.any (isKey "Secure")
  path : cookie.path =
    attrs.foldl (pathAfter requestUrl) (defaultPath requestUrl.path)
  domain : (cookie.hostOnly = true ∧
      cookie.domain = lowercase requestUrl.host) ∨
    (cookie.hostOnly = false ∧
      domainMatches (lowercase requestUrl.host) cookie.domain = true ∧
      attrs.any (isKey "Domain") = true)

theorem parsed (result : parse scanner now text requestUrl = some cookie) :
    Parsed requestUrl (attributes (attributeList text)) cookie := by
  unfold parse at result
  dsimp only at result
  split at result
  case h_1 => cases result
  case h_2 position found =>
    split at result
    case isTrue => cases result
    case isFalse accepted =>
      have enough : (attributeList text).length ≤ text.length := by
        rw [attributeList, List.length_drop]
        omega
      rw [applyAttributes_eq_foldlM _ _ _ _ _ _ enough] at result
      have all := appliedAll result
      refine ⟨?_, by simpa using all.secure, all.path, all.domain⟩
      have inside : position < (nameValue text).length := by
        simp only [Bytes.find, List.drop_zero, Option.map_eq_some_iff,
          List.findIdx?_eq_some_iff_getElem] at found
        obtain ⟨index, ⟨bound, _⟩, rfl⟩ := found
        omega
      have positive : position ≠ 0 := by
        intro zero
        simp [zero] at accepted
      rw [all.name]
      apply List.ne_nil_of_length_pos
      simp only [lowercase, List.length_map, List.length_take]
      omega

/-! ## The scope of a cookie -/

/-- The name of an attribute is `name`, whatever white space is around. -/
def isNamed (name : String) (attr : Bytes) : Bool :=
  equalsIgnoreCase (trimWhitespace (attributeKey attr)) (ascii name)

/-- The path of the last `Path` attribute, or the default path. -/
def scopePath (requestUrl : Url) (attrs : List Bytes) : Bytes :=
  match (attrs.filter (isNamed "Path")).getLast? with
  | some attr => pathFor requestUrl (attributeValue attr)
  | none => defaultPath requestUrl.path

/-- The requests to `other` that may carry a cookie set by `requestUrl`. -/
structure InScope (requestUrl other : Url) (attrs : List Bytes)
    (cookie : Cookie) : Prop where
  hostOnly : attrs.any (isNamed "Domain") = false →
    lowercase other.host = lowercase requestUrl.host
  host : lowercase other.host = lowercase requestUrl.host ∨
    (DomainMatch (lowercase requestUrl.host) (lowercase cookie.domain) ∧
      DomainMatch (lowercase other.host) (lowercase cookie.domain))
  scheme : attrs.any (isNamed "Secure") = true →
    lowercase other.scheme = ascii "https"
  path : PathMatch other.path (scopePath requestUrl attrs)

/-- The path of the last `Path` attribute that has a value and no white space
around its name, or the default path. -/
def plainPath (requestUrl : Url) (attrs : List Bytes) : Bytes :=
  match (attrs.filter fun attr =>
      isKey "Path" attr && !(attributeValue attr).isEmpty).getLast? with
  | some attr => pathFor requestUrl (attributeValue attr)
  | none => defaultPath requestUrl.path

/-- One `Secure`, if there is any, is written without white space around it,
and the last plain `Path` with a value narrows the scope as much as the last
one does. -/
structure Plain (requestUrl : Url) (attrs : List Bytes) : Prop where
  secure : attrs.any (isNamed "Secure") = true →
    attrs.any (isKey "Secure") = true
  path : PathMatch (plainPath requestUrl attrs) (scopePath requestUrl attrs)

theorem isNamed_of_isKey
    (solid : ∀ char ∈ lowercase (ascii name), isSpace char = false)
    (key : isKey name attr = true) : isNamed name attr = true := by
  rw [isNamed, trimWhitespace_of_equalsIgnoreCase key solid]
  exact key

/-- The path of the loop is that of the last plain `Path` with a value. -/
theorem foldl_pathAfter (requestUrl : Url) (attrs : List Bytes) :
    attrs.foldl (pathAfter requestUrl) (defaultPath requestUrl.path) =
      plainPath requestUrl attrs := by
  unfold plainPath
  induction attrs using List.reverseRecOn with
  | nil => rfl
  | append_singleton attrs attr ih =>
    rw [List.foldl_append, List.filter_append]
    cases found : isKey "Path" attr && !(attributeValue attr).isEmpty with
    | true => simp [pathAfter, found]
    | false => simp [pathAfter, found, ih]

theorem matches_parts {other : Url} {later : Time}
    (sent : cookie.matches other later = true) :
    (cookie.secure = true → lowercase other.scheme = ascii "https") ∧
      (if cookie.hostOnly then equalsIgnoreCase other.host cookie.domain
        else domainMatches other.host cookie.domain) = true ∧
      pathMatches other.path cookie.path = true := by
  unfold Cookie.matches at sent
  split at sent
  case isTrue => cases sent
  case isFalse =>
    split at sent
    case isTrue => cases sent
    case isFalse scheme =>
      refine ⟨?_, ?_⟩
      · intro secure
        have same : equalsIgnoreCase other.scheme (ascii "https") = true := by
          simpa [secure] using scheme
        exact equalsIgnoreCase_iff.mp same
      · split at sent <;> rename_i hostOnly <;>
          simpa [hostOnly] using sent

theorem exists_url (scheme host path : Bytes) :
    ∃ url : Url, url.scheme = scheme ∧ url.host = host ∧ url.path = path := by
  have part : ∀ front middle back : Bytes,
      (if front.length < front.length + middle.length then
        (front ++ (middle ++ back)).slice front.length
          (front.length + middle.length) else []) = middle := by
    intro front middle back
    split
    case isTrue => simp [Bytes.slice]
    case isFalse empty =>
      exact (List.eq_nil_of_length_eq_zero (by omega)).symm
  refine ⟨{ spec := scheme ++ (host ++ path)
            schemeSpan := ⟨0, 0 + scheme.length⟩
            hostSpan := ⟨scheme.length, scheme.length + host.length⟩
            pathSpan := ⟨(scheme ++ host).length,
              (scheme ++ host).length + path.length⟩ }, ?_, ?_, ?_⟩
  · exact part [] scheme (host ++ path)
  · exact part scheme host path
  · have last := part (scheme ++ host) path []
    rw [List.append_nil, List.append_assoc] at last
    exact last

/-- A cookie is attached to requests for its own domain and path. -/
theorem exists_matches (cookie : Cookie) :
    ∃ later, ∀ scheme : Bytes,
      (cookie.secure = true → lowercase scheme = ascii "https") →
      ∃ other : Url, other.scheme = scheme ∧ other.path = cookie.path ∧
        cookie.matches other later = true := by
  obtain ⟨later, fresh⟩ : ∃ later, cookie.isExpired later = false := by
    unfold isExpired
    cases cookie.expires with
    | none => exact ⟨0, rfl⟩
    | some expires => exact ⟨expires - 1, by simp⟩
  refine ⟨later, fun scheme https => ?_⟩
  have secure : (cookie.secure &&
      !equalsIgnoreCase scheme (ascii "https")) = false := by
    cases on : cookie.secure with
    | false => rfl
    | true =>
      have same : equalsIgnoreCase scheme (ascii "https") = true :=
        equalsIgnoreCase_iff.mpr (https on)
      rw [same]
      rfl
  obtain ⟨other, rfl, host, path⟩ := exists_url scheme cookie.domain
    cookie.path
  refine ⟨other, rfl, path, ?_⟩
  unfold Cookie.matches
  rw [fresh, secure, host, path]
  simp [equalsIgnoreCase, domainMatches, pathMatches]

/-- The requests that a cookie is attached to are in its scope if and only if
the names that narrow it are plain.  The hosts need no condition. -/
theorem sent_in_scope (scanner : DateScanner) (now : Time) (text : Bytes)
    (requestUrl : Url) (cookie : Cookie)
    (accepted : parse scanner now text requestUrl = some cookie) :
    (∀ other later, cookie.matches other later = true →
      InScope requestUrl other (attributes (attributeList text)) cookie) ↔
      Plain requestUrl (attributes (attributeList text)) := by
  have made := parsed accepted
  generalize attributes (attributeList text) = attrs at *
  have asked : cookie.path = plainPath requestUrl attrs := by
    rw [made.path, foldl_pathAfter]
  constructor
  · intro inScope
    obtain ⟨later, sent⟩ := exists_matches cookie
    constructor
    · intro named
      rw [← made.secure]
      refine Bool.of_not_eq_false fun off => ?_
      obtain ⟨other, scheme, -, matched⟩ := sent (ascii "http") fun on => by
        rw [off] at on
        cases on
      have https := (inScope other later matched).scheme named
      rw [scheme] at https
      exact absurd https (by decide)
    · obtain ⟨other, -, path, matched⟩ := sent (ascii "https") fun _ => rfl
      rw [← asked, ← path]
      exact (inScope other later matched).path
  · intro plain other later sent
    obtain ⟨scheme, host, path⟩ := matches_parts sent
    have hosts : lowercase other.host = lowercase requestUrl.host ∨
        (attrs.any (isKey "Domain") = true ∧
          DomainMatch (lowercase requestUrl.host) (lowercase cookie.domain) ∧
          DomainMatch (lowercase other.host) (lowercase cookie.domain)) := by
      rcases made.domain with ⟨hostOnly, domain⟩ | ⟨open', found, key⟩
      · left
        simp only [hostOnly, if_true, domain] at host
        simpa using equalsIgnoreCase_iff.mp host
      · right
        simp only [open', Bool.false_eq_true, if_false] at host
        refine ⟨key, ?_, domainMatch_of_domainMatches host⟩
        simpa using domainMatch_of_domainMatches found
    refine ⟨?_, hosts.imp_right And.right, ?_, ?_⟩
    · intro none
      rcases hosts with same | ⟨key, _⟩
      · exact same
      · obtain ⟨attr, member, isDomain⟩ := List.any_eq_true.mp key
        have named := isNamed_of_isKey (by decide +kernel) isDomain
        exact absurd named
          (by simpa using List.any_eq_false.mp none attr member)
    · intro named
      apply scheme
      rw [made.secure]
      exact plain.secure named
    · rw [asked] at path
      exact (pathMatch_of_pathMatches path).trans plain.path

/-! ### Cookies of `example.com` -/

/-- Dates that no `std::sscanf` recognises. -/
def noDates : DateScanner := ⟨fun _ => none, fun _ => none⟩

/-- Of two `Secure` one is plain. -/
def sampleText : Bytes :=
  ascii "Sid=1; Secure ; domain=.Example.com; Path=/a; Secure"

theorem sampleText_in_scope :
    InScope (Url.parse (ascii "https://www.example.com/x"))
      (Url.parse (ascii "https://api.example.com/a/b"))
      (attributes (attributeList sampleText))
      { name := ascii "sid", value := ascii "1"
        domain := ascii "example.com", path := ascii "/a"
        secure := true, hostOnly := false } := by
  refine (sent_in_scope noDates 0 sampleText _ _ ?_).mpr ?_ _ 0 ?_
  · decide +kernel
  · exact ⟨by decide +kernel, .inl (by decide +kernel)⟩
  · decide +kernel

/-- A blank behind `Secure` makes the cookie an ordinary one. -/
def sampleBlank : Bytes := ascii "sid=1; Secure ; Path=/"

theorem sampleBlank_leaks :
    ∃ cookie,
      parse noDates 0 sampleBlank
          (Url.parse (ascii "https://example.com/")) = some cookie ∧
        cookie.matches (Url.parse (ascii "http://example.com/")) 0 =
          true ∧
        ¬ InScope (Url.parse (ascii "https://example.com/"))
          (Url.parse (ascii "http://example.com/"))
          (attributes (attributeList sampleBlank)) cookie := by
  refine ⟨{ name := ascii "sid", value := ascii "1"
            domain := ascii "example.com", path := ascii "/" }, ?_, ?_, ?_⟩
  · decide +kernel
  · decide +kernel
  · intro scope
    have secure : (attributes (attributeList sampleBlank)).any
        (isNamed "Secure") = true := by decide +kernel
    exact absurd (scope.scheme secure) (by decide +kernel)

/-- An empty `Path` leaves an earlier one in force. -/
example : (parse noDates 0 (ascii "sid=1; Path=/a; Path=")
        (Url.parse (ascii "https://example.com/b/c"))).map Cookie.path =
      some (ascii "/a") ∧
    scopePath (Url.parse (ascii "https://example.com/b/c"))
        (attributes (attributeList (ascii "sid=1; Path=/a; Path="))) =
      ascii "/b" := by
  decide +kernel

end Cookie

end Libnei.Http
