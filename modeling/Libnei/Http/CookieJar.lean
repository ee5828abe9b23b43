import Libnei.Http.Cookie

/-!
# What a cookie jar holds

A jar after any history of `SetCookie` calls.  An expired cookie is turned
away before the stored ones are looked at, so it never replaces one: the jar
holds the last cookie that was fresh when it was set, which is the last one
set unless that one was meant to delete an earlier one.
-/

namespace Libnei.Http

/-- One call of `SetCookie`. -/
structure SetCall where
  now : Time
  cookie : Cookie
deriving DecidableEq

namespace SetCall

def expired (call : SetCall) : Bool := call.cookie.isExpired call.now

/-- The calls `SetCookie` does not turn away. -/
def stored (call : SetCall) : Bool :=
  !call.cookie.name.isEmpty && !call.expired

end SetCall

namespace CookieJar

def after (calls : List SetCall) : CookieJar :=
  calls.foldl (fun jar call => setCookie call.now call.cookie jar) []

def held (key : Cookie.Key) (jar : CookieJar) : Option Cookie :=
  Lib.entry Cookie.key key jar

def callsFor (key : Cookie.Key) (calls : List SetCall) : List SetCall :=
  calls.filter fun call => call.cookie.key = key

/-- What a jar is for: the cookie set last, and none if that one was already
expired. -/
def lastSet (key : Cookie.Key) (calls : List SetCall) : Option Cookie :=
  match (callsFor key calls).getLast? with
  | some call => if call.expired then none else some call.cookie
  | none => none

/-- The last call was to delete what an earlier one had stored. -/
abbrev LastDeletes (key : Cookie.Key) (calls : List SetCall) : Prop :=
  (∃ call ∈ (callsFor key calls).getLast?, call.expired = true) ∧
    ∃ call ∈ callsFor key calls, call.expired = false

theorem setCookie_eq (call : SetCall) (jar : CookieJar) :
    setCookie call.now call.cookie jar =
      if call.stored then Lib.put Cookie.key call.cookie jar else jar := by
  unfold setCookie SetCall.stored SetCall.expired
  cases call.cookie.name.isEmpty <;>
    cases call.cookie.isExpired call.now <;> simp

variable (calls : List SetCall)

theorem after_concat (call : SetCall) : after (calls ++ [call]) =
      if call.stored then Lib.put Cookie.key call.cookie (after calls)
      else after calls := by
  simp only [after, List.foldl_append, List.foldl_cons, List.foldl_nil,
    setCookie_eq]

theorem after_eq_putAll : after calls = Lib.putAll Cookie.key
        ((calls.filter SetCall.stored).map SetCall.cookie) := by
  induction calls using List.reverseRecOn with
  | nil => rfl
  | append_singleton calls call ih =>
    rw [after_concat, List.filter_append]
    cases fresh : call.stored with
    | false => simp [fresh, ih]
    | true => simp [fresh, ih, Lib.putAll_concat]

theorem nodup_after : ((after calls).map Cookie.key).Nodup := by
  rw [after_eq_putAll]
  exact Lib.nodup_putAll Cookie.key _

variable {key : Cookie.Key}

/-- The jar holds the last cookie that was fresh when it was set. -/
theorem held_after (named : key.name ≠ []) (calls : List SetCall) :
    held key (after calls) =
      (((callsFor key calls).filter fun call => !call.expired).getLast?).map
        SetCall.cookie := by
  have kept : ∀ call ∈ calls, (call.stored && decide (call.cookie.key = key)) =
        (!call.expired && decide (call.cookie.key = key)) := by
    intro call _
    by_cases same : call.cookie.key = key
    · have nonempty : call.cookie.name.isEmpty = false := by
        rw [← same] at named
        simpa [Cookie.key] using named
      simp [SetCall.stored, nonempty]
    · simp [same]
  rw [held, after_eq_putAll, Lib.entry_putAll, List.filter_map,
    List.getLast?_map, callsFor, List.filter_filter, List.filter_filter]
  simp only [Function.comp_def]
  congr 2
  apply List.filter_congr
  intro call member
  rw [Bool.and_comm, kept call member]

theorem held_eq_lastSet_iff (named : key.name ≠ []) (calls : List SetCall) :
    held key (after calls) = lastSet key calls ↔ ¬ LastDeletes key calls := by
  rw [held_after named, lastSet, LastDeletes]
  rcases List.eq_nil_or_concat (callsFor key calls) with none | some
  · simp [none]
  · obtain ⟨earlier, last, split⟩ := some
    rw [List.concat_eq_append] at split
    rw [split, List.getLast?_append, List.getLast?_singleton,
      Option.some_or, List.filter_append]
    cases fresh : last.expired with
    | false => simp [fresh]
    | true => simp [fresh]

theorem held_nameless (nameless : key.name = []) (calls : List SetCall) :
    held key (after calls) = none := by
  have turned : ∀ call ∈ calls, ¬(decide (call.cookie.key = key) = true ∧
      call.stored = true) := by
    rintro call - ⟨same, stored⟩
    rw [← of_decide_eq_true same] at nameless
    simp [SetCall.stored, show call.cookie.name = [] from nameless] at stored
  rw [held, after_eq_putAll, Lib.entry_putAll, List.filter_map,
    List.getLast?_map, List.filter_filter, List.filter_eq_nil_iff.mpr]
  · rfl
  · simpa using turned

/-- At most one cookie for each name, domain and path; and the cookie set last,
exactly when the last call was not meant to delete an earlier one, or when
there is neither a name nor a cookie set last. -/
theorem jar_holds_last_set (calls : List SetCall) :
    ((after calls).map Cookie.key).Nodup ∧
      ∀ key : Cookie.Key,
        (held key (after calls) = lastSet key calls ↔
          if key.name = [] then lastSet key calls = none
          else ¬ LastDeletes key calls) := by
  refine ⟨nodup_after calls, fun key => ?_⟩
  split
  case isTrue nameless =>
    rw [held_nameless nameless]
    exact eq_comm
  case isFalse named => exact held_eq_lastSet_iff named calls

/-! ### A cookie of `example.com` -/

def sampleCalls (sent : List String) : List SetCall :=
  sent.zipIdx.flatMap fun (text, second) =>
    ((Cookie.parse ⟨fun _ => none, fun _ => none⟩
        (Time.fromUnixSeconds second) (ascii text)
        (Url.parse (ascii "https://example.com/"))).map fun cookie =>
      ⟨Time.fromUnixSeconds second, cookie⟩).toList

def sampleKey : Cookie.Key := ⟨ascii "id", ascii "example.com", ascii "/"⟩

def sampleReplaced : List SetCall := sampleCalls ["id=1", "id=2; Max-Age=9"]

theorem sampleReplaced_held :
    held sampleKey (after sampleReplaced) =
        lastSet sampleKey sampleReplaced ∧
      (held sampleKey (after sampleReplaced)).map Cookie.value =
        some (ascii "2") := by
  have named : sampleKey.name ≠ [] := by decide
  have fresh : ¬ LastDeletes sampleKey sampleReplaced := by decide +kernel
  constructor
  · rw [(jar_holds_last_set sampleReplaced).2, if_neg named]
    exact fresh
  · decide +kernel

/-- A cookie that the server deletes, as `Max-Age=0` asks for. -/
def sampleDeleted : List SetCall := sampleCalls ["id=1", "id=; Max-Age=0"]

theorem sampleDeleted_held :
    lastSet sampleKey sampleDeleted = none ∧
      held sampleKey (after sampleDeleted) ≠ none ∧
      getCookieHeader (Url.parse (ascii "https://example.com/"))
          (Time.fromUnixSeconds 2) (after sampleDeleted) =
        ascii "id=1" := by
  decide +kernel

end CookieJar

end Libnei.Http
