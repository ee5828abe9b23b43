import Libnei.Lib.Actions
import Libnei.Log.Serialize

/-!
# The cache of format plans

A plan has the conversions of a format in the order in which the scanner meets
them.  It is found again by the address of the format alone, so it stands for
the text there only as long as the text has the same conversions.
-/

namespace Libnei.Log.Events

open Lib

variable {fmt : Bytes} {ops : List PlanOp} {address : Nat}
  {cache : FmtPlanCache}

section Conversions

variable {σ : Type} (emit : σ → PayloadType → LengthModifier → Option σ)

def emitAll : σ → List PlanOp → Option σ
  | state, [] => some state
  | state, (type, modifier) :: ops =>
      (emit state type modifier).bind (emitAll · ops)

theorem emitAll_append (state : σ) (ops others : List PlanOp) :
    emitAll emit state (ops ++ others) =
      (emitAll emit state ops).bind (emitAll emit · others) := by
  induction ops generalizing state with
  | nil => rfl
  | cons op ops ih =>
    rw [List.cons_append, emitAll, emitAll, Option.bind_assoc]
    congr
    funext next
    exact ih next

theorem emitAll_single (state : σ) (type : PayloadType)
    (modifier : LengthModifier) :
    emitAll emit state [(type, modifier)] = emit state type modifier := by
  rw [emitAll]
  cases emit state type modifier <;> rfl

/-- The callback that notes every conversion. -/
def note (ops : List PlanOp) (type : PayloadType)
    (modifier : LengthModifier) : Option (List PlanOp) :=
  some (ops ++ [(type, modifier)])

/-- The conversions of a format; a `%n` is refused. -/
def conversions (fmt : Bytes) : Except ScanFailure (List PlanOp) :=
  scanFmtEmitOps note fmt.length fmt []

theorem emitAll_note (ops others : List PlanOp) :
    emitAll note ops others = some (ops ++ others) := by
  induction others generalizing ops with
  | nil => rw [List.append_nil]; rfl
  | cons op others ih =>
    rw [emitAll, note, Option.bind_some, ih, List.append_assoc]
    rfl

/-! ## The scanner with any callback -/

theorem scanField_spec (p : Bytes) :
    ∃ ops rest, ∀ {σ : Type} (emit : σ → PayloadType → LengthModifier →
      Option σ) (state : σ), scanField emit state p =
        (emitAll emit state ops).map (·, rest) := by
  cases p with
  | nil => exact ⟨[], [], fun _ _ => rfl⟩
  | cons char p =>
    by_cases star : char = '*'.toUInt8
    · refine ⟨[(.i32, .plain)], p, fun emit state => ?_⟩
      rw [scanField, if_pos star, emitAll_single]
    · refine ⟨[], (char :: p).dropWhile isDigit, fun emit state => ?_⟩
      rw [scanField, if_neg star]
      rfl

theorem scanPrecision_spec (p : Bytes) :
    ∃ ops rest, ∀ {σ : Type} (emit : σ → PayloadType → LengthModifier →
      Option σ) (state : σ), scanPrecision emit state p =
        (emitAll emit state ops).map (·, rest) := by
  cases p with
  | nil => exact ⟨[], [], fun _ _ => rfl⟩
  | cons char p =>
    by_cases dot : char = '.'.toUInt8
    · obtain ⟨ops, rest, spec⟩ := scanField_spec p
      refine ⟨ops, rest, fun emit state => ?_⟩
      rw [scanPrecision, if_pos dot, spec]
    · refine ⟨[], char :: p, fun emit state => ?_⟩
      rw [scanPrecision, if_neg dot]
      rfl

theorem scanFields_spec (p : Bytes) :
    ∃ ops rest, ∀ {σ : Type} (emit : σ → PayloadType → LengthModifier →
      Option σ) (state : σ), scanFields emit state p =
        (emitAll emit state ops).map (·, rest) := by
  obtain ⟨width, middle, widthSpec⟩ := scanField_spec (p.dropWhile isFlagChar)
  obtain ⟨precision, rest, precisionSpec⟩ := scanPrecision_spec middle
  refine ⟨width ++ precision, rest, fun emit state => ?_⟩
  rw [scanFields, widthSpec, emitAll_append]
  cases emitAll emit state width with
  | none => rfl
  | some state => exact precisionSpec emit state

/-- How a scan ends behind its last conversion. -/
def scanned (rejects : Bool) : Option σ → Except ScanFailure σ
  | none => .error .aborted
  | some state => if rejects then .error .rejected else .ok state

/-- The scanner meets the same conversions whatever the callback does with
them. -/
theorem scanFmtEmitOps_spec (fuel : Nat) (p : Bytes) :
    ∃ ops rejects, ∀ {σ : Type} (emit : σ → PayloadType → LengthModifier →
      Option σ) (state : σ), scanFmtEmitOps emit fuel p state =
        scanned rejects (emitAll emit state ops) := by
  induction fuel generalizing p with
  | zero => exact ⟨[], false, fun _ _ => by rw [scanFmtEmitOps]; rfl⟩
  | succ fuel ih =>
    cases p with
    | nil => exact ⟨[], false, fun _ _ => by rw [scanFmtEmitOps]; rfl⟩
    | cons char p =>
      by_cases text : char ≠ '%'.toUInt8
      · obtain ⟨ops, rejects, spec⟩ := ih p
        refine ⟨ops, rejects, fun emit state => ?_⟩
        rw [scanFmtEmitOps, if_pos text, spec]
      by_cases percent : p.head? = some '%'.toUInt8
      · obtain ⟨ops, rejects, spec⟩ := ih p.tail
        refine ⟨ops, rejects, fun emit state => ?_⟩
        rw [scanFmtEmitOps, if_neg text, if_pos percent, spec]
      obtain ⟨fields, rest, fieldsSpec⟩ := scanFields_spec p
      -- behind the fields a conversion that ends the scan, that is
      -- skipped, or that is emitted in front of the rest of the format
      rcases behind : LengthModifier.scan rest with
        ⟨modifier, _ | ⟨spec, p⟩⟩
      · refine ⟨fields, false, fun emit state => ?_⟩
        rw [scanFmtEmitOps, if_neg text, if_neg percent, fieldsSpec]
        cases emitAll emit state fields with
        | none => rfl
        | some next => simp only [Option.map_some, behind]; rfl
      by_cases isN : spec = 'n'.toUInt8
      · refine ⟨fields, true, fun emit state => ?_⟩
        rw [scanFmtEmitOps, if_neg text, if_neg percent, fieldsSpec]
        cases emitAll emit state fields with
        | none => rfl
        | some next => simp only [Option.map_some, behind, if_pos isN]; rfl
      obtain ⟨ops, rejects, restSpec⟩ := ih p
      cases found : payloadTypeFromSpec spec modifier with
      | none =>
        refine ⟨fields ++ ops, rejects, fun emit state => ?_⟩
        rw [scanFmtEmitOps, if_neg text, if_neg percent, fieldsSpec,
          emitAll_append]
        cases emitAll emit state fields with
        | none => rfl
        | some next =>
          simp only [Option.map_some, behind, if_neg isN, found,
            restSpec, Option.bind_some]
      | some type =>
        refine ⟨fields ++ (type, modifier) :: ops, rejects,
          fun emit state => ?_⟩
        rw [scanFmtEmitOps, if_neg text, if_neg percent, fieldsSpec,
          emitAll_append]
        cases emitAll emit state fields with
        | none => rfl
        | some next =>
          simp only [Option.map_some, behind, if_neg isN, found,
            Option.bind_some, emitAll]
          cases emit next type modifier with
          | none => rfl
          | some last => exact restSpec emit last

theorem scanFmtEmitOps_of_conversions (found : conversions fmt = .ok ops)
    (state : σ) :
    scanFmtEmitOps emit fmt.length fmt state =
      scanned false (emitAll emit state ops) := by
  obtain ⟨ops', rejects, spec⟩ := scanFmtEmitOps_spec fmt.length fmt
  rw [conversions, spec note, emitAll_note, List.nil_append] at found
  cases rejects with
  | true => cases found
  | false =>
    cases found
    exact spec emit state

end Conversions

/-! ## Plans -/

theorem emitAll_fmtPlanEmit {others result : List PlanOp}
    (emitted : emitAll fmtPlanEmit ops others = some result) :
    result = ops ++ others := by
  induction others generalizing ops with
  | nil =>
    obtain rfl := Option.some.inj emitted
    exact (List.append_nil ops).symm
  | cons op others ih =>
    rw [emitAll, fmtPlanEmit] at emitted
    split at emitted
    · cases emitted
    · rw [ih emitted, List.append_assoc]
      rfl

variable (cap : Nat)

theorem emitOps_eq (emission : Emission) (ops : List PlanOp) :
    emitOps cap emission ops = emitAll (payloadEmitArg cap) emission ops := by
  induction ops generalizing emission with
  | nil => rfl
  | cons op ops ih =>
    rw [emitOps, emitAll]
    cases payloadEmitArg cap emission op.1 op.2 with
    | none => rfl
    | some next => exact ih next

theorem buildFmtPlan_ready (ready : (buildFmtPlan address fmt).ready = true) :
    conversions fmt = .ok (buildFmtPlan address fmt).ops := by
  obtain ⟨ops, rejects, spec⟩ := scanFmtEmitOps_spec fmt.length fmt
  rw [buildFmtPlan, spec] at ready ⊢
  rw [conversions, spec, emitAll_note, List.nil_append]
  cases emitted : emitAll fmtPlanEmit [] ops with
  | none => rw [emitted] at ready; cases ready
  | some result =>
    rw [emitted] at ready
    cases rejects with
    | true => cases ready
    | false =>
      obtain rfl := emitAll_fmtPlanEmit emitted
      rfl

variable (arguments : List Argument)

/-- A format whose plan is refused is refused by the scanner. -/
theorem scanRecords_of_reject
    (reject : (buildFmtPlan address fmt).reject = true) :
    scanRecords cap fmt arguments = none := by
  obtain ⟨ops, rejects, spec⟩ := scanFmtEmitOps_spec fmt.length fmt
  rw [buildFmtPlan, spec] at reject
  rw [scanRecords, spec]
  cases rejects with
  | true => cases emitAll (payloadEmitArg cap) { arguments } ops <;> rfl
  | false =>
    cases emitted : emitAll fmtPlanEmit [] ops with
    | none => rw [emitted] at reject; cases reject
    | some result => rw [emitted] at reject; cases reject

theorem scanRecords_of_conversions (found : conversions fmt = .ok ops) :
    scanRecords cap fmt arguments = emitOps cap { arguments } ops := by
  rw [scanRecords, scanFmtEmitOps_of_conversions _ found, emitOps_eq]
  cases emitAll (payloadEmitArg cap) { arguments } ops <;> rfl

/-! ## Calls -/

/-- The event that the scanner alone makes of a call. -/
def scanEvent (cap : Nat) (call : LogCall) : Option Event :=
  match call.fmt with
  | none => none
  | some fmt =>
      if cap < headerSize then none
      else (scanRecords cap (cstr fmt.memory) call.arguments).bind
        (closeEvent cap call.site fmt)

/-- The thread has a plan for the address, and the text there has come to have
other conversions. -/
abbrev stale (cache : FmtPlanCache) (call : LogCall) : Prop :=
  ∃ fmt ∈ call.fmt, cache.fmt = some fmt.address ∧ cache.ready = true ∧
    conversions (cstr fmt.memory) ≠ .ok cache.ops

theorem serializeEvent_eq {call : LogCall} (fresh : ¬stale cache call) :
    (serializeEvent cap cache call).2 = scanEvent cap call := by
  rw [serializeEvent, scanEvent]
  cases given : call.fmt with
  | none => rfl
  | some fmt =>
    dsimp only
    split
    · rfl
    by_cases other : cache.fmt ≠ some fmt.address
    · rw [if_pos other]
      split
      · case isTrue refused =>
        rw [scanRecords_of_reject cap _ refused.2]
        rfl
      split
      · case isTrue ready =>
        rw [scanRecords_of_conversions cap _ (buildFmtPlan_ready ready.1)]
      · rfl
    · rw [if_neg other, if_neg fun refused => other refused.1]
      split
      · case isTrue ready =>
        have same : conversions (cstr fmt.memory) = .ok cache.ops := by
          by_contra different
          exact fresh ⟨fmt, given, not_not.mp other, ready.1, different⟩
        rw [scanRecords_of_conversions cap _ same]
      · rfl

def cacheStep (cap : Nat) (cache : FmtPlanCache) (call : LogCall) :
    Option FmtPlanCache :=
  some (serializeEvent cap cache call).1

theorem serializeEvents_eq {calls : List LogCall}
    (fresh : Avoids (cacheStep cap) stale cache calls) :
    serializeEvents cap cache calls = calls.map (scanEvent cap) := by
  induction calls generalizing cache with
  | nil => rfl
  | cons call calls ih =>
    rw [serializeEvents, List.map_cons, serializeEvent_eq cap fresh.1,
      ih (fresh.2 _ rfl)]

/-- In every run of calls that never meets a stale plan, each call produces
the event that the scanner makes of the text as it stands. -/
theorem plan_cache_transparent (cap : Nat) {calls : List LogCall}
    (fresh : Avoids (cacheStep cap) stale {} calls) :
    serializeEvents cap {} calls = calls.map (scanEvent cap) :=
  serializeEvents_eq cap fresh

def sampleCall (fmt : Format) (arguments : List Argument) : LogCall where
  site := ⟨0, 0, none, 1, none, -1, 0, []⟩
  fmt := some fmt
  arguments := arguments

/-- A buffer is rewritten to a text with the same conversions. -/
def sameConversions : List LogCall :=
  [sampleCall ⟨1, ascii "%d"⟩ [.word32 7],
    sampleCall ⟨1, ascii "n=%d"⟩ [.word32 8],
    sampleCall ⟨2, ascii "%d%%%u"⟩ [.word32 8, .word32 9]]

theorem plan_cache_transparent_rewritten :
    serializeEvents 8192 {} sameConversions =
      sameConversions.map (scanEvent 8192) :=
  plan_cache_transparent 8192 (by decide +kernel)

/-- A buffer with `%d` is rewritten to `%d%d`: the second event has one of the
two arguments. -/
theorem plan_cache_stale :
    serializeEvents 8192 {}
        [sampleCall ⟨1, ascii "%d"⟩ [.word32 7],
          sampleCall ⟨1, ascii "%d%d"⟩ [.word32 8, .word32 9]] ≠
      [sampleCall ⟨1, ascii "%d"⟩ [.word32 7],
        sampleCall ⟨1, ascii "%d%d"⟩ [.word32 8, .word32 9]].map
          (scanEvent 8192) := by
  decide +kernel

end Libnei.Log.Events
