import Mathlib.Logic.Function.Basic
import Libnei.Ipc.Pipeline

/-!
# Two connected channels

Each of two channels reads what the other one writes.  The streams take a
part of every write and hand over a part of what they have taken.  Whatever
the parts and the threads are, a channel posts the payloads that the other
one has sent, in their order.
-/

namespace Libnei.Ipc

open Lib

/-! ## The link -/

/-- `pipes side` has the bytes that were written by `channels side` and not
read by the other channel. -/
structure Link where
  channels : Bool → Channel := fun _ => {}
  pipes : Bool → Bytes := fun _ => []

inductive Event
  | startReading (side : Bool)
  | postBegin (side : Bool)
  | send (side : Bool) (payload : Bytes)
  | postIssue (side : Bool)
  | io (side : Bool)
  | write (side : Bool) (count : Nat)
  | read (side : Bool) (count : Nat)

namespace Link

def acts (link : Link) (side : Bool) (action : Action) : Option Link :=
  (Ipc.step (link.channels side) action).map fun next =>
    { link with channels := Function.update link.channels side next }

theorem acts_eq {link next : Link} {side : Bool} {action : Action}
    (taken : link.acts side action = some next) :
    ∃ channel, Ipc.step (link.channels side) action = some channel ∧
      ⟨Function.update link.channels side channel, link.pipes⟩ = next :=
  Option.map_eq_some_iff.mp taken

/-- A write of the stream takes `count` bytes, a read hands `count` bytes
over. -/
def step (link : Link) : Event → Option Link
  | .startReading side => link.acts side .startReading
  | .postBegin side => link.acts side .postBegin
  | .send side payload => link.acts side (.send payload)
  | .postIssue side => link.acts side .postIssue
  | .io side => link.acts side .io
  | .write side count =>
      if count = 0 then none
      else
        (link.acts side (.writeDone true count)).map fun next =>
          let slice := (link.channels side).writes.headD []
          { next with
            pipes := Function.update link.pipes side
              (link.pipes side ++ slice.take count) }
  | .read side count =>
      let pipe := link.pipes !side
      if count = 0 ∨ pipe.length < count then none
      else
        (link.acts side (.readDone true (pipe.take count))).map fun next =>
          { next with
            pipes := Function.update link.pipes (!side) (pipe.drop count) }

end Link

/-! ## The bytes between the channels -/

theorem Sending.written_append {channel : Channel} (sending : Sending channel) :
    ∃ rest, (channel.sent.map frame).flatten = channel.written ++ rest := by
  cases sending with
  | idle _ _ _ _ written => exact ⟨[], by rw [written, List.append_nil]⟩
  | busy finished front rest position _ _ _ _ frames written =>
    refine ⟨front.drop position ++ rest.flatten, ?_⟩
    rw [frames, written, List.flatten_append, List.flatten_cons,
      List.append_assoc, ← List.append_assoc (front.take position),
      List.take_append_drop]

section

variable {payloads : List Bytes} {bytes rest : Bytes}

theorem readFrames_front
    (fit : ∀ payload ∈ payloads, payload.length ≤ kMaxMessageSize)
    (whole : (payloads.map frame).flatten = bytes ++ rest) :
    framing.corrupt (framing.readFrames bytes).2 = false ∧
      (framing.readFrames bytes).1 <+: payloads := by
  have all := readFrames_sent fit []
  rw [List.append_nil, readFrames_nil, List.append_nil, whole] at all
  refine ⟨Framing.not_corrupt_of_complete (congrArg Prod.snd all), ?_⟩
  rw [Framing.readFrames_append] at all
  exact ⟨_, congrArg Prod.fst all⟩

end

structure Linked (link : Link) : Prop where
  healthy : ∀ side, Healthy (link.channels side)
  flows : ∀ side, (link.channels side).written =
    (link.channels !side).ingested ++ (link.channels !side).incoming ++
      link.pipes side
  fit : ∀ side, ∀ payload ∈ (link.channels side).sent,
    payload.length ≤ kMaxMessageSize

namespace Linked

variable {link next : Link}

theorem initially : Linked {} where
  healthy := fun _ => .initially
  flows := fun _ => rfl
  fit := by simp

variable (linked : Linked link)

include linked

theorem received (side : Bool) :
    ∃ rest, ((link.channels !side).sent.map frame).flatten =
      ((link.channels side).ingested ++ (link.channels side).incoming) ++
        rest := by
  obtain ⟨rest, whole⟩ := (linked.healthy !side).sending.written_append
  have flows := linked.flows !side
  rw [Bool.not_not] at flows
  rw [flows, List.append_assoc] at whole
  exact ⟨_, whole⟩

theorem update (side : Bool) {channel : Channel} {pipes : Bool → Bytes}
    (healthy : Healthy channel)
    (fit : ∀ payload ∈ channel.sent, payload.length ≤ kMaxMessageSize)
    (out : channel.written =
      (link.channels !side).ingested ++ (link.channels !side).incoming ++
        pipes side)
    (into : (link.channels !side).written =
      channel.ingested ++ channel.incoming ++ pipes !side) :
    Linked ⟨Function.update link.channels side channel, pipes⟩ := by
  have here : Function.update link.channels side channel side = channel :=
    Function.update_self ..
  have there : Function.update link.channels side channel (!side) =
      link.channels !side := by
    rw [Function.update_of_ne]
    cases side <;> decide
  have both : ∀ {holds : Bool → Prop}, holds side → holds (!side) →
      ∀ other, holds other := by
    intro holds first second other
    cases side <;> cases other <;> assumption
  constructor
  · refine both ?_ ?_
    · dsimp only
      rw [here]
      exact healthy
    · dsimp only
      rw [there]
      exact linked.healthy !side
  · refine both ?_ ?_
    · dsimp only
      rw [here, there]
      exact out
    · dsimp only
      rw [there, Bool.not_not, here]
      exact into
  · refine both ?_ ?_
    · dsimp only
      rw [here]
      exact fit
    · dsimp only
      rw [there]
      exact linked.fit !side

theorem keeps (side : Bool) {channel : Channel}
    (kept : Healthy.Keeps (link.channels side) channel) :
    Linked ⟨Function.update link.channels side channel, link.pipes⟩ := by
  refine linked.update side kept.healthy ?_ ?_ ?_
  · rw [kept.sent]
    exact linked.fit side
  · rw [kept.written]
    exact linked.flows side
  · have flows := linked.flows !side
    rw [Bool.not_not] at flows
    rw [kept.received]
    exact flows

theorem intact (side success : Bool) (bytes : Bytes)
    (here : (link.channels side).io = .ingest success bytes) :
    framing.corrupt (framing.readFrames
      ((link.channels side).ingested ++ bytes)).2 = false := by
  obtain ⟨rest, whole⟩ := linked.received side
  have member : .data success bytes ∈ (link.channels side).readPlaces := by
    simp [Channel.readPlaces, here, Control.readPlace]
  obtain ⟨places, -, -⟩ := (linked.healthy side).receiving.at_place member
  have same : (link.channels side).incoming = bytes := by
    simp [Channel.incoming, places, ReadPlace.bytes]
  rw [same] at whole
  exact (readFrames_front (linked.fit !side) whole).1

end Linked

/-! ## Whole runs -/

/-- A payload that does not fit into a frame is sent. -/
def Oversized (_ : Link) : Event → Prop
  | .send _ payload => kMaxMessageSize < payload.length
  | _ => False

namespace Linked

variable {link next : Link}

theorem step {event : Event} (linked : Linked link)
    (fits : ¬Oversized link event)
    (taken : link.step event = some next) : Linked next := by
  have flows := fun side => linked.flows (!side)
  simp only [Bool.not_not] at flows
  cases event with
  | startReading side =>
    obtain ⟨channel, ran, rfl⟩ := Link.acts_eq taken
    cases ran
    exact linked.keeps side (linked.healthy side).startReading
  | postBegin side =>
    obtain ⟨channel, ran, rfl⟩ := Link.acts_eq taken
    exact linked.keeps side ((linked.healthy side).postBegin ran)
  | send side payload =>
    obtain ⟨channel, ran, rfl⟩ := Link.acts_eq taken
    cases ran
    obtain ⟨healthy, sent, written, ingested, incoming⟩ :=
      (linked.healthy side).send payload
    refine linked.update side healthy ?_ ?_ ?_
    · rw [sent]
      intro other member
      rcases List.mem_append.mp member with member | member
      · exact linked.fit side other member
      · rw [List.mem_singleton.mp member]
        exact Nat.not_lt.mp fits
    · rw [written]
      exact linked.flows side
    · rw [ingested, incoming]
      exact flows side
  | postIssue side =>
    obtain ⟨channel, ran, rfl⟩ := Link.acts_eq taken
    exact linked.keeps side ((linked.healthy side).postIssue ran)
  | io side =>
    obtain ⟨channel, ran, rfl⟩ := Link.acts_eq taken
    exact linked.keeps side
      ((linked.healthy side).run (linked.intact side) ran)
  | write side count =>
    obtain ⟨positive, taken⟩ := Option.ite_none_left_eq_some.mp taken
    obtain ⟨middle, acted, rfl⟩ := Option.map_eq_some_iff.mp taken
    obtain ⟨channel, ran, rfl⟩ := Link.acts_eq acted
    obtain ⟨healthy, sent, written, ingested, incoming⟩ :=
      (linked.healthy side).writeDone positive ran
    refine linked.update side healthy ?_ ?_ ?_
    · rw [sent]
      exact linked.fit side
    · rw [written, linked.flows side, Function.update_self]
      simp only [List.append_assoc]
    · rw [ingested, incoming, Function.update_of_ne (by cases side <;> decide)]
      exact flows side
  | read side count =>
    obtain ⟨enough, taken⟩ := Option.ite_none_left_eq_some.mp taken
    obtain ⟨middle, acted, rfl⟩ := Option.map_eq_some_iff.mp taken
    obtain ⟨channel, ran, rfl⟩ := Link.acts_eq acted
    have data : (link.pipes !side).take count ≠ [] := by
      intro none
      have length := congrArg List.length none
      simp only [List.length_take, List.length_nil] at length
      omega
    obtain ⟨healthy, sent, written, ingested, before, incoming⟩ :=
      (linked.healthy side).readDone data ran
    refine linked.update side healthy ?_ ?_ ?_
    · rw [sent]
      exact linked.fit side
    · rw [written, linked.flows side, Function.update_of_ne
        (by cases side <;> decide)]
    · rw [ingested, incoming, Function.update_self, flows side, before,
        List.append_nil, List.append_assoc, List.take_append_drop]

end Linked

instance (link : Link) (action : Event) :
    Decidable (Oversized link action) := by
  cases action <;> unfold Oversized <;> infer_instance

/-- The I/O thread and the callers of the channel have nothing to do. -/
abbrev Channel.AtRest (channel : Channel) : Prop :=
  channel.io = .idle ∧ channel.tasks = [] ∧ channel.toBegin = 0 ∧
    channel.toIssue = 0

namespace Healthy

variable {channel : Channel}

section

variable (healthy : Healthy channel)

include healthy

theorem writes_le_one :
    channel.writes.length ≤ 1 := by
  have atMost : channel.writePlaces.length ≤ 1 := by
    cases healthy.sending with
    | idle places => simp [places]
    | busy _ _ _ _ _ places => simp [places]
  simp only [Channel.writePlaces, List.length_append, List.length_map] at atMost
  omega

theorem reads_le_one : channel.reads ≤ 1 := by
  have atMost : channel.readPlaces.length ≤ 1 := by
    cases healthy.receiving with
    | stopped places => simp [places]
    | started _ places => simp [places]
  simp only [Channel.readPlaces, List.length_append,
    List.length_replicate] at atMost
  omega

theorem reads_of_atRest (rest : channel.AtRest)
    (started : channel.started = true) : channel.reads = 1 := by
  obtain ⟨idle, tasks, begins, -⟩ := rest
  cases healthy.receiving with
  | stopped _ _ notYet => exact nomatch started.symm.trans notYet
  | started place places =>
    have one := congrArg List.length places
    simpa [Channel.readPlaces, idle, tasks, begins, Control.readPlace]
      using one

end

theorem incoming_of_atRest (rest : channel.AtRest) : channel.incoming = [] := by
  obtain ⟨idle, tasks, begins, -⟩ := rest
  simp [Channel.incoming, Channel.readPlaces, idle, tasks, begins,
    Control.readPlace, ReadPlace.bytes]

theorem written_of_atRest (healthy : Healthy channel) (rest : channel.AtRest)
    (none : channel.writes = []) :
    channel.written = (channel.sent.map frame).flatten := by
  obtain ⟨idle, tasks, -, issues⟩ := rest
  cases healthy.sending with
  | idle _ _ _ _ written => exact written
  | busy _ _ _ _ _ places =>
    simp [Channel.writePlaces, idle, tasks, issues, none,
      Control.writePlace] at places

theorem slice_ne_nil (healthy : Healthy channel) {slice : Bytes}
    (outstanding : slice ∈ channel.writes) : slice ≠ [] := by
  have member : .slice slice ∈ channel.writePlaces := by
    simp [Channel.writePlaces, outstanding]
  obtain ⟨_, _, _, _, -, -, -, -, -, before, -, -, rfl⟩ :=
    healthy.sending.at_place member
  simpa using before

end Healthy

/-- A channel posts the payloads that the other one has sent, in their order.
One write and one read are outstanding at most; a channel at rest waits for
the stream.  All payloads have arrived if both channels are at rest and
nothing is on its way. -/
theorem payloads_arrive {events : List Event} {link : Link}
    (performed : perform Link.step {} events = some link)
    (avoids : Avoids Link.step Oversized {} events) (side : Bool) :
    (∃ arrived, (link.channels !side).posted = arrived.map .message ∧
      arrived <+: (link.channels side).sent) ∧
    (link.channels side).writes.length ≤ 1 ∧
    (∀ slice ∈ (link.channels side).writes, slice ≠ []) ∧
    (link.channels side).reads ≤ 1 ∧
    ((link.channels side).AtRest → (link.channels side).started = true →
      (link.channels side).reads = 1) ∧
    ((link.channels side).AtRest → (link.channels !side).AtRest →
      (link.channels side).writes = [] → link.pipes side = [] →
        (link.channels !side).posted =
          (link.channels side).sent.map .message) := by
  have linked : Linked link :=
    perform_avoiding Linked.step performed avoids .initially
  have healthy := linked.healthy side
  obtain ⟨delivered, errors, reports⟩ := (linked.healthy !side).reports
  have none : errors = 0 := by
    by_contra some
    have errored := reports.signaled fun zero => some (by omega)
    exact nomatch (linked.healthy !side).going.symm.trans errored
  have posted := reports.posted
  rw [none, List.replicate_zero, List.append_nil] at posted
  obtain ⟨behind, whole⟩ := linked.received !side
  rw [Bool.not_not, List.append_assoc] at whole
  have front := (readFrames_front (linked.fit side) whole).2
  rw [reports.complete] at front
  refine ⟨⟨delivered, posted, (List.prefix_append _ _).trans front⟩,
    healthy.writes_le_one, fun slice => healthy.slice_ne_nil,
    healthy.reads_le_one, healthy.reads_of_atRest, ?_⟩
  intro rest other noWrite noPipe
  have flows := linked.flows side
  rw [healthy.written_of_atRest rest noWrite,
    Healthy.incoming_of_atRest other, noPipe, List.append_nil,
    List.append_nil] at flows
  have all := readFrames_sent (linked.fit side) []
  rw [List.append_nil, flows, readFrames_nil, List.append_nil] at all
  have complete := reports.complete
  rw [all, other.1] at complete
  have arrived : (link.channels side).sent = delivered :=
    complete.trans (List.append_nil _)
  rw [posted, arrived]

/-- Two payloads, one of them empty; the first frame is written in two parts
and both frames are read in three. -/
def inParts : List Event := List.flatten
  [[.send true [104, 105], .postIssue true, .send true []],
    List.replicate 3 (.io true), [.write true 3],
    List.replicate 4 (.io true), [.write true 7],
    List.replicate 4 (.io true), [.write true 8],
    List.replicate 2 (.io true), [.startReading false, .postBegin false],
    List.replicate 3 (.io false), [.read false 4],
    List.replicate 7 (.io false), [.read false 9],
    List.replicate 8 (.io false), [.read false 5],
    List.replicate 8 (.io false)]

theorem payloads_arrive_inParts :
    ∃ link, perform Link.step {} inParts = some link ∧
      (link.channels false).posted = [.message [104, 105], .message []] := by
  have seen : (perform Link.step {} inParts).map
      (fun link => ((link.channels true).sent,
        decide ((link.channels true).AtRest ∧ (link.channels false).AtRest ∧
          (link.channels true).writes = [] ∧ link.pipes true = []))) =
      some ([[104, 105], []], true) := by
    decide +kernel
  obtain ⟨link, ran, same⟩ := Option.map_eq_some_iff.mp seen
  simp only [Prod.mk.injEq, decide_eq_true_eq] at same
  obtain ⟨sent, rest, rest', none, pipe⟩ := same
  have arrive := payloads_arrive ran (by decide +kernel) true
  refine ⟨link, ran, ?_⟩
  have all := arrive.2.2.2.2.2 rest rest' none pipe
  rw [sent] at all
  exact all

end Libnei.Ipc
