import Libnei.Lib.Actions
import Mathlib.Data.Fintype.Basic
import Mathlib.Logic.Function.Basic

/-!
# Task ids of jobs

`JobTaskSource::GetTaskId` (`job_task_source.cpp`) hands every thread a number
of its own.  Each thread keeps the last number it was given and the address
of the job that gave it, in one slot for all jobs.

A job at the address of a destroyed one finds the numbers of the destroyed
one in these slots, and a thread that asks another job in between is given a
second number.
-/

namespace Libnei.Task

open Lib

variable {Thread Address : Type} [DecidableEq Thread] [DecidableEq Address]

/-- A job that is alive.  No two jobs have the same `serial`. -/
structure Job where
  serial : Nat
  nextTaskId : Nat := 0
  deriving DecidableEq

/-- One execution of a job's task. -/
structure JobRun (Thread : Type) where
  thread : Thread
  job : Nat
  number : Nat
  deriving DecidableEq

/-- A finished `GetTaskId`.  `runs` are the executions of the job's task that
the thread is in. -/
structure TaskIdCall (Thread : Type) where
  thread : Thread
  job : Nat
  runs : List (JobRun Thread)
  id : Nat
  deriving DecidableEq

structure JobTaskIds (Thread Address : Type) where
  jobs : Address → Option Job := fun _ => none
  tlsSrc : Thread → Option Address := fun _ => none
  tlsId : Thread → Nat := fun _ => 0
  runs : List (JobRun Thread) := []
  created : Nat := 0
  started : Nat := 0
  calls : List (TaskIdCall Thread) := []

inductive JobAction (Thread Address : Type)
  | create (address : Address)
  | destroy (address : Address)
  | run (thread : Thread) (address : Address)
  | finish (run : JobRun Thread)
  | getTaskId (thread : Thread) (address : Address)

namespace JobTaskIds

variable (ids : JobTaskIds Thread Address)

/-- `fetch_add` on a `size_t`. -/
def assignTaskId (address : Address) (job : Job) :
    Nat × JobTaskIds Thread Address :=
  (job.nextTaskId,
    { ids with
      jobs := Function.update ids.jobs address
        (some { job with
          nextTaskId := (job.nextTaskId + 1) % UInt64.size }) })

def getTaskId (thread : Thread) (address : Address) (job : Job) :
    Nat × JobTaskIds Thread Address :=
  if ids.tlsSrc thread ≠ some address then
    let (id, assigned) := ids.assignTaskId address job
    (id, { assigned with
      tlsSrc := Function.update ids.tlsSrc thread (some address)
      tlsId := Function.update ids.tlsId thread id })
  else (ids.tlsId thread, ids)

def runsOf (thread : Thread) (job : Nat) : List (JobRun Thread) :=
  ids.runs.filter fun run => run.thread = thread ∧ run.job = job

def step : JobAction Thread Address → Option (JobTaskIds Thread Address)
  | .create address =>
      match ids.jobs address with
      | none => some { ids with
          jobs := Function.update ids.jobs address (some ⟨ids.created, 0⟩)
          created := ids.created + 1 }
      | some _ => none
  | .destroy address =>
      some { ids with jobs := Function.update ids.jobs address none }
  | .run thread address =>
      match ids.jobs address with
      | some job => some { ids with
          runs := ⟨thread, job.serial, ids.started⟩ :: ids.runs
          started := ids.started + 1 }
      | none => none
  | .finish run => some { ids with runs := ids.runs.erase run }
  | .getTaskId thread address =>
      match ids.jobs address with
      | some job =>
          let (id, after) := ids.getTaskId thread address job
          some { after with
            calls := ⟨thread, job.serial, ids.runsOf thread job.serial, id⟩ ::
              ids.calls }
      | none => none

/-- The thread has asked the job in an execution of its task that is not over,
and another job since. -/
abbrev Forgets (thread : Thread) (job : Job) : Prop :=
  ∃ call ∈ ids.calls, ∃ run ∈ ids.runsOf thread job.serial, run ∈ call.runs

/-- A job is created at an address that a thread still keeps, a thread asks a
job again that it no longer keeps, or a job's numbers are used up. -/
def Confuses : JobAction Thread Address → Prop
  | .create address => ∃ thread, ids.tlsSrc thread = some address
  | .getTaskId thread address => ids.tlsSrc thread ≠ some address ∧
      ∃ job ∈ ids.jobs address,
        job.nextTaskId + 1 = UInt64.size ∨ ids.Forgets thread job
  | .destroy _ | .run _ _ | .finish _ => False

instance [Fintype Thread] (action : JobAction Thread Address) :
    Decidable (ids.Confuses action) := by
  cases action <;> unfold Confuses <;> infer_instance

/-- The jobs are told apart, and a number belongs to one thread. -/
structure Distinct : Prop where
  serial : ∀ {address job}, ids.jobs address = some job →
    job.serial < ids.created
  single : ∀ {address job other job'}, ids.jobs address = some job →
    ids.jobs other = some job' → job.serial = job'.serial → address = other
  past : ∀ call ∈ ids.calls, call.job < ids.created
  bound : ∀ {address job}, ids.jobs address = some job →
    job.nextTaskId < UInt64.size
  below : ∀ {address job}, ids.jobs address = some job →
    ∀ call ∈ ids.calls, call.job = job.serial → call.id < job.nextTaskId
  kept : ∀ {thread address job}, ids.tlsSrc thread = some address →
    ids.jobs address = some job → ∃ call ∈ ids.calls,
      call.thread = thread ∧ call.job = job.serial ∧ call.id = ids.tlsId thread
  owner : ∀ call ∈ ids.calls, ∀ other ∈ ids.calls, call.job = other.job →
    call.id = other.id → call.thread = other.thread

/-- What a thread keeps is what it was given in its executions. -/
structure Constant : Prop where
  started : ∀ run ∈ ids.runs, run.number < ids.started
  past : ∀ call ∈ ids.calls, ∀ run ∈ call.runs,
    run.job = call.job ∧ run.number < ids.started
  kept : ∀ call ∈ ids.calls, ∀ run ∈ ids.runs, run ∈ call.runs →
    ∀ {address job}, ids.tlsSrc run.thread = some address →
      ids.jobs address = some job → job.serial = run.job →
        ids.tlsId run.thread = call.id
  same : ∀ call ∈ ids.calls, ∀ other ∈ ids.calls, ∀ run ∈ call.runs,
    run ∈ other.runs → call.id = other.id

variable {ids} {next : JobTaskIds Thread Address} {address : Address}
variable {thread : Thread} {job : Job}

omit [DecidableEq Address] in
theorem mem_runsOf {run : JobRun Thread} {serial : Nat} :
    run ∈ ids.runsOf thread serial ↔
      run ∈ ids.runs ∧ run.thread = thread ∧ run.job = serial := by
  simp [runsOf]

variable {jobs : Address → Option Job} {action : JobAction Thread Address}
  {id : Nat}

theorem update_some {new : Option Job} {other : Address}
    (found : Function.update jobs address new other = some job) :
    (other = address ∧ new = some job) ∨
      (other ≠ address ∧ jobs other = some job) := by
  by_cases same : other = address
  · rw [same, Function.update_self] at found
    exact .inl ⟨same, found⟩
  · rw [Function.update_of_ne same] at found
    exact .inr ⟨same, found⟩

theorem step_getTaskId
    (taken : ids.step (.getTaskId thread address) = some next) :
    ∃ job, ids.jobs address = some job ∧
      ((ids.tlsSrc thread ≠ some address ∧ next = { ids with
        jobs := Function.update ids.jobs address
          (some { job with
            nextTaskId := (job.nextTaskId + 1) % UInt64.size })
        tlsSrc := Function.update ids.tlsSrc thread (some address)
        tlsId := Function.update ids.tlsId thread job.nextTaskId
        calls := ⟨thread, job.serial, ids.runsOf thread job.serial,
          job.nextTaskId⟩ :: ids.calls }) ∨
      (ids.tlsSrc thread = some address ∧ next = { ids with
        calls := ⟨thread, job.serial, ids.runsOf thread job.serial,
          ids.tlsId thread⟩ :: ids.calls })) := by
  rw [step] at taken
  split at taken
  case h_1 job alive =>
    refine ⟨job, alive, ?_⟩
    by_cases source : ids.tlsSrc thread = some address
    · rw [getTaskId, if_neg (not_not.mpr source)] at taken
      exact .inr ⟨source, (Option.some.inj taken).symm⟩
    · rw [getTaskId, if_pos source] at taken
      exact .inl ⟨source, (Option.some.inj taken).symm⟩
  case h_2 => cases taken

omit [DecidableEq Thread] in
theorem Distinct.create (distinct : ids.Distinct)
    (clear : ¬∃ thread, ids.tlsSrc thread = some address) :
    Distinct { ids with
      jobs := Function.update ids.jobs address (some ⟨ids.created, 0⟩)
      created := ids.created + 1 } := by
  constructor
  case serial =>
    intro other job found
    rcases update_some found with ⟨_, new⟩ | ⟨_, old⟩
    · cases new
      exact Nat.lt_succ_self _
    · exact Nat.lt_succ_of_lt (distinct.serial old)
  case single =>
    intro first job second job' found found' equal
    rcases update_some found with ⟨here, new⟩ | ⟨_, old⟩ <;>
      rcases update_some found' with ⟨here', new'⟩ | ⟨_, old'⟩
    · exact here.trans here'.symm
    · cases new
      exact absurd equal (Nat.ne_of_gt (distinct.serial old'))
    · cases new'
      exact absurd equal (Nat.ne_of_lt (distinct.serial old))
    · exact distinct.single old old' equal
  case past =>
    intro call member
    exact Nat.lt_succ_of_lt (distinct.past call member)
  case bound =>
    intro other job found
    rcases update_some found with ⟨_, new⟩ | ⟨_, old⟩
    · cases new
      exact Nat.zero_lt_succ _
    · exact distinct.bound old
  case below =>
    intro other job found call member equal
    rcases update_some found with ⟨_, new⟩ | ⟨_, old⟩
    · cases new
      exact absurd equal (Nat.ne_of_lt (distinct.past call member))
    · exact distinct.below old call member equal
  case kept =>
    intro thread other job source found
    rcases update_some found with ⟨here, _⟩ | ⟨_, old⟩
    · exact absurd ⟨thread, here ▸ source⟩ clear
    · exact distinct.kept source old
  case owner => exact distinct.owner

omit [DecidableEq Thread] in
theorem Distinct.destroy (distinct : ids.Distinct) (address : Address) :
    Distinct { ids with
      jobs := Function.update ids.jobs address none } := by
  have old {other job} (found : Function.update ids.jobs address none other =
      some job) : ids.jobs other = some job := by
    rcases update_some found with ⟨_, new⟩ | ⟨_, old⟩
    · cases new
    · exact old
  exact ⟨fun found => distinct.serial (old found),
    fun found found' => distinct.single (old found) (old found'),
    distinct.past, fun found => distinct.bound (old found),
    fun found => distinct.below (old found),
    fun source found => distinct.kept source (old found), distinct.owner⟩

omit [DecidableEq Thread] [DecidableEq Address] in
theorem Distinct.recall (distinct : ids.Distinct)
    (alive : ids.jobs address = some job)
    (source : ids.tlsSrc thread = some address)
    (runs : List (JobRun Thread)) :
    Distinct { ids with
      calls := ⟨thread, job.serial, runs, ids.tlsId thread⟩ :: ids.calls } := by
  obtain ⟨given, member, by_thread, of_job, same⟩ :=
    distinct.kept source alive
  -- The new call is as the one that filled the slot.
  have like {property : Thread → Nat → Nat → Prop}
      (holds : ∀ call ∈ ids.calls, property call.thread call.job call.id) :
      ∀ call ∈ (⟨thread, job.serial, runs, ids.tlsId thread⟩ ::
        ids.calls : List (TaskIdCall Thread)),
        property call.thread call.job call.id := by
    intro call among
    rcases List.mem_cons.mp among with rfl | old
    · have found := holds given member
      rw [by_thread, of_job, same] at found
      exact found
    · exact holds call old
  refine ⟨distinct.serial, distinct.single, ?_, distinct.bound, ?_, ?_, ?_⟩
  · exact @like (fun _ job _ => job < ids.created) distinct.past
  · intro other job' found
    exact @like (fun _ serial id => serial = job'.serial →
      id < job'.nextTaskId) (distinct.below found)
  · intro other place job' source' found
    obtain ⟨call, old, facts⟩ := distinct.kept source' found
    exact ⟨call, List.mem_cons_of_mem _ old, facts⟩
  · refine @like (fun thread job id => ∀ other : TaskIdCall Thread, other ∈ _ →
      job = other.job → id = other.id → thread = other.thread)
      fun call old => ?_
    exact @like (fun thread job id => call.job = job → call.id = id →
      call.thread = thread) (distinct.owner call old)

theorem Distinct.assign (distinct : ids.Distinct)
    (alive : ids.jobs address = some job)
    (room : job.nextTaskId + 1 ≠ UInt64.size)
    (runs : List (JobRun Thread)) :
    Distinct { ids with
      jobs := Function.update ids.jobs address
        (some { job with
          nextTaskId := (job.nextTaskId + 1) % UInt64.size })
      tlsSrc := Function.update ids.tlsSrc thread (some address)
      tlsId := Function.update ids.tlsId thread job.nextTaskId
      calls := ⟨thread, job.serial, runs, job.nextTaskId⟩ :: ids.calls } := by
  have bound := distinct.bound alive
  have small : (job.nextTaskId + 1) % UInt64.size = job.nextTaskId + 1 :=
    Nat.mod_eq_of_lt (by omega)
  rw [small]
  -- The jobs are where they were, with their serials.
  have before {other job'} (found : Function.update ids.jobs address
      (some { job with nextTaskId := job.nextTaskId + 1 }) other =
        some job') : ∃ job, ids.jobs other = some job ∧
          job.serial = job'.serial := by
    rcases update_some found with ⟨here, new⟩ | ⟨_, old⟩
    · cases new
      exact ⟨job, here ▸ alive, rfl⟩
    · exact ⟨job', old, rfl⟩
  constructor
  case serial =>
    intro other job' found
    obtain ⟨_, old, same⟩ := before found
    exact same ▸ distinct.serial old
  case single =>
    intro first job' second job'' found found' equal
    obtain ⟨_, old, same⟩ := before found
    obtain ⟨_, old', same'⟩ := before found'
    exact distinct.single old old' (same.trans (equal.trans same'.symm))
  case past =>
    intro call among
    rcases List.mem_cons.mp among with rfl | old
    · exact distinct.serial alive
    · exact distinct.past call old
  case bound =>
    intro other job' found
    rcases update_some found with ⟨_, new⟩ | ⟨_, old⟩
    · cases new
      show job.nextTaskId + 1 < UInt64.size
      omega
    · exact distinct.bound old
  case below =>
    intro other job' found call among equal
    rcases update_some found with ⟨_, new⟩ | ⟨away, old⟩ <;>
      rcases List.mem_cons.mp among with rfl | member
    · cases new
      exact Nat.lt_succ_self _
    · cases new
      exact Nat.lt_succ_of_lt (distinct.below alive call member equal)
    · exact absurd (distinct.single old alive equal.symm) away
    · exact distinct.below old call member equal
  case kept =>
    intro other place job' source found
    dsimp only at source ⊢
    by_cases same : other = thread
    · rw [same, Function.update_self] at source
      cases source
      rcases update_some found with ⟨_, new⟩ | ⟨away, _⟩
      · cases new
        rw [same, Function.update_self]
        exact ⟨_, List.mem_cons_self, rfl, rfl, rfl⟩
      · exact absurd rfl away
    · rw [Function.update_of_ne same] at source ⊢
      obtain ⟨job'', old, equal⟩ := before found
      obtain ⟨call, member, by_thread, of_job, same⟩ :=
        distinct.kept source old
      exact ⟨call, List.mem_cons_of_mem _ member, by_thread,
        of_job.trans equal, same⟩
  case owner =>
    have unlike : ∀ call ∈ ids.calls, call.job = job.serial →
        call.id ≠ job.nextTaskId :=
      fun call member equal =>
        Nat.ne_of_lt (distinct.below alive call member equal)
    intro call among other among' jobs equal
    rcases List.mem_cons.mp among with rfl | old <;>
      rcases List.mem_cons.mp among' with rfl | old'
    · rfl
    · exact absurd equal.symm (unlike other old' jobs.symm)
    · exact absurd equal (unlike call old jobs)
    · exact distinct.owner call old other old' jobs equal

theorem Distinct.step (distinct : ids.Distinct) (clear : ¬ids.Confuses action)
    (taken : ids.step action = some next) : next.Distinct := by
  cases action with
  | create address =>
    rw [JobTaskIds.step] at taken
    split at taken <;> cases taken
    exact distinct.create clear
  | destroy address =>
    cases taken
    exact distinct.destroy address
  | run thread address =>
    rw [JobTaskIds.step] at taken
    split at taken <;> cases taken
    exact { distinct with }
  | finish run =>
    cases taken
    exact { distinct with }
  | getTaskId thread address =>
    obtain ⟨job, alive, ⟨other, rfl⟩ | ⟨same, rfl⟩⟩ := step_getTaskId taken
    · refine distinct.assign alive (fun full => clear ?_) _
      exact ⟨other, job, alive, .inl full⟩
    · exact distinct.recall alive same _

omit [DecidableEq Thread] [DecidableEq Address] in
/-- Another set of jobs, where no thread keeps the address of a new one. -/
theorem Constant.withJobs (constant : ids.Constant) {created : Nat}
    (old : ∀ {thread address job}, ids.tlsSrc thread = some address →
      jobs address = some job → ids.jobs address = some job) :
    Constant { ids with jobs, created } :=
  { constant with
    kept := fun call member run among inside _ _ source found =>
      constant.kept call member run among inside source
        (old source found) }

omit [DecidableEq Thread] [DecidableEq Address] in
theorem Constant.start (constant : ids.Constant) (thread : Thread)
    (serial : Nat) :
    Constant { ids with
      runs := ⟨thread, serial, ids.started⟩ :: ids.runs
      started := ids.started + 1 } := by
  constructor
  case started =>
    intro run among
    rcases List.mem_cons.mp among with rfl | old
    · exact Nat.lt_succ_self _
    · exact Nat.lt_succ_of_lt (constant.started run old)
  case past =>
    intro call member run inside
    obtain ⟨own, before⟩ := constant.past call member run inside
    exact ⟨own, Nat.lt_succ_of_lt before⟩
  case kept =>
    intro call member run among inside
    rcases List.mem_cons.mp among with rfl | old
    · exact absurd (constant.past call member _ inside).2
        (Nat.lt_irrefl _)
    · exact constant.kept call member run old inside
  case same => exact constant.same

omit [DecidableEq Address] in
theorem Constant.finish (constant : ids.Constant) (run : JobRun Thread) :
    Constant { ids with runs := ids.runs.erase run } :=
  ⟨fun other left => constant.started other (List.mem_of_mem_erase left),
    constant.past,
    fun call member other left =>
      constant.kept call member other (List.mem_of_mem_erase left),
    constant.same⟩

omit [DecidableEq Address] in
/-- A call whose answer is the one of every earlier call of its executions. -/
theorem Constant.answer (started : ∀ run ∈ ids.runs, run.number < ids.started)
    (past : ∀ call ∈ ids.calls, ∀ run ∈ call.runs,
      run.job = call.job ∧ run.number < ids.started)
    (same : ∀ call ∈ ids.calls, ∀ other ∈ ids.calls, ∀ run ∈ call.runs,
      run ∈ other.runs → call.id = other.id)
    (agrees : ∀ call ∈ ids.calls, ∀ run ∈ ids.runsOf thread job.serial,
      run ∈ call.runs → call.id = id)
    (kept : ∀ call ∈ (⟨thread, job.serial, ids.runsOf thread job.serial, id⟩ ::
        ids.calls : List (TaskIdCall Thread)),
      ∀ run ∈ ids.runs, run ∈ call.runs →
      ∀ {address job}, ids.tlsSrc run.thread = some address →
        ids.jobs address = some job → job.serial = run.job →
          ids.tlsId run.thread = call.id) :
    Constant { ids with
      calls := ⟨thread, job.serial, ids.runsOf thread job.serial, id⟩ ::
        ids.calls } := by
  refine ⟨started, ?_, kept, ?_⟩
  · intro call among run inside
    rcases List.mem_cons.mp among with rfl | old
    · obtain ⟨running, _, own⟩ := mem_runsOf.mp inside
      exact ⟨own, started run running⟩
    · exact past call old run inside
  · intro call among other among' run inside inside'
    rcases List.mem_cons.mp among with rfl | old <;>
      rcases List.mem_cons.mp among' with rfl | old'
    · rfl
    · exact (agrees other old' run inside inside').symm
    · exact agrees call old run inside' inside
    · exact same call old other old' run inside inside'

omit [DecidableEq Address] in
theorem Constant.recall (constant : ids.Constant)
    (alive : ids.jobs address = some job)
    (source : ids.tlsSrc thread = some address) :
    Constant { ids with
      calls := ⟨thread, job.serial, ids.runsOf thread job.serial,
        ids.tlsId thread⟩ :: ids.calls } := by
  have agrees : ∀ call ∈ ids.calls,
      ∀ run ∈ ids.runsOf thread job.serial, run ∈ call.runs →
        call.id = ids.tlsId thread := by
    intro call member run among inside
    obtain ⟨running, here, own⟩ := mem_runsOf.mp among
    have kept := constant.kept call member run running inside
      (here ▸ source) alive own.symm
    rw [← here]
    exact kept.symm
  refine Constant.answer constant.started constant.past constant.same agrees
    ?_
  intro call among run running inside
  rcases List.mem_cons.mp among with rfl | old
  · intro _ _ _ _ _
    obtain ⟨_, here, _⟩ := mem_runsOf.mp inside
    exact here ▸ rfl
  · exact constant.kept call old run running inside

omit [DecidableEq Address] in
/-- A thread that has not asked the job in its executions of the task so far
may be given any number. -/
theorem Constant.assign (constant : ids.Constant)
    (same : ∀ {other job'}, jobs other = some job' →
      ∃ job, ids.jobs other = some job ∧ job.serial = job'.serial)
    (alive : ids.jobs address = some job) (first : ¬ids.Forgets thread job) :
    Constant { ids with
      jobs
      tlsSrc := Function.update ids.tlsSrc thread (some address)
      tlsId := Function.update ids.tlsId thread id
      calls := ⟨thread, job.serial, ids.runsOf thread job.serial, id⟩ ::
        ids.calls } := by
  refine @Constant.answer Thread Address _ { ids with
      jobs
      tlsSrc := Function.update ids.tlsSrc thread (some address)
      tlsId := Function.update ids.tlsId thread id } thread job id
    constant.started constant.past constant.same ?_ ?_
  · intro call member run among inside
    exact absurd ⟨call, member, run, among, inside⟩ first
  · intro call among run running inside place job' source found own
    dsimp only at source ⊢
    by_cases here : run.thread = thread
    · rw [here, Function.update_self]
      rcases List.mem_cons.mp among with rfl | old
      · rfl
      · rw [here, Function.update_self] at source
        cases source
        obtain ⟨job'', found', equal⟩ := same found
        obtain rfl := Option.some.inj (alive.symm.trans found')
        refine absurd ⟨call, old, run, mem_runsOf.mpr ?_, inside⟩ first
        exact ⟨running, here, own.symm.trans equal.symm⟩
    · rw [Function.update_of_ne here] at source ⊢
      rcases List.mem_cons.mp among with rfl | old
      · exact absurd (mem_runsOf.mp inside).2.1 here
      · obtain ⟨job'', found', equal⟩ := same found
        exact constant.kept call old run running inside source found'
          (equal.trans own)

theorem Constant.step (constant : ids.Constant) (clear : ¬ids.Confuses action)
    (taken : ids.step action = some next) : next.Constant := by
  cases action with
  | create address =>
    rw [JobTaskIds.step] at taken
    split at taken <;> cases taken
    refine constant.withJobs fun {thread _ _} source found => ?_
    rcases update_some found with ⟨here, _⟩ | ⟨_, old⟩
    · exact absurd ⟨thread, here ▸ source⟩ clear
    · exact old
  | destroy address =>
    cases taken
    refine constant.withJobs fun _ found => ?_
    rcases update_some found with ⟨_, new⟩ | ⟨_, old⟩
    · cases new
    · exact old
  | run thread address =>
    rw [JobTaskIds.step] at taken
    split at taken <;> cases taken
    exact constant.start thread _
  | finish run =>
    cases taken
    exact constant.finish run
  | getTaskId thread address =>
    obtain ⟨job, alive, ⟨other, rfl⟩ | ⟨same, rfl⟩⟩ := step_getTaskId taken
    · refine constant.assign (fun {place job'} found => ?_) alive
        fun forgets => clear ⟨other, job, alive, .inr forgets⟩
      rcases update_some found with ⟨here, new⟩ | ⟨_, old⟩
      · cases new
        exact ⟨job, here ▸ alive, rfl⟩
      · exact ⟨job', old, rfl⟩
    · exact constant.recall alive same

/-- Where no job is created at an address that a thread keeps, no thread asks
another job between two calls in one execution, and no job gives out all
numbers, two threads are given different numbers by one job, and a thread is
given the same number all over an execution of the job's task. -/
theorem task_ids_identify_workers
    {actions : List (JobAction Thread Address)}
    (ran : perform JobTaskIds.step {} actions = some ids)
    (clear : Avoids JobTaskIds.step Confuses {} actions) :
    (∀ call ∈ ids.calls, ∀ other ∈ ids.calls, call.job = other.job →
      call.thread ≠ other.thread → call.id ≠ other.id) ∧
    ∀ call ∈ ids.calls, ∀ other ∈ ids.calls, ∀ run ∈ call.runs,
      run ∈ other.runs → call.id = other.id := by
  have distinct : ids.Distinct := by
    refine perform_avoiding (fun distinct clear taken =>
      distinct.step clear taken) ran clear ?_
    constructor <;> simp
  have constant : ids.Constant := by
    refine perform_avoiding (fun constant clear taken =>
      constant.step clear taken) ran clear ?_
    constructor <;> simp
  refine ⟨fun call member other member' jobs threads equal => ?_, constant.same⟩
  exact threads (distinct.owner call member other member' jobs equal)

def twoWorkers : List (JobAction Bool Unit) :=
  [.create (), .run false (), .run true (), .getTaskId false (),
    .getTaskId true (), .getTaskId false ()]

theorem task_ids_identify_workers_two :
    ∃ ids, perform JobTaskIds.step {} twoWorkers = some ids ∧
      ids.calls.map (fun call => (call.thread, call.id)) =
        [(false, 0), (true, 1), (false, 0)] ∧
      ∀ call ∈ ids.calls, ∀ other ∈ ids.calls, call.job = other.job →
        call.thread ≠ other.thread → call.id ≠ other.id := by
  have ran : perform JobTaskIds.step {} twoWorkers =
    some ((perform JobTaskIds.step {} twoWorkers).getD {}) := rfl
  exact ⟨_, ran, rfl, (task_ids_identify_workers ran (by decide)).1⟩

/-- A second job at the address of the first one: the first thread is given
the number of the first job, which is the second thread's number. -/
def reusedAddress : List (JobAction Bool Unit) :=
  [.create (), .getTaskId false (), .destroy (), .create (),
    .getTaskId true (), .getTaskId false ()]

/-- The thread works on a second job in the midst of a task of the first
one. -/
def nestedJob : List (JobAction Unit Bool) :=
  [.create false, .create true, .run () false, .getTaskId () false,
    .run () true, .getTaskId () true, .finish ⟨(), 1, 1⟩,
    .getTaskId () false]

theorem task_ids_confused :
    (perform JobTaskIds.step {} reusedAddress).map
        (fun ids => ids.calls.map fun call =>
          (call.thread, call.job, call.id)) =
      some [(false, 1, 0), (true, 1, 0), (false, 0, 0)] ∧
    (perform JobTaskIds.step {} nestedJob).map JobTaskIds.calls =
      some [⟨(), 0, [⟨(), 0, 0⟩], 1⟩, ⟨(), 1, [⟨(), 1, 1⟩], 0⟩,
        ⟨(), 0, [⟨(), 0, 0⟩], 0⟩] := by
  decide +kernel

end JobTaskIds

end Libnei.Task
