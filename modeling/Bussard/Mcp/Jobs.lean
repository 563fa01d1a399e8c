import Std.Data.ExtTreeMap.Lemmas
import Bussard.Lib.Decimal
import Bussard.Lib.Exclusive
import Bussard.Lib.Run
import Bussard.Model.Merge

/-! The job table of the server: every long operation is a job, one job at a time has the bus, and
a job that waits for the human gives it up meanwhile. -/
namespace Bussard.Mcp

open Transport Merge Exclusive

/-- A JSON value as far as the table looks into it; a map is sorted by key. -/
inductive Value where
  | null
  | bool (value : Bool)
  | number (text : String)
  | string (text : String)
  | array (items : List Value)
  | object (fields : List (String × Value))

namespace Value

def insertField (key : String) (value : Value) : List (String × Value) → List (String × Value)
  | [] => [(key, value)]
  | (other, old) :: rest =>
      if other = key then (key, value) :: rest
      else if key < other then (key, value) :: (other, old) :: rest
      else (other, old) :: insertField key value rest

def field (value : Value) (key : String) : Value :=
  match value with
  | .object fields => (fields.lookup key).getD .null
  | _ => .null

def isText (value : Value) (text : String) : Bool :=
  match value with
  | .string held => held == text
  | _ => false

end Value

inductive JobKind where
  | apply
  | plan
  | read
  | scan
  | add
  | replace
  | commission
  deriving DecidableEq, Repr

def JobKind.asStr : JobKind → String
  | .apply => "apply"
  | .plan => "plan"
  | .read => "read"
  | .scan => "scan"
  | .add => "add"
  | .replace => "replace"
  | .commission => "commission"

inductive PlanClaim where
  | new (id : String)
  | running (id : String)
  deriving DecidableEq, Repr

inductive JobState where
  | running
  | done
  deriving DecidableEq, Repr

/-- Times are milliseconds since the epoch; `done` is what the waiters watch. -/
structure Job where
  kind : JobKind
  address : Option IndividualAddress
  subject : String
  startedAt : Nat
  finishedAt : Option Nat
  state : JobState
  step : String
  question : Option String
  progress : List (String × Value)
  context : Value
  result : Option Value
  record : Option String
  done : Bool

namespace Job

/-- A finished scan of a line. -/
def scanned (job : Job) (line : String) : Bool :=
  job.kind = .scan && job.state = .done && (job.context.field "line").isText line

/-- A finished plan of a device. -/
def planned (job : Job) (address : IndividualAddress) : Bool :=
  job.kind = .plan && job.address = some address && job.state = .done

def refused (job : Job) (reason : String) : Value :=
  .object [("address", match job.address with
      | some address => .string (showIndividual address)
      | none => .null),
    ("ok", .bool false), ("reason", .string reason), ("refused", .bool true)]

/-- The end of a job with its result. -/
def ended (job : Job) (now : Nat) (step : String) (result : Value) : Job :=
  { job with
    state := .done
    finishedAt := some now
    step := step
    question := none
    result := some result
    done := true }

end Job

abbrev Jobs := Std.ExtTreeMap String Job

/-- What the lock guards. -/
structure Inner where
  running : Option String
  jobs : Jobs
  last : Std.ExtTreeMap IndividualAddress String

namespace Inner

def empty : Inner := ⟨none, ∅, ∅⟩

/-- What the caller is told to do once the slot is free. -/
def again : JobKind → String
  | .scan => "scan again"
  | .add => "add the device again"
  | .replace => "replace the device again"
  | .commission => "commission the line again"
  | _ => "plan again"

/-- The refusal that names the job in the slot. -/
def refusal (id : String) (job : Job) (wanting : JobKind) : String :=
  let device := job.subject
  match job.kind, wanting with
  | .apply, .apply =>
      "an apply is already running on this server: job " ++ id ++ " for " ++ device ++
        "; one apply at a time. Call knx_apply_status with job " ++ id ++
        " until it is done, then plan again"
  | .apply, .read =>
      "an apply is running on this server (job " ++ id ++ " for " ++ device ++
        "); call knx_job_status with job " ++ id ++ " until it is done, then call again"
  | .apply, _ =>
      "an apply is running on this server (job " ++ id ++ " for " ++ device ++
        "); call knx_apply_status with job " ++ id ++ " until it is done, then " ++ again wanting
  | .read, _ =>
      "a read is already running on this server: job " ++ id ++ " reads " ++ device ++
        "; one bus job at a time. Call knx_job_status with job " ++ id ++
        " until it is done, then call again"
  | .plan, _ =>
      "a plan is already running on this server: job " ++ id ++ " reads " ++ device ++
        "; one bus job at a time. Call knx_apply_status with job " ++ id ++
        " until it is done, then call again"
  | .scan, _ =>
      "a scan is already running on this server: job " ++ id ++ " sweeps " ++ device ++
        "; one bus job at a time. Call knx_job_status with job " ++ id ++
        " until it is done, then call again"
  | .add, _ =>
      "a device is being added on this server: job " ++ id ++
        "; one bus job at a time. Call knx_job_status with job " ++ id ++
        " until it is done or waits for an answer, then call again"
  | .replace, _ =>
      "a device is being replaced on this server: job " ++ id ++ " for " ++ device ++
        "; one bus job at a time. Call knx_job_status with job " ++ id ++
        " until it is done or waits for an answer, then call again"
  | .commission, _ =>
      device ++ " is being commissioned on this server: job " ++ id ++
        "; one bus job at a time. Call knx_job_status with job " ++ id ++
        " until it is done or waits for an answer (or stop it with knx_commission_line " ++
        "\x7bjob, answer: \"stop\"\x7d), then call again"

def busyMessage (inner : Inner) (wanting : JobKind) : Option String :=
  match inner.running with
  | none => none
  | some id => inner.jobs[id]?.map fun job => refusal id job wanting

/-- The id a job gets: the plain one, or the first numbered one that is free. -/
def candidate (base : String) : Nat → String
  | 0 => base
  | n + 1 => base ++ "-" ++ toString (n + 2)

/-- The loop over the candidates; a table of `fuel` jobs cannot hold them all. -/
def firstFree (jobs : Jobs) (base : String) : Nat → Nat → String
  | 0, n => candidate base n
  | fuel + 1, n =>
      if candidate base n ∈ jobs then firstFree jobs base fuel (n + 1) else candidate base n

def freshId (jobs : Jobs) (base : String) : String := firstFree jobs base jobs.size 0

def tag : Option IndividualAddress → Option String → String
  | some address, _ => showIndividual address
  | none, some line => line
  | none, none => "bus"

def subject (kind : JobKind) : Option IndividualAddress → Option String → String
  | some address, _ => showIndividual address
  | none, some line => "line " ++ line
  | none, none => if kind = .add then "the new device" else "the bus"

def firstStep : JobKind → String
  | .apply => "pre-flight: reading the device and checking the plan"
  | .plan => "reading the device"
  | .read => "reading the bus"
  | .scan => "scanning the line"
  | .add => "press_button"
  | .replace => "check_gone"
  | .commission => "checking which devices already answer"

def newJob (now : Nat) (kind : JobKind) (address : Option IndividualAddress)
    (line : Option String) : Job where
  kind := kind
  address := address
  subject := subject kind address line
  startedAt := now
  finishedAt := none
  state := .running
  step := firstStep kind
  question := none
  progress := []
  context := match line with
    | some line => .object [("line", .string line)]
    | none => .null
  result := none
  record := none
  done := false

def newId (inner : Inner) (now : Nat) (kind : JobKind) (address : Option IndividualAddress)
    (line : Option String) : String :=
  freshId inner.jobs (kind.asStr ++ "-" ++ toString now ++ "-" ++ tag address line)

def insert (inner : Inner) (now : Nat) (kind : JobKind) (address : Option IndividualAddress)
    (line : Option String) : String × Inner :=
  let id := newId inner now kind address line
  (id, { inner with
    jobs := inner.jobs.insert id (newJob now kind address line)
    running := some id })

/-- A claim of the slot for a job of a kind. -/
def claimSlot (inner : Inner) (now : Nat) (kind : JobKind) (address : Option IndividualAddress)
    (line : Option String) : Except String String × Inner :=
  match inner.busyMessage kind with
  | some refusal => (.error refusal, inner)
  | none =>
      let (id, inner) := inner.insert now kind address line
      (.ok id, inner)

def claim (inner : Inner) (now : Nat) (address : IndividualAddress) :
    Except String String × Inner :=
  inner.claimSlot now .apply (some address) none

def claimRead (inner : Inner) (now : Nat) (address : IndividualAddress) :
    Except String String × Inner :=
  inner.claimSlot now .read (some address) none

def claimAdd (inner : Inner) (now : Nat) : Except String String × Inner :=
  inner.claimSlot now .add none none

def claimReplace (inner : Inner) (now : Nat) (address : IndividualAddress) :
    Except String String × Inner :=
  inner.claimSlot now .replace (some address) none

def claimCommission (inner : Inner) (now : Nat) (line : String) : Except String String × Inner :=
  inner.claimSlot now .commission none (some line)

def claimScan (inner : Inner) (now : Nat) (line : String) : Except String String × Inner :=
  match inner.busyMessage .scan with
  | some refusal => (.error refusal, inner)
  | none =>
      let (id, inner) := inner.insert now .scan none (some line)
      (.ok id, { inner with jobs := inner.jobs.filter fun jobId job =>
        jobId == id || !(job.scanned line) })

/-- The plan of the device that holds the slot. -/
def runningPlan (inner : Inner) (address : IndividualAddress) : Option String :=
  inner.running.filter fun id => inner.jobs[id]?.any fun job =>
    job.kind = .plan && job.address = some address

def claimPlan (inner : Inner) (now : Nat) (address : IndividualAddress) :
    Except String PlanClaim × Inner :=
  match inner.runningPlan address with
  | some id => (.ok (.running id), inner)
  | none =>
      match inner.busyMessage .plan with
      | some refusal => (.error refusal, inner)
      | none =>
          let (id, inner) := inner.insert now .plan (some address) none
          (.ok (.new id), { inner with jobs := inner.jobs.filter fun _ job =>
            !(job.planned address) })

/-- A change of one job, if there is such a job. -/
def update (inner : Inner) (id : String) (change : Job → Job) : Inner :=
  { inner with jobs := inner.jobs.modify id change }

def vacate (inner : Inner) (id : String) : Inner :=
  if inner.running = some id then { inner with running := none } else inner

def forget (inner : Inner) (id key : String) : Inner :=
  inner.update id fun job => match job.context with
    | .object fields => { job with context := .object (fields.filter fun field => field.1 ≠ key) }
    | _ => job

/-- The fields of a paused job go to the top of its status. -/
def extendContext (context detail : Value) : Value :=
  match detail, context with
  | .object added, .object fields =>
      .object (added.foldl (fun fields field => Value.insertField field.1 field.2 fields) fields)
  | .object added, _ => .object added
  | _, context => context

def pause (inner : Inner) (id step question : String) (address : Option IndividualAddress)
    (detail : Value) : Inner :=
  (inner.vacate id).update id fun job => { job with
    step := step
    question := some question
    address := address.or job.address
    context := extendContext job.context detail }

def resume (inner : Inner) (id step : String) : Except String Unit × Inner :=
  match inner.jobs[id]? with
  | none => (.error ("no job " ++ id ++ " in this session"), inner)
  | some job =>
      if job.state = .running ∧ inner.running ≠ some id then
        match inner.busyMessage job.kind with
        | some refusal => (.error refusal, inner)
        | none =>
            (.ok (), { inner.update id fun job => { job with step := step, question := none } with
              running := some id })
      else (.error ("job " ++ id ++ " is not waiting for an answer"), inner)

def refuse (inner : Inner) (now : Nat) (id reason : String) : Inner :=
  (inner.vacate id).update id fun job => job.ended now "refused" (job.refused reason)

def abandon (inner : Inner) (id : String) : Inner :=
  vacate { inner with jobs := inner.jobs.erase id } id

def started (inner : Inner) (id : String) (context : Value) (record : Option String) : Inner :=
  match inner.jobs[id]? with
  | none => inner
  | some job =>
      let inner := inner.update id fun job => { job with context, record, step := "writing" }
      match job.address with
      | some address => { inner with last := inner.last.insert address id }
      | none => inner

def setStep (inner : Inner) (id step : String) : Inner :=
  inner.update id fun job => { job with step }

def ask (inner : Inner) (id : String) (question : Option String) : Inner :=
  inner.update id fun job => { job with question }

def progress (inner : Inner) (id key : String) (value : Value) : Inner :=
  inner.update id fun job => { job with progress := Value.insertField key value job.progress }

def finish (inner : Inner) (now : Nat) (id : String) (result : Value) : Inner :=
  let inner := inner.vacate id
  match inner.jobs[id]? with
  | none => inner
  | some job =>
      let inner := inner.update id fun job => job.ended now "done" result
      match job.kind, job.address with
      | .apply, some address => { inner with last := inner.last.insert address id }
      | _, _ => inner

def result (inner : Inner) (id : String) : Option Value := inner.jobs[id]?.bind Job.result

end Inner

/-- What a tool or a job's task asks of the table. -/
inductive Call where
  | claim (address : IndividualAddress)
  | claimScan (line : String)
  | claimPlan (address : IndividualAddress)
  | claimRead (address : IndividualAddress)
  | claimAdd
  | claimReplace (address : IndividualAddress)
  | claimCommission (line : String)
  | forget (id key : String)
  | pause (id step question : String) (address : Option IndividualAddress) (detail : Value)
  | resume (id step : String)
  | refuse (id reason : String)
  | abandon (id : String)
  | started (id : String) (context : Value) (record : Option String)
  | setStep (id step : String)
  | ask (id : String) (question : Option String)
  | progress (id key : String) (value : Value)
  | finish (id : String) (result : Value)

namespace Inner

/-- A claim that is granted gives the slot to its job. -/
def granted (reply : Except String String × Inner) : Inner × List (Event String) :=
  (reply.2, match reply.1 with
    | .ok id => [.granted id]
    | .error _ => [])

/-- One call at a time gets the lock, at whatever time the clock shows. -/
def step (inner : Inner) (input : Nat × Call) : Inner × List (Event String) :=
  match input.2 with
  | .claim address => granted (inner.claim input.1 address)
  | .claimScan line => granted (inner.claimScan input.1 line)
  | .claimPlan address =>
      ((inner.claimPlan input.1 address).2, match (inner.claimPlan input.1 address).1 with
        | .ok (.new id) => [.granted id]
        | _ => [])
  | .claimRead address => granted (inner.claimRead input.1 address)
  | .claimAdd => granted (inner.claimAdd input.1)
  | .claimReplace address => granted (inner.claimReplace input.1 address)
  | .claimCommission line => granted (inner.claimCommission input.1 line)
  | .forget id key => (inner.forget id key, [])
  | .pause id step question address detail =>
      (inner.pause id step question address detail, [.released id])
  | .resume id step =>
      ((inner.resume id step).2, match (inner.resume id step).1 with
        | .ok () => [.granted id]
        | .error _ => [])
  | .refuse id reason => (inner.refuse input.1 id reason, [.released id])
  | .abandon id => (inner.abandon id, [.released id])
  | .started id context record => (inner.started id context record, [])
  | .setStep id step => (inner.setStep id step, [])
  | .ask id question => (inner.ask id question, [])
  | .progress id key value => (inner.progress id key value, [])
  | .finish id result => (inner.finish input.1 id result, [.released id])

/-- The table after a whole order of calls. -/
def table (calls : List (Nat × Call)) : Inner := Run.after step empty calls

end Inner

/-- A job is done, has its result, tells its waiters and its time of end all at once. -/
structure Job.Whole (job : Job) : Prop where
  result : job.result.isSome = true ↔ job.state = .done
  told : job.done = true ↔ job.state = .done
  finished : job.finishedAt.isSome = true ↔ job.state = .done

/-- A change that leaves alone whether and how a job has ended. -/
structure Job.KeepsEnd (change : Job → Job) : Prop where
  kind : ∀ job, (change job).kind = job.kind
  state : ∀ job, (change job).state = job.state
  result : ∀ job, (change job).result = job.result
  told : ∀ job, (change job).done = job.done
  finished : ∀ job, (change job).finishedAt = job.finishedAt

theorem Job.KeepsEnd.whole {change : Job → Job} {job : Job} (h : Job.KeepsEnd change)
    (hWhole : job.Whole) :
    (change job).Whole := by
  constructor
  · rw [h.result, h.state]
    exact hWhole.result
  · rw [h.told, h.state]
    exact hWhole.told
  · rw [h.finished, h.state]
    exact hWhole.finished

namespace Inner

section
variable {jobs : Jobs} {base : String}

/-- No two ids that are tried are the same. -/
theorem candidate_injective (base : String) : Function.Injective (candidate base) := by
  have hPlain (n : Nat) : base ≠ candidate base (n + 1) := by
    intro hSame
    have hLength := congrArg String.length hSame
    rw [candidate, String.length_append, String.length_append] at hLength
    have hDash : ("-" : String).length = 1 := rfl
    omega
  intro m n hSame
  cases m with
  | zero =>
      cases n with
      | zero => rfl
      | succ n => exact absurd hSame (hPlain n)
  | succ m =>
      cases n with
      | zero => exact absurd hSame.symm (hPlain m)
      | succ n =>
          have hNumber := (String.append_right_inj _).mp hSame
          have := Decimal.natToString_injective hNumber
          omega

theorem firstFree_not_mem {fuel n k : Nat} (hLess : k ≤ fuel) (hFree : candidate base (n + k) ∉ jobs) :
    firstFree jobs base fuel n ∉ jobs := by
  induction fuel generalizing n k with
  | zero =>
      obtain rfl : k = 0 := by omega
      exact hFree
  | succ fuel ih =>
      rw [firstFree]
      split
      · rename_i hTaken
        cases k with
        | zero => exact absurd hTaken hFree
        | succ k =>
            have hNext : n + 1 + k = n + (k + 1) := by omega
            exact ih (Nat.le_of_succ_le_succ hLess) (hNext ▸ hFree)
      · assumption

/-- The search for an id ends: the table cannot hold more candidates than it has jobs. -/
theorem freshId_not_mem (jobs : Jobs) (base : String) : freshId jobs base ∉ jobs := by
  by_contra hTaken
  have hAll (k : Nat) (hLess : k ≤ jobs.size) : candidate base k ∈ jobs := by
    by_contra hFree
    rw [← Nat.zero_add k] at hFree
    exact firstFree_not_mem hLess hFree hTaken
  have hSubset : (List.range (jobs.size + 1)).map (candidate base) ⊆ jobs.keys := by
    intro id hMem
    obtain ⟨k, hRange, rfl⟩ := List.mem_map.mp hMem
    rw [Std.ExtTreeMap.mem_keys]
    exact hAll k (Nat.le_of_lt_succ (List.mem_range.mp hRange))
  have hNodup : ((List.range (jobs.size + 1)).map (candidate base)).Nodup :=
    List.nodup_range.map (candidate_injective base)
  have hLength := hNodup.length_le_of_subset hSubset
  rw [List.length_map, List.length_range, Std.ExtTreeMap.length_keys] at hLength
  omega

end

theorem getElem?_update (inner : Inner) (id : String) (change : Job → Job) (key : String) :
    (inner.update id change).jobs[key]? =
      if id = key then inner.jobs[key]?.map change else inner.jobs[key]? := by
  rw [update, Std.ExtTreeMap.getElem?_modify]
  simp only [Std.LawfulEqOrd.compare_eq_iff_eq]
  split <;> simp_all

@[simp] theorem running_vacate (inner : Inner) (id : String) :
    (inner.vacate id).running = if inner.running = some id then none else inner.running := by
  rw [vacate]
  split <;> simp_all

@[simp] theorem jobs_vacate (inner : Inner) (id : String) : (inner.vacate id).jobs = inner.jobs := by
  rw [vacate]
  split <;> rfl

end Inner

/-- The call ends the job. -/
def Call.Ends (id : String) : Call → Prop
  | .refuse other _ | .finish other _ => other = id
  | _ => False

/-- The call takes the job out of the table: it gives it up, or a new job replaces it. -/
def Call.Drops (inner : Inner) (id : String) : Call → Prop
  | .abandon other => other = id
  | .claimPlan address => ∃ job, inner.jobs[id]? = some job ∧ job.planned address = true
  | .claimScan line => ∃ job, inner.jobs[id]? = some job ∧ job.scanned line = true
  | _ => False

/-- Everything a call can do to the slot and the jobs. -/
inductive Effect (inner : Inner) (call : Call) (next : Inner) : List (Event String) → Prop where
  | idle (hRunning : next.running = inner.running) (hJobs : next.jobs = inner.jobs) :
      Effect inner call next []
  | opened (id : String) (job : Job) (hFresh : id ∉ inner.jobs) (hFree : inner.busyMessage job.kind = none)
      (hWhole : job.Whole) (hState : job.state = .running) (hRunning : next.running = some id)
      (hNew : next.jobs[id]? = some job)
      (hOthers : ∀ other, other ≠ id →
        next.jobs[other]? = inner.jobs[other]? ∨ next.jobs[other]? = none ∧ call.Drops inner other) :
      Effect inner call next [.granted id]
  | changed (id : String) (change : Job → Job) (hKeeps : Job.KeepsEnd change)
      (hRunning : next.running = inner.running) (hJobs : next.jobs = (inner.update id change).jobs) :
      Effect inner call next []
  | paused (id : String) (change : Job → Job) (hKeeps : Job.KeepsEnd change)
      (hRunning : next.running = (inner.vacate id).running)
      (hJobs : next.jobs = (inner.update id change).jobs) : Effect inner call next [.released id]
  | resumed (id : String) (job : Job) (change : Job → Job) (hKeeps : Job.KeepsEnd change)
      (hJob : inner.jobs[id]? = some job) (hState : job.state = .running)
      (hFree : inner.busyMessage job.kind = none) (hRunning : next.running = some id)
      (hJobs : next.jobs = (inner.update id change).jobs) : Effect inner call next [.granted id]
  | ended (id : String) (change : Job → Job) (hEnds : call.Ends id)
      (hChange : ∀ job, (change job).kind = job.kind ∧ (change job).Whole ∧ (change job).state = .done)
      (hRunning : next.running = (inner.vacate id).running)
      (hJobs : next.jobs = (inner.update id change).jobs) : Effect inner call next [.released id]
  | abandoned (id : String) (hDrops : call.Drops inner id)
      (hRunning : next.running = (inner.vacate id).running)
      (hJobs : next.jobs = inner.jobs.erase id) : Effect inner call next [.released id]

namespace Inner

section
variable {inner : Inner} {now : Nat} {call : Call}

theorem newJob_whole (now : Nat) (kind : JobKind) (address : Option IndividualAddress)
    (line : Option String) : (newJob now kind address line).Whole := by
  constructor <;> simp [newJob]

theorem newId_not_mem (inner : Inner) (now : Nat) (kind : JobKind)
    (address : Option IndividualAddress) (line : Option String) :
    inner.newId now kind address line ∉ inner.jobs :=
  freshId_not_mem _ _

theorem getElem?_insert_new (inner : Inner) (now : Nat) (kind : JobKind)
    (address : Option IndividualAddress) (line : Option String) (key : String) :
    (inner.insert now kind address line).2.jobs[key]? =
      if inner.newId now kind address line = key then some (newJob now kind address line)
      else inner.jobs[key]? := by
  rw [insert, Std.ExtTreeMap.getElem?_insert]
  simp only [Std.LawfulEqOrd.compare_eq_iff_eq]

/-- A new job takes the slot; finished ones that it replaces may go. -/
theorem opened_effect {kind : JobKind} {address : Option IndividualAddress} {line : Option String}
    {next : Inner} (keep : String → Job → Bool) (hFree : inner.busyMessage kind = none)
    (hRunning : next.running = some (inner.newId now kind address line))
    (hJobs : ∀ key : String, next.jobs[key]? =
      ((inner.insert now kind address line).2.jobs[key]?).filter (keep key))
    (hKept : keep (inner.newId now kind address line) (newJob now kind address line) = true)
    (hDrops : ∀ id job, id ≠ inner.newId now kind address line → inner.jobs[id]? = some job →
      keep id job = false → call.Drops inner id) :
    Effect inner call next [.granted (inner.newId now kind address line)] := by
  refine .opened _ (newJob now kind address line) (newId_not_mem inner now kind address line) hFree
    (newJob_whole ..) rfl hRunning ?_ ?_
  · rw [hJobs, getElem?_insert_new, if_pos rfl, Option.filter_some, if_pos hKept]
  · intro other hOther
    rw [hJobs, getElem?_insert_new, if_neg (Ne.symm hOther)]
    cases hJob : inner.jobs[other]? with
    | none => exact .inl rfl
    | some job =>
        cases hKeep : keep other job with
        | true => exact .inl (by rw [Option.filter_some, if_pos hKeep])
        | false =>
            refine .inr ⟨by rw [Option.filter_some, hKeep]; rfl, ?_⟩
            exact hDrops other job hOther hJob hKeep

theorem claimSlot_effect {call : Call} (kind : JobKind) (address : Option IndividualAddress)
    (line : Option String) :
    Effect inner call (granted (inner.claimSlot now kind address line)).1
      (granted (inner.claimSlot now kind address line)).2 := by
  rw [claimSlot]
  cases hFree : inner.busyMessage kind with
  | some refusal => exact .idle rfl rfl
  | none =>
      refine opened_effect (fun _ _ => true) hFree rfl ?_ rfl (by simp)
      intro key
      cases hJob : (inner.insert now kind address line).2.jobs[key]? with
      | none => exact hJob
      | some job => exact hJob

theorem claimScan_effect (line : String) :
    Effect inner (.claimScan line) (granted (inner.claimScan now line)).1
      (granted (inner.claimScan now line)).2 := by
  rw [claimScan]
  cases hFree : inner.busyMessage .scan with
  | some refusal => exact .idle rfl rfl
  | none =>
      let id := inner.newId now .scan none (some line)
      refine opened_effect (fun jobId job => jobId == id || !(job.scanned line)) hFree rfl ?_ ?_ ?_
      · intro key
        exact Std.ExtTreeMap.getElem?_filter'
      · simp [id]
      · intro other job hOther hJob hGone
        refine ⟨job, hJob, ?_⟩
        simp only [Bool.or_eq_false_iff, Bool.not_eq_false'] at hGone
        exact hGone.2

theorem claimPlan_effect (address : IndividualAddress) :
    Effect inner (.claimPlan address) (step inner (now, .claimPlan address)).1
      (step inner (now, .claimPlan address)).2 := by
  simp only [step, claimPlan]
  cases hShared : inner.runningPlan address with
  | some id => exact .idle rfl rfl
  | none =>
      cases hFree : inner.busyMessage .plan with
      | some refusal => exact .idle rfl rfl
      | none =>
          refine opened_effect (fun _ job => !(job.planned address)) hFree rfl ?_ ?_ ?_
          · intro key
            exact Std.ExtTreeMap.getElem?_filter'
          · simp [Job.planned, newJob]
          · intro other job hOther hJob hGone
            exact ⟨job, hJob, by simpa using hGone⟩

theorem resume_effect (id text : String) :
    Effect inner call (step inner (now, .resume id text)).1
      (step inner (now, .resume id text)).2 := by
  simp only [step, resume]
  cases hJob : inner.jobs[id]? with
  | none => exact .idle rfl rfl
  | some job =>
      simp only
      split
      · rename_i hPaused
        cases hFree : inner.busyMessage job.kind with
        | some refusal => exact .idle rfl rfl
        | none =>
            refine .resumed id job (fun job => { job with step := text, question := none })
              ⟨?_, ?_, ?_, ?_, ?_⟩ hJob hPaused.1 hFree rfl rfl <;> exact fun _ => rfl
      · exact .idle rfl rfl

theorem ended_whole (job : Job) (now : Nat) (text : String) (result : Value) :
    (job.ended now text result).Whole := by
  constructor <;> simp [Job.ended]

theorem started_effect (id : String) (context : Value) (record : Option String) :
    Effect inner call (inner.started id context record) [] := by
  rw [started]
  cases hJob : inner.jobs[id]? with
  | none => exact .idle rfl rfl
  | some job =>
      refine .changed id (fun job => { job with context, record, step := "writing" })
        ⟨fun _ => rfl, fun _ => rfl, fun _ => rfl, fun _ => rfl, fun _ => rfl⟩ ?_ ?_
      · dsimp only
        split <;> rfl
      · dsimp only
        split <;> rfl

/-- A job that ends releases the slot if it had it. -/
theorem finish_effect (id : String) (result : Value) :
    Effect inner (.finish id result) (inner.finish now id result) [.released id] := by
  refine .ended id (fun job => job.ended now "done" result) rfl
    (fun job => ⟨rfl, ended_whole .., rfl⟩) ?_ ?_
  · rw [finish]
    simp only [jobs_vacate]
    cases hJob : inner.jobs[id]? with
    | none => rfl
    | some job =>
        simp only
        split <;> rfl
  · rw [finish]
    simp only [jobs_vacate]
    cases hJob : inner.jobs[id]? with
    | none =>
        apply Std.ExtTreeMap.ext_getElem?
        intro key
        rw [jobs_vacate, getElem?_update]
        split
        · rename_i hSame
          rw [← hSame, hJob]
          rfl
        · rfl
    | some job =>
        simp only
        split <;> simp [update]

/-- What each call does to the table, one case for each. -/
theorem step_effect (inner : Inner) (input : Nat × Call) :
    Effect inner input.2 (step inner input).1 (step inner input).2 := by
  obtain ⟨now, call⟩ := input
  have hKeeps {change : Job → Job} (h : ∀ job, (change job).kind = job.kind ∧
      (change job).state = job.state ∧ (change job).result = job.result ∧
      (change job).done = job.done ∧ (change job).finishedAt = job.finishedAt) :
      Job.KeepsEnd change :=
    ⟨fun job => (h job).1, fun job => (h job).2.1, fun job => (h job).2.2.1,
      fun job => (h job).2.2.2.1, fun job => (h job).2.2.2.2⟩
  cases call with
  | claim address => exact claimSlot_effect .apply (some address) none
  | claimScan line => exact claimScan_effect line
  | claimPlan address => exact claimPlan_effect address
  | claimRead address => exact claimSlot_effect .read (some address) none
  | claimAdd => exact claimSlot_effect .add none none
  | claimReplace address => exact claimSlot_effect .replace (some address) none
  | claimCommission line => exact claimSlot_effect .commission none (some line)
  | forget id key =>
      refine .changed id _ (hKeeps ?_) rfl rfl
      intro job
      split <;> exact ⟨rfl, rfl, rfl, rfl, rfl⟩
  | pause id text question address detail =>
      refine .paused id (fun job => { job with
        step := text
        question := some question
        address := address.or job.address
        context := extendContext job.context detail })
        (hKeeps fun _ => ⟨rfl, rfl, rfl, rfl, rfl⟩) rfl ?_
      simp [step, pause, update]
  | resume id text => exact resume_effect id text
  | refuse id reason =>
      refine .ended id (fun job => job.ended now "refused" (job.refused reason)) rfl
        (fun job => ⟨rfl, ended_whole .., rfl⟩) rfl ?_
      simp [step, refuse, update]
  | abandon id =>
      refine .abandoned id rfl ?_ ?_
      · simp [step, abandon]
      · simp [step, abandon]
  | started id context record => exact started_effect id context record
  | setStep id text =>
      refine .changed id _ (hKeeps ?_) rfl rfl
      exact fun _ => ⟨rfl, rfl, rfl, rfl, rfl⟩
  | ask id question =>
      refine .changed id _ (hKeeps ?_) rfl rfl
      exact fun _ => ⟨rfl, rfl, rfl, rfl, rfl⟩
  | progress id key value =>
      refine .changed id _ (hKeeps ?_) rfl rfl
      exact fun _ => ⟨rfl, rfl, rfl, rfl, rfl⟩
  | finish id result => exact finish_effect id result

end

/-- The job in the slot is in the table and not done; every job is done with a result or neither. -/
structure Coherent (inner : Inner) : Prop where
  slot : ∀ id : String, inner.running = some id →
    ∃ job : Job, inner.jobs[id]? = some job ∧ job.state = .running
  whole : ∀ (id : String) (job : Job), inner.jobs[id]? = some job → job.Whole

section
variable {inner next : Inner} {call : Call} {events : List (Event String)} {id : String} {job : Job}

theorem coherent_empty : Coherent empty := by
  constructor
  · intro id h
    cases h
  · intro id job h
    simp [empty] at h

/-- A claim is refused exactly while a job has the slot. -/
theorem Coherent.busy_iff (h : Coherent inner) (wanting : JobKind) :
    inner.busyMessage wanting = none ↔ inner.running = none := by
  rw [busyMessage]
  cases hRunning : inner.running with
  | none => simp
  | some id =>
      obtain ⟨job, hJob, -⟩ := h.slot id hRunning
      simp [hJob]

/-- A change of a job that keeps its end keeps the table coherent. -/
theorem Coherent.changed {change : Job → Job} (h : Coherent inner) (hKeeps : Job.KeepsEnd change)
    (hJobs : next.jobs = (inner.update id change).jobs)
    (hRunning : ∀ other, next.running = some other →
      ∃ job : Job, inner.jobs[other]? = some job ∧ job.state = .running) : Coherent next := by
  constructor
  · intro other hOther
    obtain ⟨job, hJob, hState⟩ := hRunning other hOther
    rw [hJobs, getElem?_update, hJob]
    split
    · exact ⟨change job, rfl, (hKeeps.state job).trans hState⟩
    · exact ⟨job, rfl, hState⟩
  · intro other job hJob
    rw [hJobs, getElem?_update] at hJob
    split at hJob
    · obtain ⟨old, hOld, rfl⟩ := Option.map_eq_some_iff.mp hJob
      exact hKeeps.whole (h.whole other old hOld)
    · exact h.whole other job hJob

theorem Coherent.vacated (h : Coherent inner) {other : String}
    (hOther : (inner.vacate id).running = some other) :
    other ≠ id ∧ ∃ job : Job, inner.jobs[other]? = some job ∧ job.state = .running := by
  rw [running_vacate] at hOther
  split at hOther
  · cases hOther
  · rename_i hElse
    refine ⟨?_, h.slot other hOther⟩
    rintro rfl
    exact hElse hOther

/-- Every effect keeps the slot with a job that runs. -/
theorem Coherent.effect (h : Coherent inner) (hEffect : Effect inner call next events) :
    Coherent next := by
  cases hEffect with
  | idle hRunning hJobs =>
      constructor
      · rw [hRunning, hJobs]
        exact h.slot
      · rw [hJobs]
        exact h.whole
  | opened id new hFresh hFree hWhole hState hRunning hNew hOthers =>
      constructor
      · intro other hOther
        rw [hRunning] at hOther
        cases hOther
        exact ⟨new, hNew, hState⟩
      · intro other job hJob
        by_cases hSame : other = id
        · rw [hSame, hNew] at hJob
          cases hJob
          exact hWhole
        · rcases hOthers other hSame with hKept | ⟨hGone, -⟩
          · exact h.whole other job (hKept ▸ hJob)
          · rw [hGone] at hJob
            cases hJob
  | changed id change hKeeps hRunning hJobs =>
      exact h.changed hKeeps hJobs fun other hOther => h.slot other (hRunning ▸ hOther)
  | paused id change hKeeps hRunning hJobs =>
      exact h.changed hKeeps hJobs fun other hOther => (h.vacated (hRunning ▸ hOther)).2
  | resumed id job change hKeeps hJob hState hFree hRunning hJobs =>
      refine h.changed hKeeps hJobs fun other hOther => ?_
      rw [hRunning] at hOther
      cases hOther
      exact ⟨job, hJob, hState⟩
  | ended id change hEnds hChange hRunning hJobs =>
      constructor
      · intro other hOther
        obtain ⟨hElse, job, hJob, hState⟩ := h.vacated (hRunning ▸ hOther)
        refine ⟨job, ?_, hState⟩
        rw [hJobs, getElem?_update, if_neg (Ne.symm hElse)]
        exact hJob
      · intro other job hJob
        rw [hJobs, getElem?_update] at hJob
        split at hJob
        · obtain ⟨old, hOld, rfl⟩ := Option.map_eq_some_iff.mp hJob
          exact (hChange old).2.1
        · exact h.whole other job hJob
  | abandoned id hDrops hRunning hJobs =>
      constructor
      · intro other hOther
        obtain ⟨hElse, job, hJob, hState⟩ := h.vacated (hRunning ▸ hOther)
        refine ⟨job, ?_, hState⟩
        rw [hJobs, Std.ExtTreeMap.getElem?_erase]
        simpa [Ne.symm hElse] using hJob
      · intro other job hJob
        rw [hJobs, Std.ExtTreeMap.getElem?_erase] at hJob
        split at hJob
        · cases hJob
        · exact h.whole other job hJob

/-- In every state the table can get into, whatever is called in whatever order, only a job that is
not done has the slot, and a job is done exactly when it has its result. -/
theorem coherent_table (calls : List (Nat × Call)) : Coherent (table calls) := by
  have hAlong := @Run.along_of_forall _ _ _ step (fun _ _ => True) (fun _ _ => trivial) empty calls
  exact Run.after_invariant (fun inner input h _ => Coherent.effect h (step_effect inner input))
    coherent_empty hAlong

/-- The record of the grants tells who has the slot. -/
structure Slotted (log : List (Event String)) (inner : Inner) : Prop where
  coherent : Coherent inner
  alternates : Alternates log
  holder : holder log = inner.running

theorem Slotted.granted {log : List (Event String)} (h : Slotted log inner)
    (hFree : inner.running = none) (hNext : Coherent next) (hRunning : next.running = some id) :
    Slotted (log ++ [.granted id]) next where
  coherent := hNext
  alternates := .granted id h.alternates (h.holder.trans hFree)
  holder := by rw [holder_concat, holds, hRunning]

theorem Slotted.released {log : List (Event String)} (h : Slotted log inner)
    (hNext : Coherent next) (hRunning : next.running = (inner.vacate id).running) :
    Slotted (log ++ [.released id]) next where
  coherent := hNext
  alternates := .released id h.alternates
  holder := by rw [holder_concat, holds, h.holder, hRunning, running_vacate]

theorem Slotted.effect {log : List (Event String)} (h : Slotted log inner)
    (hEffect : Effect inner call next events) : Slotted (log ++ events) next := by
  have hNext := h.coherent.effect hEffect
  cases hEffect with
  | idle hRunning hJobs => exact ⟨hNext, by simpa using h.alternates, by simp [h.holder, hRunning]⟩
  | opened id new hFresh hFree hWhole hState hRunning hNew hOthers =>
      exact h.granted ((h.coherent.busy_iff _).mp hFree) hNext hRunning
  | changed id change hKeeps hRunning hJobs =>
      exact ⟨hNext, by simpa using h.alternates, by simp [h.holder, hRunning]⟩
  | paused id change hKeeps hRunning hJobs => exact h.released hNext hRunning
  | resumed id job change hKeeps hJob hState hFree hRunning hJobs =>
      exact h.granted ((h.coherent.busy_iff _).mp hFree) hNext hRunning
  | ended id change hEnds hChange hRunning hJobs => exact h.released hNext hRunning
  | abandoned id hDrops hRunning hJobs => exact h.released hNext hRunning

/-- One job at a time: whatever is called in whatever order, the slot is granted only when the job
that had it has paused, ended or been given up. -/
theorem slot_exclusive (calls : List (Nat × Call)) :
    Alternates (Run.outputs step empty calls) ∧
      holder (Run.outputs step empty calls) = (table calls).running := by
  have hAlong := @Run.along_of_forall _ _ _ step (fun _ _ => True) (fun _ _ => trivial) empty calls
  have hSlotted := Run.history_invariant step Slotted
    (fun log inner input h _ => h.effect (step_effect inner input))
    ⟨coherent_empty, .nil, rfl⟩ hAlong
  exact ⟨hSlotted.alternates, hSlotted.holder⟩

/-- A result stays until the job is given up, replaced or ended once more. -/
theorem result_effect {value : Value} (hResult : inner.result id = some value)
    (hEffect : Effect inner call next events) (hDrops : ¬ call.Drops inner id)
    (hEnds : ¬ call.Ends id) : next.result id = some value := by
  have hChanged {other : String} {change : Job → Job} (hJobs : next.jobs = (inner.update other change).jobs)
      (hSame : other = id → ∀ job, (change job).result = job.result) :
      next.result id = some value := by
    rw [result, hJobs, getElem?_update]
    split
    · rename_i hEq
      rw [← hResult, result]
      cases inner.jobs[id]? with
      | none => rfl
      | some job => exact hSame hEq job
    · exact hResult
  cases hEffect with
  | idle hRunning hJobs => rwa [result, hJobs]
  | opened other new hFresh hFree hWhole hState hRunning hNew hOthers =>
      have hElse : id ≠ other := by
        rintro rfl
        rw [Std.ExtTreeMap.mem_iff_isSome_getElem?] at hFresh
        rw [result] at hResult
        cases hJob : inner.jobs[id]? with
        | none => simp [hJob] at hResult
        | some job => simp [hJob] at hFresh
      rcases hOthers id hElse with hKept | ⟨-, hGone⟩
      · rwa [result, hKept]
      · exact absurd hGone hDrops
  | changed other change hKeeps hRunning hJobs => exact hChanged hJobs fun _ => hKeeps.result
  | paused other change hKeeps hRunning hJobs => exact hChanged hJobs fun _ => hKeeps.result
  | resumed other job change hKeeps hJob hState hFree hRunning hJobs =>
      exact hChanged hJobs fun _ => hKeeps.result
  | ended other change hOther hChange hRunning hJobs =>
      refine hChanged hJobs fun hSame => ?_
      subst hSame
      exact absurd hOther hEnds
  | abandoned other hOther hRunning hJobs =>
      have hElse : other ≠ id := by
        rintro rfl
        exact hDrops hOther
      rw [result, hJobs, Std.ExtTreeMap.getElem?_erase]
      simpa [hElse, result] using hResult

/-- Neither ends the job once more nor takes it out of the table. -/
def LeavesAlone (id : String) (inner : Inner) (input : Nat × Call) : Prop :=
  ¬ input.2.Drops inner id ∧ ¬ input.2.Ends id

/-- The result of a finished job can be read, and the job does not get the slot again, until it is
given up, replaced or ended once more. -/
theorem result_stays {before after : List (Nat × Call)} {value : Value}
    (hResult : (table before).result id = some value)
    (hAlong : Run.Along step (LeavesAlone id) (table before) after) :
    (table (before ++ after)).result id = some value ∧
      (table (before ++ after)).running ≠ some id := by
  have hStays : (table (before ++ after)).result id = some value := by
    rw [table, Run.after_append]
    exact @Run.after_invariant _ _ _ step (LeavesAlone id) (fun inner => inner.result id = some value)
      (fun inner input hKept hLeaves =>
        result_effect hKept (step_effect inner input) hLeaves.1 hLeaves.2) _ _ hResult hAlong
  refine ⟨hStays, ?_⟩
  intro hSlot
  obtain ⟨job, hJob, hState⟩ := (coherent_table _).slot id hSlot
  have hDone := ((coherent_table _).whole id job hJob).result.mp (by
    rw [result, hJob] at hStays
    simpa using congrArg Option.isSome hStays)
  rw [hDone] at hState
  cases hState

/-- The added device of one job is still told while the next one waits for the button. -/
theorem added_result_stays :
    (table [(0, .claimAdd), (1, .finish "add-0-bus" .null), (2, .claimAdd),
        (3, .setStep "add-2-bus" "identified")]).result "add-0-bus" = some .null ∧
      (table [(0, .claimAdd), (1, .finish "add-0-bus" .null), (2, .claimAdd),
        (3, .setStep "add-2-bus" "identified")]).running ≠ some "add-0-bus" :=
  @result_stays "add-0-bus" [(0, .claimAdd), (1, .finish "add-0-bus" .null)]
    [(2, .claimAdd), (3, .setStep "add-2-bus" "identified")] .null rfl
    ⟨⟨not_false, not_false⟩, ⟨not_false, not_false⟩, trivial⟩

end

end Inner

end Bussard.Mcp
