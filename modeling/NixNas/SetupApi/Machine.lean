import Mathlib.Logic.Function.Basic
import NixNas.Lib.Transition

/-!
# The setup capabilities (`services/nas_cockpit_api.py`)

The first-run wizard talks to the setup API without an account.  Whoever starts or resumes the setup
is handed a capability, which lets its holder follow the job and reboot the appliance at the end.
One request that changes something is handled at a time, and polls of the job come in between; the
server can be killed between any two steps, and the worker writes its reports whenever it likes.
-/

namespace NixNas.SetupApi

/-- The monotonic clock, in nanoseconds. -/
abbrev Time := Int

def seconds (n : Int) : Time := n * 1000000000

/-- `SETUP_CAPABILITY_INACTIVITY_SECONDS`. -/
def inactivity : Time := seconds (30 * 60)

/-- `SETUP_CAPABILITY_LIFETIME_SECONDS`. -/
def lifetime : Time := seconds (24 * 60 * 60)

/-- The completed plan that the durable state names. -/
structure Identity where
  planDigest : String
  completedAt : Int
  deriving DecidableEq, Repr

/-- `/var/lib/nas-setup/state.json`. -/
inductive Setup where
  | unfinished
  /-- With a plan digest and a time that are no such things it has no identity. -/
  | complete (identity : Option Identity)
  deriving DecidableEq, Repr

/-- `_setup_complete`. -/
def Setup.isComplete : Setup → Bool
  | .unfinished => false
  | .complete _ => true

/-- `_completed_setup_identity`. -/
def Setup.identity : Setup → Option Identity
  | .unfinished => none
  | .complete identity => identity

inductive JobStatus where
  | pending | submitted | running | complete | completeUnverified | failed | cancelled | other
  deriving DecidableEq, Repr

def JobStatus.isKnown : JobStatus → Bool
  | .cancelled | .other => false
  | _ => true

def JobStatus.isComplete : JobStatus → Bool
  | .complete | .completeUnverified => true
  | _ => false

def JobStatus.isFinished : JobStatus → Bool
  | .failed | .cancelled | .complete | .completeUnverified => true
  | _ => false

inductive Scope (JobId : Type) where
  | jobPollReboot (jobId : JobId)
  | completedReboot (identity : Identity)
  deriving DecidableEq, Repr

def Scope.isJob {JobId : Type} : Scope JobId → Bool
  | .jobPollReboot _ => true
  | .completedReboot _ => false

def Scope.isCompleted {JobId : Type} (scope : Scope JobId) : Bool := !scope.isJob

structure Record (JobId : Type) where
  scope : Scope JobId
  issuedAt : Time
  lastUsedAt : Time
  deriving DecidableEq, Repr

def Record.isExpired {JobId : Type} (record : Record JobId) (moment : Time) : Bool :=
  moment - record.issuedAt > lifetime || moment - record.lastUsedAt > inactivity

/-- Where the request that is handled stands. -/
inductive Post (Token JobId : Type) where
  /-- `/setup/api/first-run`. -/
  | firstRun
  | firstRunWorker (jobId : JobId)
  | firstRunStorage
  | startFirstStart
  | submitted (jobId : JobId)
  | recordActive (jobId : JobId)
  | issueJob (jobId : JobId)
  | completed (status : Option Identity)
  | clearCompleted (status : Option Identity)
  | issueCompleted (status : Option Identity)
  /-- `/setup/api/first-start/resume`. -/
  | resume
  | resumeStatus
  | resumeCompleted (status : Option Identity)
  | resumeJob (jobId : JobId)
  | clearUnreadable (jobId : JobId)
  | revokeUnreadable (jobId : JobId)
  | resumeWorker (jobId : JobId)
  | resumeStorage (jobId : JobId)
  | revokeJob (jobId : JobId)
  /-- `/setup/api/reboot`, with the capability of the header if it is one. -/
  | reboot (token : Option Token)
  | rebootLookup (token : Option Token)
  | rebootCompleted (token : Option Token)
  | rebootJob (token : Option Token) (jobId : JobId)
  | rebootStatus (token : Option Token) (jobId : JobId)
  | command (token : Option Token)
  | rebooted
  | clearRebooted
  deriving DecidableEq, Repr

/-- A capability that was handed out. -/
structure Issue (Token JobId : Type) where
  token : Token
  scope : Scope JobId
  moment : Time
  deriving DecidableEq, Repr

structure State (Token Digest JobId : Type) where
  now : Time
  records : Digest → Option (Record JobId)
  /-- `active-job.json`. -/
  active : Option JobId
  setup : Setup
  /-- What `first_start_job_status` reads; `none` where it raises. -/
  jobs : JobId → Option JobStatus
  post : Option (Post Token JobId)
  /-- No code reads what follows: the capabilities handed out, the last one first, whether the last
  one was revoked since, and when it was used. -/
  issued : List (Issue Token JobId)
  revoked : Bool
  uses : List Time

/-- The directories of the capabilities and of the active job are new with every boot. -/
def boot {Token Digest JobId : Type} (now : Time) (setup : Setup) (jobs : JobId → Option JobStatus) :
    State Token Digest JobId where
  now
  records _ := none
  active := none
  setup
  jobs
  post := none
  issued := []
  revoked := false
  uses := []

/-- The result of `start_first_start`. -/
inductive Started (JobId : Type) where
  | raised
  | submitted (jobId : JobId)
  | complete (status : Option Identity)
  deriving DecidableEq, Repr

inductive Request (Token : Type) where
  | firstRun
  | resume
  | reboot (token : Option Token)
  deriving DecidableEq, Repr

inductive Event (Token JobId : Type) where
  | tick (elapsed : Nat)
  | setup (setup : Setup)
  | report (jobId : JobId) (status : Option JobStatus)
  /-- `GET /setup/api/first-start/job`. -/
  | poll (token : Option Token) (moment : Time) (written : Bool)
  | request (request : Request Token)
  /-- The request at hand takes its next step, which asks nobody. -/
  | proceed
  /-- Whether the worker, or the storage host, is at work. -/
  | answer (active : Bool)
  | started (result : Started JobId)
  /-- The status that `first_start_status` names, if it is a complete one. -/
  | status (complete : Option (Option Identity))
  | lookup (moment : Time) (written : Bool)
  | issue (token : Token) (moment : Time)
  | systemctl (succeeds : Bool)
  /-- The step raises, or the server is killed. -/
  | abort

section

variable {Token Digest JobId : Type} [DecidableEq Digest] [DecidableEq JobId]
  (sha256 : Token → Digest)

def State.goto (s : State Token Digest JobId) (post : Post Token JobId) : State Token Digest JobId :=
  { s with post := some post }

def State.done (s : State Token Digest JobId) : State Token Digest JobId := { s with post := none }

def State.unlink (s : State Token Digest JobId) (digest : Digest) : State Token Digest JobId :=
  { s with records := Function.update s.records digest none }

/-- The job, or the completed plan, of a capability is still there. -/
def State.supports (s : State Token Digest JobId) : Scope JobId → Bool
  | .jobPollReboot jobId => (s.jobs jobId).any JobStatus.isKnown
  | .completedReboot identity => s.setup.identity = some identity

/-- `_lookup_setup_capability_record`.  What it finds unfit is removed, and at the end it writes when
the capability was used. -/
def lookup (s : State Token Digest JobId) (scopes : Scope JobId → Bool) (token : Option Token)
    (moment : Time) (written : Bool) : State Token Digest JobId × Option (Record JobId) :=
  match token with
  | none => (s, none)
  | some token =>
    let digest := sha256 token
    match s.records digest with
    | none => (s, none)
    | some record =>
      if !scopes record.scope then (s, none)
      else if record.isExpired moment then (s.unlink digest, none)
      else if !s.supports record.scope then (s.unlink digest, none)
      else if !written then (s, none)
      else
        let record := { record with lastUsedAt := moment }
        ({ s with
          records := Function.update s.records digest (some record)
          uses := moment :: s.uses }, some record)

/-- `revoke_all_setup_capabilities`. -/
def State.revokeAll (s : State Token Digest JobId) : State Token Digest JobId :=
  { s with records := fun _ ↦ none, revoked := true }

/-- `revoke_job_capabilities`. -/
def State.revokeJob (s : State Token Digest JobId) (jobId : JobId) : State Token Digest JobId :=
  { s with
    records := fun digest ↦ (s.records digest).filter fun record ↦
      record.scope ≠ .jobPollReboot jobId
    revoked := s.revoked || s.issued.head?.any fun i ↦ i.scope = .jobPollReboot jobId }

/-- `_issue_setup_capability_record`. -/
def State.hand (s : State Token Digest JobId) (token : Token) (scope : Scope JobId) (moment : Time) :
    State Token Digest JobId :=
  { s with
    records := Function.update s.records (sha256 token) (some ⟨scope, moment, moment⟩)
    issued := ⟨token, scope, moment⟩ :: s.issued
    revoked := false
    uses := [] }

/-- The steps of `_handle_post` that ask nobody. -/
def proceed (s : State Token Digest JobId) :
    Post Token JobId → Option (State Token Digest JobId)
  | .firstRun =>
    match s.active with
    | none => some (s.goto .firstRunStorage)
    | some jobId =>
      match s.jobs jobId with
      | none => some s.done
      | some status =>
        some (s.goto (if status.isFinished then .firstRunStorage else .firstRunWorker jobId))
  | .submitted jobId => some (s.revokeAll.goto (.recordActive jobId))
  | .recordActive jobId => some ({ s with active := some jobId }.goto (.issueJob jobId))
  | .completed status => some (s.revokeAll.goto (.clearCompleted status))
  | .clearCompleted status => some ({ s with active := none }.goto (.issueCompleted status))
  | .resume =>
    match s.active with
    | none => some (s.goto .resumeStatus)
    | some jobId => some (s.goto (.resumeJob jobId))
  | .resumeCompleted status => some (s.revokeAll.goto (.issueCompleted status))
  | .resumeJob jobId =>
    match s.jobs jobId with
    | none => some (s.goto (.clearUnreadable jobId))
    | some status =>
      some (s.goto (if status.isFinished then .revokeJob jobId else .resumeWorker jobId))
  | .clearUnreadable jobId => some ({ s with active := none }.goto (.revokeUnreadable jobId))
  | .revokeUnreadable jobId => some (s.revokeJob jobId).done
  | .revokeJob jobId => some ((s.revokeJob jobId).goto (.issueJob jobId))
  | .rebootCompleted token => some (if s.setup.isComplete then s.goto (.command token) else s.done)
  -- `reboot_after_first_start` reads the setup first, and the job's report after it.
  | .rebootJob token jobId =>
    some (if s.setup.isComplete then s.goto (.rebootStatus token jobId) else s.done)
  | .rebootStatus token jobId =>
    some (if (s.jobs jobId).any JobStatus.isComplete then s.goto (.command token) else s.done)
  | .rebooted => some (s.revokeAll.goto .clearRebooted)
  | .clearRebooted => some { s with active := none }.done
  | _ => none

def answered (s : State Token Digest JobId) (active : Bool) :
    Post Token JobId → Option (State Token Digest JobId)
  | .firstRunWorker _ => some (if active then s.done else s.goto .firstRunStorage)
  | .firstRunStorage => some (if active then s.done else s.goto .startFirstStart)
  | .resumeWorker jobId => some (s.goto (if active then .revokeJob jobId else .resumeStorage jobId))
  | .resumeStorage jobId => some (if active then s.done else s.goto (.revokeJob jobId))
  | _ => none

def started (s : State Token Digest JobId) (result : Started JobId) :
    Post Token JobId → Option (State Token Digest JobId)
  | .startFirstStart =>
    match result with
    | .raised => some s.done
    | .submitted jobId => some (s.goto (.submitted jobId))
    | .complete status => some (s.goto (.completed status))
  | _ => none

def resumeStatus (s : State Token Digest JobId) (complete : Option (Option Identity)) :
    Post Token JobId → Option (State Token Digest JobId)
  | .resumeStatus =>
    match complete with
    | none => some s.done
    | some status => some (s.goto (.resumeCompleted status))
  | _ => none

def authorizeReboot (s : State Token Digest JobId) (moment : Time) (written : Bool) :
    Post Token JobId → Option (State Token Digest JobId)
  | .reboot token =>
    match lookup sha256 s Scope.isCompleted token moment written with
    | (s', some _) => some (s'.goto (.rebootCompleted token))
    | (s', none) => some (s'.goto (.rebootLookup token))
  | .rebootLookup token =>
    match lookup sha256 s Scope.isJob token moment written with
    | (s', some ⟨.jobPollReboot jobId, _, _⟩) => some (s'.goto (.rebootJob token jobId))
    | (s', _) => some s'.done
  | _ => none

/-- `issue_setup_capability`, or `issue_completed_setup_capability`. -/
def issue (s : State Token Digest JobId) (token : Token) (moment : Time) :
    Post Token JobId → Option (State Token Digest JobId)
  | .issueJob jobId => some (s.hand sha256 token (.jobPollReboot jobId) moment).done
  | .issueCompleted status =>
    match s.setup.identity with
    | some identity =>
      some (if status = some identity then
        (s.hand sha256 token (.completedReboot identity) moment).done else s.done)
    | none => some s.done
  | _ => none

/-- `systemctl reboot`. -/
def systemctl (s : State Token Digest JobId) (succeeds : Bool) :
    Post Token JobId → Option (State Token Digest JobId)
  | .command _ => some (if succeeds then s.goto .rebooted else s.done)
  | _ => none

def Request.post : Request Token → Post Token JobId
  | .firstRun => .firstRun
  | .resume => .resume
  | .reboot token => .reboot token

/-- One event; `none` where it cannot happen.  A clock that was read is not ahead. -/
def step (s : State Token Digest JobId) :
    Event Token JobId → Option (State Token Digest JobId)
  | .tick elapsed => some { s with now := s.now + elapsed }
  | .setup setup => some { s with setup }
  | .report jobId status => some { s with jobs := Function.update s.jobs jobId status }
  | .poll token moment written =>
    if moment ≤ s.now then some (lookup sha256 s Scope.isJob token moment written).1 else none
  | .request request => if s.post.isNone then some (s.goto request.post) else none
  | .proceed => s.post.bind (proceed s)
  | .answer active => s.post.bind (answered s active)
  | .started result => s.post.bind (started s result)
  | .status complete => s.post.bind (resumeStatus s complete)
  | .lookup moment written =>
    if moment ≤ s.now then s.post.bind (authorizeReboot sha256 s moment written) else none
  | .issue token moment => if moment ≤ s.now then s.post.bind (issue sha256 s token moment) else none
  | .systemctl succeeds => s.post.bind (systemctl s succeeds)
  | .abort => if s.post.isSome then some s.done else none

end

end NixNas.SetupApi
