import NixNas.Setup.Journal
import NixNas.Lib.Association
import NixNas.Accounts.Plan

/-!
# What becomes of a mutation (`http_json`), and the journal of a plan

The journal is one of `NixNas.Setup.Journal` with its steps by their names, and with the status that
`record_account_step_failure` adds.  The plan stands for its fingerprint.
-/

open NixNas.Setup (Status)

namespace NixNas.Accounts

/-- The classes of exceptions that are told apart. -/
inductive Fault where
  | timeout
  | connectionReset
  | connectionAborted
  | httpException
  /-- Another `OSError`. -/
  | osError
  /-- Another exception; as a reason, a text too. -/
  | other
  deriving DecidableEq, Repr

inductive Body where
  | empty
  | object
  /-- JSON, but no object. -/
  | value
  /-- No JSON. -/
  | invalid
  deriving DecidableEq, Repr

/-- How a request ends that is sent once. -/
inductive Transport where
  | replied (body : Body)
  | httpError (code : ℕ)
  /-- `exc.read()` of an `HTTPError` raises. -/
  | unreadError (code : ℕ) (fault : Fault)
  | urlError (reason : Fault)
  | raised (fault : Fault)
  deriving DecidableEq, Repr

def ambiguousMutationFailure : Transport → Bool
  | .httpError code => code = 408 || (500 ≤ code && code ≤ 599)
  | .urlError reason => reason ∈ [.timeout, .connectionReset, .connectionAborted]
  | .raised fault => fault ∈ [.timeout, .connectionReset, .connectionAborted, .httpException]
  | _ => false

inductive RequestError where
  /-- `AmbiguousMutationError`. -/
  | ambiguous
  /-- Another `SyncError`. -/
  | sync
  | raw (fault : Fault)
  deriving DecidableEq, Repr

/-- `http_json` of a mutation. -/
def httpJson (t : Transport) : Except RequestError Body :=
  match t with
  | .replied .invalid => .error .sync
  | .replied body => .ok body
  | .unreadError _ fault => .error (.raw fault)
  | .raised .osError => .error (.raw .osError)
  | .raised .other => .error (.raw .other)
  | t => .error (if ambiguousMutationFailure t then .ambiguous else .sync)

/-- `apply_account_plan` catches `SyncError`, `OSError` and `ValueError`. -/
def RequestError.caught : RequestError → Bool
  | .raw .httpException => false
  | .raw .other => false
  | _ => true

/-- A mutation with this reply is not applied. -/
def rejected (code : ℕ) : Bool := 400 ≤ code && code ≤ 499 && code ≠ 408

/-- What a reply or its lack says of the mutation: one that was answered is applied, and one that was
rejected or never sent is not. -/
def Transport.admits (applied : Bool) : Transport → Bool
  | .replied _ => applied
  | .httpError code => !applied || !rejected code
  | .unreadError code _ => !applied || !rejected code
  | .urlError reason => !applied || ambiguousMutationFailure (.urlError reason)
  | .raised _ => true

inductive StepStatus where
  | running
  | complete
  | failed
  | manualRecoveryRequired
  deriving DecidableEq, Repr

structure Journal where
  raw : RawPlan
  status : Status
  steps : List (StepName × StepStatus)
  deriving DecidableEq, Repr

def Journal.finished (j : Journal) : Bool := j.status = .complete || j.status = .cancelled

/-- `OperationJournal.open`; none where it raises. -/
def openJournal (existing : Option Journal) (raw : RawPlan) : Option Journal :=
  match existing with
  | none => some ⟨raw, .pending, []⟩
  | some j =>
    if j.finished then some ⟨raw, .pending, []⟩
    else if j.raw ≠ raw ∨ j.status = .manualRecoveryRequired then none
    else some { j with status := .resuming }

def Journal.stepStatus (j : Journal) (step : StepName) : Option StepStatus := j.steps.lookup step

def Journal.stepComplete (j : Journal) (step : StepName) : Bool := j.stepStatus step = some .complete

def Journal.record (j : Journal) (step : StepName) (status : StepStatus) : List (StepName × StepStatus) :=
  (step, status) :: j.steps.filter fun e ↦ e.1 ≠ step

def Journal.startStep (j : Journal) (step : StepName) : Journal :=
  { j with steps := j.record step .running, status := .running }

def Journal.completeStep (j : Journal) (step : StepName) : Journal :=
  { j with steps := j.record step .complete }

def failedStatus (manualRecovery : Bool) : Status :=
  if manualRecovery then .manualRecoveryRequired else .failed

def Journal.failStep (j : Journal) (step : StepName) (manualRecovery : Bool) : Journal :=
  { j with steps := j.record step .failed, status := failedStatus manualRecovery }

/-- The status that `record_account_step_failure` gives to the step of an uncertain mutation. -/
def Journal.escalateStep (j : Journal) (step : StepName) : Journal :=
  { j with steps := j.record step .manualRecoveryRequired }

/-- `cancel_failed_account_plan` goes on. -/
def Journal.cancellable (j : Journal) : Bool :=
  j.status = .failed && j.steps.all fun e ↦ e.2 ∈ [.complete, .failed]

variable {j j' : Journal} {existing : Option Journal} {raw : RawPlan} {step other : StepName}
  {status : StepStatus}

theorem lookup_record : (j.record step status).lookup step = some status := List.lookup_cons_self

theorem lookup_record_of_ne (h : other ≠ step) :
    (j.record step status).lookup other = j.stepStatus other := by
  unfold Journal.record Journal.stepStatus
  rw [List.lookup_cons, beq_false_of_ne h]
  show (j.steps.filter _).lookup other = _
  induction j.steps with
  | nil => rfl
  | cons e rest ih =>
    by_cases he : e.1 = step
    · rw [List.filter_cons_of_neg (by simpa using he), ih, List.lookup_cons,
        beq_false_of_ne (he ▸ h)]
    · rw [List.filter_cons_of_pos (by simpa using he), List.lookup_cons, List.lookup_cons, ih]

theorem stepStatus_of_steps (h : j'.steps = j.record step status) :
    j'.stepStatus other = if other = step then some status else j.stepStatus other := by
  unfold Journal.stepStatus
  rw [h]
  split
  · rename_i heq
    rw [heq, lookup_record]
  · rename_i hne
    exact lookup_record_of_ne hne

theorem stepComplete_iff : j.stepComplete step = true ↔ j.stepStatus step = some .complete :=
  decide_eq_true_iff

theorem stepStatus_of_cancellable (h : j.cancellable = true) (hstatus : j.stepStatus step = some status) :
    status = .complete ∨ status = .failed := by
  rw [Journal.cancellable, Bool.and_eq_true, List.all_eq_true] at h
  have hmem := of_decide_eq_true (h.2 _ (Association.mem_of_lookup hstatus))
  simpa using hmem

theorem openJournal_eq_some (h : openJournal existing raw = some j') :
    ((existing = none ∨ ∃ j, existing = some j ∧ j.finished = true) ∧ j' = ⟨raw, .pending, []⟩) ∨
      ∃ j, existing = some j ∧ j.finished = false ∧ j.raw = raw ∧ j.status ≠ .manualRecoveryRequired ∧
        j' = { j with status := .resuming } := by
  cases existing with
  | none => exact .inl ⟨.inl rfl, (Option.some.inj h).symm⟩
  | some j =>
    rw [openJournal] at h
    split at h
    · rename_i hfinished
      exact .inl ⟨.inr ⟨j, rfl, hfinished⟩, (Option.some.inj h).symm⟩
    · rename_i hfinished
      split at h
      · cases h
      · rename_i hopen
        rw [not_or, not_not] at hopen
        exact .inr ⟨j, rfl, Bool.eq_false_iff.mpr hfinished, hopen.1, hopen.2, (Option.some.inj h).symm⟩

end NixNas.Accounts
