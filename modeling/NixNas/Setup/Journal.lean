import Mathlib.Logic.Function.Basic
import NixNas.Names

/-!
# Operation journals (`services/nas_operation_journal.py`)

Times, notes and the texts of errors are left out, as nothing reads them.
-/

namespace NixNas.Setup

inductive Status where
  | pending
  | resuming
  | running
  | failed
  | manualRecoveryRequired
  | reconciled
  | complete
  | cancelled
deriving DecidableEq, Repr

inductive StepStatus where
  | running
  | complete
  | failed
deriving DecidableEq, Repr

/-- The record of a step; `result` is what its last completion has left. -/
structure Record (V : Type) where
  status : StepStatus
  result : Option V
deriving DecidableEq, Repr

/-- The value of a journal, with results in `V`. -/
structure Journal (V : Type) where
  schemaVersion : Int
  workflow : Text
  fingerprint : Text
  status : Status
  currentStep : Option Text
  steps : Text → Option (Record V)
  result : Option V

inductive JournalError where
  | unsupportedSchema
  | anotherOperation
  | differentOperation
  | acknowledgementRequired
  | noJournal
  | foreignJournal
  | notAwaitingRecovery
  | notAwaitingVerifiedRecovery
deriving DecidableEq, Repr

variable {V : Type}
variable {name : Text} {currentStep : Option Text}

/-! ## Entries -/

def Journal.finished (j : Journal V) : Bool := j.status = .complete || j.status = .cancelled

def freshJournal (workflow fingerprint : Text) : Journal V where
  schemaVersion := 1
  workflow := workflow
  fingerprint := fingerprint
  status := .pending
  currentStep := none
  steps := fun _ ↦ none
  result := none

/-- `OperationJournal.open`: the journal that it saves. -/
def openJournal (existing : Option (Journal V)) (workflow fingerprint : Text) :
    Except JournalError (Journal V) :=
  match existing with
  | none => .ok (freshJournal workflow fingerprint)
  | some j =>
    if j.finished then
      if j.schemaVersion ≠ 1 then .error .unsupportedSchema
      else .ok (freshJournal workflow fingerprint)
    else if j.schemaVersion ≠ 1 ∨ j.workflow ≠ workflow then .error .anotherOperation
    else if j.fingerprint ≠ fingerprint then .error .differentOperation
    else if j.status = .manualRecoveryRequired then .error .acknowledgementRequired
    else .ok { j with status := .resuming }

/-- `OperationJournal.acknowledge_manual_recovery`. -/
def acknowledgeManualRecovery (existing : Option (Journal V)) (workflow : Text) :
    Except JournalError (Journal V) :=
  match existing with
  | none => .error .noJournal
  | some j =>
    if j.workflow ≠ workflow ∨ j.schemaVersion ≠ 1 then .error .foreignJournal
    else if j.status ≠ .manualRecoveryRequired then .error .notAwaitingRecovery
    else .ok { j with status := .reconciled }

def Journal.stepStatus (j : Journal V) (step : Text) : Option StepStatus :=
  (j.steps step).map (·.status)

/-- `OperationJournal.complete_verified_recovery_step`. -/
def completeVerifiedRecoveryStep (existing : Option (Journal V)) (workflow fingerprint step : Text)
    (result : V) (replacementFingerprint : Option Text) : Except JournalError (Journal V) :=
  match existing with
  | none => .error .noJournal
  | some j =>
    if j.schemaVersion ≠ 1 ∨ j.workflow ≠ workflow then .error .anotherOperation
    else if j.fingerprint ≠ fingerprint then .error .differentOperation
    else if j.status ≠ .manualRecoveryRequired ∨ j.currentStep ≠ some step ∨
        j.stepStatus step ≠ some .failed then .error .notAwaitingVerifiedRecovery
    else .ok { j with
      steps := Function.update j.steps step (some ⟨.complete, some result⟩)
      currentStep := none
      status := .reconciled
      fingerprint := replacementFingerprint.getD j.fingerprint }

/-! ## Steps -/

def Journal.stepComplete (j : Journal V) (step : Text) : Bool := j.stepStatus step = some .complete

/-- `OperationJournal.result`. -/
def Journal.stepResult (j : Journal V) (step : Text) : Option V :=
  (j.steps step).bind (·.result)

def Journal.record (j : Journal V) (step : Text) (status : StepStatus) (result : Option V) :
    Text → Option (Record V) :=
  Function.update j.steps step (some ⟨status, result.or (j.stepResult step)⟩)

def Journal.startStep (j : Journal V) (step : Text) : Journal V :=
  { j with steps := j.record step .running none, status := .running, currentStep := some step }

def Journal.completeStep (j : Journal V) (step : Text) (result : Option V) : Journal V :=
  { j with steps := j.record step .complete result, currentStep := none }

def failedStatus (manualRecovery : Bool) : Status :=
  if manualRecovery then .manualRecoveryRequired else .failed

def Journal.failStep (j : Journal V) (step : Text) (manualRecovery : Bool) : Journal V :=
  { j with
    steps := j.record step .failed none
    status := failedStatus manualRecovery
    currentStep := some step }

def Journal.fail (j : Journal V) (manualRecovery : Bool) : Journal V :=
  { j with status := failedStatus manualRecovery }

def Journal.complete (j : Journal V) (result : Option V) : Journal V :=
  { j with status := .complete, currentStep := none, result := result.or j.result }

/-! ## What the operations do to the steps -/

variable {j j' : Journal V} {existing : Option (Journal V)} {workflow fingerprint step other : Text}
  {status : StepStatus} {result : Option V}

theorem record_self : (j.record step status result step).map (·.status) = some status := by
  rw [Journal.record, Function.update_self]
  rfl

theorem record_of_ne (h : other ≠ step) : j.record step status result other = j.steps other :=
  Function.update_of_ne h ..

@[simp]
theorem stepComplete_completeStep : (j.completeStep step result).stepComplete step = true :=
  decide_eq_true record_self

@[simp]
theorem stepComplete_startStep : (j.startStep step).stepComplete step = false := by
  apply decide_eq_false
  intro h
  exact nomatch h.symm.trans record_self

theorem stepComplete_failStep (manual : Bool) : (j.failStep step manual).stepComplete step = false := by
  apply decide_eq_false
  intro h
  exact nomatch h.symm.trans record_self

theorem stepStatus_record_of_ne (h : other ≠ step) :
    (j.record step status result other).map (·.status) = j.stepStatus other := by
  rw [record_of_ne h]
  rfl

theorem stepComplete_startStep_of_ne (h : other ≠ step) :
    (j.startStep step).stepComplete other = j.stepComplete other := by
  show decide ((j.record step .running none other).map (·.status) = some .complete) = _
  rw [stepStatus_record_of_ne h]
  rfl

theorem stepComplete_failStep_of_ne (h : other ≠ step) (manual : Bool) :
    (j.failStep step manual).stepComplete other = j.stepComplete other := by
  show decide ((j.record step .failed none other).map (·.status) = some .complete) = _
  rw [stepStatus_record_of_ne h]
  rfl

theorem stepComplete_completeStep_of_ne (h : other ≠ step) :
    (j.completeStep step result).stepComplete other = j.stepComplete other := by
  show decide ((j.record step .complete result other).map (·.status) = some .complete) = _
  rw [stepStatus_record_of_ne h]
  rfl

theorem stepComplete_completeStep_of (h : j.stepComplete other = true) :
    (j.completeStep step result).stepComplete other = true := by
  by_cases heq : other = step
  · rw [heq]
    exact stepComplete_completeStep
  · exact (stepComplete_completeStep_of_ne heq).trans h

theorem stepComplete_update_of {value : Option V}
    {status : Status} (h : j.stepComplete name = true) :
    ({ j with
        steps := Function.update j.steps step (some ⟨.complete, value⟩)
        currentStep := currentStep
        status := status
        fingerprint := fingerprint } : Journal V).stepComplete name = true := by
  apply decide_eq_true
  show (Function.update j.steps step (some ⟨.complete, value⟩) name).map (·.status) = some .complete
  by_cases heq : name = step
  · rw [heq, Function.update_self]
    rfl
  · rw [Function.update_of_ne heq]
    exact of_decide_eq_true h

theorem stepComplete_update_of_ne {record : Option (Record V)} {status : Status} (h : name ≠ step) :
    ({ j with
        steps := Function.update j.steps step record
        currentStep := currentStep
        status := status
        fingerprint := fingerprint } : Journal V).stepComplete name = j.stepComplete name := by
  show decide ((Function.update j.steps step record name).map (·.status) = some .complete) = _
  rw [Function.update_of_ne h]
  rfl

theorem openJournal_ok (h : openJournal existing workflow fingerprint = .ok j') :
    ((existing = none ∨ ∃ j, existing = some j ∧ j.finished = true) ∧
        j' = freshJournal workflow fingerprint) ∨
      ∃ j, existing = some j ∧ j.finished = false ∧ j.workflow = workflow ∧
        j.fingerprint = fingerprint ∧ j.status ≠ .manualRecoveryRequired ∧
        j' = { j with status := .resuming } := by
  unfold openJournal at h
  cases existing with
  | none =>
    cases h
    exact .inl ⟨.inl rfl, rfl⟩
  | some j =>
    dsimp only at h
    split at h
    · rename_i hfinished
      split at h
      · cases h
      · cases h
        exact .inl ⟨.inr ⟨j, rfl, hfinished⟩, rfl⟩
    · rename_i hfinished
      split at h
      · cases h
      · rename_i hforeign
        split at h
        · cases h
        · rename_i hfingerprint
          split at h
          · cases h
          · rename_i hmanual
            cases h
            rw [not_or, not_not, not_not] at hforeign
            rw [not_not] at hfingerprint
            exact .inr ⟨j, rfl, Bool.eq_false_iff.mpr hfinished, hforeign.2, hfingerprint, hmanual, rfl⟩

theorem openJournal_unfinished (h : openJournal existing workflow fingerprint = .ok j') :
    j'.finished = false := by
  obtain ⟨-, rfl⟩ | ⟨j, -, -, -, -, -, rfl⟩ := openJournal_ok h
  · rfl
  · rfl

theorem acknowledge_ok (h : acknowledgeManualRecovery existing workflow = .ok j') :
    ∃ j, existing = some j ∧ j.status = .manualRecoveryRequired ∧
      j' = { j with status := .reconciled } := by
  unfold acknowledgeManualRecovery at h
  cases existing with
  | none => cases h
  | some j =>
    dsimp only at h
    split at h
    · cases h
    · split at h
      · cases h
      · rename_i hstatus
        cases h
        exact ⟨j, rfl, not_not.mp hstatus, rfl⟩

theorem completeVerified_ok {value : V} {replacement : Option Text}
    (h : completeVerifiedRecoveryStep existing workflow fingerprint step value replacement = .ok j') :
    ∃ j, existing = some j ∧ j.status = .manualRecoveryRequired ∧
      j' = { j with
        steps := Function.update j.steps step (some ⟨.complete, some value⟩)
        currentStep := none
        status := .reconciled
        fingerprint := replacement.getD j.fingerprint } := by
  unfold completeVerifiedRecoveryStep at h
  cases existing with
  | none => cases h
  | some j =>
    dsimp only at h
    split at h
    · cases h
    · split at h
      · cases h
      · split at h
        · cases h
        · rename_i hawaiting
          cases h
          rw [not_or, not_not] at hawaiting
          exact ⟨j, rfl, hawaiting.1, rfl⟩

end NixNas.Setup
