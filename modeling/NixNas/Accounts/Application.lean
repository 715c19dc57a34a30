import NixNas.Lib.Transition
import NixNas.Accounts.Journal

/-!
# Runs of `apply_account_plan`, cancellations and the retirement of `akadmin`

One process runs at a time, and nobody else changes the accounts.  A process ends wherever it is
killed, and then a mutation that it has sent is applied or not.
-/

open NixNas.Caddy NixNas.Identity

namespace NixNas.Accounts

/-- How `atomic_write_json` ends; where it raises, the file can be there. -/
inductive Save where
  | done
  | raised (written : Bool)
  deriving DecidableEq, Repr

inductive Stage where
  /-- A step comes next; before the listings are read there are no tasks. -/
  | ready (todo : Option (List Task))
  /-- The step is started, and what it does is not answered yet. -/
  | requested (task : Task) (todo : Option (List Task))
  | accepted (task : Task) (todo : Option (List Task))
  | refused (task : Task) (error : RequestError)
  /-- The failure of an uncertain mutation is saved, the status of its step not yet. -/
  | escalating (task : Task)
  /-- An exception has come to the end of `apply_account_plan`. -/
  | closing
  deriving DecidableEq

structure Process where
  plan : Plan
  /-- `journal.value`. -/
  journal : Journal
  stage : Stage
  deriving DecidableEq

/-- A mutation that has been sent. -/
structure Request where
  task : Task
  applied : Bool
  /-- None where the process has ended before. -/
  transport : Option Transport
  deriving DecidableEq

structure World where
  directory : Directory
  /-- The file. -/
  journal : Option Journal
  process : Option Process
  /-- The mutations since the journal is there, the last one first; no code reads them. -/
  requests : List Request
  deriving DecidableEq

def World.initial (d : Directory) : World := ⟨d, none, none, []⟩

def World.lastRequest (w : World) (step : StepName) : Option Request :=
  w.requests.find? fun r ↦ r.task.step = step

/-- A journal is saved, and the process goes on there or ends. -/
def World.saved (w : World) (p : Process) (journal : Journal) (stage : Option Stage) : Save → World
  | .done => { w with
      journal := some journal
      process := stage.map fun stage ↦ { p with journal := journal, stage := stage } }
  | .raised written => { w with
      journal := if written then some journal else w.journal
      process := some { p with journal := journal, stage := .closing } }

def Task.outcome (task : Task) (transport : Transport) : Except RequestError Unit :=
  match httpJson transport, task with
  | .error error, _ => .error error
  | .ok body, .account _ none => if body = .object then .ok () else .error .sync
  | .ok _, _ => .ok ()

inductive Event where
  | start (raw : RawPlan) (confirmPasswordReapply : Bool) (save : Save)
  /-- The next step is started. -/
  | begin (save : Save)
  /-- A mutation of `ensure_groups` is applied or not, and ends, unless the process is killed. -/
  | ensuring (request : GroupRequest) (applied : Bool) (transport : Option Transport)
  /-- `ensure_groups` ends. -/
  | ensured (error : Option RequestError)
  /-- The mutation of a task is applied or not, and ends. -/
  | reply (applied : Bool) (transport : Transport)
  /-- The end of the step is recorded. -/
  | record (save : Save)
  /-- The listings are read, or something is wrong with them. -/
  | list (shown : Bool)
  | finish (save : Save)
  /-- The failure is recorded. -/
  | close (save : Save)
  | kill (applied : Bool)
  /-- `cancel_failed_account_plan` of the journal as it is. -/
  | cancel (save : Save)
  /-- `retire_bootstrap_administrator`. -/
  | retire (administrator : Text) (applied : Bool)

/-- `apply_account_plan` up to the journal. -/
def start (w : World) (raw : RawPlan) (confirmPasswordReapply : Bool) (save : Save) : World :=
  match raw.plan with
  | .error _ => w
  | .ok plan =>
    let resumed := w.journal.any fun j ↦ !j.finished
    if resumed && plan.accounts.any PlannedAccount.password && !confirmPasswordReapply then w
    else
      match openJournal w.journal raw with
      | none => w
      | some journal =>
        let requests := if resumed then w.requests else []
        match save with
        | .done => { w with
            journal := some journal
            process := some ⟨plan, journal, .ready none⟩
            requests := requests }
        | .raised true => { w with journal := some journal, requests := requests }
        | .raised false => w

def World.sent (w : World) (task : Task) (applied : Bool) (transport : Option Transport) : World :=
  { w with
    directory := if applied then task.apply w.directory else w.directory
    requests := ⟨task, applied, transport⟩ :: w.requests }

/-- So does what `ensure_groups` has sent. -/
def World.sentGroup (w : World) (request : GroupRequest) (task : Task) (applied : Bool)
    (transport : Option Transport) : World :=
  { w with
    directory := if applied then request.apply w.directory else w.directory
    requests := ⟨task, applied, transport⟩ :: w.requests }

def World.at (w : World) (p : Process) (stage : Stage) : World :=
  { w with process := some { p with stage := stage } }

def Process.begin (w : World) (p : Process) (save : Save) : Option World :=
  match p.stage with
  | .ready none =>
    if p.journal.stepComplete .reservedGroups then none
    else some (w.saved p (p.journal.startStep .reservedGroups)
      (some (.requested .reservedGroups none)) save)
  | .ready (some (.lost _ :: _)) => some (w.at p .closing)
  | .ready (some (task :: todo)) =>
    some (w.saved p (p.journal.startStep task.step) (some (.requested task (some todo))) save)
  | _ => none

def Process.ensuring (w : World) (p : Process) (request : GroupRequest) (applied : Bool)
    (transport : Option Transport) : Option World :=
  match p.stage with
  | .requested task none =>
    if request.due w.directory && transport.all (·.admits applied) then
      let w := w.sentGroup request task applied transport
      match transport.map task.outcome with
      | none => some { w with process := none }
      | some (.ok ()) => some { w with process := some p }
      | some (.error error) => some (w.at p (.refused task error))
    else none
  | _ => none

def Process.ensured (w : World) (p : Process) (error : Option RequestError) : Option World :=
  match p.stage, error with
  | .requested task none, none => some (w.at p (.accepted task none))
  | .requested task none, some error => some (w.at p (.refused task error))
  | _, _ => none

def Process.reply (w : World) (p : Process) (applied : Bool) (transport : Transport) : Option World :=
  match p.stage with
  | .requested task (some todo) =>
    if transport.admits applied then
      let w := w.sent task applied (some transport)
      match task.outcome transport with
      | .ok () => some (w.at p (.accepted task (some todo)))
      | .error error => some (w.at p (.refused task error))
    else none
  | _ => none

/-- `complete_step`, or what `record_account_step_failure` saves. -/
def Process.record (w : World) (p : Process) (save : Save) : Option World :=
  match p.stage with
  | .accepted task todo => some (w.saved p (p.journal.completeStep task.step) (some (.ready todo)) save)
  | .refused task .ambiguous =>
    some (w.saved p (p.journal.failStep task.step true) (some (.escalating task)) save)
  | .refused task error =>
    some (w.saved p (p.journal.failStep task.step false) (if error.caught then some .closing else none)
      save)
  | .escalating task => some (w.saved p (p.journal.escalateStep task.step) (some .closing) save)
  | _ => none

def Process.list (w : World) (p : Process) (shown : Bool) : Option World :=
  match p.stage with
  | .ready none =>
    if p.journal.stepComplete .reservedGroups then
      if shown && !(resultingAdministrators p.plan w.directory).isEmpty then
        some (w.at p (.ready (some (planTasks p.journal.stepComplete p.plan w.directory))))
      else some (w.at p .closing)
    else none
  | _ => none

def Process.finish (w : World) (p : Process) (save : Save) : Option World :=
  match p.stage with
  | .ready (some []) => some (w.saved p { p.journal with status := .complete } none save)
  | _ => none

/-- `journal.fail` at the end of `apply_account_plan`; no uncertain failure comes there with another
status than the one of manual recovery. -/
def Process.close (w : World) (p : Process) (save : Save) : Option World :=
  match p.stage with
  | .closing =>
    if p.journal.status = .manualRecoveryRequired then some { w with process := none }
    else some { w with
      journal :=
        if save = .raised false then w.journal else some { p.journal with status := failedStatus false }
      process := none }
  | _ => none

def Process.kill (w : World) (p : Process) (applied : Bool) : World :=
  match p.stage with
  | .requested task (some _) => { w.sent task applied none with process := none }
  | _ => { w with process := none }

def cancel (w : World) (save : Save) : World :=
  match w.journal with
  | some j =>
    if j.cancellable && decide (save ≠ .raised false) then
      { w with journal := some { j with status := .cancelled } }
    else w
  | none => w

/-- The checks of `retire_bootstrap_administrator`. -/
def retirable (d : Directory) (administrator : Text) : Bool :=
  isUsername administrator && decide (administrator ≠ bootstrapName) &&
    ((d.find administrator).any fun a ↦ a.active && a.groups.contains adminGroup) &&
    !(bootstrapName ∈ currentAdministrators d && (currentAdministrators d).dedup.length = 1)

def retire (w : World) (administrator : Text) (applied : Bool) : World :=
  if retirable w.directory administrator && applied then
    { w with directory := w.directory.delete bootstrapName }
  else w

def stepProcess (w : World) (p : Process) : Event → Option World
  | .begin save => p.begin w save
  | .ensuring request applied transport => p.ensuring w request applied transport
  | .ensured error => p.ensured w error
  | .reply applied transport => p.reply w applied transport
  | .record save => p.record w save
  | .list shown => p.list w shown
  | .finish save => p.finish w save
  | .close save => p.close w save
  | .kill applied => some (p.kill w applied)
  | _ => none

def step (w : World) (event : Event) : Option World :=
  match w.process, event with
  | none, .start raw confirm save => some (start w raw confirm save)
  | none, .cancel save => some (cancel w save)
  | none, .retire administrator applied => some (retire w administrator applied)
  | none, _ => none
  | some p, event => stepProcess w p event

inductive Process.Saves (p : Process) : Journal → Option Stage → Prop where
  | ensuring (hstage : p.stage = .ready none) :
      p.Saves (p.journal.startStep .reservedGroups) (some (.requested .reservedGroups none))
  | started {task : Task} {todo : List Task} (hstage : p.stage = .ready (some (task :: todo)))
      (hfound : ∀ username, task ≠ .lost username) :
      p.Saves (p.journal.startStep task.step) (some (.requested task (some todo)))
  | completed {task : Task} {todo : Option (List Task)} (hstage : p.stage = .accepted task todo) :
      p.Saves (p.journal.completeStep task.step) (some (.ready todo))
  | uncertain {task : Task} (hstage : p.stage = .refused task .ambiguous) :
      p.Saves (p.journal.failStep task.step true) (some (.escalating task))
  | failed {task : Task} {error : RequestError} {stage : Option Stage}
      (hstage : p.stage = .refused task error) (herror : error ≠ .ambiguous)
      (hnext : stage = some .closing ∨ stage = none) :
      p.Saves (p.journal.failStep task.step false) stage
  | escalated {task : Task} (hstage : p.stage = .escalating task) :
      p.Saves (p.journal.escalateStep task.step) (some .closing)
  | finished (hstage : p.stage = .ready (some [])) : p.Saves { p.journal with status := .complete } none

/-- The moves of a process that neither save nor send anything. -/
inductive Process.Moves (d : Directory) (p : Process) : Stage → Prop where
  | stopped {todo : Option (List Task)} (hstage : p.stage = .ready todo) : p.Moves d .closing
  | accepted {task : Task} (hstage : p.stage = .requested task none) : p.Moves d (.accepted task none)
  | refused {task : Task} {error : RequestError} (hstage : p.stage = .requested task none) :
      p.Moves d (.refused task error)
  | listed (hstage : p.stage = .ready none) (hguard : resultingAdministrators p.plan d ≠ []) :
      p.Moves d (.ready (some (planTasks p.journal.stepComplete p.plan d)))

/-- The steps, by the branches they take. -/
inductive Change (w : World) : World → Prop where
  | refused : Change w w
  | started {raw : RawPlan} {plan : Plan} {journal : Journal} {requests : List Request}
      {process : Option Process} (hprocess : w.process = none) (hplan : raw.plan = .ok plan)
      (hjournal : openJournal w.journal raw = some journal)
      (hrequests : requests = if w.journal.any fun j ↦ !j.finished then w.requests else [])
      (hnext : process = some ⟨plan, journal, .ready none⟩ ∨ process = none) :
      Change w { w with journal := some journal, process := process, requests := requests }
  | moved {p : Process} {stage : Stage} (hprocess : w.process = some p)
      (h : p.Moves w.directory stage) : Change w (w.at p stage)
  | saved {p : Process} {journal : Journal} {stage : Option Stage} {save : Save}
      (hprocess : w.process = some p) (h : p.Saves journal stage) :
      Change w (w.saved p journal stage save)
  | ensuring {p : Process} {task : Task} {request : GroupRequest} {applied : Bool}
      {transport : Option Transport} {process : Option Process} (hprocess : w.process = some p)
      (hstage : p.stage = .requested task none) (hdue : request.due w.directory = true)
      (hnext : process = none ∨ process = some p ∨
        ∃ error, process = some { p with stage := .refused task error }) :
      Change w { w.sentGroup request task applied transport with process := process }
  | accepted {p : Process} {task : Task} {todo : List Task} {applied : Bool} {transport : Transport}
      (hprocess : w.process = some p) (hstage : p.stage = .requested task (some todo))
      (hadmits : transport.admits applied = true) (houtcome : task.outcome transport = .ok ()) :
      Change w ((w.sent task applied (some transport)).at p (.accepted task (some todo)))
  | failed {p : Process} {task : Task} {todo : List Task} {applied : Bool} {transport : Transport}
      {error : RequestError} (hprocess : w.process = some p)
      (hstage : p.stage = .requested task (some todo)) (hadmits : transport.admits applied = true)
      (houtcome : task.outcome transport = .error error) :
      Change w ((w.sent task applied (some transport)).at p (.refused task error))
  | closed {p : Process} {journal : Option Journal} (hprocess : w.process = some p)
      (hstatus : p.journal.status ≠ .manualRecoveryRequired) (hstage : p.stage = .closing)
      (hjournal : journal = w.journal ∨ journal = some { p.journal with status := .failed }) :
      Change w { w with journal := journal, process := none }
  | ended : Change w { w with process := none }
  | killed {p : Process} {task : Task} {todo : List Task} {applied : Bool}
      (hprocess : w.process = some p) (hstage : p.stage = .requested task (some todo)) :
      Change w { w.sent task applied none with process := none }
  | cancelled {j : Journal} (hprocess : w.process = none) (hjournal : w.journal = some j)
      (h : j.cancellable = true) : Change w { w with journal := some { j with status := .cancelled } }
  | retired {administrator : Text} (hprocess : w.process = none)
      (h : retirable w.directory administrator = true) :
      Change w { w with directory := w.directory.delete bootstrapName }

variable {w w' : World} {p : Process} {event : Event} {save : Save}
variable {applied : Bool} {transport : Transport}

theorem applied_of_outcome {t : Task}
    (hadmits : transport.admits applied = true) (houtcome : t.outcome transport = .ok ()) :
    applied = true := by
  unfold Task.outcome at houtcome
  cases transport with
  | replied body => exact hadmits
  | httpError code => cases houtcome
  | unreadError code fault => cases houtcome
  | urlError reason => cases houtcome
  | raised fault => cases fault <;> cases houtcome

theorem change_of_start {raw : RawPlan} {confirm : Bool} (hprocess : w.process = none) :
    Change w (start w raw confirm save) := by
  unfold start
  split
  · exact .refused
  · rename_i plan hplan
    dsimp only
    split
    · exact .refused
    · split
      · exact .refused
      · rename_i journal hjournal
        split
        · exact .started hprocess hplan hjournal rfl (.inl rfl)
        · exact .started hprocess hplan hjournal rfl (.inr hprocess)
        · exact .refused

theorem change_of_begin (hprocess : w.process = some p) (h : p.begin w save = some w') : Change w w' := by
  unfold Process.begin at h
  split at h
  · rename_i hstage
    split at h
    · cases h
    · obtain rfl := Option.some.inj h
      exact .saved hprocess (.ensuring hstage)
  · rename_i hstage
    obtain rfl := Option.some.inj h
    exact .moved hprocess (.stopped hstage)
  · rename_i task todo hfound hstage
    obtain rfl := Option.some.inj h
    exact .saved hprocess (.started hstage hfound)
  · cases h

theorem change_of_ensuring {request : GroupRequest} {transport : Option Transport}
    (hprocess : w.process = some p) (h : p.ensuring w request applied transport = some w') :
    Change w w' := by
  unfold Process.ensuring at h
  split at h
  · rename_i hstage
    split at h
    · rename_i hdue
      rw [Bool.and_eq_true] at hdue
      dsimp only at h
      split at h
      · obtain rfl := Option.some.inj h
        exact .ensuring hprocess hstage hdue.1 (.inl rfl)
      · obtain rfl := Option.some.inj h
        exact .ensuring hprocess hstage hdue.1 (.inr (.inl rfl))
      · obtain rfl := Option.some.inj h
        exact .ensuring hprocess hstage hdue.1 (.inr (.inr ⟨_, rfl⟩))
    · cases h
  · cases h

theorem change_of_ensured {error : Option RequestError} (hprocess : w.process = some p)
    (h : p.ensured w error = some w') : Change w w' := by
  unfold Process.ensured at h
  split at h
  · rename_i hstage
    obtain rfl := Option.some.inj h
    exact .moved hprocess (.accepted hstage)
  · rename_i hstage
    obtain rfl := Option.some.inj h
    exact .moved hprocess (.refused hstage)
  · cases h

theorem change_of_reply (hprocess : w.process = some p)
    (h : p.reply w applied transport = some w') : Change w w' := by
  unfold Process.reply at h
  split at h
  · rename_i hstage
    split at h
    · rename_i hadmits
      dsimp only at h
      split at h
      · rename_i houtcome
        obtain rfl := Option.some.inj h
        exact .accepted hprocess hstage hadmits houtcome
      · rename_i houtcome
        obtain rfl := Option.some.inj h
        exact .failed hprocess hstage hadmits houtcome
    · cases h
  · cases h

theorem change_of_record (hprocess : w.process = some p) (h : p.record w save = some w') :
    Change w w' := by
  unfold Process.record at h
  split at h
  · rename_i hstage
    obtain rfl := Option.some.inj h
    exact .saved hprocess (.completed hstage)
  · rename_i hstage
    obtain rfl := Option.some.inj h
    exact .saved hprocess (.uncertain hstage)
  · rename_i herror hstage
    obtain rfl := Option.some.inj h
    apply Change.saved hprocess
    apply Process.Saves.failed hstage herror
    split
    · exact .inl rfl
    · exact .inr rfl
  · rename_i hstage
    obtain rfl := Option.some.inj h
    exact .saved hprocess (.escalated hstage)
  · cases h

theorem change_of_list {shown : Bool} (hprocess : w.process = some p) (h : p.list w shown = some w') :
    Change w w' := by
  unfold Process.list at h
  split at h
  · rename_i hstage
    split at h
    · split at h
      · rename_i hguard
        obtain rfl := Option.some.inj h
        rw [Bool.and_eq_true, Bool.not_eq_true', List.isEmpty_eq_false_iff] at hguard
        exact .moved hprocess (.listed hstage hguard.2)
      · obtain rfl := Option.some.inj h
        exact .moved hprocess (.stopped hstage)
    · cases h
  · cases h

theorem change_of_finish (hprocess : w.process = some p) (h : p.finish w save = some w') :
    Change w w' := by
  unfold Process.finish at h
  split at h
  · rename_i hstage
    obtain rfl := Option.some.inj h
    exact .saved hprocess (.finished hstage)
  · cases h

theorem change_of_close (hprocess : w.process = some p) (h : p.close w save = some w') :
    Change w w' := by
  unfold Process.close at h
  split at h
  · rename_i hstage
    split at h
    · obtain rfl := Option.some.inj h
      exact .ended
    · rename_i hstatus
      obtain rfl := Option.some.inj h
      apply Change.closed hprocess hstatus hstage
      split
      · exact .inl rfl
      · exact .inr rfl
  · cases h

theorem change_of_kill (hprocess : w.process = some p) : Change w (p.kill w applied) := by
  unfold Process.kill
  split
  · rename_i hstage
    exact .killed hprocess hstage
  · exact .ended

theorem change_of_cancel (hprocess : w.process = none) : Change w (cancel w save) := by
  unfold cancel
  split
  · rename_i hjournal
    split
    · rename_i hcancel
      rw [Bool.and_eq_true] at hcancel
      exact .cancelled hprocess hjournal hcancel.1
    · exact .refused
  · exact .refused

theorem change_of_retire {administrator : Text} (hprocess : w.process = none) :
    Change w (retire w administrator applied) := by
  unfold retire
  split
  · rename_i h
    rw [Bool.and_eq_true] at h
    exact .retired hprocess h.1
  · exact .refused

theorem change_of_step (h : step w event = some w') : Change w w' := by
  unfold step at h
  cases hprocess : w.process with
  | none =>
    rw [hprocess] at h
    cases event with
    | start =>
      obtain rfl := Option.some.inj h
      exact change_of_start hprocess
    | cancel =>
      obtain rfl := Option.some.inj h
      exact change_of_cancel hprocess
    | retire =>
      obtain rfl := Option.some.inj h
      exact change_of_retire hprocess
    | begin | ensuring | ensured | reply | record | list | finish | close | kill => cases h
  | some p =>
    rw [hprocess] at h
    cases event with
    | start | cancel | retire => cases h
    | begin => exact change_of_begin hprocess h
    | ensuring => exact change_of_ensuring hprocess h
    | ensured => exact change_of_ensured hprocess h
    | reply => exact change_of_reply hprocess h
    | record => exact change_of_record hprocess h
    | list => exact change_of_list hprocess h
    | finish => exact change_of_finish hprocess h
    | close => exact change_of_close hprocess h
    | kill =>
      obtain rfl := Option.some.inj h
      exact change_of_kill hprocess

end NixNas.Accounts
