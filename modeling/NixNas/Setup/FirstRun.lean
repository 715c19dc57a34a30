import NixNas.Lib.Inevitable
import NixNas.Setup.Stages

/-!
# First runs (`first_run` of `services/nas_setup.py`)

The state file and the journal both say that the setup is complete, and are written at different
moments.  The checks of a request before the journal is opened are left out; the postcondition of a
stage may turn false at any time.
-/

namespace NixNas.Setup

variable {V : Type}
variable {existing : Option (Journal V)} {rest : List Stage} {p' : Process V} {m : Machine V}
  {event : Event V}

structure Configuration where
  syncthing : Bool
  preflight : Bool
  allowDestructive : Bool
  fingerprint : Text

def firstRunWorkflow : Text := "first-run-v2".toList

def storageStep : Text := "storage".toList

/-- The stages before the last one; `destructive` is said of the creation of the pool. -/
def workStages (syncthing preflight destructive : Bool) : List Stage :=
  [⟨"keepass-database".toList, false, true⟩,
    ⟨"bootstrap-authentik-authority".toList, false, false⟩,
    ⟨"secret-initialization".toList, false, false⟩,
    ⟨storageStep, destructive, true⟩,
    ⟨"storage-runtime-preparation".toList, false, true⟩,
    ⟨"local-administrator".toList, false, true⟩,
    ⟨"identity-database-regeneration".toList, true, true⟩,
    ⟨"permanent-authentik-authority".toList, false, false⟩,
    ⟨"protected-service-activation".toList, false, true⟩,
    ⟨"identity-bootstrap".toList, false, true⟩,
    ⟨"identity-runtime-token".toList, false, true⟩,
    ⟨"identity-accounts".toList, false, true⟩,
    ⟨"setup-application-retirement".toList, false, true⟩,
    ⟨"bootstrap-authority-retirement".toList, true, true⟩,
    ⟨"bootstrap-linux-retirement".toList, true, true⟩,
    ⟨"share-directories".toList, false, true⟩] ++
  (if syncthing then [⟨"syncthing".toList, false, false⟩] else []) ++
  [⟨"managed-services-policy".toList, false, true⟩, ⟨"verification".toList, false, true⟩] ++
  (if preflight then [⟨"preflight".toList, false, true⟩] else [])

def finalStage : Stage := ⟨"final-state".toList, false, true⟩

def Configuration.stages (c : Configuration) (poolWasMissing : Bool) : List Stage :=
  workStages c.syncthing c.preflight (poolWasMissing && c.allowDestructive) ++ [finalStage]

/-- The state file with a completed report, the journal file, and the process. -/
structure Appliance (V : Type) where
  state : Option V
  journal : Option (Journal V)
  process : Option (Process V)

def Appliance.start : Appliance V := ⟨none, none, none⟩

inductive FirstRunEvent (V : Type) where
  | opens (poolWasMissing : Bool)
  | stage (e : Event V)
  /-- The report becomes visible in the state file. -/
  | publish (report : V)
  /-- `setup_state_matches` is false behind the last stage. -/
  | mismatch
  | finish
  | kill
  | reconcile
  | recoverStorage (result : V)
  /-- The first save of `finish_interrupted_setup_journal`. -/
  | finishRecord
  /-- Its second one. -/
  | finishComplete

/-- `reconcile_verified_storage_retry` when the storage is ready: the journal that it saves. -/
def reconcileVerifiedStorageRetry (existing : Option (Journal V)) (fingerprint : Text) (result : V) :
    Except JournalError (Option (Journal V)) :=
  match existing with
  | none => .ok none
  | some j =>
    if j.fingerprint ≠ fingerprint then .error .differentOperation
    else if j.status = .manualRecoveryRequired ∧ j.currentStep = some storageStep then
      (completeVerifiedRecoveryStep existing firstRunWorkflow j.fingerprint storageStep result
        (some fingerprint)).map some
    else .ok none

/-- `finish_interrupted_setup_journal`: the journal that is still to finish. -/
def interruptedJournal (existing : Option (Journal V)) : Except JournalError (Option (Journal V)) :=
  match existing with
  | none => .ok none
  | some j =>
    if j.status = .complete then .ok none
    else if j.schemaVersion ≠ 1 ∨ j.workflow ≠ firstRunWorkflow then .error .foreignJournal
    else if j.status ∉ [Status.pending, .running, .resuming] then .error .acknowledgementRequired
    else .ok (some j)

/-- `reject_completed_first_run` without a state file. -/
def journalCompleted (existing : Option (Journal V)) : Bool :=
  existing.any (·.status = .complete)

/-- The last stage is skipped or returns only with a report in the state file. -/
def finalAllows (state : Option V) (s : Stage) : Event V → Bool
  | .skip _ => s ≠ finalStage || state.isSome
  | .returns .. => s ≠ finalStage || state.isSome
  | _ => true

variable (c : Configuration)
variable {events : List (FirstRunEvent V)} {n : Appliance V}

def processEvent (a : Appliance V) (p : Process V) : FirstRunEvent V → Option (Appliance V)
  | .kill => some { a with process := none }
  | .stage e =>
    match p.todo with
    | s :: rest =>
      if finalAllows a.state s e then
        (stageEvent ⟨a.journal, some p, []⟩ p s rest e).map fun m ↦
          { a with journal := m.disk, process := m.process }
      else none
    | [] => none
  | .publish report =>
    match p.phase with
    | .acting => if p.todo = [finalStage] ∧ a.state.isNone then some { a with state := some report } else none
    | _ => none
  | .mismatch =>
    match p.phase with
    | .ready => if p.todo = [] then some { a with journal := some (p.journal.fail true), process := none }
      else none
    | _ => none
  | .finish =>
    match p.phase with
    | .ready => if p.todo = [] ∧ a.state.isSome then
        some { a with journal := some (p.journal.complete a.state), process := none } else none
    | _ => none
  | _ => none

def idleEvent (a : Appliance V) : FirstRunEvent V → Option (Appliance V)
  | .reconcile =>
    (acknowledgeManualRecovery a.journal firstRunWorkflow).toOption.map fun j ↦ { a with journal := some j }
  | .opens poolWasMissing =>
    if a.state.isNone ∧ journalCompleted a.journal = false then
      (openJournal a.journal firstRunWorkflow c.fingerprint).toOption.map fun j ↦
        { a with journal := some j, process := some ⟨j, c.stages poolWasMissing, .ready⟩ }
    else none
  | .recoverStorage result =>
    if a.state.isNone ∧ journalCompleted a.journal = false then
      (reconcileVerifiedStorageRetry a.journal c.fingerprint result).toOption.join.map fun j ↦
        { a with journal := some j }
    else none
  | .finishRecord =>
    match a.state, (interruptedJournal a.journal).toOption.join with
    | some report, some j =>
      if j.stepComplete finalStage.name then none
      else some { a with journal := some (j.completeStep finalStage.name (some report)) }
    | _, _ => none
  | .finishComplete =>
    match a.state, (interruptedJournal a.journal).toOption.join with
    | some report, some j =>
      if j.stepComplete finalStage.name then
        some { a with journal := some (j.complete ((j.stepResult finalStage.name).or (some report))) }
      else none
    | _, _ => none
  | _ => none

def firstRunNext (a : Appliance V) (e : FirstRunEvent V) : Option (Appliance V) :=
  match a.process with
  | none => idleEvent c a e
  | some p => processEvent a p e

def firstRuns (a : Appliance V) (events : List (FirstRunEvent V)) : Option (Appliance V) :=
  events.foldlM (firstRunNext c) a

/-! ## What an event does -/

variable {c}
variable {a a' : Appliance V} {e : FirstRunEvent V} {p : Process V} {s : Stage} {j : Journal V}

/-- The events, with all that they require and do. -/
inductive FirstRunStep (c : Configuration) (a : Appliance V) : FirstRunEvent V → Appliance V → Prop where
  | kill (p : Process V) (hp : a.process = some p) :
    FirstRunStep c a .kill { a with process := none }
  | stage (p : Process V) (hp : a.process = some p) (s : Stage) (rest : List Stage)
    (htodo : p.todo = s :: rest) (e : Event V) (hallows : finalAllows a.state s e = true)
    (m : Machine V) (h : StageStep ⟨a.journal, some p, []⟩ p s rest e m) :
    FirstRunStep c a (.stage e) { a with journal := m.disk, process := m.process }
  | publish (p : Process V) (hp : a.process = some p) (report : V) (hphase : p.phase = .acting)
    (htodo : p.todo = [finalStage]) (hstate : a.state = none) :
    FirstRunStep c a (.publish report) { a with state := some report }
  | mismatch (p : Process V) (hp : a.process = some p) (hphase : p.phase = .ready) (htodo : p.todo = []) :
    FirstRunStep c a .mismatch { a with journal := some (p.journal.fail true), process := none }
  | finish (p : Process V) (hp : a.process = some p) (hphase : p.phase = .ready) (htodo : p.todo = [])
    (hstate : a.state.isSome) :
    FirstRunStep c a .finish { a with journal := some (p.journal.complete a.state), process := none }
  | reconcile (hnone : a.process = none) (j : Journal V)
    (h : acknowledgeManualRecovery a.journal firstRunWorkflow = .ok j) :
    FirstRunStep c a .reconcile { a with journal := some j }
  | opens (hnone : a.process = none) (poolWasMissing : Bool) (hstate : a.state = none)
    (hopen : journalCompleted a.journal = false) (j : Journal V)
    (h : openJournal a.journal firstRunWorkflow c.fingerprint = .ok j) :
    FirstRunStep c a (.opens poolWasMissing)
      { a with journal := some j, process := some ⟨j, c.stages poolWasMissing, .ready⟩ }
  | recoverStorage (hnone : a.process = none) (result : V) (hstate : a.state = none) (j₀ j : Journal V)
    (hj₀ : a.journal = some j₀) (hmanual : j₀.status = .manualRecoveryRequired)
    (h : j = { j₀ with
      steps := Function.update j₀.steps storageStep (some ⟨.complete, some result⟩)
      currentStep := none
      status := .reconciled
      fingerprint := c.fingerprint }) :
    FirstRunStep c a (.recoverStorage result) { a with journal := some j }
  | finishRecord (hnone : a.process = none) (report : V) (hstate : a.state = some report) (j : Journal V)
    (hj : a.journal = some j) (hstatus : j.status ∈ [Status.pending, .running, .resuming])
    (hnot : j.stepComplete finalStage.name = false) :
    FirstRunStep c a .finishRecord
      { a with journal := some (j.completeStep finalStage.name (some report)) }
  | finishComplete (hnone : a.process = none) (report : V) (hstate : a.state = some report)
    (j : Journal V) (hj : a.journal = some j)
    (hstatus : j.status ∈ [Status.pending, .running, .resuming])
    (hcomplete : j.stepComplete finalStage.name = true) :
    FirstRunStep c a .finishComplete
      { a with journal := some (j.complete ((j.stepResult finalStage.name).or (some report))) }

theorem join_toOption_some {α ε : Type} {x : Except ε (Option α)} {b : α} (h : x.toOption.join = some b) :
    x = .ok (some b) := by
  cases x with
  | error err => cases h
  | ok o =>
    cases o with
    | none => cases h
    | some b' =>
      cases h
      rfl

theorem interruptedJournal_ok (h : interruptedJournal existing = .ok (some j)) :
    existing = some j ∧ j.status ∈ [Status.pending, .running, .resuming] := by
  unfold interruptedJournal at h
  cases existing with
  | none => cases h
  | some j₀ =>
    dsimp only at h
    split at h
    · cases h
    · split at h
      · cases h
      · split at h
        · cases h
        · rename_i hstatus
          cases h
          exact ⟨rfl, not_not.mp hstatus⟩

theorem reconcileStorage_ok {fingerprint : Text} {result : V}
    (h : reconcileVerifiedStorageRetry existing fingerprint result = .ok (some j)) :
    ∃ j₀, existing = some j₀ ∧ j₀.status = .manualRecoveryRequired ∧
      j = { j₀ with
        steps := Function.update j₀.steps storageStep (some ⟨.complete, some result⟩)
        currentStep := none
        status := .reconciled
        fingerprint := fingerprint } := by
  unfold reconcileVerifiedStorageRetry at h
  cases existing with
  | none => cases h
  | some j₀ =>
    dsimp only at h
    split at h
    · cases h
    · split at h
      · generalize hverified : completeVerifiedRecoveryStep (some j₀) firstRunWorkflow j₀.fingerprint
          storageStep result (some fingerprint) = verified at h
        cases verified with
        | error err => cases h
        | ok j' =>
          cases h
          exact completeVerified_ok hverified
      · cases h

theorem firstRunStep_of_next (h : firstRunNext c a e = some a') : FirstRunStep c a e a' := by
  unfold firstRunNext at h
  cases hprocess : a.process with
  | none =>
    rw [hprocess] at h
    unfold idleEvent at h
    cases e with
    | reconcile =>
      obtain ⟨j, hj, rfl⟩ := toOption_map_some h
      exact .reconcile hprocess j hj
    | opens poolWasMissing =>
      obtain ⟨⟨hstate, hopen⟩, h⟩ := Option.ite_none_right_eq_some.mp h
      obtain ⟨j, hj, rfl⟩ := toOption_map_some h
      exact .opens hprocess poolWasMissing (Option.isNone_iff_eq_none.mp hstate) hopen j hj
    | recoverStorage result =>
      obtain ⟨⟨hstate, -⟩, h⟩ := Option.ite_none_right_eq_some.mp h
      obtain ⟨j, hj, rfl⟩ := Option.map_eq_some_iff.mp h
      obtain ⟨j₀, hj₀, hmanual, heq⟩ := reconcileStorage_ok (join_toOption_some hj)
      exact .recoverStorage hprocess result (Option.isNone_iff_eq_none.mp hstate) j₀ j hj₀ hmanual heq
    | finishRecord =>
      dsimp only at h
      split at h
      · rename_i report j hstate hj
        obtain ⟨hjournal, hstatus⟩ := interruptedJournal_ok (join_toOption_some hj)
        obtain ⟨hnot, h⟩ := Option.ite_none_left_eq_some.mp h
        cases h
        exact .finishRecord hprocess report hstate j hjournal hstatus (Bool.eq_false_iff.mpr hnot)
      · cases h
    | finishComplete =>
      dsimp only at h
      split at h
      · rename_i report j hstate hj
        obtain ⟨hjournal, hstatus⟩ := interruptedJournal_ok (join_toOption_some hj)
        obtain ⟨hcomplete, h⟩ := Option.ite_none_right_eq_some.mp h
        cases h
        exact .finishComplete hprocess report hstate j hjournal hstatus hcomplete
      · cases h
    | _ => cases h
  | some p =>
    rw [hprocess] at h
    unfold processEvent at h
    cases e with
    | kill =>
      cases h
      exact .kill p hprocess
    | stage e =>
      dsimp only at h
      split at h
      · rename_i s rest htodo
        obtain ⟨hallows, h⟩ := Option.ite_none_right_eq_some.mp h
        obtain ⟨m, hm, rfl⟩ := Option.map_eq_some_iff.mp h
        exact .stage p hprocess s rest htodo e hallows m (stageStep_of_event hm)
      · cases h
    | publish report =>
      dsimp only at h
      split at h
      · rename_i hphase
        obtain ⟨⟨htodo, hstate⟩, h⟩ := Option.ite_none_right_eq_some.mp h
        cases h
        exact .publish p hprocess report hphase htodo (Option.isNone_iff_eq_none.mp hstate)
      · cases h
    | mismatch =>
      dsimp only at h
      split at h
      · rename_i hphase
        obtain ⟨htodo, h⟩ := Option.ite_none_right_eq_some.mp h
        cases h
        exact .mismatch p hprocess hphase htodo
      · cases h
    | finish =>
      dsimp only at h
      split at h
      · rename_i hphase
        obtain ⟨⟨htodo, hstate⟩, h⟩ := Option.ite_none_right_eq_some.mp h
        cases h
        exact .finish p hprocess hphase htodo hstate
      · cases h
    | _ => cases h

/-! ## What every first run keeps -/

/-- The journal is one of this first run, not cancelled. -/
structure Journal.Ours (c : Configuration) (j : Journal V) : Prop where
  schema : j.schemaVersion = 1
  workflow : j.workflow = firstRunWorkflow
  fingerprint : j.fingerprint = c.fingerprint
  status : j.status ≠ .cancelled

/-- A process that may have published its report. -/
def Phase.Publishes : Phase V → Prop
  | .acting => True
  | .returned _ => True
  | .raised => True
  | _ => False

/-- Where a process stands: behind the publication nothing but the last stage is at hand. -/
def Place (state : Option V) (p : Process V) : Prop :=
  match state with
  | none => ∃ before, p.todo = before ++ [finalStage] ∧ (∀ s ∈ before, s.name ≠ finalStage.name) ∧
      (before = [] → ∀ result, p.phase ≠ .returned result)
  | some _ => (p.todo = [] ∧ p.phase = .ready) ∨ (p.todo = [finalStage] ∧ p.phase.Publishes)

structure Underway (a : Appliance V) (p : Process V) : Prop where
  saved : a.journal = some p.journal
  status : p.journal.status ∈ [Status.pending, .running, .resuming]
  place : Place a.state p

theorem running_mem : Status.running ∈ [Status.pending, .running, .resuming] := by decide

theorem resuming_mem : Status.resuming ∈ [Status.pending, .running, .resuming] := by decide

/-- A journal without a published report is unfinished. -/
structure Unpublished (j : Journal V) : Prop where
  status : j.status ≠ .complete
  final : j.stepComplete finalStage.name = false

structure Sound (c : Configuration) (a : Appliance V) : Prop where
  ours : ∀ j, a.journal = some j → j.Ours c
  unpublished : a.state = none → ∀ j, a.journal = some j → Unpublished j
  written : a.state.isSome → a.journal.isSome
  underway : ∀ p, a.process = some p → Underway a p

theorem Sound.start : Sound c (Appliance.start : Appliance V) where
  ours := nofun
  unpublished _ := nofun
  written h := by cases h
  underway := nofun

theorem ours_fresh : (freshJournal firstRunWorkflow c.fingerprint : Journal V).Ours c where
  schema := rfl
  workflow := rfl
  fingerprint := rfl
  status := nofun

theorem unpublished_fresh : Unpublished (freshJournal firstRunWorkflow c.fingerprint : Journal V) where
  status := nofun
  final := rfl

theorem work_ne_final : ∀ syncthing preflight destructive, ∀ s ∈ workStages syncthing preflight destructive,
    s.name ≠ finalStage.name := by
  decide

theorem length_stages (poolWasMissing : Bool) :
    (c.stages poolWasMissing).length = (c.stages true).length := by
  unfold Configuration.stages
  rw [List.length_append, List.length_append]
  cases c.syncthing <;> cases c.preflight <;> rfl

theorem failedStatus_ne (manual : Bool) : failedStatus manual ≠ .cancelled ∧ failedStatus manual ≠ .complete := by
  cases manual <;> exact ⟨nofun, nofun⟩

theorem Journal.Ours.failStep (h : j.Ours c) (step : Text) (manual : Bool) : (j.failStep step manual).Ours c :=
  ⟨h.schema, h.workflow, h.fingerprint, (failedStatus_ne manual).1⟩

theorem Unpublished.failStep (h : Unpublished j) (step : Text) (manual : Bool) :
    Unpublished (j.failStep step manual) := by
  refine ⟨(failedStatus_ne manual).2, ?_⟩
  by_cases heq : finalStage.name = step
  · rw [heq]
    exact stepComplete_failStep manual
  · exact (stepComplete_failStep_of_ne heq manual).trans h.final

section
variable {m₀ : Machine V}

theorem StageStep.ours (h : StageStep m₀ p s rest event m) (hdisk : m₀.disk = some p.journal)
    (hours : p.journal.Ours c) : ∀ j, m.disk = some j → j.Ours c := by
  intro j hj
  cases h with
  | skip | refute | execute | returns | raises =>
    obtain rfl := Option.some.inj (hdisk.symm.trans hj)
    exact hours
  | saveStart =>
    obtain rfl := Option.some.inj hj
    exact ⟨hours.schema, hours.workflow, hours.fingerprint, nofun⟩
  | saveComplete =>
    obtain rfl := Option.some.inj hj
    exact ⟨hours.schema, hours.workflow, hours.fingerprint, hours.status⟩
  | saveRaised | saveViolated =>
    obtain rfl := Option.some.inj hj
    exact hours.failStep _ _

theorem StageStep.unpublished (h : StageStep m₀ p s rest event m) (hdisk : m₀.disk = some p.journal)
    (hun : Unpublished p.journal)
    (hname : s.name = finalStage.name → ∀ result, p.phase ≠ .returned result) :
    ∀ j, m.disk = some j → Unpublished j := by
  intro j hj
  cases h with
  | skip | refute | execute | returns | raises =>
    obtain rfl := Option.some.inj (hdisk.symm.trans hj)
    exact hun
  | saveStart =>
    obtain rfl := Option.some.inj hj
    refine ⟨nofun, ?_⟩
    by_cases heq : finalStage.name = s.name
    · rw [heq]
      exact stepComplete_startStep
    · exact (stepComplete_startStep_of_ne heq).trans hun.final
  | saveComplete result hphase =>
    obtain rfl := Option.some.inj hj
    refine ⟨hun.status, ?_⟩
    have hne : finalStage.name ≠ s.name := fun heq => hname heq.symm result hphase
    exact (stepComplete_completeStep_of_ne hne).trans hun.final
  | saveRaised | saveViolated =>
    obtain rfl := Option.some.inj hj
    exact hun.failStep _ _

end

theorem place_none (h : Place (none : Option V) p) (htodo : p.todo = s :: rest) :
    (s = finalStage ∧ rest = [] ∧ ∀ result, p.phase ≠ .returned result) ∨
      (s.name ≠ finalStage.name ∧
        ∃ before, rest = before ++ [finalStage] ∧ ∀ t ∈ before, t.name ≠ finalStage.name) := by
  obtain ⟨before, hbefore, hne, hreturned⟩ := h
  rw [htodo] at hbefore
  cases before with
  | nil =>
    obtain ⟨rfl, rfl⟩ := List.cons.inj hbefore
    exact .inl ⟨rfl, rfl, hreturned rfl⟩
  | cons t before =>
    obtain ⟨rfl, rfl⟩ := List.cons.inj hbefore
    exact .inr ⟨hne s List.mem_cons_self, before, rfl, fun t ht => hne t (List.mem_cons_of_mem _ ht)⟩

theorem place_some {report : V} (h : Place (some report) p)
    (htodo : p.todo = s :: rest) : s = finalStage ∧ rest = [] ∧ p.phase.Publishes := by
  obtain ⟨hempty, -⟩ | ⟨hlast, hpublishes⟩ := h
  · rw [htodo] at hempty
    cases hempty
  · rw [htodo] at hlast
    obtain ⟨rfl, rfl⟩ := List.cons.inj hlast
    exact ⟨rfl, rfl, hpublishes⟩

theorem Place.of_todo (h : Place (none : Option V) p) (htodo : p'.todo = p.todo)
    (hphase : ∀ result, p'.phase ≠ .returned result) : Place (none : Option V) p' := by
  obtain ⟨before, hbefore, hne, -⟩ := h
  exact ⟨before, htodo.trans hbefore, hne, fun _ => hphase⟩

theorem StageStep.underway (hu : Underway a p)
    (h : StageStep ⟨a.journal, some p, []⟩ p s rest event m) (htodo : p.todo = s :: rest)
    (hallows : finalAllows a.state s event = true) (hp' : m.process = some p') :
    Underway { a with journal := m.disk, process := m.process } p' := by
  obtain ⟨state, journal, process⟩ := a
  obtain ⟨hsaved, hstatus, hplace⟩ := hu
  dsimp only at hsaved hplace hallows
  subst hsaved
  cases state with
  | none =>
    cases h with
    | skip hphase hcomplete =>
      obtain rfl := Option.some.inj hp'
      obtain ⟨rfl, -, -⟩ | ⟨-, before, hrest, hne⟩ := place_none hplace htodo
      · cases hallows
      · refine ⟨rfl, hstatus, before, hrest, hne, fun _ result heq => ?_⟩
        cases hphase.symm.trans heq
    | refute hphase =>
      obtain rfl := Option.some.inj hp'
      exact ⟨rfl, hstatus, hplace.of_todo rfl nofun⟩
    | saveStart hphase =>
      obtain rfl := Option.some.inj hp'
      exact ⟨rfl, running_mem, hplace.of_todo rfl nofun⟩
    | execute hphase =>
      obtain rfl := Option.some.inj hp'
      exact ⟨rfl, hstatus, hplace.of_todo rfl nofun⟩
    | returns hphase result =>
      obtain rfl := Option.some.inj hp'
      obtain ⟨rfl, -, -⟩ | ⟨hname, before, hrest, hne⟩ := place_none hplace htodo
      · cases hallows
      · refine ⟨rfl, hstatus, s :: before, ?_, ?_, nofun⟩
        · exact htodo.trans (congrArg _ hrest)
        · intro t ht
          rcases List.mem_cons.mp ht with rfl | ht
          · exact hname
          · exact hne t ht
    | raises hphase =>
      obtain rfl := Option.some.inj hp'
      exact ⟨rfl, hstatus, hplace.of_todo rfl nofun⟩
    | saveComplete result hphase =>
      obtain rfl := Option.some.inj hp'
      obtain ⟨-, -, hnot⟩ | ⟨-, before, hrest, hne⟩ := place_none hplace htodo
      · exact absurd hphase (hnot result)
      · exact ⟨rfl, hstatus, before, hrest, hne, nofun⟩
    | saveRaised | saveViolated => cases hp'
  | some report =>
    obtain ⟨rfl, rfl, hpublishes⟩ := place_some hplace htodo
    cases h with
    | skip hphase | refute hphase | saveStart hphase | execute hphase =>
      rw [hphase] at hpublishes
      exact hpublishes.elim
    | returns hphase result =>
      obtain rfl := Option.some.inj hp'
      exact ⟨rfl, hstatus, .inr ⟨htodo, trivial⟩⟩
    | raises hphase =>
      obtain rfl := Option.some.inj hp'
      exact ⟨rfl, hstatus, .inr ⟨htodo, trivial⟩⟩
    | saveComplete result hphase =>
      obtain rfl := Option.some.inj hp'
      exact ⟨rfl, hstatus, .inl ⟨rfl, rfl⟩⟩
    | saveRaised | saveViolated => cases hp'

theorem ours_open (hours : ∀ j, a.journal = some j → j.Ours c)
    (h : openJournal a.journal firstRunWorkflow c.fingerprint = .ok j) : j.Ours c := by
  obtain ⟨-, rfl⟩ | ⟨j₀, hj₀, -, -, -, -, rfl⟩ := openJournal_ok h
  · exact ours_fresh
  · exact ⟨(hours j₀ hj₀).schema, (hours j₀ hj₀).workflow, (hours j₀ hj₀).fingerprint, nofun⟩

theorem unpublished_open (hun : ∀ j, a.journal = some j → Unpublished j)
    (h : openJournal a.journal firstRunWorkflow c.fingerprint = .ok j) :
    Unpublished j ∧ j.status ∈ [Status.pending, .running, .resuming] := by
  obtain ⟨-, rfl⟩ | ⟨j₀, hj₀, -, -, -, -, rfl⟩ := openJournal_ok h
  · exact ⟨unpublished_fresh, List.mem_cons_self⟩
  · exact ⟨⟨nofun, (hun j₀ hj₀).final⟩, resuming_mem⟩

theorem Sound.step (hs : Sound c a) (h : FirstRunStep c a e a') : Sound c a' := by
  -- by the event: the journal in the file stays the first run's, and unfinished without a report
  cases h with
  | kill p hp => exact ⟨hs.ours, hs.unpublished, hs.written, nofun⟩
  | stage p hp s rest htodo event hallows m hstep =>
    have hu := hs.underway p hp
    refine ⟨hstep.ours hu.saved (hs.ours _ hu.saved), fun hstate => ?_, fun _ => ?_,
      fun p' hp' => hstep.underway hu htodo hallows hp'⟩
    · apply hstep.unpublished hu.saved (hs.unpublished hstate _ hu.saved)
      intro hname result
      have hplace := hu.place
      rw [hstate] at hplace
      obtain ⟨-, -, hnot⟩ | ⟨hne, -⟩ := place_none hplace htodo
      · exact hnot result
      · exact absurd hname hne
    · cases hstep <;> simp [Machine.save, Machine.saveLast, hu.saved]
  | publish p hp report hphase htodo hstate =>
    have hu := hs.underway p hp
    refine ⟨hs.ours, nofun, fun _ => ?_, fun q hq => ?_⟩
    · rw [hu.saved]
      rfl
    · obtain rfl := Option.some.inj (hp.symm.trans hq)
      refine ⟨hu.saved, hu.status, .inr ⟨htodo, ?_⟩⟩
      rw [hphase]
      trivial
  | mismatch p hp hphase htodo =>
    have hours := hs.ours _ (hs.underway p hp).saved
    refine ⟨fun j hj => ?_, fun hstate j hj => ?_, fun _ => rfl, nofun⟩
    · obtain rfl := Option.some.inj hj
      exact ⟨hours.schema, hours.workflow, hours.fingerprint, nofun⟩
    · obtain rfl := Option.some.inj hj
      exact ⟨nofun, (hs.unpublished hstate _ (hs.underway p hp).saved).final⟩
  | finish p hp hphase htodo hstate =>
    have hours := hs.ours _ (hs.underway p hp).saved
    refine ⟨fun j hj => ?_, fun hnone => ?_, fun _ => rfl, nofun⟩
    · obtain rfl := Option.some.inj hj
      exact ⟨hours.schema, hours.workflow, hours.fingerprint, nofun⟩
    · dsimp only at hnone
      rw [hnone] at hstate
      cases hstate
  | reconcile hnone j hj =>
    obtain ⟨j₀, hj₀, -, rfl⟩ := acknowledge_ok hj
    have hours := hs.ours j₀ hj₀
    refine ⟨fun j hj => ?_, fun hstate j hj => ?_, fun _ => rfl, fun p hp => ?_⟩
    · obtain rfl := Option.some.inj hj
      exact ⟨hours.schema, hours.workflow, hours.fingerprint, nofun⟩
    · obtain rfl := Option.some.inj hj
      exact ⟨nofun, (hs.unpublished hstate j₀ hj₀).final⟩
    · cases hnone.symm.trans hp
  | opens hnone poolWasMissing hstate hopen j hj =>
    obtain ⟨hun, hstatus⟩ := unpublished_open (hs.unpublished hstate) hj
    have hours := ours_open hs.ours hj
    refine ⟨fun k hk => ?_, fun _ k hk => ?_, fun _ => rfl, fun p hp => ?_⟩
    · obtain rfl := Option.some.inj hk
      exact hours
    · obtain rfl := Option.some.inj hk
      exact hun
    · obtain rfl := Option.some.inj hp
      refine ⟨rfl, hstatus, ?_⟩
      rw [hstate]
      exact ⟨_, rfl, work_ne_final _ _ _, fun _ => nofun⟩
  | recoverStorage hnone result hstate j₀ j hj₀ hmanual heq =>
    have hours := hs.ours j₀ hj₀
    subst heq
    refine ⟨fun j hj => ?_, fun _ j hj => ?_, fun _ => rfl, fun p hp => ?_⟩
    · obtain rfl := Option.some.inj hj
      exact ⟨hours.schema, hours.workflow, rfl, nofun⟩
    · obtain rfl := Option.some.inj hj
      refine ⟨nofun, ?_⟩
      have hne : finalStage.name ≠ storageStep := by decide
      exact (stepComplete_update_of_ne hne).trans (hs.unpublished hstate j₀ hj₀).final
    · cases hnone.symm.trans hp
  | finishRecord hnone report hstate j hj hstatus hnot =>
    have hours := hs.ours j hj
    refine ⟨fun k hk => ?_, fun hnot => ?_, fun _ => rfl, fun p hp => ?_⟩
    · obtain rfl := Option.some.inj hk
      exact ⟨hours.schema, hours.workflow, hours.fingerprint, hours.status⟩
    · cases hstate.symm.trans hnot
    · cases hnone.symm.trans hp
  | finishComplete hnone report hstate j hj hstatus hcomplete =>
    have hours := hs.ours j hj
    refine ⟨fun k hk => ?_, fun hnot => ?_, fun _ => rfl, fun p hp => ?_⟩
    · obtain rfl := Option.some.inj hk
      exact ⟨hours.schema, hours.workflow, hours.fingerprint, nofun⟩
    · cases hstate.symm.trans hnot
    · cases hnone.symm.trans hp

/-! ## Dead ends -/

/-- The state file is complete, and the journal stands where `finish_interrupted_setup_journal`
refuses it. -/
def Stuck (a : Appliance V) : Prop :=
  a.state.isSome ∧ ∃ j, a.journal = some j ∧ j.status ∈ [Status.failed, .manualRecoveryRequired, .reconciled]

def RecordsFailure (a : Appliance V) (e : FirstRunEvent V) : Prop :=
  a.state.isSome ∧ ((∃ s, e = .stage (.saveFailed s)) ∨ e = .mismatch)

theorem failedStatus_mem (manual : Bool) :
    failedStatus manual ∈ [Status.failed, .manualRecoveryRequired, .reconciled] := by
  cases manual <;> decide

theorem not_stuck_status {status : Status} (h : status ∈ [Status.pending, .running, .resuming]) :
    status ∉ [Status.failed, .manualRecoveryRequired, .reconciled] := by
  cases status <;> revert h <;> decide

theorem not_stuck_of_status (hj : a.journal = some j)
    (h : j.status ∉ [Status.failed, .manualRecoveryRequired, .reconciled]) : ¬ Stuck a := by
  rintro ⟨-, k, hk, hstatus⟩
  obtain rfl := Option.some.inj (hj.symm.trans hk)
  exact h hstatus

theorem Sound.not_stuck_of_process (hs : Sound c a) (hp : a.process = some p) : ¬ Stuck a :=
  not_stuck_of_status (hs.underway p hp).saved (not_stuck_status (hs.underway p hp).status)

theorem Stuck.step (hs : Sound c a) (h : Stuck a) (he : FirstRunStep c a e a') : Stuck a' := by
  obtain ⟨hstate, j, hj, hstatus⟩ := id h
  -- the journal is not one that can be finished
  have hother : ∀ k, a.journal = some k → k.status ∉ [Status.pending, .running, .resuming] := by
    intro k hk hmem
    exact not_stuck_of_status hk (not_stuck_status hmem) h
  cases he with
  | kill p hp | stage p hp | publish p hp | mismatch p hp | finish p hp =>
    exact absurd h (hs.not_stuck_of_process hp)
  | reconcile hnone k hk =>
    obtain ⟨j₀, -, -, rfl⟩ := acknowledge_ok hk
    exact ⟨hstate, _, rfl, List.mem_cons_of_mem _ (List.mem_cons_of_mem _ List.mem_cons_self)⟩
  | opens hnone poolWasMissing hnostate =>
    rw [hnostate] at hstate
    cases hstate
  | recoverStorage hnone result hnostate =>
    rw [hnostate] at hstate
    cases hstate
  | finishRecord hnone report hreport k hk hmem => exact absurd hmem (hother k hk)
  | finishComplete hnone report hreport k hk hmem => exact absurd hmem (hother k hk)

theorem not_stuck_of_none (h : a.state = none) : ¬ Stuck a := by
  rintro ⟨hstate, -⟩
  rw [h] at hstate
  cases hstate

/-- A dead end is entered by recording a failure behind the publication, and only so. -/
theorem stuck_step_iff (hs : Sound c a) (h : FirstRunStep c a e a') (hnot : ¬ Stuck a) :
    Stuck a' ↔ RecordsFailure a e := by
  have hs' := hs.step h
  cases h with
  | kill p hp =>
    refine iff_of_false (not_stuck_of_status (hs.underway p hp).saved ?_) ?_
    · exact not_stuck_status (hs.underway p hp).status
    · rintro ⟨-, ⟨s, heq⟩ | heq⟩ <;> cases heq
  | stage p hp s rest htodo event hallows m hstep =>
    cases hstep with
    | skip | refute | saveStart | execute | returns | raises | saveComplete =>
      refine iff_of_false (hs'.not_stuck_of_process rfl) ?_
      rintro ⟨-, ⟨s, heq⟩ | heq⟩ <;> cases heq
    | saveRaised hphase =>
      constructor
      · exact fun hstuck => ⟨hstuck.1, .inl ⟨s, rfl⟩⟩
      · exact fun hrecords => ⟨hrecords.1, _, rfl, failedStatus_mem s.manual⟩
    | saveViolated hphase =>
      constructor
      · exact fun hstuck => ⟨hstuck.1, .inl ⟨s, rfl⟩⟩
      · exact fun hrecords => ⟨hrecords.1, _, rfl, failedStatus_mem true⟩
  | publish p hp report hphase htodo hstate =>
    refine iff_of_false (hs'.not_stuck_of_process hp) ?_
    rintro ⟨-, ⟨s, heq⟩ | heq⟩ <;> cases heq
  | mismatch p hp hphase htodo =>
    constructor
    · exact fun hstuck => ⟨hstuck.1, .inr rfl⟩
    · exact fun hrecords => ⟨hrecords.1, _, rfl, failedStatus_mem true⟩
  | finish p hp hphase htodo hstate =>
    refine iff_of_false (not_stuck_of_status rfl ?_) ?_
    · simp [Journal.complete]
    · rintro ⟨-, ⟨s, heq⟩ | heq⟩ <;> cases heq
  | reconcile hnone j hj =>
    obtain ⟨j₀, hj₀, hmanual, rfl⟩ := acknowledge_ok hj
    -- with a report the journal was refused before
    have hstate : a.state = none := by
      by_contra hsome
      refine hnot ⟨Option.isSome_iff_ne_none.mpr hsome, j₀, hj₀, ?_⟩
      rw [hmanual]
      exact failedStatus_mem true
    refine iff_of_false (not_stuck_of_none hstate) ?_
    rintro ⟨-, ⟨s, heq⟩ | heq⟩ <;> cases heq
  | opens hnone poolWasMissing hstate hopen j hj =>
    refine iff_of_false (hs'.not_stuck_of_process rfl) ?_
    rintro ⟨-, ⟨s, heq⟩ | heq⟩ <;> cases heq
  | recoverStorage hnone result hstate j₀ j hj₀ hmanual heq =>
    refine iff_of_false (not_stuck_of_none hstate) ?_
    rintro ⟨-, ⟨s, heq⟩ | heq⟩ <;> cases heq
  | finishRecord hnone report hstate j hj hstatus hnot' =>
    refine iff_of_false (not_stuck_of_status rfl (not_stuck_status hstatus)) ?_
    rintro ⟨-, ⟨s, heq⟩ | heq⟩ <;> cases heq
  | finishComplete hnone report hstate j hj hstatus hcomplete =>
    refine iff_of_false (not_stuck_of_status rfl ?_) ?_
    · simp [Journal.complete]
    · rintro ⟨-, ⟨s, heq⟩ | heq⟩ <;> cases heq

/-! ## What nothing fails -/

def FirstRunEvent.healthy : FirstRunEvent V → Bool
  | .kill => false
  | .mismatch => false
  | .stage (.refute _) => false
  | .stage (.raises _) => false
  | .stage (.saveFailed _) => false
  | _ => true

def HealthyStep (c : Configuration) (a : Appliance V) (e : FirstRunEvent V) (a' : Appliance V) : Prop :=
  e.healthy = true ∧ firstRunNext c a e = some a'

def Finished (a : Appliance V) : Prop :=
  a.process = none ∧ a.state.isSome ∧ ∃ j, a.journal = some j ∧ j.status = .complete

def Phase.unfailed : Phase V → Bool
  | .raised => false
  | .violated => false
  | _ => true

def Phase.left : Phase V → ℕ
  | .ready => 6
  | .started => 5
  | .acting => 4
  | .returned _ => 2
  | _ => 0

def Appliance.left (c : Configuration) (a : Appliance V) : ℕ :=
  match a.process, a.state with
  | some p, state => 16 * p.todo.length + 2 * p.phase.left + (if state.isNone then 1 else 0) + 4
  | none, none =>
    16 * (c.stages true).length + 18 +
      if a.journal.any (·.status = .manualRecoveryRequired) then 1 else 0
  | none, some _ =>
    if journalCompleted a.journal then 0
    else if a.journal.any (·.stepComplete finalStage.name) then 1 else 2

structure Promising (c : Configuration) (a : Appliance V) : Prop where
  sound : Sound c a
  notStuck : ¬ Stuck a
  unfailed : ∀ p, a.process = some p → p.phase.unfailed = true

theorem left_process (hp : a.process = some p) :
    a.left c = 16 * p.todo.length + 2 * p.phase.left + (if a.state.isNone then 1 else 0) + 4 := by
  unfold Appliance.left
  rw [hp]

theorem left_idle (hp : a.process = none) (hstate : a.state = none) :
    a.left c = 16 * (c.stages true).length + 18 +
      if a.journal.any (·.status = .manualRecoveryRequired) then 1 else 0 := by
  unfold Appliance.left
  rw [hp, hstate]

theorem left_written (hp : a.process = none) (hstate : a.state.isSome) (hj : a.journal = some j) :
    a.left c = if j.status = .complete then 0 else if j.stepComplete finalStage.name then 1 else 2 := by
  obtain ⟨report, hreport⟩ := Option.isSome_iff_exists.mp hstate
  unfold Appliance.left journalCompleted
  rw [hp, hreport, hj]
  simp only [Option.any_some, decide_eq_true_eq]

theorem StageStep.left_lt {m₀ : Machine V}
    (h : StageStep m₀ p s rest event m) (htodo : p.todo = s :: rest)
    (hhealthy : (FirstRunEvent.stage event).healthy = true) :
    ∃ p', m.process = some p' ∧ p'.phase.unfailed = true ∧
      16 * p'.todo.length + 2 * p'.phase.left < 16 * p.todo.length + 2 * p.phase.left := by
  have hlength : p.todo.length = rest.length + 1 := by rw [htodo, List.length_cons]
  cases h with
  | skip hphase hcomplete =>
    refine ⟨_, rfl, ?_, ?_⟩
    · rw [hphase]
      rfl
    · show 16 * rest.length + 2 * p.phase.left < _
      omega
  | saveStart hphase | execute hphase | returns hphase =>
    refine ⟨_, rfl, rfl, ?_⟩
    rw [hphase]
    simp only [Phase.left]
    omega
  | saveComplete result hphase =>
    refine ⟨_, rfl, rfl, ?_⟩
    rw [hphase]
    simp only [Phase.left]
    omega
  | refute | raises | saveRaised | saveViolated => cases hhealthy

theorem Promising.step (h : Promising c a) (he : HealthyStep c a e a') :
    Promising c a' ∧ a'.left c < a.left c := by
  obtain ⟨hs, hnot, hunfailed⟩ := h
  obtain ⟨hhealthy, hnext⟩ := he
  have hstep := firstRunStep_of_next hnext
  have hs' := hs.step hstep
  have hnot' : ¬ Stuck a' := by
    rw [stuck_step_iff hs hstep hnot]
    rintro ⟨-, ⟨s, rfl⟩ | rfl⟩ <;> cases hhealthy
  suffices hrest : (∀ p, a'.process = some p → p.phase.unfailed = true) ∧ a'.left c < a.left c from
    ⟨⟨hs', hnot', hrest.1⟩, hrest.2⟩
  cases hstep with
  | kill | mismatch => cases hhealthy
  | stage p hp s rest htodo event hallows m hstage =>
    obtain ⟨p', hp', hphase, hlt⟩ := hstage.left_lt htodo hhealthy
    constructor
    · intro q hq
      obtain rfl := Option.some.inj (hp'.symm.trans hq)
      exact hphase
    · rw [left_process hp, left_process hp']
      dsimp only
      omega
  | publish p hp report hphase htodo hstate =>
    constructor
    · exact hunfailed
    · rw [left_process hp, left_process (a := { a with state := some report }) hp, hstate]
      simp
  | finish p hp hphase htodo hstate =>
    refine ⟨nofun, ?_⟩
    rw [left_process hp,
      left_written (a := ⟨a.state, some (p.journal.complete a.state), none⟩) rfl hstate rfl]
    simp [Journal.complete]
  | reconcile hnone j hj =>
    obtain ⟨j₀, hj₀, hmanual, rfl⟩ := acknowledge_ok hj
    refine ⟨fun p hp => (nomatch hnone.symm.trans hp), ?_⟩
    have hstate : a.state = none := by
      by_contra hsome
      refine hnot ⟨Option.isSome_iff_ne_none.mpr hsome, j₀, hj₀, ?_⟩
      rw [hmanual]
      exact failedStatus_mem true
    rw [left_idle hnone hstate,
      left_idle (a := { a with journal := some { j₀ with status := .reconciled } }) hnone hstate, hj₀]
    simp [hmanual]
  | opens hnone poolWasMissing hstate hopen j hj =>
    constructor
    · rintro p hp
      obtain rfl := Option.some.inj hp
      rfl
    · rw [left_idle hnone hstate, left_process rfl]
      dsimp only
      rw [length_stages, hstate]
      simp only [Phase.left, Option.isNone_none, if_true]
      omega
  | recoverStorage hnone result hstate j₀ j hj₀ hmanual heq =>
    refine ⟨fun p hp => (nomatch hnone.symm.trans hp), ?_⟩
    rw [left_idle hnone hstate, left_idle (a := { a with journal := some j }) hnone hstate, hj₀, heq]
    simp [hmanual]
  | finishRecord hnone report hstate j hj hstatus hincomplete =>
    refine ⟨fun p hp => (nomatch hnone.symm.trans hp), ?_⟩
    have hsome : a.state.isSome := by rw [hstate]; rfl
    have hne : j.status ≠ .complete := by
      intro heq
      rw [heq] at hstatus
      revert hstatus
      decide
    have hne' : (j.completeStep finalStage.name (some report)).status ≠ .complete := hne
    rw [left_written hnone hsome hj, left_written
        (a := ⟨a.state, some (j.completeStep finalStage.name (some report)), a.process⟩) hnone hsome rfl,
      hincomplete, if_neg hne, if_neg hne', stepComplete_completeStep]
    decide
  | finishComplete hnone report hstate j hj hstatus hcomplete =>
    refine ⟨fun p hp => (nomatch hnone.symm.trans hp), ?_⟩
    have hsome : a.state.isSome := by rw [hstate]; rfl
    have hne : j.status ≠ .complete := by
      intro heq
      rw [heq] at hstatus
      revert hstatus
      decide
    rw [left_written hnone hsome hj, left_written
        (a := ⟨a.state, some (j.complete ((j.stepResult finalStage.name).or (some report))), a.process⟩)
        hnone hsome rfl, hcomplete, if_neg hne]
    simp [Journal.complete]

theorem exists_stage (hp : a.process = some p) (htodo : p.todo = s :: rest)
    (event : Event V) (hallows : finalAllows a.state s event = true)
    (hevent : (stageEvent ⟨a.journal, some p, []⟩ p s rest event).isSome) :
    ∃ a', firstRunNext c a (.stage event) = some a' := by
  obtain ⟨m, hm⟩ := Option.isSome_iff_exists.mp hevent
  refine ⟨{ a with journal := m.disk, process := m.process }, ?_⟩
  unfold firstRunNext processEvent
  rw [hp]
  dsimp only
  rw [htodo]
  dsimp only
  rw [if_pos hallows, hm]
  rfl

theorem Promising.process_progress [Nonempty V] (h : Promising c a) (hp : a.process = some p) :
    ∃ e a', HealthyStep c a e a' := by
  have hu := h.sound.underway p hp
  have hplace := hu.place
  cases htodo : p.todo with
  | nil =>
    -- the report is published, and all stages are done
    cases hstate : a.state with
    | none =>
      rw [hstate] at hplace
      obtain ⟨before, hbefore, -⟩ := hplace
      rw [htodo] at hbefore
      cases before <;> cases hbefore
    | some report =>
      rw [hstate] at hplace
      obtain ⟨-, hphase⟩ | ⟨hlast, -⟩ := hplace
      · refine ⟨.finish, ⟨a.state, some (p.journal.complete a.state), none⟩, rfl, ?_⟩
        unfold firstRunNext processEvent
        rw [hp]
        dsimp only
        rw [hphase, htodo, hstate]
        rfl
      · rw [htodo] at hlast
        cases hlast
  | cons s rest =>
    have hunfailed := h.unfailed p hp
    cases hphase : p.phase with
    | ready =>
      by_cases hcomplete : p.journal.stepComplete s.name = true
      · have hallows : finalAllows a.state s (.skip s : Event V) = true := by
          cases hstate : a.state with
          | none =>
            have hfinal := (h.sound.unpublished hstate _ hu.saved).final
            by_cases heq : s = finalStage
            · rw [heq, hfinal] at hcomplete
              cases hcomplete
            · simp [finalAllows, heq]
          | some report => simp [finalAllows]
        obtain ⟨a', ha'⟩ := exists_stage (c := c) hp htodo (.skip s) hallows
          (by simp [stageEvent, hphase, hcomplete])
        exact ⟨_, a', rfl, ha'⟩
      · obtain ⟨a', ha'⟩ := exists_stage (c := c) hp htodo (.saveStart s) rfl
          (by simp [stageEvent, hphase, hcomplete])
        exact ⟨_, a', rfl, ha'⟩
    | started =>
      obtain ⟨a', ha'⟩ := exists_stage (c := c) hp htodo (.execute s) rfl (by simp [stageEvent, hphase])
      exact ⟨_, a', rfl, ha'⟩
    | acting =>
      by_cases hallows : finalAllows a.state s (.returns s none : Event V) = true
      · obtain ⟨a', ha'⟩ := exists_stage (c := c) hp htodo (.returns s none) hallows
          (by simp [stageEvent, hphase])
        exact ⟨_, a', rfl, ha'⟩
      · -- the last stage has its report still to publish
        unfold finalAllows at hallows
        rw [Bool.or_eq_true, not_or, decide_eq_true_eq, not_not, Option.not_isSome_iff_eq_none] at hallows
        obtain ⟨rfl, hstate⟩ := hallows
        obtain ⟨report⟩ := ‹Nonempty V›
        rw [hstate] at hplace
        have hrest : rest = [] := by
          obtain ⟨-, hrest, -⟩ | ⟨hne, -⟩ := place_none hplace htodo
          · exact hrest
          · exact absurd rfl hne
        refine ⟨.publish report, { a with state := some report }, rfl, ?_⟩
        unfold firstRunNext processEvent
        rw [hp]
        dsimp only
        rw [hphase, htodo, hstate, hrest]
        rfl
    | returned result =>
      obtain ⟨a', ha'⟩ := exists_stage (c := c) hp htodo (.saveComplete s) rfl
        (by simp [stageEvent, hphase])
      exact ⟨_, a', rfl, ha'⟩
    | raised | violated =>
      rw [hphase] at hunfailed
      cases hunfailed

theorem Promising.idle_progress (h : Promising c a) (hp : a.process = none) (hnot : ¬ Finished a) :
    ∃ e a', HealthyStep c a e a' := by
  have hhealthy : ∀ e, e.healthy = true → (idleEvent c a e).isSome → ∃ e a', HealthyStep c a e a' := by
    intro e he hsome
    obtain ⟨a', ha'⟩ := Option.isSome_iff_exists.mp hsome
    refine ⟨e, a', he, ?_⟩
    unfold firstRunNext
    rw [hp]
    exact ha'
  cases hstate : a.state with
  | none =>
    cases hj : a.journal with
    | none => exact hhealthy (.opens true) rfl (by
      simp [idleEvent, hstate, hj, journalCompleted, openJournal, Except.toOption])
    | some j =>
      have hours := h.sound.ours j hj
      have hun := h.sound.unpublished hstate j hj
      by_cases hmanual : j.status = .manualRecoveryRequired
      · apply hhealthy .reconcile rfl
        simp [idleEvent, acknowledgeManualRecovery, hj, hmanual, hours.schema, hours.workflow, Except.toOption]
      · apply hhealthy (.opens true) rfl
        simp [idleEvent, hstate, hj, journalCompleted, openJournal, Journal.finished, hmanual,
          hours.schema, hours.workflow, hours.fingerprint, hours.status, hun.status, Except.toOption]
  | some report =>
    obtain ⟨j, hj⟩ := Option.isSome_iff_exists.mp (h.sound.written (by rw [hstate]; rfl))
    have hours := h.sound.ours j hj
    -- neither finished nor stuck
    have hcomplete : j.status ≠ .complete := by
      intro heq
      exact hnot ⟨hp, by rw [hstate]; rfl, j, hj, heq⟩
    have hstatus : j.status ∈ [Status.pending, .running, .resuming] := by
      by_contra hother
      apply h.notStuck
      refine ⟨by rw [hstate]; rfl, j, hj, ?_⟩
      have hcancelled := hours.status
      revert hother hcomplete hcancelled
      cases j.status <;> decide
    have hinterrupted : interruptedJournal (some j) = .ok (some j) := by
      unfold interruptedJournal
      dsimp only
      rw [if_neg hcomplete, if_neg (by simp [hours.schema, hours.workflow]), if_neg (not_not.mpr hstatus)]
    by_cases hfinal : j.stepComplete finalStage.name = true
    · apply hhealthy .finishComplete rfl
      simp [idleEvent, hstate, hj, hinterrupted, Except.toOption, hfinal]
    · apply hhealthy .finishRecord rfl
      simp [idleEvent, hstate, hj, hinterrupted, Except.toOption, hfinal]

/-! ## Runs -/

/-- The process is killed, and first runs are retried until both files are complete: whatever is
done while nothing fails, this is reached. -/
def CanFinish (c : Configuration) (a : Appliance V) : Prop :=
  Transition.Inevitable (HealthyStep c) Finished { a with process := none }

/-- A dead end that first runs have led to. -/
def DeadEnd (c : Configuration) (a : Appliance V) : Prop := Sound c a ∧ Stuck a

theorem DeadEnd.next (h : DeadEnd c a) (hnext : firstRunNext c a e = some a') : DeadEnd c a' :=
  ⟨h.1.step (firstRunStep_of_next hnext), h.2.step h.1 (firstRunStep_of_next hnext)⟩

theorem Sound.canFinish_iff [Nonempty V] (hs : Sound c a) : CanFinish c a ↔ ¬ Stuck a := by
  have hkilled : Sound c { a with process := none } := ⟨hs.ours, hs.unpublished, hs.written, nofun⟩
  constructor
  · intro hfinish hstuck
    refine Transition.not_inevitable_of_trap (DeadEnd c) (fun a e a' h he => h.next he.2) ?_
      ⟨hkilled, hstuck⟩ hfinish
    · rintro a ⟨-, hstuck⟩ ⟨-, -, j, hj, hcomplete⟩
      refine not_stuck_of_status hj ?_ hstuck
      rw [hcomplete]
      decide
  · intro hnot
    refine Transition.inevitable_of_rank (Promising c) (Appliance.left c) ?_ (fun a e a' h he => h.step he)
      ⟨hkilled, hnot, nofun⟩
    intro a h hunfinished
    cases hp : a.process with
    | none => exact h.idle_progress hp hunfinished
    | some p => exact h.process_progress hp

/-- A run ends in a dead end when one of its steps records a failure behind the publication. -/
theorem stuck_runs_iff (hs : Sound c n) (hnot : ¬ Stuck n) (h : firstRuns c n events = some a) :
    Stuck a ↔ ∃ front e rest a₁, events = front ++ e :: rest ∧ firstRuns c n front = some a₁ ∧
      RecordsFailure a₁ e := by
  induction events generalizing n with
  | nil =>
    obtain rfl : n = a := Option.some.inj h
    refine iff_of_false hnot ?_
    rintro ⟨front, e, rest, a₁, heq, -⟩
    cases front <;> cases heq
  | cons e events ih =>
    obtain ⟨n₁, n₂, hn₁, he, hrest⟩ := Transition.foldlM_split [] n h
    obtain rfl : n = n₁ := Option.some.inj hn₁
    have hstep := firstRunStep_of_next he
    have hs' := hs.step hstep
    by_cases hstuck : Stuck n₂
    · -- the first event has recorded a failure
      refine iff_of_true ?_ ⟨[], e, events, n, rfl, rfl, (stuck_step_iff hs hstep hnot).mp hstuck⟩
      have hend : DeadEnd c a :=
        (Transition.run_of_foldlM hrest).invariant ⟨hs', hstuck⟩ fun a e a' h => h.next
      exact hend.2
    · rw [ih hs' hstuck hrest]
      constructor
      · rintro ⟨front, e', rest, a₁, rfl, hfront, hrecords⟩
        refine ⟨e :: front, e', rest, a₁, rfl, ?_, hrecords⟩
        show firstRuns c n (e :: front) = some a₁
        unfold firstRuns
        rw [List.foldlM_cons, he]
        exact hfront
      · rintro ⟨front, e', rest, a₁, heq, hfront, hrecords⟩
        cases front with
        | nil =>
          obtain ⟨rfl, rfl⟩ := List.cons.inj heq
          obtain rfl : n = a₁ := Option.some.inj hfront
          exact absurd ((stuck_step_iff hs hstep hnot).mpr hrecords) hstuck
        | cons e₀ front =>
          obtain ⟨rfl, rfl⟩ := List.cons.inj heq
          refine ⟨front, e', rest, a₁, rfl, ?_, hrecords⟩
          unfold firstRuns at hfront
          rw [List.foldlM_cons, he] at hfront
          exact hfront

theorem Sound.state_of_execute (hs : Sound c a) (h : FirstRunStep c a (.stage (.execute s)) a') :
    a.state = none := by
  cases h with
  | stage p hp s' rest htodo event hallows m hstep =>
    cases hstep with
    | execute hphase =>
      have hplace := (hs.underway p hp).place
      cases hstate : a.state with
      | none => rfl
      | some report =>
        rw [hstate] at hplace
        obtain ⟨-, -, hpublishes⟩ := place_some hplace htodo
        rw [hphase] at hpublishes
        exact hpublishes.elim

theorem sound_firstRuns (h : firstRuns c Appliance.start events = some a) : Sound c a :=
  (Transition.run_of_foldlM h).invariant Sound.start fun _ _ _ hs hnext =>
    hs.step (firstRunStep_of_next hnext)

/-- In every sequence of first runs, kills and acknowledgements, no action is executed once the state
file is complete; and retries finish the setup exactly when no failure was recorded behind the
publication of the report. -/
theorem firstRuns_finish_iff [Nonempty V] {events : List (FirstRunEvent V)}
    (h : firstRuns c Appliance.start events = some a) :
    (∀ front rest s, events = front ++ .stage (.execute s) :: rest →
        ∃ a₁, firstRuns c Appliance.start front = some a₁ ∧ a₁.state = none) ∧
      (CanFinish c a ↔ ∀ front e rest a₁, events = front ++ e :: rest →
        firstRuns c Appliance.start front = some a₁ → ¬ RecordsFailure a₁ e) := by
  constructor
  · rintro front rest s rfl
    obtain ⟨a₁, a₂, hfront, he, -⟩ := Transition.foldlM_split front _ h
    exact ⟨a₁, hfront, (sound_firstRuns hfront).state_of_execute (firstRunStep_of_next he)⟩
  · rw [(sound_firstRuns h).canFinish_iff, stuck_runs_iff Sound.start (not_stuck_of_none rfl) h]
    constructor
    · intro hnot front e rest a₁ heq hfront hrecords
      exact hnot ⟨front, e, rest, a₁, heq, hfront, hrecords⟩
    · rintro hall ⟨front, e, rest, a₁, heq, hfront, hrecords⟩
      exact hall front e rest a₁ heq hfront hrecords

def demoConfiguration : Configuration := ⟨false, false, false, []⟩

def stageDone (s : Stage) : List (FirstRunEvent Unit) :=
  [.stage (.saveStart s), .stage (.execute s), .stage (.returns s none), .stage (.saveComplete s)]

/-- The last action raises behind the publication, and its failure is recorded. -/
def lateFailure : List (FirstRunEvent Unit) :=
  .opens false :: (workStages false false false).flatMap stageDone ++
    [.stage (.saveStart finalStage), .stage (.execute finalStage), .publish (),
      .stage (.raises finalStage), .stage (.saveFailed finalStage)]

/-- The stages before the regeneration of the identities, which asks for a recovery when it
fails. -/
def firstStages : List Stage := (workStages false false false).take 6

def regeneration : Stage := ⟨"identity-database-regeneration".toList, true, true⟩

/-- The regeneration raises, the failure is acknowledged, and the other stages are done by a retry
that is killed behind the publication of the report. -/
def killedRetry : List (FirstRunEvent Unit) :=
  .opens true :: firstStages.flatMap stageDone ++
    [.stage (.saveStart regeneration), .stage (.execute regeneration), .stage (.raises regeneration),
      .stage (.saveFailed regeneration), .reconcile, .opens false] ++
    firstStages.map (fun s ↦ .stage (.skip s)) ++
    ((workStages false false false).drop 6).flatMap stageDone ++
    [.stage (.saveStart finalStage), .stage (.execute finalStage), .publish (), .kill]

/-- No failure is recorded behind the publication, by the states that the events are met in. -/
def unfailing (c : Configuration) (a : Appliance V) : List (FirstRunEvent V) → Bool
  | [] => true
  | e :: events =>
    (a.state.isNone || match e with
      | .stage (.saveFailed _) | .mismatch => false
      | _ => true) &&
    (firstRunNext c a e).all (unfailing c · events)

theorem not_recordsFailure_of_unfailing {front rest : List (FirstRunEvent V)}
     (h : unfailing c n events = true)
    (hevents : events = front ++ e :: rest) (hfront : firstRuns c n front = some a) :
    ¬ RecordsFailure a e := by
  subst hevents
  induction front generalizing n with
  | nil =>
    obtain rfl : n = a := Option.some.inj hfront
    obtain ⟨he, -⟩ := Bool.and_eq_true_iff.mp h
    rintro ⟨hstate, ⟨s, rfl⟩ | rfl⟩
    all_goals
      rw [Bool.or_false, Option.isNone_iff_eq_none] at he
      rw [he] at hstate
      cases hstate
  | cons e' front ih =>
    obtain ⟨-, hrest⟩ := Bool.and_eq_true_iff.mp h
    unfold firstRuns at hfront
    rw [List.foldlM_cons] at hfront
    obtain ⟨n', hn', hfront⟩ := Option.bind_eq_some_iff.mp hfront
    exact ih hfront ((Option.all_eq_true _ _).mp hrest n' hn')

/-- The report stands and the journal does not say so, and a retry can finish it. -/
theorem firstRuns_finish_iff_killed :
    ∃ a, firstRuns demoConfiguration Appliance.start killedRetry = some a ∧ a.state.isSome ∧
      ¬ Finished a ∧ CanFinish demoConfiguration a := by
  have hend : (firstRuns demoConfiguration Appliance.start killedRetry).any
      (fun a ↦ a.state.isSome && a.journal.any (·.status = .running)) = true := by decide
  obtain ⟨a, ha, hkilled⟩ := (Option.any_eq_true _ _).mp hend
  rw [Bool.and_eq_true, Option.any_eq_true] at hkilled
  obtain ⟨hstate, j, hj, hstatus⟩ := hkilled
  refine ⟨a, ha, hstate, ?_, (firstRuns_finish_iff ha).2.mpr fun front e rest a₁ => ?_⟩
  · rintro ⟨-, -, k, hk, hcomplete⟩
    obtain rfl := Option.some.inj (hj.symm.trans hk)
    rw [hcomplete] at hstatus
    cases of_decide_eq_true hstatus
  · exact not_recordsFailure_of_unfailing (by decide)

/-- A publication that raises when the report is visible already leaves a dead end: the journal has
failed, which neither a retry nor an acknowledgement accepts. -/
theorem not_canFinish_lateFailure :
    ∃ a, firstRuns demoConfiguration Appliance.start lateFailure = some a ∧ a.state.isSome ∧
      ¬ CanFinish demoConfiguration a := by
  have hend : (firstRuns demoConfiguration Appliance.start lateFailure).any
      (fun a ↦ a.state.isSome && a.journal.any (·.status = .failed)) = true := by decide
  obtain ⟨a, ha, hfailed⟩ := (Option.any_eq_true _ _).mp hend
  rw [Bool.and_eq_true, Option.any_eq_true] at hfailed
  obtain ⟨hstate, j, hj, hstatus⟩ := hfailed
  refine ⟨a, ha, hstate, ?_⟩
  rw [(sound_firstRuns ha).canFinish_iff, not_not]
  refine ⟨hstate, j, hj, ?_⟩
  rw [of_decide_eq_true hstatus]
  exact List.mem_cons_self

end NixNas.Setup
