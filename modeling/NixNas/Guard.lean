import NixNas.Lib.Transition

/-!
# The rollback guard (`services/nas_guarded_apply.py`)

One unit name is fixed.  Every locked section is a function from the durable record and the answers
of systemd to the record it leaves; the arms, the `fired` processes and the timers interleave in
`step`.  Of the record only the fields that a section reads are kept, and its `detail`.
-/

open Transition

namespace NixNas.Guard

inductive GuardState where
  | armed | claimed | completed | failed | cancelled | collected
  deriving DecidableEq, Repr

structure Record where
  state : GuardState
  rollbackCommand : List String
  timeoutSeconds : Option Int
  exitCode : Option Int
  priorState : Option GuardState
  priorExitCode : Option Int
  detail : Option String
  deriving DecidableEq, Repr

/-- The fields of `_describe_service` that a section looks at. -/
structure Live where
  isActive : Bool
  isFailed : Bool
  activeState : String
  deriving DecidableEq, Repr

def Live.started (live : Live) : Bool :=
  live.isActive || live.activeState == "active" || live.activeState == "activating"

def Live.hasFailed (live : Live) : Bool := live.isFailed || live.activeState == "failed"

inductive GuardError where
  | badTimeout
  | emptyCommand
  | alreadyActive (state : GuardState)
  | unresolvedOutcome (state : GuardState)
  | serviceActive
  | serviceFailed
  | timerArmed
  | unableToArm
  | noState
  | terminal (state : GuardState)
  | serviceStarted
  | rollbackFailed
  | unableToCancel
  | collectActive (state : GuardState)
  | alreadyCollected
  deriving DecidableEq, Repr

/-- What a locked section hands back, the record it leaves, and whether it stopped the timer. -/
structure Section (α : Type) where
  result : Except GuardError α
  record : Option Record
  stopIssued : Bool

def Section.raise {α : Type} (e : GuardError) (record : Option Record)
    (stopIssued : Bool := false) : Section α :=
  ⟨.error e, record, stopIssued⟩

/-- The part of `arm` before its lock. -/
def armCheck (command : List String) (timeoutSeconds : Int) : Except GuardError Unit :=
  if timeoutSeconds ≤ 0 then .error .badTimeout
  else if command.headD "" = "" then .error .emptyCommand
  else .ok ()

/-- What `arm` refuses to overwrite. -/
def armPrior : Option Record → Except GuardError Unit
  | none => .ok ()
  | some prior =>
    match prior.state with
    | .armed | .claimed => .error (.alreadyActive prior.state)
    | .completed | .failed => .error (.unresolvedOutcome prior.state)
    | .cancelled | .collected => .ok ()

/-- The locked section of `arm`. -/
def armSection (prior : Option Record) (command : List String) (timeoutSeconds : Int)
    (live timerLive : Live) : Section Unit :=
  match armPrior prior with
  | .error e => .raise e prior
  | .ok () =>
    if live.started then .raise .serviceActive prior true
    else if live.hasFailed then .raise .serviceFailed prior true
    else if timerLive.activeState = "active" then .raise .timerArmed prior true
    else ⟨.ok (), some ⟨.armed, command, some timeoutSeconds, none, none, none, none⟩, true⟩

/-- The section of `arm` after a `systemd-run` that returned non-zero. -/
def armCleanup (current : Option Record) (command : List String) (unlinked : Bool) :
    Option Record :=
  match current with
  | none => none
  | some record =>
    if record.state = .armed ∧ record.rollbackCommand = command ∧ unlinked then none
    else some record

/-- `cancel`. -/
def cancelSection (current : Option Record) (live : Live) (stopped : Bool)
    (timerLive after : Live) : Section Unit :=
  match current with
  | none => .raise .noState none
  | some record =>
    let observedFailed :=
      { record with state := .failed, detail := some "cancel observed failed rollback service" }
    if record.state ≠ .armed then .raise (.terminal record.state) current
    else if live.started then .raise .serviceStarted current
    else if live.hasFailed then .raise .rollbackFailed (some observedFailed)
    else if !stopped && timerLive.activeState == "active" then .raise .unableToCancel current true
    else if after.started then .raise .serviceStarted current true
    else if after.hasFailed then .raise .rollbackFailed (some observedFailed) true
    else ⟨.ok (), some { record with state := .cancelled }, true⟩

/-- The claim section of `fired`: whether the rollback is to run. -/
def claimSection (current : Option Record) (command : List String) : Section Bool :=
  match current with
  | none =>
    ⟨.ok true, some ⟨.claimed, command, none, none, none, none,
      some "timer fired without prior armed record"⟩, false⟩
  | some record =>
    match record.state with
    | .cancelled | .completed | .failed | .collected => ⟨.ok false, current, false⟩
    | .claimed => .raise (.terminal .claimed) current
    | .armed => ⟨.ok true, some { record with state := .claimed }, false⟩

/-- The terminal section of `fired`. -/
def terminalSection (current : Option Record) (command : List String) (exitCode : Int) :
    Option Record :=
  let record := current.getD ⟨.claimed, [], none, none, none, none, none⟩
  some { record with
    state := if exitCode = 0 then .completed else .failed
    rollbackCommand := command
    exitCode := some exitCode }

/-- `collect`. -/
def collectSection (current : Option Record) : Section Unit :=
  match current with
  | none => .raise .noState none
  | some record =>
    match record.state with
    | .armed | .claimed => .raise (.collectActive record.state) current
    | .collected => .raise .alreadyCollected current
    | .completed | .failed | .cancelled =>
      ⟨.ok (), some { record with
        priorState := some record.state
        priorExitCode := record.exitCode
        state := .collected }, true⟩

/-! ## Interleavings -/

abbrev ArmId := Nat

abbrev ProcId := Nat

inductive ArmPhase where
  /-- The record is written and `systemd-run` has not answered. -/
  | recorded
  /-- `systemd-run` created the timer and the call returned success. -/
  | launched
  /-- `systemd-run` returned non-zero and the cleanup section is still to come. -/
  | failing
  /-- The call raised. -/
  | raised
  deriving DecidableEq, Repr

structure Arm where
  command : List String
  phase : ArmPhase
  deriving DecidableEq, Repr

inductive ProcPhase where
  | started
  | claimed
  | ran (exitCode : Int)
  | exited
  deriving DecidableEq, Repr

/-- A `fired` process, started for the arm whose rollback command it got. -/
structure Proc where
  arm : ArmId
  phase : ProcPhase
  deriving DecidableEq, Repr

structure State where
  record : Option Record
  arms : List Arm
  procs : List Proc
  /-- The arms whose timer may still start `fired`. -/
  timers : List ArmId
  /-- The arm whose section wrote the latest armed record. -/
  lastArm : Option ArmId
  /-- The process whose claim section wrote the latest claimed record. -/
  claimedBy : Option ProcId
  /-- The arms whose rollback command was executed, one entry an execution. -/
  executed : List ArmId
  /-- The arms for which a cancel returned success. -/
  cancelled : List ArmId
  deriving DecidableEq, Repr

def initial : State := ⟨none, [], [], [], none, none, [], []⟩

inductive Action where
  | arm (command : List String) (timeoutSeconds : Int) (stopped : Bool) (live timerLive : Live)
  | launched (a : ArmId)
  | launchFailed (a : ArmId)
  | launchRaised (a : ArmId)
  | cleanup (a : ArmId) (unlinked : Bool)
  | cancel (live : Live) (stopped : Bool) (timerLive after : Live)
  | timerStart (a : ArmId)
  | handlerStart (a : ArmId)
  | claim (p : ProcId)
  | rollback (p : ProcId) (exitCode : Int)
  | terminal (p : ProcId)
  | exit (p : ProcId)
  | collect (stopped : Bool)
  deriving DecidableEq, Repr

/-- A `fired` process that has started and not exited is reported as active. -/
def State.reports (s : State) (live : Live) : Bool :=
  s.procs.all (·.phase = .exited) || live.isActive

/-- After a successful stop the timer starts nothing any more. -/
def State.afterSection {α : Type} (s : State) (sec : Section α) (stopped : Bool) : State :=
  { s with record := sec.record, timers := if sec.stopIssued && stopped then [] else s.timers }

def State.setArm (s : State) (a : ArmId) (arm : Arm) (phase : ArmPhase) : State :=
  { s with arms := s.arms.set a { arm with phase } }

def State.setProc (s : State) (p : ProcId) (proc : Proc) (phase : ProcPhase) : State :=
  { s with procs := s.procs.set p { proc with phase } }

def stepArm (s : State) (command : List String) (timeoutSeconds : Int) (stopped : Bool)
    (live timerLive : Live) : Option State :=
  if s.reports live then
    match armCheck command timeoutSeconds with
    | .error _ => some s
    | .ok () =>
      let sec := armSection s.record command timeoutSeconds live timerLive
      let s' := s.afterSection sec stopped
      match sec.result with
      | .error _ => some s'
      | .ok () => some { s' with
          arms := s.arms ++ [⟨command, .recorded⟩]
          lastArm := some s.arms.length }
  else none

def stepCancel (s : State) (live : Live) (stopped : Bool) (timerLive after : Live) :
    Option State :=
  if s.reports live && s.reports after then
    let sec := cancelSection s.record live stopped timerLive after
    let s' := s.afterSection sec stopped
    match sec.result with
    | .error _ => some s'
    | .ok () => some { s' with cancelled := s.lastArm.toList ++ s.cancelled }
  else none

/-- A `fired` process of the launched arm `a`. -/
def stepStart (s : State) (a : ArmId) : Option State :=
  match s.arms[a]? with
  | some ⟨_, .launched⟩ => some { s with procs := s.procs ++ [⟨a, .started⟩] }
  | _ => none

/-- The command a `fired` process was given. -/
def State.command (s : State) (proc : Proc) : List String :=
  (s.arms[proc.arm]?.map Arm.command).getD []

def stepClaim (s : State) (p : ProcId) : Option State :=
  match s.procs[p]? with
  | some ⟨a, .started⟩ =>
    let proc : Proc := ⟨a, .started⟩
    let sec := claimSection s.record (s.command proc)
    let s' := s.afterSection sec false
    match sec.result with
    | .ok true => some { s'.setProc p proc .claimed with claimedBy := some p }
    | _ => some (s'.setProc p proc .exited)
  | _ => none

def stepRollback (s : State) (p : ProcId) (exitCode : Int) : Option State :=
  match s.procs[p]? with
  | some ⟨a, .claimed⟩ =>
    some { s.setProc p ⟨a, .claimed⟩ (.ran exitCode) with executed := a :: s.executed }
  | _ => none

def stepTerminal (s : State) (p : ProcId) : Option State :=
  match s.procs[p]? with
  | some ⟨a, .ran exitCode⟩ =>
    let proc : Proc := ⟨a, .ran exitCode⟩
    some { s.setProc p proc .exited with
      record := terminalSection s.record (s.command proc) exitCode }
  | _ => none

/-- One step of the unit: a locked section, an answer of `systemd-run`, a start, the unlocked
rollback, or the end of a `fired` process wherever it is.  `none` where the action cannot happen. -/
def step (s : State) : Action → Option State
  | .arm command timeoutSeconds stopped live timerLive =>
    stepArm s command timeoutSeconds stopped live timerLive
  | .launched a =>
    match s.arms[a]? with
    | some ⟨command, .recorded⟩ =>
      some { s.setArm a ⟨command, .recorded⟩ .launched with timers := a :: s.timers }
    | _ => none
  | .launchFailed a =>
    match s.arms[a]? with
    | some ⟨command, .recorded⟩ => some (s.setArm a ⟨command, .recorded⟩ .failing)
    | _ => none
  | .launchRaised a =>
    match s.arms[a]? with
    | some ⟨command, .recorded⟩ => some (s.setArm a ⟨command, .recorded⟩ .raised)
    | _ => none
  | .cleanup a unlinked =>
    match s.arms[a]? with
    | some ⟨command, .failing⟩ =>
      some { s.setArm a ⟨command, .failing⟩ .raised with
        record := armCleanup s.record command unlinked }
    | _ => none
  | .cancel live stopped timerLive after => stepCancel s live stopped timerLive after
  | .timerStart a => if a ∈ s.timers then stepStart s a else none
  | .handlerStart a => stepStart s a
  | .claim p => stepClaim s p
  | .rollback p exitCode => stepRollback s p exitCode
  | .terminal p => stepTerminal s p
  | .exit p =>
    match s.procs[p]? with
    | some proc => some (s.setProc p proc .exited)
    | none => none
  | .collect stopped => some (s.afterSection (collectSection s.record) stopped)

def Step (s : State) (act : Action) (s' : State) : Prop := step s act = some s'

/-! ## What the sections do to the record -/

/-- The state of the record, `none` while there is no record. -/
def stateOf (record : Option Record) : Option GuardState := record.map (·.state)

/-- No outcome is decided yet: no record, or an armed one. -/
def Pending (record : Option Record) : Prop :=
  stateOf record = none ∨ stateOf record = some .armed

variable {prior current : Option Record} {command : List String} {timeoutSeconds : Int}
  {live timerLive after : Live} {e : GuardError} {stopped : Bool} {s s' : State} {a : ArmId}
  {act : Action} {p : ProcId} {proc : Proc}

theorem armSection_error
    (h : (armSection prior command timeoutSeconds live timerLive).result = .error e) :
    (armSection prior command timeoutSeconds live timerLive).record = prior := by
  unfold armSection at h ⊢
  cases hprior : armPrior prior with
  | error e => rfl
  | ok u =>
    cases u
    rw [hprior] at h
    dsimp only at h ⊢
    repeat' split
    all_goals first | rfl | skip
    rename_i hstarted hfailed hactive
    rw [if_neg hstarted, if_neg hfailed, if_neg hactive] at h
    cases h

theorem armSection_ok
    (h : (armSection prior command timeoutSeconds live timerLive).result = .ok ()) :
    stateOf prior ≠ some .claimed ∧
      stateOf (armSection prior command timeoutSeconds live timerLive).record = some .armed := by
  unfold armSection at h ⊢
  cases hprior : armPrior prior with
  | error e =>
    rw [hprior] at h
    cases h
  | ok u =>
    cases u
    rw [hprior] at h
    dsimp only at h ⊢
    refine ⟨?_, ?_⟩
    · rintro hclaimed
      cases prior with
      | none => cases hclaimed
      | some record =>
        simp only [stateOf, Option.map_some, Option.some.injEq] at hclaimed
        simp [armPrior, hclaimed] at hprior
    · repeat' split at h
      all_goals first | cases h; done | skip
      rename_i hstarted hfailed hactive
      rw [if_neg hstarted, if_neg hfailed, if_neg hactive]
      rfl

theorem armCleanup_cases (current : Option Record) (command : List String) (unlinked : Bool) :
    armCleanup current command unlinked = current ∨
      stateOf current = some .armed ∧ armCleanup current command unlinked = none := by
  cases current with
  | none => exact .inl rfl
  | some record =>
    unfold armCleanup
    by_cases h : record.state = .armed ∧ record.rollbackCommand = command ∧ unlinked
    · exact .inr ⟨congrArg some h.1, if_pos h⟩
    · exact .inl (if_neg h)

theorem cancelSection_error
    (h : (cancelSection current live stopped timerLive after).result = .error e) :
    (cancelSection current live stopped timerLive after).record = current ∨
      stateOf current = some .armed ∧
        stateOf (cancelSection current live stopped timerLive after).record = some .failed := by
  cases current with
  | none => exact .inl rfl
  | some record =>
    unfold cancelSection at h ⊢
    dsimp only at h ⊢
    by_cases harmed : record.state = .armed
    · simp only [harmed, ne_eq, not_true_eq_false, if_false] at h ⊢
      repeat' split
      all_goals first | exact .inl rfl | exact .inr ⟨congrArg some harmed, rfl⟩ | skip
      rename_i h₁ h₂ h₃ h₄ h₅
      simp [h₁, h₂, h₃, h₄, h₅] at h
    · rw [if_pos harmed]
      exact .inl rfl

theorem cancelSection_ok
    (h : (cancelSection current live stopped timerLive after).result = .ok ()) :
    stateOf current = some .armed ∧
      stateOf (cancelSection current live stopped timerLive after).record = some .cancelled := by
  cases current with
  | none => cases h
  | some record =>
    unfold cancelSection at h ⊢
    dsimp only at h ⊢
    by_cases harmed : record.state = .armed
    · simp only [harmed, ne_eq, not_true_eq_false, if_false] at h ⊢
      refine ⟨congrArg some harmed, ?_⟩
      repeat' split at h
      all_goals first | cases h; done | skip
      rename_i h₁ h₂ h₃ h₄ h₅
      simp [h₁, h₂, h₃, h₄, h₅, stateOf]
    · rw [if_pos harmed] at h
      cases h

theorem claimSection_cases (current : Option Record) (command : List String) :
    (claimSection current command).result = .ok true ∧ Pending current ∧
        stateOf (claimSection current command).record = some .claimed ∨
      (claimSection current command).result ≠ .ok true ∧
        (claimSection current command).record = current := by
  cases current with
  | none => exact .inl ⟨rfl, .inl rfl, rfl⟩
  | some record =>
    unfold claimSection
    cases hstate : record.state with
    | armed =>
      exact .inl ⟨by simp [hstate], .inr (congrArg some hstate), by simp [hstate, stateOf]⟩
    | claimed | completed | failed | cancelled | collected =>
      exact .inr ⟨by simp [Section.raise, hstate], by simp [Section.raise, hstate]⟩

theorem stateOf_terminalSection (current : Option Record) (command : List String)
    (exitCode : Int) :
    stateOf (terminalSection current command exitCode) =
      some (if exitCode = 0 then .completed else .failed) := rfl

theorem collectSection_cases (current : Option Record) :
    (collectSection current).record = current ∨
      stateOf current ≠ some .claimed ∧
        stateOf (collectSection current).record = some .collected := by
  cases current with
  | none => exact .inl rfl
  | some record =>
    unfold collectSection
    cases hstate : record.state with
    | armed | claimed | collected => exact .inl (by simp [Section.raise, hstate])
    | completed | failed | cancelled =>
      exact .inr ⟨by simp [stateOf, hstate], by simp [stateOf, hstate]⟩

/-! ## What a step does -/

/-- A process that has the guard: between its claim section and its terminal section. -/
def ProcPhase.holding : ProcPhase → Bool
  | .claimed | .ran _ => true
  | .started | .exited => false

/-- No process of `procs'` has the guard that did not have it, in the same phase, in `procs`. -/
def NoNewHolder (procs procs' : List Proc) : Prop :=
  ∀ (p : ProcId) (proc : Proc), procs'[p]? = some proc → proc.phase.holding = true → procs[p]? = some proc

theorem NoNewHolder.rfl (procs : List Proc) : NoNewHolder procs procs := fun _ _ h _ => h

theorem noNewHolder_append (procs : List Proc) (a : ArmId) :
    NoNewHolder procs (procs ++ [⟨a, .started⟩]) := by
  intro p proc hproc hholding
  rw [List.getElem?_append] at hproc
  by_cases hp : p < procs.length
  · rwa [if_pos hp] at hproc
  · rw [if_neg hp] at hproc
    obtain rfl : proc = ⟨a, .started⟩ := by
      have := List.mem_of_getElem? hproc
      simpa using this
    cases hholding

theorem noNewHolder_set (procs : List Proc) (p : ProcId) (a : ArmId) :
    NoNewHolder procs (procs.set p ⟨a, .exited⟩) := by
  intro q proc hproc hholding
  rw [List.getElem?_set] at hproc
  by_cases hq : p = q
  · rw [if_pos hq] at hproc
    split at hproc
    · cases hproc
      cases hholding
    · cases hproc
  · rwa [if_neg hq] at hproc

/-- The ghost history and the claimant stay as they are. -/
structure SameGhost (s s' : State) : Prop where
  lastArm : s'.lastArm = s.lastArm
  arms : s'.arms.length = s.arms.length
  claimedBy : s'.claimedBy = s.claimedBy
  executed : s'.executed = s.executed
  cancelled : s'.cancelled = s.cancelled

/-- What one step does, as far as the outcome of the guard is concerned. -/
inductive Effect (s : State) (act : Action) (s' : State) : Prop where
  | keep (hrecord : s'.record = s.record) (hprocs : NoNewHolder s.procs s'.procs)
      (hghost : SameGhost s s')
  | settle (hfrom : stateOf s.record ≠ some .claimed)
      (hto : stateOf s.record = some .armed ∧ stateOf s'.record = none ∨
        stateOf s'.record = some .failed ∨ stateOf s'.record = some .collected)
      (hprocs : s'.procs = s.procs) (hghost : SameGhost s s')
  | armed (hfrom : stateOf s.record ≠ some .claimed) (hto : stateOf s'.record = some .armed)
      (hprocs : s'.procs = s.procs) (hlast : s'.lastArm = some s.arms.length)
      (harms : s'.arms.length = s.arms.length + 1) (hexecuted : s'.executed = s.executed)
      (hcancelled : s'.cancelled = s.cancelled)
  | cancelled (hfrom : stateOf s.record = some .armed) (hto : stateOf s'.record = some .cancelled)
      (hprocs : s'.procs = s.procs) (hlast : s'.lastArm = s.lastArm)
      (harms : s'.arms.length = s.arms.length) (hexecuted : s'.executed = s.executed)
      (hcancelled : s'.cancelled = s.lastArm.toList ++ s.cancelled)
  | claimed (p : ProcId) (a : ArmId) (hact : act = .claim p)
      (hproc : s.procs[p]? = some ⟨a, .started⟩) (hfrom : Pending s.record)
      (hto : stateOf s'.record = some .claimed)
      (hprocs : s'.procs = s.procs.set p ⟨a, .claimed⟩) (hby : s'.claimedBy = some p)
      (hlast : s'.lastArm = s.lastArm) (harms : s'.arms.length = s.arms.length)
      (hexecuted : s'.executed = s.executed) (hcancelled : s'.cancelled = s.cancelled)
  | ran (p : ProcId) (a : ArmId) (exitCode : Int) (hproc : s.procs[p]? = some ⟨a, .claimed⟩)
      (hrecord : s'.record = s.record) (hprocs : s'.procs = s.procs.set p ⟨a, .ran exitCode⟩)
      (hby : s'.claimedBy = s.claimedBy) (hlast : s'.lastArm = s.lastArm)
      (harms : s'.arms.length = s.arms.length) (hexecuted : s'.executed = a :: s.executed)
      (hcancelled : s'.cancelled = s.cancelled)
  | ended (p : ProcId) (a : ArmId) (exitCode : Int) (hact : act = .terminal p)
      (hproc : s.procs[p]? = some ⟨a, .ran exitCode⟩)
      (hto : stateOf s'.record = some (if exitCode = 0 then .completed else .failed))
      (hprocs : s'.procs = s.procs.set p ⟨a, .exited⟩) (hghost : SameGhost s s')

theorem effect_stepArm (h : stepArm s command timeoutSeconds stopped live timerLive = some s') :
    Effect s (.arm command timeoutSeconds stopped live timerLive) s' := by
  unfold stepArm at h
  split at h
  · split at h
    · cases h
      exact .keep rfl (.rfl _) ⟨rfl, rfl, rfl, rfl, rfl⟩
    · dsimp only at h
      split at h
      · rename_i hresult
        cases h
        exact .keep (armSection_error hresult) (.rfl _) ⟨rfl, rfl, rfl, rfl, rfl⟩
      · rename_i hresult
        cases h
        obtain ⟨hfrom, hto⟩ := armSection_ok hresult
        exact .armed hfrom hto rfl rfl (by simp) rfl rfl
  · cases h

theorem effect_stepCancel (h : stepCancel s live stopped timerLive after = some s') :
    Effect s (.cancel live stopped timerLive after) s' := by
  unfold stepCancel at h
  split at h
  · dsimp only at h
    split at h
    · rename_i hresult
      cases h
      obtain hsame | ⟨harmed, hfailed⟩ := cancelSection_error hresult
      · exact .keep hsame (.rfl _) ⟨rfl, rfl, rfl, rfl, rfl⟩
      · exact .settle (by simp [harmed]) (.inr (.inl hfailed)) rfl ⟨rfl, rfl, rfl, rfl, rfl⟩
    · rename_i hresult
      cases h
      obtain ⟨hfrom, hto⟩ := cancelSection_ok hresult
      exact .cancelled hfrom hto rfl rfl rfl rfl rfl
  · cases h

theorem effect_stepStart (h : stepStart s a = some s') : Effect s act s' := by
  unfold stepStart at h
  split at h
  · cases h
    exact .keep rfl (noNewHolder_append s.procs a) ⟨rfl, rfl, rfl, rfl, rfl⟩
  · cases h

theorem effect_stepClaim (h : stepClaim s p = some s') : Effect s (.claim p) s' := by
  unfold stepClaim at h
  split at h
  · rename_i a hproc
    dsimp only at h
    obtain ⟨hok, hfrom, hto⟩ | ⟨hnot, hsame⟩ :=
      claimSection_cases s.record (s.command ⟨a, .started⟩)
    · rw [hok] at h
      cases h
      exact .claimed p a rfl hproc hfrom hto rfl rfl rfl rfl rfl rfl
    · split at h
      · rename_i hresult
        exact absurd hresult hnot
      · cases h
        exact .keep hsame (noNewHolder_set s.procs p a) ⟨rfl, rfl, rfl, rfl, rfl⟩
  · cases h

theorem effect_setArm {arm : Arm} {phase : ArmPhase} (timers : List ArmId) (record : Option Record)
    (hrecord : record = s.record ∨ stateOf s.record = some .armed ∧ record = none) :
    Effect s act { s.setArm a arm phase with timers, record } := by
  obtain rfl | ⟨harmed, rfl⟩ := hrecord
  · exact .keep rfl (.rfl _) ⟨rfl, List.length_set, rfl, rfl, rfl⟩
  · exact .settle (by simp [harmed]) (.inl ⟨harmed, rfl⟩) rfl ⟨rfl, List.length_set, rfl, rfl, rfl⟩

theorem effect_of_step (hstep : Step s act s') : Effect s act s' := by
  unfold Step at hstep
  cases act with
  | arm command timeoutSeconds stopped live timerLive => exact effect_stepArm hstep
  | cancel live stopped timerLive after => exact effect_stepCancel hstep
  | claim p => exact effect_stepClaim hstep
  | handlerStart a => exact effect_stepStart hstep
  | timerStart a =>
    dsimp only [step] at hstep
    split at hstep
    · exact effect_stepStart hstep
    · cases hstep
  | launched a | launchFailed a | launchRaised a =>
    dsimp only [step] at hstep
    split at hstep
    · cases hstep
      exact effect_setArm _ _ (.inl rfl)
    · cases hstep
  | cleanup a unlinked =>
    dsimp only [step] at hstep
    split at hstep
    · cases hstep
      exact effect_setArm _ _ (armCleanup_cases s.record _ unlinked)
    · cases hstep
  | rollback p exitCode =>
    dsimp only [step] at hstep
    unfold stepRollback at hstep
    split at hstep
    · rename_i a hproc
      cases hstep
      exact .ran p a exitCode hproc rfl rfl rfl rfl rfl rfl rfl
    · cases hstep
  | terminal p =>
    dsimp only [step] at hstep
    unfold stepTerminal at hstep
    split at hstep
    · rename_i a exitCode hproc
      cases hstep
      exact .ended p a exitCode rfl hproc (stateOf_terminalSection _ _ _) rfl
        ⟨rfl, rfl, rfl, rfl, rfl⟩
    · cases hstep
  | exit p =>
    dsimp only [step] at hstep
    split at hstep
    · cases hstep
      exact .keep rfl (noNewHolder_set s.procs p _) ⟨rfl, rfl, rfl, rfl, rfl⟩
    · cases hstep
  | collect stopped =>
    cases hstep
    obtain hsame | ⟨hfrom, hto⟩ := collectSection_cases s.record
    · exact .keep hsame (.rfl _) ⟨rfl, rfl, rfl, rfl, rfl⟩
    · exact .settle hfrom (.inr (.inr hto)) rfl ⟨rfl, rfl, rfl, rfl, rfl⟩

/-! ## Who holds a claimed guard -/

/-- A process between its claim and its terminal section holds the claimed record alone. -/
def HeldByClaimant (s : State) : Prop :=
  ∀ p proc, s.procs[p]? = some proc → proc.phase.holding = true →
    s.claimedBy = some p ∧ stateOf s.record = some .claimed

theorem heldByClaimant_initial : HeldByClaimant initial := by
  intro p proc hproc
  simp [initial] at hproc

theorem HeldByClaimant.none_holding (h : HeldByClaimant s)
    (hrecord : stateOf s.record ≠ some .claimed)
    (hproc : s.procs[p]? = some proc) : ¬ proc.phase.holding = true :=
  fun hholding => hrecord (h p proc hproc hholding).2

theorem Pending.not_claimed {record : Option Record} (h : Pending record) :
    stateOf record ≠ some .claimed := by
  obtain h | h := h <;> simp [h]

theorem getElem?_setProc {procs : List Proc} {q : ProcId} {moved : Proc}
    (h : (procs.set p moved)[q]? = some proc) :
    p = q ∧ proc = moved ∨ p ≠ q ∧ procs[q]? = some proc := by
  rw [List.getElem?_set] at h
  by_cases hq : p = q
  · rw [if_pos hq] at h
    split at h
    · cases h
      exact .inl ⟨hq, rfl⟩
    · cases h
  · rw [if_neg hq] at h
    exact .inr ⟨hq, h⟩

theorem HeldByClaimant.effect (h : HeldByClaimant s)
    (heffect : Effect s act s') : HeldByClaimant s' := by
  intro q proc hproc hholding
  cases heffect with
  | keep hrecord hprocs hghost =>
    rw [hrecord, hghost.claimedBy]
    exact h q proc (hprocs q proc hproc hholding) hholding
  | settle hfrom _ hprocs _ => exact absurd hholding (h.none_holding hfrom (hprocs ▸ hproc))
  | armed hfrom _ hprocs => exact absurd hholding (h.none_holding hfrom (hprocs ▸ hproc))
  | cancelled hfrom _ hprocs =>
    exact absurd hholding (h.none_holding (by simp [hfrom]) (hprocs ▸ hproc))
  | claimed p a _ _ hfrom hto hprocs hby =>
    rw [hprocs] at hproc
    obtain ⟨rfl, rfl⟩ | ⟨-, hold⟩ := getElem?_setProc hproc
    · exact ⟨hby, hto⟩
    · exact absurd hholding (h.none_holding hfrom.not_claimed hold)
  | ran p a exitCode hran hrecord hprocs hby =>
    rw [hprocs] at hproc
    rw [hrecord, hby]
    obtain ⟨rfl, rfl⟩ | ⟨-, hold⟩ := getElem?_setProc hproc
    · exact h p _ hran rfl
    · exact h q proc hold hholding
  | ended p a exitCode _ hran _ hprocs hghost =>
    rw [hprocs] at hproc
    obtain ⟨rfl, rfl⟩ | ⟨hne, hold⟩ := getElem?_setProc hproc
    · cases hholding
    · have hp := (h p _ hran rfl).1
      rw [(h q proc hold hholding).1] at hp
      exact absurd (Option.some.inj hp).symm hne

theorem heldByClaimant_of_reachable (h : Reachable Step initial s) : HeldByClaimant s :=
  h.invariant heldByClaimant_initial fun _ _ _ hs hstep => hs.effect (effect_of_step hstep)

def ClaimedUntilTerminal (s : State) (act : Action) (s' : State) : Prop :=
  stateOf s.record = some .claimed →
    s'.record = s.record ∧ s'.claimedBy = s.claimedBy ∨
      ∃ p, s.claimedBy = some p ∧ act = .terminal p

theorem HeldByClaimant.claimedUntilTerminal (h : HeldByClaimant s)
    (heffect : Effect s act s') : ClaimedUntilTerminal s act s' := by
  intro hclaimed
  cases heffect with
  | keep hrecord _ hghost => exact .inl ⟨hrecord, hghost.claimedBy⟩
  | settle hfrom => exact absurd hclaimed hfrom
  | armed hfrom => exact absurd hclaimed hfrom
  | cancelled hfrom =>
    rw [hfrom] at hclaimed
    cases hclaimed
  | claimed _ _ _ _ hfrom => exact absurd hclaimed hfrom.not_claimed
  | ran _ _ _ _ hrecord _ hby => exact .inl ⟨hrecord, hby⟩
  | ended p a exitCode hact hran => exact .inr ⟨p, (h p _ hran rfl).1, hact⟩

/-! ## One outcome for each arm -/

/-- Every rollback command ran at most once, and never for a cancelled arm. -/
def OneOutcome (s : State) : Prop :=
  (∀ a, s.executed.count a ≤ 1) ∧ ∀ a ∈ s.cancelled, a ∉ s.executed

/-- A step whose claim section takes a pending guard only for the arm that armed it last. -/
def OwnStep (s : State) (act : Action) (s' : State) : Prop :=
  Step s act s' ∧ ∀ p proc, act = .claim p → s.procs[p]? = some proc → Pending s.record →
    s.lastArm = some proc.arm

/-- No outcome of `a` is on record. -/
def Undecided (s : State) (a : ArmId) : Prop := a ∉ s.executed ∧ a ∉ s.cancelled

/-- The arms that still can be decided are undecided. -/
structure Decided (s : State) : Prop where
  held : HeldByClaimant s
  oneOutcome : OneOutcome s
  known : ∀ a, a ∈ s.executed ∨ a ∈ s.cancelled → a < s.arms.length
  last : ∀ a, s.lastArm = some a → a < s.arms.length
  pending : Pending s.record → ∀ a, s.lastArm = some a → Undecided s a
  claimed : ∀ (p : ProcId) (a : ArmId), s.procs[p]? = some ⟨a, .claimed⟩ →
    Undecided s a ∧ a < s.arms.length

theorem decided_initial : Decided initial := by
  refine ⟨heldByClaimant_initial, ⟨?_, ?_⟩, ?_, ?_, ?_, ?_⟩ <;> simp [initial]

theorem Undecided.congr (h : Undecided s a)
    (hexecuted : s'.executed = s.executed) (hcancelled : s'.cancelled = s.cancelled) :
    Undecided s' a := by
  unfold Undecided
  rw [hexecuted, hcancelled]
  exact h

theorem OneOutcome.congr (h : OneOutcome s) (hexecuted : s'.executed = s.executed)
    (hcancelled : s'.cancelled = s.cancelled) : OneOutcome s' := by
  unfold OneOutcome
  rw [hexecuted, hcancelled]
  exact h

theorem OneOutcome.cancel (h : OneOutcome s) {last : Option ArmId}
    (hlast : ∀ a, last = some a → a ∉ s.executed) (hexecuted : s'.executed = s.executed)
    (hcancelled : s'.cancelled = last.toList ++ s.cancelled) : OneOutcome s' := by
  refine ⟨hexecuted ▸ h.1, ?_⟩
  intro a ha
  rw [hcancelled, List.mem_append] at ha
  rw [hexecuted]
  obtain ha | ha := ha
  · exact hlast a (Option.mem_toList.mp ha)
  · exact h.2 a ha

theorem OneOutcome.run (h : OneOutcome s) (ha : Undecided s a)
    (hexecuted : s'.executed = a :: s.executed) (hcancelled : s'.cancelled = s.cancelled) :
    OneOutcome s' := by
  refine ⟨?_, ?_⟩
  · intro b
    rw [hexecuted, List.count_cons]
    by_cases hab : a = b
    · subst hab
      simp [List.count_eq_zero.mpr ha.1]
    · simpa [hab] using h.1 b
  · intro b hb
    rw [hcancelled] at hb
    rw [hexecuted, List.mem_cons, not_or]
    refine ⟨?_, h.2 b hb⟩
    rintro rfl
    exact ha.2 hb

theorem Decided.none_claimed (h : Decided s) (hrecord : stateOf s.record ≠ some .claimed)
     : s.procs[p]? ≠ some ⟨a, .claimed⟩ :=
  fun hproc => h.held.none_holding hrecord hproc rfl

theorem Decided.keep (h : Decided s) (hheld : HeldByClaimant s')
    (hghost : SameGhost s s') (hpending : Pending s'.record → Pending s.record)
    (hprocs : NoNewHolder s.procs s'.procs) : Decided s' := by
  refine ⟨hheld, h.oneOutcome.congr hghost.executed hghost.cancelled, ?_, ?_, ?_,
    ?_⟩
  · rw [hghost.executed, hghost.cancelled, hghost.arms]
    exact h.known
  · rw [hghost.lastArm, hghost.arms]
    exact h.last
  · intro hrecord a ha
    rw [hghost.lastArm] at ha
    exact (h.pending (hpending hrecord) a ha).congr hghost.executed hghost.cancelled
  · intro p a hproc
    obtain ⟨hundecided, hlt⟩ := h.claimed p a (hprocs p _ hproc rfl)
    exact ⟨hundecided.congr hghost.executed hghost.cancelled, hghost.arms ▸ hlt⟩

theorem Decided.arm (h : Decided s) (hheld : HeldByClaimant s')
    (hfrom : stateOf s.record ≠ some .claimed) (hprocs : s'.procs = s.procs)
    (hlast : s'.lastArm = some s.arms.length) (harms : s'.arms.length = s.arms.length + 1)
    (hexecuted : s'.executed = s.executed) (hcancelled : s'.cancelled = s.cancelled) :
    Decided s' := by
  have hfresh : Undecided s s.arms.length :=
    ⟨fun ha => Nat.lt_irrefl _ (h.known _ (.inl ha)),
      fun ha => Nat.lt_irrefl _ (h.known _ (.inr ha))⟩
  refine ⟨hheld, h.oneOutcome.congr hexecuted hcancelled, ?_, ?_, ?_, ?_⟩
  · rw [hexecuted, hcancelled, harms]
    exact fun a ha => Nat.lt_succ_of_lt (h.known a ha)
  · rw [hlast, harms]
    intro a ha
    exact Option.some.inj ha ▸ Nat.lt_succ_self _
  · intro _ a ha
    rw [hlast] at ha
    exact Option.some.inj ha ▸ hfresh.congr hexecuted hcancelled
  · intro p a hproc
    exact absurd (hprocs ▸ hproc) (h.none_claimed hfrom)

theorem Decided.cancel (h : Decided s) (hheld : HeldByClaimant s')
    (hfrom : stateOf s.record = some .armed) (hto : stateOf s'.record = some .cancelled)
    (hprocs : s'.procs = s.procs) (hlast : s'.lastArm = s.lastArm)
    (harms : s'.arms.length = s.arms.length) (hexecuted : s'.executed = s.executed)
    (hcancelled : s'.cancelled = s.lastArm.toList ++ s.cancelled) : Decided s' := by
  have hlast_undecided := h.pending (.inr hfrom)
  refine ⟨hheld,
    h.oneOutcome.cancel (fun a ha => (hlast_undecided a ha).1) hexecuted hcancelled, ?_, ?_, ?_, ?_⟩
  · intro a ha
    rw [hexecuted, hcancelled, List.mem_append, Option.mem_toList] at ha
    rw [harms]
    obtain ha | ha | ha := ha
    · exact h.known a (.inl ha)
    · exact h.last a ha
    · exact h.known a (.inr ha)
  · rw [hlast, harms]
    exact h.last
  · intro hpending
    obtain hnone | harmed := hpending
    · rw [hto] at hnone
      cases hnone
    · rw [hto] at harmed
      cases harmed
  · intro p a hproc
    exact absurd (hprocs ▸ hproc) (h.none_claimed (by simp [hfrom]))

theorem Decided.claim (h : Decided s)
    (hheld : HeldByClaimant s') (hundecided : Undecided s a) (ha : a < s.arms.length)
    (hfrom : Pending s.record) (hto : stateOf s'.record = some .claimed)
    (hprocs : s'.procs = s.procs.set p ⟨a, .claimed⟩) (hlast : s'.lastArm = s.lastArm)
    (harms : s'.arms.length = s.arms.length) (hexecuted : s'.executed = s.executed)
    (hcancelled : s'.cancelled = s.cancelled) : Decided s' := by
  refine ⟨hheld, h.oneOutcome.congr hexecuted hcancelled, ?_, ?_, ?_, ?_⟩
  · rw [hexecuted, hcancelled, harms]
    exact h.known
  · rw [hlast, harms]
    exact h.last
  · intro hpending
    exact absurd hto hpending.not_claimed
  · intro q b hproc
    rw [hprocs] at hproc
    obtain ⟨rfl, hb⟩ | ⟨-, hold⟩ := getElem?_setProc hproc
    · cases hb
      exact ⟨hundecided.congr hexecuted hcancelled, harms ▸ ha⟩
    · exact absurd hold (h.none_claimed hfrom.not_claimed)

theorem Decided.run {exitCode : Int}
    (h : Decided s) (hheld : HeldByClaimant s') (hproc : s.procs[p]? = some ⟨a, .claimed⟩)
    (hrecord : s'.record = s.record) (hprocs : s'.procs = s.procs.set p ⟨a, .ran exitCode⟩)
    (hlast : s'.lastArm = s.lastArm) (harms : s'.arms.length = s.arms.length)
    (hexecuted : s'.executed = a :: s.executed) (hcancelled : s'.cancelled = s.cancelled) :
    Decided s' := by
  obtain ⟨hundecided, ha⟩ := h.claimed p a hproc
  obtain ⟨hby, hclaimed⟩ := h.held p _ hproc rfl
  refine ⟨hheld, h.oneOutcome.run hundecided hexecuted hcancelled, ?_, ?_, ?_, ?_⟩
  · intro b hb
    rw [hexecuted, hcancelled, List.mem_cons] at hb
    rw [harms]
    obtain (rfl | hb) | hb := hb
    · exact ha
    · exact h.known b (.inl hb)
    · exact h.known b (.inr hb)
  · rw [hlast, harms]
    exact h.last
  · intro hpending
    rw [hrecord] at hpending
    exact absurd hclaimed hpending.not_claimed
  · intro q b hq
    rw [hprocs] at hq
    obtain ⟨-, hb⟩ | ⟨hne, hold⟩ := getElem?_setProc hq
    · cases hb
    · -- a second claimed process would hold the record as well
      have hq' := (h.held q _ hold rfl).1
      rw [hby] at hq'
      exact absurd (Option.some.inj hq') hne

theorem Decided.step (h : Decided s) (hstep : OwnStep s act s') : Decided s' := by
  obtain ⟨hstep, hown⟩ := hstep
  have heffect := effect_of_step hstep
  have hheld := h.held.effect heffect
  cases heffect with
  | keep hrecord hprocs hghost => exact h.keep hheld hghost (fun hp => hrecord ▸ hp) hprocs
  | settle _ hto hprocs hghost =>
    refine h.keep hheld hghost ?_ (hprocs ▸ .rfl _)
    intro hpending
    obtain ⟨harmed, -⟩ | hfailed | hcollected := hto
    · exact .inr harmed
    · simp [Pending, hfailed] at hpending
    · simp [Pending, hcollected] at hpending
  | armed hfrom _ hprocs hlast harms hexecuted hcancelled =>
    exact h.arm hheld hfrom hprocs hlast harms hexecuted hcancelled
  | cancelled hfrom hto hprocs hlast harms hexecuted hcancelled =>
    exact h.cancel hheld hfrom hto hprocs hlast harms hexecuted hcancelled
  | claimed p a hact hproc hfrom hto hprocs _ hlast harms hexecuted hcancelled =>
    have ha : s.lastArm = some a := hown p _ hact hproc hfrom
    exact h.claim hheld (h.pending hfrom a ha) (h.last a ha) hfrom hto hprocs hlast harms
      hexecuted hcancelled
  | ran p a exitCode hproc hrecord hprocs _ hlast harms hexecuted hcancelled =>
    exact h.run hheld hproc hrecord hprocs hlast harms hexecuted hcancelled
  | ended p a exitCode _ _ hto hprocs hghost =>
    refine h.keep hheld hghost ?_ (hprocs ▸ noNewHolder_set s.procs p a)
    intro hpending
    by_cases hexit : exitCode = 0 <;> simp [Pending, hto, hexit] at hpending

theorem decided_of_reachable (h : Reachable OwnStep initial s) : Decided s :=
  h.invariant decided_initial fun _ _ _ hs => hs.step

/-- In every run a claimed record waits for the terminal section of its claimant; in every run
whose claim sections only take the guard of their own arm, every arm has at most one outcome. -/
theorem guard_outcomes (s : State) :
    (Reachable Step initial s → ∀ act s', Step s act s' → ClaimedUntilTerminal s act s') ∧
      (Reachable OwnStep initial s → OneOutcome s) :=
  ⟨fun h _ _ hstep => (heldByClaimant_of_reachable h).claimedUntilTerminal (effect_of_step hstep),
    fun h => (decided_of_reachable h).oneOutcome⟩

def idle : Live := ⟨false, false, "inactive"⟩

/-- The arm of `restore-b` is cancelled although its timer could not be stopped, the unit is armed
again with `restore-c`, and then the first timer fires. -/
def staleTimer : List Action :=
  [.arm ["restore-b"] 60 true idle idle, .launched 0, .cancel idle false idle idle,
    .arm ["restore-c"] 60 false idle idle, .launched 1, .timerStart 0, .claim 0, .rollback 0 0]

def firedOnce : State :=
  { record := some ⟨.completed, ["restore-b"], some 60, some 0, none, none, none⟩
    arms := [⟨["restore-b"], .launched⟩], procs := [⟨0, .exited⟩], timers := [0]
    lastArm := some 0, claimedBy := some 0, executed := [0], cancelled := [] }

theorem guard_outcomes_firedOnce : OneOutcome firedOnce ∧ 0 ∈ firedOnce.executed := by
  have hother (s : State) (act : Action) (h : ∀ p, act ≠ .claim p) : ∀ p proc, act = .claim p →
      s.procs[p]? = some proc → Pending s.record → s.lastArm = some proc.arm :=
    fun p _ hact => absurd hact (h p)
  refine ⟨(guard_outcomes firedOnce).2 ⟨[.arm ["restore-b"] 60 true idle idle, .launched 0,
    .timerStart 0, .claim 0, .rollback 0 0, .terminal 0], ?_⟩, by decide⟩
  refine .cons ⟨rfl, hother _ _ nofun⟩ (.cons ⟨rfl, hother _ _ nofun⟩
    (.cons ⟨rfl, hother _ _ nofun⟩ (.cons ⟨rfl, ?_⟩ (.cons ⟨rfl, hother _ _ nofun⟩
      (.cons ⟨rfl, hother _ _ nofun⟩ (.nil firedOnce))))))
  intro p proc hact hproc _
  cases hact
  cases hproc
  rfl

/-- The cancelled rollback is executed under the claim of the second guard. -/
theorem not_oneOutcome_staleTimer :
    ¬ ∀ s, Reachable Step initial s → OneOutcome s := by
  intro h
  have hrun : ∃ s, staleTimer.foldlM step initial = some s ∧ 0 ∈ s.cancelled ∧ 0 ∈ s.executed :=
    ⟨_, rfl, by decide, by decide⟩
  obtain ⟨s, hs, hcancelled, hexecuted⟩ := hrun
  exact (h s ⟨_, run_of_foldlM hs⟩).2 0 hcancelled hexecuted

end NixNas.Guard
