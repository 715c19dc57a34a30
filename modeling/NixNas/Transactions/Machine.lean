import NixNas.Entry
import NixNas.Guard

/-!
# The reconcile transaction (`modules/nas/config/managed-services-transactions.nix`)

Every start of `nas-managed-services-reconcile.service` is a transaction.  It arms a guard of its
own, compiles and publishes a generation, brings the native subsystems to it and marks it as
applied.  Rollbacks, which the timers of the guards and the failure unit start, interleave with it,
with each other and with edits of the authority.  The unit may fail at any command and a rollback may
be killed at any command; what a command does in several effects is killed between them as well.
-/

open Transition
open NixNas.History (Commit)
open NixNas.Generation (GenName)
open NixNas.Guard (Record Live armSection armCleanup cancelSection claimSection terminalSection)

namespace NixNas.Transactions

/-- What `postStart` brings to the published generation. -/
inductive Subsystem where
  | nmstate | firewalld | systemd | caddy
  deriving DecidableEq, Repr

structure Options where
  settings : Entry.Settings
  networkingEnabled : Bool
  firewallEnabled : Bool

/-- The subsystems in the order of `postStart`. -/
def Options.subsystems (o : Options) : List Subsystem :=
  (if o.networkingEnabled then [.nmstate] else []) ++
    (if o.networkingEnabled && o.firewallEnabled then [.firewalld] else []) ++ [.systemd, .caddy]

inductive Standing where
  | untouched
  /-- The command that brings it to a generation has begun and not returned. -/
  | between
  | reached (revision : Commit)
  deriving DecidableEq, Repr

/-- The name of a guard is taken from the identifier of the invocation of the unit, which is new
with every start. -/
abbrev GuardId := Nat

/-- The durable record of a guard, and whether its timer is still to fire. -/
structure GuardUnit where
  record : Option Record
  timer : Bool
  deriving DecidableEq, Repr

/-- Where the unit stands: `preStart`, the entry point and `postStart`. -/
inductive Phase where
  | removePlan
  | bootstrap
  | guardFile
  | arm
  /-- `arm` has written its record and waits for `systemd-run`. -/
  | launch
  /-- `systemd-run` has failed. -/
  | cleanup
  /-- The command has failed, and so does the unit. -/
  | failing
  | probe
  | main (phase : Entry.Phase) (switched : Option GenName)
  | readPlan
  | project (head : Commit) (remaining : List Subsystem)
  | markApplied (head : Commit)
  /-- `mark-applied` has read the applied revision. -/
  | keepApplied (head : Commit) (old : Option Commit)
  /-- `mark-applied` has kept it as the previous one. -/
  | setApplied (head : Commit) (old : Option Commit)
  | acknowledge (head : Commit)
  | cancel
  | removeGuardFile
  | clearPrevious
  deriving DecidableEq, Repr

structure Invocation where
  guard : GuardId
  phase : Phase
  deriving DecidableEq, Repr

inductive RollbackPhase where
  /-- `nas-v2-rollback-with-guard`, in front of the test of the guard file. -/
  | readGuardFile
  /-- `fired`, in front of its claim section. -/
  | claim
  | stopUnit
  | stopTimers
  | readFailed
  | restore (failed : Option Commit)
  | restart
  /-- `systemctl restart` waits until the unit has started or failed. -/
  | waiting
  /-- The script has ended. -/
  | ran (exitCode : Int)
  | removeGuardFile
  | ended
  deriving DecidableEq, Repr

/-- A run of `nas-v2-rollback-to-applied` with what is around it. -/
structure Rollback where
  /-- The guard that `fired` is given; without one the script is run at once. -/
  guard : Option GuardId
  /-- Run by `nas-v2-apply-failed.service`, and not by the timer. -/
  handler : Bool
  /-- The claim section has let it run. -/
  claimed : Bool
  phase : RollbackPhase
  deriving DecidableEq, Repr

def Rollback.idle : Rollback := ⟨none, false, false, .ended⟩

structure State (Doc : Type) where
  world : Entry.World Doc
  standing : Subsystem → Standing
  guards : GuardId → GuardUnit
  invocations : Nat
  /-- `current-guard-unit`, which may be there without a name. -/
  guardFile : Option (Option GuardId)
  unit : Option Invocation
  /-- The failure unit is to be started. -/
  failed : Bool
  /-- In the order in which they were started. -/
  rollbacks : Nat → Rollback
  started : Nat
  /-- Since a revision was last marked as applied, a rollback has ended before it was done. -/
  lost : Bool

def boot {Doc : Type} (world : Entry.World Doc) : State Doc where
  world
  standing _ := .untouched
  guards _ := ⟨none, false⟩
  invocations := 0
  guardFile := none
  unit := none
  failed := false
  rollbacks _ := .idle
  started := 0
  lost := false

inductive Event where
  | edit (authority : Option String)
  /-- `nas-managed-services-dirty.service`. -/
  | touchPending
  | start
  /-- The unit is stopped, for instance with the target it is part of. -/
  | stop
  | crash
  /-- The command at hand returns zero. -/
  | advance
  /-- The command at hand has the first of its effects. -/
  | partly
  | main (act : Entry.Action)
  | arm (live timerLive : Live)
  | launched (succeeds : Bool)
  | cleanup (unlinked : Bool)
  | cancel (live : Live) (stopped : Bool) (timerLive after : Live)
  | timerFires (g : GuardId)
  | failureUnit
  | readGuardFile (r : Nat)
  | claim (r : Nat)
  | stopUnit (r : Nat) (works : Bool)
  | stopTimers (r : Nat) (stopped : List GuardId)
  | readFailed (r : Nat)
  | restore (r : Nat)
  /-- A command of `restore-applied` fails behind the given number of effects. -/
  | restorePartly (r : Nat) (effects : Nat)
  | restart (r : Nat)
  /-- A condition of the unit does not hold, which is no failure of `systemctl restart`. -/
  | skipped (r : Nat)
  | fail (r : Nat) (exitCode : Int)
  | kill (r : Nat)
  | terminal (r : Nat)
  | removeGuardFile (r : Nat)

/-- `nas-v2-rollback-to-applied`, as the record has it. -/
def rollbackToApplied : List String := ["nas-v2-rollback-to-applied"]

def guardTimeoutSeconds : Int := 300

section

variable {Doc : Type} (o : Options)

/-- The revision in the plan of the generation that `current` leads to. -/
def currentRevision (tree : Generation.World Doc) : Option Commit :=
  match tree.resolveCurrent with
  | some (.generation d) =>
    match d.read o.settings.plan with
    | some (.plan _ revision) => some revision
    | _ => none
  | _ => none

/-- `.desiredRevision` of `plan.json`, which is a link into the published generation. -/
def planRevision (tree : Generation.World Doc) : Option Commit :=
  match tree.stable o.settings.plan with
  | .link target => if target = "current/" ++ o.settings.plan then currentRevision o tree else none
  | _ => none

/-- `rm -f` of the plan, which no directory is removed by. -/
def removePlan (tree : Generation.World Doc) : Option (Generation.World Doc) :=
  match tree.stable o.settings.plan with
  | .directory => none
  | _ => some { tree with
      stable := fun p ↦ if p = o.settings.plan then .absent else tree.stable p }

@[simp] def State.setHistory (s : State Doc) (history : History.State) : State Doc :=
  { s with world := { s.world with history } }

@[simp] def State.setTree (s : State Doc) (tree : Generation.World Doc) : State Doc :=
  { s with world := { s.world with tree } }

@[simp] def State.setStanding (s : State Doc) (subsystem : Subsystem) (standing : Standing) : State Doc :=
  { s with standing := Function.update s.standing subsystem standing }

@[simp] def State.setGuard (s : State Doc) (g : GuardId) (guard : GuardUnit) : State Doc :=
  { s with guards := Function.update s.guards g guard }

@[simp] def State.setRecord (s : State Doc) (g : GuardId) (record : Option Record) : State Doc :=
  s.setGuard g { s.guards g with record }

@[simp] def State.setTimer (s : State Doc) (g : GuardId) (timer : Bool) : State Doc :=
  s.setGuard g { s.guards g with timer }

@[simp] def State.goto (s : State Doc) (i : Invocation) (phase : Phase) : State Doc :=
  { s with unit := some { i with phase } }

@[simp] def State.setRollback (s : State Doc) (r : Nat) (rollback : Rollback) : State Doc :=
  { s with rollbacks := Function.update s.rollbacks r rollback }

@[simp] def State.move (s : State Doc) (r : Nat) (phase : RollbackPhase) : State Doc :=
  s.setRollback r { s.rollbacks r with phase }

@[simp] def State.startRollback (s : State Doc) (rollback : Rollback) : State Doc :=
  { s.setRollback s.started rollback with started := s.started + 1 }

def State.waited (s : State Doc) : Bool :=
  (List.range s.started).any fun r ↦ (s.rollbacks r).phase = .waiting

def State.handlerActive (s : State Doc) : Bool :=
  (List.range s.started).any fun r ↦ (s.rollbacks r).handler && (s.rollbacks r).phase ≠ .ended

/-- What `systemctl restart` answers when the unit has ended. -/
def Rollback.answer (exitCode : Int) (rollback : Rollback) : Rollback :=
  if rollback.phase = .waiting then { rollback with phase := .ran exitCode } else rollback

@[simp] def State.answer (s : State Doc) (exitCode : Int) : State Doc :=
  { s with rollbacks := fun r ↦ (s.rollbacks r).answer exitCode }

/-- The unit has ended without success, and the restarts that wait for it fail. -/
@[simp] def State.drop (s : State Doc) : State Doc :=
  { s.answer 1 with unit := none, lost := s.lost || s.waited }

@[simp] def State.begin (s : State Doc) : State Doc :=
  { s with unit := some ⟨s.invocations, .removePlan⟩, invocations := s.invocations + 1 }

def advance (s : State Doc) (i : Invocation) : Option (State Doc) :=
  match i.phase with
  | .removePlan => (removePlan o s.world.tree).map fun tree ↦ (s.setTree tree).goto i .bootstrap
  | .bootstrap =>
    match History.bootstrapBaselineLocked s.world.history with
    | .error _ => none
    | .ok (_, _, history) => some ((s.setHistory history).goto i .guardFile)
  | .guardFile => some ({ s with guardFile := some (some i.guard) }.goto i .arm)
  | .probe => some (s.goto i (.main .start none))
  | .main (.returned 0) _ => some (s.goto i .readPlan)
  | .readPlan =>
    (planRevision o s.world.tree).map fun head ↦ s.goto i (.project head o.subsystems)
  | .project head (subsystem :: remaining) =>
    let standing := ((currentRevision o s.world.tree).map Standing.reached).getD .between
    some ((s.setStanding subsystem standing).goto i (.project head remaining))
  | .project head [] => some (s.goto i (.markApplied head))
  | .markApplied head =>
    match History.markApplied s.world.history (some head) with
    | (.error _, _) => none
    | (.ok _, history) =>
      some ({ s.setHistory history with lost := false }.goto i (.acknowledge head))
  | .keepApplied head old =>
    let history := s.world.history
    some ((s.setHistory { history with previousApplied := old }).goto i (.setApplied head old))
  | .setApplied head old =>
    let history := s.world.history
    -- with an old value `update-ref` compares it under the lock of the ref
    if (old = none ∨ history.applied = old) ∧ (history.textAt head).isSome then
      some ({ s.setHistory { history with applied := some head } with lost := false }.goto i
        (.acknowledge head))
    else none
  | .acknowledge head =>
    match History.acknowledgePending s.world.history head with
    | .error _ => none
    | .ok (_, history) => some ((s.setHistory history).goto i .cancel)
  | .removeGuardFile => some ({ s with guardFile := none }.goto i .clearPrevious)
  | .clearPrevious =>
    let history := History.clearPreviousApplied s.world.history
    some { (s.setHistory history).answer 0 with unit := none }
  | _ => none

/-- The command at hand has the first of its effects: the baseline is committed and not applied, the
guard file is there without the name, the timer runs, or the subsystem is touched.  `mark-applied`
takes no lock and goes on from one effect to the next beside the rollbacks. -/
def partly (s : State Doc) (i : Invocation) : Option (State Doc) :=
  match i.phase with
  | .bootstrap =>
    match s.world.history.applied, s.world.history.head with
    | none, none => some (s.setHistory (s.world.history.commit History.bootstrapBaseline))
    | _, _ => none
  | .guardFile => some { s with guardFile := some none }
  | .launch => some (s.setTimer i.guard true)
  | .project _ (subsystem :: _) => some (s.setStanding subsystem .between)
  | .markApplied head => some (s.goto i (.keepApplied head s.world.history.applied))
  | _ => none

def main (compile : String → Except String (Entry.Compiled Doc)) (s : State Doc) (i : Invocation)
    (act : Entry.Action) : Option (State Doc) :=
  match i.phase with
  | .main phase switched =>
    (Entry.step o.settings compile ⟨s.world, phase, switched⟩ act).map fun entry ↦
      { s with world := entry.world }.goto i (.main entry.phase entry.switched)
  | _ => none

def arm (s : State Doc) (i : Invocation) (live timerLive : Live) : Option (State Doc) :=
  let sec := armSection (s.guards i.guard).record rollbackToApplied guardTimeoutSeconds live
    timerLive
  match i.phase, sec.result with
  | .arm, .ok () => some ((s.setRecord i.guard sec.record).goto i .launch)
  | _, _ => none

def launched (s : State Doc) (i : Invocation) (succeeds : Bool) : Option (State Doc) :=
  match i.phase with
  | .launch =>
    some (if succeeds then (s.setTimer i.guard true).goto i .probe else s.goto i .cleanup)
  | _ => none

def cleanup (s : State Doc) (i : Invocation) (unlinked : Bool) : Option (State Doc) :=
  match i.phase with
  | .cleanup =>
    let record := armCleanup (s.guards i.guard).record rollbackToApplied unlinked
    some ((s.setRecord i.guard record).goto i .failing)
  | _ => none

def cancel (s : State Doc) (i : Invocation) (live : Live) (stopped : Bool)
    (timerLive after : Live) : Option (State Doc) :=
  match i.phase with
  | .cancel =>
    let guard := s.guards i.guard
    let sec := cancelSection guard.record live stopped timerLive after
    let s' := s.setGuard i.guard ⟨sec.record, guard.timer && !(sec.stopIssued && stopped)⟩
    match sec.result with
    | .ok () => some (s'.goto i .removeGuardFile)
    | .error _ => some (s'.goto i .failing)
  | _ => none

/-- Where a run stands behind `fired`. -/
def Rollback.behindFired (rollback : Rollback) : RollbackPhase :=
  if rollback.handler then .removeGuardFile else .ended

def readGuardFile (s : State Doc) (r : Nat) : Option (State Doc) :=
  match (s.rollbacks r).phase with
  | .readGuardFile =>
    match s.guardFile with
    | some (some g) => some (s.setRollback r { s.rollbacks r with guard := some g, phase := .claim })
    | _ => some (s.move r .stopUnit)
  | _ => none

def claim (s : State Doc) (r : Nat) : Option (State Doc) :=
  match (s.rollbacks r).phase, (s.rollbacks r).guard with
  | .claim, some g =>
    let sec := claimSection (s.guards g).record rollbackToApplied
    let s' := s.setRecord g sec.record
    match sec.result with
    | .ok true => some (s'.setRollback r { s.rollbacks r with claimed := true, phase := .stopUnit })
    | _ => some (s'.move r (s.rollbacks r).behindFired)
  | _, _ => none

/-- The phases of the script, from its first command to the answer to its last one. -/
def RollbackPhase.isScript : RollbackPhase → Bool
  | .stopUnit | .stopTimers | .readFailed | .restore _ | .restart | .waiting => true
  | _ => false

def stopUnit (s : State Doc) (r : Nat) (works : Bool) : Option (State Doc) :=
  match (s.rollbacks r).phase with
  | .stopUnit => some ((if works && s.unit.isSome then s.drop else s).move r .stopTimers)
  | _ => none

def stopTimers (s : State Doc) (r : Nat) (stopped : List GuardId) : Option (State Doc) :=
  match (s.rollbacks r).phase with
  | .stopTimers =>
    let guards := fun g ↦ { s.guards g with timer := (s.guards g).timer && g ∉ stopped }
    some ({ s with guards }.move r .readFailed)
  | _ => none

/-- `failed_head`: the revision of the plan, or else `HEAD`. -/
def readFailed (s : State Doc) (r : Nat) : Option (State Doc) :=
  match (s.rollbacks r).phase with
  | .readFailed => some (s.move r (.restore (planRevision o s.world.tree <|> s.world.history.head)))
  | _ => none

def restore (s : State Doc) (r : Nat) : Option (State Doc) :=
  match (s.rollbacks r).phase with
  | .restore failed =>
    match History.restoreApplied s.world.history failed with
    | .error _ => none
    | .ok (_, history) => some ((s.setHistory history).move r .restart)
  | _ => none

/-- What a restore that leads from `before` to `after` leaves behind some of its effects: the
authority, the commit, and the applied revision. -/
def restored (before after : History.State) : Nat → History.State
  | 0 => before
  | 1 => { before with authority := after.authority }
  | 2 => { after with applied := before.applied, previousApplied := before.previousApplied }
  | _ => { after with previousApplied := before.previousApplied }

def restorePartly (s : State Doc) (r : Nat) (effects : Nat) : Option (State Doc) :=
  match (s.rollbacks r).phase with
  | .restore failed =>
    match History.restoreApplied s.world.history failed with
    | .error _ => none
    | .ok (_, history) =>
      let history := restored s.world.history history effects
      some { (s.setHistory history).move r (.ran 1) with lost := true }
  | _ => none

/-- A transaction is started, in the place of one that is still running. -/
def restart (s : State Doc) (r : Nat) : Option (State Doc) :=
  match (s.rollbacks r).phase with
  | .restart => some (s.begin.move r .waiting)
  | _ => none

def skipped (s : State Doc) (r : Nat) : Option (State Doc) :=
  match (s.rollbacks r).phase with
  | .restart => some { s.drop.move r (.ran 0) with lost := true }
  | _ => none

/-- A command of the script fails, or `fired` does in front of the claim. -/
def fail (s : State Doc) (r : Nat) (exitCode : Int) : Option (State Doc) :=
  if (s.rollbacks r).phase.isScript && exitCode ≠ 0 then
    some { s.move r (.ran exitCode) with lost := true }
  else if (s.rollbacks r).phase = .claim then
    some { s.move r (s.rollbacks r).behindFired with lost := true }
  else none

/-- A run that is killed in front of the end of its script is lost. -/
def RollbackPhase.isOpen (phase : RollbackPhase) : Bool :=
  phase.isScript || phase = .readGuardFile || phase = .claim

def kill (s : State Doc) (r : Nat) : State Doc :=
  { s.move r .ended with lost := s.lost || (s.rollbacks r).phase.isOpen }

/-- The terminal section of `fired`; a script that is run at once has none. -/
def terminal (s : State Doc) (r : Nat) : Option (State Doc) :=
  match (s.rollbacks r).phase, (s.rollbacks r).guard with
  | .ran exitCode, some g =>
    let record := terminalSection (s.guards g).record rollbackToApplied exitCode
    some ((s.setRecord g record).move r (s.rollbacks r).behindFired)
  | .ran _, none => some (s.move r .ended)
  | _, _ => none

def removeGuardFile (s : State Doc) (r : Nat) : Option (State Doc) :=
  match (s.rollbacks r).phase with
  | .removeGuardFile => some ({ s with guardFile := none }.move r .ended)
  | _ => none

/-- The timer starts `fired`. -/
def timerFires (s : State Doc) (g : GuardId) : Option (State Doc) :=
  if (s.guards g).timer then
    some ((s.setTimer g false).startRollback ⟨some g, false, false, .claim⟩)
  else none

/-- A job for a unit that is running already is part of the job that runs it.  Without a guard file
the unit is not started. -/
def failureUnit (s : State Doc) : Option (State Doc) :=
  if s.failed && !s.handlerActive then
    let s' := { s with failed := false }
    some (if s.guardFile.isSome then s'.startRollback ⟨none, true, false, .readGuardFile⟩ else s')
  else none

/-- The unit has failed, which starts the failure unit unless it is running. -/
def crash (s : State Doc) : State Doc := { s.drop with failed := s.failed || !s.handlerActive }

/-- One event; `none` where it cannot happen. -/
def step (compile : String → Except String (Entry.Compiled Doc)) (s : State Doc) :
    Event → Option (State Doc)
  | .edit authority => some (s.setHistory { s.world.history with authority })
  | .touchPending => some (s.setHistory { s.world.history with pending := true })
  | .start => if s.unit.isNone then some s.begin else none
  | .stop => if s.unit.isSome then some s.drop else none
  | .crash => if s.unit.isSome then some (crash s) else none
  | .advance => s.unit.bind (advance o s)
  | .partly => s.unit.bind (partly s)
  | .main act => s.unit.bind (main o compile s · act)
  | .arm live timerLive => s.unit.bind (arm s · live timerLive)
  | .launched succeeds => s.unit.bind (launched s · succeeds)
  | .cleanup unlinked => s.unit.bind (cleanup s · unlinked)
  | .cancel live stopped timerLive after => s.unit.bind (cancel s · live stopped timerLive after)
  | .timerFires g => timerFires s g
  | .failureUnit => failureUnit s
  | .readGuardFile r => readGuardFile s r
  | .claim r => claim s r
  | .stopUnit r works => stopUnit s r works
  | .stopTimers r stopped => stopTimers s r stopped
  | .readFailed r => readFailed o s r
  | .restore r => restore s r
  | .restorePartly r effects => restorePartly s r effects
  | .restart r => restart s r
  | .skipped r => skipped s r
  | .fail r exitCode => fail s r exitCode
  | .kill r => some (kill s r)
  | .terminal r => terminal s r
  | .removeGuardFile r => removeGuardFile s r

end

end NixNas.Transactions
