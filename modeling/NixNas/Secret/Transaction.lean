import Mathlib.Algebra.GroupWithZero.Nat
import Mathlib.Data.Finset.Basic
import NixNas.Lib.Script

/-!
# The activation of secret trees (`scripts/lib/nas-secret-transaction.sh`)

A script runs `nas_secret_tx_swap`, other commands and `nas_secret_tx_commit` after
`nas_secret_tx_init`, and `nas_secret_tx_cleanup` when it exits.  It may exit behind every command
and every assignment.
-/

open Script

namespace NixNas.Secret

variable {File : Type} [DecidableEq File]

/-- The entries below a directory. -/
abbrev SecretTree (File : Type) := Finset File

/-- What `init` has fixed. -/
structure Setup (File : Type) where
  /-- The entry is a regular file `ready` at the top. -/
  isReady : File → Bool
  /-- `NAS_SECRET_TX_DIRECTORY` is set; `stage` and `previous` stand in it. -/
  hasDirectory : Bool

inductive Phase where
  | initialized | stopping | stopped | oldMoved | newInstalled
  | committing | commitCleanupFailed | committed | rolledBack | rollbackIncomplete
deriving DecidableEq, Repr

/-- The trees, the target and the variables of the shell. -/
structure Transaction (File : Type) where
  root : Option (SecretTree File)
  stage : Option (SecretTree File)
  previous : Option (SecretTree File)
  /-- The protected target is active. -/
  active : Bool
  phase : Phase
  swapStarted : Bool
  oldMoved : Bool
  newInstalled : Bool
  committed : Bool
  wasActive : Bool
  /-- The last condition of an `if`. -/
  condition : Bool

/-- `nas_secret_tx_init` leaves the trees as they are. -/
def init (root stage previous : Option (SecretTree File)) (active : Bool) : Transaction File where
  root := root
  stage := stage
  previous := previous
  active := active
  phase := .initialized
  swapStarted := false
  oldMoved := false
  newInstalled := false
  committed := false
  wasActive := false
  condition := false

/-- How a privileged command ends. -/
structure Reply (File : Type) where
  ok : Bool
  /-- What a failing `rm` leaves of a tree, and of `stage` and `previous` in their directory. -/
  kept : Option (SecretTree File)
  keptStage : Option (SecretTree File)
  keptPrevious : Option (SecretTree File)
  /-- The target after a failing `systemctl`. -/
  active : Bool
  /-- The script goes on after a failed validation. -/
  goesOn : Bool

inductive Test where
  | stageIsDirectory | stageIsReady | rootIsDirectory | rootIsReady | previousIsAbsent
  /-- No tree is a symbolic link, and no marker. -/
  | isNoLink
deriving DecidableEq, Repr

variable (setup : Setup File)

def isReadyTree (tree : Option (SecretTree File)) : Bool :=
  tree.any fun t ↦ decide (∃ f ∈ t, setup.isReady f)

/-- What `test` finds. -/
def Test.holds (t : Test) (s : Transaction File) : Bool :=
  match t with
  | .stageIsDirectory => s.stage.isSome
  | .stageIsReady => isReadyTree setup s.stage
  | .rootIsDirectory => s.root.isSome
  | .rootIsReady => isReadyTree setup s.root
  | .previousIsAbsent => s.previous.isNone
  | .isNoLink => true

/-- `mv -T -- source target`: an empty directory is replaced. -/
def mv (source target : Option (SecretTree File)) : Option (Option (SecretTree File)) :=
  if source.isSome ∧ (target = none ∨ target = some ∅) then some source else none

/-- `rm -rf -- tree`. -/
def rm (r : Reply File) (kept : Option (SecretTree File)) (tree : Option (SecretTree File)) :
    Option (SecretTree File) :=
  if r.ok then none
  else
    match tree, kept with
    | some t, some k => some (t ∩ k)
    | _, _ => none

/-- `nas_secret_tx_remove_directory`. -/
def removeDirectory (r : Reply File) (s : Transaction File) : Transaction File :=
  if setup.hasDirectory then
    { s with stage := rm r r.keptStage s.stage, previous := rm r r.keptPrevious s.previous }
  else s

def removesDirectory (r : Reply File) : Bool := !setup.hasDirectory || r.ok

inductive Command where
  | require (t : Test)
  | ask (t : Test)
  /-- A requirement under the last condition. -/
  | requireIf (t : Test)
  | askActive
  | recordActive
  | recordStarted
  | setPhase (phase : Phase)
  | stop
  /-- `is-active` after a `stop` that has failed. -/
  | confirmStopped
  | moveOld
  | recordOldMoved
  | installNew
  | recordNewInstalled
  | validate (t : Test)
  | other
  | requireInstalled
  | requireUncommitted
  | recordCommitted
  | removePrevious
  | removeDirectory
deriving DecidableEq, Repr

def exec (c : Command) (r : Reply File) (s : Transaction File) : Transaction File :=
  match c with
  | .ask t => { s with condition := r.ok && t.holds setup s }
  | .askActive => { s with condition := r.ok && s.active }
  | .recordActive => if s.condition then { s with wasActive := true } else s
  | .recordStarted => { s with swapStarted := true }
  | .setPhase phase => { s with phase := phase }
  | .stop => { s with active := !r.ok && r.active, condition := r.ok }
  | .moveOld =>
    if s.condition && r.ok then
      match mv s.root s.previous with
      | some moved => { s with root := none, previous := moved }
      | none => s
    else s
  | .recordOldMoved => if s.condition then { s with oldMoved := true } else s
  | .installNew =>
    if r.ok then
      match mv s.stage s.root with
      | some moved => { s with root := moved, stage := none }
      | none => s
    else s
  | .recordNewInstalled => { s with newInstalled := true }
  | .recordCommitted => { s with committed := true }
  | .removePrevious =>
    { s with previous := rm r r.kept s.previous
             phase := if r.ok then s.phase else .commitCleanupFailed }
  | .removeDirectory =>
    let s := Secret.removeDirectory setup r s
    { s with phase := if removesDirectory setup r then s.phase else .commitCleanupFailed }
  | _ => s

/-- The status of a command whose `return` or failure ends the script. -/
def failsUnless (b : Bool) : ℕ := if b then 0 else 1

def status (c : Command) (r : Reply File) (s : Transaction File) : ℕ :=
  match c with
  | .require t => failsUnless (r.ok && t.holds setup s)
  | .requireIf t => failsUnless (!s.condition || (r.ok && t.holds setup s))
  | .confirmStopped => failsUnless (s.condition || !(r.ok && s.active))
  | .moveOld => failsUnless (!s.condition || (r.ok && (mv s.root s.previous).isSome))
  | .installNew => failsUnless (r.ok && (mv s.stage s.root).isSome)
  | .validate t => failsUnless ((r.ok && t.holds setup s) || r.goesOn)
  | .other => failsUnless r.ok
  | .requireInstalled => failsUnless (decide (s.phase = .newInstalled) && s.newInstalled)
  | .requireUncommitted => failsUnless (!s.committed)
  | .removePrevious => if r.ok then 0 else 125
  | .removeDirectory => if removesDirectory setup r then 0 else 125
  | _ => 0

def semantics : Semantics Command (Reply File) (Transaction File) where
  exec := exec setup
  status := status setup

/-- The checks of `nas_secret_tx_swap`, before it changes anything. -/
def swapChecks : List Command :=
  [.require .stageIsDirectory, .require .isNoLink, .require .stageIsReady, .require .isNoLink,
    .ask .rootIsDirectory, .requireIf .rootIsDirectory, .requireIf .isNoLink,
    .require .previousIsAbsent, .askActive, .recordActive]

def swapMoves : List Command :=
  [.recordStarted, .setPhase .stopping, .stop, .confirmStopped, .setPhase .stopped,
    .ask .rootIsDirectory, .moveOld, .recordOldMoved, .setPhase .oldMoved,
    .installNew, .recordNewInstalled, .setPhase .newInstalled,
    .validate .rootIsDirectory, .validate .isNoLink, .validate .rootIsReady, .validate .isNoLink]

/-- `nas_secret_tx_commit`. -/
def commit : List Command :=
  [.requireInstalled, .requireUncommitted, .recordCommitted, .setPhase .committing,
    .removePrevious, .removeDirectory, .setPhase .committed]

/-- `nas_secret_tx_swap`, some other commands and the commit. -/
def script (others : ℕ) : List Command :=
  swapChecks ++ (swapMoves ++ (List.replicate others .other ++ commit))

def exitState (others signal : ℕ) (replies : List (Reply File)) (s : Transaction File) :
    Transaction File :=
  match run (semantics setup) signal (script others) replies s with
  | .stopped stop => stop.state
  | .finished s => s

/-- The replies to the commands of `nas_secret_tx_rollback`, as far as they are given. -/
structure RollbackReplies (File : Type) where
  stop : Reply File
  isActive : Reply File
  removeRoot : Reply File
  testPrevious : Reply File
  testPreviousLink : Reply File
  restore : Reply File
  testReady : Reply File
  testReadyLink : Reply File
  start : Reply File
  removeStage : Reply File
  removeDirectory : Reply File

/-- `nas_secret_tx_stop_target`. -/
def stopTarget (stop isActive : Reply File) (s : Transaction File) : Transaction File × Bool :=
  let active := !stop.ok && stop.active
  ({ s with active := active }, stop.ok || !(isActive.ok && active))

def removeStage (r : RollbackReplies File) (ok : Bool) (s : Transaction File) :
    Transaction File × Bool :=
  let s := { s with stage := rm r.removeStage r.removeStage.kept s.stage }
  let ok := ok && r.removeStage.ok
  if ok then (removeDirectory setup r.removeDirectory s, removesDirectory setup r.removeDirectory)
  else (s, false)

def restoreOld (r : RollbackReplies File) (s : Transaction File) : Transaction File × Bool :=
  if s.oldMoved then
    if r.testPrevious.ok && s.previous.isSome && r.testPreviousLink.ok then
      if r.restore.ok then
        match mv s.previous s.root with
        | some moved => ({ s with root := moved, previous := none }, true)
        | none => (s, false)
      else (s, false)
    else (s, false)
  else (s, true)

def restartTarget (r : RollbackReplies File) (s : Transaction File) : Transaction File × Bool :=
  if r.testReady.ok && isReadyTree setup s.root && r.testReadyLink.ok then
    ({ s with active := r.start.ok || r.start.active }, r.start.ok)
  else (s, false)

/-- `nas_secret_tx_rollback`, and whether it returns zero. -/
def rollback (r : RollbackReplies File) (s : Transaction File) : Transaction File × Bool :=
  if s.committed then (s, false)
  else if !s.swapStarted then
    let (s, ok) := removeStage setup r true s
    ({ s with phase := if ok then .rolledBack else .rollbackIncomplete }, ok)
  else
    let (s, stopped) := stopTarget r.stop r.isActive s
    let removed := !s.newInstalled || r.removeRoot.ok
    let s := if s.newInstalled then { s with root := rm r.removeRoot r.removeRoot.kept s.root } else s
    let (s, restored) := restoreOld r s
    let ok := stopped && removed && restored
    let (s, ok) := if s.wasActive && ok then restartTarget setup r s else (s, ok)
    let (s, ok) := removeStage setup r ok s
    ({ s with phase := if ok then .rolledBack else .rollbackIncomplete }, ok)

scoped instance neZero_statuses : NeZero 256 := ⟨by decide⟩

/-- `nas_secret_tx_cleanup`, with the exit status that it returns. -/
def cleanup (rc : Fin 256) (r : RollbackReplies File) (s : Transaction File) :
    Transaction File × ℕ :=
  if s.committed then (s, rc)
  else
    let (s, ok) := rollback setup r s
    (s, if !ok || rc = 0 then 125 else rc)

end NixNas.Secret
