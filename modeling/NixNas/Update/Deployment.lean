import NixNas.Lib.Script

/-!
# The guarded update (`scripts/update-nas.sh`)

`nas-update --apply`, from where it installs the rollback handler to where it removes it.  The
world is what the script advances: the persistent profile, the running system, the mutable state
and the active checkout.
-/

open Script

namespace NixNas.Update

structure Invocation where
  sync : Bool
  protectedWasActive : Bool
  oldSystem : String
  oldProfile : String
  oldProfileLink : String
  /-- `[[ -e "$system_profile" ]]`. -/
  profileExists : Bool
  originalSourceCommit : String
  candidateCommit : String
  /-- `--sync requires a Git checkout.` -/
  tracked : sync = true → originalSourceCommit ≠ ""

structure World where
  /-- `readlink "$system_profile"`. -/
  profileLink : String
  /-- `readlink -f "$system_profile"`. -/
  profile : String
  running : String
  /-- The candidate activation was begun. -/
  activated : Bool
  /-- The snapshot file is there and not empty. -/
  snapshot : Bool
  /-- The mutable state was restored from the snapshot. -/
  restored : Bool
  /-- The commit of the active checkout, empty outside Git. -/
  checkout : String
  /-- The reason in the manual recovery marker. -/
  marker : Option String
  deriving DecidableEq, Repr

/-- How a command ended and what it left, whether it succeeded or not. -/
structure Reply where
  status : ℕ
  profileLink : String
  profile : String
  running : String
  snapshot : Bool
  deriving DecidableEq, Repr

def World.activate (w : World) (r : Reply) : World :=
  { w with running := r.running, activated := true }

def World.switch (w : World) (r : Reply) : World :=
  { w with profileLink := r.profileLink, profile := r.profile, running := r.running }

structure Shell where
  world : World
  runtimeActivationAttempted : Bool
  rollbackNeeded : Bool
  sourcePromoted : Bool
  deriving DecidableEq, Repr

/-- The world at the start of the script; a marker may stand from an earlier update. -/
def Invocation.initial (u : Invocation) (marker : Option String) : Shell where
  world :=
    { profileLink := u.oldProfileLink
      profile := u.oldProfile
      running := u.oldSystem
      activated := false
      snapshot := false
      restored := false
      checkout := u.originalSourceCommit
      marker }
  runtimeActivationAttempted := false
  rollbackNeeded := false
  sourcePromoted := false

inductive Command where
  | validateProbe | flakeMetadata | flakeCheck | preflight | build
  /-- The check that there is a rollback baseline. -/
  | requireProfile
  | createStateSnapshot
  | setAttempted | setNeeded
  | test | switch
  | restartProtected | healthCheck | externalManagementProbe
  /-- `Persistent system profile did not advance`. -/
  | requireAdvance
  | merge | setPromoted
  | removeMarker | clearNeeded | pruneStateSnapshots
  /-- `trap - EXIT`. -/
  | removeTrap
  deriving DecidableEq, Repr

def exec (u : Invocation) (c : Command) (r : Reply) (s : Shell) : Shell :=
  match c with
  | .createStateSnapshot => { s with world := { s.world with snapshot := r.snapshot } }
  | .setAttempted => { s with runtimeActivationAttempted := true }
  | .setNeeded => { s with rollbackNeeded := true }
  | .test => { s with world := s.world.activate r }
  | .switch => { s with world := s.world.switch r }
  | .merge =>
    if r.status = 0 then { s with world := { s.world with checkout := u.candidateCommit } } else s
  | .setPromoted => { s with sourcePromoted := true }
  | .removeMarker => { s with world := { s.world with marker := none } }
  | .clearNeeded => { s with rollbackNeeded := false }
  | _ => s

/-- `[[ -n "$new_profile_link" && "$new_profile_link" != "$old_profile_link" ]]`. -/
def Invocation.advanced (u : Invocation) (w : World) : Bool :=
  w.profileLink ≠ "" && w.profileLink ≠ u.oldProfileLink

def status (u : Invocation) (c : Command) (r : Reply) (s : Shell) : ℕ :=
  match c with
  | .setAttempted | .setNeeded | .setPromoted | .clearNeeded | .removeTrap => 0
  | .requireProfile => if u.oldProfile = "" || !u.profileExists then 1 else 0
  | .createStateSnapshot => if r.status = 0 && !r.snapshot then 1 else r.status
  | .requireAdvance => if u.advanced s.world then 0 else 1
  | .restartProtected => if u.protectedWasActive then r.status else 0
  | _ => r.status

def semantics (u : Invocation) : Semantics Command Reply Shell := ⟨exec u, status u⟩

def validation : List Command := [.validateProbe, .flakeMetadata, .flakeCheck, .preflight, .build]

def activation : List Command :=
  [.test, .restartProtected, .healthCheck, .externalManagementProbe, .switch, .requireAdvance,
    .restartProtected, .healthCheck, .externalManagementProbe]

def promotion (sync : Bool) : List Command := if sync then [.merge, .setPromoted] else []

def script (u : Invocation) : List Command :=
  validation ++ (.requireProfile :: .createStateSnapshot :: .setAttempted :: .setNeeded ::
    (activation ++ (promotion u.sync ++
      (.removeMarker :: .clearNeeded :: [.pruneStateSnapshots, .removeTrap]))))

/-- What the handler has changed and the errors it has collected. -/
structure Handling where
  world : World
  errors : List String
  deriving DecidableEq, Repr

/-- `command || rollback_errors+=("message")`. -/
def Handling.check (h : Handling) (status : ℕ) (message : String) : Handling :=
  if status = 0 then h else { h with errors := h.errors ++ [message] }

/-- The replies of the commands that the handler runs. -/
structure Answers where
  rollback : Reply
  activate : Reply
  restore : Reply
  restart : Reply
  reset : Reply
  deriving DecidableEq, Repr

def Invocation.moved (u : Invocation) (w : World) : Bool :=
  u.oldProfileLink ≠ "" && w.profileLink ≠ u.oldProfileLink

def rollbackProfile (u : Invocation) (r : Reply) (h : Handling) : Handling :=
  if u.moved h.world then
    { h with world := h.world.switch r }.check r.status "nixos generation rollback failed"
  else h

def activateOld (u : Invocation) (r : Reply) (h : Handling) : Handling :=
  { h with world := { h.world with running := if r.status = 0 then u.oldSystem else r.running } }.check
    r.status "old generation activation failed"

def requireOldProfile (u : Invocation) (h : Handling) : Handling :=
  if u.oldProfile ≠ "" ∧ h.world.profile ≠ u.oldProfile then
    { h with
      errors := h.errors ++ ["persistent system profile was not restored to " ++ u.oldProfile] }
  else h

/-- Without a snapshot `restore_state_snapshot` returns at once. -/
def restoreStateSnapshot (r : Reply) (h : Handling) : Handling :=
  if h.world.snapshot then
    { h with world := { h.world with restored := h.world.restored || r.status == 0 } }.check
      r.status "mutable application state restore failed"
  else h

def restartProtected (u : Invocation) (r : Reply) (h : Handling) : Handling :=
  if u.protectedWasActive then h.check r.status "protected stack restart failed" else h

def resetSource (u : Invocation) (r : Reply) (sourcePromoted : Bool) (h : Handling) : Handling :=
  if sourcePromoted && u.originalSourceCommit ≠ "" then
    let checkout := if r.status = 0 then u.originalSourceCommit else h.world.checkout
    { h with world := { h.world with checkout } }.check
      r.status "active source checkout rollback failed"
  else h

def reverse (u : Invocation) (a : Answers) (s : Shell) : Handling :=
  let h := rollbackProfile u a.rollback ⟨s.world, []⟩
  let h :=
    if s.runtimeActivationAttempted then
      restartProtected u a.restart
        (restoreStateSnapshot a.restore (requireOldProfile u (activateOld u a.activate h)))
    else h
  resetSource u a.reset s.sourcePromoted h

/-- How the script ended, and the reason it has written into the marker. -/
structure Ended where
  world : World
  status : ℕ
  marked : Option String
  deriving DecidableEq, Repr

/-- The `EXIT` trap; its `$?` is the status of the stop. -/
def rollback (u : Invocation) (a : Answers) (stop : Stop Command Shell) : Ended :=
  if stop.status ≠ 0 && stop.state.rollbackNeeded then
    let h := reverse u a stop.state
    if h.errors = [] then ⟨h.world, stop.status, none⟩
    else
      let reason := ";".intercalate h.errors
      ⟨{ h.world with marker := some reason }, 70, some reason⟩
  else ⟨stop.state.world, stop.status, none⟩

/-- How the script ends.  No signal is trapped: Bash runs the `EXIT` trap with the `$?` of the last
command, which has succeeded, and then ends with the status of the signal whatever the trap exits
with. -/
def ended (u : Invocation) (a : Answers) (signal : ℕ) (stop : Stop Command Shell) : Ended :=
  if stop.status = 0 then { rollback u a stop with status := signal } else rollback u a stop

end NixNas.Update
