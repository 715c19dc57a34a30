import Mathlib.Data.List.Nodup
import Mathlib.Logic.Function.Basic
import NixNas.Names

/-!
# The restore of a state bundle (`restore_bundle` of `services/nas_state.py`)

A restore puts the payloads of a bundle in the place of the authorities.  Where it fails, what was
exported just before is put back the same way.  A content is what `restored_content_matches` compares:
the names, the kinds and the bytes.  Owners and modes are no part of it: `apply_local_path_policies`
sets them anew whenever a payload is put in its place, and can clamp them.
-/

namespace NixNas.State

variable {C : Type}

inductive AuthorityKind where
  | path | database
  deriving DecidableEq, Repr

structure Authority where
  name : Text
  kind : AuthorityKind
  sensitive : Bool
  optional : Bool
  deriving DecidableEq, Repr

/-- The authorities in their order, with different names. -/
structure Registry where
  authorities : List Authority
  nodup : (authorities.map Authority.name).Nodup

inductive EntryStatus where
  | captured | omittedSensitive | absent | missingRequired
  deriving DecidableEq, Repr

inductive Payload (C : Type) where
  | tree (content : C)
  | dump
  deriving DecidableEq, Repr

structure BundleEntry (C : Type) where
  name : Text
  status : EntryStatus
  payload : Option (Payload C)
  deriving DecidableEq, Repr

abbrev Manifest (C : Type) := List (BundleEntry C)

/-- The contents of the path authorities that are there, by their names. -/
abbrev Live (C : Type) := Text → Option C

/-- The entry that `export_bundle` makes of an authority. -/
def exportEntry (live : Live C) (includeSensitive : Bool) (a : Authority) : BundleEntry C :=
  if a.sensitive && !includeSensitive then ⟨a.name, .omittedSensitive, none⟩
  else
    match a.kind with
    | .database => ⟨a.name, .captured, some .dump⟩
    | .path =>
      match live a.name with
      | none => ⟨a.name, if a.optional then .absent else .missingRequired, none⟩
      | some content => ⟨a.name, .captured, some (.tree content)⟩

/-- `export_bundle`, where nothing fails. -/
def exportBundle (registry : Registry) (live : Live C) (includeSensitive : Bool) : Manifest C :=
  registry.authorities.map (exportEntry live includeSensitive)

/-- The checks of `load_extracted_manifest` on an entry. -/
def entryOk (a : Authority) (e : BundleEntry C) : Bool :=
  decide (e.name = a.name) &&
    (match e.status, a.kind, e.payload with
      | .captured, .path, some (.tree _) => true
      | .captured, .database, some .dump => true
      | .captured, _, _ => false
      | _, _, payload => payload.isNone) &&
    (e.status ≠ .absent || a.optional) && (e.status ≠ .omittedSensitive || a.sensitive)

/-- Those of its checks that look at the entries: one for every authority, in their order. -/
def loadExtractedManifest (registry : Registry) (manifest : Manifest C) : Bool :=
  decide (manifest.length = registry.authorities.length) &&
    (registry.authorities.zip manifest).all fun pair ↦ entryOk pair.1 pair.2

/-- `by_name[name]`. -/
def byName (manifest : Manifest C) (name : Text) : Option (BundleEntry C) :=
  manifest.reverse.find? fun e ↦ e.name = name

/-- How `restore_path` ends. -/
inductive PlaceReply where
  | works
  /-- The copy fails, or the old tree cannot be moved aside. -/
  | notStaged
  /-- The copy cannot be moved to its place; the old tree is put back or not. -/
  | notPlaced (putBack : Bool)
  /-- The copy is in its place, and the old tree cannot be removed. -/
  | oldLeft
  deriving DecidableEq, Repr

/-- How the operations on an authority end. -/
structure Reply (C : Type) where
  place : PlaceReply
  /-- What a failing `remove_path` leaves. -/
  remove : Option (Option C)
  database : Bool

/-- The content that `restore_path` leaves, and whether it went through. -/
def restorePath (reply : PlaceReply) (old : Option C) (content : C) : Option C × Bool :=
  match reply with
  | .works => (some content, true)
  | .notStaged => (old, false)
  | .notPlaced putBack => (if putBack then old else none, false)
  | .oldLeft => (some content, old.isNone)

/-- `remove_path` of what is there, and whether it went through. -/
def removePath (reply : Option (Option C)) : Option C × Bool :=
  match reply with
  | none => (none, true)
  | some left => (left, false)

/-- What one turn of `apply_extracted` leaves of an authority, and whether it went through. -/
def applyEntry (restoreAbsence : Bool) (reply : Reply C) (a : Authority) (e : BundleEntry C)
    (old : Option C) : Option C × Bool :=
  match e.status with
  | .absent =>
    if a.kind = .path ∧ old.isSome ∧ restoreAbsence then removePath reply.remove else (old, true)
  | .captured =>
    match a.kind, e.payload with
    | .database, _ => (old, reply.database)
    | .path, some (.tree content) => restorePath reply.place old content
    | .path, _ => (old, false)
  | _ => (old, true)

/-- The loop of `apply_extracted`; it stops at the first failure. -/
def applyEntries (restoreAbsence : Bool) (replies : Text → Reply C) (manifest : Manifest C) :
    List Authority → Live C → Live C × Bool
  | [], live => (live, true)
  | a :: rest, live =>
    match byName manifest a.name with
    | none => (live, false)
    | some e =>
      let (left, ok) := applyEntry restoreAbsence (replies a.name) a e (live a.name)
      let live := Function.update live a.name left
      if ok then applyEntries restoreAbsence replies manifest rest live else (live, false)

def preflightRestoreAbsence (registry : Registry) (manifest : Manifest C) (restoreAbsence : Bool)
    (live : Live C) : Bool :=
  restoreAbsence || registry.authorities.all fun a ↦
    match byName manifest a.name with
    | none => false
    | some e => !(e.status = .absent && a.kind = .path && (live a.name).isSome)

def applyExtracted (registry : Registry) (manifest : Manifest C) (restoreAbsence : Bool)
    (replies : Text → Reply C) (live : Live C) : Live C × Bool :=
  if preflightRestoreAbsence registry manifest restoreAbsence live then
    applyEntries restoreAbsence replies manifest registry.authorities live
  else (live, false)

inductive JournalStatus where
  | failed
  | skippedUnchanged
  | failedBeforeApply
  | committed
  /-- The journal cannot be written before the rollback. -/
  | stateApplied
  | failedRolledBack
  | manualRecoveryRequired
  deriving DecidableEq, Repr

/-- How everything ends that the restore calls. -/
structure Replies (C : Type) where
  /-- The bundle is read and checked, and the units are known. -/
  prepared : Bool
  /-- The check for drift goes through, and finds the databases unchanged. -/
  databasesUnchanged : Bool
  exported : Bool
  stopped : Bool
  unitsRestored : Bool
  databaseStarted : Bool
  apply : Text → Reply C
  appliedRecorded : Bool
  verified : Bool
  reapplied : Bool
  committedRecorded : Bool
  rollingBackRecorded : Bool
  stoppedAgain : Bool
  /-- The rollback bundle is extracted and loaded. -/
  rollbackRead : Bool
  databaseStartedAgain : Bool
  applyRollback : Text → Reply C
  reappliedAgain : Bool
  rolledBackRecorded : Bool

def capturesDatabase (manifest : Manifest C) : Bool :=
  manifest.any fun e ↦ e.status = .captured && (match e.payload with
    | some .dump => true
    | _ => false)

section

variable [DecidableEq C]

/-- An authority differs from its entry, as far as the check before the restore looks at paths. -/
def drifts (live : Live C) (a : Authority) (e : BundleEntry C) : Bool :=
  match e.status, a.kind with
  | .captured, .path =>
    match e.payload with
    | some (.tree content) => live a.name ≠ some content
    | _ => true
  | .absent, .path => (live a.name).isSome
  | _, _ => false

def hasDrift (registry : Registry) (manifest : Manifest C) (live : Live C) : Bool :=
  registry.authorities.any fun a ↦ (byName manifest a.name).all (drifts live a)

/-- `verify_restored_state` of the paths. -/
def verifyRestoredState (registry : Registry) (manifest : Manifest C) (live : Live C) : Bool :=
  registry.authorities.all fun a ↦
    match byName manifest a.name with
    | none => false
    | some e => e.status ≠ .captured || !drifts live a e

variable (registry : Registry) (manifest : Manifest C) (restoreAbsence : Bool) (replies : Replies C)

/-- From `state_mutated` to the end of the `try`. -/
def restoreForward (live : Live C) : Live C × Bool :=
  if capturesDatabase manifest && !replies.databaseStarted then (live, false)
  else
    let (live, applied) := applyExtracted registry manifest restoreAbsence replies.apply live
    (live, applied && replies.appliedRecorded &&
      (replies.verified && verifyRestoredState registry manifest live) && replies.reapplied &&
      replies.committedRecorded)

/-- The rollback to the bundle that was exported. -/
def rollBack (rollback : Manifest C) (live : Live C) : Live C × JournalStatus :=
  if !replies.stoppedAgain || !(replies.rollbackRead && loadExtractedManifest registry rollback) then
    (live, .manualRecoveryRequired)
  else if capturesDatabase rollback && !replies.databaseStartedAgain then
    (live, .manualRecoveryRequired)
  else
    let (live, applied) := applyExtracted registry rollback true replies.applyRollback live
    (live, if applied && replies.reappliedAgain && replies.rolledBackRecorded then .failedRolledBack
      else .manualRecoveryRequired)

/-- `restore_bundle`: what it leaves of the authorities, and the status in the journal. -/
def restoreBundle (live : Live C) : Live C × JournalStatus :=
  if !(replies.prepared && loadExtractedManifest registry manifest) then (live, .failed)
  else if replies.databasesUnchanged && !hasDrift registry manifest live then (live, .skippedUnchanged)
  else if !(replies.exported && preflightRestoreAbsence registry manifest restoreAbsence live &&
      replies.stopped) then
    (live, if replies.unitsRestored then .failedBeforeApply else .manualRecoveryRequired)
  else
    let rollback := exportBundle registry live true
    let (live, finished) := restoreForward registry manifest restoreAbsence replies live
    if finished then (live, .committed)
    else if !replies.rollingBackRecorded then (live, .stateApplied)
    else rollBack registry replies rollback live

end

end NixNas.State
