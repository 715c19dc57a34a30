import NixNas.Backup.NativeDump
import NixNas.Lib.Admission
import NixNas.Lib.Precedence
import NixNas.Spec.Equality

/-!
# The inventory of a backup (`services/nas_v2_backup.py`)

One loop over the resources of a backup collects what Restic is going to read.  It refuses shared
datasets, shared paths and shared sources.  The path of a dump's artifact is kept among the sources
only, so a later resource may stand at it.
-/

open Fallible Admission Precedence Relation NixNas.Spec NixNas.Authentik

namespace NixNas.Backup

variable {F : Type}

inductive Consistency where
  | filesystem | zfsSnapshot | nativeDump | none
  deriving DecidableEq, Repr

/-- `BackupProjectionError`; `unhashable` is the `TypeError` of an array or an object in a set. -/
inductive BackupError where
  | schemaVersion
  | metadata
  | identity
  | missing (id : Text)
  | invalid (id : Text)
  | unsafePath (id : Text)
  | unhashable
  | unsupportedConsistency (id : Text)
  | dataset (id : Text)
  | sharedDataset (dataset : Text)
  | sharedPath (path : Text)
  | nativeDump (error : NativeDumpError)
  | sharedSource (path : Text)
  | unsafeArtifact (id : Text)
  | sharedArtifact (path : Text)
  | artifactIsPath (path : Text)
  deriving DecidableEq, Repr

/-- The head of the loop's body: what one resource says of itself. -/
structure Head (F : Type) where
  id : Text
  resource : Object F
  path : Text
  consistency : Consistency

def readConsistency (id : Text) (value : Plain F) : Except BackupError Consistency :=
  match value with
  | .scalar _ =>
    if isText value "filesystem" then .ok .filesystem
    else if isText value "zfs-snapshot" then .ok .zfsSnapshot
    else if isText value "native-dump" then .ok .nativeDump
    else if isText value "none" then .ok .none
    else .error (.unsupportedConsistency id)
  | _ => .error .unhashable

def readHead (resources : Object F) : Plain F → Except BackupError (Head F)
  | .scalar (.string id) =>
    match find id resources with
    | some (.object resource) =>
      match find "backup".toList resource with
      | some (.object backup) =>
        match validateAbsolutePath (find "path".toList resource) with
        | some path => do
          let consistency ← readConsistency id (getOr "consistency" (text "filesystem") backup)
          .ok ⟨id, resource, path, consistency⟩
        | none => .error (.unsafePath id)
      | _ => .error (.invalid id)
    | _ => .error (.missing id)
  | _ => .error .identity

def datasetOf (head : Head F) : Except BackupError (Option Text) :=
  if head.consistency = .zfsSnapshot then
    match textAt "dataset" head.resource with
    | some dataset => if dataset = [] then .error (.dataset head.id) else .ok (some dataset)
    | none => .error (.dataset head.id)
  else .ok none

def dumpOf (effective : Object F) (head : Head F) : Except BackupError (Option NativeDump) :=
  if head.consistency = .nativeDump then
    ((resolveNativeDump effective head.id).mapError .nativeDump).map some
  else .ok none

def Head.direct (head : Head F) : Option Text :=
  if head.consistency = .filesystem ∨ head.consistency = .none then some head.path else none

structure Entry (F : Type) where
  id : Text
  path : Text
  dataset : Option (Plain F)
  scope : Plain F
  stateClass : Option (Plain F)
  consistency : Consistency
  resticSource : Option Text
  nativeDump : Option NativeDump

def inventoryEntry (head : Head F) (dump : Option NativeDump) : Entry F where
  id := head.id
  path := head.path
  dataset := find "dataset".toList head.resource
  scope := getOr "scope" (text "system") head.resource
  stateClass := find "stateClass".toList head.resource
  consistency := head.consistency
  resticSource := head.direct
  nativeDump := dump

structure Progress (F : Type) where
  inventory : List (Entry F)
  directPaths : List Text
  seenPaths : List Text
  seenDatasets : List Text
  seenResticSources : List Text

def Progress.start : Progress F := ⟨[], [], [], [], []⟩

def addDataset (dataset : Option Text) (s : Progress F) : Except BackupError (Progress F) :=
  match dataset with
  | some dataset =>
    if dataset ∈ s.seenDatasets then .error (.sharedDataset dataset)
    else .ok { s with seenDatasets := dataset :: s.seenDatasets }
  | none => .ok s

def addPath (path : Text) (s : Progress F) : Except BackupError (Progress F) :=
  if path ∈ s.seenPaths then .error (.sharedPath path)
  else .ok { s with seenPaths := path :: s.seenPaths }

def addDirect (source : Option Text) (s : Progress F) : Except BackupError (Progress F) :=
  match source with
  | some path =>
    if path ∈ s.seenResticSources then .error (.sharedSource path)
    else .ok { s with
      seenResticSources := path :: s.seenResticSources
      directPaths := s.directPaths ++ [path] }
  | none => .ok s

/-- The artifact is looked for among the paths, but is not put among them. -/
def addArtifact (id : Text) (dump : Option NativeDump) (s : Progress F) :
    Except BackupError (Progress F) :=
  match dump with
  | some dump =>
    match validateAbsolutePath (F := F) (some (.scalar (.string dump.artifactPath))) with
    | some path =>
      if path ∈ s.seenResticSources then .error (.sharedArtifact path)
      else if path ∈ s.seenPaths then .error (.artifactIsPath path)
      else .ok { s with seenResticSources := path :: s.seenResticSources }
    | none => .error (.unsafeArtifact id)
  | none => .ok s

def compileResource (effective resources : Object F) (s : Progress F) (item : Plain F) :
    Except BackupError (Progress F) := do
  let head ← readHead resources item
  let dataset ← datasetOf head
  let s ← addDataset dataset s
  let s ← addPath head.path s
  let dump ← dumpOf effective head
  let s ← addDirect head.direct s
  let s ← addArtifact head.id dump s
  .ok { s with inventory := s.inventory ++ [inventoryEntry head dump] }

/-- The inventory and the list of the direct paths. -/
structure Projection (F : Type) where
  inventory : List (Entry F)
  pathList : List Text

/-- `derived.backupResources`. -/
def backupIds (effective : Object F) : Option (List (Plain F)) :=
  match find "backupResources".toList (asObject (find "derived".toList effective)) with
  | some (.array items) => some items
  | _ => none

def hasSchemaVersion (float : FloatEq F) (effective : Object F) : Bool :=
  (find "schemaVersion".toList effective).any (eq float · (number 3))

def compileBackupProjection (float : FloatEq F) (effective : Object F) :
    Except BackupError (Projection F) :=
  if !hasSchemaVersion float effective then .error .schemaVersion
  else match find "storageResources".toList effective, backupIds effective with
  | some (.object resources), some items => do
    let s ← items.foldlM (compileResource effective resources) .start
    .ok ⟨s.inventory, s.directPaths.insertionSort (· ≤ ·)⟩
  | _, _ => .error .metadata

end NixNas.Backup
