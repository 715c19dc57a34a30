import NixNas.Backup.NativeDump
import NixNas.Systemd.Dropin

/-!
# Preparing and cleaning a backup (`prepare` and `cleanup` of `services/nas_v2_backup.py`)

The runtime state lists the snapshots that were taken and the native dumps that were started.  Every
external command and every write is one step, and the process can be killed between any two steps.
-/

namespace NixNas.Backup

structure Snapshot where
  dataset : Text
  name : Text
  deriving DecidableEq, Repr

structure PendingDump extends NativeDump where
  source : Text
  deriving DecidableEq, Repr

structure RuntimeState where
  snapshots : List Snapshot
  nativeDumps : List PendingDump
  deriving DecidableEq, Repr

/-- A resource of the inventory, by its consistency. -/
inductive Resource where
  /-- "filesystem", "none". -/
  | direct (path : Text)
  | nativeDump (entry : PendingDump)
  | zfsSnapshot (dataset path : Text)
  deriving DecidableEq, Repr

/-- `str(PurePosixPath(path) / ".zfs" / "snapshot" / name)`. -/
def snapshotPath (path name : Text) : Text :=
  let root := Systemd.posixPath path
  { root with parts := root.parts ++ [".zfs".toList, "snapshot".toList, name] : Systemd.PosixPath }.text

/-- `sorted(set(runtime_paths))`. -/
def sortedPaths (paths : List Text) : List Text := paths.dedup.insertionSort fun a b ↦ a ≤ b

/-- The variables of `prepare`. -/
structure Preparing where
  inventory : List Resource
  /-- The resources that are still to be prepared. -/
  resources : List Resource
  runtimePaths : List Text
  /-- `dataset_mountpoints`: what `zfs get` has answered. -/
  mountpoints : List (Text × Text)
  /-- `snapshots_by_dataset`, with the paths of the snapshots. -/
  datasets : List (Text × Text)
  /-- `snapshots` and `native_dumps`. -/
  lists : RuntimeState
  deriving DecidableEq

/-- The variables of a cleanup, and of the one behind a failing `prepare`. -/
structure Cleaning where
  onError : Bool
  snapshots : List Snapshot
  nativeDumps : List PendingDump
  remaining : RuntimeState
  failed : Bool
  deriving DecidableEq

inductive Stage where
  | idle
  | resource (p : Preparing) (r : Resource)
  | getMountpoint (p : Preparing) (dataset path : Text)
  | listSnapshot (p : Preparing) (s : Snapshot) (path : Text)
  | takeSnapshot (p : Preparing) (s : Snapshot) (path : Text)
  | listDump (p : Preparing) (d : PendingDump)
  | restartUnit (p : Preparing) (d : PendingDump)
  | refreshDump (p : Preparing) (d : PendingDump)
  | writePaths (p : Preparing)
  | writeState (p : Preparing)
  | destroy (c : Cleaning) (s : Snapshot)
  | probe (c : Cleaning) (s : Snapshot)
  | unlistSnapshot (c : Cleaning)
  | stopUnit (c : Cleaning) (d : PendingDump)
  | removeArtifact (c : Cleaning) (d : PendingDump)
  | unlistDump (c : Cleaning)
  | unlinkPaths (c : Cleaning)
  | finish (c : Cleaning)
  | unlinkLast
  deriving DecidableEq

def Preparing.next (p : Preparing) : Stage :=
  match p.resources with
  | r :: rest => .resource { p with resources := rest } r
  | [] => .writePaths p

/-- The next snapshot, or else the next dump, each from the last one on. -/
def Cleaning.next (c : Cleaning) : Stage :=
  match c.snapshots, c.nativeDumps with
  | s :: rest, _ => .destroy { c with snapshots := rest } s
  | [], d :: rest => .stopUnit { c with nativeDumps := rest } d
  | [], [] => if c.onError then .unlinkPaths c else .finish c

def Cleaning.fail (c : Cleaning) : Stage := { c with failed := true }.next

def cleaning (onError : Bool) (lists : RuntimeState) : Stage :=
  Cleaning.next ⟨onError, lists.snapshots.reverse, lists.nativeDumps.reverse, lists, false⟩

/-- The `except` of `prepare`. -/
def Preparing.raise (p : Preparing) : Stage := cleaning true p.lists

/-- How a command or a write ends; one that fails can have had its effect. -/
inductive Reply where
  | ok
  | failed (applied : Bool)
  deriving DecidableEq, Repr

def Reply.applied : Reply → Bool
  | .ok => true
  | .failed applied => applied

def Reply.isOk : Reply → Bool
  | .ok => true
  | .failed _ => false

structure World where
  /-- The snapshots that `prepare` has created and that are there. -/
  created : List Snapshot
  /-- The dumps whose units have been started and whose artifacts have not been removed. -/
  started : List PendingDump
  state : Option RuntimeState
  paths : Option (List Text)
  stage : Stage
  deriving DecidableEq

def World.initial : World := ⟨[], [], none, none, .idle⟩

inductive Event where
  | prepare (resources : List Resource)
  | cleanup
  /-- The checks of a resource go through or raise; a new snapshot would get the name. -/
  | resource (name : Text) (passes : Bool)
  /-- `zfs get` answers or fails. -/
  | mountpoint (name : Text) (answer : Option Text)
  | reply (r : Reply)
  | kill
  deriving DecidableEq

/-- A dataset with its mountpoint, which must be the path of the resource. -/
def takeDataset (p : Preparing) (name dataset path mountpoint : Text) : Stage :=
  if mountpoint ≠ path then p.raise
  else
    match p.datasets.lookup dataset with
    | some snapshot => { p with runtimePaths := p.runtimePaths ++ [snapshot] }.next
    | none => .listSnapshot
        { p with lists := { p.lists with snapshots := p.lists.snapshots ++ [⟨dataset, name⟩] } }
        ⟨dataset, name⟩ path

def takeResource (p : Preparing) (name : Text) : Resource → Stage
  | .direct path => { p with runtimePaths := p.runtimePaths ++ [path] }.next
  | .nativeDump d => .listDump
      { p with lists := { p.lists with nativeDumps := p.lists.nativeDumps ++ [d] } } d
  | .zfsSnapshot dataset path =>
    match p.mountpoints.lookup dataset with
    | some mountpoint => takeDataset p name dataset path mountpoint
    | none => .getMountpoint p dataset path

def stepReply (w : World) (r : Reply) : Option World :=
  let persisted (state : Option RuntimeState) : Option RuntimeState :=
    if r.applied then state else w.state
  match w.stage with
  | .idle | .resource _ _ | .getMountpoint _ _ _ => none
  | .listSnapshot p s path => some { w with
      state := persisted (some p.lists)
      stage := if r.isOk then .takeSnapshot p s path else p.raise }
  | .takeSnapshot p s path => some { w with
      created := if r.applied then s :: w.created else w.created
      stage :=
        if r.isOk then
          Preparing.next { p with
            runtimePaths := p.runtimePaths ++ [snapshotPath path s.name]
            datasets := (s.dataset, snapshotPath path s.name) :: p.datasets }
        else p.raise }
  | .listDump p d => some { w with
      state := persisted (some p.lists)
      stage := if r.isOk then .restartUnit p d else p.raise }
  | .restartUnit p d => some { w with
      started := if r.applied then d :: w.started else w.started
      stage := if r.isOk then .refreshDump p d else p.raise }
  | .refreshDump p d => some { w with
      state := persisted (some p.lists)
      stage :=
        if r.isOk then Preparing.next { p with runtimePaths := p.runtimePaths ++ [d.artifactPath] }
        else p.raise }
  | .writePaths p => some { w with
      paths := if r.applied then some (sortedPaths p.runtimePaths) else w.paths
      stage := if r.isOk then .writeState p else p.raise }
  | .writeState p => some { w with
      state := persisted (some p.lists)
      stage := if r.isOk then .idle else p.raise }
  | .destroy c s => some { w with
      created := if r.applied then w.created.filter (· ≠ s) else w.created
      stage :=
        if r.isOk then
          .unlistSnapshot { c with
            remaining := { c.remaining with snapshots := c.remaining.snapshots.erase s } }
        else .probe c s }
  | .probe c s => some { w with
      stage :=
        if r.isOk && decide (s ∉ w.created) then
          .unlistSnapshot { c with
            remaining := { c.remaining with snapshots := c.remaining.snapshots.erase s } }
        else c.fail }
  | .unlistSnapshot c => some { w with
      state := persisted (some c.remaining)
      stage := if r.isOk then c.next else .idle }
  | .stopUnit c d => some { w with stage := if r.isOk then .removeArtifact c d else c.fail }
  | .removeArtifact c d => some { w with
      started := if r.applied then w.started.filter (·.artifactPath ≠ d.artifactPath) else w.started
      stage :=
        if r.isOk then
          .unlistDump { c with
            remaining := { c.remaining with nativeDumps := c.remaining.nativeDumps.erase d } }
        else c.fail }
  | .unlistDump c => some { w with
      state := persisted (some c.remaining)
      -- only the cleanup behind `prepare` goes on where the file cannot be written
      stage := if r.isOk then c.next else if c.onError then c.fail else .idle }
  | .unlinkPaths c => some { w with
      paths := if r.applied then none else w.paths
      stage := if r.isOk then .finish c else .idle }
  | .finish c =>
    if c.failed then some { w with state := persisted (some c.remaining), stage := .idle }
    else some { w with
      state := persisted none
      stage := if r.isOk && !c.onError then .unlinkLast else .idle }
  | .unlinkLast => some { w with paths := if r.applied then none else w.paths, stage := .idle }

/-- What is left of an earlier backup is in the way of a new one. -/
def priorState (state : Option RuntimeState) : Bool :=
  state.any fun lists ↦ !(lists.snapshots.isEmpty && lists.nativeDumps.isEmpty)

/-- `prepare` and `cleanup` run one after the other. -/
def step (w : World) : Event → Option World
  | .prepare resources =>
    match w.stage with
    | .idle =>
      if priorState w.state then some w
      else some { w with stage := Preparing.next ⟨resources, resources, [], [], [], ⟨[], []⟩⟩ }
    | _ => none
  | .cleanup =>
    match w.stage, w.state with
    | .idle, none => some { w with stage := .unlinkLast }
    | .idle, some lists => some { w with stage := cleaning false lists }
    | _, _ => none
  | .resource name passes =>
    match w.stage with
    | .resource p r => some { w with stage := if passes then takeResource p name r else p.raise }
    | _ => none
  | .mountpoint name answer =>
    match w.stage, answer with
    | .getMountpoint p _ _, none => some { w with stage := p.raise }
    | .getMountpoint p dataset path, some mountpoint => some { w with
        stage := takeDataset { p with mountpoints := (dataset, mountpoint) :: p.mountpoints } name
          dataset path mountpoint }
    | _, _ => none
  | .reply r => stepReply w r
  | .kill => some { w with stage := .idle }

end NixNas.Backup
