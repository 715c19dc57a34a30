import Mathlib.Data.List.Forall2
import NixNas.Backup.Bookkeeping
import NixNas.Lib.Association
import NixNas.Lib.Fallible

/-!
# What a prepared backup reads

When a preparation is done, every resource of the inventory has a path that the backup reads, and
the snapshot or the dump behind the path is there.  A snapshot is read below the mountpoint that
`zfs get` has answered for its dataset, which is the path of the resource.
-/

open Transition

namespace NixNas.Backup

/-- The path is that of a snapshot of the dataset, below its mountpoint. -/
def InSnapshot (mountpoints : List (Text × Text)) (created : List Snapshot) (dataset read : Text) :
    Prop :=
  ∃ s ∈ created, s.dataset = dataset ∧
    ∃ mountpoint, mountpoints.lookup dataset = some mountpoint ∧ read = snapshotPath mountpoint s.name

def Reads (mountpoints : List (Text × Text)) (created : List Snapshot) (started : List PendingDump) :
    Resource → Text → Prop
  | .direct path, read => read = path
  | .nativeDump d, read => read = d.artifactPath ∧ d ∈ started
  | .zfsSnapshot dataset path, read =>
    mountpoints.lookup dataset = some path ∧ InSnapshot mountpoints created dataset read

structure Prepared (p : Preparing) (current : List Resource) (created : List Snapshot)
    (started : List PendingDump) : Prop where
  paths : ∃ done, p.inventory = done ++ current ++ p.resources ∧
    List.Forall₂ (Reads p.mountpoints created started) done p.runtimePaths
  datasets : ∀ e ∈ p.datasets, InSnapshot p.mountpoints created e.1 e.2

/-- What a stage of `prepare` knows of the paths. -/
def PathsOk (paths : Option (List Text)) (created : List Snapshot) (started : List PendingDump) :
    Stage → Prop
  | .resource p r => Prepared p [r] created started
  | .getMountpoint p dataset path =>
    Prepared p [.zfsSnapshot dataset path] created started ∧ p.mountpoints.lookup dataset = none
  | .listSnapshot p s path | .takeSnapshot p s path =>
    Prepared p [.zfsSnapshot s.dataset path] created started ∧
      p.mountpoints.lookup s.dataset = some path
  | .listDump p d | .restartUnit p d => Prepared p [.nativeDump d] created started
  | .refreshDump p d => Prepared p [.nativeDump d] created started ∧ d ∈ started
  | .writePaths p => Prepared p [] created started ∧ p.resources = []
  | .writeState p => Prepared p [] created started ∧ p.resources = [] ∧
      paths = some (sortedPaths p.runtimePaths)
  | _ => True

variable {w w' : World} {event : Event} {r : Reply} {paths : Option (List Text)}
  {created created' : List Snapshot} {started started' : List PendingDump} {p : Preparing}
  {c : Cleaning} {resource : Resource} {current : List Resource} {path dataset mountpoint : Text}
  {mountpoints : List (Text × Text)}
variable {other name : Text}

theorem InSnapshot.mono (h : InSnapshot mountpoints created dataset path)
    (hcreated : created ⊆ created') : InSnapshot mountpoints created' dataset path := by
  obtain ⟨s, hs, hread⟩ := h
  exact ⟨s, hcreated hs, hread⟩

theorem Reads.mono (h : Reads mountpoints created started resource path)
    (hcreated : created ⊆ created') (hstarted : started ⊆ started') :
    Reads mountpoints created' started' resource path := by
  cases resource with
  | direct q => exact h
  | nativeDump d => exact ⟨h.1, hstarted h.2⟩
  | zfsSnapshot dataset q => exact ⟨h.1, h.2.mono hcreated⟩

theorem lookup_answered (hnone : mountpoints.lookup dataset = none)
    (h : mountpoints.lookup other = some path) :
    ((dataset, mountpoint) :: mountpoints).lookup other = some path := by
  have hne : other ≠ dataset := by
    rintro rfl
    rw [hnone] at h
    cases h
  rw [List.lookup_cons, beq_false_of_ne hne]
  exact h

theorem InSnapshot.answered (hnone : mountpoints.lookup dataset = none)
    (h : InSnapshot mountpoints created other path) :
    InSnapshot ((dataset, mountpoint) :: mountpoints) created other path := by
  obtain ⟨s, hs, hdataset, found, hfound, hread⟩ := h
  exact ⟨s, hs, hdataset, found, lookup_answered hnone hfound, hread⟩

theorem Reads.answered (hnone : mountpoints.lookup dataset = none)
    (h : Reads mountpoints created started resource path) :
    Reads ((dataset, mountpoint) :: mountpoints) created started resource path := by
  cases resource with
  | direct | nativeDump => exact h
  | zfsSnapshot other q => exact ⟨lookup_answered hnone h.1, h.2.answered hnone⟩

theorem Prepared.mono (h : Prepared p current created started) (hcreated : created ⊆ created')
    (hstarted : started ⊆ started') : Prepared p current created' started' where
  paths := by
    obtain ⟨done, hinventory, hdone⟩ := h.paths
    exact ⟨done, hinventory, hdone.imp fun _ _ hread => hread.mono hcreated hstarted⟩
  datasets := fun e he => (h.datasets e he).mono hcreated

/-- `zfs get` has answered for a new dataset. -/
theorem Prepared.answered (h : Prepared p current created started)
    (hnone : p.mountpoints.lookup dataset = none) :
    Prepared { p with mountpoints := (dataset, mountpoint) :: p.mountpoints } current created
      started where
  paths := by
    obtain ⟨done, hinventory, hdone⟩ := h.paths
    exact ⟨done, hinventory, hdone.imp fun _ _ hread => hread.answered hnone⟩
  datasets := fun e he => (h.datasets e he).answered hnone

theorem Prepared.next (h : Prepared p [resource] created started)
    (hread : Reads p.mountpoints created started resource path) :
    PathsOk paths created started
      (Preparing.next { p with runtimePaths := p.runtimePaths ++ [path] }) := by
  obtain ⟨done, hinventory, hdone⟩ := h.paths
  have hpaths : List.Forall₂ (Reads p.mountpoints created started) (done ++ [resource])
      (p.runtimePaths ++ [path]) := List.rel_append hdone (.cons hread .nil)
  unfold Preparing.next
  dsimp only
  cases hrest : p.resources with
  | cons r rest =>
    refine ⟨⟨done ++ [resource], ?_, hpaths⟩, h.datasets⟩
    rw [hinventory, hrest]
    simp
  | nil =>
    refine ⟨⟨⟨done ++ [resource], ?_, hpaths⟩, h.datasets⟩, rfl⟩
    rw [hinventory, hrest]
    simp

theorem pathsOk_cleaning : PathsOk paths created started c.next := by
  unfold Cleaning.next
  split
  · trivial
  · trivial
  · split
    · trivial
    · trivial

theorem pathsOk_raise : PathsOk paths created started p.raise := pathsOk_cleaning

theorem pathsOk_start (resources : List Resource) :
    PathsOk paths created started (Preparing.next ⟨resources, resources, [], [], [], ⟨[], []⟩⟩) := by
  unfold Preparing.next
  cases resources with
  | nil => exact ⟨⟨⟨[], rfl, .nil⟩, nofun⟩, rfl⟩
  | cons r rest => exact ⟨⟨[], rfl, .nil⟩, nofun⟩

theorem pathsOk_dataset (h : Prepared p [.zfsSnapshot dataset path] created started)
    (hmountpoint : p.mountpoints.lookup dataset = some mountpoint) :
    PathsOk paths created started (takeDataset p name dataset path mountpoint) := by
  unfold takeDataset
  split
  · exact pathsOk_raise
  · rename_i hsame
    rw [not_not] at hsame
    subst hsame
    split
    · rename_i snapshot hlookup
      exact h.next ⟨hmountpoint, h.datasets _ (Association.mem_of_lookup hlookup)⟩
    · exact ⟨⟨h.paths, h.datasets⟩, hmountpoint⟩

theorem pathsOk_take (h : Prepared p [resource] created started) :
    PathsOk paths created started (takeResource p name resource) := by
  cases resource with
  | direct path => exact h.next rfl
  | nativeDump d => exact ⟨h.paths, h.datasets⟩
  | zfsSnapshot dataset path =>
    unfold takeResource
    dsimp only
    split
    · rename_i mountpoint hmountpoint
      exact pathsOk_dataset h hmountpoint
    · rename_i hnone
      exact ⟨h, hnone⟩

theorem ite_pathsOk {a b : Stage} {q : Prop} [Decidable q] (ha : PathsOk paths created started a)
    (hb : PathsOk paths created started b) : PathsOk paths created started (if q then a else b) := by
  split
  · exact ha
  · exact hb

theorem pathsOk_reply (h : PathsOk w.paths w.created w.started w.stage) (hstep : stepReply w r = some w') :
    PathsOk w'.paths w'.created w'.started w'.stage := by
  unfold stepReply at hstep
  cases hw : w.stage <;> rw [hw] at hstep h <;> dsimp only at hstep
  case idle => cases hstep
  case resource => cases hstep
  case getMountpoint => cases hstep
  case listSnapshot p s path =>
    obtain rfl := Option.some.inj hstep
    exact ite_pathsOk h pathsOk_raise
  case takeSnapshot p s path =>
    obtain rfl := Option.some.inj hstep
    cases r with
    | ok =>
      -- the snapshot is one of the dataset, and its path lies below the mountpoint
      obtain ⟨hprepared, hmountpoint⟩ := h
      have htaken : Prepared p [.zfsSnapshot s.dataset path] (s :: w.created) w.started :=
        hprepared.mono (List.subset_cons_self s _) (List.Subset.refl _)
      have hread : InSnapshot p.mountpoints (s :: w.created) s.dataset (snapshotPath path s.name) :=
        ⟨s, List.mem_cons_self, rfl, path, hmountpoint, rfl⟩
      have hlisted : Prepared
          { p with datasets := (s.dataset, snapshotPath path s.name) :: p.datasets }
          [.zfsSnapshot s.dataset path] (s :: w.created) w.started :=
        ⟨htaken.paths, List.forall_mem_cons.mpr ⟨hread, htaken.datasets⟩⟩
      exact hlisted.next ⟨hmountpoint, hread⟩
    | failed applied => exact pathsOk_raise
  case listDump p d =>
    obtain rfl := Option.some.inj hstep
    exact ite_pathsOk h pathsOk_raise
  case restartUnit p d =>
    obtain rfl := Option.some.inj hstep
    cases r with
    | ok =>
      exact ⟨h.mono (List.Subset.refl _) (List.subset_cons_self d _), List.mem_cons_self⟩
    | failed applied => exact pathsOk_raise
  case refreshDump p d =>
    obtain rfl := Option.some.inj hstep
    exact ite_pathsOk (h.1.next ⟨rfl, h.2⟩) pathsOk_raise
  case writePaths p =>
    obtain rfl := Option.some.inj hstep
    cases r with
    | ok => exact ⟨h.1, h.2, rfl⟩
    | failed applied => exact pathsOk_raise
  case writeState p =>
    obtain rfl := Option.some.inj hstep
    exact ite_pathsOk trivial pathsOk_raise
  case destroy c s =>
    obtain rfl := Option.some.inj hstep
    exact ite_pathsOk trivial trivial
  case probe c s =>
    obtain rfl := Option.some.inj hstep
    exact ite_pathsOk trivial pathsOk_cleaning
  case unlistSnapshot c =>
    obtain rfl := Option.some.inj hstep
    exact ite_pathsOk pathsOk_cleaning trivial
  case stopUnit c d =>
    obtain rfl := Option.some.inj hstep
    exact ite_pathsOk trivial pathsOk_cleaning
  case removeArtifact c d =>
    obtain rfl := Option.some.inj hstep
    exact ite_pathsOk trivial pathsOk_cleaning
  case unlistDump c =>
    obtain rfl := Option.some.inj hstep
    exact ite_pathsOk pathsOk_cleaning (ite_pathsOk pathsOk_cleaning trivial)
  case unlinkPaths c =>
    obtain rfl := Option.some.inj hstep
    exact ite_pathsOk trivial trivial
  case finish c =>
    split at hstep
    · obtain rfl := Option.some.inj hstep
      trivial
    · obtain rfl := Option.some.inj hstep
      exact ite_pathsOk trivial trivial
  case unlinkLast =>
    obtain rfl := Option.some.inj hstep
    trivial

theorem pathsOk_step (h : PathsOk w.paths w.created w.started w.stage) (hstep : step w event = some w') :
    PathsOk w'.paths w'.created w'.started w'.stage := by
  cases event with
  | prepare resources =>
    unfold step at hstep
    dsimp only at hstep
    split at hstep
    · split at hstep
      · obtain rfl := Option.some.inj hstep
        exact h
      · obtain rfl := Option.some.inj hstep
        exact pathsOk_start resources
    · cases hstep
  | cleanup =>
    unfold step at hstep
    dsimp only at hstep
    split at hstep
    · obtain rfl := Option.some.inj hstep
      trivial
    · obtain rfl := Option.some.inj hstep
      exact pathsOk_cleaning
    · cases hstep
  | resource name passes =>
    unfold step at hstep
    dsimp only at hstep
    split at hstep
    · rename_i p resource hw
      rw [hw] at h
      obtain rfl := Option.some.inj hstep
      exact ite_pathsOk (pathsOk_take h) pathsOk_raise
    · cases hstep
  | mountpoint name answer =>
    unfold step at hstep
    dsimp only at hstep
    split at hstep
    · obtain rfl := Option.some.inj hstep
      exact pathsOk_raise
    · rename_i hw
      rw [hw] at h
      obtain rfl := Option.some.inj hstep
      exact pathsOk_dataset (h.1.answered h.2) List.lookup_cons_self
    · cases hstep
  | reply r => exact pathsOk_reply h hstep
  | kill =>
    obtain rfl := Option.some.inj hstep
    trivial

theorem mem_sortedPaths {q : List Text} : path ∈ sortedPaths q ↔ path ∈ q := by
  unfold sortedPaths
  rw [List.mem_insertionSort, List.mem_dedup]

/-- When a preparation comes to its end, the file of paths has a path for every resource of the
inventory and no other: the path of a filesystem, the artifact of a dump whose unit has been started,
or, for a dataset, the place of a snapshot of it that was created and is there, below the mountpoint
that was answered for the dataset and is the path of the resource. -/
theorem readable_of_reachable (h : Reachable (fun w event w' ↦ step w event = some w') .initial w)
    (hstage : w.stage = .writeState p) :
    ∃ paths, w.paths = some paths ∧
      (∀ r ∈ p.inventory, ∃ path ∈ paths, Reads p.mountpoints w.created w.started r path) ∧
      ∀ path ∈ paths, ∃ r ∈ p.inventory, Reads p.mountpoints w.created w.started r path := by
  have hpaths : PathsOk w.paths w.created w.started w.stage :=
    h.invariant trivial fun _ _ _ => pathsOk_step
  rw [hstage] at hpaths
  obtain ⟨hprepared, hresources, hwritten⟩ := hpaths
  obtain ⟨done, hinventory, hdone⟩ := hprepared.paths
  rw [hresources, List.append_nil, List.append_nil] at hinventory
  rw [← hinventory] at hdone
  refine ⟨_, hwritten, fun r hr => ?_, fun path hpath => ?_⟩
  · obtain ⟨path, hpath, hread⟩ := Fallible.exists_right hdone hr
    exact ⟨path, mem_sortedPaths.mpr hpath, hread⟩
  · obtain ⟨r, hr, hread⟩ := Fallible.exists_left hdone (mem_sortedPaths.mp hpath)
    exact ⟨r, hr, hread⟩

def demoInventory : List Resource := [.direct "/etc".toList, demoResource, demoResource]

def demoPrepared : List Event :=
  [.prepare demoInventory, .resource [] true, .resource "nightly".toList true,
    .mountpoint "nightly".toList (some "/tank/data".toList), .reply .ok, .reply .ok,
    .resource "later".toList true, .reply .ok]

def demoDone : Preparing :=
  let snapshot := "/tank/data/.zfs/snapshot/nightly".toList
  ⟨demoInventory, [], ["/etc".toList, snapshot, snapshot],
    [("tank/data".toList, "/tank/data".toList)], [("tank/data".toList, snapshot)],
    ⟨[⟨"tank/data".toList, "nightly".toList⟩], []⟩⟩

theorem readable_of_reachable_demo : ∃ w, demoPrepared.foldlM step .initial = some w ∧
    w.stage = .writeState demoDone ∧ ∃ paths, w.paths = some paths ∧
      ∃ path ∈ paths, Reads demoDone.mountpoints w.created w.started demoResource path := by
  have hrun : (demoPrepared.foldlM step .initial).map World.stage = some (.writeState demoDone) := by
    decide +kernel
  obtain ⟨w, hw, hstage⟩ := Option.map_eq_some_iff.mp hrun
  obtain ⟨paths, hpaths, hread, -⟩ :=
    readable_of_reachable ⟨demoPrepared, run_of_foldlM hw⟩ hstage
  exact ⟨w, hw, hstage, paths, hpaths,
    hread demoResource (List.mem_cons_of_mem _ List.mem_cons_self)⟩

end NixNas.Backup
