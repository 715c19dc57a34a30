import NixNas.Backup.Projection

/-!
# Each backup source has one owner

Whether two resources of a backup get along depends on their order in one way only: a dump whose
artifact is the path of a snapshot or of another dump passes where it stands before that resource.
-/

open Fallible Admission Precedence Relation NixNas.Spec NixNas.Authentik

namespace NixNas.Backup

variable {F : Type}
variable {effective resources : Object F} {item : Plain F} {float : FloatEq F}
  {items items' : List (Plain F)}

structure Source (F : Type) where
  head : Head F
  dataset : Option Text
  dump : Option NativeDump

def Source.path (a : Source F) : Text := a.head.path

def Source.direct (a : Source F) : Option Text := a.head.direct

def Source.artifact (a : Source F) : Option Text := a.dump.map (·.artifactPath)

def Source.entry (a : Source F) : Entry F := inventoryEntry a.head a.dump

def checkedSource (effective resources : Object F) (item : Plain F) : Except BackupError (Source F) := do
  let head ← readHead resources item
  let dataset ← datasetOf head
  let dump ← dumpOf effective head
  .ok ⟨head, dataset, dump⟩

def source (effective resources : Object F) (item : Plain F) : Option (Source F) :=
  (checkedSource effective resources item).toOption

/-- The later resource finds nothing of the earlier one in its way. -/
structure Clear (b a : Source F) : Prop where
  dataset : ∀ d, a.dataset = some d → b.dataset ≠ some d
  path : b.path ≠ a.path
  direct : ∀ p, a.direct = some p → b.direct ≠ some p ∧ b.artifact ≠ some p
  artifact : ∀ x, a.artifact = some x → b.direct ≠ some x ∧ b.artifact ≠ some x ∧ b.path ≠ x

/-- What has to hold of two resources in whatever order they stand. -/
structure Apart (b a : Source F) : Prop where
  dataset : ∀ d, a.dataset = some d → b.dataset ≠ some d
  path : b.path ≠ a.path
  artifacts : ∀ x, a.artifact = some x → b.artifact ≠ some x
  direct : ∀ p, a.direct = some p → b.artifact ≠ some p
  direct' : ∀ p, b.direct = some p → a.artifact ≠ some p

/-- The dump of `a` is written to the path of `b`, a snapshot or a dump itself. -/
def Feeds (a b : Source F) : Prop := a.artifact = some b.path ∧ b.direct = none

variable {a b : Source F} {before srcs srcs' : List (Source F)}

theorem Source.path_of_direct {p : Text} (h : a.direct = some p) : a.path = p := by
  unfold Source.direct Head.direct at h
  split at h
  · exact Option.some.inj h
  · cases h

theorem Apart.symm (h : Apart b a) : Apart a b where
  dataset d hb ha := h.dataset d ha hb
  path := h.path.symm
  artifacts x hb ha := h.artifacts x ha hb
  direct p hb ha := h.direct' p hb ha
  direct' p ha hb := h.direct p ha hb

theorem clear_iff : Clear b a ↔ Apart b a ∧ ¬ Feeds a b := by
  constructor
  · intro h
    constructor
    · exact ⟨h.dataset, h.path, fun x hx => (h.artifact x hx).2.1, fun p hp => (h.direct p hp).2,
        fun p hp ha => (h.artifact p ha).1 hp⟩
    · intro hfeeds
      exact (h.artifact _ hfeeds.1).2.2 rfl
  · intro ⟨h, hfeeds⟩
    refine ⟨h.dataset, h.path, ?_, ?_⟩
    · intro p hp
      refine ⟨?_, h.direct p hp⟩
      intro hb
      exact h.path ((Source.path_of_direct hb).trans (Source.path_of_direct hp).symm)
    · intro x hx
      refine ⟨fun hb => h.direct' x hb hx, h.artifacts x hx, ?_⟩
      intro hpath
      -- a path that is read as it is counts among the sources as well
      cases hdirect : b.direct with
      | none =>
        rw [← hpath] at hx
        exact hfeeds ⟨hx, hdirect⟩
      | some p =>
        have hp : p = x := (Source.path_of_direct hdirect).symm.trans hpath
        rw [hp] at hdirect
        exact h.direct' x hdirect hx

/-! ## The loop -/

structure Tracks (s : Progress F) (before : List (Source F)) : Prop where
  paths : ∀ p, p ∈ s.seenPaths ↔ ∃ c ∈ before, c.path = p
  datasets : ∀ d, d ∈ s.seenDatasets ↔ ∃ c ∈ before, c.dataset = some d
  sources : ∀ p, p ∈ s.seenResticSources ↔ ∃ c ∈ before, c.direct = some p ∨ c.artifact = some p
  inventory : s.inventory = before.map Source.entry

theorem tracks_start : Tracks (.start : Progress F) [] := by
  constructor <;> simp [Progress.start]

theorem checkedSource_ok :
    source effective resources item = some a ↔ readHead resources item = .ok a.head ∧
      datasetOf a.head = .ok a.dataset ∧ dumpOf effective a.head = .ok a.dump := by
  unfold source checkedSource
  constructor
  · intro h
    cases hhead : readHead resources item with
    | error e =>
      rw [hhead] at h
      cases h
    | ok head =>
      rw [hhead] at h
      cases hdataset : datasetOf head with
      | error e =>
        simp only [hdataset, bind, Except.bind, Except.toOption] at h
        cases h
      | ok dataset =>
        cases hdump : dumpOf effective head with
        | error e =>
          simp only [hdataset, hdump, bind, Except.bind, Except.toOption] at h
          cases h
        | ok dump =>
          simp only [hdataset, hdump, bind, Except.bind, Except.toOption] at h
          cases h
          exact ⟨rfl, hdataset, hdump⟩
  · intro ⟨hhead, hdataset, hdump⟩
    simp only [hhead, hdataset, hdump, bind, Except.bind, Except.toOption]

theorem readHead_ok {head : Head F} (h : readHead resources item = .ok head) :
    find head.id resources = some (.object head.resource) ∧
      validateAbsolutePath (find "path".toList head.resource) = some head.path := by
  unfold readHead at h
  split at h
  · split at h
    · rename_i hresource
      split at h
      · split at h
        · rename_i hpath
          obtain ⟨consistency, -, h⟩ := bind_ok h
          cases h
          exact ⟨hresource, hpath⟩
        · cases h
      · cases h
    · cases h
  · cases h

theorem dump_of_source
    {dump : NativeDump} (hresources : find "storageResources".toList effective = some (.object resources))
    (h : source effective resources item = some a) (hdump : a.dump = some dump) :
    dump.artifactPath ≠ a.path ∧
      validateAbsolutePath (F := F) (some (.scalar (.string dump.artifactPath))) = some dump.artifactPath := by
  obtain ⟨hhead, -, hof⟩ := checkedSource_ok.mp h
  obtain ⟨hresource, hpath⟩ := readHead_ok hhead
  unfold dumpOf at hof
  split at hof
  · obtain ⟨dump', hresolved, heq⟩ := map_ok hof
    rw [hdump] at heq
    cases heq
    exact artifact_of_resolve (mapError_ok.mp hresolved) hresources hresource hpath
  · rw [hdump] at hof
    cases hof

theorem artifact_ne_path
    (hresources : find "storageResources".toList effective = some (.object resources))
    (h : source effective resources item = some a) : a.artifact ≠ some a.path := by
  intro hartifact
  obtain ⟨dump, hdump, heq⟩ := Option.map_eq_some_iff.mp hartifact
  exact (dump_of_source hresources h hdump).1 heq

/-- No set of the loop holds what the resource is about to add. -/
structure Free (s : Progress F) (a : Source F) : Prop where
  dataset : ∀ d, a.dataset = some d → d ∉ s.seenDatasets
  path : a.path ∉ s.seenPaths
  direct : ∀ p, a.direct = some p → p ∉ s.seenResticSources
  artifact : ∀ x, a.artifact = some x →
    a.direct ≠ some x ∧ x ∉ s.seenResticSources ∧ a.path ≠ x ∧ x ∉ s.seenPaths

def Progress.after (s : Progress F) (a : Source F) : Progress F where
  inventory := s.inventory ++ [a.entry]
  directPaths := s.directPaths ++ a.direct.toList
  seenPaths := a.path :: s.seenPaths
  seenDatasets := a.dataset.toList ++ s.seenDatasets
  seenResticSources := a.artifact.toList ++ (a.direct.toList ++ s.seenResticSources)

variable {s s' : Progress F}

theorem addDataset_ok {dataset : Option Text} :
    addDataset dataset s = .ok s' ↔ (∀ d, dataset = some d → d ∉ s.seenDatasets) ∧
      s' = { s with seenDatasets := dataset.toList ++ s.seenDatasets } := by
  cases dataset with
  | none =>
    rw [addDataset, Except.ok.injEq, eq_comm]
    exact ⟨fun h => ⟨nofun, h⟩, fun h => h.2⟩
  | some d =>
    rw [addDataset, guard_ok_iff, Except.ok.injEq, @eq_comm _ _ s']
    constructor
    · intro ⟨hd, h⟩
      refine ⟨?_, h⟩
      intro d' heq
      rwa [← Option.some.inj heq]
    · exact fun h => ⟨h.1 d rfl, h.2⟩

theorem addPath_ok {path : Text} :
    addPath path s = .ok s' ↔ path ∉ s.seenPaths ∧
      s' = { s with seenPaths := path :: s.seenPaths } := by
  rw [addPath, guard_ok_iff, Except.ok.injEq, @eq_comm _ _ s']

theorem addDirect_ok {direct : Option Text} :
    addDirect direct s = .ok s' ↔ (∀ p, direct = some p → p ∉ s.seenResticSources) ∧
      s' = { s with
        seenResticSources := direct.toList ++ s.seenResticSources
        directPaths := s.directPaths ++ direct.toList } := by
  cases direct with
  | none =>
    rw [addDirect, Except.ok.injEq, Option.toList_none, List.append_nil, eq_comm]
    exact ⟨fun h => ⟨nofun, h⟩, fun h => h.2⟩
  | some p =>
    rw [addDirect, guard_ok_iff, Except.ok.injEq, @eq_comm _ _ s']
    constructor
    · intro ⟨hp, h⟩
      refine ⟨?_, h⟩
      intro p' heq
      rwa [← Option.some.inj heq]
    · exact fun h => ⟨h.1 p rfl, h.2⟩

theorem addArtifact_ok {id : Text} {dump : Option NativeDump} (hsafe : ∀ d, dump = some d →
      validateAbsolutePath (F := F) (some (.scalar (.string d.artifactPath))) = some d.artifactPath) :
    addArtifact id dump s = .ok s' ↔
      (∀ x, dump.map (·.artifactPath) = some x → x ∉ s.seenResticSources ∧ x ∉ s.seenPaths) ∧
        s' = { s with
          seenResticSources := (dump.map (·.artifactPath)).toList ++ s.seenResticSources } := by
  cases dump with
  | none =>
    rw [addArtifact, Except.ok.injEq, eq_comm]
    exact ⟨fun h => ⟨nofun, h⟩, fun h => h.2⟩
  | some d =>
    unfold addArtifact
    dsimp only
    rw [hsafe d rfl]
    dsimp only
    rw [guard_ok_iff, guard_ok_iff, Except.ok.injEq, @eq_comm _ _ s', ← and_assoc]
    constructor
    · intro ⟨hx, h⟩
      refine ⟨?_, h⟩
      intro x heq
      rwa [← Option.some.inj heq]
    · exact fun h => ⟨h.1 d.artifactPath rfl, h.2⟩

theorem compileResource_ok
    (hresources : find "storageResources".toList effective = some (.object resources)) :
    compileResource effective resources s item = .ok s' ↔
      ∃ a, source effective resources item = some a ∧ Free s a ∧ s' = s.after a := by
  constructor
  · intro h
    obtain ⟨head, hhead, h⟩ := bind_ok h
    obtain ⟨dataset, hdataset, h⟩ := bind_ok h
    obtain ⟨s₁, h₁, h⟩ := bind_ok h
    obtain ⟨s₂, h₂, h⟩ := bind_ok h
    obtain ⟨dump, hdump, h⟩ := bind_ok h
    obtain ⟨s₃, h₃, h⟩ := bind_ok h
    obtain ⟨s₄, h₄, h⟩ := bind_ok h
    have hsource : source effective resources item = some ⟨head, dataset, dump⟩ :=
      checkedSource_ok.mpr ⟨hhead, hdataset, hdump⟩
    obtain ⟨hfree₁, rfl⟩ := addDataset_ok.mp h₁
    obtain ⟨hfree₂, rfl⟩ := addPath_ok.mp h₂
    obtain ⟨hfree₃, rfl⟩ := addDirect_ok.mp h₃
    obtain ⟨hfree₄, rfl⟩ :=
      (addArtifact_ok fun d hd => (dump_of_source hresources hsource hd).2).mp h₄
    cases h
    refine ⟨_, hsource, ⟨hfree₁, hfree₂, hfree₃, ?_⟩, rfl⟩
    intro x hx
    obtain ⟨hrestic, hpaths⟩ := hfree₄ x hx
    rw [List.mem_append, not_or, Option.mem_toList] at hrestic
    rw [List.mem_cons, not_or] at hpaths
    exact ⟨hrestic.1, hrestic.2, fun heq => hpaths.1 heq.symm, hpaths.2⟩
  · rintro ⟨a, hsource, hfree, rfl⟩
    obtain ⟨hhead, hdataset, hdump⟩ := checkedSource_ok.mp hsource
    have hsafe : ∀ d, a.dump = some d → validateAbsolutePath (F := F)
        (some (.scalar (.string d.artifactPath))) = some d.artifactPath :=
      fun d hd => (dump_of_source hresources hsource hd).2
    have hartifact : ∀ x, a.dump.map (·.artifactPath) = some x →
        x ∉ a.direct.toList ++ s.seenResticSources ∧ x ∉ a.path :: s.seenPaths := by
      intro x hx
      obtain ⟨hdirect, hrestic, hpath, hpaths⟩ := hfree.artifact x hx
      rw [List.mem_append, not_or, Option.mem_toList, List.mem_cons, not_or]
      exact ⟨⟨hdirect, hrestic⟩, fun heq => hpath heq.symm, hpaths⟩
    unfold compileResource
    rw [bind_ok_iff]
    refine ⟨_, hhead, ?_⟩
    rw [bind_ok_iff]
    refine ⟨_, hdataset, ?_⟩
    rw [bind_ok_iff]
    refine ⟨_, addDataset_ok.mpr ⟨hfree.dataset, rfl⟩, ?_⟩
    rw [bind_ok_iff]
    refine ⟨_, addPath_ok.mpr ⟨hfree.path, rfl⟩, ?_⟩
    rw [bind_ok_iff]
    refine ⟨_, hdump, ?_⟩
    rw [bind_ok_iff]
    refine ⟨_, addDirect_ok.mpr ⟨hfree.direct, rfl⟩, ?_⟩
    rw [bind_ok_iff]
    exact ⟨_, (addArtifact_ok hsafe).mpr ⟨hartifact, rfl⟩, rfl⟩

theorem free_iff (h : Tracks s before)
    (hforeign : a.artifact ≠ some a.path) : Free s a ↔ ∀ c ∈ before, Clear c a := by
  constructor
  · intro hfree c hc
    constructor
    · intro d hd hcd
      exact hfree.dataset d hd ((h.datasets d).mpr ⟨c, hc, hcd⟩)
    · intro hpath
      exact hfree.path ((h.paths a.path).mpr ⟨c, hc, hpath⟩)
    · intro p hp
      have hnew := mt (h.sources p).mpr (hfree.direct p hp)
      exact ⟨fun hcp => hnew ⟨c, hc, .inl hcp⟩, fun hcp => hnew ⟨c, hc, .inr hcp⟩⟩
    · intro x hx
      obtain ⟨-, hrestic, -, hpaths⟩ := hfree.artifact x hx
      have hnew := mt (h.sources x).mpr hrestic
      exact ⟨fun hcx => hnew ⟨c, hc, .inl hcx⟩, fun hcx => hnew ⟨c, hc, .inr hcx⟩,
        fun hcx => hpaths ((h.paths x).mpr ⟨c, hc, hcx⟩)⟩
  · intro hclear
    constructor
    · intro d hd hmem
      obtain ⟨c, hc, hcd⟩ := (h.datasets d).mp hmem
      exact (hclear c hc).dataset d hd hcd
    · intro hmem
      obtain ⟨c, hc, hpath⟩ := (h.paths a.path).mp hmem
      exact (hclear c hc).path hpath
    · intro p hp hmem
      obtain ⟨c, hc, hcp | hcp⟩ := (h.sources p).mp hmem
      · exact ((hclear c hc).direct p hp).1 hcp
      · exact ((hclear c hc).direct p hp).2 hcp
    · intro x hx
      have hown : a.path ≠ x := by
        intro heq
        rw [← heq] at hx
        exact hforeign hx
      refine ⟨fun hdirect => hown (Source.path_of_direct hdirect), ?_, hown, ?_⟩
      · intro hmem
        obtain ⟨c, hc, hcx | hcx⟩ := (h.sources x).mp hmem
        · exact ((hclear c hc).artifact x hx).1 hcx
        · exact ((hclear c hc).artifact x hx).2.1 hcx
      · intro hmem
        obtain ⟨c, hc, hcx⟩ := (h.paths x).mp hmem
        exact ((hclear c hc).artifact x hx).2.2 hcx

theorem Tracks.after (h : Tracks s before) (a : Source F) : Tracks (s.after a) (before ++ [a]) := by
  constructor
  · intro p
    simp [Progress.after, h.paths, or_and_right, exists_or, eq_comm, or_comm]
  · intro d
    simp [Progress.after, h.datasets, or_and_right, exists_or, or_comm]
  · intro p
    simp [Progress.after, h.sources, or_and_right, exists_or]
    grind
  · rw [Progress.after, h.inventory, List.map_append, List.map_singleton]

/-- The resources of the list, where all of them pass their own checks. -/
def sources (float : FloatEq F) (effective : Object F) : Option (List (Source F)) :=
  if hasSchemaVersion float effective then
    match find "storageResources".toList effective, backupIds effective with
    | some (.object resources), some items => items.mapM (source effective resources)
    | _, _ => none
  else none

theorem sources_eq_some :
    sources float effective = some srcs ↔ hasSchemaVersion float effective = true ∧
      ∃ resources items, find "storageResources".toList effective = some (.object resources) ∧
        backupIds effective = some items ∧ items.mapM (source effective resources) = some srcs := by
  unfold sources
  constructor
  · intro h
    split at h
    · rename_i hversion
      split at h
      · rename_i resources items hresources hitems
        exact ⟨hversion, resources, items, hresources, hitems, h⟩
      · cases h
    · cases h
  · intro ⟨hversion, resources, items, hresources, hitems, h⟩
    rw [if_pos hversion, hresources, hitems]
    exact h

theorem compileResource_iff
    (hresources : find "storageResources".toList effective = some (.object resources))
    (s : Progress F) (before : List (Source F)) (item : Plain F) (h : Tracks s before) :
    (∃ s', compileResource effective resources s item = .ok s') ↔
      ∃ a, source effective resources item = some a ∧ ∀ c ∈ before, Clear c a := by
  constructor
  · intro ⟨s', hstep⟩
    obtain ⟨a, hsource, hfree, -⟩ := (compileResource_ok hresources).mp hstep
    exact ⟨a, hsource, (free_iff h (artifact_ne_path hresources hsource)).mp hfree⟩
  · intro ⟨a, hsource, hclear⟩
    have hfree := (free_iff h (artifact_ne_path hresources hsource)).mpr hclear
    exact ⟨s.after a, (compileResource_ok hresources).mpr ⟨a, hsource, hfree, rfl⟩⟩

theorem tracks_compileResource
    (hresources : find "storageResources".toList effective = some (.object resources))
    (s : Progress F) (before : List (Source F)) (item : Plain F) (a : Source F) (s' : Progress F)
    (h : Tracks s before) (hstep : compileResource effective resources s item = .ok s')
    (hsource : source effective resources item = some a) : Tracks s' (before ++ [a]) := by
  obtain ⟨a', hsource', -, rfl⟩ := (compileResource_ok hresources).mp hstep
  rw [hsource] at hsource'
  cases hsource'
  exact h.after a

theorem resources_iff
    (hresources : find "storageResources".toList effective = some (.object resources)) :
    (∃ s, items.foldlM (compileResource effective resources) .start = .ok s) ↔
      ∃ srcs, items.mapM (source effective resources) = some srcs ∧ srcs.Pairwise Clear := by
  rw [foldlM_ok_iff_of_tracks _ Clear Tracks (compileResource_iff hresources)
    (tracks_compileResource hresources) tracks_start]
  constructor
  · exact fun ⟨srcs, hread, _, hpairs⟩ => ⟨srcs, hread, hpairs⟩
  · exact fun ⟨srcs, hread, hpairs⟩ => ⟨srcs, hread, fun c hc => (List.not_mem_nil hc).elim, hpairs⟩

theorem compile_iff :
    (∃ p, compileBackupProjection float effective = .ok p) ↔
      ∃ srcs, sources float effective = some srcs ∧ srcs.Pairwise Clear := by
  simp only [sources_eq_some]
  unfold compileBackupProjection
  constructor
  · intro ⟨p, h⟩
    obtain ⟨hversion, h⟩ := guard_ok h
    rw [Bool.not_eq_true', Bool.not_eq_false] at hversion
    split at h
    · rename_i resources items hresources hitems
      obtain ⟨s, hs, -⟩ := bind_ok h
      obtain ⟨srcs, hread, hpairs⟩ := (resources_iff hresources).mp ⟨s, hs⟩
      exact ⟨srcs, ⟨hversion, resources, items, hresources, hitems, hread⟩, hpairs⟩
    · cases h
  · intro ⟨srcs, ⟨hversion, resources, items, hresources, hitems, hread⟩, hpairs⟩
    obtain ⟨s, hs⟩ := (resources_iff hresources).mpr ⟨srcs, hread, hpairs⟩
    rw [hversion, hresources, hitems]
    refine ⟨⟨s.inventory, s.directPaths.insertionSort (· ≤ ·)⟩, ?_⟩
    dsimp only [Bool.not_true, Bool.false_eq_true, if_false]
    rw [hs]
    rfl

theorem inventory_of_compile {p : Projection F}
    (h : compileBackupProjection float effective = .ok p) :
    ∃ srcs, sources float effective = some srcs ∧ p.inventory = srcs.map Source.entry := by
  unfold compileBackupProjection at h
  obtain ⟨hversion, h⟩ := guard_ok h
  rw [Bool.not_eq_true', Bool.not_eq_false] at hversion
  split at h
  · rename_i resources items hresources hitems
    obtain ⟨s, hs, heq⟩ := bind_ok h
    cases heq
    obtain ⟨srcs, hread, htracks⟩ := tracks_foldlM (source effective resources) Tracks
      (fun _ _ _ _ htracks hstep =>
        ((compileResource_iff hresources _ _ _ htracks).mp ⟨_, hstep⟩).imp fun _ ha => ha.1)
      (tracks_compileResource hresources) tracks_start hs
    exact ⟨srcs, sources_eq_some.mpr ⟨hversion, resources, items, hresources, hitems, hread⟩,
      htracks.inventory⟩
  · cases h

/-! ## The order of the list -/

/-- The effective state with `derived.backupResources` replaced. -/
def reordered (effective : Object F) (items : List (Plain F)) : Object F :=
  let derived := asObject (find "derived".toList effective)
  setItem effective "derived".toList (.object (setItem derived "backupResources".toList (.array items)))

/-- No two resources share a path, and an artifact is at a path of its own. -/
structure Exclusive (inventory : List (Entry F)) : Prop where
  paths : inventory.Pairwise fun e e' ↦ e.path ≠ e'.path
  artifact_path : ∀ e ∈ inventory, ∀ dump, e.nativeDump = some dump →
    ∀ e' ∈ inventory, e'.path ≠ dump.artifactPath
  artifacts : inventory.Pairwise fun e e' ↦ ∀ dump dump', e.nativeDump = some dump →
    e'.nativeDump = some dump' → dump.artifactPath ≠ dump'.artifactPath

/-- Every order of the resources is compiled alike, and only to exclusive sources. -/
def OrderFree (float : FloatEq F) (effective : Object F) : Prop :=
  ∀ items items', backupIds effective = some items → items'.Perm items →
    (∀ p, compileBackupProjection float (reordered effective items') = .ok p → Exclusive p.inventory) ∧
      ((∃ p, compileBackupProjection float (reordered effective items') = .ok p) ↔
        ∃ p, compileBackupProjection float effective = .ok p)

theorem find_reordered {key : Text}
    (hkey : key ≠ "derived".toList) : find key (reordered effective items) = find key effective := by
  unfold reordered
  rw [find_setItem, if_neg hkey]

theorem asObject_reordered (effective : Object F) (items : List (Plain F)) :
    asObject (find "derived".toList (reordered effective items)) =
      setItem (asObject (find "derived".toList effective)) "backupResources".toList (.array items) := by
  unfold reordered
  rw [find_setItem, if_pos rfl]
  rfl

theorem backupIds_reordered (effective : Object F) (items : List (Plain F)) :
    backupIds (reordered effective items) = some items := by
  unfold backupIds
  rw [asObject_reordered, find_setItem, if_pos rfl]

theorem ownerUnit_reordered (effective : Object F) (items : List (Plain F)) :
    ownerUnit (reordered effective items) = ownerUnit effective := by
  funext serviceId
  unfold ownerUnit
  dsimp only
  rw [asObject_reordered, find_setItem, if_neg (by decide)]

theorem resolveNativeDump_reordered (effective : Object F) (items : List (Plain F)) :
    resolveNativeDump (reordered effective items) = resolveNativeDump effective := by
  funext sourceId
  unfold resolveNativeDump
  rw [find_reordered (by decide), find_reordered (by decide), ownerUnit_reordered]

theorem source_reordered (effective resources : Object F) (items : List (Plain F)) :
    source (reordered effective items) resources = source effective resources := by
  funext item
  unfold source checkedSource dumpOf
  rw [resolveNativeDump_reordered]

theorem hasSchemaVersion_reordered (float : FloatEq F) (effective : Object F) (items : List (Plain F)) :
    hasSchemaVersion float (reordered effective items) = hasSchemaVersion float effective := by
  unfold hasSchemaVersion
  rw [find_reordered (by decide)]

theorem sources_reordered :
    sources float (reordered effective items) = some srcs ↔ hasSchemaVersion float effective = true ∧
      ∃ resources, find "storageResources".toList effective = some (.object resources) ∧
        items.mapM (source effective resources) = some srcs := by
  rw [sources_eq_some, hasSchemaVersion_reordered, find_reordered (by decide), backupIds_reordered]
  simp only [source_reordered, Option.some.injEq]
  constructor
  · rintro ⟨hversion, resources, _, hresources, rfl, h⟩
    exact ⟨hversion, resources, hresources, h⟩
  · intro ⟨hversion, resources, hresources, h⟩
    exact ⟨hversion, resources, items, hresources, rfl, h⟩

theorem exists_sources_of_perm
    (hitems : backupIds effective = some items) (hperm : items'.Perm items)
    (h : sources float effective = some srcs) :
    ∃ srcs', sources float (reordered effective items') = some srcs' ∧ srcs'.Perm srcs := by
  obtain ⟨hversion, resources, items₀, hresources, hitems₀, h⟩ := sources_eq_some.mp h
  rw [hitems] at hitems₀
  cases hitems₀
  obtain ⟨srcs', h', hsrcs⟩ := mapM_of_perm h hperm
  exact ⟨srcs', sources_reordered.mpr ⟨hversion, resources, hresources, h'⟩, hsrcs⟩

theorem exists_sources_of_reordered (hitems : backupIds effective = some items)
    (hperm : items'.Perm items) (h : sources float (reordered effective items') = some srcs') :
    ∃ srcs, sources float effective = some srcs ∧ srcs'.Perm srcs := by
  obtain ⟨hversion, resources, hresources, h⟩ := sources_reordered.mp h
  obtain ⟨srcs, h', hsrcs⟩ := mapM_of_perm h hperm.symm
  exact ⟨srcs, sources_eq_some.mpr ⟨hversion, resources, items, hresources, hitems, h'⟩, hsrcs.symm⟩

theorem exists_order (h : sources float effective = some srcs) (hperm : srcs'.Perm srcs) :
    ∃ items items', backupIds effective = some items ∧ items'.Perm items ∧
      sources float (reordered effective items') = some srcs' := by
  obtain ⟨hversion, resources, items, hresources, hitems, h⟩ := sources_eq_some.mp h
  obtain ⟨items', hitems', h'⟩ := exists_mapM_of_perm h hperm
  exact ⟨items, items', hitems, hitems', sources_reordered.mpr ⟨hversion, resources, hresources, h'⟩⟩

theorem foreign_of_sources
    (h : sources float effective = some srcs) : ∀ a ∈ srcs, a.artifact ≠ some a.path := by
  obtain ⟨-, resources, items, hresources, -, h⟩ := sources_eq_some.mp h
  intro a ha
  obtain ⟨item, -, hitem⟩ := exists_left (mapM_some_iff.mp h) ha
  exact artifact_ne_path hresources hitem

/-! ## What the order decides -/

theorem pairwise_clear_iff : srcs.Pairwise Clear ↔ srcs.Pairwise Apart ∧ Respects Feeds srcs := by
  unfold Respects
  rw [← List.pairwise_and_iff]
  constructor
  · exact List.Pairwise.imp fun h => clear_iff.mp h
  · exact List.Pairwise.imp fun h => clear_iff.mpr h

theorem apart_perm (hperm : srcs'.Perm srcs) : srcs'.Pairwise Apart ↔ srcs.Pairwise Apart :=
  hperm.pairwise_iff Apart.symm

theorem clear_of_quiet (hapart : srcs.Pairwise Apart)
    (hquiet : ∀ a ∈ srcs, ∀ b ∈ srcs, ¬ Feeds a b) : srcs.Pairwise Clear := by
  rw [pairwise_clear_iff]
  refine ⟨hapart, List.pairwise_of_forall_mem_list ?_⟩
  intro b hb a ha
  exact hquiet a ha b hb

theorem apart_of_mem (hapart : srcs.Pairwise Apart)
    (ha : a ∈ srcs) (hb : b ∈ srcs) (hne : a ≠ b) : Apart a b := by
  have hsymm : Std.Symm (Apart (F := F)) := ⟨fun _ _ => Apart.symm⟩
  exact hapart.forall ha hb hne

theorem exclusive_iff (hapart : srcs.Pairwise Apart)
    (hforeign : ∀ a ∈ srcs, a.artifact ≠ some a.path) :
    Exclusive (srcs.map Source.entry) ↔ ∀ a ∈ srcs, ∀ b ∈ srcs, ¬ Feeds a b := by
  constructor
  · intro h a ha b hb hfeeds
    obtain ⟨dump, hdump, hpath⟩ := Option.map_eq_some_iff.mp hfeeds.1
    exact h.artifact_path a.entry (List.mem_map_of_mem ha) dump hdump b.entry
      (List.mem_map_of_mem hb) hpath.symm
  · intro h
    constructor
    · rw [List.pairwise_map]
      exact hapart.imp fun hab => hab.path
    · intro e he dump hdump e' he' hpath
      obtain ⟨a, ha, rfl⟩ := List.mem_map.mp he
      obtain ⟨b, hb, rfl⟩ := List.mem_map.mp he'
      have hartifact : a.artifact = some b.path := by
        have hb' : b.path = dump.artifactPath := hpath
        rw [hb']
        exact Option.map_eq_some_iff.mpr ⟨dump, hdump, rfl⟩
      cases hdirect : b.direct with
      | none => exact h a ha b hb ⟨hartifact, hdirect⟩
      | some p =>
        have hne : a ≠ b := by
          rintro rfl
          exact hforeign a ha hartifact
        rw [Source.path_of_direct hdirect] at hartifact
        exact (apart_of_mem hapart ha hb hne).direct p hdirect hartifact
    · rw [List.pairwise_map]
      refine hapart.imp ?_
      intro a b hab dump dump' hdump hdump' heq
      have ha : a.artifact = some dump.artifactPath := Option.map_eq_some_iff.mpr ⟨dump, hdump, rfl⟩
      have hb : b.artifact = some dump'.artifactPath := Option.map_eq_some_iff.mpr ⟨dump', hdump', rfl⟩
      rw [heq] at ha
      exact hab.artifacts _ hb ha

theorem apart_of_clear (hsources : sources float effective = some srcs) (hperm : srcs'.Perm srcs)
    (h : srcs'.Pairwise Clear) : srcs.Pairwise Apart ∧ ¬ Circular Feeds srcs := by
  obtain ⟨hapart, hrespects⟩ := pairwise_clear_iff.mp h
  rw [apart_perm hperm] at hapart
  refine ⟨hapart, ?_⟩
  have hnodup : srcs.Nodup := hapart.imp fun hab heq => hab.path (congrArg Source.path heq)
  apply (exists_respects_iff hnodup ?_).mp ⟨srcs', hperm, hrespects⟩
  intro a ha hfeeds
  exact foreign_of_sources hsources a ha hfeeds.1

/-- The order is of no account exactly where no dump of a list that some order lets through is
written to the path of a snapshot or of another dump. -/
theorem orderFree_iff (float : FloatEq F) (effective : Object F) : OrderFree float effective ↔
    ¬ ∃ srcs, sources float effective = some srcs ∧ srcs.Pairwise Apart ∧
      (∃ a ∈ srcs, ∃ b ∈ srcs, Feeds a b) ∧ ¬ Circular Feeds srcs := by
  constructor
  · intro h ⟨srcs, hsources, hapart, ⟨a, ha, b, hb, hfeeds⟩, hcircle⟩
    -- the order that puts every dump before what it feeds goes through, and is not exclusive
    have hnodup : srcs.Nodup := hapart.imp fun hab heq => hab.path (congrArg Source.path heq)
    obtain ⟨srcs', hperm, hrespects⟩ := exists_respects hnodup hcircle
    obtain ⟨items, items', hitems, hitems', hsources'⟩ := exists_order hsources hperm
    have hapart' : srcs'.Pairwise Apart := (apart_perm hperm).mpr hapart
    have hclear := pairwise_clear_iff.mpr ⟨hapart', hrespects⟩
    obtain ⟨p, hp⟩ := compile_iff.mpr ⟨srcs', hsources', hclear⟩
    have hexclusive := (h items items' hitems hitems').1 p hp
    obtain ⟨srcs'', hsources'', hinventory⟩ := inventory_of_compile hp
    rw [hsources'] at hsources''
    cases hsources''
    rw [hinventory, exclusive_iff hapart' (foreign_of_sources hsources')] at hexclusive
    exact hexclusive a (hperm.mem_iff.mpr ha) b (hperm.mem_iff.mpr hb) hfeeds
  · intro h items items' hitems hperm
    have hquiet : ∀ srcs srcs' : List (Source F), sources float effective = some srcs →
        srcs'.Perm srcs → srcs'.Pairwise Clear →
        srcs.Pairwise Apart ∧ ∀ a ∈ srcs, ∀ b ∈ srcs, ¬ Feeds a b := by
      intro srcs srcs' hsources hsrcs hclear
      obtain ⟨hapart, hcircle⟩ := apart_of_clear hsources hsrcs hclear
      refine ⟨hapart, ?_⟩
      intro a ha b hb hfeeds
      exact h ⟨srcs, hsources, hapart, ⟨a, ha, b, hb, hfeeds⟩, hcircle⟩
    refine ⟨?_, ?_, ?_⟩
    · intro p hp
      obtain ⟨srcs', hsources', hclear⟩ := compile_iff.mp ⟨p, hp⟩
      obtain ⟨srcs, hsources, hsrcs⟩ := exists_sources_of_reordered hitems hperm hsources'
      obtain ⟨hapart, hfree⟩ := hquiet srcs srcs' hsources hsrcs hclear
      obtain ⟨srcs'', hsources'', hinventory⟩ := inventory_of_compile hp
      rw [hsources'] at hsources''
      cases hsources''
      rw [hinventory, exclusive_iff ((apart_perm hsrcs).mpr hapart) (foreign_of_sources hsources')]
      intro a ha b hb
      exact hfree a (hsrcs.mem_iff.mp ha) b (hsrcs.mem_iff.mp hb)
    · intro hcompiled
      obtain ⟨srcs', hsources', hclear⟩ := compile_iff.mp hcompiled
      obtain ⟨srcs, hsources, hsrcs⟩ := exists_sources_of_reordered hitems hperm hsources'
      obtain ⟨hapart, hfree⟩ := hquiet srcs srcs' hsources hsrcs hclear
      exact compile_iff.mpr ⟨srcs, hsources, clear_of_quiet hapart hfree⟩
    · intro hcompiled
      obtain ⟨srcs, hsources, hclear⟩ := compile_iff.mp hcompiled
      obtain ⟨hapart, hfree⟩ := hquiet srcs srcs hsources (.refl srcs) hclear
      obtain ⟨srcs', hsources', hsrcs⟩ := exists_sources_of_perm hitems hperm hsources
      refine compile_iff.mpr ⟨srcs', hsources', clear_of_quiet ((apart_perm hsrcs).mpr hapart) ?_⟩
      intro a ha b hb
      exact hfree a (hsrcs.mem_iff.mp ha) b (hsrcs.mem_iff.mp hb)

/-- A job dumps the database to the path of a data set that is backed up by snapshot. -/
def dumpOverSnapshot : Object Empty :=
  let database : Object Empty := [("path".toList, text "/srv/db"), ("stateClass".toList, text "authoritative"),
    ("backup".toList, .object [("enabled".toList, boolean true), ("consistency".toList, text "native-dump")])]
  let dump : Object Empty := [("path".toList, text "/srv/tank"), ("stateClass".toList, text "derived")]
  let tank : Object Empty := [("path".toList, text "/srv/tank"), ("dataset".toList, text "tank/data"),
    ("stateClass".toList, text "authoritative"), ("backup".toList, .object [("enabled".toList, boolean true),
      ("consistency".toList, text "zfs-snapshot")])]
  let dumper : Object Empty := [("workload".toList, .object [("kind".toList, text "job")]),
    ("storage".toList, .array [
      .object [("resource".toList, text "database"), ("access".toList, text "read")],
      .object [("resource".toList, text "dump"), ("access".toList, text "write")]])]
  [("schemaVersion".toList, number 3),
    ("storageResources".toList, .object [("database".toList, .object database),
      ("dump".toList, .object dump), ("tank".toList, .object tank)]),
    ("services".toList, .object [("dumper".toList, .object dumper)]),
    ("derived".toList, .object [("backupResources".toList, .array [text "database", text "tank"]),
      ("runtime".toList, .object [("dumper".toList, .object [("ownerUnit".toList, text "dumper.service")])])])]

theorem not_orderFree_dumpOverSnapshot :
    ¬ OrderFree ⟨nofun, nofun, nofun, nofun⟩ dumpOverSnapshot := by
  intro h
  have hswapped := (h [text "database", text "tank"] [text "tank", text "database"] rfl (.swap ..)).2
  have hpasses : isOk (compileBackupProjection ⟨nofun, nofun, nofun, nofun⟩ dumpOverSnapshot) = true := by
    decide
  have hrefused : isOk (compileBackupProjection ⟨nofun, nofun, nofun, nofun⟩
      (reordered dumpOverSnapshot [text "tank", text "database"])) = false := by
    decide
  obtain ⟨p, hp⟩ := hswapped.mpr (exists_of_isOk hpasses)
  rw [hp] at hrefused
  cases hrefused

end NixNas.Backup
