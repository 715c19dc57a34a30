import NixNas.State.Extracted

/-!
# What is exported can be extracted

An export looks through its own archive before it hands it over.  What passes there is extracted
again, entry by entry, with the modes and contents that were staged.
-/

open Association

namespace NixNas.State

variable {os : Os} {limits : Limits} {world : Disk} {destination : OsPath}
  {made : List (RelPath × Node Mode)} {p q : RelPath} {node : Node Mode} {st : Extraction}
variable {before : Nat} {pax : RelPath → List (Str × Str)} {seen : Seen}
  {front rest : List (RelPath × Node Mode)}

/-! ## The archive of an export -/

def bundleManifest : Str := str "manifest.json"

def payloadRoot : Str := str "payload"

/-- What `export_bundle` has staged. -/
structure Staging where
  manifestMode : Mode
  manifest : List UInt8
  payload : FileTree Mode
  isDir : payload.root.isDir = true

/-- The entries in the order in which `tarfile` adds them: a directory is followed by what is in it,
sorted by name. -/
def Staging.entries (s : Staging) : List (RelPath × Node Mode) :=
  ([bundleManifest], .file s.manifestMode s.manifest) ::
    s.payload.paths.map fun e ↦ (payloadRoot :: e.1, e.2)

/-- The member that `deterministic_tar_add` writes, as it is read again; the extended headers are
those of the library. -/
def tarMember (pax : RelPath → List (Str × Str)) (e : RelPath × Node Mode) : Member where
  name := asPosix e.1
  kind := if e.2.isDir then .directory else .regular
  size := e.2.content.length
  mode := e.2.mode
  paxHeaders := pax e.1
  data := e.2.content
  truncated := false

def Staging.archive (s : Staging) (pax : RelPath → List (Str × Str)) : Archive where
  opens := true
  members := s.entries.map (tarMember pax)
  ends := true

/-- The loop of `expanded_bundle_size`. -/
def checkHeaders (limits : Limits) (ends : Bool) (seen : Seen) : List Member → Except StateError Nat
  | [] => if ends then .ok seen.total else .error .unreadable
  | member :: members =>
    match checkStreamedHeader limits seen member with
    | .error e => .error e
    | .ok (_, seen') => checkHeaders limits ends seen' members

/-- `expanded_bundle_size`, by which the export checks its archive. -/
def expandedBundleSize (limits : Limits) (archive : Archive) : Except StateError Nat :=
  if archive.opens then checkHeaders limits archive.ends .start archive.members
  else .error .unreadable

/-! ## Steps that succeed -/

theorem copyBlocks_within {stores : List UInt8 → Bool} {data written : List UInt8}
    (h : before + written.length + data.length ≤ limits.bytes)
    (hstores : ∀ content, stores content = true) :
    copyBlocks limits stores before data written = (.ok (), written ++ data) := by
  fun_induction copyBlocks limits stores before data written with
  | case1 written => rw [List.append_nil]
  | case2 data written hne hover =>
    rw [List.length_take] at hover
    omega
  | case3 data written hne hle hstored ih =>
    rw [ih, List.append_assoc, List.take_append_drop]
    rw [List.length_append, List.length_take, List.length_drop]
    omega
  | case4 data written hne hle hrefused => exact absurd (hstores _) hrefused

theorem lstatType_found (hworld : EmptyDirectory world destination)
    (h : Rep os world destination st made) (hp : p ≠ []) (hparent : HasDir made p.dropLast)
    (hreaches : os.reaches (destination ++ p) = true) :
    st.disk.walk [] (destination ++ p) = .ok (made.lookup p) ∧
      lstatType os st.disk (destination ++ p) = .ok (made.lookup p) := by
  have hwalk : st.disk.walk [] (destination ++ p) = .ok (made.lookup p) := by
    rw [h.disk]
    apply walk_found hworld hp
    intro before hbefore hne
    exact h.fresh.hasDir_prefix hparent before (prefix_dropLast hbefore hne)
  exact ⟨hwalk, by rw [lstatType, if_pos hreaches, hwalk]⟩

theorem walk_parent (hworld : EmptyDirectory world destination)
    (h : Rep os world destination st made) (hp : p ≠ []) (hparent : HasDir made p.dropLast) :
    ∃ mode, st.disk.walk [] (destination ++ p).dropLast = .ok (some (.directory mode)) := by
  obtain ⟨mode, hwalk⟩ := walk_hasDir hworld h.fresh hparent
  rw [← h.disk, ← dropLast_destination hp] at hwalk
  exact ⟨mode, hwalk⟩

theorem prepareParent_ready (hworld : EmptyDirectory world destination)
    (h : Rep os world destination st made) (hp : HasDir made p) (raised : StateError) :
    prepareParent os destination raised st (destination ++ p) = (.ok (), st) := by
  have hmissing : missingParents os destination st.disk (destination ++ p) = .ok [] := by
    rw [missingParents]
    split
    · rfl
    · rename_i hroot
      have hne : p ≠ [] := by
        rintro rfl
        exact hroot (.inl (List.append_nil _))
      obtain hnil | ⟨mode, hmode⟩ := hp
      · exact absurd hnil hne
      · have hreaches := h.reaches p (List.mem_map_of_mem (mem_of_lookup hmode))
        have hparent := h.fresh.hasDir_prefix (.inr ⟨mode, hmode⟩) p.dropLast (List.dropLast_prefix p)
        obtain ⟨-, hstat⟩ := lstatType_found hworld h hne hparent hreaches
        rw [hstat, hmode]
  obtain ⟨mode, hwalk⟩ := walk_hasDir hworld h.fresh hp
  rw [← h.disk] at hwalk
  obtain ⟨e, he⟩ := mkdirParents_exists os hwalk
  unfold prepareParent
  rw [hmissing]
  dsimp only
  rw [he, Disk.isDir, hwalk, if_pos rfl]
  dsimp only
  rw [List.reverse_nil, List.append_nil]

theorem update_last {f : Node Mode → Node Mode} (hnone : made.lookup p = none) :
    Disk.update (made ++ [(p, node)]) p f = made ++ [(p, f node)] := by
  rw [update_append, update_of_notMem (lookup_eq_none_iff.mp hnone)]
  simp [Disk.update]

theorem extractDirectory_new (hworld : EmptyDirectory world destination)
    (h : Rep os world destination st made) (hp : p ≠ []) (hnames : ∀ name ∈ p, IsName name)
    (hnone : made.lookup p = none) (hparent : HasDir made p.dropLast)
    (htakes : os.Takes (destination ++ p)) (mode : Mode) :
    ∃ st', extractDirectory os destination st (destination ++ p) mode = (.ok (), st') ∧
      Rep os world destination st' (made ++ [(p, .directory mode)]) := by
  obtain ⟨hwalk, hstat⟩ := lstatType_found hworld h hp hparent htakes.reaches
  rw [hnone] at hwalk hstat
  obtain ⟨parentMode, hparentWalk⟩ := walk_parent hworld h hp hparent
  have hpushed := h.push hp hnames hnone hparent htakes.reaches (.directory os.directoryMode)
  have hmoded := hpushed.update hworld hp (isDir_map mode)
  rw [update_last hnone] at hmoded
  refine ⟨_, ?_, hmoded⟩
  unfold extractDirectory
  rw [hstat]
  dsimp only
  rw [dropLast_destination hp, prepareParent_ready hworld h hparent]
  dsimp only
  rw [mkdir_absent htakes.reaches hwalk hparentWalk, if_pos (htakes.hasRoom _)]
  rfl

theorem extractFile_new (hworld : EmptyDirectory world destination)
    (h : Rep os world destination st made) (hp : p ≠ []) (hnames : ∀ name ∈ p, IsName name)
    (hnone : made.lookup p = none) (hparent : HasDir made p.dropLast)
    (htakes : os.Takes (destination ++ p)) {member : Member}
    (hwhole : member.truncated = false) (hsize : member.size = member.data.length)
    (hbytes : before + member.data.length ≤ limits.bytes) :
    ∃ st', extractFile os limits destination st (destination ++ p) before member = (.ok (), st') ∧
      Rep os world destination st'
        (made ++ [(p, .file (permissionBits member.mode) member.data)]) := by
  obtain ⟨hwalk, -⟩ := lstatType_found hworld h hp hparent htakes.reaches
  rw [hnone] at hwalk
  obtain ⟨parentMode, hparentWalk⟩ := walk_parent hworld h hp hparent
  have hcreate : createFile os st.disk (destination ++ p) (permissionBits member.mode) =
      .ok (st.disk ++ [(destination ++ p, .file (permissionBits member.mode) [])]) := by
    rw [createFile, if_pos htakes.reaches, hwalk]
    dsimp only
    rw [Disk.isDir, hparentWalk, if_pos rfl, if_pos (htakes.hasRoom _)]
  have hcopy : copyBounded limits (os.stores (destination ++ p)) before member =
      (.ok (), member.data) := by
    unfold copyBounded
    rw [copyBlocks_within (by simpa using hbytes) htakes.stores, List.nil_append]
    dsimp only
    rw [hwhole, if_neg Bool.false_ne_true, if_neg]
    rw [hsize]
    simp
  have hpushed := h.push hp hnames hnone hparent htakes.reaches
    (.file (permissionBits member.mode) [])
  have hwritten := hpushed.write hworld hp member.data
  have hmoded := hwritten.update hworld hp (isDir_map (permissionBits member.mode))
  have hfile : writeFile (made ++ [(p, .file (permissionBits member.mode) [])]) p member.data =
      made ++ [(p, .file (permissionBits member.mode) member.data)] := update_last hnone
  rw [hfile, update_last hnone] at hmoded
  refine ⟨_, ?_, hmoded⟩
  unfold extractFile
  rw [dropLast_destination hp, prepareParent_ready hworld h hparent]
  dsimp only
  rw [hcreate]
  dsimp only
  rw [hcopy]
  rfl

/-! ## Members of entries -/

theorem pathParts_asPosix (hp : p ≠ []) (hnames : ∀ name ∈ p, IsName name) :
    pathParts (asPosix p) = p := by
  rw [pathParts, splitOn_asPosix hp hnames, List.filter_eq_self]
  intro name hname
  have hproper := hnames name hname
  exact decide_eq_true ⟨hproper.ne_nil, hproper.dot.1⟩

theorem permissionBits_val (mode : Mode) : permissionBits mode.val = mode :=
  Fin.ext (Nat.mod_eq_of_lt mode.isLt)

theorem extractMember_new {seen' : Seen} {path : RelPath}
    (hworld : EmptyDirectory world destination) (h : Rep os world destination st made) (hp : p ≠ [])
    (hnames : ∀ name ∈ p, IsName name) (hnone : made.lookup p = none)
    (hparent : HasDir made p.dropLast) (htakes : os.Takes (destination ++ p))
    (hcheck : checkStreamedHeader limits seen (tarMember pax (p, node)) = .ok (path, seen')) :
    ∃ st', extractMember os limits destination st seen (tarMember pax (p, node)) = (.ok seen', st') ∧
      Rep os world destination st' (made ++ [(p, node)]) := by
  obtain ⟨hname, -, -, -, htotal, -⟩ := checkStreamedHeader_ok hcheck
  obtain ⟨rfl, -, -⟩ := safeMemberName_ok hname
  have hpath : pathParts (tarMember pax (p, node)).name = p := pathParts_asPosix hp hnames
  unfold extractMember
  rw [hcheck]
  dsimp only
  rw [hpath, joinPath_names hnames]
  cases node with
  | directory mode =>
    have hkind : (tarMember pax (p, .directory mode)).kind = .directory := rfl
    have hmode : permissionBits (tarMember pax (p, .directory mode)).mode = mode :=
      permissionBits_val mode
    obtain ⟨st', hstep, hrep⟩ := extractDirectory_new hworld h hp hnames hnone hparent htakes mode
    refine ⟨st', ?_, hrep⟩
    rw [hkind]
    dsimp only
    rw [hmode, hstep]
  | file mode content =>
    have hkind : (tarMember pax (p, .file mode content)).kind = .regular := rfl
    have hmode : permissionBits (tarMember pax (p, .file mode content)).mode = mode :=
      permissionBits_val mode
    have hbytes : seen.total + (tarMember pax (p, .file mode content)).data.length ≤ limits.bytes := by
      simpa [tarMember, Node.content] using htotal
    obtain ⟨st', hstep, hrep⟩ := extractFile_new hworld h hp hnames hnone hparent htakes rfl rfl hbytes
    rw [hmode] at hrep
    refine ⟨st', ?_, hrep⟩
    rw [hkind]
    dsimp only
    rw [hstep]

/-- Entries that stand under names, each in a directory in front of it. -/
structure Laid (entries : List (RelPath × Node Mode)) : Prop where
  names : ∀ e ∈ entries, e.1 ≠ [] ∧ ∀ name ∈ e.1, IsName name
  nodup : (entries.map Prod.fst).Nodup
  parents : ∀ front e rest, entries = front ++ e :: rest → HasDir front e.1.dropLast

theorem extractMembers_laid {entries : List (RelPath × Node Mode)} {total : Nat}
    (hlaid : Laid entries) (hworld : EmptyDirectory world destination)
    (htakes : ∀ e ∈ entries, os.Takes (destination ++ e.1))
    (hentries : entries = front ++ rest) (h : Rep os world destination st front)
    (hcheck : checkHeaders limits true seen (rest.map (tarMember pax)) = .ok total) :
    ∃ st', extractMembers os limits destination true st seen (rest.map (tarMember pax)) =
        (.ok (), st') ∧ Rep os world destination st' entries := by
  induction rest generalizing front seen st with
  | nil =>
    rw [List.append_nil] at hentries
    subst hentries
    exact ⟨st, rfl, h⟩
  | cons e rest ih =>
    obtain ⟨p, node⟩ := e
    have he : (p, node) ∈ entries := by simp [hentries]
    obtain ⟨hne, hnames⟩ := hlaid.names _ he
    have hnone : front.lookup p = none := by
      have hnodup := hlaid.nodup
      rw [hentries, List.map_append, List.map_cons, List.nodup_append] at hnodup
      rw [lookup_eq_none_iff]
      intro hmem
      exact hnodup.2.2 p hmem p List.mem_cons_self rfl
    rw [List.map_cons, checkHeaders] at hcheck
    cases hheader : checkStreamedHeader limits seen (tarMember pax (p, node)) with
    | error _ =>
      rw [hheader] at hcheck
      cases hcheck
    | ok checked =>
      obtain ⟨path, seen'⟩ := checked
      rw [hheader] at hcheck
      have hparent := hlaid.parents front _ rest hentries
      obtain ⟨st', hstep, hrep⟩ := extractMember_new hworld h hne hnames hnone hparent
        (htakes _ he) hheader
      rw [List.map_cons, extractMembers, hstep]
      dsimp only
      exact ih (by rw [hentries, List.append_assoc]; rfl) hrep hcheck

/-! ## The staged tree -/

theorem HasDir.of_mem {mode : Mode} (hnodup : (made.map Prod.fst).Nodup)
    (h : (p, .directory mode) ∈ made) : HasDir made p := .inr ⟨mode, lookup_of_mem hnodup h⟩

theorem isName_bundleManifest : IsName bundleManifest := by decide

theorem isName_payloadRoot : IsName payloadRoot := by decide

theorem shape_keys (below : List (RelPath × Node Mode)) :
    (shape below).map Prod.fst = below.map Prod.fst := by
  rw [shape, List.map_map]
  rfl

theorem Staging.keys (s : Staging) : s.entries.map Prod.fst =
    [bundleManifest] :: [payloadRoot] :: (s.payload.below.map Prod.fst).map (payloadRoot :: ·) := by
  simp [entries, FileTree.paths, Function.comp_def]

theorem Staging.nodup (s : Staging) : (s.entries.map Prod.fst).Nodup := by
  have hsorted := s.payload.listing.sorted
  rw [shape_keys] at hsorted
  have hbelow : (s.payload.below.map Prod.fst).Nodup := by
    apply hsorted.imp
    rintro p _ hbefore rfl
    exact hbefore.asymm hbefore
  have hroot : [] ∉ s.payload.below.map Prod.fst := by
    intro hmem
    rw [← shape_keys] at hmem
    obtain ⟨e, he, hnil⟩ := List.mem_map.mp hmem
    exact (s.payload.listing.names e he).1 hnil
  have hpayload : ([payloadRoot] :: (s.payload.below.map Prod.fst).map (payloadRoot :: ·)).Nodup := by
    have hcons : ([] :: s.payload.below.map Prod.fst).Nodup := List.nodup_cons.mpr ⟨hroot, hbelow⟩
    exact List.Pairwise.map (payloadRoot :: ·) (fun _ _ hne heq => hne (List.cons.inj heq).2) hcons
  rw [s.keys, List.nodup_cons]
  refine ⟨?_, hpayload⟩
  have hother : bundleManifest ≠ payloadRoot := by decide
  simp [hother, hother.symm]

theorem Staging.names (s : Staging) :
    ∀ e ∈ s.entries, e.1 ≠ [] ∧ ∀ name ∈ e.1, IsName name := by
  intro e he
  have hkey : e.1 ∈ s.entries.map Prod.fst := List.mem_map_of_mem he
  rw [s.keys, List.mem_cons, List.mem_cons, List.mem_map] at hkey
  obtain hmanifest | hpayload | ⟨p, hp, hbelow⟩ := hkey
  · rw [hmanifest]
    simpa using isName_bundleManifest
  · rw [hpayload]
    simpa using isName_payloadRoot
  · rw [← shape_keys] at hp
    obtain ⟨entry, hentry, rfl⟩ := List.mem_map.mp hp
    rw [← hbelow]
    refine ⟨List.cons_ne_nil _ _, ?_⟩
    rw [List.forall_mem_cons]
    exact ⟨isName_payloadRoot, (s.payload.listing.names entry hentry).2⟩

theorem Staging.parents (s : Staging)
    {e : RelPath × Node Mode} (h : s.entries = front ++ e :: rest) : HasDir front e.1.dropLast := by
  have hnodup : (front.map Prod.fst).Nodup := by
    have hall := s.nodup
    rw [h, List.map_append] at hall
    exact (List.nodup_append.mp hall).1
  obtain ⟨rootMode, hrootMode⟩ : ∃ mode, s.payload.root = .directory mode := by
    have hdir := s.isDir
    cases hroot : s.payload.root with
    | directory mode => exact ⟨mode, rfl⟩
    | file mode content =>
      rw [hroot] at hdir
      cases hdir
  cases front with
  | nil =>
    cases h
    exact .inl rfl
  | cons manifest front =>
    obtain ⟨rfl, htail⟩ := List.cons.inj h
    cases front with
    | nil =>
      cases htail
      exact .inl rfl
    | cons payload front =>
      obtain ⟨rfl, hpayload⟩ := List.cons.inj htail
      obtain ⟨before, after, hbelow, rfl, hafter⟩ := List.map_eq_append_iff.mp hpayload
      obtain ⟨entry, after, rfl, rfl, rfl⟩ := List.map_eq_cons_iff.mp hafter
      have hlisting := s.payload.listing
      rw [hbelow, List.append_cons, shape, List.map_append, ← shape, ← shape] at hlisting
      have hmem : (entry.1, entry.2.isDir) ∈ shape (before ++ [entry]) := by
        simp [shape]
      have hne := (hlisting.shorter.names _ hmem).1
      show HasDir _ (payloadRoot :: entry.1).dropLast
      rw [List.dropLast_cons_of_ne_nil hne]
      obtain hroot | hparent := hlisting.shorter.parents _ hmem
      · rw [show entry.1.dropLast = [] from hroot]
        have hpayloadRoot : ([payloadRoot], .directory rootMode) ∈
            ([bundleManifest], .file s.manifestMode s.manifest) :: ([payloadRoot], s.payload.root) ::
              before.map fun e ↦ (payloadRoot :: e.1, e.2) := by
          simp [hrootMode]
        exact .of_mem hnodup hpayloadRoot
      · -- the parent is not the entry itself
        obtain ⟨parent, hparent, heq⟩ := List.mem_map.mp hparent
        obtain ⟨hpath, hdir⟩ := Prod.mk.inj heq
        have hbefore : parent ∈ before := by
          rcases List.mem_append.mp hparent with hbefore | hlast
          · exact hbefore
          · rw [List.mem_singleton.mp hlast] at hpath
            have hlength : entry.1.length = entry.1.length - 1 := by
              simpa using congrArg List.length hpath
            have hpos : 0 < entry.1.length := List.length_pos_iff.mpr hne
            omega
        cases hnode : parent.2 with
        | file mode content =>
          rw [hnode] at hdir
          cases hdir
        | directory mode =>
          have hlifted : (payloadRoot :: parent.1, parent.2) ∈
              before.map fun e ↦ (payloadRoot :: e.1, e.2) := List.mem_map_of_mem hbefore
          rw [hnode, hpath] at hlifted
          exact .of_mem hnodup (List.mem_cons_of_mem _ (List.mem_cons_of_mem _ hlifted))

theorem Staging.laid (s : Staging) : Laid s.entries where
  names := s.names
  nodup := s.nodup
  parents _ _ _ := s.parents

/-- A bundle that the export has looked through is extracted to exactly what was staged. -/
theorem extractBundle_exported {s : Staging} {pax : RelPath → List (Str × Str)} {total : Nat}
    (hworld : EmptyDirectory world destination)
    (htakes : ∀ e ∈ s.entries, os.Takes (destination ++ e.1))
    (hchecked : expandedBundleSize limits (s.archive pax) = .ok total) :
    (extractBundle os limits destination world (s.archive pax)).1 = .ok () ∧
      (∀ p, p ≠ [] → (extractBundle os limits destination world (s.archive pax)).2.1.find
        (destination ++ p) = s.entries.lookup p) ∧
      ∀ path, ¬ Beneath destination path →
        (extractBundle os limits destination world (s.archive pax)).2.1.find path = world.find path := by
  have hchecks : checkHeaders limits true .start (s.entries.map (tarMember pax)) = .ok total := hchecked
  have hstart : Rep os world destination ⟨world, []⟩ [] :=
    ⟨(List.append_nil world).symm, rfl, .nil, fun _ h => absurd h List.not_mem_nil⟩
  obtain ⟨st, hstep, hrep⟩ := extractMembers_laid s.laid hworld htakes rfl hstart hchecks
  have hbundle : extractBundle os limits destination world (s.archive pax) =
      (.ok (), st.disk, st.created) := by
    unfold extractBundle
    rw [mkdirParents_destination hworld]
    show (if true = true then _ else _) = _
    rw [if_pos rfl]
    dsimp only [Staging.archive]
    rw [hstep]
  rw [hbundle]
  refine ⟨rfl, ?_, ?_⟩
  · intro p hp
    show st.disk.find _ = _
    rw [hrep.disk, find_beneath hworld hp]
  · intro path hpath
    show st.disk.find _ = _
    rw [hrep.disk]
    exact find_outside hpath hrep.fresh

def demoStaging : Staging where
  manifestMode := 0o600
  manifest := [1]
  payload := ⟨.directory 0o700, [([str "d"], .directory 0o500), ([str "d", str "f"], .file 0o400 [7, 8])],
    by decide, fun h => (by cases h)⟩
  isDir := rfl

theorem extractBundle_exported_demo :
    (extractBundle stageOs ⟨10, 100, 10⟩ [str "stage"] stageDisk (demoStaging.archive fun _ ↦ [])).1 =
        .ok () ∧
      (extractBundle stageOs ⟨10, 100, 10⟩ [str "stage"] stageDisk
        (demoStaging.archive fun _ ↦ [])).2.1.find ([str "stage"] ++ [payloadRoot, str "d", str "f"]) =
          some (.file 0o400 [7, 8]) := by
  have hchecked : expandedBundleSize ⟨10, 100, 10⟩ (demoStaging.archive fun _ ↦ []) = .ok 3 := by
    decide +kernel
  have htakes : ∀ e ∈ demoStaging.entries, stageOs.Takes ([str "stage"] ++ e.1) :=
    fun _ _ => ⟨rfl, fun _ => rfl, fun _ => rfl⟩
  obtain ⟨hdone, hfound, -⟩ := extractBundle_exported stageDisk_empty htakes hchecked
  exact ⟨hdone, hfound _ (by decide)⟩

end NixNas.State
