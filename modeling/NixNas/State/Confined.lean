import Mathlib.Data.List.Induction
import NixNas.Lib.Association
import NixNas.State.Extract

/-!
# What an extraction leaves

Everything that an extraction makes stands below the destination, in the order of its creation.
-/

open Association

namespace NixNas.State

variable {os : Os} {limits : Limits} {world d : Disk} {destination : OsPath}
  {made : List (RelPath × Node Mode)} {p q base ext : RelPath} {name : Str} {node : Node Mode}
variable {l : Disk} {st : Extraction}

/-! ## Entries by their paths -/

def lift (destination : OsPath) (made : List (RelPath × Node Mode)) : Disk :=
  made.map fun e ↦ (destination ++ e.1, e.2)

theorem lookup_lift : (lift destination made).lookup (destination ++ p) = made.lookup p := by
  induction made with
  | nil => rfl
  | cons e made ih =>
    obtain ⟨q, node⟩ := e
    rw [lift, List.map_cons, List.lookup_cons, List.lookup_cons]
    have hbeq : ((destination ++ p) == (destination ++ q)) = (p == q) := by
      rw [Bool.eq_iff_iff, beq_iff_eq, beq_iff_eq, List.append_cancel_left_eq]
    rw [hbeq]
    cases p == q with
    | true => rfl
    | false => exact ih

theorem lookup_lift_outside (h : ¬ ∃ p, q = destination ++ p ∧ p ∈ made.map Prod.fst) :
    (lift destination made).lookup q = none := by
  rw [lookup_eq_none_iff, lift, List.map_map, List.mem_map]
  rintro ⟨e, he, rfl⟩
  exact h ⟨e.1, rfl, List.mem_map_of_mem he⟩

/-! ## The destination -/

structure EmptyDirectory (world : Disk) (destination : OsPath) : Prop where
  dirs : ∀ front, front <+: destination → world.DirAt front
  empty : ∀ e ∈ world, ¬ Beneath destination e.1

theorem beneath_append (h : p ≠ []) : Beneath destination (destination ++ p) := by
  refine ⟨List.prefix_append _ _, fun heq => h ?_⟩
  exact List.append_right_eq_self.mp heq

theorem find_beneath (hworld : EmptyDirectory world destination) (h : p ≠ []) :
    (world ++ lift destination made).find (destination ++ p) = made.lookup p := by
  have hne : destination ++ p ≠ [] := fun heq => h (List.append_eq_nil_iff.mp heq).2
  rw [Disk.find, if_neg hne, lookup_append_none, lookup_lift]
  rw [lookup_eq_none_iff, List.mem_map]
  rintro ⟨e, he, heq⟩
  exact hworld.empty e he (heq ▸ beneath_append h)

theorem dirAt_front (hworld : EmptyDirectory world destination) (hfront : q <+: destination)
    (l : Disk) : Disk.DirAt (world ++ l) q := by
  obtain ⟨mode, hmode⟩ := hworld.dirs q hfront
  refine ⟨mode, ?_⟩
  unfold Disk.find at hmode ⊢
  split
  · rwa [if_pos (by assumption)] at hmode
  · rw [if_neg (by assumption)] at hmode
    exact lookup_append_some hmode

/-- The destination itself, or a directory that was made below it. -/
def HasDir (made : List (RelPath × Node Mode)) (p : RelPath) : Prop :=
  p = [] ∨ ∃ mode, made.lookup p = some (.directory mode)

theorem dirAt_iff (hworld : EmptyDirectory world destination) :
    Disk.DirAt (world ++ lift destination made) (destination ++ p) ↔ HasDir made p := by
  by_cases h : p = []
  · subst h
    rw [List.append_nil]
    exact iff_of_true (dirAt_front hworld List.prefix_rfl _) (.inl rfl)
  · unfold Disk.DirAt HasDir
    rw [find_beneath hworld h, or_iff_right h]

theorem walk_destination (hworld : EmptyDirectory world destination) :
    (world ++ lift destination made).walk [] (destination ++ p) =
      (world ++ lift destination made).walk destination p := by
  apply walk_append
  intro before hbefore _
  exact dirAt_front hworld hbefore _

theorem walk_found (hworld : EmptyDirectory world destination) (hp : p ≠ [])
    (hdirs : ∀ before, before <+: p → before ≠ p → HasDir made before) :
    (world ++ lift destination made).walk [] (destination ++ p) = .ok (made.lookup p) := by
  rw [walk_destination hworld, walk_of_dirs, find_beneath hworld hp]
  intro before hbefore hne
  exact (dirAt_iff hworld).mpr (hdirs before hbefore hne)

theorem walk_missing (hworld : EmptyDirectory world destination)
    (hdirs : ∀ before, before <+: base → HasDir made before)
    (habsent : made.lookup (base ++ [name]) = none) :
    (world ++ lift destination made).walk [] (destination ++ (base ++ name :: ext)) = .ok none := by
  rw [walk_destination hworld]
  apply walk_absent
  · intro before hbefore
    exact (dirAt_iff hworld).mpr (hdirs before hbefore)
  · rw [find_beneath hworld (List.concat_ne_nil _ _), habsent]

/-! ## What was made -/

/-- Every entry stands in a directory that was made before it. -/
inductive Fresh : List (RelPath × Node Mode) → Prop where
  | nil : Fresh []
  | push {made : List (RelPath × Node Mode)} {p : RelPath} {node : Node Mode} (h : Fresh made)
      (hne : p ≠ []) (hnames : ∀ name ∈ p, IsName name) (habsent : made.lookup p = none)
      (hparent : HasDir made p.dropLast) : Fresh (made ++ [(p, node)])

theorem HasDir.append (h : HasDir made p) (l : List (RelPath × Node Mode)) :
    HasDir (made ++ l) p := by
  rcases h with h | ⟨mode, h⟩
  · exact .inl h
  · exact .inr ⟨mode, lookup_append_some h⟩

theorem prefix_dropLast (h : q <+: p) (hne : q ≠ p) : q <+: p.dropLast := by
  obtain ⟨rest, rfl⟩ := h
  have hrest : rest ≠ [] := fun hnil => hne (by rw [hnil, List.append_nil])
  rw [List.dropLast_append_of_ne_nil hrest]
  exact List.prefix_append _ _

theorem Fresh.dirs (h : Fresh made) (hp : made.lookup p ≠ none) :
    ∀ before, before <+: p → before ≠ p → HasDir made before := by
  induction h generalizing p with
  | nil => exact absurd rfl hp
  | @push made q node h hne hnames habsent hparent ih =>
    intro before hbefore hbne
    by_cases hold : made.lookup p = none
    · rw [lookup_append_none hold] at hp
      have hpq : p = q := by
        by_contra hpq
        rw [List.lookup_cons, beq_false_of_ne hpq] at hp
        exact hp rfl
      subst hpq
      -- the directory of the new entry, or one above it
      have hdrop : before <+: p.dropLast := prefix_dropLast hbefore hbne
      by_cases heq : before = p.dropLast
      · rw [heq]
        exact hparent.append _
      · rcases hparent with hroot | ⟨mode, hmode⟩
        · rw [hroot] at hdrop
          exact absurd (List.prefix_nil.mp hdrop) (by rwa [hroot] at heq)
        · exact (ih (by rw [hmode]; exact nofun) before hdrop heq).append _
    · exact (ih hold before hbefore hbne).append _

theorem Fresh.entry (h : Fresh made) : ∀ e ∈ made, e.1 ≠ [] ∧ ∀ name ∈ e.1, IsName name := by
  induction h with
  | nil => exact nofun
  | push h hne hnames habsent hparent ih =>
    intro e he
    rcases List.mem_append.mp he with hold | hnew
    · exact ih e hold
    · rw [List.mem_singleton.mp hnew]
      exact ⟨hne, hnames⟩

/-! ## Parents -/

def chain (base : RelPath) : RelPath → List RelPath
  | [] => []
  | name :: ext => (base ++ [name]) :: chain (base ++ [name]) ext

theorem chain_concat : chain base (ext ++ [name]) = chain base ext ++ [base ++ (ext ++ [name])] := by
  induction ext generalizing base with
  | nil => rfl
  | cons first ext ih =>
    rw [List.cons_append, chain, ih, chain, List.append_assoc]
    rfl

theorem mem_chain : p ∈ chain base ext ↔ ∃ before, before <+: ext ∧ before ≠ [] ∧ p = base ++ before := by
  induction ext using List.reverseRecOn with
  | nil =>
    refine iff_of_false List.not_mem_nil ?_
    rintro ⟨before, hbefore, hne, -⟩
    exact hne (List.prefix_nil.mp hbefore)
  | append_singleton ext name ih =>
    rw [chain_concat, List.mem_append, List.mem_singleton, ih]
    constructor
    · rintro (⟨before, hbefore, hne, rfl⟩ | rfl)
      · exact ⟨before, hbefore.trans (List.prefix_append _ _), hne, rfl⟩
      · exact ⟨_, List.prefix_rfl, List.concat_ne_nil _ _, rfl⟩
    · rintro ⟨before, hbefore, hne, rfl⟩
      rcases List.prefix_concat_iff.mp hbefore with rfl | hshort
      · exact .inr rfl
      · exact .inl ⟨before, hshort, hne, rfl⟩

def newDirs (os : Os) (base ext : RelPath) : List (RelPath × Node Mode) :=
  (chain base ext).map fun p ↦ (p, .directory os.directoryMode)

/-- Where the walk up stops: all below is missing and within reach. -/
structure Missing (os : Os) (destination : OsPath) (made : List (RelPath × Node Mode))
    (base ext : RelPath) : Prop where
  absent : ∀ before, before <+: ext → before ≠ [] → made.lookup (base ++ before) = none
  reaches : ∀ before, before <+: ext → before ≠ [] →
    os.reaches (destination ++ (base ++ before)) = true

theorem newDirs_cons : newDirs os base (name :: ext) =
    (base ++ [name], .directory os.directoryMode) :: newDirs os (base ++ [name]) ext := rfl

theorem Fresh.chain (h : Fresh made) (os : Os) (hbase : HasDir made base)
    (hnames : ∀ name ∈ base ++ ext, IsName name)
    (habsent : ∀ before, before <+: ext → before ≠ [] → made.lookup (base ++ before) = none) :
    Fresh (made ++ newDirs os base ext) ∧
      ∀ before, before <+: ext → HasDir (made ++ newDirs os base ext) (base ++ before) := by
  induction ext generalizing made base with
  | nil =>
    refine ⟨by rwa [newDirs, State.chain, List.map_nil, List.append_nil], fun before hbefore => ?_⟩
    rw [List.prefix_nil.mp hbefore, List.append_nil]
    exact hbase.append _
  | cons name ext ih =>
    have hassoc : base ++ name :: ext = base ++ [name] ++ ext := by simp
    have hnone : made.lookup (base ++ [name]) = none :=
      habsent [name] ⟨ext, rfl⟩ (List.cons_ne_nil _ _)
    have hnext : Fresh (made ++ [(base ++ [name], Node.directory os.directoryMode)]) := by
      refine h.push (List.concat_ne_nil _ _) ?_ hnone ?_
      · intro n hn
        apply hnames n
        rw [hassoc]
        exact List.mem_append_left _ hn
      · rw [List.dropLast_concat]
        exact hbase
    have hdir : HasDir (made ++ [(base ++ [name], Node.directory os.directoryMode)])
        (base ++ [name]) :=
      .inr ⟨os.directoryMode, by rw [lookup_append_none hnone, List.lookup_cons_self]⟩
    have hbelow := ih hnext hdir (by rwa [← hassoc]) fun before hbefore hne => by
      have hold : made.lookup (base ++ [name] ++ before) = none := by
        have hcons := habsent (name :: before) ((List.prefix_cons_inj name).mpr hbefore)
          (List.cons_ne_nil _ _)
        rwa [List.append_assoc, List.singleton_append]
      rw [lookup_append_none hold, List.lookup_cons, beq_false_of_ne, List.lookup_nil]
      exact fun heq => hne (List.append_right_eq_self.mp heq)
    rw [List.append_assoc, List.singleton_append, ← newDirs_cons] at hbelow
    refine ⟨hbelow.1, fun before hbefore => ?_⟩
    cases before with
    | nil =>
      rw [List.append_nil]
      exact hbase.append _
    | cons first before =>
      obtain ⟨rfl, hrest⟩ := List.cons_prefix_cons.mp hbefore
      have hhas := hbelow.2 before hrest
      rwa [List.append_assoc, List.singleton_append] at hhas

theorem Fresh.hasDir_prefix (h : Fresh made) (hp : HasDir made p) :
    ∀ before, before <+: p → HasDir made before := by
  intro before hbefore
  by_cases heq : before = p
  · rwa [heq]
  · rcases hp with hroot | ⟨mode, hmode⟩
    · rw [hroot] at hbefore
      exact .inl (List.prefix_nil.mp hbefore)
    · exact h.dirs (by rw [hmode]; exact nofun) before hbefore heq

theorem lookup_of_walk_none (hworld : EmptyDirectory world destination) (hfresh : Fresh made)
    (hp : p ≠ []) (h : (world ++ lift destination made).walk [] (destination ++ p) = .ok none) :
    made.lookup p = none := by
  by_contra hsome
  rw [walk_found hworld hp (hfresh.dirs hsome)] at h
  exact hsome (Except.ok.inj h)

theorem hasDir_of_walk_none (hworld : EmptyDirectory world destination) (hfresh : Fresh made)
    (h : (world ++ lift destination made).walk [] (destination ++ (base ++ [name])) = .ok none)
    (hend : base ≠ [] → made.lookup base ≠ none) : HasDir made base := by
  by_cases hbase : base = []
  · exact .inl hbase
  · cases hnode : made.lookup base with
    | none => exact absurd hnode (hend hbase)
    | some node =>
      cases node with
      | directory mode => exact .inr ⟨mode, hnode⟩
      | file mode content =>
        -- no walk goes through a file
        have hdirs := hfresh.dirs (hend hbase)
        rw [walk_destination hworld, walk_file (fun before hbefore hne =>
          (dirAt_iff hworld).mpr (hdirs before hbefore hne)) (by rw [find_beneath hworld hbase, hnode])]
          at h
        cases h

/-- What the walk up says: it has passed missing directories only, down to one that exists. -/
theorem missing_of_ok (hworld : EmptyDirectory world destination) (hfresh : Fresh made)
    {missing : List OsPath}
    (h : missingParents os destination (world ++ lift destination made) (destination ++ p) =
      .ok missing) :
    ∃ base ext, p = base ++ ext ∧ Missing os destination made base ext ∧
      missing.reverse = (chain base ext).map (destination ++ ·) ∧
      (ext ≠ [] → HasDir made base) ∧ (base ≠ [] → ext = [] →
        os.reaches (destination ++ base) = true ∧ made.lookup base ≠ none) := by
  induction p using List.reverseRecOn generalizing missing with
  | nil =>
    rw [List.append_nil, missingParents, dif_pos (.inl rfl)] at h
    cases h
    refine ⟨[], [], rfl, ⟨?_, ?_⟩, rfl, (absurd rfl ·), (absurd rfl ·)⟩
    · intro before hbefore hne
      exact absurd (List.prefix_nil.mp hbefore) hne
    · intro before hbefore hne
      exact absurd (List.prefix_nil.mp hbefore) hne
  | append_singleton p name ih =>
    have hne : ¬ (destination ++ (p ++ [name]) = destination ∨ destination ++ (p ++ [name]) = []) := by
      rintro (heq | heq)
      · exact List.concat_ne_nil _ _ (List.append_right_eq_self.mp heq)
      · exact List.concat_ne_nil _ _ (List.append_eq_nil_iff.mp heq).2
    have hdrop : (destination ++ (p ++ [name])).dropLast = destination ++ p := by
      rw [← List.append_assoc, List.dropLast_concat]
    rw [missingParents, dif_neg hne, hdrop] at h
    cases hstat : lstatType os (world ++ lift destination made) (destination ++ (p ++ [name])) with
    | error e => rw [hstat] at h; cases h
    | ok entry =>
      obtain ⟨hreaches, hwalk⟩ := lstatType_ok hstat
      rw [hstat] at h
      cases entry with
      | some node =>
        cases h
        have hfind := find_of_walk hwalk
        rw [List.nil_append, find_beneath hworld (List.concat_ne_nil _ _)] at hfind
        refine ⟨p ++ [name], [], (List.append_nil _).symm, ⟨?_, ?_⟩, rfl, (absurd rfl ·), ?_⟩
        · intro before hbefore hne
          exact absurd (List.prefix_nil.mp hbefore) hne
        · intro before hbefore hne
          exact absurd (List.prefix_nil.mp hbefore) hne
        · intro _ _
          exact ⟨hreaches, by rw [hfind]; exact nofun⟩
      | none =>
        obtain ⟨missing, hmissing, rfl⟩ := Fallible.map_ok h
        obtain ⟨base, ext, rfl, hmiss, hrecorded, hbase, hend⟩ := ih hmissing
        rw [List.append_assoc] at hreaches hwalk
        have habsent := lookup_of_walk_none hworld hfresh
          (List.append_ne_nil_of_right_ne_nil _ (List.concat_ne_nil _ _)) hwalk
        refine ⟨base, ext ++ [name], List.append_assoc _ _ _, ⟨?_, ?_⟩, ?_, fun _ => ?_, ?_⟩
        · intro before hbefore hne
          rcases List.prefix_concat_iff.mp hbefore with rfl | hshort
          · exact habsent
          · exact hmiss.absent before hshort hne
        · intro before hbefore hne
          rcases List.prefix_concat_iff.mp hbefore with rfl | hshort
          · exact hreaches
          · exact hmiss.reaches before hshort hne
        · rw [List.reverse_cons, hrecorded, chain_concat, List.map_append, List.map_singleton,
            List.append_assoc]
        · by_cases hext : ext = []
          · subst hext
            exact hasDir_of_walk_none hworld hfresh hwalk fun hne => (hend hne rfl).2
          · exact hbase hext
        · intro _ hnil
          exact absurd hnil (List.concat_ne_nil _ _)

theorem walk_hasDir (hworld : EmptyDirectory world destination) (hfresh : Fresh made)
    (h : HasDir made p) : ∃ mode,
      (world ++ lift destination made).walk [] (destination ++ p) = .ok (some (.directory mode)) := by
  have hdir := (dirAt_iff hworld).mpr h
  obtain ⟨mode, hmode⟩ := hdir
  refine ⟨mode, ?_⟩
  rw [walk_destination hworld, walk_of_dirs, hmode]
  intro before hbefore _
  exact (dirAt_iff hworld).mpr (hfresh.hasDir_prefix h before hbefore)

theorem lift_append (l : List (RelPath × Node Mode)) :
    lift destination (made ++ l) = lift destination made ++ lift destination l := List.map_append

theorem dropLast_append_concat (path : OsPath) : (path ++ (p ++ [name])).dropLast = path ++ p := by
  rw [← List.append_assoc, List.dropLast_concat]

/-- The directories that the operating system makes, one after the other, until it has no room. -/
def Os.makes (os : Os) (d : Disk) : List OsPath → List OsPath
  | [] => []
  | path :: rest =>
    if os.hasRoom d path then path :: os.makes (d ++ [(path, .directory os.directoryMode)]) rest
    else []

theorem makes_concat (paths : List OsPath) (path : OsPath) :
    os.makes d (paths ++ [path]) =
      if os.makes d paths = paths ∧
          os.hasRoom (d ++ paths.map fun p ↦ (p, .directory os.directoryMode)) path = true then
        paths ++ [path]
      else os.makes d paths := by
  induction paths generalizing d with
  | nil => simp [Os.makes]
  | cons first paths ih =>
    rw [List.cons_append, Os.makes, Os.makes]
    by_cases hroom : os.hasRoom d first = true
    · rw [if_pos hroom, if_pos hroom, ih, List.map_cons, ← List.append_cons]
      split
      · rename_i hall
        rw [if_pos ⟨by rw [hall.1], hall.2⟩]
      · rename_i hall
        rw [if_neg]
        exact fun h => hall ⟨(List.cons.inj h.1).2, h.2⟩
    · rw [if_neg hroom, if_neg hroom, if_neg]
      rintro ⟨hnil, -⟩
      cases hnil

theorem makes_of_room {paths : List OsPath}
    (hroom : ∀ d path, os.hasRoom d path = true) : os.makes d paths = paths := by
  induction paths generalizing d with
  | nil => rfl
  | cons path paths ih => rw [Os.makes, if_pos (hroom d path), ih]

theorem makes_front (os : Os) (d : Disk) (paths : List OsPath) : os.makes d paths <+: paths := by
  induction paths generalizing d with
  | nil => exact List.prefix_rfl
  | cons path paths ih =>
    rw [Os.makes]
    split
    · exact (List.prefix_cons_inj path).mpr (ih _)
    · exact List.nil_prefix

theorem lift_newDirs : lift destination (newDirs os base ext) =
    ((chain base ext).map (destination ++ ·)).map fun p ↦ (p, .directory os.directoryMode) := by
  unfold lift newDirs
  rw [List.map_map, List.map_map]
  rfl

/-- In a directory a new one can be made if there is room for it. -/
theorem mkdir_new (hworld : EmptyDirectory world destination) (hfresh : Fresh made)
    (hdir : HasDir made p) (habsent : made.lookup (p ++ [name]) = none)
    (hreaches : os.reaches (destination ++ (p ++ [name])) = true) :
    (world ++ lift destination made).isDir (destination ++ (p ++ [name])) = false ∧
      mkdir os (world ++ lift destination made) (destination ++ (p ++ [name])) =
        if os.hasRoom (world ++ lift destination made) (destination ++ (p ++ [name])) then
          .ok (world ++ lift destination made ++
            [(destination ++ (p ++ [name]), .directory os.directoryMode)])
        else .error .noSpace := by
  obtain ⟨mode, hwalk⟩ := walk_hasDir hworld hfresh hdir
  have hgone : (world ++ lift destination made).walk [] (destination ++ (p ++ [name])) = .ok none :=
    walk_missing hworld (hfresh.hasDir_prefix hdir) habsent
  have hparent := hwalk
  rw [← dropLast_append_concat destination] at hparent
  exact ⟨by rw [Disk.isDir, hgone], mkdir_absent hreaches hgone hparent⟩

/-- Two directories below the last one that exists none can be made. -/
theorem mkdir_deep (hworld : EmptyDirectory world destination) (hfresh : Fresh made)
    (hmiss : Missing os destination made base (ext ++ [name])) (hbase : HasDir made base)
    (hext : ext ≠ []) :
    mkdir os (world ++ lift destination made) (destination ++ (base ++ ext ++ [name])) =
      .error .notFound := by
  have hwalk : ∀ rest, (world ++ lift destination made).walk [] (destination ++
      (base ++ (ext ++ rest))) = .ok none := by
    intro rest
    obtain ⟨first, ext, rfl⟩ := List.exists_cons_of_ne_nil hext
    rw [List.cons_append]
    exact walk_missing hworld (hfresh.hasDir_prefix hbase)
      (hmiss.absent [first] ⟨ext ++ [name], rfl⟩ (List.cons_ne_nil _ _))
  have hparent := hwalk []
  rw [List.append_nil] at hparent
  apply mkdir_notFound
  · rw [List.append_assoc]
    exact hmiss.reaches _ List.prefix_rfl (List.concat_ne_nil name ext)
  · rw [List.append_assoc]
    exact hwalk [name]
  · rwa [dropLast_append_concat]

/-- The missing directories are made from the one that exists down, as far as there is room. -/
theorem mkdirParents_missing (hworld : EmptyDirectory world destination) (hfresh : Fresh made)
    (hmiss : Missing os destination made base ext) (hbase : HasDir made base)
    (hnames : ∀ name ∈ base ++ ext, IsName name) {paths : List OsPath}
    (hpaths : paths = (chain base ext).map (destination ++ ·)) :
    mkdirParents os (world ++ lift destination made) (destination ++ (base ++ ext)) =
      (if os.makes (world ++ lift destination made) paths = paths then .ok () else .error .noSpace,
        world ++ lift destination made ++ (os.makes (world ++ lift destination made) paths).map
          fun p ↦ (p, .directory os.directoryMode)) := by
  subst hpaths
  induction ext using List.reverseRecOn with
  | nil =>
    obtain ⟨mode, hwalk⟩ := walk_hasDir hworld hfresh hbase
    obtain ⟨e, he⟩ := mkdirParents_exists os hwalk
    rw [List.append_nil, he, Disk.isDir, hwalk]
    simp [chain, Os.makes]
  | append_singleton ext name ih =>
    have hshorter : Missing os destination made base ext :=
      ⟨fun before hbefore => hmiss.absent before (hbefore.trans (List.prefix_append _ _)),
        fun before hbefore => hmiss.reaches before (hbefore.trans (List.prefix_append _ _))⟩
    have hreaches := hmiss.reaches _ List.prefix_rfl (List.concat_ne_nil name ext)
    have habsent := hmiss.absent _ List.prefix_rfl (List.concat_ne_nil name ext)
    rw [chain_concat, List.map_append, List.map_singleton, makes_concat]
    rw [← List.append_assoc base] at hreaches habsent hnames ⊢
    have hnames' : ∀ n ∈ base ++ ext, IsName n := fun n hn => hnames n (List.mem_append_left _ hn)
    by_cases hext : ext = []
    · subst hext
      rw [List.append_nil] at hreaches habsent ⊢
      obtain ⟨hnotDir, hmkdir⟩ := mkdir_new hworld hfresh hbase habsent hreaches
      by_cases hroom :
          os.hasRoom (world ++ lift destination made) (destination ++ (base ++ [name])) = true
      · rw [if_pos hroom] at hmkdir
        simp [mkdirParents, hmkdir, chain, Os.makes, hroom]
      · rw [if_neg hroom] at hmkdir
        simp [mkdirParents, hmkdir, chain, Os.makes, hroom, hnotDir]
    · -- the parent is missing as well, and is made first
      have hchain := hfresh.chain os hbase hnames' hshorter.absent
      have hnone : (made ++ newDirs os base ext).lookup (base ++ ext ++ [name]) = none := by
        rw [lookup_append_none habsent, lookup_eq_none_iff, newDirs, List.map_map]
        intro hmem
        obtain ⟨p, hp, heq⟩ := List.mem_map.mp hmem
        obtain ⟨before, hbefore, -, rfl⟩ := mem_chain.mp hp
        rw [List.append_assoc] at heq
        have hlength := hbefore.length_le
        rw [List.append_cancel_left heq, List.length_append, List.length_singleton] at hlength
        omega
      obtain ⟨hnotDir, hmkdir⟩ :=
        mkdir_new hworld hchain.1 (hchain.2 ext List.prefix_rfl) hnone hreaches
      rw [lift_append, lift_newDirs, ← List.append_assoc] at hnotDir hmkdir
      have hne : destination ++ (base ++ ext ++ [name]) ≠ [] := by simp
      rw [mkdirParents, mkdir_deep hworld hfresh hmiss hbase hext]
      simp only [dif_neg hne, dropLast_append_concat, ih hshorter hnames']
      generalize hpaths : (chain base ext).map (destination ++ ·) = paths at *
      by_cases hall : os.makes (world ++ lift destination made) paths = paths
      · rw [hall]
        simp only [true_and, if_true]
        generalize hdisk : world ++ lift destination made ++ paths.map
          (fun p ↦ (p, Node.directory os.directoryMode)) = d' at hnotDir hmkdir ⊢
        by_cases hroom : os.hasRoom d' (destination ++ (base ++ ext ++ [name])) = true
        · rw [if_pos hroom] at hmkdir
          rw [hmkdir, if_pos hroom, if_pos rfl, List.map_append, ← List.append_assoc _ (paths.map _), hdisk]
          rfl
        · rw [if_neg hroom] at hmkdir
          rw [hmkdir, if_neg hroom, hnotDir, hdisk]
          simp
      · have hlonger : os.makes (world ++ lift destination made) paths ≠
            paths ++ [destination ++ (base ++ ext ++ [name])] := by
          intro heq
          have hlength := (makes_front os (world ++ lift destination made) paths).length_le
          rw [heq, List.length_append, List.length_singleton] at hlength
          omega
        have hnotAll : ¬ (os.makes (world ++ lift destination made) paths = paths ∧ os.hasRoom
            (world ++ lift destination made ++ paths.map fun p ↦ (p, .directory os.directoryMode))
            (destination ++ (base ++ ext ++ [name])) = true) := fun h => hall h.1
        rw [if_neg hall, if_neg hnotAll, if_neg hlonger]

/-! ## Changes of an entry -/

variable {f : Node Mode → Node Mode}

theorem update_append {l' : Disk} : (l ++ l').update p f = l.update p f ++ l'.update p f :=
  List.map_append

theorem update_of_notMem (h : p ∉ l.map Prod.fst) : l.update p f = l := by
  apply (List.map_congr_left fun e he => ?_).trans (List.map_id l)
  rw [if_neg fun heq => h (List.mem_map.mpr ⟨e, he, heq⟩)]
  rfl

theorem update_lift (hworld : EmptyDirectory world destination) (hp : p ≠ []) :
    Disk.update (world ++ lift destination made) (destination ++ p) f =
      world ++ lift destination (Disk.update made p f) := by
  rw [update_append, update_of_notMem]
  · unfold lift Disk.update
    rw [List.map_map, List.map_map]
    congr 1
    apply List.map_congr_left
    intro e _
    show (if destination ++ e.1 = destination ++ p then _ else _) = _
    by_cases heq : e.1 = p
    · rw [if_pos (by rw [heq])]
      show _ = (destination ++ (if e.1 = p then _ else _ : RelPath × Node Mode).1, _)
      rw [if_pos heq]
      show _ = (_, (if e.1 = p then _ else _ : RelPath × Node Mode).2)
      rw [if_pos heq]
    · rw [if_neg fun h => heq (List.append_cancel_left h)]
      show _ = (destination ++ (if e.1 = p then _ else _ : RelPath × Node Mode).1,
        (if e.1 = p then _ else _ : RelPath × Node Mode).2)
      rw [if_neg heq]
  · intro hmem
    obtain ⟨e, he, heq⟩ := List.mem_map.mp hmem
    exact hworld.empty e he (heq ▸ beneath_append hp)

theorem lookup_update :
    (l.update p f).lookup q = (l.lookup q).map fun node ↦ if q = p then f node else node := by
  induction l with
  | nil => rfl
  | cons e l ih =>
    obtain ⟨key, node⟩ := e
    show List.lookup q ((if key = p then (key, f node) else (key, node)) :: Disk.update l p f) = _
    by_cases hq : q = key
    · subst hq
      rw [List.lookup_cons_self]
      by_cases hp : q = p
      · rw [if_pos hp, List.lookup_cons_self, Option.map_some, if_pos hp]
      · rw [if_neg hp, List.lookup_cons_self, Option.map_some, if_neg hp]
    · -- the entry is passed, changed or not
      have hskip : List.lookup q ((if key = p then (key, f node) else (key, node)) ::
          Disk.update l p f) = List.lookup q (Disk.update l p f) := by
        split <;> rw [List.lookup_cons, beq_false_of_ne hq]
      rw [hskip, ih, List.lookup_cons, beq_false_of_ne hq]

theorem HasDir.update (h : HasDir made q) (hf : ∀ node, (f node).isDir = node.isDir) :
    HasDir (Disk.update made p f) q := by
  rcases h with h | ⟨mode, h⟩
  · exact .inl h
  · right
    rw [lookup_update, h, Option.map_some]
    by_cases hq : q = p
    · rw [if_pos hq]
      have hdir := hf (.directory mode)
      cases hnode : f (.directory mode) with
      | directory mode' => exact ⟨mode', rfl⟩
      | file mode' content => rw [hnode] at hdir; cases hdir
    · rw [if_neg hq]
      exact ⟨mode, rfl⟩

theorem Fresh.update (h : Fresh made) (hf : ∀ node, (f node).isDir = node.isDir) :
    Fresh (Disk.update made p f) := by
  induction h with
  | nil => exact .nil
  | @push made q node h hne hnames habsent hparent ih =>
    rw [update_append]
    have hnone : (Disk.update made p f).lookup q = none := by rw [lookup_update, habsent]; rfl
    have hlast : Disk.update [(q, node)] p f = [(q, if q = p then f node else node)] := by
      unfold Disk.update
      rw [List.map_singleton]
      split <;> rfl
    rw [hlast]
    exact ih.push hne hnames hnone (hparent.update hf)

theorem map_fst_update : (Disk.update made p f).map Prod.fst = made.map Prod.fst := by
  unfold Disk.update
  rw [List.map_map]
  apply List.map_congr_left
  intro e _
  show (if e.1 = p then (e.1, f e.2) else e).1 = e.1
  split <;> rfl

/-! ## The steps of an extraction -/

structure Rep (os : Os) (world : Disk) (destination : OsPath) (st : Extraction)
    (made : List (RelPath × Node Mode)) : Prop where
  disk : st.disk = world ++ lift destination made
  created : st.created = (made.map Prod.fst).map (destination ++ ·)
  fresh : Fresh made
  reaches : ∀ p ∈ made.map Prod.fst, os.reaches (destination ++ p) = true

theorem Rep.update (hworld : EmptyDirectory world destination)
    (h : Rep os world destination st made) (hp : p ≠ [])
    (hf : ∀ node, (f node).isDir = node.isDir) :
    Rep os world destination { st with disk := st.disk.update (destination ++ p) f }
      (Disk.update made p f) where
  disk := by
    show st.disk.update _ _ = _
    rw [h.disk, update_lift hworld hp]
  created := by
    rw [map_fst_update]
    exact h.created
  fresh := h.fresh.update hf
  reaches := by
    rw [map_fst_update]
    exact h.reaches

theorem Rep.write (hworld : EmptyDirectory world destination)
    (h : Rep os world destination st made) (hp : p ≠ []) (content : List UInt8) :
    Rep os world destination { st with disk := writeFile st.disk (destination ++ p) content }
      (writeFile made p content) := by
  apply h.update hworld hp
  intro node
  cases node <;> rfl

theorem Rep.push (h : Rep os world destination st made) (hne : p ≠ [])
    (hnames : ∀ name ∈ p, IsName name) (habsent : made.lookup p = none)
    (hparent : HasDir made p.dropLast) (hreaches : os.reaches (destination ++ p) = true)
    (node : Node Mode) :
    Rep os world destination ⟨st.disk ++ [(destination ++ p, node)], st.created ++ [destination ++ p]⟩
      (made ++ [(p, node)]) where
  disk := by
    show st.disk ++ _ = _
    rw [h.disk, lift_append, List.append_assoc]
    rfl
  created := by
    show st.created ++ _ = _
    rw [h.created, List.map_append, List.map_append]
    rfl
  fresh := h.fresh.push hne hnames habsent hparent
  reaches q hq := by
    rw [List.map_append, List.mem_append] at hq
    rcases hq with hold | hlast
    · exact h.reaches q hold
    · rw [List.mem_singleton.mp hlast]
      exact hreaches

/-- Of the directories that are missing at the path the operating system makes the first one, and not
all of them. -/
def PartlyMade (os : Os) (destination : OsPath) (d : Disk) (path : OsPath) : Prop :=
  ∃ missing, missingParents os destination d path = .ok missing ∧
    os.makes d missing.reverse ≠ [] ∧ os.makes d missing.reverse ≠ missing.reverse

instance (path : OsPath) : Decidable (PartlyMade os destination d path) :=
  match h : missingParents os destination d path with
  | .error _ => .isFalse (by rintro ⟨_, hok, _⟩; rw [h] at hok; cases hok)
  | .ok missing => decidable_of_iff
      (os.makes d missing.reverse ≠ [] ∧ os.makes d missing.reverse ≠ missing.reverse)
      ⟨fun hmade => ⟨missing, h, hmade⟩,
        by rintro ⟨_, hok, hmade⟩; rw [h] at hok; cases hok; exact hmade⟩

/-- Below the destination stands an entry that was not recorded. -/
def Leaves (destination : OsPath) (st : Extraction) : Prop :=
  ∃ e ∈ st.disk, Beneath destination e.1 ∧ e.1 ∉ st.created

theorem leaves_makes (h : Rep os world destination st made)
    (hmiss : Missing os destination made base ext) {paths : List OsPath}
    (hsub : paths ⊆ (chain base ext).map (destination ++ ·)) (hne : paths ≠ []) :
    Leaves destination { st with
      disk := world ++ lift destination made ++ paths.map fun p ↦ (p, .directory os.directoryMode) } := by
  obtain ⟨path, rest, rfl⟩ := List.exists_cons_of_ne_nil hne
  obtain ⟨p, hp, rfl⟩ := List.mem_map.mp (hsub List.mem_cons_self)
  obtain ⟨before, hbefore, hbne, rfl⟩ := mem_chain.mp hp
  refine ⟨(destination ++ (base ++ before), .directory os.directoryMode), ?_, ?_, ?_⟩
  · exact List.mem_append_right _ List.mem_cons_self
  · exact beneath_append fun hnil => hbne (List.append_eq_nil_iff.mp hnil).2
  · show destination ++ (base ++ before) ∉ st.created
    rw [h.created, List.mem_map]
    rintro ⟨q, hq, heq⟩
    rw [List.append_cancel_left heq] at hq
    exact lookup_eq_none_iff.mp (hmiss.absent before hbefore hbne) hq

/-- `_prepare_parent` leaves all as it was, or makes the missing directories and records them, unless
the operating system refuses one of them behind others. -/
theorem prepareParent_cases (os : Os) (hworld : EmptyDirectory world destination)
    (h : Rep os world destination st made) (hnames : ∀ name ∈ p, IsName name) (raised : StateError) :
    (¬ PartlyMade os destination st.disk (destination ++ p) ∧
      ((∃ e, prepareParent os destination raised st (destination ++ p) = (.error e, st)) ∨
        ∃ base ext st', p = base ++ ext ∧ HasDir made base ∧
          (∀ before, before <+: ext → before ≠ [] → made.lookup (base ++ before) = none) ∧
          prepareParent os destination raised st (destination ++ p) = (.ok (), st') ∧
          Rep os world destination st' (made ++ newDirs os base ext))) ∨
    PartlyMade os destination st.disk (destination ++ p) ∧
      ∃ e st', prepareParent os destination raised st (destination ++ p) = (.error e, st') ∧
        Leaves destination st' := by
  unfold prepareParent
  rw [h.disk]
  cases hmissing : missingParents os destination (world ++ lift destination made)
      (destination ++ p) with
  | error e =>
    refine .inl ⟨?_, .inl ⟨raised, rfl⟩⟩
    rintro ⟨missing, hok, -⟩
    rw [hmissing] at hok
    cases hok
  | ok missing =>
    have hpartly : PartlyMade os destination (world ++ lift destination made) (destination ++ p) ↔
        os.makes (world ++ lift destination made) missing.reverse ≠ [] ∧
          os.makes (world ++ lift destination made) missing.reverse ≠ missing.reverse := by
      constructor
      · rintro ⟨other, hok, hmade⟩
        rw [hmissing] at hok
        cases hok
        exact hmade
      · exact fun hmade => ⟨missing, hmissing, hmade⟩
    rw [hpartly]
    obtain ⟨base, ext, rfl, hmiss, hrecorded, hbase, hend⟩ := missing_of_ok hworld h.fresh hmissing
    by_cases hdir : HasDir made base
    · rw [mkdirParents_missing hworld h.fresh hmiss hdir hnames hrecorded]
      by_cases hall : os.makes (world ++ lift destination made) missing.reverse = missing.reverse
      · rw [hall, if_pos rfl]
        refine .inl ⟨fun hpartly => hpartly.2 rfl, .inr ?_⟩
        have hkeys : (newDirs os base ext).map Prod.fst = chain base ext := by
          rw [newDirs, List.map_map]
          exact List.map_id _
        refine ⟨base, ext, _, rfl, hdir, hmiss.absent, rfl, ?_, ?_, ?_, ?_⟩
        · show world ++ lift destination made ++ _ = _
          rw [hrecorded, lift_append, lift_newDirs, List.append_assoc]
        · show st.created ++ _ = _
          rw [h.created, hrecorded, List.map_append, List.map_append, hkeys]
        · exact (h.fresh.chain os hdir hnames hmiss.absent).1
        · intro q hq
          rw [List.map_append, hkeys, List.mem_append] at hq
          rcases hq with hold | hnew
          · exact h.reaches q hold
          · obtain ⟨before, hbefore, hne, rfl⟩ := mem_chain.mp hnew
            exact hmiss.reaches before hbefore hne
      · rw [if_neg hall]
        by_cases hfirst : os.makes (world ++ lift destination made) missing.reverse = []
        · -- not even the first one
          refine .inl ⟨fun hpartly => hpartly.1 hfirst, .inl ⟨.cannotPrepare, ?_⟩⟩
          rw [hfirst, List.map_nil, List.append_nil, ← h.disk]
        · refine .inr ⟨⟨hfirst, hall⟩, .cannotPrepare, _, rfl, leaves_makes h hmiss ?_ hfirst⟩
          rw [← hrecorded]
          exact (makes_front os _ _).subset
    · -- a file stands in the place of the parent
      by_cases hext : ext = []
      · subst hext
        rw [List.append_nil] at *
        refine .inl ⟨?_, .inl ?_⟩
        · rw [hrecorded]
          exact fun hpartly => hpartly.1 rfl
        have hbne : base ≠ [] := fun hnil => hdir (.inl hnil)
        obtain ⟨-, hsome⟩ := hend hbne rfl
        cases hnode : made.lookup base with
        | none => exact absurd hnode hsome
        | some node =>
          cases node with
          | directory mode => exact absurd (.inr ⟨mode, hnode⟩) hdir
          | file mode content =>
            have hwalk := walk_found hworld hbne (h.fresh.dirs hsome)
            rw [hnode] at hwalk
            obtain ⟨e, he⟩ := mkdirParents_exists os hwalk
            refine ⟨.cannotPrepare, ?_⟩
            dsimp only
            rw [he, Disk.isDir, hwalk, if_neg Bool.false_ne_true, ← h.disk]
      · exact absurd (hbase hext) hdir

/-- One entry is placed, and directories above it where there were none. -/
structure Placed (os : Os) (made made' : List (RelPath × Node Mode)) (p : RelPath)
    (node : Node Mode) : Prop where
  here : made'.lookup p = some node
  others : ∀ q, q ≠ p → made'.lookup q = made.lookup q ∨
    made.lookup q = none ∧ made'.lookup q = some (.directory os.directoryMode) ∧ q ≠ [] ∧ q <+: p

theorem lookup_newDirs : (newDirs os base ext).lookup q =
    if q ∈ chain base ext then some (.directory os.directoryMode) else none := by
  unfold newDirs
  induction chain base ext with
  | nil => rfl
  | cons p ps ih =>
    rw [List.map_cons, List.lookup_cons]
    by_cases hq : q = p
    · rw [hq, beq_self_eq_true, if_pos List.mem_cons_self]
    · rw [beq_false_of_ne hq, ih]
      simp only [List.mem_cons, hq, false_or]

theorem placed_push (hdrop : p.dropLast = base ++ ext)
    (hnone : (made ++ newDirs os base ext).lookup p = none) :
    Placed os made (made ++ newDirs os base ext ++ [(p, node)]) p node where
  here := by rw [lookup_append_none hnone, List.lookup_cons_self]
  others q hq := by
    cases hold : made.lookup q with
    | some old =>
      left
      rw [List.append_assoc, lookup_append_some hold]
    | none =>
      by_cases hchain : q ∈ chain base ext
      · right
        obtain ⟨before, hbefore, hne, rfl⟩ := mem_chain.mp hchain
        refine ⟨rfl, ?_, List.append_ne_nil_of_right_ne_nil _ hne, ?_⟩
        · rw [List.append_assoc, lookup_append_none hold]
          apply lookup_append_some
          rw [lookup_newDirs, if_pos hchain]
        · have habove : base ++ before <+: p.dropLast := by
            rw [hdrop]
            exact (List.prefix_append_right_inj base).mpr hbefore
          exact habove.trans (List.dropLast_prefix p)
      · left
        rw [List.append_assoc, lookup_append_none hold, lookup_append_none, List.lookup_cons,
          beq_false_of_ne hq, List.lookup_nil]
        rw [lookup_newDirs, if_neg hchain]

theorem notMem_chain (hdrop : p.dropLast = base ++ ext) (hne : p ≠ []) : p ∉ chain base ext := by
  intro hmem
  obtain ⟨before, hbefore, -, heq⟩ := mem_chain.mp hmem
  have hlength := hbefore.length_le
  have hshort := congrArg List.length hdrop
  rw [heq, List.length_dropLast, List.length_append, List.length_append] at hshort
  have hpos := List.length_pos_iff.mpr hne
  rw [heq, List.length_append] at hpos
  omega

theorem hasDir_nil_or (h : p.dropLast = base ++ ext)
    (hall : ∀ before, before <+: ext → HasDir made (base ++ before)) : HasDir made p.dropLast := by
  rw [h]
  exact hall ext List.prefix_rfl

theorem dropLast_destination (hp : p ≠ []) :
    (destination ++ p).dropLast = destination ++ p.dropLast := List.dropLast_append_of_ne_nil hp

theorem Placed.update {made' : List (RelPath × Node Mode)} (h : Placed os made made' p node) :
    Placed os made (Disk.update made' p f) p (f node) where
  here := by rw [lookup_update, h.here, Option.map_some, if_pos rfl]
  others q hq := by
    have hsame : (Disk.update made' p f).lookup q = made'.lookup q := by
      rw [lookup_update]
      simp only [if_neg hq, Option.map_id']
    rw [hsame]
    exact h.others q hq

theorem isDir_map (mode : Mode) (node : Node Mode) : (node.map fun _ ↦ mode).isDir = node.isDir := by
  cases node <;> rfl

theorem extractDirectory_cases (os : Os) (hworld : EmptyDirectory world destination)
    (h : Rep os world destination st made) (hp : p ≠ []) (hnames : ∀ name ∈ p, IsName name)
    (hfile : ∀ mode content, made.lookup p ≠ some (.file mode content)) (mode : Mode) :
    (¬ (lstatType os st.disk (destination ++ p) = .ok none ∧
          PartlyMade os destination st.disk (destination ++ p).dropLast) ∧
        ((∃ e st' made', extractDirectory os destination st (destination ++ p) mode =
            (.error e, st') ∧ Rep os world destination st' made') ∨
          ∃ st' made', extractDirectory os destination st (destination ++ p) mode = (.ok (), st') ∧
            Rep os world destination st' made' ∧ Placed os made made' p (.directory mode))) ∨
      (lstatType os st.disk (destination ++ p) = .ok none ∧
          PartlyMade os destination st.disk (destination ++ p).dropLast) ∧
        ∃ e st', extractDirectory os destination st (destination ++ p) mode = (.error e, st') ∧
          Leaves destination st' := by
  unfold extractDirectory
  cases hstat : lstatType os st.disk (destination ++ p) with
  | error e => exact .inl ⟨nofun, .inl ⟨_, _, _, rfl, h⟩⟩
  | ok entry =>
    obtain ⟨hreaches, hwalk⟩ := lstatType_ok hstat
    rw [h.disk] at hwalk
    cases entry with
    | some node =>
      -- the directory of an earlier member
      refine .inl ⟨nofun, .inr ?_⟩
      have hfind := find_of_walk hwalk
      rw [List.nil_append, find_beneath hworld hp] at hfind
      cases node with
      | file old content => exact absurd hfind (hfile old content)
      | directory old =>
        have hplaced : Placed os made made p (.directory old) := ⟨hfind, fun q _ => .inl rfl⟩
        exact ⟨_, _, rfl, h.update hworld hp (isDir_map mode), hplaced.update⟩
    | none =>
      have habsent := lookup_of_walk_none hworld h.fresh hp hwalk
      have hparents : ∀ name ∈ p.dropLast, IsName name := fun name hname =>
        hnames name (List.dropLast_subset p hname)
      dsimp only
      rw [dropLast_destination hp]
      rcases prepareParent_cases os hworld h hparents .cannotExtract with
        ⟨hwhole, ⟨e, he⟩ | ⟨base, ext, st', hdrop, hbase, hmissing, hprepare, hrep⟩⟩ |
          ⟨hpartly, e, st', he, hleaves⟩
      · rw [he]
        exact .inl ⟨fun hpartly => hwhole hpartly.2, .inl ⟨_, _, _, rfl, h⟩⟩
      · rw [hprepare]
        refine .inl ⟨fun hpartly => hwhole hpartly.2, ?_⟩
        have hnone : (made ++ newDirs os base ext).lookup p = none := by
          rw [lookup_append_none habsent, lookup_newDirs, if_neg (notMem_chain hdrop hp)]
        have hchain := h.fresh.chain os hbase (by rwa [← hdrop]) hmissing
        have hparent : HasDir (made ++ newDirs os base ext) p.dropLast := hasDir_nil_or hdrop hchain.2
        have hlast := List.dropLast_append_getLast hp
        have hmkdir : mkdir os st'.disk (destination ++ p) =
            if os.hasRoom st'.disk (destination ++ p) then
              .ok (st'.disk ++ [(destination ++ p, .directory os.directoryMode)])
            else .error .noSpace := by
          have hnew := mkdir_new hworld hrep.fresh hparent (by rwa [hlast]) (by rwa [hlast])
          rw [hlast, ← hrep.disk] at hnew
          exact hnew.2
        have hpushed := hrep.push hp hnames hnone hparent hreaches (.directory os.directoryMode)
        dsimp only
        rw [hmkdir]
        by_cases hroom : os.hasRoom st'.disk (destination ++ p) = true
        · rw [if_pos hroom]
          exact .inr ⟨_, _, rfl, hpushed.update hworld hp (isDir_map mode), (placed_push hdrop hnone).update⟩
        · rw [if_neg hroom]
          exact .inl ⟨_, _, _, rfl, hrep⟩
      · rw [he]
        exact .inr ⟨⟨rfl, hpartly⟩, e, st', rfl, hleaves⟩

theorem extractFile_cases (os : Os) (limits : Limits)
    (hworld : EmptyDirectory world destination) (h : Rep os world destination st made) (hp : p ≠ [])
    (hnames : ∀ name ∈ p, IsName name) (before : Nat) (member : Member) :
    (¬ PartlyMade os destination st.disk (destination ++ p).dropLast ∧
        ((∃ e st' made', extractFile os limits destination st (destination ++ p) before member =
            (.error e, st') ∧ Rep os world destination st' made') ∨
          ∃ st' made', extractFile os limits destination st (destination ++ p) before member =
              (.ok (), st') ∧ Rep os world destination st' made' ∧
            Placed os made made' p (.file (permissionBits member.mode) member.data) ∧
            member.data.length = (max 0 member.size).toNat)) ∨
      PartlyMade os destination st.disk (destination ++ p).dropLast ∧
        ∃ e st', extractFile os limits destination st (destination ++ p) before member =
            (.error e, st') ∧ Leaves destination st' := by
  have hparents : ∀ name ∈ p.dropLast, IsName name := fun name hname =>
    hnames name (List.dropLast_subset p hname)
  unfold extractFile
  rw [dropLast_destination hp]
  rcases prepareParent_cases os hworld h hparents .extractionFailed with
    ⟨hwhole, ⟨e, he⟩ | ⟨base, ext, st', hdrop, hbase, hmissing, hprepare, hrep⟩⟩ |
      ⟨hpartly, e, st', he, hleaves⟩
  · rw [he]
    exact .inl ⟨hwhole, .inl ⟨_, _, _, rfl, h⟩⟩
  · rw [hprepare]
    refine .inl ⟨hwhole, ?_⟩
    dsimp only
    cases hcreate : createFile os st'.disk (destination ++ p) (permissionBits member.mode) with
    | error e =>
      left
      cases e <;> exact ⟨_, _, _, rfl, hrep⟩
    | ok disk =>
      obtain ⟨hreaches, hwalk, rfl⟩ := createFile_ok hcreate
      rw [hrep.disk] at hwalk
      have hnone := lookup_of_walk_none hworld hrep.fresh hp hwalk
      have hchain := h.fresh.chain os hbase (by rwa [← hdrop]) hmissing
      have hpushed := hrep.push hp hnames hnone (hasDir_nil_or hdrop hchain.2) hreaches
        (.file (permissionBits member.mode) [])
      cases hcopy : copyBounded limits (os.stores (destination ++ p)) before member with
      | mk result written =>
        have hwritten := hpushed.write hworld hp written
        cases result with
        | error e =>
          left
          exact ⟨_, _, _, rfl, hwritten⟩
        | ok =>
          right
          obtain ⟨rfl, hlength⟩ := copyBounded_ok hcopy
          exact ⟨_, _, rfl, hwritten.update hworld hp (isDir_map _),
            (placed_push hdrop hnone).update.update, hlength⟩
  · rw [he]
    exact .inr ⟨hpartly, e, st', rfl, hleaves⟩

end NixNas.State
