import NixNas.State.Tree

/-!
# Directories and files under a root

What the file operations of the source do where no symbolic link stands.
-/

open Fallible

namespace NixNas.State

/-- The components of an absolute path. -/
abbrev OsPath := List Str

/-- The entries by their paths, in the order of their creation. -/
abbrev Disk := List (OsPath × Node Mode)

inductive OsError where
  | notFound
  | exists
  | notDirectory
  | nameTooLong
  | noSpace
deriving DecidableEq, Repr

/-- The root of the file system exists. -/
def Disk.find (d : Disk) (path : OsPath) : Option (Node Mode) :=
  if path = [] then some (.directory 0o755) else d.lookup path

/-- The entry at the end of a path whose other components have to be directories. -/
def Disk.walk (d : Disk) (front : OsPath) : OsPath → Except OsError (Option (Node Mode))
  | [] => .ok (d.find front)
  | name :: rest =>
    match d.find front with
    | none => .ok none
    | some (.directory _) => d.walk (front ++ [name]) rest
    | some (.file _ _) => .error .notDirectory

/-- The paths that the operating system takes, whether there is room for a new entry at a path beside
what is there, what the file at a path can hold, and the mode of a new directory. -/
structure Os where
  reaches : OsPath → Bool
  hasRoom : Disk → OsPath → Bool
  stores : OsPath → List UInt8 → Bool
  directoryMode : Mode

/-- An entry can be made at the path and written, whatever else is there. -/
structure Os.Takes (os : Os) (path : OsPath) : Prop where
  reaches : os.reaches path = true
  hasRoom : ∀ d, os.hasRoom d path = true
  stores : ∀ content, os.stores path content = true

variable (os : Os)
variable {mode : Mode}

/-- `lstat_type`: `none` where nothing stands; other failures are raised. -/
def lstatType (d : Disk) (path : OsPath) : Except OsError (Option (Node Mode)) :=
  if os.reaches path then d.walk [] path else .error .nameTooLong

/-- `os.mkdir(path)`. -/
def mkdir (d : Disk) (path : OsPath) : Except OsError Disk :=
  if os.reaches path then
    match d.walk [] path with
    | .error e => .error e
    | .ok (some _) => .error .exists
    | .ok none =>
      match d.walk [] path.dropLast with
      | .ok (some (.directory _)) =>
        if os.hasRoom d path then .ok (d ++ [(path, .directory os.directoryMode)])
        else .error .noSpace
      | .ok (some (.file _ _)) => .error .notDirectory
      | .ok none => .error .notFound
      | .error e => .error e
  else .error .nameTooLong

def Disk.isDir (d : Disk) (path : OsPath) : Bool :=
  match d.walk [] path with
  | .ok (some (.directory _)) => true
  | _ => false

/-- `path.mkdir(parents=True, exist_ok=True)`, and the disk that it leaves. -/
def mkdirParents (d : Disk) (path : OsPath) : Except OsError Unit × Disk :=
  match mkdir os d path with
  | .ok d' => (.ok (), d')
  | .error .notFound =>
    if _h : path = [] then (.error .notFound, d)
    else
      match mkdirParents d path.dropLast with
      | (.error e, d') => (.error e, d')
      | (.ok (), d') =>
        match mkdir os d' path with
        | .ok d'' => (.ok (), d'')
        | .error e => (if d'.isDir path then .ok () else .error e, d')
  | .error e => (if d.isDir path then .ok () else .error e, d)
termination_by path.length
decreasing_by
  rw [List.length_dropLast]
  have hpos := List.length_pos_iff.mpr _h
  omega

def Disk.update (d : Disk) (path : OsPath) (f : Node Mode → Node Mode) : Disk :=
  d.map fun e ↦ if e.1 = path then (e.1, f e.2) else e

/-- `os.chmod(path, mode)` on an entry that exists. -/
def chmod (d : Disk) (path : OsPath) (mode : Mode) : Disk :=
  d.update path fun node ↦ node.map fun _ ↦ mode

def Disk.remove (d : Disk) (path : OsPath) : Disk := d.filter fun e ↦ e.1 ≠ path

/-- `path` lies strictly beneath `dir`. -/
def Beneath (dir path : OsPath) : Prop := dir <+: path ∧ path ≠ dir

instance (dir path : OsPath) : Decidable (Beneath dir path) :=
  inferInstanceAs (Decidable (_ ∧ _))

/-- `path.rmdir()` where its failure is ignored. -/
def rmdir (d : Disk) (path : OsPath) : Disk :=
  if ∃ e ∈ d, Beneath path e.1 then d else d.remove path

def Disk.DirAt (d : Disk) (path : OsPath) : Prop := ∃ mode, d.find path = some (.directory mode)

variable {d : Disk} {front path rest : OsPath} {name : Str} {node : Node Mode}

theorem walk_cons_of_dirAt (h : d.DirAt front) :
    d.walk front (name :: rest) = d.walk (front ++ [name]) rest := by
  obtain ⟨mode, hmode⟩ := h
  rw [Disk.walk, hmode]

theorem walk_append (h : ∀ before, before <+: path → before ≠ path → d.DirAt (front ++ before)) :
    d.walk front (path ++ rest) = d.walk (front ++ path) rest := by
  induction path generalizing front with
  | nil => rw [List.nil_append, List.append_nil]
  | cons name path ih =>
    have hfront := h [] List.nil_prefix (List.cons_ne_nil _ _).symm
    rw [List.append_nil] at hfront
    rw [List.cons_append, walk_cons_of_dirAt hfront, ih, List.append_assoc, List.singleton_append]
    intro before hbefore hne
    have hnext := h (name :: before) ((List.prefix_cons_inj name).mpr hbefore)
      fun heq => hne (List.cons.inj heq).2
    rwa [List.append_assoc, List.singleton_append]

theorem walk_of_dirs (h : ∀ before, before <+: path → before ≠ path → d.DirAt (front ++ before)) :
    d.walk front path = .ok (d.find (front ++ path)) := by
  have hwalk : d.walk front (path ++ []) = d.walk (front ++ path) [] := walk_append h
  rw [List.append_nil] at hwalk
  exact hwalk

theorem walk_absent (h : ∀ before, before <+: path → d.DirAt (front ++ before))
    (habsent : d.find (front ++ (path ++ [name])) = none) :
    d.walk front (path ++ name :: rest) = .ok none := by
  rw [walk_append fun before hbefore _ => h before hbefore,
    walk_cons_of_dirAt (h path List.prefix_rfl), List.append_assoc]
  cases rest with
  | nil => rw [Disk.walk, habsent]
  | cons next rest => rw [Disk.walk, habsent]

theorem walk_file {content : List UInt8}
    (h : ∀ before, before <+: path → before ≠ path → d.DirAt (front ++ before))
    (hfile : d.find (front ++ path) = some (.file mode content)) :
    d.walk front (path ++ name :: rest) = .error .notDirectory := by
  rw [walk_append h, Disk.walk, hfile]

theorem find_of_walk (h : d.walk front path = .ok (some node)) :
    d.find (front ++ path) = some node := by
  induction path generalizing front with
  | nil =>
    rw [Disk.walk] at h
    rw [List.append_nil]
    exact Except.ok.inj h
  | cons name path ih =>
    cases hfront : d.find front with
    | none => rw [Disk.walk, hfront] at h; cases h
    | some entry =>
      cases entry with
      | directory mode =>
        rw [walk_cons_of_dirAt ⟨mode, hfront⟩] at h
        have hfind := ih h
        rwa [List.append_assoc, List.singleton_append] at hfind
      | file mode content => rw [Disk.walk, hfront] at h; cases h

theorem lstatType_ok {os : Os} {entry : Option (Node Mode)} (h : lstatType os d path = .ok entry) :
    os.reaches path = true ∧ d.walk [] path = .ok entry := by
  unfold lstatType at h
  split at h
  · exact ⟨by assumption, h⟩
  · cases h

theorem mkdir_absent {os : Os} (hreaches : os.reaches path = true)
    (habsent : d.walk [] path = .ok none)
    (hparent : d.walk [] path.dropLast = .ok (some (.directory mode))) :
    mkdir os d path = if os.hasRoom d path then .ok (d ++ [(path, .directory os.directoryMode)])
      else .error .noSpace := by
  rw [mkdir, if_pos hreaches, habsent, hparent]

theorem mkdir_notFound {os : Os} (hreaches : os.reaches path = true)
    (habsent : d.walk [] path = .ok none) (hparent : d.walk [] path.dropLast = .ok none) :
    mkdir os d path = .error .notFound := by
  rw [mkdir, if_pos hreaches, habsent, hparent]

theorem mkdirParents_exists (os : Os) (h : d.walk [] path = .ok (some node)) :
    ∃ e, mkdirParents os d path = (if d.isDir path then .ok () else .error e, d) := by
  have hmkdir : ∃ e, mkdir os d path = .error e ∧ e ≠ .notFound := by
    unfold mkdir
    split
    · exact ⟨.exists, by rw [h], nofun⟩
    · exact ⟨.nameTooLong, rfl, nofun⟩
  obtain ⟨e, he, hne⟩ := hmkdir
  refine ⟨e, ?_⟩
  rw [mkdirParents, he]
  cases e with
  | notFound => exact absurd rfl hne
  | «exists» => rfl
  | notDirectory => rfl
  | nameTooLong => rfl
  | noSpace => rfl

end NixNas.State
