import Mathlib.Data.Char
import Mathlib.Data.List.Lex
import NixNas.Lib.Symlinks
import NixNas.Lib.Worklist
import NixNas.Names

/-!
# The watches of a service's sources (`nas_v2_source_watch`)

Editing a source, or turning a release selector on the way to it, has the service compiled again.
The selectors are links, and the directories that they stand in are watched.
-/

open Symlinks

namespace NixNas.Watch

inductive SourceWatchProjectionError where
  /-- `managed source for service … must exist beneath its managed app root` -/
  | outside (serviceId : Text)
  /-- `managed source for service … must name a file` -/
  | notFile (serviceId : Text)
  /-- `unable to inspect managed source symlink parents` -/
  | uninspectable
  deriving DecidableEq, Repr

/-- `APP_ROOT / service_id`. -/
def appRoot (serviceId : Text) : Place Text :=
  ["var".toList, "lib".toList, "nas-control".toList, "apps".toList, serviceId]

def pathOf (p : Place Text) : PosixPath Text := ⟨false, p.parts⟩

/-- `path.is_relative_to(root)`, which looks at the parts only. -/
def isRelativeTo (path root : PosixPath Text) : Prop :=
  path.doubled = root.doubled ∧ root.parts <+: path.parts

instance (path root : PosixPath Text) : Decidable (isRelativeTo path root) :=
  inferInstanceAs (Decidable (_ ∧ _))

def managedSource (fs : FileSystem Text) (limit : ℕ) (serviceId : Text) :
    Target Text → Except SourceWatchProjectionError (PosixPath Text)
  | .relative _ => .error (.outside serviceId)
  | .absolute candidate =>
    if .up ∈ candidate.parts ∨ ¬ isRelativeTo candidate (pathOf (appRoot serviceId)) then
      .error (.outside serviceId)
    else
      match resolve fs limit [] candidate.parts, resolve fs limit [] (appRoot serviceId).parts with
      | .ok resolved, .ok root =>
        if ¬ root <+: resolved then .error (.outside serviceId)
        else if fs.node resolved = some .file then .ok candidate
        else .error (.notFile serviceId)
      | _, _ => .error (.outside serviceId)

/-- `(path, *path.parents)`. -/
def components (path : PosixPath Text) : List (PosixPath Text) :=
  path.parts.inits.reverse.map fun parts ↦ ⟨path.doubled, parts⟩

/-- `component.parent.resolve(strict=True) / component.name`, where `component.is_symlink()`. -/
def linkAt (fs : FileSystem Text) (limit : ℕ) (component : PosixPath Text) : Option (Place Text) :=
  match component.parts.getLast? with
  | some (.name n) =>
    match resolve fs limit [] component.parts.dropLast with
    | .ok parent =>
      match fs.node (parent ++ [n]) with
      | some (.link _) => some (parent ++ [n])
      | _ => none
    | .error _ => none
  | _ => none

/-- `link.readlink()`, behind the parent of the link where it is relative. -/
def readlink (fs : FileSystem Text) (link : Place Text) : PosixPath Text :=
  match fs.node link with
  | some (.link target) => target.path link.dropLast
  | _ => pathOf link

structure Inspection where
  directories : List (Place Text)
  seen : List (Place Text)
  /-- The last path comes first. -/
  pending : List (PosixPath Text)

def inspect (fs : FileSystem Text) (limit : ℕ) (appRoot resolvedRoot : Place Text) :
    List (PosixPath Text) → Inspection → Inspection
  | [], s => s
  | component :: rest, s =>
    if component ∈ [pathOf appRoot, pathOf resolvedRoot] then s
    else
      match linkAt fs limit component with
      | none => inspect fs limit appRoot resolvedRoot rest s
      | some link =>
        if link ∈ s.seen then inspect fs limit appRoot resolvedRoot rest s
        else
          inspect fs limit appRoot resolvedRoot rest
            { directories :=
                if resolvedRoot <+: link then s.directories.insert link.dropLast else s.directories
              seen := link :: s.seen
              pending := readlink fs link :: s.pending }

/-- The loop through the pending paths, or nothing where the fuel is used up. -/
def inspectPending (fs : FileSystem Text) (limit : ℕ) (appRoot resolvedRoot : Place Text) :
    ℕ → Inspection → Option Inspection
  | 0, _ => none
  | fuel + 1, s =>
    match s.pending with
    | [] => some s
    | path :: rest =>
      inspectPending fs limit appRoot resolvedRoot fuel
        (inspect fs limit appRoot resolvedRoot (components path) { s with pending := rest })

/-- `str`. -/
def text (p : Place Text) : Text := if p = [] then ['/'] else p.flatMap ('/' :: ·)

/-- `_symlink_parent_paths` with some fuel, where a path leads through links as deep as the limit. -/
def symlinkParentPaths (fs : FileSystem Text) (limit fuel : ℕ) (serviceId : Text)
    (sources : List (PosixPath Text)) : Option (Except SourceWatchProjectionError (List (Place Text))) :=
  match resolve fs limit [] (appRoot serviceId).parts with
  | .error _ => some (.error .uninspectable)
  | .ok resolvedRoot =>
    if ∃ source ∈ sources, ¬ isRelativeTo source (pathOf (appRoot serviceId)) then
      some (.error .uninspectable)
    else
      (inspectPending fs limit (appRoot serviceId) resolvedRoot fuel ⟨[], [], sources.reverse⟩).map
        fun s ↦ .ok (s.directories.mergeSort fun a b ↦ decide (text a ≤ text b))

def linksOn (fs : FileSystem Text) (limit : ℕ) (appRoot resolvedRoot : Place Text)
    (path : PosixPath Text) : List (Place Text) :=
  ((components path).takeWhile (· ∉ [pathOf appRoot, pathOf resolvedRoot])).filterMap
    (linkAt fs limit)

def Inspection.search (s : Inspection) : Worklist.State (PosixPath Text) (Place Text) :=
  ⟨s.seen, s.pending⟩

/-- The directories are those of the links beneath the root that have been seen. -/
def Inspection.Recorded (resolvedRoot : Place Text) (s : Inspection) : Prop :=
  ∀ d, d ∈ s.directories ↔ ∃ l ∈ s.seen, resolvedRoot <+: l ∧ l.dropLast = d

variable {fs : FileSystem Text} {limit : ℕ} {top root : Place Text}
variable {s : Inspection} {fuel : ℕ}

theorem inspect_search (path : List (PosixPath Text)) (s : Inspection) :
    (inspect fs limit top root path s).search =
      ((path.takeWhile (· ∉ [pathOf top, pathOf root])).filterMap (linkAt fs limit)).foldl
        (Worklist.visit (readlink fs)) s.search := by
  induction path generalizing s with
  | nil => rfl
  | cons component rest ih =>
    unfold inspect
    by_cases hstop : component ∈ [pathOf top, pathOf root]
    · rw [if_pos hstop, List.takeWhile_cons_of_neg (by rw [decide_not, decide_eq_true hstop]; decide)]
      rfl
    · rw [if_neg hstop, List.takeWhile_cons_of_pos (by exact decide_eq_true hstop)]
      cases hlink : linkAt fs limit component with
      | none => rw [List.filterMap_cons_none hlink, ih]
      | some link =>
        rw [List.filterMap_cons_some hlink, List.foldl_cons]
        dsimp only
        split
        · rename_i hseen
          rw [Worklist.visit_of_mem hseen, ih]
        · rename_i hseen
          rw [Worklist.visit_of_notMem hseen, ih]
          rfl

theorem inspect_recorded (path : List (PosixPath Text)) (h : s.Recorded root) :
    (inspect fs limit top root path s).Recorded root := by
  induction path generalizing s with
  | nil => exact h
  | cons component rest ih =>
    unfold inspect
    split
    · exact h
    · split
      · exact ih h
      · rename_i link _
        split
        · exact ih h
        · apply ih
          intro d
          show d ∈ (if root <+: link then s.directories.insert link.dropLast else s.directories) ↔
            ∃ l ∈ link :: s.seen, root <+: l ∧ l.dropLast = d
          rw [List.exists_mem_cons_iff, ← h d]
          split
          · rename_i hbeneath
            rw [List.mem_insert_iff, eq_comm]
            exact or_congr_left ⟨fun heq => ⟨hbeneath, heq⟩, fun heq => heq.2⟩
          · rename_i hbeneath
            exact ⟨.inr, fun hd => hd.resolve_left fun hlink => hbeneath hlink.1⟩

theorem inspectPending_add {s' : Inspection}
    (h : inspectPending fs limit top root fuel s = some s') (more : ℕ) :
    inspectPending fs limit top root (fuel + more) s = some s' := by
  induction fuel generalizing s with
  | zero => cases h
  | succ fuel ih =>
    rw [Nat.succ_add]
    unfold inspectPending at h ⊢
    split at h
    · exact h
    · exact ih h

theorem inspectPending_search
    {e : Worklist.State (PosixPath Text) (Place Text)} (h : s.Recorded root)
    (hrun : Worklist.run (linksOn fs limit top root) (readlink fs) fuel s.search = some e) :
    ∃ s', inspectPending fs limit top root fuel s = some s' ∧ s'.search = e ∧ s'.Recorded root := by
  induction fuel generalizing s with
  | zero => cases hrun
  | succ fuel ih =>
    unfold inspectPending
    unfold Worklist.run at hrun
    cases hpending : s.pending with
    | nil =>
      have hs : s.search.pending = [] := hpending
      rw [hs] at hrun
      exact ⟨s, rfl, Option.some.inj hrun, h⟩
    | cons path rest =>
      have hs : s.search.pending = path :: rest := hpending
      rw [hs] at hrun
      have hrecorded : Inspection.Recorded root { s with pending := rest } := h
      apply ih (inspect_recorded (components path) hrecorded)
      rw [inspect_search]
      exact hrun

theorem managedSource_ok {serviceId : Text} {value : Target Text} {path : PosixPath Text}
    (h : managedSource fs limit serviceId value = .ok path) :
    isRelativeTo path (pathOf (appRoot serviceId)) ∧
      ∃ followed e, Walks fs [] path.parts followed e ∧ fs.node e = some .file := by
  cases value with
  | relative parts => cases h
  | absolute candidate =>
    unfold managedSource at h
    dsimp only at h
    split at h
    · cases h
    · rename_i hbad
      split at h
      · rename_i resolved resolvedRoot hresolved _
        split at h
        · cases h
        · split at h
          · rename_i hfile
            cases h
            obtain ⟨followed, hwalks⟩ := walks_of_resolve hresolved
            exact ⟨not_not.mp fun hrelative => hbad (.inr hrelative), followed, resolved, hwalks, hfile⟩
          · cases h
      · cases h

end NixNas.Watch
