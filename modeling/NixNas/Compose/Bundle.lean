import NixNas.Network.Vlan
import NixNas.Reconcile.Sources

/-!
# Compose imports (`services/nas_v2_compose_import.py`)

Podlet writes the sources of an application into a directory; the import puts their names into the
namespace of the service.  The names of all Quadlet sources, and what stands between their common
prefix and their suffix.
-/

open Dictionary Fallible Joined

namespace NixNas.Compose

open Network Reconcile

inductive ImportError where
  | unsupported (name : Text)
  | noFiles
  | noEntryUnits
  deriving DecidableEq, Repr

/-- `[A-Za-z0-9_.-]`. -/
def safeChar (c : Char) : Bool := c.isAlphanum || ['_', '.', '-'].contains c

/-- `_SAFE_FILE`. -/
def isSafeFile (name : Text) : Bool := name ≠ [] && name.length ≤ 255 && name.all safeChar

def suffixes : List Suffix := [.container, .pod, .network, .volume, .kube, .build, .image]

/-- `path.stem` and `path.suffix`, where the suffix is one of `_ALLOWED_SUFFIXES`. -/
def splitName (name : Text) : Option (Text × Suffix) :=
  suffixes.findSome? fun suffix ↦
    ((name.dropSuffix? ('.' :: suffix.ext)).filter fun stem ↦ !stem.isEmpty).map fun stem ↦
      (stem, suffix)

def checkName (name : Text) : Except ImportError Unit :=
  if (splitName name).isNone || !isSafeFile name then .error (.unsupported name) else .ok ()

def namespaced (serviceId name : Text) : Text := "nas-v2-".toList ++ serviceId ++ '-' :: name

/-- `with_suffix(".service")` of a container. -/
def entryUnit (file : Text) : Option Text :=
  match splitName file with
  | some (stem, .container) => some (stem ++ ".service".toList)
  | _ => none

structure Bundle where
  files : List Text
  entryUnits : List Text
  deriving DecidableEq, Repr

/-- The names of `_namespace_bundle`; `generated` are those that Podlet wrote. -/
def namespaceBundle (serviceId : Text) (generated : List Text) : Except ImportError Bundle := do
  generated.forM checkName
  if generated = [] then .error .noFiles
  else if (generated.map (namespaced serviceId)).filterMap entryUnit = [] then .error .noEntryUnits
  else .ok {
    files := generated.map (namespaced serviceId)
    entryUnits := ((generated.map (namespaced serviceId)).filterMap entryUnit).insertionSort (· ≤ ·) }

/-- A Compose service that `_augment_compose_imports` imports: `render_compose_override_snapshot` takes
daemons only. -/
def IsImported (service : Service) : Prop := service.kind = .daemon ∧ service.runtime = .compose

/-- A service with a container of its own in `generate_projection`. -/
def IsDirect (service : Service) : Prop :=
  service.kind ≠ .session ∧ (service.runtime = .oci ∨ service.runtime = .quadlet)

section

variable (sha256 : Text → Text) (effective : Effective) (firewalldEnabled : Bool)
  (generated : Text → List Text)

inductive Produces (entry : Text × Service) : Text → Prop where
  | container (hdirect : IsDirect entry.2) :
    Produces entry ("nas-v2-".toList ++ entry.1 ++ ".container".toList)
  | network {file : NetworkFile}
    (hfile : serviceNetwork sha256 effective firewalldEnabled entry = .ok (some file)) :
    Produces entry file.reference
  | imported {bundle : Bundle} {name : Text} (himported : IsImported entry.2)
    (hbundle : namespaceBundle entry.1 (generated entry.1) = .ok bundle)
    (hname : name ∈ bundle.files) :
    Produces entry name

def HasNetwork (entry : Text × Service) : Prop :=
  ∃ file, serviceNetwork sha256 effective firewalldEnabled entry = .ok (some file)

inductive Key (entry : Text × Service) : Text → Suffix → Prop where
  | container (hdirect : IsDirect entry.2) : Key entry entry.1 .container
  | net (hkind : entry.2.kind ≠ .session)
    (hnetwork : HasNetwork sha256 effective firewalldEnabled entry) :
    Key entry ("net-".toList ++ entry.1) .network
  | snet (hkind : entry.2.kind = .session)
    (hnetwork : HasNetwork sha256 effective firewalldEnabled entry) :
    Key entry ("snet-".toList ++ entry.1) .network
  | imported (himported : IsImported entry.2) {stem : Text} (hne : stem ≠ [])
    (hsafe : ∀ c ∈ stem, safeChar c = true) (suffix : Suffix) :
    Key entry (entry.1 ++ '-' :: stem) suffix

end

variable {name stem id : Text} {suffix : Suffix}

theorem splitName_eq_some :
    splitName name = some (stem, suffix) ↔ name = stem ++ '.' :: suffix.ext ∧ stem ≠ [] := by
  unfold splitName
  constructor
  · intro h
    rcases List.exists_of_findSome?_eq_some h with ⟨found, _, hfound⟩
    rcases Option.map_eq_some_iff.mp hfound with ⟨rest, hrest, heq⟩
    cases heq
    rw [Option.filter_eq_some_iff, dropSuffix?_eq_some, Bool.not_eq_true',
      List.isEmpty_eq_false_iff] at hrest
    exact hrest
  · rintro ⟨rfl, hne⟩
    have hdrop : ∀ t : Suffix, (stem ++ '.' :: suffix.ext).dropSuffix? ('.' :: t.ext) =
        if suffix = t then some stem else none := by
      intro t
      rw [dropSuffix?_join suffix.dot_notMem t.dot_notMem]
      split
      · rename_i heq
        rw [if_pos (Suffix.ext_injective heq)]
      · rename_i hdiff
        rw [if_neg fun heq => hdiff (congrArg _ heq)]
    have hkept : (some stem).filter (fun stem ↦ !stem.isEmpty) = some stem := by
      rw [Option.filter_eq_some_iff, Bool.not_eq_true', List.isEmpty_eq_false_iff]
      exact ⟨rfl, hne⟩
    unfold suffixes
    cases suffix <;>
      simp only [List.findSome?_cons, hdrop, reduceCtorEq, if_false, if_true, Option.filter_none,
        Option.map_none, hkept, Option.map_some]

theorem checkName_ok : checkName name = .ok () ↔
    ∃ stem suffix, name = stem ++ '.' :: Suffix.ext suffix ∧ stem ≠ [] ∧
      isSafeFile name = true := by
  unfold checkName
  cases hsplit : splitName name with
  | none =>
    constructor
    · nofun
    · rintro ⟨stem, suffix, hname, hne, _⟩
      rw [splitName_eq_some.mpr ⟨hname, hne⟩] at hsplit
      cases hsplit
  | some split =>
    rcases split with ⟨stem, suffix⟩
    rcases splitName_eq_some.mp hsplit with ⟨hname, hne⟩
    simp only [Option.isNone_some, Bool.false_or, Bool.not_eq_true']
    constructor
    · intro h
      split at h
      · cases h
      · rename_i hsafe
        exact ⟨stem, suffix, hname, hne, Bool.not_eq_false _ |>.mp hsafe⟩
    · rintro ⟨_, _, _, _, hsafe⟩
      rw [hsafe, if_neg (by decide)]

theorem namespaceBundle_ok {generated : List Text} {bundle : Bundle}
    (h : namespaceBundle id generated = .ok bundle) :
    (∀ name ∈ generated, checkName name = .ok ()) ∧ bundle.files = generated.map (namespaced id) ∧
      ∀ unit, unit ∈ bundle.entryUnits ↔ ∃ file ∈ bundle.files, entryUnit file = some unit := by
  unfold namespaceBundle at h
  rcases bind_ok h with ⟨_, hchecks, h⟩
  refine ⟨forM_ok hchecks, ?_⟩
  have hchain : ite _ _ (ite _ _ _) = _ := h
  split at hchain
  · cases hchain
  · split at hchain
    · cases hchain
    · cases hchain
      refine ⟨rfl, ?_⟩
      intro unit
      rw [List.mem_insertionSort, List.mem_filterMap]

theorem namespaced_eq :
    namespaced id (stem ++ '.' :: suffix.ext) = quadletFile (id ++ '-' :: stem) suffix := by
  unfold namespaced quadletFile
  simp only [List.append_assoc, List.cons_append]

theorem entryUnit_eq_some {key : Text} {unit : Text} (hne : key ≠ []) :
    entryUnit (quadletFile key suffix) = some unit ↔ suffix = .container ∧ unit = serviceUnit key := by
  have hsplit : splitName (quadletFile key suffix) = some ("nas-v2-".toList ++ key, suffix) := by
    rw [splitName_eq_some]
    exact ⟨(List.append_assoc _ _ _).symm, List.append_ne_nil_of_right_ne_nil _ hne⟩
  unfold entryUnit
  rw [hsplit]
  cases suffix with
  | container =>
    rw [Option.some.injEq, eq_comm, and_iff_right rfl, List.append_assoc]
    rfl
  | _ => simp only [reduceCtorEq, false_and]

variable {sha256 : Text → Text} {effective : Effective} {firewalldEnabled : Bool}
  {generated : Text → List Text} {entry : Text × Service}

theorem reference_eq {file : NetworkFile}
    (h : serviceNetwork sha256 effective firewalldEnabled entry = .ok (some file)) :
    (entry.2.kind ≠ .session →
        file.reference = quadletFile ("net-".toList ++ entry.1) .network) ∧
      (entry.2.kind = .session →
        file.reference = quadletFile ("snet-".toList ++ entry.1) .network) := by
  rw [(serviceNetwork_some h).2.2]
  unfold networkReference
  constructor
  · intro hkind
    rw [if_neg hkind,
      show "nas-v2-net-".toList = "nas-v2-".toList ++ "net-".toList by decide]
    unfold quadletFile
    simp only [List.append_assoc]
    rfl
  · intro hkind
    rw [if_pos hkind,
      show "nas-v2-snet-".toList = "nas-v2-".toList ++ "snet-".toList by decide]
    unfold quadletFile
    simp only [List.append_assoc]
    rfl

theorem Produces.key {file : Text}
    (h : Produces sha256 effective firewalldEnabled generated entry file) :
    ∃ key suffix, file = quadletFile key suffix ∧
      Key sha256 effective firewalldEnabled entry key suffix := by
  cases h with
  | container hdirect => exact ⟨entry.1, .container, List.append_assoc _ _ _, .container hdirect⟩
  | @network file hfile =>
    by_cases hkind : entry.2.kind = .session
    · exact ⟨_, .network, (reference_eq hfile).2 hkind, .snet hkind ⟨_, hfile⟩⟩
    · exact ⟨_, .network, (reference_eq hfile).1 hkind, .net hkind ⟨_, hfile⟩⟩
  | imported himported hbundle hname =>
    rcases namespaceBundle_ok hbundle with ⟨hchecks, hfiles, _⟩
    rw [hfiles] at hname
    rcases List.mem_map.mp hname with ⟨name, hmem, rfl⟩
    rcases checkName_ok.mp (hchecks name hmem) with ⟨stem, suffix, rfl, hne, hsafe⟩
    refine ⟨_, suffix, namespaced_eq, .imported himported hne ?_ suffix⟩
    unfold isSafeFile at hsafe
    rw [Bool.and_eq_true, List.all_eq_true] at hsafe
    intro c hc
    exact hsafe.2 c (List.mem_append_left _ hc)

end NixNas.Compose
