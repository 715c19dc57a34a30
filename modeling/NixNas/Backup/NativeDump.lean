import Mathlib.Data.List.Sort
import NixNas.Authentik.Blueprint
import NixNas.Lib.Segments

/-!
# Native dumps (`services/nas_v2_backup.py`)

The job that writes the dump of a storage resource is found by what it attaches: it reads the
resource and writes one derived resource, the artifact.
-/

open Fallible NixNas.Spec NixNas.Authentik

namespace NixNas.Backup

variable {F : Type}

/-- `object.get(key, default)`. -/
def getOr (key : String) (default : Plain F) (o : Object F) : Plain F := (find key.toList o).getD default

/-- `value is True`. -/
def isTrue : Plain F → Bool
  | .scalar (.boolean b) => b
  | _ => false

/-- `_validate_absolute_path`; the path is used as it is written. -/
def validateAbsolutePath : Option (Plain F) → Option Text
  | some (.scalar (.string value)) =>
    if value.any fun c ↦ c = '\x00' || c = '\r' || c = '\n' then none
    else if ['/'].isPrefixOf value && !(Segments.segments '/' value).contains "..".toList then some value
    else none
  | _ => none

/-- What is wrong with a service that reads the source. -/
inductive MalformedJob where
  | notJob (serviceId : Text)
  | artifacts (serviceId : Text) (found : Nat)
  deriving DecidableEq, Repr

/-- `NativeDumpProjectionError`. -/
inductive NativeDumpError where
  | missingState
  | missingSource (sourceId : Text)
  | notNativeDump (sourceId : Text)
  | notAuthoritative (sourceId : Text)
  | unsafeSourcePath (sourceId : Text)
  | preparations (sourceId : Text) (found : Nat) (malformed : List MalformedJob)
  | artifactScope (artifactId : Text)
  | artifactBackup (artifactId : Text)
  | unsafeArtifactPath (artifactId : Text)
  | artifactIsSource
  | ownerUnit (serviceId : Text)
  deriving DecidableEq, Repr

/-- What `resolve_native_dump` returns. -/
structure NativeDump where
  preparationService : Text
  preparationUnit : Text
  artifactResource : Text
  artifactPath : Text
  deriving DecidableEq, Repr

def readsSource (sourceId : Text) : Plain F → Bool
  | .object attachment =>
    textAt "resource" attachment = some sourceId && isText (getOr "access" (text "read") attachment) "read"
  | _ => false

def writtenArtifact (resources : Object F) : Plain F → Option Text
  | .object attachment =>
    if isText (getOr "access" (text "read") attachment) "write" then
      match textAt "resource" attachment with
      | some resourceId =>
        match find resourceId resources with
        | some (.object resource) => if keyIs "stateClass" "derived" resource then some resourceId else none
        | _ => none
      | none => none
    else none
  | _ => none

inductive Candidate where
  | none
  | malformed (job : MalformedJob)
  | preparation (serviceId artifactId : Text)

def candidate (resources : Object F) (sourceId : Text) (entry : Text × Plain F) : Candidate :=
  match entry.2 with
  | .object service =>
    if isTrue (getOr "managed" (boolean true) service) && isTrue (getOr "enabled" (boolean true) service) then
      match find "storage".toList service with
      | some (.array storage) =>
        if storage.any (readsSource sourceId) then
          if keyIs "kind" "job" (asObject (find "workload".toList service)) then
            let artifacts := (storage.filterMap (writtenArtifact resources)).dedup
            match artifacts.insertionSort (· ≤ ·) with
            | [artifactId] => .preparation entry.1 artifactId
            | ids => .malformed (.artifacts entry.1 ids.length)
          else .malformed (.notJob entry.1)
        else .none
      | _ => .none
    else .none
  | _ => .none

/-- The preparation jobs and the malformed ones, in the order of the identifiers. -/
def candidates (resources services : Object F) (sourceId : Text) :
    List (Text × Text) × List MalformedJob :=
  let found := (services.insertionSort fun a b ↦ a.1 ≤ b.1).map (candidate resources sourceId)
  (found.filterMap fun
    | .preparation serviceId artifactId => some (serviceId, artifactId)
    | _ => none,
   found.filterMap fun
    | .malformed job => some job
    | _ => none)

def ownerUnit (effective : Object F) (serviceId : Text) : Option Text :=
  let derived := asObject (find "derived".toList effective)
  let runtime := asObject (find serviceId (asObject (find "runtime".toList derived)))
  match textAt "ownerUnit" runtime with
  | some owner => if ".service".toList.isSuffixOf owner then some owner else none
  | none => none

def resolveNativeDump (effective : Object F) (sourceId : Text) : Except NativeDumpError NativeDump :=
  match find "storageResources".toList effective, find "services".toList effective with
  | some (.object resources), some (.object services) =>
    match find sourceId resources with
    | some (.object source) =>
      let backup := asObject (find "backup".toList source)
      if !(isTrueAt "enabled" backup && keyIs "consistency" "native-dump" backup) then
        .error (.notNativeDump sourceId)
      else if !keyIs "stateClass" "authoritative" source then .error (.notAuthoritative sourceId)
      else match validateAbsolutePath (find "path".toList source) with
      | none => .error (.unsafeSourcePath sourceId)
      | some sourcePath =>
        match candidates resources services sourceId with
        | ([(serviceId, artifactId)], _) =>
          let artifact := asObject (find artifactId resources)
          if !isText (getOr "scope" (text "system") artifact) "system" then .error (.artifactScope artifactId)
          else if isTrueAt "enabled" (asObject (find "backup".toList artifact)) then
            .error (.artifactBackup artifactId)
          else match validateAbsolutePath (find "path".toList artifact) with
          | none => .error (.unsafeArtifactPath artifactId)
          | some artifactPath =>
            if artifactPath = sourcePath then .error .artifactIsSource
            else match ownerUnit effective serviceId with
            | none => .error (.ownerUnit serviceId)
            | some owner => .ok ⟨serviceId, owner, artifactId, artifactPath⟩
        | (found, malformed) => .error (.preparations sourceId found.length malformed)
    | _ => .error (.missingSource sourceId)
  | _, _ => .error .missingState

theorem validateAbsolutePath_eq {value : Option (Plain F)} {path : Text}
    (h : validateAbsolutePath value = some path) : value = some (.scalar (.string path)) := by
  unfold validateAbsolutePath at h
  split at h
  · split at h
    · cases h
    · split at h
      · cases h
        rfl
      · cases h
  · cases h

theorem artifact_of_resolve {effective resources source : Object F} {sourceId path : Text}
    {dump : NativeDump} (h : resolveNativeDump effective sourceId = .ok dump)
    (hresources : find "storageResources".toList effective = some (.object resources))
    (hsource : find sourceId resources = some (.object source))
    (hpath : validateAbsolutePath (find "path".toList source) = some path) :
    dump.artifactPath ≠ path ∧
      validateAbsolutePath (F := F) (some (.scalar (.string dump.artifactPath))) = some dump.artifactPath := by
  unfold resolveNativeDump at h
  rw [hresources] at h
  cases hservices : find "services".toList effective with
  | none =>
    rw [hservices] at h
    cases h
  | some value =>
    rw [hservices] at h
    cases value with
    | scalar => cases h
    | array => cases h
    | object services =>
      dsimp only at h
      rw [hsource] at h
      dsimp only at h
      split at h
      · cases h
      · split at h
        · cases h
        · rw [hpath] at h
          dsimp only at h
          split at h
          · split at h
            · cases h
            · split at h
              · cases h
              · split at h
                · cases h
                · rename_i artifactPath hartifact
                  split at h
                  · cases h
                  · rename_i hne
                    split at h
                    · cases h
                    · cases h
                      rw [← validateAbsolutePath_eq hartifact]
                      exact ⟨hne, hartifact⟩
          · cases h

end NixNas.Backup
