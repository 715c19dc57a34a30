import Mathlib.Data.List.DropRight
import NixNas.Caddy.Routes
import NixNas.Systemd.Document

/-!
# Drop-ins (`services/nas_v2_systemd_native.py`, `services/nas_v2_systemd_attachments.py`)

The directives that a service adds to a unit it does not own, and when there are any.
-/

open Dictionary Fallible Journal

namespace NixNas.Systemd

open Caddy (isSpace)

inductive ProjectionError where
  | ownerUnit (service : Text)
  | control (field : Text)
  | capabilities
  | attachment (field : Text)
  | noRoutes (service : Text)
  | identifier (field : Text)
  | upstreamAuth (service route : Text)
  | sessionDependency (service target : Text)
  | session (service : Text)
  | renderer (service : Text)
  | network (error : Network.NetworkError)
  deriving DecidableEq, Repr

/-! ## Lines -/

def singleLine (field : String) (value : Text) : Except ProjectionError Text :=
  if value.any fun c ↦ [Char.ofNat 0, '\r', '\n'].contains c then .error (.control field.toList)
  else .ok (value.flatMap fun c ↦ if c = '%' then "%%".toList else [c])

def quote (value : Text) : Except ProjectionError Text := do
  let safe ← singleLine "systemd argument" value
  .ok ('"' :: safe.flatMap (fun c ↦ if c = '\\' then "\\\\".toList else
    if c = '"' then "\\\"".toList else [c]) ++ ['"'])

def unwords (words : List Text) : Text := (words.intersperse [' ']).flatten

def ownerUnit (effective : Effective) (serviceId : Text) : Except ProjectionError Text :=
  match effective.services.lookup serviceId with
  | none => .error (.ownerUnit serviceId)
  | some service =>
    let unit := derivedOwner serviceId service
    if [".service".toList, ".target".toList, ".socket".toList].any fun suffix ↦ suffix.isSuffixOf unit
    then .ok unit
    else .error (.ownerUnit serviceId)

def readyUnit (serviceId : Text) : Text := "nas-v2-ready-".toList ++ serviceId ++ ".service".toList

/-- What one dependency adds to `Requires=` and to `After=`. -/
def dependencyUnits (effective : Effective) (dep : Dependency) :
    Except ProjectionError (List Text × List Text) := do
  let owner ← ownerUnit effective dep.service
  .ok (if dep.condition = .ready then ([owner, readyUnit dep.service], [readyUnit dep.service])
    else ([owner], [owner]))

def dependencyLines (effective : Effective) (service : Service) :
    Except ProjectionError (List Text) := do
  let units ← service.dependencies.mapM (dependencyUnits effective)
  let requires := sorted (units.flatMap Prod.fst).toFinset
  let after := sorted (units.flatMap Prod.snd).toFinset
  .ok ((if requires = [] then [] else ["Requires=".toList ++ unwords requires]) ++
    if after = [] then [] else ["After=".toList ++ unwords after])

def resourceLines (service : Service) : List Text :=
  let line (key : String) (value : Option Text) (tail : String) : List Text :=
    value.toList.map fun text ↦ key.toList ++ text ++ tail.toList
  line "CPUQuota=" service.limits.cpuQuotaPercent "%" ++
    line "MemoryHigh=" service.limits.memoryHighBytes "" ++
    line "MemoryMax=" service.limits.memoryMaxBytes "" ++
    line "TasksMax=" service.limits.pidsMax ""

def capabilityLines (sandbox : Sandbox) : List Text :=
  if sandbox.addCapabilities ≠ [] then
    ["CapabilityBoundingSet=".toList ++ unwords sandbox.addCapabilities,
      "AmbientCapabilities=".toList ++ unwords sandbox.addCapabilities]
  else if sandbox.dropCapabilities ≠ [] then
    ["CapabilityBoundingSet=~".toList ++ unwords sandbox.dropCapabilities]
  else []

def sandboxLines (sandbox : Sandbox) : Except ProjectionError (List Text) :=
  if sandbox.mode = .inherit then .ok []
  else do
    let writable ← sandbox.writablePaths.mapM fun path ↦
      (quote path).map fun value ↦ "ReadWritePaths=".toList ++ value
    let tmpfs ← sandbox.tmpfs.mapM fun mount ↦
      (quote (mount.path ++ (mount.sizeBytes.map fun size ↦ ":size=".toList ++ size).getD [])).map
        fun value ↦ "TemporaryFileSystem=".toList ++ value
    if sandbox.addCapabilities.any fun capability ↦ sandbox.dropCapabilities.contains capability then
      .error .capabilities
    else
      .ok (["PrivateTmp=yes".toList, "ProtectHome=yes".toList, "NoNewPrivileges=".toList ++
          if sandbox.noNewPrivileges then "yes".toList else "no".toList] ++
        (if sandbox.readOnlyRoot then ["ProtectSystem=strict".toList] else []) ++ writable ++ tmpfs ++
        capabilityLines sandbox)

/-! ## Attachments -/

/-- A normalized path: two leading slashes are another root than one. -/
structure PosixPath where
  root : Text
  parts : List Text
  deriving DecidableEq, Repr

/-- `PurePosixPath` of an absolute path. -/
def posixPath (value : Text) : PosixPath where
  root := if "//".toList.isPrefixOf value && !"///".toList.isPrefixOf value then "//".toList
    else "/".toList
  parts := (Segments.segments '/' value).filter (· ≠ ['.'])

def PosixPath.text (path : PosixPath) : Text := path.root ++ (path.parts.intersperse ['/']).flatten

def PosixPath.under (path root : PosixPath) : Bool :=
  path.root = root.root && root.parts.isPrefixOf path.parts

def bindPath (field : String) (value : Text) : Except ProjectionError PosixPath :=
  if !"/".toList.isPrefixOf value || (posixPath value).parts.contains "..".toList then
    .error (.attachment field.toList)
  else if value.contains ':' then .error (.attachment field.toList)
  else .ok (posixPath value)

def quoteAttachment (value : Text) : Except ProjectionError Text :=
  if value.any fun c ↦ [Char.ofNat 0, '\r', '\n'].contains c then
    .error (.attachment "systemd attachment path".toList)
  else .ok ('"' :: value.flatMap (fun c ↦ if c = '%' then "%%".toList else
    if c = '\\' then "\\\\".toList else if c = '"' then "\\\"".toList else [c]) ++ ['"'])

def protectHomeConflict (service : Service) (destination : PosixPath) (label : String) :
    Except ProjectionError Unit :=
  if service.sandbox.mode = .strict && ["/home".toList, "/root".toList, "/run/user".toList].any fun
      root ↦ destination.under (posixPath root) then
    .error (.attachment label.toList)
  else .ok ()

def storageLine (effective : Effective) (service : Service) (attachment : StorageAttachment) :
    Except ProjectionError Text := do
  let generated := service.runtime = .exec || service.runtime = .python
  match effective.storageResources.lookup attachment.resource with
  | none => .error (.attachment "storage resource".toList)
  | some path =>
    let source ← bindPath "storage resource path" path
    let destination ← bindPath "storage attachment mountPath" attachment.mountPath
    protectHomeConflict service destination "storage mount"
    let value := if source = destination then source.text
      else source.text ++ ':' :: destination.text
    match attachment.access with
    | .read => (quoteAttachment value).map fun quoted ↦ "BindReadOnlyPaths=".toList ++ quoted
    | .write =>
      if generated && service.dynamicIdentity then .error (.attachment "identity".toList)
      else (quoteAttachment value).map fun quoted ↦ "BindPaths=".toList ++ quoted

/-- `_SAFE_CREDENTIAL_ID`. -/
def isCredentialId (value : Text) : Bool :=
  value ≠ [] && value.length ≤ 128 &&
    value.all fun c ↦ c.isAlphanum || ['_', '.', '-'].contains c

structure Seen where
  nativeIds : Finset Text
  mounts : Finset Text

def credentialLine (effective : Effective) (service : Service) (seen : Seen)
    (attachment : CredentialAttachment) : Except ProjectionError (Seen × Text) := do
  match effective.credentials.lookup attachment.credential with
  | none => .error (.attachment "credential".toList)
  | some credential =>
    let source ← bindPath "credential path" credential.path
    match attachment.use with
    | .environmentFile =>
      let quoted ← quoteAttachment source.text
      .ok (seen, "EnvironmentFile=".toList ++ (if credential.required then [] else ['-']) ++ quoted)
    | .nativeReference =>
      if !credential.required then .error (.attachment "native-reference".toList)
      else if !isCredentialId attachment.credential then .error (.attachment "credential".toList)
      else if attachment.credential ∈ seen.nativeIds then .error (.attachment "credential".toList)
      else
        let quoted ← quoteAttachment (attachment.credential ++ ':' :: source.text)
        .ok ({ seen with nativeIds := insert attachment.credential seen.nativeIds },
          "LoadCredential=".toList ++ quoted)
    | .file =>
      match attachment.mountPath with
      | none => .error (.attachment "mountPath".toList)
      | some mountPath =>
        let destination ← bindPath "file credential mountPath" mountPath
        protectHomeConflict service destination "credential mount"
        if destination.text ∈ seen.mounts then .error (.attachment "mountPath".toList)
        else
          let quoted ← quoteAttachment
            ((if credential.required then source.text else '-' :: source.text) ++
              ':' :: destination.text)
          .ok ({ seen with mounts := insert destination.text seen.mounts },
            "BindReadOnlyPaths=".toList ++ quoted)

def credentialLinesFrom (effective : Effective) (service : Service) :
    Seen → List CredentialAttachment → Except ProjectionError (List Text)
  | _, [] => .ok []
  | seen, attachment :: rest => do
    let (seen, line) ← credentialLine effective service seen attachment
    let lines ← credentialLinesFrom effective service seen rest
    .ok (line :: lines)

def acceleratorPath (accelerator : Accelerator) : Except ProjectionError Text :=
  match accelerator.mode, accelerator.device with
  | .shared, some device => do
    let path ← bindPath "accelerator device" device
    if !path.under (posixPath "/dev".toList) then .error (.attachment "accelerator".toList)
    else if path.text.any fun c ↦ isSpace c || c.toNat < 32 || c.toNat = 127 then
      .error (.attachment "accelerator".toList)
    else .ok path.text
  | _, _ => .error (.attachment "accelerator".toList)

def acceleratorLines (service : Service) : Except ProjectionError (List Text) :=
  if service.accelerators = [] then .ok []
  else if (service.runtime = .exec || service.runtime = .python) && service.dynamicIdentity then
    .error (.attachment "identity".toList)
  else do
    let paths ← service.accelerators.mapM acceleratorPath
    let lines ← paths.eraseDups.mapM fun path ↦
      (quoteAttachment path).map fun quoted ↦ "DeviceAllow=".toList ++ quoted ++ " rw".toList
    .ok ("DevicePolicy=closed".toList :: lines)

def attachmentLines (effective : Effective) (service : Service) :
    Except ProjectionError (List Text) := do
  let storage ← service.storage.mapM (storageLine effective service)
  let credentials ← credentialLinesFrom effective service ⟨∅, ∅⟩ service.credentials
  let accelerators ← acceleratorLines service
  .ok (storage ++ credentials ++ accelerators)

/-! ## The drop-in -/

def sectionLines (header : String) (lines : List Text) : List Text :=
  if lines = [] then [] else header.toList :: lines ++ [[]]

def strictLines (sandbox : Sandbox) : Except ProjectionError (List Text) :=
  if sandbox.mode = .strict then sandboxLines sandbox else .ok []

def dropinText (unitLines serviceLines : List Text) : Option Text :=
  if unitLines = [] && serviceLines = [] then none
  else
    let lines := sectionLines "[Unit]" unitLines ++ sectionLines "[Service]" serviceLines
    some ((lines.intersperse ['\n']).flatten.rdropWhile isSpace ++ ['\n'])

def existingDropin (effective : Effective) (service : Service) :
    Except ProjectionError (Option Text) := do
  let dependencies ← dependencyLines effective service
  let unitLines := (if isOnDemand service then ["StopWhenUnneeded=yes".toList] else []) ++ dependencies
  let attachments ← attachmentLines effective service
  let sandbox ← strictLines service.sandbox
  .ok (dropinText unitLines (resourceLines service ++ attachments ++ sandbox))

def hasDropin (service : Service) : Bool :=
  isOnDemand service || service.dependencies ≠ [] || resourceLines service ≠ [] ||
    service.storage ≠ [] || service.credentials ≠ [] || service.accelerators ≠ [] ||
    service.sandbox.mode = .strict

section

variable {effective : Effective} {service : Service}
variable {lines : List Text}

theorem sorted_eq_nil {α : Type} [LinearOrder α] {s : Finset α} : sorted s = [] ↔ s = ∅ := by
  rw [List.eq_nil_iff_forall_not_mem, Finset.eq_empty_iff_forall_notMem]
  simp only [mem_sorted]

theorem dependencyLines_eq_nil (h : dependencyLines effective service = .ok lines) :
    lines = [] ↔ service.dependencies = [] := by
  unfold dependencyLines at h
  rcases bind_ok h with ⟨units, hunits, h⟩
  cases h
  have hall := mapM_ok hunits
  generalize service.dependencies = deps at hall
  constructor
  · intro hnil
    rw [List.append_eq_nil_iff] at hnil
    have hrequires : sorted (units.flatMap Prod.fst).toFinset = [] := by
      by_contra hne
      rw [if_neg hne] at hnil
      cases hnil.1
    rw [sorted_eq_nil, List.toFinset_eq_empty_iff, List.flatMap_eq_nil_iff] at hrequires
    cases hall with
    | nil => rfl
    | @cons dep unit _ _ hunit _ =>
      -- every dependency names its owner
      have hempty := hrequires unit (.head _)
      unfold dependencyUnits at hunit
      rcases bind_ok hunit with ⟨owner, _, hunit⟩
      cases hunit
      split at hempty <;> cases hempty
  · intro hnil
    rw [hnil] at hall
    cases hall
    rfl

theorem credentialLinesFrom_eq_nil {seen : Seen} {attachments : List CredentialAttachment}
    (h : credentialLinesFrom effective service seen attachments = .ok lines) :
    lines = [] ↔ attachments = [] := by
  cases attachments with
  | nil =>
    cases h
    simp
  | cons attachment rest =>
    unfold credentialLinesFrom at h
    rcases bind_ok h with ⟨_, _, h⟩
    rcases bind_ok h with ⟨_, _, h⟩
    cases h
    simp

theorem acceleratorLines_eq_nil (h : acceleratorLines service = .ok lines) :
    lines = [] ↔ service.accelerators = [] := by
  unfold acceleratorLines at h
  split at h
  · rename_i hnil
    cases h
    simp [hnil]
  · rename_i hne
    split at h
    · cases h
    · rcases bind_ok h with ⟨_, _, h⟩
      rcases bind_ok h with ⟨_, _, h⟩
      cases h
      simp [hne]

theorem attachmentLines_eq_nil (h : attachmentLines effective service = .ok lines) :
    lines = [] ↔ service.storage = [] ∧ service.credentials = [] ∧ service.accelerators = [] := by
  unfold attachmentLines at h
  rcases bind_ok h with ⟨storage, hstorage, h⟩
  rcases bind_ok h with ⟨credentials, hcredentials, h⟩
  rcases bind_ok h with ⟨accelerators, haccelerators, h⟩
  cases h
  have hlength := (mapM_ok hstorage).length_eq
  rw [List.append_eq_nil_iff, List.append_eq_nil_iff, credentialLinesFrom_eq_nil hcredentials,
    acceleratorLines_eq_nil haccelerators, ← List.length_eq_zero_iff, ← hlength,
    List.length_eq_zero_iff, and_assoc]

theorem sandboxLines_ne_nil {sandbox : Sandbox} (hstrict : sandbox.mode = .strict)
    (h : sandboxLines sandbox = .ok lines) : lines ≠ [] := by
  unfold sandboxLines at h
  rw [if_neg (by rw [hstrict]; decide)] at h
  rcases bind_ok h with ⟨_, _, h⟩
  rcases bind_ok h with ⟨_, _, h⟩
  split at h
  · cases h
  · cases h
    intro hnil
    simp only [List.append_eq_nil_iff] at hnil
    exact List.cons_ne_nil _ _ hnil.1.1.1.1

theorem dropinText_isSome {unitLines serviceLines : List Text} :
    (dropinText unitLines serviceLines).isSome = false ↔ unitLines = [] ∧ serviceLines = [] := by
  unfold dropinText
  split
  · rename_i hnil
    rw [Bool.and_eq_true, decide_eq_true_eq, decide_eq_true_eq] at hnil
    exact iff_of_true rfl hnil
  · rename_i hne
    rw [Bool.and_eq_true, decide_eq_true_eq, decide_eq_true_eq] at hne
    exact iff_of_false Bool.noConfusion hne

theorem existingDropin_isSome {dropin : Option Text}
    (h : existingDropin effective service = .ok dropin) : dropin.isSome = hasDropin service := by
  unfold existingDropin at h
  rcases bind_ok h with ⟨dependencies, hdependencies, h⟩
  rcases bind_ok h with ⟨attachments, hattachments, h⟩
  rcases bind_ok h with ⟨sandbox, hsandbox, h⟩
  cases h
  have hstrict : sandbox = [] ↔ service.sandbox.mode ≠ .strict := by
    unfold strictLines at hsandbox
    split at hsandbox
    · rename_i hmode
      exact iff_of_false (sandboxLines_ne_nil hmode hsandbox) (not_not.mpr hmode)
    · rename_i hmode
      cases hsandbox
      exact iff_of_true rfl hmode
  have hdemand : (if isOnDemand service then ["StopWhenUnneeded=yes".toList] else []) = [] ↔
      isOnDemand service = false := by
    cases isOnDemand service with
    | true => exact iff_of_false (List.cons_ne_nil _ _) Bool.noConfusion
    | false => exact iff_of_true rfl rfl
  rw [Bool.eq_iff_iff, ← not_iff_not, Bool.not_eq_true, Bool.not_eq_true, dropinText_isSome,
    List.append_eq_nil_iff, List.append_eq_nil_iff, List.append_eq_nil_iff, hdemand, hstrict,
    dependencyLines_eq_nil hdependencies, attachmentLines_eq_nil hattachments]
  unfold hasDropin
  simp only [Bool.or_eq_false_iff, decide_eq_false_iff_not, not_not, ne_eq]
  tauto

end

end NixNas.Systemd
