import NixNas.Accelerator.Resolve
import NixNas.Authentik.Blueprint
import NixNas.Lib.Template
import NixNas.Session.Names

/-!
# Storage of session instances (`services/nas_v2_session.py`)

A session descriptor has templates for the paths that an instance mounts.  A template of the instance
scope names the instance, one of the user scope the user; where links lead is a parameter.
-/

open Fallible NixNas.Spec NixNas.Authentik

namespace NixNas.Session

variable {F : Type}

/-! ## Paths -/

/-- A `PurePosixPath`: what it starts with, and its parts. -/
structure PurePath where
  root : Text
  parts : List Text
  deriving DecidableEq, Repr

/-- Two slashes in front, and no more, are a root of their own. -/
def rootOf (value : Text) : Text :=
  if "//".toList.isPrefixOf value && !"///".toList.isPrefixOf value then "//".toList
  else if ['/'].isPrefixOf value then ['/'] else []

def purePath (value : Text) : PurePath := ⟨rootOf value, Accelerator.pathParts value⟩

/-- `str(path)` of an absolute path. -/
def PurePath.str (p : PurePath) : Text := p.root ++ ['/'].intercalate p.parts

/-- `p.relative_to(q)` is defined: `p` is `q` or lies below it. -/
def Beneath (p q : PurePath) : Prop := p.root = q.root ∧ q.parts <+: p.parts

instance (p q : PurePath) : Decidable (Beneath p q) := inferInstanceAs (Decidable (_ ∧ _))

def Separate (p q : PurePath) : Prop := ¬ Beneath p q ∧ ¬ Beneath q p

inductive DescriptorError where
  | identifier (error : SessionError)
  | fields
  | templateFields
  | placeholder
  | forbiddenCharacter
  | notAbsolute
  | binary
  | unit
  | missingUser
  | escapes
  deriving DecidableEq, Repr

def safePath (value : Text) : Except DescriptorError PurePath :=
  if value.any fun c ↦ c = '\x00' || c = '\r' || c = '\n' || c = ':' then .error .forbiddenCharacter
  else if (rootOf value).isEmpty || (Accelerator.pathParts value).contains "..".toList then
    .error .notAbsolute
  else .ok (purePath value)

def safeBinary : Option (Plain F) → Except DescriptorError Text
  | some (.scalar (.string value)) => (safePath value).map PurePath.str
  | _ => .error .binary

def isUnitChar (c : Char) : Bool := c.isAlphanum || ['_', '.', '@', ':', '-'].contains c

/-- `_SYSTEMD_UNIT`. -/
def isSessionUnit (value : Text) : Bool :=
  value.all isUnitChar && [".service".toList, ".target".toList].any fun suffix ↦
    suffix.isSuffixOf value && suffix.length < value.length

def safeUnit : Plain F → Except DescriptorError Text
  | .scalar (.string value) => if isSessionUnit value then .ok value else .error .unit
  | _ => .error .unit

def safeUnitAt (key : String) (o : Object F) : Except DescriptorError Text :=
  match find key.toList o with
  | some unit => safeUnit unit
  | none => .error .unit

/-! ## Templates -/

inductive Scope where
  | inst | user
  deriving DecidableEq, Repr

inductive Access where
  | ro | rw
  deriving DecidableEq, Repr

def Scope.token : Scope → Text
  | .inst => "\x7binstance\x7d".toList
  | .user => "\x7buser\x7d".toList

def hasBrace (value : Text) : Bool := value.any fun c ↦ c = '\x7b' || c = '\x7d'

structure VolumeTemplate where
  root : Text
  sourceTemplate : Text
  target : Text
  access : Access
  scope : Scope
  deriving DecidableEq, Repr

def readAccess (value : Text) : Option Access :=
  if value = "ro".toList then some .ro else if value = "rw".toList then some .rw else none

def readScope (value : Text) : Option Scope :=
  if value = "instance".toList then some .inst else if value = "user".toList then some .user else none

/-- One turn of `_validate_volume_templates`. -/
def validateVolumeTemplate : Plain F → Except DescriptorError VolumeTemplate
  | .object entry =>
    match textAt "root" entry, textAt "sourceTemplate" entry, textAt "target" entry,
      (textAt "access" entry).bind readAccess, (textAt "scope" entry).bind readScope with
    | some root, some template, some target, some access, some scope => do
      if ¬ scope.token <:+: template then .error .templateFields
      else
        let _ ← safePath root
        let _ ← safePath target
        let probe := Template.replace scope.token "probe".toList template
        if hasBrace probe then .error .placeholder
        else
          let _ ← safePath probe
          .ok ⟨root, template, target, access, scope⟩
    | _, _, _, _, _ => .error .templateFields
  | _ => .error .templateFields

def validateVolumeTemplates : Option (Plain F) → Except DescriptorError (List VolumeTemplate)
  | none | some (.scalar .null) => .ok []
  | some (.array entries) => entries.mapM validateVolumeTemplate
  | some _ => .error .templateFields

/-! ## Descriptors -/

structure Descriptor where
  serviceId : Text
  image : Text
  runArgs : List Text
  command : List Text
  podman : Text
  systemctl : Text
  systemdRun : Text
  targetUnit : Text
  requires : List Text
  after : List Text
  requiresUser : Bool
  volumeTemplates : List VolumeTemplate
  deriving DecidableEq, Repr

def textItem : Plain F → Option Text
  | .scalar (.string value) => some value
  | _ => none

def textsAt (key : String) (o : Object F) : Option (List Text) :=
  match find key.toList o with
  | some (.array items) => items.mapM textItem
  | _ => none

def arrayAt (key : String) (o : Object F) : Option (List (Plain F)) :=
  match find key.toList o with
  | some (.array items) => some items
  | _ => none

/-- `_load_descriptor`, the file parsed. -/
def loadDescriptor (float : FloatEq F) : Plain F → Except DescriptorError Descriptor
  | .object value =>
    if !(find "schemaVersion".toList value).any (eq float · (number 3)) then .error .fields
    else match textAt "serviceId" value, textAt "image" value, textsAt "runArgs" value,
      textsAt "command" value, arrayAt "requires" value, arrayAt "after" value with
    | some serviceId, some image, some runArgs, some command, some requires, some after => do
      let serviceId ← (validateServiceId serviceId).mapError .identifier
      let podman ← safeBinary (find "podman".toList value)
      let systemctl ← safeBinary (find "systemctl".toList value)
      let systemdRun ← safeBinary (find "systemdRun".toList value)
      let targetUnit ← safeUnitAt "targetUnit" value
      let requires ← requires.mapM safeUnit
      let after ← after.mapM safeUnit
      match find "requiresUser".toList value with
      | some (.scalar (.boolean requiresUser)) => do
        let templates ← validateVolumeTemplates (find "volumeTemplates".toList value)
        .ok ⟨serviceId, image, runArgs, command, podman, systemctl, systemdRun, targetUnit, requires,
          after, requiresUser, templates⟩
      | _ => .error .fields
    | _, _, _, _, _, _ => .error .fields
  | _ => .error .fields

/-! ## Mounts -/

structure Volume where
  source : PurePath
  target : PurePath
  access : Access
  deriving DecidableEq, Repr

def placeholderValue (scope : Scope) (instanceId : Text) (userId : Option Text) :
    Except DescriptorError Text :=
  match scope, userId with
  | .inst, _ => .ok instanceId
  | .user, some userId => .ok userId
  | .user, none => .error .missingUser

/-- One turn of `_resolved_volume_args`; `resolve` follows the links of a path. -/
def resolveVolume (resolve : PurePath → PurePath) (instanceId : Text) (userId : Option Text)
    (entry : VolumeTemplate) : Except DescriptorError Volume := do
  let value ← placeholderValue entry.scope instanceId userId
  let sourceValue := Template.replace entry.scope.token value entry.sourceTemplate
  if hasBrace sourceValue then .error .placeholder
  else
    let source ← safePath sourceValue
    let root ← safePath entry.root
    let target ← safePath entry.target
    if ¬ Beneath (resolve source) (resolve root) then .error .escapes
    else .ok ⟨source, target, entry.access⟩

def validateOptionalUser : Option Text → Except DescriptorError (Option Text)
  | some userId => ((validateUserId userId).mapError .identifier).map some
  | none => .ok none

/-- The volumes of `_resolved_volume_args`. -/
def resolvedVolumes (resolve : PurePath → PurePath) (d : Descriptor) (instanceId : Text)
    (userId : Option Text) : Except DescriptorError (List Volume) := do
  let instanceId ← (validateInstanceId instanceId).mapError .identifier
  let userId ← validateOptionalUser userId
  if d.requiresUser ∧ userId = none then .error .missingUser
  else d.volumeTemplates.mapM (resolveVolume resolve instanceId userId)

def Volume.args (v : Volume) : List Text :=
  let access := match v.access with
    | .ro => "ro".toList
    | .rw => "rw".toList
  ["--volume".toList, v.source.str ++ ':' :: v.target.str ++ ':' :: access]

def podmanRunCommand (sha256 : Text → Text) (resolve : PurePath → PurePath) (d : Descriptor)
    (instanceId : Text) (userId : Option Text) : Except DescriptorError (List Text) := do
  let volumes ← resolvedVolumes resolve d instanceId userId
  let name ← (containerName sha256 d.serviceId instanceId userId).mapError .identifier
  let user := match userId with
    | some userId => ["--label".toList, "io.nixos-nas.v2.user=".toList ++ userId]
    | none => []
  let labels := ["--label".toList, "io.nixos-nas.v2.session=".toList ++ d.serviceId,
    "--label".toList, "io.nixos-nas.v2.instance=".toList ++ instanceId] ++ user
  .ok (d.podman :: "run".toList :: "--rm".toList :: "--name".toList :: name :: labels ++ d.runArgs ++
    volumes.flatMap Volume.args ++ d.image :: d.command)

end NixNas.Session
