import NixNas.Accelerator.Resolve
import NixNas.Editor.Document

/-!
# The status of the services (`status` of `services/nas_v2_editor.py`)

`status` derives the expected services from the authority text on its own and compares them with
the effective document that is stored.
-/

open Fallible

namespace NixNas.Editor

open Spec

variable {F : Type}

/-! ## Modes -/

/-- `service.get("enabled", True) is False`. -/
def isDisabled (service : Object F) : Bool :=
  match find "enabled".toList service with
  | some (.scalar (.boolean false)) => true
  | _ => false

def desiredMode (service : Object F) : String :=
  if isDisabled service then "off"
  else if keyIs "activation" "on-demand" (asObject (find "workload".toList service)) then "on-demand"
  else "always"

/-- `isinstance(value, int) and value > 0`. -/
def isPositiveInt (value : Option (Plain F)) : Bool :=
  match value.bind Accelerator.intOf with
  | some n => 0 < n
  | none => false

def allowedModes (service : Object F) : List String :=
  let workload := asObject (find "workload".toList service)
  if keyIs "kind" "daemon" workload && isPositiveInt (find "idleSeconds".toList workload) then
    ["off", "on-demand", "always"]
  else ["off", "always"]

/-! ## Units -/

def ownerUnit (serviceId : Text) (service : Object F) : Option Text :=
  match find "runtime".toList service with
  | some (.object runtime) =>
    if keyIs "type" "systemd" runtime then
      match find "unit".toList runtime with
      | some (.scalar (.string unit)) => if unit = [] then none else some unit
      | _ => none
    else if keyIs "type" "compose" runtime then
      some ("nas-v2-".toList ++ serviceId ++ ".target".toList)
    else some ("nas-v2-".toList ++ serviceId ++ ".service".toList)
  | _ => none

structure StatusUnit (F : Type) where
  unit : Plain F
  role : String

def timerUnit (serviceId : Text) (index : Nat) : StatusUnit F :=
  ⟨joinText ["nas-v2-timer-".toList, serviceId, "-".toList, (Nat.repr index).toList,
    ".timer".toList], "schedule"⟩

def statusUnits (serviceId : Text) (service : Object F) (owner : Plain F) : List (StatusUnit F) :=
  let workload := asObject (find "workload".toList service)
  ⟨owner, "owner"⟩ ::
    if keyIs "kind" "job" workload then
      (List.range (asArray (find "schedules".toList workload)).length).map (timerUnit serviceId)
    else []

/-! ## The check of one service -/

def isBool : Option (Plain F) → Bool
  | some (.scalar (.boolean _)) => true
  | _ => false

def isArray : Option (Plain F) → Bool
  | some (.array _) => true
  | _ => false

/-- The part of `_is_valid_effective_service` about the workload. -/
def isValidWorkload (workload : Object F) : Bool :=
  (keyIs "kind" "daemon" workload || keyIs "kind" "job" workload ||
    keyIs "kind" "session" workload) &&
  (!keyIs "kind" "daemon" workload ||
    keyIs "activation" "persistent" workload || keyIs "activation" "on-demand" workload) &&
  (!keyIs "activation" "on-demand" workload || isPositiveInt (find "idleSeconds".toList workload)) &&
  (!keyIs "kind" "job" workload || isArray (find "schedules".toList workload))

/-- `a is b` for truth values. -/
def sameBool : Option (Plain F) → Option (Plain F) → Bool
  | some (.scalar (.boolean a)), some (.scalar (.boolean b)) => a = b
  | _, _ => false

/-- The part about the runtime and its derived metadata. -/
def isValidRuntime (float : FloatEq F) (serviceId : Text) (entry : Object F)
    (runtimeMeta : Option (Plain F)) : Bool :=
  match find "type".toList (asObject (find "runtime".toList entry)), runtimeMeta with
  | some (.scalar (.string runtimeType)), some (.object runtimeMeta) =>
    runtimeType ≠ [] &&
    match ownerUnit serviceId entry, find "ownerUnit".toList runtimeMeta,
        find "type".toList runtimeMeta with
    | some expected, some unit, some metaType =>
      eq float unit (.scalar (.string expected)) &&
        eq float metaType (.scalar (.string runtimeType)) &&
        sameBool (find "managed".toList runtimeMeta) (find "managed".toList entry)
    | _, _, _ => false
  | _, _ => false

def isValidEffectiveService (float : FloatEq F) (entry : Option (Plain F)) (serviceId : Text)
    (desired : Object F) (runtimeMeta : Option (Plain F)) : Bool :=
  match entry with
  | some (.object entry) =>
    contains float (.object entry) (.object desired) &&
      isBool (find "enabled".toList entry) && isBool (find "managed".toList entry) &&
      (match find "workload".toList entry with
        | some (.object workload) => isValidWorkload workload
        | _ => false) &&
      isValidRuntime float serviceId entry runtimeMeta
  | _ => false

/-! ## The stored document -/

/-- `value.get(key) == other`. -/
def keyEq (float : FloatEq F) (key : String) (o : Object F) (other : Plain F) : Bool :=
  (find key.toList o).any (eq float · other)

/-- `set(a) == set(b)`. -/
def sameKeys (a b : Object F) : Bool :=
  a.all (fun e ↦ Has e.1 b) && b.all (fun e ↦ Has e.1 a)

structure Effective (F : Type) where
  services : Object F
  runtime : Object F

/-- `_load_effective_value`, from the JSON value of the file. -/
def loadEffectiveValue (float : FloatEq F) (file : Option (Plain F)) (desiredRevision : Text)
    (desiredServices : Object F) : Option (Effective F) :=
  match file with
  | some (.object value) =>
    match find "services".toList value, find "provenance".toList value,
        find "runtime".toList (asObject (find "derived".toList value)) with
    | some (.object services), some (.object provenance), some (.object runtime) =>
      if keyEq float "schemaVersion" value (number 3) &&
          keyEq float "desiredSha256" provenance (.scalar (.string desiredRevision)) &&
          sameKeys services desiredServices && sameKeys runtime desiredServices then
        some ⟨services, runtime⟩
      else none
    | _, _, _ => none
  | _ => none

/-! ## Rows -/

structure Row (F : Type) where
  id : Text
  label : Plain F
  description : Plain F
  requestedMode : String
  effectiveMode : Option String
  effective : Bool
  available : Bool
  runtimeAvailable : Bool
  verified : Bool
  managed : Bool
  workloadKind : Option (Plain F)
  allowedModes : List String
  idleSeconds : Option (Plain F)
  units : List (StatusUnit F)

/-- `service.get("managed", True) is not False`. -/
def isManaged (service : Object F) : Bool :=
  match find "managed".toList service with
  | some (.scalar (.boolean false)) => false
  | _ => true

def verifiedRow (serviceId : Text) (service entry runtimeMeta : Object F) : Row F where
  id := serviceId
  label := (find "name".toList service).getD (.scalar (.string serviceId))
  description := (find "description".toList service).getD (text "")
  requestedMode := desiredMode service
  effectiveMode := some (desiredMode entry)
  effective := !isDisabled entry
  available := true
  runtimeAvailable := true
  verified := true
  managed := isManaged service
  workloadKind := find "kind".toList (asObject (find "workload".toList entry))
  allowedModes := allowedModes service
  idleSeconds := find "idleSeconds".toList (asObject (find "workload".toList entry))
  units := statusUnits serviceId entry ((find "ownerUnit".toList runtimeMeta).getD (text ""))

def unverifiedRow (serviceId : Text) (service : Object F) : Row F where
  id := serviceId
  label := (find "name".toList service).getD (.scalar (.string serviceId))
  description := (find "description".toList service).getD (text "")
  requestedMode := desiredMode service
  effectiveMode := none
  effective := false
  available := false
  runtimeAvailable := false
  verified := false
  managed := isManaged service
  workloadKind := find "kind".toList (asObject (find "workload".toList service))
  allowedModes := allowedModes service
  idleSeconds := find "idleSeconds".toList (asObject (find "workload".toList service))
  units := []

def statusRow (float : FloatEq F) (normalized : Object F) (effective : Effective F)
    (serviceId : Text) (service : Object F) : Row F :=
  let entry := find serviceId effective.services
  let runtimeMeta := find serviceId effective.runtime
  match find serviceId normalized with
  | some (.object expected) =>
    if isValidEffectiveService float entry serviceId expected runtimeMeta then
      verifiedRow serviceId service (asObject entry) (asObject runtimeMeta)
    else unverifiedRow serviceId service
  | _ => unverifiedRow serviceId service

def statusRows (float : FloatEq F) (normalized : Object F) (effective : Effective F)
    (services : Object F) : List (Row F) :=
  (services.mergeSort fun a b ↦ decide (a.1 ≤ b.1)).filterMap fun entry ↦
    match entry.2 with
    | .object service => some (statusRow float normalized effective entry.1 service)
    | _ => none

inductive StatusError where
  | editor (error : EditorError Text)
  | missingServices
  | malformed (error : Malformed)
  deriving DecidableEq, Repr

def status (p : Pipeline Text (Object F) (Object F)) (float : FloatEq F)
    (authority : Option ByteArray) (file : Option (Plain F)) :
    Except StatusError (List (Row F)) := do
  let desiredText ← (readText authority).mapError .editor
  let desired ← (p.parse desiredText).mapError fun e ↦ .editor (.unparsable e)
  match find "services".toList desired with
  | some (.object services) =>
    let normalized ← (normalize desired).mapError .malformed
    let normalizedServices := asObject (find "services".toList normalized)
    let effective := (loadEffectiveValue float file (revision p desiredText)
      normalizedServices).getD ⟨[], []⟩
    .ok (statusRows float normalizedServices effective services)
  | _ => .error .missingServices

/-! ## The compiled document -/

/-- What surrounds the compiler: the float comparisons, the hash, the YAML loader, the schema
validator, the rules of `semantic_validate` about other fields, and the platform inventory. -/
structure Environment (F : Type) where
  float : FloatEq F
  decimal : Char → Bool
  sha256 : ByteArray → Text
  load : Text → Except SpecError (Spec.Tree F)
  repr : F → Text
  validateSchema : Object F → Except SpecError Unit
  otherRules : Object F → Except SpecError Unit
  inventory : Object F

/-- `AcceleratorResolutionError` among the errors of the pipeline. -/
def resolutionError (_ : Accelerator.ResolutionError) : SpecError :=
  ⟨"AcceleratorResolutionError".toList, [], []⟩

/-- `parse_yaml_text`, `compile_document` and `resolve_effective` in their surroundings. -/
def Environment.pipeline (env : Environment F) : Pipeline Text (Object F) (Object F) where
  sha256 := env.sha256
  parse text := env.load text >>= parseLoaded env.repr
  compile := compileDocument env.validateSchema env.otherRules
  resolve effective :=
    (Accelerator.resolveEffective env.float env.decimal env.inventory effective).mapError
      resolutionError

def effectiveFile (effective : Object F) (provenance : Text) : Plain F :=
  stored (.object (setItem effective "provenance".toList
    (.object [("desiredSha256".toList, .scalar (.string provenance))])))

end NixNas.Editor
