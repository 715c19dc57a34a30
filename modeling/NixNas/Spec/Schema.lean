import NixNas.Spec.Effective

/-!
# What the schema says (`schemas/managed-services-v3.schema.json`)

The part of the JSON Schema about services, their workloads, runtimes and accelerators.
-/

open Fallible

namespace NixNas.Spec

variable {F : Type}

/-- `"type": "boolean"`, where the key is present. -/
def BooleanAt (key : String) (o : Object F) : Prop :=
  ∀ value, find key.toList o = some value → ∃ b, value = boolean b

/-- `"type": "string", "minLength": 1`. -/
def TextAt (key : String) (o : Object F) : Prop :=
  ∀ value, find key.toList o = some value → ∃ t, value = .scalar (.string t) ∧ t ≠ []

/-- `"type": "integer", "minimum": 1`; a float without a fraction is an integer. -/
def IsCount (float : FloatEq F) (value : Plain F) : Prop :=
  (∃ n, value = number n ∧ 1 ≤ n) ∨ ∃ x, value = .scalar (.float x) ∧ float.isInteger x = true

def EnumAt (key : String) (names : List String) (o : Object F) : Prop :=
  ∀ value, find key.toList o = some value → ∃ name ∈ names, value = text name

def acceleratorKeys : List Text :=
  ["kind", "vendor", "quantity", "required", "mode", "device", "target"].map String.toList

structure AcceleratorSchema (float : FloatEq F) (r : Object F) : Prop where
  keys : r.map Prod.fst ⊆ acceleratorKeys
  kind : find "kind".toList r = some (text "gpu")
  vendor : EnumAt "vendor" ["any", "NVIDIA", "AMD", "Intel"] r
  quantity : ∀ value, find "quantity".toList r = some value →
    IsCount float value ∨ value = text "all"
  required : BooleanAt "required" r
  mode : EnumAt "mode" ["shared", "passthrough"] r
  device : TextAt "device" r
  target : TextAt "target" r

structure WorkloadSchema (float : FloatEq F) (w : Object F) : Prop where
  kind : ∃ name ∈ ["daemon", "job", "session"], find "kind".toList w = some (text name)
  activation : EnumAt "activation" ["persistent", "on-demand"] w
  idleSeconds : ∀ value, find "idleSeconds".toList w = some value → IsCount float value
  schedules : ∀ value, find "schedules".toList w = some value → ∃ items, value = .array items

def runtimeTypes : List String := ["systemd", "exec", "python", "quadlet", "compose", "vm", "oci"]

structure RuntimeSchema (r : Object F) : Prop where
  type : ∃ name ∈ runtimeTypes, find "type".toList r = some (text name)
  unit : keyIs "type" "systemd" r = true →
    ∃ unit, find "unit".toList r = some (.scalar (.string unit)) ∧ unit ≠ []

structure ServiceSchema (float : FloatEq F) (service : Object F) : Prop where
  enabled : BooleanAt "enabled" service
  managed : BooleanAt "managed" service
  workload : ∃ w, find "workload".toList service = some (.object w) ∧ WorkloadSchema float w
  runtime : ∃ r, find "runtime".toList service = some (.object r) ∧ RuntimeSchema r
  accelerators : ∀ r, find "resources".toList service = some (.object r) →
    ∀ value, find "accelerators".toList r = some value → ∃ items, value = .array items ∧
      ∀ item ∈ items, ∃ a, item = .object a ∧ AcceleratorSchema float a

structure DocumentSchema (float : FloatEq F) (document : Object F) : Prop where
  schemaVersion : ∃ value, find "schemaVersion".toList document = some value ∧
    eq float value (number 3) = true
  services : ∃ services, find "services".toList document = some (.object services) ∧
    ∀ e ∈ services, ∃ service, e.2 = .object service ∧ ServiceSchema float service

variable {key name : String} {o : Object F} {value : Plain F}

theorem isText_text : isText (text name : Plain F) name = true := by
  simp [isText, text]

theorem eq_text_of_isText (h : isText value name = true) : value = text name := by
  cases value with
  | scalar a =>
    cases a with
    | string t =>
      have ht : t = name.toList := by simpa [isText] using h
      rw [ht]
      rfl
    | _ => cases h
  | array => cases h
  | object => cases h

theorem keyIs_iff : keyIs key name o = true ↔ find key.toList o = some (text name) := by
  unfold keyIs
  cases hfind : find key.toList o with
  | none => simp
  | some value =>
    rw [Option.any_some, Option.some.injEq]
    constructor
    · exact eq_text_of_isText
    · rintro rfl
      exact isText_text

theorem text_injective {a b : String} (h : (text a : Plain F) = text b) : a = b := by
  have hlist : a.toList = b.toList := by
    injection h with h
    injection h
  exact String.toList_injective hlist

section Compile

variable {validateSchema otherRules : Object F → Except SpecError Unit}
  {document effective : Object F}
variable {serviceId : Text} {services : Object F}

theorem checkAccelerators_ok {runtime : Object F} {index : Nat}
    {items : List (Plain F)} (h : checkAccelerators serviceId runtime index items = .ok ()) :
    ∀ item ∈ items, ∃ i, checkAccelerator serviceId runtime i (asObject (some item)) = .ok () := by
  induction items generalizing index with
  | nil => exact nofun
  | cons item items ih =>
    rw [checkAccelerators] at h
    obtain ⟨⟨⟩, hitem, h⟩ := bind_ok h
    rw [List.forall_mem_cons]
    exact ⟨⟨index, hitem⟩, ih h⟩

theorem semanticValidate_ok (h : semanticValidate otherRules document = .ok ())
    (hservices : find "services".toList document = some (.object services))
    {service : Object F} (hmem : (serviceId, .object service) ∈ services) :
    checkWorkload serviceId service = .ok () ∧
      ∀ item ∈ accelerators service, ∃ i, checkAccelerator serviceId
        (asObject (find "runtime".toList service)) i (asObject (some item)) = .ok () := by
  obtain ⟨⟨⟩, hrules, -⟩ := bind_ok h
  rw [hservices] at hrules
  obtain ⟨⟨⟩, hworkload, haccelerators⟩ := bind_ok (forM_ok hrules _ hmem)
  exact ⟨hworkload, checkAccelerators_ok haccelerators⟩

theorem compileDocument_ok (h : compileDocument validateSchema otherRules document = .ok effective) :
    ∃ normalized, normalize document = .ok normalized ∧ validateSchema normalized = .ok () ∧
      semanticValidate otherRules normalized = .ok () ∧ buildEffective normalized = .ok effective := by
  obtain ⟨⟨⟩, -, h⟩ := bind_ok h
  obtain ⟨normalized, hnormal, h⟩ := bind_ok h
  obtain ⟨⟨⟩, hschema, h⟩ := bind_ok h
  obtain ⟨⟨⟩, hrules, h⟩ := bind_ok h
  exact ⟨normalized, mapError_ok.mp hnormal, hschema, hrules, mapError_ok.mp h⟩

theorem buildEffective_ok (h : buildEffective document = .ok effective) :
    ∃ services runtime derived, find "services".toList document = some (.object services) ∧
      deriveServices derivedRuntime services = .ok runtime ∧
      find "runtime".toList derived = some (.object (objects runtime)) ∧
      effective = setItem document "derived".toList (.object derived) := by
  obtain ⟨services, hservices, h⟩ := bind_ok h
  obtain ⟨authorization, -, h⟩ := bind_ok h
  obtain ⟨runtime, hruntime, h⟩ := bind_ok h
  obtain ⟨routes, -, h⟩ := bind_ok h
  obtain ⟨resources, -, h⟩ := bind_ok h
  obtain ⟨ids, -, h⟩ := bind_ok h
  cases h
  refine ⟨services, runtime, _, objectItem_ok hservices, hruntime, ?_, rfl⟩
  rfl

theorem deriveServices_ok {α : Type} {derive : Text → Object F → Except Malformed α}
    {derived : List (Text × α)}
    (h : deriveServices derive services = .ok derived) :
    List.Forall₂ (fun e d ↦ d.1 = e.1 ∧ ∃ service, e.2 = .object service ∧
      derive e.1 service = .ok d.2) services derived := by
  refine (mapM_ok h).imp fun e d hentry => ?_
  obtain ⟨service, hservice, hentry⟩ := bind_ok hentry
  obtain ⟨a, ha, hentry⟩ := bind_ok hentry
  cases hentry
  refine ⟨rfl, service, ?_, ha⟩
  obtain ⟨serviceId, value⟩ := e
  cases value with
  | scalar => cases hservice
  | array => cases hservice
  | object o =>
    cases hservice
    rfl

end Compile

end NixNas.Spec
