import NixNas.Lib.Segments
import NixNas.Spec.Effective

/-!
# Host accelerators (`services/nas_v2_accelerator.py`)

The inventory is the JSON object of the platform probe.  What `\d` matches is a parameter.
-/

open Fallible

namespace NixNas.Accelerator

open Spec

variable {F : Type} (float : FloatEq F) (decimal : Char → Bool)

inductive ResolutionError where
  | missingServices
  | invalidDerived
  | invalidService (serviceId : Text)
  | missingRuntimeType (serviceId : Text)
  | invalidResources (serviceId : Text)
  | invalidRequest (serviceId : Text) (index : Nat)
  | passthrough (serviceId : Text) (index : Nat)
  | deviceQuantity (serviceId : Text) (index : Nat)
  | invalidSelector (device : Text)
  | cannotLower (runtime device : Text)
  | invalidQuantity (serviceId : Text) (index : Nat)
  | unavailable (serviceId : Text) (index : Nat)
  | missingMinor (selector : Text)
  | malformed
  deriving DecidableEq, Repr

/-! ## Selectors -/

def isAlphanumeric (c : Char) : Bool := c.isAlphanum

/-- `[A-Za-z0-9][A-Za-z0-9_.-]*`, with more characters behind the first one. -/
def isName (extra : List Char) : Text → Bool
  | [] => false
  | c :: rest => isAlphanumeric c && rest.all fun d ↦ isAlphanumeric d || d ∈ '_' :: '.' :: '-' :: extra

/-- The parts of `provider/class=name`. -/
def cdiParts (value : Text) : Option (Text × Text × Text) :=
  match value.splitOn '/' with
  | [provider, rest] =>
    match rest.splitOn '=' with
    | [kind, name] => some (provider, kind, name)
    | _ => none
  | _ => none

def isCdiSelector (value : Text) : Bool :=
  match cdiParts value with
  | some (provider, kind, name) => isName [] provider && isName [] kind && isName [':'] name
  | none => false

/-- `_NVIDIA_UUID_CDI_RE`. -/
def isUuidCdi (value : Text) : Bool :=
  let rest := "nvidia.com/gpu=GPU-".toList
  let hex (c : Char) := c.isDigit || ('a' ≤ c && c ≤ 'f') || ('A' ≤ c && c ≤ 'F') || c = '-'
  rest.isPrefixOf value && value.length > rest.length && (value.drop rest.length).all hex

/-- The parts of a `PurePosixPath` below its root. -/
def pathParts (raw : Text) : List Text := (Segments.segments '/' raw).filter (· ≠ ['.'])

/-- `str(PurePosixPath(raw))` of an absolute path; two slashes in front, and no more, stay. -/
def absolutePath (raw : Text) : Text :=
  let root := if "//".toList.isPrefixOf raw && !"///".toList.isPrefixOf raw then "//".toList else ['/']
  root ++ ['/'].intercalate (pathParts raw)

/-- An absolute path under `/dev/`, as the path library writes it. -/
def devicePath (raw : Text) : Option Text :=
  if ['/'].isPrefixOf raw && !(pathParts raw).contains "..".toList &&
      "/dev/".toList.isPrefixOf (absolutePath raw) then
    some (absolutePath raw)
  else none

inductive Selector where
  | devices (values : List Text)
  | cdi (value : Text)
  deriving DecidableEq, Repr

inductive SelectorType where
  | cdi | devices
  deriving DecidableEq, Repr

def Selector.type : Selector → SelectorType
  | .devices _ => .devices
  | .cdi _ => .cdi

def Selector.key : Selector → Text
  | .devices values => ['\x00'].intercalate values
  | .cdi value => value

def devicePaths : List Text → List (Plain F) → Option (List Text)
  | found, [] => some found
  | found, .scalar (.string raw) :: rest =>
    match devicePath raw with
    | some path => devicePaths (if path ∈ found then found else found ++ [path]) rest
    | none => none
  | _, _ :: _ => none

def selector : Option (Plain F) → Option Selector
  | some (.object o) =>
    if keyIs "type" "devices" o then
      match find "values".toList o with
      | some (.array (value :: values)) => (devicePaths [] (value :: values)).map .devices
      | _ => none
    else
      match find "value".toList o with
      | some (.scalar (.string raw)) =>
        if keyIs "type" "device" o then (devicePath raw).map fun path ↦ .devices [path]
        else if keyIs "type" "cdi" o && isCdiSelector raw then some (.cdi raw)
        else none
      | _ => none
  | _ => none

/-- `_runtime_selector_preference`. -/
def preference (runtime : String) : List SelectorType :=
  if runtime ∈ ["compose", "oci", "quadlet"] then [.cdi, .devices]
  else if runtime ∈ ["systemd", "exec", "python", "session-oci"] then [.devices]
  else []

/-! ## Vendors -/

def minorByUuid (vendor : Object F) : List (Text × Text) :=
  (asObject (find "minorByUuid".toList vendor)).filterMap fun entry ↦
    match entry.2 with
    | .scalar (.integer minor) =>
      if 0 ≤ minor ∧ minor ≤ 254 then some (entry.1, (Int.repr minor).toList) else none
    | _ => none

def requireUuidMappings (minors : List (Text × Text)) (selectors : List Selector) :
    Except ResolutionError Unit :=
  selectors.forM fun
    | .cdi value =>
      if isUuidCdi value && !(minors.map Prod.fst).contains ((value.splitOn '=').getLastD []) then
        .error (.missingMinor value)
      else .ok ()
    | .devices _ => .ok ()

/-- The digits behind `/dev/nvidia`. -/
def nvidiaMinor (path : Text) : Option Text :=
  let stem := "/dev/nvidia".toList
  let digits := path.drop stem.length
  if stem.isPrefixOf path && digits ≠ [] && digits.all decimal then some digits else none

def physicalIdentity (minors : List (Text × Text)) : Selector → Text
  | .cdi value =>
    match cdiParts value with
    | some (provider, kind, name) =>
      if isName [] provider && kind = "gpu".toList && name ≠ [] && name.all decimal then
        "gpu:".toList ++ name
      else if provider = "nvidia.com".toList ∧ kind = "gpu".toList then
        match minors.lookup name with
        | some minor => "gpu:".toList ++ minor
        | none => "cdi:".toList ++ value
      else "cdi:".toList ++ value
    | none => "cdi:".toList ++ value
  | .devices values =>
    match values.findSome? (nvidiaMinor decimal) with
    | some minor => "gpu:".toList ++ minor
    | none => "devices:".toList ++ ['\x00'].intercalate values

def onePerGpu (minors : List (Text × Text)) (selectors : List Selector) : List Selector :=
  (selectors.foldl (fun (kept : List Text × List Selector) candidate ↦
    let identity := physicalIdentity decimal minors candidate
    if identity ∈ kept.1 then kept else (identity :: kept.1, kept.2 ++ [candidate])) ([], [])).2

/-- What an iteration over a value yields; only an array has elements that are objects. -/
def iterate : Option (Plain F) → Except ResolutionError (List (Plain F))
  | none => .ok []
  | some (.array items) => .ok items
  | some (.object _) | some (.scalar (.string _)) => .ok []
  | some (.scalar _) => .error .malformed

def selectorLe (types : List SelectorType) (a b : Selector) : Bool :=
  types.idxOf a.type < types.idxOf b.type ||
    (types.idxOf a.type = types.idxOf b.type && decide (a.key ≤ b.key))

/-- The selectors of one vendor for a runtime, the preferred type first. -/
def vendorSelectors (types : List SelectorType) (vendor : Object F) :
    Except ResolutionError (List Selector) := do
  let values ← iterate (find "selectors".toList vendor)
  let parsed := values.foldl (fun parsed value ↦
    match selector (some value) with
    | some candidate =>
      if candidate.type ∈ types ∧ candidate ∉ parsed then parsed ++ [candidate] else parsed
    | none => parsed) []
  let parsed := parsed.mergeSort (selectorLe types)
  let minors := minorByUuid vendor
  requireUuidMappings minors parsed
  .ok (onePerGpu decimal minors parsed)

structure Selection where
  vendor : Option Text
  selectors : List Selector
  all : Option Selector
  deriving DecidableEq, Repr

def firstVendor (types : List SelectorType) (inventory : Object F) :
    List Text → Except ResolutionError Selection
  | [] => .ok ⟨none, [], none⟩
  | name :: names =>
    match find name (asObject (find "accelerators".toList inventory)) with
    | some (.object vendor) => do
      let selectors ← vendorSelectors decimal types vendor
      if selectors = [] then firstVendor types inventory names
      else
        let all := (selector (find "allSelector".toList vendor)).filter (·.type ∈ types)
        .ok ⟨some name, selectors, all⟩
    | _ => firstVendor types inventory names

def vendorOrder : List Text := ["NVIDIA", "AMD", "Intel"].map String.toList

def selectVendor (inventory : Object F) (requested : Text) (runtime : String) :
    Except ResolutionError Selection :=
  firstVendor decimal (preference runtime) inventory
    (if requested = "any".toList then vendorOrder else [requested])

/-! ## Requests -/

/-- A request as it is handed to the derived metadata. -/
inductive Resolved (F : Type) where
  /-- The request of a virtual machine, unchanged. -/
  | copied (request : Object F)
  | shared (vendor : Plain F) (required : Bool) (selectors : List Selector)
      (target : Option (Plain F))

/-- `items[:n]`. -/
def takeInt {α : Type} (n : Int) (items : List α) : List α :=
  items.take (if n < 0 then (items.length + n).toNat else n.toNat)

def intOf : Plain F → Option Int
  | .scalar a => asInt a
  | _ => none

def explicitSelector (runtime : String) (device : Text) : Except ResolutionError Selector :=
  let parsed :=
    if "/dev/".toList.isPrefixOf device then (devicePath device).map fun path ↦ .devices [path]
    else if isCdiSelector device then some (.cdi device)
    else none
  match parsed with
  | none => .error (.invalidSelector device)
  | some parsed =>
    if parsed.type ∈ preference runtime then .ok parsed
    else .error (.cannotLower runtime.toList device)

def selectRequest (inventory : Object F) (runtime : String) (serviceId : Text) (index : Nat)
    (vendor quantity : Plain F) : Except ResolutionError (Plain F × List Selector) := do
  let requested := match vendor with
    | .scalar (.string t) => t
    | _ => []
  let selection ← selectVendor decimal inventory requested runtime
  let found : Plain F := match selection.vendor with
    | some name => .scalar (.string name)
    | none => vendor
  if isText quantity "all" then
    .ok (found, match selection.all with
      | some all => [all]
      | none => selection.selectors)
  else
    match quantity with
    | .scalar (.integer n) => .ok (found, takeInt n selection.selectors)
    | _ => .error (.invalidQuantity serviceId index)

def isEnough (quantity : Plain F) (selectors : List Selector) : Bool :=
  if isText quantity "all" then selectors ≠ []
  else match intOf quantity with
    | some n => n ≤ selectors.length
    | none => false

def chooseSelectors (inventory : Object F) (runtime : String) (serviceId : Text) (index : Nat)
    (r : Object F) (vendor quantity : Plain F) :
    Except ResolutionError (Plain F × List Selector) :=
  match find "device".toList r with
  | some (.scalar (.string device)) =>
    if !eq float quantity (number 1) then .error (.deviceQuantity serviceId index)
    else (explicitSelector runtime device).map fun parsed ↦ (vendor, [parsed])
  | _ => selectRequest decimal inventory runtime serviceId index vendor quantity

def settleRequest (serviceId : Text) (index : Nat) (r : Object F) (quantity : Plain F)
    (chosen : Plain F × List Selector) : Except ResolutionError (List (Resolved F)) :=
  let required := truthy ((find "required".toList r).getD (boolean false))
  if isEnough quantity chosen.2 then
    .ok [.shared chosen.1 required chosen.2 (find "target".toList r)]
  else if required then .error (.unavailable serviceId index)
  else .ok []

def resolveRequest (inventory : Object F) (isVm : Bool) (runtime : String) (serviceId : Text)
    (index : Nat) (request : Plain F) : Except ResolutionError (List (Resolved F)) :=
  match request with
  | .object r =>
    let quantity := (find "quantity".toList r).getD (number 1)
    let vendor := (find "vendor".toList r).getD (text "any")
    if !keyIs "kind" "gpu" r then .error (.invalidRequest serviceId index)
    else if isVm then .ok [.copied r]
    else if !isText ((find "mode".toList r).getD (text "shared")) "shared" then
      .error (.passthrough serviceId index)
    else chooseSelectors float decimal inventory runtime serviceId index r vendor quantity >>=
      settleRequest serviceId index r quantity
  | _ => .error (.invalidRequest serviceId index)

def resolveRequests (inventory : Object F) (isVm : Bool) (runtime : String) (serviceId : Text) :
    Nat → List (Plain F) → Except ResolutionError (List (Resolved F))
  | _, [] => .ok []
  | index, request :: rest => do
    let resolved ← resolveRequest float decimal inventory isVm runtime serviceId index request
    let others ← resolveRequests inventory isVm runtime serviceId (index + 1) rest
    .ok (resolved ++ others)

def resolveServiceAccelerators (inventory : Object F) (serviceId : Text) (service : Object F) :
    Except ResolutionError (List (Resolved F)) :=
  let runtime := asObject (find "runtime".toList service)
  match find "type".toList runtime with
  | some (.scalar (.string runtimeType)) =>
    let isSessionOci := runtimeType = "oci".toList &&
      keyIs "kind" "session" (asObject (find "workload".toList service))
    let selected := if isSessionOci then "session-oci" else String.ofList runtimeType
    resolveRequests float decimal inventory (runtimeType = "vm".toList) selected serviceId 0
      (accelerators service)
  | _ => .error (.missingRuntimeType serviceId)

/-! ## The effective document -/

def targetEntry : Option (Plain F) → Object F
  | some target => [("target".toList, target)]
  | none => []

def Selector.values : Selector → List Text
  | .devices values => values
  | .cdi value => [value]

def material (vendor : Plain F) (target : Option (Plain F)) (device : Text) : Plain F :=
  .object ([("kind".toList, text "gpu"), ("vendor".toList, vendor), ("quantity".toList, number 1),
    ("required".toList, boolean true), ("mode".toList, text "shared"),
    ("device".toList, .scalar (.string device))] ++ targetEntry target)

/-- The accelerators that stand for a resolved request in the service. -/
def materials : Resolved F → List (Plain F)
  | .copied request => if keyIs "mode" "passthrough" request then [.object request] else []
  | .shared vendor _ selectors target =>
    selectors.flatMap fun s ↦ s.values.map (material vendor target)

def Selector.toPlain : Selector → Plain F
  | .devices values => .object [("type".toList, text "devices"),
      ("values".toList, .array (values.map fun v ↦ .scalar (.string v)))]
  | .cdi value => .object [("type".toList, text "cdi"), ("value".toList, .scalar (.string value))]

def Resolved.toPlain : Resolved F → Plain F
  | .copied request => .object request
  | .shared vendor required selectors target =>
    .object ([("kind".toList, text "gpu"), ("vendor".toList, vendor),
      ("required".toList, boolean required), ("mode".toList, text "shared"),
      ("selectors".toList, .array (selectors.map Selector.toPlain))] ++ targetEntry target)

/-- `service["resources"]["accelerators"] = values`. -/
def withAccelerators (service : Object F) (values : List (Plain F)) : Object F :=
  setItem service "resources".toList (.object
    (setItem (asObject (find "resources".toList service)) "accelerators".toList (.array values)))

/-- The pass over one service: what goes into the derived metadata and the service with it. -/
def resolveService (inventory : Object F) (entry : Text × Plain F) :
    Except ResolutionError ((Text × Plain F) × (Text × Plain F)) :=
  match entry.2 with
  | .object service => do
    let resolved ← resolveServiceAccelerators float decimal inventory entry.1 service
    match find "resources".toList service with
    | some (.object _) =>
      .ok ((entry.1, .array (resolved.map Resolved.toPlain)),
        (entry.1, .object (withAccelerators service (resolved.flatMap materials))))
    | _ => .error (.invalidResources entry.1)
  | _ => .error (.invalidService entry.1)

def resolveEffective (inventory effective : Object F) : Except ResolutionError (Object F) :=
  match find "services".toList effective with
  | some (.object services) =>
    match find "derived".toList (setDefault "derived" (.object []) effective) with
    | some (.object derived) => do
      let resolved ← services.mapM (resolveService float decimal inventory)
      .ok (setItem (setItem effective "services".toList (.object (resolved.map Prod.snd)))
        "derived".toList (.object (setItem derived "accelerators".toList
          (.object (resolved.map Prod.fst)))))
    | _ => .error .invalidDerived
  | _ => .error .missingServices

end NixNas.Accelerator
