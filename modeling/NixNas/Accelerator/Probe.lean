import NixNas.Accelerator.Resolve
import NixNas.Caddy.Routes
import NixNas.Lib.Lines

/-!
# The platform inventory (`services/nas_v2_platform_probe.py`)

The probe runs over `/sys/class/drm`, `/dev` and `/proc/driver/nvidia/gpus`.  A directory that cannot
be listed raises an error of its own and is left out.
-/

open Fallible

namespace NixNas.Accelerator

open Spec
open Caddy (isSpace)

variable {F : Type}

inductive ProbeError where
  /-- `duplicate NVIDIA GPU minor in driver metadata` -/
  | duplicateMinor (minor : ℕ)
  /-- `duplicate NVIDIA GPU UUID in driver metadata` -/
  | duplicateUuid (uuid : Text)
  deriving DecidableEq, Repr

/-- A file of `/sys/class/drm` that the pattern `renderD*` matches. -/
structure RenderNode where
  name : Text
  isRender : "renderD".toList.isPrefixOf name = true
  isSegment : '/' ∉ name
  /-- What stands in `device/vendor`, if it can be read. -/
  vendorId : Option Text

structure Host where
  renderNodes : List RenderNode
  nodup_names : (renderNodes.map RenderNode.name).Nodup
  /-- The names in `/dev` that start with `nvidia`. -/
  entries : List Text
  /-- Whether the path beneath `/dev` exists. -/
  present : Text → Bool
  /-- The `information` files of the driver, if they can be read. -/
  information : List (Option Text)
  /-- The output of `nvidia-ctk cdi list`, if it runs and succeeds. -/
  listing : Option Text

/-- `str.strip`. -/
def strip (value : Text) : Text := (value.dropWhile isSpace).rdropWhile isSpace

/-- The value of a field: the last line that has the key in front of its first colon. -/
def informationField (key : String) (lines : List Text) : Text :=
  let fields := (lines.filter (':' ∈ ·)).map fun line ↦
    (line.takeWhile (· ≠ ':'), (line.dropWhile (· ≠ ':')).tail)
  strip ((fields.reverse.lookup key.toList).getD [])

def isHexDigit (c : Char) : Bool := c.isDigit || ('a' ≤ c && c ≤ 'f') || ('A' ≤ c && c ≤ 'F')

/-- `_NVIDIA_UUID_RE`. -/
def isUuid (value : Text) : Bool :=
  match value.splitOn '-' with
  | [] => false
  | first :: groups =>
    first = "GPU".toList && groups.map List.length = [8, 4, 4, 4, 12] && groups.all (·.all isHexDigit)

def decimalNumber (value : Text) : Option ℕ :=
  if value ≠ [] ∧ value.all Char.isDigit = true then some (Nat.ofDigitChars 10 value 0) else none

/-- The minor and the UUID that an `information` file names. -/
def gpuIdentity (content : Text) : Option (ℕ × Text) :=
  let lines := (Lines.lines content).map Lines.Line.content
  let uuid := informationField "GPU UUID" lines
  match decimalNumber (informationField "Device Minor" lines) with
  | some minor => if isUuid uuid && minor ≤ 254 then some (minor, uuid) else none
  | none => none

def nvidiaGpuUuidsByMinor (information : List (Option Text)) :
    Except ProbeError (List (ℕ × Text)) :=
  (information.filterMap fun content ↦ content.bind gpuIdentity).foldlM (fun identities found ↦
    if found.1 ∈ identities.map Prod.fst then .error (.duplicateMinor found.1)
    else if found.2 ∈ identities.map Prod.snd then .error (.duplicateUuid found.2)
    else .ok (identities ++ [found])) []

def cdiName (name : Text) : Text := "nvidia.com/gpu=".toList ++ name

/-- `_listed_nvidia_cdi_devices`; without an answer no name is listed. -/
def listedNvidiaCdiDevices (listing : Option Text) : List Text :=
  (Lines.lines (listing.getD [])).map (fun line ↦ strip line.content) |>.filter
    ("nvidia.com/gpu=".toList.isPrefixOf ·)

def nvidiaCdiName (minor : ℕ) (uuid : Option Text) (listed : List Text) : Option Text :=
  let candidates := uuid.toList.map cdiName ++ [cdiName (Nat.toDigits 10 minor)]
  if listed = [] then candidates.head? else candidates.find? (· ∈ listed)

/-- The number behind `nvidia` in the name of a device. -/
def nvidiaIndex (name : Text) : Option ℕ :=
  let stem := "nvidia".toList
  if stem.isPrefixOf name then decimalNumber (name.drop stem.length) else none

/-- `sorted(set(nvidia_indexes))`. -/
def Host.minors (host : Host) : List ℕ :=
  ((host.entries.filter host.present).filterMap nvidiaIndex).dedup.insertionSort (· ≤ ·)

def gpuNode (minor : ℕ) : Text := "/dev/nvidia".toList ++ Nat.toDigits 10 minor

def sharedNodes : List Text :=
  ["nvidiactl", "nvidia-uvm", "nvidia-uvm-tools", "nvidia-modeset"].map String.toList

def Host.sharedNvidia (host : Host) : List Text :=
  (sharedNodes.filter host.present).map ("/dev/".toList ++ ·)

def vendorIds : List (Text × Text) :=
  [("0x1002", "AMD"), ("0x8086", "Intel"), ("0x10de", "NVIDIA")].map fun entry ↦
    (entry.1.toList, entry.2.toList)

def RenderNode.vendor (node : RenderNode) : Option Text :=
  node.vendorId.bind fun raw ↦ vendorIds.lookup ((strip raw).map Char.toLower)

def RenderNode.device (node : RenderNode) : Text := "/dev/dri/".toList ++ node.name

def Host.drm (host : Host) (vendor : Text) : List RenderNode :=
  (host.renderNodes.mergeSort fun a b ↦ decide (a.name ≤ b.name)).filter fun node ↦
    node.vendor = some vendor && host.present ("dri/".toList ++ node.name)

variable (capabilities : List (Text × Bool)) (host : Host)

/-- `capabilities.get(name) is True`. -/
def isCapable (name : String) : Bool := capabilities.lookup name.toList = some true

def cdiEnabled : Bool := isCapable capabilities "gpu-nvidia-cdi" && host.minors ≠ []

def nvidiaIdentities : Except ProbeError (List (ℕ × Text)) :=
  if cdiEnabled capabilities host then nvidiaGpuUuidsByMinor host.information else .ok []

def listedCdi : List Text :=
  if cdiEnabled capabilities host then listedNvidiaCdiDevices host.listing else []

def publishedName (identities : List (ℕ × Text)) (minor : ℕ) : Option Text :=
  if cdiEnabled capabilities host then
    nvidiaCdiName minor (identities.lookup minor) (listedCdi capabilities host)
  else none

def gpuSelectors (identities : List (ℕ × Text)) (minor : ℕ) : List Selector :=
  .devices (gpuNode minor :: host.sharedNvidia) ::
    (publishedName capabilities host identities minor).toList.map .cdi

/-- The `selectors` of a vendor. -/
def vendorOffers (identities : List (ℕ × Text)) (vendor : Text) : List Selector :=
  if vendor = "NVIDIA".toList ∧ host.minors ≠ [] then
    host.minors.flatMap (gpuSelectors capabilities host identities)
  else (host.drm vendor).map fun node ↦ .devices [node.device]

def nvidiaEntries (identities : List (ℕ × Text)) : Object F :=
  let sorted := identities.insertionSort fun a b ↦ a.1 ≤ b.1
  (if identities = [] then [] else
    [("minorByUuid".toList, .object (sorted.map fun entry ↦ (entry.2, number entry.1)))]) ++
  (if cdiEnabled capabilities host && (listedCdi capabilities host = [] ||
      (listedCdi capabilities host).contains (cdiName "all".toList)) then
    [("allSelector".toList, (Selector.cdi (cdiName "all".toList)).toPlain)] else [])

def vendorObject (identities : List (ℕ × Text)) (vendor : String) : Object F :=
  let configured := isCapable capabilities ("gpu-" ++ String.ofList (vendor.toList.map Char.toLower))
  [("configured".toList, boolean configured),
    ("selectors".toList, .array
      ((vendorOffers capabilities host identities vendor.toList).map Selector.toPlain))] ++
    if vendor = "NVIDIA" then nvidiaEntries capabilities host identities else []

def probeInventory : Except ProbeError (Object F) := do
  let identities ← nvidiaIdentities capabilities host
  .ok [("schemaVersion".toList, number 1),
    ("capabilities".toList, .object (capabilities.map fun entry ↦ (entry.1, boolean entry.2))),
    ("accelerators".toList,
      .object (["NVIDIA", "AMD", "Intel"].map fun vendor ↦
        (vendor.toList, .object (vendorObject capabilities host identities vendor))))]

end NixNas.Accelerator
