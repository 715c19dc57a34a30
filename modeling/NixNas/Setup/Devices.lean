import NixNas.Caddy.Routes
import NixNas.Lib.Fallible
import NixNas.Lib.Lines
import NixNas.Spec.Object
import Mathlib.Data.Finset.Union
import Mathlib.Logic.Relation

/-!
# Devices that a pool may be made of (`validate_unused_devices` of `services/nas_setup.py`)

What `lsblk` printed is any JSON value.  A command that fails raises a `SetupError` of its own and
is left out; the limits of the interpreter are left out too.
-/

open Fallible

namespace NixNas.Setup

open Spec (Plain Scalar Object Malformed find getItem inTexts)
open Caddy (isSpace)

variable {F : Type}
variable {p : Plain F → Prop} {inUse : Bool} {a x y : Prop} {roots : List (Plain F)}
  {devices : List Text}

/-- What `os.stat` tells about a path. -/
structure Stat where
  isBlock : Bool
  major : Nat
  minor : Nat
  deriving DecidableEq, Repr

structure Host (F : Type) where
  /-- The output of `lsblk`, if it is JSON. -/
  inventory : Option (Plain F)
  /-- `/proc/swaps`. -/
  swapTable : Text
  /-- `os.stat`, where it does not raise. -/
  stat : Text → Option Stat
  /-- The characters of `\d`. -/
  digit : Char → Bool
  /-- Whether a float is true. -/
  nonzero : F → Bool

inductive Raised where
  | osError
  | valueError (message : Text)
  | indexError
  | malformed (cause : Malformed)
  deriving DecidableEq, Repr

/-- The two refusals: `Configured storage device is in use: …` and `Unable to validate storage
device inventory: …`. -/
inductive SetupError where
  | inUse (device : Text)
  | uninspectable (cause : Raised)
  deriving DecidableEq, Repr

/-- What leaves the function: a refusal, or an exception that its `except` does not name. -/
inductive Escape where
  | setup (error : SetupError)
  | other (cause : Raised)
  deriving DecidableEq, Repr

def item (key : String) (o : Object F) : Except Raised (Plain F) :=
  (getItem key.toList o).mapError .malformed

/-- `f"{os.major(info.st_rdev)}:{os.minor(info.st_rdev)}"`. -/
def deviceId (info : Stat) : Text :=
  (Nat.repr info.major).toList ++ ':' :: (Nat.repr info.minor).toList

/-- `re.fullmatch(r"\d+:\d+", identity)`. -/
def isIdentity (digit : Char → Bool) (identity : Text) : Bool :=
  match identity.span digit with
  | (major, ':' :: minor) => !major.isEmpty && !minor.isEmpty && minor.all digit
  | _ => false

def isTrue (nonzero : F → Bool) : Plain F → Bool
  | .scalar (.string t) => !t.isEmpty
  | .scalar (.integer n) => n ≠ 0
  | .scalar (.boolean b) => b
  | .scalar .null => false
  | .scalar (.float x) => nonzero x
  | .scalar (.other _) => true
  | .array items => !items.isEmpty
  | .object entries => !entries.isEmpty

/-! ## The swap table -/

/-- `line.split()[0]`. -/
def firstWord (line : Text) : Except Raised Text :=
  match Lines.words isSpace line with
  | [] => .error .indexError
  | word :: _ => .ok word

def swapPaths (swapTable : Text) : Except Raised (List Text) :=
  match (Lines.lines swapTable).map Lines.Line.content with
  | [] => .error (.valueError "missing swap header".toList)
  | header :: rest =>
    if "Filename".toList.isPrefixOf header then
      (rest.filter fun line ↦ !line.all isSpace).mapM firstWord
    else .error (.valueError "missing swap header".toList)

def statOf (host : Host F) (path : Text) : Except Raised Stat :=
  match host.stat path with
  | none => .error .osError
  | some info => .ok info

def swapDevices (host : Host F) (swaps : List Text) : Except Raised (List Text) := do
  let infos ← swaps.mapM (statOf host)
  .ok ((infos.filter Stat.isBlock).map deviceId)

/-! ## The walk -/

structure Seen where
  unsafeIds : Finset Text
  known : Finset Text

structure Checks (F : Type) where
  swaps : List Text
  swapDevices : List Text
  digit : Char → Bool
  nonzero : F → Bool

structure Block (F : Type) where
  identity : Text
  path : Text
  mounts : List (Plain F)

def invalidDevice : Raised := .valueError "invalid block device".toList

/-- The fields of a node, in the order in which the walk asks for them. -/
def readBlock (digit : Char → Bool) (o : Object F) : Except Raised (Block F) := do
  match ← item "maj:min" o with
  | .scalar (.string identity) =>
    if isIdentity digit identity then do
      let path ← item "path" o
      let mounts ← item "mountpoints" o
      match path, mounts with
      | .scalar (.string path), .array mounts => .ok ⟨identity, path, mounts⟩
      | _, _ => .error (.valueError "invalid device mount information".toList)
    else .error (.valueError "invalid device identity".toList)
  | _ => .error (.valueError "invalid device identity".toList)

def Checks.isBusy (checks : Checks F) (block : Block F) : Bool :=
  block.mounts.any (isTrue checks.nonzero) || block.path ∈ checks.swaps ||
    block.identity ∈ checks.swapDevices

/-- Whether the node makes its chain unsafe; the type is asked only of a node that is not busy. -/
def Checks.isInUse (checks : Checks F) (o : Object F) (block : Block F) : Except Raised Bool := do
  if checks.isBusy block then .ok true
  else
    let kind ← item "type" o
    let plain ← (inTexts kind ["disk", "part", "loop"]).mapError .malformed
    .ok !plain

def Seen.mark (seen : Seen) (identity : Text) (inUse : Bool) (chain : List Text) : Seen where
  unsafeIds := if inUse then seen.unsafeIds ∪ chain.toFinset else seen.unsafeIds
  known := insert identity seen.known

/-- `node.get("children", [])` and what iterating over it gives: the keys of an object and the
characters of a text are no nodes. -/
def childrenOf (o : Object F) : Except Raised (List (Plain F)) :=
  match find "children".toList o with
  | none => .ok []
  | some (.array items) => .ok items
  | some (.object []) | some (.scalar (.string [])) => .ok []
  | some (.object _) | some (.scalar (.string _)) => .error invalidDevice
  | some _ => .error (.malformed .typeError)

theorem childrenOf_ok {o : Object F} {children : List (Plain F)} (h : childrenOf o = .ok children) :
    children = [] ∨ find "children".toList o = some (.array children) := by
  unfold childrenOf at h
  split at h
  · exact .inl (Except.ok.inj h).symm
  · rename_i items hfind
    cases h
    exact .inr hfind
  · exact .inl (Except.ok.inj h).symm
  · exact .inl (Except.ok.inj h).symm
  · cases h
  · cases h
  · cases h

theorem sizeOf_childrenOf {o : Object F} {children : List (Plain F)}
    (h : childrenOf o = .ok children) : sizeOf children ≤ sizeOf o := by
  rcases childrenOf_ok h with rfl | hfind
  · cases o with
    | nil => exact le_rfl
    | cons e o =>
      simp
      omega
  · have hmem := List.sizeOf_lt_of_mem (Spec.mem_of_find hfind)
    simp at hmem
    omega

mutual

def visit (checks : Checks F) (node : Plain F) (parents : List Text) (seen : Seen) :
    Except Raised Seen :=
  match node with
  | .object o => do
    let block ← readBlock checks.digit o
    let chain := parents ++ [block.identity]
    let inUse ← checks.isInUse o block
    match _hchildren : childrenOf o with
    | .ok children => visitAll checks children chain (seen.mark block.identity inUse chain)
    | .error err => .error err
  | _ => .error invalidDevice
termination_by sizeOf node
decreasing_by
  have hle := sizeOf_childrenOf _hchildren
  simp
  omega

def visitAll (checks : Checks F) (nodes : List (Plain F)) (parents : List Text) (seen : Seen) :
    Except Raised Seen :=
  match nodes with
  | [] => .ok seen
  | node :: nodes => do
    let seen ← visit checks node parents seen
    visitAll checks nodes parents seen
termination_by sizeOf nodes

end

/-! ## The function -/

/-- `inventory["blockdevices"]`. -/
def blockDevices (host : Host F) : Except Raised (List (Plain F)) :=
  match host.inventory with
  | none => .error (.valueError "invalid JSON".toList)
  | some (.object o) => do
    match ← item "blockdevices" o with
    | .array (root :: roots) => .ok (root :: roots)
    | _ => .error (.valueError "missing blockdevices".toList)
  | some _ => .error (.malformed .typeError)

def inspect (host : Host F) : Except Raised Seen := do
  let roots ← blockDevices host
  let swaps ← swapPaths host.swapTable
  let numbers ← swapDevices host swaps
  visitAll ⟨swaps, numbers, host.digit, host.nonzero⟩ roots [] ⟨∅, ∅⟩

def checkDevice (host : Host F) (seen : Seen) (device : Text) : Except Escape Unit := do
  let info ← (statOf host device).mapError .other
  if deviceId info ∉ seen.known then
    .error (.other (.valueError ("device missing from inventory: ".toList ++ device)))
  else if deviceId info ∈ seen.unsafeIds then .error (.setup (.inUse device))
  else .ok ()

/-- The classes that the `except` names. -/
def Raised.isCaught : Raised → Bool
  | .osError | .valueError _ | .malformed (.keyError _) | .malformed .typeError => true
  | .indexError | .malformed .attributeError => false

/-- The `except` around the whole body. -/
def Escape.guarded : Escape → Escape
  | .setup error => .setup error
  | .other cause => if cause.isCaught then .setup (.uninspectable cause) else .other cause

def validateUnusedDevices (host : Host F) (devices : List Text) : Except Escape Unit :=
  Except.mapError Escape.guarded do
    let seen ← (inspect host).mapError .other
    devices.forM (checkDevice host seen)

/-! ## Devices in use -/

/-- `child` hangs directly below the node. -/
def IsChild (node child : Plain F) : Prop :=
  ∃ o children, node = .object o ∧ find "children".toList o = some (.array children) ∧
    child ∈ children

def Beneath : Plain F → Plain F → Prop := Relation.ReflTransGen IsChild

def HasIdentity (identity : Text) (node : Plain F) : Prop :=
  ∃ o, node = .object o ∧ find "maj:min".toList o = some (.scalar (.string identity))

def IsMounted (nonzero : F → Bool) (node : Plain F) : Prop :=
  ∃ o mounts, node = .object o ∧ find "mountpoints".toList o = some (.array mounts) ∧
    ∃ mount ∈ mounts, isTrue nonzero mount = true

def IsSwap (stat : Text → Option Stat) (swaps : List Text) (node : Plain F) : Prop :=
  (∃ o, ∃ path ∈ swaps, node = .object o ∧
    find "path".toList o = some (.scalar (.string path))) ∨
  ∃ path ∈ swaps, ∃ info, stat path = some info ∧ info.isBlock = true ∧
    HasIdentity (deviceId info) node

def IsHolder (node : Plain F) : Prop :=
  ∃ o kind, node = .object o ∧ find "type".toList o = some (.scalar kind) ∧
    ∀ name ∈ ["disk", "part", "loop"], kind ≠ .string name.toList

def InUse (host : Host F) (swaps : List Text) (node : Plain F) : Prop :=
  IsMounted host.nonzero node ∨ IsSwap host.stat swaps node ∨ IsHolder node

/-- A node that the walk can read.  The type may be missing where the node is mounted or swap. -/
structure WellFormed (host : Host F) (swaps : List Text) (o : Object F) : Prop where
  identity : ∃ identity, find "maj:min".toList o = some (.scalar (.string identity)) ∧
    isIdentity host.digit identity = true
  path : ∃ path, find "path".toList o = some (.scalar (.string path))
  mounts : ∃ mounts, find "mountpoints".toList o = some (.array mounts)
  type : IsMounted host.nonzero (.object o) ∨ IsSwap host.stat swaps (.object o) ∨
    ∃ kind, find "type".toList o = some (.scalar kind)
  children : ∃ children, childrenOf o = .ok children

def IsNode (host : Host F) (swaps : List Text) (node : Plain F) : Prop :=
  ∃ o, node = .object o ∧ WellFormed host swaps o

def IsSwapTable (table : Text) (swaps : List Text) : Prop :=
  ∃ header rest, (Lines.lines table).map Lines.Line.content = header :: rest ∧
    "Filename".toList <+: header ∧
    swaps = rest.filterMap fun line ↦ (Lines.words isSpace line).head?

structure Inspectable (host : Host F) (roots : List (Plain F)) (swaps : List Text) : Prop where
  listed : ∃ o, host.inventory = some (.object o) ∧
    find "blockdevices".toList o = some (.array roots)
  nonempty : roots ≠ []
  table : IsSwapTable host.swapTable swaps
  table_exists : ∀ path ∈ swaps, ∃ info, host.stat path = some info
  nodes : ∀ root ∈ roots, ∀ node, Beneath root node → IsNode host swaps node

/-- The device occurs in the forest, and no occurrence of it has a node in use in its subtree. -/
def Unused (host : Host F) (roots : List (Plain F)) (swaps : List Text) (device : Text) : Prop :=
  ∃ info, host.stat device = some info ∧
    (∃ root ∈ roots, ∃ node, Beneath root node ∧ HasIdentity (deviceId info) node) ∧
    ∀ root ∈ roots, ∀ node, Beneath root node → HasIdentity (deviceId info) node →
      ∀ inner, Beneath node inner → ¬ InUse host swaps inner

/-! ## Subtrees -/

variable {host : Host F} {swaps : List Text} {checks : Checks F} {o : Object F}
  {node inner : Plain F} {nodes children : List (Plain F)} {block : Block F} {identity : Text}

def Among (nodes : List (Plain F)) (node : Plain F) : Prop := ∃ root ∈ nodes, Beneath root node

theorem isChild_iff (h : childrenOf o = .ok children) :
    IsChild (.object o) node ↔ node ∈ children := by
  constructor
  · rintro ⟨o', children', heq, hfind, hmem⟩
    cases heq
    rcases childrenOf_ok h with rfl | hfind'
    · unfold childrenOf at h
      rw [hfind] at h
      cases h
      exact hmem
    · cases hfind.symm.trans hfind'
      exact hmem
  · intro hmem
    rcases childrenOf_ok h with rfl | hfind
    · cases hmem
    · exact ⟨o, children, rfl, hfind, hmem⟩

theorem beneath_object (h : childrenOf o = .ok children) :
    Beneath (.object o) node ↔ node = .object o ∨ Among children node := by
  constructor
  · intro hbeneath
    rcases Relation.ReflTransGen.cases_head hbeneath with rfl | ⟨child, hchild, hrest⟩
    · exact .inl rfl
    · exact .inr ⟨child, (isChild_iff h).mp hchild, hrest⟩
  · rintro (rfl | ⟨child, hchild, hrest⟩)
    · exact .refl
    · exact .head ((isChild_iff h).mpr hchild) hrest

theorem exists_among_cons :
    (∃ inner, Among (node :: nodes) inner ∧ p inner) ↔
      (∃ inner, Beneath node inner ∧ p inner) ∨ ∃ inner, Among nodes inner ∧ p inner := by
  constructor
  · rintro ⟨inner, ⟨root, hroot, hbeneath⟩, hp⟩
    rcases List.mem_cons.mp hroot with rfl | hroot
    · exact .inl ⟨inner, hbeneath, hp⟩
    · exact .inr ⟨inner, ⟨root, hroot, hbeneath⟩, hp⟩
  · rintro (⟨inner, hbeneath, hp⟩ | ⟨inner, ⟨root, hroot, hbeneath⟩, hp⟩)
    · exact ⟨inner, ⟨node, List.mem_cons_self, hbeneath⟩, hp⟩
    · exact ⟨inner, ⟨root, List.mem_cons_of_mem _ hroot, hbeneath⟩, hp⟩

theorem exists_beneath_object (h : childrenOf o = .ok children) :
    (∃ inner, Beneath (.object o) inner ∧ p inner) ↔
      p (.object o) ∨ ∃ inner, Among children inner ∧ p inner := by
  constructor
  · rintro ⟨inner, hbeneath, hp⟩
    rcases (beneath_object h).mp hbeneath with rfl | hamong
    · exact .inl hp
    · exact .inr ⟨inner, hamong, hp⟩
  · rintro (hp | ⟨inner, hamong, hp⟩)
    · exact ⟨_, .refl, hp⟩
    · exact ⟨inner, (beneath_object h).mpr (.inr hamong), hp⟩

/-! ## One node -/

theorem item_ok {key : String} {value : Plain F} :
    item key o = .ok value ↔ find key.toList o = some value := by
  unfold item
  rw [mapError_ok, Spec.getItem_ok]

theorem readBlock_ok {digit : Char → Bool} :
    readBlock digit o = .ok block ↔
      find "maj:min".toList o = some (.scalar (.string block.identity)) ∧
        isIdentity digit block.identity = true ∧
        find "path".toList o = some (.scalar (.string block.path)) ∧
        find "mountpoints".toList o = some (.array block.mounts) := by
  constructor
  · intro h
    obtain ⟨identity, hidentity, h⟩ := bind_ok h
    split at h
    · split at h
      · rename_i hdigits
        obtain ⟨path, hpath, h⟩ := bind_ok h
        obtain ⟨mounts, hmounts, h⟩ := bind_ok h
        split at h
        · cases h
          exact ⟨item_ok.mp hidentity, hdigits, item_ok.mp hpath, item_ok.mp hmounts⟩
        · cases h
      · cases h
    · cases h
  · rintro ⟨hidentity, hdigits, hpath, hmounts⟩
    unfold readBlock
    rw [item_ok.mpr hidentity]
    show (if isIdentity digit block.identity then _ else _) = _
    rw [if_pos hdigits, item_ok.mpr hpath, item_ok.mpr hmounts]
    rfl

structure Checks.Of (checks : Checks F) (host : Host F) (swaps : List Text) : Prop where
  paths : checks.swaps = swaps
  numbers : ∀ identity, identity ∈ checks.swapDevices ↔
    ∃ path ∈ swaps, ∃ info, host.stat path = some info ∧ info.isBlock = true ∧
      deviceId info = identity
  digit : checks.digit = host.digit
  nonzero : checks.nonzero = host.nonzero

theorem hasIdentity_iff (h : readBlock checks.digit o = .ok block) :
    HasIdentity identity (.object o) ↔ identity = block.identity := by
  have hfind := (readBlock_ok.mp h).1
  constructor
  · rintro ⟨o', heq, hfind'⟩
    cases heq
    rw [hfind] at hfind'
    cases hfind'
    rfl
  · rintro rfl
    exact ⟨o, rfl, hfind⟩

theorem isBusy_iff (hof : checks.Of host swaps) (h : readBlock checks.digit o = .ok block) :
    checks.isBusy block = true ↔
      IsMounted host.nonzero (.object o) ∨ IsSwap host.stat swaps (.object o) := by
  obtain ⟨-, -, hpath, hmounts⟩ := readBlock_ok.mp h
  have hmounted : block.mounts.any (isTrue checks.nonzero) = true ↔
      IsMounted host.nonzero (.object o) := by
    rw [List.any_eq_true, hof.nonzero]
    constructor
    · rintro ⟨mount, hmem, htrue⟩
      exact ⟨o, block.mounts, rfl, hmounts, mount, hmem, htrue⟩
    · rintro ⟨o', mounts, heq, hfind, mount, hmem, htrue⟩
      cases heq
      cases hmounts.symm.trans hfind
      exact ⟨mount, hmem, htrue⟩
  have hbyPath : block.path ∈ checks.swaps ↔ ∃ o', ∃ path ∈ swaps, Plain.object o = .object o' ∧
      find "path".toList o' = some (.scalar (.string path)) := by
    rw [hof.paths]
    constructor
    · intro hmem
      exact ⟨o, block.path, hmem, rfl, hpath⟩
    · rintro ⟨o', path, hmem, heq, hfind⟩
      cases heq
      cases hpath.symm.trans hfind
      exact hmem
  have hbyNumber : block.identity ∈ checks.swapDevices ↔ ∃ path ∈ swaps, ∃ info,
      host.stat path = some info ∧ info.isBlock = true ∧
        HasIdentity (deviceId info) (.object o) := by
    rw [hof.numbers]
    simp only [hasIdentity_iff h]
  unfold Checks.isBusy IsSwap
  rw [Bool.or_eq_true, Bool.or_eq_true, hmounted, decide_eq_true_iff, decide_eq_true_iff, hbyPath,
    hbyNumber, or_assoc]

theorem inTexts_kinds {kind : Plain F} {plain : Bool}
    (h : inTexts kind ["disk", "part", "loop"] = .ok plain) :
    ∃ a, kind = .scalar a ∧
      ((!plain) = true ↔ ∀ name ∈ ["disk", "part", "loop"], a ≠ .string name.toList) := by
  cases kind with
  | array => cases h
  | object => cases h
  | scalar a =>
    refine ⟨a, rfl, ?_⟩
    cases h
    rw [Bool.not_eq_true', List.any_eq_false]
    have hname : ∀ name : String, Spec.isText (.scalar a : Plain F) name = true ↔
        a = .string name.toList := by
      intro name
      cases a with
      | string t => simp [Spec.isText]
      | _ => simp [Spec.isText]
    simp only [hname, ne_eq]

theorem isInUse_iff (hof : checks.Of host swaps)
    (hread : readBlock checks.digit o = .ok block) (h : checks.isInUse o block = .ok inUse) :
    inUse = true ↔ InUse host swaps (.object o) := by
  have hbusy := isBusy_iff hof hread
  unfold Checks.isInUse at h
  unfold InUse
  split at h
  · rename_i hyes
    cases h
    have hin := hbusy.mp hyes
    tauto
  · rename_i hno
    rw [hbusy] at hno
    obtain ⟨kind, hkind, h⟩ := bind_ok h
    obtain ⟨plain, hplain, h⟩ := bind_ok h
    cases h
    obtain ⟨a, rfl, ha⟩ := inTexts_kinds (mapError_ok.mp hplain)
    rw [ha]
    have hholder : IsHolder (.object o) ↔
        ∀ name ∈ ["disk", "part", "loop"], a ≠ .string name.toList := by
      constructor
      · rintro ⟨o', kind, heq, hfind, hother⟩
        cases heq
        cases (item_ok.mp hkind).symm.trans hfind
        exact hother
      · exact fun hother => ⟨o, a, rfl, item_ok.mp hkind, hother⟩
    rw [← hholder]
    tauto

theorem isNode_iff (hof : checks.Of host swaps) :
    IsNode host swaps (.object o) ↔
      ∃ block inUse children, readBlock checks.digit o = .ok block ∧
        checks.isInUse o block = .ok inUse ∧ childrenOf o = .ok children := by
  constructor
  · rintro ⟨o', heq, h⟩
    cases heq
    obtain ⟨identity, hidentity, hdigits⟩ := h.identity
    obtain ⟨path, hpath⟩ := h.path
    obtain ⟨mounts, hmounts⟩ := h.mounts
    obtain ⟨children, hchildren⟩ := h.children
    have hread : readBlock checks.digit o = .ok ⟨identity, path, mounts⟩ :=
      readBlock_ok.mpr ⟨hidentity, hof.digit ▸ hdigits, hpath, hmounts⟩
    have hbusy := isBusy_iff hof hread
    by_cases hyes : checks.isBusy ⟨identity, path, mounts⟩ = true
    · refine ⟨_, true, children, hread, ?_, hchildren⟩
      exact if_pos hyes
    · -- Where the node is not busy, the type is there.
      have htype := h.type
      rw [hbusy] at hyes
      obtain ⟨kind, hkind⟩ : ∃ kind, find "type".toList o = some (.scalar kind) := by tauto
      refine ⟨_, !(["disk", "part", "loop"].any (Spec.isText (.scalar kind))), children, hread, ?_,
        hchildren⟩
      unfold Checks.isInUse
      rw [if_neg (hbusy.not.mpr hyes), item_ok.mpr hkind]
      rfl
  · rintro ⟨block, inUse, children, hread, hinUse, hchildren⟩
    obtain ⟨hidentity, hdigits, hpath, hmounts⟩ := readBlock_ok.mp hread
    refine ⟨o, rfl, ⟨block.identity, hidentity, hof.digit ▸ hdigits⟩, ⟨_, hpath⟩, ⟨_, hmounts⟩, ?_,
      ⟨children, hchildren⟩⟩
    unfold Checks.isInUse at hinUse
    split at hinUse
    · rename_i hyes
      have hin := (isBusy_iff hof hread).mp hyes
      tauto
    · obtain ⟨kind, hkind, hinUse⟩ := bind_ok hinUse
      obtain ⟨plain, hplain, -⟩ := bind_ok hinUse
      obtain ⟨a, rfl, -⟩ := inTexts_kinds (mapError_ok.mp hplain)
      exact .inr (.inr ⟨a, item_ok.mp hkind⟩)

/-! ## The walk over a forest -/

structure Walked (host : Host F) (swaps : List Text) (nodes : List (Plain F)) (parents : List Text)
    (seen seen' : Seen) : Prop where
  isNode : ∀ node, Among nodes node → IsNode host swaps node
  known : ∀ identity, identity ∈ seen'.known ↔ identity ∈ seen.known ∨
    ∃ node, Among nodes node ∧ HasIdentity identity node
  unsafeIds : ∀ identity, identity ∈ seen'.unsafeIds ↔ identity ∈ seen.unsafeIds ∨
    (identity ∈ parents ∧ ∃ node, Among nodes node ∧ InUse host swaps node) ∨
    ∃ node, Among nodes node ∧ HasIdentity identity node ∧
      ∃ inner, Beneath node inner ∧ InUse host swaps inner

variable {parents : List Text} {seen seen' seen'' : Seen}

theorem not_among_nil : ¬ Among [] node := by
  rintro ⟨root, hroot, -⟩
  cases hroot

theorem walked_nil : Walked host swaps [] parents seen seen where
  isNode node h := (not_among_nil h).elim
  known identity := by simp [not_among_nil]
  unsafeIds identity := by simp [not_among_nil]

theorem among_singleton : Among [node] inner ↔ Beneath node inner := by
  simp [Among]

theorem marks_append {p x' y' : Prop} :
    (a ∨ p ∧ x ∨ y) ∨ p ∧ x' ∨ y' ↔ a ∨ p ∧ (x ∨ x') ∨ y ∨ y' := by
  tauto

theorem marks_object {p e u : Prop} :
    (a ∨ (p ∨ e) ∧ u) ∨ (p ∨ e) ∧ x ∨ y ↔ a ∨ p ∧ (u ∨ x) ∨ e ∧ (u ∨ x) ∨ y := by
  tauto

theorem Walked.cons (h : Walked host swaps [node] parents seen seen')
    (h' : Walked host swaps nodes parents seen' seen'') :
    Walked host swaps (node :: nodes) parents seen seen'' where
  isNode inner := by
    rintro ⟨root, hroot, hbeneath⟩
    rcases List.mem_cons.mp hroot with rfl | hroot
    · exact h.isNode inner (among_singleton.mpr hbeneath)
    · exact h'.isNode inner ⟨root, hroot, hbeneath⟩
  known identity := by
    have hfirst := h.known identity
    simp only [among_singleton] at hfirst
    rw [h'.known, hfirst, exists_among_cons, or_assoc]
  unsafeIds identity := by
    have hfirst := h.unsafeIds identity
    simp only [among_singleton] at hfirst
    rw [h'.unsafeIds, hfirst, exists_among_cons, exists_among_cons]
    exact marks_append

/-- A node marks its own chain, and its subtree marks it with every node that is in use. -/
theorem Walked.object (hof : checks.Of host swaps)
    (hread : readBlock checks.digit o = .ok block) (hinUse : checks.isInUse o block = .ok inUse)
    (hchildren : childrenOf o = .ok children)
    (h : Walked host swaps children (parents ++ [block.identity])
      (seen.mark block.identity inUse (parents ++ [block.identity])) seen') :
    Walked host swaps [.object o] parents seen seen' where
  isNode node hamong := by
    rcases (beneath_object hchildren).mp (among_singleton.mp hamong) with rfl | hinner
    · exact (isNode_iff hof).mpr ⟨block, inUse, children, hread, hinUse, hchildren⟩
    · exact h.isNode node hinner
  known identity := by
    rw [h.known]
    simp only [among_singleton]
    rw [exists_beneath_object hchildren, hasIdentity_iff hread]
    show identity ∈ insert block.identity seen.known ∨ _ ↔ _
    rw [Finset.mem_insert]
    tauto
  unsafeIds identity := by
    have hmark : identity ∈ (seen.mark block.identity inUse (parents ++ [block.identity])).unsafeIds ↔
        identity ∈ seen.unsafeIds ∨
          (identity ∈ parents ++ [block.identity] ∧ InUse host swaps (.object o)) := by
      rw [← isInUse_iff hof hread hinUse]
      unfold Seen.mark
      cases inUse with
      | true =>
        show identity ∈ seen.unsafeIds ∪ _ ↔ _
        rw [Finset.mem_union, List.mem_toFinset, and_iff_left rfl]
      | false => simp
    rw [h.unsafeIds, hmark]
    simp only [among_singleton]
    rw [exists_beneath_object hchildren, exists_beneath_object hchildren, hasIdentity_iff hread,
      exists_beneath_object hchildren, List.mem_append, List.mem_singleton]
    exact marks_object

theorem visit_object :
    visit checks (.object o) parents seen = .ok seen' ↔
      ∃ block inUse children, readBlock checks.digit o = .ok block ∧
        checks.isInUse o block = .ok inUse ∧ childrenOf o = .ok children ∧
        visitAll checks children (parents ++ [block.identity])
          (seen.mark block.identity inUse (parents ++ [block.identity])) = .ok seen' := by
  rw [visit]
  constructor
  · intro h
    obtain ⟨block, hread, h⟩ := bind_ok h
    obtain ⟨inUse, hinUse, h⟩ := bind_ok h
    split at h
    · rename_i children hchildren
      exact ⟨block, inUse, children, hread, hinUse, hchildren, h⟩
    · cases h
  · rintro ⟨block, inUse, children, hread, hinUse, hchildren, h⟩
    rw [hread]
    show (checks.isInUse o block >>= _) = _
    rw [hinUse]
    show (match _hchildren : childrenOf o with | .ok children => _ | .error err => _) = _
    split
    · rename_i children' hchildren'
      cases hchildren.symm.trans hchildren'
      exact h
    · rename_i hchildren'
      cases hchildren.symm.trans hchildren'

theorem visitAll_cons :
    visitAll checks (node :: nodes) parents seen = .ok seen'' ↔
      ∃ seen', visit checks node parents seen = .ok seen' ∧
        visitAll checks nodes parents seen' = .ok seen'' := by
  rw [visitAll]
  exact bind_ok_iff

mutual

theorem walked_visit (hof : checks.Of host swaps) : ∀ (node : Plain F) {parents : List Text}
    {seen seen' : Seen}, visit checks node parents seen = .ok seen' →
    Walked host swaps [node] parents seen seen'
  | .scalar _, _, _, _, h => by rw [visit] at h; cases h; exact nofun
  | .array _, _, _, _, h => by rw [visit] at h; cases h; exact nofun
  | .object o, _, _, _, h => by
    obtain ⟨block, inUse, children, hread, hinUse, hchildren, h⟩ := visit_object.mp h
    have hle := sizeOf_childrenOf hchildren
    exact .object hof hread hinUse hchildren (walked_visitAll hof children h)
termination_by node => sizeOf node

theorem walked_visitAll (hof : checks.Of host swaps) : ∀ (nodes : List (Plain F))
    {parents : List Text} {seen seen' : Seen}, visitAll checks nodes parents seen = .ok seen' →
    Walked host swaps nodes parents seen seen'
  | [], _, _, _, h => by
    rw [visitAll] at h
    cases h
    exact walked_nil
  | node :: nodes, _, _, _, h => by
    obtain ⟨_, hfirst, hrest⟩ := visitAll_cons.mp h
    exact (walked_visit hof node hfirst).cons (walked_visitAll hof nodes hrest)
termination_by nodes => sizeOf nodes

end

mutual

theorem exists_visit (hof : checks.Of host swaps) : ∀ (node : Plain F) (parents : List Text)
    (seen : Seen), (∀ inner, Beneath node inner → IsNode host swaps inner) →
    ∃ seen', visit checks node parents seen = .ok seen'
  | .scalar _, _, _, h => by
    obtain ⟨_, heq, -⟩ := h _ .refl
    cases heq
  | .array _, _, _, h => by
    obtain ⟨_, heq, -⟩ := h _ .refl
    cases heq
  | .object o, parents, seen, h => by
    obtain ⟨block, inUse, children, hread, hinUse, hchildren⟩ := (isNode_iff hof).mp (h _ .refl)
    have hle := sizeOf_childrenOf hchildren
    obtain ⟨seen', hvisit⟩ := exists_visitAll hof children (parents ++ [block.identity])
      (seen.mark block.identity inUse (parents ++ [block.identity])) fun inner hinner =>
        h inner ((beneath_object hchildren).mpr (.inr hinner))
    exact ⟨seen', visit_object.mpr ⟨block, inUse, children, hread, hinUse, hchildren, hvisit⟩⟩
termination_by node => sizeOf node

theorem exists_visitAll (hof : checks.Of host swaps) : ∀ (nodes : List (Plain F))
    (parents : List Text) (seen : Seen), (∀ inner, Among nodes inner → IsNode host swaps inner) →
    ∃ seen', visitAll checks nodes parents seen = .ok seen'
  | [], _, seen, _ => by
    rw [visitAll]
    exact ⟨seen, rfl⟩
  | node :: nodes, parents, seen, h => by
    obtain ⟨seen', hfirst⟩ := exists_visit hof node parents seen fun inner hinner =>
      h inner ⟨node, List.mem_cons_self, hinner⟩
    obtain ⟨seen'', hrest⟩ := exists_visitAll hof nodes parents seen' fun inner ⟨root, hroot, hb⟩ =>
      h inner ⟨root, List.mem_cons_of_mem _ hroot, hb⟩
    exact ⟨seen'', visitAll_cons.mpr ⟨seen', hfirst, hrest⟩⟩
termination_by nodes => sizeOf nodes

end

/-! ## Exceptions that the function turns into refusals -/

/-- Nothing but what the `except` names is raised. -/
abbrev Caught {α : Type} (x : Except Raised α) : Prop := FailsWith (fun err ↦ err.isCaught = true) x

theorem caught_item (key : String) (o : Object F) : Caught (item key o) := by
  unfold item getItem
  cases find key.toList o with
  | none => exact failsWith_error rfl
  | some value => exact failsWith_ok value

theorem caught_statOf (host : Host F) (path : Text) : Caught (statOf host path) := by
  unfold statOf
  cases host.stat path with
  | none => exact failsWith_error rfl
  | some info => exact failsWith_ok info

theorem firstWord_ok {line : Text} (h : line.all isSpace ≠ true) : Caught (firstWord line) := by
  unfold firstWord
  split
  · rename_i hnone
    exact (h (Lines.words_eq_nil_iff.mp hnone)).elim
  · exact failsWith_ok _

theorem caught_swapPaths (swapTable : Text) : Caught (swapPaths swapTable) := by
  unfold swapPaths
  split
  · exact failsWith_error rfl
  · split
    · apply failsWith_mapM
      intro line hline
      apply firstWord_ok
      simpa using (List.mem_filter.mp hline).2
    · exact failsWith_error rfl

theorem caught_swapDevices (host : Host F) (swaps : List Text) : Caught (swapDevices host swaps) := by
  apply FailsWith.bind
  · exact failsWith_mapM fun path _ => caught_statOf host path
  · intro infos _
    exact failsWith_ok _

theorem caught_readBlock (digit : Char → Bool) (o : Object F) : Caught (readBlock digit o) := by
  apply (caught_item "maj:min" o).bind
  intro identity _
  split
  · split
    · apply (caught_item "path" o).bind
      intro path _
      apply (caught_item "mountpoints" o).bind
      intro mounts _
      split
      · exact failsWith_ok _
      · exact failsWith_error rfl
    · exact failsWith_error rfl
  · exact failsWith_error rfl

theorem caught_isInUse (checks : Checks F) (o : Object F) (block : Block F) :
    Caught (checks.isInUse o block) := by
  unfold Checks.isInUse
  split
  · exact failsWith_ok _
  · apply (caught_item "type" o).bind
    intro kind _
    apply FailsWith.bind
    · -- Only an array or an object cannot be looked up in a set.
      cases kind with
      | scalar a => exact failsWith_ok _
      | array => exact failsWith_error rfl
      | object => exact failsWith_error rfl
    · intro plain _
      exact failsWith_ok _

theorem caught_childrenOf (o : Object F) : Caught (childrenOf o) := by
  unfold childrenOf
  split
  · exact failsWith_ok _
  · exact failsWith_ok _
  · exact failsWith_ok _
  · exact failsWith_ok _
  · exact failsWith_error rfl
  · exact failsWith_error rfl
  · exact failsWith_error rfl

mutual

theorem caught_visit (checks : Checks F) : ∀ (node : Plain F) (parents : List Text) (seen : Seen),
    Caught (visit checks node parents seen)
  | .scalar _, _, _ => by
    rw [visit]
    · exact failsWith_error rfl
    · exact nofun
  | .array _, _, _ => by
    rw [visit]
    · exact failsWith_error rfl
    · exact nofun
  | .object o, parents, seen => by
    rw [visit]
    apply (caught_readBlock checks.digit o).bind
    intro block _
    apply (caught_isInUse checks o block).bind
    intro inUse _
    split
    · rename_i children hchildren
      have hle := sizeOf_childrenOf hchildren
      exact caught_visitAll checks children _ _
    · rename_i err hchildren
      exact failsWith_error (caught_childrenOf o err hchildren)
termination_by node => sizeOf node

theorem caught_visitAll (checks : Checks F) : ∀ (nodes : List (Plain F)) (parents : List Text)
    (seen : Seen), Caught (visitAll checks nodes parents seen)
  | [], _, _ => by
    rw [visitAll]
    exact failsWith_ok _
  | node :: nodes, parents, seen => by
    rw [visitAll]
    apply (caught_visit checks node parents seen).bind
    intro seen' _
    exact caught_visitAll checks nodes parents seen'
termination_by nodes => sizeOf nodes

end

theorem caught_blockDevices (host : Host F) : Caught (blockDevices host) := by
  unfold blockDevices
  split
  · exact failsWith_error rfl
  · rename_i o _
    apply (caught_item "blockdevices" o).bind
    intro roots _
    split
    · exact failsWith_ok _
    · exact failsWith_error rfl
  · exact failsWith_error rfl

theorem caught_inspect (host : Host F) : Caught (inspect host) := by
  apply (caught_blockDevices host).bind
  intro roots _
  apply (caught_swapPaths host.swapTable).bind
  intro swaps _
  apply (caught_swapDevices host swaps).bind
  intro numbers _
  exact caught_visitAll _ _ _ _

/-- Whatever goes wrong, the function raises a `SetupError`. -/
theorem validateUnusedDevices_refuses (host : Host F) (devices : List Text) :
    FailsWith (fun err ↦ ∃ refusal, err = .setup refusal) (validateUnusedDevices host devices) := by
  have hcaught : ∀ cause : Raised, cause.isCaught = true →
      ∃ refusal, (Escape.other cause).guarded = .setup refusal := by
    intro cause hcause
    exact ⟨.uninspectable cause, if_pos hcause⟩
  have hdevice : ∀ seen device, FailsWith (fun err : Escape ↦ ∃ refusal, err.guarded = .setup refusal)
      (checkDevice host seen device) := by
    intro seen device
    apply FailsWith.bind
    · exact (caught_statOf host device).mapError hcaught
    · intro info _
      split
      · exact failsWith_error (hcaught _ rfl)
      split
      · exact failsWith_error ⟨_, rfl⟩
      · exact failsWith_ok _
  have hbody : FailsWith (fun err : Escape ↦ ∃ refusal, err.guarded = .setup refusal)
      ((inspect host).mapError .other >>= fun seen ↦ devices.forM (checkDevice host seen)) := by
    apply FailsWith.bind
    · exact (caught_inspect host).mapError hcaught
    · intro seen _
      exact failsWith_forM fun device _ => hdevice seen device
  exact hbody.mapError fun _ h => h

/-! ## When it returns -/

theorem statOf_ok {path : Text} {info : Stat} :
    statOf host path = .ok info ↔ host.stat path = some info := by
  unfold statOf
  cases host.stat path with
  | none => exact ⟨nofun, nofun⟩
  | some found => rw [Except.ok.injEq, Option.some.injEq]

theorem swapDevices_ok {numbers : List Text} (h : swapDevices host swaps = .ok numbers) :
    (∀ path ∈ swaps, ∃ info, host.stat path = some info) ∧
      ∀ identity, identity ∈ numbers ↔ ∃ path ∈ swaps, ∃ info, host.stat path = some info ∧
        info.isBlock = true ∧ deviceId info = identity := by
  obtain ⟨infos, hinfos, h⟩ := bind_ok h
  cases h
  have hpairs := mapM_ok hinfos
  constructor
  · intro path hpath
    obtain ⟨info, -, hinfo⟩ := exists_right hpairs hpath
    exact ⟨info, statOf_ok.mp hinfo⟩
  · intro identity
    rw [List.mem_map]
    constructor
    · rintro ⟨info, hmem, hid⟩
      obtain ⟨hmem, hblock⟩ := List.mem_filter.mp hmem
      obtain ⟨path, hpath, hinfo⟩ := exists_left hpairs hmem
      exact ⟨path, hpath, info, statOf_ok.mp hinfo, hblock, hid⟩
    · rintro ⟨path, hpath, info, hinfo, hblock, hid⟩
      obtain ⟨found, hmem, hfound⟩ := exists_right hpairs hpath
      cases (statOf_ok.mp hfound).symm.trans hinfo
      exact ⟨info, List.mem_filter.mpr ⟨hmem, hblock⟩, hid⟩

theorem exists_swapDevices (h : ∀ path ∈ swaps, ∃ info, host.stat path = some info) :
    ∃ numbers, swapDevices host swaps = .ok numbers := by
  obtain ⟨infos, hinfos⟩ := mapM_succeeds fun path hpath => by
    obtain ⟨info, hinfo⟩ := h path hpath
    exact ⟨info, statOf_ok.mpr hinfo⟩
  refine ⟨(infos.filter Stat.isBlock).map deviceId, ?_⟩
  unfold swapDevices
  rw [hinfos]
  rfl

theorem mapM_firstWord (rest : List Text) :
    (rest.filter fun line ↦ !line.all isSpace).mapM firstWord =
      .ok (rest.filterMap fun line ↦ (Lines.words isSpace line).head?) := by
  induction rest with
  | nil => rfl
  | cons line rest ih =>
    cases hwords : Lines.words isSpace line with
    | nil =>
      have hblank := Lines.words_eq_nil_iff.mp hwords
      rw [List.filter_cons_of_neg (by simp [hblank]), List.filterMap_cons_none (by rw [hwords]; rfl),
        ih]
    | cons word words =>
      have hword : ¬ line.all isSpace = true := by
        rw [← Lines.words_eq_nil_iff, hwords]
        exact nofun
      have hfirst : firstWord line = .ok word := by
        unfold firstWord
        rw [hwords]
      rw [List.filter_cons_of_pos (by simpa using hword), List.mapM_cons, hfirst, ih,
        List.filterMap_cons_some (by rw [hwords]; rfl)]
      rfl

theorem swapPaths_ok {table : Text} : swapPaths table = .ok swaps ↔ IsSwapTable table swaps := by
  unfold swapPaths IsSwapTable
  cases (Lines.lines table).map Lines.Line.content with
  | nil =>
    constructor
    · exact nofun
    · rintro ⟨_, _, heq, -⟩
      cases heq
  | cons header rest =>
    show (if "Filename".toList.isPrefixOf header then _ else _) = _ ↔ _
    rw [mapM_firstWord]
    constructor
    · intro h
      split at h
      · rename_i hprefix
        cases h
        exact ⟨header, rest, rfl, List.isPrefixOf_iff_prefix.mp hprefix, rfl⟩
      · cases h
    · rintro ⟨_, _, heq, hprefix, rfl⟩
      cases heq
      rw [if_pos (List.isPrefixOf_iff_prefix.mpr hprefix)]

theorem blockDevices_ok :
    blockDevices host = .ok roots ↔ (∃ o, host.inventory = some (.object o) ∧
      find "blockdevices".toList o = some (.array roots)) ∧ roots ≠ [] := by
  constructor
  · intro h
    unfold blockDevices at h
    split at h
    · cases h
    · rename_i o hinventory
      obtain ⟨value, hvalue, h⟩ := bind_ok h
      split at h
      · cases h
        exact ⟨⟨o, hinventory, item_ok.mp hvalue⟩, nofun⟩
      · cases h
    · cases h
  · rintro ⟨⟨o, hinventory, hfind⟩, hne⟩
    unfold blockDevices
    rw [hinventory]
    show item "blockdevices" o >>= _ = _
    rw [item_ok.mpr hfind]
    cases roots with
    | nil => exact (hne rfl).elim
    | cons root roots => rfl

def nothingSeen : Seen := ⟨∅, ∅⟩

theorem inspect_ok (h : inspect host = .ok seen) :
    ∃ roots swaps, Inspectable host roots swaps ∧
      Walked host swaps roots [] nothingSeen seen := by
  obtain ⟨roots, hroots, h⟩ := bind_ok h
  obtain ⟨swaps, hswaps, h⟩ := bind_ok h
  obtain ⟨numbers, hnumbers, h⟩ := bind_ok h
  obtain ⟨hlisted, hne⟩ := blockDevices_ok.mp hroots
  obtain ⟨hexist, hmem⟩ := swapDevices_ok hnumbers
  have hof : Checks.Of ⟨swaps, numbers, host.digit, host.nonzero⟩ host swaps := ⟨rfl, hmem, rfl, rfl⟩
  have hwalked := walked_visitAll hof roots h
  refine ⟨roots, swaps, ⟨hlisted, hne, swapPaths_ok.mp hswaps, hexist, ?_⟩, hwalked⟩
  intro root hroot node hnode
  exact hwalked.isNode node ⟨root, hroot, hnode⟩

theorem exists_inspect (h : Inspectable host roots swaps) :
    ∃ seen, inspect host = .ok seen ∧ Walked host swaps roots [] nothingSeen seen := by
  obtain ⟨numbers, hnumbers⟩ := exists_swapDevices h.table_exists
  obtain ⟨-, hmem⟩ := swapDevices_ok hnumbers
  have hof : Checks.Of ⟨swaps, numbers, host.digit, host.nonzero⟩ host swaps := ⟨rfl, hmem, rfl, rfl⟩
  obtain ⟨seen, hseen⟩ := exists_visitAll hof roots [] nothingSeen fun node ⟨root, hroot, hnode⟩ =>
    h.nodes root hroot node hnode
  refine ⟨seen, ?_, walked_visitAll hof roots hseen⟩
  unfold inspect
  rw [blockDevices_ok.mpr ⟨h.listed, h.nonempty⟩, swapPaths_ok.mpr h.table]
  show swapDevices host swaps >>= _ = _
  rw [hnumbers]
  exact hseen

theorem checkDevice_ok {device : Text} (h : Walked host swaps roots [] nothingSeen seen) :
    checkDevice host seen device = .ok () ↔ Unused host roots swaps device := by
  have hknown : ∀ identity, identity ∈ seen.known ↔
      ∃ root ∈ roots, ∃ node, Beneath root node ∧ HasIdentity identity node := by
    intro identity
    rw [h.known]
    constructor
    · rintro (hmem | ⟨node, ⟨root, hroot, hnode⟩, hid⟩)
      · cases hmem
      · exact ⟨root, hroot, node, hnode, hid⟩
    · rintro ⟨root, hroot, node, hnode, hid⟩
      exact .inr ⟨node, ⟨root, hroot, hnode⟩, hid⟩
  have hmarked : ∀ identity, identity ∉ seen.unsafeIds ↔ ∀ root ∈ roots, ∀ node,
      Beneath root node → HasIdentity identity node →
        ∀ inner, Beneath node inner → ¬ InUse host swaps inner := by
    intro identity
    rw [h.unsafeIds]
    constructor
    · intro hnot root hroot node hnode hid inner hinner huse
      exact hnot (.inr (.inr ⟨node, ⟨root, hroot, hnode⟩, hid, inner, hinner, huse⟩))
    · rintro hall (hmem | ⟨hmem, -⟩ | ⟨node, ⟨root, hroot, hnode⟩, hid, inner, hinner, huse⟩)
      · cases hmem
      · cases hmem
      · exact hall root hroot node hnode hid inner hinner huse
  constructor
  · intro hok
    obtain ⟨info, hinfo, hok⟩ := bind_ok hok
    split at hok
    · cases hok
    rename_i hin
    split at hok
    · cases hok
    rename_i hsafe
    exact ⟨info, statOf_ok.mp (mapError_ok.mp hinfo), (hknown _).mp (not_not.mp hin),
      (hmarked _).mp hsafe⟩
  · rintro ⟨info, hinfo, hin, hsafe⟩
    unfold checkDevice
    rw [statOf_ok.mpr hinfo]
    show (if deviceId info ∉ seen.known then _ else _) = _
    rw [if_neg (not_not.mpr ((hknown _).mpr hin)), if_neg ((hmarked _).mpr hsafe)]

theorem inspectable_of_ok (h : validateUnusedDevices host devices = .ok ()) :
    ∃ roots swaps, Inspectable host roots swaps ∧
      ∀ device ∈ devices, Unused host roots swaps device := by
  obtain ⟨seen, hseen, h⟩ := bind_ok (mapError_ok.mp h)
  obtain ⟨roots, swaps, hinspect, hwalked⟩ := inspect_ok (mapError_ok.mp hseen)
  refine ⟨roots, swaps, hinspect, fun device hdevice => ?_⟩
  exact (checkDevice_ok hwalked).mp (forM_ok h device hdevice)

theorem ok_of_inspectable (hinspect : Inspectable host roots swaps)
    (hunused : ∀ device ∈ devices, Unused host roots swaps device) :
    validateUnusedDevices host devices = .ok () := by
  obtain ⟨seen, hseen, hwalked⟩ := exists_inspect hinspect
  apply mapError_ok.mpr
  show (inspect host).mapError Escape.other >>= _ = _
  rw [mapError_ok.mpr hseen]
  exact forM_total fun device hdevice => (checkDevice_ok hwalked).mpr (hunused device hdevice)

/-- The function returns exactly if the whole inventory can be read and every device is unused, and
raises a `SetupError` in every other case. -/
theorem validateUnusedDevices_iff (host : Host F) (devices : List Text) :
    (validateUnusedDevices host devices = .ok () ↔ ∃ roots swaps, Inspectable host roots swaps ∧
      ∀ device ∈ devices, Unused host roots swaps device) ∧
    (validateUnusedDevices host devices ≠ .ok () →
      ∃ refusal, validateUnusedDevices host devices = .error (.setup refusal)) := by
  constructor
  · constructor
    · exact inspectable_of_ok
    · rintro ⟨roots, swaps, hinspect, hunused⟩
      exact ok_of_inspectable hinspect hunused
  · intro hne
    cases hresult : validateUnusedDevices host devices with
    | ok u => exact (hne hresult).elim
    | error err =>
      obtain ⟨refusal, rfl⟩ := validateUnusedDevices_refuses host devices err hresult
      exact ⟨refusal, rfl⟩

/-! ## A swap file that was deleted -/

/-- Existing block devices are refused exactly if they are in use, whatever the swap table. -/
def RefusedExactlyInUse (host : Host F) : Prop :=
  ∀ (roots : List (Plain F)) (swaps devices : List Text),
    (∃ o, host.inventory = some (.object o) ∧
      find "blockdevices".toList o = some (.array roots)) → roots ≠ [] →
    (∀ root ∈ roots, ∀ node, Beneath root node → IsNode host swaps node) →
    IsSwapTable host.swapTable swaps →
    (∀ device ∈ devices, ∃ info, host.stat device = some info ∧ info.isBlock = true) →
    (validateUnusedDevices host devices = .ok () ↔
      ∀ device ∈ devices, Unused host roots swaps device)

def spareFields : Object Unit :=
  [("path".toList, Spec.text "/dev/sdb"), ("maj:min".toList, Spec.text "8:16"),
    ("type".toList, Spec.text "disk"), ("mountpoints".toList, .array [.scalar .null])]

/-- An unmounted disk, and a swap file that is still in use without a name. -/
def deletedSwapHost : Host Unit where
  inventory := some (.object [("blockdevices".toList, .array [.object spareFields])])
  swapTable := "Filename Type Size Used Priority\n/swap\\040(deleted) file 8 0 -2\n".toList
  stat path := if path = "/dev/sdb".toList then some ⟨true, 8, 16⟩ else none
  digit := Char.isDigit
  nonzero _ := false

def deletedSwap : Text := "/swap\\040(deleted)".toList

theorem isSwapTable_deleted : IsSwapTable deletedSwapHost.swapTable [deletedSwap] := by
  refine ⟨"Filename Type Size Used Priority".toList, ["/swap\\040(deleted) file 8 0 -2".toList], ?_, ?_, ?_⟩
  · decide
  · decide
  · decide

theorem childrenOf_spare : childrenOf spareFields = .ok [] := by
  have hnone : find "children".toList spareFields = none := by simp [spareFields, find, List.lookup_cons]
  unfold childrenOf
  rw [hnone]

theorem beneath_spare {node : Plain Unit} :
    Beneath (.object spareFields) node ↔ node = .object spareFields := by
  rw [beneath_object childrenOf_spare]
  simp [not_among_nil]

theorem wellFormed_spare : WellFormed deletedSwapHost [deletedSwap] spareFields where
  identity := ⟨"8:16".toList, by simp [spareFields, find, List.lookup_cons, Spec.text], by decide⟩
  path := ⟨"/dev/sdb".toList, by simp [spareFields, find, Spec.text]⟩
  mounts := ⟨[.scalar .null], by simp [spareFields, find, List.lookup_cons, Spec.text]⟩
  type := .inr (.inr ⟨.string "disk".toList, by simp [spareFields, find, List.lookup_cons, Spec.text]⟩)
  children := ⟨[], childrenOf_spare⟩

theorem not_inUse_spare : ¬ InUse deletedSwapHost [deletedSwap] (.object spareFields) := by
  rintro (⟨o, mounts, heq, hfind, mount, hmem, htrue⟩ | hswap | ⟨o, kind, heq, hfind, hother⟩)
  · cases heq
    have hmounts : find "mountpoints".toList spareFields = some (.array [.scalar .null]) := by
      simp [spareFields, find, List.lookup_cons, Spec.text]
    cases hmounts.symm.trans hfind
    cases List.mem_singleton.mp hmem
    cases htrue
  · rcases hswap with ⟨o, path, hpath, heq, hfind⟩ | ⟨path, hpath, info, hstat, -⟩
    · cases heq
      have hfound : find "path".toList spareFields = some (.scalar (.string "/dev/sdb".toList)) := by
        simp [spareFields, find, Spec.text]
      cases hfound.symm.trans hfind
      exact absurd hpath (by decide)
    · cases List.mem_singleton.mp hpath
      have hgone : deletedSwapHost.stat deletedSwap = none := by decide
      cases hgone.symm.trans hstat
  · cases heq
    have hkind : find "type".toList spareFields = some (.scalar (.string "disk".toList)) := by
      simp [spareFields, find, List.lookup_cons, Spec.text]
    cases hkind.symm.trans hfind
    exact hother "disk" (by decide) rfl

theorem unused_spare :
    Unused deletedSwapHost [.object spareFields] [deletedSwap] "/dev/sdb".toList := by
  have hidentity : HasIdentity (deviceId ⟨true, 8, 16⟩) (.object spareFields) := by
    refine ⟨spareFields, rfl, ?_⟩
    rw [show deviceId ⟨true, 8, 16⟩ = "8:16".toList by decide]
    simp [spareFields, find, List.lookup_cons, Spec.text]
  refine ⟨⟨true, 8, 16⟩, rfl, ?_, ?_⟩
  · exact ⟨_, List.mem_singleton_self _, _, .refl, hidentity⟩
  · intro root hroot node hnode _ inner hinner
    cases List.mem_singleton.mp hroot
    cases beneath_spare.mp hnode
    cases beneath_spare.mp hinner
    exact not_inUse_spare

/-- The table names a path that is gone, and the disk is refused although nothing uses it. -/
theorem not_refusedExactlyInUse : ¬ RefusedExactlyInUse deletedSwapHost := by
  intro h
  have hlisted : find "blockdevices".toList ([("blockdevices".toList,
      .array [.object spareFields])] : Object Unit) = some (.array [.object spareFields]) := by
    simp [find]
  have hok := (h [.object spareFields] [deletedSwap] ["/dev/sdb".toList] ⟨_, rfl, hlisted⟩
    (List.cons_ne_nil _ _)
    (fun root hroot node hnode => by
      cases List.mem_singleton.mp hroot
      cases beneath_spare.mp hnode
      exact ⟨spareFields, rfl, wellFormed_spare⟩)
    isSwapTable_deleted
    (fun device hdevice => ⟨⟨true, 8, 16⟩, if_pos (List.mem_singleton.mp hdevice), rfl⟩)).mpr
    fun device hdevice => List.mem_singleton.mp hdevice ▸ unused_spare
  obtain ⟨roots, swaps, hinspect, -⟩ := inspectable_of_ok hok
  obtain ⟨header, rest, heq, -, hswaps⟩ := hinspect.table
  obtain ⟨header', rest', heq', -, hswaps'⟩ := isSwapTable_deleted
  cases heq.symm.trans heq'
  have hmem : deletedSwap ∈ swaps := by
    rw [hswaps, ← hswaps']
    exact List.mem_singleton_self _
  obtain ⟨info, hstat⟩ := hinspect.table_exists deletedSwap hmem
  have hgone : deletedSwapHost.stat deletedSwap = none := by decide
  cases hgone.symm.trans hstat

end NixNas.Setup
