import Mathlib.Data.List.Basic
import NixNas.Names

/-!
# Names of runtime links (`services/nas_v2_systemd_reconcile.py`)

The patterns that decide which links the reconciler owns and which unit a link acts on.
-/

namespace NixNas.Reconcile

/-- The two runtime directories. -/
inductive Kind where
  | systemd | quadlet
  deriving DecidableEq, Repr

/-- `[A-Za-z0-9_.@:-]`. -/
def nameChar (c : Char) : Bool := c.isAlphanum || ['_', '.', '@', ':', '-'].contains c

/-- `[A-Za-z0-9_.@:-]+` followed by one of the suffixes. -/
def isName (suffixes : List Text) (name : Text) : Bool :=
  suffixes.any fun suffix ↦
    match name.dropSuffix? suffix with
    | some stem => !stem.isEmpty && stem.all nameChar
    | none => false

def between (first last name : Text) : Option Text :=
  (name.dropPrefix? first).bind fun rest ↦ rest.dropSuffix? last

/-- `_UNIT`. -/
def isUnit (name : Text) : Bool :=
  isName [".service".toList, ".timer".toList, ".target".toList, ".path".toList,
    ".socket".toList] name

/-- `_DROPIN` and its group. -/
def dropinOwner (relative : Text) : Option Text :=
  (relative.dropSuffix? ".d/50-nas-v2.conf".toList).filter
    (isName [".service".toList, ".timer".toList, ".target".toList])

/-- `_QUADLET`. -/
def isQuadlet (name : Text) : Bool :=
  match name.dropPrefix? "nas-v2-".toList with
  | some rest =>
    isName [".container".toList, ".pod".toList, ".network".toList, ".volume".toList,
      ".kube".toList, ".image".toList, ".build".toList] rest
  | none => false

/-- `_SESSION_TARGET`. -/
def isSessionTarget (unit : Text) : Bool :=
  match between "nas-v2-session-".toList ".target".toList unit with
  | some (c :: rest) => c.isLower && rest.all fun d ↦ d.isLower || d.isDigit || d = '-'
  | _ => false

def quadletTails : List (Text × Text) :=
  [(".container".toList, []), (".network".toList, "-network".toList), (".pod".toList, "-pod".toList),
    (".volume".toList, "-volume".toList), (".image".toList, "-image".toList),
    (".build".toList, "-build".toList), (".kube".toList, [])]

/-- The unit a systemd link acts on, `_safe_target`. -/
def safeTarget (relative : Text) : Option Text :=
  match dropinOwner relative with
  | some unit => some unit
  | none => if isUnit relative then some relative else none

/-- The unit a Quadlet link acts on, `_safe_quadlet_target`. -/
def safeQuadletTarget (relative : Text) : Option Text :=
  let direct (first last : String) : Option Text :=
    (between first.toList last.toList relative).filter isIdentifier
  match direct "nas-v2-" ".container" with
  | some service => some ("nas-v2-".toList ++ service ++ ".service".toList)
  | none =>
  match direct "nas-v2-net-" ".network" with
  | some service => some ("nas-v2-".toList ++ service ++ ".service".toList)
  | none =>
  match direct "nas-v2-snet-" ".network" with
  | some service => some ("nas-v2-session-".toList ++ service ++ ".target".toList)
  | none =>
  if !isQuadlet relative then none
  else quadletTails.findSome? fun tail ↦
    (relative.dropSuffix? tail.1).map fun name ↦ name ++ tail.2 ++ ".service".toList

def affectedUnit : Kind → Text → Option Text
  | .systemd => safeTarget
  | .quadlet => safeQuadletTarget

/-- The link names that `_discover_systemd_links` and `_discover_quadlet_links` look for. -/
def discoverable : Kind → Text → Bool
  | .systemd, relative =>
    ("nas-v2-".toList.isPrefixOf relative && isUnit relative) || (dropinOwner relative).isSome
  | .quadlet, relative => "nas-v2-".toList.isPrefixOf relative && isQuadlet relative

example : safeQuadletTarget "nas-v2-net-media.network".toList =
    some "nas-v2-media.service".toList := by decide

example : safeQuadletTarget "nas-v2-media-cache.volume".toList =
    some "nas-v2-media-cache-volume.service".toList := by decide

end NixNas.Reconcile
