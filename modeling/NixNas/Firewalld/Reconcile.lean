import NixNas.Firewalld.Compile

/-!
# Reading the firewall manifest (`services/nas_v2_firewalld_reconcile.py`)

The reconciler checks every object once more before it changes anything.
-/

open Fallible NixNas.Spec NixNas.Authentik NixNas.Session

namespace NixNas.Firewalld

variable {F : Type}

/-- `FirewalldReconcileError`. -/
inductive ReconcileError where
  | port
  | portRange
  | object
  | ownership
  | zone
  | interface
  | policy
  | target
  | policyZone
  | collections
  | policyPort
  | forwardPort
  | richRule
  | destination
  | family
  | manifest
  | duplicate
  | missingZone (zone : Text)
  deriving DecidableEq, Repr

/-- `_OWNED_NAME`. -/
def isOwnedName : Text → Bool
  | 'n' :: 'v' :: '2' :: letter :: digits =>
    "zhwlrima".toList.contains letter && digits.length = 12 && digits.all isHex
  | _ => false

/-- `_INTERFACE`. -/
def isBridgeName : Text → Bool
  | 'n' :: 'v' :: '2' :: digits => digits.length = 11 && digits.all isHex
  | _ => false

/-- `name.startswith("nv2z")`. -/
def isZoneName (name : Text) : Bool := "nv2z".toList.isPrefixOf name

/-- `_ZONE`. -/
def isZoneRef (name : Text) : Bool :=
  (isZoneName name && isOwnedName name) || isLanZone name || name = "HOST".toList || name = "ANY".toList

/-- One number of `_PORT`. -/
def isPortPart (part : Text) : Bool := !part.isEmpty && part.length ≤ 5 && part.all Char.isDigit

/-- `_PORT`. -/
def isPortText (value : Text) : Bool :=
  (value.splitOn '-').length ≤ 2 && (value.splitOn '-').all isPortPart

/-- `int(text)` of ASCII digits. -/
def digitsValue (part : Text) : Nat := Nat.ofDigitChars 10 part 0

def portBounds (value : Text) : List Nat := (value.splitOn '-').map digitsValue

def boundsOk : List Nat → Bool
  | [port] => decide (1 ≤ port ∧ port ≤ 65535)
  | [start, stop] => decide ((1 ≤ start ∧ start ≤ 65535) ∧ (1 ≤ stop ∧ stop ≤ 65535) ∧ start ≤ stop)
  | _ => false

/-- `_port`. -/
def checkPort (value protocol : Plain F) : Except ReconcileError Text :=
  match value, protocol with
  | .scalar (.string value), .scalar (.string protocol) =>
    if !isPortText value || !protocols.contains protocol then .error .port
    else if !boundsOk (portBounds value) then .error .portRange
    else .ok (value ++ '/' :: protocol)
  | _, _ => .error .port

/-- `set(object) == set(keys)`. -/
def keysAre (keys : List String) (o : Object F) : Bool :=
  (o.map Prod.fst).all (keys.map String.toList).contains && keys.all fun key ↦ Has key.toList o

/-- `isinstance(object[key], str) and test(object[key])`. -/
def textTest (key : String) (test : Text → Bool) (o : Object F) : Bool := (textAt key o).any test

def checkZone (name : Text) (o : Object F) : Except ReconcileError Unit :=
  if !isZoneName name || !keysAre ["kind", "name", "interface"] o then .error .zone
  else if !textTest "interface" isBridgeName o then .error .interface
  else .ok ()

def checkPolicyPort : Plain F → Except ReconcileError Unit
  | .array [port, protocol] => do
    let _ ← checkPort port protocol
    .ok ()
  | _ => .error .policyPort

def checkForwardPort : Plain F → Except ReconcileError Unit
  | .array [port, protocol, target] => do
    let _ ← checkPort port protocol
    let _ ← checkPort target protocol
    .ok ()
  | _ => .error .forwardPort

/-- The version of the address with this number, as `ipaddress.ip_network` reads one. -/
def addressVersion (n : Int) : Option IpVersion :=
  if 0 ≤ n ∧ n < 4294967296 then some .v4
  else if 0 ≤ n ∧ n < 340282366920938463463374607431768211456 then some .v6
  else none

/-- The version of `ipaddress.ip_network(value, strict=False)`. -/
def versionOf (networks : IpNetworks) : Plain F → Option IpVersion
  | .scalar (.string raw) => (networks.network raw).map Prod.fst
  | value => (integerOf value).bind addressVersion

def checkRichRule (networks : IpNetworks) : Plain F → Except ReconcileError Unit
  | .object rule =>
    if !keysAre ["family", "destination"] rule &&
        !keysAre ["family", "destination", "port", "protocol"] rule then .error .richRule
    else
      match (find "destination".toList rule).bind (versionOf networks) with
      | none => .error .destination
      | some version =>
        if !textTest "family" (· = version.family) rule then .error .family
        else match find "port".toList rule, find "protocol".toList rule with
          | some port, some protocol => do
            let _ ← checkPort port protocol
            .ok ()
          | _, _ => .ok ()
  | _ => .error .richRule

def isPriority : Option (Plain F) → Bool
  | some (.scalar (.integer n)) => n ≠ 0 && -32767 ≤ n && n ≤ 32767
  | _ => false

def policyKeys : List String :=
  ["kind", "name", "target", "priority", "ingress", "egress", "ports", "forwardPorts", "richRules"]

def checkPolicy (networks : IpNetworks) (name : Text) (o : Object F) : Except ReconcileError Unit :=
  if isZoneName name || !keysAre policyKeys o then .error .policy
  else if !textTest "target" ["ACCEPT".toList, "DROP".toList, "CONTINUE".toList].contains o ||
      !isPriority (find "priority".toList o) then .error .target
  else if !textTest "ingress" isZoneRef o || !textTest "egress" isZoneRef o then .error .policyZone
  else
    match find "ports".toList o, find "forwardPorts".toList o, find "richRules".toList o with
    | some (.array ports), some (.array forwards), some (.array rules) => do
      ports.forM checkPolicyPort
      forwards.forM checkForwardPort
      rules.forM (checkRichRule networks)
    | _, _, _ => .error .collections

/-- `_check_object`: the kind, the name and the object. -/
def checkObject (networks : IpNetworks) (value : Plain F) :
    Except ReconcileError (Bool × Text × Object F) :=
  match value with
  | .object o =>
    match textAt "kind" o, textAt "name" o with
    | some kind, some name =>
      if (kind ≠ "zone".toList ∧ kind ≠ "policy".toList) ∨ isOwnedName name = false then
        .error .ownership
      else if kind = "zone".toList then do
        checkZone name o
        .ok (true, name, o)
      else do
        checkPolicy networks name o
        .ok (false, name, o)
    | _, _ => .error .ownership
  | _ => .error .object

/-- The objects by their names; the flag is set for a zone. -/
abbrev Desired (F : Type) := List (Text × Bool × Object F)

def addDesired (networks : IpNetworks) (desired : Desired F) (entry : Plain F) :
    Except ReconcileError (Desired F) := do
  let (isZone, name, o) ← checkObject networks entry
  if name ∈ desired.map Prod.fst then .error .duplicate else .ok (desired ++ [(name, isZone, o)])

def checkReference (zones : List Text) (zone : Text) : Except ReconcileError Unit :=
  if isZoneName zone ∧ zone ∉ zones then .error (.missingZone zone) else .ok ()

/-- `_read_projection`, of what `json.loads` makes of the file. -/
def readProjection (float : FloatEq F) (networks : IpNetworks) (manifest : Plain F) :
    Except ReconcileError (Desired F) :=
  match manifest with
  | .object o =>
    if !(find "schemaVersion".toList o).any (eq float · (number 2)) then .error .manifest
    else match find "objects".toList o with
      | some (.array entries) => do
        let desired ← entries.foldlM (addDesired networks) []
        let zones := (desired.filter fun e ↦ e.2.1).map Prod.fst
        (desired.filter fun e ↦ !e.2.1).forM fun e ↦ do
          checkReference zones ((textAt "ingress" e.2.2).getD [])
          checkReference zones ((textAt "egress" e.2.2).getD [])
        .ok desired
      | _ => .error .manifest
  | _ => .error .manifest

end NixNas.Firewalld
