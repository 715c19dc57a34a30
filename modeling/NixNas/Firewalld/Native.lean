import Mathlib.Data.Finset.Insert
import NixNas.Firewalld.Reconcile
import NixNas.Lib.Keyed
import NixNas.Lib.Transition

/-!
# Changing firewalld (`reconcile` of `services/nas_v2_firewalld_reconcile.py`)

The objects of earlier runs are deleted, those of the manifest are made, and firewalld takes its
permanent configuration over at the reload.  `firewall-cmd` stands outside the repository; what is
relied on is that a command that returns zero has had its effect, and that one that fails, or that is
given up, has had its effect or none.
-/

open NixNas.Spec NixNas.Authentik

namespace NixNas.Firewalld

/-- A zone, or else a policy, and its name. -/
abbrev Key := Bool × Text

structure PolicySettings where
  target : Text
  priority : Int
  ingress : Finset Text
  egress : Finset Text
  ports : Finset (Text × Text)
  forwardPorts : Finset (Text × Text × Text)
  richRules : Finset Text
  deriving DecidableEq

def PolicySettings.new : PolicySettings := ⟨"CONTINUE".toList, -1, ∅, ∅, ∅, ∅, ∅⟩

/-- What `firewall-cmd` can give to an object. -/
inductive Native where
  | zone (interfaces : Finset Text)
  | policy (settings : PolicySettings)
  deriving DecidableEq

abbrev Objects := Key → Option Native

/-- The commands with `--permanent`. -/
inductive Change where
  | delete (key : Key)
  | newZone (name : Text)
  | addInterface (name interface : Text)
  | newPolicy (name : Text)
  | setTarget (name target : Text)
  | setPriority (name : Text) (priority : Int)
  | addIngressZone (name zone : Text)
  | addEgressZone (name zone : Text)
  | addPort (name : Text) (port : Text × Text)
  | addForwardPort (name : Text) (forward : Text × Text × Text)
  | addRichRule (name rule : Text)
  deriving DecidableEq

def Change.key : Change → Key
  | .delete key => key
  | .newZone name | .addInterface name _ => (true, name)
  | .newPolicy name | .setTarget name _ | .setPriority name _ | .addIngressZone name _
  | .addEgressZone name _ | .addPort name _ | .addForwardPort name _ | .addRichRule name _ =>
    (false, name)

def Change.act : Change → Option Native → Option Native
  | .delete _, _ => none
  | .newZone _, none => some (.zone ∅)
  | .addInterface _ interface, some (.zone interfaces) => some (.zone (insert interface interfaces))
  | .newPolicy _, none => some (.policy .new)
  | .setTarget _ target, some (.policy p) => some (.policy { p with target })
  | .setPriority _ priority, some (.policy p) => some (.policy { p with priority })
  | .addIngressZone _ zone, some (.policy p) =>
    some (.policy { p with ingress := insert zone p.ingress })
  | .addEgressZone _ zone, some (.policy p) =>
    some (.policy { p with egress := insert zone p.egress })
  | .addPort _ port, some (.policy p) => some (.policy { p with ports := insert port p.ports })
  | .addForwardPort _ forward, some (.policy p) =>
    some (.policy { p with forwardPorts := insert forward p.forwardPorts })
  | .addRichRule _ rule, some (.policy p) =>
    some (.policy { p with richRules := insert rule p.richRules })
  | _, found => found

def changes : Keyed.Semantics Key Native Change := ⟨Change.key, Change.act⟩

inductive Command where
  | permanent (change : Change)
  | checkConfig
  | reload
  deriving DecidableEq

structure Config where
  permanent : Objects
  runtime : Objects

def Command.effect (config : Config) : Command → Config
  | .permanent change => { config with permanent := changes.step config.permanent change }
  | .checkConfig => config
  | .reload => { config with runtime := config.permanent }

/-- `firewall-cmd`, with whatever else the host remembers. -/
structure FirewallCmd (Host : Type) where
  config : Host → Config
  /-- The words of `--permanent --get-zones`, or else of `--permanent --get-policies`. -/
  getPermanent : Host → Bool → Option (List Text)
  getRuntime : Host → Bool → Option (List Text)
  state : Host → Bool
  /-- The host behind the command, and whether it has returned zero in time. -/
  run : Host → Command → Host × Bool

/-- What the manual of `firewall-cmd` says. -/
structure Documented {Host : Type} (cmd : FirewallCmd Host) : Prop where
  getPermanent : ∀ host isZone names, cmd.getPermanent host isZone = some names →
    ∀ name, name ∈ names ↔ (cmd.config host).permanent (isZone, name) ≠ none
  getRuntime : ∀ host isZone names, cmd.getRuntime host isZone = some names →
    ∀ name, name ∈ names ↔ (cmd.config host).runtime (isZone, name) ≠ none
  done : ∀ host command, (cmd.run host command).2 = true →
    cmd.config (cmd.run host command).1 = command.effect (cmd.config host)
  failed : ∀ host command, (cmd.run host command).2 = false →
    cmd.config (cmd.run host command).1 = cmd.config host ∨
      cmd.config (cmd.run host command).1 = command.effect (cmd.config host)

section Plan

variable {F : Type}

def itemsAt (key : String) (o : Object F) : List (Plain F) :=
  match find key.toList o with
  | some (.array items) => items
  | _ => []

def asText : Plain F → Text
  | .scalar (.string value) => value
  | _ => []

def portPair : Plain F → Text × Text
  | .array [port, protocol] => (asText port, asText protocol)
  | _ => ([], [])

def portTriple : Plain F → Text × Text × Text
  | .array [port, protocol, target] => (asText port, asText protocol, asText target)
  | _ => ([], [], [])

def fieldAt (key : String) (o : Object F) : Text := (textAt key o).getD []

def priorityAt (o : Object F) : Int := ((find "priority".toList o).bind integerOf).getD 0

def ruleWords (family destination : Text) (port : Option (Text × Text)) : Text :=
  let field (name value : Text) := name ++ "=\"".toList ++ value ++ "\"".toList
  let head := ["rule".toList, field "family".toList family, "priority=\"-10\"".toList,
    "destination".toList, field "address".toList destination]
  let middle := match port with
    | some (port, protocol) =>
      ["port".toList, field "port".toList port, field "protocol".toList protocol]
    | none => []
  [' '].intercalate (head ++ middle ++ ["accept".toList])

/-- `str(rule["destination"])`. -/
def destinationAt (rule : Object F) : Text :=
  match find "destination".toList rule with
  | some (.scalar (.string value)) => value
  | some (.scalar (.integer n)) => intText n
  | some (.scalar (.boolean b)) => if b then "True".toList else "False".toList
  | _ => []

def richRule (rule : Object F) : Text :=
  ruleWords (fieldAt "family" rule) (destinationAt rule)
    (if Has "port".toList rule then some (fieldAt "port" rule, fieldAt "protocol" rule) else none)

def ruleText : Plain F → Text
  | .object rule => richRule rule
  | _ => []

def applyZone (name : Text) (o : Object F) : List Change :=
  [.newZone name, .addInterface name (fieldAt "interface" o)]

def applyPolicy (name : Text) (o : Object F) : List Change :=
  [.newPolicy name, .setTarget name (fieldAt "target" o), .setPriority name (priorityAt o),
    .addIngressZone name (fieldAt "ingress" o), .addEgressZone name (fieldAt "egress" o)] ++
    (itemsAt "ports" o).map (fun e ↦ .addPort name (portPair e)) ++
    (itemsAt "forwardPorts" o).map (fun e ↦ .addForwardPort name (portTriple e)) ++
    (itemsAt "richRules" o).map fun e ↦ .addRichRule name (ruleText e)

/-- Whether an object is one of the projection's, as `_current_owned` tells by its name. -/
def isOurs (key : Key) : Bool := isOwnedName key.2 && isZoneName key.2 == key.1

def currentOwned (isZone : Bool) (names : List Text) : List Key :=
  ((names.filter fun name ↦ isOurs (isZone, name)).dedup.insertionSort (· ≤ ·)).map (isZone, ·)

def keyOf (e : Text × Bool × Object F) : Key := (e.2.1, e.1)

def desiredZones (desired : Desired F) : Desired F :=
  (desired.filter (·.2.1)).insertionSort fun a b ↦ a.1 ≤ b.1

def desiredPolicies (desired : Desired F) : Desired F :=
  (desired.filter (!·.2.1)).insertionSort fun a b ↦
    priorityAt a.2.2 < priorityAt b.2.2 ∨ priorityAt a.2.2 = priorityAt b.2.2 ∧ a.1 ≤ b.1

def applyObject : Text × Bool × Object F → List Change
  | (name, true, o) => applyZone name o
  | (name, false, o) => applyPolicy name o

def plan (zones policies : List Text) (desired : Desired F) : List Change :=
  (currentOwned false policies ++ currentOwned true zones).map .delete ++
    (desiredZones desired ++ desiredPolicies desired).flatMap applyObject

/-- The changes, and behind them the check and the reload. -/
def commandsOf (cs : List Change) : List Command := cs.map .permanent ++ [.checkConfig, .reload]

structure Result where
  changed : Bool
  objects : List Text
  deriving DecidableEq, Repr

variable {Host : Type} (cmd : FirewallCmd Host) (float : FloatEq F) (networks : IpNetworks)

def execute (host : Host) : List Command → Host × Bool
  | [] => (host, true)
  | command :: commands =>
    match cmd.run host command with
    | (host, true) => execute host commands
    | (host, false) => (host, false)

def prepare (host : Host) (manifest : Plain F) : Option (Desired F × Bool × List Command) :=
  match readProjection float networks manifest with
  | .error _ => none
  | .ok desired =>
    match cmd.getPermanent host true, cmd.getPermanent host false with
    | some zones, some policies =>
      let owned := currentOwned true zones ++ currentOwned false policies
      some (desired, !owned.isEmpty, commandsOf (plan zones policies desired))
    | _, _ => none

def verifyRuntime (host : Host) (desired : Desired F) : Bool :=
  match cmd.state host, cmd.getRuntime host true, cmd.getRuntime host false with
  | true, some zones, some policies =>
    desired.all fun e ↦ if e.2.1 then zones.contains e.1 else policies.contains e.1
  | _, _, _ => false

/-- `reconcile`; without a result where it raises. -/
def reconcile (host : Host) (manifest : Plain F) : Host × Option Result :=
  match prepare cmd float networks host manifest with
  | none => (host, none)
  | some (desired, wasOwned, commands) =>
    match execute cmd host commands with
    | (host, false) => (host, none)
    | (host, true) =>
      (host, if verifyRuntime cmd host desired then
        some ⟨wasOwned || !desired.isEmpty, (desired.map Prod.fst).insertionSort (· ≤ ·)⟩ else none)

def killed (host : Host) (manifest : Plain F) (commands : Nat) : Host :=
  match prepare cmd float networks host manifest with
  | none => host
  | some (_, _, all) => (execute cmd host (all.take commands)).1

/-- A start of the reconciler, and where it is killed. -/
structure Attempt (F : Type) where
  manifest : Plain F
  killedBehind : Option Nat

def attempt (host : Host) (a : Attempt F) : Host :=
  match a.killedBehind with
  | none => (reconcile cmd float networks host a.manifest).1
  | some commands => killed cmd float networks host a.manifest commands

end Plan

end NixNas.Firewalld
