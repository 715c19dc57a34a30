import Mathlib.Data.Char
import Mathlib.Data.List.Lex
import NixNas.Lib.Journal
import NixNas.Lib.Settling
import NixNas.Reconcile.Targets

/-!
# The systemd reconciler (`services/nas_v2_systemd_reconcile.py`)

Both runtime directories are one store of links, keyed by directory and relative name.  What
systemd and the file system answer to a forward step is given by its outcome.
-/

open Journal Settling

namespace NixNas.Reconcile

/-! ## The live topology -/

/-- A live link holds the resolved path of the file it leads to. -/
inductive Node where
  | live (source : Text)
  | dangling
  | file
  deriving DecidableEq, Repr

def Node.isSymlink : Node → Bool
  | .live _ | .dangling => true
  | .file => false

abbrev Place := Kind × Text

abbrev Runtime := Store Place Node

inductive Error where
  | malformedState
  | unsupportedVersion
  | unsafeTarget (relative : Text)
  | notGenerated (value : Text)
  | duplicateTarget (relative : Text)
  | unsafeUnits (key : Text)
  | notOwned
  | invalidFingerprint
  | outsideRoots (place : Place)
  | notV2File (place : Place)
  deriving DecidableEq, Repr

/-- The generated files, which never change once written. -/
structure Files where
  /-- `_source_under_current`: the regular file of the current projection behind a path. -/
  current : Text → Option Text
  /-- Regular files under `_projection_roots`. -/
  generated : Text → Bool
  generated_of_current : ∀ {value source}, current value = some source → generated source = true
  bytes : Text → Text
  sha256 : Text → Text

def readOwnedLink (fs : Files) (run : Runtime) (place : Place) : Except Error (Option Text) :=
  match run.lookup place with
  | none | some .dangling => .ok none
  | some (.live source) =>
    if fs.generated source then .ok (some source) else .error (.outsideRoots place)
  | some .file => .error (.notV2File place)

def setLink (fs : Files) (run : Runtime) (place : Place) (source : Option Text) :
    Except Error Runtime :=
  let run := if run.lookup place = some .dangling then run.erase place else run
  match readOwnedLink fs run place with
  | .error e => .error e
  | .ok current =>
    match source with
    | none => .ok (if current.isSome then run.erase place else run)
    | some source =>
      if !fs.generated source then .error (.outsideRoots place)
      else if current = some source then .ok run
      else .ok (run.insert place (.live source))

/-- What `_set_link` leaves when `symlink_to` raises: the old link is gone already. -/
def setLinkHalf (run : Runtime) (place : Place) (source : Option Text) : Runtime :=
  match source with
  | none => run
  | some source => if run.lookup place = some (.live source) then run else run.erase place

/-- `_discover_systemd_links` and `_discover_quadlet_links`. -/
def discover (run : Runtime) (kind : Kind) : Finset Text :=
  (run.keys.filter fun place ↦ place.1 = kind ∧ discoverable kind place.2 ∧
    (run.lookup place).any Node.isSymlink).image Prod.snd

/-! ## Manifest and recorded state -/

/-- A JSON value where the reconciler expects a string. -/
inductive Value where
  | text (value : Text)
  | other
  deriving DecidableEq, Repr

structure Manifest where
  schemaVersion : Int
  links : List (Text × Text)
  quadletLinks : List (Text × Text)
  ownedUnits : List Text
  startUnits : List Text
  stopUnits : List Text
  fingerprints : Store Text Value

def Manifest.entries (manifest : Manifest) : Kind → List (Text × Text)
  | .systemd => manifest.links
  | .quadlet => manifest.quadletLinks

structure Recorded where
  links : Store Text Value
  linkHashes : Store Text Value
  quadletLinks : Store Text Value
  quadletHashes : Store Text Value
  ownedUnits : Finset Text
  startUnits : Finset Text
  stopUnits : Finset Text
  fingerprints : Store Text Value
  deriving DecidableEq

def Recorded.empty : Recorded := ⟨∅, ∅, ∅, ∅, ∅, ∅, ∅, ∅⟩

def Recorded.linksOf (state : Recorded) : Kind → Store Text Value
  | .systemd => state.links
  | .quadlet => state.quadletLinks

def Recorded.hashesOf (state : Recorded) : Kind → Store Text Value
  | .systemd => state.linkHashes
  | .quadlet => state.quadletHashes

/-- Every value is a string, as in the state that `reconcile` writes. -/
def Recorded.Strings (state : Recorded) : Prop :=
  ∀ store ∈ [state.links, state.linkHashes, state.quadletLinks, state.quadletHashes,
    state.fingerprints], ∀ key, store.lookup key ≠ some .other

/-- `json.dump`, and `_read_json` with the shape checks of the state; an empty object reads as no
state. -/
structure Codec (Content : Type) where
  dump : Recorded → Content
  parse : Content → Except Error (Option Recorded)
  parse_dump : ∀ state : Recorded, state.Strings → parse (dump state) = .ok (some state)

structure World (Content : Type) where
  runtime : Runtime
  state : Option Content
  active : Text → Bool

/-! ## Before the first mutation -/

structure Link where
  target : Text
  source : Text
  affected : Text
  digest : Text
  deriving DecidableEq, Repr

/-- `_parse_links`, after the targets in `seen`: the links and whether one of them drifted. -/
def parseLinks (fs : Files) (run : Runtime) (kind : Kind) (seen : List Text) :
    List (Text × Text) → Except Error (List Link × Bool)
  | [] => .ok ([], false)
  | item :: items =>
    match affectedUnit kind item.1 with
    | none => .error (.unsafeTarget item.1)
    | some affected =>
    match fs.current item.2 with
    | none => .error (.notGenerated item.2)
    | some source =>
    if item.1 ∈ seen then .error (.duplicateTarget item.1)
    else do
      let installed ← readOwnedLink fs run (kind, item.1)
      let (links, drift) ← parseLinks fs run kind (item.1 :: seen) items
      .ok (⟨item.1, source, affected, fs.sha256 (fs.bytes source)⟩ :: links,
        installed ≠ some source || drift)

def stringSet (key : String) (value : List Text) : Except Error (Finset Text) :=
  if value.all isUnit then .ok value.toFinset else .error (.unsafeUnits key.toList)

/-- What `reconcile` has computed when it decides whether there is anything to do. -/
structure Prepared where
  systemdLinks : List Link
  quadletLinks : List Link
  drift : Bool
  owned : Finset Text
  start : Finset Text
  stop : Finset Text
  fingerprints : Store Text Value
  previous : Option Recorded
  discovered : Kind → Finset Text

namespace Prepared

variable (p : Prepared)

def links : Kind → List Link
  | .systemd => p.systemdLinks
  | .quadlet => p.quadletLinks

def prev : Recorded := p.previous.getD .empty

def targets (kind : Kind) : Finset Text := ((p.links kind).map Link.target).toFinset

def currentLinks (kind : Kind) : Store Text Value :=
  ofList ((p.links kind).map fun l ↦ (l.target, .text l.source))

def currentHashes (kind : Kind) : Store Text Value :=
  ofList ((p.links kind).map fun l ↦ (l.target, .text l.digest))

def stale (kind : Kind) : Finset Text :=
  ((p.prev.linksOf kind).keys ∪ p.discovered kind) \ p.targets kind

def topologyChanged : Bool :=
  p.currentLinks .systemd ≠ p.prev.links || p.currentHashes .systemd ≠ p.prev.linkHashes ||
    p.currentLinks .quadlet ≠ p.prev.quadletLinks ||
    p.currentHashes .quadlet ≠ p.prev.quadletHashes ||
    p.stale .systemd ≠ ∅ || p.stale .quadlet ≠ ∅ || p.drift

def lifecycleChanged : Bool :=
  p.owned ≠ p.prev.ownedUnits || p.start ≠ p.prev.startUnits || p.stop ≠ p.prev.stopUnits

def fingerprintChanged : Bool := p.fingerprints ≠ p.prev.fingerprints

def noop : Bool :=
  p.previous.isSome && !p.topologyChanged && !p.lifecycleChanged && !p.fingerprintChanged

def retiredUnits : Finset Text := p.prev.ownedUnits \ p.owned

def changedLinks (kind : Kind) : List Link :=
  (p.links kind).filter fun l ↦ (p.prev.hashesOf kind).lookup l.target ≠ some (.text l.digest)

def changedUnits : Finset Text :=
  ((p.changedLinks .systemd).map Link.affected).toFinset ∪
    ((p.changedLinks .quadlet).map Link.affected).toFinset ∪
    p.fingerprints.keys.filter fun unit ↦
      p.prev.fingerprints.lookup unit ≠ p.fingerprints.lookup unit

def linkedSessions : Finset Text :=
  p.changedUnits.filter fun unit ↦ isSessionTarget unit ∧ unit ∈ p.prev.links

def stoppedUnits : Finset Text :=
  p.retiredUnits ∪ (p.prev.startUnits \ p.start) ∪ p.stop ∪ p.linkedSessions

def allUnits : Finset Text :=
  p.prev.ownedUnits ∪ p.owned ∪ p.prev.startUnits ∪ p.start ∪ p.stop ∪ p.stoppedUnits ∪
    p.changedUnits

/-- `active_snapshot`; `look` is what `is_active` reads. -/
def snapshot (look : Text → Option Bool) : List (Text × Option Bool) :=
  (sorted p.allUnits).map fun unit ↦ (unit, look unit)

def activeUnlinkedSessions (look : Text → Option Bool) : Finset Text :=
  p.changedUnits.filter fun unit ↦ isSessionTarget unit ∧ unit ∉ p.prev.links ∧
    unit ∈ p.targets .systemd ∧ look unit = some true

def changedSessions (look : Text → Option Bool) : Finset Text :=
  p.linkedSessions ∪ p.activeUnlinkedSessions look

def unitsToStop (look : Text → Option Bool) : Finset Text :=
  p.stoppedUnits ∪ p.activeUnlinkedSessions look

def places : List Place :=
  (sorted (p.targets .systemd ∪ p.stale .systemd)).map (Prod.mk .systemd) ++
    (sorted (p.targets .quadlet ∪ p.stale .quadlet)).map (Prod.mk .quadlet)

/-- `live_systemd` and `live_quadlet`. -/
def liveLinks (fs : Files) (run : Runtime) : Except Error (List (Place × Option Text)) :=
  p.places.mapM fun place ↦
    match affectedUnit place.1 place.2 with
    | none => .error (.unsafeTarget place.2)
    | some _ => (readOwnedLink fs run place).map fun source ↦ (place, source)

/-- A disabled or retired session has no installed target to stop. -/
def skipsStop (unit : Text) : Bool :=
  isSessionTarget unit && unit ∉ p.prev.links && unit ∉ p.targets .systemd

def disrupts (look : Text → Option Bool) (unit : Text) : Bool :=
  isSessionTarget unit && (unit ∈ p.prev.ownedUnits || unit ∈ p.activeUnlinkedSessions look)

def restarted (look : Text → Option Bool) : Finset Text :=
  (p.changedUnits ∩ p.owned ∩ p.start) \ p.changedSessions look

def unitsToStart (look : Text → Option Bool) : Finset Text :=
  (p.start \ p.prev.startUnits) \ p.restarted look

def recorded : Recorded where
  links := p.currentLinks .systemd
  linkHashes := p.currentHashes .systemd
  quadletLinks := p.currentLinks .quadlet
  quadletHashes := p.currentHashes .quadlet
  ownedUnits := p.owned
  startUnits := p.start
  stopUnits := p.stop
  fingerprints := p.fingerprints

end Prepared

/-- `_read_json` of the state file, which need not exist. -/
def readState {Content : Type} (codec : Codec Content) :
    Option Content → Except Error (Option Recorded)
  | none => .ok none
  | some content => codec.parse content

/-- `_string_set` on the three unit lists of the previous state. -/
def checkPrevious : Option Recorded → Except Error Unit
  | none => .ok ()
  | some state =>
    if ¬ ∀ unit ∈ state.ownedUnits ∪ state.startUnits ∪ state.stopUnits, isUnit unit then
      .error (.unsafeUnits "ownedUnits, startUnits, stopUnits".toList)
    else .ok ()

/-- `reconcile` up to its no-op test. -/
def prepare {Content : Type} (fs : Files) (codec : Codec Content) (manifest : Manifest)
    (w : World Content) : Except Error Prepared := do
  let previous ← readState codec w.state
  if manifest.schemaVersion ≠ 1 then .error .unsupportedVersion
  else
    let (links, drift) ← parseLinks fs w.runtime .systemd [] manifest.links
    let (quadletLinks, quadletDrift) ← parseLinks fs w.runtime .quadlet [] manifest.quadletLinks
    let owned ← stringSet "ownedUnits" manifest.ownedUnits
    let start ← stringSet "startUnits" manifest.startUnits
    let stop ← stringSet "stopUnits" manifest.stopUnits
    if ¬ (start ⊆ owned ∧ stop ⊆ owned) then .error .notOwned
    else
      checkPrevious previous
      if ¬ ∀ unit ∈ manifest.fingerprints.keys,
          isUnit unit ∧ manifest.fingerprints.lookup unit ≠ some .other then
        .error .invalidFingerprint
      else .ok ⟨links, quadletLinks, drift || quadletDrift, owned, start, stop,
        manifest.fingerprints, previous, discover w.runtime⟩

/-! ## Forward steps -/

inductive Step where
  | stop (unit : Text)
  | resetFailed (unit : Text)
  | link (place : Place) (source : Option Text)
  | daemonReload
  | restart (unit : Text)
  | tryRestart (unit : Text)
  | start (unit : Text)
  | writeState
  deriving DecidableEq, Repr

/-- Whether the step is a call of `systemctl`. -/
def Step.isCommand : Step → Bool
  | .link _ _ | .writeState => false
  | _ => true

namespace Prepared

variable (p : Prepared)

def linkSteps : List (Place × Option Text) :=
  (p.links .systemd).map (fun l ↦ ((.systemd, l.target), some l.source)) ++
    (p.links .quadlet).map (fun l ↦ ((.quadlet, l.target), some l.source)) ++
    (sorted (p.stale .systemd)).map (fun target ↦ ((.systemd, target), none)) ++
    (sorted (p.stale .quadlet)).map (fun target ↦ ((.quadlet, target), none))

def stopSteps (look : Text → Option Bool) : List Step :=
  (sorted (p.unitsToStop look)).filterMap
      (fun unit ↦ if p.skipsStop unit then none else some (.stop unit)) ++
    (sorted p.retiredUnits).map .resetFailed

def startSteps (look : Text → Option Bool) : List Step :=
  (if p.topologyChanged then [.daemonReload] else []) ++
    (sorted (p.changedUnits ∩ p.owned)).filterMap (fun unit ↦
      if unit ∈ p.changedSessions look then none
      else if unit ∈ p.start then some (.restart unit)
      else some (.tryRestart unit)) ++
    (sorted (p.unitsToStart look)).map .start

def steps (look : Text → Option Bool) : List Step :=
  p.stopSteps look ++ p.linkSteps.map (fun e ↦ .link e.1 e.2) ++ p.startSteps look ++ [.writeState]

end Prepared

/-- Whether a step raises, early or after its first half, and which units are active afterwards. -/
inductive Outcome where
  | done (active : Text → Bool)
  | raised (late : Bool) (active : Text → Bool)

def Outcome.active : Outcome → Text → Bool
  | .done active | .raised _ active => active

variable {Content : Type}

/-- One forward step; on the left the world that a raising step leaves.  The second half of the
state write begins once the new file is in place. -/
def perform (fs : Files) (content : Content) (outcome : Outcome) (w : World Content) :
    Step → World Content ⊕ World Content
  | .link place source =>
    match outcome with
    | .raised late _ =>
      .inl { w with runtime := if late then setLinkHalf w.runtime place source else w.runtime }
    | .done _ =>
      match setLink fs w.runtime place source with
      | .error _ => .inl w
      | .ok runtime => .inr { w with runtime := runtime }
  | .writeState =>
    match outcome with
    | .raised late _ => .inl { w with state := if late then some content else w.state }
    | .done _ => .inr { w with state := some content }
  | _ =>
    match outcome with
    | .raised _ active => .inl { w with active := active }
    | .done active => .inr { w with active := active }

/-- The steps a run attempted, the last of which raised if it failed, and the world it left. -/
structure Attempt (Content : Type) where
  attempted : List Step
  failed : Bool
  world : World Content

/-- Every step occurs at most once in a run, so that the outcomes are a function of the step. -/
def forward (fs : Files) (content : Content) (sys : Step → Outcome) (w : World Content) :
    List Step → Attempt Content
  | [] => ⟨[], false, w⟩
  | s :: steps =>
    match perform fs content (sys s) w s with
    | .inl w => ⟨[s], true, w⟩
    | .inr w =>
      let rest := forward fs content sys w steps
      { rest with attempted := s :: rest.attempted }

/-! ## Rollback -/

/-- `rollback_links`; its `daemon-reload` and the removal of empty directories change no link. -/
def rollbackLinks (fs : Files) (live : List (Place × Option Text)) (run : Runtime) :
    Except Error Runtime :=
  live.foldlM (fun run e ↦ setLink fs run e.1 e.2) run

/-- `rollback_active_state`, where a `start` or `stop` that succeeds settles its own unit, and the
units that the restored unit files tie to it by `Requires=` and `PartOf=`. -/
def rollbackActiveState (deps : Dependencies Text) (snapshot : List (Text × Option Bool))
    (disrupted : Text → Bool) (active : Text → Bool) : Text → Bool :=
  snapshot.foldl (fun active e ↦
    match e.2 with
    | none => active
    | some was =>
      if disrupted e.1 || active e.1 = was then active
      else if was then deps.start e.1 active
      else deps.stop e.1 active) active

structure Report where
  stopped : List Text
  changed : List Text
  started : List Text
  noop : Bool
  deriving DecidableEq, Repr

inductive Failure where
  | refused (error : Error)
  | failed (attempted : List Step) (disrupted : List Text) (rollback : Option Error)
  deriving DecidableEq, Repr

structure Run (Content : Type) where
  result : Except Failure Report
  attempted : List Step
  world : World Content

/-- The sessions whose `stop` was attempted and which it may have disrupted. -/
def Prepared.disrupted (p : Prepared) (look : Text → Option Bool) (attempted : List Step)
    (unit : Text) : Bool :=
  .stop unit ∈ attempted && p.disrupts look unit

/-- The handler of `reconcile` for a step that raised. -/
def recover (fs : Files) (deps : Dependencies Text) (p : Prepared) (look : Text → Option Bool)
    (live : List (Place × Option Text)) (a : Attempt Content) : Run Content :=
  let disrupted := p.disrupted look a.attempted
  let names := (sorted p.allUnits).filter disrupted
  match rollbackLinks fs live a.world.runtime with
  | .error e => ⟨.error (.failed a.attempted names (some e)), a.attempted, a.world⟩
  | .ok runtime =>
    ⟨.error (.failed a.attempted names none), a.attempted,
      { a.world with
        runtime := runtime
        active := rollbackActiveState deps (p.snapshot look) disrupted a.world.active }⟩

/-- What `is_active` reads. -/
def look (readable : Text → Bool) (w : World Content) (unit : Text) : Option Bool :=
  if readable unit then some (w.active unit) else none

def reconcile (fs : Files) (codec : Codec Content) (deps : Dependencies Text)
    (readable : Text → Bool) (sys : Step → Outcome) (manifest : Manifest) (w : World Content) :
    Run Content :=
  match prepare fs codec manifest w with
  | .error e => ⟨.error (.refused e), [], w⟩
  | .ok p =>
    if p.noop then ⟨.ok ⟨[], [], [], true⟩, [], w⟩
    else
      let seen := look readable w
      match p.liveLinks fs w.runtime with
      | .error e => ⟨.error (.refused e), [], w⟩
      | .ok live =>
        let a := forward fs (codec.dump p.recorded) sys w (p.steps seen)
        if a.failed then recover fs deps p seen live a
        else
          ⟨.ok ⟨sorted (p.unitsToStop seen), sorted p.changedUnits,
            sorted (p.unitsToStart seen ∪ p.restarted seen), false⟩, a.attempted, a.world⟩

end NixNas.Reconcile
