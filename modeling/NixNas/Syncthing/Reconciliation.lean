import Mathlib.Data.Char
import Mathlib.Data.List.Dedup
import Mathlib.Data.List.Lex
import Mathlib.Data.List.Sort
import Mathlib.Logic.Function.Basic
import NixNas.Lib.Transition
import NixNas.Names

/-!
# The Syncthing reconciliation (`reconcile_syncthing` of `services/nas_identity_sync.py`)

A run replaces the folders and devices that earlier runs own.  They are the ones that the state file
names and the ones that the journal of an interrupted run names.  Every write and every request is
one step, and a run can end between any two steps, by an error or by a kill.
-/

namespace NixNas.Syncthing

variable {C : Type}

inductive Key where
  | folder (id : Text)
  | device (id : Text)
  deriving DecidableEq, Repr

def Key.Le : Key → Key → Prop
  | .folder a, .folder b => a ≤ b
  | .folder _, .device _ => True
  | .device _, .folder _ => False
  | .device a, .device b => a ≤ b

instance : DecidableRel Key.Le
  | .folder a, .folder b => inferInstanceAs (Decidable (a ≤ b))
  | .folder _, .device _ => inferInstanceAs (Decidable True)
  | .device _, .folder _ => inferInstanceAs (Decidable False)
  | .device a, .device b => inferInstanceAs (Decidable (a ≤ b))

def Key.isFolder : Key → Bool
  | .folder _ => true
  | .device _ => false

/-- `sorted(set(folders))` and `sorted(set(devices))`, one behind the other. -/
def sortedKeys (keys : List Key) : List Key := keys.dedup.insertionSort Key.Le

/-- What Syncthing has configured: the bodies of its folders and devices. -/
abbrev Config (C : Type) := Key → Option C

/-- The two dictionaries of `desired_syncthing`. -/
structure Desired (C : Type) where
  folders : List (Text × C)
  devices : List (Text × C)
  deriving DecidableEq

def Desired.keys (desired : Desired C) : List Key :=
  desired.folders.map (fun e ↦ .folder e.1) ++ desired.devices.map fun e ↦ .device e.1

/-- The state file; one that is missing reads as two empty lists. -/
structure Ownership where
  generation : Option Text
  owned : List Key
  deriving DecidableEq

inductive JournalPhase where
  | prepared | mutated | committed
  deriving DecidableEq, Repr

structure Journal (C : Type) where
  phase : JournalPhase
  generation : Text
  previousState : Ownership
  desired : Desired C
  retainedDevices : List Key

inductive Request (C : Type) where
  | put (key : Key) (body : C)
  | delete (key : Key)

def Request.key : Request C → Key
  | .put key _ => key
  | .delete key => key

inductive Answer where
  | accepted
  /-- "HTTP 404", or "does not exist". -/
  | notFound
  /-- "HTTP 409", or "still referenced". -/
  | conflict
  | failed
  deriving DecidableEq, Repr

inductive Stage (C : Type) where
  /-- The interrupted ownership is known. -/
  | started
  /-- The journal is prepared; the requests are still to be sent. -/
  | requests (todo : List (Request C)) (removed retained : List Key)
  | mutated (removed retained : List Key)
  | verified (retained : List Key)
  | committed (retained : List Key)
  | saved (retained : List Key)

structure Process (C : Type) where
  desired : Desired C
  /-- The state file as it is read again. -/
  state : Ownership
  /-- `old_folders` and `old_devices`. -/
  old : List Key
  stage : Stage C

structure World (C : Type) where
  config : Config C
  state : Ownership
  journal : Option (Journal C)
  process : Option (Process C)

def World.initial (config : Config C) : World C := ⟨config, ⟨none, []⟩, none, none⟩

section

variable (generation : Desired C → Text)

def expectedState (desired : Desired C) (retained : List Key) : Ownership :=
  ⟨some (generation desired), sortedKeys (desired.keys ++ retained)⟩

/-- `interrupted_syncthing_ownership`: the keys, and what it leaves of the two files. -/
def interruptedOwnership [DecidableEq C] (state : Ownership) :
    Option (Journal C) → Option (List Key × Ownership × Option (Journal C))
  | none => some ([], state, none)
  | some journal =>
    if journal.phase = .committed then
      some (journal.desired.keys,
        ⟨some journal.generation, sortedKeys (journal.desired.keys ++ journal.retainedDevices)⟩,
        some journal)
    else if journal.generation ≠ generation journal.desired then none
    else if journal.previousState ≠ state then
      if journal.phase = .mutated ∧ state = expectedState generation journal.desired
          journal.retainedDevices then some ([], state, none)
      else none
    else some (journal.desired.keys, state, some journal)

def unmanaged (config : Config C) (process : Process C) : List Key :=
  process.desired.keys.filter fun key ↦ (config key).isSome && decide (key ∉ process.old)

/-- The devices are put before the folders; what is owned and not desired is deleted, if it is there,
the folders before the devices. -/
def plannedRequests (config : Config C) (process : Process C) : List (Request C) :=
  process.desired.devices.map (fun e ↦ .put (.device e.1) e.2) ++
    process.desired.folders.map (fun e ↦ .put (.folder e.1) e.2) ++
    (sortedKeys (process.old.filter fun key ↦
      decide (key ∉ process.desired.keys) && (config key).isSome)).map .delete

def Request.apply (config : Config C) : Request C → Config C
  | .put key body => Function.update config key (some body)
  | .delete key => Function.update config key none

def Request.goesOn : Request C → Answer → Bool
  | _, .accepted => true
  | .delete _, .notFound => true
  | .delete (.device _), .conflict => true
  | _, _ => false

/-- `removed_devices` and `retained_devices` behind an answer. -/
def Request.record (removed retained : List Key) : Request C → Answer → List Key × List Key
  | .delete (.device id), .accepted => (.device id :: removed, retained)
  | .delete (.device id), _ => (removed, .device id :: retained)
  | _, _ => (removed, retained)

/-- `verify_syncthing_configuration`, where nobody else changes the configuration. -/
def verifyConfiguration (expectedSubset : C → C → Bool) (config : Config C) (desired : Desired C)
    (removed : List Key) : Bool :=
  (desired.folders.all fun e ↦ (config (.folder e.1)).any fun body ↦ expectedSubset body e.2) &&
    (desired.devices.all fun e ↦ (config (.device e.1)).any fun body ↦ expectedSubset body e.2) &&
    removed.all fun key ↦ (config key).isNone

inductive Event (C : Type) where
  /-- The two files are read, and the ownership of an interrupted run is taken over. -/
  | start (desired : Desired C)
  /-- The listings are read, and the journal is written. -/
  | prepare
  /-- The next request takes effect or not, and is answered. -/
  | request (applied : Bool) (answer : Answer)
  | mutate
  | verify
  | commit
  | save
  /-- The journal is removed, and the run returns. -/
  | finish
  /-- The run ends early. -/
  | kill

variable [DecidableEq C] (expectedSubset : C → C → Bool)

def stepProcess (w : World C) (p : Process C) : Event C → Option (World C)
  | .prepare =>
    match p.stage with
    | .started =>
      if unmanaged w.config p = [] then
        some { w with
          journal := some ⟨.prepared, generation p.desired, p.state, p.desired, []⟩
          process := some { p with stage := .requests (plannedRequests w.config p) [] [] } }
      else some { w with process := none }
    | _ => none
  | .request applied answer =>
    match p.stage with
    | .requests (request :: todo) removed retained =>
      let w := if applied then { w with config := request.apply w.config } else w
      if request.goesOn answer then
        let (removed, retained) := request.record removed retained answer
        some { w with process := some { p with stage := .requests todo removed retained } }
      else some { w with process := none }
    | _ => none
  | .mutate =>
    match p.stage with
    | .requests [] removed retained => some { w with
        journal := some ⟨.mutated, generation p.desired, p.state, p.desired, retained⟩
        process := some { p with stage := .mutated removed retained } }
    | _ => none
  | .verify =>
    match p.stage with
    | .mutated removed retained =>
      let removedFolders := p.old.filter fun key ↦ key.isFolder && decide (key ∉ p.desired.keys)
      if verifyConfiguration expectedSubset w.config p.desired (removedFolders ++ removed) then
        some { w with process := some { p with stage := .verified retained } }
      else some { w with process := none }
    | _ => none
  | .commit =>
    match p.stage with
    | .verified retained => some { w with
        journal := some ⟨.committed, generation p.desired, p.state, p.desired, retained⟩
        process := some { p with stage := .committed retained } }
    | _ => none
  | .save =>
    match p.stage with
    | .committed retained => some { w with
        state := expectedState generation p.desired retained
        process := some { p with stage := .saved retained } }
    | _ => none
  | .finish =>
    match p.stage with
    | .saved _ => some { w with journal := none, process := none }
    | _ => none
  | .kill => some { w with process := none }
  | .start _ => none

def step (w : World C) (event : Event C) : Option (World C) :=
  match w.process, event with
  | none, .start desired =>
    match interruptedOwnership generation w.state w.journal with
    | none => some w
    | some (keys, state, journal) =>
      some ⟨w.config, state, journal,
        some ⟨desired, state, w.state.owned ++ keys, .started⟩⟩
  | none, _ => none
  | some p, event => stepProcess generation expectedSubset w p event

end

end NixNas.Syncthing
