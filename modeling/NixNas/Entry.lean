import NixNas.Generation
import NixNas.Lib.Association

/-!
# One production run (`main` of `services/nas_v2_entry.py`)

The run is a state machine over its own position, the generation tree and the history.  Edits of the
authority come in between any two of its steps, and every step may raise.  `compile` is what `apply`
derives from an authority text; the schema and the platform inventory do not change during a run.
-/

open Transition
open NixNas.History (Commit recordDesiredLocked bootstrapBaselineLocked)
open NixNas.Generation

namespace NixNas.Entry

/-- The output paths below the runtime root.  No output is the generation root itself. -/
structure Settings where
  effective : String
  plan : String
  portal : String
  caddy : String
  systemd : String
  backupInventory : String
  resticPaths : String
  firewalld : String
  generations_not_mem : "generations" ∉
    [effective, plan, portal, caddy, systemd, backupInventory, resticPaths, firewalld]

def Settings.default : Settings where
  effective := "effective.json"
  plan := "plan.json"
  portal := "portal.json"
  caddy := "caddy-managed.conf"
  systemd := "systemd"
  backupInventory := "backup-resources.json"
  resticPaths := "restic-v2-paths"
  firewalld := "firewalld"
  generations_not_mem := by decide

/-- The keys of `stable_paths`, in the order of the dictionary. -/
def Settings.stablePaths (t : Settings) : List String :=
  [t.effective, t.plan, t.portal, t.caddy, t.systemd, t.backupInventory, t.resticPaths,
    t.firewalld].eraseDups

/-- What one authority text compiles to: the effective document, the plan, and the other files of
the projections by their path in the generation. -/
structure Compiled (Doc : Type) where
  effective : Doc
  plan : Doc
  projections : List (String × Doc)

section

variable {Doc : Type} (settings : Settings) (compile : String → Except String (Compiled Doc))
variable {revision : Commit} {d : Directory Doc} {name : GenName} {attempt : Nat}

/-- The files `apply` hands to the bundle writer, the plan last. -/
def bundle (c : Compiled Doc) (revision : Commit) : List (String × File Doc) :=
  (settings.effective, .generated c.effective) ::
    (c.projections.map fun (path, content) ↦ (path, .generated content)) ++
      [(settings.plan, .plan c.plan revision)]

/-- `_write_unpublished_bundle`: the files it leaves and whether it returned.  A fault `k` raises
after `k` renames. -/
def writeUnpublishedBundle (existing files : List (String × File Doc)) (fault : Option Nat) :
    List (String × File Doc) × Bool :=
  if ¬ (files.map Prod.fst).Nodup then (existing, false)
  else if files.any fun f ↦ (existing.lookup f.1).isSome then (existing, false)
  else
    match fault with
    | none => (existing ++ files, true)
    | some k => (existing ++ files.take k, false)

inductive ApplyFault where
  | none
  | beforeRecord
  | afterRecord
  | writing (renames : Nat)
  deriving DecidableEq, Repr

structure World (Doc : Type) where
  history : History.State
  tree : Generation.World Doc

/-- The authority section of `apply` on a fresh generation: the revision the returned plan names,
`none` when it raised. -/
def applySection (w : World Doc) (name : GenName) (fault : ApplyFault) (now : Nat) :
    World Doc × Option Commit :=
  if fault = .beforeRecord then (w, none)
  else
    match recordDesiredLocked w.history with
    | .error _ => (w, none)
    | .ok (revision, _, history) =>
      let recorded := { w with history }
      if fault = .afterRecord then (recorded, none)
      else
        match history.authority with
        | none => (recorded, none)
        | some text =>
          match compile text, w.tree.dir name with
          | .ok c, some d =>
            let renames := match fault with
              | .writing k => some k
              | _ => none
            let (files, ok) := writeUnpublishedBundle d.files (bundle settings c revision) renames
            ({ recorded with tree := w.tree.update name fun d ↦ { d with mtime := now, files } },
              if ok then some revision else none)
          | _, _ => (recorded, none)

inductive Phase where
  | start
  | record (attempt : Nat)
  | allocate (attempt : Nat) (revision : Commit)
  | apply (attempt : Nat) (revision : Commit) (name : GenName)
  /-- The plan names another revision. -/
  | discard (attempt : Nat) (name : GenName)
  | publish (revision planned : Commit) (name : GenName)
  | link (name : GenName) (remaining : List String)
  /-- The handler of an exception that came before `published`. -/
  | cleanup (name : GenName)
  | prune
  | returned (code : Nat)
  deriving DecidableEq, Repr

structure State (Doc : Type) where
  world : World Doc
  phase : Phase
  /-- The generation this run switched `current` to. -/
  switched : Option GenName

inductive Action where
  | edit (authority : Option String)
  | bootstrap (raises : Bool)
  | recordDesired (raises : Bool)
  | allocate (now : Nat) (raises : Bool)
  | apply (fault : ApplyFault) (now : Nat)
  | discard (fault : Option Cut)
  | seal (raises : Bool)
  | link (fault : LinkFault)
  | cleanup (fault : Option Cut)
  | prune (fault : Option (Nat × Cut))
  deriving DecidableEq, Repr

def State.goto (s : State Doc) (phase : Phase) : State Doc := { s with phase }

def State.setTree (s : State Doc) (tree : Generation.World Doc) : State Doc :=
  { s with world := { s.world with tree } }

def State.setHistory (s : State Doc) (history : History.State) : State Doc :=
  { s with world := { s.world with history } }

def stepBootstrap (s : State Doc) (raises : Bool) : State Doc :=
  match raises, bootstrapBaselineLocked s.world.history with
  | false, .ok (_, _, history) => (s.setHistory history).goto (.record 0)
  | _, _ => s.goto (.returned 1)

def stepRecord (s : State Doc) (attempt : Nat) (raises : Bool) : State Doc :=
  match raises, recordDesiredLocked s.world.history with
  | false, .ok (revision, _, history) => (s.setHistory history).goto (.allocate attempt revision)
  | _, _ => s.goto (.returned 1)

def stepAllocate (s : State Doc) (attempt : Nat) (revision : Commit) (now : Nat) (raises : Bool) :
    State Doc :=
  match raises, allocateGeneration s.world.tree revision now with
  | false, .ok (name, tree) => (s.setTree tree).goto (.apply attempt revision name)
  | _, _ => s.goto (.returned 1)

def stepApply (s : State Doc) (attempt : Nat) (revision : Commit) (name : GenName)
    (fault : ApplyFault) (now : Nat) : State Doc :=
  let (world, planned) := applySection settings compile s.world name fault now
  let s' := { s with world }
  match planned with
  | none => s'.goto (.cleanup name)
  | some planned =>
    if planned ≠ revision then s'.goto (.discard attempt name)
    else s'.goto (.publish revision planned name)

/-- The next attempt, of three. -/
def stepDiscard (s : State Doc) (attempt : Nat) (name : GenName) (fault : Option Cut) :
    State Doc :=
  match discardGeneration s.world.tree name fault with
  | .error _ => s.goto (.cleanup name)
  | .ok tree => (s.setTree tree).goto
      (if attempt + 1 < 3 then .record (attempt + 1) else .returned 1)

/-- The checks of `publish_generation`, the seal and the sync of the generation root. -/
def stepSeal (s : State Doc) (revision planned : Commit) (name : GenName) (raises : Bool) :
    State Doc :=
  if planned ≠ revision ∨ name.revision ≠ revision then s.goto (.cleanup name)
  else
    match validateCompatibilityPaths settings.stablePaths with
    | .error _ => s.goto (.cleanup name)
    | .ok () =>
      (s.setTree (s.world.tree.update name fun d ↦ { d with isSealed := true })).goto
        (if raises then .cleanup name else .link name settings.stablePaths)

/-- One `_replace_symlink` of `publish_generation`: the stable paths in order, then `current`. -/
def stepLink (s : State Doc) (name : GenName) (remaining : List String) (fault : LinkFault) :
    State Doc :=
  let tree := s.world.tree
  match remaining with
  | stable :: rest =>
    let (entry, ok) := replaceSymlink (tree.stable stable) ("current/" ++ stable) fault
    (s.setTree { tree with stable := fun p ↦ if p = stable then entry else tree.stable p }).goto
      (if ok then .link name rest else .cleanup name)
  | [] =>
    let (entry, ok) := replaceSymlink tree.current (.generation name) fault
    { (s.setTree { tree with current := entry }).goto (if ok then .prune else .cleanup name) with
      switched := if entry = .link (.generation name) then some name else s.switched }

/-- The exception handler: whatever the cleanup raises is swallowed. -/
def stepCleanup (s : State Doc) (name : GenName) (fault : Option Cut) : State Doc :=
  match discardGeneration s.world.tree name fault with
  | .error _ => s.goto (.returned 1)
  | .ok tree => (s.setTree tree).goto (.returned 1)

def stepPrune (s : State Doc) (fault : Option (Nat × Cut)) : State Doc :=
  match pruneGenerations s.world.tree 3 fault with
  | .error _ => s.goto (.returned 0)
  | .ok tree => (s.setTree tree).goto (.returned 0)

/-- An edit of the authority at any time, or the next step of `main`. -/
def step (s : State Doc) (act : Action) : Option (State Doc) :=
  match act, s.phase with
  | .edit authority, _ => some (s.setHistory { s.world.history with authority })
  | .bootstrap raises, .start => some (stepBootstrap s raises)
  | .recordDesired raises, .record attempt => some (stepRecord s attempt raises)
  | .allocate now raises, .allocate attempt revision =>
    some (stepAllocate s attempt revision now raises)
  | .apply fault now, .apply attempt revision name =>
    some (stepApply settings compile s attempt revision name fault now)
  | .discard fault, .discard attempt name => some (stepDiscard s attempt name fault)
  | .seal raises, .publish revision planned name =>
    some (stepSeal settings s revision planned name raises)
  | .link fault, .link name remaining => some (stepLink s name remaining fault)
  | .cleanup fault, .cleanup name => some (stepCleanup s name fault)
  | .prune fault, .prune => some (stepPrune s fault)
  | _, _ => none

def Step (s : State Doc) (act : Action) (s' : State Doc) : Prop :=
  step settings compile s act = some s'

/-- `main` before its first step. -/
def begin (world : World Doc) : State Doc := ⟨world, .start, none⟩

/-- The pointer names no generation that is missing. -/
def Sound (tree : Generation.World Doc) : Prop :=
  ∀ name, tree.currentName = some name → ∃ d, tree.dir name = some d

/-- The directory `name` holds what the text committed at its revision compiles to. -/
def Built (w : World Doc) (name : GenName) : Prop :=
  ∃ d text c, w.tree.dir name = some d ∧ w.history.textAt name.revision = some text ∧
    compile text = .ok c ∧ d.read settings.effective = some (.generated c.effective) ∧
    d.read settings.plan = some (.plan c.plan name.revision)

/-- The directory that `current` names stays as it is, and the pointer moves only in the last
rename of a publication. -/
structure Frame (s s' : State Doc) : Prop where
  dir : ∀ name, s.world.tree.currentName = some name →
    s'.world.tree.dir name = s.world.tree.dir name
  pointer : s'.world.tree.current = s.world.tree.current ∧ s'.switched = s.switched ∨
    ∃ name, s.phase = .link name [] ∧ s'.world.tree.current = .link (.generation name) ∧
      s'.switched = some name ∧ s'.world.tree.dir name = s.world.tree.dir name ∧
      s'.world.history = s.world.history

/-- What is known at each position of the run. -/
def PhaseInv (s : State Doc) : Prop :=
  match s.phase with
  | .start | .record _ | .allocate _ _ | .discard _ _ => s.switched = none
  | .apply _ revision name => s.switched = none ∧ name.revision = revision ∧
      s.world.tree.currentName ≠ some name ∧
      ∃ d, s.world.tree.dir name = some d ∧ d.files = []
  | .publish _ _ name => s.switched = none ∧ s.world.tree.currentName ≠ some name ∧
      Built settings compile s.world name
  | .link name _ => s.switched = none ∧ Built settings compile s.world name
  | .cleanup _ => True
  | .prune => s.switched.isSome
  | .returned code => code = 0 → s.switched.isSome

theorem replaceSymlink_of_ne {τ : Type} {entry entry' : Entry τ} {target : τ} {fault : LinkFault}
    {ok : Bool} (h : replaceSymlink entry target fault = (entry', ok))
    (hne : entry' ≠ .link target) : entry' = entry ∧ ok = false := by
  cases fault with
  | none | sync =>
    cases h
    exact absurd rfl hne
  | prepare | replace =>
    cases h
    exact ⟨rfl, rfl⟩
  | migrate =>
    cases entry with
    | directory =>
      cases h
      exact ⟨rfl, rfl⟩
    | absent | file | link =>
      cases h
      exact absurd rfl hne

variable {s s' : State Doc} {w w' world : World Doc} {w₀ : Generation.World Doc}

theorem Frame.of_tree (htree : s'.world.tree = s.world.tree)
    (hswitched : s'.switched = s.switched) : Frame s s' :=
  ⟨fun _ _ => by rw [htree], .inl ⟨by rw [htree], hswitched⟩⟩

theorem writeUnpublishedBundle_ok {existing files written : List (String × File Doc)}
    {fault : Option Nat} (h : writeUnpublishedBundle existing files fault = (written, true)) :
    (files.map Prod.fst).Nodup ∧ written = existing ++ files := by
  unfold writeUnpublishedBundle at h
  by_cases hnodup : (files.map Prod.fst).Nodup
  · rw [if_neg (not_not_intro hnodup)] at h
    split at h
    · cases h
    · cases fault with
      | none =>
        cases h
        exact ⟨hnodup, rfl⟩
      | some k => cases h
  · rw [if_pos hnodup] at h
    cases h

theorem read_bundle {c : Compiled Doc} (hnodup : ((bundle settings c revision).map Prod.fst).Nodup)
    (hfiles : d.files = bundle settings c revision) :
    d.read settings.effective = some (.generated c.effective) ∧
      d.read settings.plan = some (.plan c.plan revision) := by
  unfold Directory.read
  rw [hfiles]
  refine ⟨Association.lookup_of_mem hnodup ?_, Association.lookup_of_mem hnodup ?_⟩
  · exact List.mem_append_left _ List.mem_cons_self
  · exact List.mem_append_right _ (List.mem_singleton_self _)

/-- The authority section touches only the generation it writes; a plan it returns was compiled
from the text committed at the revision it names. -/
theorem applySection_spec {fault : ApplyFault} {now : Nat}
    {planned : Option Commit} (hd : w.tree.dir name = some d)
    (hempty : d.files = [])
    (h : applySection settings compile w name fault now = (w', planned)) :
    w'.tree.current = w.tree.current ∧
      (∀ other, other ≠ name → w'.tree.dir other = w.tree.dir other) ∧
      (planned = some name.revision → Built settings compile w' name) := by
  unfold applySection at h
  split at h
  · cases h
    exact ⟨rfl, fun _ _ => rfl, nofun⟩
  · split at h
    · cases h
      exact ⟨rfl, fun _ _ => rfl, nofun⟩
    · rename_i revision _ history hrecord
      obtain ⟨text, -, hauthority, htext⟩ := History.recordDesiredLocked_spec hrecord
      rw [hauthority] at h
      dsimp only at h
      split at h
      · cases h
        exact ⟨rfl, fun _ _ => rfl, nofun⟩
      · rw [hd] at h
        cases hcompile : compile text with
        | error e =>
          rw [hcompile] at h
          cases h
          exact ⟨rfl, fun _ _ => rfl, nofun⟩
        | ok c =>
          rw [hcompile] at h
          dsimp only at h
          generalize (match fault with | .writing k => some k | _ => none) = renames at h
          cases hwrite : writeUnpublishedBundle d.files (bundle settings c revision) renames
          rename_i files ok
          rw [hwrite] at h
          cases h
          refine ⟨rfl, fun other hother => World.dir_update_of_ne _ hother, ?_⟩
          intro hplanned
          cases ok with
          | false => cases hplanned
          | true =>
            have hrevision : revision = name.revision := Option.some.inj hplanned
            obtain ⟨hnodup, hfiles⟩ := writeUnpublishedBundle_ok hwrite
            rw [hempty, List.nil_append] at hfiles
            obtain ⟨heffective, hplan⟩ :=
              read_bundle settings (d := { d with mtime := now, files, name }) hnodup hfiles
            refine ⟨_, text, c, World.dir_update_self hd, hrevision ▸ htext, hcompile, heffective,
              hrevision ▸ hplan⟩

/-- What holds along a run that began with the tree `w₀`. -/
structure Inv (w₀ : Generation.World Doc) (s : State Doc) : Prop where
  sound : Sound s.world.tree
  unswitched : s.switched = none → s.world.tree.current = w₀.current ∧
    ∀ name, w₀.currentName = some name → s.world.tree.dir name = w₀.dir name
  switched : ∀ name, s.switched = some name →
    s.world.tree.current = .link (.generation name) ∧ Built settings compile s.world name
  phase : PhaseInv settings compile s

theorem Built.congr (h : Built settings compile w name) (hdir : w'.tree.dir name = w.tree.dir name)
    (hhistory : w'.history.commits = w.history.commits) : Built settings compile w' name := by
  obtain ⟨d, text, c, hd, htext, hrest⟩ := h
  refine ⟨d, text, c, hdir.trans hd, ?_, hrest⟩
  unfold History.State.textAt at *
  rw [hhistory]
  exact htext

theorem currentName_congr {w w' : Generation.World Doc} (h : w'.current = w.current) :
    w'.currentName = w.currentName := by
  unfold Generation.World.currentName
  rw [h]

/-- What the step of a run may do: it has the frame property, it commits nothing after the switch,
and it arrives where it should. -/
structure Advance (s s' : State Doc) : Prop where
  frame : Frame s s'
  history : s.switched = none ∨ s'.world.history.commits = s.world.history.commits
  phase : PhaseInv settings compile s'

theorem Inv.advance (h : Inv settings compile w₀ s)
    (hadvance : Advance settings compile s s') : Inv settings compile w₀ s' := by
  obtain ⟨hframe, hhistory, hphase⟩ := hadvance
  obtain ⟨hcurrent, hswitched⟩ | ⟨name, hlink, hcurrent, hswitched, hdir, hsame⟩ := hframe.pointer
  · refine ⟨?_, ?_, ?_, hphase⟩
    · intro name hname
      rw [currentName_congr hcurrent] at hname
      rw [hframe.dir name hname]
      exact h.sound name hname
    · intro hnone
      rw [hswitched] at hnone
      obtain ⟨hpointer, hdirs⟩ := h.unswitched hnone
      refine ⟨hcurrent.trans hpointer, ?_⟩
      intro name hname
      rw [← currentName_congr hpointer] at hname
      exact (hframe.dir name hname).trans (hdirs name (currentName_congr hpointer ▸ hname))
    · intro name hname
      rw [hswitched] at hname
      obtain ⟨hpointer, hbuilt⟩ := h.switched name hname
      obtain hnone | hcommits := hhistory
      · rw [hnone] at hname
        cases hname
      · have hcurrentName : s.world.tree.currentName = some name := by
          unfold Generation.World.currentName
          rw [hpointer]
        exact ⟨hcurrent.trans hpointer,
          hbuilt.congr settings compile (hframe.dir name hcurrentName) hcommits⟩
  · have hbuilt : Built settings compile s.world name := by
      have := h.phase
      unfold PhaseInv at this
      rw [hlink] at this
      exact this.2
    have hbuilt' : Built settings compile s'.world name :=
      hbuilt.congr settings compile hdir (by rw [hsame])
    refine ⟨?_, ?_, ?_, hphase⟩
    · intro other hother
      unfold Generation.World.currentName at hother
      rw [hcurrent] at hother
      obtain ⟨d, -, -, hd, -⟩ := hbuilt'
      exact ⟨d, Option.some.inj hother ▸ hd⟩
    · intro hnone
      rw [hswitched] at hnone
      cases hnone
    · intro other hother
      rw [hswitched] at hother
      cases hother
      exact ⟨hcurrent, hbuilt'⟩

theorem Inv.edit (h : Inv settings compile w₀ s) (authority : Option String) :
    Advance settings compile s (s.setHistory { s.world.history with authority }) := by
  refine ⟨(.of_tree rfl rfl), (.inr rfl), ?_⟩
  have hphase := h.phase
  unfold PhaseInv at *
  exact hphase

theorem Inv.bootstrap (h : Inv settings compile w₀ s) (hs : s.phase = .start) (raises : Bool) :
    Advance settings compile s (stepBootstrap s raises) := by
  have hnone : s.switched = none := by
    have := h.phase
    unfold PhaseInv at this
    rwa [hs] at this
  unfold stepBootstrap
  split
  · exact ⟨(.of_tree rfl rfl), (.inl hnone), hnone⟩
  · exact ⟨(.of_tree rfl rfl), (.inl hnone), nofun⟩

theorem Inv.recordDesired
    (h : Inv settings compile w₀ s) (hs : s.phase = .record attempt) (raises : Bool) :
    Advance settings compile s (stepRecord s attempt raises) := by
  have hnone : s.switched = none := by
    have := h.phase
    unfold PhaseInv at this
    rwa [hs] at this
  unfold stepRecord
  split
  · exact ⟨(.of_tree rfl rfl), (.inl hnone), hnone⟩
  · exact ⟨(.of_tree rfl rfl), (.inl hnone), nofun⟩

theorem Inv.allocate (h : Inv settings compile w₀ s)
    (hs : s.phase = .allocate attempt revision) (now : Nat) (raises : Bool) :
    Advance settings compile s (stepAllocate s attempt revision now raises) := by
  have hnone : s.switched = none := by
    have := h.phase
    unfold PhaseInv at this
    rwa [hs] at this
  unfold stepAllocate
  split
  · rename_i name tree hallocate
    obtain ⟨hrevision, hfree, rfl⟩ := allocateGeneration_spec hallocate
    have hne : s.world.tree.currentName ≠ some name := by
      intro hname
      obtain ⟨d, hd⟩ := h.sound name hname
      rw [hfree] at hd
      cases hd
    refine ⟨⟨?_, .inl ⟨rfl, rfl⟩⟩, (.inl hnone),
      ⟨hnone, hrevision, hne, ⟨name, now, false, []⟩, World.dir_add_self hfree, rfl⟩⟩
    intro current hcurrent
    obtain ⟨d, hd⟩ := h.sound current hcurrent
    exact (World.dir_add_of_some hd).trans hd.symm
  · exact ⟨(.of_tree rfl rfl), (.inl hnone), nofun⟩

theorem Inv.apply (h : Inv settings compile w₀ s)
    (hs : s.phase = .apply attempt revision name) (fault : ApplyFault) (now : Nat) :
    Advance settings compile s (stepApply settings compile s attempt revision name fault now) := by
  obtain ⟨hnone, hrevision, hne, d, hd, hempty⟩ :
      s.switched = none ∧ name.revision = revision ∧ s.world.tree.currentName ≠ some name ∧
        ∃ d, s.world.tree.dir name = some d ∧ d.files = [] := by
    have := h.phase
    unfold PhaseInv at this
    rwa [hs] at this
  unfold stepApply
  cases happly : applySection settings compile s.world name fault now
  rename_i world planned
  obtain ⟨hcurrent, hdirs, hbuilt⟩ := applySection_spec settings compile hd hempty happly
  have hframe (phase : Phase) : Frame s (State.goto { s with world } phase) := by
    refine ⟨?_, .inl ⟨hcurrent, rfl⟩⟩
    intro current hname
    exact hdirs current fun heq => hne (heq ▸ hname)
  dsimp only
  cases planned with
  | none => exact ⟨(hframe _), (.inl hnone), trivial⟩
  | some planned =>
    dsimp only
    by_cases hplanned : planned = revision
    · rw [if_neg (not_not_intro hplanned)]
      refine ⟨(hframe _), (.inl hnone), ⟨hnone, ?_, hbuilt ?_⟩⟩
      · intro hname
        exact hne (currentName_congr hcurrent ▸ hname)
      · rw [hplanned, hrevision]
    · rw [if_pos hplanned]
      exact ⟨(hframe _), (.inl hnone), hnone⟩

theorem frame_discard {tree : Generation.World Doc} {fault : Option Cut} (phase : Phase)
    (h : discardGeneration s.world.tree name fault = .ok tree) :
    Frame s ((s.setTree tree).goto phase) := by
  obtain ⟨hcurrent, hdirs⟩ := discardGeneration_untouched h
  exact ⟨hdirs, .inl ⟨hcurrent, rfl⟩⟩

theorem Inv.discard
    (h : Inv settings compile w₀ s) (hs : s.phase = .discard attempt name) (fault : Option Cut) :
    Advance settings compile s (stepDiscard s attempt name fault) := by
  have hnone : s.switched = none := by
    have := h.phase
    unfold PhaseInv at this
    rwa [hs] at this
  unfold stepDiscard
  cases hdiscard : discardGeneration s.world.tree name fault with
  | error e => exact ⟨(.of_tree rfl rfl), (.inl hnone), trivial⟩
  | ok tree =>
    refine ⟨(frame_discard _ hdiscard), (.inl hnone), ?_⟩
    by_cases hattempt : attempt + 1 < 3
    · rw [if_pos hattempt]
      exact hnone
    · rw [if_neg hattempt]
      exact nofun

theorem Inv.seal {planned : Commit} (h : Inv settings compile w₀ s)
    (hs : s.phase = .publish revision planned name) (raises : Bool) :
    Advance settings compile s (stepSeal settings s revision planned name raises) := by
  obtain ⟨hnone, hne, hbuilt⟩ : s.switched = none ∧ s.world.tree.currentName ≠ some name ∧
      Built settings compile s.world name := by
    have := h.phase
    unfold PhaseInv at this
    rwa [hs] at this
  unfold stepSeal
  split
  · exact ⟨(.of_tree rfl rfl), (.inl hnone), trivial⟩
  · split
    · exact ⟨(.of_tree rfl rfl), (.inl hnone), trivial⟩
    · refine ⟨⟨?_, .inl ⟨rfl, rfl⟩⟩, (.inl hnone), ?_⟩
      · intro current hcurrent
        exact World.dir_update_of_ne _ fun heq => hne (heq ▸ hcurrent)
      · cases raises with
        | true => trivial
        | false =>
          obtain ⟨d, text, c, hd, htext, hcompile, heffective, hplan⟩ := hbuilt
          exact ⟨hnone, _, text, c, World.dir_update_self hd, htext, hcompile, heffective, hplan⟩

theorem Inv.link {remaining : List String} (h : Inv settings compile w₀ s)
    (hs : s.phase = .link name remaining) (fault : LinkFault) :
    Advance settings compile s (stepLink s name remaining fault) := by
  obtain ⟨hnone, hbuilt⟩ : s.switched = none ∧ Built settings compile s.world name := by
    have := h.phase
    unfold PhaseInv at this
    rwa [hs] at this
  unfold stepLink
  cases remaining with
  | cons stable rest =>
    refine ⟨⟨fun _ _ => rfl, .inl ⟨rfl, rfl⟩⟩, (.inl hnone), ?_⟩
    dsimp only
    split
    · exact ⟨hnone, hbuilt⟩
    · trivial
  | nil =>
    cases hreplace : replaceSymlink s.world.tree.current (.generation name) fault
    rename_i entry ok
    simp only [hreplace]
    by_cases hentry : entry = .link (.generation name)
    · rw [if_pos hentry]
      refine ⟨⟨fun _ _ => rfl, .inr ⟨name, hs, hentry, rfl, rfl, rfl⟩⟩, .inl hnone, ?_⟩
      cases ok with
      | true => rfl
      | false => trivial
    · obtain ⟨hsame, hfailed⟩ := replaceSymlink_of_ne hreplace hentry
      rw [if_neg hentry, hfailed]
      exact ⟨⟨fun _ _ => rfl, .inl ⟨hsame, rfl⟩⟩, (.inl hnone), trivial⟩

theorem advance_cleanup (s : State Doc) (name : GenName) (fault : Option Cut) :
    Advance settings compile s (stepCleanup s name fault) := by
  unfold stepCleanup
  cases hdiscard : discardGeneration s.world.tree name fault with
  | error e => exact ⟨(.of_tree rfl rfl), (.inr rfl), nofun⟩
  | ok tree => exact ⟨(frame_discard _ hdiscard), (.inr rfl), nofun⟩

theorem Inv.prune (h : Inv settings compile w₀ s)
    (hs : s.phase = .prune) (fault : Option (Nat × Cut)) :
    Advance settings compile s (stepPrune s fault) := by
  have hsome : s.switched.isSome := by
    have := h.phase
    unfold PhaseInv at this
    rwa [hs] at this
  unfold stepPrune
  cases hprune : pruneGenerations s.world.tree 3 fault with
  | error e => exact ⟨(.of_tree rfl rfl), (.inr rfl), fun _ => hsome⟩
  | ok tree =>
    obtain ⟨hcurrent, hdirs⟩ := pruneGenerations_untouched hprune
    exact ⟨⟨hdirs, .inl ⟨hcurrent, rfl⟩⟩, (.inr rfl), fun _ => hsome⟩

theorem Inv.step {act : Action}
    (h : Inv settings compile w₀ s) (hstep : Step settings compile s act s') :
    Advance settings compile s s' := by
  unfold Step Entry.step at hstep
  split at hstep
  all_goals first | cases hstep; done | skip
  all_goals
    rename_i hs
    cases hstep
  · exact h.edit settings compile _
  · exact h.bootstrap settings compile hs _
  · exact h.recordDesired settings compile hs _
  · exact h.allocate settings compile hs _ _
  · exact h.apply settings compile hs _ _
  · exact h.discard settings compile hs _
  · exact h.seal settings compile hs _
  · exact h.link settings compile hs _
  · exact advance_cleanup settings compile s _ _
  · exact h.prune settings compile hs _

theorem inv_begin (h : Sound world.tree) : Inv settings compile world.tree (begin world) :=
  ⟨h, fun _ => ⟨rfl, fun _ _ => rfl⟩, nofun, rfl⟩

theorem inv_of_reachable (hsound : Sound world.tree)
    (h : Reachable (Step settings compile) (begin world) s) :
    Inv settings compile world.tree s :=
  h.invariant (inv_begin settings compile hsound) fun _ _ _ hs hstep =>
    hs.advance settings compile (hs.step settings compile hstep)

theorem sound_of_reachable (hsound : Sound world.tree)
    (h : Reachable (Step settings compile) (begin world) s) : Sound s.world.tree :=
  (inv_of_reachable settings compile hsound h).sound

/-- `current` resolves to the same thing while neither the pointer nor its directory change. -/
theorem resolveCurrent_congr {w w' : Generation.World Doc} (hcurrent : w'.current = w.current)
    (hdirs : ∀ name, w.currentName = some name → w'.dir name = w.dir name) :
    w'.resolveCurrent = w.resolveCurrent := by
  unfold World.resolveCurrent
  unfold World.currentName at hdirs
  rw [hcurrent]
  split <;> try rfl
  rename_i name hname
  rw [hdirs name (by rw [hname])]

/-- The directory that `current` resolves to is neither deleted nor changed; a directory in the
place of `current` itself gives way only to the switch. -/
def KeepsCurrent (s s' : State Doc) : Prop :=
  (∀ d, s.world.tree.resolveCurrent = some (.generation d) →
    s'.world.tree.dir d.name = some d) ∧
  (s.world.tree.current = .directory →
    s'.world.tree.current = .directory ∨ s'.switched.isSome)

theorem Frame.keepsCurrent (h : Frame s s') : KeepsCurrent s s' := by
  refine ⟨?_, ?_⟩
  · intro d hresolve
    obtain ⟨hname, hd⟩ := resolveCurrent_generation hresolve
    rw [h.dir d.name hname, hd]
  · intro hdirectory
    obtain ⟨hcurrent, -⟩ | ⟨name, -, -, hswitched, -⟩ := h.pointer
    · exact .inl (hcurrent.trans hdirectory)
    · exact .inr (hswitched ▸ rfl)

/-- A run switches `current` only to a generation compiled from its own revision, leaves it alone
when it returns 1 without the switch, and never deletes what it resolves to. -/
theorem main_publication {world : World Doc} (hsound : Sound world.tree) {s : State Doc}
    (h : Reachable (Step settings compile) (begin world) s) :
    (∀ name, s.switched = some name →
      s.world.tree.current = .link (.generation name) ∧ Built settings compile s.world name) ∧
    (s.phase = .returned 1 → s.switched = none →
      s.world.tree.resolveCurrent = world.tree.resolveCurrent) ∧
    (∀ act s', Step settings compile s act s' → KeepsCurrent s s') := by
  have hinv := inv_of_reachable settings compile hsound h
  refine ⟨hinv.switched, ?_, ?_⟩
  · intro _ hnone
    obtain ⟨hcurrent, hdirs⟩ := hinv.unswitched hnone
    exact resolveCurrent_congr hcurrent hdirs
  · intro act s' hstep
    exact (hinv.step settings compile hstep).frame.keepsCurrent

end

def copying (text : String) : Except String (Compiled String) := .ok ⟨text, text, []⟩

def firstBoot : World String :=
  ⟨History.State.fresh (some "a"), [], .absent, fun _ ↦ .absent⟩

/-- The authority is edited between the two records of the first attempt, so that its generation is
discarded; the second attempt is published. -/
def racedBoot : List Action :=
  [.bootstrap false, .recordDesired false, .edit (some "b"), .allocate 1 false, .apply .none 2,
    .discard none, .recordDesired false, .allocate 3 false, .apply .none 4, .seal false] ++
    List.replicate 9 (.link .none) ++ [.prune none]

theorem racedBoot_switched :
    (racedBoot.foldlM (step Settings.default copying) (begin firstBoot)).map (·.switched) =
      some (some ⟨2, 1⟩) := by
  decide

theorem main_publication_racedBoot :
    ∃ s : State String, s.world.tree.current = .link (.generation ⟨2, 1⟩) ∧
      Built Settings.default copying s.world ⟨2, 1⟩ := by
  obtain ⟨s, hrun, hswitched⟩ := Option.map_eq_some_iff.mp racedBoot_switched
  exact ⟨s, (main_publication Settings.default copying (fun _ h => by cases h)
    ⟨_, run_of_foldlM hrun⟩).1 _ hswitched⟩

end NixNas.Entry
