import Mathlib.Data.List.Sort
import NixNas.History

/-!
# Runtime generations (`services/nas_v2_generation.py`)

The directories under the generation root, the `current` pointer and the stable links beside it.
Directory names are kept as the pair that `parse_generation_name` reads off them; modes are
reduced to whether a tree is sealed.
-/

open NixNas.History (Commit)

namespace NixNas.Generation

def generationSuffixMax : Nat := 9999

/-- The directory name `revision` (index 1) or `revision-index`. -/
structure GenName where
  revision : Commit
  index : Nat
  deriving DecidableEq, Repr

/-- A generated file; the plan also records the revision it was compiled from. -/
inductive File (Doc : Type) where
  | generated (content : Doc)
  | plan (content : Doc) (desiredRevision : Commit)
  deriving DecidableEq, Repr

structure Directory (Doc : Type) where
  name : GenName
  mtime : Nat
  isSealed : Bool
  files : List (String × File Doc)
  deriving DecidableEq, Repr

def Directory.read {Doc : Type} (d : Directory Doc) (path : String) : Option (File Doc) :=
  d.files.lookup path

/-- Where an `rmtree` was cut off.  Unlinking an entry of the directory itself sets its modification
time; unlinking one below a subdirectory does not. -/
structure Cut where
  unlinked : Nat
  mtime : Nat
  deriving DecidableEq, Repr

/-- What is found at a path that may hold a symlink. -/
inductive Entry (τ : Type) where
  | absent
  | file
  | directory
  | link (target : τ)
  deriving DecidableEq, Repr

inductive Target where
  | generation (name : GenName)
  | elsewhere (path : String) (present : Bool)
  deriving DecidableEq, Repr

structure World (Doc : Type) where
  generations : List (Directory Doc)
  current : Entry Target
  stable : String → Entry String

/-- What `current` resolves to. -/
inductive Node (Doc : Type) where
  | file
  | directory
  | elsewhere (path : String)
  | generation (dir : Directory Doc)
  deriving DecidableEq, Repr

inductive GenerationError where
  | tooManyGenerations (revision : Commit)
  | changedWhileCompiling
  | notKeyed
  | foreignParent (stable : String)
  | replacesCurrent
  | unresolvable
  | isCurrent (name : GenName)
  | changedRepeatedly
  deriving DecidableEq, Repr

section

variable {Doc : Type}
variable {w w' : World Doc} {name other : GenName} {d : Directory Doc}
  {f : Directory Doc → Directory Doc}

def World.dir (w : World Doc) (name : GenName) : Option (Directory Doc) :=
  w.generations.find? (·.name = name)

def World.add (w : World Doc) (d : Directory Doc) : World Doc :=
  { w with generations := w.generations ++ [d] }

def World.remove (w : World Doc) (name : GenName) : World Doc :=
  { w with generations := w.generations.filter (·.name ≠ name) }

/-- The directory `name` rewritten in place. -/
def World.update (w : World Doc) (name : GenName) (f : Directory Doc → Directory Doc) :
    World Doc :=
  { w with generations := w.generations.map fun d ↦
      if d.name = name then { f d with name } else d }

/-- What an `rmtree` that was cut off leaves. -/
def Directory.dropFiles (cut : Cut) (d : Directory Doc) : Directory Doc :=
  { d with mtime := cut.mtime, isSealed := false, files := d.files.drop cut.unlinked }

/-- `current_link.resolve(strict=True)`. -/
def World.resolveCurrent (w : World Doc) : Option (Node Doc) :=
  match w.current with
  | .absent => none
  | .file => some .file
  | .directory => some .directory
  | .link (.elsewhere path present) => if present then some (.elsewhere path) else none
  | .link (.generation name) => (w.dir name).map .generation

/-- `allocate_generation`: the first free slot of the revision. -/
def allocateGeneration (w : World Doc) (revision : Commit) (now : Nat) :
    Except GenerationError (GenName × World Doc) :=
  match (List.range' 1 generationSuffixMax).find? fun index ↦ (w.dir ⟨revision, index⟩).isNone with
  | none => .error (.tooManyGenerations revision)
  | some index => .ok (⟨revision, index⟩, w.add ⟨⟨revision, index⟩, now, false, []⟩)

def refuseIfCurrent (w : World Doc) (name : GenName) : Except GenerationError Unit :=
  match w.current with
  | .absent => .ok ()
  | _ =>
    match w.resolveCurrent with
    | none => .error .unresolvable
    | some (.generation d) => if d.name = name then .error (.isCurrent name) else .ok ()
    | some _ => .ok ()

/-- `discard_generation`.  An operating-system error during the removal is swallowed. -/
def discardGeneration (w : World Doc) (name : GenName) (fault : Option Cut) :
    Except GenerationError (World Doc) :=
  match w.dir name with
  | none => .ok w
  | some _ =>
    match refuseIfCurrent w name with
    | .error e => .error e
    | .ok () =>
      let unsealed := w.update name fun d ↦ { d with isSealed := false }
      match refuseIfCurrent unsealed name with
      | .error e => .error e
      | .ok () =>
        match fault with
        | none => .ok (unsealed.remove name)
        | some cut => .ok (unsealed.update name (·.dropFiles cut))

/-- The step of `_replace_symlink` that raises. -/
inductive LinkFault where
  | none
  /-- Nothing but the temporary link was touched. -/
  | prepare
  /-- The old directory could not be moved aside. -/
  | migrate
  /-- The rename of the temporary link failed; a directory moved aside is moved back. -/
  | replace
  /-- The link is in place and the directory sync or the cleanup raised. -/
  | sync
  deriving DecidableEq, Repr

/-- `_replace_symlink`: the entry it leaves and whether it returned. -/
def replaceSymlink {τ : Type} (entry : Entry τ) (target : τ) : LinkFault → Entry τ × Bool
  | .none => (.link target, true)
  | .prepare => (entry, false)
  | .migrate =>
    match entry with
    | .directory => (entry, false)
    | _ => (.link target, true)
  | .replace => (entry, false)
  | .sync => (.link target, false)

/-- `_validate_compatibility_paths`, the stable paths being relative to the runtime root. -/
def validateCompatibilityPaths : List String → Except GenerationError Unit
  | [] => .ok ()
  | stable :: rest =>
    if '/' ∈ stable.toList then .error (.foreignParent stable)
    else if stable = "current" then .error .replacesCurrent
    else validateCompatibilityPaths rest

/-- The directories `prune_generations` removes: all but `current` and the newest ones. -/
def pruneVictims (w : World Doc) (current : GenName) (retain : Nat) : List GenName :=
  let newest := (w.generations.insertionSort fun a b ↦ b.mtime ≤ a.mtime).map (·.name)
  let keep := current :: (newest.filter (· ≠ current)).take (retain - 1)
  newest.filter (· ∉ keep)

/-- Removal of the victims in order.  A fault `(k, cut)` lets the removal of victim `k` fail. -/
def removeVictims (w : World Doc) : List GenName → Option (Nat × Cut) → World Doc
  | [], _ => w
  | name :: rest, none => removeVictims (w.remove name) rest none
  | name :: _, some (0, cut) => w.update name (·.dropFiles cut)
  | name :: rest, some (k + 1, cut) => removeVictims (w.remove name) rest (some (k, cut))

def pruneGenerations (w : World Doc) (retain : Nat) (fault : Option (Nat × Cut)) :
    Except GenerationError (World Doc) :=
  match w.resolveCurrent with
  | some (.generation d) => .ok (removeVictims w (pruneVictims w d.name retain) fault)
  | _ => .error .unresolvable

theorem World.dir_add_of_some {d' : Directory Doc}
    (h : w.dir name = some d) : (w.add d').dir name = some d := by
  unfold World.dir World.add at *
  simp [List.find?_append, h]

theorem World.dir_add_self (h : w.dir d.name = none) : (w.add d).dir d.name = some d := by
  unfold World.dir World.add at *
  simp [List.find?_append, h]

theorem World.dir_remove_of_ne (w : World Doc) (h : name ≠ other) :
    (w.remove other).dir name = w.dir name := by
  unfold World.dir World.remove
  induction w.generations with
  | nil => rfl
  | cons d rest ih =>
    by_cases hd : d.name = other
    · have hname : ¬ d.name = name := fun heq => h (heq.symm.trans hd)
      simp only [List.filter_cons, hd, ne_eq, not_true_eq_false, decide_false,
        Bool.false_eq_true, if_false]
      rw [ih, List.find?_cons_of_neg (by simpa using hname)]
    · simp only [List.filter_cons, ne_eq, hd, not_false_eq_true, decide_true, if_true]
      simp only [List.find?_cons]
      split
      · rfl
      · exact ih

theorem World.dir_update_of_ne (w : World Doc) (h : name ≠ other) :
    (w.update other f).dir name = w.dir name := by
  unfold World.dir World.update
  induction w.generations with
  | nil => rfl
  | cons d rest ih =>
    simp only [List.map_cons, List.find?_cons]
    by_cases hd : d.name = other
    · simp only [hd, if_true, Ne.symm h, decide_false]
      exact ih
    · simp only [hd, if_false]
      split
      · rfl
      · exact ih

theorem World.dir_update_self (h : w.dir name = some d) :
    (w.update name f).dir name = some { f d with name } := by
  unfold World.dir World.update at *
  dsimp only
  revert h
  induction w.generations with
  | nil => exact nofun
  | cons e rest ih =>
    intro h
    simp only [List.map_cons, List.find?_cons] at h ⊢
    by_cases he : e.name = name
    · simp only [he, decide_true, Option.some.injEq] at h
      subst h
      simp [he]
    · simp only [he, decide_false] at h
      simp only [he, if_false, decide_false]
      exact ih h

theorem World.name_of_dir (h : w.dir name = some d) : d.name = name := by
  simpa using List.find?_some h

theorem allocateGeneration_spec {revision : Commit} {now : Nat}
    (h : allocateGeneration w revision now = .ok (name, w')) :
    name.revision = revision ∧ w.dir name = none ∧ w' = w.add ⟨name, now, false, []⟩ := by
  unfold allocateGeneration at h
  split at h
  · cases h
  · rename_i index hindex
    cases h
    exact ⟨rfl, by simpa using List.find?_some hindex, rfl⟩

/-- The target of `current`, when it is a generation. -/
def World.currentName (w : World Doc) : Option GenName :=
  match w.current with
  | .link (.generation name) => some name
  | _ => none

theorem resolveCurrent_generation (h : w.resolveCurrent = some (.generation d)) :
    w.currentName = some d.name ∧ w.dir d.name = some d := by
  unfold World.resolveCurrent at h
  unfold World.currentName
  cases hcurrent : w.current with
  | absent | file | directory => simp [hcurrent] at h
  | link target =>
    cases target with
    | elsewhere path present => cases present <;> simp [hcurrent] at h
    | generation name =>
      simp only [hcurrent] at h
      obtain ⟨d', hd, heq⟩ := Option.map_eq_some_iff.mp h
      cases heq
      obtain rfl := World.name_of_dir hd
      exact ⟨rfl, hd⟩

theorem refuseIfCurrent_ok (h : refuseIfCurrent w name = .ok ()) : w.currentName ≠ some name := by
  unfold refuseIfCurrent at h
  unfold World.currentName
  cases hcurrent : w.current with
  | absent | file | directory => simp
  | link target =>
    cases target with
    | elsewhere => simp
    | generation current =>
      simp only [hcurrent, World.resolveCurrent] at h
      cases hdir : w.dir current with
      | none => simp [hdir] at h
      | some d =>
        have hname := World.name_of_dir hdir
        simp only [hdir, Option.map_some, hname] at h
        rintro heq
        rw [if_pos (Option.some.inj heq)] at h
        cases h

/-- Cleanup never touches the directory that `current` names. -/
theorem discardGeneration_untouched {fault : Option Cut}
    (h : discardGeneration w name fault = .ok w') :
    w'.current = w.current ∧ ∀ current, w.currentName = some current →
      w'.dir current = w.dir current := by
  unfold discardGeneration at h
  split at h
  · cases h
    exact ⟨rfl, fun _ _ => rfl⟩
  · split at h
    · cases h
    · rename_i hrefuse
      have hne := refuseIfCurrent_ok hrefuse
      dsimp only at h
      split at h
      · cases h
      · split at h
        all_goals
          cases h
          refine ⟨rfl, ?_⟩
          intro current hcurrent
          have hname : current ≠ name := fun heq => hne (heq ▸ hcurrent)
        · rw [World.dir_remove_of_ne _ hname, World.dir_update_of_ne _ hname]
        · rw [World.dir_update_of_ne _ hname, World.dir_update_of_ne _ hname]

theorem removeVictims_untouched (w : World Doc) (victims : List GenName)
    (fault : Option (Nat × Cut)) :
    (removeVictims w victims fault).current = w.current ∧
      ∀ name, name ∉ victims → (removeVictims w victims fault).dir name = w.dir name := by
  induction w, victims, fault using removeVictims.induct with
  | case1 w fault =>
    unfold removeVictims
    exact ⟨rfl, fun _ _ => rfl⟩
  | case2 w victim rest ih =>
    unfold removeVictims
    refine ⟨ih.1, ?_⟩
    intro name hname
    rw [List.mem_cons, not_or] at hname
    rw [ih.2 name hname.2, World.dir_remove_of_ne _ hname.1]
  | case3 w victim rest n =>
    unfold removeVictims
    refine ⟨rfl, ?_⟩
    intro name hname
    rw [List.mem_cons, not_or] at hname
    exact World.dir_update_of_ne _ hname.1
  | case4 w victim rest k n ih =>
    unfold removeVictims
    refine ⟨ih.1, ?_⟩
    intro name hname
    rw [List.mem_cons, not_or] at hname
    rw [ih.2 name hname.2, World.dir_remove_of_ne _ hname.1]

/-- Pruning keeps the directory that `current` names. -/
theorem pruneGenerations_untouched {retain : Nat}
    {fault : Option (Nat × Cut)} (h : pruneGenerations w retain fault = .ok w') :
    w'.current = w.current ∧ ∀ current, w.currentName = some current →
      w'.dir current = w.dir current := by
  unfold pruneGenerations at h
  split at h
  · rename_i d hresolve
    cases h
    obtain ⟨hcurrent, hdir⟩ := removeVictims_untouched w (pruneVictims w d.name retain) fault
    refine ⟨hcurrent, ?_⟩
    intro current hname
    apply hdir
    have hd : d.name = current :=
      Option.some.inj ((resolveCurrent_generation hresolve).1.symm.trans hname)
    simp [pruneVictims, hd]
  · cases h

end

end NixNas.Generation
