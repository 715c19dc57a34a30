import Mathlib.Data.Finset.Basic
import Mathlib.Tactic.Tauto
import NixNas.Authentik.Blueprint
import NixNas.Lib.Ledger
import NixNas.Lib.Script

/-!
# Objects of removed services (`nas-v2-authentik-blueprint-apply`)

A run renders the blueprint, applies it and replaces the manifest of the objects.  It may fail in
every command, before or after its effect, and be killed between two of them.
-/

open Fallible

namespace NixNas.Authentik

open Spec

variable {F : Type}
variable {groups applications names : List Text} {o : Object F}

/-! ## Objects -/

inductive AuthentikObject where
  | group (name : Text)
  | application (slug : Text)
deriving DecidableEq, Repr

def Entry.creates : Entry → Option AuthentikObject
  | .group name _ => some (.group name)
  | .application slug _ _ => some (.application slug)
  | _ => none

def Entry.deletes : Entry → Option AuthentikObject
  | .absentApplication slug => some (.application slug)
  | .absentGroup name => some (.group name)
  | _ => none

def Entry.apply (objects : Finset AuthentikObject) (entry : Entry) : Finset AuthentikObject :=
  match entry.creates, entry.deletes with
  | some x, _ => insert x objects
  | none, some x => objects.erase x
  | none, none => objects

def objectsOf (groups applications : List Text) : Finset AuthentikObject :=
  (groups.map AuthentikObject.group ++ applications.map AuthentikObject.application).toFinset

variable {held : Finset AuthentikObject} {entries : List Entry} {x : AuthentikObject}
variable {l : Ledger.State AuthentikObject}

theorem mem_objectsOf : x ∈ objectsOf groups applications ↔
    (∃ name ∈ groups, AuthentikObject.group name = x) ∨
      ∃ slug ∈ applications, AuthentikObject.application slug = x := by
  rw [objectsOf, List.mem_toFinset, List.mem_append, List.mem_map, List.mem_map]

theorem mem_apply_creating (h : ∀ e ∈ entries, e.deletes = none) :
    x ∈ entries.foldl Entry.apply held ↔ x ∈ held ∨ ∃ e ∈ entries, e.creates = some x := by
  induction entries generalizing held with
  | nil => simp
  | cons e entries ih =>
    rw [List.forall_mem_cons] at h
    have hstep : x ∈ Entry.apply held e ↔ x ∈ held ∨ e.creates = some x := by
      unfold Entry.apply
      rw [h.1]
      cases e.creates with
      | none => simp
      | some y => simp [or_comm, eq_comm]
    rw [List.foldl_cons, ih h.2, hstep, List.exists_mem_cons_iff, or_assoc]

theorem mem_apply_deleting (h : ∀ e ∈ entries, e.creates = none) :
    x ∈ entries.foldl Entry.apply held ↔ x ∈ held ∧ ∀ e ∈ entries, e.deletes ≠ some x := by
  induction entries generalizing held with
  | nil => simp
  | cons e entries ih =>
    rw [List.forall_mem_cons] at h
    have hstep : x ∈ Entry.apply held e ↔ x ∈ held ∧ e.deletes ≠ some x := by
      unfold Entry.apply
      rw [h.1]
      cases e.deletes with
      | none => simp
      | some y => simp [and_comm, eq_comm]
    rw [List.foldl_cons, ih h.2, hstep, List.forall_mem_cons, and_assoc]

/-! ## Documents -/

structure Wanted where
  capabilities : List (Text × Text)
  applications : List (Text × Application)
deriving DecidableEq

def Wanted.objects (w : Wanted) : Finset AuthentikObject :=
  objectsOf (w.capabilities.map Prod.fst) (w.applications.map Prod.fst)

/-- The objects of an accepted document: its blueprint can be said. -/
def wantedBy (site : Site F) (effective : Object F) : Option Wanted :=
  match desiredCapabilities site effective, desiredApplications site effective with
  | .ok capabilities, .ok applications =>
    match (byName capabilities).mapM groupEntry, (byName applications).mapM applicationEntries with
    | .ok _, .ok _ => some ⟨capabilities, applications⟩
    | _, _ => none
  | _, _ => none

def wanted (site : Site F) : Plain F → Option Wanted
  | .object effective => wantedBy site effective
  | _ => none

/-! ## Effects of the entries -/

theorem mem_byName {α : Type} {items : List (Text × α)} {item : Text × α} :
    item ∈ byName items ↔ item ∈ items := List.mem_mergeSort

theorem mem_sorted {name : Text} : name ∈ sorted names ↔ name ∈ names :=
  List.mem_mergeSort

theorem groupEntry_ok {capability : Text × Text} {entry : Entry}
    (h : groupEntry capability = .ok entry) : entry = .group capability.1 capability.2 := by
  obtain ⟨name, hname, h⟩ := bind_ok h
  obtain ⟨serviceId, hservice, h⟩ := bind_ok h
  cases h
  rw [quoted_ok hname, quoted_ok hservice]

theorem applicationEntries_ok {app : Text × Application}
    (h : applicationEntries app = .ok entries) :
    ∃ admin, entries = [.application app.1 app.2.name app.2.launchUrl,
      .binding app.1 0 app.2.capability, .binding app.1 1 admin] := by
  obtain ⟨slug, hslug, h⟩ := bind_ok h
  obtain ⟨name, hname, h⟩ := bind_ok h
  obtain ⟨url, hurl, h⟩ := bind_ok h
  obtain ⟨capability, hcapability, h⟩ := bind_ok h
  obtain ⟨admin, -, h⟩ := bind_ok h
  cases h
  rw [quoted_ok hslug, quoted_ok hname, quoted_ok hurl, quoted_ok hcapability]
  exact ⟨admin, rfl⟩

/-- The entries put the wanted objects in place and take away what only the manifest names. -/
def Says (w : Wanted) (listed : Finset AuthentikObject) (entries : List Entry) : Prop :=
  ∀ held x, x ∈ entries.foldl Entry.apply held ↔ x ∈ w.objects ∨ (x ∈ held ∧ x ∉ listed)

theorem says_of_parts {w : Wanted} {previousGroups previousApps : List Text}
    {groups : List Entry} {apps : List (List Entry)}
    (hgroups : (byName w.capabilities).mapM groupEntry = .ok groups)
    (happs : (byName w.applications).mapM applicationEntries = .ok apps) :
    Says w (objectsOf previousGroups previousApps) (groups ++ apps.flatten ++
      (sorted (previousApps.filter (· ∉ w.applications.map Prod.fst))).map .absentApplication ++
      (sorted (previousGroups.filter (· ∉ w.capabilities.map Prod.fst))).map .absentGroup) := by
  have hgroup := mapM_ok hgroups
  have happ := mapM_ok happs
  have hcreating : ∀ e ∈ groups ++ apps.flatten, e.deletes = none := by
    intro e he
    rcases List.mem_append.mp he with hmem | hmem
    · obtain ⟨capability, -, hentry⟩ := exists_left hgroup hmem
      rw [groupEntry_ok hentry]
      rfl
    · obtain ⟨block, hblock, he⟩ := List.mem_flatten.mp hmem
      obtain ⟨app, -, hentries⟩ := exists_left happ hblock
      obtain ⟨admin, rfl⟩ := applicationEntries_ok hentries
      simp only [List.mem_cons, List.not_mem_nil, or_false] at he
      rcases he with rfl | rfl | rfl <;> rfl
  have hcreated : ∀ x, (∃ e ∈ groups ++ apps.flatten, e.creates = some x) ↔ x ∈ w.objects := by
    intro x
    rw [Wanted.objects, mem_objectsOf]
    constructor
    · rintro ⟨e, he, hcreates⟩
      rcases List.mem_append.mp he with hmem | hmem
      · obtain ⟨capability, hcapability, hentry⟩ := exists_left hgroup hmem
        rw [groupEntry_ok hentry] at hcreates
        exact .inl ⟨capability.1, List.mem_map_of_mem (mem_byName.mp hcapability),
          Option.some.inj hcreates⟩
      · obtain ⟨block, hblock, he⟩ := List.mem_flatten.mp hmem
        obtain ⟨app, happ', hentries⟩ := exists_left happ hblock
        obtain ⟨admin, rfl⟩ := applicationEntries_ok hentries
        simp only [List.mem_cons, List.not_mem_nil, or_false] at he
        rcases he with rfl | rfl | rfl
        · exact .inr ⟨app.1, List.mem_map_of_mem (mem_byName.mp happ'), Option.some.inj hcreates⟩
        · cases hcreates
        · cases hcreates
    · rintro (⟨name, hname, rfl⟩ | ⟨slug, hslug, rfl⟩)
      · obtain ⟨capability, hcapability, rfl⟩ := List.mem_map.mp hname
        obtain ⟨e, he, hentry⟩ := exists_right hgroup (mem_byName.mpr hcapability)
        refine ⟨e, List.mem_append_left _ he, ?_⟩
        rw [groupEntry_ok hentry]
        rfl
      · obtain ⟨app, happ', rfl⟩ := List.mem_map.mp hslug
        obtain ⟨block, hblock, hentries⟩ := exists_right happ (mem_byName.mpr happ')
        obtain ⟨admin, rfl⟩ := applicationEntries_ok hentries
        exact ⟨_, List.mem_append_right _ (List.mem_flatten.mpr ⟨_, hblock, List.mem_cons_self⟩), rfl⟩
  intro held x
  rw [List.append_assoc, List.foldl_append, mem_apply_deleting, mem_apply_creating hcreating,
    hcreated]
  · -- an absent entry is one of the manifest that the document does not have
    have hdeletes : (∀ e ∈ (sorted (previousApps.filter
          (· ∉ w.applications.map Prod.fst))).map Entry.absentApplication ++
        (sorted (previousGroups.filter (· ∉ w.capabilities.map Prod.fst))).map Entry.absentGroup,
          e.deletes ≠ some x) ↔ (x ∈ objectsOf previousGroups previousApps → x ∈ w.objects) := by
      rw [Wanted.objects, mem_objectsOf, mem_objectsOf]
      simp only [List.mem_append, List.mem_map, mem_sorted, List.mem_filter, decide_eq_true_eq]
      constructor
      · rintro h (⟨name, hname, rfl⟩ | ⟨slug, hslug, rfl⟩)
        · by_contra hnot
          refine h (.absentGroup name) (.inr ⟨name, ⟨hname, fun hmem => ?_⟩, rfl⟩) rfl
          exact hnot (.inl ⟨name, hmem, rfl⟩)
        · by_contra hnot
          refine h (.absentApplication slug) (.inl ⟨slug, ⟨hslug, fun hmem => ?_⟩, rfl⟩) rfl
          exact hnot (.inr ⟨slug, hmem, rfl⟩)
      · rintro h e (⟨slug, ⟨hslug, hnew⟩, rfl⟩ | ⟨name, ⟨hname, hnew⟩, rfl⟩) hdeletes
        · obtain rfl := Option.some.inj hdeletes
          rcases h (.inr ⟨slug, hslug, rfl⟩) with ⟨_, -, heq⟩ | ⟨slug', hmem, heq⟩
          · cases heq
          · cases heq
            exact hnew hmem
        · obtain rfl := Option.some.inj hdeletes
          rcases h (.inl ⟨name, hname, rfl⟩) with ⟨name', hmem, heq⟩ | ⟨_, -, heq⟩
          · cases heq
            exact hnew hmem
          · cases heq
    rw [hdeletes]
    tauto
  · intro e he
    rcases List.mem_append.mp he with hmem | hmem
    · obtain ⟨slug, -, rfl⟩ := List.mem_map.mp hmem
      rfl
    · obtain ⟨name, -, rfl⟩ := List.mem_map.mp hmem
      rfl

structure Lists (site : Site F) (previous : Object F) (listed : Finset AuthentikObject) : Prop where
  names : ∃ groups applications, previousObjects site previous = .ok (groups, applications) ∧
    objectsOf groups applications = listed ∧ (∀ name ∈ groups, isCapability name = true) ∧
    ∀ slug ∈ applications, isSlug slug = true

/-- The blueprint of an accepted document can be rendered over every manifest, and says how to get
from the objects of the manifest to those of the document. -/
theorem renderBlueprint_cases {site : Site F} {effective previous : Object F}
    {listed : Finset AuthentikObject} (h : Lists site previous listed) :
    (wantedBy site effective = none ∧ ∃ e, renderBlueprint site effective previous = .error e) ∨
      ∃ w entries, wantedBy site effective = some w ∧
        renderBlueprint site effective previous =
          .ok (entries, manifestOf w.capabilities w.applications) ∧
        Says w listed entries ∧ SafeNames isCapability (w.capabilities.map Prod.fst) ∧
        SafeNames isSlug (w.applications.map Prod.fst) := by
  obtain ⟨previousGroups, previousApps, hprevious, rfl, hsafeGroups, hsafeApps⟩ := h.names
  unfold wantedBy renderBlueprint
  rw [hprevious]
  cases hcapabilities : desiredCapabilities site effective with
  | error e => exact .inl ⟨rfl, e, rfl⟩
  | ok capabilities =>
    cases happlications : desiredApplications site effective with
    | error e => exact .inl ⟨rfl, e, rfl⟩
    | ok applications =>
      dsimp only
      cases hgroups : (byName capabilities).mapM groupEntry with
      | error e =>
        refine .inl ⟨rfl, e, ?_⟩
        show ((byName capabilities).mapM groupEntry >>= _) = _
        rw [hgroups]
        rfl
      | ok groups =>
        cases happs : (byName applications).mapM applicationEntries with
        | error e =>
          refine .inl ⟨rfl, e, ?_⟩
          show ((byName capabilities).mapM groupEntry >>= fun _ ↦
            (byName applications).mapM applicationEntries >>= _) = _
          rw [hgroups, happs]
          rfl
        | ok apps =>
          refine .inr ⟨⟨capabilities, applications⟩, _, rfl, ?_,
            says_of_parts hgroups happs, desiredCapabilities_safe hcapabilities,
            desiredApplications_safe happlications⟩
          have hstaleApps : ∀ slug ∈ sorted (previousApps.filter (· ∉ applications.map Prod.fst)),
              quoted slug = .ok slug := fun slug hslug =>
            quoted_name (slugChar (hsafeApps slug (List.mem_filter.mp (mem_sorted.mp hslug)).1))
          have hstaleGroups : ∀ name ∈ sorted (previousGroups.filter (· ∉ capabilities.map Prod.fst)),
              quoted name = .ok name := fun name hname =>
            quoted_name (capabilityChar
              (hsafeGroups name (List.mem_filter.mp (mem_sorted.mp hname)).1))
          show ((byName capabilities).mapM groupEntry >>= fun _ ↦
            (byName applications).mapM applicationEntries >>= fun _ ↦ _ >>= fun _ ↦ _ >>= _) = _
          rw [hgroups, happs, mapM_quoted hstaleApps, mapM_quoted hstaleGroups]
          rfl

/-! ## Runs -/

/-- The three files of the script and the objects in Authentik. -/
structure World (F : Type) where
  blueprint : Option (List Entry)
  nextManifest : Option (Plain F)
  manifest : Option (Plain F)
  authentik : Finset AuthentikObject

def World.start : World F := ⟨none, none, none, ∅⟩

inductive Command (F : Type) where
  | writeBlueprint (entries : List Entry)
  | writeNext (manifest : Object F)
  | applyBlueprint
  | writeManifest
  | removeNext

/-- How a command ends: `late` is a failure or a kill behind its effect. -/
inductive Reply where
  | done
  | failed
  | late
deriving DecidableEq, Repr

def jsonObject : Option (Plain F) → Except BlueprintError (Object F)
  | some (.object o) => .ok o
  | some _ => .error .notAnObject
  | none => .error .missingInput

/-- `_json_object` with `missing_ok`. -/
def jsonObjectOrEmpty : Option (Plain F) → Except BlueprintError (Object F)
  | none => .ok []
  | file => jsonObject file

/-- What `commit_manifest` writes. -/
def committed (site : Site F) (next : Option (Plain F)) : Except BlueprintError (Plain F) := do
  let manifest ← jsonObject next
  if !(find "schemaVersion".toList manifest).any (eq site.float · (number 1)) then
    .error .unsupportedManifest
  else do
    let _ ← previousObjects site manifest
    .ok (stored (.object manifest))

/-- The effect of a command, `none` where it refuses. -/
def Command.effect (site : Site F) (w : World F) : Command F → Option (World F)
  | .writeBlueprint entries => some { w with blueprint := some entries }
  | .writeNext manifest => some { w with nextManifest := some (stored (.object manifest)) }
  | .applyBlueprint => w.blueprint.map fun entries ↦
      { w with authentik := entries.foldl Entry.apply w.authentik }
  | .writeManifest => (committed site w.nextManifest).toOption.map fun manifest ↦
      { w with manifest := some manifest }
  | .removeNext => some { w with nextManifest := none }

def commandSemantics (site : Site F) : Script.Semantics (Command F) Reply (World F) where
  exec c r w := match r with
    | .failed => w
    | _ => (c.effect site w).getD w
  status c r w := match r with
    | .done => if (c.effect site w).isSome then 0 else 1
    | _ => 1

/-- `generate` up to its first effect. -/
def generate (site : Site F) (effective : Plain F) (w : World F) :
    Except BlueprintError (List Entry × Object F) := do
  let effective ← jsonObject (some effective)
  let previous ← jsonObjectOrEmpty w.manifest
  renderBlueprint site effective previous

/-- A run of the script over a document, with the replies up to a kill. -/
structure Run (F : Type) where
  document : Plain F
  replies : List Reply

def reconcile (site : Site F) (w : World F) (run : Run F) : Script.Outcome (Command F) (World F) :=
  match generate site run.document w with
  | .error _ => .stopped ⟨w, 1, []⟩
  | .ok (entries, manifest) =>
    Script.run (commandSemantics site) 143
      [.writeBlueprint entries, .writeNext manifest, .applyBlueprint, .writeManifest, .removeNext]
      run.replies w

def outcomeState {C S : Type} : Script.Outcome C S → S
  | .stopped stop => stop.state
  | .finished state => state

def afterRuns (site : Site F) (history : List (Run F)) : World F :=
  history.foldl (fun w run ↦ outcomeState (reconcile site w run)) .start

/-- How far the replies let a run come. -/
def extent : List Reply → Ledger.Extent
  | .done :: .done :: .done :: .done :: _ | .done :: .done :: .done :: .late :: _ => .recorded
  | .done :: .done :: .done :: _ | .done :: .done :: .late :: _ => .applied
  | _ => .nothing

def round (site : Site F) (run : Run F) : Ledger.Round AuthentikObject :=
  match wanted site run.document with
  | none => ⟨∅, .nothing⟩
  | some w => ⟨w.objects, extent run.replies⟩

variable {site : Site F} {w w' : World F} {c : Command F} {cs : List (Command F)} {rs : List Reply}

theorem run_done (h : c.effect site w = some w') :
    Script.run (commandSemantics site) 143 (c :: cs) (.done :: rs) w =
      Script.run (commandSemantics site) 143 cs rs w' := by
  have hstatus : (commandSemantics site).status c .done w = 0 := by
    show (if (c.effect site w).isSome then 0 else 1) = 0
    rw [h]
    rfl
  have hexec : (commandSemantics site).exec c .done w = w' := by
    show (c.effect site w).getD w = w'
    rw [h]
    rfl
  rw [Script.run, if_pos hstatus, hexec]

theorem run_late (h : c.effect site w = some w') :
    Script.run (commandSemantics site) 143 (c :: cs) (.late :: rs) w = .stopped ⟨w', 1, c :: cs⟩ := by
  show Script.Outcome.stopped ⟨(c.effect site w).getD w, 1, c :: cs⟩ = _
  rw [h]
  rfl

structure IsManifest (o : Object F) (groups applications : List Text) : Prop where
  version : find "schemaVersion".toList o = some (number 1)
  groups : find "groups".toList o = some (.array (groups.map fun name ↦ .scalar (.string name)))
  applications : find "applications".toList o =
    some (.array (applications.map fun slug ↦ .scalar (.string slug)))

theorem storedItems_texts (names : List Text) :
    storedItems (names.map fun name ↦ (.scalar (.string name) : Plain F)) =
      names.map fun name ↦ .scalar (.string name) := by
  induction names with
  | nil => rfl
  | cons name names ih => rw [List.map_cons, storedItems, ih, stored]

theorem IsManifest.stored
    (h : IsManifest o groups applications) : IsManifest (storedEntries o) groups applications where
  version := by
    rw [find_storedEntries, h.version]
    rfl
  groups := by
    rw [find_storedEntries, h.groups, Option.map_some, Spec.stored, storedItems_texts]
  applications := by
    rw [find_storedEntries, h.applications, Option.map_some, Spec.stored, storedItems_texts]

theorem isManifest_manifestOf (capabilities : List (Text × Text)) (apps : List (Text × Application)) :
    IsManifest (manifestOf capabilities apps : Object F) (sorted (capabilities.map Prod.fst))
      (sorted (apps.map Prod.fst)) where
  version := rfl
  groups := by
    have hversion : "groups".toList ≠ "schemaVersion".toList := by decide
    exact (find_cons ..).trans ((if_neg hversion).trans ((find_cons ..).trans (if_pos rfl)))
  applications := by
    have hversion : "applications".toList ≠ "schemaVersion".toList := by decide
    have hgroups : "applications".toList ≠ "groups".toList := by decide
    exact (find_cons ..).trans ((if_neg hversion).trans ((find_cons ..).trans ((if_neg hgroups).trans
      ((find_cons ..).trans (if_pos rfl)))))

theorem IsManifest.version_eq (h : IsManifest o groups applications) (float : FloatEq F) :
    (find "schemaVersion".toList o).any (eq float · (number 1)) = true := by
  rw [h.version]
  rfl

theorem SafeNames.sorted {test : Text → Bool} (h : SafeNames test names) :
    SafeNames test (sorted names) where
  nodup := (List.mergeSort_perm _ _).nodup_iff.mpr h.nodup
  safe name hname := h.safe name (mem_sorted.mp hname)

theorem IsManifest.previousObjects
    (h : IsManifest o groups applications) (hgroups : SafeNames isCapability groups)
    (happs : SafeNames isSlug applications) :
    previousObjects site o = .ok (groups, applications) := by
  have hne : o.isEmpty = false := by
    cases o with
    | nil => exact nomatch h.version
    | cons => rfl
  unfold Authentik.previousObjects
  rw [hne, if_neg Bool.false_ne_true, h.version_eq, if_neg (by decide)]
  unfold listAt
  rw [h.groups, h.applications]
  dsimp only
  rw [safeNames_map hgroups, safeNames_map happs]

/-- The world stands for a state of the ledger. -/
structure Tracks (site : Site F) (w : World F) (l : Ledger.State AuthentikObject) : Prop where
  authentik : w.authentik = l.present
  manifest : ∃ previous, jsonObjectOrEmpty w.manifest = .ok previous ∧ Lists site previous l.listed

theorem Tracks.start : Tracks site .start Ledger.State.start where
  authentik := rfl
  manifest := ⟨[], rfl, ⟨[], [], rfl, rfl, nofun, nofun⟩⟩

theorem committed_manifestOf (site : Site F) {v : Wanted}
    (hgroups : SafeNames isCapability (v.capabilities.map Prod.fst))
    (happs : SafeNames isSlug (v.applications.map Prod.fst)) :
    ∃ manifest, committed site (some (stored (.object (manifestOf v.capabilities v.applications)))) =
        .ok (.object manifest) ∧ Lists site manifest v.objects := by
  have hmanifest := isManifest_manifestOf (F := F) v.capabilities v.applications
  have hnext := hmanifest.stored
  refine ⟨_, ?_, ⟨_, _, hnext.stored.previousObjects hgroups.sorted happs.sorted, ?_,
    hgroups.sorted.safe, happs.sorted.safe⟩⟩
  · rw [stored]
    unfold committed jsonObject
    dsimp only [bind, Except.bind]
    rw [hnext.version_eq, if_neg (by decide), hnext.previousObjects hgroups.sorted happs.sorted]
    dsimp only
    rw [stored]
  · ext x
    rw [Wanted.objects, mem_objectsOf, mem_objectsOf]
    simp only [mem_sorted]

/-- What an extent leaves of a run. -/
def Leaves (w : World F) (applied : Finset AuthentikObject) (manifest : Plain F)
    (outcome : Script.Outcome (Command F) (World F)) : Ledger.Extent → Prop
  | .nothing => (outcomeState outcome).authentik = w.authentik ∧
      (outcomeState outcome).manifest = w.manifest
  | .applied => (outcomeState outcome).authentik = applied ∧
      (outcomeState outcome).manifest = w.manifest
  | .recorded => (outcomeState outcome).authentik = applied ∧
      (outcomeState outcome).manifest = some manifest

theorem commands_leave (w : World F) (rs : List Reply) (entries : List Entry) {next : Object F} {manifest : Plain F}
    (hcommitted : committed site (some (stored (.object next))) = .ok manifest) :
    let outcome := Script.run (commandSemantics site) 143
      [.writeBlueprint entries, .writeNext next, .applyBlueprint, .writeManifest, .removeNext] rs w
    Leaves w (entries.foldl Entry.apply w.authentik) manifest outcome (extent rs) ∧
      ∀ w', outcome = .finished w' → extent rs = .recorded := by
  dsimp only
  set w₁ : World F := { w with blueprint := some entries }
  set w₂ : World F := { w₁ with nextManifest := some (stored (.object next)) }
  set w₃ : World F := { w₂ with authentik := entries.foldl Entry.apply w.authentik }
  set w₄ : World F := { w₃ with manifest := some manifest }
  have hblueprint : (Command.writeBlueprint entries).effect site w = some w₁ := rfl
  have hnext : (Command.writeNext next).effect site w₁ = some w₂ := rfl
  have happly : Command.applyBlueprint.effect site w₂ = some w₃ := rfl
  have hrecord : Command.writeManifest.effect site w₃ = some w₄ := by
    show (committed site (some (stored (.object next)))).toOption.map _ = _
    rw [hcommitted]
    rfl
  match rs with
  | [] => exact ⟨⟨rfl, rfl⟩, nofun⟩
  | .failed :: rs => exact ⟨⟨rfl, rfl⟩, nofun⟩
  | .late :: rs => exact ⟨⟨rfl, rfl⟩, nofun⟩
  | .done :: rs =>
    rw [run_done hblueprint]
    match rs with
    | [] => exact ⟨⟨rfl, rfl⟩, nofun⟩
    | .failed :: rs => exact ⟨⟨rfl, rfl⟩, nofun⟩
    | .late :: rs => exact ⟨⟨rfl, rfl⟩, nofun⟩
    | .done :: rs =>
      rw [run_done hnext]
      match rs with
      | [] => exact ⟨⟨rfl, rfl⟩, nofun⟩
      | .failed :: rs => exact ⟨⟨rfl, rfl⟩, nofun⟩
      | .late :: rs =>
        rw [run_late happly]
        exact ⟨⟨rfl, rfl⟩, nofun⟩
      | .done :: rs =>
        rw [run_done happly]
        match rs with
        | [] => exact ⟨⟨rfl, rfl⟩, nofun⟩
        | .failed :: rs => exact ⟨⟨rfl, rfl⟩, nofun⟩
        | .late :: rs =>
          rw [run_late hrecord]
          exact ⟨⟨rfl, rfl⟩, fun _ _ => rfl⟩
        | .done :: rs =>
          rw [run_done hrecord]
          -- the manifest stands, whatever becomes of the file that it was made of
          match rs with
          | [] => exact ⟨⟨rfl, rfl⟩, fun _ _ => rfl⟩
          | .failed :: rs => exact ⟨⟨rfl, rfl⟩, fun _ _ => rfl⟩
          | .late :: rs => exact ⟨⟨rfl, rfl⟩, fun _ _ => rfl⟩
          | .done :: rs => exact ⟨⟨rfl, rfl⟩, fun _ _ => rfl⟩

theorem generate_cases (h : Tracks site w l) (document : Plain F) :
    (wanted site document = none ∧ ∃ e, generate site document w = .error e) ∨
      ∃ v entries, wanted site document = some v ∧
        generate site document w = .ok (entries, manifestOf v.capabilities v.applications) ∧
        Says v l.listed entries ∧ SafeNames isCapability (v.capabilities.map Prod.fst) ∧
        SafeNames isSlug (v.applications.map Prod.fst) := by
  obtain ⟨previous, hprevious, hlists⟩ := h.manifest
  unfold generate
  rw [hprevious]
  cases document with
  | scalar => exact .inl ⟨rfl, _, rfl⟩
  | array => exact .inl ⟨rfl, _, rfl⟩
  | object effective => exact renderBlueprint_cases hlists

theorem Tracks.step (h : Tracks site w l) (run : Run F) :
    Tracks site (outcomeState (reconcile site w run)) (l.step (round site run)) ∧
      ∀ w', reconcile site w run = .finished w' →
        ∃ v, wanted site run.document = some v ∧ round site run = ⟨v.objects, .recorded⟩ := by
  unfold reconcile round
  rcases generate_cases h run.document with ⟨hnone, e, he⟩ | ⟨v, entries, hsome, he, heffect, hgroups, happs⟩
  · rw [he, hnone]
    exact ⟨h, nofun⟩
  · obtain ⟨manifest, hcommitted, hlists⟩ := committed_manifestOf site hgroups happs
    obtain ⟨hleaves, hfinished⟩ := commands_leave w run.replies entries hcommitted
    have happlied : entries.foldl Entry.apply w.authentik = l.apply v.objects := by
      ext x
      rw [heffect, Ledger.mem_apply, h.authentik]
    rw [he, hsome]
    dsimp only
    refine ⟨?_, fun w' hrun => ⟨v, rfl, by rw [hfinished w' hrun]⟩⟩
    unfold Ledger.State.step
    dsimp only
    cases hextent : extent run.replies with
    | nothing =>
      rw [hextent] at hleaves
      exact ⟨hleaves.1.trans h.authentik, by rw [hleaves.2]; exact h.manifest⟩
    | applied =>
      rw [hextent] at hleaves
      exact ⟨hleaves.1.trans happlied, by rw [hleaves.2]; exact h.manifest⟩
    | recorded =>
      rw [hextent] at hleaves
      exact ⟨hleaves.1.trans happlied, ⟨manifest, by rw [hleaves.2]; rfl, hlists⟩⟩

theorem tracks_afterRuns (site : Site F) (history : List (Run F)) :
    Tracks site (afterRuns site history) (Ledger.run (history.map (round site))) := by
  induction history using List.reverseRecOn with
  | nil => exact .start
  | append_singleton history run ih =>
    rw [afterRuns, List.foldl_concat, List.map_append, List.map_singleton, Ledger.run_concat]
    exact (ih.step run).1

/-- A run that is finished leaves exactly the objects of its document where every object is wanted
that an earlier run has applied, but not recorded, without that the manifest named it then or a
recorded run has wanted it since. -/
theorem objects_of_finished_iff (site : Site F) (history : List (Run F)) (run : Run F) {w : World F}
    (hfinished : reconcile site (afterRuns site history) run = .finished w) :
    ∃ v, wanted site run.document = some v ∧ (w.authentik = v.objects ↔
      ∀ x, Ledger.Stray (history.map (round site)) x → x ∈ v.objects) := by
  obtain ⟨hstep, hround⟩ := (tracks_afterRuns site history).step run
  obtain ⟨v, hwanted, hround⟩ := hround w hfinished
  refine ⟨v, hwanted, ?_⟩
  rw [hround] at hstep
  have hpresent := Ledger.present_eq_iff (history.map (round site))
    (r := ⟨v.objects, .recorded⟩) nofun
  rw [Ledger.run_concat, ← hstep.authentik, hfinished] at hpresent
  exact hpresent

/-! ## An interrupted run -/

def isFinished {C S : Type} : Script.Outcome C S → Bool
  | .stopped _ => false
  | .finished _ => true

theorem finished_of_isFinished {C S : Type} {outcome : Script.Outcome C S}
    (h : isFinished outcome = true) : outcome = .finished (outcomeState outcome) := by
  cases outcome with
  | stopped stop => cases h
  | finished state => rfl

def demoSite : Site Unit where
  publicHost := "nas.test".toList
  float := ⟨fun _ _ ↦ true, fun _ _ ↦ false, fun _ ↦ false, nofun⟩
  repr _ := []

/-- A document with a service and its portal route, and one without services. -/
def withDemo : Plain Unit :=
  .object [("schemaVersion".toList, number 3),
    ("services".toList, .object [("demo".toList, .object [("enabled".toList, boolean true)])]),
    ("derived".toList, .object [
      ("authorization".toList, .object [("demo".toList, .object [
        ("capabilities".toList, .object [("access".toList, text "application.demo.access")])])]),
      ("routes".toList, .array [.object [("service".toList, text "demo"), ("route".toList, text "web"),
        ("authMode".toList, text "identity"),
        ("requiredCapability".toList, text "application.demo.access"),
        ("portal".toList, .object [("visible".toList, boolean true)]),
        ("exposure".toList, .object [("type".toList, text "path"),
          ("paths".toList, .array [text "/demo/"])])]])])]

def withoutServices : Plain Unit :=
  .object [("schemaVersion".toList, number 3), ("services".toList, .object []),
    ("derived".toList, .object [("authorization".toList, .object []), ("routes".toList, .array [])])]

def allDone : List Reply := List.replicate 5 .done

/-- Killed behind the apply; the next run does not know what to remove. -/
theorem not_objects_of_finished : ¬ ∀ (site : Site Unit) (history : List (Run Unit)) (run : Run Unit)
    (w : World Unit), reconcile site (afterRuns site history) run = .finished w →
      ∃ v, wanted site run.document = some v ∧ w.authentik = v.objects := by
  intro h
  have hrun : isFinished (reconcile demoSite (afterRuns demoSite [⟨withDemo, [.done, .done, .done]⟩])
        ⟨withoutServices, allDone⟩) = true ∧
      (outcomeState (reconcile demoSite (afterRuns demoSite [⟨withDemo, [.done, .done, .done]⟩])
        ⟨withoutServices, allDone⟩)).authentik ≠ ∅ ∧
      (wanted demoSite withoutServices).map Wanted.objects = some ∅ := by decide +kernel
  obtain ⟨v, hwanted, heq⟩ := h _ _ _ _ (finished_of_isFinished hrun.1)
  have hempty := hrun.2.2
  rw [hwanted] at hempty
  exact hrun.2.1 (heq.trans (Option.some.inj hempty))

/-- Without an interruption the service goes away. -/
theorem objects_of_finished_demo :
    (outcomeState (reconcile demoSite (afterRuns demoSite [⟨withDemo, allDone⟩])
      ⟨withoutServices, allDone⟩)).authentik = ∅ := by
  have hrun : isFinished (reconcile demoSite (afterRuns demoSite [⟨withDemo, allDone⟩])
        ⟨withoutServices, allDone⟩) = true ∧
      (round demoSite ⟨withDemo, allDone⟩).extent = .recorded ∧
      (wanted demoSite withoutServices).map Wanted.objects = some ∅ := by decide +kernel
  obtain ⟨v, hwanted, hiff⟩ := objects_of_finished_iff demoSite [⟨withDemo, allDone⟩]
    ⟨withoutServices, allDone⟩ (finished_of_isFinished hrun.1)
  have hempty := hrun.2.2
  rw [hwanted] at hempty
  rw [← Option.some.inj hempty]
  apply hiff.mpr
  rintro x ⟨front, r, rest, heq, happlied, -⟩
  have hmem : r ∈ [round demoSite ⟨withDemo, allDone⟩] := by
    rw [List.map_singleton] at heq
    rw [heq]
    exact List.mem_append_right _ List.mem_cons_self
  rw [List.mem_singleton.mp hmem, hrun.2.1] at happlied
  cases happlied

end NixNas.Authentik
