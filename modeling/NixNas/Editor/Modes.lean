import NixNas.Editor.Aliases
import NixNas.Spec.Presence

/-!
# Mode edits (`set_service_modes` of `services/nas_v2_editor.py`)

The edit assigns two keys of shared objects; the written file is parsed by value.
-/

open Fallible

namespace NixNas.Editor

open Sharing (Value Graph Assignment Agree Untouched Shows Assigned IsMapping Step Shape get walk
  assign assignAll view shape)
open Spec

variable {F : Type}
variable {k : Text} {es : List (Text × String)} {document services : ℕ}

/-! ## `_set_mode` -/

inductive ModeError where
  | editor (error : EditorError Text)
  | notMapping
  | missingServices
  | unknownService (serviceId : Text)
  | missingWorkload (serviceId : Text)
  | unknownMode
  | notDaemon
  | missingIdleSeconds
  deriving DecidableEq, Repr

/-- `isinstance(value, dict)`. -/
def asMapping (g : YamlGraph F) (v : Option (YamlValue F)) : Option ℕ :=
  match v with
  | some (.ref a) =>
    match g.node a with
    | .mapping _ _ => some a
    | .sequence _ => none
  | _ => none

def isTextValue (v : Option (YamlValue F)) (name : String) : Bool :=
  match v with
  | some (.scalar (.string t)) => t = name.toList
  | _ => false

/-- `isinstance(value, int) and value > 0`. -/
def isPositiveValue (v : Option (YamlValue F)) : Bool :=
  match v with
  | some (.scalar value) => (asInt value).any fun n ↦ decide (0 < n)
  | _ => false

def enabledKey : Text := "enabled".toList

def activationKey : Text := "activation".toList

def workloadKey : Text := "workload".toList

def servicesKey : Text := "services".toList

def isDaemon (g : YamlGraph F) (workload : ℕ) : Bool :=
  isTextValue (get g workload "kind".toList) "daemon"

def setEnabled (service : ℕ) (enabled : Bool) : Assignment ℕ Text (Scalar F) :=
  ⟨service, enabledKey, .boolean enabled⟩

def setActivation (workload : ℕ) (activation : String) : Assignment ℕ Text (Scalar F) :=
  ⟨workload, activationKey, .string activation.toList⟩

def setMode (g : YamlGraph F) (serviceId : Text) (service : Option (YamlValue F)) (mode : String) :
    Except ModeError (YamlGraph F) :=
  match asMapping g service with
  | none => .error (.unknownService serviceId)
  | some service =>
    match asMapping g (get g service workloadKey) with
    | none => .error (.missingWorkload serviceId)
    | some workload =>
      if mode = "off" then .ok (assign g (setEnabled service false))
      else if mode = "always" then
        let g := assign g (setEnabled service true)
        if isDaemon g workload then .ok (assign g (setActivation workload "persistent")) else .ok g
      else if mode ≠ "on-demand" then .error .unknownMode
      else if !isDaemon g workload then .error .notDaemon
      else if !isPositiveValue (get g workload "idleSeconds".toList) then .error .missingIdleSeconds
      else .ok (assign (assign g (setEnabled service true)) (setActivation workload "on-demand"))

/-! ## `set_service_modes` -/

/-- `sorted(modes.items())`. -/
def sortedModes (modes : List (Text × String)) : List (Text × String) :=
  modes.mergeSort fun a b ↦ decide (a.1 ≤ b.1)

def editModes (g : YamlGraph F) (modes : List (Text × String)) : Except ModeError (YamlGraph F) :=
  match asMapping g (some g.root) with
  | none => .error .notMapping
  | some document =>
    match asMapping g (get g document servicesKey) with
    | none => .error .missingServices
    | some services =>
      (sortedModes modes).foldlM (fun g e ↦ setMode g e.1 (get g services e.1) e.2) g

structure ModesSet where
  changed : List Text
  effectiveModes : List (Text × String)

def Environment.withYaml (env : Environment F) (y : Yaml F) : Environment F :=
  { env with load := y.load }

/-- `set_service_modes`: what it returns and the new authority. -/
def Modes.setServiceModes (env : Environment F) (y : Yaml F) (modes : List (Text × String))
    (authority : Option ByteArray) : Except ModeError (ModesSet × Option ByteArray) :=
  if modes = [] then .ok (⟨[], []⟩, authority)
  else do
    let text ← (readText authority).mapError .editor
    let g ← (y.compose text).mapError fun e ↦ .editor (.unparsable e)
    let g' ← editModes g modes
    let rendered := y.dump g'
    let effective ← (validateText (env.withYaml y).pipeline rendered).mapError fun e ↦
      .editor (.invalid e)
    let services := asObject (find "services".toList effective)
    .ok (⟨(sortedModes modes).map Prod.fst, (sortedModes modes).map fun e ↦
      (e.1, desiredMode (asObject (find e.1 services)))⟩, atomicReplace rendered)

/-! ## What a mode edit should do -/

/-- `enabled` and `workload.activation` of a named service, and what is below. -/
def IsModeField (modes : List (Text × String)) (path : List (Step Text)) : Prop :=
  ∃ e ∈ modes, [.key servicesKey, .key e.1, .key enabledKey] <+: path ∨
    [.key servicesKey, .key e.1, .key workloadKey, .key activationKey] <+: path

/-- The named services have their modes and nothing else has changed. -/
structure OnlyModes (modes : List (Text × String)) (old new : Object F) : Prop where
  named : ∀ e ∈ modes, ∃ service,
    find e.1 (asObject (find "services".toList new)) = some (.object service) ∧
      desiredMode service = e.2
  others : ∀ path, ¬ IsModeField modes path →
    plainView path (.object new) = plainView path (.object old)

/-! ## The assignments -/

def serviceNodes (g : YamlGraph F) (serviceId : Text) : Option (ℕ × ℕ) := do
  let document ← asMapping g (some g.root)
  let services ← asMapping g (get g document servicesKey)
  let service ← asMapping g (get g services serviceId)
  let workload ← asMapping g (get g service workloadKey)
  some (service, workload)

def modeAssignments (service workload : ℕ) (daemon : Bool) (mode : String) :
    List (Assignment ℕ Text (Scalar F)) :=
  if mode = "off" then [setEnabled service false]
  else if mode = "on-demand" then [setEnabled service true, setActivation workload "on-demand"]
  else if daemon then [setEnabled service true, setActivation workload "persistent"]
  else [setEnabled service true]

def assignmentsOf (g : YamlGraph F) (e : Text × String) : List (Assignment ℕ Text (Scalar F)) :=
  match serviceNodes g e.1 with
  | some (service, workload) => modeAssignments service workload (isDaemon g workload) e.2
  | none => []

def assignments (g : YamlGraph F) (modes : List (Text × String)) :
    List (Assignment ℕ Text (Scalar F)) :=
  (sortedModes modes).flatMap (assignmentsOf g)

/-! ## One edit -/

variable {g g' h : YamlGraph F} {v : Option (YamlValue F)} {a service workload : ℕ}
  {ws : List (Assignment ℕ Text (Scalar F))} {mode : String} {serviceId : Text}
  {modes : List (Text × String)}

theorem asMapping_iff : asMapping g v = some a ↔ v = some (.ref a) ∧ IsMapping g a := by
  cases v with
  | none => exact iff_of_false nofun fun h => nomatch h.1
  | some value =>
    cases value with
    | scalar => exact iff_of_false nofun fun h => nomatch h.1
    | ref b =>
      have hread : asMapping g (some (.ref b)) = match g.node b with
        | .mapping _ _ => some b
        | .sequence _ => none := rfl
      rw [hread, Option.some.injEq, Value.ref.injEq]
      cases hnode : g.node b with
      | sequence items =>
        refine iff_of_false nofun ?_
        rintro ⟨rfl, own, merged, hmapping⟩
        cases hnode.symm.trans hmapping
      | mapping own merged =>
        refine ⟨fun heq => ?_, fun heq => congrArg some heq.1⟩
        cases heq
        exact ⟨rfl, own, merged, hnode⟩

theorem asMapping_assignAll : asMapping (assignAll g ws) v = asMapping g v := by
  apply Option.ext
  intro b
  rw [asMapping_iff, asMapping_iff, Sharing.isMapping_assignAll]

/-- The assignments of an edit: existing mappings and the two keys. -/
def IsEdit (g : YamlGraph F) (ws : List (Assignment ℕ Text (Scalar F))) : Prop :=
  ∀ w ∈ ws, IsMapping g w.node ∧ (w.key = enabledKey ∨ w.key = activationKey)

theorem IsEdit.isMapping (hws : IsEdit g ws) : ∀ w ∈ ws, IsMapping g w.node :=
  fun w hw => (hws w hw).1

theorem IsEdit.get (hws : IsEdit g ws) (hk : k ≠ enabledKey ∧ k ≠ activationKey) :
    Sharing.get (assignAll g ws) a k = Sharing.get g a k := by
  apply Sharing.get_assignAll_of_ne hws.isMapping
  intro w hw heq
  obtain hkey | hkey := (hws w hw).2
  · exact hk.1 (heq.symm.trans hkey)
  · exact hk.2 (heq.symm.trans hkey)

theorem isDaemon_assignAll (hws : IsEdit g ws) : isDaemon (assignAll g ws) a = isDaemon g a := by
  unfold isDaemon
  rw [hws.get (by decide)]

def IsMode (mode : String) : Prop := mode = "off" ∨ mode = "always" ∨ mode = "on-demand"

theorem isEdit_modeAssignments (hservice : IsMapping g service) (hworkload : IsMapping g workload)
    (daemon : Bool) (mode : String) : IsEdit g (modeAssignments service workload daemon mode) := by
  have henabled : ∀ b, IsMapping g (setEnabled (F := F) service b).node ∧
      ((setEnabled (F := F) service b).key = enabledKey ∨
        (setEnabled (F := F) service b).key = activationKey) := fun _ => ⟨hservice, .inl rfl⟩
  have hactivation : ∀ name, IsMapping g (setActivation (F := F) workload name).node ∧
      ((setActivation (F := F) workload name).key = enabledKey ∨
        (setActivation (F := F) workload name).key = activationKey) :=
    fun _ => ⟨hworkload, .inr rfl⟩
  unfold modeAssignments IsEdit
  split
  · exact List.forall_mem_singleton.mpr (henabled false)
  · split
    · exact List.forall_mem_cons.mpr ⟨henabled true, List.forall_mem_singleton.mpr (hactivation _)⟩
    · split
      · exact List.forall_mem_cons.mpr ⟨henabled true, List.forall_mem_singleton.mpr (hactivation _)⟩
      · exact List.forall_mem_singleton.mpr (henabled true)

/-- What `_set_mode` does when it raises nothing. -/
theorem setMode_ok (h : setMode g serviceId v mode = .ok g') :
    ∃ service workload, asMapping g v = some service ∧
      asMapping g (get g service workloadKey) = some workload ∧ IsMode mode ∧
      (mode = "on-demand" → isDaemon g workload = true) ∧
      g' = assignAll g (modeAssignments service workload (isDaemon g workload) mode) := by
  unfold setMode at h
  cases hservice : asMapping g v with
  | none =>
    rw [hservice] at h
    cases h
  | some service =>
    rw [hservice] at h
    dsimp only at h
    cases hworkload : asMapping g (get g service workloadKey) with
    | none =>
      rw [hworkload] at h
      cases h
    | some workload =>
      rw [hworkload] at h
      dsimp only at h
      refine ⟨service, workload, rfl, hworkload, ?_⟩
      have henabled : IsEdit g [setEnabled (F := F) service true] :=
        List.forall_mem_singleton.mpr ⟨(asMapping_iff.mp hservice).2, .inl rfl⟩
      have hdaemon : isDaemon (assign g (setEnabled service true)) workload = isDaemon g workload :=
        isDaemon_assignAll henabled
      unfold modeAssignments
      by_cases hoff : mode = "off"
      · rw [if_pos hoff] at h ⊢
        cases h
        exact ⟨.inl hoff, fun hon => absurd (hoff.symm.trans hon) (by decide), rfl⟩
      by_cases halways : mode = "always"
      · have hon : mode ≠ "on-demand" := fun hon => absurd (halways.symm.trans hon) (by decide)
        rw [if_neg hoff, if_pos halways, hdaemon] at h
        rw [if_neg hoff, if_neg hon]
        refine ⟨.inr (.inl halways), fun heq => absurd heq hon, ?_⟩
        split at h
        · rename_i hd
          cases h
          rw [if_pos hd]
          rfl
        · rename_i hd
          cases h
          rw [if_neg hd]
          rfl
      · rw [if_neg hoff, if_neg halways] at h
        by_cases hon : mode = "on-demand"
        · rw [if_neg (not_not.mpr hon)] at h
          rw [if_neg hoff, if_pos hon]
          refine ⟨.inr (.inr hon), fun _ => ?_, ?_⟩
          · by_contra hd
            rw [Bool.not_eq_true] at hd
            rw [hd, Bool.not_false, if_pos rfl] at h
            cases h
          · split at h
            · cases h
            · split at h
              · cases h
              · cases h
                rfl
        · rw [if_pos hon] at h
          cases h

/-! ## The run -/

theorem editModes_ok (h : editModes g modes = .ok g') :
    ∃ document services, asMapping g (some g.root) = some document ∧
      asMapping g (get g document servicesKey) = some services ∧
      (sortedModes modes).foldlM (fun g e ↦ setMode g e.1 (get g services e.1) e.2) g = .ok g' := by
  unfold editModes at h
  cases hdocument : asMapping g (some g.root) with
  | none =>
    rw [hdocument] at h
    cases h
  | some document =>
    rw [hdocument] at h
    dsimp only at h
    cases hservices : asMapping g (get g document servicesKey) with
    | none =>
      rw [hservices] at h
      cases h
    | some services =>
      rw [hservices] at h
      exact ⟨document, services, rfl, hservices, h⟩

theorem IsEdit.append {ws' : List (Assignment ℕ Text (Scalar F))} (hws : IsEdit g ws)
    (hws' : IsEdit (assignAll g ws) ws') : IsEdit g (ws ++ ws') := by
  intro w hw
  obtain hw | hw := List.mem_append.mp hw
  · exact hws w hw
  · exact ⟨Sharing.isMapping_assignAll.mp (hws' w hw).1, (hws' w hw).2⟩

theorem setMode_edit (h : setMode g serviceId v mode = .ok g') :
    ∃ ws, IsEdit g ws ∧ g' = assignAll g ws := by
  obtain ⟨service, workload, hservice, hworkload, -, -, rfl⟩ := setMode_ok h
  exact ⟨_, isEdit_modeAssignments (asMapping_iff.mp hservice).2 (asMapping_iff.mp hworkload).2 _ _,
    rfl⟩

theorem run_edit (h : es.foldlM (fun g e ↦ setMode g e.1 (get g a e.1) e.2) g = .ok g') :
    ∃ ws, IsEdit g ws ∧ g' = assignAll g ws := by
  induction es generalizing g with
  | nil =>
    cases h
    exact ⟨[], nofun, rfl⟩
  | cons e es ih =>
    rw [List.foldlM_cons] at h
    obtain ⟨g₁, hstep, h⟩ := bind_ok h
    obtain ⟨ws, hws, rfl⟩ := setMode_edit hstep
    obtain ⟨ws', hws', rfl⟩ := ih h
    exact ⟨ws ++ ws', hws.append hws', Sharing.assignAll_append.symm⟩

theorem IsEdit.get_ref {b : ℕ} (hws : IsEdit g ws)
    (h : Sharing.get (assignAll g ws) a k = some (.ref b)) : Sharing.get g a k = some (.ref b) := by
  obtain hsame | ⟨w, -, -, -, hget⟩ := Sharing.get_assignAll hws.isMapping a k
  · rw [← hsame, h]
  · cases h.symm.trans hget

structure Named (g : YamlGraph F) (e : Text × String) (service workload : ℕ) : Prop where
  nodes : serviceNodes g e.1 = some (service, workload)
  mode : IsMode e.2
  daemon : e.2 = "on-demand" → isDaemon g workload = true

theorem serviceNodes_iff (hdocument : asMapping g (some g.root) = some document)
    (hservices : asMapping g (get g document servicesKey) = some services) :
    serviceNodes g serviceId = some (service, workload) ↔
      asMapping g (get g services serviceId) = some service ∧
        asMapping g (get g service workloadKey) = some workload := by
  unfold serviceNodes
  rw [hdocument]
  show (asMapping g (get g document servicesKey) >>= _) = _ ↔ _
  rw [hservices]
  show (asMapping g (get g services serviceId) >>= _) = _ ↔ _
  cases asMapping g (get g services serviceId) with
  | none => exact iff_of_false nofun fun h => nomatch h.1
  | some found =>
    show (asMapping g (get g found workloadKey) >>= _) = _ ↔ _
    rw [Option.some.injEq]
    constructor
    · intro h
      cases hworkload : asMapping g (get g found workloadKey) with
      | none =>
        rw [hworkload] at h
        cases h
      | some found' =>
        rw [hworkload] at h
        cases h
        exact ⟨rfl, hworkload⟩
    · rintro ⟨rfl, hworkload⟩
      rw [hworkload]
      rfl

theorem Named.assignmentsOf {e : Text × String} (h : Named g e service workload) :
    assignmentsOf g e = modeAssignments service workload (isDaemon g workload) e.2 := by
  unfold Editor.assignmentsOf
  rw [h.nodes]

/-- When no named service ends up as a scalar, the run makes the assignments that the modes ask for
in the document before the edit. -/
theorem run_assignments (hdocument : asMapping g (some g.root) = some document)
    (hservices : asMapping g (get g document servicesKey) = some services)
    (hws : IsEdit g ws)
    (h : es.foldlM (fun g e ↦ setMode g e.1 (get g services e.1) e.2) (assignAll g ws) = .ok g')
    (hvalid : ∀ e ∈ es, ∀ value, get g' services e.1 ≠ some (.scalar value)) :
    g' = assignAll g (ws ++ es.flatMap (assignmentsOf g)) ∧
      ∀ e ∈ es, ∃ service workload, Named g e service workload := by
  induction es generalizing ws with
  | nil =>
    cases h
    exact ⟨by rw [List.flatMap_nil, List.append_nil], nofun⟩
  | cons e es ih =>
    rw [List.foldlM_cons] at h
    obtain ⟨g₁, hstep, h⟩ := bind_ok h
    rw [List.forall_mem_cons] at hvalid
    obtain ⟨service, workload, hservice, hworkload, hmode, hdaemon, rfl⟩ := setMode_ok hstep
    obtain ⟨hread, hservice'⟩ := asMapping_iff.mp hservice
    have hedit := isEdit_modeAssignments hservice' (asMapping_iff.mp hworkload).2
      (isDaemon (assignAll g ws) workload) e.2
    obtain ⟨ws', hws', hend⟩ := run_edit h
    have hrest := hedit.append hws'
    rw [← Sharing.assignAll_append] at hend
    -- the service is still there at the end, so it was there at the beginning
    have hlast : get g' services e.1 = some (.ref service) := by
      rw [hend]
      obtain hsame | ⟨w, -, -, -, hget⟩ := Sharing.get_assignAll hrest.isMapping services e.1
      · rw [hsame, hread]
      · exact absurd (hend ▸ hget) (hvalid.1 _)
    have hfirst : get g services e.1 = some (.ref service) := by
      apply (hws.append hrest).get_ref
      rw [Sharing.assignAll_append, ← hend, hlast]
    have hmapping := Sharing.isMapping_assignAll.mp hservice'
    rw [asMapping_assignAll, hws.get (by decide)] at hworkload
    rw [isDaemon_assignAll hws] at hdaemon hedit h
    have hnamed : Named g e service workload := ⟨(serviceNodes_iff hdocument hservices).mpr
      ⟨asMapping_iff.mpr ⟨hfirst, hmapping⟩, hworkload⟩, hmode, hdaemon⟩
    rw [← hnamed.assignmentsOf] at hedit h
    rw [← Sharing.assignAll_append] at h
    obtain ⟨hend', hall⟩ := ih (hws.append hedit) h hvalid.2
    refine ⟨?_, List.forall_mem_cons.mpr ⟨⟨service, workload, hnamed⟩, hall⟩⟩
    rw [hend', List.flatMap_cons, List.append_assoc]

end NixNas.Editor
