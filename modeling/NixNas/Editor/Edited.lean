import NixNas.Editor.Agreement
import NixNas.Editor.Modes

/-!
# What a mode edit changes

The written file is the old one but for the modes exactly when the assignments of the edit are not
seen from elsewhere.
-/

open Fallible

namespace NixNas.Editor

open Sharing (Value Graph Assignment Agree Untouched Shows Assigned IsMapping Step Shape get walk
  assign assignAll view shape)
open Spec

section Edited

variable {F : Type} {g g' : YamlGraph F} {a service workload : ℕ} {mode : String}
  {modes : List (Text × String)}
variable {x : Assignment ℕ Text (Scalar F)} {e : Text × String}
  {validateSchema otherRules : Object F → Except SpecError Unit}

/-! ## Reading the new document -/

variable {repr : F → Text} {d : Plain F} {o : Object F} {k : Text} {value : Scalar F}

theorem Stands.scalar_iff {x : YamlValue F} (h : Stands repr g x d) :
    d = .scalar value ↔ x = .scalar value := by
  have hshape := (h.step (.index 0)).2
  constructor
  · rintro rfl
    exact Sharing.shape_eq_scalar hshape.symm
  · rintro rfl
    cases d with
    | scalar => cases hshape; rfl
    | array => cases hshape
    | object => cases hshape

theorem Stands.find (h : Stands repr g (.ref a) (.object o)) (k : Text) :
    Option.Rel (Stands repr g) (get g a k) (Spec.find k o) := (h.step (.key k)).1

theorem Stands.find_scalar_iff (h : Stands repr g (.ref a) (.object o)) :
    Spec.find k o = some (.scalar value) ↔ get g a k = some (.scalar value) := by
  have hrel := h.find k
  generalize Sharing.get g a k = x at hrel ⊢
  generalize Spec.find k o = y at hrel ⊢
  cases hrel with
  | none => exact iff_of_false nofun nofun
  | some hstands => rw [Option.some.injEq, Option.some.injEq, hstands.scalar_iff]

theorem Stands.find_mapping (h : Stands repr g (.ref a) (.object o)) {b : ℕ}
    (hget : get g a k = some (.ref b)) (hb : IsMapping g b) :
    ∃ o', Spec.find k o = some (.object o') ∧ Stands repr g (.ref b) (.object o') := by
  have hrel := h.find k
  rw [hget] at hrel
  generalize hfind : Spec.find k o = y at hrel
  cases hrel with
  | some hstands =>
    rename_i d
    have hshape := (hstands.step (.index 0)).2
    rw [Sharing.isMapping_iff.mp hb] at hshape
    cases d with
    | scalar => cases hshape
    | array => cases hshape
    | object o' => exact ⟨o', rfl, hstands⟩

theorem isDisabled_iff : isDisabled o = true ↔ find enabledKey o = some (boolean false) := by
  unfold isDisabled enabledKey
  constructor
  · intro h
    split at h
    · assumption
    · cases h
  · intro h
    rw [h]
    rfl

/-- The mode of a service in the terms of its mappings. -/
structure ReadsMode (g : YamlGraph F) (service workload : ℕ) (o : Object F) : Prop where
  disabled : isDisabled o = true ↔ get g service enabledKey = some (.scalar (.boolean false))
  onDemand : keyIs "activation" "on-demand" (asObject (find "workload".toList o)) = true ↔
    get g workload activationKey = some (.scalar (.string "on-demand".toList))

theorem Stands.readsMode (h : Stands repr g (.ref service) (.object o))
    (hworkload : get g service workloadKey = some (.ref workload))
    (hmapping : IsMapping g workload) : ReadsMode g service workload o := by
  obtain ⟨o', hfind, hstands⟩ := h.find_mapping hworkload hmapping
  refine ⟨isDisabled_iff.trans h.find_scalar_iff, ?_⟩
  show keyIs "activation" "on-demand" (asObject (Spec.find workloadKey o)) = true ↔ _
  rw [hfind, keyIs_iff]
  exact hstands.find_scalar_iff

theorem desiredMode_off : desiredMode o = "off" ↔ isDisabled o = true := by
  unfold desiredMode
  split
  · rename_i hdisabled
    exact iff_of_true rfl hdisabled
  · rename_i hdisabled
    refine iff_of_false ?_ hdisabled
    split <;> decide

theorem desiredMode_onDemand (h : isDisabled o = false) : desiredMode o = "on-demand" ↔
    keyIs "activation" "on-demand" (asObject (find "workload".toList o)) = true := by
  unfold desiredMode
  rw [h, if_neg Bool.false_ne_true]
  split
  · rename_i hon
    exact iff_of_true rfl hon
  · rename_i hon
    exact iff_of_false (by decide) hon

theorem desiredMode_always (h : isDisabled o = false) : desiredMode o = "always" ↔
    keyIs "activation" "on-demand" (asObject (find "workload".toList o)) = false := by
  unfold desiredMode
  rw [h, if_neg Bool.false_ne_true]
  split
  · rename_i hon
    exact iff_of_false (by decide) (Bool.eq_false_iff.not.mpr (not_not.mpr hon))
  · rename_i hon
    exact iff_of_true rfl (Bool.eq_false_iff.mpr hon)

/-! ## The named services -/

theorem mem_modeAssignments {daemon : Bool} (hmode : IsMode mode)
    (hdaemon : mode = "on-demand" → daemon = true) :
    x ∈ modeAssignments service workload daemon mode ↔
      x = setEnabled service (decide (mode ≠ "off")) ∨
        mode ≠ "off" ∧ daemon = true ∧
          x = setActivation workload (if mode = "on-demand" then "on-demand" else "persistent") := by
  unfold modeAssignments
  obtain rfl | rfl | rfl := hmode
  · simp
  · cases daemon <;> simp
  · simp [hdaemon rfl]

structure Written (g g' : YamlGraph F) (modes : List (Text × String)) (new : Object F) : Prop where
  edit : IsEdit g (assignments g modes)
  run : g' = assignAll g (assignments g modes)
  named : ∀ e ∈ modes, ∃ service workload o, Named g e service workload ∧
    find e.1 (asObject (find "services".toList new)) = some (.object o) ∧
    ReadsMode g' service workload o ∧
    (isDaemon g workload = false →
      keyIs "activation" "on-demand" (asObject (find "workload".toList o)) = false)

variable {new old : Object F}

theorem mem_sortedModes : e ∈ sortedModes modes ↔ e ∈ modes :=
  List.mem_mergeSort

theorem Written.mem_assignments (h : Written g g' modes new)
    (hx : x ∈ assignments g modes) : ∃ e ∈ modes, ∃ service workload, Named g e service workload ∧
      x ∈ modeAssignments service workload (isDaemon g workload) e.2 := by
  obtain ⟨e, he, hmem⟩ := List.mem_flatMap.mp hx
  have he := mem_sortedModes.mp he
  obtain ⟨service, workload, -, hnamed, -⟩ := h.named e he
  exact ⟨e, he, service, workload, hnamed, hnamed.assignmentsOf ▸ hmem⟩

theorem Named.mem_assignments (h : Named g e service workload) (he : e ∈ modes)
    (hx : x ∈ modeAssignments service workload (isDaemon g workload) e.2) :
    x ∈ assignments g modes :=
  List.mem_flatMap.mpr ⟨e, mem_sortedModes.mpr he, h.assignmentsOf ▸ hx⟩

theorem Written.desiredMode (h : Written g g' modes new) (hagree : Agree (assignments g modes))
    (he : e ∈ modes) :
    ∃ o, find e.1 (asObject (find "services".toList new)) = some (.object o) ∧
      Editor.desiredMode o = e.2 := by
  obtain ⟨service, workload, o, hnamed, hfind, hreads, hother⟩ := h.named e he
  refine ⟨o, hfind, ?_⟩
  have hread : ∀ x ∈ modeAssignments service workload (isDaemon g workload) e.2,
      get g' x.node x.key = some (.scalar x.value) := by
    intro x hx
    have hmem := hnamed.mem_assignments he hx
    rw [h.run]
    exact Sharing.get_of_shows h.edit.isMapping hagree hmem (Sharing.shows_self (h.edit x hmem).1)
  have hmem : ∀ {x : Assignment ℕ Text (Scalar F)},
      x ∈ modeAssignments service workload (isDaemon g workload) e.2 ↔ _ :=
    mem_modeAssignments hnamed.mode hnamed.daemon
  have henabled := hread _ (hmem.mpr (.inl rfl))
  by_cases hoff : e.2 = "off"
  · rw [hoff, desiredMode_off, hreads.disabled, ← decide_eq_false (not_not.mpr hoff)]
    exact henabled
  have hdisabled : isDisabled o = false := by
    rw [Bool.eq_false_iff]
    intro hdisabled
    have hfalse := henabled.symm.trans (hreads.disabled.mp hdisabled)
    rw [decide_eq_true hoff] at hfalse
    cases hfalse
  cases hdaemon : isDaemon g workload with
  | true =>
    have hactivation := hread _ (hmem.mpr (.inr ⟨hoff, hdaemon, rfl⟩))
    by_cases hon : e.2 = "on-demand"
    · rw [hon, desiredMode_onDemand hdisabled, hreads.onDemand]
      rw [if_pos hon] at hactivation
      exact hactivation
    · have halways := (hnamed.mode.resolve_left hoff).resolve_right hon
      rw [halways, desiredMode_always hdisabled, Bool.eq_false_iff]
      intro hkey
      rw [if_neg hon] at hactivation
      exact absurd (hactivation.symm.trans (hreads.onDemand.mp hkey)) (by simp [setActivation])
  | false =>
    -- the rules leave no activation to what is no daemon
    have hon : e.2 ≠ "on-demand" := fun heq => by
      cases hdaemon.symm.trans (hnamed.daemon heq)
    rw [(hnamed.mode.resolve_left hoff).resolve_right hon, desiredMode_always hdisabled]
    exact hother hdaemon

theorem Written.agree (h : Written g g' modes new)
    (hmodes : ∀ e ∈ modes, ∃ o, find e.1 (asObject (find "services".toList new)) =
      some (.object o) ∧ Editor.desiredMode o = e.2) : Agree (assignments g modes) := by
  have hread : ∀ {x}, x ∈ assignments g modes → ∃ value,
      get g' x.node x.key = some (.scalar value) := by
    intro x hx
    obtain ⟨x₀, -, -, -, hget⟩ := Sharing.get_assigned h.edit.isMapping ⟨x, hx, rfl, rfl⟩
    exact ⟨x₀.value, h.run ▸ hget⟩
  have hkeys : enabledKey ≠ activationKey := by decide
  intro x hx x' hx' hnode hkey
  obtain ⟨value, hvalue⟩ := hread hx
  obtain ⟨e, he, service, workload, hnamed, hmem⟩ := h.mem_assignments hx
  obtain ⟨e', he', service', workload', hnamed', hmem'⟩ := h.mem_assignments hx'
  obtain ⟨s, w, o, hsame, hfind, hreads, -⟩ := h.named e he
  obtain ⟨s', w', o', hsame', hfind', hreads', -⟩ := h.named e' he'
  cases hnamed.nodes.symm.trans hsame.nodes
  cases hnamed'.nodes.symm.trans hsame'.nodes
  have hmode : Editor.desiredMode o = e.2 := by
    obtain ⟨found, hfound, hmode⟩ := hmodes e he
    cases hfind.symm.trans hfound
    exact hmode
  have hmode' : Editor.desiredMode o' = e'.2 := by
    obtain ⟨found, hfound, hmode⟩ := hmodes e' he'
    cases hfind'.symm.trans hfound
    exact hmode
  obtain rfl | ⟨hoff, -, rfl⟩ := (mem_modeAssignments hnamed.mode hnamed.daemon).mp hmem
  · obtain rfl | ⟨-, -, rfl⟩ := (mem_modeAssignments hnamed'.mode hnamed'.daemon).mp hmem'
    · -- both services are off or both are not
      have heq : service = service' := hnode
      subst heq
      have hiff : e.2 = "off" ↔ e'.2 = "off" := by
        rw [← hmode, ← hmode', desiredMode_off, desiredMode_off, hreads.disabled, hreads'.disabled]
      show Scalar.boolean (decide (e.2 ≠ "off")) = Scalar.boolean (decide (e'.2 ≠ "off"))
      rw [decide_eq_decide.mpr (not_congr hiff)]
    · exact absurd hkey hkeys
  · obtain rfl | ⟨hoff', -, rfl⟩ := (mem_modeAssignments hnamed'.mode hnamed'.daemon).mp hmem'
    · exact absurd hkey hkeys.symm
    · -- both workloads are woken on demand or both are not
      have heq : workload = workload' := hnode
      subst heq
      have hdisabled : isDisabled o = false := Bool.eq_false_iff.mpr fun hdisabled =>
        hoff (hmode.symm.trans (desiredMode_off.mpr hdisabled))
      have hdisabled' : isDisabled o' = false := Bool.eq_false_iff.mpr fun hdisabled =>
        hoff' (hmode'.symm.trans (desiredMode_off.mpr hdisabled))
      have hiff : e.2 = "on-demand" ↔ e'.2 = "on-demand" := by
        rw [← hmode, ← hmode', desiredMode_onDemand hdisabled, desiredMode_onDemand hdisabled',
          hreads.onDemand, hreads'.onDemand]
      show Scalar.string (String.toList (if e.2 = "on-demand" then _ else _)) =
        Scalar.string (String.toList (if e'.2 = "on-demand" then _ else _))
      rw [if_congr hiff rfl rfl]

theorem IsModeField.append {path : List (Step Text)} (h : IsModeField modes path) (s : Step Text) :
    IsModeField modes (path ++ [s]) := by
  obtain ⟨e, he, hprefix | hprefix⟩ := h
  · exact ⟨e, he, .inl (List.IsPrefix.trans hprefix (List.prefix_append _ _))⟩
  · exact ⟨e, he, .inr (List.IsPrefix.trans hprefix (List.prefix_append _ _))⟩

theorem Written.onlyModes (h : Written g g' modes new)
    (hold : Stands repr g g.root (.object old)) (hnew : Stands repr g' g'.root (.object new)) :
    OnlyModes modes old new ↔ Agree (assignments g modes) ∧
      Untouched g (assignments g modes) (IsModeField modes) := by
  have hviews : (∀ path, ¬ IsModeField modes path →
      plainView path (.object new) = plainView path (.object old)) ↔
      ∀ path, ¬ IsModeField modes path →
        view (assignAll g (assignments g modes)) path = view g path := by
    apply forall_congr'
    intro path
    rw [hold.view, hnew.view, h.run]
  constructor
  · rintro ⟨hnamed, hothers⟩
    have hagree := h.agree hnamed
    exact ⟨hagree, (Sharing.view_assignAll_iff h.edit.isMapping hagree
      (fun _ s hfield => hfield.append s)).mp (hviews.mp hothers)⟩
  · rintro ⟨hagree, huntouched⟩
    exact ⟨fun e he => h.desiredMode hagree he, hviews.mpr
      ((Sharing.view_assignAll_iff h.edit.isMapping hagree
        (fun _ s hfield => hfield.append s)).mpr huntouched)⟩

/-! ## The written file -/

variable {env : Environment F} {y : Yaml F} {authority authority' : Option ByteArray}
  {result : ModesSet} {effective : Object F}

theorem setServiceModes_ok (hmodes : modes ≠ [])
    (h : Modes.setServiceModes env y modes authority = .ok (result, authority')) :
    ∃ text g g' effective, (readText authority : Except (EditorError Text) Text) = .ok text ∧
      y.compose text = .ok g ∧ editModes g modes = .ok g' ∧
      validateText (env.withYaml y).pipeline (y.dump g') = .ok effective ∧
      authority' = atomicReplace (y.dump g') := by
  unfold Modes.setServiceModes at h
  rw [if_neg hmodes] at h
  obtain ⟨text, hread, h⟩ := bind_ok h
  obtain ⟨g, hcompose, h⟩ := bind_ok h
  obtain ⟨g', hedit, h⟩ := bind_ok h
  obtain ⟨effective, hvalid, h⟩ := bind_ok h
  cases h
  exact ⟨text, g, g', effective, mapError_ok.mp hread, mapError_ok.mp hcompose, hedit,
    mapError_ok.mp hvalid, rfl⟩

theorem setServiceModes_eq {text : Text} (hmodes : modes ≠ [])
    (hread : (readText authority : Except (EditorError Text) Text) = .ok text)
    (hcompose : y.compose text = .ok g) (hedit : editModes g modes = .ok g')
    (hvalid : validateText (env.withYaml y).pipeline (y.dump g') = .ok effective) :
    Modes.setServiceModes env y modes authority = .ok (⟨(sortedModes modes).map Prod.fst,
      (sortedModes modes).map fun e ↦
        (e.1, desiredMode (asObject (find e.1 (asObject (find "services".toList effective)))))⟩,
      atomicReplace (y.dump g')) := by
  unfold Modes.setServiceModes
  rw [if_neg hmodes, mapError_ok.mpr hread]
  show (Except.mapError _ (y.compose text) >>= _) = _
  rw [hcompose]
  show (editModes g modes >>= _) = _
  rw [hedit]
  show (Except.mapError _ (validateText (env.withYaml y).pipeline (y.dump g')) >>= _) = _
  rw [hvalid]
  rfl

theorem services_of_compiled (h : compileDocument validateSchema otherRules new = .ok effective) :
    ∃ services, find servicesKey new = some (.object services) ∧
      ∀ k, ∀ value : Scalar F, find k services ≠ some (.scalar value) := by
  obtain ⟨normalized, hnormal, -⟩ := compileDocument_ok h
  obtain ⟨services, _, hfind, hmap, -⟩ := find_services_normalize hnormal
  refine ⟨services, hfind, fun k value hvalue => ?_⟩
  obtain ⟨_, -, hentry⟩ := exists_right (mapM_ok hmap) (mem_of_find hvalue)
  obtain ⟨_, _, heq, -⟩ := onValue_ok hentry
  cases heq

theorem written_of_edit {float : FloatEq F} (hedit : editModes g modes = .ok g')
    (hstands : Stands repr g' g'.root (.object new))
    (hcompile : compileDocument validateSchema otherRules new = .ok effective)
    (hschema : ∀ document, validateSchema document = .ok () → DocumentSchema float document) :
    Written g g' modes new := by
  obtain ⟨document, services, hdocument, hservices, hrun⟩ := editModes_ok hedit
  obtain ⟨entries, hentries, hobjects⟩ := services_of_compiled hcompile
  obtain ⟨ws, hws, hend⟩ := run_edit hrun
  -- the root and its services are where they were
  have hroot : g'.root = .ref document := by
    rw [hend, Sharing.root_assignAll]
    exact Option.some.inj (asMapping_iff.mp hdocument).1
  have hread : get g' document servicesKey = some (.ref services) := by
    rw [hend, hws.get (by decide)]
    exact (asMapping_iff.mp hservices).1
  have hmapping : ∀ {a}, IsMapping g a → IsMapping g' a := fun ha =>
    hend ▸ Sharing.isMapping_assignAll.mpr ha
  rw [hroot] at hstands
  obtain ⟨found, hfound, hinner⟩ :=
    hstands.find_mapping hread (hmapping (asMapping_iff.mp hservices).2)
  cases hentries.symm.trans hfound
  have hvalid : ∀ k value, get g' services k ≠ some (.scalar value) := fun k value hvalue =>
    hobjects k value (hinner.find_scalar_iff.mpr hvalue)
  obtain ⟨hrun', hnamed⟩ := run_assignments hdocument hservices
    (nofun : IsEdit g []) hrun fun e _ => hvalid e.1
  have hedits : IsEdit g (assignments g modes) := by
    intro x hx
    obtain ⟨e, he, hmem⟩ := List.mem_flatMap.mp hx
    obtain ⟨service, workload, hnamed⟩ := hnamed e he
    obtain ⟨hservice, hworkload⟩ := (serviceNodes_iff hdocument hservices).mp hnamed.nodes
    rw [hnamed.assignmentsOf] at hmem
    exact isEdit_modeAssignments (asMapping_iff.mp hservice).2 (asMapping_iff.mp hworkload).2 _ _ x
      hmem
  have hrun'' : g' = assignAll g (assignments g modes) := hrun'
  refine ⟨hedits, hrun'', fun e he => ?_⟩
  obtain ⟨service, workload, hnamed⟩ := hnamed e (mem_sortedModes.mpr he)
  obtain ⟨hservice, hworkload⟩ := (serviceNodes_iff hdocument hservices).mp hnamed.nodes
  obtain ⟨hgetService, hservice⟩ := asMapping_iff.mp hservice
  obtain ⟨hgetWorkload, hworkload⟩ := asMapping_iff.mp hworkload
  have hlast : get g' services e.1 = some (.ref service) := by
    rw [hrun'']
    obtain hsame | ⟨w, -, -, -, hget⟩ := Sharing.get_assignAll hedits.isMapping services e.1
    · rw [hsame, hgetService]
    · exact absurd (hrun'' ▸ hget) (hvalid e.1 _)
  have hlast' : get g' service workloadKey = some (.ref workload) := by
    rw [hrun'', hedits.get (by decide), hgetWorkload]
  obtain ⟨o, ho, hserviceStands⟩ := hinner.find_mapping hlast (hmapping hservice)
  obtain ⟨w, hw, hworkloadStands⟩ := hserviceStands.find_mapping hlast' (hmapping hworkload)
  have hasObject : asObject (find "services".toList new) = entries := by
    show asObject (find servicesKey new) = entries
    rw [hentries]
    rfl
  refine ⟨service, workload, o, hnamed, by rw [hasObject, ho],
    hserviceStands.readsMode hlast' (hmapping hworkload), fun hdaemon => ?_⟩
  -- the kind of the workload is the one that was asked for
  have hkind : keyIs "kind" "daemon" w = false := by
    rw [Bool.eq_false_iff]
    intro hkey
    have hget := hworkloadStands.find_scalar_iff.mp (keyIs_iff.mp hkey)
    rw [hrun'', hedits.get (by decide)] at hget
    unfold isDaemon isTextValue at hdaemon
    rw [hget] at hdaemon
    simp at hdaemon
  have hservice : IsService new e.1 o := ⟨entries, hentries, mem_of_find ho⟩
  have hnone := not_has_activation hcompile hschema hservice hw hkind
  show keyIs "activation" "on-demand" (asObject (find workloadKey o)) = false
  rw [hw, Bool.eq_false_iff]
  intro hkey
  have hactivation : find "activation".toList w = some (text "on-demand") := keyIs_iff.mp hkey
  apply hnone
  unfold Has
  rw [hactivation]
  rfl

/-- A mode edit changes the named services alone exactly when no entry is given two values and no
other place of the document reads an entry that is assigned, unless it has that value. -/
theorem onlyModes_iff {old new : ReadDocument Text (Object F)} (hy : y.RoundTrips)
    (hschema : ∀ document, env.validateSchema document = .ok () → DocumentSchema env.float document)
    (hmodes : modes ≠ []) (h : Modes.setServiceModes env y modes authority = .ok (result, authority'))
    (hold : readDocument (env.withYaml y).pipeline authority = .ok old)
    (hnew : readDocument (env.withYaml y).pipeline authority' = .ok new)
    (hgraph : y.compose old.yaml = .ok g) :
    OnlyModes modes old.document new.document ↔ Agree (assignments g modes) ∧
      Untouched g (assignments g modes) (IsModeField modes) := by
  obtain ⟨text, g₀, g', effective, hread, hcompose, hedit, hvalid, rfl⟩ :=
    setServiceModes_ok hmodes h
  obtain ⟨text', hread', hold⟩ := bind_ok hold
  cases hread.symm.trans hread'
  obtain ⟨document, hparse, hold⟩ := bind_ok hold
  cases hold
  cases hcompose.symm.trans hgraph
  have hstands : Stands env.repr g g.root (.object document) := by
    obtain ⟨tree, htree, hplain⟩ := bind_ok (mapError_ok.mp hparse)
    obtain ⟨_, hcompose', htree⟩ := bind_ok htree
    cases hcompose.symm.trans hcompose'
    apply stands_of_parseLoaded
    rw [htree]
    exact hplain
  -- the file that was written is read back as it was dumped
  obtain ⟨text'', hread'', hnew⟩ := bind_ok hnew
  rw [readText_atomicReplace, universalNewlines_of_notMem (hy.lines g')] at hread''
  cases hread''
  obtain ⟨document', hparse', hnew⟩ := bind_ok hnew
  cases hnew
  have hparse'' := mapError_ok.mp hparse'
  have hstands' : Stands env.repr g' g'.root (.object document') := by
    obtain ⟨tree, htree, hplain⟩ := bind_ok hparse''
    obtain ⟨g'', hcompose'', htree⟩ := bind_ok htree
    rw [hy.compose g' g'' hcompose''] at htree
    apply stands_of_parseLoaded
    rw [htree]
    exact hplain
  have hcompile : compileDocument env.validateSchema env.otherRules document' = .ok effective := by
    unfold validateText at hvalid
    rw [hparse''] at hvalid
    exact hvalid
  exact (written_of_edit hedit hstands' hcompile hschema).onlyModes hstands hstands'

end Edited

/-! ### Two services with one workload -/

/-- The document: both services have the workload at 4, or the second one its own at 5. -/
def playersNode (music : ℕ) : ℕ → Sharing.Node ℕ Text (Scalar Empty)
  | 0 => .mapping [("schemaVersion".toList, .scalar (.integer 3)), (servicesKey, .ref 1)] []
  | 1 => .mapping [("media".toList, .ref 2), ("music".toList, .ref 3)] []
  | 2 => .mapping [("name".toList, .scalar (.string "Media".toList)), (workloadKey, .ref 4),
      ("runtime".toList, .ref 6)] []
  | 3 => .mapping [("name".toList, .scalar (.string "Music".toList)), (workloadKey, .ref music),
      ("runtime".toList, .ref 7)] []
  | 6 => .mapping [("type".toList, .scalar (.string "systemd".toList)),
      ("unit".toList, .scalar (.string "jellyfin.service".toList))] []
  | 7 => .mapping [("type".toList, .scalar (.string "systemd".toList)),
      ("unit".toList, .scalar (.string "navidrome.service".toList))] []
  | _ => .mapping [("kind".toList, .scalar (.string "daemon".toList)),
      ("idleSeconds".toList, .scalar (.integer 300))] []

def playersGraph (music : ℕ) : YamlGraph Empty := ⟨playersNode music, .ref 0⟩

def onDemandMedia : List (Text × String) := [("media".toList, "on-demand")]

def editedGraph (music : ℕ) : YamlGraph Empty :=
  assignAll (playersGraph music) [setEnabled 2 true, setActivation 4 "on-demand"]

theorem sorted_onDemandMedia : sortedModes onDemandMedia = onDemandMedia := by
  unfold sortedModes onDemandMedia
  exact List.mergeSort_singleton _

theorem editModes_players (music : ℕ) :
    editModes (playersGraph music) onDemandMedia = .ok (editedGraph music) := by
  unfold editModes
  rw [sorted_onDemandMedia]
  rfl

def daemonWorkload (activation : Object Empty) : Object Empty :=
  objectOf [("kind", text "daemon"), ("idleSeconds", number 300)] ++ activation

def activationOf (name : String) : Object Empty := objectOf [("activation", text name)]

def playerService (name unit : String) (workload extra : Object Empty) : Object Empty :=
  ("name".toList, text name) :: ("workload".toList, .object workload) ::
    ("runtime".toList, .object (objectOf [("type", text "systemd"), ("unit", text unit)])) :: extra

def playersDocument (media music : Object Empty) (extra : Object Empty) : Object Empty :=
  objectOf [("schemaVersion", number 3), ("services", .object (objectOf [
    ("media", .object media), ("music", .object music)]))] ++ extra

def mediaPlayer := playerService "Media" "jellyfin.service"
def musicPlayer := playerService "Music" "navidrome.service"

def enabledTrue : Object Empty := objectOf [("enabled", boolean true)]

/-- The defaults behind `enabled`. -/
def serviceDefaults : Object Empty :=
  objectOf [("managed", boolean true), ("dependencies", .array []),
    ("requiresCapabilities", .array []),
    ("authorization", .object (objectOf [("capabilities", .array [])])),
    ("resources", .object (objectOf [("accelerators", .array [])])),
    ("sandbox", .object (objectOf [("mode", text "inherit")])), ("storage", .array []),
    ("credentials", .array []), ("routes", .object []), ("listeners", .object [])]

def editedDocument (activation : Object Empty) : Object Empty :=
  playersDocument (mediaPlayer (daemonWorkload (activationOf "on-demand")) enabledTrue)
    (musicPlayer (daemonWorkload activation) []) []

def editedNormalized (activation : Object Empty) : Object Empty :=
  playersDocument
    (mediaPlayer (daemonWorkload (activationOf "on-demand")) (enabledTrue ++ serviceDefaults))
    (musicPlayer (daemonWorkload activation) (enabledTrue ++ serviceDefaults)) documentDefaults

variable {k t : Text} {name unit : String} {workload extra activation document : Object Empty}

theorem find_cons_of_ne {e : Text × Plain Empty} {o : Object Empty} (h : k ≠ e.1) :
    find k (e :: o) = find k o := by
  rw [find_cons, if_neg h]

theorem find_playerService (hname : k ≠ "name".toList) (hworkload : k ≠ "workload".toList)
    (hruntime : k ≠ "runtime".toList) :
    find k (playerService name unit workload extra) = find k extra :=
  (find_cons_of_ne hname).trans ((find_cons_of_ne hworkload).trans (find_cons_of_ne hruntime))

theorem workloadSchema_daemon (h : EnumAt "activation" ["persistent", "on-demand"] activation)
    (hother : find "schedules".toList activation = none) :
    WorkloadSchema noFloats (daemonWorkload activation) where
  kind := ⟨"daemon", List.mem_cons_self, by simp [daemonWorkload, objectOf, find_cons]⟩
  activation := by
    intro value hvalue
    apply h value
    rw [daemonWorkload, find_append] at hvalue
    rw [← hvalue]
    simp [objectOf, find_cons, find_nil]
  idleSeconds := forall_found (v := number 300)
    (by simp [daemonWorkload, objectOf, find_cons]) (.inl ⟨300, rfl, by decide⟩)
  schedules := forall_absent (by
    rw [daemonWorkload, find_append, hother]
    simp [objectOf, find_cons, find_nil])

theorem enumAt_activationOf (h : name ∈ ["persistent", "on-demand"]) :
    EnumAt "activation" ["persistent", "on-demand"] (activationOf name) :=
  forall_found (v := text name) (by simp [activationOf, objectOf, find_cons]) ⟨name, h, rfl⟩

theorem schedules_activationOf (name : String) :
    find "schedules".toList (activationOf name) = none := by
  simp [activationOf, objectOf, find_cons, find_nil]

theorem serviceSchema_player
    (hworkload : WorkloadSchema noFloats workload) (hunit : unit.toList ≠ [])
    (henabled : BooleanAt "enabled" extra) (hmanaged : BooleanAt "managed" extra)
    (hresources : ∀ r, find "resources".toList extra = some (.object r) →
      find "accelerators".toList r = some (.array [])) :
    ServiceSchema noFloats (playerService name unit workload extra) where
  enabled := by
    intro value hvalue
    apply henabled value
    rw [← hvalue, find_playerService (by decide) (by decide) (by decide)]
  managed := by
    intro value hvalue
    apply hmanaged value
    rw [← hvalue, find_playerService (by decide) (by decide) (by decide)]
  workload := ⟨workload, by simp [playerService, find_cons], hworkload⟩
  runtime := by
    refine ⟨objectOf [("type", text "systemd"), ("unit", text unit)],
      by simp [playerService, find_cons],
      ⟨"systemd", by decide, by simp [objectOf, find_cons]⟩, fun _ => ⟨unit.toList, ?_, hunit⟩⟩
    simp [objectOf, find_cons, text]
  accelerators := by
    intro r hr
    rw [find_playerService (by decide) (by decide) (by decide)] at hr
    exact forall_found (hresources r hr) ⟨[], rfl, fun _ hmem => (List.not_mem_nil hmem).elim⟩

theorem documentSchema_players {media music : Object Empty} (hmedia : ServiceSchema noFloats media)
    (hmusic : ServiceSchema noFloats music) (extra : Object Empty) :
    DocumentSchema noFloats (playersDocument media music extra) where
  schemaVersion := ⟨number 3, by simp [playersDocument, objectOf, find_cons], rfl⟩
  services := by
    refine ⟨objectOf [("media", .object media), ("music", .object music)],
      by simp [playersDocument, objectOf, find_cons], ?_⟩
    exact List.forall_mem_cons.mpr ⟨⟨media, rfl, hmedia⟩,
      List.forall_mem_singleton.mpr ⟨music, rfl, hmusic⟩⟩

theorem booleanAt_enabledTrue (extra : Object Empty) :
    BooleanAt "enabled" (enabledTrue ++ extra) :=
  forall_found (v := boolean true) (by simp [enabledTrue, objectOf, find_cons])
    ⟨true, rfl⟩

theorem serviceSchema_defaulted
    (hworkload : WorkloadSchema noFloats workload) (hunit : unit.toList ≠ []) :
    ServiceSchema noFloats (playerService name unit workload (enabledTrue ++ serviceDefaults)) := by
  refine serviceSchema_player hworkload hunit (booleanAt_enabledTrue _)
    (forall_found (v := boolean true) ?_ ⟨true, rfl⟩) ?_
  · simp [enabledTrue, serviceDefaults, objectOf, find_cons]
  · intro r hr
    have hresources : find "resources".toList (enabledTrue ++ serviceDefaults) =
        some (.object (objectOf [("accelerators", .array [])])) := by
      simp [enabledTrue, serviceDefaults, objectOf, find_cons]
    cases hresources.symm.trans hr
    simp [objectOf, find_cons]

theorem exists_compiled_edited {normalized : Object Empty}
    (h : WorkloadSchema noFloats (daemonWorkload activation))
    (h' : WorkloadSchema noFloats (daemonWorkload normalized))
    (hnormal : normalize (editedDocument activation) = .ok (editedNormalized normalized))
    (hsteps : isOk (semanticValidate (fun _ ↦ .ok ()) (editedNormalized normalized) >>= fun _ ↦
      (buildEffective (editedNormalized normalized)).mapError Malformed.asError) = true) :
    ∃ effective, compileDocument validateFragment (fun _ ↦ .ok ()) (editedDocument activation) =
      .ok effective := by
  obtain ⟨effective, heffective⟩ := exists_of_isOk hsteps
  have honDemand : WorkloadSchema noFloats (daemonWorkload (activationOf "on-demand")) :=
    workloadSchema_daemon (enumAt_activationOf (by decide)) (schedules_activationOf _)
  refine ⟨effective, ?_⟩
  rw [← heffective]
  apply compileDocument_sample _ hnormal
  · exact documentSchema_players (serviceSchema_defaulted honDemand (by decide))
      (serviceSchema_defaulted h' (by decide)) _
  · apply documentSchema_players
    · exact serviceSchema_player honDemand (by decide)
        (List.append_nil enabledTrue ▸ booleanAt_enabledTrue [])
        (forall_absent (by simp [enabledTrue, objectOf, find_cons, find_nil]))
        (fun r hr => by simp [enabledTrue, objectOf, find_cons, find_nil] at hr)
    · exact serviceSchema_player h (by decide) (forall_absent (find_nil _)) (forall_absent (find_nil _))
        (fun r hr => by simp [find_nil] at hr)

def playersText (preamble media music enabled : String) : Text :=
  preamble.toList ++ "schemaVersion: 3\nservices:\n  media:\n    name: Media\n    workload: ".toList ++
    media.toList ++ "\n    runtime: \x7btype: systemd, unit: jellyfin.service\x7d\n".toList ++
    enabled.toList ++ "  music:\n    name: Music\n    workload: ".toList ++ music.toList ++
    "\n    runtime: \x7btype: systemd, unit: navidrome.service\x7d\n".toList

theorem notMem_playersText {preamble media music enabled : String} (hpreamble : '\r' ∉ preamble.toList)
    (hmedia : '\r' ∉ media.toList) (hmusic : '\r' ∉ music.toList)
    (henabled : '\r' ∉ enabled.toList) : '\r' ∉ playersText preamble media music enabled := by
  unfold playersText
  intro hmem
  obtain (((((((hmem | hmem) | hmem) | hmem) | hmem) | hmem) | hmem) | hmem) := by
    simpa only [List.mem_append] using hmem
  · exact hpreamble hmem
  · exact notMem_literal (by decide) hmem
  · exact hmedia hmem
  · exact notMem_literal (by decide) hmem
  · exact henabled hmem
  · exact notMem_literal (by decide) hmem
  · exact hmusic hmem
  · exact notMem_literal (by decide) hmem

theorem playersText_ne_nil (preamble media music enabled : String) :
    playersText preamble media music enabled ≠ [] := by
  rw [playersText]
  exact List.append_ne_nil_of_right_ne_nil _ (by decide)

structure Sample where
  music : ℕ
  before : Text
  after : Text

def separateSample : Sample where
  music := 5
  before := playersText "" "\x7bkind: daemon, idleSeconds: 300\x7d"
    "\x7bkind: daemon, idleSeconds: 300\x7d" ""
  after := playersText "%YAML 1.2\n---\n"
    "\x7bkind: daemon, idleSeconds: 300, activation: on-demand\x7d"
    "\x7bkind: daemon, idleSeconds: 300\x7d" "    enabled: true\n"

def sharedSample : Sample where
  music := 4
  before := playersText "" "&daemon \x7bkind: daemon, idleSeconds: 300\x7d" "*daemon" ""
  after := playersText "%YAML 1.2\n---\n"
    "&daemon \x7bkind: daemon, idleSeconds: 300, activation: on-demand\x7d" "*daemon"
    "    enabled: true\n"

open Classical in
noncomputable def Sample.yaml (s : Sample) : Yaml Empty where
  compose t :=
    if t = s.before then .ok (playersGraph s.music)
    else if t = s.after then .ok (editedGraph s.music)
    else .error ⟨"invalid YAML".toList, ['$'], "yaml-parse".toList⟩
  dump g := if unfoldDocument g = unfoldDocument (editedGraph s.music) then s.after else []

/-- The texts of a sample are two texts without carriage returns. -/
structure Sample.Proper (s : Sample) : Prop where
  ne : s.after ≠ s.before
  before : '\r' ∉ s.before ∧ s.before ≠ []
  after : '\r' ∉ s.after ∧ s.after ≠ []

theorem Sample.compose_before (s : Sample) : s.yaml.compose s.before = .ok (playersGraph s.music) :=
  if_pos rfl

variable {s : Sample}

theorem Sample.compose_after (hs : s.Proper) : s.yaml.compose s.after = .ok (editedGraph s.music) :=
  (if_neg hs.ne).trans (if_pos rfl)

open Classical in
theorem Sample.dump_edited (s : Sample) : s.yaml.dump (editedGraph s.music) = s.after := if_pos rfl

open Classical in
theorem Sample.roundTrips (hs : s.Proper) : s.yaml.RoundTrips where
  lines g := by
    show '\r' ∉ ite _ _ _
    split
    · exact hs.after.1
    · exact List.not_mem_nil
  compose g g' h := by
    change s.yaml.compose (ite _ _ _) = _ at h
    split at h
    · rename_i hsame
      cases h.symm.trans (s.compose_after hs)
      exact hsame.symm
    · cases h.symm.trans ((if_neg (Ne.symm hs.before.2)).trans (if_neg (Ne.symm hs.after.2)))

noncomputable def Sample.environment (s : Sample) : Environment Empty :=
  mediaEnvironment.withYaml s.yaml

theorem Sample.parse {g : YamlGraph Empty} (hcompose : s.yaml.compose t = .ok g)
    (hparse : unfoldDocument g >>= parseLoaded noFloat = .ok document) :
    s.environment.pipeline.parse t = .ok document := by
  show (s.yaml.compose t >>= unfoldDocument) >>= parseLoaded noFloat = _
  rw [hcompose]
  exact hparse

theorem Sample.read (ht : '\r' ∉ t) (hparse : s.environment.pipeline.parse t = .ok document) :
    readDocument s.environment.pipeline (atomicReplace t) =
      .ok ⟨revision s.environment.pipeline t, t, document⟩ := by
  unfold readDocument
  rw [readText_atomicReplace, universalNewlines_of_notMem ht]
  show (Except.mapError _ (s.environment.pipeline.parse t) >>= _) = _
  rw [hparse]
  rfl

theorem Sample.setServiceModes (hs : s.Proper)
    (hparse : unfoldDocument (editedGraph s.music) >>= parseLoaded noFloat =
      .ok (editedDocument activation))
    (hcompile : ∃ effective, compileDocument validateFragment (fun _ ↦ .ok ())
      (editedDocument activation) = .ok effective) :
    ∃ result, Modes.setServiceModes mediaEnvironment s.yaml onDemandMedia (atomicReplace s.before) =
      .ok (result, atomicReplace s.after) := by
  obtain ⟨effective, heffective⟩ := hcompile
  have hvalid : validateText s.environment.pipeline s.after = .ok effective := by
    unfold validateText
    rw [Sample.parse (s.compose_after hs) hparse]
    exact heffective
  have hread : (readText (atomicReplace s.before) : Except (EditorError Text) Text) =
      .ok s.before := by
    rw [readText_atomicReplace, universalNewlines_of_notMem hs.before.1]
  have hedit := editModes_players s.music
  rw [← s.dump_edited] at hvalid ⊢
  exact ⟨_, setServiceModes_eq (List.cons_ne_nil _ _) hread s.compose_before hedit hvalid⟩

theorem proper_separateSample : separateSample.Proper where
  ne h := absurd (congrArg List.head? h) (by decide)
  before := by
    refine ⟨notMem_playersText ?_ ?_ ?_ ?_, playersText_ne_nil _ _ _ _⟩ <;>
      exact notMem_literal (by decide)
  after := by
    refine ⟨notMem_playersText ?_ ?_ ?_ ?_, playersText_ne_nil _ _ _ _⟩ <;>
      exact notMem_literal (by decide)

theorem proper_sharedSample : sharedSample.Proper where
  ne h := absurd (congrArg List.head? h) (by decide)
  before := by
    refine ⟨notMem_playersText ?_ ?_ ?_ ?_, playersText_ne_nil _ _ _ _⟩ <;>
      exact notMem_literal (by decide)
  after := by
    refine ⟨notMem_playersText ?_ ?_ ?_ ?_, playersText_ne_nil _ _ _ _⟩ <;>
      exact notMem_literal (by decide)

def playersBefore : Object Empty :=
  playersDocument (mediaPlayer (daemonWorkload []) []) (musicPlayer (daemonWorkload []) []) []

theorem compiled_separate : ∃ effective,
    compileDocument validateFragment (fun _ ↦ .ok ()) (editedDocument []) = .ok effective :=
  have h : WorkloadSchema noFloats (daemonWorkload (activationOf "persistent")) :=
    workloadSchema_daemon (enumAt_activationOf (by decide)) (schedules_activationOf _)
  exists_compiled_edited (workloadSchema_daemon nofun rfl) h (by rfl) (by rfl)

theorem compiled_shared : ∃ effective, compileDocument validateFragment (fun _ ↦ .ok ())
    (editedDocument (activationOf "on-demand")) = .ok effective :=
  have h : WorkloadSchema noFloats (daemonWorkload (activationOf "on-demand")) :=
    workloadSchema_daemon (enumAt_activationOf (by decide)) (schedules_activationOf _)
  exists_compiled_edited h h (by rfl) (by rfl)

/-- With workloads of their own. -/
theorem onlyModes_iff_separate : ∃ result authority' old new,
    Modes.setServiceModes mediaEnvironment separateSample.yaml onDemandMedia
        (atomicReplace separateSample.before) = .ok (result, authority') ∧
      readDocument separateSample.environment.pipeline (atomicReplace separateSample.before) =
        .ok old ∧
      readDocument separateSample.environment.pipeline authority' = .ok new ∧
      (OnlyModes onDemandMedia old.document new.document ↔
        Agree (assignments (playersGraph 5) onDemandMedia) ∧
          Untouched (playersGraph 5) (assignments (playersGraph 5) onDemandMedia)
            (IsModeField onDemandMedia)) := by
  have hs := proper_separateSample
  have hafter : unfoldDocument (editedGraph separateSample.music) >>= parseLoaded noFloat =
      .ok (editedDocument []) := by rfl
  have hbefore : unfoldDocument (playersGraph separateSample.music) >>= parseLoaded noFloat =
      .ok playersBefore := by rfl
  obtain ⟨result, hresult⟩ := Sample.setServiceModes hs hafter compiled_separate
  have hold := Sample.read hs.before.1 (Sample.parse separateSample.compose_before hbefore)
  have hnew := Sample.read hs.after.1 (Sample.parse (separateSample.compose_after hs) hafter)
  exact ⟨result, _, _, _, hresult, hold, hnew, onlyModes_iff (Sample.roundTrips hs)
    (fun _ => validateFragment_ok.mp) (List.cons_ne_nil _ _) hresult hold hnew
    separateSample.compose_before⟩

/-- With one workload the second service is woken on demand as well. -/
theorem not_onlyModes_shared :
    ¬ ∀ (env : Environment Empty) (y : Yaml Empty) (modes : List (Text × String))
        (authority authority' : Option ByteArray) (result : ModesSet)
        (old new : ReadDocument Text (Object Empty)),
      y.RoundTrips →
      (∀ document, env.validateSchema document = .ok () → DocumentSchema env.float document) →
      modes ≠ [] → Modes.setServiceModes env y modes authority = .ok (result, authority') →
      readDocument (env.withYaml y).pipeline authority = .ok old →
      readDocument (env.withYaml y).pipeline authority' = .ok new →
      OnlyModes modes old.document new.document := by
  intro honly
  have hs := proper_sharedSample
  have hafter : unfoldDocument (editedGraph sharedSample.music) >>= parseLoaded noFloat =
      .ok (editedDocument (activationOf "on-demand")) := by rfl
  have hbefore : unfoldDocument (playersGraph sharedSample.music) >>= parseLoaded noFloat =
      .ok playersBefore := by rfl
  obtain ⟨result, hresult⟩ := Sample.setServiceModes hs hafter compiled_shared
  have hold := Sample.read hs.before.1 (Sample.parse sharedSample.compose_before hbefore)
  have hnew := Sample.read hs.after.1 (Sample.parse (sharedSample.compose_after hs) hafter)
  have hothers := (honly _ _ _ _ _ _ _ _ (Sample.roundTrips hs) (fun _ => validateFragment_ok.mp)
    (List.cons_ne_nil _ _) hresult hold hnew).others
      [.key servicesKey, .key "music".toList, .key workloadKey, .key activationKey] ?_
  · have hview : plainView [.key servicesKey, .key "music".toList, .key workloadKey,
        .key activationKey] (.object (editedDocument (activationOf "on-demand"))) =
        plainView [.key servicesKey, .key "music".toList, .key workloadKey, .key activationKey]
          (.object playersBefore) := hothers
    exact absurd hview (by decide)
  · rintro ⟨e, he, hprefix⟩
    obtain rfl := List.mem_singleton.mp he
    exact absurd hprefix (by decide)

end NixNas.Editor
