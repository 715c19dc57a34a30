import Mathlib.Data.List.Basic
import NixNas.Syncthing.Reconciliation

/-!
# Who owns the folders and devices

What is named by the state file, by the journal or by a run was never there before the first run, so
nothing that was there is touched.
-/

open Transition

namespace NixNas.Syncthing

variable {C : Type} {generation : Desired C → Text} {expectedSubset : C → C → Bool}
  {w w' : World C} {event : Event C} {key : Key}
variable {keys : List Key} {request : Request C}

theorem mem_sortedKeys : key ∈ sortedKeys keys ↔ key ∈ keys := by
  unfold sortedKeys
  rw [List.mem_insertionSort, List.mem_dedup]

theorem mem_expectedState {desired : Desired C} {retained : List Key} :
    key ∈ (expectedState generation desired retained).owned ↔ key ∈ desired.keys ∨ key ∈ retained := by
  unfold expectedState
  rw [mem_sortedKeys, List.mem_append]

/-! ## What a step does -/

def Process.removedFolders (p : Process C) : List Key :=
  p.old.filter fun key ↦ key.isFolder && decide (key ∉ p.desired.keys)

variable [DecidableEq C]

/-- The steps that succeed, by the branches they take. -/
inductive Change (generation : Desired C → Text) (expectedSubset : C → C → Bool) (w : World C) :
    Event C → World C → Prop where
  | refused {desired : Desired C} (hprocess : w.process = none)
      (h : interruptedOwnership generation w.state w.journal = none) :
      Change generation expectedSubset w (.start desired) w
  | started {desired : Desired C} {keys : List Key} {state : Ownership} {journal : Option (Journal C)}
      (hprocess : w.process = none)
      (h : interruptedOwnership generation w.state w.journal = some (keys, state, journal)) :
      Change generation expectedSubset w (.start desired)
        ⟨w.config, state, journal, some ⟨desired, state, w.state.owned ++ keys, .started⟩⟩
  | stopped {event : Event C} {p : Process C} (hprocess : w.process = some p) :
      Change generation expectedSubset w event { w with process := none }
  | prepared {p : Process C} (hprocess : w.process = some p) (hstage : p.stage = .started)
      (h : unmanaged w.config p = []) :
      Change generation expectedSubset w .prepare { w with
        journal := some ⟨.prepared, generation p.desired, p.state, p.desired, []⟩
        process := some { p with stage := .requests (plannedRequests w.config p) [] [] } }
  | answered {p : Process C} {request : Request C} {todo : List (Request C)}
      {removed retained removed' retained' : List Key} {config : Config C} {applied : Bool}
      {answer : Answer} (hprocess : w.process = some p)
      (hstage : p.stage = .requests (request :: todo) removed retained)
      (hconfig : config = w.config ∨ config = request.apply w.config)
      (hgoesOn : request.goesOn answer = true)
      (hrecord : request.record removed retained answer = (removed', retained')) :
      Change generation expectedSubset w (.request applied answer) { w with
        config := config
        process := some { p with stage := .requests todo removed' retained' } }
  | raised {p : Process C} {request : Request C} {todo : List (Request C)}
      {removed retained : List Key} {config : Config C} {applied : Bool} {answer : Answer}
      (hprocess : w.process = some p) (hstage : p.stage = .requests (request :: todo) removed retained)
      (hconfig : config = w.config ∨ config = request.apply w.config) :
      Change generation expectedSubset w (.request applied answer)
        { w with config := config, process := none }
  | mutated {p : Process C} {removed retained : List Key} (hprocess : w.process = some p)
      (hstage : p.stage = .requests [] removed retained) :
      Change generation expectedSubset w .mutate { w with
        journal := some ⟨.mutated, generation p.desired, p.state, p.desired, retained⟩
        process := some { p with stage := .mutated removed retained } }
  | verified {p : Process C} {removed retained : List Key} (hprocess : w.process = some p)
      (hstage : p.stage = .mutated removed retained)
      (h : verifyConfiguration expectedSubset w.config p.desired (p.removedFolders ++ removed) = true) :
      Change generation expectedSubset w .verify
        { w with process := some { p with stage := .verified retained } }
  | committed {p : Process C} {retained : List Key} (hprocess : w.process = some p)
      (hstage : p.stage = .verified retained) :
      Change generation expectedSubset w .commit { w with
        journal := some ⟨.committed, generation p.desired, p.state, p.desired, retained⟩
        process := some { p with stage := .committed retained } }
  | saved {p : Process C} {retained : List Key} (hprocess : w.process = some p)
      (hstage : p.stage = .committed retained) :
      Change generation expectedSubset w .save { w with
        state := expectedState generation p.desired retained
        process := some { p with stage := .saved retained } }
  | finished {p : Process C} {retained : List Key} (hprocess : w.process = some p)
      (hstage : p.stage = .saved retained) :
      Change generation expectedSubset w .finish { w with journal := none, process := none }

variable {p : Process C}

theorem change_of_stepProcess (hprocess : w.process = some p)
    (h : stepProcess generation expectedSubset w p event = some w') :
    Change generation expectedSubset w event w' := by
  cases event with
  | start desired => cases h
  | prepare =>
    rw [stepProcess] at h
    split at h
    · rename_i hstage
      split at h
      · rename_i hmanaged
        obtain rfl := Option.some.inj h
        exact .prepared hprocess hstage hmanaged
      · obtain rfl := Option.some.inj h
        exact .stopped hprocess
    · cases h
  | request applied answer =>
    rw [stepProcess] at h
    split at h
    · rename_i request todo removed retained hstage
      dsimp only at h
      split at h
      · rename_i hgoesOn
        obtain rfl := Option.some.inj h
        cases applied with
        | false => exact .answered hprocess hstage (.inl rfl) hgoesOn rfl
        | true => exact .answered hprocess hstage (.inr rfl) hgoesOn rfl
      · obtain rfl := Option.some.inj h
        cases applied with
        | false => exact .raised hprocess hstage (.inl rfl)
        | true => exact .raised hprocess hstage (.inr rfl)
    · cases h
  | mutate =>
    rw [stepProcess] at h
    split at h
    · rename_i hstage
      obtain rfl := Option.some.inj h
      exact .mutated hprocess hstage
    · cases h
  | verify =>
    rw [stepProcess] at h
    split at h
    · rename_i hstage
      dsimp only at h
      split at h
      · rename_i hverify
        obtain rfl := Option.some.inj h
        exact .verified hprocess hstage hverify
      · obtain rfl := Option.some.inj h
        exact .stopped hprocess
    · cases h
  | commit =>
    rw [stepProcess] at h
    split at h
    · rename_i hstage
      obtain rfl := Option.some.inj h
      exact .committed hprocess hstage
    · cases h
  | save =>
    rw [stepProcess] at h
    split at h
    · rename_i hstage
      obtain rfl := Option.some.inj h
      exact .saved hprocess hstage
    · cases h
  | finish =>
    rw [stepProcess] at h
    split at h
    · rename_i hstage
      obtain rfl := Option.some.inj h
      exact .finished hprocess hstage
    · cases h
  | kill =>
    obtain rfl := Option.some.inj h
    exact .stopped hprocess

theorem change_of_step (h : step generation expectedSubset w event = some w') :
    Change generation expectedSubset w event w' := by
  cases hprocess : w.process with
  | some p =>
    unfold step at h
    rw [hprocess] at h
    exact change_of_stepProcess hprocess h
  | none =>
    unfold step at h
    rw [hprocess] at h
    cases event with
    | start desired =>
      dsimp only at h
      split at h
      · rename_i hjournal
        obtain rfl := Option.some.inj h
        exact .refused hprocess hjournal
      · rename_i hjournal
        obtain rfl := Option.some.inj h
        exact .started hprocess hjournal
    | _ => cases h

/-! ## What is named -/

def Stage.todo : Stage C → List (Request C)
  | .requests todo _ _ => todo
  | _ => []

def Stage.retained : Stage C → List Key
  | .started => []
  | .requests _ _ retained | .mutated _ retained => retained
  | .verified retained | .committed retained | .saved retained => retained

def Journal.names (journal : Journal C) : List Key := journal.desired.keys ++ journal.retainedDevices

/-- What is desired is named from the journal on. -/
def Process.names (p : Process C) : List Key :=
  p.old ++ p.stage.todo.map Request.key ++ p.stage.retained ++
    match p.stage with
    | .started => []
    | _ => p.desired.keys

def World.names (w : World C) : List Key :=
  w.state.owned ++ w.journal.elim [] Journal.names ++ w.process.elim [] Process.names

omit [DecidableEq C] in
theorem names_process (hprocess : w.process = some p) (h : key ∈ p.names) : key ∈ w.names := by
  unfold World.names
  rw [hprocess]
  exact List.mem_append_right _ h

omit [DecidableEq C] in
theorem mem_old (h : key ∈ p.old) : key ∈ p.names := by
  unfold Process.names
  simp only [List.mem_append]
  exact .inl (.inl (.inl h))

variable {stage : Stage C}

omit [DecidableEq C] in
theorem mem_retained (hstage : p.stage = stage) (h : key ∈ stage.retained) : key ∈ p.names := by
  subst hstage
  unfold Process.names
  simp only [List.mem_append]
  exact .inl (.inr h)

omit [DecidableEq C] in
theorem mem_todo (hstage : p.stage = stage) (h : request ∈ stage.todo) : request.key ∈ p.names := by
  subst hstage
  unfold Process.names
  simp only [List.mem_append]
  exact .inl (.inl (.inr (List.mem_map_of_mem h)))

omit [DecidableEq C] in
theorem mem_desired (hstage : p.stage ≠ .started) (h : key ∈ p.desired.keys) : key ∈ p.names := by
  unfold Process.names
  split
  · rename_i hstarted
    exact absurd hstarted hstage
  · exact List.mem_append_right _ h

theorem interrupted_names {state state' : Ownership} {journal journal' : Option (Journal C)}
    (h : interruptedOwnership generation state journal = some (keys, state', journal'))
    (hkey : key ∈ keys ∨ key ∈ state'.owned ∨ key ∈ journal'.elim [] Journal.names) :
    key ∈ state.owned ∨ key ∈ journal.elim [] Journal.names := by
  cases journal with
  | none =>
    obtain ⟨rfl, rfl, rfl⟩ : keys = [] ∧ state' = state ∧ journal' = none := by
      simpa [interruptedOwnership, eq_comm] using h
    simpa using hkey
  | some journal =>
    have hdesired : key ∈ journal.desired.keys → key ∈ journal.names := List.mem_append_left _
    unfold interruptedOwnership at h
    dsimp only at h
    split at h
    · obtain ⟨rfl, rfl, rfl⟩ : keys = journal.desired.keys ∧ state' = _ ∧ journal' = some journal := by
        simpa [eq_comm] using h
      rw [mem_sortedKeys] at hkey
      obtain hkey | hkey | hkey := hkey
      · exact .inr (hdesired hkey)
      · exact .inr hkey
      · exact .inr hkey
    · split at h
      · cases h
      · split at h
        · split at h
          · obtain ⟨rfl, rfl, rfl⟩ : keys = [] ∧ state' = state ∧ journal' = none := by
              simpa [eq_comm] using h
            exact .inl (by simpa using hkey)
          · cases h
        · obtain ⟨rfl, rfl, rfl⟩ :
              keys = journal.desired.keys ∧ state' = state ∧ journal' = some journal := by
            simpa [eq_comm] using h
          obtain hkey | hkey | hkey := hkey
          · exact .inr (hdesired hkey)
          · exact .inl hkey
          · exact .inr hkey

omit [DecidableEq C] in
theorem old_of_managed {config : Config C} (h : unmanaged config p = [])
    (hkey : key ∈ p.desired.keys) : key ∈ p.old ∨ config key = none := by
  unfold unmanaged at h
  rw [List.filter_eq_nil_iff] at h
  have hmanaged := h key hkey
  rw [Bool.and_eq_true, decide_eq_true_eq, not_and_or, not_not, Option.not_isSome_iff_eq_none] at hmanaged
  exact hmanaged.symm

omit [DecidableEq C] in
theorem mem_plannedRequests {config : Config C} (h : request ∈ plannedRequests config p) :
    (∃ body, request = .put request.key body ∧ request.key ∈ p.desired.keys) ∨
      (request = .delete request.key ∧ request.key ∈ p.old ∧ request.key ∉ p.desired.keys ∧
        config request.key ≠ none) := by
  unfold plannedRequests at h
  rw [List.mem_append, List.mem_append, List.mem_map, List.mem_map, List.mem_map] at h
  unfold Desired.keys
  obtain (⟨e, he, rfl⟩ | ⟨e, he, rfl⟩) | ⟨key, hkey, rfl⟩ := h
  · exact .inl ⟨e.2, rfl, List.mem_append_right _ (List.mem_map_of_mem he)⟩
  · exact .inl ⟨e.2, rfl, List.mem_append_left _ (List.mem_map_of_mem he)⟩
  · rw [mem_sortedKeys, List.mem_filter, Bool.and_eq_true, decide_eq_true_eq,
      Option.isSome_iff_ne_none] at hkey
    exact .inr ⟨rfl, hkey.1, hkey.2.1, hkey.2.2⟩

omit [DecidableEq C] in
theorem apply_of_ne {config : Config C} (h : key ≠ request.key) :
    request.apply config key = config key := by
  cases request with
  | put key' body => exact Function.update_of_ne h _ _
  | delete key' => exact Function.update_of_ne h _ _

omit [DecidableEq C] in
theorem record_cases (key : Key) {removed retained removed' retained' : List Key}
    {answer : Answer} (h : request.record removed retained answer = (removed', retained')) :
    (key ∈ retained' → key ∈ retained ∨ (request = .delete key ∧ key.isFolder = false)) ∧
      (key ∈ removed → key ∈ removed') ∧ (key ∈ retained → key ∈ retained') ∧
      (∀ id, request = .delete (.device id) → .device id ∈ removed' ∨ .device id ∈ retained') := by
  unfold Request.record at h
  split at h
  · obtain ⟨rfl, rfl⟩ := Prod.mk.inj h
    refine ⟨.inl, List.mem_cons_of_mem _, id, ?_⟩
    rintro id ⟨⟩
    exact .inl List.mem_cons_self
  · obtain ⟨rfl, rfl⟩ := Prod.mk.inj h
    refine ⟨fun hkey => ?_, id, List.mem_cons_of_mem _, ?_⟩
    · obtain rfl | hkey := List.mem_cons.mp hkey
      · exact .inr ⟨rfl, rfl⟩
      · exact .inl hkey
    · rintro id ⟨⟩
      exact .inr List.mem_cons_self
  · rename_i hother _
    obtain ⟨rfl, rfl⟩ := Prod.mk.inj h
    refine ⟨.inl, id, id, ?_⟩
    rintro id rfl
    exact absurd rfl (hother id)

omit [DecidableEq C] in
theorem mem_names : key ∈ w.names ↔ key ∈ w.state.owned ∨ key ∈ w.journal.elim [] Journal.names ∨
    key ∈ w.process.elim [] Process.names := by
  unfold World.names
  rw [List.mem_append, List.mem_append, or_assoc]

omit [DecidableEq C] in
theorem names_stage (stage : Stage C) (hstage : p.stage ≠ .started)
    (htodo : ∀ request ∈ stage.todo, request.key ∈ p.names)
    (hretained : ∀ key ∈ stage.retained, key ∈ p.names)
    (hkey : key ∈ ({ p with stage := stage } : Process C).names) : key ∈ p.names := by
  unfold Process.names at hkey
  simp only [List.mem_append] at hkey
  obtain ((hkey | hkey) | hkey) | hkey := hkey
  · exact mem_old hkey
  · obtain ⟨request, hrequest, rfl⟩ := List.mem_map.mp hkey
    exact htodo request hrequest
  · exact hretained key hkey
  · apply mem_desired hstage
    split at hkey
    · cases hkey
    · exact hkey

theorem names_step (h : step generation expectedSubset w event = some w') (hkey : key ∈ w'.names) :
    key ∈ w.names ∨ w.config key = none := by
  have hsame : key ∈ w.state.owned ∨ key ∈ w.journal.elim [] Journal.names → key ∈ w.names :=
    fun h => mem_names.mpr (h.imp id .inl)
  cases change_of_step h with
  | refused => exact .inl hkey
  | started hprocess hinterrupted =>
    left
    apply hsame
    obtain hkey | hkey | hkey := mem_names.mp hkey
    · exact interrupted_names hinterrupted (.inr (.inl hkey))
    · exact interrupted_names hinterrupted (.inr (.inr hkey))
    · have hold : key ∈ w.state.owned ∨ _ := List.mem_append.mp (by simpa [Process.names,
        Stage.todo, Stage.retained] using hkey)
      obtain hkey | hkey := hold
      · exact .inl hkey
      · exact interrupted_names hinterrupted (.inl hkey)
  | stopped hprocess =>
    left
    obtain hkey | hkey | hkey := mem_names.mp hkey
    · exact hsame (.inl hkey)
    · exact hsame (.inr hkey)
    · cases hkey
  | @prepared p hprocess hstage hmanaged =>
    have hdesired : key ∈ p.desired.keys → key ∈ w.names ∨ w.config key = none := fun hkey =>
      (old_of_managed hmanaged hkey).imp (fun hold => names_process hprocess (mem_old hold)) id
    obtain hkey | hkey | hkey := mem_names.mp hkey
    · exact .inl (hsame (.inl hkey))
    · apply hdesired
      simpa [Journal.names] using hkey
    · simp only [Option.elim_some, Process.names, Stage.todo, Stage.retained, List.mem_append,
        List.not_mem_nil, or_false] at hkey
      obtain (hkey | hkey) | hkey := hkey
      · exact .inl (names_process hprocess (mem_old hkey))
      · obtain ⟨request, hrequest, rfl⟩ := List.mem_map.mp hkey
        obtain ⟨-, -, hdesired'⟩ | ⟨-, hold, -⟩ := mem_plannedRequests hrequest
        · exact hdesired hdesired'
        · exact .inl (names_process hprocess (mem_old hold))
      · exact hdesired hkey
  | @answered p request todo removed retained removed' retained' config applied answer hprocess hstage
      hconfig hgoesOn hrecord =>
    left
    obtain hkey | hkey | hkey := mem_names.mp hkey
    · exact hsame (.inl hkey)
    · exact hsame (.inr hkey)
    · apply names_process hprocess
      have hstarted : p.stage ≠ .started := by rw [hstage]; exact nofun
      refine names_stage (.requests todo removed' retained') hstarted ?_ ?_ hkey
      · intro request hrequest
        exact mem_todo hstage (List.mem_cons_of_mem _ hrequest)
      · intro key hretained
        obtain hretained | ⟨rfl, -⟩ := (record_cases _ hrecord).1 hretained
        · exact mem_retained hstage hretained
        · exact mem_todo hstage List.mem_cons_self
  | raised hprocess =>
    left
    obtain hkey | hkey | hkey := mem_names.mp hkey
    · exact hsame (.inl hkey)
    · exact hsame (.inr hkey)
    · cases hkey
  | @mutated p removed retained hprocess hstage =>
    left
    have hstarted : p.stage ≠ .started := by rw [hstage]; exact nofun
    obtain hkey | hkey | hkey := mem_names.mp hkey
    · exact hsame (.inl hkey)
    · apply names_process hprocess
      obtain hkey | hkey := List.mem_append.mp hkey
      · exact mem_desired hstarted hkey
      · exact mem_retained hstage hkey
    · apply names_process hprocess
      exact names_stage (.mutated removed retained) hstarted (List.forall_mem_nil _)
        (fun _ hretained => mem_retained hstage hretained) hkey
  | @verified p removed retained hprocess hstage hverify =>
    left
    have hstarted : p.stage ≠ .started := by rw [hstage]; exact nofun
    obtain hkey | hkey | hkey := mem_names.mp hkey
    · exact hsame (.inl hkey)
    · exact hsame (.inr hkey)
    · apply names_process hprocess
      exact names_stage (.verified retained) hstarted (List.forall_mem_nil _)
        (fun _ hretained => mem_retained hstage hretained) hkey
  | @committed p retained hprocess hstage =>
    left
    have hstarted : p.stage ≠ .started := by rw [hstage]; exact nofun
    obtain hkey | hkey | hkey := mem_names.mp hkey
    · exact hsame (.inl hkey)
    · apply names_process hprocess
      obtain hkey | hkey := List.mem_append.mp hkey
      · exact mem_desired hstarted hkey
      · exact mem_retained hstage hkey
    · apply names_process hprocess
      exact names_stage (.committed retained) hstarted (List.forall_mem_nil _)
        (fun _ hretained => mem_retained hstage hretained) hkey
  | @saved p retained hprocess hstage =>
    left
    have hstarted : p.stage ≠ .started := by rw [hstage]; exact nofun
    obtain hkey | hkey | hkey := mem_names.mp hkey
    · apply names_process hprocess
      obtain hkey | hkey := mem_expectedState.mp hkey
      · exact mem_desired hstarted hkey
      · exact mem_retained hstage hkey
    · exact hsame (.inr hkey)
    · apply names_process hprocess
      exact names_stage (.saved retained) hstarted (List.forall_mem_nil _)
        (fun _ hretained => mem_retained hstage hretained) hkey
  | finished =>
    left
    obtain hkey | hkey | hkey := mem_names.mp hkey
    · exact hsame (.inl hkey)
    · cases hkey
    · cases hkey

theorem config_step (key : Key) (h : step generation expectedSubset w event = some w') :
    w'.config key = w.config key ∨ key ∈ w.names := by
  have hrequest : ∀ {p : Process C} {request : Request C} {todo : List (Request C)}
      {removed retained : List Key} {config : Config C}, w.process = some p →
      p.stage = .requests (request :: todo) removed retained →
      (config = w.config ∨ config = request.apply w.config) →
      config key = w.config key ∨ key ∈ w.names := by
    intro p request todo removed retained config hprocess hstage hconfig
    obtain rfl | rfl := hconfig
    · exact .inl rfl
    · by_cases hkey : key = request.key
      · right
        rw [hkey]
        exact names_process hprocess (mem_todo hstage List.mem_cons_self)
      · exact .inl (apply_of_ne hkey)
  cases change_of_step h with
  | answered hprocess hstage hconfig => exact hrequest hprocess hstage hconfig
  | raised hprocess hstage hconfig => exact hrequest hprocess hstage hconfig
  | _ => exact .inl rfl

/-! ## What was there before -/

/-- Nothing that was there at first is named, and all of it is as it was. -/
structure Untouched (config : Config C) (w : World C) : Prop where
  names : ∀ key ∈ w.names, config key = none
  same : ∀ key, config key ≠ none → w.config key = config key

variable {config : Config C}

omit [DecidableEq C] in
theorem untouched_initial : Untouched config (.initial config) := ⟨nofun, fun _ _ => rfl⟩

omit [DecidableEq C] in
theorem Untouched.ended (h : Untouched config w) : Untouched config { w with process := none } where
  names := by
    intro key hkey
    obtain hkey | hkey | hkey := mem_names.mp hkey
    · exact h.names key (mem_names.mpr (.inl hkey))
    · exact h.names key (mem_names.mpr (.inr (.inl hkey)))
    · cases hkey
  same := h.same

theorem Untouched.step (hw : Untouched config w) (h : step generation expectedSubset w event = some w') :
    Untouched config w' where
  names := by
    intro key hkey
    by_contra hthere
    obtain hnamed | habsent := names_step h hkey
    · exact hthere (hw.names key hnamed)
    · rw [hw.same key hthere] at habsent
      exact hthere habsent
  same := by
    intro key hthere
    obtain hsame | hnamed := config_step key h
    · rw [hsame, hw.same key hthere]
    · exact absurd (hw.names key hnamed) hthere

/-- Whatever runs are made, and wherever they end, the folders and devices that were there before the
first of them stay as they were, and no request names one of them. -/
theorem untouched_of_reachable
    (h : Reachable (fun w event w' ↦ step generation expectedSubset w event = some w') (.initial config) w) :
    (∀ key body, config key = some body → w.config key = some body) ∧
      ∀ p, w.process = some p → ∀ request ∈ p.stage.todo, config request.key = none := by
  have hw : Untouched config w := h.invariant untouched_initial fun _ _ _ => Untouched.step
  constructor
  · intro key body hbody
    rw [hw.same key (by rw [hbody]; exact nofun), hbody]
  · intro p hprocess request hrequest
    exact hw.names _ (names_process hprocess (mem_todo rfl hrequest))

def demoConfig : Config Nat := fun key ↦ if key = .folder "photos".toList then some 1 else none

def demoDesired : Desired Nat := ⟨[("documents".toList, 2)], [("phone".toList, 3)]⟩

def demoInterrupted : List (Event Nat) :=
  [.start demoDesired, .prepare, .request true .accepted, .kill]

def demoGeneration (_ : Desired Nat) : Text := "generation".toList

def demoSubset (observed expected : Nat) : Bool := observed = expected

def demoStep : World Nat → Event Nat → Option (World Nat) := step demoGeneration demoSubset

theorem untouched_of_reachable_demo : ∃ w,
    demoInterrupted.foldlM demoStep (.initial demoConfig) = some w ∧
      w.config (.device "phone".toList) = some 3 ∧ w.config (.folder "photos".toList) = some 1 := by
  refine ⟨_, rfl, rfl, ?_⟩
  have hrun : Run (fun w event w' ↦ demoStep w event = some w') (.initial demoConfig) demoInterrupted _ :=
    run_of_foldlM rfl
  exact (untouched_of_reachable ⟨demoInterrupted, hrun⟩).1 _ _ rfl

end NixNas.Syncthing
