import NixNas.Reconcile.Topology

/-!
# Failed reconciles

Wherever a forward step raises, the handler restores the links and the activity that the snapshot
recorded.  The state file is left as the failing step left it.
-/

open Fallible Journal Settling

namespace NixNas.Reconcile

variable {Content : Type} {fs : Files} {codec : Codec Content} {manifest : Manifest}
  {w : World Content} {p : Prepared}

/-! ## A run up to the step that raises -/

/-- What a link operation needs and keeps true: its place is among `places`, all of which fit. -/
structure Ready (fs : Files) (places : List Place) (run : Runtime) (ops : List (Place × Option Text)) :
    Prop where
  fits : ∀ place ∈ places, Fits fs (run.lookup place)
  inside : ∀ e ∈ ops, e.1 ∈ places
  generated : ∀ e ∈ ops, ∀ source ∈ e.2, fs.generated source = true

theorem fits_of_sets {places : List Place} {run run' : Runtime} {place : Place} {node : Option Node}
    (hset : Sets place node run run') (hnode : Fits fs node)
    (h : ∀ q ∈ places, Fits fs (run.lookup q)) : ∀ q ∈ places, Fits fs (run'.lookup q) := by
  intro q hq
  by_cases heq : q = place
  · rw [heq, hset.same]
    exact hnode
  · rw [hset.other heq]
    exact h q hq

theorem perform_raised (fs : Files) (content : Content) (w : World Content) (late : Bool)
    (active : Text → Bool) (s : Step) :
    ∃ w', perform fs content (.raised late active) w s = .inl w' ∧
      (w'.runtime = w.runtime ∨ ∃ place source, s = .link place source ∧
        Sets place none w.runtime w'.runtime) ∧
      w'.state = if s = .writeState ∧ late = true then some content else w.state := by
  cases s with
  | link place source =>
    refine ⟨_, rfl, ?_, by simp⟩
    cases late with
    | false => exact .inl rfl
    | true =>
      rcases setLinkHalf_eq w.runtime place source with heq | hset
      · exact .inl heq
      · exact .inr ⟨place, source, rfl, hset⟩
  | writeState => exact ⟨_, rfl, .inl rfl, by simp⟩
  | _ => exact ⟨_, rfl, .inl rfl, by simp⟩

theorem perform_active {content : Content} {outcome : Outcome} {w' : World Content} {s : Step}
    (h : perform fs content outcome w s = .inl w' ∨ perform fs content outcome w s = .inr w') :
    w'.active = if s.isCommand then outcome.active else w.active := by
  cases s with
  | link place source =>
    cases outcome with
    | raised late active =>
      rcases h with h | h
      · cases h
        rfl
      · cases h
    | done active =>
      unfold perform at h
      dsimp only at h
      split at h <;> rcases h with h | h <;> cases h <;> rfl
  | _ =>
    cases outcome <;> rcases h with h | h <;> cases h <;> rfl

def activeAfter (sys : Step → Outcome) (steps : List Step) (active : Text → Bool) : Text → Bool :=
  steps.foldl (fun active s ↦ if s.isCommand then (sys s).active else active) active

theorem perform_succeeds (content : Content) (active : Text → Bool) {places : List Place}
    {s : Step} (h : Ready fs places w.runtime (linkOps [s])) :
    ∃ w', perform fs content (.done active) w s = .inr w' := by
  cases s with
  | link place source =>
    rcases setLink_succeeds (h.fits place (h.inside _ (.head _))) (h.generated _ (.head _)) with
      ⟨run', hset⟩
    unfold perform
    simp only
    rw [hset]
    exact ⟨_, rfl⟩
  | _ => exact ⟨_, rfl⟩

/-- After the steps `before` went through, `s` raised: the links differ inside `places` only and
still fit there, the state is the old one unless the new file was already in place, and the commands
have left their units as they did. -/
theorem forward_raised {content : Content} {sys : Step → Outcome} {places : List Place}
    {before after : List Step} {s : Step} {late : Bool} {active : Text → Bool}
    (hready : Ready fs places w.runtime (linkOps (before ++ [s])))
    (hdone : ∀ b ∈ before, ∃ a, sys b = .done a) (hraised : sys s = .raised late active)
    (hwrite : .writeState ∉ before) :
    (forward fs content sys w (before ++ s :: after)).failed = true ∧
      (forward fs content sys w (before ++ s :: after)).attempted = before ++ [s] ∧
      AgreeOff places w.runtime (forward fs content sys w (before ++ s :: after)).world.runtime ∧
      (∀ place ∈ places, Fits fs
        ((forward fs content sys w (before ++ s :: after)).world.runtime.lookup place)) ∧
      (forward fs content sys w (before ++ s :: after)).world.state =
          (if s = .writeState ∧ late = true then some content else w.state) ∧
      (forward fs content sys w (before ++ s :: after)).world.active =
        activeAfter sys (before ++ [s]) w.active := by
  induction before generalizing w with
  | nil =>
    rcases perform_raised fs content w late active s with ⟨w', hperform, hrun, hstate⟩
    have hactive := perform_active (.inl hperform)
    have hforward : forward fs content sys w ([] ++ s :: after) = ⟨[s], true, w'⟩ := by
      show forward fs content sys w (s :: after) = _
      unfold forward
      rw [hraised, hperform]
    rw [hforward]
    refine ⟨rfl, rfl, ?_, ?_, hstate, ?_⟩
    · rcases hrun with heq | ⟨place, source, rfl, hset⟩
      · show AgreeOff places w.runtime w'.runtime
        rw [heq]
        exact .refl places _
      · exact hset.agreeOff (hready.inside (place, source) (.head _))
    · rcases hrun with heq | ⟨place, source, rfl, hset⟩
      · show ∀ q ∈ places, Fits fs (w'.runtime.lookup q)
        rw [heq]
        exact hready.fits
      · exact fits_of_sets hset trivial hready.fits
    · show w'.active = if s.isCommand then (sys s).active else w.active
      rw [hactive, hraised]
  | cons b before ih =>
    rcases hdone b (.head before) with ⟨a, ha⟩
    have hsplit : linkOps (b :: before ++ [s]) = linkOps [b] ++ linkOps (before ++ [s]) :=
      linkOps_append [b] (before ++ [s])
    rw [hsplit] at hready
    have hfirst : Ready fs places w.runtime (linkOps [b]) :=
      ⟨hready.fits, fun e he => hready.inside e (List.mem_append_left _ he),
        fun e he => hready.generated e (List.mem_append_left _ he)⟩
    rcases perform_succeeds content a hfirst with ⟨w', hperform⟩
    have hactive := perform_active (.inr hperform)
    -- the step keeps the run ready and leaves the state alone
    have hstep : AgreeOff places w.runtime w'.runtime ∧
        (∀ q ∈ places, Fits fs (w'.runtime.lookup q)) ∧ w'.state = w.state := by
      rcases perform_done hperform with ⟨place, source, rfl, hset, hw⟩ | ⟨rfl, _, _⟩ |
        ⟨_, hrun, hw⟩
      · have hsets := setLink_sets hset
        have hin : (place, source) ∈ linkOps [.link place source] := .head _
        exact ⟨hsets.agreeOff (hfirst.inside _ hin),
          fits_of_sets hsets (fits_live (hfirst.generated _ hin)) hfirst.fits, hw⟩
      · exact (hwrite (.head before)).elim
      · rw [hrun]
        exact ⟨.refl places _, hfirst.fits, hw⟩
    have hready' : Ready fs places w'.runtime (linkOps (before ++ [s])) :=
      ⟨hstep.2.1, fun e he => hready.inside e (List.mem_append_right _ he),
        fun e he => hready.generated e (List.mem_append_right _ he)⟩
    have hih := ih hready' (fun c hc => hdone c (.tail b hc)) (fun hc => hwrite (.tail b hc))
    have hforward : forward fs content sys w (b :: before ++ s :: after) =
        { forward fs content sys w' (before ++ s :: after) with
          attempted := b :: (forward fs content sys w' (before ++ s :: after)).attempted } := by
      show forward fs content sys w (b :: (before ++ s :: after)) = _
      rw [forward.eq_def]
      simp only
      rw [ha, hperform]
    rw [hforward]
    rcases hih with ⟨hfailed, hattempted, hagree, hfits, hstate, hleft⟩
    refine ⟨hfailed, ?_, hstep.1.trans hagree, hfits, ?_, ?_⟩
    · show b :: (forward fs content sys w' (before ++ s :: after)).attempted = _
      rw [hattempted, List.cons_append]
    · show (forward fs content sys w' (before ++ s :: after)).world.state = _
      rw [hstate, hstep.2.2]
    · show (forward fs content sys w' (before ++ s :: after)).world.active =
        activeAfter sys (before ++ [s]) (if b.isCommand then (sys b).active else w.active)
      rw [hleft, hactive, ha]

/-! ## The snapshot of the links -/

theorem mem_places {place : Place} :
    place ∈ p.places ↔ place.2 ∈ p.targets place.1 ∪ p.stale place.1 := by
  rcases place with ⟨kind, target⟩
  cases kind <;> simp [Prepared.places]

theorem nodup_places : p.places.Nodup := by
  unfold Prepared.places
  apply List.Nodup.append
  · exact (nodup_sorted _).map fun _ _ h => (Prod.mk.inj h).2
  · exact (nodup_sorted _).map fun _ _ h => (Prod.mk.inj h).2
  · intro place h h'
    rcases List.mem_map.mp h with ⟨_, _, rfl⟩
    rcases List.mem_map.mp h' with ⟨_, _, heq⟩
    cases heq

theorem liveLinks_ok {run : Runtime} {live : List (Place × Option Text)}
    (h : p.liveLinks fs run = .ok live) :
    live.map Prod.fst = p.places ∧ (∀ e ∈ live, readOwnedLink fs run e.1 = .ok e.2) ∧
      ∀ place ∈ p.places, (affectedUnit place.1 place.2).isSome = true := by
  have hall := mapM_ok h
  clear h
  generalize p.places = places at hall
  induction hall with
  | nil => exact ⟨rfl, by simp, by simp⟩
  | cons hread _ ih =>
    rename_i place e places live
    rcases ih with ⟨hmap, hin, hsafe⟩
    split at hread
    · cases hread
    · rename_i unit hunit
      rcases map_ok hread with ⟨source, hsource, rfl⟩
      refine ⟨by rw [List.map_cons, hmap], ?_, ?_⟩
      · intro d hd
        rcases List.mem_cons.mp hd with rfl | hd
        · exact hsource
        · exact hin d hd
      · intro q hq
        rcases List.mem_cons.mp hq with rfl | hq
        · rw [hunit]
          rfl
        · exact hsafe q hq

theorem liveLinks_succeeds {run : Runtime}
    (h : ∀ place ∈ p.places,
      (affectedUnit place.1 place.2).isSome = true ∧ Fits fs (run.lookup place)) :
    ∃ live, p.liveLinks fs run = .ok live := by
  apply mapM_succeeds
  intro place hplace
  rcases Option.isSome_iff_exists.mp (h place hplace).1 with ⟨unit, hunit⟩
  rcases readOwnedLink_of_fits (h place hplace).2 with ⟨source, hsource⟩
  rw [hunit, hsource]
  exact ⟨(place, source), rfl⟩

theorem rollbackLinks_restores {run run' : Runtime} {live : List (Place × Option Text)}
    (hlive : p.liveLinks fs run = .ok live) (hagree : AgreeOff p.places run run')
    (hfits : ∀ place ∈ p.places, Fits fs (run'.lookup place)) :
    ∃ restored, rollbackLinks fs live run' = .ok restored ∧
      ∀ place, restored.lookup place = run.lookup place ∨
        run.lookup place = some .dangling ∧ restored.lookup place = none := by
  rcases liveLinks_ok hlive with ⟨hmap, hread, _⟩
  have hnodup : (live.map Prod.fst).Nodup := hmap ▸ nodup_places
  have hwrite : ∀ (s : Runtime) (e : Place × Option Text) s',
      setLink fs s e.1 e.2 = .ok s' → Sets e.1 (e.2.map Node.live) s s' :=
    fun _ _ _ hset => setLink_sets hset
  have hready : ∀ e ∈ live, Fits fs (run'.lookup e.1) ∧ ∀ s ∈ e.2, fs.generated s = true := by
    intro e he
    constructor
    · exact hfits e.1 (hmap ▸ List.mem_map_of_mem he)
    · intro s hs
      have hr := hread e he
      rw [Option.mem_def.mp hs] at hr
      exact (readOwnedLink_live.mp hr).2
  have hsucceeds : ∀ (s : Runtime) (e : Place × Option Text),
      Fits fs (s.lookup e.1) ∧ (∀ source ∈ e.2, fs.generated source = true) →
        ∃ s', setLink fs s e.1 e.2 = .ok s' :=
    fun _ _ h => setLink_succeeds h.1 h.2
  rcases @foldlM_succeeds _ _ _ _ _ _ _ _ _ (fun source node ↦
      Fits fs node ∧ ∀ s ∈ source, fs.generated s = true) hsucceeds hwrite hnodup hready with
    ⟨restored, hfold⟩
  refine ⟨restored, hfold, ?_⟩
  rcases foldlM_sets hwrite hnodup hfold with ⟨hin, hoff⟩
  intro place
  by_cases hplace : place ∈ p.places
  · rw [← hmap] at hplace
    rcases List.mem_map.mp hplace with ⟨e, he, rfl⟩
    rw [hin e he]
    rcases (readOwnedLink_ok (hread e he)).2 with ⟨hdangling, hnone⟩ | heq
    · rw [hnone]
      exact .inr ⟨hdangling, rfl⟩
    · exact .inl heq.symm
  · rw [hoff place (hmap ▸ hplace), hagree place hplace]
    exact .inl rfl

/-! ## The snapshot of the activity -/

theorem rollbackActiveState_eq {deps : Dependencies Text} {readable disrupted : Text → Bool}
    (active : Text → Bool) :
    rollbackActiveState deps (p.snapshot (look readable w)) disrupted active =
      settle deps w.active
        ((sorted p.allUnits).filter fun unit ↦ readable unit && !disrupted unit) active := by
  unfold Prepared.snapshot
  generalize sorted p.allUnits = units
  induction units generalizing active with
  | nil => rfl
  | cons unit units ih =>
    rw [List.map_cons, List.filter_cons]
    unfold rollbackActiveState
    rw [List.foldl_cons]
    show rollbackActiveState deps (units.map fun unit ↦ (unit, look readable w unit)) disrupted _ = _
    rw [ih]
    unfold look
    cases readable unit with
    | false => rfl
    | true =>
      cases hdisrupted : disrupted unit with
      | true => rfl
      | false =>
        simp only [if_true, Bool.false_or, Bool.not_false, Bool.and_self, decide_eq_true_eq]
        rfl

/-! ## What a plan starts -/

def planned (fs : Files) (codec : Codec Content) (readable : Text → Bool) (manifest : Manifest)
    (w : World Content) : Except Error (List Step) := do
  let p ← prepare fs codec manifest w
  if p.noop then .ok []
  else
    let _ ← p.liveLinks fs w.runtime
    .ok (p.steps (look readable w))

def Starts (steps : List Step) (unit : Text) : Prop := .start unit ∈ steps ∨ .restart unit ∈ steps

theorem starts_iff {seen : Text → Option Bool} {unit : Text} :
    Starts (p.steps seen) unit ↔
      unit ∈ p.restarted seen ∨ unit ∈ p.start ∧ unit ∉ p.prev.startUnits := by
  unfold Starts
  rw [mem_steps, mem_steps]
  show unit ∈ p.unitsToStart seen ∨ unit ∈ p.restarted seen ↔ _
  rw [Prepared.unitsToStart, Finset.mem_sdiff, Finset.mem_sdiff]
  constructor
  · rintro (⟨h, _⟩ | h)
    · exact .inr h
    · exact .inl h
  · rintro (h | h)
    · exact .inr h
    · by_cases hr : unit ∈ p.restarted seen
      · exact .inr hr
      · exact .inl ⟨h, hr⟩

theorem changedUnits_eq_empty (hnodup : ∀ kind, ((p.links kind).map Link.target).Nodup)
    (hprev : p.prev = p.recorded) : p.changedUnits = ∅ := by
  have hlinks : ∀ kind, p.changedLinks kind = [] := by
    intro kind
    unfold Prepared.changedLinks
    rw [List.filter_eq_nil_iff]
    intro l hl
    rw [decide_eq_true_eq, not_not, hprev]
    have hkeys : (((p.links kind).map fun l ↦ (l.target, Value.text l.digest)).map
        Prod.fst).Nodup := by
      rw [List.map_map]
      exact hnodup kind
    have hlookup : (p.currentHashes kind).lookup l.target = some (.text l.digest) :=
      (lookup_ofList hkeys).mpr (List.mem_map.mpr ⟨l, hl, rfl⟩)
    cases kind <;> exact hlookup
  unfold Prepared.changedUnits
  rw [hlinks, hlinks, hprev]
  simp [Prepared.recorded]

theorem not_noop_of_starts (hnodup : ∀ kind, ((p.links kind).map Link.target).Nodup)
    {seen : Text → Option Bool} {unit : Text} (h : Starts (p.steps seen) unit) :
    p.noop = false := by
  rw [Bool.eq_false_iff]
  intro hnoop
  have hprev : p.prev = p.recorded := by
    rw [Prepared.prev, (noop_iff.mp hnoop).1, Option.getD_some]
  rcases starts_iff.mp h with hr | ⟨hs, hnot⟩
  · rw [Prepared.restarted, changedUnits_eq_empty hnodup hprev] at hr
    simp at hr
  · rw [hprev] at hnot
    exact hnot hs

/-! ## The world after a failure -/

/-- The topology, the state and the activity of `w` have been restored, and a retry starts what the
failed run was to start.  A session counts where its activity was read and the manifest does not
stop it as well. -/
structure RolledBack (fs : Files) (codec : Codec Content) (readable : Text → Bool)
    (manifest : Manifest) (p : Prepared) (w w' : World Content) : Prop where
  links : ∀ place source, w.runtime.lookup place = some (.live source) →
    w'.runtime.lookup place = some (.live source)
  noNew : ∀ place node, w'.runtime.lookup place = some node → w.runtime.lookup place = some node
  state : w'.state = w.state
  active : ∀ unit ∈ p.allUnits, readable unit = true → isSessionTarget unit = false →
    w'.active unit = w.active unit
  retry : ∀ readable', ∃ steps, planned fs codec readable' manifest w' = .ok steps ∧
    ∀ unit, Starts (p.steps (look readable w)) unit →
      (isSessionTarget unit = true → readable unit = true ∧ unit ∉ p.stop) → Starts steps unit

/-- What the handler restores wherever the run failed. -/
structure Restored (readable : Text → Bool) (p : Prepared) (w w' : World Content) : Prop where
  runtime : ∀ place, w'.runtime.lookup place = w.runtime.lookup place ∨
    w.runtime.lookup place = some .dangling ∧ w'.runtime.lookup place = none
  sessions : ∀ unit ∈ p.allUnits, readable unit = true → isSessionTarget unit = true →
    unit ∉ p.unitsToStop (look readable w) → w'.active unit = w.active unit

/-- The units that have to be as active as before, in the order in which they are settled. -/
def Prepared.watched (p : Prepared) (readable : Text → Bool) : List Text :=
  (sorted p.allUnits).filter fun unit ↦ readable unit && !isSessionTarget unit

theorem mem_watched {readable : Text → Bool} {unit : Text} : unit ∈ p.watched readable ↔
    unit ∈ p.allUnits ∧ readable unit = true ∧ isSessionTarget unit = false := by
  unfold Prepared.watched
  rw [List.mem_filter, mem_sorted, Bool.and_eq_true, Bool.not_eq_true']

/-- No session of the plan depends on another unit of it, and no other one depends on a session:
`_filtered_effective` refuses such a service. -/
def SessionsApart (deps : Dependencies Text) (p : Prepared) : Prop :=
  ∀ a ∈ p.allUnits, ∀ b ∈ p.allUnits, isSessionTarget a = true ∨ isSessionTarget b = true →
    deps.pulls a b = true ∨ deps.drops a b = true → a = b

section Failed

variable {deps : Dependencies Text} {readable : Text → Bool} {sys : Step → Outcome}
  {live : List (Place × Option Text)} {before after : List Step} {s : Step} {late : Bool}
  {active : Text → Bool}

theorem writeState_notMem {seen : Text → Option Bool}
    (hsteps : p.steps seen = before ++ s :: after) : .writeState ∉ before := by
  have hlast : ∃ steps, p.steps seen = steps ++ [.writeState] ∧ .writeState ∉ steps := by
    refine ⟨_, rfl, ?_⟩
    rw [mem_earlier]
    exact id
  rcases hlast with ⟨steps, heq, hnot⟩
  intro hmem
  apply hnot
  -- `before` ends before the last step
  rw [heq] at hsteps
  have hne : s :: after ≠ [] := List.cons_ne_nil s after
  have hdrop := congrArg List.dropLast hsteps
  rw [List.dropLast_concat, List.dropLast_append_of_ne_nil hne] at hdrop
  rw [hdrop]
  exact List.mem_append_left _ hmem

theorem ready_steps (h : PreparedFrom fs codec manifest w p)
    (hlive : p.liveLinks fs w.runtime = .ok live) {seen : Text → Option Bool}
    (hsteps : p.steps seen = before ++ s :: after) :
    Ready fs p.places w.runtime (linkOps (before ++ [s])) := by
  have hsub : ∀ e ∈ linkOps (before ++ [s]), e ∈ p.linkSteps := by
    intro e he
    rw [← linkOps_steps seen, hsteps, show before ++ s :: after = (before ++ [s]) ++ after by simp,
      linkOps_append]
    exact List.mem_append_left _ he
  refine ⟨?_, ?_, ?_⟩
  · intro place hplace
    rcases liveLinks_ok hlive with ⟨hmap, hread, _⟩
    rw [← hmap] at hplace
    rcases List.mem_map.mp hplace with ⟨e, he, rfl⟩
    exact (readOwnedLink_ok (hread e he)).1
  · intro e he
    rw [mem_places, ← mem_linkSteps_places]
    exact List.mem_map_of_mem (hsub e he)
  · intro e he source hsource
    rcases mem_linkSteps.mp (hsub e he) with ⟨l, hl, heq⟩ | ⟨_, hnone⟩
    · rw [heq] at hsource
      cases hsource
      rcases exists_left (h.parses e.1.1) hl with ⟨item, _, hp⟩
      exact hp.generated
    · rw [hnone] at hsource
      cases hsource

theorem isSessionTarget_of_disrupted {attempted : List Step} {unit : Text}
    (h : p.disrupted (look readable w) attempted unit = true) :
    .stop unit ∈ attempted ∧ isSessionTarget unit = true := by
  unfold Prepared.disrupted Prepared.disrupts at h
  rw [Bool.and_eq_true, Bool.and_eq_true, decide_eq_true_eq] at h
  exact ⟨h.1, h.2.1⟩

theorem reconcile_failed (hprep : prepare fs codec manifest w = .ok p) (hnoop : p.noop = false)
    (hlive : p.liveLinks fs w.runtime = .ok live)
    (hsteps : p.steps (look readable w) = before ++ s :: after)
    (hdone : ∀ b ∈ before, ∃ a, sys b = .done a) (hraised : sys s = .raised late active) :
    (∃ disrupted, (reconcile fs codec deps readable sys manifest w).result =
        .error (.failed (before ++ [s]) disrupted none)) ∧
      (∀ place, (reconcile fs codec deps readable sys manifest w).world.runtime.lookup place =
          w.runtime.lookup place ∨
        w.runtime.lookup place = some .dangling ∧
          (reconcile fs codec deps readable sys manifest w).world.runtime.lookup place = none) ∧
      (reconcile fs codec deps readable sys manifest w).world.state =
        (if s = .writeState ∧ late = true then some (codec.dump p.recorded) else w.state) ∧
      (reconcile fs codec deps readable sys manifest w).world.active =
        settle deps w.active ((sorted p.allUnits).filter fun unit ↦ readable unit &&
            !p.disrupted (look readable w) (before ++ [s]) unit)
          (activeAfter sys (before ++ [s]) w.active) := by
  have hp := prepare_ok hprep
  have hready := ready_steps hp hlive hsteps
  rcases @forward_raised _ fs w (codec.dump p.recorded) sys p.places before after s late active
    hready hdone hraised (writeState_notMem hsteps) with
    ⟨hfailed, hattempted, hagree, hfits, hstate, hleft⟩
  have hrun : reconcile fs codec deps readable sys manifest w =
      recover fs deps p (look readable w) live
        (forward fs (codec.dump p.recorded) sys w (before ++ s :: after)) := by
    unfold reconcile
    rw [hprep]
    simp only
    rw [if_neg (by rw [hnoop]; exact Bool.false_ne_true), hlive]
    simp only
    rw [hsteps, if_pos hfailed]
  rcases rollbackLinks_restores hlive hagree hfits with ⟨restored, hrollback, hrestored⟩
  generalize forward fs (codec.dump p.recorded) sys w (before ++ s :: after) = a at *
  have hrecover : recover fs deps p (look readable w) live a =
      ⟨.error (.failed a.attempted ((sorted p.allUnits).filter
          (p.disrupted (look readable w) a.attempted)) none), a.attempted,
        { a.world with
          runtime := restored
          active := rollbackActiveState deps (p.snapshot (look readable w))
            (p.disrupted (look readable w) a.attempted) a.world.active }⟩ := by
    unfold recover
    simp only
    rw [hrollback]
  rw [hrun, hrecover]
  refine ⟨⟨_, by rw [hattempted]⟩, hrestored, hstate, ?_⟩
  show rollbackActiveState deps (p.snapshot (look readable w))
    (p.disrupted (look readable w) a.attempted) a.world.active = _
  rw [rollbackActiveState_eq, hattempted, hleft]

theorem restored_of_failed (hprep : prepare fs codec manifest w = .ok p) (hnoop : p.noop = false)
    (hlive : p.liveLinks fs w.runtime = .ok live)
    (hsteps : p.steps (look readable w) = before ++ s :: after)
    (hdone : ∀ b ∈ before, ∃ a, sys b = .done a) (hraised : sys s = .raised late active)
    (hsessions : SessionsApart deps p) :
    Restored readable p w (reconcile fs codec deps readable sys manifest w).world := by
  rcases reconcile_failed hprep hnoop hlive hsteps hdone hraised with ⟨-, hruntime, -, hactive⟩
  refine ⟨hruntime, fun unit hall hreadable hsession hnot => ?_⟩
  rw [hactive]
  apply settle_apart
  · rw [List.mem_filter, mem_sorted, hreadable, Bool.true_and, Bool.not_eq_true',
      ← Bool.not_eq_true]
    refine ⟨hall, fun hdisrupted => ?_⟩
    have hstop : .stop unit ∈ p.steps (look readable w) := by
      rw [hsteps, List.append_cons]
      exact List.mem_append_left _ (isSessionTarget_of_disrupted hdisrupted).1
    exact hnot (mem_steps.mp hstop).1
  · intro v hv
    exact hsessions v (mem_sorted.mp (List.mem_filter.mp hv).1) unit hall (.inr hsession)

/-- The other units are as active as before exactly when they can be settled in their order. -/
theorem active_iff (hprep : prepare fs codec manifest w = .ok p) (hnoop : p.noop = false)
    (hlive : p.liveLinks fs w.runtime = .ok live)
    (hsteps : p.steps (look readable w) = before ++ s :: after)
    (hdone : ∀ b ∈ before, ∃ a, sys b = .done a) (hraised : sys s = .raised late active)
    (hsessions : SessionsApart deps p) :
    (∀ unit ∈ p.allUnits, readable unit = true → isSessionTarget unit = false →
        (reconcile fs codec deps readable sys manifest w).world.active unit = w.active unit) ↔
      Restorable deps w.active (activeAfter sys (before ++ [s]) w.active) (p.watched readable) := by
  rcases reconcile_failed hprep hnoop hlive hsteps hdone hraised with ⟨-, -, -, hactive⟩
  have hwatched : p.watched readable = ((sorted p.allUnits).filter fun unit ↦ readable unit &&
      !p.disrupted (look readable w) (before ++ [s]) unit).filter (!isSessionTarget ·) := by
    unfold Prepared.watched
    rw [List.filter_filter]
    refine List.filter_congr fun unit _ => ?_
    cases hsession : isSessionTarget unit with
    | true => rw [Bool.not_true, Bool.and_false, Bool.false_and]
    | false =>
      have hno : p.disrupted (look readable w) (before ++ [s]) unit = false := by
        rw [← Bool.not_eq_true]
        intro hdisrupted
        cases hsession.symm.trans (isSessionTarget_of_disrupted hdisrupted).2
      rw [hno, Bool.not_false, Bool.and_true, Bool.true_and]
  -- session targets touch nothing else, so the list can be settled without them
  have hapart : ∀ v ∈ sorted p.allUnits, (!isSessionTarget v) = false → ∀ x ∈ sorted p.allUnits,
      (!isSessionTarget x) = true → deps.pulls v x = false ∧ deps.drops v x = false := by
    intro v hv hsession x hx hother
    rw [Bool.not_eq_false'] at hsession
    rw [Bool.not_eq_true'] at hother
    have hno : ¬ (deps.pulls v x = true ∨ deps.drops v x = true) := by
      intro htouch
      have heq := hsessions v (mem_sorted.mp hv) x (mem_sorted.mp hx) (.inl hsession) htouch
      rw [heq, hother] at hsession
      cases hsession
    rw [not_or, Bool.not_eq_true, Bool.not_eq_true] at hno
    exact hno
  have hsettle : ∀ x ∈ sorted p.allUnits, (!isSessionTarget x) = true →
      settle deps w.active ((sorted p.allUnits).filter fun unit ↦ readable unit &&
          !p.disrupted (look readable w) (before ++ [s]) unit)
          (activeAfter sys (before ++ [s]) w.active) x =
        settle deps w.active (p.watched readable) (activeAfter sys (before ++ [s]) w.active) x := by
    rw [hwatched]
    exact settle_filter (List.filter_subset_self _) hapart fun _ _ _ => rfl
  rw [← settled_iff, hactive]
  constructor
  · intro h unit hunit
    obtain ⟨hall, hreadable, hsession⟩ := mem_watched.mp hunit
    rw [← hsettle unit (mem_sorted.mpr hall) (by rw [hsession]; rfl)]
    exact h unit hall hreadable hsession
  · intro h unit hall hreadable hsession
    rw [hsettle unit (mem_sorted.mpr hall) (by rw [hsession]; rfl)]
    exact h unit (mem_watched.mpr ⟨hall, hreadable, hsession⟩)

end Failed

theorem first_raised (sys : Step → Outcome) (steps : List Step) :
    (∀ s ∈ steps, ∃ a, sys s = .done a) ∨
      ∃ before s after late active, steps = before ++ s :: after ∧
        (∀ b ∈ before, ∃ a, sys b = .done a) ∧ sys s = .raised late active := by
  induction steps with
  | nil => exact .inl (by simp)
  | cons s steps ih =>
    cases hs : sys s with
    | raised late active => exact .inr ⟨[], s, steps, late, active, rfl, by simp, hs⟩
    | done a =>
      rcases ih with hall | ⟨before, t, after, late, active, rfl, hbefore, ht⟩
      · exact .inl (List.forall_mem_cons.mpr ⟨⟨a, hs⟩, hall⟩)
      · exact .inr ⟨s :: before, t, after, late, active, rfl,
          List.forall_mem_cons.mpr ⟨⟨a, hs⟩, hbefore⟩, ht⟩

theorem forward_done {content : Content} {sys : Step → Outcome} {places : List Place}
    {steps : List Step} (hready : Ready fs places w.runtime (linkOps steps))
    (hdone : ∀ s ∈ steps, ∃ a, sys s = .done a) :
    (forward fs content sys w steps).failed = false := by
  induction steps generalizing w with
  | nil => rfl
  | cons s steps ih =>
    rcases hdone s (.head steps) with ⟨a, ha⟩
    have hsplit : linkOps (s :: steps) = linkOps [s] ++ linkOps steps := linkOps_append [s] steps
    rw [hsplit] at hready
    have hfirst : Ready fs places w.runtime (linkOps [s]) :=
      ⟨hready.fits, fun e he => hready.inside e (List.mem_append_left _ he),
        fun e he => hready.generated e (List.mem_append_left _ he)⟩
    rcases perform_succeeds content a hfirst with ⟨w', hperform⟩
    have hfits : ∀ q ∈ places, Fits fs (w'.runtime.lookup q) := by
      rcases perform_done hperform with ⟨place, source, rfl, hset, _⟩ | ⟨_, hrun, _⟩ |
        ⟨_, hrun, _⟩
      · have hin : (place, source) ∈ linkOps [.link place source] := .head _
        exact fits_of_sets (setLink_sets hset) (fits_live (hfirst.generated _ hin)) hfirst.fits
      · rw [hrun]
        exact hfirst.fits
      · rw [hrun]
        exact hfirst.fits
    have hrest := @ih w' ⟨hfits, fun e he => hready.inside e (List.mem_append_right _ he),
      fun e he => hready.generated e (List.mem_append_right _ he)⟩
      fun t ht => hdone t (.tail s ht)
    rw [forward.eq_def]
    simp only
    rw [ha, hperform]
    exact hrest

theorem runtime_of_error {deps : Dependencies Text} {readable : Text → Bool}
    {sys : Step → Outcome} {failure : Failure}
    (h : (reconcile fs codec deps readable sys manifest w).result = .error failure)
    (place : Place) :
    (reconcile fs codec deps readable sys manifest w).world.runtime.lookup place =
        w.runtime.lookup place ∨
      w.runtime.lookup place = some .dangling ∧
        (reconcile fs codec deps readable sys manifest w).world.runtime.lookup place = none := by
  cases hprep : prepare fs codec manifest w with
  | error e =>
    unfold reconcile
    rw [hprep]
    exact .inl rfl
  | ok p =>
    cases hnoop : p.noop with
    | true =>
      unfold reconcile
      rw [hprep]
      simp only
      rw [if_pos hnoop]
      exact .inl rfl
    | false =>
      cases hlive : p.liveLinks fs w.runtime with
      | error e =>
        unfold reconcile
        rw [hprep]
        simp only
        rw [if_neg (by rw [hnoop]; exact Bool.false_ne_true), hlive]
        exact .inl rfl
      | ok live =>
        rcases first_raised sys (p.steps (look readable w)) with hall |
          ⟨before, s, after, late, active, hsteps, hbefore, hs⟩
        · -- nothing raised, so the run has returned
          have hready := @ready_steps _ fs codec manifest w p live
            (p.stopSteps (look readable w) ++ p.linkSteps.map (fun e ↦ .link e.1 e.2) ++
              p.startSteps (look readable w)) [] .writeState (prepare_ok hprep) hlive
            (look readable w) rfl
          have hok := @forward_done _ fs w (codec.dump p.recorded) sys _ _ hready hall
          unfold reconcile at h
          rw [hprep] at h
          simp only at h
          rw [if_neg (by rw [hnoop]; exact Bool.false_ne_true), hlive] at h
          simp only at h
          rw [if_neg (by
            show ¬ (forward fs (codec.dump p.recorded) sys w (p.steps (look readable w))).failed =
              true
            rw [show p.steps (look readable w) = _ from rfl, Prepared.steps, hok]
            exact Bool.false_ne_true)] at h
          cases h
        · exact (reconcile_failed hprep hnoop hlive hsteps hbefore hs).2.1 place

/-! ## The retry -/

theorem fits_of_restored {readable : Text → Bool} {w' : World Content}
    (hr : Restored readable p w w') {place : Place} (h : Fits fs (w.runtime.lookup place)) :
    Fits fs (w'.runtime.lookup place) := by
  rcases hr.runtime place with heq | ⟨_, hnone⟩
  · rw [heq]
    exact h
  · rw [hnone]
    trivial

theorem discover_of_restored {readable : Text → Bool} {w' : World Content}
    (hr : Restored readable p w w') (kind : Kind) :
    discover w'.runtime kind ⊆ discover w.runtime kind := by
  intro target htarget
  rcases mem_discover.mp htarget with ⟨hdisc, node, hnode, hlink⟩
  rcases hr.runtime (kind, target) with heq | ⟨_, hnone⟩
  · rw [heq] at hnode
    exact mem_discover.mpr ⟨hdisc, node, hnode, hlink⟩
  · rw [hnone] at hnode
    cases hnode

theorem prepare_retry {readable : Text → Bool} {w' : World Content}
    (h : PreparedFrom fs codec manifest w p) (hr : Restored readable p w w')
    (hstate : w'.state = w.state) : ∃ drift, prepare fs codec manifest w' =
      .ok { p with drift := drift, discovered := discover w'.runtime } := by
  classical
  refine ⟨decide (∃ kind, ∃ l ∈ p.links kind,
    w'.runtime.lookup (kind, l.target) ≠ some (.live l.source)), prepare_of ?_⟩
  refine ⟨h.toManifestOk.rerun _ p.previous _, ?_, h.previous_ok, ?_, ?_, rfl⟩
  · rw [hstate]
    exact h.previous
  · intro kind l hl
    rw [links_rerun _ p.previous] at hl
    exact fits_of_restored hr (h.fits kind l hl)
  · rw [decide_eq_true_eq]
    simp only [links_rerun _ p.previous]

theorem liveLinks_retry {readable : Text → Bool} {w' : World Content} {drift : Bool}
    {live : List (Place × Option Text)} (h : PreparedFrom fs codec manifest w p)
    (hr : Restored readable p w w') (hlive : p.liveLinks fs w.runtime = .ok live) :
    ∃ live', Prepared.liveLinks
      { p with drift := drift, discovered := discover w'.runtime } fs w'.runtime = .ok live' := by
  rcases liveLinks_ok hlive with ⟨hmap, hread, hsafe⟩
  have hold : ∀ place ∈ p.places, (affectedUnit place.1 place.2).isSome = true ∧
      Fits fs (w'.runtime.lookup place) := by
    intro place hplace
    refine ⟨hsafe place hplace, fits_of_restored hr ?_⟩
    rw [← hmap] at hplace
    rcases List.mem_map.mp hplace with ⟨e, he, rfl⟩
    exact (readOwnedLink_ok (hread e he)).1
  apply liveLinks_succeeds
  intro place hplace
  apply hold
  -- the retry discovers no link that the first run did not discover
  rw [mem_places, Finset.mem_union] at hplace ⊢
  rw [Prepared.stale, Finset.mem_sdiff, Finset.mem_union] at hplace ⊢
  have htargets : Prepared.targets
      { p with drift := drift, discovered := discover w'.runtime } place.1 = p.targets place.1 := by
    unfold Prepared.targets
    rw [links_rerun _ p.previous]
  rw [htargets] at hplace
  rcases hplace with ht | ⟨hk | hd, ht⟩
  · exact .inl ht
  · exact .inr ⟨.inl hk, ht⟩
  · refine .inr ⟨.inr ?_, ht⟩
    rw [h.discovered]
    exact discover_of_restored hr place.1 hd

theorem starts_retry {readable readable' : Text → Bool} {w' : World Content} {drift : Bool}
    (hr : Restored readable p w w') {unit : Text}
    (hstarts : Starts (p.steps (look readable w)) unit)
    (hsession : isSessionTarget unit = true → readable unit = true ∧ unit ∉ p.stop) :
    Starts (Prepared.steps { p with drift := drift, discovered := discover w'.runtime }
      (look readable' w')) unit := by
  rw [starts_iff] at hstarts ⊢
  rcases hstarts with hrestart | hstart
  · apply Or.inl
    rw [Prepared.restarted, Finset.mem_sdiff, Prepared.changedSessions, Finset.mem_union,
      not_or] at hrestart ⊢
    rcases hrestart with ⟨hwanted, hlinked, hunlinked⟩
    refine ⟨hwanted, hlinked, ?_⟩
    intro hactive
    rcases Finset.mem_inter.mp hwanted with ⟨hmem, hstart⟩
    rcases Finset.mem_inter.mp hmem with ⟨hchanged, howned⟩
    rcases Finset.mem_filter.mp hactive with ⟨_, hs, hprev, htarget, hlook⟩
    rcases hsession hs with ⟨hreadable, hstop⟩
    -- the session was read as inactive, so that the rollback has stopped it again
    have hinactive : w.active unit = false := by
      rw [Bool.eq_false_iff]
      intro hw
      apply hunlinked
      refine Finset.mem_filter.mpr ⟨hchanged, hs, hprev, htarget, ?_⟩
      unfold look
      rw [if_pos hreadable, hw]
    have hall : unit ∈ p.allUnits := by
      unfold Prepared.allUnits
      exact Finset.mem_union_right _ hchanged
    have hnotStopped : unit ∉ p.unitsToStop (look readable w) := by
      unfold Prepared.unitsToStop Prepared.stoppedUnits
      rw [Finset.mem_union, Finset.mem_union, Finset.mem_union, Finset.mem_union]
      rintro ((((hretired | hless) | hstop') | hlinked') | hunlinked')
      · exact (Finset.mem_sdiff.mp hretired).2 howned
      · exact (Finset.mem_sdiff.mp hless).2 hstart
      · exact hstop hstop'
      · exact hlinked hlinked'
      · exact hunlinked hunlinked'
    have hrestored := hr.sessions unit hall hreadable hs hnotStopped
    unfold look at hlook
    rw [hrestored, hinactive] at hlook
    split at hlook <;> cases hlook
  · exact .inr hstart

theorem rolledBack_of_restored {readable : Text → Bool} {w' : World Content}
    {live : List (Place × Option Text)} (h : PreparedFrom fs codec manifest w p)
    (hlive : p.liveLinks fs w.runtime = .ok live) (hr : Restored readable p w w')
    (hstate : w'.state = w.state)
    (hactive : ∀ unit ∈ p.allUnits, readable unit = true → isSessionTarget unit = false →
      w'.active unit = w.active unit) :
    RolledBack fs codec readable manifest p w w' := by
  refine ⟨?_, ?_, hstate, hactive, ?_⟩
  · intro place source hplace
    rcases hr.runtime place with heq | ⟨hdangling, _⟩
    · rw [heq, hplace]
    · rw [hplace] at hdangling
      cases hdangling
  · intro place node hnode
    rcases hr.runtime place with heq | ⟨_, hnone⟩
    · rw [← heq, hnode]
    · rw [hnone] at hnode
      cases hnode
  · intro readable'
    rcases prepare_retry h hr hstate with ⟨drift, hprep⟩
    rcases @liveLinks_retry _ _ _ _ _ _ _ _ drift _ h hr hlive with ⟨live', hlive'⟩
    have hsteps : ∀ unit, Starts (p.steps (look readable w)) unit →
        (isSessionTarget unit = true → readable unit = true ∧ unit ∉ p.stop) →
        Starts (Prepared.steps { p with drift := drift, discovered := discover w'.runtime }
          (look readable' w')) unit :=
      fun unit hstarts hsession => starts_retry hr hstarts hsession
    have hnodup := (h.toManifestOk.rerun drift p.previous (discover w'.runtime)).nodup
    generalize ({ p with drift := drift, discovered := discover w'.runtime } : Prepared) = q at *
    unfold planned
    rw [hprep]
    show ∃ steps, (if q.noop = true then .ok []
      else q.liveLinks fs w'.runtime >>= fun _ ↦ .ok (q.steps (look readable' w'))) =
        Except.ok steps ∧ _
    by_cases hnoop : q.noop = true
    · rw [if_pos hnoop]
      refine ⟨[], rfl, ?_⟩
      intro unit hstarts hsession
      rw [not_noop_of_starts hnodup (hsteps unit hstarts hsession)] at hnoop
      cases hnoop
    · rw [if_neg hnoop, hlive']
      exact ⟨_, rfl, hsteps⟩

/-! ## When a failed reconcile is rolled back -/

def fresh : World Recorded where
  runtime := ∅
  state := none
  active := fun _ ↦ false

def failsAt (step : Step) (late : Bool) (s : Step) : Outcome :=
  if s = step then .raised late fun _ ↦ true else .done fun _ ↦ true

def appUnit : Text := "nas-v2-app.service".toList

def dbUnit : Text := "nas-v2-db.service".toList

def appOnDb : Dependencies Text where
  pulls a b := a = b || a = appUnit && b = dbUnit
  drops a b := a = b || a = dbUnit && b = appUnit
  pulls_self a := by simp
  drops_self a := by simp
  pulls_trans {a b c} h h' := by
    have hne : appUnit ≠ dbUnit := by decide
    simp only [Bool.or_eq_true, Bool.and_eq_true, decide_eq_true_eq] at h h' ⊢
    grind
  drops_trans {a b c} h h' := by
    have hne : appUnit ≠ dbUnit := by decide
    simp only [Bool.or_eq_true, Bool.and_eq_true, decide_eq_true_eq] at h h' ⊢
    grind
  drops_of_pulls {a b} h := by
    simp only [Bool.or_eq_true, Bool.and_eq_true, decide_eq_true_eq] at h ⊢
    grind

def shopLinks : List (Text × Text) :=
  [(appUnit, "/g/systemd/nas-v2-app.service".toList), (dbUnit, "/g/systemd/nas-v2-db.service".toList)]

def shopManifest : Manifest where
  schemaVersion := 1
  links := shopLinks
  quadletLinks := []
  ownedUnits := [appUnit, dbUnit]
  startUnits := [appUnit, dbUnit]
  stopUnits := []
  fingerprints := ∅

/-- The database has failed, and the application is still active. -/
def shop : World Recorded where
  runtime := ofList (shopLinks.map fun l ↦ ((.systemd, l.1), .live l.2))
  state := some {
    links := ofList (shopLinks.map fun l ↦ (l.1, .text l.2))
    linkHashes := ofList (shopLinks.map fun l ↦ (l.1, .text l.2))
    quadletLinks := ∅
    quadletHashes := ∅
    ownedUnits := {appUnit, dbUnit}
    startUnits := {appUnit}
    stopUnits := ∅
    fingerprints := ∅ }
  active := fun unit ↦ unit = appUnit

end NixNas.Reconcile
