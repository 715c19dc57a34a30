import NixNas.Reconcile.Planning

/-!
# The topology after a reconcile

A run that returns has installed the links of the manifest and removed every other link that V2
owns, whatever it found before; the next run has nothing to do.
-/

open Fallible Journal Settling

namespace NixNas.Reconcile

variable {Content : Type} {fs : Files} {codec : Codec Content} {manifest : Manifest}
  {w : World Content} {p : Prepared}
variable {s : Step} {sys : Step → Outcome} {deps : Dependencies Text} {seen : Text → Option Bool}

/-! ## Forward runs -/

def linkOps (steps : List Step) : List (Place × Option Text) :=
  steps.filterMap fun s ↦
    match s with
    | .link place source => some (place, source)
    | _ => none

theorem linkOps_map (l : List (Place × Option Text)) :
    linkOps (l.map fun e ↦ .link e.1 e.2) = l := by
  unfold linkOps
  rw [List.filterMap_map]
  exact List.filterMap_some

theorem linkOps_append (l m : List Step) : linkOps (l ++ m) = linkOps l ++ linkOps m :=
  List.filterMap_append

theorem linkOps_eq_nil {l : List Step} (h : ∀ s ∈ l, s.isCommand = true) : linkOps l = [] := by
  unfold linkOps
  rw [List.filterMap_eq_nil_iff]
  intro s hs
  have hcommand := h s hs
  cases s <;> first | rfl | cases hcommand

theorem perform_done {content : Content} {outcome : Outcome} {w' : World Content}
    (h : perform fs content outcome w s = .inr w') :
    (∃ place source, s = .link place source ∧
        setLink fs w.runtime place source = .ok w'.runtime ∧ w'.state = w.state) ∨
      (s = .writeState ∧ w'.runtime = w.runtime ∧ w'.state = some content) ∨
      (s.isCommand = true ∧ w'.runtime = w.runtime ∧ w'.state = w.state) := by
  cases s with
  | link place source =>
    cases outcome with
    | raised late active => cases h
    | done active =>
      simp only [perform] at h
      split at h
      · cases h
      · rename_i runtime hset
        cases h
        exact .inl ⟨place, source, rfl, hset, rfl⟩
  | writeState =>
    cases outcome with
    | raised late active => cases h
    | done active =>
      cases h
      exact .inr (.inl ⟨rfl, rfl, rfl⟩)
  | _ =>
    cases outcome with
    | raised late active => cases h
    | done active =>
      cases h
      exact .inr (.inr ⟨rfl, rfl, rfl⟩)

theorem forward_ok {content : Content} {steps : List Step}
    (h : (forward fs content sys w steps).failed = false) :
    (linkOps steps).foldlM (fun run e ↦ setLink fs run e.1 e.2) w.runtime =
        .ok (forward fs content sys w steps).world.runtime ∧
      (forward fs content sys w steps).world.state =
        (if .writeState ∈ steps then some content else w.state) := by
  induction steps generalizing w with
  | nil => exact ⟨rfl, rfl⟩
  | cons s steps ih =>
    unfold forward at h ⊢
    split at h
    · cases h
    · rename_i w' hperform
      rcases ih h with ⟨hfold, hstate⟩
      rcases perform_done hperform with ⟨place, source, rfl, hset, hw⟩ | ⟨rfl, hrun, hw⟩ |
        ⟨hcommand, hrun, hw⟩
      · constructor
        · show (setLink fs w.runtime place source >>= _) = _
          rw [hset]
          exact hfold
        · show (forward fs content sys w' steps).world.state = _
          rw [hstate, hw]
          simp
      · constructor
        · show (linkOps steps).foldlM _ w.runtime = _
          rw [← hrun]
          exact hfold
        · show (forward fs content sys w' steps).world.state = _
          rw [hstate, hw, ite_self, if_pos (.head steps)]
      · have hlink : linkOps (s :: steps) = linkOps steps := by
          cases s <;> first | rfl | cases hcommand
        constructor
        · rw [hlink, ← hrun]
          exact hfold
        · show (forward fs content sys w' steps).world.state = _
          rw [hstate, hw]
          have : .writeState ≠ s := by
            rintro rfl
            cases hcommand
          simp [this]

/-! ## The link operations of a plan -/

theorem mem_targets {kind : Kind} {target : Text} :
    target ∈ p.targets kind ↔ ∃ l ∈ p.links kind, l.target = target := by
  unfold Prepared.targets
  rw [List.mem_toFinset, List.mem_map]

theorem mem_linkSteps {e : Place × Option Text} :
    e ∈ p.linkSteps ↔
      (∃ l ∈ p.links e.1.1, e = ((e.1.1, l.target), some l.source)) ∨
        (e.1.2 ∈ p.stale e.1.1 ∧ e.2 = none) := by
  rcases e with ⟨⟨kind, target⟩, source⟩
  cases kind <;> simp [Prepared.linkSteps, eq_comm]

theorem mem_linkSteps_places {place : Place} :
    place ∈ p.linkSteps.map Prod.fst ↔ place.2 ∈ p.targets place.1 ∪ p.stale place.1 := by
  rw [List.mem_map, Finset.mem_union, mem_targets]
  constructor
  · rintro ⟨e, he, rfl⟩
    rcases mem_linkSteps.mp he with ⟨l, hl, heq⟩ | ⟨hs, _⟩
    · rw [heq]
      exact .inl ⟨l, hl, rfl⟩
    · exact .inr hs
  · rintro (⟨l, hl, heq⟩ | hs)
    · exact ⟨(place, some l.source), mem_linkSteps.mpr (.inl ⟨l, hl, by rw [heq]⟩), rfl⟩
    · exact ⟨(place, none), mem_linkSteps.mpr (.inr ⟨hs, rfl⟩), rfl⟩

theorem nodup_linkSteps (hnodup : ∀ kind, ((p.links kind).map Link.target).Nodup) :
    (p.linkSteps.map Prod.fst).Nodup := by
  have hpair : ∀ (kind : Kind) (l : List Text), l.Nodup → (l.map (Prod.mk kind)).Nodup :=
    fun kind l hl => hl.map fun _ _ h => (Prod.mk.inj h).2
  -- a place is a link of the manifest or stale, and belongs to one directory
  have hstale : ∀ kind target, target ∈ p.stale kind → ∀ l ∈ p.links kind, l.target ≠ target := by
    intro kind target hs l hl heq
    exact (Finset.mem_sdiff.mp hs).2 (mem_targets.mpr ⟨l, hl, heq⟩)
  have hsplit : p.linkSteps.map Prod.fst =
      ((p.links .systemd).map Link.target).map (Prod.mk Kind.systemd) ++
        ((p.links .quadlet).map Link.target).map (Prod.mk Kind.quadlet) ++
        (sorted (p.stale .systemd)).map (Prod.mk Kind.systemd) ++
        (sorted (p.stale .quadlet)).map (Prod.mk Kind.quadlet) := by
    simp [Prepared.linkSteps, Function.comp_def]
  rw [hsplit]
  refine List.Nodup.append (List.Nodup.append (List.Nodup.append ?_ ?_ ?_) ?_ ?_) ?_ ?_
  · exact hpair _ _ (hnodup .systemd)
  · exact hpair _ _ (hnodup .quadlet)
  · intro place h h'
    simp only [List.mem_map] at h h'
    rcases h with ⟨_, _, rfl⟩
    rcases h' with ⟨_, _, heq⟩
    cases heq
  · exact hpair _ _ (nodup_sorted _)
  · intro place h h'
    simp only [List.mem_append, List.mem_map, mem_sorted] at h h'
    rcases h' with ⟨target, hs, rfl⟩
    rcases h with ⟨_, ⟨l, hl, rfl⟩, heq⟩ | ⟨_, _, heq⟩
    · exact hstale _ _ hs l hl (Prod.mk.inj heq).2
    · cases heq
  · exact hpair _ _ (nodup_sorted _)
  · intro place h h'
    simp only [List.mem_append, List.mem_map, mem_sorted] at h h'
    rcases h' with ⟨target, hs, rfl⟩
    rcases h with (⟨_, _, heq⟩ | ⟨_, ⟨l, hl, rfl⟩, heq⟩) | ⟨_, _, heq⟩
    · cases heq
    · exact hstale _ _ hs l hl (Prod.mk.inj heq).2
    · cases heq

/-- The steps of a plan other than the state write. -/
def Prepared.Earlier (p : Prepared) (look : Text → Option Bool) : Step → Prop
  | .stop unit => unit ∈ p.unitsToStop look ∧ p.skipsStop unit = false
  | .resetFailed unit => unit ∈ p.retiredUnits
  | .link place source => (place, source) ∈ p.linkSteps
  | .daemonReload => p.topologyChanged = true
  | .restart unit => unit ∈ p.restarted look
  | .tryRestart unit => unit ∈ (p.changedUnits ∩ p.owned) \ (p.changedSessions look ∪ p.start)
  | .start unit => unit ∈ p.unitsToStart look
  | .writeState => False

theorem mem_stopSteps {look : Text → Option Bool} :
    s ∈ p.stopSteps look ↔
      (∃ unit, s = .stop unit ∧ unit ∈ p.unitsToStop look ∧ p.skipsStop unit = false) ∨
        ∃ unit, s = .resetFailed unit ∧ unit ∈ p.retiredUnits := by
  unfold Prepared.stopSteps
  rw [List.mem_append, List.mem_filterMap, List.mem_map]
  apply or_congr
  · constructor
    · rintro ⟨unit, hunit, hs⟩
      split at hs
      · cases hs
      · rename_i hskip
        cases hs
        exact ⟨unit, rfl, mem_sorted.mp hunit, Bool.not_eq_true _ |>.mp hskip⟩
    · rintro ⟨unit, rfl, hunit, hskip⟩
      refine ⟨unit, mem_sorted.mpr hunit, ?_⟩
      rw [if_neg (by rw [hskip]; exact Bool.false_ne_true)]
  · constructor
    · rintro ⟨unit, hunit, rfl⟩
      exact ⟨unit, rfl, mem_sorted.mp hunit⟩
    · rintro ⟨unit, rfl, hunit⟩
      exact ⟨unit, mem_sorted.mpr hunit, rfl⟩

theorem mem_startSteps {look : Text → Option Bool} :
    s ∈ p.startSteps look ↔
      (s = .daemonReload ∧ p.topologyChanged = true) ∨
        (∃ unit, s = .restart unit ∧ unit ∈ p.restarted look) ∨
        (∃ unit, s = .tryRestart unit ∧
          unit ∈ (p.changedUnits ∩ p.owned) \ (p.changedSessions look ∪ p.start)) ∨
        ∃ unit, s = .start unit ∧ unit ∈ p.unitsToStart look := by
  unfold Prepared.startSteps
  rw [List.mem_append, List.mem_append, List.mem_filterMap, List.mem_map, or_assoc]
  constructor
  · rintro (hs | ⟨unit, hunit, hs⟩ | ⟨unit, hunit, rfl⟩)
    · split at hs
      · rename_i htopology
        exact .inl ⟨List.mem_singleton.mp hs, htopology⟩
      · cases hs
    · rw [mem_sorted, Finset.mem_inter] at hunit
      split at hs
      · cases hs
      · rename_i hsession
        split at hs
        · rename_i hstart
          cases hs
          refine .inr (.inl ⟨unit, rfl, ?_⟩)
          rw [Prepared.restarted, Finset.mem_sdiff, Finset.mem_inter, Finset.mem_inter]
          exact ⟨⟨hunit, hstart⟩, hsession⟩
        · rename_i hstart
          cases hs
          refine .inr (.inr (.inl ⟨unit, rfl, ?_⟩))
          rw [Finset.mem_sdiff, Finset.mem_inter, Finset.mem_union, not_or]
          exact ⟨hunit, hsession, hstart⟩
    · exact .inr (.inr (.inr ⟨unit, rfl, mem_sorted.mp hunit⟩))
  · rintro (⟨rfl, htopology⟩ | ⟨unit, rfl, hunit⟩ | ⟨unit, rfl, hunit⟩ | ⟨unit, rfl, hunit⟩)
    · rw [if_pos htopology]
      exact .inl (.head _)
    · rw [Prepared.restarted, Finset.mem_sdiff, Finset.mem_inter] at hunit
      rcases hunit with ⟨⟨hunit, hstart⟩, hsession⟩
      refine .inr (.inl ⟨unit, mem_sorted.mpr hunit, ?_⟩)
      rw [if_neg hsession, if_pos hstart]
    · rw [Finset.mem_sdiff, Finset.mem_union, not_or] at hunit
      rcases hunit with ⟨hunit, hsession, hstart⟩
      refine .inr (.inl ⟨unit, mem_sorted.mpr hunit, ?_⟩)
      rw [if_neg hsession, if_neg hstart]
    · exact .inr (.inr ⟨unit, mem_sorted.mpr hunit, rfl⟩)

theorem mem_earlier {look : Text → Option Bool} :
    s ∈ p.stopSteps look ++ p.linkSteps.map (fun e ↦ .link e.1 e.2) ++ p.startSteps look ↔
      p.Earlier look s := by
  rw [List.mem_append, List.mem_append, mem_stopSteps, mem_startSteps, List.mem_map]
  cases s <;> simp [Prepared.Earlier]

theorem mem_steps {look : Text → Option Bool} :
    s ∈ p.steps look ↔ match s with
      | .writeState => True
      | s => p.Earlier look s := by
  unfold Prepared.steps
  rw [List.mem_append, mem_earlier, List.mem_singleton]
  cases s <;> simp [Prepared.Earlier]

theorem linkOps_steps (look : Text → Option Bool) : linkOps (p.steps look) = p.linkSteps := by
  have hstop : linkOps (p.stopSteps look) = [] := by
    apply linkOps_eq_nil
    intro s hs
    rcases mem_stopSteps.mp hs with ⟨_, rfl, _⟩ | ⟨_, rfl, _⟩ <;> rfl
  have hstart : linkOps (p.startSteps look) = [] := by
    apply linkOps_eq_nil
    intro s hs
    rcases mem_startSteps.mp hs with ⟨rfl, _⟩ | ⟨_, rfl, _⟩ | ⟨_, rfl, _⟩ | ⟨_, rfl, _⟩ <;> rfl
  unfold Prepared.steps
  rw [linkOps_append, linkOps_append, linkOps_append, hstop, hstart, linkOps_map]
  show [] ++ p.linkSteps ++ [] ++ [] = p.linkSteps
  simp only [List.nil_append, List.append_nil]

/-! ## What the state describes -/

/-- The state names the links, contents, units and fingerprints of the manifest and no others. -/
structure Describes (fs : Files) (manifest : Manifest) (state : Recorded) : Prop where
  links : ∀ kind target value, (state.linksOf kind).lookup target = some value ↔
    ∃ item ∈ manifest.entries kind, item.1 = target ∧
      ∃ source, fs.current item.2 = some source ∧ value = .text source
  hashes : ∀ kind target value, (state.hashesOf kind).lookup target = some value ↔
    ∃ item ∈ manifest.entries kind, item.1 = target ∧
      ∃ source, fs.current item.2 = some source ∧ value = .text (fs.sha256 (fs.bytes source))
  ownedUnits : state.ownedUnits = manifest.ownedUnits.toFinset
  startUnits : state.startUnits = manifest.startUnits.toFinset
  stopUnits : state.stopUnits = manifest.stopUnits.toFinset
  fingerprints : state.fingerprints = manifest.fingerprints

theorem lookup_ofLinks (h : ManifestOk fs manifest p) (kind : Kind) (value : Link → Value)
    (ofSource : Text → Value) (hv : ∀ item l, ParsesAs fs kind item l → value l = ofSource l.source)
    (target : Text) (v : Value) :
    (ofList ((p.links kind).map fun l ↦ (l.target, value l))).lookup target = some v ↔
      ∃ item ∈ manifest.entries kind, item.1 = target ∧
        ∃ source, fs.current item.2 = some source ∧ v = ofSource source := by
  have hnodup : (((p.links kind).map fun l ↦ (l.target, value l)).map Prod.fst).Nodup := by
    rw [List.map_map]
    exact h.nodup kind
  rw [lookup_ofList hnodup, List.mem_map]
  constructor
  · rintro ⟨l, hl, heq⟩
    cases heq
    rcases exists_left (h.parses kind) hl with ⟨item, hitem, hp⟩
    exact ⟨item, hitem, hp.target.symm, l.source, hp.source, hv item l hp⟩
  · rintro ⟨item, hitem, rfl, source, hsource, rfl⟩
    rcases exists_right (h.parses kind) hitem with ⟨l, hl, hp⟩
    have heq : l.source = source := Option.some.inj (hp.source.symm.trans hsource)
    exact ⟨l, hl, by rw [hp.target, hv item l hp, heq]⟩

theorem describes_recorded (h : ManifestOk fs manifest p) : Describes fs manifest p.recorded where
  links kind target value := by
    have hlookup := lookup_ofLinks h kind (fun l ↦ .text l.source) .text (fun _ _ _ => rfl)
      target value
    cases kind <;> exact hlookup
  hashes kind target value := by
    have hlookup := lookup_ofLinks h kind (fun l ↦ .text l.digest)
      (fun source ↦ .text (fs.sha256 (fs.bytes source)))
      (fun item l hp => by rw [hp.digest]) target value
    cases kind <;> exact hlookup
  ownedUnits := h.owned
  startUnits := h.start
  stopUnits := h.stop
  fingerprints := h.fingerprints

theorem strings_recorded (h : ManifestOk fs manifest p) : p.recorded.Strings := by
  have hd := describes_recorded h
  intro store hstore key hother
  simp only [List.mem_cons, List.not_mem_nil, or_false] at hstore
  rcases hstore with rfl | rfl | rfl | rfl | rfl
  · rcases (hd.links .systemd key .other).mp hother with ⟨_, _, _, _, _, heq⟩
    cases heq
  · rcases (hd.hashes .systemd key .other).mp hother with ⟨_, _, _, _, _, heq⟩
    cases heq
  · rcases (hd.links .quadlet key .other).mp hother with ⟨_, _, _, _, _, heq⟩
    cases heq
  · rcases (hd.hashes .quadlet key .other).mp hother with ⟨_, _, _, _, _, heq⟩
    cases heq
  · rw [hd.fingerprints] at hother
    have hkey := Finmap.mem_keys.mpr (Finmap.mem_of_lookup_eq_some hother)
    exact (h.fingerprint_ok key hkey).2 hother

theorem keys_currentLinks (kind : Kind) : (p.currentLinks kind).keys = p.targets kind := by
  ext target
  rw [Finmap.mem_keys, Prepared.currentLinks, mem_ofList, mem_targets]
  constructor
  · rintro ⟨v, hv⟩
    rcases List.mem_map.mp hv with ⟨l, hl, heq⟩
    exact ⟨l, hl, (Prod.mk.inj heq).1⟩
  · rintro ⟨l, hl, rfl⟩
    exact ⟨.text l.source, List.mem_map.mpr ⟨l, hl, rfl⟩⟩

theorem mem_discover {run : Runtime} {kind : Kind} {target : Text} :
    target ∈ discover run kind ↔ discoverable kind target = true ∧
      ∃ node, run.lookup (kind, target) = some node ∧ node.isSymlink = true := by
  unfold discover
  rw [Finset.mem_image]
  constructor
  · rintro ⟨place, hplace, rfl⟩
    rcases Finset.mem_filter.mp hplace with ⟨_, hkind, hdisc, hlink⟩
    subst hkind
    exact ⟨hdisc, Option.any_eq_true .. |>.mp hlink⟩
  · rintro ⟨hdisc, node, hnode, hlink⟩
    refine ⟨(kind, target), Finset.mem_filter.mpr ⟨?_, rfl, hdisc, ?_⟩, rfl⟩
    · exact Finmap.mem_keys.mpr (Finmap.mem_of_lookup_eq_some hnode)
    · rw [hnode]
      exact hlink

theorem noop_iff : p.noop = true ↔
    p.previous = some p.recorded ∧ p.drift = false ∧ ∀ kind, p.discovered kind ⊆ p.targets kind := by
  have hstale : ∀ kind, (p.prev.linksOf kind).keys = p.targets kind →
      (p.stale kind = ∅ ↔ p.discovered kind ⊆ p.targets kind) := by
    intro kind hkeys
    rw [Prepared.stale, hkeys, Finset.sdiff_eq_empty_iff_subset, Finset.union_subset_iff]
    exact and_iff_right Finset.Subset.rfl
  constructor
  · intro h
    simp only [Prepared.noop, Prepared.topologyChanged, Prepared.lifecycleChanged,
      Prepared.fingerprintChanged, Bool.and_eq_true, Bool.not_eq_true', Bool.or_eq_false_iff,
      decide_eq_false_iff_not, ne_eq, not_not] at h
    rcases h with
      ⟨⟨⟨hsome, ⟨⟨⟨⟨⟨⟨hl, hh⟩, hq⟩, hqh⟩, hs⟩, hqs⟩, hdrift⟩⟩, ⟨ho, hst⟩, hsp⟩, hf⟩
    rcases Option.isSome_iff_exists.mp hsome with ⟨state, hstate⟩
    have hprev : p.prev = state := by rw [Prepared.prev, hstate, Option.getD_some]
    refine ⟨?_, hdrift, ?_⟩
    · rw [hstate, ← hprev, Prepared.recorded, hl, hh, hq, hqh, ho, hst, hsp, hf]
    · intro kind
      cases kind with
      | systemd =>
        have hkeys : p.prev.links.keys = p.targets .systemd := by rw [← hl, keys_currentLinks]
        exact (hstale .systemd hkeys).mp hs
      | quadlet =>
        have hkeys : p.prev.quadletLinks.keys = p.targets .quadlet := by
          rw [← hq, keys_currentLinks]
        exact (hstale .quadlet hkeys).mp hqs
  · rintro ⟨hprevious, hdrift, hdisc⟩
    have hprev : p.prev = p.recorded := by rw [Prepared.prev, hprevious, Option.getD_some]
    have hs := (hstale .systemd (by rw [hprev]; exact keys_currentLinks .systemd)).mpr
      (hdisc .systemd)
    have hq := (hstale .quadlet (by rw [hprev]; exact keys_currentLinks .quadlet)).mpr
      (hdisc .quadlet)
    simp [Prepared.noop, Prepared.topologyChanged, Prepared.lifecycleChanged,
      Prepared.fingerprintChanged, hprevious, hprev, hs, hq, hdrift, Prepared.recorded]

/-! ## Runs that return -/

theorem reconcile_ok {readable : Text → Bool} {report : Report}
    (h : (reconcile fs codec deps readable sys manifest w).result = .ok report) :
    ∃ p, PreparedFrom fs codec manifest w p ∧
      (p.noop = true ∧
          reconcile fs codec deps readable sys manifest w = ⟨.ok ⟨[], [], [], true⟩, [], w⟩ ∨
        p.noop = false ∧
          (forward fs (codec.dump p.recorded) sys w (p.steps (look readable w))).failed = false ∧
          (reconcile fs codec deps readable sys manifest w).world =
            (forward fs (codec.dump p.recorded) sys w (p.steps (look readable w))).world) := by
  unfold reconcile at h ⊢
  split at h
  · cases h
  · rename_i p hp
    refine ⟨p, prepare_ok hp, ?_⟩
    split at h
    · rename_i hnoop
      rw [if_pos hnoop]
      exact .inl ⟨hnoop, rfl⟩
    · rename_i hnoop
      rw [if_neg hnoop]
      simp only at h ⊢
      split at h
      · cases h
      · rename_i live hlive
        split at h
        · -- after a step that raised the handler raises too
          unfold recover at h
          simp only at h
          split at h
          · cases h
          · cases h
        · rename_i hfailed
          rw [if_neg hfailed]
          exact .inr ⟨Bool.not_eq_true _ |>.mp hnoop, Bool.not_eq_true _ |>.mp hfailed, rfl⟩

def NamedBy (codec : Codec Content) (w : World Content) (kind : Kind) (target : Text) : Prop :=
  ∃ state, readState codec w.state = .ok (some state) ∧ target ∈ state.linksOf kind

/-- The links of the manifest stand, `w'` has no other link that V2 owned by its name or by the
state of `w`, and the state of `w'` describes the manifest. -/
structure Established (fs : Files) (codec : Codec Content) (manifest : Manifest)
    (w w' : World Content) : Prop where
  installed : ∀ kind, ∀ item ∈ manifest.entries kind, ∃ source, fs.current item.2 = some source ∧
    w'.runtime.lookup (kind, item.1) = some (.live source)
  only : ∀ kind target node, w'.runtime.lookup (kind, target) = some node →
    node.isSymlink = true → discoverable kind target = true ∨ NamedBy codec w kind target →
    ∃ item ∈ manifest.entries kind, item.1 = target
  state : ∃ content state, w'.state = some content ∧ codec.parse content = .ok (some state) ∧
    Describes fs manifest state

theorem mem_targets_iff (h : ManifestOk fs manifest p) {kind : Kind} {target : Text} :
    target ∈ p.targets kind ↔ ∃ item ∈ manifest.entries kind, item.1 = target := by
  rw [mem_targets]
  constructor
  · rintro ⟨l, hl, rfl⟩
    rcases exists_left (h.parses kind) hl with ⟨item, hitem, hp⟩
    exact ⟨item, hitem, hp.target.symm⟩
  · rintro ⟨item, hitem, rfl⟩
    rcases exists_right (h.parses kind) hitem with ⟨l, hl, hp⟩
    exact ⟨l, hl, hp.target⟩

theorem mem_stale_of_namedBy (h : PreparedFrom fs codec manifest w p) {kind : Kind} {target : Text}
    (hnamed : NamedBy codec w kind target) (ht : target ∉ p.targets kind) :
    target ∈ p.stale kind := by
  rcases hnamed with ⟨state, hstate, hmem⟩
  rw [h.previous] at hstate
  have hprev : p.prev = state := by rw [Prepared.prev, Except.ok.inj hstate, Option.getD_some]
  rw [Prepared.stale, Finset.mem_sdiff, Finset.mem_union, hprev]
  exact ⟨.inl (Finmap.mem_keys.mpr hmem), ht⟩

theorem mem_stale_of_discoverable (h : PreparedFrom fs codec manifest w p) {kind : Kind}
    {target : Text} {node : Node} (hnode : w.runtime.lookup (kind, target) = some node)
    (hlink : node.isSymlink = true) (hdisc : discoverable kind target = true)
    (ht : target ∉ p.targets kind) : target ∈ p.stale kind := by
  rw [Prepared.stale, Finset.mem_sdiff, Finset.mem_union, h.discovered]
  exact ⟨.inr (mem_discover.mpr ⟨hdisc, node, hnode, hlink⟩), ht⟩

theorem established_of_noop (h : PreparedFrom fs codec manifest w p) (hnoop : p.noop = true) :
    Established fs codec manifest w w := by
  rcases noop_iff.mp hnoop with ⟨hprevious, hdrift, hdisc⟩
  have hlive : ∀ kind, ∀ l ∈ p.links kind,
      w.runtime.lookup (kind, l.target) = some (.live l.source) := by
    intro kind l hl
    by_contra hne
    rw [h.drift.mpr ⟨kind, l, hl, hne⟩] at hdrift
    cases hdrift
  have hprev := h.previous
  rw [hprevious] at hprev
  constructor
  · intro kind item hitem
    rcases exists_right (h.parses kind) hitem with ⟨l, hl, hp⟩
    exact ⟨l.source, hp.source, hp.target ▸ hlive kind l hl⟩
  · intro kind target node hnode hlink howned
    rw [← mem_targets_iff h.toManifestOk]
    rcases howned with hname | ⟨state, hstate, hmem⟩
    · apply hdisc kind
      rw [h.discovered]
      exact mem_discover.mpr ⟨hname, node, hnode, hlink⟩
    · rw [hprev] at hstate
      cases hstate
      rw [← keys_currentLinks, Finmap.mem_keys]
      cases kind <;> exact hmem
  · have hread : ∃ content, w.state = some content ∧
        codec.parse content = .ok (some p.recorded) := by
      cases hstate : w.state with
      | none =>
        rw [hstate] at hprev
        cases hprev
      | some content =>
        rw [hstate] at hprev
        exact ⟨content, rfl, hprev⟩
    rcases hread with ⟨content, hcontent, hparse⟩
    exact ⟨content, p.recorded, hcontent, hparse, describes_recorded h.toManifestOk⟩

/-- After a pass over the planned link operations the places of the plan hold what it says. -/
theorem runtime_of_forward {content : Content} (h : PreparedFrom fs codec manifest w p)
    (hok : (forward fs content sys w (p.steps seen)).failed = false) :
    (∀ kind, ∀ l ∈ p.links kind, (forward fs content sys w (p.steps seen)).world.runtime.lookup
        (kind, l.target) = some (.live l.source)) ∧
      (∀ kind, ∀ target ∈ p.stale kind,
        (forward fs content sys w (p.steps seen)).world.runtime.lookup (kind, target) = none) ∧
      ∀ kind target, target ∉ p.targets kind → target ∉ p.stale kind →
        (forward fs content sys w (p.steps seen)).world.runtime.lookup (kind, target) =
          w.runtime.lookup (kind, target) := by
  have hfold := (forward_ok hok).1
  rw [linkOps_steps] at hfold
  have hsets := foldlM_sets (fun _ _ _ hset => setLink_sets hset) (nodup_linkSteps h.nodup) hfold
  refine ⟨?_, ?_, ?_⟩
  · intro kind l hl
    exact hsets.1 ((kind, l.target), some l.source) (mem_linkSteps.mpr (.inl ⟨l, hl, rfl⟩))
  · intro kind target hs
    exact hsets.1 ((kind, target), none) (mem_linkSteps.mpr (.inr ⟨hs, rfl⟩))
  · intro kind target ht hs
    apply hsets.2
    rw [mem_linkSteps_places, Finset.mem_union, not_or]
    exact ⟨ht, hs⟩

theorem established_of_forward (h : PreparedFrom fs codec manifest w p)
    (hok : (forward fs (codec.dump p.recorded) sys w (p.steps seen)).failed = false) :
    Established fs codec manifest w
      (forward fs (codec.dump p.recorded) sys w (p.steps seen)).world := by
  rcases runtime_of_forward h hok with ⟨hlive, hgone, hsame⟩
  constructor
  · intro kind item hitem
    rcases exists_right (h.parses kind) hitem with ⟨l, hl, hp⟩
    exact ⟨l.source, hp.source, hp.target ▸ hlive kind l hl⟩
  · intro kind target node hnode hlink howned
    rw [← mem_targets_iff h.toManifestOk]
    by_contra ht
    -- what is neither wanted nor stale has not been touched, so it was not V2's before
    have hstale : target ∉ p.stale kind := by
      intro hs
      rw [hgone kind target hs] at hnode
      cases hnode
    rcases howned with hname | hnamed
    · rw [hsame kind target ht hstale] at hnode
      exact hstale (mem_stale_of_discoverable h hnode hlink hname ht)
    · exact hstale (mem_stale_of_namedBy h hnamed ht)
  · have hstate := (forward_ok hok).2
    rw [if_pos (by simp [Prepared.steps])] at hstate
    exact ⟨_, p.recorded, hstate, codec.parse_dump _ (strings_recorded h.toManifestOk),
      describes_recorded h.toManifestOk⟩

theorem checkPrevious_recorded (h : ManifestOk fs manifest p) :
    checkPrevious (some p.recorded) = .ok () := by
  show (if ¬ _ then _ else _) = _
  rw [if_neg]
  rw [not_not]
  intro unit hunit
  rw [Finset.mem_union, Finset.mem_union] at hunit
  show isUnit unit = true
  rcases hunit with (ho | hs) | ht
  · rw [show p.recorded.ownedUnits = _ from h.owned, List.mem_toFinset] at ho
    exact List.all_eq_true.mp h.ownedUnits unit ho
  · rw [show p.recorded.startUnits = _ from h.start, List.mem_toFinset] at hs
    exact List.all_eq_true.mp h.startUnits unit hs
  · rw [show p.recorded.stopUnits = _ from h.stop, List.mem_toFinset] at ht
    exact List.all_eq_true.mp h.stopUnits unit ht

theorem noop_after_forward (h : PreparedFrom fs codec manifest w p)
    (hok : (forward fs (codec.dump p.recorded) sys w (p.steps seen)).failed = false) :
    ∃ p', PreparedFrom fs codec manifest
        (forward fs (codec.dump p.recorded) sys w (p.steps seen)).world p' ∧ p'.noop = true := by
  have hlive := (runtime_of_forward h hok).1
  have hest := established_of_forward h hok
  have hstate := (forward_ok hok).2
  rw [if_pos (by simp [Prepared.steps])] at hstate
  generalize (forward fs (codec.dump p.recorded) sys w (p.steps seen)).world = w' at *
  have hmanifest := h.toManifestOk
  refine ⟨{ p with
    drift := false, previous := some p.recorded, discovered := discover w'.runtime }, ?_, ?_⟩
  · refine ⟨hmanifest.rerun _ _ _, ?_, checkPrevious_recorded hmanifest, ?_, ?_, rfl⟩
    · rw [hstate]
      exact codec.parse_dump _ (strings_recorded hmanifest)
    · intro kind l hl
      rw [links_rerun] at hl
      rw [hlive kind l hl]
      rcases exists_left (hmanifest.parses kind) hl with ⟨item, _, hp⟩
      exact hp.generated
    · constructor
      · intro hfalse
        cases hfalse
      · rintro ⟨kind, l, hl, hne⟩
        rw [links_rerun] at hl
        exact (hne (hlive kind l hl)).elim
  · rw [noop_iff]
    refine ⟨by rfl, rfl, ?_⟩
    intro kind target htarget
    rcases mem_discover.mp htarget with ⟨hdisc, node, hnode, hlink⟩
    have hmem := hest.only kind target node hnode hlink (.inl hdisc)
    rw [← mem_targets_iff hmanifest] at hmem
    cases kind <;> exact hmem

theorem reconcile_noop {readable : Text → Bool}
    (h : PreparedFrom fs codec manifest w p) (hnoop : p.noop = true) :
    reconcile fs codec deps readable sys manifest w = ⟨.ok ⟨[], [], [], true⟩, [], w⟩ := by
  unfold reconcile
  rw [prepare_of h]
  exact if_pos hnoop

/-- A reconcile that returns has established the topology of the manifest, and the next one with
the same manifest changes nothing and issues no command. -/
theorem reconcile_establishes {deps : Dependencies Text} {readable : Text → Bool}
    {sys : Step → Outcome} {report : Report}
    (h : (reconcile fs codec deps readable sys manifest w).result = .ok report) :
    Established fs codec manifest w (reconcile fs codec deps readable sys manifest w).world ∧
      ∀ (deps' : Dependencies Text) (readable' : Text → Bool) (sys' : Step → Outcome),
        reconcile fs codec deps' readable' sys' manifest
            (reconcile fs codec deps readable sys manifest w).world =
          ⟨.ok ⟨[], [], [], true⟩, [], (reconcile fs codec deps readable sys manifest w).world⟩ := by
  rcases reconcile_ok h with ⟨p, hp, ⟨hnoop, heq⟩ | ⟨_, hok, hworld⟩⟩
  · rw [heq]
    exact ⟨established_of_noop hp hnoop, fun _ _ _ => reconcile_noop hp hnoop⟩
  · rw [hworld]
    rcases noop_after_forward hp hok with ⟨p', hp', hnoop⟩
    exact ⟨established_of_forward hp hok, fun _ _ _ => reconcile_noop hp' hnoop⟩

/-! ## A first run over a leftover link -/

def plainFiles : Files where
  current := some
  generated := fun _ ↦ true
  generated_of_current := fun _ => rfl
  bytes := id
  sha256 := id

def plainCodec : Codec Recorded where
  dump := id
  parse := fun state ↦ .ok (some state)
  parse_dump := fun _ _ => rfl

def appManifest : Manifest where
  schemaVersion := 1
  links := [("nas-v2-app.service".toList, "/g/systemd/nas-v2-app.service".toList)]
  quadletLinks := []
  ownedUnits := ["nas-v2-app.service".toList]
  startUnits := ["nas-v2-app.service".toList]
  stopUnits := []
  fingerprints := ∅

/-- A killed run has left a link that no state names. -/
def leftover : World Recorded where
  runtime := ofList [((.systemd, "nas-v2-old.service".toList), .dangling)]
  state := none
  active := fun _ ↦ false

theorem reconcile_establishes_leftover :
    Established plainFiles plainCodec appManifest leftover
      (reconcile plainFiles plainCodec .apart (fun _ ↦ true) (fun _ ↦ .done fun _ ↦ true)
        appManifest leftover).world := by
  have hok : isOk (reconcile plainFiles plainCodec .apart (fun _ ↦ true) (fun _ ↦ .done fun _ ↦ true)
      appManifest leftover).result = true := by decide
  rcases exists_of_isOk hok with ⟨report, h⟩
  exact (reconcile_establishes h).1

end NixNas.Reconcile
