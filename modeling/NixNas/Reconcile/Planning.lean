import NixNas.Reconcile.Model

/-!
# What a run has checked and planned

Elimination and introduction of the planning phase, and the effect of one link operation.
-/

open Fallible Journal

namespace NixNas.Reconcile

variable {Content : Type} {fs : Files} {run run' : Runtime} {place : Place}
variable {source : Option Text} {kind : Kind} {items : List (Text × Text)} {links : List Link}
  {drift : Bool} {manifest : Manifest} {p : Prepared} {codec : Codec Content} {w : World Content}

/-! ## Link operations -/

/-- What the reconciler may find at a place that it takes over. -/
def Fits (fs : Files) : Option Node → Prop
  | none | some .dangling => True
  | some (.live source) => fs.generated source = true
  | some .file => False

theorem fits_live (h : ∀ s ∈ source, fs.generated s = true) : Fits fs (source.map .live) := by
  cases source with
  | none => trivial
  | some s => exact h s rfl

theorem readOwnedLink_ok {current : Option Text} (h : readOwnedLink fs run place = .ok current) :
    Fits fs (run.lookup place) ∧
      (run.lookup place = some .dangling ∧ current = none ∨
        run.lookup place = current.map .live) := by
  unfold readOwnedLink at h
  split at h
  · rename_i hp
    cases h
    exact ⟨hp ▸ trivial, .inr hp⟩
  · rename_i hp
    cases h
    exact ⟨hp ▸ trivial, .inl ⟨hp, rfl⟩⟩
  · rename_i source hp
    split at h
    · rename_i hgen
      cases h
      exact ⟨hp ▸ hgen, .inr hp⟩
    · cases h
  · cases h

theorem readOwnedLink_live {source : Text} :
    readOwnedLink fs run place = .ok (some source) ↔
      run.lookup place = some (.live source) ∧ fs.generated source = true := by
  constructor
  · intro h
    rcases readOwnedLink_ok h with ⟨hfits, hcases⟩
    rcases hcases with ⟨_, hnone⟩ | hp
    · cases hnone
    · rw [hp] at hfits
      exact ⟨hp, hfits⟩
  · rintro ⟨hp, hgen⟩
    unfold readOwnedLink
    rw [hp]
    exact if_pos hgen

theorem installed_iff {installed : Option Text} {source : Text}
    (hread : readOwnedLink fs run place = .ok installed) (hgen : fs.generated source = true) :
    installed = some source ↔ run.lookup place = some (.live source) := by
  constructor
  · intro heq
    rw [heq] at hread
    exact (readOwnedLink_live.mp hread).1
  · intro hlive
    have h := readOwnedLink_live.mpr ⟨hlive, hgen⟩
    rw [hread] at h
    exact Except.ok.inj h

theorem readOwnedLink_of_fits (h : Fits fs (run.lookup place)) :
    ∃ current, readOwnedLink fs run place = .ok current := by
  unfold readOwnedLink
  split
  · exact ⟨none, rfl⟩
  · exact ⟨none, rfl⟩
  · rename_i source hp
    rw [hp] at h
    exact ⟨some source, if_pos h⟩
  · rename_i hp
    rw [hp] at h
    exact h.elim

theorem setLink_sets (h : setLink fs run place source = .ok run') :
    Sets place (source.map .live) run run' := by
  unfold setLink at h
  simp only at h
  -- a dangling link has been removed before the place is read
  have hclear : ∃ s, Sets place s run
      (if run.lookup place = some .dangling then run.erase place else run) ∧
      s ≠ some .dangling := by
    split
    · exact ⟨none, sets_erase place run, by simp⟩
    · rename_i hp
      exact ⟨run.lookup place, sets_self rfl, hp⟩
  rcases hclear with ⟨s, hs, hdangling⟩
  generalize (if run.lookup place = some Node.dangling then run.erase place else run) = mid at h hs
  split at h
  · cases h
  · rename_i current hread
    have hmid : mid.lookup place = current.map .live := by
      rcases (readOwnedLink_ok hread).2 with ⟨hp, _⟩ | hp
      · exact (hdangling (hs.same ▸ hp)).elim
      · exact hp
    cases source with
    | none =>
      cases h
      apply hs.trans
      cases current with
      | none => exact sets_self hmid
      | some c => exact sets_erase place mid
    | some source =>
      simp only at h
      split at h
      · cases h
      · split at h
        · rename_i heq
          cases h
          rw [heq] at hmid
          exact hs.trans (sets_self hmid)
        · cases h
          exact hs.trans (sets_insert place _ mid)

theorem setLink_succeeds (hp : Fits fs (run.lookup place))
    (hs : ∀ s ∈ source, fs.generated s = true) : ∃ run', setLink fs run place source = .ok run' := by
  unfold setLink
  simp only
  have hmid : Fits fs
      ((if run.lookup place = some .dangling then run.erase place else run).lookup place) := by
    split
    · rw [(sets_erase place run).same]
      trivial
    · exact hp
  rcases readOwnedLink_of_fits hmid with ⟨current, hread⟩
  rw [hread]
  cases source with
  | none => exact ⟨_, rfl⟩
  | some source =>
    simp only [hs source rfl, Bool.not_true, Bool.false_eq_true, if_false]
    split
    · exact ⟨_, rfl⟩
    · exact ⟨_, rfl⟩

theorem setLinkHalf_eq (run : Runtime) (place : Place) (source : Option Text) :
    setLinkHalf run place source = run ∨ Sets place none run (setLinkHalf run place source) := by
  unfold setLinkHalf
  split
  · exact .inl rfl
  · split
    · exact .inl rfl
    · exact .inr (sets_erase place run)

/-! ## Parsing the manifest -/

structure ParsesAs (fs : Files) (kind : Kind) (item : Text × Text) (l : Link) : Prop where
  target : l.target = item.1
  affected : affectedUnit kind item.1 = some l.affected
  source : fs.current item.2 = some l.source
  digest : l.digest = fs.sha256 (fs.bytes l.source)

theorem ParsesAs.generated {item : Text × Text} {l : Link}
    (h : ParsesAs fs kind item l) : fs.generated l.source = true :=
  fs.generated_of_current h.source

/-- What `_parse_links` has established; only the last two facts depend on the runtime directory. -/
structure Parsed (fs : Files) (run : Runtime) (kind : Kind) (seen : List Text)
    (items : List (Text × Text)) (links : List Link) (drift : Bool) : Prop where
  parses : List.Forall₂ (ParsesAs fs kind) items links
  nodup : (links.map Link.target).Nodup
  fresh : ∀ l ∈ links, l.target ∉ seen
  fits : ∀ l ∈ links, Fits fs (run.lookup (kind, l.target))
  drift : drift = true ↔ ∃ l ∈ links, run.lookup (kind, l.target) ≠ some (.live l.source)

theorem parseLinks_ok {seen : List Text} :
    parseLinks fs run kind seen items = .ok (links, drift) ↔
      Parsed fs run kind seen items links drift := by
  induction items generalizing seen links drift with
  | nil =>
    constructor
    · intro h
      cases h
      exact ⟨.nil, .nil, by simp, by simp, by simp⟩
    · intro h
      cases h.parses
      have hdrift := h.drift
      simp only [List.not_mem_nil, false_and, exists_false, iff_false,
        Bool.not_eq_true] at hdrift
      rw [hdrift]
      rfl
  | cons item items ih =>
    constructor
    · intro h
      unfold parseLinks at h
      split at h
      · cases h
      · rename_i affected haff
        split at h
        · cases h
        · rename_i source hsource
          split at h
          · cases h
          · rename_i hseen
            rcases bind_ok h with ⟨installed, hread, h⟩
            rcases bind_ok h with ⟨⟨links', drift'⟩, hrest, h⟩
            cases h
            have hp := ih.mp hrest
            rcases readOwnedLink_ok hread with ⟨hfits, _⟩
            have hinstalled := installed_iff hread (fs.generated_of_current hsource)
            constructor
            · exact .cons ⟨rfl, haff, hsource, rfl⟩ hp.parses
            · rw [List.map_cons, List.nodup_cons]
              constructor
              · intro hmem
                rcases List.mem_map.mp hmem with ⟨l, hl, heq⟩
                exact hp.fresh l hl (heq ▸ .head seen)
              · exact hp.nodup
            · intro l hl
              rcases List.mem_cons.mp hl with rfl | hl
              · exact hseen
              · exact fun hmem => hp.fresh l hl (.tail _ hmem)
            · intro l hl
              rcases List.mem_cons.mp hl with rfl | hl
              · exact hfits
              · exact hp.fits l hl
            · simp only [Bool.or_eq_true, decide_eq_true_eq, ne_eq, hinstalled, hp.drift,
                List.exists_mem_cons_iff]
    · intro h
      cases h.parses with
      | cons hitem hitems =>
        rename_i l links
        have hnodup := h.nodup
        rw [List.map_cons, List.nodup_cons] at hnodup
        rcases readOwnedLink_of_fits (hitem.target ▸ h.fits l (.head links)) with
          ⟨installed, hread⟩
        have hseen : item.1 ∉ seen := hitem.target ▸ h.fresh l (.head links)
        -- the rest is parsed after a longer list of targets
        have hrest : Parsed fs run kind (item.1 :: seen) items links
            (links.any fun l ↦ run.lookup (kind, l.target) ≠ some (.live l.source)) := by
          refine ⟨hitems, hnodup.2, ?_, fun l hl => h.fits l (.tail _ hl), ?_⟩
          · intro d hd
            rw [List.mem_cons, not_or]
            constructor
            · intro heq
              exact hnodup.1 (List.mem_map.mpr ⟨d, hd, heq.trans hitem.target.symm⟩)
            · exact h.fresh d (.tail _ hd)
          · simp only [List.any_eq_true, decide_eq_true_eq]
        have hinstalled := installed_iff hread hitem.generated
        rw [← hitem.target] at hinstalled
        unfold parseLinks
        rw [hitem.affected, hitem.source]
        simp only [if_neg hseen, hread, ih.mpr hrest]
        show Except.ok _ = Except.ok _
        congr 2
        · cases l
          have := hitem.target
          have := hitem.digest
          simp_all
        · rw [Bool.eq_iff_iff, h.drift]
          simp only [Bool.or_eq_true, decide_eq_true_eq, ne_eq, hinstalled, List.any_eq_true,
            List.exists_mem_cons_iff]

/-! ## The prepared run -/

theorem stringSet_ok {key : String} {value : List Text} {units : Finset Text} :
    stringSet key value = .ok units ↔ value.all isUnit = true ∧ units = value.toFinset := by
  unfold stringSet
  split
  · rename_i h
    constructor
    · intro heq
      exact ⟨h, (Except.ok.inj heq).symm⟩
    · intro heq
      rw [heq.2]
  · rename_i h
    constructor
    · intro heq
      cases heq
    · intro heq
      exact (h heq.1).elim

/-- The checks that depend on the manifest and the generated files alone. -/
structure ManifestOk (fs : Files) (manifest : Manifest) (p : Prepared) : Prop where
  version : manifest.schemaVersion = 1
  parses : ∀ kind, List.Forall₂ (ParsesAs fs kind) (manifest.entries kind) (p.links kind)
  nodup : ∀ kind, ((p.links kind).map Link.target).Nodup
  ownedUnits : manifest.ownedUnits.all isUnit = true
  startUnits : manifest.startUnits.all isUnit = true
  stopUnits : manifest.stopUnits.all isUnit = true
  owned : p.owned = manifest.ownedUnits.toFinset
  start : p.start = manifest.startUnits.toFinset
  stop : p.stop = manifest.stopUnits.toFinset
  start_owned : p.start ⊆ p.owned
  stop_owned : p.stop ⊆ p.owned
  fingerprints : p.fingerprints = manifest.fingerprints
  fingerprint_ok : ∀ unit ∈ manifest.fingerprints.keys,
    isUnit unit ∧ manifest.fingerprints.lookup unit ≠ some .other

theorem ManifestOk.rerun (h : ManifestOk fs manifest p)
    (drift : Bool) (previous : Option Recorded) (discovered : Kind → Finset Text) :
    ManifestOk fs manifest
      { p with drift := drift, previous := previous, discovered := discovered } := by
  refine ⟨h.version, ?_, ?_, h.ownedUnits, h.startUnits, h.stopUnits, h.owned, h.start, h.stop,
    h.start_owned, h.stop_owned, h.fingerprints, h.fingerprint_ok⟩
  · intro kind
    cases kind with
    | systemd => exact h.parses .systemd
    | quadlet => exact h.parses .quadlet
  · intro kind
    cases kind with
    | systemd => exact h.nodup .systemd
    | quadlet => exact h.nodup .quadlet

theorem links_rerun (drift : Bool) (previous : Option Recorded)
    (discovered : Kind → Finset Text) (kind : Kind) :
    Prepared.links { p with drift := drift, previous := previous, discovered := discovered } kind =
      p.links kind := by
  cases kind <;> rfl

structure PreparedFrom (fs : Files) (codec : Codec Content) (manifest : Manifest)
    (w : World Content) (p : Prepared) : Prop extends ManifestOk fs manifest p where
  previous : readState codec w.state = .ok p.previous
  previous_ok : checkPrevious p.previous = .ok ()
  fits : ∀ kind, ∀ l ∈ p.links kind, Fits fs (w.runtime.lookup (kind, l.target))
  drift : p.drift = true ↔
    ∃ kind, ∃ l ∈ p.links kind, w.runtime.lookup (kind, l.target) ≠ some (.live l.source)
  discovered : p.discovered = discover w.runtime

theorem parsed_nil_iff :
    Parsed fs run kind [] items links drift ↔
      List.Forall₂ (ParsesAs fs kind) items links ∧ (links.map Link.target).Nodup ∧
        (∀ l ∈ links, Fits fs (run.lookup (kind, l.target))) ∧
        (drift = true ↔ ∃ l ∈ links, run.lookup (kind, l.target) ≠ some (.live l.source)) := by
  constructor
  · intro h
    exact ⟨h.parses, h.nodup, h.fits, h.drift⟩
  · rintro ⟨hparses, hnodup, hfits, hdrift⟩
    exact ⟨hparses, hnodup, by simp, hfits, hdrift⟩

theorem prepare_ok (h : prepare fs codec manifest w = .ok p) :
    PreparedFrom fs codec manifest w p := by
  unfold prepare at h
  rcases bind_ok h with ⟨previous, hprev, h⟩
  split at h
  · cases h
  rename_i hversion
  rcases bind_ok h with ⟨⟨links, drift⟩, hlinks, h⟩
  rcases bind_ok h with ⟨⟨quadlets, quadletDrift⟩, hquadlets, h⟩
  rcases bind_ok h with ⟨owned, howned, h⟩
  rcases bind_ok h with ⟨start, hstart, h⟩
  rcases bind_ok h with ⟨stop, hstop, h⟩
  split at h
  · cases h
  rename_i hsub
  rcases bind_ok h with ⟨_, hcheck, h⟩
  split at h
  · cases h
  rename_i hfinger
  cases h
  have hl := parseLinks_ok.mp hlinks
  have hq := parseLinks_ok.mp hquadlets
  have ho := stringSet_ok.mp howned
  have hs := stringSet_ok.mp hstart
  have ht := stringSet_ok.mp hstop
  rw [not_not] at hsub hfinger hversion
  refine ⟨⟨hversion, ?_, ?_, ho.1, hs.1, ht.1, ho.2, hs.2, ht.2, hsub.1, hsub.2, rfl, hfinger⟩,
    hprev, hcheck, ?_, ?_, rfl⟩
  · intro kind
    cases kind with
    | systemd => exact hl.parses
    | quadlet => exact hq.parses
  · intro kind
    cases kind with
    | systemd => exact hl.nodup
    | quadlet => exact hq.nodup
  · intro kind
    cases kind with
    | systemd => exact hl.fits
    | quadlet => exact hq.fits
  · rw [Bool.or_eq_true, hl.drift, hq.drift]
    constructor
    · rintro (hd | hd)
      · exact ⟨.systemd, hd⟩
      · exact ⟨.quadlet, hd⟩
    · rintro ⟨kind, hd⟩
      cases kind with
      | systemd => exact .inl hd
      | quadlet => exact .inr hd

theorem prepare_of (h : PreparedFrom fs codec manifest w p) :
    prepare fs codec manifest w = .ok p := by
  have hparse : ∀ kind, ∃ drift, parseLinks fs w.runtime kind [] (manifest.entries kind) =
      .ok (p.links kind, drift) ∧ (drift = true ↔
        ∃ l ∈ p.links kind, w.runtime.lookup (kind, l.target) ≠ some (.live l.source)) := by
    intro kind
    let drift := (p.links kind).any fun l ↦
      w.runtime.lookup (kind, l.target) ≠ some (.live l.source)
    have hdrift : drift = true ↔
        ∃ l ∈ p.links kind, w.runtime.lookup (kind, l.target) ≠ some (.live l.source) := by
      simp only [drift, List.any_eq_true, decide_eq_true_eq]
    exact ⟨drift, parseLinks_ok.mpr (parsed_nil_iff.mpr
      ⟨h.parses kind, h.nodup kind, h.fits kind, hdrift⟩), hdrift⟩
  rcases hparse .systemd with ⟨d, hl, hd⟩
  rcases hparse .quadlet with ⟨d', hq, hd'⟩
  have hboth : (d || d') = p.drift := by
    rw [Bool.eq_iff_iff, Bool.or_eq_true, hd, hd', h.drift]
    constructor
    · rintro (hx | hx)
      · exact ⟨.systemd, hx⟩
      · exact ⟨.quadlet, hx⟩
    · rintro ⟨kind, hx⟩
      cases kind with
      | systemd => exact .inl hx
      | quadlet => exact .inr hx
  have ho := (@stringSet_ok "ownedUnits" _ _).mpr ⟨h.ownedUnits, h.owned⟩
  have hs := (@stringSet_ok "startUnits" _ _).mpr ⟨h.startUnits, h.start⟩
  have ht := (@stringSet_ok "stopUnits" _ _).mpr ⟨h.stopUnits, h.stop⟩
  unfold prepare
  show (readState codec w.state >>= _) = _
  rw [h.previous]
  show (if manifest.schemaVersion ≠ 1 then _ else _) = _
  rw [if_neg (by simp [h.version])]
  show (parseLinks fs w.runtime .systemd [] (manifest.entries .systemd) >>= _) = _
  rw [hl]
  show (parseLinks fs w.runtime .quadlet [] (manifest.entries .quadlet) >>= _) = _
  rw [hq]
  show (stringSet "ownedUnits" manifest.ownedUnits >>= _) = _
  rw [ho]
  show (stringSet "startUnits" manifest.startUnits >>= _) = _
  rw [hs]
  show (stringSet "stopUnits" manifest.stopUnits >>= _) = _
  rw [ht]
  show (if ¬ (p.start ⊆ p.owned ∧ p.stop ⊆ p.owned) then _ else _) = _
  rw [if_neg (not_not.mpr ⟨h.start_owned, h.stop_owned⟩)]
  show (checkPrevious p.previous >>= _) = _
  rw [h.previous_ok]
  show (if ¬ _ then _ else _) = _
  rw [if_neg (not_not.mpr h.fingerprint_ok), hboth, ← h.fingerprints, ← h.discovered]
  rfl

end NixNas.Reconcile
