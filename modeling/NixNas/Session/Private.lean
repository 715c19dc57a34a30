import NixNas.Session.Storage

/-!
# What two session instances share

The sources of one template differ for two instances whenever the identifier that the template names
does, and then neither lies below the other.
-/

open Fallible Template NixNas.Spec NixNas.Authentik

namespace NixNas.Session

variable {F : Type}
variable {x s y instanceId : Text} {p : PurePath} {value : Plain F} {e : VolumeTemplate}
  {d : Descriptor} {resolve : PurePath → PurePath} {userId : Option Text} {v : Volume}
  {vols : List Volume}

/-- A text that stays one part of a path wherever it is put in. -/
structure PathWord (x : Text) : Prop where
  slash : '/' ∉ x
  letter : ∃ c ∈ x, c ≠ '.'

theorem PathWord.ne_nil (h : PathWord x) : x ≠ [] := by
  obtain ⟨c, hc, -⟩ := h.letter
  exact List.ne_nil_of_mem hc

theorem notMem_of_letters {letter : Char → Bool} {c : Char} (h : x.all letter = true)
    (hc : letter c = false) : c ∉ x := by
  intro hmem
  have hletter := List.all_eq_true.mp h c hmem
  rw [hc] at hletter
  cases hletter

theorem all_instance (h : isInstanceId x = true) :
    (x.all fun c ↦ c.isLower || c.isDigit || c = '-') = true := by
  cases x with
  | nil => rfl
  | cons c rest =>
    simp only [isInstanceId, Bool.and_eq_true] at h
    rw [List.all_cons, h.1.1, h.2]
    rfl

theorem all_user (h : isUserId x = true) :
    (x.all fun c ↦ c.isAlphanum || ['_', '.', '@', '-'].contains c) = true := by
  cases x with
  | nil => rfl
  | cons c rest =>
    simp only [isUserId, Bool.and_eq_true] at h
    rw [List.all_cons, h.1.1, h.2]
    rfl

theorem pathWord_instance (h : isInstanceId x = true) : PathWord x := by
  refine ⟨notMem_of_letters (all_instance h) (by decide), ?_⟩
  cases x with
  | nil => cases h
  | cons c rest =>
    refine ⟨c, List.mem_cons_self, ?_⟩
    rintro rfl
    cases h

theorem pathWord_user (h : isUserId x = true) : PathWord x := by
  refine ⟨notMem_of_letters (all_user h) (by decide), ?_⟩
  cases x with
  | nil => cases h
  | cons c rest =>
    refine ⟨c, List.mem_cons_self, ?_⟩
    rintro rfl
    cases h

/-! ## Parts of a filled template -/

def mark : Char := '\x00'

theorem keeps_fill (h : PathWord x) : Segments.Keeps '/' (fill mark x) where
  keep := if_neg (by decide)
  free c hc := by
    unfold fill
    split
    · exact h.slash
    · exact fun hmem => hc (List.mem_singleton.mp hmem).symm

theorem fill_ne_nil (h : PathWord x) (c : Char) : fill mark x c ≠ [] := by
  unfold fill
  split
  · exact h.ne_nil
  · exact List.cons_ne_nil c []

theorem fill_eq_dot_iff (h : PathWord x) : s.flatMap (fill mark x) = ['.'] ↔ s = ['.'] := by
  constructor
  · intro heq
    by_cases hmark : mark ∈ s
    · -- the word has a letter that is no dot
      obtain ⟨c, hc, hdot⟩ := h.letter
      have hmem := subset_fill hmark hc
      rw [heq, List.mem_singleton] at hmem
      exact (hdot hmem).elim
    · rwa [fill_of_notMem hmark] at heq
  · rintro rfl
    rfl

theorem pathParts_fill (h : PathWord x) (s : Text) :
    Accelerator.pathParts (s.flatMap (fill mark x)) =
      (Accelerator.pathParts s).map (·.flatMap (fill mark x)) := by
  unfold Accelerator.pathParts
  rw [Segments.segments_flatMap (keeps_fill h) (fill_ne_nil h), List.filter_map]
  congr 1
  apply List.filter_congr
  intro part _
  exact decide_eq_decide.mpr (not_congr (fill_eq_dot_iff h))

theorem exists_marked_part (hmark : mark ∈ s) : ∃ part ∈ Accelerator.pathParts s, mark ∈ part := by
  have hjoin : mark ∈ Segments.join '/' (s.splitOn '/') := by
    rw [Segments.join_splitOn]
    exact List.mem_cons_of_mem '/' hmark
  obtain ⟨part, hpart, hmem⟩ := List.mem_flatMap.mp hjoin
  have hmem : mark ∈ part := (List.mem_cons.mp hmem).resolve_left (by decide)
  refine ⟨part, ?_, hmem⟩
  unfold Accelerator.pathParts Segments.segments
  rw [List.mem_filter, List.mem_filter, decide_eq_true_iff, decide_eq_true_iff]
  refine ⟨⟨hpart, List.ne_nil_of_mem hmem⟩, ?_⟩
  rintro rfl
  exact absurd (List.mem_singleton.mp hmem) (by decide)

theorem eq_of_front (hx : PathWord x) (hy : PathWord y) (hmark : mark ∈ s)
    (h : Accelerator.pathParts (s.flatMap (fill mark x)) <+:
      Accelerator.pathParts (s.flatMap (fill mark y))) : x = y := by
  rw [pathParts_fill hx, pathParts_fill hy] at h
  have heq := h.eq_of_length (by rw [List.length_map, List.length_map])
  obtain ⟨part, hpart, hmem⟩ := exists_marked_part hmark
  exact eq_of_fill_eq hmem (List.map_inj_left.mp heq part hpart)

/-! ## Templates of a descriptor -/

theorem safePath_ok {value : Text} (h : safePath value = .ok p) :
    p = purePath value ∧ mark ∉ value := by
  unfold safePath at h
  obtain ⟨hforbidden, h⟩ := guard_ok h
  obtain ⟨-, h⟩ := guard_ok h
  cases h
  refine ⟨rfl, ?_⟩
  intro hmark
  exact hforbidden (List.any_eq_true.mpr ⟨mark, hmark, rfl⟩)

/-- A template of a descriptor has its token, and no mark. -/
structure WellFormed (e : VolumeTemplate) : Prop where
  token : e.scope.token <:+: e.sourceTemplate
  mark : mark ∉ e.sourceTemplate

theorem token_ne_nil (scope : Scope) : scope.token ≠ [] := by
  cases scope <;> decide

theorem mark_notMem_token (scope : Scope) : mark ∉ scope.token := by
  cases scope <;> decide

theorem wellFormed_of_validate (h : validateVolumeTemplate value = .ok e) : WellFormed e := by
  unfold validateVolumeTemplate at h
  split at h
  · split at h
    · rename_i root template target access scope _ _ _ _ _
      obtain ⟨htoken, h⟩ := guard_ok h
      obtain ⟨_, _, h⟩ := bind_ok h
      obtain ⟨_, _, h⟩ := bind_ok h
      obtain ⟨-, h⟩ := guard_ok h
      obtain ⟨probe, hprobe, h⟩ := bind_ok h
      cases h
      refine ⟨not_not.mp htoken, ?_⟩
      intro hmark
      exact (safePath_ok hprobe).2 (mem_replaceFrom "probe".toList (token_ne_nil scope)
        (mark_notMem_token scope) (List.nil_subset _) hmark)
    · cases h
  · cases h

theorem wellFormed_of_load {float : FloatEq F}
    (h : loadDescriptor float value = .ok d) : ∀ e ∈ d.volumeTemplates, WellFormed e := by
  unfold loadDescriptor at h
  split at h
  · obtain ⟨-, h⟩ := guard_ok h
    split at h
    · obtain ⟨_, _, h⟩ := bind_ok h
      obtain ⟨_, _, h⟩ := bind_ok h
      obtain ⟨_, _, h⟩ := bind_ok h
      obtain ⟨_, _, h⟩ := bind_ok h
      obtain ⟨_, _, h⟩ := bind_ok h
      obtain ⟨_, _, h⟩ := bind_ok h
      obtain ⟨_, _, h⟩ := bind_ok h
      split at h
      · obtain ⟨templates, htemplates, h⟩ := bind_ok h
        cases h
        unfold validateVolumeTemplates at htemplates
        split at htemplates
        · cases htemplates
          exact fun e he => (List.not_mem_nil he).elim
        · cases htemplates
          exact fun e he => (List.not_mem_nil he).elim
        · intro e he
          obtain ⟨value, -, hvalue⟩ := exists_left (mapM_ok htemplates) he
          exact wellFormed_of_validate hvalue
        · cases htemplates
      · cases h
    · cases h
  · cases h

/-! ## Mounts of two identities -/

theorem resolveVolume_ok (h : resolveVolume resolve instanceId userId e = .ok v) :
    ∃ value, placeholderValue e.scope instanceId userId = .ok value ∧
      v.source = purePath (Template.replace e.scope.token value e.sourceTemplate) := by
  obtain ⟨value, hvalue, h⟩ := bind_ok h
  obtain ⟨-, h⟩ := guard_ok h
  obtain ⟨source, hsource, h⟩ := bind_ok h
  obtain ⟨_, _, h⟩ := bind_ok h
  obtain ⟨_, _, h⟩ := bind_ok h
  obtain ⟨-, h⟩ := guard_ok h
  cases h
  exact ⟨value, hvalue, (safePath_ok hsource).1⟩

theorem separate_of_ne (he : WellFormed e) (hx : PathWord x) (hy : PathWord y) (hne : x ≠ y) :
    Separate (purePath (Template.replace e.scope.token x e.sourceTemplate))
      (purePath (Template.replace e.scope.token y e.sourceTemplate)) := by
  have hmark : mark ∈ Template.replace e.scope.token [mark] e.sourceTemplate :=
    mark_mem_replace (token_ne_nil e.scope) he.token
  unfold Separate Beneath purePath
  rw [replace_eq_flatMap x he.mark, replace_eq_flatMap y he.mark]
  constructor
  · intro h
    exact hne (eq_of_front hy hx hmark h.2).symm
  · intro h
    exact hne (eq_of_front hx hy hmark h.2)

def NoLinksBelow (resolve : PurePath → PurePath) (d : Descriptor) : Prop :=
  ∀ e ∈ d.volumeTemplates, ∀ p, Beneath p (purePath e.root) →
    resolve p = ⟨(resolve (purePath e.root)).root, (resolve (purePath e.root)).parts ++
      p.parts.drop (purePath e.root).parts.length⟩

/-- The two mounts of the template are apart as they are written and, where they are written below
the root, in the directories that they lead to. -/
structure MountsApart (resolve : PurePath → PurePath) (e : VolumeTemplate) (v v' : Volume) : Prop where
  written : Separate v.source v'.source
  resolved : Beneath v.source (purePath e.root) → Beneath v'.source (purePath e.root) →
    Separate (resolve v.source) (resolve v'.source)

/-- All mounts of templates of the scope are apart for the two identities. -/
def ScopeApart (resolve : PurePath → PurePath) (d : Descriptor) (t t' : Identity) (scope : Scope) : Prop :=
  ∀ vols vols', resolvedVolumes resolve d t.inst t.user = .ok vols →
    resolvedVolumes resolve d t'.inst t'.user = .ok vols' →
    ∀ (k : ℕ) e v v', d.volumeTemplates[k]? = some e → e.scope = scope → vols[k]? = some v →
      vols'[k]? = some v' → MountsApart resolve e v v'

theorem separate_resolve {root q : PurePath}
    (hp : resolve p = ⟨(resolve root).root, (resolve root).parts ++ p.parts.drop root.parts.length⟩)
    (hq : resolve q = ⟨(resolve root).root, (resolve root).parts ++ q.parts.drop root.parts.length⟩)
    (hproot : Beneath p root) (hqroot : Beneath q root) (h : Separate p q) :
    Separate (resolve p) (resolve q) := by
  have hback : ∀ a b : PurePath, Beneath a root → Beneath b root →
      (resolve root).parts ++ b.parts.drop root.parts.length <+:
        (resolve root).parts ++ a.parts.drop root.parts.length → Beneath a b := by
    intro a b ha hb hprefix
    obtain ⟨r, hr⟩ := ha.2
    obtain ⟨r', hr'⟩ := hb.2
    rw [List.prefix_append_right_inj, ← hr, ← hr', List.drop_left, List.drop_left] at hprefix
    refine ⟨ha.1.trans hb.1.symm, ?_⟩
    rw [← hr, ← hr']
    exact (List.prefix_append_right_inj _).mpr hprefix
  unfold Separate
  rw [hp, hq]
  constructor
  · exact fun hbeneath => h.1 (hback p q hproot hqroot hbeneath.2)
  · exact fun hbeneath => h.2 (hback q p hqroot hproot hbeneath.2)

theorem resolvedVolumes_ok (h : resolvedVolumes resolve d instanceId userId = .ok vols) :
    List.Forall₂ (fun e v => resolveVolume resolve instanceId userId e = .ok v) d.volumeTemplates
      vols := by
  obtain ⟨inst, hinst, h⟩ := bind_ok h
  obtain ⟨user, huser, h⟩ := bind_ok h
  obtain ⟨-, h⟩ := guard_ok h
  have hsame : inst = instanceId := by
    have hvalid := mapError_ok.mp hinst
    unfold validateInstanceId at hvalid
    obtain ⟨-, hvalid⟩ := guard_ok hvalid
    cases hvalid
    rfl
  have huser' : user = userId := by
    unfold validateOptionalUser at huser
    cases userId with
    | none =>
      cases huser
      rfl
    | some u =>
      obtain ⟨u', hu', heq⟩ := map_ok huser
      have hvalid := mapError_ok.mp hu'
      unfold validateUserId at hvalid
      obtain ⟨-, hvalid⟩ := guard_ok hvalid
      cases hvalid
      exact heq.symm
  rw [hsame, huser'] at h
  exact mapM_ok h

theorem source_of_volumes (h : resolvedVolumes resolve d instanceId userId = .ok vols) {k : ℕ}
    (he : d.volumeTemplates[k]? = some e) (hv : vols[k]? = some v) :
    ∃ value, placeholderValue e.scope instanceId userId = .ok value ∧
      v.source = purePath (Template.replace e.scope.token value e.sourceTemplate) := by
  have hrel := List.forall₂_iff_get.mp (resolvedVolumes_ok h)
  obtain ⟨hk, hget⟩ := List.getElem?_eq_some_iff.mp he
  obtain ⟨hk', hget'⟩ := List.getElem?_eq_some_iff.mp hv
  have hk := hrel.2 k hk hk'
  rw [List.get_eq_getElem, List.get_eq_getElem] at hk
  rw [← hget, ← hget']
  exact resolveVolume_ok hk

theorem mountsApart_of_ne
    {v' : Volume} (hlinks : NoLinksBelow resolve d) (he : e ∈ d.volumeTemplates)
    (hformed : WellFormed e) (hx : PathWord x) (hy : PathWord y) (hne : x ≠ y)
    (hv : v.source = purePath (Template.replace e.scope.token x e.sourceTemplate))
    (hv' : v'.source = purePath (Template.replace e.scope.token y e.sourceTemplate)) :
    MountsApart resolve e v v' := by
  have hapart : Separate v.source v'.source := by
    rw [hv, hv']
    exact separate_of_ne hformed hx hy hne
  refine ⟨hapart, ?_⟩
  intro hbelow hbelow'
  exact separate_resolve (hlinks e he _ hbelow) (hlinks e he _ hbelow') hbelow hbelow' hapart

/-- Two identities whose instances differ share no instance-scoped mount, and two whose users differ
share no user-scoped one. -/
theorem mounts_apart {float : FloatEq F} {value : Plain F} {d : Descriptor}
    {resolve : PurePath → PurePath} {t t' : Identity} (hload : loadDescriptor float value = .ok d)
    (hlinks : NoLinksBelow resolve d) :
    (t.inst ≠ t'.inst → ScopeApart resolve d t t' .inst) ∧
      (∀ u u', t.user = some u → t'.user = some u' → u ≠ u' → ScopeApart resolve d t t' .user) := by
  have hformed := wellFormed_of_load hload
  constructor
  · intro hne vols vols' hvols hvols' k e v v' he hscope hv hv'
    have hmem := List.mem_of_getElem? he
    obtain ⟨x, hx, hsource⟩ := source_of_volumes hvols he hv
    obtain ⟨y, hy, hsource'⟩ := source_of_volumes hvols' he hv'
    rw [hscope] at hx hy
    cases hx
    cases hy
    exact mountsApart_of_ne hlinks hmem (hformed e hmem) (pathWord_instance t.inst_ok)
      (pathWord_instance t'.inst_ok) hne hsource hsource'
  · intro u u' hu hu' hne vols vols' hvols hvols' k e v v' he hscope hv hv'
    have hmem := List.mem_of_getElem? he
    obtain ⟨x, hx, hsource⟩ := source_of_volumes hvols he hv
    obtain ⟨y, hy, hsource'⟩ := source_of_volumes hvols' he hv'
    rw [hscope, hu] at hx
    rw [hscope, hu'] at hy
    cases hx
    cases hy
    exact mountsApart_of_ne hlinks hmem (hformed e hmem) (pathWord_user (t.user_ok u hu))
      (pathWord_user (t'.user_ok u' hu')) hne hsource hsource'

/-! ## Two users of one instance identifier -/

theorem noLinksBelow_id (d : Descriptor) : NoLinksBelow id d := by
  intro e _ p ⟨hroot, rest, hrest⟩
  have hdrop : p.parts.drop (purePath e.root).parts.length = rest := by
    rw [← hrest, List.drop_left]
  show p = ⟨(purePath e.root).root, (purePath e.root).parts ++
    p.parts.drop (purePath e.root).parts.length⟩
  rw [hdrop, hrest, ← hroot]

/-- The descriptor of a converter with a work directory for each instance. -/
def converter : Plain Empty :=
  .object [("schemaVersion".toList, number 3), ("serviceId".toList, text "convert"),
    ("image".toList, text "convert:1"), ("runArgs".toList, .array []), ("command".toList, .array []),
    ("podman".toList, text "/bin/podman"), ("systemctl".toList, text "/bin/systemctl"),
    ("systemdRun".toList, text "/bin/systemd-run"),
    ("targetUnit".toList, text "nas-v2-session-convert.target"), ("requires".toList, .array []),
    ("after".toList, .array []), ("requiresUser".toList, boolean false),
    ("volumeTemplates".toList, .array [.object [("root".toList, text "/srv/work"),
      ("sourceTemplate".toList, text "/srv/work/\x7binstance\x7d"), ("target".toList, text "/work"),
      ("access".toList, text "rw"), ("scope".toList, text "instance")]])]

def workTemplate : VolumeTemplate where
  root := "/srv/work".toList
  sourceTemplate := "/srv/work/\x7binstance\x7d".toList
  target := "/work".toList
  access := .rw
  scope := .inst

def converterDescriptor : Descriptor where
  serviceId := "convert".toList
  image := "convert:1".toList
  runArgs := []
  command := []
  podman := "/bin/podman".toList
  systemctl := "/bin/systemctl".toList
  systemdRun := "/bin/systemd-run".toList
  targetUnit := "nas-v2-session-convert.target".toList
  requires := []
  after := []
  requiresUser := false
  volumeTemplates := [workTemplate]

def converterOf (inst user : Text) (hinst : isInstanceId inst = true) (huser : isUserId user = true) :
    Identity where
  service := "convert".toList
  inst := inst
  user := some user
  service_ok := by decide
  inst_ok := hinst
  user_ok := fun u hu => Option.some.inj hu ▸ huser

def aliceOne : Identity := converterOf "one".toList "alice".toList (by decide) (by decide)

def bobOne : Identity := converterOf "one".toList "bob".toList (by decide) (by decide)

def bobTwo : Identity := converterOf "two".toList "bob".toList (by decide) (by decide)

def workVolume (inst : Text) : Volume where
  source := ⟨['/'], ["srv".toList, "work".toList, inst]⟩
  target := ⟨['/'], ["work".toList]⟩
  access := .rw

theorem mounts_apart_converter :
    loadDescriptor ⟨nofun, nofun, nofun, nofun⟩ converter = .ok converterDescriptor ∧
      MountsApart id workTemplate (workVolume "one".toList) (workVolume "two".toList) :=
  have hload : loadDescriptor ⟨nofun, nofun, nofun, nofun⟩ converter = .ok converterDescriptor := by
    decide
  have hne : aliceOne.inst ≠ bobTwo.inst := by decide
  ⟨hload, (mounts_apart hload (noLinksBelow_id converterDescriptor)).1 hne
    [workVolume "one".toList] [workVolume "two".toList] (by decide) (by decide) 0 workTemplate _ _
    rfl rfl rfl rfl⟩

def digests (value : Text) : Text :=
  if value = "alice".toList then "2bd806c97f0e00af1a1fc3328fa763a9269723c8db8fac4f93af71db186d6e90".toList
  else if value = "bob".toList then
    "81b637d8fcd2c6da6359e6963113a1170de795e4b725b84d1e0b4cfd9ec58ce9".toList
  else []

/-- The user is part of the names, not of an instance-scoped path: two users may have an instance of
one name each, and these mount one directory. -/
theorem not_apart_sameInstance :
    loadDescriptor ⟨nofun, nofun, nofun, nofun⟩ converter = .ok converterDescriptor ∧
      NoLinksBelow id converterDescriptor ∧ aliceOne ≠ bobOne ∧
      aliceOne.container digests ≠ bobOne.container digests ∧
      aliceOne.unit digests ≠ bobOne.unit digests ∧
      ¬ ScopeApart id converterDescriptor aliceOne bobOne .inst := by
  refine ⟨by decide, noLinksBelow_id _, ?_, by decide, by decide, ?_⟩
  · intro heq
    have huser := congrArg Identity.user heq
    revert huser
    decide
  · intro h
    have hapart := h [workVolume "one".toList] [workVolume "one".toList] (by decide) (by decide) 0
      workTemplate _ _ rfl rfl rfl rfl
    exact hapart.written.1 ⟨rfl, List.prefix_refl _⟩

end NixNas.Session
