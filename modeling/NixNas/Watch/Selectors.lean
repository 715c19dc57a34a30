import Mathlib.Data.List.TakeWhile
import NixNas.Watch.Sources

/-!
# Which release selectors are watched

The loop looks at the components of a path as it is written, and the kernel walks through them.
What the loop does not look at are the links on the way to the app root.
-/

open Symlinks

namespace NixNas.Watch

/-- The link is met on the path, and not on the way to the app root. -/
def Meets (fs : FileSystem Text) (top : Place Text) (path : PosixPath Text) (l : Place Text) : Prop :=
  ∃ front n back followed parent, path.parts = front ++ .name n :: back ∧
    Walks fs [] front followed parent ∧ l = parent ++ [n] ∧ (∃ t, fs.node l = some (.link t)) ∧
    ¬ (isRelativeTo path (pathOf top) ∧ front ++ [.name n] <+: top.parts)

/-- The link is met on a source, or on the target of a link that is. -/
def Selected (fs : FileSystem Text) (top : Place Text) (sources : List (PosixPath Text)) :
    Place Text → Prop :=
  Worklist.Reaches (Meets fs top) (readlink fs) sources

/-- The kernel follows the link when it resolves one of the sources. -/
def Followed (fs : FileSystem Text) (sources : List (PosixPath Text)) (l : Place Text) : Prop :=
  ∃ source ∈ sources, ∃ followed e, Walks fs [] source.parts followed e ∧ l ∈ followed

/-- The limit is enough for every path along the components. -/
def Deep (fs : FileSystem Text) (limit : ℕ) (path : PosixPath Text) : Prop :=
  ∀ front, front <+: path.parts → ∀ followed e, Walks fs [] front followed e →
    resolve fs limit [] front = .ok e

variable {fs : FileSystem Text} {limit : ℕ} {top root l : Place Text} {path : PosixPath Text}
  {followed above : List (Place Text)} {e : Place Text} {sources : List (PosixPath Text)}
variable {p d : Place Text} {front : List (PathPart Text)} {n : Text}

/-! ## What the loop meets -/

theorem mem_takeWhile_inits {α : Type} {p : List α → Bool} {xs ys : List α} :
    ys ∈ xs.inits.reverse.takeWhile p ↔ ys <+: xs ∧ ∀ zs, ys <+: zs → zs <+: xs → p zs = true := by
  induction xs using List.reverseRecOn with
  | nil =>
    rw [List.inits, List.reverse_singleton]
    constructor
    · intro h
      obtain rfl := List.mem_singleton.mp (List.takeWhile_subset p h)
      refine ⟨List.prefix_refl _, fun zs _ hzs => ?_⟩
      rw [List.prefix_nil.mp hzs]
      exact List.mem_takeWhile_imp h
    · rintro ⟨hys, hall⟩
      rw [List.prefix_nil.mp hys] at hall ⊢
      rw [List.takeWhile_cons_of_pos (hall [] (List.prefix_refl _) (List.prefix_refl _))]
      exact List.mem_singleton_self _
  | append_singleton xs x ih =>
    have hinits : (xs ++ [x]).inits.reverse = (xs ++ [x]) :: xs.inits.reverse := by
      simp [List.inits_append]
    rw [hinits]
    by_cases hp : p (xs ++ [x]) = true
    · rw [List.takeWhile_cons_of_pos hp, List.mem_cons, ih, List.prefix_concat_iff]
      constructor
      · rintro (rfl | ⟨hys, hall⟩)
        · refine ⟨.inl rfl, fun zs hle hzs => ?_⟩
          rw [← hle.eq_of_length_le hzs.length_le]
          exact hp
        · refine ⟨.inr hys, fun zs hle hzs => ?_⟩
          rcases List.prefix_concat_iff.mp hzs with rfl | hzs
          · exact hp
          · exact hall zs hle hzs
      · rintro ⟨rfl | hys, hall⟩
        · exact .inl rfl
        · exact .inr ⟨hys, fun zs hle hzs => hall zs hle (hzs.trans (List.prefix_append xs [x]))⟩
    · rw [List.takeWhile_cons_of_neg hp]
      constructor
      · intro h
        cases h
      · rintro ⟨hys, hall⟩
        exact (hp (hall _ hys (List.prefix_refl _))).elim

theorem mem_linksOn : l ∈ linksOn fs limit top root path ↔
    ∃ parts, parts <+: path.parts ∧ linkAt fs limit ⟨path.doubled, parts⟩ = some l ∧
      ∀ ys, parts <+: ys → ys <+: path.parts →
        (⟨path.doubled, ys⟩ : PosixPath Text) ∉ [pathOf top, pathOf root] := by
  unfold linksOn components
  rw [List.mem_filterMap, List.takeWhile_map]
  constructor
  · rintro ⟨component, hmem, hlink⟩
    obtain ⟨parts, hparts, rfl⟩ := List.mem_map.mp hmem
    obtain ⟨hahead, hall⟩ := mem_takeWhile_inits.mp hparts
    exact ⟨parts, hahead, hlink, fun ys hle hys => of_decide_eq_true (hall ys hle hys)⟩
  · rintro ⟨parts, hahead, hlink, hall⟩
    refine ⟨_, List.mem_map_of_mem (mem_takeWhile_inits.mpr ⟨hahead, fun ys hle hys => ?_⟩), hlink⟩
    exact decide_eq_true (hall ys hle hys)

theorem linkAt_eq_some {doubled : Bool} {parts : List (PathPart Text)} :
    linkAt fs limit ⟨doubled, parts⟩ = some l ↔
      ∃ front n parent, parts = front ++ [.name n] ∧ resolve fs limit [] front = .ok parent ∧
        l = parent ++ [n] ∧ ∃ t, fs.node l = some (.link t) := by
  constructor
  · intro h
    unfold linkAt at h
    dsimp only at h
    split at h
    · rename_i n hlast
      split at h
      · rename_i parent hresolve
        split at h
        · rename_i t hnode
          cases h
          have hparts := (List.dropLast_append_getLast? _ hlast).symm
          exact ⟨_, n, parent, hparts, hresolve, rfl, t, hnode⟩
        · cases h
      · cases h
    · cases h
  · rintro ⟨front, n, parent, rfl, hresolve, rfl, t, hnode⟩
    unfold linkAt
    dsimp only
    rw [List.getLast?_concat, List.dropLast_concat]
    dsimp only
    rw [hresolve]
    dsimp only
    rw [hnode]

theorem isReal_of_ahead {q : Place Text} (h : IsReal fs p) (hq : q <+: p) : IsReal fs q := by
  induction p using List.reverseRecOn with
  | nil => rwa [List.prefix_nil.mp hq]
  | append_singleton p n ih =>
    rcases List.prefix_concat_iff.mp hq with rfl | hq
    · exact h
    · obtain ⟨node, hnode, -⟩ := h
      apply ih _ hq
      apply isReal_of_directory
      apply fs.parent p n
      rw [hnode]
      exact Option.some_ne_none _

theorem prefix_parts
    (h : front ++ [.name n] <+: p.parts) : ∃ q : Place Text, front = q.parts ∧ q ++ [n] <+: p := by
  obtain ⟨rest, hrest⟩ := h
  obtain ⟨q, q', rfl, hq, -⟩ := List.map_eq_append_iff.mp hrest.symm
  obtain ⟨q₁, q₂, rfl, hfront, hlast⟩ := List.map_eq_append_iff.mp hq
  obtain ⟨m, ms, rfl, hm, hms⟩ := List.map_eq_cons_iff.mp hlast
  cases hm
  rw [List.map_eq_nil_iff.mp hms]
  exact ⟨q₁, hfront.symm, List.prefix_append _ _⟩

theorem mem_linksOn_iff (hroot : IsReal fs root) (hpath : Walks fs [] path.parts followed e)
    (hdeep : Deep fs limit path) : l ∈ linksOn fs limit top root path ↔ Meets fs top path l := by
  rw [mem_linksOn]
  constructor
  · rintro ⟨parts, ⟨back, hparts⟩, hlink, hall⟩
    obtain ⟨front, n, parent, rfl, hresolve, rfl, hnode⟩ := linkAt_eq_some.mp hlink
    rw [List.append_assoc, List.singleton_append] at hparts
    rw [← hparts] at hpath
    obtain ⟨first, m, second, hfirst, -, -⟩ := hpath.split
    have hm := hdeep front ⟨_, hparts⟩ first m hfirst
    rw [hresolve] at hm
    cases hm
    refine ⟨front, n, back, first, parent, hparts.symm, hfirst, rfl, hnode, ?_⟩
    rintro ⟨⟨hdoubled, hrelative⟩, hahead⟩
    apply hall top.parts hahead hrelative
    rw [hdoubled]
    exact List.mem_cons_self
  · rintro ⟨front, n, back, first, parent, hparts, hfirst, rfl, hnode, houtside⟩
    have hahead : front ++ [.name n] <+: path.parts := by
      refine ⟨back, ?_⟩
      rw [hparts, List.append_assoc, List.singleton_append]
    have hresolve := hdeep front ((List.prefix_append _ _).trans hahead) first parent hfirst
    refine ⟨_, hahead, linkAt_eq_some.mpr ⟨front, n, parent, rfl, hresolve, rfl, hnode⟩, ?_⟩
    intro ys hle hys hmem
    rcases List.mem_cons.mp hmem with heq | hmem
    · obtain ⟨hdoubled, rfl⟩ := PosixPath.mk.inj heq
      exact houtside ⟨⟨hdoubled, hys⟩, hle⟩
    · -- the resolved root is reached without a link
      obtain ⟨-, rfl⟩ := PosixPath.mk.inj (List.mem_singleton.mp hmem)
      obtain ⟨q, rfl, hq⟩ := prefix_parts hle
      have hreal := isReal_of_ahead hroot hq
      have hwalks := walks_place (isReal_of_ahead hreal (List.prefix_append q [n]))
      obtain ⟨-, rfl⟩ := hfirst.unique hwalks
      obtain ⟨node, hnode', hplain⟩ := hreal
      obtain ⟨t, hlink⟩ := hnode
      exact hplain t (Option.some.inj (hnode'.symm.trans hlink))

/-! ## What the kernel follows -/

theorem Meets.mem_followed (h : Meets fs top path l) (hpath : Walks fs [] path.parts followed e) :
    l ∈ followed := by
  obtain ⟨front, n, back, before, parent, hparts, hfront, rfl, ⟨t, hnode⟩, -⟩ := h
  rw [hparts] at hpath
  exact hpath.mem_followed hfront hnode

theorem Meets.walks_readlink (h : Meets fs top path l) (hpath : Walks fs [] path.parts followed e) :
    ∃ inner m, Walks fs [] (readlink fs l).parts inner m ∧ inner ⊆ followed := by
  have hl := h.mem_followed hpath
  obtain ⟨front, n, back, before, parent, -, -, rfl, ⟨t, hnode⟩, -⟩ := h
  obtain ⟨inner, m, htarget, hsub⟩ := hpath.inner hl hnode
  have hparent : fs.node (parent ++ [n]).dropLast = some .directory := by
    apply directory_dropLast
    rw [hnode]
    exact Option.some_ne_none _
  obtain ⟨front', -, -, hwalks⟩ := walks_path hparent htarget
  refine ⟨inner, m, ?_, hsub⟩
  unfold readlink
  rw [hnode]
  exact hwalks

/-- The path resolves by way of links that the kernel follows from a source. -/
def Resolves (fs : FileSystem Text) (sources : List (PosixPath Text)) (path : PosixPath Text) : Prop :=
  ∃ followed e, Walks fs [] path.parts followed e ∧ ∀ l ∈ followed, Followed fs sources l

theorem resolves_source (hsources : ∀ source ∈ sources, ∃ followed e, Walks fs [] source.parts followed e)
    (hpath : path ∈ sources) : Resolves fs sources path := by
  obtain ⟨followed, e, hwalks⟩ := hsources path hpath
  exact ⟨followed, e, hwalks, fun l hl => ⟨path, hpath, followed, e, hwalks, hl⟩⟩

theorem Resolves.readlink (h : Resolves fs sources path) (hmeets : Meets fs top path l) :
    Resolves fs sources (readlink fs l) := by
  obtain ⟨followed, e, hwalks, hfollowed⟩ := h
  obtain ⟨inner, m, htarget, hsub⟩ := hmeets.walks_readlink hwalks
  exact ⟨inner, m, htarget, fun l' hl' => hfollowed l' (hsub hl')⟩

theorem followed_of_selected
    (hsources : ∀ source ∈ sources, ∃ followed e, Walks fs [] source.parts followed e)
    (h : Selected fs top sources l) : Followed fs sources l := by
  have hboth : Followed fs sources l ∧ Resolves fs sources (Watch.readlink fs l) := by
    induction h with
    | @start path l hp hk =>
      have hpath := resolves_source hsources hp
      refine ⟨?_, hpath.readlink hk⟩
      obtain ⟨followed, e, hwalks, hfollowed⟩ := hpath
      exact hfollowed l (hk.mem_followed hwalks)
    | @next l l' _ hk ih =>
      have hpath := ih.2
      refine ⟨?_, hpath.readlink hk⟩
      obtain ⟨followed, e, hwalks, hfollowed⟩ := hpath
      exact hfollowed l' (hk.mem_followed hwalks)
  exact hboth.1

theorem mem_above {before inner : List (Place Text)}
    {m : Place Text} {t : Target Text} (hroot : Walks fs [] top.parts above root)
    (hahead : front ++ [.name n] <+: top.parts) (hfront : Walks fs [] front before d)
    (hnode : fs.node (d ++ [n]) = some (.link t)) (htarget : Walks fs (t.start d) t.parts inner m) :
    d ++ [n] ∈ above ∧ inner ⊆ above := by
  obtain ⟨back, hback⟩ := hahead
  rw [← hback] at hroot
  obtain ⟨first, m', second, hfirst, -, rfl⟩ := hroot.split
  have hlink := hfront.append (.link hnode htarget (.done m))
  obtain ⟨rfl, rfl⟩ := hfirst.unique hlink
  constructor
  · exact List.mem_append_left _ (List.mem_append_right _ List.mem_cons_self)
  · intro l hl
    apply List.mem_append_left
    apply List.mem_append_right
    exact List.mem_cons_of_mem _ (List.mem_append_left _ hl)

/-- What is followed on a path of the search is selected, or stands on the way to the app root. -/
theorem selected_or_above (hroot : Walks fs [] top.parts above root)
    {xs : List (PathPart Text)} (h : Walks fs d xs followed e) :
    ∀ path front before, Worklist.Queued (readlink fs) sources (Selected fs top sources) path →
      path.parts = front ++ xs → Walks fs [] front before d →
        ∀ l ∈ followed, Selected fs top sources l ∨ l ∈ above := by
  induction h with
  | done =>
    intro path front before _ _ _ l hl
    cases hl
  | @up d e rest followed hd _ ih =>
    intro path front before hqueued hparts hfront
    have hstep := hfront.append (.up hd (.done _))
    rw [List.append_cons] at hparts
    exact ih path _ _ hqueued hparts hstep
  | @plain d e n node rest followed hnode hplain _ ih =>
    intro path front before hqueued hparts hfront
    have hstep := hfront.append (.plain hnode hplain (.done _))
    rw [List.append_cons] at hparts
    exact ih path _ _ hqueued hparts hstep
  | @link d m e n t rest inner followed hnode htarget _ ihtarget ih =>
    intro path front before hqueued hparts hfront l hl
    have hstep := hfront.append (.link hnode htarget (.done m))
    have hrest : ∀ l ∈ followed, Selected fs top sources l ∨ l ∈ above := by
      apply ih path _ _ hqueued _ hstep
      rw [hparts, List.append_cons]
    by_cases hexcluded : isRelativeTo path (pathOf top) ∧ front ++ [.name n] <+: top.parts
    · obtain ⟨hlink, hinner⟩ := mem_above hroot hexcluded.2 hfront hnode htarget
      rcases List.mem_cons.mp hl with rfl | hl
      · exact .inr hlink
      · rcases List.mem_append.mp hl with hl | hl
        · exact .inr (hinner hl)
        · exact hrest l hl
    · have hmeets : Meets fs top path (d ++ [n]) :=
        ⟨front, n, rest, before, d, hparts, hfront, rfl, ⟨t, hnode⟩, hexcluded⟩
      have hselected : Selected fs top sources (d ++ [n]) := hqueued.reaches hmeets
      rcases List.mem_cons.mp hl with rfl | hl
      · exact .inl hselected
      · rcases List.mem_append.mp hl with hl | hl
        · -- the target of the link is a path of the search
          have hparent : fs.node d = some .directory := by
            apply fs.parent d n
            rw [hnode]
            exact Option.some_ne_none _
          obtain ⟨front', htargetParts, hstart, -⟩ := walks_path hparent htarget
          have hnext : readlink fs (d ++ [n]) = t.path d := by
            unfold readlink
            rw [hnode, List.dropLast_concat]
          apply ihtarget (t.path d) front' [] _ htargetParts hstart l hl
          exact .inr ⟨_, hselected, hnext.symm⟩
        · exact hrest l hl

theorem followed_iff (hroot : Walks fs [] top.parts above root)
    (hsources : ∀ source ∈ sources, isRelativeTo source (pathOf top) ∧
      ∃ followed e, Walks fs [] source.parts followed e) :
    Followed fs sources l ↔ Selected fs top sources l ∨ (sources ≠ [] ∧ l ∈ above) := by
  constructor
  · rintro ⟨source, hsource, followed, e, hwalks, hl⟩
    have hne : sources ≠ [] := List.ne_nil_of_mem hsource
    rcases selected_or_above hroot hwalks source [] [] (.inl hsource) rfl (.done []) l hl with h | h
    · exact .inl h
    · exact .inr ⟨hne, h⟩
  · rintro (h | ⟨hne, hl⟩)
    · exact followed_of_selected (fun source hsource => (hsources source hsource).2) h
    · obtain ⟨source, hsource⟩ := List.exists_mem_of_ne_nil sources hne
      obtain ⟨⟨-, back, hback⟩, followed, e, hwalks⟩ := hsources source hsource
      have hparts : top.parts ++ back = source.parts := hback
      have hsplit := hwalks
      rw [← hparts] at hsplit
      obtain ⟨first, m, second, hfirst, -, rfl⟩ := hsplit.split
      obtain ⟨rfl, rfl⟩ := hfirst.unique hroot
      exact ⟨source, hsource, _, e, hwalks, List.mem_append_left _ hl⟩

/-! ## What is watched -/

theorem mem_links_of_linksOn : l ∈ linksOn fs limit top root path → l ∈ fs.links := by
  rw [mem_linksOn]
  rintro ⟨parts, -, hlink, -⟩
  obtain ⟨front, n, parent, -, -, -, t, hnode⟩ := linkAt_eq_some.mp hlink
  exact fs.mem_links hnode

theorem exists_limit (hroot : Walks fs [] top.parts above root) (sources : List (PosixPath Text)) :
    ∃ limit, ∀ more, resolve fs (limit + more) [] top.parts = .ok root ∧
      ∀ path, Worklist.Queued (readlink fs) sources (· ∈ fs.links) path →
        Deep fs (limit + more) path := by
  obtain ⟨limit, hlimit⟩ := exists_depth fs (top.parts ::
    (sources ++ fs.links.toList.map (readlink fs)).flatMap fun path ↦ path.parts.inits)
  rw [List.forall_mem_cons] at hlimit
  refine ⟨limit, fun more => ⟨hlimit.1 above root hroot more, ?_⟩⟩
  intro path hpath front hfront followed e hwalks
  apply hlimit.2 front _ followed e hwalks more
  refine List.mem_flatMap.mpr ⟨path, ?_, (List.mem_inits _ _).mpr hfront⟩
  rw [List.mem_append]
  rcases hpath with hpath | ⟨l, hl, rfl⟩
  · exact .inl hpath
  · exact .inr (List.mem_map_of_mem (Finset.mem_toList.mpr hl))

theorem reaches_iff_selected (hroot : IsReal fs root)
    (hsources : ∀ source ∈ sources, ∃ followed e, Walks fs [] source.parts followed e)
    (hdeep : ∀ path, Worklist.Queued (readlink fs) sources (· ∈ fs.links) path → Deep fs limit path) :
    Worklist.Reaches (fun path l ↦ l ∈ linksOn fs limit top root path) (readlink fs) sources l ↔
      Selected fs top sources l := by
  -- every path of the search resolves, and the limit is enough for it
  have hagree : ∀ path l, Resolves fs sources path ∧
      Worklist.Queued (readlink fs) sources (· ∈ fs.links) path →
        (l ∈ linksOn fs limit top root path ↔ Meets fs top path l) := by
    rintro path l ⟨⟨followed, e, hwalks, -⟩, hqueued⟩
    exact mem_linksOn_iff hroot hwalks (hdeep path hqueued)
  have hstart : ∀ path ∈ sources, Resolves fs sources path ∧
      Worklist.Queued (readlink fs) sources (· ∈ fs.links) path :=
    fun path hpath => ⟨resolves_source hsources hpath, .inl hpath⟩
  have hnext : ∀ path l, Resolves fs sources path ∧
      Worklist.Queued (readlink fs) sources (· ∈ fs.links) path → Meets fs top path l →
        Resolves fs sources (readlink fs l) ∧
          Worklist.Queued (readlink fs) sources (· ∈ fs.links) (readlink fs l) := by
    rintro path l ⟨hresolves, -⟩ hmeets
    refine ⟨hresolves.readlink hmeets, .inr ⟨l, ?_, rfl⟩⟩
    obtain ⟨-, -, -, -, -, -, -, -, ⟨t, hnode⟩, -⟩ := hmeets
    exact fs.mem_links hnode
  constructor
  · intro h
    exact (h.congr hstart (fun path l hpath hl => hnext path l hpath ((hagree path l hpath).mp hl))
      fun path l hpath hl => (hagree path l hpath).mp hl).1
  · intro h
    exact (Worklist.Reaches.congr hstart hnext (fun path l hpath hl => (hagree path l hpath).mpr hl)
      h).1

/-- The loop ends, and the directories are those of the selected links beneath the root. -/
theorem symlinkParentPaths_spec {serviceId : Text}
    (hroot : Walks fs [] (appRoot serviceId).parts above root)
    (hsources : ∀ source ∈ sources, isRelativeTo source (pathOf (appRoot serviceId)) ∧
      ∃ followed e, Walks fs [] source.parts followed e) :
    ∃ limit, ∀ more, ∃ dirs,
      (∃ fuel, ∀ more', symlinkParentPaths fs (limit + more) (fuel + more') serviceId sources =
        some (.ok dirs)) ∧
      ∀ d, d ∈ dirs ↔
        ∃ l, Selected fs (appRoot serviceId) sources l ∧ root <+: l ∧ l.dropLast = d := by
  obtain ⟨limit, hlimit⟩ := exists_limit hroot sources
  refine ⟨limit, fun more => ?_⟩
  obtain ⟨hresolve, hdeep⟩ := hlimit more
  have hinvariant : Worklist.Invariant (linksOn fs (limit + more) (appRoot serviceId) root)
      (readlink fs) sources ⟨[], sources.reverse⟩ :=
    Worklist.invariant_start fun path => List.mem_reverse
  obtain ⟨e, hrun, hseen⟩ := hinvariant.run (U := fs.links) (fun path l => mem_links_of_linksOn)
    (Nat.lt_add_one _)
  have hrecorded : Inspection.Recorded root ⟨[], [], sources.reverse⟩ := by
    intro d
    simp
  obtain ⟨s, hloop, rfl, hdirs⟩ := inspectPending_search hrecorded hrun
  refine ⟨s.directories.mergeSort fun a b ↦ decide (text a ≤ text b),
    ⟨Worklist.potential fs.links ⟨[], sources.reverse⟩ + 1, fun more' => ?_⟩, ?_⟩
  · unfold symlinkParentPaths
    rw [hresolve]
    dsimp only
    rw [if_neg, inspectPending_add hloop more']
    · rfl
    · rintro ⟨source, hsource, hrelative⟩
      exact hrelative (hsources source hsource).1
  · intro d
    rw [List.mem_mergeSort, hdirs d]
    have hreal := hroot.isReal (isReal_of_directory fs.root)
    have hselected : ∀ l, l ∈ s.seen ↔ Selected fs (appRoot serviceId) sources l := fun l =>
      (hseen l).trans (reaches_iff_selected hreal (fun source hsource => (hsources source hsource).2)
        hdeep)
    simp only [hselected]

/-- The directories are those that the links beneath the root stand in that the kernel follows. -/
def Covers (fs : FileSystem Text) (root : Place Text) (sources : List (PosixPath Text))
    (dirs : List (Place Text)) : Prop :=
  ∀ d, d ∈ dirs ↔ ∃ l, Followed fs sources l ∧ root <+: l ∧ l.dropLast = d

/-- The loop ends, and no directory is missing exactly where every link beneath the root that is
followed on the way to the app root stands beside one that is met elsewhere. -/
theorem symlinkParentPaths_covers_iff {serviceId : Text}
    (hroot : Walks fs [] (appRoot serviceId).parts above root)
    (hsources : ∀ source ∈ sources, isRelativeTo source (pathOf (appRoot serviceId)) ∧
      ∃ followed e, Walks fs [] source.parts followed e) :
    ∃ limit, ∀ more, ∃ dirs,
      (∃ fuel, ∀ more', symlinkParentPaths fs (limit + more) (fuel + more') serviceId sources =
        some (.ok dirs)) ∧
      (Covers fs root sources dirs ↔ (sources ≠ [] → ∀ l ∈ above, root <+: l →
        ∃ l', Selected fs (appRoot serviceId) sources l' ∧ root <+: l' ∧
          l'.dropLast = l.dropLast)) := by
  obtain ⟨limit, hlimit⟩ := symlinkParentPaths_spec hroot hsources
  refine ⟨limit, fun more => ?_⟩
  obtain ⟨dirs, hends, hdirs⟩ := hlimit more
  refine ⟨dirs, hends, ?_⟩
  unfold Covers
  simp only [hdirs, followed_iff hroot hsources]
  constructor
  · intro h hne l hl hbeneath
    exact (h l.dropLast).mpr ⟨l, .inr ⟨hne, hl⟩, hbeneath, rfl⟩
  · intro h d
    constructor
    · rintro ⟨l, hl, hbeneath, rfl⟩
      exact ⟨l, .inl hl, hbeneath, rfl⟩
    · rintro ⟨l, hl | ⟨hne, hl⟩, hbeneath, rfl⟩
      · exact ⟨l, hl, hbeneath, rfl⟩
      · exact h hne l hl hbeneath

/-! ## A root behind a selector -/

theorem not_selected_of_plain (hroot : Walks fs [] top.parts above root)
    (hplain : ∀ t, fs.node (root ++ [n]) ≠ some (.link t)) :
    ¬ Selected fs top [pathOf (top ++ [n])] l := by
  have hparts : (pathOf (top ++ [n])).parts = top.parts ++ [.name n] := List.map_append
  have hmeets : ∀ l, ¬ Meets fs top (pathOf (top ++ [n])) l := by
    rintro l ⟨front, m, back, before, parent, hfront, hwalks, rfl, ⟨t, hnode⟩, houtside⟩
    have hahead : front ++ [.name m] <+: top.parts ++ [.name n] := by
      refine ⟨back, ?_⟩
      rw [← hparts, hfront, List.append_assoc, List.singleton_append]
    rcases List.prefix_concat_iff.mp hahead with heq | hahead
    · obtain ⟨rfl, hlast⟩ := List.append_inj' heq rfl
      cases hlast
      obtain ⟨-, rfl⟩ := hwalks.unique hroot
      exact hplain t hnode
    · refine houtside ⟨⟨rfl, ?_⟩, hahead⟩
      rw [hparts]
      exact List.prefix_append top.parts [.name n]
  intro h
  induction h with
  | start hpath hl =>
    rw [List.mem_singleton.mp hpath] at hl
    exact hmeets _ hl
  | next _ _ ih => exact ih

def demo : Text := "demo".toList

/-- `/var/lib/nas-control/apps/demo` leads to `/srv/demo/current/..`, by way of a release. -/
def demoTree : FileSystem Text :=
  .ofEntries
    [(["var".toList], .directory),
      (["var".toList, "lib".toList], .directory),
      (["var".toList, "lib".toList, "nas-control".toList], .directory),
      (["var".toList, "lib".toList, "nas-control".toList, "apps".toList], .directory),
      (appRoot demo,
        .link (.absolute ⟨false, [.name "srv".toList, .name demo, .name "current".toList, .up]⟩)),
      (["srv".toList], .directory),
      (["srv".toList, demo], .directory),
      (["srv".toList, demo, "current".toList], .link (.relative [.name "releases".toList])),
      (["srv".toList, demo, "releases".toList], .directory),
      (["srv".toList, demo, "app.yaml".toList], .file)]
    (by decide)

def demoSource : PosixPath Text := pathOf (appRoot demo ++ ["app.yaml".toList])

theorem walks_demo : Walks demoTree [] (appRoot demo).parts
    [appRoot demo, ["srv".toList, demo, "current".toList]] ["srv".toList, demo] := by
  have hdirectory : ∀ t : Target Text, (Node.directory : Node Text) ≠ .link t := by
    intro t h
    cases h
  have hcurrent : Walks demoTree ["srv".toList, demo] [.name "releases".toList] []
      ["srv".toList, demo, "releases".toList] := .plain (by decide) hdirectory (.done _)
  have hreleases : demoTree.node ["srv".toList, demo, "releases".toList] = some .directory := by
    decide
  have hlink : demoTree.node (["srv".toList, demo] ++ ["current".toList]) =
      some (.link (.relative [.name "releases".toList])) := by decide
  have hdemo : Walks demoTree ["srv".toList, demo] [.name "current".toList, .up]
      [["srv".toList, demo, "current".toList]] ["srv".toList, demo] :=
    .link hlink hcurrent (.up hreleases (.done _))
  have htarget : Walks demoTree [] [.name "srv".toList, .name demo, .name "current".toList, .up]
      [["srv".toList, demo, "current".toList]] ["srv".toList, demo] :=
    .plain (by decide) hdirectory (.plain (by decide) hdirectory hdemo)
  have hroot : demoTree.node (["var".toList, "lib".toList, "nas-control".toList, "apps".toList] ++
      [demo]) = some (.link (.absolute
        ⟨false, [.name "srv".toList, .name demo, .name "current".toList, .up]⟩)) := by decide
  have happs : Walks demoTree ["var".toList, "lib".toList, "nas-control".toList, "apps".toList]
      [.name demo] [appRoot demo, ["srv".toList, demo, "current".toList]] ["srv".toList, demo] :=
    .link hroot htarget (.done _)
  exact .plain (by decide) hdirectory (.plain (by decide) hdirectory (.plain (by decide) hdirectory
    (.plain (by decide) hdirectory happs)))

theorem walks_demoSource : Walks demoTree [] demoSource.parts
    [appRoot demo, ["srv".toList, demo, "current".toList]] ["srv".toList, demo, "app.yaml".toList] := by
  have hfile : demoTree.node (["srv".toList, demo] ++ ["app.yaml".toList]) = some .file := by decide
  have hplain : ∀ t : Target Text, (Node.file : Node Text) ≠ .link t := by
    intro t h
    cases h
  exact walks_demo.append (.plain hfile hplain (.done _))

theorem demoSource_ok : ∀ source ∈ [demoSource], isRelativeTo source (pathOf (appRoot demo)) ∧
    ∃ followed e, Walks demoTree [] source.parts followed e := by
  intro source hsource
  rw [List.mem_singleton.mp hsource]
  exact ⟨by decide, _, _, walks_demoSource⟩

theorem symlinkParentPaths_covers_iff_demo :
    ∃ limit, ∀ more, ∃ dirs,
      (∃ fuel, ∀ more', symlinkParentPaths demoTree (limit + more) (fuel + more') demo [demoSource] =
        some (.ok dirs)) ∧
      (Covers demoTree ["srv".toList, demo] [demoSource] dirs ↔ ([demoSource] ≠ [] →
        ∀ l ∈ [appRoot demo, ["srv".toList, demo, "current".toList]], ["srv".toList, demo] <+: l →
          ∃ l', Selected demoTree (appRoot demo) [demoSource] l' ∧ ["srv".toList, demo] <+: l' ∧
            l'.dropLast = l.dropLast)) :=
  symlinkParentPaths_covers_iff walks_demo demoSource_ok

/-- `/srv/demo/current` is followed, and its directory is not watched. -/
theorem not_covers_demo :
    ¬ ∃ limit, ∀ more, ∃ dirs,
      (∃ fuel, ∀ more', symlinkParentPaths demoTree (limit + more) (fuel + more') demo [demoSource] =
        some (.ok dirs)) ∧
      Covers demoTree ["srv".toList, demo] [demoSource] dirs := by
  rintro ⟨limit, hcovers⟩
  obtain ⟨limit', hspec⟩ := symlinkParentPaths_spec walks_demo demoSource_ok
  obtain ⟨dirs, ⟨fuel, hrun⟩, hdirs⟩ := hcovers limit'
  obtain ⟨dirs', ⟨fuel', hrun'⟩, hdirs'⟩ := hspec limit
  have hsame := hrun fuel'
  rw [Nat.add_comm limit, Nat.add_comm fuel, hrun' fuel] at hsame
  cases hsame
  have hmem : ["srv".toList, demo] ∈ dirs := by
    apply (hdirs _).mpr
    refine ⟨["srv".toList, demo, "current".toList], ?_, by decide, by decide⟩
    exact ⟨demoSource, List.mem_singleton_self _, _, _, walks_demoSource,
      List.mem_cons_of_mem _ List.mem_cons_self⟩
  obtain ⟨l, hselected, -⟩ := (hdirs' _).mp hmem
  have hplain : ∀ t, demoTree.node (["srv".toList, demo] ++ ["app.yaml".toList]) ≠ some (.link t) := by
    intro t
    have hfile : demoTree.node (["srv".toList, demo] ++ ["app.yaml".toList]) = some .file := by decide
    rw [hfile]
    intro h
    cases h
  exact not_selected_of_plain walks_demo hplain hselected

end NixNas.Watch
