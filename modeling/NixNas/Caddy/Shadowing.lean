import Mathlib.Data.List.Pairwise
import NixNas.Caddy.Patterns
import NixNas.Caddy.Sites

/-!
# Which handle block takes a request

Caddy tries the handle blocks of a site in file order.  The blocks stand in the order of their
segment counts, so that among plain paths the longest one that covers a request comes first.
-/

open Fallible Percent Quote Segments

namespace NixNas.Caddy

section

variable (cf : CaseFold) (sha256 : Text → Text)
variable {routes : List Route} {e : Entry} {effective : Effective}
  {authentikUpstream authentikPath : Text}

inductive Block where
  | outpost
  | handle (h : Handle)
  deriving DecidableEq, Repr

def Site.blocks (s : Site) : List Block :=
  (if s.outpost.isSome then [.outpost] else []) ++ s.handles.map .handle

def Block.patterns : Block → List Text
  | .outpost => ["/outpost.goauthentik.io/*".toList]
  | .handle h => h.patterns.map lexQuoted

def Block.takes (b : Block) (request : Text) : Bool :=
  b.patterns.any fun pattern ↦ patternMatches cf pattern request

def Site.firstMatch (s : Site) (request : Text) : Option Block :=
  s.blocks.find? fun b ↦ b.takes cf request

def Site.key (s : Site) : Option Text := s.hostname.map cf.text

def Exposes (effective : Effective) (key : Option Text) (e : Entry) : Prop :=
  e.route ∈ effective.routes ∧ effective.enabled e.route.service = true ∧
    (key, e.path) ∈ exposures cf e.route

/-- The path of `e` covers the request, and no path of the site that does has more segments. -/
def Longest (effective : Effective) (key : Option Text) (request : Text) (e : Entry) : Prop :=
  Exposes cf effective key e ∧ Covers cf e.path request ∧
    ∀ e' c c', Exposes cf effective key e' → Covers cf e'.path request →
      canonicalRoutePath cf e.path = .ok c → canonicalRoutePath cf e'.path = .ok c' →
      (segments '/' c').length ≤ (segments '/' c).length

/-- The request goes to the longest path that covers it, if there is one. -/
structure RoutesTo (effective : Effective) (s : Site) (request : Text) : Prop where
  covered : (∃ e, Exposes cf effective (s.key cf) e ∧ Covers cf e.path request) →
    ∃ h, s.firstMatch cf request = some (.handle h) ∧
      Longest cf effective (s.key cf) request h.entry
  uncovered : (∀ e, Exposes cf effective (s.key cf) e → ¬ Covers cf e.path request) →
    s.firstMatch cf request = none

/-! ## The blocks of a site -/

structure Projects (effective : Effective) (s : Site) : Prop where
  exposes : ∀ e, (∃ h ∈ s.handles, h.entry = e) ↔ Exposes cf effective (s.key cf) e
  sorted : s.handles.Pairwise fun h h' ↦ h'.entry.segCount ≤ h.entry.segCount
  patterns : ∀ h ∈ s.handles, ∃ patterns, pathPatterns cf h.entry.path = .ok patterns ∧
    h.patterns = patterns.map jsonDumps

theorem segCount_le_of_sortKey {a b : Entry} (h : a.sortKey ≤ b.sortKey) :
    b.segCount ≤ a.segCount := by
  unfold Entry.sortKey at h
  rw [Prod.Lex.toLex_le_toLex] at h
  obtain hlt | ⟨heq, -⟩ := h
  · have := hlt
    dsimp only at this
    omega
  · dsimp only at heq
    omega

variable {s : Site}

theorem mem_pathEntries :
    e ∈ pathEntries routes ↔ e.route ∈ routes ∧ (none, e.path) ∈ exposures cf e.route := by
  unfold pathEntries exposures
  rw [List.mem_flatMap]
  constructor
  · rintro ⟨r, hr, he⟩
    cases hexposure : r.exposure with
    | path paths =>
      rw [hexposure, List.mem_map] at he
      obtain ⟨path, hpath, rfl⟩ := he
      refine ⟨hr, ?_⟩
      dsimp only
      rw [hexposure]
      exact List.mem_map.mpr ⟨path, hpath, rfl⟩
    | hostname hostnames path =>
      rw [hexposure] at he
      cases he
  · rintro ⟨hr, he⟩
    refine ⟨e.route, hr, ?_⟩
    cases hexposure : e.route.exposure with
    | path paths =>
      rw [hexposure, List.mem_map] at he
      obtain ⟨path, hpath, heq⟩ := he
      cases heq
      exact List.mem_map.mpr ⟨_, hpath, rfl⟩
    | hostname hostnames path =>
      rw [hexposure, List.mem_map] at he
      obtain ⟨hostname, -, heq⟩ := he
      cases heq

theorem mem_hostnameEntries {key : Text} :
    (∃ hostname, (hostname, e) ∈ hostnameEntries routes ∧ cf.text hostname = key) ↔
      e.route ∈ routes ∧ (some key, e.path) ∈ exposures cf e.route := by
  unfold hostnameEntries exposures
  constructor
  · rintro ⟨hostname, hmem, rfl⟩
    obtain ⟨r, hr, he⟩ := List.mem_flatMap.mp hmem
    cases hexposure : r.exposure with
    | path paths =>
      rw [hexposure] at he
      cases he
    | hostname hostnames path =>
      rw [hexposure, List.mem_map] at he
      obtain ⟨name, hname, heq⟩ := he
      cases heq
      refine ⟨hr, ?_⟩
      dsimp only
      rw [hexposure]
      exact List.mem_map.mpr ⟨_, hname, rfl⟩
  · rintro ⟨hr, he⟩
    cases hexposure : e.route.exposure with
    | path paths =>
      rw [hexposure, List.mem_map] at he
      obtain ⟨path, -, heq⟩ := he
      cases heq
    | hostname hostnames path =>
      rw [hexposure, List.mem_map] at he
      obtain ⟨hostname, hmem, heq⟩ := he
      obtain ⟨hkey, hpath⟩ := Prod.mk.inj heq
      refine ⟨hostname, List.mem_flatMap.mpr ⟨e.route, hr, ?_⟩, Option.some.inj hkey⟩
      rw [hexposure]
      exact List.mem_map.mpr ⟨hostname, hmem, by rw [hpath]⟩

theorem mem_enabledRoutes {r : Route} :
    r ∈ enabledRoutes effective ↔ r ∈ effective.routes ∧ effective.enabled r.service = true := by
  unfold enabledRoutes
  rw [List.mem_insertionSort, List.mem_filter]

theorem mem_groupHostnames {entries : List (Text × Entry)} {g : Text × List Entry}
    (h : g ∈ groupHostnames cf entries) :
    g.2 = (entries.filter fun e ↦ cf.text e.1 = cf.text g.1).map Prod.snd := by
  obtain ⟨key, hkey, rfl⟩ := List.mem_map.mp h
  obtain ⟨e, he, rfl⟩ := List.mem_map.mp (List.mem_eraseDups.mp hkey)
  dsimp only
  have hne : entries.filter (fun e' ↦ cf.text e'.1 = cf.text e.1) ≠ [] :=
    List.ne_nil_of_mem (List.mem_filter.mpr ⟨he, by simp⟩)
  obtain ⟨first, rest, hcons⟩ := List.exists_cons_of_ne_nil hne
  have hfirst : cf.text first.1 = cf.text e.1 := by
    have hmem : first ∈ entries.filter (fun e' ↦ cf.text e'.1 = cf.text e.1) := by
      rw [hcons]
      exact List.mem_cons_self
    simpa using (List.mem_filter.mp hmem).2
  have hspelling : ((entries.filter fun e' ↦ cf.text e'.1 = cf.text e.1).head?.map
      Prod.fst).getD [] = first.1 := by
    rw [hcons]
    rfl
  simp only [hspelling, hfirst]

theorem projects_of_entries {kind : Text} {index : Nat} {entries : List Entry}
    (hrender : renderEntries cf sha256 kind authentikUpstream authentikPath index entries =
      .ok s.handles)
    (hexposes : ∀ e, e ∈ entries ↔ Exposes cf effective (s.key cf) e)
    (hsorted : entries.Pairwise fun a b ↦ a.sortKey ≤ b.sortKey) :
    Projects cf effective s := by
  obtain ⟨hentries, hhandles⟩ := renderEntries_ok cf sha256 hrender
  refine ⟨fun e => ?_, ?_, fun h hh => (hhandles h hh).1⟩
  · rw [← hexposes, ← hentries, List.mem_map]
  · rw [← hentries, List.pairwise_map] at hsorted
    exact hsorted.imp segCount_le_of_sortKey

theorem projects_generateSites {lanHost : Text} {sites : List Site}
    (h : generateSites cf sha256 effective authentikUpstream authentikPath lanHost = .ok sites)
    (hs : s ∈ sites) : Projects cf effective s := by
  unfold generateSites at h
  obtain ⟨-, h⟩ := guard_ok h
  obtain ⟨-, -, h⟩ := bind_ok h
  obtain ⟨handles, hhandles, h⟩ := bind_ok h
  obtain ⟨hostnameSites, hhostnames, h⟩ := bind_ok h
  cases h
  obtain rfl | hs := List.mem_cons.mp hs
  · refine projects_of_entries cf sha256 hhandles (fun e => ?_) (List.pairwise_insertionSort _ _)
    unfold sortEntries Exposes
    rw [List.mem_insertionSort, mem_pathEntries cf, mem_enabledRoutes, and_assoc]
    rfl
  · obtain ⟨g, hg, hhostname, index, hrender⟩ := renderHostnames_ok cf sha256 hhostnames s hs
    have hgroup := mem_groupHostnames cf hg
    have hkey : s.key cf = some (cf.text g.1) := by
      unfold Site.key
      rw [hhostname]
      rfl
    refine projects_of_entries cf sha256 hrender (fun e => ?_) ?_
    · have hentry : (∃ hostname, (hostname, e) ∈ hostnameEntries (enabledRoutes effective) ∧
          cf.text hostname = cf.text g.1) ↔ _ := mem_hostnameEntries cf
      rw [mem_enabledRoutes, and_assoc] at hentry
      rw [hkey, Exposes, ← hentry, hgroup]
      simp only [List.mem_map, List.mem_filter, decide_eq_true_eq, sortHostnameEntries,
        List.mem_insertionSort]
      refine ⟨?_, ?_⟩
      · rintro ⟨⟨hostname, e'⟩, ⟨hmem, htext⟩, rfl⟩
        exact ⟨hostname, hmem, htext⟩
      · rintro ⟨hostname, hmem, htext⟩
        exact ⟨(hostname, e), ⟨hmem, htext⟩, rfl⟩
    · rw [hgroup, List.pairwise_map]
      have hsorted := (List.pairwise_insertionSort (fun a b : Text × Entry ↦
        toLex (cf.text a.1, a.2.sortKey) ≤ toLex (cf.text b.1, b.2.sortKey))
        (hostnameEntries (enabledRoutes effective))).filter
          (fun e ↦ cf.text e.1 = cf.text g.1)
      refine hsorted.imp_of_mem fun {a b} ha hb hle => ?_
      have ha := of_decide_eq_true (List.mem_filter.mp ha).2
      have hb := of_decide_eq_true (List.mem_filter.mp hb).2
      rw [ha, hb, Prod.Lex.toLex_le_toLex] at hle
      obtain hlt | ⟨-, hle⟩ := hle
      · exact absurd hlt (lt_irrefl _)
      · exact hle

/-! ## The first match -/

section

variable {cf} {request : Text}
variable {h : Handle} {key : Option Text} {canonical : Text} {segs : List Text}

theorem not_takes_outpost (h : RequestPath cf request) : Block.outpost.takes cf request = false := by
  have hreserved : patternMatches cf "/outpost.goauthentik.io/*".toList request =
      (cf.text "/outpost.goauthentik.io".toList ++ ['/']).isPrefixOf (cf.text request) := by
    have hslash : cf.text "/outpost.goauthentik.io/".toList =
        cf.text "/outpost.goauthentik.io".toList ++ ['/'] := by
      rw [text_of_ascii cf (forall_mem_of_all (by decide)),
        text_of_ascii cf (forall_mem_of_all (by decide))]
      decide
    rw [← hslash]
    rfl
  have hunder := h.2
  unfold underReserved reservedRoutePrefixes at hunder
  simp only [List.any_cons, List.any_nil, Bool.or_false, Bool.or_eq_false_iff] at hunder
  unfold Block.takes Block.patterns
  rw [List.any_cons, List.any_nil, Bool.or_false, hreserved]
  exact hunder.2

theorem firstMatch_eq (h : RequestPath cf request) :
    s.firstMatch cf request =
      (s.handles.find? fun b ↦ (Block.handle b).takes cf request).map .handle := by
  have hhandles : (s.handles.map Block.handle).find? (fun b ↦ b.takes cf request) =
      (s.handles.find? fun b ↦ (Block.handle b).takes cf request).map .handle := List.find?_map
  unfold Site.firstMatch Site.blocks
  rw [← hhandles]
  split
  · rw [List.singleton_append, List.find?_cons_of_neg]
    rw [not_takes_outpost h]
    exact Bool.false_ne_true
  · rfl

theorem takes_eq {patterns : List Text} (hpatterns : h.patterns = patterns.map jsonDumps) :
    (Block.handle h).takes cf request =
      patterns.any fun p ↦ patternMatches cf (p.flatMap readChar) request := by
  change ((h.patterns.map lexQuoted).any fun pattern ↦ patternMatches cf pattern request) = _
  rw [hpatterns, List.any_map, List.any_map]
  simp only [Function.comp_def, lexQuoted_jsonDumps]

theorem Exposes.mem_allExposures
    (h : Exposes cf effective key e) : (key, e) ∈ allExposures cf effective.routes :=
  List.mem_flatMap.mpr ⟨e.route, h.1, List.mem_map.mpr ⟨(key, e.path), h.2.2, rfl⟩⟩

theorem Accepted.canonical_of_exposes (h : Accepted cf effective)
    (he : Exposes cf effective key e) : ∃ c segs, canonicalRoutePath cf e.path = .ok c ∧
      Canonical cf e.path c segs := by
  obtain ⟨c, hc⟩ := h.canonical cf he.mem_allExposures
  obtain ⟨segs, hsegs⟩ := canonicalRoutePath_ok cf hc
  exact ⟨c, segs, hc, hsegs⟩

theorem Accepted.unique (h : Accepted cf effective) {e' : Entry} {c : Text}
    (he : Exposes cf effective key e) (he' : Exposes cf effective key e')
    (hc : canonicalRoutePath cf e.path = .ok c) (hc' : canonicalRoutePath cf e'.path = .ok c) :
    e = e' := by
  by_contra hne
  have hsymm : Std.Symm (Distinct cf) :=
    ⟨fun x y hxy hsite c hy hx => hxy hsite.symm c hx hy⟩
  have hdistinct := (h.distinct cf).forall he.mem_allExposures he'.mem_allExposures
    fun heq => hne (Prod.mk.inj heq).2
  exact hdistinct rfl c hc hc'

theorem segCount_plain (h : Canonical cf e.path canonical segs) (hplain : PlainPath e.path) :
    e.segCount = segs.length := by
  have hstrip : rstripSlash e.path = join '/' segs := by
    obtain hshape | hshape := h.plain_shape cf hplain
    · rw [hshape]
      exact rstripSlash_join h.segmented
    · rw [hshape]
      exact rstripSlash_join_slash h.segmented
  unfold Entry.segCount Entry.norm
  rw [hstrip]
  cases hsegs : segs with
  | nil => rfl
  | cons first rest =>
    have hsegmented := h.segmented
    rw [hsegs] at hsegmented
    obtain ⟨hfree, hne⟩ := hsegmented first List.mem_cons_self
    obtain ⟨c, tail, rfl⟩ := List.exists_cons_of_ne_nil hne
    have hc : c ≠ '/' := fun heq => hfree (heq ▸ List.mem_cons_self)
    have hjoin : join '/' ((c :: tail) :: rest) = '/' :: c :: (tail ++ join '/' rest) := by
      rw [join_cons, List.cons_append]
    have hkeep : rstripSlash (c :: (tail ++ join '/' rest)) = c :: (tail ++ join '/' rest) := by
      have hlast := getLast?_join hsegmented
      rw [hjoin, List.getLast?_cons_cons] at hlast
      exact rstripSlash_eq_self hlast
    have hstripped : stripSlash (join '/' ((c :: tail) :: rest)) = c :: tail ++ join '/' rest := by
      unfold stripSlash
      rw [hjoin, List.dropWhile_cons_of_pos (by simp),
        List.dropWhile_cons_of_neg (by simpa using hc), hkeep, List.cons_append]
    have hfirst : join '/' ((c :: tail) :: rest) ≠ [] := List.cons_ne_nil _ _
    have hsecond : join '/' ((c :: tail) :: rest) ≠ ['/'] := by
      rw [hjoin]
      intro heq
      cases (List.cons.inj heq).2
    rw [if_neg hfirst, if_neg hsecond, hstripped,
      splitOn_append_join _ hfree fun s hs => hsegmented.free s (List.mem_cons_of_mem _ hs)]

theorem takes_iff_covers (hprojects : Projects cf effective s) (haccepted : Accepted cf effective)
    (hh : h ∈ s.handles) (hplain : PlainPath h.entry.path)
    (hrequest : RequestPath cf request) :
    (Block.handle h).takes cf request = true ↔ Covers cf h.entry.path request := by
  obtain ⟨patterns, hpatterns, htokens⟩ := hprojects.patterns h hh
  obtain ⟨c, -, hc, -⟩ :=
    haccepted.canonical_of_exposes ((hprojects.exposes h.entry).mp ⟨h, hh, rfl⟩)
  rw [takes_eq htokens]
  exact plain_matches_iff cf hpatterns hc hplain hrequest

theorem Projects.routesTo (hprojects : Projects cf effective s) (haccepted : Accepted cf effective)
    (hplain : ∀ e, Exposes cf effective (s.key cf) e → PlainPath e.path)
    (hrequest : RequestPath cf request) : RoutesTo cf effective s request := by
  have hexposed {h : Handle} (hh : h ∈ s.handles) : Exposes cf effective (s.key cf) h.entry :=
    (hprojects.exposes h.entry).mp ⟨h, hh, rfl⟩
  have htakes {h : Handle} (hh : h ∈ s.handles) :
      (Block.handle h).takes cf request = true ↔ Covers cf h.entry.path request :=
    takes_iff_covers hprojects haccepted hh (hplain _ (hexposed hh)) hrequest
  refine ⟨?_, fun hnone => ?_⟩
  · rintro ⟨e, he, hcovers⟩
    obtain ⟨h, hh, rfl⟩ := (hprojects.exposes e).mpr he
    have hsome : (s.handles.find? fun b ↦ (Block.handle b).takes cf request).isSome = true :=
      List.find?_isSome.mpr ⟨h, hh, (htakes hh).mpr hcovers⟩
    obtain ⟨first, hfirst⟩ := Option.isSome_iff_exists.mp hsome
    have hmatch := hfirst
    obtain ⟨hfirstTakes, before, after, hsplit, hbefore⟩ :=
      List.find?_eq_some_iff_append.mp hfirst
    have hfirstMem : first ∈ s.handles := by simp [hsplit]
    refine ⟨first, by rw [firstMatch_eq hrequest, hmatch]; rfl, hexposed hfirstMem,
      (htakes hfirstMem).mp hfirstTakes, ?_⟩
    intro e' c c' he' hcovers' hc hc'
    obtain ⟨h', hh', rfl⟩ := (hprojects.exposes e').mpr he'
    have hcount {h : Handle} (hh : h ∈ s.handles) {c : Text}
        (hc : canonicalRoutePath cf h.entry.path = .ok c) :
        h.entry.segCount = (segments '/' c).length := by
      obtain ⟨segs, hcanonical⟩ := canonicalRoutePath_ok cf hc
      rw [segCount_plain hcanonical (hplain _ (hexposed hh)), hcanonical.segments_canonical,
        List.length_map]
    rw [← hcount hfirstMem hc, ← hcount hh' hc']
    -- blocks in front of the first match do not take the request, those behind it are shorter
    have hsorted := hprojects.sorted
    have htakes' := (htakes hh').mpr hcovers'
    rw [hsplit, List.pairwise_append, List.pairwise_cons] at hsorted
    rw [hsplit, List.mem_append, List.mem_cons] at hh'
    obtain hh' | rfl | hh' := hh'
    · have := hbefore h' hh'
      rw [htakes'] at this
      cases this
    · exact Nat.le_refl _
    · exact hsorted.2.1.1 h' hh'
  · rw [firstMatch_eq hrequest, Option.map_eq_none_iff, List.find?_eq_none]
    exact fun h hh htaken => hnone h.entry (hexposed hh) ((htakes hh).mp htaken)

theorem canonical_bounded (cf : CaseFold) (handles : List Handle) :
    ∃ n, ∀ h ∈ handles, ∀ c, canonicalRoutePath cf h.entry.path = .ok c → c.length < n := by
  induction handles with
  | nil => exact ⟨0, nofun⟩
  | cons h handles ih =>
    obtain ⟨n, hn⟩ := ih
    have hcons (m : Nat) (hm : n ≤ m)
        (hhead : ∀ c, canonicalRoutePath cf h.entry.path = .ok c → c.length < m) :
        ∃ n, ∀ h' ∈ h :: handles, ∀ c, canonicalRoutePath cf h'.entry.path = .ok c →
          c.length < n := by
      refine ⟨m, fun h' hh' c hc => ?_⟩
      obtain rfl | hh' := List.mem_cons.mp hh'
      · exact hhead c hc
      · exact Nat.lt_of_lt_of_le (hn h' hh' c hc) hm
    cases hpath : canonicalRoutePath cf h.entry.path with
    | error err =>
      refine hcons n (Nat.le_refl n) fun c hc => ?_
      rw [hpath] at hc
      cases hc
    | ok c =>
      refine hcons (n + c.length + 1) (by omega) fun c' hc' => ?_
      rw [hpath] at hc'
      cases hc'
      omega

theorem Canonical.prefix_of_covers_beyond {path path' canonical' : Text}
    {segs' : List Text} (h : Canonical cf path canonical segs)
    (h' : Canonical cf path' canonical' segs')
    (hpath' : canonicalRoutePath cf path' = .ok canonical') {n : Nat} (hn : 0 < n)
    (hshort : canonical'.length < n) (hcovers : Covers cf path' (beyond segs n)) :
    segs'.map cf.text <+: segs.map cf.text := by
  rw [covers_iff cf h' hpath'] at hcovers
  rw [h.segments_beyond cf hn, List.prefix_concat_iff] at hcovers
  refine hcovers.resolve_left fun heq => ?_
  have hcanonical' := h'.canonical_rooted
  have hlength := congrArg List.length hcanonical'
  rw [heq, rooted, if_neg (by simp), join_append, join_cons, List.length_append,
    List.length_cons, List.length_append, List.length_replicate] at hlength
  omega

theorem Projects.plain_of_routesTo (hprojects : Projects cf effective s)
    (haccepted : Accepted cf effective)
    (hroutes : ∀ request, RequestPath cf request → RoutesTo cf effective s request)
    (he : Exposes cf effective (s.key cf) e) : PlainPath e.path := by
  by_contra hplain
  obtain ⟨c, segs, hc, hcanonical⟩ := haccepted.canonical_of_exposes he
  have hroot : e.path ≠ ['/'] := by
    intro hroot
    exact hplain (hroot ▸ ⟨forall_mem_of_all (by decide), by decide, by decide⟩)
  obtain ⟨m, hm⟩ := canonical_bounded cf s.handles
  obtain ⟨n, hread, hshort⟩ :
      ∃ n, (readFolded cf e.path).length < n ∧ m ≤ n :=
    ⟨(readFolded cf e.path).length + m + 1, by omega, by omega⟩
  have hn : 0 < n := Nat.zero_lt_of_lt hread
  have hrequest := hcanonical.beyond_requestPath cf hn
  have hcovers : Covers cf e.path (beyond segs n) := by
    rw [covers_iff cf hcanonical hc, hcanonical.segments_beyond cf hn]
    exact List.prefix_append _ _
  obtain ⟨h, hmatch, hexposed, hcovers', hlongest⟩ :=
    (hroutes _ hrequest).covered ⟨e, he, hcovers⟩
  rw [firstMatch_eq hrequest, Option.map_eq_some_iff] at hmatch
  obtain ⟨h', hfind, heq⟩ := hmatch
  cases heq
  have hmem := List.mem_of_find?_eq_some hfind
  have htaken := List.find?_some hfind
  -- the block that takes the request has a path as long as that of `e`: it is the block of `e`
  obtain ⟨c', segs', hc', hcanonical'⟩ := haccepted.canonical_of_exposes hexposed
  have hprefix := hcanonical.prefix_of_covers_beyond hcanonical' hc' hn
    (Nat.lt_of_lt_of_le (hm h hmem c' hc') hshort) hcovers'
  have hlength := hlongest e c' c he hcovers hc' hc
  rw [hcanonical.segments_canonical, hcanonical'.segments_canonical] at hlength
  have hsegs := hprefix.eq_of_length_le hlength
  have hcc : c' = c := by
    rw [hcanonical'.canonical_rooted, hcanonical.canonical_rooted, hsegs]
  obtain rfl : h.entry = e := haccepted.unique hexposed he hc' (hcc ▸ hc)
  obtain ⟨patterns, hpatterns, htokens⟩ := hprojects.patterns h hmem
  rw [takes_eq htokens, pathPatterns_match cf hpatterns hroot] at htaken
  exact hcanonical.not_patternsMatch_beyond cf hroot hplain hread htaken

end

/-- A site of an accepted document sends every request to the longest path that covers it, exactly
when all its paths are plain. -/
theorem routesTo_iff_plain {effective : Effective} {authentikUpstream authentikPath lanHost : Text}
    {sites : List Site} (haccepted : Accepted cf effective)
    (hsites : generateSites cf sha256 effective authentikUpstream authentikPath lanHost =
      .ok sites) {s : Site} (hs : s ∈ sites) :
    (∀ request, RequestPath cf request → RoutesTo cf effective s request) ↔
      ∀ e, Exposes cf effective (s.key cf) e → PlainPath e.path := by
  have hprojects := projects_generateSites cf sha256 hsites hs
  exact ⟨fun hroutes _ => hprojects.plain_of_routesTo haccepted hroutes,
    fun hplain _ => hprojects.routesTo haccepted hplain⟩

end

/-! ## A protected child behind an escape -/

/-- A route of the service `app` with default proxy settings. -/
def appRoute (route : Text) (authMode : AuthMode) (requiredCapability : Option Text)
    (exposure : Exposure) : Route :=
  ⟨"app".toList, route, authMode, requiredCapability, false,
    .http "127.0.0.1".toList 8080, exposure, ⟨none, [], [], [], [], []⟩⟩

def publicParent : Route := appRoute "web".toList .publicMode none (.path ["/app".toList])

def escapedChild : Route :=
  appRoute "admin".toList .identity (some "application.app.admin".toList)
    (.path ["/app/%61dmin".toList])

def escapedDocument : Effective := ⟨[publicParent, escapedChild], fun _ ↦ true⟩

/-- The appliance snippet sends `/app/admin` to the public parent. -/
def parentTakesChild : Except CaddyError (List Site) → Bool
  | .ok (s :: _) =>
    match s.firstMatch .asciiOnly "/app/admin".toList with
    | some (.handle h) => s.hostname = none && h.entry = ⟨publicParent, "/app".toList⟩
    | _ => false
  | _ => false

theorem not_routesTo_escapedChild :
    Accepted .asciiOnly escapedDocument ∧ RequestPath .asciiOnly "/app/admin".toList ∧
      ∃ sites, sitesOf escapedDocument = .ok sites ∧
        ∃ s ∈ sites, ¬ RoutesTo .asciiOnly escapedDocument s "/app/admin".toList := by
  have hchild : Exposes .asciiOnly escapedDocument none ⟨escapedChild, "/app/%61dmin".toList⟩ :=
    ⟨List.mem_cons_of_mem _ List.mem_cons_self, rfl, List.mem_singleton_self _⟩
  have hchildPath : canonicalRoutePath .asciiOnly "/app/%61dmin".toList =
      .ok "/app/admin".toList := by decide +kernel
  have hparentPath : canonicalRoutePath .asciiOnly "/app".toList = .ok "/app".toList := by
    decide +kernel
  have hcovers : Covers .asciiOnly "/app/%61dmin".toList "/app/admin".toList :=
    ⟨_, hchildPath, by decide +kernel⟩
  have htaken : parentTakesChild (sitesOf escapedDocument) = true := by decide +kernel
  have hrequest : RequestPath .asciiOnly "/app/admin".toList := by
    have hsegs : Segmented ["app".toList, "admin".toList] := by
      unfold Segmented
      decide +kernel
    exact ⟨⟨_, hsegs, by decide +kernel, by decide +kernel⟩, by decide +kernel⟩
  refine ⟨exists_of_isOk (by decide +kernel), hrequest, ?_⟩
  unfold parentTakesChild at htaken
  split at htaken
  · rename_i s rest hsites
    refine ⟨_, hsites, s, List.mem_cons_self, fun hroutes => ?_⟩
    split at htaken
    · rename_i h hmatch
      simp only [Bool.and_eq_true, decide_eq_true_eq] at htaken
      obtain ⟨hhostname, hentry⟩ := htaken
      have hkey : s.key .asciiOnly = none := by
        unfold Site.key
        rw [hhostname]
        rfl
      obtain ⟨h', hmatch', -, -, hlongest⟩ := hroutes.covered ⟨_, hkey ▸ hchild, hcovers⟩
      rw [hmatch] at hmatch'
      cases hmatch'
      rw [hentry, hkey] at hlongest
      have hlength := hlongest _ _ _ hchild hcovers hparentPath hchildPath
      revert hlength
      decide +kernel
    · cases htaken
  · cases htaken

def plainChild : Route :=
  appRoute "admin".toList .identity (some "application.app.admin".toList)
    (.path ["/app/admin/".toList])

def plainDocument : Effective := ⟨[publicParent, plainChild], fun _ ↦ true⟩

theorem routesTo_iff_plain_plainChild :
    ∃ sites, sitesOf plainDocument = .ok sites ∧ ∀ s ∈ sites, ∀ request,
      RequestPath .asciiOnly request → RoutesTo .asciiOnly plainDocument s request := by
  obtain ⟨sites, hsites⟩ : ∃ sites, sitesOf plainDocument = .ok sites :=
    exists_of_isOk (by decide +kernel)
  have haccepted : Accepted .asciiOnly plainDocument := exists_of_isOk (by decide +kernel)
  refine ⟨sites, hsites, fun s hs => (routesTo_iff_plain .asciiOnly id haccepted hsites hs).mpr ?_⟩
  rintro e ⟨hroute, -, hpath⟩
  have hroutes : e.route = publicParent ∨ e.route = plainChild := by
    simpa [plainDocument] using hroute
  have hplain : e.path = "/app".toList ∨ e.path = "/app/admin/".toList := by
    obtain hroute | hroute := hroutes
    · rw [hroute] at hpath
      exact .inl (Prod.mk.inj (List.mem_singleton.mp hpath)).2
    · rw [hroute] at hpath
      exact .inr (Prod.mk.inj (List.mem_singleton.mp hpath)).2
  obtain hplain | hplain := hplain
  · rw [hplain]
    exact ⟨forall_mem_of_all (by decide +kernel), by decide +kernel, by decide +kernel⟩
  · rw [hplain]
    exact ⟨forall_mem_of_all (by decide +kernel), by decide +kernel, by decide +kernel⟩

end NixNas.Caddy
