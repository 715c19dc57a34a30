import NixNas.Caddy.Routes
import NixNas.Lib.Fallible

/-!
# What the patterns of a path match

Caddy compares the request path with every pattern without regard to case; a pattern that ends in
a star matches as a prefix.
-/

open Fallible Percent Quote Segments

namespace NixNas.Caddy

section

variable (cf : CaseFold)
variable {c : Char} {t path request canonical : Text} {patterns segs qs : List Text}

/-- One pattern of a `path` matcher, as Caddy read it. -/
def patternMatches (pattern request : Text) : Bool :=
  if pattern.getLast? = some '*' then (cf.text pattern.dropLast).isPrefixOf (cf.text request)
  else cf.text pattern = cf.text request

/-- A canonical request path: unescaped, without empty or dot segments, not under the outpost. -/
def RequestPath (request : Text) : Prop :=
  (∃ segs, Segmented segs ∧ (∀ s ∈ segs, s ≠ ['.'] ∧ s ≠ ['.', '.']) ∧ request = rooted segs) ∧
    underReserved cf (cf.text request) = false

/-- The canonical path of `path` is a segment-wise prefix of the request. -/
def Covers (path request : Text) : Prop :=
  ∃ c, canonicalRoutePath cf path = .ok c ∧
    segments '/' c <+: segments '/' (cf.text request)

/-! ## Patterns as they are read back -/

/-- A text as Caddy reads it in a pattern, case-folded. -/
def readFolded (t : Text) : Text := cf.text (t.flatMap readChar)

theorem readFolded_append (t u : Text) :
    readFolded cf (t ++ u) = readFolded cf t ++ readFolded cf u := by
  simp [readFolded, CaseFold.text]

theorem readFolded_slash : readFolded cf ['/'] = ['/'] := by
  change cf.fold '/' ++ [] = _
  rw [(keeps_slash cf).keep, List.append_nil]

theorem star_not_mem_readChar (hc : c ≠ '*') : '*' ∉ readChar c := by
  have hdigit (n : Nat) : Nat.digitChar (n % 16) ≠ '*' := by
    have hdigits : ∀ m < 16, Nat.digitChar m ≠ '*' := by decide
    exact hdigits _ (Nat.mod_lt n (by omega))
  have hescape (n : Nat) : '*' ∉ unicodeEscape n := by
    unfold unicodeEscape
    simp [(hdigit _).symm]
  unfold readChar jsonChar
  split_ifs
  all_goals first
    | exact hescape _
    | (simp only [List.mem_append, not_or]; exact ⟨hescape _, hescape _⟩)
    | simp [hc.symm]

theorem star_not_mem_read (h : '*' ∉ t) : '*' ∉ t.flatMap readChar := by
  rw [List.mem_flatMap]
  rintro ⟨c, hc, hstar⟩
  exact star_not_mem_readChar (fun heq => h (heq ▸ hc)) hstar

theorem patternMatches_literal (h : '*' ∉ t) (request : Text) :
    patternMatches cf (t.flatMap readChar) request = true ↔
      readFolded cf t = cf.text request := by
  unfold patternMatches
  have hlast : ¬ (t.flatMap readChar).getLast? = some '*' :=
    fun hlast => star_not_mem_read h (List.mem_of_getLast? hlast)
  rw [if_neg hlast, decide_eq_true_eq]
  rfl

theorem patternMatches_star (t request : Text) :
    patternMatches cf ((t ++ ['*']).flatMap readChar) request = true ↔
      readFolded cf t <+: cf.text request := by
  have hread : (t ++ ['*']).flatMap readChar = t.flatMap readChar ++ ['*'] := by
    rw [List.flatMap_append]
    rfl
  unfold patternMatches
  rw [hread, if_pos List.getLast?_concat, List.dropLast_concat, List.isPrefixOf_iff_prefix]
  rfl

def trimmed (path : Text) : Text := if path.getLast? = some '/' then path.dropLast else path

def PatternsMatch (path request : Text) : Prop :=
  readFolded cf path = cf.text request ∨
    path.getLast? = some '/' ∧ readFolded cf (rstripSlash path) = cf.text request ∨
    readFolded cf (trimmed path) ++ ['/'] <+: cf.text request

theorem rstripSlash_subset (h : c ∈ rstripSlash path) : c ∈ path :=
  (List.rdropWhile_prefix _ path).subset h

theorem append_of_getLast? (h : path.getLast? = some c) : path = path.dropLast ++ [c] := by
  obtain ⟨u, hu⟩ := List.getLast?_eq_some_iff.mp h
  rw [hu, List.dropLast_concat]

theorem pathPatterns_match (h : pathPatterns cf path = .ok patterns) (hroot : path ≠ ['/']) :
    (patterns.any fun p ↦ patternMatches cf (p.flatMap readChar) request) = true ↔
      PatternsMatch cf path request := by
  unfold pathPatterns at h
  split_ifs at h with hunsafe hreserved hlast
  · have hstar : '*' ∉ path := by
      intro hmem
      simp [hmem] at hunsafe
    cases h
    have hstrip : '*' ∉ rstripSlash path := fun hmem => hstar (rstripSlash_subset hmem)
    have htrim : readFolded cf path = readFolded cf (trimmed path) ++ ['/'] := by
      unfold trimmed
      rw [if_pos hlast]
      conv_lhs => rw [append_of_getLast? hlast, readFolded_append, readFolded_slash]
    simp only [List.any_cons, List.any_nil, Bool.or_false, Bool.or_eq_true,
      patternMatches_literal cf hstar, patternMatches_literal cf hstrip, patternMatches_star]
    unfold PatternsMatch
    rw [htrim]
    refine ⟨fun h => ?_, fun h => ?_⟩
    · obtain h | h | h := h
      · exact .inl h
      · exact .inr (.inl ⟨hlast, h⟩)
      · exact .inr (.inr h)
    · obtain h | ⟨-, h⟩ | h := h
      · exact .inl h
      · exact .inr (.inl h)
      · exact .inr (.inr h)
  · have hstar : '*' ∉ path := by
      intro hmem
      simp [hmem] at hunsafe
    cases h
    have htrim : readFolded cf (path ++ ['/']) = readFolded cf (trimmed path) ++ ['/'] := by
      unfold trimmed
      rw [if_neg hlast, readFolded_append, readFolded_slash]
    have hpattern : path ++ "/*".toList = (path ++ ['/']) ++ ['*'] := by simp
    simp only [List.any_cons, List.any_nil, Bool.or_false, Bool.or_eq_true,
      patternMatches_literal cf hstar]
    rw [hpattern, patternMatches_star, htrim]
    unfold PatternsMatch
    refine ⟨fun h => ?_, fun h => ?_⟩
    · obtain h | h := h
      · exact .inl h
      · exact .inr (.inr h)
    · obtain h | ⟨hlast', -⟩ | h := h
      · exact .inl h
      · exact absurd hlast' hlast
      · exact .inr h

/-! ## Plain paths -/

/-- A path that the renderer prints as the validator reads it. -/
structure PlainPath (path : Text) : Prop where
  ascii : ∀ c ∈ path, c.toNat < 128
  unescaped : '%' ∉ path
  single : ¬ ['/', '/'] <:+: path

theorem readable_of_safe (hsafe : routePathIsUnsafe path = false)
    (hascii : ∀ c ∈ path, c.toNat < 128) : ∀ c ∈ path, readable c = true := by
  intro c hc
  have hlow := hascii c hc
  unfold routePathIsUnsafe at hsafe
  rw [List.any_eq_false] at hsafe
  have hchar := hsafe c hc
  unfold isUnsafeChar at hchar
  simp only [Bool.or_eq_true, not_or, decide_eq_true_eq, beq_iff_eq, Nat.not_lt,
    List.mem_cons] at hchar
  obtain ⟨⟨⟨hcontrol, hdelete⟩, -, -, -, hslash, -⟩, -⟩ := hchar
  unfold readable
  simp only [Bool.and_eq_true, decide_eq_true_eq, bne_iff_ne, ne_eq]
  exact ⟨⟨hcontrol, by omega⟩, hslash⟩

theorem readFolded_plain (hsafe : routePathIsUnsafe path = false)
    (hascii : ∀ c ∈ path, c.toNat < 128) : readFolded cf path = cf.text path :=
  congrArg cf.text (flatMap_readChar (readable_of_safe hsafe hascii))

theorem Canonical.segs_of_unescaped
    (h : Canonical cf path canonical segs) (hpath : '%' ∉ path) : segs = segments '/' path := by
  obtain ⟨d, hd, rfl, -⟩ := h.decoded
  rw [unquote_of_not_mem hpath] at hd
  cases hd
  rfl

theorem getLast?_join (h : Segmented segs) : (join '/' segs).getLast? ≠ some '/' := by
  obtain rfl | ⟨segs, s, rfl⟩ := List.eq_nil_or_concat segs
  · simp
  · obtain ⟨hfree, hne⟩ := h s (by simp)
    obtain rfl | ⟨s, c, rfl⟩ := List.eq_nil_or_concat s
    · exact absurd rfl hne
    · have hlast : join '/' (segs.concat (s.concat c)) = join '/' segs ++ '/' :: s ++ [c] := by
        simp
      rw [hlast, List.getLast?_concat, ne_eq, Option.some.injEq]
      rintro rfl
      simp at hfree

theorem rstripSlash_eq_self (h : t.getLast? ≠ some '/') : rstripSlash t = t := by
  unfold rstripSlash
  rw [List.rdropWhile_eq_self_iff]
  intro hne hslash
  refine h ?_
  rw [List.getLast?_eq_some_getLast hne, of_decide_eq_true hslash]

theorem rstripSlash_join (h : Segmented segs) : rstripSlash (join '/' segs) = join '/' segs :=
  rstripSlash_eq_self (getLast?_join h)

theorem rstripSlash_join_slash (h : Segmented segs) :
    rstripSlash (join '/' segs ++ ['/']) = join '/' segs := by
  unfold rstripSlash
  rw [List.rdropWhile_concat_pos _ _ _ (by simp)]
  exact rstripSlash_join h

theorem Canonical.plain_shape (h : Canonical cf path canonical segs) (hplain : PlainPath path) :
    path = join '/' segs ∨ path = join '/' segs ++ ['/'] := by
  obtain ⟨rest, rfl⟩ := List.head?_eq_some_iff.mp h.absolute
  rw [h.segs_of_unescaped cf hplain.unescaped]
  exact eq_join_segments hplain.single

theorem Canonical.patternsMatch_plain
    (h : Canonical cf path canonical segs) (hplain : PlainPath path) (request : Text) :
    PatternsMatch cf path request ↔
      cf.text (join '/' segs) = cf.text request ∨
        cf.text (join '/' segs) ++ ['/'] <+: cf.text request := by
  have hsub {t : Text} (ht : t ⊆ path) : readFolded cf t = cf.text t := by
    refine readFolded_plain cf ?_ fun c hc => hplain.ascii c (ht hc)
    have hsafe := h.safe
    unfold routePathIsUnsafe at *
    rw [List.any_eq_false] at *
    exact fun c hc => hsafe c (ht hc)
  unfold PatternsMatch trimmed
  obtain hjoin | hjoin := h.plain_shape cf hplain
  · have hlast : path.getLast? ≠ some '/' := by
      rw [hjoin]
      exact getLast?_join h.segmented
    simp only [hlast, if_false, false_and, false_or]
    rw [hsub (List.Subset.refl path), hjoin]
  · have hlast : path.getLast? = some '/' := by rw [hjoin, List.getLast?_concat]
    have htrim : path.dropLast = join '/' segs := by rw [hjoin, List.dropLast_concat]
    have hstrip : rstripSlash path = join '/' segs := by
      rw [hjoin]
      exact rstripSlash_join_slash h.segmented
    have hjoinSub : join '/' segs ⊆ path := by
      rw [hjoin]
      exact List.subset_append_left _ _
    have hfull : readFolded cf path = cf.text (join '/' segs) ++ ['/'] := by
      conv_lhs => rw [hjoin, readFolded_append, readFolded_slash, hsub hjoinSub]
    simp only [hlast, if_true, true_and]
    rw [hfull, hstrip, htrim, hsub hjoinSub]
    refine ⟨fun hmatch => ?_, fun hmatch => ?_⟩
    · obtain heq | heq | hprefix := hmatch
      · exact .inr (heq ▸ List.prefix_refl _)
      · exact .inl heq
      · exact .inr hprefix
    · obtain heq | hprefix := hmatch
      · exact .inr (.inl heq)
      · exact .inr (.inr hprefix)

theorem RequestPath.segments (h : RequestPath cf request) :
    ∃ qs, Segmented qs ∧ cf.text request = rooted qs ∧ segments '/' (cf.text request) = qs := by
  obtain ⟨⟨segs, hsegs, -, rfl⟩, -⟩ := h
  have hqs := hsegs.map_text cf
  refine ⟨segs.map cf.text, hqs, text_rooted cf segs, ?_⟩
  rw [text_rooted, segments_rooted hqs]

theorem covers_iff
    (h : Canonical cf path canonical segs) (hpath : canonicalRoutePath cf path = .ok canonical) :
    Covers cf path request ↔ segs.map cf.text <+: segments '/' (cf.text request) := by
  unfold Covers
  rw [hpath, ← h.segments_canonical]
  exact ⟨fun ⟨c, hc, hprefix⟩ => Except.ok.inj hc ▸ hprefix, fun hprefix => ⟨_, rfl, hprefix⟩⟩

theorem join_prefix_rooted {cs : List Text} (hcs : Segmented cs) (hne : cs ≠ [])
    (hqs : Segmented qs) :
    (join '/' cs = rooted qs ∨ join '/' cs ++ ['/'] <+: rooted qs) ↔ cs <+: qs := by
  unfold rooted
  by_cases hnil : qs = []
  · have hempty : ∀ s ∈ ([[]] : List Text), '/' ∉ s := by simp
    have hroot := join_prefix_iff hcs.free hempty
    obtain ⟨s, rest, rfl⟩ := List.exists_cons_of_ne_nil hne
    have hs := (hcs s List.mem_cons_self).2
    rw [if_pos hnil, hnil]
    refine hroot.trans ⟨fun hprefix => ?_, fun hprefix => ?_⟩
    · exact absurd (List.cons_prefix_cons.mp hprefix).1 hs
    · exact absurd (List.prefix_nil.mp hprefix) hne
  · rw [if_neg hnil]
    exact join_prefix_iff hcs.free hqs.free

theorem plain_matches_iff (hpatterns : pathPatterns cf path = .ok patterns)
    (hpath : canonicalRoutePath cf path = .ok canonical) (hplain : PlainPath path)
    (hrequest : RequestPath cf request) :
    (patterns.any fun p ↦ patternMatches cf (p.flatMap readChar) request) = true ↔
      Covers cf path request := by
  obtain ⟨segs, hcanonical⟩ := canonicalRoutePath_ok cf hpath
  obtain ⟨qs, hqs, htext, hsegments⟩ := hrequest.segments cf
  rw [covers_iff cf hcanonical hpath, hsegments]
  by_cases hroot : path = ['/']
  · have hnil : segs = [] := by
      rw [hcanonical.segs_of_unescaped cf hplain.unescaped, hroot]
      rfl
    have hstar : patterns = [['/'] ++ ['*']] := by
      subst hroot
      unfold pathPatterns at hpatterns
      split_ifs at hpatterns
      · cases hpatterns
        rfl
      all_goals simp_all
    rw [hstar, hnil, List.any_cons, List.any_nil, Bool.or_false, patternMatches_star,
      readFolded_slash, htext]
    refine ⟨fun _ => List.nil_prefix, fun _ => ?_⟩
    unfold rooted
    cases qs with
    | nil => exact List.prefix_refl _
    | cons s rest =>
      rw [if_neg (by simp)]
      exact ⟨s ++ join '/' rest, rfl⟩
  · have hne : segs ≠ [] := by
      rintro rfl
      obtain hshape | hshape := hcanonical.plain_shape cf hplain
      · have := hcanonical.absolute
        rw [hshape] at this
        cases this
      · exact hroot hshape
    rw [pathPatterns_match cf hpatterns hroot, hcanonical.patternsMatch_plain cf hplain, htext,
      text_join]
    exact join_prefix_rooted (hcanonical.segmented.map_text cf) (by simpa using hne) hqs

/-! ## Other paths: a request that their patterns miss -/

/-- A request below `segs` whose last segment is long. -/
def beyond (segs : List Text) (n : Nat) : Text := rooted (segs ++ [List.replicate n 'x'])

theorem text_of_ascii (h : ∀ c ∈ t, c.toNat < 128) : cf.text t = lower t := by
  induction t with
  | nil => rfl
  | cons c t ih =>
    rw [CaseFold.text_cons, cf.ascii c (h c List.mem_cons_self),
      ih fun d hd => h d (List.mem_cons_of_mem c hd)]
    rfl

theorem text_replicate (n : Nat) : cf.text (List.replicate n 'x') = List.replicate n 'x' := by
  rw [text_of_ascii cf, lower, List.map_replicate]
  · rfl
  · intro c hc
    rw [List.eq_of_mem_replicate hc]
    decide

theorem underReserved_join (hqs : Segmented qs) :
    underReserved cf (join '/' qs) = true ↔ ["outpost.goauthentik.io".toList] <+: qs := by
  have hreserved : cf.text "/outpost.goauthentik.io".toList =
      join '/' ["outpost.goauthentik.io".toList] := by
    rw [text_of_ascii cf (forall_mem_of_all (by decide))]
    decide
  have hfree : ∀ s ∈ ["outpost.goauthentik.io".toList], '/' ∉ s := by decide
  rw [← join_prefix_iff hfree hqs.free, ← hreserved]
  unfold underReserved reservedRoutePrefixes
  simp only [List.any_cons, List.any_nil, Bool.or_false, Bool.or_eq_true, decide_eq_true_eq,
    List.isPrefixOf_iff_prefix]
  rw [eq_comm]

section

variable {n : Nat}

theorem segmented_beyond (hsegs : Segmented segs) (hn : 0 < n) :
    Segmented (segs ++ [List.replicate n 'x']) := by
  intro s hs
  obtain hs | hs := List.mem_append.mp hs
  · exact hsegs s hs
  · rw [List.mem_singleton.mp hs]
    refine ⟨fun hmem => ?_, fun hnil => ?_⟩
    · exact absurd (List.eq_of_mem_replicate hmem) (by decide)
    · have := congrArg List.length hnil
      simp only [List.length_replicate, List.length_nil] at this
      omega

theorem text_beyond (segs : List Text) (n : Nat) :
    cf.text (beyond segs n) = join '/' (segs.map cf.text) ++ '/' :: List.replicate n 'x' := by
  unfold beyond
  rw [text_rooted, rooted, if_neg (by simp), List.map_append, List.map_singleton, text_replicate,
    join_append, join_cons, join_nil, List.append_nil]

theorem Canonical.beyond_requestPath (h : Canonical cf path canonical segs)
    (hn : 0 < n) : RequestPath cf (beyond segs n) := by
  have hsegs := segmented_beyond h.segmented hn
  have hx : List.replicate n 'x' = 'x' :: List.replicate (n - 1) 'x' := by
    rw [← List.replicate_succ, Nat.sub_add_cancel hn]
  refine ⟨⟨_, hsegs, ?_, rfl⟩, ?_⟩
  · intro s hs
    obtain hs | hs := List.mem_append.mp hs
    · exact h.dotFree s hs
    · rw [List.mem_singleton.mp hs, hx]
      exact ⟨fun heq => absurd (List.cons.inj heq).1 (by decide),
        fun heq => absurd (List.cons.inj heq).1 (by decide)⟩
  · have htext : cf.text (beyond segs n) =
        join '/' (segs.map cf.text ++ [List.replicate n 'x']) := by
      rw [text_beyond, join_append, join_cons, join_nil, List.append_nil]
    have hqs : Segmented (segs.map cf.text ++ [List.replicate n 'x']) :=
      segmented_beyond (h.segmented.map_text cf) hn
    rw [htext, ← Bool.not_eq_true, underReserved_join cf hqs]
    intro hprefix
    have hcanonical := h.canonical_rooted
    cases hcs : segs.map cf.text with
    | nil =>
      rw [hcs, List.nil_append, List.cons_prefix_cons, hx] at hprefix
      exact absurd (List.cons.inj hprefix.1).1 (by decide)
    | cons s rest =>
      rw [hcs, List.cons_append, List.cons_prefix_cons] at hprefix
      have hunder : underReserved cf (join '/' (segs.map cf.text)) = true := by
        rw [underReserved_join cf (h.segmented.map_text cf), hcs, ← hprefix.1]
        exact ⟨rest, rfl⟩
      rw [hcs, rooted, if_neg (by simp), ← hcs] at hcanonical
      rw [← hcanonical, h.unreserved] at hunder
      cases hunder

theorem Canonical.segments_beyond (h : Canonical cf path canonical segs) (hn : 0 < n) :
    segments '/' (cf.text (beyond segs n)) = segs.map cf.text ++ [List.replicate n 'x'] := by
  rw [beyond, text_rooted, List.map_append, List.map_singleton, text_replicate,
    segments_rooted (segmented_beyond (h.segmented.map_text cf) hn)]

theorem Canonical.trimmed_decoded (h : Canonical cf path canonical segs) (hroot : path ≠ ['/']) :
    ∃ d, unquote (trimmed path) = some ('/' :: d) ∧ segs = segments '/' ('/' :: d) ∧
      badEscape (trimmed path) = false := by
  have hstart {t d : Text} (hd : unquote ('/' :: t) = some d) : ∃ d', d = '/' :: d' := by
    rw [unquote_cons (by decide) (by decide)] at hd
    obtain ⟨d', -, rfl⟩ := Option.map_eq_some_iff.mp hd
    exact ⟨d', rfl⟩
  obtain ⟨d, hd, rfl, -⟩ := h.decoded
  have hbad := h.escapes
  obtain ⟨rest, hrest⟩ := List.head?_eq_some_iff.mp h.absolute
  unfold trimmed
  by_cases hlast : path.getLast? = some '/'
  · rw [if_pos hlast]
    have happend := append_of_getLast? hlast
    rw [happend, unquote_append (by decide) (by decide) (by decide)] at hd
    rw [happend, badEscape_append (by decide) (by decide)] at hbad
    obtain ⟨d', hd', rfl⟩ := Option.map_eq_some_iff.mp hd
    cases hdrop : path.dropLast with
    | nil =>
      rw [hdrop] at happend
      exact absurd happend hroot
    | cons c t =>
      obtain rfl : '/' = c := by
        rw [hdrop, hrest] at happend
        exact (List.cons.inj happend).1
      rw [hdrop] at hd' hbad
      obtain ⟨d', rfl⟩ := hstart hd'
      exact ⟨d', hd', segments_append_sep _, hbad⟩
  · rw [if_neg hlast, hrest]
    rw [hrest] at hd hbad
    obtain ⟨d, rfl⟩ := hstart hd
    exact ⟨d, hd, rfl, hbad⟩

theorem length_le_text (t : Text) : t.length ≤ (cf.text t).length := by
  induction t with
  | nil => exact Nat.le_refl _
  | cons c t ih =>
    have := cf.one_le_length c
    rw [length_text_cons, List.length_cons]
    omega

theorem length_fold_lt_read (hc : 128 ≤ c.toNat) :
    (cf.fold c).length < (cf.text (readChar c)).length := by
  have := six_le_length_readChar hc
  have := length_le_text cf (readChar c)
  have := cf.length_le c
  omega

theorem length_fold_le_read (c : Char) : (cf.fold c).length ≤ (cf.text (readChar c)).length := by
  by_cases hc : c.toNat < 128
  · have := List.length_pos_iff.mpr (readChar_ne_nil c)
    have := length_le_text cf (readChar c)
    rw [cf.ascii c hc, List.length_singleton]
    omega
  · exact Nat.le_of_lt (length_fold_lt_read cf (Nat.le_of_not_lt hc))

theorem readFolded_cons (c : Char) (t : Text) :
    readFolded cf (c :: t) = cf.text (readChar c) ++ readFolded cf t := by
  simp [readFolded, CaseFold.text]

theorem length_text_le_readFolded (t : Text) :
    (cf.text t).length ≤ (readFolded cf t).length := by
  induction t with
  | nil => exact Nat.le_refl _
  | cons c t ih =>
    have := length_fold_le_read cf c
    rw [readFolded_cons, length_text_cons, List.length_append]
    omega

theorem length_text_lt_readFolded {t : Text} (hmem : c ∈ t) (hc : 128 ≤ c.toNat) :
    (cf.text t).length < (readFolded cf t).length := by
  obtain ⟨u, v, rfl⟩ := List.append_of_mem hmem
  have hu := length_text_le_readFolded cf u
  have hv := length_text_le_readFolded cf v
  have hlt := length_fold_lt_read cf hc
  have htext : cf.text (u ++ c :: v) = cf.text u ++ (cf.fold c ++ cf.text v) :=
    List.flatMap_append
  rw [readFolded_append, readFolded_cons, htext]
  simp only [List.length_append]
  omega

theorem mem_trimmed (hmem : c ∈ path) (hc : c ≠ '/') : c ∈ trimmed path := by
  unfold trimmed
  by_cases hlast : path.getLast? = some '/'
  · rw [if_pos hlast]
    rw [append_of_getLast? hlast, List.mem_append, List.mem_singleton] at hmem
    exact hmem.resolve_right hc
  · rwa [if_neg hlast]

theorem Canonical.join_lt_readFolded (h : Canonical cf path canonical segs) (hroot : path ≠ ['/'])
    (hchar : '%' ∈ path ∨ ∃ c ∈ path, 128 ≤ c.toNat) :
    (join '/' (segs.map cf.text)).length < (readFolded cf (trimmed path)).length := by
  obtain ⟨d, hd, rfl, hbad⟩ := h.trimmed_decoded cf hroot
  have hjoin : (join '/' ((segments '/' ('/' :: d)).map cf.text)).length ≤
      (cf.text ('/' :: d)).length := by
    rw [← text_join]
    exact ((join_segments_sublist d).flatMap cf.fold).length_le
  obtain hpercent | ⟨c, hmem, hc⟩ := hchar
  · have hlt := length_unquote_lt cf hd (mem_trimmed hpercent (by decide)) hbad
    have hread := length_text_le_readFolded cf (trimmed path)
    omega
  · have hne : c ≠ '/' := by
      rintro rfl
      exact absurd hc (by decide)
    have hle := length_unquote_le cf hd
    have hread := length_text_lt_readFolded cf (mem_trimmed hmem hne) hc
    omega

theorem double_slash_trimmed (h : ['/', '/'] <:+: path) :
    ['/', '/'] <:+: readFolded cf (trimmed path) ++ ['/'] := by
  have htrim : ['/', '/'] <:+: trimmed path ++ ['/'] := by
    unfold trimmed
    by_cases hlast : path.getLast? = some '/'
    · rwa [if_pos hlast, ← append_of_getLast? hlast]
    · rw [if_neg hlast]
      exact List.infix_append_of_infix_left h
  obtain ⟨u, v, huv⟩ := htrim
  have hread := congrArg (readFolded cf) huv
  have hdouble : readFolded cf ['/', '/'] = ['/', '/'] := by
    have := readFolded_append cf ['/'] ['/']
    rwa [readFolded_slash] at this
  rw [readFolded_append, readFolded_append, readFolded_append, readFolded_slash, hdouble] at hread
  exact ⟨_, _, hread⟩

theorem Canonical.not_patternsMatch_beyond (h : Canonical cf path canonical segs)
    (hroot : path ≠ ['/']) (hplain : ¬ PlainPath path)
    (hn : (readFolded cf path).length < n) : ¬ PatternsMatch cf path (beyond segs n) := by
  have hn0 : 0 < n := Nat.zero_lt_of_lt hn
  have htext := text_beyond cf segs n
  have hlength := congrArg List.length htext
  simp only [List.length_append, List.length_cons, List.length_replicate] at hlength
  unfold PatternsMatch
  rintro (heq | ⟨-, heq⟩ | hprefix)
  · have := congrArg List.length heq
    omega
  · have := congrArg List.length heq
    obtain ⟨r, hr⟩ := List.rdropWhile_prefix (· = '/') path
    have hread := congrArg (fun t => (readFolded cf t).length) hr
    simp only [readFolded_append, List.length_append] at hread
    unfold rstripSlash at this
    omega
  · rw [htext] at hprefix
    by_cases hdouble : ['/', '/'] <:+: path
    · have hinfix := (double_slash_trimmed cf hdouble).trans hprefix.isInfix
      have hjoin : join '/' (segs.map cf.text) ++ '/' :: List.replicate n 'x' =
          join '/' (segs.map cf.text ++ [List.replicate n 'x']) := by
        rw [join_append, join_cons, join_nil, List.append_nil]
      have hqs := segmented_beyond (h.segmented.map_text cf) hn0
      rw [hjoin] at hinfix
      exact not_infix_join hqs.free (fun s hs => (hqs s hs).2) hinfix
    · have hchar : '%' ∈ path ∨ ∃ c ∈ path, 128 ≤ c.toNat := by
        by_contra hnone
        rw [not_or] at hnone
        refine hplain ⟨fun c hc => ?_, hnone.1, hdouble⟩
        exact Nat.lt_of_not_le fun hle => hnone.2 ⟨c, hc, hle⟩
      have hlt := h.join_lt_readFolded cf hroot hchar
      -- the separator after the printed prefix would stand inside the long segment
      have hlow : join '/' (segs.map cf.text) ++ ['/'] <+:
          join '/' (segs.map cf.text) ++ '/' :: List.replicate n 'x' :=
        ⟨List.replicate n 'x', by simp⟩
      have hhigh := (List.prefix_append (readFolded cf (trimmed path)) ['/']).trans hprefix
      obtain ⟨r, hr⟩ := List.prefix_of_prefix_length_le hlow hhigh
        (by rw [List.length_append, List.length_singleton]; omega)
      obtain ⟨rest, hrest⟩ := hprefix
      rw [← hr] at hrest
      simp only [List.append_assoc, List.cons_append, List.nil_append, List.append_cancel_left_eq,
        List.cons.injEq, true_and] at hrest
      have hmem : '/' ∈ List.replicate n 'x' := by
        rw [← hrest]
        simp
      exact absurd (List.eq_of_mem_replicate hmem) (by decide)

end

end

end NixNas.Caddy
