import NixNas.Caddy.Render
import NixNas.Lib.Segments

/-!
# Route paths (`_canonical_route_path` and the route part of `semantic_validate`)

The validator compares decoded, collapsed and case-folded paths; the renderer prints the paths as
they were written.
-/

open Percent Quote Segments

namespace NixNas.Caddy

inductive RouteError where
  | notAbsolute (path : Text)
  | unsafePath (path : Text)
  | badEscape (path : Text)
  | notUtf8 (path : Text)
  | decodesUnsafe (path : Text)
  | dotSegment (path : Text)
  | reserved (path : Text)
  | duplicate (path owner : Text)
  | overlap (path owner : Text)
  deriving DecidableEq, Repr

/-- The `code` of the error. -/
def RouteError.code : RouteError → String
  | .notAbsolute _ | .dotSegment _ => "route-path"
  | .unsafePath _ | .decodesUnsafe _ => "route-wildcard"
  | .badEscape _ | .notUtf8 _ => "route-encoding"
  | .reserved _ => "route-reserved"
  | .duplicate _ _ => "route-conflict"
  | .overlap _ _ => "route-overlap"

/-- `str.isspace` of one character. -/
def isSpace (c : Char) : Bool :=
  let n := c.toNat
  (9 ≤ n && n ≤ 13) || (28 ≤ n && n ≤ 32) || n == 0x85 || n == 0xA0 || n == 0x1680 ||
    (0x2000 ≤ n && n ≤ 0x200A) || n == 0x2028 || n == 0x2029 || n == 0x202F || n == 0x205F ||
    n == 0x3000

def isUnsafeChar (c : Char) : Bool :=
  c.toNat < 0x20 || c.toNat == 0x7F || c ∈ ['*', '?', '#', '\\'] || isSpace c

def routePathIsUnsafe (value : Text) : Bool := value.any isUnsafeChar

def rooted (segs : List Text) : Text := if segs = [] then ['/'] else join '/' segs

section

variable (cf : CaseFold)
variable {path : Text} {segs : List Text} {effective : Effective}

def canonicalRoutePath (value : Text) : Except RouteError Text :=
  if value.head? ≠ some '/' then .error (.notAbsolute value)
  else if routePathIsUnsafe value then .error (.unsafePath value)
  else if badEscape value then .error (.badEscape value)
  else
    match unquote value with
    | none => .error (.notUtf8 value)
    | some decoded =>
      if routePathIsUnsafe decoded then .error (.decodesUnsafe value)
      else if (segments '/' decoded).any fun s ↦ s = ['.'] || s = ['.', '.'] then
        .error (.dotSegment value)
      else
        let folded := cf.text (rooted (segments '/' decoded))
        if underReserved cf folded then .error (.reserved value) else .ok folded

def routesConflict (first second : Text) : Bool :=
  let first := rstripSlash (cf.text first)
  let second := rstripSlash (cf.text second)
  if first = [] || second = [] then true
  else
    (segments '/' first).isPrefixOf (segments '/' second) ||
      (segments '/' second).isPrefixOf (segments '/' first)

/-- The sites a route is exposed on, with its path there: the appliance (`none`), or a case-folded
hostname. -/
def exposures (r : Route) : List (Option Text × Text) :=
  match r.exposure with
  | .path paths => paths.map fun path ↦ (none, path)
  | .hostname hostnames path => hostnames.map fun hostname ↦ (some (cf.text hostname), path)

/-- A registered path: its site, its canonical form and its owner. -/
structure Registered where
  site : Option Text
  path : Text
  owner : Text
  deriving DecidableEq, Repr

def checkRegistered (site : Option Text) (path : Text) :
    List Registered → Except RouteError Unit
  | [] => .ok ()
  | r :: rest =>
    if r.site ≠ site || !routesConflict cf path r.path then checkRegistered site path rest
    else if path = r.path then .error (.duplicate path r.owner)
    else if path = ['/'] || r.path = ['/'] then .error (.overlap path r.owner)
    else checkRegistered site path rest

/-- The route checks of `semantic_validate`, over the exposed paths in document order. -/
def validateExposures : List Registered → List (Option Text × Entry) →
    Except RouteError (List Registered)
  | registered, [] => .ok registered
  | registered, (site, e) :: rest =>
    match canonicalRoutePath cf e.path with
    | .error err => .error err
    | .ok path =>
      match checkRegistered cf site path registered with
      | .error err => .error err
      | .ok () => validateExposures
          (registered ++ [⟨site, path, e.route.service ++ ':' :: e.route.route⟩]) rest

/-- All exposed paths of a document, those of disabled services included. -/
def allExposures (routes : List Route) : List (Option Text × Entry) :=
  routes.flatMap fun r ↦ (exposures cf r).map fun (site, path) ↦ (site, ⟨r, path⟩)

def Accepted (effective : Effective) : Prop :=
  ∃ registered, validateExposures cf [] (allExposures cf effective.routes) = .ok registered

/-- The decoded segments behind a canonical path. -/
structure Canonical (path canonical : Text) (segs : List Text) : Prop where
  absolute : path.head? = some '/'
  safe : routePathIsUnsafe path = false
  escapes : badEscape path = false
  decoded : ∃ d, unquote path = some d ∧ segs = segments '/' d ∧ routePathIsUnsafe d = false
  dotFree : ∀ s ∈ segs, s ≠ ['.'] ∧ s ≠ ['.', '.']
  canonical_eq : canonical = cf.text (rooted segs)
  unreserved : underReserved cf canonical = false

variable {registered : List Registered}

theorem canonicalRoutePath_ok {canonical : Text}
    (h : canonicalRoutePath cf path = .ok canonical) : ∃ segs, Canonical cf path canonical segs := by
  unfold canonicalRoutePath at h
  split_ifs at h with habsolute hsafe hescapes
  cases hdecoded : unquote path with
  | none =>
    rw [hdecoded] at h
    cases h
  | some d =>
    rw [hdecoded] at h
    dsimp only at h
    split_ifs at h with hunsafe hdots hreserved
    cases h
    refine ⟨segments '/' d, not_not.mp habsolute, by simpa using hsafe, by simpa using hescapes,
      ⟨d, hdecoded, rfl, by simpa using hunsafe⟩, ?_, rfl, by simpa using hreserved⟩
    intro s hs
    have hnone := hdots
    rw [Bool.not_eq_true, List.any_eq_false] at hnone
    simpa using hnone s hs

theorem eq_slash_of_toLower {c : Char} (hc : c.toNat < 128) (h : c.toLower = '/') : c = '/' := by
  have hall : ∀ n < 128, (Char.ofNat n).toLower = '/' → Char.ofNat n = '/' := by decide
  have := hall c.toNat hc
  rw [Char.ofNat_toNat] at this
  exact this h

theorem keeps_slash : Keeps '/' cf.fold where
  keep := cf.ascii '/' (by decide)
  free := by
    intro c hc
    by_cases hascii : c.toNat < 128
    · rw [cf.ascii c hascii, List.mem_singleton]
      exact fun h => hc (eq_slash_of_toLower hascii h.symm)
    · exact cf.slash_not_mem c (Nat.le_of_not_lt hascii)

def Segmented (segs : List Text) : Prop := ∀ s ∈ segs, '/' ∉ s ∧ s ≠ []

theorem Segmented.free (h : Segmented segs) : ∀ s ∈ segs, '/' ∉ s :=
  fun s hs => (h s hs).1

theorem segmented_segments (t : Text) : Segmented (segments '/' t) :=
  fun _ hs => ⟨not_mem_of_mem_segments hs, ne_nil_of_mem_segments hs⟩

theorem text_ne_nil {t : Text} (h : t ≠ []) : cf.text t ≠ [] := by
  cases t with
  | nil => exact absurd rfl h
  | cons c t =>
    rw [CaseFold.text_cons]
    exact List.append_ne_nil_of_left_ne_nil (cf.ne_nil c) _

theorem Segmented.map_text (h : Segmented segs) : Segmented (segs.map cf.text) := by
  intro s hs
  obtain ⟨t, ht, rfl⟩ := List.mem_map.mp hs
  exact ⟨(keeps_slash cf).not_mem_flatMap (h t ht).1, text_ne_nil cf (h t ht).2⟩

theorem text_join (segs : List Text) :
    cf.text (join '/' segs) = join '/' (segs.map cf.text) :=
  flatMap_join (keeps_slash cf) segs

theorem text_rooted (segs : List Text) : cf.text (rooted segs) = rooted (segs.map cf.text) := by
  unfold rooted
  by_cases h : segs = []
  · rw [if_pos h, h]
    exact (List.flatMap_singleton _ _).trans (keeps_slash cf).keep
  · rw [if_neg h, if_neg (by simpa using h)]
    exact text_join cf segs

theorem segments_rooted (h : Segmented segs) : segments '/' (rooted segs) = segs := by
  unfold rooted
  by_cases hnil : segs = []
  · rw [if_pos hnil, hnil]
    rfl
  · rw [if_neg hnil]
    exact segments_join h.free fun s hs => (h s hs).2

section

variable {canonical : Text}

theorem Canonical.segmented (h : Canonical cf path canonical segs) : Segmented segs := by
  obtain ⟨d, -, rfl, -⟩ := h.decoded
  exact segmented_segments d

theorem Canonical.canonical_rooted (h : Canonical cf path canonical segs) :
    canonical = rooted (segs.map cf.text) :=
  h.canonical_eq.trans (text_rooted cf segs)

theorem Canonical.segments_canonical (h : Canonical cf path canonical segs) :
    segments '/' canonical = segs.map cf.text := by
  rw [h.canonical_rooted]
  exact segments_rooted (h.segmented.map_text cf)

end

def Distinct (x y : Option Text × Entry) : Prop :=
  x.1 = y.1 → ∀ c, canonicalRoutePath cf x.2.path = .ok c → canonicalRoutePath cf y.2.path ≠ .ok c

theorem routesConflict_self (path : Text) : routesConflict cf path path = true := by
  unfold routesConflict
  dsimp only
  split
  · rfl
  · simp

theorem checkRegistered_ok {site : Option Text}
    (h : checkRegistered cf site path registered = .ok ()) :
    ∀ r ∈ registered, r.site = site → r.path ≠ path := by
  induction registered with
  | nil => exact nofun
  | cons r rest ih =>
    unfold checkRegistered at h
    intro r' hr' hsite
    obtain rfl | hr' := List.mem_cons.mp hr'
    · rintro rfl
      rw [routesConflict_self] at h
      simp [hsite] at h
    · refine ih ?_ r' hr' hsite
      split_ifs at h
      · exact h
      · exact h

theorem validateExposures_ok {registered' : List Registered} {exposed : List (Option Text × Entry)}
    (h : validateExposures cf registered exposed = .ok registered') :
    (∀ x ∈ exposed, ∃ c, canonicalRoutePath cf x.2.path = .ok c ∧
      ∀ r ∈ registered, r.site = x.1 → r.path ≠ c) ∧ exposed.Pairwise (Distinct cf) := by
  induction exposed generalizing registered with
  | nil => exact ⟨nofun, .nil⟩
  | cons x rest ih =>
    obtain ⟨site, e⟩ := x
    unfold validateExposures at h
    split at h
    · cases h
    · rename_i path hpath
      split at h
      · cases h
      · rename_i hcheck
        obtain ⟨hrest, hpairwise⟩ := ih h
        refine ⟨?_, .cons ?_ hpairwise⟩
        · intro y hy
          obtain rfl | hy := List.mem_cons.mp hy
          · exact ⟨path, hpath, fun r hr hsite => checkRegistered_ok cf hcheck r hr hsite⟩
          · obtain ⟨c, hc, hfresh⟩ := hrest y hy
            exact ⟨c, hc, fun r hr => hfresh r (List.mem_append_left _ hr)⟩
        · intro y hy hsite c hc
          obtain ⟨c', hc', hfresh⟩ := hrest y hy
          have hne := hfresh _ (List.mem_append_right _ (List.mem_singleton_self _)) hsite
          rw [hc'] at *
          cases hpath.symm.trans hc
          exact fun heq => hne (Except.ok.inj heq).symm

theorem Accepted.canonical (h : Accepted cf effective)
    {x : Option Text × Entry} (hx : x ∈ allExposures cf effective.routes) :
    ∃ c, canonicalRoutePath cf x.2.path = .ok c := by
  obtain ⟨_, hok⟩ := h
  obtain ⟨c, hc, -⟩ := (validateExposures_ok cf hok).1 x hx
  exact ⟨c, hc⟩

theorem Accepted.distinct (h : Accepted cf effective) :
    (allExposures cf effective.routes).Pairwise (Distinct cf) := by
  obtain ⟨_, hok⟩ := h
  exact (validateExposures_ok cf hok).2

end

end NixNas.Caddy
