import NixNas.Caddy.Sites
import NixNas.Lib.Fields
import NixNas.Lib.Regex

/-!
# Who may pass an identity route

The proxy matches the group header against a pattern made from the required capability; the portal
lists the groups that may use an entry; `application_capability_allowed` decides for a set of
groups.
-/

open Fallible Fields Percent Quote Regex

namespace NixNas.Caddy

/-! ## Capabilities -/

def disabledGroup : Text := "nas_disabled".toList

def applicationCapability (service capability : Text) : Text :=
  "application.".toList ++ service ++ '.' :: capability

/-- `_CAPABILITY_ID_RE`. -/
def isCapabilityId (value : Text) : Bool :=
  match value with
  | [] => false
  | c :: rest => c.isLower && rest.length ≤ 127 &&
      rest.all fun d ↦ d.isLower || d.isDigit || d = '.' || d = '-'

/-- `application_capability_group`, `none` where it raises. -/
def applicationCapabilityGroup (service capability : Text) : Option Text :=
  if isIdentifier service && isCapabilityId capability then
    some (applicationCapability service capability)
  else none

def accountEnabled (groups : List Text) : Bool := disabledGroup ∉ groups

def applicationCapabilityAllowed (groups : List Text) (service capability : Text)
    (administratorBypass : Bool) : Option Bool :=
  if !accountEnabled groups then some false
  else if administratorBypass && adminGroup ∈ groups then some true
  else (applicationCapabilityGroup service capability).map fun group ↦ group ∈ groups

structure RouteDeclaration where
  route : Text
  authMode : AuthMode
  capability : Text
  target : Target
  exposure : Exposure
  proxy : Proxy
  deriving DecidableEq, Repr

/-- The derived route of `build_effective`. -/
def compileRoute (service : Text) (onDemand : Bool) (d : RouteDeclaration) : Route where
  service := service
  route := d.route
  authMode := d.authMode
  requiredCapability :=
    if d.authMode = .identity then some (applicationCapability service d.capability) else none
  onDemandWake := onDemand
  target := d.target
  exposure := d.exposure
  proxy := d.proxy

/-- The `access` of a portal entry. -/
structure Access where
  mode : String
  allow : String
  groups : List Text
  users : List Text
  deriving DecidableEq, Repr

/-- The access part of `compile_portal_projection`, `none` where it raises. -/
def portalAccess (r : Route) : Option Access :=
  match r.authMode, r.requiredCapability with
  | .identity, some capability => some ⟨"groups", "groups", [capability, adminGroup], []⟩
  | .identity, none => none
  | .publicMode, _ => some ⟨"public", "any", [], []⟩
  | .upstream, _ => some ⟨"upstream", "any", [], []⟩

/-! ## The pattern -/

/-- A character of a group name, as it stands in the pattern that reaches Caddy. -/
def patternChar (c : Char) : Text :=
  if c = '.' then ['[', '.', ']'] else if c = '-' then ['\\', '\\', '-'] else [c]

def meantChar (c : Char) : Text := if c = '-' then ['\\', '-'] else [c]

def isGroupChar (c : Char) : Bool := c.isLower || c.isDigit || c = '.' || c = '-'

def patternPrefix : Text := "(^|[|,][[:space:]]*)(".toList

def patternSuffix : Text := "|nas_admin)([[:space:]]*[|,]|$)".toList

variable {c : Char} {t capability t' value : Text} {b b' : Bool}

theorem lower_or_digit (h : isGroupChar c = true) (hdot : c ≠ '.') (hdash : c ≠ '-') :
    48 ≤ c.toNat ∧ c.toNat ≤ 57 ∨ 97 ≤ c.toNat ∧ c.toNat ≤ 122 := by
  unfold isGroupChar at h
  simp only [Bool.or_eq_true, decide_eq_true_eq, hdot, hdash, or_false] at h
  obtain h | h := h
  · right
    have hlower : c.isLower = (c ≥ 'a' && c ≤ 'z') := rfl
    simpa [hlower, Char.le_def, UInt32.le_iff_toNat_le] using h
  · left
    simpa [Char.isDigit, Char.le_def, UInt32.le_iff_toNat_le] using h

theorem not_mem_of_plain (h : isGroupChar c = true) (hdot : c ≠ '.') (hdash : c ≠ '-') {l : Text}
    (hl : (l.all fun d ↦ d.toNat < 48 ∨ 57 < d.toNat ∧ d.toNat < 97 ∨ 122 < d.toNat ∨ d = '.' ∨
      d = '-') = true) : c ∉ l := by
  intro hmem
  have hrange := lower_or_digit h hdot hdash
  obtain hl | hl | hl | hl | hl := forall_mem_of_all hl c hmem
  · omega
  · omega
  · omega
  · exact hdot hl
  · exact hdash hl

theorem dotToClass_plain (hc : c ≠ '\\') (t : Text) : dotToClass (c :: t) = c :: dotToClass t := by
  rw [dotToClass.eq_def]
  split
  · rename_i heq
    exact absurd (List.cons.inj heq).1 hc
  · rename_i heq
    obtain ⟨rfl, rfl⟩ := List.cons.inj heq
    rfl
  · rename_i heq
    cases heq

theorem dotToClass_slash (hc : c ≠ '.') (t : Text) :
    dotToClass ('\\' :: c :: t) = '\\' :: dotToClass (c :: t) := by
  rw [dotToClass.eq_def]
  split
  · rename_i heq
    exact absurd (List.cons.inj (List.cons.inj heq).2).1 hc
  · rename_i heq
    obtain ⟨rfl, rfl⟩ := List.cons.inj heq
    rfl
  · rename_i heq
    cases heq

theorem flatMap_read_group (h : ∀ c ∈ t, isGroupChar c = true) :
    (dotToClass (reEscape t)).flatMap readChar = t.flatMap patternChar := by
  induction t with
  | nil => rfl
  | cons c t ih =>
    have ih := ih fun d hd => h d (List.mem_cons_of_mem c hd)
    have hc := h c List.mem_cons_self
    rw [List.flatMap_cons, ← ih]
    have hcons : reEscape ([c] ++ t) = reEscape [c] ++ reEscape t := List.flatMap_append
    rw [List.singleton_append] at hcons
    rw [hcons]
    by_cases hdot : c = '.'
    · subst hdot
      change (dotToClass ('\\' :: '.' :: reEscape t)).flatMap readChar = _
      rw [dotToClass, List.flatMap_append]
      rfl
    by_cases hdash : c = '-'
    · subst hdash
      have hescaped : dotToClass ('\\' :: '-' :: reEscape t) =
          ['\\', '-'] ++ dotToClass (reEscape t) := by
        rw [dotToClass_slash (by decide), dotToClass_plain (by decide)]
        rfl
      change (dotToClass ('\\' :: '-' :: reEscape t)).flatMap readChar = _
      rw [hescaped, List.flatMap_append]
      rfl
    · have hspecial : c ∉ "()[]\x7b\x7d?*+-|^$\\.&~# \t\n\r\x0b\x0c".toList :=
        not_mem_of_plain hc hdot hdash (by decide)
      have hplain : reEscape [c] = [c] := by
        unfold reEscape
        rw [List.flatMap_cons, if_neg hspecial]
        rfl
      have hslash : c ≠ '\\' := fun heq => hspecial (heq ▸ by decide)
      have hread : readChar c = [c] := by
        have hrange := lower_or_digit hc hdot hdash
        refine readChar_of_readable ?_
        unfold readable
        simp only [Bool.and_eq_true, decide_eq_true_eq, bne_iff_ne, ne_eq]
        exact ⟨⟨by omega, by omega⟩, hslash⟩
      rw [hplain, List.singleton_append, dotToClass_plain hslash, List.flatMap_cons, hread]
      unfold patternChar
      rw [if_neg hdot, if_neg hdash]

theorem lexQuoted_allowedGroups (h : ∀ c ∈ capability, isGroupChar c = true) :
    lexQuoted (jsonDumps (allowedGroups capability)) =
      patternPrefix ++ capability.flatMap patternChar ++ patternSuffix := by
  have hpattern : allowedGroups capability =
      patternPrefix ++ (dotToClass (reEscape capability) ++ patternSuffix) := by
    unfold allowedGroups
    have hadmin : dotToClass (reEscape adminGroup) = "nas_admin".toList := by decide
    have hrest : patternSuffix =
        ['|'] ++ "nas_admin".toList ++ ")([[:space:]]*[|,]|$)".toList := by decide +kernel
    have hpair (a b : Text) : ['|'].intercalate [a, b] = a ++ (['|'] ++ b) := by
      simp [List.intercalate]
    simp only [List.map_cons, List.map_nil, hadmin]
    rw [hpair, hrest]
    simp only [List.append_assoc]
    rfl
  have hprefix : ∀ c ∈ patternPrefix, readable c = true :=
    List.all_eq_true.mp (by decide +kernel)
  have hsuffix : ∀ c ∈ patternSuffix, readable c = true :=
    List.all_eq_true.mp (by decide +kernel)
  rw [lexQuoted_jsonDumps, hpattern, List.flatMap_append, List.flatMap_append,
    flatMap_read_group h, flatMap_readChar hprefix, flatMap_readChar hsuffix, List.append_assoc]

/-! ## The pattern as RE2 reads it -/

def sepItems : List Item := [.char '|', .char ',']

/-- `(^|[|,][[:space:]]*)`. -/
def openRe : Re := .alt (.cat .empty .start) (.cat (.cat .empty (.cls sepItems)) (.star [.space]))

/-- `([[:space:]]*[|,]|$)`. -/
def closeRe : Re := .alt (.cat (.cat .empty (.star [.space])) (.cls sepItems)) (.cat .empty .stop)

def groupsRe (w : Text) : Re :=
  .cat (.cat (.cat .empty openRe) (.alt (literal .empty w) (literal .empty adminGroup))) closeRe

theorem literal_append (r : Re) (v w : Text) : literal r (v ++ w) = literal (literal r v) w :=
  List.foldl_append

theorem step_patternChar {top : Frame} {below : List Frame} (hc : isGroupChar c = true) :
    (patternChar c).foldlM step ⟨.plain, top, below⟩ =
      some ⟨.plain, { top with seq := literal top.seq (meantChar c) }, below⟩ := by
  unfold patternChar meantChar
  by_cases hdot : c = '.'
  · subst hdot
    rfl
  by_cases hdash : c = '-'
  · subst hdash
    rfl
  · have hplain : isPlain c = true := by
      unfold isPlain
      exact decide_eq_true (not_mem_of_plain hc hdot hdash (by decide))
    rw [if_neg hdot, if_neg hdash, if_neg hdash, List.foldlM_cons, step_plain rfl hplain]
    rfl

theorem foldlM_pattern (h : ∀ c ∈ t, isGroupChar c = true) (top : Frame) (below : List Frame) :
    (t.flatMap patternChar).foldlM step ⟨.plain, top, below⟩ =
      some ⟨.plain, { top with seq := literal top.seq (t.flatMap meantChar) }, below⟩ := by
  induction t generalizing top with
  | nil => rfl
  | cons c t ih =>
    rw [List.flatMap_cons, List.flatMap_cons, List.foldlM_append,
      step_patternChar (h c List.mem_cons_self), literal_append]
    exact ih (fun d hd => h d (List.mem_cons_of_mem c hd)) _

theorem foldlM_prefix : patternPrefix.foldlM step ⟨.plain, .new, []⟩ =
    some ⟨.plain, .new, [⟨none, .cat .empty openRe⟩]⟩ := by
  decide +kernel

theorem foldlM_suffix (r s : Re) :
    patternSuffix.foldlM step ⟨.plain, ⟨none, r⟩, [⟨none, s⟩]⟩ =
      some ⟨.plain, ⟨none, .cat (.cat s (.alt r (literal .empty adminGroup))) closeRe⟩, []⟩ := by
  rfl

theorem parse_pattern (h : ∀ c ∈ capability, isGroupChar c = true) :
    parse (patternPrefix ++ capability.flatMap patternChar ++ patternSuffix) =
      some (groupsRe (capability.flatMap meantChar)) := by
  unfold parse
  rw [List.foldlM_append, List.foldlM_append, foldlM_prefix]
  simp only [Option.bind_eq_bind, Option.bind_some]
  rw [foldlM_pattern h]
  simp only [Option.bind_some, Frame.new]
  rw [foldlM_suffix]
  rfl

/-! ## What it matches -/

def headerMarks : Marks Char where
  sep c := c = '|' || c = ','
  blank := Regex.isSpace
  disjoint := by
    intro c hc
    simp only [Bool.or_eq_true, decide_eq_true_eq] at hc
    obtain rfl | rfl := hc
    · decide
    · decide

theorem has_sepItems (c : Char) : has sepItems c = headerMarks.sep c := by
  simp [has, sepItems, Item.has, headerMarks]

theorem has_space (c : Char) : has [.space] c = headerMarks.blank c := by
  simp [has, Item.has, headerMarks]

theorem mem_ends_openRe :
    (b', t') ∈ ends openRe (b, t) ↔
      b = true ∧ b' = true ∧ t' = t ∨
        b' = false ∧ ∃ c u, t = c :: (u ++ t') ∧ headerMarks.sep c = true ∧ Blanks headerMarks u := by
  unfold openRe
  rw [mem_ends_alt]
  refine or_congr ?_ ?_
  · simp only [mem_ends_cat, mem_ends_empty, exists_eq_left, mem_ends_start, Prod.mk.injEq]
    constructor
    · rintro ⟨rfl, rfl, rfl⟩
      exact ⟨rfl, rfl, rfl⟩
    · rintro ⟨rfl, rfl, rfl⟩
      exact ⟨rfl, rfl, rfl⟩
  · simp only [mem_ends_cat, mem_ends_empty, exists_eq_left, Prod.exists, mem_ends_cls,
      mem_ends_star, has_sepItems, has_space]
    constructor
    · rintro ⟨b₁, t₁, ⟨c, hc, rfl, rfl⟩, u, hu, rfl, rfl⟩
      exact ⟨rfl, c, u, rfl, hc, hu⟩
    · rintro ⟨rfl, c, u, rfl, hc, hu⟩
      exact ⟨false, u ++ t', ⟨c, hc, rfl, rfl⟩, u, hu, rfl, rfl⟩

theorem exists_ends_closeRe : (∃ e, e ∈ ends closeRe (b, t)) ↔ After headerMarks t := by
  unfold closeRe
  simp only [mem_ends_alt, exists_or, After]
  rw [or_comm]
  refine or_congr ?_ ?_
  · simp only [mem_ends_cat, mem_ends_empty, exists_eq_left, mem_ends_stop]
    exact ⟨fun ⟨_, h, _⟩ => h, fun h => ⟨_, h, rfl⟩⟩
  · simp only [mem_ends_cat, mem_ends_empty, exists_eq_left, Prod.exists, mem_ends_cls,
      mem_ends_star, has_sepItems, has_space]
    constructor
    · rintro ⟨b', t', b₁, t₁, ⟨u, hu, rfl, -⟩, c, hc, rfl, -⟩
      exact ⟨u, c, t', rfl, hc, hu⟩
    · rintro ⟨u, c, v, rfl, hc, hu⟩
      exact ⟨false, v, _, c :: v, ⟨u, hu, rfl, rfl⟩, c, hc, rfl, rfl⟩

theorem mem_ends_words {w : Text} :
    (b', t') ∈ ends (.alt (literal .empty w) (literal .empty adminGroup)) (b, t) ↔
      ∃ x ∈ [w, adminGroup], t = x ++ t' ∧ b' = (b && decide (x = [])) := by
  simp only [mem_ends_alt, mem_ends_literal, mem_ends_empty, Prod.mk.injEq, List.mem_cons,
    List.not_mem_nil, or_false, exists_eq_or_imp, exists_eq_left]
  refine or_congr ?_ ?_
  · exact ⟨fun ⟨_, ⟨hb, ht⟩, hb'⟩ => ⟨ht.symm, hb ▸ hb'⟩,
      fun ⟨ht, hb'⟩ => ⟨b, ⟨rfl, ht.symm⟩, hb'⟩⟩
  · exact ⟨fun ⟨_, ⟨hb, ht⟩, hb'⟩ => ⟨ht.symm, hb ▸ hb'⟩,
      fun ⟨ht, hb'⟩ => ⟨b, ⟨rfl, ht.symm⟩, hb'⟩⟩

theorem search_groupsRe (w t : Text) :
    search (groupsRe w) t = true ↔ ∃ x ∈ [w, adminGroup], Occurs headerMarks x t := by
  rw [search_iff]
  unfold groupsRe
  simp only [mem_ends_cat (s := closeRe), mem_ends_cat (r := .cat .empty openRe),
    mem_ends_cat (s := openRe), mem_ends_empty, exists_eq_left]
  constructor
  · rintro ⟨u, v, e, rfl, ⟨b₂, t₂⟩, ⟨⟨b₁, t₁⟩, hopen, hword⟩, hclose⟩
    have hafter : After headerMarks t₂ := exists_ends_closeRe.mp ⟨e, hclose⟩
    obtain ⟨x, hx, rfl, -⟩ := mem_ends_words.mp hword
    refine ⟨x, hx, ?_⟩
    obtain ⟨hstart, -, rfl⟩ | ⟨-, c, blanks, rfl, hc, hblanks⟩ := mem_ends_openRe.mp hopen
    · rw [decide_eq_true_eq] at hstart
      exact ⟨[], t₂, by rw [hstart], .inl rfl, hafter⟩
    · exact ⟨u ++ c :: blanks, t₂, by simp, .inr ⟨u, c, blanks, rfl, hc, hblanks⟩, hafter⟩
  · rintro ⟨x, hx, u, v, rfl, hbefore, hafter⟩
    rw [List.nil_append] at hbefore
    obtain rfl | ⟨u', c, blanks, rfl, hc, hblanks⟩ := hbefore
    · obtain ⟨e, hclose⟩ := exists_ends_closeRe (b := true && decide (x = [])).mpr hafter
      exact ⟨[], x ++ v, e, rfl, _, ⟨_, mem_ends_openRe.mpr (.inl ⟨rfl, rfl, rfl⟩),
        mem_ends_words.mpr ⟨x, hx, rfl, rfl⟩⟩, hclose⟩
    · obtain ⟨e, hclose⟩ := exists_ends_closeRe (b := false && decide (x = [])).mpr hafter
      exact ⟨u', c :: (blanks ++ (x ++ v)), e, by simp, _,
        ⟨_, mem_ends_openRe.mpr (.inr ⟨rfl, c, blanks, rfl, hc, hblanks⟩),
          mem_ends_words.mpr ⟨x, hx, rfl, rfl⟩⟩, hclose⟩

/-! ## The test in the generated block -/

/-- The `header_regexp` tests of a handle block. -/
def regexpTests (directives : List Directive) : List (Text × Text) :=
  directives.filterMap fun
    | .respondUnless _ (.headerRegexp name pattern) => some (name, pattern)
    | _ => none

theorem regexpTests_append (ds ds' : List Directive) :
    regexpTests (ds ++ ds') = regexpTests ds ++ regexpTests ds' := List.filterMap_append

theorem regexpTests_map_requestHeader {β : Type} (l : List β) (f : β → Text × Option Text) :
    regexpTests (l.map fun x ↦ .requestHeader (f x).1 (f x).2) = [] := by
  unfold regexpTests
  rw [List.filterMap_eq_nil_iff]
  intro d hd
  obtain ⟨x, -, rfl⟩ := List.mem_map.mp hd
  rfl

theorem regexpTests_deletes (names : List Text) : regexpTests (names.map deleteHeader) = [] :=
  regexpTests_map_requestHeader names fun name ↦ ('-' :: name, none)

theorem regexpTests_required {r : Route} {directives : List Directive}
    (h : renderRequired r = .ok directives) : regexpTests directives = [] := by
  unfold renderRequired at h
  obtain ⟨required, -, h⟩ := bind_ok h
  cases h
  unfold regexpTests
  rw [List.filterMap_eq_nil_iff]
  intro d hd
  obtain ⟨x, -, rfl⟩ := List.mem_map.mp hd
  rfl

section

variable (sha256 : Text → Text)
variable {r : Route} {directives : List Directive}

theorem regexpTests_proxy
    (h : renderProxy sha256 r = .ok directives) : regexpTests directives = [] := by
  obtain ⟨-, set, strip, upstream, down, -, hstrip, rfl⟩ := renderProxy_ok sha256 h
  have hstrip : regexpTests strip = [] := by
    obtain rfl | ⟨token, rfl⟩ := renderStrip_ok hstrip
    · rfl
    · rfl
  rw [regexpTests_append, regexpTests_append, regexpTests_append, regexpTests_deletes,
    regexpTests_map_requestHeader set fun x ↦ (x.1, some x.2), hstrip]
  rfl

theorem regexpTests_handler {authentikUpstream authentikPath capability : Text}
    (h : renderHandler sha256 r authentikUpstream authentikPath = .ok directives)
    (hmode : r.authMode = .identity) (hcapability : r.requiredCapability = some capability) :
    ∃ token, quote (allowedGroups capability) = .ok token ∧
      regexpTests directives = [("X-Authentik-Groups".toList, token)] := by
  unfold renderHandler at h
  obtain ⟨required, hrequired, h⟩ := bind_ok h
  obtain ⟨auth, hauth, h⟩ := bind_ok h
  obtain ⟨proxy, hproxy, h⟩ := bind_ok h
  cases h
  unfold renderAuth at hauth
  rw [hmode, hcapability] at hauth
  dsimp only at hauth
  split at hauth
  · cases hauth
  · obtain ⟨uri, token, htoken, rfl⟩ := renderIdentityAuth_ok hauth
    refine ⟨token, htoken, ?_⟩
    simp only [regexpTests_append, regexpTests_deletes, regexpTests_required hrequired,
      regexpTests_proxy sha256 hproxy, List.nil_append, List.append_nil]
    rfl

end

/-! ## Identifiers -/

theorem mem_dotToClass (hslash : c ≠ '\\') (hdot : c ≠ '.') (h : c ∈ t) : c ∈ dotToClass t := by
  fun_induction dotToClass t with
  | case1 rest ih =>
    simp only [List.mem_cons, hslash, hdot, false_or] at h
    exact List.mem_append_right _ (ih h)
  | case2 d rest hne ih =>
    obtain rfl | h := List.mem_cons.mp h
    · exact List.mem_cons_self
    · exact List.mem_cons_of_mem _ (ih h)
  | case3 => cases h

theorem mem_reEscape (h : c ∈ t) : c ∈ reEscape t := by
  refine List.mem_flatMap.mpr ⟨c, h, ?_⟩
  split
  · exact List.mem_cons_of_mem _ List.mem_cons_self
  · exact List.mem_cons_self

theorem newline_not_mem {token : Text} (h : quote (allowedGroups capability) = .ok token) :
    '\n' ∉ capability := by
  intro hmem
  have hgroup := mem_dotToClass (by decide) (by decide) (mem_reEscape hmem)
  have hpattern : '\n' ∈ allowedGroups capability := by
    unfold allowedGroups
    simp only [List.map_cons, List.map_nil, List.intercalate]
    refine List.mem_append_left _ (List.mem_append_right _ ?_)
    exact List.mem_flatten.mpr ⟨_, List.mem_cons_self, hgroup⟩
  have hcontrol : hasControl (allowedGroups capability) = true :=
    List.any_eq_true.mpr ⟨_, hpattern, rfl⟩
  unfold quote at h
  rw [if_pos hcontrol] at h
  cases h

theorem isIdentifier_of_schema (h : isSchemaId value = true) (hline : '\n' ∉ value) :
    isIdentifier value = true := by
  unfold isSchemaId at h
  rw [Bool.or_eq_true, Bool.and_eq_true, decide_eq_true_eq] at h
  obtain h | ⟨h, -⟩ := h
  · exact h
  · exact absurd (List.mem_of_getLast? h) hline

theorem isGroupChar_of_identifier (h : isIdentifier value = true) :
    ∀ c ∈ value, isGroupChar c = true := by
  cases value with
  | nil => exact nofun
  | cons c rest =>
    unfold isIdentifier at h
    simp only [Bool.and_eq_true, List.all_eq_true, Bool.or_eq_true, decide_eq_true_eq] at h
    obtain ⟨⟨hc, -⟩, hrest⟩ := h
    intro d hd
    unfold isGroupChar
    simp only [Bool.or_eq_true, decide_eq_true_eq]
    obtain rfl | hd := List.mem_cons.mp hd
    · exact .inl (.inl (.inl hc))
    · obtain (h | h) | h := hrest d hd
      · exact .inl (.inl (.inl h))
      · exact .inl (.inl (.inr h))
      · exact .inr h

theorem isCapabilityId_of_identifier (h : isIdentifier value = true) :
    isCapabilityId value = true := by
  cases value with
  | nil => cases h
  | cons c rest =>
    unfold isIdentifier at h
    unfold isCapabilityId
    simp only [Bool.and_eq_true, List.all_eq_true, Bool.or_eq_true, decide_eq_true_eq] at h ⊢
    obtain ⟨⟨hc, hlength⟩, hrest⟩ := h
    refine ⟨⟨hc, by omega⟩, fun d hd => ?_⟩
    obtain (h | h) | h := hrest d hd
    · exact .inl (.inl (.inl h))
    · exact .inl (.inl (.inr h))
    · exact .inr h

theorem isGroupChar_applicationCapability {service : Text}
    (hservice : isIdentifier service = true) (hcapability : isIdentifier capability = true) :
    ∀ c ∈ applicationCapability service capability, isGroupChar c = true := by
  intro c hc
  unfold applicationCapability at hc
  rw [List.mem_append, List.mem_append, List.mem_cons] at hc
  obtain (hc | hc) | rfl | hc := hc
  · exact List.all_eq_true.mp (by decide) c hc
  · exact isGroupChar_of_identifier hservice c hc
  · decide
  · exact isGroupChar_of_identifier hcapability c hc

/-! ## Members -/

/-- The proxy, the policy and the portal agree on a user with these groups. -/
structure Admits (token : Text) (r : Route) (capability : Text) (names : List Text)
    (header : Text) : Prop where
  member : matchString (lexQuoted token) header = some true ↔
    applicationCapability r.service capability ∈ names ∨ adminGroup ∈ names
  allowed : matchString (lexQuoted token) header = some true ↔
    applicationCapabilityAllowed names r.service capability true = some true
  portal : matchString (lexQuoted token) header = some true ↔
    ∃ access, portalAccess r = some access ∧ ∃ group ∈ access.groups, group ∈ names

/-- Every user is admitted exactly as the policy and the portal say. -/
def AdmitsExactly (token : Text) (r : Route) (capability : Text) : Prop :=
  ∀ names header, (∀ name ∈ names, Word headerMarks name) → disabledGroup ∉ names →
    Lists headerMarks names header → Admits token r capability names header

theorem word_of_chars (h : ∀ c ∈ t, headerMarks.sep c = false ∧ headerMarks.blank c = false) :
    Word headerMarks t where
  noSep c hc := (h c hc).1
  head c hc := (h c (List.mem_of_head? hc)).2
  last c hc := (h c (List.mem_of_getLast? hc)).2

theorem unmarked_of_groupChar (h : isGroupChar c = true) :
    headerMarks.sep c = false ∧ headerMarks.blank c = false := by
  have hmarks : c ∉ ['|', ',', '\t', '\n', '\x0b', '\x0c', '\r', ' '] := by
    by_cases hdot : c = '.'
    · subst hdot
      decide
    by_cases hdash : c = '-'
    · subst hdash
      decide
    · exact not_mem_of_plain h hdot hdash (by decide)
  simp only [List.mem_cons, not_or] at hmarks
  unfold headerMarks Regex.isSpace
  simp [hmarks]

theorem word_meant (h : ∀ c ∈ t, isGroupChar c = true) :
    Word headerMarks (t.flatMap meantChar) := by
  refine word_of_chars fun c hc => ?_
  obtain ⟨d, hd, hc⟩ := List.mem_flatMap.mp hc
  unfold meantChar at hc
  split at hc
  · simp only [List.mem_cons, List.not_mem_nil, or_false] at hc
    obtain rfl | rfl := hc
    · decide
    · decide
  · rw [List.mem_singleton.mp hc]
    exact unmarked_of_groupChar (h d hd)

theorem word_adminGroup : Word headerMarks adminGroup :=
  word_of_chars (forall_mem_of_all (by decide))

theorem meant_eq_self (h : '-' ∉ t) : t.flatMap meantChar = t := by
  induction t with
  | nil => rfl
  | cons c t ih =>
    rw [List.mem_cons, not_or] at h
    rw [List.flatMap_cons, ih h.2, meantChar, if_neg (Ne.symm h.1)]
    rfl

theorem not_dash_of_meant (hslash : '\\' ∉ t) (h : t.flatMap meantChar = t) : '-' ∉ t := by
  intro hdash
  refine hslash ?_
  rw [← h]
  exact List.mem_flatMap.mpr ⟨'-', hdash, List.mem_cons_self⟩

section

variable {service : Text}
variable {names : List Text}

theorem applicationCapability_ne {t : Text} (h : t.head? ≠ some 'a') :
    applicationCapability service capability ≠ t := by
  rintro rfl
  exact h rfl

theorem dash_mem_applicationCapability :
    '-' ∈ applicationCapability service capability ↔ '-' ∈ service ∨ '-' ∈ capability := by
  have hprefix : '-' ∉ "application.".toList := by decide
  have hdot : ('-' : Char) ≠ '.' := by decide
  unfold applicationCapability
  simp only [List.mem_append, List.mem_cons, hprefix, hdot, false_or]

theorem matchString_iff {token : Text} (htoken : quote (allowedGroups capability) = .ok token)
    (hchars : ∀ c ∈ capability, isGroupChar c = true) (hne : capability ≠ [])
    {header : Text} (hnames : ∀ name ∈ names, Word headerMarks name)
    (hlists : Lists headerMarks names header) :
    matchString (lexQuoted token) header = some true ↔
      capability.flatMap meantChar ∈ names ∨ adminGroup ∈ names := by
  have hmeant : capability.flatMap meantChar ≠ [] := by
    obtain ⟨c, t, rfl⟩ := List.exists_cons_of_ne_nil hne
    rw [List.flatMap_cons, meantChar]
    split
    · exact List.cons_ne_nil _ _
    · exact List.cons_ne_nil _ _
  rw [quote_ok htoken, lexQuoted_allowedGroups hchars, matchString, parse_pattern hchars]
  simp only [Option.map_some, Option.some.injEq]
  rw [search_groupsRe]
  simp only [List.mem_cons, List.not_mem_nil, or_false, exists_eq_or_imp, exists_eq_left]
  rw [occurs_iff_mem hlists hnames (word_meant hchars) hmeant,
    occurs_iff_mem hlists hnames word_adminGroup (by decide)]

theorem applicationCapabilityAllowed_iff (hservice : isIdentifier service = true)
    (hcapability : isIdentifier capability = true)
    (henabled : disabledGroup ∉ names) :
    applicationCapabilityAllowed names service capability true = some true ↔
      applicationCapability service capability ∈ names ∨ adminGroup ∈ names := by
  have hgroup : applicationCapabilityGroup service capability =
      some (applicationCapability service capability) := by
    unfold applicationCapabilityGroup
    rw [hservice, isCapabilityId_of_identifier hcapability]
    rfl
  have haccount : accountEnabled names = true := decide_eq_true henabled
  unfold applicationCapabilityAllowed
  rw [haccount, hgroup]
  by_cases hadmin : adminGroup ∈ names
  · simp [hadmin]
  · simp [hadmin]

theorem portalAccess_iff {onDemand : Bool} {d : RouteDeclaration} (hmode : d.authMode = .identity) :
    (∃ access, portalAccess (compileRoute service onDemand d) = some access ∧
      ∃ group ∈ access.groups, group ∈ names) ↔
      applicationCapability service d.capability ∈ names ∨ adminGroup ∈ names := by
  have haccess : portalAccess (compileRoute service onDemand d) =
      some ⟨"groups", "groups", [applicationCapability service d.capability, adminGroup], []⟩ := by
    unfold portalAccess compileRoute
    simp only [hmode, if_true]
  rw [haccess]
  simp

end

/-- The test of a generated identity block admits exactly the members, unless a hyphen stands in
one of the identifiers. -/
theorem admitsExactly_iff (cf : CaseFold) (sha256 : Text → Text) {effective : Effective}
    {authentikUpstream authentikPath lanHost : Text} {sites : List Site}
    (hsites : generateSites cf sha256 effective authentikUpstream authentikPath lanHost =
      .ok sites) {s : Site} (hs : s ∈ sites) {h : Handle} (hh : h ∈ s.handles) {service : Text}
    {onDemand : Bool} {d : RouteDeclaration}
    (hroute : h.entry.route = compileRoute service onDemand d) (hmode : d.authMode = .identity)
    (hservice : isSchemaId service = true) (hcapability : isSchemaId d.capability = true) :
    ∃ token, regexpTests h.directives = [("X-Authentik-Groups".toList, token)] ∧
      (AdmitsExactly token h.entry.route d.capability ↔ '-' ∉ service ∧ '-' ∉ d.capability) := by
  have hhandler := handler_of_generateSites cf sha256 hsites hs hh
  rw [hroute] at hhandler ⊢
  have hrequired : (compileRoute service onDemand d).requiredCapability =
      some (applicationCapability service d.capability) := if_pos hmode
  obtain ⟨token, htoken, htests⟩ := regexpTests_handler sha256 hhandler hmode hrequired
  refine ⟨token, htests, ?_⟩
  have hline := newline_not_mem htoken
  unfold applicationCapability at hline
  simp only [List.mem_append, List.mem_cons, not_or] at hline
  have hservice := isIdentifier_of_schema hservice hline.1.2
  have hcapability := isIdentifier_of_schema hcapability hline.2.2
  have hchars := isGroupChar_applicationCapability hservice hcapability
  have hne : applicationCapability service d.capability ≠ [] :=
    applicationCapability_ne (by decide)
  rw [← not_or, ← dash_mem_applicationCapability]
  constructor
  · intro hadmits
    have hword : Word headerMarks (applicationCapability service d.capability) :=
      word_of_chars fun c hc => unmarked_of_groupChar (hchars c hc)
    have hnames : ∀ name ∈ [applicationCapability service d.capability],
        Word headerMarks name := by
      intro name hname
      rwa [List.mem_singleton.mp hname]
    have hdisabled : disabledGroup ∉ [applicationCapability service d.capability] := by
      rw [List.mem_singleton]
      exact (applicationCapability_ne (by decide)).symm
    have hmember := (hadmits _ _ hnames hdisabled (.single _)).member
    rw [matchString_iff htoken hchars hne hnames (.single _)] at hmember
    have hmeant := hmember.mpr (.inl List.mem_cons_self)
    rw [List.mem_singleton, List.mem_singleton] at hmeant
    obtain hmeant | hadmin := hmeant
    · refine not_dash_of_meant (fun hslash => ?_) hmeant
      exact absurd (hchars _ hslash) (by decide)
    · exact absurd hadmin.symm (applicationCapability_ne (by decide))
  · intro hdash names header hnames henabled hlists
    have hmatch := matchString_iff htoken hchars hne hnames hlists
    rw [meant_eq_self hdash] at hmatch
    exact ⟨hmatch, hmatch.trans (applicationCapabilityAllowed_iff hservice hcapability henabled).symm,
      hmatch.trans (portalAccess_iff hmode).symm⟩

/-! ## A service with a hyphen in its name -/

/-- An identity route for the default capability `access`. -/
def accessRoute (service : Text) : Route :=
  compileRoute service false ⟨"web".toList, .identity, "access".toList,
    .http "127.0.0.1".toList 8080, .path ["/app".toList], ⟨none, [], [], [], [], []⟩⟩

def accessDocument (service : Text) : Effective := ⟨[accessRoute service], fun _ ↦ true⟩

/-- The block is that of the route, and its test answers so for a user in one group. -/
def answers (r : Route) (group : Text) (answer : Bool) (h : Handle) : Bool :=
  match regexpTests h.directives with
  | [(name, token)] => h.entry.route = r && name = "X-Authentik-Groups".toList &&
      matchString (lexQuoted token) group = some answer
  | _ => false

theorem not_admitsExactly_dashed :
    ∃ sites, sitesOf (accessDocument "my-app".toList) = .ok sites ∧ ∃ s ∈ sites,
      ∃ h ∈ s.handles, h.entry.route = accessRoute "my-app".toList ∧
        ∃ token, regexpTests h.directives = [("X-Authentik-Groups".toList, token)] ∧
          ¬ AdmitsExactly token h.entry.route "access".toList := by
  obtain ⟨sites, hsites, s, hs, h, hh, hanswer⟩ := exists_handle
    (answers (accessRoute "my-app".toList) "application.my-app.access".toList false)
    (accessDocument "my-app".toList) (by decide +kernel)
  unfold answers at hanswer
  split at hanswer
  · rename_i name token htests
    simp only [Bool.and_eq_true, decide_eq_true_eq] at hanswer
    obtain ⟨⟨hroute, rfl⟩, hrefused⟩ := hanswer
    refine ⟨sites, hsites, s, hs, h, hh, hroute, token, htests, fun hadmits => ?_⟩
    have hword : Word headerMarks "application.my-app.access".toList :=
      word_of_chars (forall_mem_of_all (by decide +kernel))
    have hmember := (hadmits ["application.my-app.access".toList] _ (by simpa using hword)
      (by decide +kernel) (.single _)).member
    have hlisted : applicationCapability h.entry.route.service "access".toList ∈
        ["application.my-app.access".toList] := by
      rw [hroute]
      decide +kernel
    rw [hrefused] at hmember
    cases hmember.mpr (.inl hlisted)
  · cases hanswer

theorem admitsExactly_iff_app :
    ∃ sites, sitesOf (accessDocument "app".toList) = .ok sites ∧ ∃ s ∈ sites,
      ∃ h ∈ s.handles, ∃ token, regexpTests h.directives = [("X-Authentik-Groups".toList, token)] ∧
        AdmitsExactly token h.entry.route "access".toList := by
  obtain ⟨sites, hsites, s, hs, h, hh, hanswer⟩ := exists_handle
    (fun h ↦ h.entry.route = accessRoute "app".toList)
    (accessDocument "app".toList) (by decide +kernel)
  obtain ⟨token, htests, hiff⟩ := admitsExactly_iff .asciiOnly id hsites hs hh
    (of_decide_eq_true hanswer) rfl (by decide +kernel) (by decide +kernel)
  exact ⟨sites, hsites, s, hs, h, hh, token, htests, hiff.mpr (by decide +kernel)⟩

end NixNas.Caddy
