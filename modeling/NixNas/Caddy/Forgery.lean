import NixNas.Caddy.Headers

/-!
# Where identity headers come from

Every block first deletes the client's identity headers.  What reaches the upstream is then the
authenticator's answer, unless a static header carries a sign in front of an identity header's name:
such a field passes the check on static headers, which compares whole names.
-/

open Fallible Fields Percent Quote Regex

namespace NixNas.Caddy

/-! ## What the answer gives -/

def forwardedValue (answer : Headers) (header : Text) : List Text :=
  match remoteHeaders.find? fun x ↦ lower x.1 = lower header with
  | some x => [joined (answer.values x.2)]
  | none => if lower header ∈ authentikCopyHeaders.map lower then answer.values header else []

def removes (r : Route) (header : Text) : Bool :=
  lower header ∈ r.proxy.removeRequestHeaders.map lower

def answerValue (r : Route) (answer : Option Headers) (header : Text) : List Text :=
  if removes r header then []
  else
    match r.authMode, answer with
    | .identity, some answer => forwardedValue answer header
    | _, _ => []

/-- An identity header is required of the client, whose identity headers are gone by then. -/
def blocked (r : Route) : Bool := r.proxy.requireHeaders.any fun x ↦ isIdentityHeader x.1

def forwards (header : Text) : Bool :=
  lower header ∈ (authentikCopyHeaders ++ remoteHeaders.map Prod.fst).map lower

/-- The static headers leave the values of the header as they are. -/
def harmless (r : Route) (header : Text) : Bool :=
  if signs '-' r.proxy.requestHeaders header then
    r.authMode ≠ .identity || !forwards header || removes r header
  else !signs '+' r.proxy.requestHeaders header

section

variable {hs : Headers} {header : Text}

theorem lexQuoted_unquoted {t : Text} (h : t.head? ≠ some '"') : lexQuoted t = t := by
  unfold lexQuoted
  split
  · exact absurd rfl h
  · rfl

theorem expand_placeholder (source : Text) :
    expand hs (lexQuoted (headerPlaceholder source)) = joined (hs.values source) := by
  have hname : placeholderName (headerPlaceholder source) = some source := by
    have hprefix : "\x7bhttp.request.header.".toList.isPrefixOf
        ("\x7bhttp.request.header.".toList ++ (source ++ ['}'])) = true :=
      List.isPrefixOf_iff_prefix.mpr (List.prefix_append _ _)
    unfold placeholderName headerPlaceholder
    rw [List.append_assoc, hprefix, ← List.append_assoc, List.getLast?_concat, List.append_assoc,
      List.drop_left, List.dropLast_concat]
    rfl
  have hhead : (headerPlaceholder source).head? = some '\x7b' := rfl
  rw [lexQuoted_unquoted (by rw [hhead]; decide)]
  unfold expand
  rw [hname]

theorem values_applyAll_placeholders {items : List (Text × Text)}
    (hunsigned : ∀ x ∈ items, x.1.head? ≠ some '-' ∧ x.1.head? ≠ some '+')
    (hdistinct : items.Pairwise fun x y ↦ lower x.1 ≠ lower y.1)
    (hsources : ∀ x ∈ items, ∀ y ∈ items, lower y.2 ≠ lower x.1) :
    (applyAll (items.map fun x ↦ (x.1, headerPlaceholder x.2)) hs).values header =
      match items.find? fun x ↦ lower x.1 = lower header with
      | some x => [joined (hs.values x.2)]
      | none => hs.values header := by
  induction items generalizing hs with
  | nil => rfl
  | cons x items ih =>
    obtain ⟨hminus, hplus⟩ := hunsigned x List.mem_cons_self
    rw [List.pairwise_cons] at hdistinct
    have ih := @ih (hs.set x.1 (joined (hs.values x.2)))
      (fun y hy => hunsigned y (List.mem_cons_of_mem x hy)) hdistinct.2
      fun y hy z hz => hsources y (List.mem_cons_of_mem x hy) z (List.mem_cons_of_mem x hz)
    have hset : applyHeader hs x.1 (some (headerPlaceholder x.2)) =
        hs.set x.1 (joined (hs.values x.2)) := by
      rw [applyHeader_unsigned hminus hplus]
      exact congrArg _ (expand_placeholder x.2)
    rw [List.map_cons, applyAll_cons, hset, ih]
    by_cases hx : lower x.1 = lower header
    · have hnone : items.find? (fun y ↦ lower y.1 = lower header) = none := by
        rw [List.find?_eq_none]
        intro y hy heq
        exact hdistinct.1 y hy (hx.trans (of_decide_eq_true heq).symm)
      rw [hnone, List.find?_cons_of_pos (by simpa using hx)]
      exact values_set.trans (if_pos hx)
    · rw [List.find?_cons_of_neg (by simpa using hx)]
      cases hfind : items.find? fun y ↦ lower y.1 = lower header with
      | none => exact values_set.trans (if_neg hx)
      | some y =>
        have hy := List.mem_of_find?_eq_some hfind
        have hsource := hsources x List.mem_cons_self y (List.mem_cons_of_mem x hy)
        dsimp only
        rw [values_set, if_neg (Ne.symm hsource)]

theorem deleted_identity (hheader : header ∈ identityHeaders) :
    (hs.deleteAll identityHeaders).values header = [] :=
  (values_deleteAll identityHeaders).trans (if_pos (List.mem_map_of_mem hheader))

theorem values_setRemote (answer : Headers) (hheader : header ∈ identityHeaders) :
    (setRemote (copyHeaders answer authentikCopyHeaders (hs.deleteAll identityHeaders))).values
      header = forwardedValue answer header := by
  have hsource : ∀ x ∈ remoteHeaders, x.2 ∈ authentikCopyHeaders := by decide
  unfold setRemote forwardedValue
  rw [values_applyAll_placeholders (by decide) (by decide) (by decide)]
  cases hfind : remoteHeaders.find? fun x ↦ lower x.1 = lower header with
  | none =>
    dsimp only
    rw [values_copyHeaders, deleted_identity hheader]
  | some x =>
    have hx := hsource x (List.mem_of_find?_eq_some hfind)
    dsimp only
    rw [values_copyHeaders, if_pos (List.mem_map_of_mem hx)]

end

/-! ## What reaches the upstream -/

section

variable {sha256 : Text → Text} {r : Route} {authentikUpstream authentikPath : Text}
  {directives : List Directive} {authenticator : Headers → Option Headers} {request : Headers}
  {p : Progress}

theorem renderAuth_other (hmode : r.authMode ≠ .identity) :
    renderAuth r authentikUpstream authentikPath = .ok [] := by
  unfold renderAuth
  cases h : r.authMode with
  | identity => exact absurd h hmode
  | publicMode => rfl
  | upstream => rfl

theorem renderAuth_identity {auth : List Directive} (hmode : r.authMode = .identity)
    (h : renderAuth r authentikUpstream authentikPath = .ok auth) :
    ∃ capability, r.requiredCapability = some capability ∧
      renderIdentityAuth r.service r.route capability authentikUpstream authentikPath = .ok auth := by
  unfold renderAuth at h
  rw [hmode] at h
  dsimp only at h
  cases hcapability : r.requiredCapability with
  | none =>
    rw [hcapability] at h
    cases h
  | some capability =>
    rw [hcapability] at h
    dsimp only at h
    split at h
    · cases h
    · exact ⟨capability, rfl, h⟩

theorem Parts.values_at_upstream (parts : Parts sha256 r authentikUpstream authentikPath directives)
    (h : atUpstream authenticator directives request = some p) :
    ∃ hs : Headers, p.headers = applyAll parts.set hs ∧
      ∀ header ∈ identityHeaders, hs.values header = answerValue r p.answer header := by
  rw [parts.run] at h
  split at h
  · obtain ⟨q, hq, rfl⟩ := Option.map_eq_some_iff.mp h
    refine ⟨_, rfl, fun header hheader => ?_⟩
    unfold answerValue
    rw [values_deleteAll]
    by_cases hremoved : removes r header = true
    · rw [if_pos hremoved, if_pos (of_decide_eq_true hremoved)]
    · rw [if_neg hremoved, if_neg fun hmem => hremoved (decide_eq_true hmem)]
      by_cases hmode : r.authMode = .identity
      · obtain ⟨capability, -, hauth⟩ := renderAuth_identity hmode parts.auth_ok
        obtain ⟨token, -, hrun⟩ := run_identityAuth authenticator hauth
        rw [hrun] at hq
        obtain ⟨answer, -, hq⟩ := Option.bind_eq_some_iff.mp hq
        unfold authenticated at hq
        dsimp only at hq
        split at hq
        · obtain rfl := Option.some.inj hq
          rw [hmode]
          exact values_setRemote answer hheader
        · cases hq
      · have hauth : parts.auth = [] := by
          have hok := parts.auth_ok
          rw [renderAuth_other hmode] at hok
          exact (Except.ok.inj hok).symm
        rw [hauth, List.foldlM_nil] at hq
        obtain rfl := Option.some.inj hq
        rw [deleted_identity hheader]
        cases hcase : r.authMode with
        | identity => exact absurd hcase hmode
        | publicMode => rfl
        | upstream => rfl
  · cases h

theorem Parts.blocked_none (parts : Parts sha256 r authentikUpstream authentikPath directives)
    (hblocked : blocked r = true) : atUpstream authenticator directives request = none := by
  obtain ⟨x, hx, hidentity⟩ := List.any_eq_true.mp hblocked
  have hname := (perm_names_of_sorted parts.required_ok).mem_iff.mpr (List.mem_map_of_mem hx)
  obtain ⟨y, hy, hyx⟩ := List.mem_map.mp hname
  rw [parts.run, if_neg]
  intro hall
  have htest := List.all_eq_true.mp hall y hy
  obtain ⟨header, hheader, hlower⟩ := List.mem_map.mp (of_decide_eq_true hidentity)
  have hempty : (request.deleteAll identityHeaders).values y.1 = [] := by
    rw [hyx, values_congr hlower.symm]
    exact deleted_identity hheader
  unfold Test.holds at htest
  dsimp only at htest
  rw [hempty] at htest
  cases htest

end

/-! ## A request that reaches the upstream -/

def accepted (pattern : Text) : Text :=
  if pattern.head? = some '*' then
    if pattern.getLast? = some '*' then pattern.tail.dropLast else pattern.tail
  else if pattern.getLast? = some '*' then pattern.dropLast
  else pattern

theorem headerMatches_accepted (pattern : Text) : headerMatches pattern (accepted pattern) = true := by
  unfold headerMatches accepted
  split
  · split
    · exact decide_eq_true (List.infix_refl _)
    · exact List.isSuffixOf_iff_suffix.mpr (List.suffix_refl _)
  · split
    · exact List.isPrefixOf_iff_prefix.mpr (List.prefix_refl _)
    · exact decide_eq_true rfl

def memberRequest (r : Route) : Headers :=
  r.proxy.requireHeaders.map fun x ↦ (x.1, accepted (lexQuoted (jsonDumps x.2)))

def memberAnswer : Headers :=
  authentikCopyHeaders.map fun name ↦
    (name, if name = "X-Authentik-Groups".toList then adminGroup else "user".toList)

section

variable {sha256 : Text → Text} {r : Route} {authentikUpstream authentikPath : Text}
  {directives : List Directive}
variable {hs request : Headers} {name header : Text}

theorem values_of_mem {value : Text} (h : (name, value) ∈ hs) : value ∈ hs.values name :=
  List.mem_map.mpr ⟨(name, value), List.mem_filter.mpr ⟨h, by simp⟩, rfl⟩

theorem Parts.required_hold (parts : Parts sha256 r authentikUpstream authentikPath directives)
    (hblocked : blocked r = false) :
    (parts.required.all fun x ↦
      (Test.header x.1 x.2).holds ((memberRequest r).deleteAll identityHeaders)) = true := by
  rw [List.all_eq_true]
  intro y hy
  rw [quoted_eq parts.required_ok] at hy
  obtain ⟨x, hx, rfl⟩ := List.mem_map.mp hy
  have hmem : x ∈ r.proxy.requireHeaders := (List.mem_insertionSort _).mp hx
  have hidentity : isIdentityHeader x.1 = false := by
    unfold blocked at hblocked
    rw [List.any_eq_false] at hblocked
    simpa using hblocked x hmem
  have hkept : (x.1, accepted (lexQuoted (jsonDumps x.2))) ∈
      (memberRequest r).deleteAll identityHeaders :=
    List.mem_filter.mpr ⟨List.mem_map.mpr ⟨x, hmem, rfl⟩, decide_eq_true fun hlower => by
      have : isIdentityHeader x.1 = true := decide_eq_true hlower
      rw [hidentity] at this
      cases this⟩
  exact List.any_eq_true.mpr ⟨_, values_of_mem hkept, headerMatches_accepted _⟩

theorem values_memberAnswer (h : name ∈ authentikCopyHeaders) : memberAnswer.values name ≠ [] :=
  List.ne_nil_of_mem (values_of_mem (List.mem_map.mpr ⟨name, h, rfl⟩))

theorem forwardedValue_memberAnswer (h : forwards header = true) :
    forwardedValue memberAnswer header ≠ [] := by
  unfold forwards at h
  rw [decide_eq_true_eq, List.map_append, List.mem_append] at h
  unfold forwardedValue
  cases hfind : remoteHeaders.find? fun x ↦ lower x.1 = lower header with
  | some x => exact List.cons_ne_nil _ _
  | none =>
    obtain hcopied | hremote := h
    · dsimp only
      rw [if_pos hcopied]
      obtain ⟨name, hname, hlower⟩ := List.mem_map.mp hcopied
      rw [values_congr hlower.symm]
      exact values_memberAnswer hname
    · obtain ⟨name, hname, hlower⟩ := List.mem_map.mp hremote
      obtain ⟨x, hx, rfl⟩ := List.mem_map.mp hname
      have := List.find?_eq_none.mp hfind x hx
      exact absurd (decide_eq_true hlower) this

theorem authenticated_member {token capability : Text}
    (htoken : quote (allowedGroups capability) = .ok token)
    (hchars : ∀ c ∈ capability, isGroupChar c = true) (hne : capability ≠ []) :
    authenticated token memberAnswer hs =
      some ⟨setRemote (copyHeaders memberAnswer authentikCopyHeaders hs), some memberAnswer⟩ := by
  have hcopied {name : Text} (hname : name ∈ authentikCopyHeaders) :
      (copyHeaders memberAnswer authentikCopyHeaders hs).values name = memberAnswer.values name :=
    (values_copyHeaders memberAnswer authentikCopyHeaders).trans
      (if_pos (List.mem_map_of_mem hname))
  have huser : (Test.header "X-Authentik-Username".toList ['*']).holds
      (copyHeaders memberAnswer authentikCopyHeaders hs) = true := by
    unfold Test.holds
    dsimp only
    rw [hcopied (by decide)]
    decide
  have hgroup : (Test.headerRegexp "X-Authentik-Groups".toList token).holds
      (copyHeaders memberAnswer authentikCopyHeaders hs) = true := by
    have hmember : matchString (lexQuoted token) adminGroup = some true := by
      have hnames : ∀ name ∈ [adminGroup], Word headerMarks name := by
        intro name hname
        rw [List.mem_singleton.mp hname]
        exact word_adminGroup
      exact (matchString_iff htoken hchars hne hnames (.single _)).mpr
        (.inr List.mem_cons_self)
    unfold Test.holds
    dsimp only
    rw [hcopied (by decide)]
    exact List.any_eq_true.mpr ⟨adminGroup, by decide, decide_eq_true hmember⟩
  unfold authenticated
  dsimp only
  rw [huser, hgroup]
  rfl

theorem Parts.exists_reaching (parts : Parts sha256 r authentikUpstream authentikPath directives)
    (hblocked : blocked r = false)
    (hcapability : ∀ capability, r.requiredCapability = some capability →
      ∀ token, quote (allowedGroups capability) = .ok token →
        (∀ c ∈ capability, isGroupChar c = true) ∧ capability ≠ []) :
    ∃ p, atUpstream (fun _ ↦ some memberAnswer) directives (memberRequest r) = some p ∧
      (r.authMode = .identity → p.answer = some memberAnswer) := by
  rw [parts.run, if_pos (parts.required_hold hblocked)]
  by_cases hmode : r.authMode = .identity
  · obtain ⟨capability, hrequired, hauth⟩ := renderAuth_identity hmode parts.auth_ok
    obtain ⟨token, htoken, hrun⟩ := run_identityAuth (fun _ ↦ some memberAnswer) hauth
    obtain ⟨hchars, hne⟩ := hcapability capability hrequired token htoken
    rw [hrun, Option.bind_some, authenticated_member htoken hchars hne]
    exact ⟨_, rfl, fun _ => rfl⟩
  · have hauth : parts.auth = [] := by
      have hok := parts.auth_ok
      rw [renderAuth_other hmode] at hok
      exact (Except.ok.inj hok).symm
    rw [hauth, List.foldlM_nil]
    exact ⟨_, rfl, fun h => absurd h hmode⟩

/-! ## When identity headers cannot be forged -/

theorem harmless_iff : harmless r header = true ↔
    if signs '-' r.proxy.requestHeaders header = true then
      r.authMode ≠ .identity ∨ forwards header = false ∨ removes r header = true
    else signs '+' r.proxy.requestHeaders header = false := by
  unfold harmless
  split
  · simp only [Bool.or_eq_true, decide_eq_true_eq, Bool.not_eq_true', or_assoc]
  · rw [Bool.not_eq_true']

theorem forwardedValue_of_not_forwards {answer : Headers}
    (h : forwards header = false) : forwardedValue answer header = [] := by
  unfold forwards at h
  rw [decide_eq_false_iff_not, List.map_append, List.mem_append, not_or] at h
  have hnone : remoteHeaders.find? (fun x ↦ lower x.1 = lower header) = none := by
    rw [List.find?_eq_none]
    intro x hx hlower
    refine h.2 ?_
    rw [← of_decide_eq_true hlower]
    exact List.mem_map_of_mem (List.mem_map_of_mem hx)
  unfold forwardedValue
  rw [hnone]
  exact if_neg h.1

theorem answerValue_other (hmode : r.authMode ≠ .identity) (answer : Option Headers)
    (header : Text) : answerValue r answer header = [] := by
  unfold answerValue
  cases h : r.authMode with
  | identity => exact absurd h hmode
  | publicMode => split <;> rfl
  | upstream => split <;> rfl

theorem answerValue_of_deleted
    (h : r.authMode ≠ .identity ∨ forwards header = false ∨ removes r header = true)
    (answer : Option Headers) : answerValue r answer header = [] := by
  obtain hmode | hforwards | hremoved := h
  · exact answerValue_other hmode answer header
  · unfold answerValue
    split
    · rfl
    · split
      · exact forwardedValue_of_not_forwards hforwards
      · rfl
  · unfold answerValue
    rw [if_pos hremoved]

theorem Parts.values_harmless (parts : Parts sha256 r authentikUpstream authentikPath directives)
    (hheader : header ∈ identityHeaders) (hharmless : harmless r header = true)
    {authenticator : Headers → Option Headers} {p : Progress}
    (h : atUpstream authenticator directives request = some p) :
    p.headers.values header = answerValue r p.answer header := by
  obtain ⟨hs, hp, hvalues⟩ := parts.values_at_upstream h
  have hfields := field_ne_identity parts.set_ok parts.check_ok hheader
  rw [harmless_iff] at hharmless
  rw [hp, ← hvalues header hheader]
  split at hharmless
  · rename_i hminus
    rw [hvalues header hheader, answerValue_of_deleted hharmless]
    exact values_applyAll_minus hfields (signOrder_sorted parts.set_ok)
      ((signs_sorted parts.set_ok '-' header).trans hminus)
  · rename_i hminus
    exact values_applyAll_unsigned hfields
      ((signs_sorted parts.set_ok '-' header).trans (Bool.not_eq_true _ ▸ hminus))
      ((signs_sorted parts.set_ok '+' header).trans hharmless)

theorem renderHandler_withoutStatic
    (h : renderHandler sha256 r authentikUpstream authentikPath = .ok directives) :
    ∃ directives', renderHandler sha256 (r.withRequestHeaders []) authentikUpstream authentikPath =
      .ok directives' := by
  unfold renderHandler at h
  obtain ⟨required, hrequired, h⟩ := bind_ok h
  obtain ⟨auth, hauth, h⟩ := bind_ok h
  obtain ⟨proxy, hproxy, h⟩ := bind_ok h
  unfold renderProxy at hproxy
  obtain ⟨-, -, hproxy⟩ := bind_ok hproxy
  obtain ⟨removed, hremoved, hproxy⟩ := bind_ok hproxy
  obtain ⟨set, -, hproxy⟩ := bind_ok hproxy
  obtain ⟨⟨⟩, htrusted, hproxy⟩ := bind_ok hproxy
  obtain ⟨strip, hstrip, hproxy⟩ := bind_ok hproxy
  obtain ⟨upstream, hupstream, hproxy⟩ := bind_ok hproxy
  obtain ⟨down, hdown, hproxy⟩ := bind_ok hproxy
  have hrequired' : renderRequired (r.withRequestHeaders []) = .ok required := hrequired
  have hauth' : renderAuth (r.withRequestHeaders []) authentikUpstream authentikPath = .ok auth :=
    hauth
  have hproxy' : ∃ proxy', renderProxy sha256 (r.withRequestHeaders []) = .ok proxy' := by
    have hremoved' : (r.withRequestHeaders []).proxy.removeRequestHeaders.mapM headerName =
      .ok removed := hremoved
    have htrusted' : checkTrusted (r.withRequestHeaders []) = .ok () := htrusted
    have hstrip' : renderStrip (r.withRequestHeaders []).proxy.stripPrefix = .ok strip := hstrip
    have hupstream' : proxyUpstream sha256 (r.withRequestHeaders []) = .ok upstream := hupstream
    have hdown' : (sortedItems (r.withRequestHeaders []).proxy.responseHeaders).mapM quotedHeader =
      .ok down := hdown
    unfold renderProxy
    rw [hremoved', htrusted', hstrip', hupstream', hdown']
    exact ⟨_, rfl⟩
  obtain ⟨proxy', hproxy'⟩ := hproxy'
  unfold renderHandler
  rw [hrequired', hauth', hproxy']
  exact ⟨_, rfl⟩

theorem independent_of_render
    (h : renderHandler sha256 r authentikUpstream authentikPath = .ok directives)
    (authenticator : Headers → Option Headers) {request' : Headers}
    (hsame : SameButIdentity request request') :
    atUpstream authenticator directives request = atUpstream authenticator directives request' := by
  obtain ⟨parts⟩ := exists_parts h
  have hfilter (hs : Headers) :
      hs.deleteAll identityHeaders = hs.filter fun h ↦ !isIdentityHeader h.1 := by
    unfold Headers.deleteAll isIdentityHeader
    exact List.filter_congr fun x _ => decide_not
  rw [parts.run, parts.run, hfilter, hfilter, hsame]

theorem unforgeable_of_harmless
    (h : blocked r = true ∨ ∀ header ∈ identityHeaders, harmless r header = true) :
    Unforgeable sha256 authentikUpstream authentikPath r where
  independent directives hrender authenticator request request' hsame := by
    rw [independent_of_render hrender authenticator hsame]
  fromAnswer := by
    refine ⟨answerValue r, ?_, fun hmode answer name _ => answerValue_other hmode answer name⟩
    intro requestHeaders hstatic directives hrender authenticator request p hp name hname
    obtain ⟨parts⟩ := exists_parts hrender
    obtain hblocked | hharmless := h
    · have hnone : atUpstream authenticator directives request = none :=
        parts.blocked_none hblocked
      rw [hnone] at hp
      cases hp
    · simp only [List.mem_cons, List.not_mem_nil, or_false] at hstatic
      obtain rfl | rfl := hstatic
      · exact parts.values_harmless hname (hharmless name hname) hp
      · exact parts.values_harmless hname rfl hp

theorem harmless_of_unforgeable (h : Unforgeable sha256 authentikUpstream authentikPath r)
    (hrender : renderHandler sha256 r authentikUpstream authentikPath = .ok directives)
    (hcapability : ∀ capability, r.requiredCapability = some capability →
      ∀ token, quote (allowedGroups capability) = .ok token →
        (∀ c ∈ capability, isGroupChar c = true) ∧ capability ≠ [])
    (hblocked : blocked r = false) : ∀ header ∈ identityHeaders, harmless r header = true := by
  intro header hheader
  obtain ⟨value, hvalue, hpublic⟩ := h.fromAnswer
  obtain ⟨bare, hbare⟩ := renderHandler_withoutStatic hrender
  obtain ⟨parts⟩ := exists_parts hrender
  obtain ⟨bareParts⟩ := exists_parts hbare
  obtain ⟨p, hp, hanswer⟩ := parts.exists_reaching hblocked hcapability
  obtain ⟨q, hq, hanswer'⟩ := bareParts.exists_reaching hblocked hcapability
  have hpValue := hvalue _ List.mem_cons_self directives hrender _ _ p hp header hheader
  have hqValue := hvalue _ (List.mem_cons_of_mem _ List.mem_cons_self) bare hbare _ _ q hq header
    hheader
  rw [bareParts.values_harmless hheader rfl hq] at hqValue
  obtain ⟨hs, hpHeaders, hbase⟩ := parts.values_at_upstream hp
  have hfields := field_ne_identity parts.set_ok parts.check_ok hheader
  -- without static headers the value is the answer's, in both runs
  have hbaseValue : hs.values header = value p.answer header := by
    rw [hbase header hheader]
    by_cases hmode : r.authMode = .identity
    · rw [hanswer hmode, ← hanswer' hmode]
      exact hqValue
    · rw [hpublic hmode _ _ hheader]
      exact answerValue_other hmode _ _
  rw [harmless_iff]
  split
  · rename_i hminus
    have hdeleted : (applyAll parts.set hs).values header = [] := values_applyAll_minus hfields
      (signOrder_sorted parts.set_ok) ((signs_sorted parts.set_ok '-' header).trans hminus)
    rw [← hpHeaders, hpValue, ← hbaseValue, hbase header hheader] at hdeleted
    by_contra hforwarded
    simp only [not_or, not_not, Bool.not_eq_false] at hforwarded
    obtain ⟨hmode, hforwards, hremoved⟩ := hforwarded
    unfold answerValue at hdeleted
    rw [if_neg hremoved, hmode, hanswer hmode] at hdeleted
    exact forwardedValue_memberAnswer hforwards hdeleted
  · rename_i hminus
    by_contra hplus
    obtain ⟨extra, hne, hextra⟩ : ∃ extra, extra ≠ [] ∧ (applyAll parts.set hs).values header =
        hs.values header ++ extra := values_applyAll_plus hfields
      ((signs_sorted parts.set_ok '-' header).trans (Bool.not_eq_true _ ▸ hminus))
      ((signs_sorted parts.set_ok '+' header).trans (Bool.not_eq_false _ ▸ hplus))
    rw [← hpHeaders, hpValue, ← hbaseValue] at hextra
    exact hne (List.self_eq_append_right.mp hextra)

end

theorem capability_chars {service capability token : Text} {onDemand : Bool} {d : RouteDeclaration}
    (hservice : isSchemaId service = true) (hschema : isSchemaId d.capability = true)
    (hcapability : (compileRoute service onDemand d).requiredCapability = some capability)
    (htoken : quote (allowedGroups capability) = .ok token) :
    (∀ c ∈ capability, isGroupChar c = true) ∧ capability ≠ [] := by
  unfold compileRoute at hcapability
  dsimp only at hcapability
  split at hcapability
  · cases hcapability
    have hline := newline_not_mem htoken
    unfold applicationCapability at hline
    simp only [List.mem_append, List.mem_cons, not_or] at hline
    exact ⟨isGroupChar_applicationCapability (isIdentifier_of_schema hservice hline.1.2)
      (isIdentifier_of_schema hschema hline.2.2), applicationCapability_ne (by decide)⟩
  · cases hcapability

/-- The identity headers of a generated block come from the authenticator, exactly when nothing
reaches the upstream or no static header matters to them. -/
theorem unforgeable_iff (cf : CaseFold) (sha256 : Text → Text) {effective : Effective}
    {authentikUpstream authentikPath lanHost : Text} {sites : List Site}
    (hsites : generateSites cf sha256 effective authentikUpstream authentikPath lanHost =
      .ok sites) {s : Site} (hs : s ∈ sites) {h : Handle} (hh : h ∈ s.handles) {service : Text}
    {onDemand : Bool} {d : RouteDeclaration}
    (hroute : h.entry.route = compileRoute service onDemand d)
    (hservice : isSchemaId service = true) (hcapability : isSchemaId d.capability = true) :
    Unforgeable sha256 authentikUpstream authentikPath h.entry.route ↔
      blocked h.entry.route = true ∨
        ∀ header ∈ identityHeaders, harmless h.entry.route header = true := by
  have hrender := handler_of_generateSites cf sha256 hsites hs hh
  refine ⟨fun hunforgeable => ?_, unforgeable_of_harmless⟩
  cases hblocked : blocked h.entry.route with
  | true => exact .inl rfl
  | false =>
    refine .inr (harmless_of_unforgeable hunforgeable hrender ?_ hblocked)
    rw [hroute]
    exact fun capability hrequired token htoken =>
      capability_chars hservice hcapability hrequired htoken

/-! ## A static header with a sign -/

def staticRoute (name : Text) : Route :=
  compileRoute "app".toList false ⟨"web".toList, .publicMode, "access".toList,
    .http "127.0.0.1".toList 8080, .path ["/app".toList],
    ⟨none, [(name, "admin".toList)], [], [], [], []⟩⟩

def staticDocument (name : Text) : Effective := ⟨[staticRoute name], fun _ ↦ true⟩

/-- A request without headers reaches the upstream with this user name. -/
def sendsUser (r : Route) (user : Text) (h : Handle) : Bool :=
  h.entry.route = r &&
    match atUpstream (fun _ ↦ none) h.directives [] with
    | some p => p.headers.values "Remote-User".toList = [user]
    | none => false

theorem not_unforgeable_plus :
    ∃ sites, sitesOf (staticDocument "+Remote-User".toList) = .ok sites ∧ ∃ s ∈ sites,
      ∃ h ∈ s.handles, h.entry.route = staticRoute "+Remote-User".toList ∧
        ¬ Unforgeable id "127.0.0.1:9010".toList "/identity/".toList h.entry.route := by
  obtain ⟨sites, hsites, s, hs, h, hh, hsends⟩ := exists_handle
    (sendsUser (staticRoute "+Remote-User".toList) "admin".toList)
    (staticDocument "+Remote-User".toList) (by decide)
  unfold sendsUser at hsends
  rw [Bool.and_eq_true, decide_eq_true_eq] at hsends
  obtain ⟨hroute, hsends⟩ := hsends
  refine ⟨sites, hsites, s, hs, h, hh, hroute, fun hunforgeable => ?_⟩
  have hrender := handler_of_generateSites .asciiOnly id hsites hs hh
  obtain ⟨value, hvalue, hpublic⟩ := hunforgeable.fromAnswer
  split at hsends
  · rename_i p hp
    have hmem : "Remote-User".toList ∈ identityHeaders := List.mem_cons_self
    have hforged := hvalue _ List.mem_cons_self _ hrender _ _ p hp _ hmem
    rw [of_decide_eq_true hsends, hpublic (by rw [hroute]; decide) _ _ hmem] at hforged
    cases hforged
  · cases hsends

theorem unforgeable_iff_frame :
    ∃ sites, sitesOf (staticDocument "X-Frame".toList) = .ok sites ∧ ∃ s ∈ sites,
      ∃ h ∈ s.handles, h.entry.route = staticRoute "X-Frame".toList ∧
        Unforgeable id "127.0.0.1:9010".toList "/identity/".toList h.entry.route := by
  obtain ⟨sites, hsites, s, hs, h, hh, hroute⟩ := exists_handle
    (fun h ↦ h.entry.route = staticRoute "X-Frame".toList)
    (staticDocument "X-Frame".toList) (by decide)
  have hroute := of_decide_eq_true hroute
  refine ⟨sites, hsites, s, hs, h, hh, hroute, (unforgeable_iff .asciiOnly id hsites hs hh hroute
    (by decide) (by decide)).mpr (.inr ?_)⟩
  rw [hroute]
  decide

end NixNas.Caddy
