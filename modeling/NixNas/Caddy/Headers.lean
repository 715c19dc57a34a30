import Mathlib.Data.List.Infix
import NixNas.Caddy.Groups

/-!
# Which identity headers reach the upstream

The directives of a handle block run in order on the headers of a request.  Header names are
compared without regard to case.
-/

open Fallible Fields Percent Quote Regex

namespace NixNas.Caddy

/-! ## Running the directives -/

abbrev Headers := List (Text × Text)

def Headers.values (hs : Headers) (name : Text) : List Text :=
  (hs.filter fun h ↦ lower h.1 = lower name).map Prod.snd

def Headers.deleteAll (hs : Headers) (names : List Text) : Headers :=
  hs.filter fun h ↦ lower h.1 ∉ names.map lower

def Headers.add (hs : Headers) (name value : Text) : Headers := hs ++ [(name, value)]

def Headers.set (hs : Headers) (name value : Text) : Headers := (hs.deleteAll [name]).add name value

def joined (values : List Text) : Text := [','].intercalate values

def placeholderName (value : Text) : Option Text :=
  if "\x7bhttp.request.header.".toList.isPrefixOf value && value.getLast? = some '\x7d' then
    some (value.drop "\x7bhttp.request.header.".toList.length).dropLast
  else none

def expand (hs : Headers) (value : Text) : Text :=
  match placeholderName value with
  | some name => joined (hs.values name)
  | none => value

/-- `request_header`: a sign in front of the name says whether to delete or to add. -/
def applyHeader (hs : Headers) (field : Text) (value : Option Text) : Headers :=
  match field with
  | '-' :: name => hs.deleteAll [name]
  | '+' :: name => hs.add name (expand hs (lexQuoted (value.getD [])))
  | name => hs.set name (expand hs (lexQuoted (value.getD [])))

/-- A value against the value of a `header` matcher, where a star stands at either end. -/
def headerMatches (pattern actual : Text) : Bool :=
  if pattern.head? = some '*' then
    if pattern.getLast? = some '*' then decide (pattern.tail.dropLast <:+: actual)
    else pattern.tail.isSuffixOf actual
  else if pattern.getLast? = some '*' then pattern.dropLast.isPrefixOf actual
  else pattern = actual

def Test.holds (hs : Headers) : Test → Bool
  | .header name value => (hs.values name).any (headerMatches (lexQuoted value))
  | .headerRegexp name pattern =>
    (hs.values name).any fun value ↦ matchString (lexQuoted pattern) value = some true

def copyHeaders (answer : Headers) (names : List Text) (hs : Headers) : Headers :=
  names.foldl (fun hs name ↦ hs.deleteAll [name] ++ (answer.values name).map (name, ·)) hs

/-- The headers of the request, and the answer of the authenticator once there is one. -/
structure Progress where
  headers : Headers
  answer : Option Headers
  deriving DecidableEq, Repr

section

-- what the authenticator answers to a request with these headers; `none` where it refuses
variable (authenticator : Headers → Option Headers)

/-- One directive; `none` where the request is answered and goes no further. -/
def evaluate (p : Progress) : Directive → Option Progress
  | .requestHeader field value => some { p with headers := applyHeader p.headers field value }
  | .respondUnless _ test => if test.holds p.headers then some p else none
  | .forwardAuth _ _ names =>
    (authenticator p.headers).map fun answer ↦ ⟨copyHeaders answer names p.headers, some answer⟩
  | .stripPrefix _ => some p
  -- the last directive of every block: the request goes to the upstream
  | .reverseProxy _ _ _ => some p

def atUpstream (directives : List Directive) (request : Headers) : Option Progress :=
  directives.foldlM (evaluate authenticator) ⟨request, none⟩

end

/-! ## Identity headers at the upstream -/

def SameButIdentity (hs hs' : Headers) : Prop :=
  hs.filter (fun h ↦ !isIdentityHeader h.1) = hs'.filter fun h ↦ !isIdentityHeader h.1

def identityValues (p : Progress) : List (List Text) := identityHeaders.map p.headers.values

def Route.withRequestHeaders (r : Route) (requestHeaders : List (Text × Text)) : Route :=
  { r with proxy := { r.proxy with requestHeaders } }

/-- The identity headers at the upstream come from the authenticator. -/
structure Unforgeable (sha256 : Text → Text) (authentikUpstream authentikPath : Text)
    (r : Route) : Prop where
  /-- The client's identity headers make no difference. -/
  independent : ∀ directives,
    renderHandler sha256 r authentikUpstream authentikPath = .ok directives →
    ∀ authenticator request request', SameButIdentity request request' →
      (atUpstream authenticator directives request).map identityValues =
        (atUpstream authenticator directives request').map identityValues
  /-- Nor do the static headers: the values are a function of the answer, the same one as without
  static headers, and there are none where nobody is asked. -/
  fromAnswer : ∃ value : Option Headers → Text → List Text,
    (∀ requestHeaders ∈ [r.proxy.requestHeaders, []], ∀ directives,
      renderHandler sha256 (r.withRequestHeaders requestHeaders) authentikUpstream authentikPath =
        .ok directives →
      ∀ authenticator request p, atUpstream authenticator directives request = some p →
        ∀ name ∈ identityHeaders, p.headers.values name = value p.answer name) ∧
    (r.authMode ≠ .identity → ∀ answer, ∀ name ∈ identityHeaders, value answer name = [])

/-! ## Values of a header -/

section

variable {hs : Headers} {name name' value : Text}

theorem values_congr (h : lower name = lower name') : hs.values name = hs.values name' := by
  unfold Headers.values
  rw [h]

theorem values_append (hs hs' : Headers) (name : Text) :
    Headers.values (hs ++ hs') name = hs.values name ++ Headers.values hs' name := by
  simp [Headers.values]

theorem values_deleteAll (names : List Text) :
    (hs.deleteAll names).values name =
      if lower name ∈ names.map lower then [] else hs.values name := by
  unfold Headers.values Headers.deleteAll
  rw [List.filter_filter]
  split
  · rename_i hmem
    have hnone : ∀ h ∈ hs,
        ¬ (decide (lower h.1 = lower name) && decide (lower h.1 ∉ names.map lower)) = true := by
      intro h _ hboth
      rw [Bool.and_eq_true, decide_eq_true_eq, decide_eq_true_eq] at hboth
      exact hboth.2 (hboth.1 ▸ hmem)
    rw [List.filter_eq_nil_iff.mpr hnone]
    rfl
  · rename_i hmem
    congr 1
    refine List.filter_congr fun h _ => ?_
    by_cases heq : lower h.1 = lower name
    · rw [heq]
      simp [hmem]
    · simp [heq]

theorem values_delete : (hs.deleteAll [name']).values name =
    if lower name = lower name' then [] else hs.values name := by
  rw [values_deleteAll]
  simp

theorem values_singleton : Headers.values [(name', value)] name =
    if lower name' = lower name then [value] else [] := by
  unfold Headers.values
  by_cases h : lower name' = lower name <;> simp [h]

theorem values_add : (hs.add name' value).values name =
    hs.values name ++ if lower name' = lower name then [value] else [] := by
  unfold Headers.add
  rw [values_append, values_singleton]

theorem values_set : (hs.set name' value).values name =
    if lower name' = lower name then [value] else hs.values name := by
  unfold Headers.set
  rw [values_add, values_delete]
  by_cases h : lower name' = lower name
  · rw [if_pos h.symm, if_pos h, if_pos h]
    rfl
  · rw [if_neg (Ne.symm h), if_neg h, if_neg h, List.append_nil]

theorem values_map (values : List Text) :
    Headers.values (values.map (name', ·)) name =
      if lower name' = lower name then values else [] := by
  induction values with
  | nil => simp [Headers.values]
  | cons v values ih =>
    rw [List.map_cons, ← List.singleton_append, values_append, values_singleton, ih]
    split <;> rfl

theorem values_copyHeaders (answer : Headers) (names : List Text) :
    (copyHeaders answer names hs).values name =
      if lower name ∈ names.map lower then answer.values name else hs.values name := by
  unfold copyHeaders
  induction names generalizing hs with
  | nil => rfl
  | cons n names ih =>
    rw [List.foldl_cons, ih, values_append, values_delete, values_map, List.map_cons]
    by_cases hmem : lower name ∈ names.map lower
    · rw [if_pos hmem, if_pos (List.mem_cons_of_mem _ hmem)]
    · rw [if_neg hmem]
      by_cases heq : lower name = lower n
      · rw [if_pos heq, if_pos heq.symm, if_pos (List.mem_cons.mpr (.inl heq)), values_congr heq]
        rfl
      · have hnone : lower name ∉ lower n :: names.map lower := by
          rw [List.mem_cons, not_or]
          exact ⟨heq, hmem⟩
        rw [if_neg heq, if_neg (Ne.symm heq), if_neg hnone, List.append_nil]

end

/-! ## The parts of a block -/

section

variable (authenticator : Headers → Option Headers)
variable {authentikUpstream authentikPath : Text} {directives : List Directive}

theorem deleteAll_nil (hs : Headers) : hs.deleteAll [] = hs :=
  List.filter_eq_self.mpr fun _ _ => by simp

theorem deleteAll_cons (hs : Headers) (name : Text) (names : List Text) :
    (hs.deleteAll [name]).deleteAll names = hs.deleteAll (name :: names) := by
  unfold Headers.deleteAll
  rw [List.filter_filter]
  refine List.filter_congr fun h _ => ?_
  by_cases heq : lower h.1 = lower name <;> simp [heq]

theorem run_deletes (names : List Text) (p : Progress) :
    (names.map deleteHeader).foldlM (evaluate authenticator) p =
      some { p with headers := p.headers.deleteAll names } := by
  induction names generalizing p with
  | nil =>
    rw [deleteAll_nil]
    rfl
  | cons name names ih =>
    rw [← deleteAll_cons]
    exact ih _

/-- The headers after static headers, which are a name and a quoted value. -/
def applyAll (set : List (Text × Text)) (hs : Headers) : Headers :=
  set.foldl (fun hs x ↦ applyHeader hs x.1 (some x.2)) hs

theorem run_sets (set : List (Text × Text)) (p : Progress) :
    (set.map fun x ↦ Directive.requestHeader x.1 (some x.2)).foldlM (evaluate authenticator) p =
      some { p with headers := applyAll set p.headers } := by
  induction set generalizing p with
  | nil => rfl
  | cons x set ih => exact ih _

/-- The checks on required headers, as `renderRequired` numbers them. -/
def requiredTests (r : Route) (required : List (Text × Text)) : List Directive :=
  required.zipIdx.map fun ((name, value), index) ↦
    .respondUnless (matcherName r.service r.route ("missing_required_".toList ++
      (toString index).toList)) (.header name value)

theorem run_tests {ι : Type} (items : List ι) (matcher : ι → Text) (test : ι → Test)
    (p : Progress) :
    (items.map fun x ↦ Directive.respondUnless (matcher x) (test x)).foldlM
        (evaluate authenticator) p =
      if items.all fun x ↦ (test x).holds p.headers then some p else none := by
  induction items with
  | nil => rfl
  | cons x items ih =>
    rw [List.map_cons, List.foldlM_cons, List.all_cons, evaluate]
    cases (test x).holds p.headers with
    | false => rfl
    | true => exact ih

theorem run_required (r : Route) (required : List (Text × Text)) (p : Progress) :
    (requiredTests r required).foldlM (evaluate authenticator) p =
      if required.all fun x ↦ (Test.header x.1 x.2).holds p.headers then some p else none := by
  have hall : (required.zipIdx.all fun x ↦ (Test.header x.1.1 x.1.2).holds p.headers) =
      required.all fun x ↦ (Test.header x.1 x.2).holds p.headers := by
    conv_rhs => rw [← List.zipIdx_map_fst 0 required]
    rw [List.all_map]
    rfl
  rw [← hall]
  exact run_tests authenticator required.zipIdx _ (fun x ↦ .header x.1.1 x.1.2) p

def setRemote (hs : Headers) : Headers :=
  applyAll (remoteHeaders.map fun (name, source) ↦ (name, headerPlaceholder source)) hs

def authenticated (token : Text) (answer hs : Headers) : Option Progress :=
  let copied := copyHeaders answer authentikCopyHeaders hs
  if (Test.header "X-Authentik-Username".toList ['*']).holds copied &&
      (Test.headerRegexp "X-Authentik-Groups".toList token).holds copied then
    some ⟨setRemote copied, some answer⟩
  else none

theorem run_identityAuth {service route capability : Text}
    (h : renderIdentityAuth service route capability authentikUpstream authentikPath =
      .ok directives) :
    ∃ token, quote (allowedGroups capability) = .ok token ∧ ∀ hs,
      directives.foldlM (evaluate authenticator) ⟨hs, none⟩ =
        (authenticator (hs.deleteAll identityHeaders)).bind fun answer ↦
          authenticated token answer (hs.deleteAll identityHeaders) := by
  obtain ⟨uri, token, htoken, rfl⟩ := renderIdentityAuth_ok h
  refine ⟨token, htoken, fun hs => ?_⟩
  rw [List.foldlM_append, List.foldlM_append, run_deletes]
  simp only [Option.bind_eq_bind, Option.bind_some, List.foldlM_cons, List.foldlM_nil, evaluate]
  cases authenticator (hs.deleteAll identityHeaders) with
  | none => rfl
  | some answer =>
    simp only [Option.map_some, Option.bind_some]
    unfold authenticated
    dsimp only
    generalize copyHeaders answer authentikCopyHeaders (hs.deleteAll identityHeaders) = copied
    have hremote := run_sets authenticator
      (remoteHeaders.map fun (name, source) ↦ (name, headerPlaceholder source))
      ⟨copied, some answer⟩
    by_cases huser : (Test.header "X-Authentik-Username".toList ['*']).holds copied = true
    · rw [if_pos huser, Option.bind_some]
      by_cases hgroup : (Test.headerRegexp "X-Authentik-Groups".toList token).holds copied = true
      · rw [if_pos hgroup, huser, hgroup]
        exact hremote
      · rw [if_neg hgroup, if_neg (fun hboth => hgroup (Bool.and_eq_true_iff.mp hboth).2)]
        rfl
    · rw [if_neg huser, if_neg (fun hboth => huser (Bool.and_eq_true_iff.mp hboth).1)]
      rfl

structure Parts (sha256 : Text → Text) (r : Route) (authentikUpstream authentikPath : Text)
    (directives : List Directive) where
  required : List (Text × Text)
  auth : List Directive
  set : List (Text × Text)
  required_ok : (sortedItems r.proxy.requireHeaders).mapM quotedHeader = .ok required
  auth_ok : renderAuth r authentikUpstream authentikPath = .ok auth
  set_ok : (sortedItems r.proxy.requestHeaders).mapM quotedHeader = .ok set
  check_ok : checkRequestHeaders r.proxy.requestHeaders = .ok ()
  run : ∀ authenticator request, atUpstream authenticator directives request =
    if required.all fun x ↦ (Test.header x.1 x.2).holds (request.deleteAll identityHeaders) then
      (auth.foldlM (evaluate authenticator) ⟨request.deleteAll identityHeaders, none⟩).map fun p ↦
        { p with headers := applyAll set (p.headers.deleteAll r.proxy.removeRequestHeaders) }
    else none

theorem exists_parts {sha256 : Text → Text} {r : Route}
    (h : renderHandler sha256 r authentikUpstream authentikPath = .ok directives) :
    Nonempty (Parts sha256 r authentikUpstream authentikPath directives) := by
  unfold renderHandler at h
  obtain ⟨tests, htests, h⟩ := bind_ok h
  obtain ⟨auth, hauth, h⟩ := bind_ok h
  obtain ⟨proxy, hproxy, h⟩ := bind_ok h
  cases h
  unfold renderRequired at htests
  obtain ⟨required, hrequired, htests⟩ := bind_ok htests
  cases htests
  obtain ⟨hcheck, set, strip, upstream, down, hset, hstrip, rfl⟩ := renderProxy_ok sha256 hproxy
  refine ⟨⟨required, auth, set, hrequired, hauth, hset, hcheck, fun authenticator request => ?_⟩⟩
  have hrequiredRun := run_required authenticator r required
    ⟨request.deleteAll identityHeaders, none⟩
  have hlast (p : Progress) : (strip ++ [Directive.reverseProxy upstream down r.target.isHttps]).foldlM
      (evaluate authenticator) p = some p := by
    obtain rfl | ⟨token, rfl⟩ := renderStrip_ok hstrip
    · rfl
    · rfl
  unfold atUpstream
  rw [List.foldlM_append, List.foldlM_append, List.foldlM_append, run_deletes]
  simp only [Option.bind_eq_bind, Option.bind_some]
  unfold requiredTests at hrequiredRun
  rw [hrequiredRun]
  split
  · rw [Option.bind_some]
    cases auth.foldlM (evaluate authenticator) ⟨request.deleteAll identityHeaders, none⟩ with
    | none => rfl
    | some p =>
      rw [Option.bind_some, List.append_assoc, List.foldlM_append, List.foldlM_append, run_deletes]
      simp only [Option.bind_eq_bind, Option.bind_some, Option.map_some]
      rw [run_sets, Option.bind_some, hlast]
  · rfl

end

/-! ## Static headers -/

def signedBy (sign : Char) (field header : Text) : Bool :=
  match field with
  | [] => false
  | c :: name => c = sign && lower name = lower header

/-- Static headers that carry the sign in front of the name of the header. -/
def signs (sign : Char) (items : List (Text × Text)) (header : Text) : Bool :=
  items.any fun x ↦ signedBy sign x.1 header

section

variable {hs : Headers} {header field : Text} {value : Option Text}
variable {set : List (Text × Text)}

theorem applyHeader_unsigned (hminus : field.head? ≠ some '-') (hplus : field.head? ≠ some '+') :
    applyHeader hs field value = hs.set field (expand hs (lexQuoted (value.getD []))) := by
  unfold applyHeader
  split
  · exact absurd rfl hminus
  · exact absurd rfl hplus
  · rfl

theorem values_applyHeader_minus (h : signedBy '-' field header = true) :
    (applyHeader hs field value).values header = [] := by
  cases field with
  | nil => cases h
  | cons c name =>
    unfold signedBy at h
    simp only [Bool.and_eq_true, decide_eq_true_eq] at h
    obtain ⟨rfl, hname⟩ := h
    exact values_delete.trans (if_pos hname.symm)

theorem values_applyHeader_plus (h : signedBy '+' field header = true) :
    ∃ v, (applyHeader hs field value).values header = hs.values header ++ [v] := by
  cases field with
  | nil => cases h
  | cons c name =>
    unfold signedBy at h
    simp only [Bool.and_eq_true, decide_eq_true_eq] at h
    obtain ⟨rfl, hname⟩ := h
    refine ⟨expand hs (lexQuoted (value.getD [])), values_add.trans ?_⟩
    rw [if_pos hname]

theorem values_applyHeader_other (hfield : lower field ≠ lower header)
    (hminus : signedBy '-' field header = false) (hplus : signedBy '+' field header = false) :
    (applyHeader hs field value).values header = hs.values header := by
  unfold applyHeader
  split
  · rename_i name
    simp only [signedBy, decide_true, Bool.true_and, decide_eq_false_iff_not] at hminus
    exact values_delete.trans (if_neg (Ne.symm hminus))
  · rename_i name
    simp only [signedBy, decide_true, Bool.true_and, decide_eq_false_iff_not] at hplus
    rw [values_add, if_neg hplus, List.append_nil]
  · exact values_set.trans (if_neg hfield)

theorem applyAll_cons (x : Text × Text) (set : List (Text × Text)) (hs : Headers) :
    applyAll (x :: set) hs = applyAll set (applyHeader hs x.1 (some x.2)) := rfl

theorem values_applyAll_unsigned
    (hfields : ∀ x ∈ set, lower x.1 ≠ lower header) (hminus : signs '-' set header = false)
    (hplus : signs '+' set header = false) :
    (applyAll set hs).values header = hs.values header := by
  induction set generalizing hs with
  | nil => rfl
  | cons x set ih =>
    unfold signs at hminus hplus
    rw [List.any_cons, Bool.or_eq_false_iff] at hminus hplus
    rw [applyAll_cons, ih (fun y hy => hfields y (List.mem_cons_of_mem x hy)) hminus.2 hplus.2,
      values_applyHeader_other (hfields x List.mem_cons_self) hminus.1 hplus.1]

theorem values_applyAll_plus
    (hfields : ∀ x ∈ set, lower x.1 ≠ lower header) (hminus : signs '-' set header = false)
    (hplus : signs '+' set header = true) :
    ∃ extra, extra ≠ [] ∧ (applyAll set hs).values header = hs.values header ++ extra := by
  induction set generalizing hs with
  | nil => cases hplus
  | cons x set ih =>
    have hrest := fun y hy => hfields y (List.mem_cons_of_mem x hy)
    unfold signs at hminus hplus
    rw [List.any_cons, Bool.or_eq_false_iff] at hminus
    rw [List.any_cons, Bool.or_eq_true] at hplus
    rw [applyAll_cons]
    cases htail : signs '+' set header with
    | true =>
      obtain ⟨extra, hne, hvalues⟩ := @ih (applyHeader hs x.1 (some x.2)) hrest hminus.2 htail
      rw [hvalues]
      cases hhead : signedBy '+' x.1 header with
      | true =>
        obtain ⟨v, hv⟩ : ∃ v, (applyHeader hs x.1 (some x.2)).values header =
            hs.values header ++ [v] := values_applyHeader_plus hhead
        exact ⟨[v] ++ extra, by simp, by rw [hv, List.append_assoc]⟩
      | false =>
        rw [values_applyHeader_other (hfields x List.mem_cons_self) hminus.1 hhead]
        exact ⟨extra, hne, rfl⟩
    | false =>
      have hhead : signedBy '+' x.1 header = true := hplus.resolve_right fun h => by
        unfold signs at htail
        rw [htail] at h
        cases h
      obtain ⟨v, hv⟩ : ∃ v, (applyHeader hs x.1 (some x.2)).values header =
          hs.values header ++ [v] := values_applyHeader_plus hhead
      rw [values_applyAll_unsigned hrest hminus.2 htail, hv]
      exact ⟨[v], by simp, rfl⟩

def SignOrder (x y : Text × Text) : Prop := x.1.head? = some '-' → y.1.head? ≠ some '+'

theorem values_applyAll_minus
    (hfields : ∀ x ∈ set, lower x.1 ≠ lower header) (horder : set.Pairwise SignOrder)
    (hminus : signs '-' set header = true) : (applyAll set hs).values header = [] := by
  induction set generalizing hs with
  | nil => cases hminus
  | cons x set ih =>
    have hrest := fun y hy => hfields y (List.mem_cons_of_mem x hy)
    rw [List.pairwise_cons] at horder
    rw [applyAll_cons]
    cases htail : signs '-' set header with
    | true => exact ih hrest horder.2 htail
    | false =>
      have hhead : signedBy '-' x.1 header = true := by
        unfold signs at hminus htail
        rw [List.any_cons, htail, Bool.or_false] at hminus
        exact hminus
      have hplus : signs '+' set header = false := by
        unfold signs
        rw [List.any_eq_false]
        intro y hy hsigned
        have hsign {sign : Char} {field : Text} (h : signedBy sign field header = true) :
            field.head? = some sign := by
          cases field with
          | nil => cases h
          | cons c name =>
            unfold signedBy at h
            simp only [Bool.and_eq_true, decide_eq_true_eq] at h
            rw [h.1]
            rfl
        exact horder.1 y hy (hsign hhead) (hsign hsigned)
      rw [values_applyAll_unsigned hrest htail hplus, values_applyHeader_minus hhead]

end

section

variable {items set : List (Text × Text)}
variable {x y : Text × Text} {name : Text}

theorem quotedHeader_ok (h : quotedHeader x = .ok y) : y = (x.1, jsonDumps x.2) := by
  unfold quotedHeader at h
  obtain ⟨name, hname, h⟩ := bind_ok h
  obtain ⟨value, hvalue, h⟩ := bind_ok h
  cases h
  unfold headerName at hname
  split at hname
  · cases hname
  · rw [quote_ok hvalue, Except.ok.inj hname]

theorem quoted_eq (h : items.mapM quotedHeader = .ok set) :
    set = items.map fun x ↦ (x.1, jsonDumps x.2) :=
  mapM_eq_map (fun _ _ => quotedHeader_ok) h

theorem names_of_quoted (h : items.mapM quotedHeader = .ok set) :
    set.map Prod.fst = items.map Prod.fst := by
  rw [quoted_eq h, List.map_map]
  rfl

theorem perm_names_of_sorted (h : (sortedItems items).mapM quotedHeader = .ok set) :
    (set.map Prod.fst).Perm (items.map Prod.fst) := by
  rw [names_of_quoted h]
  exact (List.perm_insertionSort _ items).map _

theorem signs_eq (sign : Char) (header : Text) :
    signs sign items header = (items.map Prod.fst).any fun name ↦ signedBy sign name header := by
  unfold signs
  rw [List.any_map]
  rfl

theorem signs_sorted (h : (sortedItems items).mapM quotedHeader = .ok set) (sign : Char)
    (header : Text) : signs sign set header = signs sign items header := by
  rw [signs_eq, signs_eq, Bool.eq_iff_iff, List.any_eq_true, List.any_eq_true]
  simp only [(perm_names_of_sorted h).mem_iff]

theorem signOrder_of_le (h : toLex x ≤ toLex y) : SignOrder x y := by
  intro hx hy
  obtain ⟨name, hx⟩ := List.head?_eq_some_iff.mp hx
  obtain ⟨name', hy⟩ := List.head?_eq_some_iff.mp hy
  rw [Prod.Lex.toLex_le_toLex, hx, hy] at h
  obtain h | ⟨h, -⟩ := h
  · rw [List.cons_lt_cons_iff] at h
    obtain h | ⟨h, -⟩ := h
    · exact absurd h (by decide)
    · exact absurd h (by decide)
  · exact absurd (List.cons.inj h).1 (by decide)

theorem signOrder_sorted (h : (sortedItems items).mapM quotedHeader = .ok set) :
    set.Pairwise SignOrder := by
  have hsorted : (sortedItems items).Pairwise SignOrder :=
    (List.pairwise_insertionSort (fun a b : Text × Text ↦ toLex a ≤ toLex b) items).imp
      signOrder_of_le
  have hnames := names_of_quoted h
  have hsplit (l : List (Text × Text)) : l.Pairwise SignOrder ↔
      (l.map Prod.fst).Pairwise fun a b ↦ a.head? = some '-' → b.head? ≠ some '+' := by
    rw [List.pairwise_map]
    rfl
  rw [hsplit] at hsorted ⊢
  rwa [hnames]

theorem checkRequestHeaders_ok (h : checkRequestHeaders items = .ok ()) :
    ∀ x ∈ items, isIdentityHeader x.1 = false := by
  induction items with
  | nil => exact nofun
  | cons x items ih =>
    unfold checkRequestHeaders at h
    obtain ⟨name, hname, hrest⟩ := bind_ok h
    unfold headerName at hname
    split at hname
    · cases hname
    · cases hname
      obtain ⟨hidentity, hrest⟩ := guard_ok hrest
      intro y hy
      obtain rfl | hy := List.mem_cons.mp hy
      · simpa using hidentity
      · exact ih hrest y hy

theorem isIdentityHeader_congr {name' : Text} (h : lower name = lower name') :
    isIdentityHeader name = isIdentityHeader name' := by
  unfold isIdentityHeader
  rw [h]

theorem isIdentityHeader_of_mem (h : name ∈ identityHeaders) : isIdentityHeader name = true :=
  decide_eq_true (List.mem_map_of_mem h)

theorem field_ne_identity (hset : (sortedItems items).mapM quotedHeader = .ok set)
    (hcheck : checkRequestHeaders items = .ok ()) {header : Text}
    (hheader : header ∈ identityHeaders) : ∀ x ∈ set, lower x.1 ≠ lower header := by
  intro x hx hlower
  have hname := (perm_names_of_sorted hset).mem_iff.mp (List.mem_map_of_mem hx)
  obtain ⟨y, hy, hyx⟩ := List.mem_map.mp hname
  have hfalse := checkRequestHeaders_ok hcheck y hy
  rw [hyx, isIdentityHeader_congr hlower, isIdentityHeader_of_mem hheader] at hfalse
  cases hfalse

end

end NixNas.Caddy
