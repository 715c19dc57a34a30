import NixNas.Compose.Bundle

/-!
# The namespaces of Compose imports

When the sources of different services, and the units that the reconciler derives from them, have
different names.
-/

open Dictionary Fallible Joined

namespace NixNas.Compose

open Network Reconcile
open Caddy (isSchemaId)

section

variable (sha256 : Text → Text) (effective : Effective) (firewalldEnabled : Bool)

/-- Whatever Podlet writes, different services have different sources and different units.  `rendered`
is whether the adapter of a service raises nothing on what it finds outside the model. -/
def NamespacesDisjoint (rendered : Text → Bool) : Prop :=
  ∀ generated, ∀ a ∈ items effective.services, ∀ b ∈ items effective.services, a.1 ≠ b.1 →
    rendered a.1 = true → rendered b.1 = true → ∀ file other,
      Produces sha256 effective firewalldEnabled generated a file →
      Produces sha256 effective firewalldEnabled generated b other →
      file ≠ other ∧ ∀ unit, safeQuadletTarget file = some unit → safeQuadletTarget other ≠ some unit

/-- `nas-v2-SERVICE.service` is derived from a source of the service. -/
def HoldsService (entry : Text × Service) : Prop :=
  IsDirect entry.2 ∨ entry.2.kind ≠ .session ∧ HasNetwork sha256 effective firewalldEnabled entry

/-- `nas-v2-session-SERVICE.target` is. -/
def HoldsSession (entry : Text × Service) : Prop :=
  entry.2.kind = .session ∧ HasNetwork sha256 effective firewalldEnabled entry

end

/-- An identifier that is `first`, or whose rest behind `first-` is related to `b`. -/
def Meets (first : Text) (R : Text → Text → Prop) (a b : Text) : Prop :=
  a = first ∨ ∃ p, a = first ++ '-' :: p ∧ R p b

section

variable (sha256 : Text → Text) (effective : Effective) (firewalldEnabled : Bool)

/-- No source of an imported service can stand in the way of another service. -/
structure Apart (a b : Text × Service) : Prop where
  service : HoldsService sha256 effective firewalldEnabled b →
    ¬ Continues '-' a.1 b.1 ∧ ¬ Meets "net".toList (Continues '-') a.1 b.1
  session : HoldsSession sha256 effective firewalldEnabled b →
    ¬ Meets "snet".toList (Continues '-') a.1 b.1
  imported : IsImported b.2 →
    ¬ Nested '-' a.1 b.1 ∧ (b.1.length ≤ 62 → ¬ Meets "net".toList (Nested '-') a.1 b.1)

def NamespacesApart (rendered : Text → Bool) : Prop :=
  ∀ a ∈ items effective.services, ∀ b ∈ items effective.services, a.1 ≠ b.1 →
    rendered a.1 = true → rendered b.1 = true → isIdentifier a.1 = true → isIdentifier b.1 = true →
    IsImported a.2 → Apart sha256 effective firewalldEnabled a b

end

/-! ## The units of an imported service -/

variable {a b id s : Text}

theorem serviceUnit_inj : serviceUnit a = serviceUnit b ↔ a = b := by
  unfold serviceUnit
  rw [List.append_cancel_left_eq, List.append_cancel_right_eq]

theorem sessionUnit_inj : sessionUnit a = sessionUnit b ↔ a = b := by
  unfold sessionUnit
  rw [List.append_cancel_left_eq, List.append_cancel_right_eq]

theorem serviceUnit_ne_sessionUnit (a b : Text) : serviceUnit a ≠ sessionUnit b := by
  intro h
  unfold serviceUnit sessionUnit at h
  rw [show ".service".toList = '.' :: "service".toList by decide,
    show ".target".toList = '.' :: "target".toList by decide, ← List.append_assoc,
    ← List.append_assoc, join_inj_right (by decide) (by decide)] at h
  exact absurd h.2 (by decide)

/-- The units of the sources of an imported service. -/
inductive Owns (id : Text) : Text → Prop where
  | own {t : Text} (hne : t ≠ []) : Owns id (serviceUnit (id ++ '-' :: t))
  | net {x i : Text} (hne : x ≠ []) (heq : id ++ '-' :: x = "net".toList ++ '-' :: i)
    (hid : isIdentifier i = true) : Owns id (serviceUnit i)
  | snet {x i : Text} (hne : x ≠ []) (heq : id ++ '-' :: x = "snet".toList ++ '-' :: i)
    (hid : isIdentifier i = true) : Owns id (sessionUnit i)

theorem net_eq (i : Text) : "net-".toList ++ i = "net".toList ++ '-' :: i := by
  rw [show "net-".toList = "net".toList ++ ['-'] by decide, List.append_assoc,
    List.singleton_append]

theorem snet_eq (i : Text) : "snet-".toList ++ i = "snet".toList ++ '-' :: i := by
  rw [show "snet-".toList = "snet".toList ++ ['-'] by decide, List.append_assoc,
    List.singleton_append]

theorem owns_sourceUnit {stem : Text} (hne : stem ≠ []) (suffix : Suffix) :
    Owns id (sourceUnit (id ++ '-' :: stem) suffix) := by
  have htail : ∀ tail : Text, Owns id (serviceUnit ((id ++ '-' :: stem) ++ tail)) := by
    intro tail
    rw [List.append_assoc, List.cons_append]
    exact .own (List.append_ne_nil_of_left_ne_nil hne _)
  cases suffix with
  | container => exact .own hne
  | kube => exact .own hne
  | pod => exact htail _
  | volume => exact htail _
  | build => exact htail _
  | image => exact htail _
  | network =>
    show Owns id (networkUnit _)
    unfold networkUnit
    split
    · rename_i i hi
      rw [identifierAfter_eq_some, net_eq] at hi
      exact .net hne hi.1 hi.2
    · split
      · rename_i i hi
        rw [identifierAfter_eq_some, snet_eq] at hi
        exact .snet hne hi.1 hi.2
      · exact htail _

theorem owns_serviceUnit (h : Owns id (serviceUnit s)) :
    (∃ t, t ≠ [] ∧ s = id ++ '-' :: t) ∨
      isIdentifier s = true ∧ ∃ x, x ≠ [] ∧ id ++ '-' :: x = "net".toList ++ '-' :: s := by
  generalize hunit : serviceUnit s = unit at h
  cases h with
  | own hne => exact .inl ⟨_, hne, serviceUnit_inj.mp hunit⟩
  | net hne heq hid =>
    rw [serviceUnit_inj.mp hunit]
    exact .inr ⟨hid, _, hne, heq⟩
  | snet hne heq hid => exact (serviceUnit_ne_sessionUnit _ _ hunit).elim

theorem owns_sessionUnit (h : Owns id (sessionUnit s)) :
    isIdentifier s = true ∧ ∃ x, x ≠ [] ∧ id ++ '-' :: x = "snet".toList ++ '-' :: s := by
  generalize hunit : sessionUnit s = unit at h
  cases h with
  | own hne => exact (serviceUnit_ne_sessionUnit _ _ hunit.symm).elim
  | net hne heq hid => exact (serviceUnit_ne_sessionUnit _ _ hunit.symm).elim
  | snet hne heq hid =>
    rw [sessionUnit_inj.mp hunit]
    exact ⟨hid, _, hne, heq⟩

theorem length_of_isIdentifier (h : isIdentifier id = true) : id.length ≤ 64 := by
  unfold isIdentifier at h
  split at h
  · cases h
  · rw [Bool.and_eq_true, Bool.and_eq_true, decide_eq_true_eq] at h
    rw [List.length_cons]
    omega

/-- A name behind `first-` in the namespace of `a`. -/
theorem meets_of_join_eq {first x : Text} (hfirst : '-' ∉ first) {R : Text → Text → Prop}
    (hR : ∀ p, s = p ++ '-' :: x → R p b) (h : a ++ '-' :: x = first ++ '-' :: s) :
    Meets first R a b := by
  rcases (join_eq_word_iff hfirst).mp h with ⟨ha, _⟩ | ⟨p, ha, hs⟩
  · exact .inl ha
  · exact .inr ⟨p, ha, hR p hs⟩

/-- The units of two imported services are the same only where one reaches into the other. -/
theorem nested_or_meets_of_owns {unit : Text} (ha : Owns a unit) (hb : Owns b unit) :
    Nested '-' a b ∨ (b.length ≤ 62 ∧ Meets "net".toList (Nested '-') a b) ∨
      (a.length ≤ 62 ∧ Meets "net".toList (Nested '-') b a) := by
  have hlength : ∀ {c t : Text}, t ≠ [] → isIdentifier (c ++ '-' :: t) = true → c.length ≤ 62 := by
    intro c t hne hid
    have hle := length_of_isIdentifier hid
    have hpos := List.length_pos_iff.mpr hne
    rw [List.length_append, List.length_cons] at hle
    omega
  cases ha with
  | own hne =>
    rcases owns_serviceUnit hb with ⟨t, _, heq⟩ | ⟨hid, x, _, heq⟩
    · exact .inl (nested_of_join_eq heq)
    · refine .inr (.inr ⟨hlength hne hid, meets_of_join_eq (by decide) ?_ heq⟩)
      exact fun p hp => nested_of_join_eq hp.symm
  | net hne heq hid =>
    rcases owns_serviceUnit hb with ⟨t, ht, rfl⟩ | ⟨_, x, _, heq'⟩
    · refine .inr (.inl ⟨hlength ht hid, meets_of_join_eq (by decide) ?_ heq⟩)
      exact fun p hp => nested_of_join_eq hp.symm
    · exact .inl (nested_of_join_eq (heq.trans heq'.symm))
  | snet hne heq hid =>
    rcases owns_sessionUnit hb with ⟨_, x, _, heq'⟩
    exact .inl (nested_of_join_eq (heq.trans heq'.symm))

/-! ## The units of any service -/

section

variable {sha256 : Text → Text} {effective : Effective} {firewalldEnabled : Bool}
  {rendered : Text → Bool} {generated : Text → List Text}
variable {c : Char} {entry : Text × Service} {key unit stem x other first : Text} {suffix : Suffix}

theorem safeChar_nameChar (h : safeChar c = true) : nameChar c = true := by
  unfold safeChar at h
  unfold nameChar
  rw [Bool.or_eq_true] at h ⊢
  rcases h with h | h
  · exact .inl h
  · right
    rw [List.contains_iff_mem] at h ⊢
    simp only [List.mem_cons, List.not_mem_nil, or_false] at h ⊢
    tauto

theorem nameChar_append {a b : Text} (ha : ∀ c ∈ a, nameChar c = true)
    (hb : ∀ c ∈ b, nameChar c = true) : ∀ c ∈ a ++ b, nameChar c = true := by
  intro c hc
  rcases List.mem_append.mp hc with hc | hc
  · exact ha c hc
  · exact hb c hc

theorem Key.safe (h : Key sha256 effective firewalldEnabled entry key suffix)
    (hid : isIdentifier entry.1 = true) :
    safeQuadletTarget (quadletFile key suffix) = some (sourceUnit key suffix) := by
  have hchars := nameChar_of_isIdentifier hid
  have hne := ne_nil_of_isIdentifier hid
  rw [safeQuadletTarget_eq, if_pos]
  cases h with
  | container _ => exact ⟨hne, hchars⟩
  | net _ _ =>
    exact ⟨List.append_ne_nil_of_right_ne_nil _ hne,
      nameChar_append (forall_mem_of_all (by decide)) hchars⟩
  | snet _ _ =>
    exact ⟨List.append_ne_nil_of_right_ne_nil _ hne,
      nameChar_append (forall_mem_of_all (by decide)) hchars⟩
  | imported _ _ hsafe _ =>
    refine ⟨List.append_ne_nil_of_left_ne_nil hne _, nameChar_append hchars ?_⟩
    rw [List.forall_mem_cons]
    exact ⟨by decide, fun c hc => safeChar_nameChar (hsafe c hc)⟩

theorem sourceUnit_net (hid : isIdentifier id = true) :
    sourceUnit ("net-".toList ++ id) .network = serviceUnit id := by
  unfold sourceUnit networkUnit
  rw [identifierAfter_eq_some.mpr ⟨rfl, hid⟩]

theorem sourceUnit_snet (hid : isIdentifier id = true) :
    sourceUnit ("snet-".toList ++ id) .network = sessionUnit id := by
  unfold sourceUnit networkUnit
  have hnet : identifierAfter "net-".toList ("snet-".toList ++ id) = none := by
    rw [Option.eq_none_iff_forall_ne_some]
    intro found hfound
    have heq := (identifierAfter_eq_some.mp hfound).1
    exact absurd (List.cons.inj heq).1 (by decide)
  rw [hnet, identifierAfter_eq_some.mpr ⟨rfl, hid⟩]

inductive Derives (sha256 : Text → Text) (effective : Effective) (firewalldEnabled : Bool)
    (entry : Text × Service) : Text → Prop where
  | service (hholds : HoldsService sha256 effective firewalldEnabled entry) :
    Derives sha256 effective firewalldEnabled entry (serviceUnit entry.1)
  | session (hholds : HoldsSession sha256 effective firewalldEnabled entry) :
    Derives sha256 effective firewalldEnabled entry (sessionUnit entry.1)
  | imported (himported : IsImported entry.2) {unit : Text} (howns : Owns entry.1 unit) :
    Derives sha256 effective firewalldEnabled entry unit

theorem Key.derives (h : Key sha256 effective firewalldEnabled entry key suffix)
    (hid : isIdentifier entry.1 = true) :
    Derives sha256 effective firewalldEnabled entry (sourceUnit key suffix) := by
  cases h with
  | container hdirect => exact .service (.inl hdirect)
  | net hkind hnetwork =>
    rw [sourceUnit_net hid]
    exact .service (.inr ⟨hkind, hnetwork⟩)
  | snet hkind hnetwork =>
    rw [sourceUnit_snet hid]
    exact .session ⟨hkind, hnetwork⟩
  | imported himported hne _ suffix => exact .imported himported (owns_sourceUnit hne suffix)

theorem not_derives_of_owns {a b : Text × Service}
    (hab : Apart sha256 effective firewalldEnabled a b)
    (hba : IsImported b.2 → a.1.length ≤ 62 → ¬ Meets "net".toList (Nested '-') b.1 a.1)
    (howns : Owns a.1 unit) (hderives : Derives sha256 effective firewalldEnabled b unit) :
    False := by
  cases hderives with
  | service hholds =>
    rcases owns_serviceUnit howns with ⟨t, hne, heq⟩ | ⟨_, x, hne, heq⟩
    · exact (hab.service hholds).1 ⟨t, hne, heq⟩
    · exact (hab.service hholds).2 (meets_of_join_eq (by decide) (fun _ hp => ⟨x, hne, hp⟩) heq)
  | session hholds =>
    rcases owns_sessionUnit howns with ⟨_, x, hne, heq⟩
    exact hab.session hholds (meets_of_join_eq (by decide) (fun _ hp => ⟨x, hne, hp⟩) heq)
  | imported himported hother =>
    rcases nested_or_meets_of_owns howns hother with hnested | ⟨hlength, hmeets⟩ | ⟨hlength, hmeets⟩
    · exact (hab.imported himported).1 hnested
    · exact (hab.imported himported).2 hlength hmeets
    · exact hba himported hlength hmeets

theorem unit_ne {a b : Text × Service} (hne : a.1 ≠ b.1)
    (hab : IsImported a.2 → Apart sha256 effective firewalldEnabled a b)
    (hba : IsImported b.2 → Apart sha256 effective firewalldEnabled b a)
    (ha : Derives sha256 effective firewalldEnabled a unit) :
    ¬ Derives sha256 effective firewalldEnabled b unit := by
  intro hb
  generalize hunit : unit = other at hb
  cases ha with
  | imported himported howns =>
    rw [← hunit] at hb
    exact not_derives_of_owns (hab himported)
      (fun himported' => ((hba himported').imported himported).2) howns hb
  | service hholds =>
    cases hb with
    | service _ => exact hne (serviceUnit_inj.mp hunit)
    | session _ => exact serviceUnit_ne_sessionUnit _ _ hunit
    | imported himported howns =>
      rw [← hunit] at howns
      exact not_derives_of_owns (hba himported)
        (fun himported' => ((hab himported').imported himported).2) howns (.service hholds)
  | session hholds =>
    cases hb with
    | service _ => exact serviceUnit_ne_sessionUnit _ _ hunit.symm
    | session _ => exact hne (sessionUnit_inj.mp hunit)
    | imported himported howns =>
      rw [← hunit] at howns
      exact not_derives_of_owns (hba himported)
        (fun himported' => ((hab himported').imported himported).2) howns (.session hholds)

/-! ## Identifiers with a line break -/

/-- A key of a service whose identifier ends in a line break: what stands before the line break and
after it. -/
structure Broken (id key : Text) (suffix : Suffix) where
  core : Text
  first : Text
  rest : Text
  id_eq : id = core ++ ['\n']
  key_eq : key = (first ++ core) ++ '\n' :: rest
  unbroken : '\n' ∉ first ++ core
  role : (first = [] ∧ rest = [] ∧ suffix = .container) ∨
    (first = "net-".toList ∧ rest = [] ∧ suffix = .network) ∨
    (first = "snet-".toList ∧ rest = [] ∧ suffix = .network) ∨ (first = [] ∧ rest ≠ [])

theorem newline_notMem (h : isIdentifier id = true) : '\n' ∉ id := by
  intro hmem
  exact absurd (identifierChar h _ hmem) (by decide)

theorem exists_core (h : isSchemaId id = true) (hnot : isIdentifier id ≠ true) :
    ∃ core, id = core ++ ['\n'] ∧ isIdentifier core = true := by
  unfold isSchemaId at h
  rw [Bool.or_eq_true, Bool.and_eq_true, decide_eq_true_eq] at h
  rcases h with h | ⟨hlast, hcore⟩
  · exact (hnot h).elim
  · rcases List.getLast?_eq_some_iff.mp hlast with ⟨core, rfl⟩
    rw [List.dropLast_concat] at hcore
    exact ⟨core, rfl, hcore⟩

theorem Key.broken
    (h : Key sha256 effective firewalldEnabled entry key suffix) (hid : isSchemaId entry.1 = true)
    (hnot : isIdentifier entry.1 ≠ true) : Nonempty (Broken entry.1 key suffix) := by
  rcases exists_core hid hnot with ⟨core, hcore, hidentifier⟩
  have hline := newline_notMem hidentifier
  cases h with
  | container _ => exact ⟨⟨core, [], [], hcore, hcore, hline, .inl ⟨rfl, rfl, rfl⟩⟩⟩
  | net _ _ =>
    refine ⟨⟨core, "net-".toList, [], hcore, ?_, ?_, .inr (.inl ⟨rfl, rfl, rfl⟩)⟩⟩
    · rw [hcore, List.append_assoc]
    · rw [List.mem_append, not_or]
      exact ⟨by decide, hline⟩
  | snet _ _ =>
    refine ⟨⟨core, "snet-".toList, [], hcore, ?_, ?_, .inr (.inr (.inl ⟨rfl, rfl, rfl⟩))⟩⟩
    · rw [hcore, List.append_assoc]
    · rw [List.mem_append, not_or]
      exact ⟨by decide, hline⟩
  | @imported _ stem _ _ _ =>
    refine ⟨⟨core, [], '-' :: stem, hcore, ?_, hline,
      .inr (.inr (.inr ⟨rfl, List.cons_ne_nil _ _⟩))⟩⟩
    rw [hcore, List.append_assoc]
    rfl

theorem Broken.unsafe_target (h : Broken id key suffix) :
    safeQuadletTarget (quadletFile key suffix) = none := by
  rw [safeQuadletTarget_eq, if_neg]
  rintro ⟨_, hchars⟩
  have hmem : '\n' ∈ key := by
    rw [h.key_eq]
    simp
  exact absurd (hchars _ hmem) (by decide)

theorem Broken.id_eq_of_eq {a b : Text} (ha : Broken a key suffix)
    (hb : Broken b key suffix) : a = b := by
  rcases (join_inj ha.unbroken hb.unbroken).mp (ha.key_eq.symm.trans hb.key_eq) with ⟨hfirst, hrest⟩
  have hsame : ∀ {first : Text}, ha.first = first → hb.first = first → a = b := by
    intro first hfa hfb
    rw [hfa, hfb, List.append_cancel_left_eq] at hfirst
    rw [ha.id_eq, hb.id_eq, hfirst]
  rcases ha.role with ⟨hfa, hra, hsa⟩ | ⟨hfa, hra, hsa⟩ | ⟨hfa, hra, hsa⟩ | ⟨hfa, hra⟩
  · rcases hb.role with ⟨hfb, _⟩ | ⟨_, _, hsb⟩ | ⟨_, _, hsb⟩ | ⟨hfb, _⟩
    · exact hsame hfa hfb
    · cases hsa.symm.trans hsb
    · cases hsa.symm.trans hsb
    · exact hsame hfa hfb
  · rcases hb.role with ⟨_, _, hsb⟩ | ⟨hfb, _⟩ | ⟨hfb, _⟩ | ⟨_, hrb⟩
    · cases hsa.symm.trans hsb
    · exact hsame hfa hfb
    · rw [hfa, hfb] at hfirst
      exact absurd (List.cons.inj hfirst).1 (by decide)
    · exact (hrb (hrest.symm.trans hra)).elim
  · rcases hb.role with ⟨_, _, hsb⟩ | ⟨hfb, _⟩ | ⟨hfb, _⟩ | ⟨_, hrb⟩
    · cases hsa.symm.trans hsb
    · rw [hfa, hfb] at hfirst
      exact absurd (List.cons.inj hfirst).1 (by decide)
    · exact hsame hfa hfb
    · exact (hrb (hrest.symm.trans hra)).elim
  · rcases hb.role with ⟨hfb, _⟩ | ⟨_, hrb, _⟩ | ⟨_, hrb, _⟩ | ⟨hfb, _⟩
    · exact hsame hfa hfb
    · exact (hra (hrest.trans hrb)).elim
    · exact (hra (hrest.trans hrb)).elim
    · exact hsame hfa hfb

/-! ## Services that are apart -/

theorem disjoint_of_apart (h : NamespacesApart sha256 effective firewalldEnabled rendered) :
    NamespacesDisjoint sha256 effective firewalldEnabled rendered := by
  intro generated a ha b hb hne hra hrb file other hfile hother
  rcases hfile.key with ⟨key, suffix, rfl, hkey⟩
  rcases hother.key with ⟨key', suffix', rfl, hkey'⟩
  have hida := effective.identifiers a.1 (by rw [← keys_items]; exact List.mem_map_of_mem ha)
  have hidb := effective.identifiers b.1 (by rw [← keys_items]; exact List.mem_map_of_mem hb)
  by_cases hia : isIdentifier a.1 = true
  · rw [hkey.safe hia]
    by_cases hib : isIdentifier b.1 = true
    · have hunits : sourceUnit key suffix ≠ sourceUnit key' suffix' := by
        intro heq
        have hderives := hkey'.derives hib
        rw [← heq] at hderives
        exact unit_ne hne (h a ha b hb hne hra hrb hia hib)
          (h b hb a ha hne.symm hrb hra hib hia)
          (hkey.derives hia) hderives
      rw [hkey'.safe hib]
      constructor
      · intro heq
        rcases quadletFile_inj.mp heq with ⟨rfl, rfl⟩
        exact hunits rfl
      · intro unit hunit hunit'
        exact hunits (Option.some.inj (hunit.trans hunit'.symm))
    · rcases hkey'.broken hidb hib with ⟨hbroken⟩
      rw [hbroken.unsafe_target]
      refine ⟨?_, fun _ _ => nofun⟩
      intro heq
      have hsafe := hkey.safe hia
      rw [heq, hbroken.unsafe_target] at hsafe
      cases hsafe
  · rcases hkey.broken hida hia with ⟨hbroken⟩
    rw [hbroken.unsafe_target]
    refine ⟨?_, fun _ => nofun⟩
    intro heq
    by_cases hib : isIdentifier b.1 = true
    · have hsafe := hkey'.safe hib
      rw [← heq, hbroken.unsafe_target] at hsafe
      cases hsafe
    · rcases hkey'.broken hidb hib with ⟨hbroken'⟩
      rcases quadletFile_inj.mp heq with ⟨rfl, rfl⟩
      exact hne (hbroken.id_eq_of_eq hbroken')

/-! ## What Podlet may write -/

/-- Two sources for the service `a`, and two for any other. -/
def emitting (a name other : Text) (id : Text) : List Text :=
  ["m.container".toList, if id = a then name else other]

theorem namespaceBundle_succeeds {name : Text} (hname : checkName name = .ok ()) :
    ∃ bundle, namespaceBundle id ["m.container".toList, name] = .ok bundle := by
  have hchecks : ∀ other ∈ ["m.container".toList, name], checkName other = .ok () := by
    rw [List.forall_mem_cons, List.forall_mem_singleton]
    exact ⟨by decide, hname⟩
  have hentry : entryUnit (namespaced id "m.container".toList) =
      some (serviceUnit (id ++ '-' :: ['m'])) := by
    rw [show "m.container".toList = ['m'] ++ '.' :: Suffix.container.ext by decide,
      namespaced_eq, entryUnit_eq_some (by simp)]
    exact ⟨rfl, rfl⟩
  have hunits : ([("m.container".toList), name].map (namespaced id)).filterMap entryUnit ≠ [] := by
    rw [List.map_cons, List.filterMap_cons_some hentry]
    exact List.cons_ne_nil _ _
  unfold namespaceBundle
  rw [forM_total hchecks]
  simp only [bind, Except.bind, if_neg hunits, reduceCtorEq, if_false]
  exact ⟨_, rfl⟩

theorem produces_generated (himported : IsImported entry.2)
    (hne : stem ≠ []) (hsafe : ∀ c ∈ stem, safeChar c = true)
    (hlength : stem.length ≤ 200)
    (hgenerated : generated entry.1 = ["m.container".toList, stem ++ '.' :: suffix.ext]) :
    Produces sha256 effective firewalldEnabled generated entry
      (quadletFile (entry.1 ++ '-' :: stem) suffix) := by
  have hcheck : checkName (stem ++ '.' :: suffix.ext) = .ok () := by
    have hext : suffix.ext.length ≤ 9 ∧ ∀ c ∈ suffix.ext, safeChar c = true := by
      cases suffix <;> exact ⟨by decide, forall_mem_of_all (by decide)⟩
    refine checkName_ok.mpr ⟨stem, suffix, rfl, hne, ?_⟩
    unfold isSafeFile
    rw [Bool.and_eq_true, Bool.and_eq_true, decide_eq_true_eq, decide_eq_true_eq, List.all_eq_true]
    refine ⟨⟨by simp, ?_⟩, ?_⟩
    · rw [List.length_append, List.length_cons]
      omega
    · intro c hc
      rcases List.mem_append.mp hc with hc | hc
      · exact hsafe c hc
      · rcases List.mem_cons.mp hc with rfl | hc
        · decide
        · exact hext.2 c hc
  rcases namespaceBundle_succeeds hcheck with ⟨bundle, hbundle⟩
  rw [← hgenerated] at hbundle
  refine .imported himported hbundle ?_
  rw [(namespaceBundle_ok hbundle).2.1, hgenerated, ← namespaced_eq]
  exact .tail _ (.head _)

theorem exists_service_source (generated : Text → List Text) (hid : isIdentifier entry.1 = true)
    (hholds : HoldsService sha256 effective firewalldEnabled entry) :
    ∃ file, Produces sha256 effective firewalldEnabled generated entry file ∧
      safeQuadletTarget file = some (serviceUnit entry.1) := by
  rcases hholds with hdirect | ⟨hkind, file, hfile⟩
  · refine ⟨_, .container hdirect, ?_⟩
    have hkey : Key sha256 effective firewalldEnabled entry entry.1 .container := .container hdirect
    rw [List.append_assoc]
    exact hkey.safe hid
  · refine ⟨_, .network hfile, ?_⟩
    rw [(reference_eq hfile).1 hkind, Key.safe (.net hkind ⟨_, hfile⟩) hid, sourceUnit_net hid]

theorem exists_session_source (generated : Text → List Text) (hid : isIdentifier entry.1 = true)
    (hholds : HoldsSession sha256 effective firewalldEnabled entry) :
    ∃ file, Produces sha256 effective firewalldEnabled generated entry file ∧
      safeQuadletTarget file = some (sessionUnit entry.1) := by
  rcases hholds with ⟨hkind, file, hfile⟩
  refine ⟨_, .network hfile, ?_⟩
  rw [(reference_eq hfile).2 hkind, Key.safe (.snet hkind ⟨_, hfile⟩) hid, sourceUnit_snet hid]

/-! ## Services that are not apart -/

theorem safeChar_of_identifierChar (h : (c.isLower || c.isDigit || c = '-') = true) :
    safeChar c = true := by
  unfold safeChar
  rw [Bool.or_eq_true, Bool.or_eq_true, decide_eq_true_eq] at h
  rcases h with (hlower | hdigit) | rfl
  · simp [Char.isAlphanum, Char.isAlpha, hlower]
  · simp [Char.isAlphanum, hdigit]
  · decide

theorem safeChar_of_isIdentifier (h : isIdentifier id = true) : ∀ c ∈ id, safeChar c = true :=
  fun c hc => safeChar_of_identifierChar (identifierChar h c hc)

theorem markChar (hid : isIdentifier id = true) (hx : ∀ c ∈ x, c = '-' ∨ c ∈ id) :
    ∀ c ∈ x ++ ['m'], (c.isLower || c.isDigit || c = '-') = true := by
  intro c hc
  rcases List.mem_append.mp hc with hc | hc
  · rcases hx c hc with rfl | hc
    · decide
    · exact identifierChar hid c hc
  · rw [List.mem_singleton.mp hc]
    decide

theorem isIdentifier_append {t : Text} (h : isIdentifier id = true)
    (ht : ∀ c ∈ t, (c.isLower || c.isDigit || c = '-') = true) (hlength : (id ++ t).length ≤ 64) :
    isIdentifier (id ++ t) = true := by
  cases id with
  | nil => cases h
  | cons c rest =>
    unfold isIdentifier at h ⊢
    rw [List.cons_append, List.length_cons] at hlength
    simp only [List.cons_append, Bool.and_eq_true, decide_eq_true_eq, List.all_eq_true] at h ⊢
    refine ⟨⟨h.1.1, by omega⟩, ?_⟩
    intro d hd
    rcases List.mem_append.mp hd with hd | hd
    · exact h.2 d hd
    · exact ht d hd

variable {a b : Text × Service}

theorem not_disjoint (ha : a ∈ items effective.services) (hb : b ∈ items effective.services)
    (hne : a.1 ≠ b.1) (hra : rendered a.1 = true) (hrb : rendered b.1 = true)
    {file : Text}
    (hfile : Produces sha256 effective firewalldEnabled generated a file)
    (hother : Produces sha256 effective firewalldEnabled generated b other)
    (hunit : safeQuadletTarget file = some unit) (hunit' : safeQuadletTarget other = some unit) :
    ¬ NamespacesDisjoint sha256 effective firewalldEnabled rendered := by
  intro h
  exact (h generated a ha b hb hne hra hrb file other hfile hother).2 unit hunit hunit'

/-- A stem that Podlet may write for `a` takes a unit from another service. -/
theorem not_disjoint_of_stem (suffix : Suffix) (ha : a ∈ items effective.services)
    (hb : b ∈ items effective.services) (hne : a.1 ≠ b.1) (hra : rendered a.1 = true)
    (hrb : rendered b.1 = true) (hia : isIdentifier a.1 = true) (himported : IsImported a.2)
    (hstem : stem ≠ []) (hsafe : ∀ c ∈ stem, safeChar c = true)
    (hlength : stem.length ≤ 200) {rest : Text}
    (hother : Produces sha256 effective firewalldEnabled
      (emitting a.1 (stem ++ '.' :: suffix.ext) rest) b other)
    (hunit : safeQuadletTarget other = some (sourceUnit (a.1 ++ '-' :: stem) suffix)) :
    ¬ NamespacesDisjoint sha256 effective firewalldEnabled rendered := by
  have hkey : Key sha256 effective firewalldEnabled a (a.1 ++ '-' :: stem) suffix :=
    .imported himported hstem hsafe suffix
  have hfile : Produces sha256 effective firewalldEnabled
      (emitting a.1 (stem ++ '.' :: suffix.ext) rest) a
      (quadletFile (a.1 ++ '-' :: stem) suffix) := by
    apply produces_generated himported hstem hsafe hlength
    unfold emitting
    rw [if_pos rfl]
  exact not_disjoint ha hb hne hra hrb hfile hother (hkey.safe hia) hunit

/-- A word behind `first` that the other service continues. -/
theorem exists_stem_of_meets {a b : Text} (hb : b ≠ [])
    (h : Meets first (Continues '-') a b) : ∃ x, x ≠ [] ∧ a ++ '-' :: x = first ++ '-' :: b ∧
      x.length ≤ b.length ∧ ∀ c ∈ x, c ∈ b := by
  rcases h with rfl | ⟨p, rfl, r, hne, rfl⟩
  · exact ⟨b, hb, rfl, le_rfl, fun _ hc => hc⟩
  · refine ⟨r, hne, by simp, by simp; omega, ?_⟩
    intro c hc
    exact List.mem_append_right _ (List.mem_cons_of_mem _ hc)

/-- A service reached behind `net` or `snet` has a unit in common with the one that reaches it. -/
theorem not_disjoint_of_meets (ha : a ∈ items effective.services) (hb : b ∈ items effective.services)
    (hne : a.1 ≠ b.1) (hra : rendered a.1 = true) (hrb : rendered b.1 = true)
    (hia : isIdentifier a.1 = true) (hib : isIdentifier b.1 = true)
    (himported : IsImported a.2)
    (hsource : ∀ generated, ∃ file, Produces sha256 effective firewalldEnabled generated b file ∧
      safeQuadletTarget file = some unit)
    (hunit : sourceUnit (first ++ '-' :: b.1) .network = unit)
    (hmeets : Meets first (Continues '-') a.1 b.1) :
    ¬ NamespacesDisjoint sha256 effective firewalldEnabled rendered := by
  rcases exists_stem_of_meets (ne_nil_of_isIdentifier hib) hmeets with ⟨x, hx, heq, hlength, hchars⟩
  rcases hsource (emitting a.1 (x ++ '.' :: Suffix.network.ext) []) with ⟨other, hother, hother'⟩
  have hle := length_of_isIdentifier hib
  refine not_disjoint_of_stem .network ha hb hne hra hrb hia himported hx
    (fun c hc => safeChar_of_isIdentifier hib c (hchars c hc)) (by omega) hother ?_
  rw [hother', heq, hunit]

theorem not_disjoint_of_stems (suffix : Suffix) (ha : a ∈ items effective.services)
    (hb : b ∈ items effective.services) (hne : a.1 ≠ b.1) (hra : rendered a.1 = true)
    (hrb : rendered b.1 = true) (hia : isIdentifier a.1 = true) (hib : isIdentifier b.1 = true)
    (himported : IsImported a.2) (himported' : IsImported b.2) {y : Text}
    (hx : ∀ c ∈ x, c = '-' ∨ c ∈ b.1) (hy : ∀ c ∈ y, c = '-' ∨ c ∈ a.1) (hxlength : x.length ≤ 128)
    (hylength : y.length ≤ 128)
    (hunit : sourceUnit (a.1 ++ '-' :: (x ++ ['m'])) suffix =
      serviceUnit (b.1 ++ '-' :: (y ++ ['m']))) :
    ¬ NamespacesDisjoint sha256 effective firewalldEnabled rendered := by
  have hmark : ∀ {id t : Text}, isIdentifier id = true → (∀ c ∈ t, c = '-' ∨ c ∈ id) →
      ∀ c ∈ t ++ ['m'], safeChar c = true :=
    fun hid ht c hc => safeChar_of_identifierChar (markChar hid ht c hc)
  have hother : Produces sha256 effective firewalldEnabled
      (emitting a.1 ((x ++ ['m']) ++ '.' :: suffix.ext) ((y ++ ['m']) ++ '.' :: Suffix.container.ext))
      b (quadletFile (b.1 ++ '-' :: (y ++ ['m'])) .container) := by
    apply produces_generated himported' (by simp) (hmark hia hy) (by simp; omega)
    unfold emitting
    rw [if_neg hne.symm]
  have hkey : Key sha256 effective firewalldEnabled b (b.1 ++ '-' :: (y ++ ['m'])) .container :=
    .imported himported' (by simp) (hmark hia hy) .container
  refine not_disjoint_of_stem suffix ha hb hne hra hrb hia himported (by simp) (hmark hib hx)
    (by simp; omega) hother ?_
  rw [hkey.safe hib, hunit]
  rfl

/-- The part of `a` behind `net`, and the part of `b` behind it, that Podlet may write. -/
theorem exists_stems_of_meets {a b : Text} (hia : isIdentifier a = true) (hlength : b.length ≤ 62)
    (h : Meets "net".toList (Nested '-') a b) : ∃ x y,
      a ++ '-' :: (x ++ ['m']) = "net".toList ++ '-' :: (b ++ '-' :: (y ++ ['m'])) ∧
      (b ++ '-' :: (y ++ ['m'])).length ≤ 64 ∧ (∀ c ∈ x, c = '-' ∨ c ∈ b) ∧
      ∀ c ∈ y, c = '-' ∨ c ∈ a := by
  rcases h with rfl | ⟨p, rfl, hnested⟩
  · refine ⟨b ++ ['-'], [], by simp, by simp; omega, ?_, fun _ h => (List.not_mem_nil h).elim⟩
    intro c hc
    rcases List.mem_append.mp hc with hc | hc
    · exact .inr hc
    · exact .inl (List.mem_singleton.mp hc)
  · rcases join_eq_of_nested hnested ['m'] with ⟨x, y, hshort, heq, hx, hy⟩
    refine ⟨x, y, by rw [List.append_assoc, List.cons_append, heq], ?_, hx, ?_⟩
    · have hle := length_of_isIdentifier hia
      have hsum := congrArg List.length heq
      simp only [List.length_append, List.length_cons, List.length_nil] at hle hsum ⊢
      rcases hshort with rfl | rfl
      · rw [List.length_nil] at hsum
        have hfirst : "net".toList.length = 3 := by decide
        omega
      · rw [List.length_nil]
        omega
    · intro c hc
      rcases hy c hc with hc | hc
      · exact .inl hc
      · exact .inr (List.mem_append_right _ (List.mem_cons_of_mem _ hc))

theorem apart_of_disjoint (h : NamespacesDisjoint sha256 effective firewalldEnabled rendered) :
    NamespacesApart sha256 effective firewalldEnabled rendered := by
  intro a ha b hb hne hra hrb hia hib himported
  constructor
  · intro hholds
    constructor
    · rintro ⟨r, hr, hcontinues⟩
      -- Podlet may name a file as the rest of the identifier
      rcases exists_service_source (emitting a.1 (r ++ '.' :: Suffix.container.ext) []) hib
        hholds with ⟨other, hother, hunit⟩
      have hmem : ∀ c ∈ r, c ∈ b.1 := by
        intro c hc
        rw [hcontinues]
        exact List.mem_append_right _ (List.mem_cons_of_mem _ hc)
      have hle := length_of_isIdentifier hib
      rw [hcontinues, List.length_append, List.length_cons] at hle
      refine not_disjoint_of_stem .container ha hb hne hra hrb hia himported hr
        (fun c hc => safeChar_of_isIdentifier hib c (hmem c hc)) (by omega) hother ?_ h
      rw [hunit, hcontinues]
      rfl
    · intro hmeets
      refine not_disjoint_of_meets ha hb hne hra hrb hia hib himported
        (fun _ => exists_service_source _ hib hholds) ?_ hmeets h
      rw [← net_eq, sourceUnit_net hib]
  · intro hholds hmeets
    refine not_disjoint_of_meets ha hb hne hra hrb hia hib himported
      (fun _ => exists_session_source _ hib hholds) ?_ hmeets h
    rw [← snet_eq, sourceUnit_snet hib]
  · intro himported'
    constructor
    · intro hnested
      -- both namespaces can be continued to one name
      rcases join_eq_of_nested hnested ['m'] with ⟨x, y, hshort, heq, hx, hy⟩
      have hlea := length_of_isIdentifier hia
      have hleb := length_of_isIdentifier hib
      have hsum := congrArg List.length heq
      simp only [List.length_append, List.length_cons, List.length_nil] at hsum
      have hbounds : x.length ≤ 128 ∧ y.length ≤ 128 := by
        rcases hshort with rfl | rfl
        · rw [List.length_nil] at hsum ⊢
          omega
        · rw [List.length_nil] at hsum ⊢
          omega
      refine not_disjoint_of_stems .container ha hb hne hra hrb hia hib himported himported' hx
        hy hbounds.1 hbounds.2 ?_ h
      rw [heq]
      rfl
    · intro hlength hmeets
      rcases exists_stems_of_meets hia hlength hmeets with ⟨x, y, heq, hle, hx, hy⟩
      have hlea := length_of_isIdentifier hia
      have hsum := congrArg List.length heq
      have hfirst : "net".toList.length = 3 := by decide
      have hid : isIdentifier (b.1 ++ '-' :: (y ++ ['m'])) = true := by
        apply isIdentifier_append hib _ hle
        rw [List.forall_mem_cons]
        exact ⟨rfl, markChar hia hy⟩
      simp only [List.length_append, List.length_cons, List.length_nil] at hsum hle
      refine not_disjoint_of_stems .network ha hb hne hra hrb hia hib himported himported' hx hy
        (by omega) (by omega) ?_ h
      rw [heq, ← net_eq, sourceUnit_net hid]

end

/-- An application `media`, and a container `media-web`. -/
def mediaServices : Dict Text Service :=
  (AList.singleton "media".toList ⟨true, true, .compose, .daemon, none, none, ∅, ∅⟩).insert
    "media-web".toList ⟨true, true, .oci, .daemon, none, none, ∅, ∅⟩

def media : Effective :=
  ⟨∅, mediaServices, forall_mem_of_all (by decide)⟩

end NixNas.Compose
