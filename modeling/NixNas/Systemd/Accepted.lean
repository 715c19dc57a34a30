import NixNas.Network.Vrf
import NixNas.Reconcile.Acceptance
import NixNas.Session.Names
import NixNas.Systemd.Naming
import NixNas.Systemd.Produced

/-!
# Which projections the reconciler accepts

The projection and the reconciler have a grammar of unit names each.
-/

open Dictionary Fallible Journal Joined

namespace NixNas.Systemd

open Network (NetworkFile)
open Reconcile (Accepts Kind isUnit nameChar safeTarget safeQuadletTarget nameChar_of_isIdentifier)
open Session (HexDigest)

/-! ## The lists of the manifest -/

section

variable {entries : List (Text × Text)} {k : Text}

theorem mem_written_keys : k ∈ (written entries).map Prod.fst ↔ k ∈ entries.map Prod.fst := by
  have hmem : k ∈ entries.foldl (fun store entry ↦ store.insert entry.1 entry.2)
      (∅ : Store Text Text) ↔ k ∈ entries.map Prod.fst := by
    rw [mem_foldl_insert]
    exact or_iff_right Finmap.notMem_empty
  unfold written
  rw [← hmem]
  generalize entries.foldl (fun store entry ↦ store.insert entry.1 entry.2)
    (∅ : Store Text Text) = store
  simp only [List.mem_map, List.mem_filterMap, mem_sorted, Finmap.mem_keys, Option.map_eq_some_iff]
  constructor
  · rintro ⟨_, ⟨key, hkey, _, _, rfl⟩, rfl⟩
    exact hkey
  · intro hk
    rcases Option.isSome_iff_exists.mp (Finmap.lookup_isSome.mpr hk) with ⟨value, hvalue⟩
    exact ⟨(k, value), ⟨k, hk, value, hvalue, rfl⟩, rfl⟩

theorem nodup_written : ((written entries).map Prod.fst).Nodup := by
  unfold written
  rw [List.map_filterMap]
  refine (nodup_sorted _).filterMap ?_
  intro a b c ha hb
  simp only [Option.mem_def, Option.map_map, Option.map_eq_some_iff, Function.comp_apply] at ha hb
  rcases ha with ⟨_, _, rfl⟩
  rcases hb with ⟨_, _, rfl⟩
  rfl

theorem perm_byTarget (links : List (Text × Text)) : (byTarget links).Perm links :=
  List.perm_insertionSort _ _

theorem append_empty (a : Output) : a ++ (∅ : Output) = a := by
  show Output.append a .empty = a
  unfold Output.append Output.empty
  simp only [List.append_nil]

end

section

variable {outputDir : Text} {sha256 : Text → Text} {effective : Effective} {p : Produced}
  {networks : List NetworkFile} {name : Text}

/-- What a document without Compose services takes in all. -/
def allSlots (sha256 : Text → Text) (effective : Effective) : Slots :=
  (Slots.each (serviceSlots sha256) (plainServices effective)).both
    (.each sessionSlots (sessionServices effective))

theorem Taken.all (h : Taken outputDir sha256 effective p) :
    Fills outputDir p.all (allSlots sha256 effective) := by
  unfold Produced.all
  rw [h.imports, append_empty]
  exact h.base.append h.sessions

theorem mem_links (h : Taken outputDir sha256 effective p) :
    name ∈ (augmented outputDir p networks).links.map Prod.fst ↔
      ∃ id role, (allSlots sha256 effective).unit id role name := by
  have hmem : name ∈ (augmented outputDir p networks).links.map Prod.fst ↔
      (∃ link ∈ p.base.links, link.target = name) ∨ ∃ link ∈ p.sessions.links, link.target = name := by
    show name ∈ (byTarget _).map Prod.fst ↔ _
    rw [((perm_byTarget _).map Prod.fst).mem_iff, List.map_append, List.mem_append, mem_written_keys,
      h.imports, append_empty]
    simp only [List.map_map, List.mem_map, Function.comp_apply]
    rfl
  rw [hmem, h.base.exists_link, h.sessions.exists_link]
  simp only [allSlots, Slots.both, exists_or]

theorem mem_manifest_quadlets (h : Taken outputDir sha256 effective p) :
    name ∈ p.manifest.quadletLinks.map Prod.fst ↔
      ∃ entry ∈ plainServices effective, ∃ role, QuadletSlot entry role name := by
  unfold Produced.manifest
  rw [mem_written_keys, h.imports, append_empty, List.map_map, List.mem_map]
  show (∃ link ∈ p.base.quadletLinks, link.target = name) ↔ _
  rw [h.base.exists_quadletLink]
  simp only [Slots.each, serviceSlots_quadlet]
  constructor
  · rintro ⟨_, role, entry, hentry, _, hslot⟩
    exact ⟨entry, hentry, role, hslot⟩
  · rintro ⟨entry, hentry, role, hslot⟩
    exact ⟨entry.1, role, entry, hentry, rfl, hslot⟩

theorem mem_quadlets (h : Taken outputDir sha256 effective p) :
    name ∈ (augmented outputDir p networks).quadletLinks.map Prod.fst ↔
      (∃ entry ∈ plainServices effective, ∃ role, QuadletSlot entry role name) ∨
        ∃ file ∈ networks, file.reference = name := by
  show name ∈ (byTarget _).map Prod.fst ↔ _
  rw [((perm_byTarget _).map Prod.fst).mem_iff, List.map_append, List.mem_append,
    mem_manifest_quadlets h]
  simp only [List.map_map, List.mem_map, Function.comp_apply]

theorem mem_owned (h : Taken outputDir sha256 effective p) :
    name ∈ (augmented outputDir p networks).ownedUnits ↔
      (∃ entry ∈ plainServices effective, Owned sha256 entry name) ∨
        ∃ entry ∈ sessionServices effective, entry.2.managed = true ∧ name = sessionTarget entry.1 := by
  show name ∈ sorted p.all.owned.toFinset ↔ _
  rw [mem_sorted, List.mem_toFinset, h.all.owned]
  simp only [allSlots, Slots.both, Slots.each, serviceSlots_owned, sessionSlots]

theorem mem_start (h : Taken outputDir sha256 effective p) :
    name ∈ (augmented outputDir p networks).startUnits ↔
      ∃ entry ∈ plainServices effective, Started sha256 entry name := by
  show name ∈ sorted p.all.start.toFinset ↔ _
  rw [mem_sorted, List.mem_toFinset, h.all.start]
  simp only [allSlots, Slots.both, Slots.each, serviceSlots_start, sessionSlots, Slots.none, and_false,
    exists_false, or_false]

theorem mem_stop (h : Taken outputDir sha256 effective p) :
    name ∈ (augmented outputDir p networks).stopUnits ↔
      (∃ entry ∈ plainServices effective, Stopped sha256 entry name) ∨
        ∃ entry ∈ sessionServices effective, entry.2.managed = true ∧ entry.2.enabled = false ∧
          name = sessionTarget entry.1 := by
  show name ∈ sorted p.all.stop.toFinset ↔ _
  rw [mem_sorted, List.mem_toFinset, h.all.stop]
  simp only [allSlots, Slots.both, Slots.each, serviceSlots_stop, sessionSlots]

theorem mem_fingerprints (h : Taken outputDir sha256 effective p) :
    name ∈ (augmented outputDir p networks).fingerprints ↔
      (∃ entry ∈ plainServices effective, Fingerprinted entry name) ∨
        ∃ entry ∈ sessionServices effective, entry.2.managed = true ∧ entry.2.enabled = true ∧
          name = sessionTarget entry.1 := by
  show name ∈ p.all.fingerprints.foldl _ ∅ ↔ _
  rw [mem_foldl_insert, or_iff_right Finmap.notMem_empty, h.all.fingerprint]
  simp only [allSlots, Slots.both, Slots.each, serviceSlots_fingerprint, sessionSlots]

theorem fingerprint_text : (augmented outputDir p networks).fingerprints.lookup name ≠ some .other := by
  intro hother
  rcases lookup_foldl_insert hother with hempty | ⟨_, _, _, hvalue⟩
  · rw [Finmap.lookup_empty] at hempty
    cases hempty
  · cases hvalue

end

/-! ## Which names are valid -/

/-- A unit or a source is named after the service. -/
def isNamed (service : Service) : Bool :=
  if service.kind = .session then service.managed
  else service.runtime ≠ .systemd || service.readiness ||
    (service.kind = .job && service.schedules ≠ 0)

/-- The services that units are named after have plain identifiers, and nothing is added to a
`.socket` unit. -/
structure Acceptable (effective : Effective) : Prop where
  identifiers : ∀ entry ∈ items effective.services, isNamed entry.2 = true →
    isIdentifier entry.1 = true
  sockets : ∀ entry ∈ items effective.services, entry.2.kind ≠ .session →
    entry.2.runtime = .systemd → ".socket".toList.isSuffixOf entry.2.unit = true →
      hasDropin entry.2 = false

section

variable {sha256 : Text → Text} {entry : Text × Service} {role : Role} {name unit : Text}
variable {id : Text}

theorem isNamed_of {service : Service} (hkind : service.kind ≠ .session)
    (h : service.runtime ≠ .systemd ∨ service.readiness = true ∨
      service.kind = .job ∧ 0 < service.schedules) : isNamed service = true := by
  unfold isNamed
  rw [if_neg hkind, Bool.or_eq_true, Bool.or_eq_true, Bool.and_eq_true, decide_eq_true_eq,
    decide_eq_true_eq, decide_eq_true_eq, or_assoc]
  exact h.imp_right (Or.imp_right fun h => ⟨h.1, Nat.ne_of_gt h.2⟩)

theorem isSystemdUnit_join {stem ext : Text} (hext : '.' ∉ ext)
    (h : isSystemdUnit (stem ++ '.' :: ext) = true) :
    stem ≠ [] ∧ ∀ c ∈ stem, nameChar c = true := by
  unfold isSystemdUnit at h
  rw [List.any_eq_true] at h
  rcases h with ⟨suffix, hsuffix, h⟩
  have hdot : ∃ e, '.' ∉ e ∧ suffix = '.' :: e := by
    simp only [List.mem_cons, List.not_mem_nil, or_false] at hsuffix
    rcases hsuffix with rfl | rfl | rfl | rfl | rfl | rfl
    · exact ⟨"service".toList, by decide, rfl⟩
    · exact ⟨"timer".toList, by decide, rfl⟩
    · exact ⟨"target".toList, by decide, rfl⟩
    · exact ⟨"path".toList, by decide, rfl⟩
    · exact ⟨"socket".toList, by decide, rfl⟩
    · exact ⟨"mount".toList, by decide, rfl⟩
  rcases hdot with ⟨e, he, rfl⟩
  rw [dropSuffix?_join hext he] at h
  split at h
  · rename_i found hfound
    split at hfound
    · rw [← Option.some.inj hfound, Bool.and_eq_true, Bool.and_eq_true, decide_eq_true_eq,
        List.all_eq_true] at h
      exact ⟨List.ne_nil_of_length_pos h.1.1, h.2⟩
    · cases hfound
  · cases h

theorem ownerSuffix_eq {suffix : Text} (h : suffix ∈ ownerSuffixes) :
    ∃ ext : Extension, ext ≠ .timer ∧ suffix = '.' :: ext.text := by
  simp only [ownerSuffixes, List.mem_cons, List.not_mem_nil, or_false] at h
  rcases h with rfl | rfl | rfl
  · exact ⟨.service, by decide, rfl⟩
  · exact ⟨.target, by decide, rfl⟩
  · exact ⟨.socket, by decide, rfl⟩

theorem owner_ne_timer {key : Text} (hsuffix : ∃ suffix ∈ ownerSuffixes, suffix.isSuffixOf unit = true) :
    unit ≠ unitName key .timer := by
  rcases hsuffix with ⟨suffix, hmem, hsuffix⟩
  rcases ownerSuffix_eq hmem with ⟨ext, htimer, rfl⟩
  rcases List.isSuffixOf_iff_suffix.mp hsuffix with ⟨stem, rfl⟩
  unfold unitName
  rw [← List.append_assoc, Ne, join_inj_right ext.dot_notMem Extension.timer.dot_notMem]
  exact fun heq => htimer (Extension.text_injective heq.2)

theorem exists_extension (hunit : isSystemdUnit unit = true)
    (hsuffix : ∃ suffix ∈ ownerSuffixes, suffix.isSuffixOf unit = true) :
    ∃ stem, ∃ ext : Extension, ext ≠ .timer ∧ unit = stem ++ '.' :: ext.text ∧ stem ≠ [] ∧
      ∀ c ∈ stem, nameChar c = true := by
  rcases hsuffix with ⟨suffix, hmem, hsuffix⟩
  rcases ownerSuffix_eq hmem with ⟨ext, htimer, rfl⟩
  rcases List.isSuffixOf_iff_suffix.mp hsuffix with ⟨stem, rfl⟩
  exact ⟨stem, ext, htimer, rfl, isSystemdUnit_join ext.dot_notMem hunit⟩

theorem isUnit_of_systemd (hunit : isSystemdUnit unit = true)
    (hsuffix : ∃ suffix ∈ ownerSuffixes, suffix.isSuffixOf unit = true) : isUnit unit = true := by
  rcases exists_extension hunit hsuffix with ⟨stem, ext, _, rfl, hstem⟩
  refine (Reconcile.isUnit_join ext.dot_notMem).mpr ⟨?_, hstem⟩
  cases ext <;> decide

theorem safeTarget_dropinTarget (hunit : isSystemdUnit unit = true)
    (hsuffix : ∃ suffix ∈ ownerSuffixes, suffix.isSuffixOf unit = true) :
    (safeTarget (dropinTarget unit)).isSome = true ↔ ".socket".toList.isSuffixOf unit = false := by
  rcases exists_extension hunit hsuffix with ⟨stem, ext, htimer, rfl, hstem⟩
  have hsocket : ".socket".toList.isSuffixOf (stem ++ '.' :: ext.text) = true ↔ ext = .socket := by
    rw [List.isSuffixOf_iff_suffix]
    constructor
    · rintro ⟨other, heq⟩
      exact Extension.text_injective
        ((join_inj_right (c := stem) Extension.socket.dot_notMem ext.dot_notMem).mp heq).2.symm
    · rintro rfl
      exact ⟨stem, rfl⟩
  unfold dropinTarget
  rw [Reconcile.safeTarget_dropin, ← Bool.not_eq_true, hsocket]
  refine (Reconcile.isName_join ["service".toList, "timer".toList, "target".toList]
    (by decide) ext.dot_notMem).trans ?_
  rw [and_iff_left hstem]
  cases ext with
  | timer => exact (htimer rfl).elim
  | _ => decide

theorem nameChars_routeLabel (hhex : HexDigest sha256) {route : Text}
    (hid : isIdentifier id = true) (hroute : isIdentifier route = true) :
    ∀ c ∈ "activate-".toList ++ routeLabel sha256 id route, nameChar c = true := by
  rw [List.forall_mem_append]
  refine ⟨forall_mem_of_all (by decide), ?_⟩
  unfold routeLabel
  split
  · rw [List.forall_mem_append]
    refine ⟨forall_mem_of_all (by decide), ?_⟩
    intro c hc
    have hchar := hhex _ c hc
    unfold Session.isHex at hchar
    rw [Bool.or_eq_true] at hchar
    rcases hchar with hdigit | hletter
    · unfold nameChar Char.isAlphanum
      rw [hdigit, Bool.or_true, Bool.true_or]
    · have hall : ∀ d ∈ ['a', 'b', 'c', 'd', 'e', 'f'], nameChar d = true :=
        forall_mem_of_all (by decide)
      exact hall c (List.contains_iff_mem.mp hletter)
  · rw [List.forall_mem_append, List.forall_mem_cons]
    exact ⟨nameChar_of_isIdentifier hid, by decide, nameChar_of_isIdentifier hroute⟩

theorem nameChars_timer {index : Nat} (hid : isIdentifier id = true) :
    ∀ c ∈ "timer-".toList ++ (id ++ '-' :: (Nat.repr index).toList), nameChar c = true := by
  rw [List.forall_mem_append, List.forall_mem_append, List.forall_mem_cons]
  refine ⟨forall_mem_of_all (by decide), nameChar_of_isIdentifier hid, by decide, ?_⟩
  intro c hc
  unfold nameChar Char.isAlphanum
  rw [isDigit_of_mem_repr hc, Bool.or_true, Bool.true_or]

theorem isUnit_prefixed {first : Text} {ext : Extension} (hfirst : ∀ c ∈ first, nameChar c = true)
    (hid : isIdentifier id = true) : isUnit (unitName (first ++ id) ext) = true := by
  rw [isUnit_unitName, List.forall_mem_append]
  exact ⟨hfirst, nameChar_of_isIdentifier hid⟩

end

/-! ## The names of one service -/

/-- What the checks and the condition say of one service that is no session. -/
structure Proper (entry : Text × Service) : Prop where
  kind : entry.2.kind ≠ .session
  compose : entry.2.runtime ≠ .compose
  unit : entry.2.runtime = .systemd → isSystemdUnit entry.2.unit = true
  owner : ∃ suffix ∈ ownerSuffixes, suffix.isSuffixOf (derivedOwner entry.1 entry.2) = true
  identifier : isNamed entry.2 = true → isIdentifier entry.1 = true
  socket : entry.2.runtime = .systemd → ".socket".toList.isSuffixOf entry.2.unit = true →
    hasDropin entry.2 = false

section

variable {sha256 : Text → Text} {entry : Text × Service} {role : Role} {route name : Text}

theorem Proper.isUnit_owner (h : Proper entry) :
    isUnit (derivedOwner entry.1 entry.2) = true := by
  by_cases hruntime : entry.2.runtime = .systemd
  · have howner := h.owner
    rw [derivedOwner_systemd hruntime] at howner ⊢
    exact isUnit_of_systemd (h.unit hruntime) howner
  · rw [derivedOwner_eq hruntime h.compose, isUnit_unitName]
    exact nameChar_of_isIdentifier (h.identifier (isNamed_of h.kind (.inl hruntime)))

theorem Proper.isUnit_ready (h : Proper entry) (hready : entry.2.readiness = true) :
    isUnit (readyUnit entry.1) = true := by
  rw [readyUnit_eq]
  exact isUnit_prefixed (forall_mem_of_all (by decide))
    (h.identifier (isNamed_of h.kind (.inr (.inl hready))))

theorem Proper.isUnit_timer (h : Proper entry) (hjob : entry.2.kind = .job) {index : Nat}
    (hindex : index < entry.2.schedules) : isUnit (timerUnit entry.1 index) = true := by
  rw [timerUnit_eq, isUnit_unitName]
  exact nameChars_timer (h.identifier (isNamed_of h.kind
    (.inr (.inr ⟨hjob, Nat.zero_lt_of_lt hindex⟩))))

theorem isUnit_socket (hhex : HexDigest sha256) (hname : socketUnit sha256 entry.1 route = .ok name) :
    isUnit name = true := by
  rcases socketUnit_eq_ok.mp hname with ⟨hid, hroute, rfl⟩
  rw [isUnit_unitName]
  exact nameChars_routeLabel hhex hid hroute

theorem isUnit_proxy (hhex : HexDigest sha256) (hname : proxyUnit sha256 entry.1 route = .ok name) :
    isUnit name = true := by
  rcases proxyUnit_eq_ok.mp hname with ⟨hid, hroute, rfl⟩
  rw [isUnit_unitName]
  exact nameChars_routeLabel hhex hid hroute

theorem Proper.isUnit_owned (h : Proper entry) (hhex : HexDigest sha256)
    (howned : Owned sha256 entry name) : isUnit name = true := by
  cases howned with
  | owner _ => exact h.isUnit_owner
  | readiness _ hready => exact h.isUnit_ready hready
  | socket _ _ hname => exact isUnit_socket hhex hname
  | proxy _ _ hname => exact isUnit_proxy hhex hname
  | timer _ hjob hindex => exact h.isUnit_timer hjob hindex

theorem Proper.isUnit_fingerprinted (h : Proper entry) (hfingerprint : Fingerprinted entry name) :
    isUnit name = true := by
  cases hfingerprint with
  | owner => exact h.isUnit_owner
  | readiness hready => exact h.isUnit_ready hready

theorem Started.owned (h : Started sha256 entry name) : Owned sha256 entry name := by
  cases h with
  | owner hmanaged _ _ _ => exact .owner hmanaged
  | socket _ hdemand hroute hname => exact .socket hdemand hroute hname
  | timer hmanaged _ hjob hindex => exact .timer hmanaged hjob hindex

theorem Stopped.owned (h : Stopped sha256 entry name) : Owned sha256 entry name := by
  cases h with
  | owner hmanaged _ => exact .owner hmanaged
  | readiness hmanaged _ hready => exact .readiness hmanaged hready
  | socket _ hdemand hroute hname => exact .socket hdemand hroute hname
  | proxy _ hdemand hroute hname => exact .proxy hdemand hroute hname
  | timer hmanaged _ hjob hindex => exact .timer hmanaged hjob hindex

theorem runtime_of_isGenerated {service : Service} (h : isGenerated service) :
    service.runtime ≠ .systemd ∧ service.runtime ≠ .compose := by
  rcases h with h | h | h <;> rw [h] <;> exact ⟨nofun, nofun⟩

theorem Proper.safeTarget_unitSlot (h : Proper entry) (hhex : HexDigest sha256)
    (hslot : UnitSlot sha256 entry role name) : (safeTarget name).isSome = true := by
  cases hslot with
  | owner hgenerated =>
    have hunit := h.isUnit_owner
    rcases runtime_of_isGenerated hgenerated with ⟨hsystemd, hcompose⟩
    rw [derivedOwner_eq hsystemd hcompose] at hunit ⊢
    exact safeTarget_unitName.mpr hunit
  | dropin hruntime hdropin =>
    have howner := h.owner
    rw [derivedOwner_systemd hruntime] at howner ⊢
    rw [safeTarget_dropinTarget (h.unit hruntime) howner, Bool.eq_false_iff]
    intro hsocket
    rw [h.socket hruntime hsocket] at hdropin
    cases hdropin
  | readiness hready =>
    have hunit := h.isUnit_ready hready
    rw [readyUnit_eq] at hunit ⊢
    exact safeTarget_unitName.mpr hunit
  | socket _ _ hname =>
    have hunit := isUnit_socket hhex hname
    rcases socketUnit_eq_ok.mp hname with ⟨_, _, rfl⟩
    exact safeTarget_unitName.mpr hunit
  | proxy _ _ hname =>
    have hunit := isUnit_proxy hhex hname
    rcases proxyUnit_eq_ok.mp hname with ⟨_, _, rfl⟩
    exact safeTarget_unitName.mpr hunit
  | timer hjob hindex =>
    have hunit := h.isUnit_timer hjob hindex
    rw [timerUnit_eq] at hunit ⊢
    exact safeTarget_unitName.mpr hunit

theorem unitSlot_ne_target (hslot : UnitSlot sha256 entry role name) (key : Text) :
    name ≠ unitName key .target := by
  have hext : ∀ {other : Text} {ext : Extension}, ext ≠ .target →
      unitName other ext ≠ unitName key .target :=
    fun hne heq => hne (unitName_inj.mp heq).2
  cases hslot with
  | owner hgenerated =>
    rcases runtime_of_isGenerated hgenerated with ⟨hsystemd, hcompose⟩
    rw [derivedOwner_eq hsystemd hcompose]
    exact hext nofun
  | dropin _ _ => exact dropinTarget_ne
  | readiness _ =>
    rw [readyUnit_eq]
    exact hext nofun
  | socket _ _ hname =>
    rcases socketUnit_eq_ok.mp hname with ⟨_, _, rfl⟩
    exact hext nofun
  | proxy _ _ hname =>
    rcases proxyUnit_eq_ok.mp hname with ⟨_, _, rfl⟩
    exact hext nofun
  | timer _ _ =>
    rw [timerUnit_eq]
    exact hext nofun

end

/-! ## Quadlet sources -/

section

variable {id : Text} {service : Service}

theorem containerFile_eq : containerFile id = Reconcile.quadletFile id .container := by
  unfold containerFile Reconcile.quadletFile
  rw [List.append_assoc]
  rfl

theorem networkReference_eq : Network.networkReference id service.toService =
    Reconcile.quadletFile ((if service.kind = .session then "snet-".toList else "net-".toList) ++ id)
      .network := by
  unfold Network.networkReference Reconcile.quadletFile
  split
  · rw [show "nas-v2-snet-".toList = "nas-v2-".toList ++ "snet-".toList by decide,
      List.append_assoc, List.append_assoc, List.append_assoc]
    rfl
  · rw [show "nas-v2-net-".toList = "nas-v2-".toList ++ "net-".toList by decide,
      List.append_assoc, List.append_assoc, List.append_assoc]
    rfl

theorem safeQuadletTarget_container (hid : isIdentifier id = true) :
    (safeQuadletTarget (containerFile id)).isSome = true := by
  rw [containerFile_eq, Reconcile.safeQuadletTarget_eq,
    if_pos ⟨Reconcile.ne_nil_of_isIdentifier hid, nameChar_of_isIdentifier hid⟩]
  rfl

theorem safeQuadletTarget_network (hid : isIdentifier id = true) :
    (safeQuadletTarget (Network.networkReference id service.toService)).isSome = true := by
  have hfirst : ∀ c ∈ if service.kind = .session then "snet-".toList else "net-".toList,
      nameChar c = true := by
    split <;> exact forall_mem_of_all (by decide)
  rw [networkReference_eq, Reconcile.safeQuadletTarget_eq, if_pos]
  · rfl
  · rw [List.forall_mem_append]
    exact ⟨List.append_ne_nil_of_right_ne_nil _ (Reconcile.ne_nil_of_isIdentifier hid), hfirst,
      nameChar_of_isIdentifier hid⟩

end

/-! ## The whole manifest -/

section

variable {r : Renderers} {outputDir : Text} {effective : Effective} {firewalldEnabled : Bool}
  {p : Produced} {networks : List NetworkFile}
variable {entry : Text × Service}

theorem project_ok (h : project r outputDir effective firewalldEnabled = .ok (p, networks)) :
    produce r outputDir effective = .ok p ∧
      (byKey effective.network.services).foldlM (Network.addNetwork r.sha256 effective.network
        firewalldEnabled (p.manifest.quadletLinks.map Prod.fst).toFinset) [] = .ok networks := by
  unfold project at h
  rcases bind_ok h with ⟨q, hproduce, h⟩
  rcases bind_ok h with ⟨files, hfiles, h⟩
  cases h
  exact ⟨hproduce, mapError_ok.mp hfiles⟩

theorem safe_networks (hacceptable : Acceptable effective)
    (h : project r outputDir effective firewalldEnabled = .ok (p, networks)) :
    ∀ file ∈ networks, (safeQuadletTarget file.reference).isSome = true := by
  intro file hfile
  rcases (Network.mem_networks (project_ok h).2 file).mp hfile with
    hempty | ⟨entry, hentry, hnetwork⟩
  · exact (List.not_mem_nil hempty).elim
  · rcases Network.serviceNetwork_some hnetwork with ⟨hactive, hcontainer, hreference⟩
    rcases mem_items_mapValues.mp (mem_byKey.mp hentry) with ⟨service, hservice, heq⟩
    rw [← heq] at hactive hcontainer hreference
    rw [hreference]
    apply safeQuadletTarget_network
    apply hacceptable.identifiers _ hservice
    rw [Network.isActive, Bool.and_eq_true] at hactive
    by_cases hkind : service.kind = .session
    · unfold isNamed
      rw [if_pos hkind]
      exact hactive.1
    · refine isNamed_of hkind (.inl fun hsystemd => ?_)
      rw [hsystemd] at hcontainer
      cases hcontainer

theorem nodup_links (h : Taken outputDir r.sha256 effective p) :
    ((augmented outputDir p networks).links.map Prod.fst).Nodup := by
  show ((byTarget _).map Prod.fst).Nodup
  rw [((perm_byTarget _).map Prod.fst).nodup_iff, List.map_append, List.map_map, h.imports,
    append_empty, List.nodup_append]
  refine ⟨nodup_written, h.targets.nodup ?_, ?_⟩
  · have hkeys : ((sessionServices effective).map Prod.fst).Nodup := by
      refine List.Nodup.sublist (List.filter_sublist.map Prod.fst) ?_
      exact ((List.perm_insertionSort _ _).map Prod.fst).nodup_iff.mpr (nodup_items _)
    rw [List.Nodup, List.pairwise_map] at hkeys ⊢
    refine hkeys.imp fun hne heq => hne ?_
    rw [sessionTarget_eq, sessionTarget_eq, unitName_inj, List.append_cancel_left_eq] at heq
    exact heq.1
  · intro target htarget target' htarget' heq
    subst heq
    rw [mem_written_keys, List.map_map] at htarget
    rcases List.mem_map.mp htarget with ⟨link, hlink, rfl⟩
    rcases ((h.base.links link).mp hlink).1 with ⟨entry, _, hslot⟩
    rcases List.mem_map.mp htarget' with ⟨other, hother, htarget⟩
    rcases ((h.sessions.links other).mp hother).1 with ⟨session, _, _, _, _, _, hname⟩
    refine unitSlot_ne_target (serviceSlots_unit.mp hslot).2 ("session-".toList ++ session.1) ?_
    rw [← sessionTarget_eq, ← hname]
    exact htarget.symm

theorem nodup_quadlets (h : project r outputDir effective firewalldEnabled = .ok (p, networks)) :
    ((augmented outputDir p networks).quadletLinks.map Prod.fst).Nodup := by
  rcases Network.nodup_references (project_ok h).2 List.nodup_nil nofun with ⟨hnodup, hfresh⟩
  show ((byTarget _).map Prod.fst).Nodup
  rw [((perm_byTarget _).map Prod.fst).nodup_iff, List.map_append, List.map_map, List.nodup_append]
  refine ⟨nodup_written, hnodup, ?_⟩
  intro target htarget target' htarget' heq
  subst heq
  rcases List.mem_map.mp htarget' with ⟨file, hfile, rfl⟩
  exact hfresh file hfile (List.mem_toFinset.mpr htarget)

theorem proper_of (hunits : UnitsValid effective)
    (hcompose : ∀ entry ∈ items effective.services, entry.2.runtime ≠ .compose)
    (h : Taken outputDir r.sha256 effective p) (hacceptable : Acceptable effective)
    (hentry : entry ∈ plainServices effective) : Proper entry := by
  rcases mem_plainServices.mp hentry with ⟨hmem, hkind⟩
  exact ⟨hkind, hcompose _ hmem, hunits _ hmem, h.owner _ hentry, hacceptable.identifiers _ hmem,
    hacceptable.sockets _ hmem hkind⟩

theorem isSchemaId_of (h : entry ∈ items effective.services) : Caddy.isSchemaId entry.1 = true := by
  apply effective.identifiers
  rw [← keys_items]
  exact List.mem_map_of_mem h

/-- Where the reconciler accepts the manifest, the units named after services are plain. -/
theorem acceptable_of_accepts (hunits : UnitsValid effective)
    (hcompose : ∀ entry ∈ items effective.services, entry.2.runtime ≠ .compose)
    (htaken : Taken outputDir r.sha256 effective p)
    (h : Accepts (augmented outputDir p networks)) : Acceptable effective := by
  have hsafe : ∀ {id : Text} {role : Role} {name : Text},
      (allSlots r.sha256 effective).unit id role name → (safeTarget name).isSome = true := by
    intro id role name hunit
    have hname : name ∈ (augmented outputDir p networks).links.map Prod.fst :=
      (mem_links htaken).mpr ⟨id, role, hunit⟩
    rcases List.mem_map.mp hname with ⟨link, hlink, rfl⟩
    exact h.safe .systemd link hlink
  constructor
  · intro entry hentry hnamed
    rw [← nameChars_iff (isSchemaId_of hentry)]
    unfold isNamed at hnamed
    split at hnamed
    · rename_i hkind
      have hunit := h.ownedUnits _ ((mem_owned htaken).mpr
        (.inr ⟨entry, mem_sessionServices.mpr ⟨hentry, hkind⟩, hnamed, rfl⟩))
      rw [sessionTarget_eq, isUnit_unitName, List.forall_mem_append] at hunit
      exact hunit.2
    · rename_i hkind
      have hplain := mem_plainServices.mpr ⟨hentry, hkind⟩
      have hfingerprint : ∀ {name : Text}, Fingerprinted entry name → isUnit name = true := by
        intro name hname
        exact (h.fingerprints name (Finmap.mem_keys.mpr
          ((mem_fingerprints htaken).mpr (.inl ⟨entry, hplain, hname⟩)))).1
      rw [Bool.or_eq_true, Bool.or_eq_true, Bool.and_eq_true, decide_eq_true_eq, decide_eq_true_eq,
        decide_eq_true_eq] at hnamed
      rcases hnamed with (hruntime | hready) | ⟨hjob, hschedules⟩
      · have hunit := hfingerprint .owner
        rwa [derivedOwner_eq hruntime (hcompose _ hentry), isUnit_unitName] at hunit
      · have hunit := hfingerprint (.readiness hready)
        rw [readyUnit_eq, isUnit_unitName, List.forall_mem_append] at hunit
        exact hunit.2
      · have htimer := hsafe (.inl ⟨entry, hplain, serviceSlots_unit.mpr
          ⟨rfl, .timer hjob (Nat.pos_of_ne_zero hschedules)⟩⟩)
        rw [timerUnit_eq, safeTarget_unitName, isUnit_unitName, List.forall_mem_append,
          List.forall_mem_append] at htimer
        exact htimer.2.1
  · intro entry hentry hkind hruntime hsocket
    by_contra hdropin
    have hplain := mem_plainServices.mpr ⟨hentry, hkind⟩
    have howner := htaken.owner entry hplain
    have htarget := hsafe (.inl ⟨entry, hplain, serviceSlots_unit.mpr
      ⟨rfl, .dropin hruntime (Bool.not_eq_false _ |>.mp hdropin)⟩⟩)
    rw [derivedOwner_systemd hruntime] at howner htarget
    rw [(safeTarget_dropinTarget (hunits _ hentry hruntime) howner).mp htarget] at hsocket
    cases hsocket

theorem isUnit_sessionTarget (hacceptable : Acceptable effective)
    (hentry : entry ∈ sessionServices effective) (hmanaged : entry.2.managed = true) :
    isUnit (sessionTarget entry.1) = true := by
  rcases mem_sessionServices.mp hentry with ⟨hmem, hkind⟩
  rw [sessionTarget_eq]
  apply isUnit_prefixed (forall_mem_of_all (by decide))
  apply hacceptable.identifiers _ hmem
  unfold isNamed
  rw [if_pos hkind]
  exact hmanaged

/-- The reconciler accepts the projection of a document exactly where the services that units are
named after have plain identifiers, and nothing is added to a `.socket` unit. -/
theorem accepts_iff (hunits : UnitsValid effective)
    (hcompose : ∀ entry ∈ items effective.services, entry.2.runtime ≠ .compose)
    (hhex : HexDigest r.sha256)
    (h : project r outputDir effective firewalldEnabled = .ok (p, networks)) :
    Accepts (augmented outputDir p networks) ↔ Acceptable effective := by
  have htaken := produce_ok hcompose (project_ok h).1
  constructor
  · exact acceptable_of_accepts hunits hcompose htaken
  · intro hacceptable
    have hproper : ∀ entry ∈ plainServices effective, Proper entry :=
      fun _ hentry => proper_of hunits hcompose htaken hacceptable hentry
    have howned : ∀ name ∈ (augmented outputDir p networks).ownedUnits, isUnit name = true := by
      intro name hname
      rcases (mem_owned htaken).mp hname with ⟨entry, hentry, hslot⟩ | ⟨entry, hentry, hmanaged, rfl⟩
      · exact (hproper entry hentry).isUnit_owned hhex hslot
      · exact isUnit_sessionTarget hacceptable hentry hmanaged
    have hstart : (augmented outputDir p networks).startUnits ⊆
        (augmented outputDir p networks).ownedUnits := by
      intro name hname
      rcases (mem_start htaken).mp hname with ⟨entry, hentry, hslot⟩
      exact (mem_owned htaken).mpr (.inl ⟨entry, hentry, hslot.owned⟩)
    have hstop : (augmented outputDir p networks).stopUnits ⊆
        (augmented outputDir p networks).ownedUnits := by
      intro name hname
      rcases (mem_stop htaken).mp hname with
        ⟨entry, hentry, hslot⟩ | ⟨entry, hentry, hmanaged, _, rfl⟩
      · exact (mem_owned htaken).mpr (.inl ⟨entry, hentry, hslot.owned⟩)
      · exact (mem_owned htaken).mpr (.inr ⟨entry, hentry, hmanaged, rfl⟩)
    refine ⟨rfl, ?_, ?_, howned, fun name hname => howned name (hstart hname),
      fun name hname => howned name (hstop hname), hstart, hstop, ?_⟩
    · intro kind link hlink
      cases kind with
      | systemd =>
        rcases (mem_links htaken).mp (List.mem_map_of_mem (f := Prod.fst) hlink) with
          ⟨id, role, ⟨entry, hentry, hslot⟩ | ⟨entry, hentry, hmanaged, _, _, _, hname⟩⟩
        · exact (hproper entry hentry).safeTarget_unitSlot hhex (serviceSlots_unit.mp hslot).2
        · have hunit := isUnit_sessionTarget hacceptable hentry hmanaged
          show (safeTarget link.1).isSome = true
          rw [hname]
          rw [sessionTarget_eq] at hunit ⊢
          exact safeTarget_unitName.mpr hunit
      | quadlet =>
        rcases (mem_quadlets htaken).mp (List.mem_map_of_mem (f := Prod.fst) hlink) with
          ⟨entry, hentry, role, hslot⟩ | ⟨file, hfile, hreference⟩
        · show (safeQuadletTarget link.1).isSome = true
          generalize link.1 = target at hslot
          rcases hslot with ⟨hruntime⟩
          have hproperEntry := hproper entry hentry
          apply safeQuadletTarget_container
          apply hproperEntry.identifier
          refine isNamed_of hproperEntry.kind (.inl ?_)
          rcases hruntime with hruntime | hruntime <;> rw [hruntime] <;> exact nofun
        · show (safeQuadletTarget link.1).isSome = true
          rw [← hreference]
          exact safe_networks hacceptable h file hfile
    · intro kind
      cases kind with
      | systemd => exact nodup_links htaken
      | quadlet => exact nodup_quadlets h
    · intro name hname
      refine ⟨?_, fingerprint_text⟩
      rcases (mem_fingerprints htaken).mp (Finmap.mem_keys.mp hname) with
        ⟨entry, hentry, hslot⟩ | ⟨entry, hentry, hmanaged, _, rfl⟩
      · exact (hproper entry hentry).isUnit_fingerprinted hslot
      · exact isUnit_sessionTarget hacceptable hentry hmanaged

end

/-! ## A limit on a socket -/

def bareService (runtime : Network.RuntimeType) : Service where
  enabled := true
  managed := true
  runtime := runtime
  kind := .daemon
  network := none
  networkProfile := none
  listeners := ∅
  routes := ∅
  unit := []
  dynamicIdentity := false
  activation := .persistent
  schedules := 0
  readiness := false
  dependencies := []
  limits := ⟨none, none, none, none⟩
  accelerators := []
  sandbox := ⟨.inherit, false, false, [], [], [], []⟩
  storage := []
  credentials := []

def bareRenderers : Renderers where
  file _ _ := .ok []
  fingerprint _ _ := []
  importCompose id := .error (.renderer id)
  sha256 := Session.zeroDigest

theorem hexDigest_zeroDigest : HexDigest Session.zeroDigest := by
  intro value c hc
  rw [List.eq_of_mem_replicate hc]
  decide

def limitedSocket : Service :=
  { bareService .systemd with
    unit := "cockpit.socket".toList
    limits := ⟨none, none, some "1073741824".toList, none⟩ }

def socketDocument : Effective where
  networkProfiles := ∅
  storageResources := ∅
  credentials := ∅
  services := .singleton "cockpit".toList limitedSocket
  identifiers := forall_mem_of_all (l := ["cockpit".toList]) (by decide)

theorem unitsValid_socketDocument : UnitsValid socketDocument := by
  intro entry hentry _
  rw [List.mem_singleton.mp hentry]
  decide

theorem runtime_socketDocument :
    ∀ entry ∈ items socketDocument.services, entry.2.runtime ≠ .compose := by
  intro entry hentry
  rw [List.mem_singleton.mp hentry]
  exact nofun

theorem projects_socketDocument : ∃ out,
    project bareRenderers "/run/out".toList socketDocument true = .ok out :=
  exists_of_isOk (by decide)

/-- The drop-in of the socket is a target that the reconciler refuses. -/
theorem not_accepts_socket : UnitsValid socketDocument ∧ ∃ p networks,
    project bareRenderers "/run/out".toList socketDocument true = .ok (p, networks) ∧
      ¬ Accepts (augmented "/run/out".toList p networks) := by
  rcases projects_socketDocument with ⟨⟨p, networks⟩, hproject⟩
  refine ⟨unitsValid_socketDocument, p, networks, hproject, ?_⟩
  intro haccepts
  have hacceptable := acceptable_of_accepts unitsValid_socketDocument runtime_socketDocument
    (produce_ok runtime_socketDocument (project_ok hproject).1) haccepts
  have hdropin := hacceptable.sockets _ (.head _) nofun rfl (by decide)
  exact absurd hdropin (by decide)

theorem accepts_iff_socket : ∃ p networks,
    project bareRenderers "/run/out".toList socketDocument true = .ok (p, networks) ∧
      (Accepts (augmented "/run/out".toList p networks) ↔ Acceptable socketDocument) := by
  rcases projects_socketDocument with ⟨⟨p, networks⟩, hproject⟩
  exact ⟨p, networks, hproject, accepts_iff unitsValid_socketDocument runtime_socketDocument
    hexDigest_zeroDigest hproject⟩

end NixNas.Systemd
