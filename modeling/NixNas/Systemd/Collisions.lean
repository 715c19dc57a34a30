import NixNas.Systemd.Accepted

/-!
# Services that take each other's names

The files, the links and the lists of units are dictionaries and sets, in which the last entry wins.
-/

open Dictionary Joined

namespace NixNas.Systemd

/-- No name is taken for two purposes, and nothing is both started and stopped. -/
structure CollisionFree (p : Produced) : Prop where
  files : ∀ f ∈ p.all.files, ∀ g ∈ p.all.files, f.path = g.path →
    f.service = g.service ∧ f.role = g.role
  links : ∀ l ∈ p.all.links, ∀ m ∈ p.all.links, l.target = m.target →
    l.service = m.service ∧ l.role = m.role
  quadletLinks : ∀ l ∈ p.all.quadletLinks, ∀ m ∈ p.all.quadletLinks, l.target = m.target →
    l.service = m.service ∧ l.role = m.role
  units : ∀ unit ∈ p.manifest.startUnits, unit ∉ p.manifest.stopUnits

def isStarted (service : Service) : Prop :=
  service.managed = true ∧ service.enabled = true ∧ service.kind = .daemon ∧
    service.activation = .persistent

def isStopped (service : Service) : Prop := service.managed = true ∧ service.enabled = false

/-- No service is called like what is generated for another one, and no two services share a
systemd unit to which both add something or which one starts and the other one stops. -/
structure Separate (sha256 : Text → Text) (effective : Effective) : Prop where
  ready : ∀ a ∈ plainServices effective, ∀ b ∈ plainServices effective, isGenerated a.2 →
    b.2.readiness = true → a.1 ≠ "ready-".toList ++ b.1
  proxy : ∀ a ∈ plainServices effective, ∀ b ∈ plainServices effective, isGenerated a.2 →
    isOnDemand b.2 = true → ∀ route ∈ b.2.routes.keys, isHashed b.1 route = false →
      a.1 ≠ "activate-".toList ++ (b.1 ++ '-' :: route)
  digests : ∀ a ∈ plainServices effective, ∀ b ∈ plainServices effective, isOnDemand a.2 = true →
    isOnDemand b.2 = true → ∀ route ∈ a.2.routes.keys, ∀ route' ∈ b.2.routes.keys,
      isHashed a.1 route = true → isHashed b.1 route' = true →
        sha256 (a.1 ++ Char.ofNat 0 :: route) = sha256 (b.1 ++ Char.ofNat 0 :: route') →
          a.1 = b.1 ∧ route = route'
  dropins : ∀ a ∈ plainServices effective, ∀ b ∈ plainServices effective,
    a.2.runtime = .systemd → b.2.runtime = .systemd → hasDropin a.2 = true →
      hasDropin b.2 = true → a.2.unit = b.2.unit → a.1 = b.1
  owners : ∀ a ∈ plainServices effective, ∀ b ∈ plainServices effective, isStarted a.2 →
    isStopped b.2 → derivedOwner a.1 a.2 ≠ derivedOwner b.1 b.2
  gates : ∀ a ∈ plainServices effective, ∀ b ∈ plainServices effective, isStarted a.2 →
    isStopped b.2 → b.2.readiness = true → derivedOwner a.1 a.2 ≠ readyUnit b.1
  activations : ∀ a ∈ plainServices effective, ∀ b ∈ plainServices effective, isStarted a.2 →
    isOnDemand b.2 = true → b.2.enabled = false → ∀ route ∈ b.2.routes.keys, ∀ name,
      socketUnit sha256 b.1 route = .ok name ∨ proxyUnit sha256 b.1 route = .ok name →
        derivedOwner a.1 a.2 ≠ name
  sessions : ∀ a ∈ plainServices effective, ∀ b ∈ sessionServices effective, isStarted a.2 →
    isStopped b.2 → derivedOwner a.1 a.2 ≠ sessionTarget b.1
  sockets : ∀ a ∈ plainServices effective, ∀ b ∈ plainServices effective, isStopped a.2 →
    isOnDemand b.2 = true → b.2.enabled = true → ∀ route ∈ b.2.routes.keys, ∀ name,
      socketUnit sha256 b.1 route = .ok name → derivedOwner a.1 a.2 ≠ name

/-! ## Labels -/

section

variable {sha256 : Text → Text} {effective : Effective} {id id' route route' : Text}

theorem underscore_notMem (h : Caddy.isSchemaId id = true) : '_' ∉ id :=
  fun hmem => absurd (schemaIdChar h '_' hmem) (by decide)

theorem dot_notMem (h : Caddy.isSchemaId id = true) : '.' ∉ id :=
  fun hmem => absurd (schemaIdChar h '.' hmem) (by decide)

theorem isSchemaId_of_isIdentifier (h : isIdentifier id = true) : Caddy.isSchemaId id = true := by
  unfold Caddy.isSchemaId
  rw [h]
  rfl

theorem hyphens_of_not_hashed (h : isHashed id route = false) : '-' ∉ id ∧ '-' ∉ route := by
  unfold isHashed at h
  rw [Bool.or_eq_false_iff, Bool.or_eq_false_iff] at h
  rw [← List.contains_iff_mem, ← List.contains_iff_mem, h.1.1, h.1.2]
  exact ⟨Bool.false_ne_true, Bool.false_ne_true⟩

theorem underscore_mem_routeLabel (h : isHashed id route = true) :
    '_' ∈ routeLabel sha256 id route := by
  unfold routeLabel
  rw [if_pos h]
  exact List.mem_append_left _ (by decide)

theorem underscore_notMem_routeLabel (hid : isIdentifier id = true) (hroute : isIdentifier route = true)
    (h : isHashed id route = false) : '_' ∉ routeLabel sha256 id route := by
  unfold routeLabel
  rw [h, if_neg Bool.false_ne_true, List.mem_append, List.mem_cons, not_or, not_or]
  exact ⟨underscore_notMem (isSchemaId_of_isIdentifier hid), by decide,
    underscore_notMem (isSchemaId_of_isIdentifier hroute)⟩

theorem routeLabel_eq (hid : isIdentifier id = true) (hroute : isIdentifier route = true)
    (hid' : isIdentifier id' = true) (hroute' : isIdentifier route' = true)
    (h : routeLabel sha256 id route = routeLabel sha256 id' route') :
    (id = id' ∧ route = route') ∨ isHashed id route = true ∧ isHashed id' route' = true ∧
      sha256 (id ++ Char.ofNat 0 :: route) = sha256 (id' ++ Char.ofNat 0 :: route') := by
  cases hhashed : isHashed id route with
  | true =>
    have hmem : '_' ∈ routeLabel sha256 id route := underscore_mem_routeLabel hhashed
    cases hhashed' : isHashed id' route' with
    | true =>
      refine .inr ⟨rfl, rfl, ?_⟩
      unfold routeLabel at h
      rwa [if_pos hhashed, if_pos hhashed', List.append_cancel_left_eq] at h
    | false =>
      rw [h] at hmem
      exact (underscore_notMem_routeLabel hid' hroute' hhashed' hmem).elim
  | false =>
    have hnotMem : '_' ∉ routeLabel sha256 id route :=
      underscore_notMem_routeLabel hid hroute hhashed
    cases hhashed' : isHashed id' route' with
    | true =>
      rw [h] at hnotMem
      exact (hnotMem (underscore_mem_routeLabel hhashed')).elim
    | false =>
      unfold routeLabel at h
      rw [hhashed, hhashed', if_neg Bool.false_ne_true, if_neg Bool.false_ne_true,
        join_inj (hyphens_of_not_hashed hhashed).1 (hyphens_of_not_hashed hhashed').1] at h
      exact .inl h

end

/-! ## Keys -/

/-- The unit files of a service, by what stands between the prefix and the extension. -/
inductive Keyed (sha256 : Text → Text) (entry : Text × Service) : Role → Text → Extension → Prop where
  | owner (hgenerated : isGenerated entry.2) : Keyed sha256 entry .owner entry.1 .service
  | readiness (hready : entry.2.readiness = true) :
    Keyed sha256 entry .readiness ("ready-".toList ++ entry.1) .service
  | socket {route : Text} (hdemand : isOnDemand entry.2 = true) (hroute : route ∈ entry.2.routes.keys)
    (hids : isIdentifier entry.1 = true ∧ isIdentifier route = true) :
    Keyed sha256 entry (.socket route) ("activate-".toList ++ routeLabel sha256 entry.1 route) .socket
  | proxy {route : Text} (hdemand : isOnDemand entry.2 = true) (hroute : route ∈ entry.2.routes.keys)
    (hids : isIdentifier entry.1 = true ∧ isIdentifier route = true) :
    Keyed sha256 entry (.proxy route) ("activate-".toList ++ routeLabel sha256 entry.1 route) .service
  | timer {index : Nat} (hjob : entry.2.kind = .job) (hindex : index < entry.2.schedules) :
    Keyed sha256 entry (.timer index)
      ("timer-".toList ++ (entry.1 ++ '-' :: (Nat.repr index).toList)) .timer

section

variable {sha256 : Text → Text} {effective : Effective} {a b entry : Text × Service}
  {role role' : Role} {key key' name : Text} {ext : Extension}

theorem unitSlot_cases (h : UnitSlot sha256 entry role name) :
    (role = .dropin ∧ entry.2.runtime = .systemd ∧ hasDropin entry.2 = true ∧
      name = dropinTarget entry.2.unit) ∨
    ∃ key ext, Keyed sha256 entry role key ext ∧ name = unitName key ext := by
  cases h with
  | owner hgenerated =>
    rcases runtime_of_isGenerated hgenerated with ⟨hsystemd, hcompose⟩
    exact .inr ⟨_, _, .owner hgenerated, derivedOwner_eq hsystemd hcompose⟩
  | dropin hruntime hdropin =>
    rw [derivedOwner_systemd hruntime]
    exact .inl ⟨rfl, hruntime, hdropin, rfl⟩
  | readiness hready => exact .inr ⟨_, _, .readiness hready, readyUnit_eq⟩
  | socket hdemand hroute hname =>
    rcases socketUnit_eq_ok.mp hname with ⟨hid, hrouteId, rfl⟩
    exact .inr ⟨_, _, .socket hdemand hroute ⟨hid, hrouteId⟩, rfl⟩
  | proxy hdemand hroute hname =>
    rcases proxyUnit_eq_ok.mp hname with ⟨hid, hrouteId, rfl⟩
    exact .inr ⟨_, _, .proxy hdemand hroute ⟨hid, hrouteId⟩, rfl⟩
  | timer hjob hindex => exact .inr ⟨_, _, .timer hjob hindex, timerUnit_eq⟩

theorem ready_ne_activate {x y : Text} : "ready-".toList ++ x ≠ "activate-".toList ++ y := by
  rw [show "ready-".toList = 'r' :: "eady-".toList by decide,
    show "activate-".toList = 'a' :: "ctivate-".toList by decide, List.cons_append,
    List.cons_append]
  exact fun heq => absurd (List.cons.inj heq).1 (by decide)

theorem label_unique (h : Separate sha256 effective) (ha : a ∈ plainServices effective)
    (hb : b ∈ plainServices effective) {route route' : Text} (hdemand : isOnDemand a.2 = true)
    (hdemand' : isOnDemand b.2 = true) (hroute : route ∈ a.2.routes.keys)
    (hroute' : route' ∈ b.2.routes.keys) (hids : isIdentifier a.1 = true ∧ isIdentifier route = true)
    (hids' : isIdentifier b.1 = true ∧ isIdentifier route' = true)
    (heq : routeLabel sha256 a.1 route = routeLabel sha256 b.1 route') : a.1 = b.1 ∧ route = route' := by
  rcases routeLabel_eq hids.1 hids.2 hids'.1 hids'.2 heq with hsame | ⟨hhashed, hhashed', hdigest⟩
  · exact hsame
  · exact h.digests a ha b hb hdemand hdemand' route hroute route' hroute' hhashed hhashed' hdigest

theorem owner_ne_activate (h : Separate sha256 effective) (ha : a ∈ plainServices effective)
    (hb : b ∈ plainServices effective) (hgenerated : isGenerated a.2) {route : Text}
    (hdemand : isOnDemand b.2 = true) (hroute : route ∈ b.2.routes.keys) :
    a.1 ≠ "activate-".toList ++ routeLabel sha256 b.1 route := by
  intro heq
  cases hhashed : isHashed b.1 route with
  | true =>
    have hnotMem := underscore_notMem (isSchemaId_of (mem_plainServices.mp ha).1)
    rw [heq] at hnotMem
    exact hnotMem (List.mem_append_right _ (underscore_mem_routeLabel hhashed))
  | false =>
    unfold routeLabel at heq
    rw [hhashed, if_neg Bool.false_ne_true] at heq
    exact h.proxy a ha b hb hgenerated hdemand route hroute hhashed heq

theorem keyed_unique (h : Separate sha256 effective) (ha : a ∈ plainServices effective)
    (hb : b ∈ plainServices effective) (hkey : Keyed sha256 a role key ext)
    (hkey' : Keyed sha256 b role' key' ext) (heq : key = key') : a.1 = b.1 ∧ role = role' := by
  cases hkey with
  | owner hgenerated =>
    cases hkey' with
    | owner _ => exact ⟨heq, rfl⟩
    | readiness hready => exact (h.ready a ha b hb hgenerated hready heq).elim
    | proxy hdemand hroute _ => exact (owner_ne_activate h ha hb hgenerated hdemand hroute heq).elim
  | readiness hready =>
    cases hkey' with
    | owner hgenerated => exact (h.ready b hb a ha hgenerated hready heq.symm).elim
    | readiness _ => exact ⟨List.append_cancel_left heq, rfl⟩
    | proxy _ _ _ => exact (ready_ne_activate heq).elim
  | socket hdemand hroute hids =>
    cases hkey' with
    | socket hdemand' hroute' hids' =>
      rcases label_unique h ha hb hdemand hdemand' hroute hroute' hids hids'
        (List.append_cancel_left heq) with ⟨hid, rfl⟩
      exact ⟨hid, rfl⟩
  | proxy hdemand hroute hids =>
    cases hkey' with
    | owner hgenerated =>
      exact (owner_ne_activate h hb ha hgenerated hdemand hroute heq.symm).elim
    | readiness _ => exact (ready_ne_activate heq.symm).elim
    | proxy hdemand' hroute' hids' =>
      rcases label_unique h ha hb hdemand hdemand' hroute hroute' hids hids'
        (List.append_cancel_left heq) with ⟨hid, rfl⟩
      exact ⟨hid, rfl⟩
  | timer _ _ =>
    cases hkey' with
    | timer _ _ =>
      rcases (join_inj_right hyphen_notMem_repr hyphen_notMem_repr).mp
        (List.append_cancel_left heq) with ⟨hid, hindex⟩
      rw [repr_toList_injective hindex]
      exact ⟨hid, rfl⟩

theorem unitSlot_unique (h : Separate sha256 effective) (ha : a ∈ plainServices effective)
    (hb : b ∈ plainServices effective) (hslot : UnitSlot sha256 a role name)
    (hslot' : UnitSlot sha256 b role' name) : a.1 = b.1 ∧ role = role' := by
  rcases unitSlot_cases hslot with ⟨rfl, hruntime, hdropin, rfl⟩ | ⟨key, ext, hkey, rfl⟩
  · rcases unitSlot_cases hslot' with ⟨rfl, hruntime', hdropin', heq⟩ | ⟨_, _, _, heq⟩
    · exact ⟨h.dropins a ha b hb hruntime hruntime' hdropin hdropin' (dropinTarget_inj.mp heq), rfl⟩
    · exact (dropinTarget_ne heq).elim
  · rcases unitSlot_cases hslot' with ⟨_, _, _, heq⟩ | ⟨key', ext', hkey', heq⟩
    · exact (dropinTarget_ne heq.symm).elim
    · rcases unitName_inj.mp heq with ⟨rfl, rfl⟩
      exact keyed_unique h ha hb hkey hkey' rfl

theorem unit_unique (h : Separate sha256 effective) {id id' : Text}
    (hslot : (allSlots sha256 effective).unit id role name)
    (hslot' : (allSlots sha256 effective).unit id' role' name) : id = id' ∧ role = role' := by
  rcases hslot with ⟨a, ha, hslot⟩ | ⟨a, ha, _, _, rfl, rfl, hname⟩
  · rcases serviceSlots_unit.mp hslot with ⟨rfl, hunit⟩
    rcases hslot' with ⟨b, hb, hslot'⟩ | ⟨b, hb, _, _, rfl, rfl, rfl⟩
    · rcases serviceSlots_unit.mp hslot' with ⟨rfl, hunit'⟩
      exact unitSlot_unique h ha hb hunit hunit'
    · exact (unitSlot_ne_target hunit _ sessionTarget_eq).elim
  · rw [sessionTarget_eq] at hname
    rcases hslot' with ⟨b, hb, hslot'⟩ | ⟨b, hb, _, _, rfl, rfl, hname'⟩
    · exact (unitSlot_ne_target (serviceSlots_unit.mp hslot').2 _ hname).elim
    · rw [hname, sessionTarget_eq, unitName_inj] at hname'
      exact ⟨List.append_cancel_left hname'.1, rfl⟩

end

/-! ## Files -/

def plainTail : Role → Text
  | .execDescriptor => "exec.json".toList
  | .domain => "xml".toList
  | .domainDescriptor => "vm.json".toList
  | .readinessDescriptor => "readiness.json".toList
  | .sessionDescriptor => "session.json".toList
  | _ => []

def plainRoles : List Role :=
  [.execDescriptor, .domain, .domainDescriptor, .readinessDescriptor, .sessionDescriptor]

def plainDir (role : Role) : Text :=
  if role = .domain then "vm/".toList else "descriptors/".toList

theorem plainTail_injective : ∀ role ∈ plainRoles, ∀ role' ∈ plainRoles,
    plainTail role = plainTail role' → role = role' :=
  Fallible.forall_mem_of_all (by decide)

section

variable {sha256 : Text → Text} {effective : Effective} {id id' outputDir path name : Text}
  {role role' : Role}

theorem plainSlot_eq {entry : Text × Service} (h : PlainSlot entry role name) :
    role ∈ plainRoles ∧ name = '/' :: (plainDir role ++ (entry.1 ++ '.' :: plainTail role)) := by
  have hdescriptors : "/descriptors/".toList = '/' :: "descriptors/".toList := by decide
  have hvm : "/vm/".toList = '/' :: "vm/".toList := by decide
  cases h with
  | domain _ =>
    rw [hvm]
    exact ⟨by decide, rfl⟩
  | _ =>
    rw [hdescriptors]
    exact ⟨by decide, rfl⟩

theorem plain_eq (h : (allSlots sha256 effective).plain id role name) :
    role ∈ plainRoles ∧ '.' ∉ id ∧
      name = '/' :: (plainDir role ++ (id ++ '.' :: plainTail role)) := by
  rcases h with ⟨entry, hentry, hslot⟩ | ⟨entry, hentry, _, _, rfl, rfl, rfl⟩
  · rcases serviceSlots_plain.mp hslot with ⟨rfl, hplain⟩
    rcases plainSlot_eq hplain with ⟨hrole, hname⟩
    exact ⟨hrole, dot_notMem (isSchemaId_of (mem_plainServices.mp hentry).1), hname⟩
  · refine ⟨by decide, dot_notMem (isSchemaId_of (mem_sessionServices.mp hentry).1), ?_⟩
    rw [show "/descriptors/".toList = '/' :: "descriptors/".toList by decide]
    rfl

theorem plain_unique (h : (allSlots sha256 effective).plain id role name)
    (h' : (allSlots sha256 effective).plain id' role' name) : id = id' ∧ role = role' := by
  rcases plain_eq h with ⟨hrole, hid, hname⟩
  rcases plain_eq h' with ⟨hrole', hid', hname'⟩
  rw [hname, List.cons.injEq, and_iff_right rfl] at hname'
  have hdir : plainDir role = plainDir role' := by
    have hvm : "vm/".toList = 'v' :: "m/".toList := by decide
    have hdescriptors : "descriptors/".toList = 'd' :: "escriptors/".toList := by decide
    unfold plainDir at hname' ⊢
    by_cases hdomain : role = .domain
    · by_cases hdomain' : role' = .domain
      · rw [if_pos hdomain, if_pos hdomain']
      · rw [if_pos hdomain, if_neg hdomain', hvm, hdescriptors] at hname'
        exact absurd (List.cons.inj hname').1 (by decide)
    · by_cases hdomain' : role' = .domain
      · rw [if_neg hdomain, if_pos hdomain', hvm, hdescriptors] at hname'
        exact absurd (List.cons.inj hname').1 (by decide)
      · rw [if_neg hdomain, if_neg hdomain']
  rw [hdir, List.append_cancel_left_eq, join_inj hid hid'] at hname'
  exact ⟨hname'.1, plainTail_injective role hrole role' hrole' hname'.2⟩

theorem quadlet_unique (h : (allSlots sha256 effective).quadlet id role name)
    (h' : (allSlots sha256 effective).quadlet id' role' name) : id = id' ∧ role = role' := by
  rcases h with ⟨a, _, hslot⟩ | ⟨_, _, hslot⟩
  · rcases serviceSlots_quadlet.mp hslot with ⟨rfl, ⟨_⟩⟩
    rcases h' with ⟨b, _, hslot'⟩ | ⟨_, _, hslot'⟩
    · rcases serviceSlots_quadlet.mp hslot' with ⟨rfl, hquadlet⟩
      generalize hname : containerFile a.1 = name at hquadlet
      rcases hquadlet with ⟨_⟩
      rw [containerFile_eq, containerFile_eq, Reconcile.quadletFile_inj] at hname
      exact ⟨hname.1, rfl⟩
    · cases hslot'
  · cases hslot

theorem unitPath_ne_quadletPath {x y : Text} : unitPath outputDir x ≠ quadletPath outputDir y := by
  unfold unitPath quadletPath
  rw [show "/units/".toList = '/' :: 'u' :: "nits/".toList by decide,
    show "/quadlet/".toList = '/' :: 'q' :: "uadlet/".toList by decide, List.append_assoc,
    List.append_assoc, Ne, List.append_cancel_left_eq]
  exact fun h => absurd (List.cons.inj (List.cons.inj h).2).1 (by decide)

theorem path_ne_plain {x dir : Text} {c : Char} (hdir : dir = '/' :: c :: dir.drop 2)
    (hvm : c ≠ 'v') (hdescriptors : c ≠ 'd')
    (h : (allSlots sha256 effective).plain id role name) : outputDir ++ dir ++ x ≠ outputDir ++ name := by
  rcases plain_eq h with ⟨_, _, hname⟩
  rw [hname, hdir, List.append_assoc, Ne, List.append_cancel_left_eq]
  unfold plainDir
  split
  · rw [show "vm/".toList = 'v' :: "m/".toList by decide]
    exact fun heq => hvm (List.cons.inj (List.cons.inj heq).2).1
  · rw [show "descriptors/".toList = 'd' :: "escriptors/".toList by decide]
    exact fun heq => hdescriptors (List.cons.inj (List.cons.inj heq).2).1

theorem file_unique (h : Separate sha256 effective)
    (hfile : (allSlots sha256 effective).HasFile outputDir id role path)
    (hfile' : (allSlots sha256 effective).HasFile outputDir id' role' path) :
    id = id' ∧ role = role' := by
  have hunits : "/units/".toList = '/' :: 'u' :: "/units/".toList.drop 2 := by decide
  have hquadlets : "/quadlet/".toList = '/' :: 'q' :: "/quadlet/".toList.drop 2 := by
    decide
  cases hfile with
  | unit hslot =>
    generalize hpath : unitPath outputDir _ = path at hfile'
    cases hfile' with
    | unit hslot' =>
      rw [List.append_cancel_left hpath] at hslot
      exact unit_unique h hslot hslot'
    | quadlet _ => exact (unitPath_ne_quadletPath hpath).elim
    | plain hslot' => exact (path_ne_plain hunits (by decide) (by decide) hslot' hpath).elim
  | quadlet hslot =>
    generalize hpath : quadletPath outputDir _ = path at hfile'
    cases hfile' with
    | unit _ => exact (unitPath_ne_quadletPath hpath.symm).elim
    | quadlet hslot' =>
      rw [List.append_cancel_left hpath] at hslot
      exact quadlet_unique hslot hslot'
    | plain hslot' => exact (path_ne_plain hquadlets (by decide) (by decide) hslot' hpath).elim
  | plain hslot =>
    generalize hpath : outputDir ++ _ = path at hfile'
    cases hfile' with
    | unit _ => exact (path_ne_plain hunits (by decide) (by decide) hslot hpath.symm).elim
    | quadlet _ => exact (path_ne_plain hquadlets (by decide) (by decide) hslot hpath.symm).elim
    | plain hslot' =>
      rw [List.append_cancel_left hpath] at hslot
      exact plain_unique hslot hslot'

end

/-! ## Starting and stopping -/

section

variable {sha256 : Text → Text} {effective : Effective} {outputDir : Text} {p : Produced}
  {a b : Text × Service} {name : Text}

theorem entry_eq (ha : a ∈ plainServices effective) (hb : b ∈ plainServices effective)
    (h : a.1 = b.1) : a = b :=
  List.inj_on_of_nodup_map (nodup_items effective.services) (mem_plainServices.mp ha).1
    (mem_plainServices.mp hb).1 h

theorem not_stopped_of_started (h : Separate sha256 effective)
    (hsuffix : ∀ entry ∈ plainServices effective, ∃ suffix ∈ ownerSuffixes,
      suffix.isSuffixOf (derivedOwner entry.1 entry.2) = true)
    (ha : a ∈ plainServices effective) (hb : b ∈ plainServices effective)
    (hstart : Started sha256 a name) : ¬ Stopped sha256 b name := by
  intro hstop
  cases hstart with
  | owner hmanaged henabled hdaemon hpersistent =>
    have hstarted : isStarted a.2 := ⟨hmanaged, henabled, hdaemon, hpersistent⟩
    generalize hname : derivedOwner a.1 a.2 = name at hstop
    cases hstop with
    | owner hmanaged' hdisabled => exact h.owners a ha b hb hstarted ⟨hmanaged', hdisabled⟩ hname
    | readiness hmanaged' hdisabled hready =>
      exact h.gates a ha b hb hstarted ⟨hmanaged', hdisabled⟩ hready hname
    | socket hdisabled hdemand hroute hsocket =>
      exact h.activations a ha b hb hstarted hdemand hdisabled _ hroute _ (.inl hsocket) hname
    | proxy hdisabled hdemand hroute hproxy =>
      exact h.activations a ha b hb hstarted hdemand hdisabled _ hroute _ (.inr hproxy) hname
    | timer _ _ _ _ =>
      rw [timerUnit_eq] at hname
      exact owner_ne_timer (hsuffix a ha) hname
  | socket henabled hdemand hroute hsocket =>
    rcases socketUnit_eq_ok.mp hsocket with ⟨hid, hrouteId, hname⟩
    cases hstop with
    | owner hmanaged hdisabled =>
      exact h.sockets b hb a ha ⟨hmanaged, hdisabled⟩ hdemand henabled _ hroute _ hsocket rfl
    | readiness _ _ _ =>
      rw [readyUnit_eq] at hname
      exact absurd (unitName_inj.mp hname).2 nofun
    | socket hdisabled hdemand' hroute' hsocket' =>
      rcases socketUnit_eq_ok.mp hsocket' with ⟨hid', hrouteId', hname'⟩
      have hlabel := List.append_cancel_left (unitName_inj.mp (hname.symm.trans hname')).1
      have hids := label_unique h ha hb hdemand hdemand' hroute hroute' ⟨hid, hrouteId⟩
        ⟨hid', hrouteId'⟩ hlabel
      rw [entry_eq ha hb hids.1, hdisabled] at henabled
      cases henabled
    | proxy _ _ _ hproxy =>
      rcases proxyUnit_eq_ok.mp hproxy with ⟨_, _, hname'⟩
      exact absurd (unitName_inj.mp (hname.symm.trans hname')).2 nofun
    | timer _ _ _ _ =>
      rw [timerUnit_eq] at hname
      exact absurd (unitName_inj.mp hname).2 nofun
  | timer hmanaged henabled hjob hindex =>
    generalize hname : timerUnit a.1 _ = name at hstop
    rw [timerUnit_eq] at hname
    cases hstop with
    | owner _ _ => exact owner_ne_timer (hsuffix b hb) hname.symm
    | readiness _ _ _ =>
      rw [readyUnit_eq] at hname
      exact absurd (unitName_inj.mp hname).2 nofun
    | socket _ _ _ hsocket =>
      rcases socketUnit_eq_ok.mp hsocket with ⟨_, _, rfl⟩
      exact absurd (unitName_inj.mp hname).2 nofun
    | proxy _ _ _ hproxy =>
      rcases proxyUnit_eq_ok.mp hproxy with ⟨_, _, rfl⟩
      exact absurd (unitName_inj.mp hname).2 nofun
    | timer _ hdisabled hjob' hindex' =>
      rw [timerUnit_eq] at hname
      have hids := keyed_unique h ha hb (.timer hjob hindex) (.timer hjob' hindex')
        (unitName_inj.mp hname).1
      rw [entry_eq ha hb hids.1, hdisabled] at henabled
      cases henabled

theorem not_sessionTarget_of_started (h : Separate sha256 effective)
    (ha : a ∈ plainServices effective) (hb : b ∈ sessionServices effective) (hstopped : isStopped b.2)
    (hstart : Started sha256 a name) : name ≠ sessionTarget b.1 := by
  cases hstart with
  | owner hmanaged henabled hdaemon hpersistent =>
    exact h.sessions a ha b hb ⟨hmanaged, henabled, hdaemon, hpersistent⟩ hstopped
  | socket _ _ _ hsocket =>
    rcases socketUnit_eq_ok.mp hsocket with ⟨_, _, rfl⟩
    rw [sessionTarget_eq]
    exact fun heq => absurd (unitName_inj.mp heq).2 nofun
  | timer _ _ _ _ =>
    rw [timerUnit_eq, sessionTarget_eq]
    exact fun heq => absurd (unitName_inj.mp heq).2 nofun

theorem mem_startUnits (h : Taken outputDir sha256 effective p) :
    name ∈ p.manifest.startUnits ↔ ∃ entry ∈ plainServices effective, Started sha256 entry name := by
  show name ∈ (augmented outputDir p []).startUnits ↔ _
  exact mem_start h

theorem mem_stopUnits (h : Taken outputDir sha256 effective p) : name ∈ p.manifest.stopUnits ↔
    (∃ entry ∈ plainServices effective, Stopped sha256 entry name) ∨
      ∃ entry ∈ sessionServices effective, isStopped entry.2 ∧ name = sessionTarget entry.1 := by
  show name ∈ (augmented outputDir p []).stopUnits ↔ _
  rw [mem_stop h]
  simp only [isStopped, and_assoc]

theorem collisionFree_of_separate (htaken : Taken outputDir sha256 effective p)
    (h : Separate sha256 effective) : CollisionFree p where
  files f hf g hg heq := by
    have hfile := (htaken.all.files f.service f.role f.path).mp ⟨f.bytes, hf⟩
    have hfile' := (htaken.all.files g.service g.role g.path).mp ⟨g.bytes, hg⟩
    rw [heq] at hfile
    exact file_unique h hfile hfile'
  links l hl m hm heq := by
    have hslot := ((htaken.all.links l).mp hl).1
    rw [heq] at hslot
    exact unit_unique h hslot ((htaken.all.links m).mp hm).1
  quadletLinks l hl m hm heq := by
    have hslot := ((htaken.all.quadletLinks l).mp hl).1
    rw [heq] at hslot
    exact quadlet_unique hslot ((htaken.all.quadletLinks m).mp hm).1
  units name hstart hstop := by
    rcases (mem_startUnits htaken).mp hstart with ⟨a, ha, hstarted⟩
    rcases (mem_stopUnits htaken).mp hstop with ⟨b, hb, hstopped⟩ | ⟨b, hb, hstopped, hname⟩
    · exact not_stopped_of_started h htaken.owner ha hb hstarted hstopped
    · exact not_sessionTarget_of_started h ha hb hstopped hstarted hname

theorem CollisionFree.unit_unique (htaken : Taken outputDir sha256 effective p) (h : CollisionFree p)
    {role role' : Role} (ha : a ∈ plainServices effective) (hb : b ∈ plainServices effective)
    (hslot : UnitSlot sha256 a role name) (hslot' : UnitSlot sha256 b role' name) :
    a.1 = b.1 ∧ role = role' :=
  h.links ⟨a.1, role, name, unitPath outputDir name⟩
    ((htaken.all.links _).mpr ⟨.inl ⟨a, ha, serviceSlots_unit.mpr ⟨rfl, hslot⟩⟩, rfl⟩)
    ⟨b.1, role', name, unitPath outputDir name⟩
    ((htaken.all.links _).mpr ⟨.inl ⟨b, hb, serviceSlots_unit.mpr ⟨rfl, hslot'⟩⟩, rfl⟩) rfl

theorem separate_of_collisionFree (htaken : Taken outputDir sha256 effective p)
    (h : CollisionFree p) : Separate sha256 effective where
  ready a ha b hb hgenerated hready heq := by
    rcases runtime_of_isGenerated hgenerated with ⟨hsystemd, hcompose⟩
    have hslot : UnitSlot sha256 a .owner (readyUnit b.1) := by
      rw [readyUnit_eq, ← heq, ← derivedOwner_eq hsystemd hcompose]
      exact .owner hgenerated
    exact absurd (h.unit_unique htaken ha hb hslot (.readiness hready)).2 nofun
  proxy a ha b hb hgenerated hdemand route hroute hhashed heq := by
    rcases runtime_of_isGenerated hgenerated with ⟨hsystemd, hcompose⟩
    rcases htaken.routes b hb hdemand route hroute with ⟨_, hsocket⟩
    rcases socketUnit_eq_ok.mp hsocket with ⟨hid, hrouteId, _⟩
    have hproxy : proxyUnit sha256 b.1 route =
        .ok (unitName ("activate-".toList ++ routeLabel sha256 b.1 route) .service) :=
      proxyUnit_eq_ok.mpr ⟨hid, hrouteId, rfl⟩
    have hslot : UnitSlot sha256 a .owner
        (unitName ("activate-".toList ++ routeLabel sha256 b.1 route) .service) := by
      unfold routeLabel
      rw [hhashed, if_neg Bool.false_ne_true, ← heq, ← derivedOwner_eq hsystemd hcompose]
      exact .owner hgenerated
    exact absurd (h.unit_unique htaken ha hb hslot (.proxy hdemand hroute hproxy)).2 nofun
  digests a ha b hb hdemand hdemand' route hroute route' hroute' hhashed hhashed' hdigest := by
    rcases htaken.routes a ha hdemand route hroute with ⟨name, hsocket⟩
    rcases htaken.routes b hb hdemand' route' hroute' with ⟨name', hsocket'⟩
    have hname : name = name' := by
      rw [(socketUnit_eq_ok.mp hsocket).2.2, (socketUnit_eq_ok.mp hsocket').2.2]
      unfold routeLabel
      rw [if_pos hhashed, if_pos hhashed', hdigest]
    rw [hname] at hsocket
    have hsame := h.unit_unique htaken ha hb (.socket hdemand hroute hsocket)
      (.socket hdemand' hroute' hsocket')
    exact ⟨hsame.1, Role.socket.inj hsame.2⟩
  dropins a ha b hb hruntime hruntime' hdropin hdropin' heq := by
    have hslot : UnitSlot sha256 a .dropin (dropinTarget (derivedOwner b.1 b.2)) := by
      have howner : derivedOwner a.1 a.2 = a.2.unit := derivedOwner_systemd hruntime
      rw [derivedOwner_systemd hruntime', ← heq, ← howner]
      exact .dropin hruntime hdropin
    exact (h.unit_unique htaken ha hb hslot (.dropin hruntime' hdropin')).1
  owners a ha b hb hstarted hstopped heq := by
    rcases hstarted with ⟨hmanaged, henabled, hdaemon, hpersistent⟩
    refine h.units _ ((mem_startUnits htaken).mpr
      ⟨a, ha, .owner hmanaged henabled hdaemon hpersistent⟩) ?_
    rw [heq]
    exact (mem_stopUnits htaken).mpr (.inl ⟨b, hb, .owner hstopped.1 hstopped.2⟩)
  gates a ha b hb hstarted hstopped hready heq := by
    rcases hstarted with ⟨hmanaged, henabled, hdaemon, hpersistent⟩
    refine h.units _ ((mem_startUnits htaken).mpr
      ⟨a, ha, .owner hmanaged henabled hdaemon hpersistent⟩) ?_
    rw [heq]
    exact (mem_stopUnits htaken).mpr (.inl ⟨b, hb, .readiness hstopped.1 hstopped.2 hready⟩)
  activations a ha b hb hstarted hdemand hdisabled route hroute name hname heq := by
    rcases hstarted with ⟨hmanaged, henabled, hdaemon, hpersistent⟩
    refine h.units _ ((mem_startUnits htaken).mpr
      ⟨a, ha, .owner hmanaged henabled hdaemon hpersistent⟩) ?_
    rw [heq]
    refine (mem_stopUnits htaken).mpr (.inl ⟨b, hb, ?_⟩)
    rcases hname with hname | hname
    · exact .socket hdisabled hdemand hroute hname
    · exact .proxy hdisabled hdemand hroute hname
  sessions a ha b hb hstarted hstopped heq := by
    rcases hstarted with ⟨hmanaged, henabled, hdaemon, hpersistent⟩
    refine h.units _ ((mem_startUnits htaken).mpr
      ⟨a, ha, .owner hmanaged henabled hdaemon hpersistent⟩) ?_
    exact (mem_stopUnits htaken).mpr (.inr ⟨b, hb, hstopped, heq⟩)
  sockets a ha b hb hstopped hdemand henabled route hroute name hname heq := by
    refine h.units _ ((mem_startUnits htaken).mpr ⟨b, hb, .socket henabled hdemand hroute hname⟩) ?_
    rw [← heq]
    exact (mem_stopUnits htaken).mpr (.inl ⟨a, ha, .owner hstopped.1 hstopped.2⟩)

end

/-- The projection of a document takes every name once exactly where its services are separate. -/
theorem collisionFree_iff {r : Renderers} {outputDir : Text} {effective : Effective} {p : Produced}
    (hcompose : ∀ entry ∈ items effective.services, entry.2.runtime ≠ .compose)
    (h : produce r outputDir effective = .ok p) :
    CollisionFree p ↔ Separate r.sha256 effective :=
  ⟨separate_of_collisionFree (produce_ok hcompose h), collisionFree_of_separate (produce_ok hcompose h)⟩

def readyDocument : Effective where
  networkProfiles := ∅
  storageResources := ∅
  credentials := ∅
  services := (AList.singleton "ready-foo".toList (bareService .exec)).insert "foo".toList
    { bareService .exec with readiness := true }
  identifiers := Fallible.forall_mem_of_all (l := ["foo".toList, "ready-foo".toList])
    (by decide)

theorem runtime_readyDocument :
    ∀ entry ∈ items readyDocument.services, entry.2.runtime ≠ .compose := by
  intro entry hentry
  rcases List.mem_cons.mp hentry with rfl | hentry
  · exact nofun
  · rw [List.mem_singleton.mp hentry]
    exact nofun

theorem produces_readyDocument : ∃ p,
    produce bareRenderers "/run/out".toList readyDocument = .ok p :=
  Fallible.exists_of_isOk (by decide)

/-- Both services have the unit `nas-v2-ready-foo.service`. -/
theorem not_collisionFree_ready : ∃ p,
    produce bareRenderers "/run/out".toList readyDocument = .ok p ∧ ¬ CollisionFree p := by
  rcases produces_readyDocument with ⟨p, hp⟩
  refine ⟨p, hp, ?_⟩
  intro hfree
  have hseparate := separate_of_collisionFree (produce_ok runtime_readyDocument hp) hfree
  refine hseparate.ready ("ready-foo".toList, bareService .exec) ?_
    ("foo".toList, { bareService .exec with readiness := true }) ?_ (.inl rfl) rfl
    (by decide)
  · exact mem_plainServices.mpr ⟨.tail _ (.head _), nofun⟩
  · exact mem_plainServices.mpr ⟨.head _, nofun⟩

theorem collisionFree_iff_ready : ∃ p,
    produce bareRenderers "/run/out".toList readyDocument = .ok p ∧
      (CollisionFree p ↔ Separate bareRenderers.sha256 readyDocument) := by
  rcases produces_readyDocument with ⟨p, hp⟩
  exact ⟨p, hp, collisionFree_iff runtime_readyDocument hp⟩

end NixNas.Systemd
