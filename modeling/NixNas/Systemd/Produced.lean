import NixNas.Systemd.Slots

/-!
# What is produced

The names that the projection of a document takes: those of every service that is no session, and
those of every managed session.
-/

open Dictionary Fallible Journal

namespace NixNas.Systemd

open Network (RuntimeType WorkloadKind)

/-! ## Parts of one service -/

section

variable (sha256 : Text → Text) (entry : Text × Service)

def runtimeSlots : Slots :=
  { Slots.none with
    unit := fun id role name ↦ id = entry.1 ∧
      (role = .owner ∧ isGenerated entry.2 ∧ name = derivedOwner entry.1 entry.2 ∨
        role = .dropin ∧ entry.2.runtime = .systemd ∧ hasDropin entry.2 = true ∧
          name = dropinTarget (derivedOwner entry.1 entry.2))
    quadlet := fun id role name ↦ id = entry.1 ∧ role = .quadlet ∧
      (entry.2.runtime = .oci ∨ entry.2.runtime = .quadlet) ∧ name = containerFile entry.1
    plain := fun id role name ↦ id = entry.1 ∧
      (role = .execDescriptor ∧ entry.2.runtime = .exec ∧
          name = "/descriptors/".toList ++ (entry.1 ++ ".exec.json".toList) ∨
        role = .domain ∧ entry.2.runtime = .vm ∧
          name = "/vm/".toList ++ (entry.1 ++ ".xml".toList) ∨
        role = .domainDescriptor ∧ entry.2.runtime = .vm ∧
          name = "/descriptors/".toList ++ (entry.1 ++ ".vm.json".toList)) }

def readinessSlots : Slots :=
  { Slots.none with
    unit := fun id role name ↦ entry.2.readiness = true ∧ id = entry.1 ∧ role = .readiness ∧
      name = readyUnit entry.1
    plain := fun id role name ↦ entry.2.readiness = true ∧ id = entry.1 ∧
      role = .readinessDescriptor ∧
      name = "/descriptors/".toList ++ (entry.1 ++ ".readiness.json".toList)
    owned := fun name ↦ entry.2.readiness = true ∧ entry.2.managed = true ∧ name = readyUnit entry.1
    fingerprint := fun name ↦ entry.2.readiness = true ∧ name = readyUnit entry.1 }

def routeSlots (route : Text) : Slots :=
  { Slots.none with
    unit := fun id role name ↦ id = entry.1 ∧
      (role = .socket route ∧ socketUnit sha256 entry.1 route = .ok name ∨
        role = .proxy route ∧ proxyUnit sha256 entry.1 route = .ok name)
    owned := fun name ↦ socketUnit sha256 entry.1 route = .ok name ∨
      proxyUnit sha256 entry.1 route = .ok name
    start := fun name ↦ entry.2.enabled = true ∧ socketUnit sha256 entry.1 route = .ok name
    stop := fun name ↦ entry.2.enabled = false ∧
      (socketUnit sha256 entry.1 route = .ok name ∨ proxyUnit sha256 entry.1 route = .ok name) }

def activationSlots : Slots :=
  if isOnDemand entry.2 then .each (routeSlots sha256 entry) entry.2.routes.keys else .none

def timerSlots (index : Nat) : Slots :=
  { Slots.none with
    unit := fun id role name ↦ id = entry.1 ∧ role = .timer index ∧ name = timerUnit entry.1 index
    owned := fun name ↦ entry.2.managed = true ∧ name = timerUnit entry.1 index
    start := fun name ↦ entry.2.managed = true ∧ entry.2.enabled = true ∧
      name = timerUnit entry.1 index
    stop := fun name ↦ entry.2.managed = true ∧ entry.2.enabled = false ∧
      name = timerUnit entry.1 index }

def scheduleSlots : Slots :=
  if entry.2.kind = .job then .each (timerSlots entry) (List.range entry.2.schedules) else .none

def lifecycleSlots : Slots :=
  { Slots.none with
    owned := fun name ↦ entry.2.managed = true ∧ name = derivedOwner entry.1 entry.2
    start := fun name ↦ entry.2.managed = true ∧ entry.2.enabled = true ∧ entry.2.kind = .daemon ∧
      entry.2.activation = .persistent ∧ name = derivedOwner entry.1 entry.2
    stop := fun name ↦ entry.2.managed = true ∧ entry.2.enabled = false ∧
      (name = derivedOwner entry.1 entry.2 ∨ entry.2.readiness = true ∧ name = readyUnit entry.1)
    fingerprint := fun name ↦ name = derivedOwner entry.1 entry.2 }

end

section

variable {r : Renderers} {outputDir : Text} {effective : Effective} {entry : Text × Service}
  {out : Output}

theorem runtimeSlots_eq : runtimeSlots entry =
    match entry.2.runtime with
    | .exec =>
      (Slots.ofPlain entry.1 .execDescriptor
        ("/descriptors/".toList ++ (entry.1 ++ ".exec.json".toList))).both
        (.ofUnit entry.1 .owner (derivedOwner entry.1 entry.2))
    | .python => .ofUnit entry.1 .owner (derivedOwner entry.1 entry.2)
    | .vm =>
      ((Slots.ofPlain entry.1 .domain ("/vm/".toList ++ (entry.1 ++ ".xml".toList))).both
        (.ofPlain entry.1 .domainDescriptor
          ("/descriptors/".toList ++ (entry.1 ++ ".vm.json".toList)))).both
        (.ofUnit entry.1 .owner (derivedOwner entry.1 entry.2))
    | .systemd =>
      if hasDropin entry.2 then
        .ofUnit entry.1 .dropin (dropinTarget (derivedOwner entry.1 entry.2))
      else .none
    | .oci | .quadlet => .ofQuadlet entry.1 .quadlet (containerFile entry.1)
    | .compose => .none := by
  unfold runtimeSlots isGenerated
  cases entry.2.runtime with
  | systemd =>
    cases hasDropin entry.2 with
    | true => simp only [reduceCtorEq, false_and, and_false, or_self, false_or, true_and, if_true]; rfl
    | false =>
      simp only [reduceCtorEq, false_and, and_false, or_self, Bool.false_eq_true, if_false]
      rfl
  | vm =>
    simp only [reduceCtorEq, false_and, and_false, or_false, false_or, true_and, and_or_left]
    ext <;> simp only [Slots.both, Slots.ofUnit, Slots.ofPlain, Slots.none, false_or, or_false]
  | exec =>
    simp only [reduceCtorEq, false_and, and_false, or_false, true_and]
    ext <;> simp only [Slots.both, Slots.ofUnit, Slots.ofPlain, Slots.none, false_or, or_false]
  | _ =>
    simp only [reduceCtorEq, false_and, and_false, or_self, or_false, false_or, true_and]
    rfl

theorem runtimeOutput_fills (h : runtimeOutput r outputDir effective entry.1 entry.2
      (derivedOwner entry.1 entry.2) = .ok out) : Fills outputDir out (runtimeSlots entry) := by
  rw [runtimeSlots_eq]
  unfold runtimeOutput at h
  cases hruntime : entry.2.runtime with
  | exec =>
    simp only [hruntime] at h ⊢
    rcases bind_ok h with ⟨descriptor, hdescriptor, h⟩
    rcases bind_ok h with ⟨unit, hunit, h⟩
    cases h
    unfold descriptorPath at hdescriptor
    rw [List.append_assoc] at hdescriptor
    exact (plainFile_fills hdescriptor).append (unitFile_fills hunit)
  | python =>
    simp only [hruntime] at h ⊢
    exact unitFile_fills h
  | vm =>
    simp only [hruntime] at h ⊢
    rcases bind_ok h with ⟨domain, hdomain, h⟩
    rcases bind_ok h with ⟨descriptor, hdescriptor, h⟩
    rcases bind_ok h with ⟨unit, hunit, h⟩
    cases h
    unfold domainPath at hdomain
    unfold descriptorPath at hdescriptor
    rw [List.append_assoc] at hdomain hdescriptor
    exact ((plainFile_fills hdomain).append (plainFile_fills hdescriptor)).append
      (unitFile_fills hunit)
  | systemd =>
    simp only [hruntime] at h ⊢
    rcases bind_ok h with ⟨dropin, hdropin, h⟩
    rw [← existingDropin_isSome hdropin]
    cases dropin with
    | none =>
      cases h
      exact fills_empty
    | some text =>
      cases h
      exact fills_linkedUnit _ _ _ _
  | oci =>
    simp only [hruntime] at h ⊢
    rcases map_ok h with ⟨_, _, rfl⟩
    exact fills_linkedQuadlet _ _ _ _
  | quadlet =>
    simp only [hruntime] at h ⊢
    rcases map_ok h with ⟨_, _, rfl⟩
    exact fills_linkedQuadlet _ _ _ _
  | compose =>
    simp only [hruntime] at h
    cases h

theorem readinessOutput_fills (h : readinessOutput r outputDir entry.1 entry.2 = .ok out) :
    Fills outputDir out (readinessSlots entry) := by
  unfold readinessOutput at h
  split at h
  · rename_i hready
    rcases bind_ok h with ⟨descriptor, hdescriptor, h⟩
    rcases bind_ok h with ⟨unit, hunit, h⟩
    cases h
    unfold descriptorPath at hdescriptor
    rw [List.append_assoc] at hdescriptor
    convert ((plainFile_fills hdescriptor).append (unitFile_fills hunit)).append
      (fills_lists _ _ _ _) using 1
    ext
    all_goals simp only [readinessSlots, Output.empty, Slots.both, Slots.ofUnit, Slots.ofPlain,
      Slots.none, hready, true_and, false_or, or_false, List.mem_ite_nil_right, List.mem_singleton,
      List.not_mem_nil, List.map_cons, List.map_nil]
  · rename_i hready
    cases h
    convert fills_empty
    ext
    all_goals simp only [readinessSlots, Slots.none, hready, Bool.false_eq_true, false_and]

theorem routeOutput_fills {route : Text}
    (h : routeOutput r outputDir entry.1 entry.2 route = .ok out) :
    Fills outputDir out (routeSlots r.sha256 entry route) := by
  unfold routeOutput at h
  rcases bind_ok h with ⟨socket, hsocket, h⟩
  rcases bind_ok h with ⟨proxy, hproxy, h⟩
  rcases bind_ok h with ⟨socketFile, hsocketFile, h⟩
  rcases bind_ok h with ⟨proxyFile, hproxyFile, h⟩
  cases h
  convert ((unitFile_fills hsocketFile).append (unitFile_fills hproxyFile)).append
    (fills_lists _ _ _ _) using 1
  ext
  all_goals simp only [Output.empty, routeSlots, Slots.both, Slots.ofUnit, Slots.none, hsocket,
    hproxy, Except.ok.injEq, or_false, false_or, List.not_mem_nil, List.map_nil, List.mem_cons,
    eq_comm]
  · exact and_or_left
  · simp only [List.mem_ite_nil_right, List.mem_singleton, eq_comm]
  · cases entry.2.enabled with
    | true => simp
    | false => simp [eq_comm]

theorem activationOutput_fills (h : activationOutput r outputDir entry.1 entry.2 = .ok out) :
    Fills outputDir out (activationSlots r.sha256 entry) := by
  unfold activationOutput at h
  unfold activationSlots
  split at h
  · rename_i hdemand
    cases h
    rw [if_neg fun hon => by rw [hon] at hdemand; cases hdemand]
    exact fills_empty
  · rename_i hdemand
    rw [Bool.not_eq_true', Bool.not_eq_false] at hdemand
    rw [if_pos hdemand]
    split at h
    · cases h
    · rcases map_ok h with ⟨outputs, houtputs, rfl⟩
      have horder : ∀ item, item ∈ items entry.2.routes ↔ item ∈ byKey entry.2.routes :=
        fun _ => mem_byKey.symm
      rw [← keys_items, Slots.each_map, Slots.each_congr horder]
      exact fills_mapM houtputs fun route _ out hout => routeOutput_fills hout

theorem timerOutput_fills {index : Nat}
    (h : timerOutput r outputDir entry.1 entry.2 index = .ok out) :
    Fills outputDir out (timerSlots entry index) := by
  unfold timerOutput at h
  rcases bind_ok h with ⟨unit, hunit, h⟩
  cases h
  convert (unitFile_fills hunit).append (fills_lists _ _ _ _) using 1
  ext
  all_goals simp only [Output.empty, timerSlots, Slots.both, Slots.ofUnit, Slots.none, or_false,
    false_or, List.not_mem_nil, List.map_nil, List.mem_ite_nil_right, List.mem_singleton,
    Bool.and_eq_true, Bool.not_eq_true', and_assoc]

theorem scheduleOutput_fills (h : scheduleOutput r outputDir entry.1 entry.2 = .ok out) :
    Fills outputDir out (scheduleSlots entry) := by
  unfold scheduleOutput at h
  unfold scheduleSlots
  split at h
  · rename_i hjob
    rw [if_pos hjob]
    rcases map_ok h with ⟨outputs, houtputs, rfl⟩
    exact fills_mapM houtputs fun index _ out hout => timerOutput_fills hout
  · rename_i hjob
    cases h
    rw [if_neg hjob]
    exact fills_empty

theorem lifecycleOutput_fills : Fills outputDir
    (lifecycleOutput r entry.1 entry.2 (derivedOwner entry.1 entry.2)) (lifecycleSlots entry) := by
  unfold lifecycleOutput
  convert fills_lists _ _ _ _ using 1
  ext
  all_goals simp only [lifecycleSlots, Slots.none, List.mem_ite_nil_right, List.mem_cons,
    List.not_mem_nil, or_false, Bool.and_eq_true, Bool.not_eq_true', decide_eq_true_eq, and_assoc,
    List.map_cons, List.map_nil]

end

/-! ## One service -/

def serviceSlots (sha256 : Text → Text) (entry : Text × Service) : Slots :=
  ((((runtimeSlots entry).both (readinessSlots entry)).both (activationSlots sha256 entry)).both
    (scheduleSlots entry)).both (lifecycleSlots entry)

section

variable {sha256 : Text → Text} {entry : Text × Service} {id : Text} {role : Role} {name : Text}

theorem activationSlots_unit : (activationSlots sha256 entry).unit id role name ↔
    isOnDemand entry.2 = true ∧ ∃ route ∈ entry.2.routes.keys,
      (routeSlots sha256 entry route).unit id role name := by
  unfold activationSlots
  split
  · rename_i hdemand
    exact (and_iff_right hdemand).symm
  · rename_i hdemand
    exact iff_of_false False.elim fun h => hdemand h.1

theorem activationSlots_other : (activationSlots sha256 entry).quadlet = (fun _ _ _ ↦ False) ∧
    (activationSlots sha256 entry).plain = (fun _ _ _ ↦ False) ∧
    (activationSlots sha256 entry).fingerprint = fun _ ↦ False := by
  unfold activationSlots
  split
  · simp [Slots.each, routeSlots, Slots.none]
  · exact ⟨rfl, rfl, rfl⟩

theorem scheduleSlots_other : (scheduleSlots entry).quadlet = (fun _ _ _ ↦ False) ∧
    (scheduleSlots entry).plain = (fun _ _ _ ↦ False) ∧
    (scheduleSlots entry).fingerprint = fun _ ↦ False := by
  unfold scheduleSlots
  split
  · simp [Slots.each, timerSlots, Slots.none]
  · exact ⟨rfl, rfl, rfl⟩

theorem serviceSlots_unit : (serviceSlots sha256 entry).unit id role name ↔
    id = entry.1 ∧ UnitSlot sha256 entry role name := by
  unfold serviceSlots scheduleSlots
  constructor
  · rintro ((((⟨rfl, ⟨rfl, hgenerated, rfl⟩ | ⟨rfl, hruntime, hdropin, rfl⟩⟩ |
      ⟨hready, rfl, rfl, rfl⟩) | h) | h) | h)
    · exact ⟨rfl, .owner hgenerated⟩
    · exact ⟨rfl, .dropin hruntime hdropin⟩
    · exact ⟨rfl, .readiness hready⟩
    · rcases activationSlots_unit.mp h with
        ⟨hdemand, route, hroute, rfl, ⟨rfl, hname⟩ | ⟨rfl, hname⟩⟩
      · exact ⟨rfl, .socket hdemand hroute hname⟩
      · exact ⟨rfl, .proxy hdemand hroute hname⟩
    · split at h
      · rename_i hjob
        rcases h with ⟨index, hindex, rfl, rfl, rfl⟩
        exact ⟨rfl, .timer hjob (List.mem_range.mp hindex)⟩
      · cases h
    · cases h
  · rintro ⟨rfl, h⟩
    cases h with
    | owner hgenerated => exact .inl (.inl (.inl (.inl ⟨rfl, .inl ⟨rfl, hgenerated, rfl⟩⟩)))
    | dropin hruntime hdropin =>
      exact .inl (.inl (.inl (.inl ⟨rfl, .inr ⟨rfl, hruntime, hdropin, rfl⟩⟩)))
    | readiness hready => exact .inl (.inl (.inl (.inr ⟨hready, rfl, rfl, rfl⟩)))
    | socket hdemand hroute hname =>
      exact .inl (.inl (.inr (activationSlots_unit.mpr
        ⟨hdemand, _, hroute, rfl, .inl ⟨rfl, hname⟩⟩)))
    | proxy hdemand hroute hname =>
      exact .inl (.inl (.inr (activationSlots_unit.mpr
        ⟨hdemand, _, hroute, rfl, .inr ⟨rfl, hname⟩⟩)))
    | timer hjob hindex =>
      rw [if_pos hjob]
      exact .inl (.inr ⟨_, List.mem_range.mpr hindex, rfl, rfl, rfl⟩)

theorem serviceSlots_quadlet : (serviceSlots sha256 entry).quadlet id role name ↔
    id = entry.1 ∧ QuadletSlot entry role name := by
  constructor
  · rintro ((((⟨rfl, rfl, hruntime, rfl⟩ | h) | h) | h) | h)
    · exact ⟨rfl, .container hruntime⟩
    · cases h
    · rw [activationSlots_other.1] at h
      cases h
    · rw [scheduleSlots_other.1] at h
      cases h
    · cases h
  · rintro ⟨rfl, ⟨hruntime⟩⟩
    exact .inl (.inl (.inl (.inl ⟨rfl, rfl, hruntime, rfl⟩)))

theorem serviceSlots_plain : (serviceSlots sha256 entry).plain id role name ↔
    id = entry.1 ∧ PlainSlot entry role name := by
  constructor
  · rintro ((((⟨rfl, ⟨rfl, hruntime, rfl⟩ | ⟨rfl, hruntime, rfl⟩ | ⟨rfl, hruntime, rfl⟩⟩ |
      ⟨hready, rfl, rfl, rfl⟩) | h) | h) | h)
    · exact ⟨rfl, .exec hruntime⟩
    · exact ⟨rfl, .domain hruntime⟩
    · exact ⟨rfl, .domainDescriptor hruntime⟩
    · exact ⟨rfl, .readiness hready⟩
    · rw [activationSlots_other.2.1] at h
      cases h
    · rw [scheduleSlots_other.2.1] at h
      cases h
    · cases h
  · rintro ⟨rfl, h⟩
    cases h with
    | exec hruntime => exact .inl (.inl (.inl (.inl ⟨rfl, .inl ⟨rfl, hruntime, rfl⟩⟩)))
    | domain hruntime =>
      exact .inl (.inl (.inl (.inl ⟨rfl, .inr (.inl ⟨rfl, hruntime, rfl⟩)⟩)))
    | domainDescriptor hruntime =>
      exact .inl (.inl (.inl (.inl ⟨rfl, .inr (.inr ⟨rfl, hruntime, rfl⟩)⟩)))
    | readiness hready => exact .inl (.inl (.inl (.inr ⟨hready, rfl, rfl, rfl⟩)))

theorem serviceSlots_owned : (serviceSlots sha256 entry).owned name ↔ Owned sha256 entry name := by
  unfold serviceSlots activationSlots scheduleSlots
  constructor
  · rintro ((((h | ⟨hready, hmanaged, rfl⟩) | h) | h) | ⟨hmanaged, rfl⟩)
    · cases h
    · exact .readiness hmanaged hready
    · split at h
      · rename_i hdemand
        rcases h with ⟨route, hroute, hname | hname⟩
        · exact .socket hdemand hroute hname
        · exact .proxy hdemand hroute hname
      · cases h
    · split at h
      · rename_i hjob
        rcases h with ⟨index, hindex, hmanaged, rfl⟩
        exact .timer hmanaged hjob (List.mem_range.mp hindex)
      · cases h
    · exact .owner hmanaged
  · intro h
    cases h with
    | owner hmanaged => exact .inr ⟨hmanaged, rfl⟩
    | readiness hmanaged hready => exact .inl (.inl (.inl (.inr ⟨hready, hmanaged, rfl⟩)))
    | socket hdemand hroute hname =>
      rw [if_pos hdemand]
      exact .inl (.inl (.inr ⟨_, hroute, .inl hname⟩))
    | proxy hdemand hroute hname =>
      rw [if_pos hdemand]
      exact .inl (.inl (.inr ⟨_, hroute, .inr hname⟩))
    | timer hmanaged hjob hindex =>
      rw [if_pos hjob]
      exact .inl (.inr ⟨_, List.mem_range.mpr hindex, hmanaged, rfl⟩)

theorem serviceSlots_start :
    (serviceSlots sha256 entry).start name ↔ Started sha256 entry name := by
  unfold serviceSlots activationSlots scheduleSlots
  constructor
  · rintro ((((h | h) | h) | h) | ⟨hmanaged, henabled, hdaemon, hpersistent, rfl⟩)
    · cases h
    · cases h
    · split at h
      · rename_i hdemand
        rcases h with ⟨route, hroute, henabled, hname⟩
        exact .socket henabled hdemand hroute hname
      · cases h
    · split at h
      · rename_i hjob
        rcases h with ⟨index, hindex, hmanaged, henabled, rfl⟩
        exact .timer hmanaged henabled hjob (List.mem_range.mp hindex)
      · cases h
    · exact .owner hmanaged henabled hdaemon hpersistent
  · intro h
    cases h with
    | owner hmanaged henabled hdaemon hpersistent =>
      exact .inr ⟨hmanaged, henabled, hdaemon, hpersistent, rfl⟩
    | socket henabled hdemand hroute hname =>
      rw [if_pos hdemand]
      exact .inl (.inl (.inr ⟨_, hroute, henabled, hname⟩))
    | timer hmanaged henabled hjob hindex =>
      rw [if_pos hjob]
      exact .inl (.inr ⟨_, List.mem_range.mpr hindex, hmanaged, henabled, rfl⟩)

theorem serviceSlots_stop : (serviceSlots sha256 entry).stop name ↔ Stopped sha256 entry name := by
  unfold serviceSlots activationSlots scheduleSlots
  constructor
  · rintro ((((h | h) | h) | h) | ⟨hmanaged, hdisabled, rfl | ⟨hready, rfl⟩⟩)
    · cases h
    · cases h
    · split at h
      · rename_i hdemand
        rcases h with ⟨route, hroute, hdisabled, hname | hname⟩
        · exact .socket hdisabled hdemand hroute hname
        · exact .proxy hdisabled hdemand hroute hname
      · cases h
    · split at h
      · rename_i hjob
        rcases h with ⟨index, hindex, hmanaged, hdisabled, rfl⟩
        exact .timer hmanaged hdisabled hjob (List.mem_range.mp hindex)
      · cases h
    · exact .owner hmanaged hdisabled
    · exact .readiness hmanaged hdisabled hready
  · intro h
    cases h with
    | owner hmanaged hdisabled => exact .inr ⟨hmanaged, hdisabled, .inl rfl⟩
    | readiness hmanaged hdisabled hready =>
      exact .inr ⟨hmanaged, hdisabled, .inr ⟨hready, rfl⟩⟩
    | socket hdisabled hdemand hroute hname =>
      rw [if_pos hdemand]
      exact .inl (.inl (.inr ⟨_, hroute, hdisabled, .inl hname⟩))
    | proxy hdisabled hdemand hroute hname =>
      rw [if_pos hdemand]
      exact .inl (.inl (.inr ⟨_, hroute, hdisabled, .inr hname⟩))
    | timer hmanaged hdisabled hjob hindex =>
      rw [if_pos hjob]
      exact .inl (.inr ⟨_, List.mem_range.mpr hindex, hmanaged, hdisabled, rfl⟩)

theorem serviceSlots_fingerprint :
    (serviceSlots sha256 entry).fingerprint name ↔ Fingerprinted entry name := by
  constructor
  · rintro ((((h | ⟨hready, rfl⟩) | h) | h) | rfl)
    · cases h
    · exact .readiness hready
    · rw [activationSlots_other.2.2] at h
      cases h
    · rw [scheduleSlots_other.2.2] at h
      cases h
    · exact .owner
  · intro h
    cases h with
    | owner => exact .inr rfl
    | readiness hready => exact .inl (.inl (.inl (.inr ⟨hready, rfl⟩)))

end

/-! ## The whole document -/

section

variable {r : Renderers} {outputDir : Text} {effective : Effective} {entry : Text × Service}
  {out : Output}

def ownerSuffixes : List Text := [".service".toList, ".target".toList, ".socket".toList]

theorem ownerUnit_ok {id owner : Text} (h : ownerUnit effective id = .ok owner) :
    ∃ service, effective.services.lookup id = some service ∧ owner = derivedOwner id service ∧
      ∃ suffix ∈ ownerSuffixes, suffix.isSuffixOf owner = true := by
  unfold ownerUnit at h
  split at h
  · cases h
  · rename_i service hservice
    dsimp only at h
    split at h
    · rename_i hsuffix
      cases h
      exact ⟨service, hservice, rfl, List.any_eq_true.mp hsuffix⟩
    · cases h

theorem serviceOutput_fills (hentry : entry ∈ items effective.services)
    (h : serviceOutput r outputDir effective entry = .ok out) :
    Fills outputDir out (serviceSlots r.sha256 entry) := by
  unfold serviceOutput at h
  rcases bind_ok h with ⟨owner, howner, h⟩
  rcases bind_ok h with ⟨runtime, hruntime, h⟩
  rcases bind_ok h with ⟨readiness, hreadiness, h⟩
  rcases bind_ok h with ⟨activation, hactivation, h⟩
  rcases bind_ok h with ⟨schedules, hschedules, h⟩
  cases h
  rcases ownerUnit_ok howner with ⟨service, hservice, rfl, _⟩
  rw [mem_items.mp hentry, Option.some.injEq] at hservice
  subst hservice
  exact ((((runtimeOutput_fills hruntime).append (readinessOutput_fills hreadiness)).append
    (activationOutput_fills hactivation)).append (scheduleOutput_fills hschedules)).append
    lifecycleOutput_fills

def sessionSlots (entry : Text × Service) : Slots :=
  { Slots.none with
    unit := fun id role name ↦ entry.2.managed = true ∧ entry.2.enabled = true ∧ id = entry.1 ∧
      role = .sessionTarget ∧ name = sessionTarget entry.1
    plain := fun id role name ↦ entry.2.managed = true ∧ entry.2.enabled = true ∧ id = entry.1 ∧
      role = .sessionDescriptor ∧ name = "/descriptors/".toList ++ (entry.1 ++ ".session.json".toList)
    owned := fun name ↦ entry.2.managed = true ∧ name = sessionTarget entry.1
    stop := fun name ↦ entry.2.managed = true ∧ entry.2.enabled = false ∧
      name = sessionTarget entry.1
    fingerprint := fun name ↦ entry.2.managed = true ∧ entry.2.enabled = true ∧ name = sessionTarget entry.1 }

theorem sessionOutput_fills (h : sessionOutput r outputDir entry = .ok out) :
    Fills outputDir out (sessionSlots entry) := by
  unfold sessionOutput at h
  cases hmanaged : entry.2.managed with
  | false =>
    rw [hmanaged] at h
    cases h
    convert fills_empty
    ext
    all_goals simp only [sessionSlots, Slots.none, hmanaged, Bool.false_eq_true, false_and]
  | true =>
    rw [hmanaged] at h
    cases henabled : entry.2.enabled with
    | false =>
      rw [henabled] at h
      cases h
      convert fills_lists _ _ _ _ using 1
      ext
      all_goals simp only [sessionSlots, Slots.none, hmanaged, henabled, Output.empty, true_and,
        Bool.false_eq_true, false_and, List.mem_singleton, List.not_mem_nil, List.map_nil]
    | true =>
      rw [henabled] at h
      rcases bind_ok h with ⟨descriptor, hdescriptor, h⟩
      rcases bind_ok h with ⟨target, htarget, h⟩
      cases h
      unfold descriptorPath at hdescriptor
      rw [List.append_assoc] at hdescriptor
      convert ((plainFile_fills hdescriptor).append (unitFile_fills htarget)).append
        (fills_lists _ _ _ _) using 1
      ext
      all_goals simp only [sessionSlots, Slots.none, Slots.both, Slots.ofUnit, Slots.ofPlain,
        hmanaged, henabled, Output.empty, true_and, false_or, or_false,
        List.mem_singleton, List.not_mem_nil, List.map_cons, List.map_nil, reduceCtorEq, false_and]

theorem nativeEffective_eq (hcompose : ∀ entry ∈ items effective.services,
    entry.2.runtime ≠ .compose) : nativeEffective effective = effective := by
  have hservices : mapValues nativeView effective.services = effective.services := by
    apply mapValues_eq_self
    intro id service hservice
    unfold nativeView
    rw [if_neg (hcompose _ hservice)]
  unfold nativeEffective
  rcases effective with ⟨profiles, storage, credentials, services, hids⟩
  congr 1

theorem mem_plainServices :
    entry ∈ plainServices effective ↔ entry ∈ items effective.services ∧ entry.2.kind ≠ .session := by
  unfold plainServices
  rw [List.mem_filter, mem_byKey, decide_eq_true_eq]

theorem mem_sessionServices : entry ∈ sessionServices effective ↔
    entry ∈ items effective.services ∧ entry.2.kind = .session := by
  unfold sessionServices
  rw [List.mem_filter, mem_byKey, decide_eq_true_eq]

/-- The names that a document without Compose services takes. -/
structure Taken (outputDir : Text) (sha256 : Text → Text) (effective : Effective) (p : Produced) :
    Prop where
  imports : p.imports = ∅
  base : Fills outputDir p.base (.each (serviceSlots sha256) (plainServices effective))
  sessions : Fills outputDir p.sessions (.each sessionSlots (sessionServices effective))
  owner : ∀ entry ∈ plainServices effective, ∃ suffix ∈ ownerSuffixes,
    suffix.isSuffixOf (derivedOwner entry.1 entry.2) = true
  /-- Every route that activates a service has a name. -/
  routes : ∀ entry ∈ plainServices effective, isOnDemand entry.2 = true →
    ∀ route ∈ entry.2.routes.keys, ∃ name, socketUnit sha256 entry.1 route = .ok name
  /-- No target twice among those of the sessions. -/
  targets : (p.sessions.links.map Link.target).Sublist
    ((sessionServices effective).map fun entry ↦ sessionTarget entry.1)

variable {p : Produced}

theorem sessionOutput_targets (h : sessionOutput r outputDir entry = .ok out) :
    (out.links.map Link.target).Sublist [sessionTarget entry.1] := by
  unfold sessionOutput at h
  split at h
  · cases h
    exact List.nil_sublist _
  · split at h
    · cases h
      exact List.nil_sublist _
    · rcases bind_ok h with ⟨descriptor, hdescriptor, h⟩
      rcases bind_ok h with ⟨target, htarget, h⟩
      rcases bind_ok hdescriptor with ⟨_, _, hdescriptor⟩
      rcases map_ok htarget with ⟨_, _, rfl⟩
      cases hdescriptor
      cases h
      exact .refl _

theorem targets_join {entries : List (Text × Service)} {outputs : List Output}
    (h : List.Forall₂ (fun entry out ↦ sessionOutput r outputDir entry = .ok out) entries outputs) :
    ((Output.join outputs).links.map Link.target).Sublist
      (entries.map fun entry ↦ sessionTarget entry.1) := by
  induction h with
  | nil => exact .refl _
  | cons hout _ ih =>
    rw [links_join, List.flatMap_cons, List.map_append, List.map_cons, ← links_join]
    exact (sessionOutput_targets hout).append ih

theorem exists_socketUnit (h : activationOutput r outputDir entry.1 entry.2 = .ok out)
    (hdemand : isOnDemand entry.2 = true) {route : Text} (hroute : route ∈ entry.2.routes.keys) :
    ∃ name, socketUnit r.sha256 entry.1 route = .ok name := by
  unfold activationOutput at h
  rw [hdemand, if_neg (by decide)] at h
  split at h
  · cases h
  · rcases map_ok h with ⟨outputs, houtputs, _⟩
    rw [← keys_items] at hroute
    rcases List.mem_map.mp hroute with ⟨item, hitem, rfl⟩
    rcases exists_right (mapM_ok houtputs) (mem_byKey.mpr hitem) with ⟨_, _, hout⟩
    rcases bind_ok hout with ⟨socket, hsocket, _⟩
    exact ⟨socket, hsocket⟩

theorem produce_ok (hcompose : ∀ entry ∈ items effective.services, entry.2.runtime ≠ .compose)
    (h : produce r outputDir effective = .ok p) : Taken outputDir r.sha256 effective p := by
  unfold produce at h
  rw [nativeEffective_eq hcompose] at h
  rcases bind_ok h with ⟨_, _, h⟩
  rcases bind_ok h with ⟨base, hbase, h⟩
  rcases bind_ok h with ⟨imports, himports, h⟩
  rcases bind_ok h with ⟨sessions, hsessions, h⟩
  cases h
  refine ⟨?_, ?_, ?_, ?_, ?_, targets_join (mapM_ok hsessions)⟩
  · have hnone : (plainServices effective).filter (fun entry ↦ entry.2.runtime = .compose) = [] := by
      rw [List.filter_eq_nil_iff]
      intro entry hentry
      rw [decide_eq_true_eq]
      exact hcompose entry (mem_plainServices.mp hentry).1
    rw [hnone] at himports
    cases himports
    rfl
  · exact fills_mapM hbase fun entry hentry out hout =>
      serviceOutput_fills (mem_plainServices.mp hentry).1 hout
  · exact fills_mapM hsessions fun entry _ out hout => sessionOutput_fills hout
  · intro entry hentry
    rcases exists_right (mapM_ok hbase) hentry with ⟨out, _, hout⟩
    rcases bind_ok hout with ⟨owner, howner, _⟩
    rcases ownerUnit_ok howner with ⟨service, hservice, rfl, hsuffix⟩
    rw [mem_items.mp (mem_plainServices.mp hentry).1, Option.some.injEq] at hservice
    rw [hservice]
    exact hsuffix
  · intro entry hentry hdemand route hroute
    rcases exists_right (mapM_ok hbase) hentry with ⟨out, _, hout⟩
    rcases bind_ok hout with ⟨_, _, hout⟩
    rcases bind_ok hout with ⟨_, _, hout⟩
    rcases bind_ok hout with ⟨_, _, hout⟩
    rcases bind_ok hout with ⟨activation, hactivation, _⟩
    exact exists_socketUnit hactivation hdemand hroute

end

end NixNas.Systemd
