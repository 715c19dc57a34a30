import NixNas.Session.Fingerprint

/-!
# Which changes of a descriptor its fingerprint shows

Where the picked fields are the same, the descriptors differ in the units of the dependencies at most,
and the fingerprints do not differ at all.
-/

open Fallible NixNas.Spec NixNas.Authentik

namespace NixNas.Session

variable {F : Type}

/-! ## Descriptors with the same parts -/

theorem texts_injective {values values' : List Text}
    (h : stored (texts values : Plain F) = stored (texts values')) : values = values' := by
  have hitems : values.map (fun value ↦ stored (.scalar (.string value) : Plain F)) =
      values'.map fun value ↦ stored (.scalar (.string value)) := by
    have hstored := Plain.array.inj h
    rwa [storedItems_eq_map, storedItems_eq_map, List.map_map, List.map_map] at hstored
  have hinj : Function.Injective fun value : Text ↦ stored (.scalar (.string value) : Plain F) := by
    intro value value' heq
    exact Scalar.string.inj (Plain.scalar.inj heq)
  exact List.map_injective_iff.mpr hinj hitems

section Same

variable {printing : Printing F} {sha256 : Text → Text} {tools : Tools}
  {effective effective' service service' : Object F} {serviceId : Text} {p p' : Parts F}

theorem Settled.stored_iff (h : Settled p p') :
    stored (.object (p.descriptor tools serviceId).json) =
        stored (.object (p'.descriptor tools serviceId).json) ↔
      (p.descriptor tools serviceId).requires = (p'.descriptor tools serviceId).requires ∧
        (p.descriptor tools serviceId).after = (p'.descriptor tools serviceId).after := by
  constructor
  · intro heq
    have hfield := find_same (Plain.object.inj heq)
    exact ⟨texts_injective (Option.some.inj (hfield "requires".toList)),
      texts_injective (Option.some.inj (hfield "after".toList))⟩
  · intro ⟨hrequires, hafter⟩
    rw [stored_object, stored_object]
    refine congrArg Plain.object (WrittenAlike.storedEntries_eq ?_)
    unfold WrittenAlike SessionDescriptor.json
    simp only [List.map_cons, List.map_nil, hrequires, hafter]
    -- what is left is taken from the parts as they stand
    simp only [Parts.descriptor, h.systemdRun, h.network, h.mounts, h.image, h.command, h.pull,
      h.credentials, h.resources, h.sandbox]

theorem standing_same (hp : HasParts printing sha256 tools effective serviceId service p)
    (hp' : HasParts printing sha256 tools effective' serviceId service' p') (h : Settled p p') :
    standing sha256 effective serviceId service = standing sha256 effective' serviceId service' := by
  rw [hp.standing_eq, hp'.standing_eq, (dependencies_ok hp.depends).1, (dependencies_ok hp'.depends).1,
    h.depends, h.network]

theorem or_iff_or {a b c : Prop} : (a ∨ c ↔ b ∨ c) ↔ (¬c → (a ↔ b)) := by
  by_cases hc : c <;> simp [hc]

theorem Settled.units_iff (h : Settled p p')
    (hp : HasParts printing sha256 tools effective serviceId service p)
    (hp' : HasParts printing sha256 tools effective' serviceId service' p') :
    (p.descriptor tools serviceId).requires = (p'.descriptor tools serviceId).requires ∧
        (p.descriptor tools serviceId).after = (p'.descriptor tools serviceId).after ↔
      SameOwners sha256 effective effective' serviceId service service' := by
  unfold Parts.descriptor SameOwners
  dsimp only
  rw [sortedUnits_eq_iff, sortedUnits_eq_iff, ← forall_and]
  refine forall_congr' fun unit => ?_
  rw [hp.mem_requires, hp'.mem_requires, hp.mem_after, hp'.mem_after, ← standing_same hp hp' h,
    or_iff_or, or_iff_or, imp_and]

end Same

/-! ## Fingerprints of the same input -/

section Inputs

variable {printing : Printing F} {sha256 : Text → Text} {tools : Tools}
  {effective effective' service service' input input' : Object F} {serviceId : Text} {user user' : Bool}
  {p p' : Parts F}

theorem picked_keys (effective service : Object F) (serviceId : Text) :
    (picked sha256 effective serviceId service).map Prod.fst =
      ["runtime".toList, "dependencies".toList, "resources".toList, "sandbox".toList, "storage".toList,
        "credentials".toList, "storageBindings".toList, "credentialBindings".toList, "network".toList,
        "networkProfile".toList, "networkReference".toList] := rfl

theorem samePicked_of_input
    (hinput : fingerprintInput sha256 effective serviceId service user = .ok input)
    (hinput' : fingerprintInput sha256 effective' serviceId service' user' = .ok input')
    (h : stored (.object input) = stored (.object input')) :
    SamePicked sha256 effective effective' serviceId service service' := by
  refine ⟨writtenAlike_of_find rfl ?_ ?_⟩
  · rw [picked_keys]
    decide
  · intro key hkey
    have hfind := find_same (Plain.object.inj h) key
    rw [fingerprintInput_ok hinput, fingerprintInput_ok hinput', find_append, find_append] at hfind
    -- a picked key stands in front of the flag in both inputs
    have hpresent : ∀ effective service : Object F,
        ∃ value, find key (picked sha256 effective serviceId service) = some value := fun _ _ =>
      Option.isSome_iff_exists.mp (has_iff_mem.mpr hkey)
    obtain ⟨value, hvalue⟩ := hpresent effective service
    obtain ⟨value', hvalue'⟩ := hpresent effective' service'
    rw [hvalue, hvalue', Option.some_or, Option.some_or] at hfind
    rw [hvalue, hvalue', hfind]

theorem SamePicked.inputs (h : SamePicked sha256 effective effective' serviceId service service')
    (hinput : fingerprintInput sha256 effective serviceId service user = .ok input)
    (hinput' : fingerprintInput sha256 effective' serviceId service' user = .ok input') :
    stored (.object input) = stored (.object input') := by
  rw [fingerprintInput_ok hinput, fingerprintInput_ok hinput', stored_object, stored_object]
  refine congrArg Plain.object (WrittenAlike.storedEntries_eq ?_)
  have halike := h.alike
  unfold WrittenAlike at halike ⊢
  rw [List.map_append, List.map_append, halike]

end Inputs

/-! ## What the projection records -/

/-- The service is a session that is managed and enabled. -/
structure LiveSession (effective : Object F) (serviceId : Text) (service : Object F) : Prop where
  present : ∃ services, find "services".toList effective = some (.object services) ∧
    find serviceId services = some (.object service)
  session : isSessionService service = true
  managed : truthyAt "managed" service = true
  enabled : truthyAt "enabled" service = true

def Recorded (printing : Printing F) (sha256 : Text → Text) (digest : Plain F → Text) (tools : Tools)
    (effective : Object F) (serviceId : Text) (service : Object F) (out : SessionOutput F) : Prop :=
  ∃ d input, descriptor printing sha256 tools effective serviceId service = .ok d ∧
    fingerprintInput sha256 effective serviceId service d.requiresUser = .ok input ∧
    out.descriptors.lookup serviceId = some d ∧
    out.fingerprints.lookup (sessionTarget serviceId) = some (fingerprint digest input)

theorem sessionTarget_injective {serviceId serviceId' : Text}
    (h : sessionTarget serviceId = sessionTarget serviceId') : serviceId = serviceId' := by
  unfold sessionTarget at h
  rwa [List.append_left_inj, List.append_right_inj] at h

section Recording

variable {printing : Printing F} {sha256 : Text → Text} {digest : Plain F → Text} {tools : Tools}
  {base : List (Text × Text)} {effective services service : Object F} {serviceId other : Text}
  {out out' : SessionOutput F}
variable {key : String} {o : Object F}

theorem field_truthy {value : Plain F} (h : field key o = .ok value) :
    truthyAt key o = truthy value := by
  unfold truthyAt
  rw [field_ok h, Option.any_some]

theorem sessionRound_ok
    (h : sessionRound printing sha256 digest tools effective services out serviceId = .ok out')
    (hservice : asObject (find serviceId services) = service) :
    (out' = out ∧ ¬(truthyAt "managed" service = true ∧ truthyAt "enabled" service = true)) ∨
    ∃ d input, descriptor printing sha256 tools effective serviceId service = .ok d ∧
      fingerprintInput sha256 effective serviceId service d.requiresUser = .ok input ∧
      out' = ⟨setItem out.descriptors serviceId d,
        setItem out.fingerprints (sessionTarget serviceId) (fingerprint digest input)⟩ := by
  unfold sessionRound at h
  rw [hservice] at h
  obtain ⟨managed, hmanaged, h⟩ := bind_ok h
  rw [field_truthy hmanaged]
  split at h
  · rename_i hnot
    left
    rw [Bool.not_eq_true'] at hnot
    exact ⟨(Except.ok.inj h).symm, fun hboth => by rw [hnot] at hboth; cases hboth.1⟩
  · obtain ⟨enabled, henabled, h⟩ := bind_ok h
    rw [field_truthy henabled]
    split at h
    · rename_i hnot
      left
      rw [Bool.not_eq_true'] at hnot
      exact ⟨(Except.ok.inj h).symm, fun hboth => by rw [hnot] at hboth; cases hboth.2⟩
    · right
      obtain ⟨d, hd, h⟩ := bind_ok h
      obtain ⟨input, hinput, h⟩ := bind_ok h
      exact ⟨d, input, hd, hinput, (Except.ok.inj h).symm⟩

theorem Recorded.round
    (hrecorded : Recorded printing sha256 digest tools effective serviceId service out)
    (h : sessionRound printing sha256 digest tools effective services out other = .ok out')
    (hservice : asObject (find serviceId services) = service) :
    Recorded printing sha256 digest tools effective serviceId service out' := by
  obtain ⟨rfl, -⟩ | ⟨d', input', hd', hinput', rfl⟩ := sessionRound_ok h rfl
  · exact hrecorded
  · obtain ⟨d, input, hd, hinput, hdescriptor, hfingerprint⟩ := hrecorded
    by_cases heq : serviceId = other
    · subst heq
      rw [hservice] at hd' hinput'
      refine ⟨d', input', hd', hinput', ?_, ?_⟩
      · rw [lookup_setItem, if_pos rfl]
      · rw [lookup_setItem, if_pos rfl]
    · refine ⟨d, input, hd, hinput, ?_, ?_⟩
      · rw [lookup_setItem, if_neg heq, hdescriptor]
      · rw [lookup_setItem, if_neg fun htarget => heq (sessionTarget_injective htarget), hfingerprint]

theorem objectField_ok {value : Object F} (h : objectField key o = .ok value) :
    find key.toList o = some (.object value) := by
  obtain ⟨found, hfound, h⟩ := bind_ok h
  rw [field_ok hfound]
  cases found with
  | scalar => cases h
  | array => cases h
  | object =>
    cases h
    rfl

theorem recorded_of_live (hlive : LiveSession effective serviceId service)
    (h : generateSessions printing sha256 digest tools base effective = .ok out) :
    Recorded printing sha256 digest tools effective serviceId service out := by
  obtain ⟨services, hservices, hfound⟩ := hlive.present
  obtain ⟨services', hservices', h⟩ := bind_ok h
  obtain ⟨⟨⟩, -, h⟩ := bind_ok h
  obtain rfl : services = services' := by
    rw [objectField_ok hservices', Option.some.injEq, Plain.object.injEq] at hservices
    exact hservices.symm
  have hservice : asObject (find serviceId services) = service := by
    rw [hfound]
    rfl
  have hmem : serviceId ∈ sessionIds services := by
    unfold sessionIds
    rw [List.mem_insertionSort, List.mem_map]
    exact ⟨_, List.mem_filter.mpr ⟨mem_of_find hfound, hlive.session⟩, rfl⟩
  have hall := foldlM_each (R := fun t x => x = serviceId →
    Recorded printing sha256 digest tools effective serviceId service t) h ?_ ?_
  · exact hall serviceId hmem rfl
  · rintro x - t t' ht rfl
    obtain ⟨-, hnot⟩ | ⟨d, input, hd, hinput, rfl⟩ := sessionRound_ok ht hservice
    · exact (hnot ⟨hlive.managed, hlive.enabled⟩).elim
    · refine ⟨d, input, hd, hinput, ?_, ?_⟩
      · rw [lookup_setItem, if_pos rfl]
      · rw [lookup_setItem, if_pos rfl]
  · intro x _ y t t' hrecorded ht heq
    exact (hrecorded heq).round ht hservice

end Recording

/-! ## Completeness -/

/-- A descriptor that differs has a fingerprint that differs. -/
def Complete (out out' : SessionOutput F) (serviceId : Text) : Prop :=
  ∀ d d', out.descriptors.lookup serviceId = some d → out'.descriptors.lookup serviceId = some d' →
    stored (.object d.json) ≠ stored (.object d'.json) →
    out.fingerprints.lookup (sessionTarget serviceId) ≠ out'.fingerprints.lookup (sessionTarget serviceId)

/-- What fingerprints of the service are taken of. -/
def Fingerprinted (sha256 : Text → Text) (effective : Object F) (serviceId : Text) (service : Object F) :
    Set (Plain F) :=
  { value | ∃ user input, fingerprintInput sha256 effective serviceId service user = .ok input ∧
    value = stored (.object input) }

section Completeness

variable {printing : Printing F} {sha256 : Text → Text} {digest : Plain F → Text} {tools : Tools}
  {base base' : List (Text × Text)} {effective effective' service service' : Object F} {serviceId : Text}
  {out out' : SessionOutput F}

theorem sameOwners_of_complete
    (hout : generateSessions printing sha256 digest tools base effective = .ok out)
    (hout' : generateSessions printing sha256 digest tools base' effective' = .ok out')
    (hlive : LiveSession effective serviceId service) (hlive' : LiveSession effective' serviceId service')
    (h : Complete out out' serviceId)
    (hsame : SamePicked sha256 effective effective' serviceId service service') :
    SameOwners sha256 effective effective' serviceId service service' := by
  obtain ⟨d, input, hd, hinput, hdescriptor, hfingerprint⟩ := recorded_of_live hlive hout
  obtain ⟨d', input', hd', hinput', hdescriptor', hfingerprint'⟩ := recorded_of_live hlive' hout'
  obtain ⟨p, hp, rfl⟩ := descriptor_ok hd
  obtain ⟨p', hp', rfl⟩ := descriptor_ok hd'
  have hsettled := hsame.settled hlive.session hlive'.session hp hp'
  -- the flag comes from the mounts, which the picked fields settle
  have hflag : (p.descriptor tools serviceId).requiresUser =
      (p'.descriptor tools serviceId).requiresUser := congrArg requiresUser hsettled.mounts
  rw [← hflag] at hinput'
  have hequal : fingerprint digest input = fingerprint digest input' :=
    congrArg digest (hsame.inputs hinput hinput')
  rw [← hsettled.units_iff hp hp', ← hsettled.stored_iff]
  by_contra hdiffer
  apply h _ _ hdescriptor hdescriptor' hdiffer
  rw [hfingerprint, hfingerprint', hequal]

/-- The fingerprints are complete exactly where the picked fields settle the owners as well. -/
theorem complete_iff
    (hout : generateSessions printing sha256 digest tools base effective = .ok out)
    (hout' : generateSessions printing sha256 digest tools base' effective' = .ok out')
    (hlive : LiveSession effective serviceId service) (hlive' : LiveSession effective' serviceId service')
    (hcollision : Set.InjOn digest (Fingerprinted sha256 effective serviceId service ∪
      Fingerprinted sha256 effective' serviceId service')) :
    Complete out out' serviceId ↔
      (SamePicked sha256 effective effective' serviceId service service' →
        SameOwners sha256 effective effective' serviceId service service') := by
  constructor
  · exact sameOwners_of_complete hout hout' hlive hlive'
  · intro h d d' hrecord hrecord' hdiffer heq
    obtain ⟨d, input, hd, hinput, hdescriptor, hfingerprint⟩ := recorded_of_live hlive hout
    obtain ⟨d', input', hd', hinput', hdescriptor', hfingerprint'⟩ := recorded_of_live hlive' hout'
    cases hrecord.symm.trans hdescriptor
    cases hrecord'.symm.trans hdescriptor'
    rw [hfingerprint, hfingerprint', Option.some.injEq] at heq
    have hinputs : stored (.object input) = stored (.object input') :=
      hcollision (.inl ⟨_, input, hinput, rfl⟩) (.inr ⟨_, input', hinput', rfl⟩) heq
    have hsame := samePicked_of_input hinput hinput' hinputs
    obtain ⟨p, hp, rfl⟩ := descriptor_ok hd
    obtain ⟨p', hp', rfl⟩ := descriptor_ok hd'
    have hsettled := hsame.settled hlive.session hlive'.session hp hp'
    exact hdiffer (hsettled.stored_iff.mpr ((hsettled.units_iff hp hp').mpr (h hsame)))

end Completeness

/-! ## A session behind a database -/

def entriesOf (entries : List (String × Plain Empty)) : Plain Empty :=
  .object (entries.map fun e ↦ (e.1.toList, e.2))

/-- The session `desk` waits until the service `db` is started, which is a unit of the host. -/
def deskDocument (unit image : String) : Object Empty :=
  [("schemaVersion".toList, number 3), ("services".toList, entriesOf [
    ("db", entriesOf [("name", text "Database"), ("workload", entriesOf [("kind", text "daemon")]),
      ("runtime", entriesOf [("type", text "systemd"), ("unit", text unit)])]),
    ("desk", entriesOf [("name", text "Desk"), ("workload", entriesOf [("kind", text "session")]),
      ("runtime", entriesOf [("type", text "oci"), ("image", text image)]),
      ("dependencies", .array [entriesOf [("service", text "db"), ("condition", text "started")]])])])]

/-- The compiled document, nothing where it is refused. -/
def deskEffective (unit image : String) : Object Empty :=
  match compileDocument (fun _ ↦ .ok ()) (fun _ ↦ .ok ()) (deskDocument unit image) with
  | .ok effective => effective
  | .error _ => []

def deskService (unit image : String) : Object Empty :=
  asObject (find "desk".toList (asObject (find "services".toList (deskEffective unit image))))

def examplePrinting : Printing Empty := ⟨.empty, fun _ ↦ [], fun _ ↦ []⟩

def exampleTools : Tools := ⟨"/usr/bin/systemctl".toList, "/usr/bin/podman".toList⟩

theorem compileDocument_desk {unit image : String}
    (h : isOk (compileDocument (fun _ ↦ .ok ()) (fun _ ↦ .ok ()) (deskDocument unit image)) = true) :
    compileDocument (fun _ ↦ .ok ()) (fun _ ↦ .ok ()) (deskDocument unit image) =
      .ok (deskEffective unit image) := by
  obtain ⟨effective, heffective⟩ := exists_of_isOk h
  unfold deskEffective
  rw [heffective]

/-- Two documents that differ in the unit of the database have descriptors that differ, and the
fingerprints are the same. -/
theorem not_complete_desk :
    compileDocument (fun _ ↦ .ok ()) (fun _ ↦ .ok ()) (deskDocument "postgresql.service" "desk:1") =
      .ok (deskEffective "postgresql.service" "desk:1") ∧
    compileDocument (fun _ ↦ .ok ()) (fun _ ↦ .ok ()) (deskDocument "mariadb.service" "desk:1") =
      .ok (deskEffective "mariadb.service" "desk:1") ∧
    LiveSession (deskEffective "postgresql.service" "desk:1") "desk".toList
      (deskService "postgresql.service" "desk:1") ∧
    LiveSession (deskEffective "mariadb.service" "desk:1") "desk".toList
      (deskService "mariadb.service" "desk:1") ∧
    ∀ sha256 digest base, ∃ out out',
      generateSessions examplePrinting sha256 digest exampleTools base
        (deskEffective "postgresql.service" "desk:1") = .ok out ∧
      generateSessions examplePrinting sha256 digest exampleTools base
        (deskEffective "mariadb.service" "desk:1") = .ok out' ∧
      ¬ Complete out out' "desk".toList := by
  have hlive : LiveSession (deskEffective "postgresql.service" "desk:1") "desk".toList
      (deskService "postgresql.service" "desk:1") := ⟨⟨_, rfl, rfl⟩, rfl, rfl, rfl⟩
  have hlive' : LiveSession (deskEffective "mariadb.service" "desk:1") "desk".toList
      (deskService "mariadb.service" "desk:1") := ⟨⟨_, rfl, rfl⟩, rfl, rfl, rfl⟩
  refine ⟨compileDocument_desk (by rfl), compileDocument_desk (by rfl), hlive, hlive', ?_⟩
  intro sha256 digest base
  obtain ⟨out, hout⟩ := exists_of_isOk (x := generateSessions examplePrinting sha256 digest exampleTools
    base (deskEffective "postgresql.service" "desk:1")) (by rfl)
  obtain ⟨out', hout'⟩ := exists_of_isOk (x := generateSessions examplePrinting sha256 digest
    exampleTools base (deskEffective "mariadb.service" "desk:1")) (by rfl)
  refine ⟨out, out', hout, hout', ?_⟩
  intro hcomplete
  have howners := sameOwners_of_complete hout hout' hlive hlive' hcomplete ⟨by rfl⟩
  -- nothing but the first document gives the database to PostgreSQL
  have hreference : quadletNetworkReference sha256 (deskEffective "postgresql.service" "desk:1")
      "desk".toList (deskService "postgresql.service" "desk:1") true =
    .ok "nas-v2-snet-desk.network".toList := rfl
  have hstanding : "postgresql.service".toList ∉ standing sha256
      (deskEffective "postgresql.service" "desk:1") "desk".toList
      (deskService "postgresql.service" "desk:1") := by
    unfold standing
    rw [hreference]
    decide
  obtain ⟨howns, -⟩ := howners _ hstanding
  obtain ⟨d, hd, hunit⟩ := howns.mp ⟨("db".toList, false), by decide, rfl⟩
  have hdeclared : declared (deskService "mariadb.service" "desk:1") = [("db".toList, false)] := rfl
  rw [hdeclared, List.mem_singleton] at hd
  subst hd
  exact absurd (Except.ok.inj hunit) (by decide)

def imageDigest : Plain Empty → Text
  | .object o => ((textAt "image" (asObject (find "runtime".toList o))).getD []) ++
    if truthyAt "requiresUser" o then ['u'] else []
  | _ => []

/-- A change of the image is seen. -/
theorem complete_desk : ∃ out out',
    generateSessions examplePrinting id imageDigest exampleTools []
      (deskEffective "postgresql.service" "desk:1") = .ok out ∧
    generateSessions examplePrinting id imageDigest exampleTools []
      (deskEffective "postgresql.service" "desk:2") = .ok out' ∧
    Complete out out' "desk".toList := by
  obtain ⟨out, hout⟩ := exists_of_isOk (x := generateSessions examplePrinting id imageDigest exampleTools
    [] (deskEffective "postgresql.service" "desk:1")) (by rfl)
  obtain ⟨out', hout'⟩ := exists_of_isOk (x := generateSessions examplePrinting id imageDigest
    exampleTools [] (deskEffective "postgresql.service" "desk:2")) (by rfl)
  have hlive : ∀ image ∈ ["desk:1", "desk:2"], LiveSession (deskEffective "postgresql.service" image)
      "desk".toList (deskService "postgresql.service" image) := by
    rw [List.forall_mem_cons, List.forall_mem_singleton]
    exact ⟨⟨⟨_, rfl, rfl⟩, rfl, rfl, rfl⟩, ⟨⟨_, rfl, rfl⟩, rfl, rfl, rfl⟩⟩
  refine ⟨out, out', hout, hout', (complete_iff hout hout' (hlive _ (by simp)) (hlive _ (by simp))
    ?_).mpr ?_⟩
  · -- the four inputs have four digests
    have hinput : ∀ effective service : Object Empty,
        Fingerprinted id effective "desk".toList service ⊆
          Set.range fun user ↦ stored (.object (picked id effective "desk".toList service ++
            [("requiresUser".toList, boolean user)])) := by
      rintro effective service _ ⟨user, input, hinput, rfl⟩
      exact ⟨user, by rw [fingerprintInput_ok hinput]⟩
    apply Set.InjOn.mono (Set.union_subset_union (hinput _ _) (hinput _ _))
    rintro _ (⟨user, rfl⟩ | ⟨user, rfl⟩) _ (⟨user', rfl⟩ | ⟨user', rfl⟩) heq
    · cases user <;> cases user' <;> first | rfl | exact absurd heq (by decide)
    · cases user <;> cases user' <;> exact absurd heq (by decide)
    · cases user <;> cases user' <;> exact absurd heq (by decide)
    · cases user <;> cases user' <;> first | rfl | exact absurd heq (by decide)
  · intro hsame
    have himage := congrArg (fun value ↦ textAt "image" (asObject (some value)))
      (hsame.value "runtime".toList rfl rfl)
    exact absurd himage (by decide)

end NixNas.Session
