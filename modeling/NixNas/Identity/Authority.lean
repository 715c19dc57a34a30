import NixNas.Authentik.Blueprint

/-!
# The compiled authority (`services/nas_common.py`)

Two readers of the effective state: the strict loader, and the resolver of one capability, which
answers with a grant, with none, or raises.  The parser of JSON is a parameter.
-/

open Fallible NixNas.Spec NixNas.Authentik NixNas.Caddy

namespace NixNas.Identity

variable {F : Type}
variable {service capability : Text} {value : Plain F} {data services authorization : Object F}

/-- What stands at the path of the effective state. -/
inductive EffectiveFile where
  /-- No file; whether a link on the way leads nowhere. -/
  | absent (dangling : Bool)
  | unreadable
  | undecodable
  | content (raw : Text)
  deriving DecidableEq, Repr

inductive ValueError where
  | unavailableSymlink
  | unreadable
  | undecodable
  | invalidJson
  | notAnObject
  | missingAuthorization
  | invalidIdentifier (service capability : Text)
  deriving DecidableEq, Repr

inductive Raised where
  | valueError (error : ValueError)
  | attributeError
  deriving DecidableEq, Repr

inductive ValueProblem where
  | notText
  | notCanonical
  deriving DecidableEq, Repr

/-- `_capability_value_error`; the name of the group raises for identifiers that are none. -/
def capabilityValueError (service capability : Text) (value : Plain F) :
    Except ValueError (Option ValueProblem) :=
  match value with
  | .scalar (.string name) =>
    if name = [] then .ok (some .notText)
    else match applicationCapabilityGroup service capability with
    | none => .error (.invalidIdentifier service capability)
    | some group => .ok (if name = group then none else some .notCanonical)
  | _ => .ok (some .notText)

/-! ## The strict loader -/

inductive LoadError where
  | unreadable
  | invalidJson
  | notAnObject
  | schemaVersion
  | missingDerived
  | missingAuthorization
  | missingServices
  | emptyDeclaration (service : Text)
  | entryNotAnObject (service : Text)
  | undeclared (service : Text)
  | capabilitiesNotAnObject (service : Text)
  | value (service capability : Text) (problem : ValueProblem)
  | raised (error : ValueError)
  deriving DecidableEq, Repr

def checkDeclaration (entry : Text × Plain F) : Except LoadError Unit :=
  match entry.2 with
  | .object (_ :: _) => .ok ()
  | _ => .error (.emptyDeclaration entry.1)

def checkCapability (service : Text) (entry : Text × Plain F) : Except LoadError Unit :=
  match capabilityValueError service entry.1 entry.2 with
  | .error e => .error (.raised e)
  | .ok (some problem) => .error (.value service entry.1 problem)
  | .ok none => .ok ()

def checkAuthorization (services : Object F) (entry : Text × Plain F) : Except LoadError Unit :=
  match entry.2 with
  | .object o =>
    if ¬ Has entry.1 services then .error (.undeclared entry.1)
    else match find "capabilities".toList o with
    | none | some (.scalar .null) => .ok ()
    | some (.object caps) => caps.forM (checkCapability entry.1)
    | some _ => .error (.capabilitiesNotAnObject entry.1)
  | _ => .error (.entryNotAnObject entry.1)

def loadEffectiveAuthority (float : FloatEq F) (loads : Text → Option (Plain F)) (file : EffectiveFile) :
    Except LoadError (Object F) :=
  match file with
  | .content raw =>
    match loads raw with
    | none => .error .invalidJson
    | some (.object data) =>
      if !(find "schemaVersion".toList data).any fun v ↦ eq float v (number 2) || eq float v (number 3) then
        .error .schemaVersion
      else match objectAt "derived" data with
      | none => .error .missingDerived
      | some derived =>
        match objectAt "authorization" derived with
        | none => .error .missingAuthorization
        | some authorization =>
          match objectAt "services" data with
          | none => .error .missingServices
          | some services => do
            services.forM checkDeclaration
            authorization.forM (checkAuthorization services)
            .ok data
    | some _ => .error .notAnObject
  | _ => .error .unreadable

/-! ## The resolver -/

def isDeclaredCapability : Plain F → Bool
  | .object item => (textAt "id" item).any isCapabilityId
  | _ => false

def declaresId (capability : Text) : Plain F → Bool
  | .object item => textAt "id" item = some capability
  | _ => false

/-- The resolver once the state is parsed; `services` that is no object has no `get`. -/
def resolveParsed (data : Object F) (service capability : Text) :
    Except Raised (Option (Text × Text)) :=
  match (objectAt "derived" data).bind (objectAt "authorization") with
  | none => .error (.valueError .missingAuthorization)
  | some authorization =>
    match (find "services".toList data).getD (.object []) with
    | .object services =>
      let declaration := asObject (find service services)
      match find "capabilities".toList (asObject (find "authorization".toList declaration)) with
      | some (.array items) =>
        if !items.all isDeclaredCapability then .ok none
        else if capability ≠ "access".toList ∧ !items.any (declaresId capability) then .ok none
        else
          let entry := asObject (find service authorization)
          match find capability (asObject (find "capabilities".toList entry)) with
          | some value =>
            match capabilityValueError service capability value with
            | .error e => .error (.valueError e)
            | .ok none => .ok (some (service, capability))
            | .ok (some _) => .ok none
          | none => .ok none
      | _ => .ok none
    | _ => .error .attributeError

/-- `resolve_v2_service_capability`, the names read from the environment. -/
def resolveServiceCapability (loads : Text → Option (Plain F)) (file : EffectiveFile)
    (service capability : Text) : Except Raised (Option (Text × Text)) :=
  match file with
  | .absent dangling =>
    -- a link that leads nowhere is an authority out of reach, not the state before any compilation
    if dangling then .error (.valueError .unavailableSymlink) else .ok (some (service, capability))
  | .unreadable => .error (.valueError .unreadable)
  | .undecodable => .error (.valueError .undecodable)
  | .content raw =>
    match loads raw with
    | none => .error (.valueError .invalidJson)
    | some (.object data) => resolveParsed data service capability
    | some _ => .error (.valueError .notAnObject)

/-! ## What a grant rests on -/

def compiledValue (data : Object F) (service capability : Text) : Option (Plain F) :=
  ((objectAt "derived" data).bind (objectAt "authorization")).bind fun authorization ↦
    find capability (asObject (find "capabilities".toList (asObject (find service authorization))))

/-- The compiled value is the name of the capability's own group. -/
def Canonical (data : Object F) (service capability : Text) : Prop :=
  ∃ group, applicationCapabilityGroup service capability = some group ∧
    compiledValue data service capability = some (.scalar (.string group))

def declaredItems (data : Object F) (service : Text) : Option (List (Plain F)) :=
  let declaration := asObject (find service (asObject (find "services".toList data)))
  match find "capabilities".toList (asObject (find "authorization".toList declaration)) with
  | some (.array items) => some items
  | _ => none

def Declares (data : Object F) (service capability : Text) : Prop :=
  ∃ items, declaredItems data service = some items ∧ items.any (declaresId capability) = true

/-- The service declares a list, and every element of it is a capability. -/
def WellDeclared (data : Object F) (service : Text) : Prop :=
  ∃ items, declaredItems data service = some items ∧ items.all isDeclaredCapability = true

theorem capabilityValueError_ok :
    capabilityValueError service capability value = .ok none ↔
      ∃ group, applicationCapabilityGroup service capability = some group ∧
        value = .scalar (.string group) := by
  constructor
  · intro h
    unfold capabilityValueError at h
    split at h
    · rename_i name
      split at h
      · cases h
      · split at h
        · cases h
        · rename_i group hgroup
          split at h
          · rename_i heq
            exact ⟨group, hgroup, by rw [heq]⟩
          · cases h
    · cases h
  · rintro ⟨group, hgroup, rfl⟩
    have hne : group ≠ [] := by
      rintro rfl
      unfold applicationCapabilityGroup at hgroup
      split at hgroup <;> cases hgroup
    unfold capabilityValueError
    dsimp only
    rw [if_neg hne, hgroup]
    dsimp only
    rw [if_pos rfl]

theorem declaredItems_of_services (service : Text)
    (h : (find "services".toList data).getD (.object []) = .object services) :
    declaredItems data service =
      match find "capabilities".toList
        (asObject (find "authorization".toList (asObject (find service services)))) with
      | some (.array items) => some items
      | _ => none := by
  have hservices : asObject (find "services".toList data) = services := by
    cases hfind : find "services".toList data with
    | none =>
      rw [hfind] at h
      cases h
      rfl
    | some value =>
      rw [hfind] at h
      cases h
      rfl
  unfold declaredItems
  rw [hservices]

/-- What the resolver does with an authority whose `services` is an object, or left out. -/
theorem resolveParsed_eq (service capability : Text)
    (hauthorization : (objectAt "derived" data).bind (objectAt "authorization") = some authorization)
    (hservices : (find "services".toList data).getD (.object []) = .object services) :
    resolveParsed data service capability =
      match declaredItems data service with
      | some items =>
        if !items.all isDeclaredCapability then .ok none
        else if capability ≠ "access".toList ∧ !items.any (declaresId capability) then .ok none
        else match compiledValue data service capability with
        | some value =>
          match capabilityValueError service capability value with
          | .error e => .error (.valueError e)
          | .ok none => .ok (some (service, capability))
          | .ok (some _) => .ok none
        | none => .ok none
      | none => .ok none := by
  have hvalue : compiledValue data service capability =
      find capability (asObject (find "capabilities".toList (asObject (find service authorization)))) := by
    unfold compiledValue
    rw [hauthorization]
    rfl
  rw [hvalue, declaredItems_of_services service hservices]
  unfold resolveParsed
  rw [hauthorization, hservices]
  dsimp only
  split <;> rfl

theorem services_of_declaredItems {items : List (Plain F)}
    (h : declaredItems data service = some items) :
    ∃ services, (find "services".toList data).getD (.object []) = .object services := by
  unfold declaredItems at h
  cases hfind : find "services".toList data with
  | none => exact ⟨[], rfl⟩
  | some value =>
    cases value with
    | object services => exact ⟨services, rfl⟩
    | scalar =>
      rw [hfind] at h
      cases h
    | array =>
      rw [hfind] at h
      cases h

theorem resolveParsed_iff {p : Text × Text} :
    resolveParsed data service capability = .ok (some p) ↔ p = (service, capability) ∧
      Canonical data service capability ∧ WellDeclared data service ∧
        (capability = "access".toList ∨ Declares data service capability) := by
  constructor
  · intro h
    cases hauthorization : (objectAt "derived" data).bind (objectAt "authorization") with
    | none =>
      unfold resolveParsed at h
      rw [hauthorization] at h
      cases h
    | some authorization =>
      cases hservices : (find "services".toList data).getD (.object []) with
      | scalar =>
        unfold resolveParsed at h
        rw [hauthorization, hservices] at h
        cases h
      | array =>
        unfold resolveParsed at h
        rw [hauthorization, hservices] at h
        cases h
      | object services =>
        rw [resolveParsed_eq service capability hauthorization hservices] at h
        split at h
        · rename_i items hitems
          split at h
          · cases h
          · rename_i hall
            rw [Bool.not_eq_true', Bool.not_eq_false] at hall
            split at h
            · cases h
            · rename_i hdeclared
              split at h
              · rename_i value hvalue
                split at h
                · cases h
                · rename_i hproblem
                  cases h
                  obtain ⟨group, hgroup, rfl⟩ := capabilityValueError_ok.mp hproblem
                  refine ⟨rfl, ⟨group, hgroup, hvalue⟩, ⟨items, hitems, hall⟩, ?_⟩
                  rw [not_and_or, not_not, Bool.not_eq_true', Bool.not_eq_false] at hdeclared
                  exact hdeclared.imp_right fun hany => ⟨items, hitems, hany⟩
                · cases h
              · cases h
        · cases h
  · rintro ⟨rfl, ⟨group, hgroup, hvalue⟩, ⟨items, hitems, hall⟩, hdeclared⟩
    obtain ⟨services, hservices⟩ := services_of_declaredItems hitems
    obtain ⟨authorization, hauthorization, -⟩ := Option.bind_eq_some_iff.mp hvalue
    have hguard : ¬ (capability ≠ "access".toList ∧ (!items.any (declaresId capability)) = true) := by
      rw [not_and_or, not_not, Bool.not_eq_true', Bool.not_eq_false]
      refine hdeclared.imp_right ?_
      rintro ⟨items', hitems', hany⟩
      rw [hitems] at hitems'
      cases hitems'
      exact hany
    rw [resolveParsed_eq service capability hauthorization hservices, hitems]
    dsimp only
    rw [hall, if_neg (by decide), if_neg hguard, hvalue]
    dsimp only
    rw [capabilityValueError_ok.mpr ⟨group, hgroup, rfl⟩]

/-! ## The two readers -/

theorem load_ok {float : FloatEq F} {loads : Text → Option (Plain F)} {file : EffectiveFile}
    (h : loadEffectiveAuthority float loads file = .ok data) :
    ∃ raw authorization services, file = .content raw ∧ loads raw = some (.object data) ∧
      (objectAt "derived" data).bind (objectAt "authorization") = some authorization ∧
      objectAt "services" data = some services ∧
      ∀ entry ∈ authorization, checkAuthorization services entry = .ok () := by
  unfold loadEffectiveAuthority at h
  split at h
  · rename_i raw
    split at h
    · cases h
    · rename_i data' hraw
      obtain ⟨-, h⟩ := guard_ok h
      split at h
      · cases h
      · rename_i derived hderived
        split at h
        · cases h
        · rename_i authorization hauthorization
          split at h
          · cases h
          · rename_i services hservices
            obtain ⟨_, _, h⟩ := bind_ok h
            obtain ⟨_, hchecks, h⟩ := bind_ok h
            cases h
            refine ⟨raw, authorization, services, rfl, hraw, ?_, hservices, forM_ok hchecks⟩
            rw [hderived]
            exact hauthorization
    · cases h
  · cases h

theorem value_of_load
    (hchecks : ∀ entry ∈ authorization, checkAuthorization services entry = .ok ())
    (hvalue : find capability
      (asObject (find "capabilities".toList (asObject (find service authorization)))) = some value) :
    capabilityValueError service capability value = .ok none := by
  cases hentry : find service authorization with
  | none =>
    rw [hentry] at hvalue
    cases hvalue
  | some entry =>
    cases entry with
    | scalar =>
      rw [hentry] at hvalue
      cases hvalue
    | array =>
      rw [hentry] at hvalue
      cases hvalue
    | object o =>
      rw [hentry] at hvalue
      have hcheck := hchecks _ (mem_of_find hentry)
      unfold checkAuthorization at hcheck
      obtain ⟨-, hcheck⟩ := guard_ok hcheck
      change find capability (asObject (find "capabilities".toList o)) = some value at hvalue
      split at hcheck
      · rename_i hcaps
        rw [hcaps] at hvalue
        cases hvalue
      · rename_i hcaps
        rw [hcaps] at hvalue
        cases hvalue
      · rename_i caps hcaps
        rw [hcaps] at hvalue
        have hcapability := forM_ok hcheck _ (mem_of_find hvalue)
        unfold checkCapability at hcapability
        dsimp only at hcapability
        split at hcapability
        · cases hcapability
        · cases hcapability
        · rename_i hproblem
          exact hproblem
      · cases hcheck

theorem resolveParsed_of_load (service capability : Text)
    (hauthorization : (objectAt "derived" data).bind (objectAt "authorization") = some authorization)
    (hservices : objectAt "services" data = some services)
    (hchecks : ∀ entry ∈ authorization, checkAuthorization services entry = .ok ()) :
    ∃ r, resolveParsed data service capability = .ok r := by
  have hget : (find "services".toList data).getD (.object []) = .object services := by
    unfold objectAt at hservices
    split at hservices
    · rename_i hfind
      cases hservices
      rw [hfind]
      rfl
    · cases hservices
  rw [resolveParsed_eq service capability hauthorization hget]
  split
  · split
    · exact ⟨_, rfl⟩
    · split
      · exact ⟨_, rfl⟩
      · split
        · rename_i value hvalue
          have hproblem : capabilityValueError service capability value = .ok none := by
            unfold compiledValue at hvalue
            rw [hauthorization] at hvalue
            exact value_of_load hchecks hvalue
          rw [hproblem]
          exact ⟨_, rfl⟩
        · exact ⟨_, rfl⟩
  · exact ⟨_, rfl⟩

/-- The resolver as a reader that fails closed and agrees with the loader: it raises `ValueError`
only, it grants what is canonical and declared, and on a state that the loader accepts it grants
all of that. -/
structure FailsClosed (float : FloatEq F) (loads : Text → Option (Plain F)) (file : EffectiveFile)
    (service capability : Text) : Prop where
  raises : ∀ e, resolveServiceCapability loads file service capability = .error e →
    ∃ v, e = .valueError v
  sound : ∀ raw p, file = .content raw →
    resolveServiceCapability loads file service capability = .ok (some p) →
    p = (service, capability) ∧ ∃ data, loads raw = some (.object data) ∧
      Canonical data service capability ∧ (capability = "access".toList ∨ Declares data service capability)
  agrees : ∀ data, loadEffectiveAuthority float loads file = .ok data →
    ((∃ p, resolveServiceCapability loads file service capability = .ok (some p)) ↔
      Canonical data service capability ∧
        (capability = "access".toList ∨ Declares data service capability))

/-- An object with all of its services under `services`, or none. -/
def ServicesReadable (loads : Text → Option (Plain F)) (file : EffectiveFile) : Prop :=
  ∀ raw data, file = .content raw → loads raw = some (.object data) →
    ∃ services, (find "services".toList data).getD (.object []) = .object services

/-- What holds of the resolver: it grants nothing to a service whose declared list has an element
that is no capability, or that has no list. -/
structure GrantsDeclared (float : FloatEq F) (loads : Text → Option (Plain F)) (file : EffectiveFile)
    (service capability : Text) : Prop where
  raises : ServicesReadable loads file →
    ∀ e, resolveServiceCapability loads file service capability = .error e → ∃ v, e = .valueError v
  sound : ∀ raw p, file = .content raw →
    resolveServiceCapability loads file service capability = .ok (some p) →
    p = (service, capability) ∧ ∃ data, loads raw = some (.object data) ∧
      Canonical data service capability ∧ (capability = "access".toList ∨ Declares data service capability)
  agrees : ∀ data, loadEffectiveAuthority float loads file = .ok data →
    (∃ r, resolveServiceCapability loads file service capability = .ok r) ∧
    ((∃ p, resolveServiceCapability loads file service capability = .ok (some p)) ↔
      Canonical data service capability ∧ WellDeclared data service ∧
        (capability = "access".toList ∨ Declares data service capability))

theorem resolveParsed_raises {e : Raised}
    (hservices : (find "services".toList data).getD (.object []) = .object services)
    (h : resolveParsed data service capability = .error e) : ∃ v, e = .valueError v := by
  cases hauthorization : (objectAt "derived" data).bind (objectAt "authorization") with
  | none =>
    unfold resolveParsed at h
    rw [hauthorization] at h
    cases h
    exact ⟨_, rfl⟩
  | some authorization =>
    rw [resolveParsed_eq service capability hauthorization hservices] at h
    split at h
    · split at h
      · cases h
      · split at h
        · cases h
        · split at h
          · split at h
            · cases h
              exact ⟨_, rfl⟩
            · cases h
            · cases h
          · cases h
    · cases h

theorem resolveServiceCapability_grantsDeclared (float : FloatEq F) (loads : Text → Option (Plain F))
    (file : EffectiveFile) (service capability : Text) :
    GrantsDeclared float loads file service capability := by
  constructor
  · intro hreadable e h
    cases file with
    | absent dangling =>
      unfold resolveServiceCapability at h
      cases dangling with
      | true =>
        cases h
        exact ⟨_, rfl⟩
      | false => cases h
    | unreadable =>
      cases h
      exact ⟨_, rfl⟩
    | undecodable =>
      cases h
      exact ⟨_, rfl⟩
    | content raw =>
      unfold resolveServiceCapability at h
      dsimp only at h
      split at h
      · cases h
        exact ⟨_, rfl⟩
      · rename_i data hraw
        obtain ⟨services, hservices⟩ := hreadable raw data rfl hraw
        exact resolveParsed_raises hservices h
      · cases h
        exact ⟨_, rfl⟩
  · rintro raw p rfl h
    unfold resolveServiceCapability at h
    dsimp only at h
    split at h
    · cases h
    · rename_i data hraw
      obtain ⟨hp, hcanonical, -, hdeclared⟩ := resolveParsed_iff.mp h
      exact ⟨hp, data, hraw, hcanonical, hdeclared⟩
    · cases h
  · intro data hload
    obtain ⟨raw, authorization, services, rfl, hraw, hauthorization, hservices, hchecks⟩ := load_ok hload
    have hresolve : resolveServiceCapability loads (.content raw) service capability =
        resolveParsed data service capability := by
      unfold resolveServiceCapability
      dsimp only
      rw [hraw]
    rw [hresolve]
    refine ⟨resolveParsed_of_load service capability hauthorization hservices hchecks, ?_⟩
    constructor
    · intro ⟨p, hp⟩
      exact (resolveParsed_iff.mp hp).2
    · intro h
      exact ⟨(service, capability), resolveParsed_iff.mpr ⟨rfl, h⟩⟩

/-- `access` is compiled to its own group for a service that declares no list of capabilities. -/
def undeclaredAccess : Object Empty :=
  [("schemaVersion".toList, number 3),
    ("services".toList, .object [("demo".toList, .object [("enabled".toList, boolean true)])]),
    ("derived".toList, .object [("authorization".toList, .object [("demo".toList, .object
      [("capabilities".toList, .object [("access".toList, text "application.demo.access")])])])])]

def nullServices : Object Empty :=
  [("services".toList, .scalar .null),
    ("derived".toList, .object [("authorization".toList, .object [])])]

/-- The file of `undeclaredAccess`. -/
def undeclaredAccessText : Text :=
  ("\x7b\"schemaVersion\": 3, \"services\": \x7b\"demo\": \x7b\"enabled\": true\x7d\x7d, " ++
    "\"derived\": \x7b\"authorization\": \x7b\"demo\": \x7b\"capabilities\": " ++
    "\x7b\"access\": \"application.demo.access\"\x7d\x7d\x7d\x7d\x7d").toList

/-- The file of `nullServices`. -/
def nullServicesText : Text :=
  "\x7b\"services\": null, \"derived\": \x7b\"authorization\": \x7b\x7d\x7d\x7d".toList

/-- A list of capabilities has to be declared for `access` as well; and `services` that is no object
raises what no caller expects. -/
theorem not_failsClosed :
    (¬ FailsClosed ⟨nofun, nofun, nofun, nofun⟩ (fun _ ↦ some (.object undeclaredAccess))
      (.content undeclaredAccessText) "demo".toList "access".toList) ∧
    ¬ FailsClosed ⟨nofun, nofun, nofun, nofun⟩ (fun _ ↦ some (.object nullServices))
      (.content nullServicesText) "demo".toList "access".toList := by
  constructor
  · intro h
    have hload := h.agrees undeclaredAccess rfl
    obtain ⟨p, hp⟩ := hload.mpr ⟨⟨"application.demo.access".toList, by decide, rfl⟩, .inl rfl⟩
    cases hp
  · intro h
    obtain ⟨v, hv⟩ := h.raises .attributeError rfl
    cases hv

end NixNas.Identity
