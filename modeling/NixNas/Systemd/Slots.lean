import NixNas.Systemd.Projection

/-!
# Slots

Which names are produced for which service and role.
-/

open Dictionary Fallible Journal

namespace NixNas.Systemd

open Network (RuntimeType WorkloadKind)

/-! ## Outputs -/

section

variable {a b : Output} {outputs : List Output}

@[simp]
theorem files_append : (a ++ b).files = a.files ++ b.files := rfl

@[simp]
theorem links_append : (a ++ b).links = a.links ++ b.links := rfl

@[simp]
theorem quadletLinks_append : (a ++ b).quadletLinks = a.quadletLinks ++ b.quadletLinks := rfl

@[simp]
theorem owned_append : (a ++ b).owned = a.owned ++ b.owned := rfl

@[simp]
theorem start_append : (a ++ b).start = a.start ++ b.start := rfl

@[simp]
theorem stop_append : (a ++ b).stop = a.stop ++ b.stop := rfl

@[simp]
theorem fingerprints_append : (a ++ b).fingerprints = a.fingerprints ++ b.fingerprints := rfl

theorem field_join {α : Type} (field : Output → List α) (hempty : field ∅ = [])
    (happend : ∀ a b, field (a ++ b) = field a ++ field b) (outputs : List Output) :
    field (Output.join outputs) = outputs.flatMap field := by
  induction outputs with
  | nil => exact hempty
  | cons a outputs ih =>
    rw [List.flatMap_cons, ← ih]
    exact happend a _

@[simp]
theorem links_join : (Output.join outputs).links = outputs.flatMap Output.links :=
  field_join _ rfl (fun _ _ => rfl) _

end

/-! ## Slots of one service -/

section

variable (sha256 : Text → Text) (entry : Text × Service)

/-- The runtimes whose owner is a generated unit file. -/
def isGenerated (service : Service) : Prop :=
  service.runtime = .exec ∨ service.runtime = .python ∨ service.runtime = .vm

/-- The linked unit files of a service that is no session. -/
inductive UnitSlot : Role → Text → Prop where
  | owner (hgenerated : isGenerated entry.2) : UnitSlot .owner (derivedOwner entry.1 entry.2)
  | dropin (hruntime : entry.2.runtime = .systemd) (hdropin : hasDropin entry.2 = true) :
    UnitSlot .dropin (dropinTarget (derivedOwner entry.1 entry.2))
  | readiness (hready : entry.2.readiness = true) : UnitSlot .readiness (readyUnit entry.1)
  | socket {route name : Text} (hdemand : isOnDemand entry.2 = true)
    (hroute : route ∈ entry.2.routes.keys) (hname : socketUnit sha256 entry.1 route = .ok name) :
    UnitSlot (.socket route) name
  | proxy {route name : Text} (hdemand : isOnDemand entry.2 = true)
    (hroute : route ∈ entry.2.routes.keys) (hname : proxyUnit sha256 entry.1 route = .ok name) :
    UnitSlot (.proxy route) name
  | timer {index : Nat} (hjob : entry.2.kind = .job) (hindex : index < entry.2.schedules) :
    UnitSlot (.timer index) (timerUnit entry.1 index)

inductive QuadletSlot : Role → Text → Prop where
  | container (hruntime : entry.2.runtime = .oci ∨ entry.2.runtime = .quadlet) :
    QuadletSlot .quadlet (containerFile entry.1)

inductive PlainSlot : Role → Text → Prop where
  | exec (hruntime : entry.2.runtime = .exec) :
    PlainSlot .execDescriptor ("/descriptors/".toList ++ (entry.1 ++ ".exec.json".toList))
  | domain (hruntime : entry.2.runtime = .vm) :
    PlainSlot .domain ("/vm/".toList ++ (entry.1 ++ ".xml".toList))
  | domainDescriptor (hruntime : entry.2.runtime = .vm) :
    PlainSlot .domainDescriptor ("/descriptors/".toList ++ (entry.1 ++ ".vm.json".toList))
  | readiness (hready : entry.2.readiness = true) :
    PlainSlot .readinessDescriptor ("/descriptors/".toList ++ (entry.1 ++ ".readiness.json".toList))

inductive Owned : Text → Prop where
  | owner (hmanaged : entry.2.managed = true) : Owned (derivedOwner entry.1 entry.2)
  | readiness (hmanaged : entry.2.managed = true) (hready : entry.2.readiness = true) :
    Owned (readyUnit entry.1)
  | socket {route name : Text} (hdemand : isOnDemand entry.2 = true)
    (hroute : route ∈ entry.2.routes.keys) (hname : socketUnit sha256 entry.1 route = .ok name) :
    Owned name
  | proxy {route name : Text} (hdemand : isOnDemand entry.2 = true)
    (hroute : route ∈ entry.2.routes.keys) (hname : proxyUnit sha256 entry.1 route = .ok name) :
    Owned name
  | timer {index : Nat} (hmanaged : entry.2.managed = true) (hjob : entry.2.kind = .job)
    (hindex : index < entry.2.schedules) : Owned (timerUnit entry.1 index)

inductive Started : Text → Prop where
  | owner (hmanaged : entry.2.managed = true) (henabled : entry.2.enabled = true)
    (hdaemon : entry.2.kind = .daemon) (hpersistent : entry.2.activation = .persistent) :
    Started (derivedOwner entry.1 entry.2)
  | socket {route name : Text} (henabled : entry.2.enabled = true)
    (hdemand : isOnDemand entry.2 = true) (hroute : route ∈ entry.2.routes.keys)
    (hname : socketUnit sha256 entry.1 route = .ok name) : Started name
  | timer {index : Nat} (hmanaged : entry.2.managed = true) (henabled : entry.2.enabled = true)
    (hjob : entry.2.kind = .job) (hindex : index < entry.2.schedules) :
    Started (timerUnit entry.1 index)

inductive Stopped : Text → Prop where
  | owner (hmanaged : entry.2.managed = true) (hdisabled : entry.2.enabled = false) :
    Stopped (derivedOwner entry.1 entry.2)
  | readiness (hmanaged : entry.2.managed = true) (hdisabled : entry.2.enabled = false)
    (hready : entry.2.readiness = true) : Stopped (readyUnit entry.1)
  | socket {route name : Text} (hdisabled : entry.2.enabled = false)
    (hdemand : isOnDemand entry.2 = true) (hroute : route ∈ entry.2.routes.keys)
    (hname : socketUnit sha256 entry.1 route = .ok name) : Stopped name
  | proxy {route name : Text} (hdisabled : entry.2.enabled = false)
    (hdemand : isOnDemand entry.2 = true) (hroute : route ∈ entry.2.routes.keys)
    (hname : proxyUnit sha256 entry.1 route = .ok name) : Stopped name
  | timer {index : Nat} (hmanaged : entry.2.managed = true) (hdisabled : entry.2.enabled = false)
    (hjob : entry.2.kind = .job) (hindex : index < entry.2.schedules) :
    Stopped (timerUnit entry.1 index)

inductive Fingerprinted : Text → Prop where
  | owner : Fingerprinted (derivedOwner entry.1 entry.2)
  | readiness (hready : entry.2.readiness = true) : Fingerprinted (readyUnit entry.1)

end

/-! ## Taken names -/

/-- The names that are taken, each with the service and the role it is taken for. -/
@[ext]
structure Slots where
  unit : Text → Role → Text → Prop
  quadlet : Text → Role → Text → Prop
  plain : Text → Role → Text → Prop
  owned : Text → Prop
  start : Text → Prop
  stop : Text → Prop
  fingerprint : Text → Prop

namespace Slots

def none : Slots :=
  ⟨fun _ _ _ ↦ False, fun _ _ _ ↦ False, fun _ _ _ ↦ False, fun _ ↦ False, fun _ ↦ False,
    fun _ ↦ False, fun _ ↦ False⟩

def both (a b : Slots) : Slots where
  unit id role name := a.unit id role name ∨ b.unit id role name
  quadlet id role name := a.quadlet id role name ∨ b.quadlet id role name
  plain id role name := a.plain id role name ∨ b.plain id role name
  owned name := a.owned name ∨ b.owned name
  start name := a.start name ∨ b.start name
  stop name := a.stop name ∨ b.stop name
  fingerprint name := a.fingerprint name ∨ b.fingerprint name

def each {α : Type} (slots : α → Slots) (xs : List α) : Slots where
  unit id role name := ∃ x ∈ xs, (slots x).unit id role name
  quadlet id role name := ∃ x ∈ xs, (slots x).quadlet id role name
  plain id role name := ∃ x ∈ xs, (slots x).plain id role name
  owned name := ∃ x ∈ xs, (slots x).owned name
  start name := ∃ x ∈ xs, (slots x).start name
  stop name := ∃ x ∈ xs, (slots x).stop name
  fingerprint name := ∃ x ∈ xs, (slots x).fingerprint name

variable {α : Type}

theorem each_nil (slots : α → Slots) : each slots [] = none := by
  ext <;> simp [each, none]

theorem each_cons (slots : α → Slots) (x : α) (xs : List α) :
    each slots (x :: xs) = (slots x).both (each slots xs) := by
  ext <;> simp [each, both]

theorem each_map {β : Type} (slots : β → Slots) (f : α → β) (xs : List α) :
    each slots (xs.map f) = each (fun x ↦ slots (f x)) xs := by
  ext <;> simp [each]

theorem each_congr {slots : α → Slots} {xs ys : List α} (h : ∀ x, x ∈ xs ↔ x ∈ ys) :
    each slots xs = each slots ys := by
  ext <;> simp only [each, h]

def ofUnit (id : Text) (role : Role) (name : Text) : Slots :=
  { none with unit := fun id' role' name' ↦ id' = id ∧ role' = role ∧ name' = name }

def ofQuadlet (id : Text) (role : Role) (name : Text) : Slots :=
  { none with quadlet := fun id' role' name' ↦ id' = id ∧ role' = role ∧ name' = name }

def ofPlain (id : Text) (role : Role) (name : Text) : Slots :=
  { none with plain := fun id' role' name' ↦ id' = id ∧ role' = role ∧ name' = name }

inductive HasFile (outputDir : Text) (slots : Slots) (id : Text) (role : Role) : Text → Prop where
  | unit {name : Text} (h : slots.unit id role name) : HasFile outputDir slots id role
    (unitPath outputDir name)
  | quadlet {name : Text} (h : slots.quadlet id role name) : HasFile outputDir slots id role
    (quadletPath outputDir name)
  | plain {name : Text} (h : slots.plain id role name) : HasFile outputDir slots id role
    (outputDir ++ name)

end Slots

/-- An output takes these names and no others. -/
structure Fills (outputDir : Text) (out : Output) (slots : Slots) : Prop where
  files : ∀ id role path, (∃ bytes, ⟨id, role, path, bytes⟩ ∈ out.files) ↔
    slots.HasFile outputDir id role path
  links : ∀ link, link ∈ out.links ↔
    slots.unit link.service link.role link.target ∧ link.source = unitPath outputDir link.target
  quadletLinks : ∀ link, link ∈ out.quadletLinks ↔
    slots.quadlet link.service link.role link.target ∧
      link.source = quadletPath outputDir link.target
  owned : ∀ name, name ∈ out.owned ↔ slots.owned name
  start : ∀ name, name ∈ out.start ↔ slots.start name
  stop : ∀ name, name ∈ out.stop ↔ slots.stop name
  fingerprint : ∀ name, name ∈ out.fingerprints.map Prod.fst ↔ slots.fingerprint name

section

variable {outputDir : Text} {a b : Output} {s t : Slots}
variable {id name : Text} {role : Role} {out : Output}

theorem hasFile_both {path : Text} :
    (s.both t).HasFile outputDir id role path ↔
      s.HasFile outputDir id role path ∨ t.HasFile outputDir id role path := by
  constructor
  · rintro (h | h | h)
    · exact h.imp .unit .unit
    · exact h.imp .quadlet .quadlet
    · exact h.imp .plain .plain
  · rintro ((h | h | h) | (h | h | h))
    · exact .unit (.inl h)
    · exact .quadlet (.inl h)
    · exact .plain (.inl h)
    · exact .unit (.inr h)
    · exact .quadlet (.inr h)
    · exact .plain (.inr h)

theorem fills_empty : Fills outputDir ∅ .none where
  files id role path := by
    constructor
    · rintro ⟨_, h⟩
      cases h
    · rintro (h | h | h) <;> cases h
  links _ := iff_of_false List.not_mem_nil And.left
  quadletLinks _ := iff_of_false List.not_mem_nil And.left
  owned _ := List.mem_nil_iff _
  start _ := List.mem_nil_iff _
  stop _ := List.mem_nil_iff _
  fingerprint _ := List.mem_nil_iff _

theorem Fills.append (ha : Fills outputDir a s) (hb : Fills outputDir b t) :
    Fills outputDir (a ++ b) (s.both t) where
  files id role path := by
    rw [hasFile_both, ← ha.files, ← hb.files, ← exists_or]
    simp only [files_append, List.mem_append]
  links link := by
    rw [links_append, List.mem_append, ha.links, hb.links]
    exact or_and_right.symm
  quadletLinks link := by
    rw [quadletLinks_append, List.mem_append, ha.quadletLinks, hb.quadletLinks]
    exact or_and_right.symm
  owned name := by
    rw [owned_append, List.mem_append, ha.owned, hb.owned]
    rfl
  start name := by
    rw [start_append, List.mem_append, ha.start, hb.start]
    rfl
  stop name := by
    rw [stop_append, List.mem_append, ha.stop, hb.stop]
    rfl
  fingerprint name := by
    rw [fingerprints_append, List.map_append, List.mem_append, ha.fingerprint, hb.fingerprint]
    rfl

theorem Fills.exists_link (h : Fills outputDir a s) :
    (∃ link ∈ a.links, link.target = name) ↔ ∃ id role, s.unit id role name := by
  constructor
  · rintro ⟨link, hlink, rfl⟩
    exact ⟨_, _, ((h.links link).mp hlink).1⟩
  · rintro ⟨id, role, hunit⟩
    exact ⟨⟨id, role, name, unitPath outputDir name⟩, (h.links _).mpr ⟨hunit, rfl⟩, rfl⟩

theorem Fills.exists_quadletLink (h : Fills outputDir a s) :
    (∃ link ∈ a.quadletLinks, link.target = name) ↔ ∃ id role, s.quadlet id role name := by
  constructor
  · rintro ⟨link, hlink, rfl⟩
    exact ⟨_, _, ((h.quadletLinks link).mp hlink).1⟩
  · rintro ⟨id, role, hquadlet⟩
    exact ⟨⟨id, role, name, quadletPath outputDir name⟩, (h.quadletLinks _).mpr ⟨hquadlet, rfl⟩,
      rfl⟩

theorem fills_mapM {α : Type} {f : α → Except ProjectionError Output} {slots : α → Slots}
    {xs : List α} {outputs : List Output} (h : xs.mapM f = .ok outputs)
    (hf : ∀ x ∈ xs, ∀ out, f x = .ok out → Fills outputDir out (slots x)) :
    Fills outputDir (Output.join outputs) (.each slots xs) := by
  have hall := mapM_ok h
  clear h
  induction hall with
  | nil =>
    rw [Slots.each_nil]
    exact fills_empty
  | cons hx _ ih =>
    rw [List.forall_mem_cons] at hf
    rw [Slots.each_cons]
    exact (hf.1 _ hx).append (ih hf.2)

theorem fills_linkedUnit (id : Text) (role : Role) (name bytes : Text) :
    Fills outputDir (linkedUnit outputDir id role name bytes) (.ofUnit id role name) where
  files id' role' path := by
    constructor
    · rintro ⟨_, h⟩
      cases List.mem_singleton.mp h
      exact .unit ⟨rfl, rfl, rfl⟩
    · rintro (⟨rfl, rfl, rfl⟩ | h | h)
      · exact ⟨bytes, .head _⟩
      · cases h
      · cases h
  links link := by
    constructor
    · intro h
      cases List.mem_singleton.mp h
      exact ⟨⟨rfl, rfl, rfl⟩, rfl⟩
    · rcases link with ⟨id', role', target, source⟩
      dsimp only
      rintro ⟨⟨rfl, rfl, rfl⟩, rfl⟩
      exact .head _
  quadletLinks _ := iff_of_false List.not_mem_nil And.left
  owned _ := List.mem_nil_iff _
  start _ := List.mem_nil_iff _
  stop _ := List.mem_nil_iff _
  fingerprint _ := List.mem_nil_iff _

theorem fills_linkedQuadlet (id : Text) (role : Role) (name bytes : Text) :
    Fills outputDir (linkedQuadlet outputDir id role name bytes) (.ofQuadlet id role name) where
  files id' role' path := by
    constructor
    · rintro ⟨_, h⟩
      cases List.mem_singleton.mp h
      exact .quadlet ⟨rfl, rfl, rfl⟩
    · rintro (h | ⟨rfl, rfl, rfl⟩ | h)
      · cases h
      · exact ⟨bytes, .head _⟩
      · cases h
  links _ := iff_of_false List.not_mem_nil And.left
  quadletLinks link := by
    constructor
    · intro h
      cases List.mem_singleton.mp h
      exact ⟨⟨rfl, rfl, rfl⟩, rfl⟩
    · rcases link with ⟨id', role', target, source⟩
      dsimp only
      rintro ⟨⟨rfl, rfl, rfl⟩, rfl⟩
      exact .head _
  owned _ := List.mem_nil_iff _
  start _ := List.mem_nil_iff _
  stop _ := List.mem_nil_iff _
  fingerprint _ := List.mem_nil_iff _

variable {r : Renderers}

theorem unitFile_fills (h : unitFile r outputDir id role name = .ok out) :
    Fills outputDir out (.ofUnit id role name) := by
  rcases map_ok h with ⟨bytes, _, rfl⟩
  exact fills_linkedUnit id role name bytes

theorem plainFile_fills (h : plainFile r id role (outputDir ++ name) = .ok out) :
    Fills outputDir out (.ofPlain id role name) := by
  rcases bind_ok h with ⟨bytes, _, h⟩
  cases h
  refine ⟨?_, fun _ => iff_of_false List.not_mem_nil And.left,
    fun _ => iff_of_false List.not_mem_nil And.left, fun _ => List.mem_nil_iff _,
    fun _ => List.mem_nil_iff _, fun _ => List.mem_nil_iff _,
    fun _ => List.mem_nil_iff _⟩
  intro id' role' path
  constructor
  · rintro ⟨_, h⟩
    cases List.mem_singleton.mp h
    exact .plain ⟨rfl, rfl, rfl⟩
  · rintro (h | h | ⟨rfl, rfl, rfl⟩)
    · cases h
    · cases h
    · exact ⟨bytes, .head _⟩

theorem fills_lists (owned start stop : List Text) (fingerprints : List (Text × Text)) :
    Fills outputDir { Output.empty with
      owned := owned, start := start, stop := stop, fingerprints := fingerprints }
      { Slots.none with
        owned := (· ∈ owned), start := (· ∈ start), stop := (· ∈ stop)
        fingerprint := (· ∈ fingerprints.map Prod.fst) } where
  files id role path := by
    constructor
    · rintro ⟨_, h⟩
      cases h
    · rintro (h | h | h) <;> cases h
  links _ := iff_of_false List.not_mem_nil And.left
  quadletLinks _ := iff_of_false List.not_mem_nil And.left
  owned _ := .rfl
  start _ := .rfl
  stop _ := .rfl
  fingerprint _ := .rfl

end

end NixNas.Systemd
