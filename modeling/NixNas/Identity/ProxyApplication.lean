import NixNas.Identity.Model
import NixNas.Lib.Journal
import NixNas.Spec.Equality

/-!
# One proxy application (`_ensure_proxy_application` of `services/nas_identity_sync.py`)

A provider, an application and the embedded outpost are written one after the other.  A request may
be carried out although it fails, and what has been written is taken back after a failure.  The
waiting for the default flows and mappings comes before and is left out.
-/

open Fallible Journal

namespace NixNas.Identity

open Spec

variable {F : Type}

/-! ## What Authentik keeps -/

abbrev Record (F : Type) := Store Text (Plain F)

def Record.patch (body : Object F) (record : Record F) : Record F :=
  body.foldr (fun field record ↦ record.insert field.1 field.2) record

def Record.pointsTo (pk : ℕ) (record : Record F) : Bool :=
  match record.lookup "provider".toList with
  | some (.scalar (.integer n)) => n = pk
  | _ => false

structure Outpost (F : Type) where
  managed : Option Text
  providers : List ℕ
  config : Record F

/-- Providers and outposts are kept by their primary key, applications by their slug. -/
@[ext]
structure Server (F : Type) where
  providers : Store ℕ (Record F)
  applications : Store Text (Record F)
  outposts : Store Text (Outpost F)

namespace Server

variable (server : Server F)

def createProvider (pk : ℕ) (record : Record F) : Server F :=
  { server with providers := server.providers.insert pk record }

def patchProvider (pk : ℕ) (body : Object F) : Server F :=
  match server.providers.lookup pk with
  | some record => { server with providers := server.providers.insert pk (record.patch body) }
  | none => server

/-- What a deleted provider leaves behind: an application points to nothing, an outpost forgets
it. -/
def deleteProvider (pk : ℕ) : Server F where
  providers := server.providers.erase pk
  applications := mapStore (fun _ record ↦
    if record.pointsTo pk then record.insert "provider".toList null else record)
    server.applications
  outposts := mapStore (fun _ outpost ↦
    { outpost with providers := outpost.providers.filter (· ≠ pk) }) server.outposts

def createApplication (slug : Text) (record : Record F) : Server F :=
  { server with applications := server.applications.insert slug record }

def patchApplication (slug : Text) (body : Object F) : Server F :=
  match server.applications.lookup slug with
  | some record => { server with applications := server.applications.insert slug (record.patch body) }
  | none => server

def deleteApplication (slug : Text) : Server F :=
  { server with applications := server.applications.erase slug }

def patchOutpost (pk : Text) (providers : List ℕ) (config : Option (Record F)) : Server F :=
  match server.outposts.lookup pk with
  | some outpost => { server with
      outposts := server.outposts.insert pk
        { outpost with providers := providers, config := config.getD outpost.config } }
  | none => server

/-! Each request leaves the other kinds of objects alone. -/

@[simp] theorem patchProvider_applications (pk : ℕ) (body : Object F) :
    (server.patchProvider pk body).applications = server.applications := by
  unfold patchProvider
  split <;> rfl

@[simp] theorem patchProvider_outposts (pk : ℕ) (body : Object F) :
    (server.patchProvider pk body).outposts = server.outposts := by
  unfold patchProvider
  split <;> rfl

@[simp] theorem patchApplication_providers (slug : Text) (body : Object F) :
    (server.patchApplication slug body).providers = server.providers := by
  unfold patchApplication
  split <;> rfl

@[simp] theorem patchApplication_outposts (slug : Text) (body : Object F) :
    (server.patchApplication slug body).outposts = server.outposts := by
  unfold patchApplication
  split <;> rfl

@[simp] theorem patchOutpost_providers (pk : Text) (providers : List ℕ)
    (config : Option (Record F)) :
    (server.patchOutpost pk providers config).providers = server.providers := by
  unfold patchOutpost
  split <;> rfl

@[simp] theorem patchOutpost_applications (pk : Text) (providers : List ℕ)
    (config : Option (Record F)) :
    (server.patchOutpost pk providers config).applications = server.applications := by
  unfold patchOutpost
  split <;> rfl

end Server

inductive Outcome where
  /-- The request is carried out, and the reply names its object. -/
  | replied
  /-- A reply without a primary key. -/
  | unnamed (applied : Bool)
  | raised (applied : Bool)
  deriving DecidableEq, Repr

def Outcome.applied : Outcome → Bool
  | .replied => true
  | .unnamed applied | .raised applied => applied

def Outcome.raises : Outcome → Bool
  | .raised _ => true
  | _ => false

def Outcome.succeeds (outcome : Outcome) : Bool := outcome.applied && !outcome.raises

/-- The order in which a listing shows the entries of a store. -/
structure Listing (K V : Type) [DecidableEq K] where
  entries : Store K V → List (K × V)
  mem_entries : ∀ (store : Store K V) (k : K) (v : V), (k, v) ∈ entries store ↔ store.lookup k = some v

/-- What the call cannot know beforehand. -/
structure Environment (F : Type) where
  providerOrder : Listing ℕ (Record F)
  applicationOrder : Listing Text (Record F)
  outpostOrder : Listing Text (Outpost F)
  /-- The primary key of a new provider. -/
  newPk : Store ℕ (Record F) → ℕ
  newPk_fresh : ∀ providers, newPk providers ∉ providers
  /-- The fields of a new object that its request does not give. -/
  providerDefaults : Record F
  applicationDefaults : Record F
  provider : Outcome
  application : Outcome
  outpost : Outcome
  /-- Whether the listings after a failure can be read. -/
  applicationDiscovery : Bool
  providerDiscovery : Bool
  outpostRollback : Outcome
  applicationRollback : Outcome
  providerRollback : Outcome

/-! ## The call -/

/-- The arguments of a call, with the default flows by their slugs. -/
structure Arguments (F : Type) where
  providerName : Text
  applicationSlug : Text
  externalHost : Text
  internalHost : Text
  applicationMetadata : Object F
  outpostConfigPatch : Option (Object F)
  flows : Object F
  propertyMappings : Plain F

inductive StagingError where
  /-- `Authentik flow … is missing` -/
  | flow (slug : Text)
  /-- `Authentik embedded outpost is missing` -/
  | outpost
  /-- `rollback fields are missing: …` -/
  | rollbackFields (missing : List Text)
  deriving DecidableEq, Repr

def string (value : Text) : Plain F := .scalar (.string value)

namespace Arguments

variable (a : Arguments F)

def flowFields : List (Text × Text) :=
  [("authentication_flow", "default-authentication-flow"),
    ("authorization_flow", "default-provider-authorization-implicit-consent"),
    ("invalidation_flow", "default-invalidation-flow")].map fun e ↦ (e.1.toList, e.2.toList)

def flowField (field : Text × Text) : Except StagingError (Text × Plain F) :=
  match find field.2 a.flows with
  | some pk => if isNull pk then .error (.flow field.2) else .ok (field.1, pk)
  | none => .error (.flow field.2)

def providerPayload : Except StagingError (Object F) := do
  let flows ← flowFields.mapM a.flowField
  .ok ([("name".toList, string a.providerName), ("mode".toList, text "forward_single"),
    ("external_host".toList, string a.externalHost),
    ("internal_host".toList, string a.internalHost),
    ("internal_host_ssl_validation".toList, boolean false),
    ("property_mappings".toList, a.propertyMappings)] ++ flows)

def applicationTemplate : Object F :=
  a.applicationMetadata.foldl (fun template field ↦ setItem template field.1 field.2)
    [("name".toList, string a.providerName), ("slug".toList, string a.applicationSlug),
      ("provider".toList, null), ("meta_launch_url".toList, string a.externalHost)]

def providerRestore (payload : Object F) (record : Record F) : Except StagingError (Object F) :=
  let missing := (payload.map Prod.fst).filter (· ∉ record)
  if missing = [] then
    .ok (payload.map fun field ↦ (field.1, (record.lookup field.1).getD null))
  else .error (.rollbackFields missing)

def isBoolean : Plain F → Bool
  | .scalar (.boolean _) => true
  | _ => false

def restoredValue (record : Record F) (key : Text) (desired : Plain F) : Plain F :=
  if key = "name".toList then (record.lookup key).getD (string a.providerName)
  else if key = "slug".toList then string a.applicationSlug
  else if key = "provider".toList then (record.lookup key).getD null
  else (record.lookup key).getD (if isBoolean desired then boolean false else text "")

def applicationRestore (record : Record F) : Object F :=
  a.applicationTemplate.map fun field ↦ (field.1, a.restoredValue record field.1 field.2)

end Arguments

def fieldIs (key : String) (value : Text) (record : Record F) : Bool :=
  match record.lookup key.toList with
  | some (.scalar (.string t)) => t = value
  | _ => false

def embedded : Text := "goauthentik.io/outposts/embedded".toList

variable (env : Environment F) (a : Arguments F)

def findProvider (server : Server F) : Option (ℕ × Record F) :=
  (env.providerOrder.entries server.providers).find? fun entry ↦
    fieldIs "name" a.providerName entry.2

def findApplication (server : Server F) : Option (Text × Record F) :=
  (env.applicationOrder.entries server.applications).find? fun entry ↦
    fieldIs "slug" a.applicationSlug entry.2

def findOutpost (server : Server F) : Option (Text × Outpost F) :=
  (env.outpostOrder.entries server.outposts).find? fun entry ↦ entry.2.managed = some embedded

structure Staged (F : Type) where
  payload : Object F
  /-- The provider with its snapshot. -/
  provider : Option (ℕ × Object F)
  /-- The snapshot of the application. -/
  application : Option (Object F)
  outpostPk : Text
  outpost : Outpost F

def stage (server : Server F) : Except StagingError (Staged F) := do
  let payload ← a.providerPayload
  match findOutpost env server with
  | none => .error .outpost
  | some (outpostPk, outpost) =>
    let application := (findApplication env a server).map fun entry ↦ a.applicationRestore entry.2
    match findProvider env a server with
    | none => .ok ⟨payload, none, application, outpostPk, outpost⟩
    | some (pk, record) => do
      let restore ← Arguments.providerRestore payload record
      .ok ⟨payload, some (pk, restore), application, outpostPk, outpost⟩

/-- The call between two requests, with its flags. -/
structure Progress (F : Type) where
  server : Server F
  providerPk : Option ℕ
  providerCommitted : Bool
  providerCreateAttempted : Bool
  applicationCommitted : Bool
  applicationCreateAttempted : Bool
  applicationRestoreNeeded : Bool
  outpostRestoreNeeded : Bool

def Progress.send (outcome : Outcome) (request : Server F → Server F) (p : Progress F) :
    Progress F :=
  if outcome.applied then { p with server := request p.server } else p

def Progress.request (outcome : Outcome) (request : Server F → Server F) (p : Progress F) :
    Except (Progress F) (Progress F) :=
  if outcome.raises then .error (p.send outcome request) else .ok (p.send outcome request)

variable (staged : Staged F)

def writeProvider (p : Progress F) : Except (Progress F) (Progress F) :=
  match staged.provider with
  | some (pk, _) =>
    { p with providerCommitted := true }.request env.provider (·.patchProvider pk staged.payload)
  | none =>
    let pk := env.newPk p.server.providers
    let sent := { p with providerCreateAttempted := true }.send env.provider
      (·.createProvider pk (env.providerDefaults.patch staged.payload))
    match env.provider with
    | .replied => .ok { sent with providerPk := some pk, providerCommitted := true }
    | .unnamed _ | .raised _ => .error sent

def writeApplication (p : Progress F) : Except (Progress F) (Progress F) :=
  let payload := setItem a.applicationTemplate "provider".toList (p.providerPk.elim null (number ·))
  match staged.application with
  | some _ => do
    let p ← { p with applicationRestoreNeeded := true }.request env.application
      (·.patchApplication a.applicationSlug payload)
    .ok { p with applicationCommitted := true }
  | none => do
    let p ← { p with applicationCreateAttempted := true }.request env.application
      (·.createApplication a.applicationSlug (env.applicationDefaults.patch payload))
    .ok { p with applicationCommitted := true }

variable (float : FloatEq F)

/-- `desired_config != config_before`: a key of the patch has another value. -/
def configChanged (config : Record F) (patch : Object F) : Bool :=
  patch.any fun field ↦ !(config.lookup field.1).any (eq float field.2)

def desiredConfig : Option (Record F) :=
  a.outpostConfigPatch.map fun patch ↦
    patch.foldl (fun config field ↦ config.insert field.1 field.2) staged.outpost.config

def writeOutpost (p : Progress F) : Except (Progress F) (Progress F) :=
  let before := staged.outpost.providers
  let added := p.providerPk.toList.filter (· ∉ before)
  if added ≠ [] ∨ a.outpostConfigPatch.any (configChanged float staged.outpost.config) = true then
    { p with outpostRestoreNeeded := true }.request env.outpost
      (·.patchOutpost staged.outpostPk (before ++ added) (desiredConfig a staged))
  else .ok p

def forward (server : Server F) : Except (Progress F) (Progress F) := do
  let start : Progress F :=
    ⟨server, staged.provider.map Prod.fst, false, false, false, false, false, false⟩
  let p ← writeProvider env staged start
  let p ← writeApplication env a staged p
  writeOutpost env a staged float p

/-! ## The rollback -/

inductive RollbackStep where
  | applicationDiscovery | providerDiscovery | outpost | application | provider
  deriving DecidableEq, Repr

/-- The progress with the steps of the rollback that failed. -/
abbrev Undoing (F : Type) := Progress F × List RollbackStep

def discoverApplication (u : Undoing F) : Undoing F :=
  if staged.application.isNone && u.1.applicationCreateAttempted && !u.1.applicationCommitted then
    if env.applicationDiscovery then
      ({ u.1 with applicationCommitted := (findApplication env a u.1.server).isSome }, u.2)
    else (u.1, u.2 ++ [.applicationDiscovery])
  else u

def discoverProvider (u : Undoing F) : Undoing F :=
  if staged.provider.isNone && u.1.providerCreateAttempted && !u.1.providerCommitted then
    if env.providerDiscovery then
      match findProvider env a u.1.server with
      | some (pk, _) => ({ u.1 with providerPk := some pk, providerCommitted := true }, u.2)
      | none => u
    else (u.1, u.2 ++ [.providerDiscovery])
  else u

def compensate (step : RollbackStep) (outcome : Outcome) (request : Server F → Server F)
    (u : Undoing F) : Undoing F :=
  (u.1.send outcome request, if outcome.raises then u.2 ++ [step] else u.2)

def restoreOutpost (u : Undoing F) : Undoing F :=
  if u.1.outpostRestoreNeeded then
    compensate .outpost env.outpostRollback (·.patchOutpost staged.outpostPk staged.outpost.providers
      (a.outpostConfigPatch.map fun _ ↦ staged.outpost.config)) u
  else u

def restoreApplication (u : Undoing F) : Undoing F :=
  match staged.application with
  | some restore =>
    if u.1.applicationRestoreNeeded then
      compensate .application env.applicationRollback (·.patchApplication a.applicationSlug restore) u
    else if u.1.applicationCommitted then
      compensate .application env.applicationRollback (·.deleteApplication a.applicationSlug) u
    else u
  | none =>
    if u.1.applicationCommitted then
      compensate .application env.applicationRollback (·.deleteApplication a.applicationSlug) u
    else u

def restoreProvider (u : Undoing F) : Undoing F :=
  match u.1.providerPk with
  | none => u
  | some pk =>
    if u.1.providerCommitted then
      match staged.provider with
      | some (_, restore) =>
        compensate .provider env.providerRollback (·.patchProvider pk restore) u
      | none => compensate .provider env.providerRollback (·.deleteProvider pk) u
    else u

def rollback (p : Progress F) : Undoing F :=
  let u := discoverApplication env a staged (p, [])
  let u := discoverProvider env a staged u
  let u := restoreOutpost env a staged u
  let u := restoreApplication env a staged u
  restoreProvider env staged u

inductive CallError where
  | staging (error : StagingError)
  /-- A request failed, and everything was taken back. -/
  | failed
  /-- `reconciliation failed and rollback incomplete: …` -/
  | incomplete (steps : List RollbackStep)
  deriving DecidableEq, Repr

/-- `_ensure_proxy_application`: the server it leaves, and what it returns or raises. -/
def ensureProxyApplication (server : Server F) : Server F × Except CallError Unit :=
  match stage env a server with
  | .error error => (server, .error (.staging error))
  | .ok staged =>
    match forward env a staged float server with
    | .ok p => (p.server, .ok ())
    | .error p =>
      let undone := rollback env a staged p
      (undone.1.server, .error (if undone.2 = [] then .failed else .incomplete undone.2))

end NixNas.Identity
