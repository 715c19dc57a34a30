import Mathlib.Data.List.Sort
import NixNas.Authentik.Blueprint

/-!
# Users and groups of the appliance (`services/nas_identity_model.py`)

A listing of the identity provider expresses memberships on the user and on the group, by primary
key and by object.  `build_model` reads all of them; the guard of the last administrator has a
reading of its own.
-/

open Fallible NixNas.Spec NixNas.Authentik NixNas.Caddy

namespace NixNas.Identity

variable {F : Type}

/-- What the values of a listing are to Python. -/
structure Values (F : Type) where
  /-- `str(value)` of a value that is no text. -/
  repr : Plain F → Text
  isZero : F → Bool

/-- `str(value)`. -/
def Values.str (v : Values F) : Plain F → Text
  | .scalar (.string t) => t
  | value => v.repr value

/-- `value or default`, as a text. -/
def Values.strOr (v : Values F) (value : Option (Plain F)) (default : Text) : Text :=
  match value with
  | some (.scalar (.float x)) => if v.isZero x then default else v.str (.scalar (.float x))
  | some value => if truthy value then v.str value else default
  | none => default

def null : Plain F := .scalar .null

def isNull : Plain F → Bool
  | .scalar .null => true
  | _ => false

/-- `object.get("pk", object.get("num_pk"))`. -/
def keyOf (o : Object F) : Plain F :=
  (find "pk".toList o).getD ((find "num_pk".toList o).getD null)

def listAt (preferred fallback : String) (o : Object F) : Option (List (Plain F)) :=
  match find preferred.toList o with
  | some (.array items) => some items
  | _ =>
    match find fallback.toList o with
    | some (.array items) => some items
    | _ => none

/-- A later entry of a comprehension replaces an earlier one. -/
def lastLookup (key : Text) (entries : List (Text × Text)) : Option Text := entries.reverse.lookup key

def lastValues (entries : List (Text × Text)) : List Text :=
  (entries.filter fun entry ↦ lastLookup entry.1 entries = some entry.2).map Prod.snd

/-- `USERNAME_RE`. -/
def isUsername (value : Text) : Bool :=
  match value with
  | [] => false
  | c :: rest => c.isAlphanum && rest.length ≤ 63 &&
      rest.all fun d ↦ d.isAlphanum || d ∈ ['_', '.', '-']

def namesByPk (v : Values F) (name : String) (records : List (Object F)) : List (Text × Text) :=
  records.filterMap fun o ↦
    match find "pk".toList o, textAt name o with
    | some pk, some value => if isNull pk then none else some (v.str pk, value)
    | _, _ => none

def groupName (v : Values F) (groupsByPk : List (Text × Text)) : Plain F → Option Text
  | .object o =>
    match textAt "name" o with
    | some name => some name
    | none => if isNull (keyOf o) then none else lastLookup (v.str (keyOf o)) groupsByPk
  | item => lastLookup (v.str item) groupsByPk

def groupNames (v : Values F) (groupsByPk : List (Text × Text)) (raw : Object F) : List Text :=
  ((listAt "groups_obj" "groups" raw).getD []).filterMap (groupName v groupsByPk)

def memberName (v : Values F) (usernamesByPk : List (Text × Text)) : Plain F → Option Text
  | .object o =>
    match textAt "username" o with
    | some username => some username
    | none => lastLookup (v.str (keyOf o)) usernamesByPk
  | item => lastLookup (v.str item) usernamesByPk

def memberNames (v : Values F) (usernamesByPk : List (Text × Text)) (group : Object F) : List Text :=
  ((listAt "users_obj" "users" group).getD []).filterMap (memberName v usernamesByPk)

/-- `explicit_groups_by_uid`: who is a member of what, as the groups say. -/
def explicitGroups (v : Values F) (users groups : List (Object F)) : List (Text × Text) :=
  groups.flatMap fun group ↦
    match textAt "name" group with
    | some name => (memberNames v (namesByPk v "username" users) group).map (·, name)
    | none => []

def readGroups (v : Values F) (users groups : List (Object F)) (username : Text) (raw : Object F) :
    List Text :=
  groupNames v (namesByPk v "name" groups) raw ++
    ((explicitGroups v users groups).filter (·.1 = username)).map Prod.snd

structure User (F : Type) where
  uid : Text
  email : Text
  displayName : Text
  groups : List Text
  attrs : List (Text × List (Plain F))

def User.enabled (user : User F) : Bool := disabledGroup ∉ user.groups

structure Group (F : Type) where
  gid : Text
  name : Text
  members : List Text
  attrs : List (Text × List (Plain F))

structure IdentityModel (F : Type) where
  users : List (User F)
  groups : List (Group F)
  administrators : List Text

inductive SyncError where
  | noAdministrator
  deriving DecidableEq, Repr

def attrsMap : Option (Plain F) → List (Text × List (Plain F))
  | some (.object o) => o.map fun e ↦
    match e.2 with
    | .array items => (e.1, items)
    | value => (e.1, [value])
  | _ => []

def userOf (v : Values F) (username : Text) (groups : List Text) (raw : Object F) : User F where
  uid := username
  email := v.strOr (find "email".toList raw) (username ++ "@invalid.local".toList)
  displayName := v.strOr (find "name".toList raw) username
  groups := groups
  attrs := attrsMap (find "attributes".toList raw)

/-- What the loop makes of one record: an unsafe name stays visible as a disabled user, and a safe
one stays where it is enabled. -/
def modelUser (v : Values F) (users groups : List (Object F)) (raw : Object F) : Option (User F) :=
  match textAt "username" raw with
  | none => none
  | some username =>
    if !isUsername username then
      some (userOf v username (groupNames v (namesByPk v "name" groups) raw ++ [disabledGroup]) raw)
    else
      let marked := if isTrueAt "is_active" raw then [] else [disabledGroup]
      let user := userOf v username (readGroups v users groups username raw ++ marked) raw
      if user.enabled then some user else none

def User.eligibleAdministrator (user : User F) : Bool := user.enabled && isUsername user.uid

def modelGroup (v : Values F) (users : List (Object F)) (model : List (User F)) (raw : Object F) :
    Option (Group F) :=
  let name := v.strOr (find "name".toList raw) []
  if name = [] then none
  else
    let inferred := (model.filter (name ∈ ·.groups)).map (·.uid)
    let explicit := (memberNames v (namesByPk v "username" users) raw).filter (· ∈ model.map (·.uid))
    some {
      gid := v.strOr (find "pk".toList raw) name
      name := name
      members := (inferred ++ explicit).dedup.insertionSort (· ≤ ·)
      attrs := attrsMap (find "attributes".toList raw) }

def records (items : List (Plain F)) : List (Object F) :=
  items.filterMap fun
    | .object o => some o
    | _ => none

def administratorUids (model : List (User F)) : List Text :=
  (model.filter fun user ↦ adminGroup ∈ user.groups && user.eligibleAdministrator).map (·.uid)

def buildModel (v : Values F) (rawUsers rawGroups : List (Plain F)) : Except SyncError (IdentityModel F) :=
  let users := records rawUsers
  let groups := records rawGroups
  let model := users.filterMap (modelUser v users groups)
  let administrators := (administratorUids model).insertionSort (· ≤ ·)
  if administrators = [] then .error .noAdministrator
  else .ok {
    users := model.insertionSort fun a b ↦ a.uid ≤ b.uid
    groups := (groups.filterMap (modelGroup v users model)).insertionSort fun a b ↦ a.name ≤ b.name
    administrators := administrators }

def rawGroupPks (v : Values F) (raw : Object F) : List Text :=
  match find "groups".toList raw with
  | some (.array items) => items.filterMap fun item ↦
    let key := match item with
      | .object o => keyOf o
      | item => item
    if isNull key then none else some (v.str key)
  | _ => []

def activeName (v : Values F) (raw : Object F) : Option (Text × Text) :=
  match textAt "username" raw with
  | some username =>
    if isNull (keyOf raw) || !isTrueAt "is_active" raw || !isUsername username then none
    else some (v.str (keyOf raw), username)
  | none => none

def membersByKey (v : Values F) (users : List (Object F)) (key : Text) : List Text :=
  users.filterMap fun raw ↦
    match textAt "username" raw with
    | some username =>
      if isTrueAt "is_active" raw && decide (key ∈ rawGroupPks v raw) && isUsername username then
        some username
      else none
    | none => none

/-- `enabled_administrator_names`; the first group of the name is the one that counts. -/
def enabledAdministratorNames (v : Values F) (users groups : List (Object F)) : List Text :=
  let usernamesByPk := users.filterMap (activeName v)
  match groups.find? fun o ↦ textAt "name" o = some adminGroup with
  | none => []
  | some group =>
    let byKey := match find "pk".toList group with
      | some pk => if isNull pk then [] else membersByKey v users (v.str pk)
      | none => []
    byKey ++ (memberNames v usernamesByPk group).filter (· ∈ lastValues usernamesByPk)

end NixNas.Identity
