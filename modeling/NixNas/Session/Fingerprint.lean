import NixNas.Session.Projection

/-!
# What the fingerprint of a session does not see

The fingerprint picks fields of the service and what its attachments are bound to.  All parts of the
descriptor come from these but for the units that own the dependencies.
-/

open Fallible NixNas.Spec NixNas.Authentik

namespace NixNas.Session

variable {F : Type}
variable {o o' : Object F}

/-! ## Values that are written the same way -/

section Stored

variable {value : Plain F}

theorem stored_object (o : Object F) : stored (.object o) = .object (storedEntries o) := rfl

theorem storedItems_eq_map (items : List (Plain F)) : storedItems items = items.map stored := by
  induction items with
  | nil => rfl
  | cons item items ih => rw [storedItems, ih, List.map_cons]

theorem isText_stored (value : Plain F) (name : String) : isText (stored value) name = isText value name := by
  cases value <;> rfl

theorem isEmpty_storedEntries (o : Object F) : (storedEntries o).isEmpty = o.isEmpty := by
  cases o with
  | nil => rfl
  | cons e o =>
    rw [List.isEmpty_cons, List.isEmpty_eq_false_iff, ← List.length_pos_iff, length_storedEntries]
    exact Nat.succ_pos _

theorem truthy_stored (value : Plain F) : truthy (stored value) = truthy value := by
  cases value with
  | scalar => rfl
  | array items => cases items <;> rfl
  | object o => exact congrArg (!·) (isEmpty_storedEntries o)

theorem textValue_stored (value : Plain F) : textValue (stored value) = textValue value := by
  cases value <;> rfl

theorem objectValue_stored (value : Plain F) :
    objectValue (stored value) = (objectValue value).map storedEntries := by
  cases value <;> rfl

theorem text_stored (printing : Printing F) (value : Plain F) :
    printing.text (stored value) = printing.text value := by
  cases value <;> rfl

theorem cpuCount_stored (printing : Printing F) (value : Plain F) :
    printing.cpuCount (stored value) = printing.cpuCount value := by
  cases value <;> rfl

theorem field_ok {key : String} (h : field key o = .ok value) : find key.toList o = some value := by
  unfold field at h
  cases hfind : find key.toList o with
  | none =>
    rw [hfind] at h
    cases h
  | some found =>
    rw [hfind] at h
    cases h
    rfl

theorem field_stored (key : String) (o : Object F) :
    field key (storedEntries o) = (field key o).map stored := by
  unfold field
  rw [find_storedEntries]
  cases find key.toList o <;> rfl

theorem listField_stored (key : String) (o : Object F) :
    listField key (storedEntries o) = (listField key o).map fun items ↦ items.map stored := by
  unfold listField
  rw [field_stored, bind_map]
  cases field key o with
  | error => rfl
  | ok value =>
    cases value with
    | scalar => rfl
    | object => rfl
    | array items => exact congrArg Except.ok (storedItems_eq_map items)

theorem textField_stored (key : String) (o : Object F) :
    textField key (storedEntries o) = textField key o := by
  unfold textField
  rw [field_stored, bind_map]
  exact congrArg _ (funext textValue_stored)

theorem textAt_stored (key : String) (o : Object F) : textAt key (storedEntries o) = textAt key o := by
  unfold textAt
  rw [find_storedEntries]
  cases find key.toList o with
  | none => rfl
  | some value => cases value <;> rfl

theorem presentAt_stored (key : String) (o : Object F) :
    presentAt key (storedEntries o) = (presentAt key o).map stored := by
  unfold presentAt
  rw [find_storedEntries]
  cases find key.toList o with
  | none => rfl
  | some value =>
    cases value with
    | scalar a => cases a <;> rfl
    | array => rfl
    | object => rfl

end Stored

theorem mapM_stored {β : Type} {f : Plain F → Except ProjectionError β}
    (hf : ∀ item, f (stored item) = f item) (items : List (Plain F)) :
    (items.map stored).mapM f = items.mapM f := by
  induction items with
  | nil => rfl
  | cons item items ih => rw [List.map_cons, List.mapM_cons, List.mapM_cons, hf, ih]

/-! ## The parts that the fingerprint settles -/

section Parts

variable {printing : Printing F}

theorem optionAt_stored {key option : String} {print : Plain F → Except ProjectionError Text}
    (hprint : ∀ value, print (stored value) = print value) (suffix : String) (resources : Object F) :
    optionAt key option print suffix (storedEntries resources) =
      optionAt key option print suffix resources := by
  unfold optionAt
  rw [find_storedEntries]
  cases find key.toList resources with
  | none => rfl
  | some value =>
    show (print (stored value)).map _ = (print value).map _
    rw [hprint]

theorem acceleratorArgs_stored (accelerator : Plain F) :
    acceleratorArgs printing (stored accelerator) = acceleratorArgs printing accelerator := by
  unfold acceleratorArgs
  rw [objectValue_stored, bind_map]
  congr 1
  funext o
  rw [field_stored, bind_map]
  congr 1
  funext mode
  have hquantity : (find "quantity".toList (storedEntries o)).all (eq printing.float · (number 1)) =
      (find "quantity".toList o).all (eq printing.float · (number 1)) := by
    rw [find_storedEntries]
    cases find "quantity".toList o with
    | none => rfl
    | some value => exact eq_stored value (number 1)
  rw [isText_stored, hquantity, textAt_stored, presentAt_stored]
  cases textAt "device" o with
  | none => rfl
  | some device =>
    cases presentAt "target" o with
    | none => rfl
    | some target => cases target <;> rfl

/-- `_resource_args` reads how the resources are written. -/
theorem resourceArgs_stored (resources : Object F) :
    resourceArgs printing (storedEntries resources) = resourceArgs printing resources := by
  unfold resourceArgs
  rw [optionAt_stored (cpuCount_stored printing), optionAt_stored (text_stored printing),
    optionAt_stored (text_stored printing), optionAt_stored (text_stored printing), listField_stored]
  simp only [bind_map, mapM_stored acceleratorArgs_stored]

theorem flagArgs_stored (key : String) (args : List Text) (sandbox : Object F) :
    flagArgs key args (storedEntries sandbox) = flagArgs key args sandbox := by
  unfold flagArgs
  rw [field_stored, bind_map]
  simp only [truthy_stored]

theorem capabilityArgs_stored (key option : String) (sandbox : Object F) :
    capabilityArgs key option (storedEntries sandbox) = capabilityArgs key option sandbox := by
  unfold capabilityArgs
  rw [listField_stored, bind_map]
  simp only [mapM_stored textValue_stored]

theorem tmpfsArgs_stored (mount : Plain F) :
    tmpfsArgs printing (stored mount) = tmpfsArgs printing mount := by
  unfold tmpfsArgs
  rw [objectValue_stored, bind_map]
  congr 1
  funext o
  rw [textField_stored, find_storedEntries]
  cases find "sizeBytes".toList o with
  | none => rfl
  | some size =>
    simp only [Option.map_some, text_stored]

theorem sandboxArgs_stored (sandbox : Object F) :
    sandboxArgs printing (storedEntries sandbox) = sandboxArgs printing sandbox := by
  unfold sandboxArgs
  simp only [field_stored, listField_stored, bind_map, isText_stored, truthy_stored, flagArgs_stored,
    capabilityArgs_stored, mapM_stored tmpfsArgs_stored]

theorem resourceScope_stored (scope : Option (Plain F)) :
    resourceScope (scope.map stored) = resourceScope scope := by
  cases scope with
  | none => rfl
  | some value =>
    unfold resourceScope
    simp only [Option.map_some, isText_stored]

theorem mountOf_stored (attachment : Object F) (path template : Option Text) (scope : Option (Plain F)) :
    mountOf (storedEntries attachment) path template (scope.map stored) =
      mountOf attachment path template scope := by
  unfold mountOf
  simp only [textField_stored, field_stored, bind_map, isText_stored, resourceScope_stored]

theorem credentialArgsOf_stored (attachment : Object F) (path : Option Text)
    (required : Option (Plain F)) :
    credentialArgsOf (storedEntries attachment) path required =
      credentialArgsOf attachment path required := by
  unfold credentialArgsOf
  simp only [textField_stored, field_stored, bind_map, isText_stored, textAt_stored]

end Parts

/-! ## Attachments and what they are bound to -/

section Bindings

variable {attachment attachment' : Plain F} {a a' resource resource' resources resources' : Object F}
variable {value : Plain F} {key : String} {name : Text} {path : Option Text} {m : Mount}
  {args : List Text}

theorem objectValue_ok (h : objectValue value = .ok a) : value = .object a := by
  cases value with
  | scalar => cases h
  | array => cases h
  | object o =>
    cases h
    rfl

theorem find_same (h : storedEntries a = storedEntries a') (key : Text) :
    (find key a).map stored = (find key a').map stored := by
  rw [← find_storedEntries, h, find_storedEntries]

theorem textField_same (h : storedEntries a = storedEntries a') (key : String) :
    textField key a = textField key a' := by
  rw [← textField_stored, h, textField_stored]

/-- A field of a resource, `None` where it has none. -/
def fieldOrNull (key : String) (resource : Object F) : Plain F :=
  (find key.toList resource).getD (.scalar .null)

def textOf : Plain F → Option Text
  | .scalar (.string value) => some value
  | _ => none

theorem textOf_fieldOrNull (key : String) (resource : Object F) :
    textOf (stored (fieldOrNull key resource)) = textAt key resource := by
  unfold textAt fieldOrNull
  cases find key.toList resource with
  | none => rfl
  | some value =>
    cases value with
    | scalar b => cases b <;> rfl
    | array => rfl
    | object => rfl

theorem textAt_of_fieldOrNull
    (h : stored (fieldOrNull key resource) = stored (fieldOrNull key resource')) :
    textAt key resource = textAt key resource' := by
  rw [← textOf_fieldOrNull, h, textOf_fieldOrNull]

theorem find_resolvedBinding (h : textField key a = .ok name) :
    resolvedBinding resources key (.object a) = .object [("name".toList, .scalar (.string name)),
      ("path".toList, fieldOrNull "path" (resourceAt resources name)),
      ("pathTemplate".toList, fieldOrNull "pathTemplate" (resourceAt resources name)),
      ("scope".toList, fieldOrNull "scope" (resourceAt resources name))] := by
  obtain ⟨value, hvalue, h⟩ := bind_ok h
  have hfind := field_ok hvalue
  obtain rfl : value = .scalar (.string name) := by
    cases value with
    | array => cases h
    | object => cases h
    | scalar b =>
      cases b with
      | string t =>
        cases h
        rfl
      | _ => cases h
  unfold resolvedBinding
  dsimp only [asObject]
  rw [hfind]
  rfl

structure SameBinding (resource resource' : Object F) : Prop where
  path : textAt "path" resource = textAt "path" resource'
  template : textAt "pathTemplate" resource = textAt "pathTemplate" resource'
  scope : stored (fieldOrNull "scope" resource) = stored (fieldOrNull "scope" resource')

theorem sameBinding {name' : Text} (hname : textField key a = .ok name)
    (hname' : textField key a' = .ok name') (hsame : storedEntries a = storedEntries a')
    (hbinding : stored (resolvedBinding resources key (.object a)) =
      stored (resolvedBinding resources' key (.object a'))) :
    name = name' ∧ SameBinding (resourceAt resources name) (resourceAt resources' name') := by
  have heq : name = name' := by
    rw [textField_same hsame, hname'] at hname
    exact (Except.ok.inj hname).symm
  rw [find_resolvedBinding hname, find_resolvedBinding hname', stored_object, stored_object,
    Plain.object.injEq] at hbinding
  have hfield : ∀ key, (find key _).map stored = (find key _).map stored := find_same hbinding
  refine ⟨heq, textAt_of_fieldOrNull ?_, textAt_of_fieldOrNull ?_, ?_⟩
  · exact Option.some.inj (hfield "path".toList)
  · exact Option.some.inj (hfield "pathTemplate".toList)
  · exact Option.some.inj (hfield "scope".toList)

theorem eq_null_of_stored (h : stored value = stored (.scalar .null)) : value = .scalar .null := by
  cases value with
  | scalar => exact h
  | array => cases h
  | object => cases h

theorem not_mountOf_null {template : Option Text} :
    mountOf a path template (some (.scalar .null)) ≠ .ok m := by
  intro h
  obtain ⟨name, -, h⟩ := bind_ok h
  split at h
  · cases h
  · obtain ⟨root, -, h⟩ := bind_ok h
    obtain ⟨mountPath, -, h⟩ := bind_ok h
    obtain ⟨destination, -, h⟩ := bind_ok h
    obtain ⟨access, -, h⟩ := bind_ok h
    obtain ⟨scope, hscope, -⟩ := bind_ok h
    cases hscope

theorem storageMount_settled {m' : Mount} (hattachment : stored attachment = stored attachment')
    (hbinding : stored (resolvedBinding resources "resource" attachment) =
      stored (resolvedBinding resources' "resource" attachment'))
    (h : storageMount resources attachment = .ok m)
    (h' : storageMount resources' attachment' = .ok m') : m = m' := by
  obtain ⟨o, ho, hmount⟩ := bind_ok h
  obtain ⟨o', ho', hmount'⟩ := bind_ok h'
  rw [objectValue_ok ho, objectValue_ok ho'] at hbinding
  rw [objectValue_ok ho, objectValue_ok ho', stored_object, stored_object,
    Plain.object.injEq] at hattachment
  obtain ⟨name, hname, hmount⟩ := bind_ok hmount
  obtain ⟨name', hname', hmount'⟩ := bind_ok hmount'
  obtain ⟨-, hsame⟩ := sameBinding hname hname' hattachment hbinding
  dsimp only at hmount hmount'
  rw [hsame.path, hsame.template] at hmount
  -- a scope of `None` is refused, so that it is no scope of either resource
  have hscope : (find "scope".toList (resourceAt resources name)).map stored =
      (find "scope".toList (resourceAt resources' name')).map stored := by
    have hsame := hsame.scope
    unfold fieldOrNull at hsame
    cases hfind : find "scope".toList (resourceAt resources name) with
    | none =>
      cases hfind' : find "scope".toList (resourceAt resources' name') with
      | none => rfl
      | some value' =>
        rw [hfind, hfind', Option.getD_none, Option.getD_some] at hsame
        rw [hfind', eq_null_of_stored hsame.symm] at hmount'
        exact (not_mountOf_null hmount').elim
    | some value =>
      cases hfind' : find "scope".toList (resourceAt resources' name') with
      | none =>
        rw [hfind, hfind', Option.getD_none, Option.getD_some] at hsame
        rw [hfind, eq_null_of_stored hsame] at hmount
        exact (not_mountOf_null hmount).elim
      | some value' =>
        rw [hfind, hfind', Option.getD_some, Option.getD_some] at hsame
        exact congrArg some hsame
  rw [← mountOf_stored, hattachment, hscope, mountOf_stored] at hmount
  exact Except.ok.inj (hmount.symm.trans hmount')

theorem credentialArgsOf_ok {required : Option (Plain F)}
    (h : credentialArgsOf a path required = .ok args) : credentialArgsOf a path none = .ok args := by
  unfold credentialArgsOf at h ⊢
  obtain ⟨name, hname, h⟩ := bind_ok h
  rw [hname]
  cases path with
  | none => cases h
  | some path =>
    obtain ⟨-, h⟩ := guard_ok h
    exact h

theorem credentialMount_settled {args' : List Text}
    (hattachment : stored attachment = stored attachment')
    (hbinding : stored (resolvedBinding resources "credential" attachment) =
      stored (resolvedBinding resources' "credential" attachment'))
    (h : credentialMount resources attachment = .ok args)
    (h' : credentialMount resources' attachment' = .ok args') : args = args' := by
  obtain ⟨o, ho, hmount⟩ := bind_ok h
  obtain ⟨o', ho', hmount'⟩ := bind_ok h'
  rw [objectValue_ok ho, objectValue_ok ho'] at hbinding
  rw [objectValue_ok ho, objectValue_ok ho', stored_object, stored_object,
    Plain.object.injEq] at hattachment
  obtain ⟨name, hname, hmount⟩ := bind_ok hmount
  obtain ⟨name', hname', hmount'⟩ := bind_ok hmount'
  obtain ⟨-, hsame⟩ := sameBinding hname hname' hattachment hbinding
  have hargs := credentialArgsOf_ok hmount
  rw [hsame.path, ← credentialArgsOf_stored, hattachment, credentialArgsOf_stored] at hargs
  exact Except.ok.inj (hargs.symm.trans (credentialArgsOf_ok hmount'))

end Bindings

/-! ## What is picked -/

def picked (sha256 : Text → Text) (effective : Object F) (serviceId : Text) (service : Object F) :
    Object F :=
  [("runtime".toList, fieldOrNull "runtime" service),
    ("dependencies".toList, fieldOrNull "dependencies" service),
    ("resources".toList, fieldOrNull "resources" service),
    ("sandbox".toList, fieldOrNull "sandbox" service),
    ("storage".toList, fieldOrNull "storage" service),
    ("credentials".toList, fieldOrNull "credentials" service),
    ("storageBindings".toList, bindings (asObject (find "storageResources".toList effective))
      "storage" "resource" service),
    ("credentialBindings".toList, bindings (asObject (find "credentials".toList effective))
      "credentials" "credential" service),
    ("network".toList, fieldOrNull "network" service),
    ("networkProfile".toList, fieldOrNull "networkProfile" service),
    ("networkReference".toList,
      match quadletNetworkReference sha256 effective serviceId service true with
      | .ok reference => .scalar (.string reference)
      | .error _ => .scalar .null)]

/-- The same values under the same keys, in the same order. -/
def WrittenAlike (o o' : Object F) : Prop :=
  o.map (fun e ↦ (e.1, stored e.2)) = o'.map fun e ↦ (e.1, stored e.2)

theorem WrittenAlike.storedEntries_eq (h : WrittenAlike o o') :
    storedEntries o = storedEntries o' := by
  have hmapped : ∀ o : Object F, storedEntries o =
      (o.map fun e ↦ (e.1, stored e.2)).foldr insertEntry [] := by
    intro o
    induction o with
    | nil => rfl
    | cons e o ih => rw [storedEntries, ih, List.map_cons, List.foldr_cons]
  rw [hmapped, hmapped, h]

theorem writtenAlike_of_find (hkeys : o.map Prod.fst = o'.map Prod.fst)
    (hnodup : (o.map Prod.fst).Nodup)
    (h : ∀ key ∈ o.map Prod.fst, (find key o).map stored = (find key o').map stored) :
    WrittenAlike o o' := by
  unfold WrittenAlike
  induction o generalizing o' with
  | nil =>
    rw [List.map_nil, eq_comm, List.map_eq_nil_iff] at hkeys
    rw [hkeys]
  | cons e o ih =>
    obtain ⟨e', rest, rfl⟩ := List.exists_cons_of_ne_nil (l := o') fun hnil => by
      rw [hnil] at hkeys
      cases hkeys
    rw [List.map_cons, List.map_cons, List.cons.injEq] at hkeys
    rw [List.map_cons, List.nodup_cons] at hnodup
    rw [List.map_cons, List.forall_mem_cons] at h
    have hvalue := h.1
    rw [find_cons, if_pos rfl, find_cons, if_pos hkeys.1] at hvalue
    rw [List.map_cons, List.map_cons, hkeys.1, Option.some.inj hvalue]
    congr 1
    apply ih hkeys.2 hnodup.2
    intro key hkey
    -- the key of the tail is not that of the head
    have hne : key ≠ e.1 := fun heq => hnodup.1 (heq ▸ hkey)
    have hrest := h.2 key hkey
    rwa [find_cons, if_neg hne, find_cons, if_neg (hkeys.1 ▸ hne)] at hrest

theorem fingerprintInput_ok {sha256 : Text → Text} {effective service input : Object F}
    {serviceId : Text} {user : Bool}
    (h : fingerprintInput sha256 effective serviceId service user = .ok input) :
    input = picked sha256 effective serviceId service ++ [("requiresUser".toList, boolean user)] := by
  have hfield : ∀ {key : String} {value : Plain F}, field key service = .ok value →
      value = fieldOrNull key service := by
    intro key value hvalue
    unfold fieldOrNull
    rw [field_ok hvalue, Option.getD_some]
  obtain ⟨runtime, hruntime, h⟩ := bind_ok h
  obtain ⟨dependencies, hdependencies, h⟩ := bind_ok h
  obtain ⟨resources, hresources, h⟩ := bind_ok h
  obtain ⟨sandbox, hsandbox, h⟩ := bind_ok h
  obtain ⟨storage, hstorage, h⟩ := bind_ok h
  obtain ⟨credentials, hcredentials, h⟩ := bind_ok h
  rw [hfield hruntime, hfield hdependencies, hfield hresources, hfield hsandbox, hfield hstorage,
    hfield hcredentials] at h
  exact (Except.ok.inj h).symm

/-! ## The parts of a descriptor -/

structure Parts (F : Type) where
  systemdRun : Text
  network : List Text × Option Text
  mounts : List Mount
  depends : List Dependency
  image : Plain F
  command : Plain F
  pull : Text
  credentials : List Text
  resources : List Text
  sandbox : List Text

def Parts.descriptor (tools : Tools) (serviceId : Text) (p : Parts F) : SessionDescriptor F where
  serviceId := serviceId
  podman := tools.podman
  systemctl := tools.systemctl
  systemdRun := p.systemdRun
  targetUnit := sessionTarget serviceId
  requires := sortedUnits (p.depends.flatMap Dependency.requires ++
    sessionTarget serviceId :: p.network.2.toList)
  after := sortedUnits (p.depends.flatMap Dependency.after ++
    sessionTarget serviceId :: p.network.2.toList)
  requiresUser := requiresUser p.mounts
  image := p.image
  command := p.command
  runArgs := ("--pull=".toList ++ p.pull) :: p.network.1 ++ p.mounts.flatMap Mount.args ++
    p.credentials ++ p.resources ++ p.sandbox
  volumeTemplates := p.mounts.filterMap Mount.entry

structure HasParts (printing : Printing F) (sha256 : Text → Text) (tools : Tools) (effective : Object F)
    (serviceId : Text) (service : Object F) (p : Parts F) : Prop where
  systemdRun : systemdRunOf tools.systemctl = .ok p.systemdRun
  network : networkArgs sha256 effective serviceId service = .ok p.network
  mounts : storageProjection effective service = .ok p.mounts
  depends : dependencies effective serviceId service = .ok p.depends
  runtime : ∃ runtime, objectField "runtime" service = .ok runtime ∧
    field "image" runtime = .ok p.image ∧ field "command" runtime = .ok p.command ∧
    ∃ pull, field "pull" runtime = .ok pull ∧ printing.text pull = .ok p.pull
  credentials : credentialArgs effective service = .ok p.credentials
  resources : ∃ resources, objectField "resources" service = .ok resources ∧
    resourceArgs printing resources = .ok p.resources
  sandbox : ∃ sandbox, objectField "sandbox" service = .ok sandbox ∧
    sandboxArgs printing sandbox = .ok p.sandbox

section Settled

variable {printing : Printing F} {sha256 : Text → Text} {tools : Tools}
  {effective effective' service service' : Object F} {serviceId : Text}
variable {key : String} {items items' : List (Plain F)}

theorem absoluteBinary_ok {value result : Text} (h : absoluteBinary value = .ok result) :
    result = value := by
  unfold absoluteBinary at h
  obtain ⟨-, h⟩ := guard_ok h
  exact (Except.ok.inj h).symm

theorem descriptor_ok {d : SessionDescriptor F}
    (h : descriptor printing sha256 tools effective serviceId service = .ok d) :
    ∃ p, HasParts printing sha256 tools effective serviceId service p ∧
      d = p.descriptor tools serviceId := by
  obtain ⟨runtime, hruntime, h⟩ := bind_ok h
  obtain ⟨⟨⟩, -, h⟩ := bind_ok h
  obtain ⟨podman, hpodman, h⟩ := bind_ok h
  obtain ⟨systemctl, hsystemctl, h⟩ := bind_ok h
  obtain ⟨systemdRun, hsystemdRun, h⟩ := bind_ok h
  obtain ⟨systemdRun', hbinary, h⟩ := bind_ok h
  obtain ⟨network, hnetwork, h⟩ := bind_ok h
  obtain ⟨mounts, hmounts, h⟩ := bind_ok h
  obtain ⟨depends, hdepends, h⟩ := bind_ok h
  obtain ⟨image, himage, h⟩ := bind_ok h
  obtain ⟨command, hcommand, h⟩ := bind_ok h
  obtain ⟨pull, hpull, h⟩ := bind_ok h
  obtain ⟨pulled, hpulled, h⟩ := bind_ok h
  obtain ⟨credentials, hcredentials, h⟩ := bind_ok h
  obtain ⟨resources, hresources, h⟩ := bind_ok h
  obtain ⟨resourcesArgs, hresourceArgs, h⟩ := bind_ok h
  obtain ⟨sandbox, hsandbox, h⟩ := bind_ok h
  obtain ⟨sandboxed, hsandboxed, h⟩ := bind_ok h
  rw [absoluteBinary_ok hsystemctl] at hsystemdRun
  refine ⟨⟨systemdRun, network, mounts, depends, image, command, pulled, credentials, resourcesArgs,
    sandboxed⟩, ⟨hsystemdRun, hnetwork, hmounts, hdepends, ⟨runtime, hruntime, himage, hcommand, pull,
    hpull, hpulled⟩, hcredentials, ⟨resources, hresources, hresourceArgs⟩, sandbox, hsandbox,
    hsandboxed⟩, ?_⟩
  rw [← Except.ok.inj h, absoluteBinary_ok hpodman, absoluteBinary_ok hsystemctl,
    absoluteBinary_ok hbinary]
  rfl

theorem fieldOrNull_of_object {value : Object F} (h : objectField key o = .ok value) :
    fieldOrNull key o = .object value := by
  obtain ⟨found, hfound, h⟩ := bind_ok h
  unfold fieldOrNull
  rw [field_ok hfound, Option.getD_some]
  cases found with
  | scalar => cases h
  | array => cases h
  | object =>
    cases h
    rfl

theorem find_of_list
    (h : listField key o = .ok items) : find key.toList o = some (.array items) := by
  obtain ⟨found, hfound, h⟩ := bind_ok h
  rw [field_ok hfound]
  cases found with
  | scalar => cases h
  | object => cases h
  | array =>
    cases h
    rfl

structure SamePicked (sha256 : Text → Text) (effective effective' : Object F) (serviceId : Text)
    (service service' : Object F) : Prop where
  alike : WrittenAlike (picked sha256 effective serviceId service)
    (picked sha256 effective' serviceId service')

theorem SamePicked.value (h : SamePicked sha256 effective effective' serviceId service service')
    (key : Text) {value value' : Plain F} (hvalue : find key (picked sha256 effective serviceId service) =
      some value) (hvalue' : find key (picked sha256 effective' serviceId service') = some value') :
    stored value = stored value' := by
  have hfind := find_same h.alike.storedEntries_eq key
  rw [hvalue, hvalue'] at hfind
  exact Option.some.inj hfind

theorem SamePicked.object (h : SamePicked sha256 effective effective' serviceId service service')
     (ho : objectField key service = .ok o)
    (ho' : objectField key service' = .ok o')
    (hpicked : ∀ effective service : Object F, find key.toList (picked sha256 effective serviceId service) =
      some (fieldOrNull key service)) : storedEntries o = storedEntries o' := by
  have heq := h.value key.toList (hpicked effective service) (hpicked effective' service')
  rw [fieldOrNull_of_object ho, fieldOrNull_of_object ho', stored_object, stored_object] at heq
  exact Plain.object.inj heq

theorem field_same (h : storedEntries o = storedEntries o')
    {value value' : Plain F} (hvalue : field key o = .ok value) (hvalue' : field key o' = .ok value') :
    stored value = stored value' := by
  have hfield := field_stored key o
  rw [h, field_stored, hvalue, hvalue'] at hfield
  exact (Except.ok.inj hfield).symm

theorem SamePicked.list (h : SamePicked sha256 effective effective' serviceId service service')
     (hitems : listField key service = .ok items)
    (hitems' : listField key service' = .ok items')
    (hpicked : ∀ effective service : Object F, find key.toList (picked sha256 effective serviceId service) =
      some (fieldOrNull key service)) : items.map stored = items'.map stored := by
  have heq := h.value key.toList (hpicked effective service) (hpicked effective' service')
  unfold fieldOrNull at heq
  rw [find_of_list hitems, find_of_list hitems'] at heq
  rw [← storedItems_eq_map, ← storedItems_eq_map]
  exact Plain.array.inj heq

theorem map_pair_eq {α α' β γ : Type} {xs : List α} {xs' : List α'} {f : α → β} {f' : α' → β}
    {g : α → γ} {g' : α' → γ} (hf : xs.map f = xs'.map f') (hg : xs.map g = xs'.map g') :
    xs.map (fun x ↦ (f x, g x)) = xs'.map fun x ↦ (f' x, g' x) := by
  rw [← List.zip_map', hf, hg, List.zip_map']

theorem map_bindings {resources resources' : Object F} {field : String}
    (hitems : listField key service = .ok items) (hitems' : listField key service' = .ok items')
    (h : stored (bindings resources key field service) = stored (bindings resources' key field service')) :
    items.map (fun item ↦ stored (resolvedBinding resources field item)) =
      items'.map fun item ↦ stored (resolvedBinding resources' field item) := by
  unfold bindings at h
  rw [find_of_list hitems, find_of_list hitems'] at h
  have hlist := Plain.array.inj h
  rw [storedItems_eq_map, storedItems_eq_map] at hlist
  dsimp only [asArray] at hlist
  rw [List.map_map, List.map_map] at hlist
  exact hlist

theorem SamePicked.mounts (h : SamePicked sha256 effective effective' serviceId service service')
    {mounts mounts' : List Mount} (hmounts : storageProjection effective service = .ok mounts)
    (hmounts' : storageProjection effective' service' = .ok mounts') : mounts = mounts' := by
  obtain ⟨items, hitems, hmounts⟩ := bind_ok hmounts
  obtain ⟨items', hitems', hmounts'⟩ := bind_ok hmounts'
  have hstored := h.list hitems hitems' fun _ _ => rfl
  have hbindings := map_bindings hitems hitems' (h.value "storageBindings".toList rfl rfl)
  have heq : mounts.map id = mounts'.map id := map_eq_of_mapM (fun a a' m m' hkey hm hm' =>
    storageMount_settled (Prod.mk.inj hkey).1 (Prod.mk.inj hkey).2 hm hm')
    (map_pair_eq hstored hbindings) hmounts hmounts'
  rwa [List.map_id, List.map_id] at heq

theorem SamePicked.credentials (h : SamePicked sha256 effective effective' serviceId service service')
    {args args' : List Text} (hargs : credentialArgs effective service = .ok args)
    (hargs' : credentialArgs effective' service' = .ok args') : args = args' := by
  obtain ⟨items, hitems, hargs⟩ := bind_ok hargs
  obtain ⟨items', hitems', hargs'⟩ := bind_ok hargs'
  obtain ⟨blocks, hblocks, hargs⟩ := bind_ok hargs
  obtain ⟨blocks', hblocks', hargs'⟩ := bind_ok hargs'
  have hstored := h.list hitems hitems' fun _ _ => rfl
  have hbindings := map_bindings hitems hitems' (h.value "credentialBindings".toList rfl rfl)
  have heq : blocks.map id = blocks'.map id := map_eq_of_mapM (fun a a' m m' hkey hm hm' =>
    credentialMount_settled (Prod.mk.inj hkey).1 (Prod.mk.inj hkey).2 hm hm')
    (map_pair_eq hstored hbindings) hblocks hblocks'
  rw [List.map_id, List.map_id] at heq
  rw [← Except.ok.inj hargs, ← Except.ok.inj hargs', heq]

theorem SamePicked.network (h : SamePicked sha256 effective effective' serviceId service service')
    (hsession : isSessionService service = true) (hsession' : isSessionService service' = true)
    {network network' : List Text × Option Text}
    (hnetwork : networkArgs sha256 effective serviceId service = .ok network)
    (hnetwork' : networkArgs sha256 effective' serviceId service' = .ok network') :
    network = network' := by
  obtain ⟨reference, hreference, hnetwork⟩ := bind_ok hnetwork
  obtain ⟨reference', hreference', hnetwork'⟩ := bind_ok hnetwork'
  have heq := h.value "networkReference".toList rfl rfl
  rw [mapError_ok.mp hreference, mapError_ok.mp hreference'] at heq
  obtain rfl : reference = reference' := by
    cases heq
    rfl
  rw [← Except.ok.inj hnetwork, ← Except.ok.inj hnetwork']
  unfold argsOfReference podmanNetworkName
  rw [hsession, hsession']

theorem dependencyOf_ok {dependency : Plain F} {d : Dependency}
    (h : dependencyOf effective serviceId dependency = .ok d) :
    ownerUnit effective d.target = .ok d.owner ∧ ∃ o, dependency = .object o ∧
      textField "service" o = .ok d.target ∧
      ∃ condition, field "condition" o = .ok condition ∧ d.ready = isText condition "ready" := by
  obtain ⟨o, ho, h⟩ := bind_ok h
  obtain ⟨target, htarget, h⟩ := bind_ok h
  obtain ⟨session, -, h⟩ := bind_ok h
  obtain ⟨-, h⟩ := guard_ok h
  obtain ⟨owner, howner, h⟩ := bind_ok h
  obtain ⟨condition, hcondition, h⟩ := bind_ok h
  cases h
  exact ⟨howner, o, objectValue_ok ho, htarget, condition, hcondition, rfl⟩

theorem SamePicked.depends (h : SamePicked sha256 effective effective' serviceId service service')
    {ds ds' : List Dependency} (hds : dependencies effective serviceId service = .ok ds)
    (hds' : dependencies effective' serviceId service' = .ok ds') :
    ds.map (fun d ↦ (d.target, d.ready)) = ds'.map fun d ↦ (d.target, d.ready) := by
  obtain ⟨items, hitems, hds⟩ := bind_ok hds
  obtain ⟨items', hitems', hds'⟩ := bind_ok hds'
  have hstored := h.list hitems hitems' fun _ _ => rfl
  refine map_eq_of_mapM ?_ hstored hds hds'
  intro item item' d d' hitem hd hd'
  obtain ⟨-, o, rfl, htarget, condition, hcondition, hready⟩ := dependencyOf_ok hd
  obtain ⟨-, o', rfl, htarget', condition', hcondition', hready'⟩ := dependencyOf_ok hd'
  have hsame : storedEntries o = storedEntries o' := Plain.object.inj hitem
  rw [textField_same hsame, htarget'] at htarget
  have hstoredCondition := field_same hsame hcondition hcondition'
  rw [hready, hready', ← isText_stored, hstoredCondition, isText_stored, Except.ok.inj htarget]

/-- All parts are the same but for the owners of the dependencies. -/
structure Settled (p p' : Parts F) : Prop where
  systemdRun : p.systemdRun = p'.systemdRun
  network : p.network = p'.network
  mounts : p.mounts = p'.mounts
  image : stored p.image = stored p'.image
  command : stored p.command = stored p'.command
  pull : p.pull = p'.pull
  credentials : p.credentials = p'.credentials
  resources : p.resources = p'.resources
  sandbox : p.sandbox = p'.sandbox
  depends : p.depends.map (fun d ↦ (d.target, d.ready)) = p'.depends.map fun d ↦ (d.target, d.ready)

theorem SamePicked.settled (h : SamePicked sha256 effective effective' serviceId service service')
    (hsession : isSessionService service = true) (hsession' : isSessionService service' = true)
    {p p' : Parts F} (hp : HasParts printing sha256 tools effective serviceId service p)
    (hp' : HasParts printing sha256 tools effective' serviceId service' p') : Settled p p' := by
  obtain ⟨runtime, hruntime, himage, hcommand, pull, hpull, htext⟩ := hp.runtime
  obtain ⟨runtime', hruntime', himage', hcommand', pull', hpull', htext'⟩ := hp'.runtime
  obtain ⟨resources, hresources, hargs⟩ := hp.resources
  obtain ⟨resources', hresources', hargs'⟩ := hp'.resources
  obtain ⟨sandbox, hsandbox, hboxed⟩ := hp.sandbox
  obtain ⟨sandbox', hsandbox', hboxed'⟩ := hp'.sandbox
  have hsameRuntime := h.object hruntime hruntime' fun _ _ => rfl
  constructor
  · exact Except.ok.inj (hp.systemdRun.symm.trans hp'.systemdRun)
  · exact h.network hsession hsession' hp.network hp'.network
  · exact h.mounts hp.mounts hp'.mounts
  · exact field_same hsameRuntime himage himage'
  · exact field_same hsameRuntime hcommand hcommand'
  · rw [← text_stored, field_same hsameRuntime hpull hpull', text_stored] at htext
    exact Except.ok.inj (htext.symm.trans htext')
  · exact h.credentials hp.credentials hp'.credentials
  · rw [← resourceArgs_stored, h.object hresources hresources' fun _ _ => rfl, resourceArgs_stored] at hargs
    exact Except.ok.inj (hargs.symm.trans hargs')
  · rw [← sandboxArgs_stored, h.object hsandbox hsandbox' fun _ _ => rfl, sandboxArgs_stored] at hboxed
    exact Except.ok.inj (hboxed.symm.trans hboxed')
  · exact h.depends hp.depends hp'.depends

end Settled

/-! ## The units of the dependencies -/

theorem mem_sortedUnits {units : List Text} {unit : Text} : unit ∈ sortedUnits units ↔ unit ∈ units := by
  unfold sortedUnits
  rw [List.mem_insertionSort, List.mem_dedup]

theorem sortedUnits_eq_iff {units units' : List Text} :
    sortedUnits units = sortedUnits units' ↔ ∀ unit, unit ∈ units ↔ unit ∈ units' := by
  constructor
  · intro h unit
    rw [← mem_sortedUnits, h, mem_sortedUnits]
  · intro h
    have hdedup : units.dedup.Perm units'.dedup :=
      (List.perm_ext_iff_of_nodup (List.nodup_dedup _) (List.nodup_dedup _)).mpr fun unit => by
        rw [List.mem_dedup, List.mem_dedup, h]
    have hperm : (sortedUnits units).Perm (sortedUnits units') :=
      ((List.perm_insertionSort _ _).trans hdedup).trans (List.perm_insertionSort _ _).symm
    exact hperm.eq_of_pairwise' (List.pairwise_insertionSort _ _) (List.pairwise_insertionSort _ _)

def declared (service : Object F) : List (Text × Bool) :=
  (asArray (find "dependencies".toList service)).filterMap fun dependency ↦
    (textAt "service" (asObject (some dependency))).map fun target ↦
      (target, keyIs "condition" "ready" (asObject (some dependency)))

def Owns (effective service : Object F) (unit : Text) : Prop :=
  ∃ d ∈ declared service, ownerUnit effective d.1 = .ok unit

/-- The unit owns a dependency that need not be ready. -/
def OwnsStarted (effective service : Object F) (unit : Text) : Prop :=
  ∃ d ∈ declared service, d.2 = false ∧ ownerUnit effective d.1 = .ok unit

/-- The units that the descriptor names whatever owns the dependencies. -/
def standing (sha256 : Text → Text) (effective : Object F) (serviceId : Text) (service : Object F) :
    List Text :=
  ((declared service).filter Prod.snd).map (fun d ↦ readyUnit d.1) ++ sessionTarget serviceId ::
    match quadletNetworkReference sha256 effective serviceId service true with
    | .ok reference => (argsOfReference serviceId service reference).2.toList
    | .error _ => []

/-- The dependencies have the same owners, apart from units that are named anyway. -/
def SameOwners (sha256 : Text → Text) (effective effective' : Object F) (serviceId : Text)
    (service service' : Object F) : Prop :=
  ∀ unit ∉ standing sha256 effective serviceId service,
    (Owns effective service unit ↔ Owns effective' service' unit) ∧
      (OwnsStarted effective service unit ↔ OwnsStarted effective' service' unit)

section Units

variable {printing : Printing F} {sha256 : Text → Text} {tools : Tools}
  {effective effective' service service' : Object F} {serviceId unit : Text} {ds : List Dependency}
  {p p' : Parts F}

theorem textAt_of_textField {key : String} {o : Object F} {value : Text}
    (h : textField key o = .ok value) : textAt key o = some value := by
  obtain ⟨found, hfound, h⟩ := bind_ok h
  unfold textAt
  rw [field_ok hfound]
  cases found with
  | array => cases h
  | object => cases h
  | scalar b =>
    cases b with
    | string t =>
      cases h
      rfl
    | _ => cases h

theorem dependencies_ok (h : dependencies effective serviceId service = .ok ds) :
    declared service = ds.map (fun d ↦ (d.target, d.ready)) ∧
      ∀ d ∈ ds, ownerUnit effective d.target = .ok d.owner := by
  obtain ⟨items, hitems, hmap⟩ := bind_ok h
  have hall := mapM_ok hmap
  unfold declared
  rw [find_of_list hitems]
  dsimp only [asArray]
  clear hmap h hitems
  constructor
  · induction hall with
    | nil => rfl
    | cons hd _ ih =>
      obtain ⟨-, o, rfl, htarget, condition, hcondition, hready⟩ := dependencyOf_ok hd
      have hkey : keyIs "condition" "ready" o = isText condition "ready" := by
        unfold keyIs
        rw [field_ok hcondition]
        rfl
      rw [List.filterMap_cons, ih, List.map_cons]
      dsimp only [asObject]
      rw [textAt_of_textField htarget, hkey, ← hready]
      rfl
  · intro d hd
    obtain ⟨item, -, hitem⟩ := exists_left hall hd
    exact (dependencyOf_ok hitem).1

theorem HasParts.standing_eq (h : HasParts printing sha256 tools effective serviceId service p) :
    standing sha256 effective serviceId service =
      ((declared service).filter Prod.snd).map (fun d ↦ readyUnit d.1) ++
        sessionTarget serviceId :: p.network.2.toList := by
  obtain ⟨reference, hreference, hnetwork⟩ := bind_ok h.network
  unfold standing
  rw [mapError_ok.mp hreference, ← Except.ok.inj hnetwork]

theorem HasParts.units (h : HasParts printing sha256 tools effective serviceId service p) :
    (Owns effective service unit ↔ ∃ d ∈ p.depends, d.owner = unit) ∧
    (OwnsStarted effective service unit ↔ ∃ d ∈ p.depends, d.ready = false ∧ d.owner = unit) ∧
    (unit ∈ ((declared service).filter Prod.snd).map (fun d ↦ readyUnit d.1) ↔
      ∃ d ∈ p.depends, d.ready = true ∧ readyUnit d.target = unit) := by
  obtain ⟨hdeclared, howner⟩ := dependencies_ok h.depends
  have howned : ∀ d ∈ p.depends, ownerUnit effective d.target = .ok unit ↔ d.owner = unit := by
    intro d hd
    rw [howner d hd, Except.ok.injEq]
  unfold Owns OwnsStarted
  rw [hdeclared]
  simp only [List.mem_map, List.mem_filter]
  refine ⟨?_, ?_, ?_⟩
  · constructor
    · rintro ⟨_, ⟨d, hd, rfl⟩, hunit⟩
      exact ⟨d, hd, (howned d hd).mp hunit⟩
    · rintro ⟨d, hd, hunit⟩
      exact ⟨_, ⟨d, hd, rfl⟩, (howned d hd).mpr hunit⟩
  · constructor
    · rintro ⟨_, ⟨d, hd, rfl⟩, hready, hunit⟩
      exact ⟨d, hd, hready, (howned d hd).mp hunit⟩
    · rintro ⟨d, hd, hready, hunit⟩
      exact ⟨_, ⟨d, hd, rfl⟩, hready, (howned d hd).mpr hunit⟩
  · constructor
    · rintro ⟨_, ⟨⟨d, hd, rfl⟩, hready⟩, rfl⟩
      exact ⟨d, hd, hready, rfl⟩
    · rintro ⟨d, hd, hready, rfl⟩
      exact ⟨_, ⟨⟨d, hd, rfl⟩, hready⟩, rfl⟩

theorem HasParts.mem_requires (h : HasParts printing sha256 tools effective serviceId service p) :
    unit ∈ p.depends.flatMap Dependency.requires ++ sessionTarget serviceId :: p.network.2.toList ↔
      Owns effective service unit ∨ unit ∈ standing sha256 effective serviceId service := by
  obtain ⟨howns, -, hready⟩ := h.units
  have hunits : unit ∈ p.depends.flatMap Dependency.requires ↔
      (∃ d ∈ p.depends, d.owner = unit) ∨ ∃ d ∈ p.depends, d.ready = true ∧ readyUnit d.target = unit := by
    rw [List.mem_flatMap, ← exists_or]
    refine exists_congr fun d => ?_
    unfold Dependency.requires
    rw [List.mem_cons, ← and_or_left, eq_comm (a := unit)]
    refine and_congr_right fun _ => or_congr_right ?_
    cases d.ready with
    | false => simp
    | true => simp [eq_comm]
  rw [h.standing_eq, List.mem_append, List.mem_append, hready, howns, hunits, or_assoc]

theorem HasParts.mem_after (h : HasParts printing sha256 tools effective serviceId service p) :
    unit ∈ p.depends.flatMap Dependency.after ++ sessionTarget serviceId :: p.network.2.toList ↔
      OwnsStarted effective service unit ∨ unit ∈ standing sha256 effective serviceId service := by
  obtain ⟨-, howns, hready⟩ := h.units
  have hunits : unit ∈ p.depends.flatMap Dependency.after ↔
      (∃ d ∈ p.depends, d.ready = false ∧ d.owner = unit) ∨
        ∃ d ∈ p.depends, d.ready = true ∧ readyUnit d.target = unit := by
    rw [List.mem_flatMap, ← exists_or]
    refine exists_congr fun d => ?_
    unfold Dependency.after
    rw [List.mem_singleton, ← and_or_left]
    refine and_congr_right fun _ => ?_
    cases d.ready with
    | false => simp [eq_comm]
    | true => simp [eq_comm]
  rw [h.standing_eq, List.mem_append, List.mem_append, hready, howns, hunits, or_assoc]

end Units

end NixNas.Session
