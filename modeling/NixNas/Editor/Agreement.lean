import NixNas.Editor.Verified

/-!
# Status and apply

The stored document is the one `apply` compiles from the authority bytes.  `status` reads the same
bytes, and verifies the services that the compiler left as they were desired.
-/

open Fallible

namespace NixNas.Editor

open History (universalNewlines)
open Spec Accelerator

section Agreement

variable {F : Type} {env : Environment F} {data : ByteArray} {text : Text}
  {document normalized services compiled runtime effective service derived : Object F}
  {serviceId provenance revision : Text}
variable {float : FloatEq F} {decimal : Char → Bool} {inventory xs ys entries : Object F}
  {R : Text × Plain F → Text × Plain F → Prop}
  {p : Pipeline Text (Object F) (Object F)} {authority : Option ByteArray} {file : Option (Plain F)}

/-! ## The compiled document -/

/-- What `_compile_paths_inner` makes of a document. -/
structure Compiled (env : Environment F)
    (document normalized services compiled runtime effective : Object F) : Prop where
  normal : normalize document = .ok normalized
  dict : Dict (.object normalized)
  schema : DocumentSchema env.float normalized
  rules : semanticValidate env.otherRules normalized = .ok ()
  find_desired : find "services".toList normalized = some (.object services)
  resolved : List.Forall₂ (fun e c ↦ c.1 = e.1 ∧ ∃ service resolved, e.2 = .object service ∧
    resolveServiceAccelerators env.float env.decimal env.inventory e.1 service = .ok resolved ∧
    c.2 = .object (withAccelerators service (resolved.flatMap materials))) services compiled
  metadata : List.Forall₂ (fun e d ↦ d.1 = e.1 ∧ ∃ service derived, e.2 = .object service ∧
    derivedRuntime e.1 service = .ok derived ∧ d.2 = .object derived) services runtime
  find_services : find "services".toList effective = some (.object compiled)
  find_runtime : find "runtime".toList (asObject (find "derived".toList effective)) =
    some (.object runtime)
  find_derived : ∃ o, find "derived".toList effective = some (.object o)
  find_version : find "schemaVersion".toList effective = find "schemaVersion".toList normalized

theorem resolveService_ok {e : Text × Plain F} {out : (Text × Plain F) × (Text × Plain F)}
    (h : resolveService float decimal inventory e = .ok out) :
    out.2.1 = e.1 ∧ ∃ service resolved, e.2 = .object service ∧
      resolveServiceAccelerators float decimal inventory e.1 service = .ok resolved ∧
      out.2.2 = .object (withAccelerators service (resolved.flatMap materials)) := by
  obtain ⟨serviceId, value⟩ := e
  unfold resolveService at h
  cases value with
  | scalar => cases h
  | array => cases h
  | object service =>
    obtain ⟨resolved, hresolved, h⟩ := bind_ok h
    dsimp only at h
    split at h
    · cases h
      exact ⟨rfl, service, resolved, rfl, hresolved, rfl⟩
    · cases h

theorem forall₂_map_right {α β γ : Type} {R : α → β → Prop} {f : γ → β} {xs : List α}
    {zs : List γ} (h : List.Forall₂ (fun x z ↦ R x (f z)) xs zs) : List.Forall₂ R xs (zs.map f) := by
  induction h with
  | nil => exact .nil
  | cons hxz _ ih => exact .cons hxz ih

theorem compiled_of_ok (hdict : Dict (.object document))
    (hschema : ∀ document, env.validateSchema document = .ok () → DocumentSchema env.float document)
    (hcompile : compileDocument env.validateSchema env.otherRules document >>=
      env.pipeline.resolve = .ok effective) :
    ∃ normalized services compiled runtime,
      Compiled env document normalized services compiled runtime effective := by
  obtain ⟨base, hbase, hresolve⟩ := bind_ok hcompile
  obtain ⟨normalized, hnormal, hvalid, hrules, hbuild⟩ := compileDocument_ok hbase
  obtain ⟨services, runtime, derived, hservices, hderive, hruntime, rfl⟩ := buildEffective_ok hbuild
  have hresolve' := mapError_ok.mp hresolve
  unfold resolveEffective at hresolve'
  have hfind : find "services".toList (setItem normalized "derived".toList (.object derived)) =
      some (.object services) := by
    rw [find_setItem, if_neg (by decide), hservices]
  have hfind' : find "derived".toList (setDefault "derived" (.object [])
      (setItem normalized "derived".toList (.object derived))) = some (.object derived) := by
    rw [find_setDefault, if_pos rfl, find_setItem, if_pos rfl]
    rfl
  rw [hfind] at hresolve'
  dsimp only at hresolve'
  rw [hfind'] at hresolve'
  obtain ⟨resolved, hmap, hdone⟩ := bind_ok hresolve'
  cases hdone
  refine ⟨normalized, services, resolved.map Prod.snd, objects runtime, hnormal,
    keeps_normalize _ _ hnormal hdict, hschema _ hvalid, hrules, hservices,
    forall₂_map_right ((mapM_ok hmap).imp fun _ _ hstep => resolveService_ok hstep),
    forall₂_map_right ((deriveServices_ok hderive).imp fun e d hstep => ?_), ?_, ?_, ?_, ?_⟩
  · obtain ⟨hkey, service, hservice, hderived⟩ := hstep
    exact ⟨hkey, service, d.2, hservice, hderived, rfl⟩
  · rw [find_setItem, if_neg (by decide), find_setItem, if_pos rfl]
  · rw [find_setItem, if_pos rfl]
    show find "runtime".toList (setItem derived _ _) = _
    rw [find_setItem, if_neg (by decide), hruntime]
  · rw [find_setItem, if_pos rfl]
    exact ⟨_, rfl⟩
  · rw [find_setItem, if_neg (by decide), find_setItem, if_neg (by decide), find_setItem,
      if_neg (by decide)]

theorem keys_of_forall₂ (h : List.Forall₂ R xs ys) (hR : ∀ x y, R x y → y.1 = x.1) :
    ys.map Prod.fst = xs.map Prod.fst := by
  induction h with
  | nil => rfl
  | cons hxy _ ih => rw [List.map_cons, List.map_cons, ih, hR _ _ hxy]

theorem find_of_forall₂
    (h : List.Forall₂ R xs ys) (hR : ∀ x y, R x y → y.1 = x.1) (hdict : Dict (.object xs))
    {x : Text × Plain F} (hx : x ∈ xs) : ∃ y, R x y ∧ find x.1 ys = some y.2 := by
  obtain ⟨y, hy, hxy⟩ := exists_right h hx
  refine ⟨y, hxy, ?_⟩
  rw [← hR _ _ hxy]
  exact find_of_mem (by rw [keys_of_forall₂ h hR]; exact hdict.1) hy

theorem Compiled.dict_services
    (h : Compiled env document normalized services compiled runtime effective) :
    Dict (.object services) := h.dict.of_find h.find_desired

theorem Compiled.compiledService
    (h : Compiled env document normalized services compiled runtime effective)
    (hmem : (serviceId, .object service) ∈ services) :
    ∃ derived resolved, CompiledService env.float serviceId service derived ∧
      resolveServiceAccelerators env.float env.decimal env.inventory serviceId service =
        .ok resolved ∧
      find serviceId (storedEntries compiled) =
        some (stored (.object (withAccelerators service (resolved.flatMap materials)))) ∧
      find serviceId (storedEntries runtime) = some (stored (.object derived)) := by
  obtain ⟨c, ⟨-, _, resolved, ⟨⟩, hresolved, hc⟩, hfind⟩ :=
    find_of_forall₂ h.resolved (fun _ _ hstep => hstep.1) h.dict_services hmem
  obtain ⟨d, ⟨-, _, derived, ⟨⟩, hderived, hd⟩, hfind'⟩ :=
    find_of_forall₂ h.metadata (fun _ _ hstep => hstep.1) h.dict_services hmem
  obtain ⟨hworkload, haccelerators⟩ := semanticValidate_ok h.rules h.find_desired hmem
  obtain ⟨found, hfound, hschema⟩ := h.schema.services
  cases h.find_desired.symm.trans hfound
  obtain ⟨_, ⟨⟩, hservice⟩ := hschema _ hmem
  obtain ⟨before, -, hnormal⟩ :=
    (isService_normalize h.normal).mp ⟨services, h.find_desired, hmem⟩
  refine ⟨derived, resolved, ⟨dictEntries_iff.mp h.dict_services.2 _ hmem, hservice,
    normalized_normalizeService hnormal, hworkload, haccelerators, hderived⟩, hresolved, ?_, ?_⟩
  · rw [find_storedEntries, hfind, hc]
    rfl
  · rw [find_storedEntries, hfind', hd]
    rfl

/-! ## The stored file -/

theorem sameKeys_storedEntries {o o' : Object F} (h : o.map Prod.fst = o'.map Prod.fst) :
    sameKeys (storedEntries o) o' = true := by
  have hhas : ∀ key, Has key (storedEntries o) ↔ Has key o' := by
    intro key
    unfold Has
    rw [find_storedEntries, Option.isSome_map]
    show Has key o ↔ Has key o'
    rw [has_iff_mem, has_iff_mem, h]
  unfold sameKeys
  simp only [Bool.and_eq_true, List.all_eq_true, decide_eq_true_eq]
  constructor
  · exact fun e he => (hhas e.1).mp (has_iff_mem.mpr (List.mem_map_of_mem he))
  · exact fun e he => (hhas e.1).mpr (has_iff_mem.mpr (List.mem_map_of_mem he))

theorem loadEffectiveValue_other (hne : provenance ≠ revision) :
    loadEffectiveValue env.float (some (effectiveFile effective provenance)) revision services =
      none := by
  have hprovenance : find "provenance".toList (storedEntries (setItem effective
      "provenance".toList (.object [("desiredSha256".toList, .scalar (.string provenance))]))) =
      some (.object [("desiredSha256".toList, .scalar (.string provenance))]) := by
    rw [find_storedEntries, find_setItem, if_pos rfl]
    rfl
  have hdigest : keyEq env.float "desiredSha256"
      [("desiredSha256".toList, .scalar (.string provenance))] (.scalar (.string revision)) =
      false := by
    show eq env.float (.scalar (.string provenance)) (.scalar (.string revision)) = false
    rw [eq_string, decide_eq_false hne]
  unfold loadEffectiveValue effectiveFile
  rw [stored]
  simp only [hprovenance]
  split
  · rename_i hprov _
    cases hprov
    rw [hdigest, Bool.and_false, Bool.false_and, Bool.false_and, if_neg Bool.false_ne_true]
  · rfl

theorem Compiled.load
    (h : Compiled env document normalized services compiled runtime effective) :
    loadEffectiveValue env.float (some (effectiveFile effective provenance)) provenance services =
      some ⟨storedEntries compiled, storedEntries runtime⟩ := by
  have hother : ∀ key : Text, key ≠ "provenance".toList →
      find key (storedEntries (setItem effective "provenance".toList
        (.object [("desiredSha256".toList, .scalar (.string provenance))]))) =
        (find key effective).map stored := by
    intro key hkey
    rw [find_storedEntries, find_setItem, if_neg hkey]
  have hprovenance : find "provenance".toList (storedEntries (setItem effective
      "provenance".toList (.object [("desiredSha256".toList, .scalar (.string provenance))]))) =
      some (.object [("desiredSha256".toList, .scalar (.string provenance))]) := by
    rw [find_storedEntries, find_setItem, if_pos rfl]
    rfl
  have hruntime : find "runtime".toList (asObject (find "derived".toList (storedEntries (setItem
      effective "provenance".toList
        (.object [("desiredSha256".toList, .scalar (.string provenance))]))))) =
      some (.object (storedEntries runtime)) := by
    rw [hother _ (by decide), asObject_stored, find_storedEntries, h.find_runtime]
    rfl
  have hversion : keyEq env.float "schemaVersion" (storedEntries (setItem effective
      "provenance".toList (.object [("desiredSha256".toList, .scalar (.string provenance))])))
      (number 3) = true := by
    obtain ⟨value, hvalue, heq⟩ := h.schema.schemaVersion
    unfold keyEq
    rw [hother _ (by decide), h.find_version, hvalue]
    show eq env.float (stored value) (number 3) = true
    rw [eq_stored, heq]
  have hdigest : keyEq env.float "desiredSha256"
      [("desiredSha256".toList, .scalar (.string provenance))] (.scalar (.string provenance)) =
      true := by
    show eq env.float (.scalar (.string provenance)) (.scalar (.string provenance)) = true
    exact eq_text_self provenance
  unfold loadEffectiveValue effectiveFile
  rw [stored]
  simp only [hprovenance, hruntime, hother "services".toList (by decide), h.find_services,
    Option.map_some, stored]
  rw [hversion, hdigest,
    sameKeys_storedEntries (keys_of_forall₂ h.resolved fun _ _ hstep => hstep.1),
    sameKeys_storedEntries (keys_of_forall₂ h.metadata fun _ _ hstep => hstep.1)]
  rfl

/-! ## The rows -/

theorem statusRow_id {stored : Effective F} : (statusRow float services stored serviceId service).id = serviceId := by
  unfold statusRow
  dsimp only
  split
  · split <;> rfl
  · rfl

theorem statusRow_none :
    (statusRow float services ⟨[], []⟩ serviceId service).verified = false := by
  unfold statusRow
  dsimp only
  split
  · rw [find_nil]
    rfl
  · rfl

theorem statusRow_verified {stored : Effective F} {expected : Object F}
    (h : find serviceId services = some (.object expected)) :
    (statusRow float services stored serviceId service).verified =
      isValidEffectiveService float (find serviceId stored.services) serviceId expected
        (find serviceId stored.runtime) := by
  unfold statusRow
  simp only [h]
  split
  · rename_i hvalid
    exact hvalid.symm
  · rename_i hvalid
    exact (Bool.eq_false_iff.mpr hvalid).symm

theorem mem_rows {stored : Effective F} {row : Row F} :
    row ∈ statusRows float services stored entries ↔
      ∃ serviceId service, (serviceId, .object service) ∈ entries ∧
        row = statusRow float services stored serviceId service := by
  unfold statusRows
  rw [List.mem_filterMap]
  constructor
  · rintro ⟨⟨serviceId, value⟩, hmem, hrow⟩
    cases value with
    | scalar => cases hrow
    | array => cases hrow
    | object service =>
      cases hrow
      exact ⟨serviceId, service, List.mem_mergeSort.mp hmem, rfl⟩
  · rintro ⟨serviceId, service, hmem, rfl⟩
    exact ⟨_, List.mem_mergeSort.mpr hmem, rfl⟩

theorem status_ok {rows : List (Row F)} (h : status p float authority file = .ok rows) :
    ∃ text document entries normalized,
      (readText authority : Except (EditorError Text) Text) = .ok text ∧
      p.parse text = .ok document ∧ find "services".toList document = some (.object entries) ∧
      normalize document = .ok normalized ∧
      rows = statusRows float (asObject (find "services".toList normalized))
        ((loadEffectiveValue float file (Editor.revision p text)
          (asObject (find "services".toList normalized))).getD ⟨[], []⟩) entries := by
  obtain ⟨text, hread, h⟩ := bind_ok h
  obtain ⟨document, hparse, h⟩ := bind_ok h
  dsimp only at h
  split at h
  · rename_i entries hentries
    obtain ⟨normalized, hnormal, h⟩ := bind_ok h
    cases h
    exact ⟨text, document, entries, normalized, mapError_ok.mp hread, mapError_ok.mp hparse,
      hentries, mapError_ok.mp hnormal, rfl⟩
  · cases h

theorem status_eq
    (hread : (readText authority : Except (EditorError Text) Text) = .ok text) (hparse : p.parse text = .ok document)
    (hentries : find "services".toList document = some (.object entries))
    (hnormal : normalize document = .ok normalized) :
    status p float authority file = .ok (statusRows float
      (asObject (find "services".toList normalized))
      ((loadEffectiveValue float file (Editor.revision p text)
        (asObject (find "services".toList normalized))).getD ⟨[], []⟩) entries) := by
  unfold status
  rw [mapError_ok.mpr hread]
  show (Except.mapError _ (p.parse text) >>= _) = _
  rw [mapError_ok.mpr hparse]
  dsimp only [Bind.bind, Except.bind]
  rw [hentries]
  show (Except.mapError _ (normalize document) >>= _) = _
  rw [mapError_ok.mpr hnormal]
  rfl

/-- `status` reports the service as verified and available with its units. -/
def ReportsVerified (env : Environment F) (authority : Option ByteArray) (file : Option (Plain F))
    (serviceId : Text) (service : Object F) : Prop :=
  ∃ rows, status env.pipeline env.float authority file = .ok rows ∧
    ∃ row ∈ rows, row.id = serviceId ∧ row.verified = true ∧ row.available = true ∧
      ∃ owner, ownerUnit serviceId service = some owner ∧
        row.units = statusUnits serviceId service (.scalar (.string owner))

/-- The compiler leaves the service as it was desired, but for what JSON cannot compare. -/
structure LeftAsDesired (float : FloatEq F) (service : Object F) : Prop where
  accelerators : keyIs "type" "vm" (asObject (find "runtime".toList service)) = true ∨
    ∀ request ∈ accelerators service, IsMaterial request
  idleSeconds : IdleWhole service
  noNan : NoNan float (.object (withAccelerators service []))

theorem eqItems_accelerators
    {resolved : List (Resolved F)} (h : CompiledService float serviceId service derived)
    (hresolved : resolveServiceAccelerators float decimal inventory serviceId service =
      .ok resolved) :
    eqItems float (resolved.flatMap materials) (accelerators service) = true ↔
      keyIs "type" "vm" (asObject (find "runtime".toList service)) = true ∨
        ∀ request ∈ accelerators service, IsMaterial request := by
  obtain ⟨r, hr, hitems, hrequests⟩ := h.requests
  unfold resolveServiceAccelerators at hresolved
  dsimp only at hresolved
  split at hresolved
  · rename_i runtimeType htype
    have hvm : keyIs "type" "vm" (asObject (find "runtime".toList service)) =
        decide (runtimeType = "vm".toList) := by
      unfold keyIs
      rw [htype]
      rfl
    rw [hvm, decide_eq_true_eq]
    by_cases hisVm : runtimeType = "vm".toList
    · -- the rules ask a virtual machine for passthrough
      rw [decide_eq_true hisVm] at hresolved
      have hpassthrough : ∀ request ∈ accelerators service, ∃ r, request = .object r ∧
          keyIs "mode" "passthrough" r = true := by
        intro request hrequest
        obtain ⟨a, rfl, -⟩ := hrequests request hrequest
        obtain ⟨i, hcheck⟩ := h.accelerators _ hrequest
        unfold checkAccelerator at hcheck
        rw [if_pos (hvm.trans (decide_eq_true hisVm))] at hcheck
        split at hcheck
        · rename_i hmode
          exact ⟨a, rfl, (Bool.and_eq_true_iff.mp hmode).1⟩
        · cases hcheck
      rw [materials_vm hpassthrough hresolved]
      have hdict : DictItems (accelerators service) := (h.dict.of_find hr).of_find hitems
      refine iff_of_true ((eqItems_self _ hdict).mpr ?_) (.inl hisVm)
      have hnan : ∀ items : List (Plain F), (∀ item ∈ items, NoNan float item) →
          NoNanItems float items := by
        intro items
        induction items with
        | nil => exact fun _ => trivial
        | cons item items ih => exact fun hall =>
            ⟨hall item List.mem_cons_self, ih fun other hother =>
              hall other (List.mem_cons_of_mem item hother)⟩
      refine hnan _ fun item hitem => ?_
      obtain ⟨a, rfl, ha⟩ := hrequests item hitem
      exact noNan_request ha
    · rw [decide_eq_false hisVm] at hresolved
      rw [eqItems_materials hrequests hresolved]
      exact (or_iff_right hisVm).symm
  · cases hresolved

/-! ## The two directions -/

theorem statusUnits_stored (values : List (Plain F)) (owner : Plain F) :
    statusUnits serviceId (storedEntries (withAccelerators service values)) owner =
      statusUnits serviceId service owner := by
  have hworkload : asObject (find "workload".toList
      (storedEntries (withAccelerators service values))) =
      storedEntries (asObject (find "workload".toList service)) := by
    rw [find_storedEntries_toList, asObject_stored, find_withAccelerators values _ (by decide)]
  unfold statusUnits
  rw [hworkload]
  dsimp only
  rw [keyIs_storedEntries, find_storedEntries_toList]
  congr 2
  cases find "schedules".toList (asObject (find "workload".toList service)) with
  | none => rfl
  | some value =>
    cases value with
    | scalar => rfl
    | object o => rw [Option.map_some, stored]; rfl
    | array items =>
      rw [Option.map_some, stored]
      have hlength : (storedItems items).length = items.length := by
        induction items with
        | nil => rfl
        | cons item items ih => rw [storedItems, List.length_cons, ih, List.length_cons]
      show List.map _ (List.range (storedItems items).length) = List.map _ (List.range items.length)
      rw [hlength]

theorem verifiedRow_units (h : CompiledService float serviceId service derived)
    (values : List (Plain F)) (raw : Object F) :
    ∃ owner, ownerUnit serviceId service = some owner ∧
      (verifiedRow serviceId raw (storedEntries (withAccelerators service values))
        (storedEntries derived)).units = statusUnits serviceId service (.scalar (.string owner)) := by
  obtain ⟨r, hr, hruntime⟩ := h.schema.runtime
  obtain ⟨owner, runtimeType, managed, howner, -, -, -, rfl⟩ := derivedRuntime_ok h.derived hr hruntime
  refine ⟨owner, howner, ?_⟩
  show statusUnits serviceId _ ((find "ownerUnit".toList (storedEntries _)).getD _) = _
  rw [find_storedEntries_toList, statusUnits_stored]
  rfl

/-- What the reading of the authority has to do with what was compiled. -/
structure Read (env : Environment F) (data : ByteArray) (text : Text) (document : Object F) : Prop where
  decode : decode data = some text
  parse : env.pipeline.parse text = .ok document

/-- Without a carriage return `status` looks at the compiled document. -/
theorem reportsVerified_iff (hread : Read env data text document) (hplain : '\r' ∉ text)
    (h : Compiled env document normalized services compiled runtime effective)
    (hmem : (serviceId, .object service) ∈ services)
    (hprovenance : provenance = env.sha256 (encode text)) :
    ReportsVerified env (some data) (some (effectiveFile effective provenance)) serviceId service ↔
      LeftAsDesired env.float service := by
  obtain ⟨derived, resolved, hcompiled, hresolved, hentry, hmeta⟩ := h.compiledService hmem
  have hexpected : find serviceId services = some (.object service) :=
    find_of_mem h.dict_services.1 hmem
  have htext : (readText (some data) : Except (EditorError Text) Text) = .ok text := by
    unfold readText
    simp only [hread.decode, universalNewlines_of_notMem hplain]
  obtain ⟨entries, _, hentries, _, _⟩ := find_services_normalize h.normal
  have hload : loadEffectiveValue env.float (some (effectiveFile effective provenance))
      (Editor.revision env.pipeline text) (asObject (find "services".toList normalized)) =
      some ⟨storedEntries compiled, storedEntries runtime⟩ := by
    rw [h.find_desired]
    show loadEffectiveValue env.float _ (env.sha256 (encode text)) services = _
    rw [← hprovenance]
    exact h.load
  have hstatus : status env.pipeline env.float (some data)
      (some (effectiveFile effective provenance)) = .ok (statusRows env.float
        (asObject (find "services".toList normalized))
        ⟨storedEntries compiled, storedEntries runtime⟩ entries) := by
    rw [status_eq htext hread.parse hentries h.normal, hload]
    rfl
  have hservices : asObject (find "services".toList normalized) = services := by
    rw [h.find_desired]
    rfl
  rw [hservices] at hstatus
  have hvalid : ∀ raw : Object F, (statusRow env.float services
      ⟨storedEntries compiled, storedEntries runtime⟩ serviceId raw).verified = true ↔
        LeftAsDesired env.float service := by
    intro raw
    rw [statusRow_verified hexpected, hentry, hmeta, isValidEffectiveService_iff hcompiled,
      eqItems_accelerators hcompiled hresolved]
    exact ⟨fun ⟨⟨haccelerators, hnan⟩, hidle⟩ => ⟨haccelerators, hidle, hnan⟩,
      fun hleft => ⟨⟨hleft.accelerators, hleft.noNan⟩, hleft.idleSeconds⟩⟩
  constructor
  · rintro ⟨rows, hrows, row, hrow, hid, hverified, -⟩
    rw [hstatus] at hrows
    cases hrows
    obtain ⟨serviceId', raw, -, rfl⟩ := mem_rows.mp hrow
    rw [statusRow_id] at hid
    subst hid
    exact (hvalid raw).mp hverified
  · intro hleft
    obtain ⟨raw, ⟨found, hfound, hraw⟩, -⟩ :=
      (isService_normalize h.normal).mp ⟨services, h.find_desired, hmem⟩
    cases hentries.symm.trans hfound
    have hverified := (hvalid raw).mpr hleft
    have hrow : statusRow env.float services ⟨storedEntries compiled, storedEntries runtime⟩
        serviceId raw = verifiedRow serviceId raw
          (storedEntries (withAccelerators service (resolved.flatMap materials)))
          (storedEntries derived) := by
      rw [statusRow_verified hexpected] at hverified
      have hentry' : asObject (find serviceId (storedEntries compiled)) =
          storedEntries (withAccelerators service (resolved.flatMap materials)) := by
        rw [hentry, stored]
        rfl
      have hmeta' : asObject (find serviceId (storedEntries runtime)) = storedEntries derived := by
        rw [hmeta, stored]
        rfl
      unfold statusRow
      simp only [hexpected]
      rw [if_pos hverified]
      show verifiedRow serviceId raw (asObject (find serviceId (storedEntries compiled)))
        (asObject (find serviceId (storedEntries runtime))) = _
      rw [hentry', hmeta']
    refine ⟨_, hstatus, _, mem_rows.mpr ⟨serviceId, raw, hraw, rfl⟩, statusRow_id, hverified, ?_⟩
    rw [hrow]
    exact ⟨rfl, verifiedRow_units hcompiled _ raw⟩

/-- With a carriage return `status` looks at nothing. -/
theorem not_reportsVerified (hdecode : decode data = some text)
    (hne : provenance ≠ env.sha256 (encode (universalNewlines text))) :
    ¬ ReportsVerified env (some data) (some (effectiveFile effective provenance)) serviceId
      service := by
  rintro ⟨rows, hrows, row, hrow, hid, hverified, -⟩
  obtain ⟨read, document, entries, normalized, hread, -, -, -, rfl⟩ := status_ok hrows
  unfold readText at hread
  simp only [hdecode, Except.ok.injEq] at hread
  subst hread
  have hload : loadEffectiveValue env.float (some (effectiveFile effective provenance))
      (Editor.revision env.pipeline (universalNewlines text))
      (asObject (find "services".toList normalized)) = none := loadEffectiveValue_other hne
  rw [hload] at hrow
  obtain ⟨serviceId', raw, -, rfl⟩ := mem_rows.mp hrow
  rw [Option.getD_none, statusRow_none] at hverified
  cases hverified

theorem encode_decode (h : decode data = some text) : encode text = data := by
  obtain ⟨chars, hchars, rfl⟩ := Option.map_eq_some_iff.mp h
  have hsome : data.utf8Decode?.isSome = true := by rw [hchars]; rfl
  have hencode := ByteArray.utf8Encode_get_utf8Decode? (b := data) (h := hsome)
  simp only [hchars, Option.get_some] at hencode
  exact hencode

theorem compiled_of_compilePathsInner
    (hcompile : compilePathsInner env.pipeline (some data) = .ok (effective, provenance))
    (hdecode : decode data = some text) (hparse : env.pipeline.parse text = .ok document)
    (hschema : ∀ document, env.validateSchema document = .ok () → DocumentSchema env.float document) :
    provenance = env.sha256 (encode text) ∧ ∃ normalized services compiled runtime,
      Compiled env document normalized services compiled runtime effective := by
  unfold compilePathsInner at hcompile
  simp only [hdecode] at hcompile
  obtain ⟨_, hcompiled, hcompile⟩ := bind_ok hcompile
  cases hcompile
  have hvalidated := mapError_ok.mp hcompiled
  have hsteps : compileDocument env.validateSchema env.otherRules document >>=
      env.pipeline.resolve = .ok effective := by
    unfold validateText at hvalidated
    rw [hparse] at hvalidated
    exact hvalidated
  obtain ⟨tree, -, htree⟩ := bind_ok hparse
  refine ⟨?_, compiled_of_ok (dict_parseLoaded env.repr htree) hschema hsteps⟩
  rw [encode_decode hdecode]
  rfl

theorem reportsVerified_compiled_iff
    (hcompile : compilePathsInner env.pipeline (some data) = .ok (effective, provenance))
    (hdecode : decode data = some text) (hparse : env.pipeline.parse text = .ok document)
    (hnormal : normalize document = .ok normalized)
    (hschema : ∀ document, env.validateSchema document = .ok () → DocumentSchema env.float document)
    (hcollision : env.sha256 (encode (universalNewlines text)) = env.sha256 (encode text) →
      encode (universalNewlines text) = encode text)
    (hservice : IsService normalized serviceId service) :
    ReportsVerified env (some data) (some (effectiveFile effective provenance)) serviceId service ↔
      '\r' ∉ text ∧ LeftAsDesired env.float service := by
  obtain ⟨hprovenance, _, services, compiled, runtime, h⟩ :=
    compiled_of_compilePathsInner hcompile hdecode hparse hschema
  cases h.normal.symm.trans hnormal
  obtain ⟨found, hfound, hmem⟩ := hservice
  cases h.find_desired.symm.trans hfound
  by_cases hplain : '\r' ∉ text
  · rw [reportsVerified_iff ⟨hdecode, hparse⟩ hplain h hmem hprovenance]
    exact (and_iff_right hplain).symm
  · -- `status` hashes the text without its carriage returns
    refine iff_of_false (not_reportsVerified hdecode fun heq => hplain ?_) fun hboth =>
      hplain hboth.1
    rw [hprovenance] at heq
    exact universalNewlines_eq_self_iff.mp (encode_injective (hcollision heq.symm))

/-- The status of the compiled authority: a service is verified exactly when the authority has no
carriage return and the compiler left the service as it was desired. -/
theorem verified_iff
    (hcompile : compilePathsInner env.pipeline (some data) = .ok (effective, provenance))
    (hdecode : decode data = some text) (hparse : env.pipeline.parse text = .ok document)
    (hnormal : normalize document = .ok normalized)
    (hschema : ∀ document, env.validateSchema document = .ok () → DocumentSchema env.float document)
    (hcollision : env.sha256 (encode (universalNewlines text)) = env.sha256 (encode text) →
      encode (universalNewlines text) = encode text) :
    (∀ serviceId service, IsService normalized serviceId service →
        ReportsVerified env (some data) (some (effectiveFile effective provenance)) serviceId
          service) ↔
      ∀ serviceId service, IsService normalized serviceId service →
        '\r' ∉ text ∧ LeftAsDesired env.float service := by
  apply forall_congr'
  intro serviceId
  apply forall_congr'
  intro service
  apply forall_congr'
  intro hservice
  exact reportsVerified_compiled_iff hcompile hdecode hparse hnormal hschema hcollision hservice

end Agreement

/-! ### A service without and with a GPU -/

def mediaText (requests : String) : Text :=
  "schemaVersion: 3\nservices:\n  media:\n    name: Media\n    workload: \x7bkind: daemon\x7d\n".toList ++
    "    runtime: \x7btype: systemd, unit: jellyfin.service\x7d\n".toList ++
    "    resources: \x7baccelerators: [".toList ++ requests.toList ++ "]\x7d\n".toList

def gpuText : String := "\x7bkind: gpu\x7d"

def leaf (value : String) : Spec.Tree Empty := .scalar (.string value.toList)

def mappingOf (entries : List (String × Spec.Tree Empty)) : Spec.Tree Empty :=
  .mapping (entries.map fun e ↦ (.string e.1.toList, e.2))

def gpuTree : Spec.Tree Empty := mappingOf [("kind", leaf "gpu")]

def mediaTree (requests : List (Spec.Tree Empty)) : Spec.Tree Empty :=
  mappingOf [("schemaVersion", .scalar (.integer 3)), ("services", mappingOf [("media", mappingOf [
    ("name", leaf "Media"), ("workload", mappingOf [("kind", leaf "daemon")]),
    ("runtime", mappingOf [("type", leaf "systemd"), ("unit", leaf "jellyfin.service")]),
    ("resources", mappingOf [("accelerators", .sequence requests)])])])]

def objectOf (entries : List (String × Plain Empty)) : Object Empty :=
  entries.map fun e ↦ (e.1.toList, e.2)

def jellyfinRuntime : Plain Empty :=
  .object (objectOf [("type", text "systemd"), ("unit", text "jellyfin.service")])

def mediaService (requests : List (Plain Empty)) : Object Empty :=
  objectOf [("name", text "Media"), ("workload", .object (objectOf [("kind", text "daemon")])),
    ("runtime", jellyfinRuntime),
    ("resources", .object (objectOf [("accelerators", .array requests)]))]

def mediaDocument (service : Object Empty) : Object Empty :=
  objectOf [("schemaVersion", number 3), ("services", .object (objectOf [("media", .object service)]))]

def normalizedService (requests : List (Plain Empty)) : Object Empty :=
  objectOf [("name", text "Media"),
    ("workload", .object (objectOf [("kind", text "daemon"), ("activation", text "persistent")])),
    ("runtime", jellyfinRuntime),
    ("resources", .object (objectOf [("accelerators", .array requests)])),
    ("enabled", boolean true), ("managed", boolean true), ("dependencies", .array []),
    ("requiresCapabilities", .array []),
    ("authorization", .object (objectOf [("capabilities", .array [])])),
    ("sandbox", .object (objectOf [("mode", text "inherit")])), ("storage", .array []),
    ("credentials", .array []), ("routes", .object []), ("listeners", .object [])]

def documentDefaults : Object Empty :=
  objectOf [("generation", number 1), ("storageResources", .object []), ("credentials", .object []),
    ("networkProfiles", .object []),
    ("backup", .object (objectOf [("remote", .object (objectOf [("provider", text "local"),
      ("scope", text "config-only"), ("rcloneRemote", text ""), ("rcloneConfigFile", text "")]))]))]

def normalizedDocument (requests : List (Plain Empty)) : Object Empty :=
  mediaDocument (normalizedService requests) ++ documentDefaults

def gpuRequest : Object Empty := objectOf [("kind", text "gpu")]

def noFloats : FloatEq Empty where
  eq x := nomatch x
  eqInt x := nomatch x
  isInteger x := nomatch x
  eq_of_isInteger x := nomatch x

def amdInventory : Object Empty :=
  objectOf [("accelerators", .object (objectOf [("AMD", .object (objectOf [("selectors", .array [
    .object (objectOf [("type", text "device"), ("value", text "/dev/dri/renderD128")])])]))]))]

def mediaDigest (data : ByteArray) : Text :=
  if data = encode (mediaText gpuText) then
    "ed8145c9d3be507e65a321308aaff1e1995a8130860204cebdb531f12a4855af".toList
  else "4ebaf48dbd952e8defa670c6f9a9dc7365bf083a09dda1877f4b63d6e5ee4123".toList

def loadMedia (text : Text) : Except SpecError (Spec.Tree Empty) :=
  if text = mediaText "" then .ok (mediaTree [])
  else if text = mediaText gpuText then .ok (mediaTree [gpuTree])
  else .error ⟨"invalid YAML".toList, ['$'], "yaml-syntax".toList⟩

open Classical in
noncomputable def validateFragment (document : Object Empty) : Except SpecError Unit :=
  if DocumentSchema noFloats document then .ok () else .error ⟨[], ['$'], "schema".toList⟩

noncomputable def mediaEnvironment : Environment Empty where
  float := noFloats
  decimal := Char.isDigit
  sha256 := mediaDigest
  load := loadMedia
  repr := noFloat
  validateSchema := validateFragment
  otherRules _ := .ok ()
  inventory := amdInventory

variable {key : Text} {o service document : Object Empty} {p : Plain Empty → Prop}
  {requests : List (Plain Empty)}

theorem forall_found {v : Plain Empty}
    (hfind : find key o = some v) (h : p v) : ∀ value, find key o = some value → p value := by
  intro value hvalue
  cases hfind.symm.trans hvalue
  exact h

theorem forall_absent (hfind : find key o = none) : ∀ value, find key o = some value → p value := by
  intro value hvalue
  cases hfind.symm.trans hvalue

mutual

theorem noNan_empty : ∀ value : Plain Empty, NoNan noFloats value
  | .scalar (.float x) => nomatch x
  | .scalar (.string _) | .scalar (.integer _) | .scalar (.boolean _) | .scalar .null
  | .scalar (.other _) => trivial
  | .array items => noNanItems_empty items
  | .object o => noNanEntries_empty o

theorem noNanItems_empty : ∀ items : List (Plain Empty), NoNanItems noFloats items
  | [] => trivial
  | item :: items => ⟨noNan_empty item, noNanItems_empty items⟩

theorem noNanEntries_empty : ∀ o : Object Empty, NoNanEntries noFloats o
  | [] => trivial
  | (_, value) :: rest => ⟨noNan_empty value, noNanEntries_empty rest⟩

end

def defaultedRequest : Object Empty := normalizeAccelerator gpuRequest

theorem acceleratorSchema_gpuRequest : AcceleratorSchema noFloats gpuRequest where
  keys := by decide
  kind := rfl
  vendor := nofun
  quantity := nofun
  required := nofun
  mode := nofun
  device := nofun
  target := nofun

theorem acceleratorSchema_defaultedRequest : AcceleratorSchema noFloats defaultedRequest where
  keys := by decide
  kind := rfl
  vendor := by
    rintro _ ⟨⟩
    exact ⟨_, List.mem_cons_self, rfl⟩
  quantity := by
    rintro _ ⟨⟩
    exact .inl (.inl ⟨1, rfl, Int.le_refl 1⟩)
  required := by
    rintro _ ⟨⟩
    exact ⟨false, rfl⟩
  mode := by
    rintro _ ⟨⟩
    exact ⟨_, List.mem_cons_self, rfl⟩
  device := nofun
  target := nofun

theorem runtimeSchema_jellyfin :
    RuntimeSchema (objectOf [("type", text "systemd"), ("unit", text "jellyfin.service")]) where
  type := ⟨"systemd", by decide, rfl⟩
  unit _ := ⟨_, rfl, by decide⟩

theorem documentSchema_mediaDocument (h : ServiceSchema noFloats service) (rest : Object Empty) :
    DocumentSchema noFloats (mediaDocument service ++ rest) where
  schemaVersion := ⟨_, rfl, rfl⟩
  services := ⟨objectOf [("media", .object service)],
    by simp [mediaDocument, objectOf, find_cons], List.forall_mem_singleton.mpr ⟨service, rfl, h⟩⟩

theorem serviceSchema_mediaService
    (h : ∀ item ∈ requests, ∃ a, item = .object a ∧ AcceleratorSchema noFloats a) :
    ServiceSchema noFloats (mediaService requests) where
  enabled := forall_absent (by simp [mediaService, objectOf, find_cons, find_nil])
  managed := forall_absent (by simp [mediaService, objectOf, find_cons, find_nil])
  workload := ⟨_, rfl, ⟨_, List.mem_cons_self, rfl⟩, nofun, nofun, nofun⟩
  runtime := ⟨_, rfl, runtimeSchema_jellyfin⟩
  accelerators r hr := by
    have hresources : find "resources".toList (mediaService requests) =
        some (.object (objectOf [("accelerators", .array requests)])) := by
      simp [mediaService, objectOf, find_cons]
    cases hr.symm.trans hresources
    exact forall_found (v := .array requests) (by simp [objectOf, find_cons]) ⟨_, rfl, h⟩

theorem serviceSchema_normalizedService
    (h : ∀ item ∈ requests, ∃ a, item = .object a ∧ AcceleratorSchema noFloats a) :
    ServiceSchema noFloats (normalizedService requests) where
  enabled := forall_found (v := boolean true) (by simp [normalizedService, objectOf, find_cons]) ⟨true, rfl⟩
  managed := forall_found (v := boolean true) (by simp [normalizedService, objectOf, find_cons]) ⟨true, rfl⟩
  workload := by
    refine ⟨_, rfl, ⟨_, List.mem_cons_self, rfl⟩, ?_, nofun, nofun⟩
    rintro _ ⟨⟩
    exact ⟨_, List.mem_cons_self, rfl⟩
  runtime := ⟨_, rfl, runtimeSchema_jellyfin⟩
  accelerators r hr := by
    have hresources : find "resources".toList (normalizedService requests) =
        some (.object (objectOf [("accelerators", .array requests)])) := by
      simp [normalizedService, objectOf, find_cons]
    cases hr.symm.trans hresources
    exact forall_found (v := .array requests) (by simp [objectOf, find_cons]) ⟨_, rfl, h⟩

theorem validateFragment_ok :
    validateFragment document = .ok () ↔ DocumentSchema noFloats document := by
  unfold validateFragment
  split
  · exact iff_of_true rfl ‹_›
  · exact iff_of_false nofun ‹_›

theorem compileDocument_sample {normalized : Object Empty}
    (hdocument : DocumentSchema noFloats document) (hnormal : normalize document = .ok normalized)
    (hnormalized : DocumentSchema noFloats normalized) :
    compileDocument validateFragment (fun _ ↦ .ok ()) document =
      semanticValidate (fun _ ↦ .ok ()) normalized >>= fun _ ↦
        (buildEffective normalized).mapError Malformed.asError := by
  unfold compileDocument
  rw [validateFragment_ok.mpr hdocument, hnormal]
  show (validateFragment normalized >>= _) = _
  rw [validateFragment_ok.mpr hnormalized]
  rfl

theorem exists_compiled {requests : String} {raw defaulted : List (Plain Empty)}
    (hparse : mediaEnvironment.pipeline.parse (mediaText requests) =
      .ok (mediaDocument (mediaService raw)))
    (hnormal : normalize (mediaDocument (mediaService raw)) = .ok (normalizedDocument defaulted))
    (hraw : ∀ item ∈ raw, ∃ a, item = .object a ∧ AcceleratorSchema noFloats a)
    (hdefaulted : ∀ item ∈ defaulted, ∃ a, item = .object a ∧ AcceleratorSchema noFloats a)
    (hsteps : isOk ((semanticValidate (fun _ ↦ .ok ()) (normalizedDocument defaulted) >>= fun _ ↦
      (buildEffective (normalizedDocument defaulted)).mapError Malformed.asError) >>=
        mediaEnvironment.pipeline.resolve) = true) :
    ∃ effective, compilePathsInner mediaEnvironment.pipeline (some (encode (mediaText requests))) =
      .ok (effective, mediaDigest (encode (mediaText requests))) := by
  obtain ⟨effective, heffective⟩ := exists_of_isOk hsteps
  have hcompile := compileDocument_sample
    (documentSchema_mediaDocument (serviceSchema_mediaService hraw) (objectOf [])) hnormal
    (documentSchema_mediaDocument (serviceSchema_normalizedService hdefaulted) _)
  have h : (validateText mediaEnvironment.pipeline (mediaText requests) >>=
      mediaEnvironment.pipeline.resolve) = .ok effective := by
    unfold validateText
    rw [hparse]
    show compileDocument validateFragment (fun _ ↦ .ok ()) _ >>= _ = _
    rw [← heffective]
    exact congrArg (· >>= mediaEnvironment.pipeline.resolve) hcompile
  refine ⟨effective, ?_⟩
  unfold compilePathsInner
  simp only [decode_encode]
  rw [h]
  rfl

theorem parse_of_load {t : Text} {tree : Spec.Tree Empty}
    (hload : loadMedia t = .ok tree) (htree : parseLoaded noFloat tree = .ok document) :
    mediaEnvironment.pipeline.parse t = .ok document := by
  show loadMedia t >>= parseLoaded noFloat = _
  rw [hload]
  exact htree

theorem parse_empty : mediaEnvironment.pipeline.parse (mediaText "") =
    .ok (mediaDocument (mediaService [])) := by
  apply parse_of_load (t := mediaText "")
  · exact if_pos rfl
  · rfl

theorem parse_gpu : mediaEnvironment.pipeline.parse (mediaText gpuText) =
    .ok (mediaDocument (mediaService [.object gpuRequest])) := by
  have hne : mediaText gpuText ≠ mediaText "" := by
    intro heq
    have hrequests := List.append_cancel_left (List.append_cancel_right heq)
    exact absurd hrequests (by decide)
  apply parse_of_load (t := mediaText gpuText)
  · exact (if_neg hne).trans (if_pos rfl)
  · rfl

theorem normalize_empty :
    normalize (mediaDocument (mediaService [])) = .ok (normalizedDocument []) := by rfl

theorem normalize_gpu : normalize (mediaDocument (mediaService [.object gpuRequest])) =
    .ok (normalizedDocument [.object defaultedRequest]) := by rfl

theorem exists_compiled_empty :
    ∃ effective, compilePathsInner mediaEnvironment.pipeline (some (encode (mediaText ""))) =
      .ok (effective, mediaDigest (encode (mediaText ""))) :=
  exists_compiled parse_empty normalize_empty (List.forall_mem_nil _) (List.forall_mem_nil _)
    (by rfl)

theorem exists_compiled_gpu :
    ∃ effective, compilePathsInner mediaEnvironment.pipeline (some (encode (mediaText gpuText))) =
      .ok (effective, mediaDigest (encode (mediaText gpuText))) := by
  apply exists_compiled parse_gpu normalize_gpu
  · exact List.forall_mem_singleton.mpr ⟨_, rfl, acceleratorSchema_gpuRequest⟩
  · exact List.forall_mem_singleton.mpr ⟨_, rfl, acceleratorSchema_defaultedRequest⟩
  · decide +kernel

theorem notMem_mediaText {requests : String} (h : '\r' ∉ requests.toList) :
    '\r' ∉ mediaText requests := by
  unfold mediaText
  intro hmem
  obtain ((((hmem | hmem) | hmem) | hmem) | hmem) := by simpa only [List.mem_append] using hmem
  · exact notMem_literal (by decide) hmem
  · exact notMem_literal (by decide) hmem
  · exact notMem_literal (by decide) hmem
  · exact h hmem
  · exact notMem_literal (by decide) hmem

theorem collision_mediaText {requests : String} (h : '\r' ∉ mediaText requests) :
    mediaEnvironment.sha256 (encode (universalNewlines (mediaText requests))) =
        mediaEnvironment.sha256 (encode (mediaText requests)) →
      encode (universalNewlines (mediaText requests)) = encode (mediaText requests) :=
  fun _ => congrArg encode (universalNewlines_eq_self_iff.mpr h)

theorem isService_normalizedDocument {serviceId : Text}
    : IsService (normalizedDocument requests) serviceId service ↔
      serviceId = "media".toList ∧ service = normalizedService requests := by
  have hservices : find "services".toList (normalizedDocument requests) =
      some (.object [("media".toList, .object (normalizedService requests))]) := by
    simp [normalizedDocument, mediaDocument, objectOf, find_cons]
  constructor
  · rintro ⟨services, hfind, hmem⟩
    cases hservices.symm.trans hfind
    cases List.mem_singleton.mp hmem
    exact ⟨rfl, rfl⟩
  · rintro ⟨rfl, rfl⟩
    exact ⟨_, hservices, List.mem_singleton.mpr rfl⟩

theorem accelerators_normalizedService (requests : List (Plain Empty)) :
    accelerators (normalizedService requests) = requests := by
  simp [accelerators, asObject, asArray, normalizedService, objectOf, find_cons]

theorem leftAsDesired_media : LeftAsDesired noFloats (normalizedService []) where
  accelerators := by
    refine .inr fun request hrequest => ?_
    rw [accelerators_normalizedService] at hrequest
    cases hrequest
  idleSeconds w hw hondemand := by
    have hworkload : find "workload".toList (normalizedService []) = some (.object
        (objectOf [("kind", text "daemon"), ("activation", text "persistent")])) := by
      simp [normalizedService, objectOf, find_cons]
    cases hworkload.symm.trans hw
    exact absurd hondemand (by decide)
  noNan := noNan_empty _

/-- Without a request the service is verified. -/
theorem verified_iff_media : ∃ effective,
    compilePathsInner mediaEnvironment.pipeline (some (encode (mediaText ""))) =
        .ok (effective, mediaDigest (encode (mediaText ""))) ∧
      ∀ serviceId service, IsService (normalizedDocument []) serviceId service →
        ReportsVerified mediaEnvironment (some (encode (mediaText "")))
          (some (effectiveFile effective (mediaDigest (encode (mediaText ""))))) serviceId service := by
  obtain ⟨effective, hcompile⟩ := exists_compiled_empty
  have hplain : '\r' ∉ mediaText "" := notMem_mediaText List.not_mem_nil
  refine ⟨effective, hcompile, ?_⟩
  apply (verified_iff hcompile (decode_encode _) parse_empty normalize_empty
    (fun _ => validateFragment_ok.mp) (collision_mediaText hplain)).mpr
  intro serviceId service hservice
  obtain ⟨-, rfl⟩ := isService_normalizedDocument.mp hservice
  exact ⟨hplain, leftAsDesired_media⟩

/-- A GPU that is found replaces the request, and the service is not verified. -/
theorem not_verified_gpu :
    ¬ ∀ (env : Environment Empty) (data : ByteArray) (text provenance : Text)
        (document normalized effective : Object Empty),
      compilePathsInner env.pipeline (some data) = .ok (effective, provenance) →
      decode data = some text → env.pipeline.parse text = .ok document →
      normalize document = .ok normalized →
      (∀ document, env.validateSchema document = .ok () → DocumentSchema env.float document) →
      (env.sha256 (encode (universalNewlines text)) = env.sha256 (encode text) →
        encode (universalNewlines text) = encode text) →
      ∀ serviceId service, IsService normalized serviceId service →
        ReportsVerified env (some data) (some (effectiveFile effective provenance)) serviceId
          service := by
  intro hverified
  obtain ⟨effective, hcompile⟩ := exists_compiled_gpu
  have hplain : '\r' ∉ mediaText gpuText := notMem_mediaText (notMem_literal (by decide))
  have hservice : IsService (normalizedDocument [.object defaultedRequest]) "media".toList
      (normalizedService [.object defaultedRequest]) := isService_normalizedDocument.mpr ⟨rfl, rfl⟩
  have hreports := hverified _ _ _ _ _ _ effective hcompile (decode_encode _) parse_gpu normalize_gpu
    (fun _ => validateFragment_ok.mp) (collision_mediaText hplain) _ _ hservice
  have hleft := (reportsVerified_compiled_iff hcompile (decode_encode _) parse_gpu normalize_gpu
    (fun _ => validateFragment_ok.mp) (collision_mediaText hplain) hservice).mp hreports
  obtain hvm | hmaterial := hleft.2.accelerators
  · exact absurd hvm (by decide)
  · obtain ⟨r, device, ⟨⟩, hdevice, -⟩ := hmaterial (.object defaultedRequest) (by
      rw [accelerators_normalizedService]
      exact List.mem_cons_self)
    have hnone : find "device".toList defaultedRequest = none := by decide
    cases hnone.symm.trans hdevice

end NixNas.Editor
