import NixNas.Accelerator.Candidates
import NixNas.Accelerator.Probe
import NixNas.Lib.Association
import Mathlib.Data.List.Dedup

/-!
# What the resolver reads out of an inventory

Each GPU of the machine is offered as its nodes and, with CDI, under one published name.  The
resolver reads both, and takes them for one device.
-/

open Fallible

namespace NixNas.Accelerator

open Spec

variable {F : Type}
variable {n m : ℕ} {identities : List (ℕ × Text)} {host : Host} {values : List Text} {value : Text}

/-! ## Numbers and UUIDs -/

theorem isDigit_of_mem_toDigits {c : Char} (h : c ∈ Nat.toDigits 10 n) :
    c.isDigit = true := Nat.isDigit_of_mem_toDigits (by decide) (by decide) h

theorem toDigits_injective (h : Nat.toDigits 10 m = Nat.toDigits 10 n) : m = n := by
  have hvalue := congrArg (fun digits ↦ Nat.ofDigitChars 10 digits 0) h
  rwa [Nat.ofDigitChars_ten_toDigits, Nat.ofDigitChars_ten_toDigits] at hvalue

def indexName (index : ℕ) : Text := cdiName (Nat.toDigits 10 index)

theorem indexName_injective (h : indexName m = indexName n) : m = n :=
  toDigits_injective (List.append_cancel_left h)

theorem gpuNode_injective (h : gpuNode m = gpuNode n) : m = n :=
  toDigits_injective (List.append_cancel_left h)

theorem isUuid_spec {uuid : Text} (h : isUuid uuid = true) :
    ∃ rest, uuid = "GPU-".toList ++ rest ∧ rest ≠ [] ∧
      ∀ c ∈ rest, c = '-' ∨ isHexDigit c = true := by
  have hjoin : Segments.join '-' (uuid.splitOn '-') = '-' :: uuid := Segments.join_splitOn uuid
  unfold isUuid at h
  split at h
  · cases h
  rename_i first groups hsplit
  rw [Bool.and_eq_true, Bool.and_eq_true, decide_eq_true_iff, decide_eq_true_iff] at h
  obtain ⟨⟨hfirst, hlengths⟩, hgroups⟩ := h
  cases groups with
  | nil => cases hlengths
  | cons group groups =>
    rw [List.map_cons, List.cons.injEq] at hlengths
    rw [hsplit, hfirst] at hjoin
    refine ⟨group ++ Segments.join '-' groups, (List.cons.inj hjoin).2.symm, ?_, ?_⟩
    · intro hnil
      rw [(List.append_eq_nil_iff.mp hnil).1] at hlengths
      cases hlengths.1
    · have hhex : ∀ g ∈ group :: groups, ∀ c ∈ g, isHexDigit c = true := fun g hg c hc =>
        List.all_eq_true.mp (List.all_eq_true.mp hgroups g hg) c hc
      intro c hc
      rcases List.mem_append.mp hc with hc | hc
      · exact .inr (hhex group List.mem_cons_self c hc)
      obtain ⟨g, hg, hc⟩ := List.mem_flatMap.mp hc
      rcases List.mem_cons.mp hc with rfl | hc
      · exact .inl rfl
      · exact .inr (hhex g (List.mem_cons_of_mem group hg) c hc)

/-- The driver names each minor and each UUID once. -/
structure Identities (identities : List (ℕ × Text)) : Prop where
  nodup_minors : (identities.map Prod.fst).Nodup
  nodup_uuids : (identities.map Prod.snd).Nodup
  bounded : ∀ entry ∈ identities, entry.1 ≤ 254 ∧ isUuid entry.2 = true

theorem gpuIdentity_spec {content : Text} {found : ℕ × Text} (h : gpuIdentity content = some found) :
    found.1 ≤ 254 ∧ isUuid found.2 = true := by
  unfold gpuIdentity at h
  dsimp only at h
  split at h
  · split at h
    · rename_i hcheck
      cases h
      rw [Bool.and_eq_true, decide_eq_true_iff] at hcheck
      exact ⟨hcheck.2, hcheck.1⟩
    · cases h
  · cases h

theorem nvidiaGpuUuidsByMinor_spec {information : List (Option Text)}
    (h : nvidiaGpuUuidsByMinor information = .ok identities) : Identities identities := by
  unfold nvidiaGpuUuidsByMinor at h
  refine foldlM_invariant (P := Identities) h ⟨List.nodup_nil, List.nodup_nil, nofun⟩ ?_
  intro found hfound identities identities' hold h
  obtain ⟨hminor, h⟩ := guard_ok h
  obtain ⟨huuid, h⟩ := guard_ok h
  cases h
  obtain ⟨content, -, hcontent⟩ := List.mem_filterMap.mp hfound
  obtain ⟨written, -, hwritten⟩ := Option.bind_eq_some_iff.mp hcontent
  constructor
  · rw [List.map_append]
    exact nodup_concat hold.nodup_minors hminor
  · rw [List.map_append]
    exact nodup_concat hold.nodup_uuids huuid
  · intro entry hentry
    rcases List.mem_append.mp hentry with hentry | hentry
    · exact hold.bounded entry hentry
    · rw [List.mem_singleton.mp hentry]
      exact gpuIdentity_spec hwritten

/-! ## Paths beneath `/dev` -/

theorem devicePath_join {rest : List Text} (hne : rest ≠ [])
    (hrest : ∀ s ∈ rest, '/' ∉ s ∧ s ≠ [] ∧ s ≠ ['.'] ∧ s ≠ "..".toList) :
    devicePath ("/dev".toList ++ Segments.join '/' rest) =
      some ("/dev".toList ++ Segments.join '/' rest) := by
  have hwhole : "/dev".toList ++ Segments.join '/' rest =
      Segments.join '/' ("dev".toList :: rest) := by
    rw [Segments.join_cons]
    rfl
  have hall : ∀ s ∈ "dev".toList :: rest, '/' ∉ s ∧ s ≠ [] ∧ s ≠ ['.'] ∧ s ≠ "..".toList := by
    rw [List.forall_mem_cons]
    exact ⟨by decide, hrest⟩
  have hparts : pathParts ("/dev".toList ++ Segments.join '/' rest) = "dev".toList :: rest := by
    unfold pathParts
    rw [hwhole, Segments.segments_join (fun s hs => (hall s hs).1) fun s hs => (hall s hs).2.1]
    apply List.filter_eq_self.mpr
    intro s hs
    exact decide_eq_true (hall s hs).2.2.1
  cases rest with
  | nil => exact (hne rfl).elim
  | cons first rest =>
    have habsolute : absolutePath ("/dev".toList ++ Segments.join '/' (first :: rest)) =
        "/dev".toList ++ Segments.join '/' (first :: rest) := by
      unfold absolutePath
      rw [hparts]
      show ['/'] ++ ['/'].intercalate ("dev".toList :: first :: rest) = _
      rw [hwhole]
      exact Segments.cons_intercalate _ _
    unfold devicePath
    rw [hparts, habsolute]
    have hdots : ("dev".toList :: first :: rest).contains "..".toList = false := by
      rw [Bool.eq_false_iff]
      intro hmem
      exact (hall _ (List.contains_iff_mem.mp hmem)).2.2.2 rfl
    rw [hdots]
    rfl

theorem devicePath_gpuNode (minor : ℕ) : devicePath (gpuNode minor) = some (gpuNode minor) := by
  have hjoin : gpuNode minor =
      "/dev".toList ++ Segments.join '/' ["nvidia".toList ++ Nat.toDigits 10 minor] := by
    rw [Segments.join_cons, Segments.join_nil, List.append_nil]
    rfl
  rw [hjoin]
  apply devicePath_join (List.cons_ne_nil _ _)
  rw [List.forall_mem_singleton]
  refine ⟨?_, ?_, ?_, ?_⟩
  · intro h
    rcases List.mem_append.mp h with h | h
    · exact absurd h (by decide)
    · exact absurd (isDigit_of_mem_toDigits h) (by decide)
  all_goals
    intro h
    cases h

theorem devicePath_device (node : RenderNode) : devicePath node.device = some node.device := by
  have hjoin : node.device = "/dev".toList ++ Segments.join '/' ["dri".toList, node.name] := by
    rw [Segments.join_cons, Segments.join_cons, Segments.join_nil, List.append_nil]
    rfl
  obtain ⟨rest, hrest⟩ := List.isPrefixOf_iff_prefix.mp node.isRender
  rw [hjoin]
  apply devicePath_join (List.cons_ne_nil _ _)
  rw [List.forall_mem_cons, List.forall_mem_singleton]
  refine ⟨by decide, node.isSegment, ?_, ?_, ?_⟩
  all_goals
    intro h
    rw [← hrest] at h
    cases h

theorem devicePath_shared {path : Text} (h : path ∈ host.sharedNvidia) :
    devicePath path = some path := by
  obtain ⟨name, hname, rfl⟩ := List.mem_map.mp h
  have hall : ∀ name ∈ sharedNodes,
      devicePath ("/dev/".toList ++ name) = some ("/dev/".toList ++ name) := by decide
  exact hall name (List.mem_filter.mp hname).1

/-! ## Selectors -/

theorem devicePaths_strings {found : List Text} (hpath : ∀ v ∈ values, devicePath v = some v)
    (hnodup : (found ++ values).Nodup) :
    devicePaths found (values.map fun v ↦ (.scalar (.string v) : Plain F)) =
      some (found ++ values) := by
  induction values generalizing found with
  | nil =>
    rw [List.append_nil]
    rfl
  | cons v values ih =>
    rw [List.forall_mem_cons] at hpath
    have hnew : v ∉ found := by
      intro hold
      exact (List.nodup_append.mp hnodup).2.2 v hold v List.mem_cons_self rfl
    rw [List.map_cons, devicePaths, hpath.1]
    dsimp only
    rw [if_neg hnew, ih hpath.2]
    · rw [List.append_assoc]
      rfl
    · rw [List.append_assoc]
      exact hnodup

theorem selector_devices (hne : values ≠ [])
    (hpath : ∀ v ∈ values, devicePath v = some v) (hnodup : values.Nodup) :
    selector (some (Selector.devices values).toPlain : Option (Plain F)) =
      some (.devices values) := by
  have hpaths : devicePaths [] (values.map fun v ↦ (.scalar (.string v) : Plain F)) = some values :=
    devicePaths_strings hpath hnodup
  cases values with
  | nil => exact (hne rfl).elim
  | cons v values =>
    show (devicePaths [] ((v :: values).map fun v ↦ (.scalar (.string v) : Plain F))).map
      Selector.devices = _
    rw [hpaths]
    rfl

theorem selector_cdi (h : isCdiSelector value = true) :
    selector (some (Selector.cdi value).toPlain : Option (Plain F)) = some (.cdi value) := by
  unfold selector Selector.toPlain
  simp [keyIs, find, List.lookup_cons, isText, text, h]

theorem cdiParts_cdiName {name : Text} (hslash : '/' ∉ name) (hequals : '=' ∉ name) :
    cdiParts (cdiName name) = some ("nvidia.com".toList, "gpu".toList, name) := by
  have hprovider : (cdiName name).splitOn '/' = ["nvidia.com".toList, "gpu=".toList ++ name] := by
    have hfree : '/' ∉ "gpu=".toList ++ name := by
      rw [List.mem_append, not_or]
      exact ⟨by decide, hslash⟩
    rw [← Segments.splitOn_append_join "nvidia.com".toList (by decide)
      (List.forall_mem_singleton.mpr hfree), Segments.join_cons, Segments.join_nil, List.append_nil]
    rfl
  have hkind : ("gpu=".toList ++ name).splitOn '=' = ["gpu".toList, name] := by
    rw [← Segments.splitOn_append_join "gpu".toList (by decide)
      (List.forall_mem_singleton.mpr hequals), Segments.join_cons, Segments.join_nil,
      List.append_nil]
    rfl
  unfold cdiParts
  rw [hprovider]
  dsimp only
  rw [hkind]

inductive Named (identities : List (ℕ × Text)) (minor : ℕ) : Text → Prop where
  | index : Named identities minor (Nat.toDigits 10 minor)
  | uuid {uuid : Text} (h : identities.lookup minor = some uuid) : Named identities minor uuid

theorem publishedName_named {capabilities : List (Text × Bool)} {minor : ℕ}
    (h : publishedName capabilities host identities minor = some value) :
    ∃ name, Named identities minor name ∧ value = cdiName name := by
  unfold publishedName at h
  split at h
  swap
  · cases h
  have hmem : value ∈ (identities.lookup minor).toList.map cdiName ++
      [cdiName (Nat.toDigits 10 minor)] := by
    unfold nvidiaCdiName at h
    dsimp only at h
    split at h
    · exact List.mem_of_head? h
    · exact List.mem_of_find?_eq_some h
  rcases List.mem_append.mp hmem with hmem | hmem
  · obtain ⟨uuid, huuid, rfl⟩ := List.mem_map.mp hmem
    exact ⟨uuid, .uuid (Option.mem_toList.mp huuid), rfl⟩
  · exact ⟨_, .index, List.mem_singleton.mp hmem⟩

section

variable {minor : ℕ} {name : Text}

theorem isAlphanum_of_isHexDigit {c : Char} (h : isHexDigit c = true) : c.isAlphanum = true := by
  unfold isHexDigit at h
  simp only [Bool.or_eq_true, Bool.and_eq_true, decide_eq_true_iff] at h
  unfold Char.isAlphanum Char.isAlpha Char.isUpper Char.isLower
  simp only [Bool.or_eq_true, Bool.and_eq_true, decide_eq_true_iff]
  have hlower : 'f'.val ≤ 'z'.val := by decide
  have hupper : 'F'.val ≤ 'Z'.val := by decide
  rcases h with (hdigit | hlow) | hup
  · exact .inr hdigit
  · exact .inl (.inr ⟨hlow.1, le_trans hlow.2 hlower⟩)
  · exact .inl (.inl ⟨hup.1, le_trans hup.2 hupper⟩)

theorem Named.chars (hidentities : Identities identities) (h : Named identities minor name) :
    ∃ c rest, name = c :: rest ∧ c.isAlphanum = true ∧
      ∀ d ∈ rest, d.isAlphanum = true ∨ d = '-' := by
  cases h with
  | index =>
    cases hdigits : Nat.toDigits 10 minor with
    | nil => exact absurd hdigits Nat.toDigits_ne_nil
    | cons c rest =>
      have hall : ∀ d ∈ c :: rest, d.isAlphanum = true := by
        intro d hd
        rw [← hdigits] at hd
        unfold Char.isAlphanum
        rw [isDigit_of_mem_toDigits hd, Bool.or_true]
      exact ⟨c, rest, rfl, hall c List.mem_cons_self,
        fun d hd => .inl (hall d (List.mem_cons_of_mem c hd))⟩
  | uuid h =>
    have huuid := (hidentities.bounded _ (Association.mem_of_lookup h)).2
    obtain ⟨rest, rfl, -, hrest⟩ := isUuid_spec huuid
    refine ⟨'G', _, rfl, by decide, fun d hd => ?_⟩
    have hd : d ∈ "PU-".toList ++ rest := hd
    rcases List.mem_append.mp hd with hd | hd
    · have hall : ∀ d ∈ "PU-".toList, d.isAlphanum = true ∨ d = '-' :=
        Fallible.forall_mem_of_all (by decide)
      exact hall d hd
    · rcases hrest d hd with hd | hd
      · exact .inr hd
      · exact .inl (isAlphanum_of_isHexDigit hd)

theorem Named.free (hidentities : Identities identities) (h : Named identities minor name) :
    '/' ∉ name ∧ '=' ∉ name := by
  obtain ⟨c, rest, rfl, hc, hrest⟩ := h.chars hidentities
  have hall : ∀ d ∈ c :: rest, d.isAlphanum = true ∨ d = '-' :=
    List.forall_mem_cons.mpr ⟨.inl hc, hrest⟩
  constructor
  · intro hd
    exact absurd (hall _ hd) (by decide)
  · intro hd
    exact absurd (hall _ hd) (by decide)

theorem Named.isCdiSelector (hidentities : Identities identities) (h : Named identities minor name) :
    isCdiSelector (cdiName name) = true := by
  have hfree := h.free hidentities
  obtain ⟨c, rest, rfl, hc, hrest⟩ := h.chars hidentities
  unfold Accelerator.isCdiSelector
  rw [cdiParts_cdiName hfree.1 hfree.2]
  have hname : isName [':'] (c :: rest) = true := by
    show (c.isAlphanum && rest.all _) = true
    rw [hc, Bool.true_and, List.all_eq_true]
    intro d hd
    rcases hrest d hd with hd | rfl
    · unfold isAlphanumeric
      rw [hd, Bool.true_or]
    · decide
  dsimp only
  rw [hname]
  decide

end

/-! ## The device behind a selector -/

/-- What the pattern for digits matches in a text of ASCII. -/
def AsciiDecimal (decimal : Char → Bool) : Prop :=
  ∀ c : Char, c.toNat < 128 → decimal c = c.isDigit

section

variable {decimal : Char → Bool} {minors : List (Text × Text)} {minor : ℕ}

theorem AsciiDecimal.toDigits (hdecimal : AsciiDecimal decimal) :
    (Nat.toDigits 10 minor).all decimal = true := by
  rw [List.all_eq_true]
  intro c hc
  have hdigit := isDigit_of_mem_toDigits hc
  have hascii : c.toNat < 128 := by
    have hbound : c.val ≤ '9'.val := by
      unfold Char.isDigit at hdigit
      rw [Bool.and_eq_true, decide_eq_true_iff, decide_eq_true_iff] at hdigit
      exact hdigit.2
    have hnat : c.val.toNat ≤ '9'.val.toNat := hbound
    have hnine : '9'.val.toNat = 57 := by decide
    show c.val.toNat < 128
    omega
  rw [hdecimal c hascii, hdigit]

theorem physicalIdentity_index (hdecimal : AsciiDecimal decimal) :
    physicalIdentity decimal minors (.cdi (indexName minor)) =
      "gpu:".toList ++ Nat.toDigits 10 minor := by
  have hfree : '/' ∉ Nat.toDigits 10 minor ∧ '=' ∉ Nat.toDigits 10 minor := by
    constructor
    · exact fun h => absurd (isDigit_of_mem_toDigits h) (by decide)
    · exact fun h => absurd (isDigit_of_mem_toDigits h) (by decide)
  unfold physicalIdentity indexName
  dsimp only
  rw [cdiParts_cdiName hfree.1 hfree.2]
  dsimp only
  rw [if_pos]
  rw [hdecimal.toDigits, Bool.and_true, Bool.and_eq_true, decide_eq_true_iff]
  exact ⟨by decide, Nat.toDigits_ne_nil⟩

theorem physicalIdentity_uuid (hdecimal : AsciiDecimal decimal) {uuid : Text}
    (huuid : isUuid uuid = true) (hfree : '/' ∉ uuid ∧ '=' ∉ uuid)
    (hlookup : minors.lookup uuid = some (Nat.toDigits 10 minor)) :
    physicalIdentity decimal minors (.cdi (cdiName uuid)) =
      "gpu:".toList ++ Nat.toDigits 10 minor := by
  obtain ⟨rest, hrest, -, -⟩ := isUuid_spec huuid
  have hletter : uuid.all decimal = false := by
    rw [hrest]
    show (decimal 'G' && _) = false
    rw [hdecimal 'G' (by decide)]
    rfl
  unfold physicalIdentity
  dsimp only
  rw [cdiParts_cdiName hfree.1 hfree.2]
  dsimp only
  rw [hletter, Bool.and_false, if_neg Bool.false_ne_true, if_pos ⟨rfl, rfl⟩, hlookup]

theorem physicalIdentity_node (hdecimal : AsciiDecimal decimal) (shared : List Text) :
    physicalIdentity decimal minors (.devices (gpuNode minor :: shared)) =
      "gpu:".toList ++ Nat.toDigits 10 minor := by
  have hminor : nvidiaMinor decimal (gpuNode minor) = some (Nat.toDigits 10 minor) := by
    have hdrop : (gpuNode minor).drop "/dev/nvidia".toList.length = Nat.toDigits 10 minor :=
      List.drop_left
    have hstem : "/dev/nvidia".toList.isPrefixOf (gpuNode minor) = true :=
      List.isPrefixOf_iff_prefix.mpr (List.prefix_append _ _)
    unfold nvidiaMinor
    dsimp only
    rw [hdrop, hstem, hdecimal.toDigits, Bool.and_true, Bool.true_and, if_pos]
    rw [decide_eq_true_iff]
    exact Nat.toDigits_ne_nil
  unfold physicalIdentity
  dsimp only
  rw [List.findSome?_cons, hminor]

theorem physicalIdentity_device (node : RenderNode) :
    physicalIdentity decimal minors (.devices [node.device]) = "devices:".toList ++ node.device := by
  have hminor : nvidiaMinor decimal node.device = none := by
    unfold nvidiaMinor
    apply if_neg
    rw [Bool.and_eq_true, Bool.and_eq_true]
    rintro ⟨⟨hstem, -⟩, -⟩
    cases hstem
  unfold physicalIdentity
  dsimp only
  rw [List.findSome?_cons, hminor]
  dsimp only [List.findSome?_nil]
  rw [List.intercalate_singleton]

end

section

variable {capabilities : List (Text × Bool)}

theorem find_selectors (vendor : String) :
    find "selectors".toList (vendorObject capabilities host identities vendor : Object F) =
      some (.array ((vendorOffers capabilities host identities vendor.toList).map
        Selector.toPlain)) := rfl

theorem filterMap_minors {entries : List (ℕ × Text)} (h : ∀ e ∈ entries, e.1 ≤ 254) :
    (entries.map fun e ↦ (e.2, (number e.1 : Plain F))).filterMap (fun entry ↦
      match entry.2 with
      | .scalar (.integer minor) =>
        if 0 ≤ minor ∧ minor ≤ 254 then some (entry.1, (Int.repr minor).toList) else none
      | _ => none) = entries.map fun e ↦ (e.2, Nat.toDigits 10 e.1) := by
  induction entries with
  | nil => rfl
  | cons e entries ih =>
    rw [List.forall_mem_cons] at h
    have hbound : 0 ≤ (e.1 : ℤ) ∧ (e.1 : ℤ) ≤ 254 := by
      have hle := h.1
      omega
    rw [List.map_cons, List.map_cons, ← ih h.2]
    apply List.filterMap_cons_some
    show (if 0 ≤ (e.1 : ℤ) ∧ (e.1 : ℤ) ≤ 254 then some (e.2, (Int.repr e.1).toList) else none) = _
    rw [if_pos hbound]
    show some (e.2, (Nat.repr e.1).toList) = _
    rw [Nat.toList_repr]

theorem minorByUuid_lookup (hidentities : Identities identities) {entry : ℕ × Text}
    (h : entry ∈ identities) :
    (minorByUuid (vendorObject capabilities host identities "NVIDIA" : Object F)).lookup entry.2 =
      some (Nat.toDigits 10 entry.1) := by
  let sorted := identities.insertionSort fun a b ↦ a.1 ≤ b.1
  have hperm : sorted.Perm identities := List.perm_insertionSort _ _
  have hfind : find "minorByUuid".toList
      (vendorObject capabilities host identities "NVIDIA" : Object F) =
        some (.object (sorted.map fun e ↦ (e.2, number e.1))) := by
    unfold vendorObject nvidiaEntries
    dsimp only
    rw [if_pos rfl, if_neg (List.ne_nil_of_mem h)]
    rfl
  unfold minorByUuid
  rw [hfind]
  have hminors := filterMap_minors (F := F) fun e he =>
    (hidentities.bounded e (hperm.mem_iff.mp he)).1
  refine (congrArg (List.lookup entry.2) hminors).trans ?_
  apply Association.lookup_of_mem
  · rw [List.map_map]
    exact (hperm.map Prod.snd).nodup_iff.mpr hidentities.nodup_uuids
  · exact List.mem_map.mpr ⟨entry, hperm.mem_iff.mpr h, rfl⟩

end

/-! ## The offers -/

/-- A GPU, known by the minor of the NVIDIA driver or by its render node. -/
inductive Gpu where
  | nvidia (minor : ℕ)
  | render (device : Text)
  deriving DecidableEq, Repr

/-- What the resolver takes for the identity of the GPU. -/
def Gpu.identity : Gpu → Text
  | .nvidia minor => "gpu:".toList ++ Nat.toDigits 10 minor
  | .render device => "devices:".toList ++ device

theorem Gpu.identity_injective {gpu gpu' : Gpu} (h : gpu.identity = gpu'.identity) : gpu = gpu' := by
  cases gpu with
  | nvidia minor =>
    cases gpu' with
    | nvidia minor' => rw [toDigits_injective (List.append_cancel_left h)]
    | render => cases h
  | render device =>
    cases gpu' with
    | nvidia => cases h
    | render device' =>
      have hdevice : device = device' := List.append_cancel_left h
      rw [hdevice]

section

variable (capabilities : List (Text × Bool)) (host : Host) (identities : List (ℕ × Text))

def Host.gpus (vendor : Text) : List Gpu :=
  if vendor = "NVIDIA".toList ∧ host.minors ≠ [] then host.minors.map .nvidia
  else (host.drm vendor).map fun node ↦ .render node.device

/-- The nodes of a GPU, with the ones that all GPUs of its driver share. -/
def nodeSelector : Gpu → Selector
  | .nvidia minor => .devices (gpuNode minor :: host.sharedNvidia)
  | .render device => .devices [device]

def cdiSelector : Gpu → Option Selector
  | .nvidia minor => (publishedName capabilities host identities minor).map .cdi
  | .render _ => none

def shown (types : List SelectorType) (gpu : Gpu) : Selector :=
  if .cdi ∈ types then (cdiSelector capabilities host identities gpu).getD (nodeSelector host gpu)
  else nodeSelector host gpu

end

section

variable {capabilities : List (Text × Bool)} {vendor : Text} {gpu : Gpu} {s : Selector}
variable {minor : ℕ} {types : List SelectorType}

theorem nodup_minors : host.minors.Nodup :=
  (List.perm_insertionSort _ _).nodup_iff.mpr (List.nodup_dedup _)

theorem nodup_gpus : (host.gpus vendor).Nodup := by
  unfold Host.gpus
  split
  · exact nodup_minors.map fun _ _ h => by cases h; rfl
  · have hsorted : ((host.renderNodes.mergeSort fun a b ↦ decide (a.name ≤ b.name)).map
        RenderNode.name).Nodup :=
      ((List.mergeSort_perm _ _).map _).nodup_iff.mpr host.nodup_names
    have hnames : ((host.drm vendor).map RenderNode.name).Nodup :=
      (List.filter_sublist.map RenderNode.name).nodup hsorted
    have hmap : (host.drm vendor).map (fun node ↦ Gpu.render node.device) =
        ((host.drm vendor).map RenderNode.name).map
          fun name ↦ Gpu.render ("/dev/dri/".toList ++ name) := by
      rw [List.map_map]
      rfl
    rw [hmap]
    apply hnames.map
    intro name name' h
    exact List.append_cancel_left (Gpu.render.inj h)

theorem mem_vendorOffers : s ∈ vendorOffers capabilities host identities vendor ↔
    ∃ gpu ∈ host.gpus vendor,
      s = nodeSelector host gpu ∨ cdiSelector capabilities host identities gpu = some s := by
  unfold vendorOffers Host.gpus
  split
  · simp only [List.mem_flatMap, List.mem_map, exists_exists_and_eq_and]
    apply exists_congr
    intro minor
    apply and_congr_right
    intro _
    unfold gpuSelectors
    rw [List.mem_cons]
    apply or_congr_right
    show _ ↔ (publishedName capabilities host identities minor).map Selector.cdi = some s
    rw [List.mem_map, Option.map_eq_some_iff]
    simp only [Option.mem_toList]
  · simp only [List.mem_map, exists_exists_and_eq_and]
    apply exists_congr
    intro node
    apply and_congr_right
    intro _
    show _ ↔ s = .devices [node.device] ∨ none = some s
    constructor
    · exact fun h => .inl h.symm
    · rintro (h | h)
      · exact h.symm
      · cases h

theorem gpuNode_notMem_shared : gpuNode minor ∉ host.sharedNvidia := by
  intro h
  obtain ⟨name, hname, heq⟩ := List.mem_map.mp h
  -- What follows the name of the driver is a letter or a hyphen, and no digit.
  have hletter : ∀ name ∈ sharedNodes,
      ((("/dev/".toList ++ name).drop "/dev/nvidia".toList.length).head?.map Char.isDigit) =
        some false := by decide
  have hhead := hletter name (List.mem_filter.mp hname).1
  have hdrop : (gpuNode minor).drop "/dev/nvidia".toList.length = Nat.toDigits 10 minor :=
    List.drop_left
  rw [heq, hdrop] at hhead
  cases hdigits : Nat.toDigits 10 minor with
  | nil => exact Nat.toDigits_ne_nil hdigits
  | cons c rest =>
    have hdigit : c.isDigit = true := by
      apply isDigit_of_mem_toDigits (n := minor)
      rw [hdigits]
      exact List.mem_cons_self
    rw [hdigits, List.head?_cons, Option.map_some, hdigit] at hhead
    cases hhead

theorem nodup_shared : host.sharedNvidia.Nodup := by
  have hall : (sharedNodes.map ("/dev/".toList ++ ·)).Nodup := by decide
  exact (List.filter_sublist.map _).nodup hall

theorem selector_offer (hidentities : Identities identities)
    (h : s ∈ vendorOffers capabilities host identities vendor) :
    selector (some s.toPlain : Option (Plain F)) = some s := by
  obtain ⟨gpu, hgpu, hs⟩ := mem_vendorOffers.mp h
  cases gpu with
  | nvidia minor =>
    rcases hs with rfl | hs
    · apply selector_devices (List.cons_ne_nil _ _)
      · rw [List.forall_mem_cons]
        exact ⟨devicePath_gpuNode minor, fun path hpath => devicePath_shared hpath⟩
      · exact List.nodup_cons.mpr ⟨gpuNode_notMem_shared, nodup_shared⟩
    · obtain ⟨value, hvalue, rfl⟩ := Option.map_eq_some_iff.mp hs
      obtain ⟨name, hname, rfl⟩ := publishedName_named hvalue
      exact selector_cdi (hname.isCdiSelector hidentities)
  | render device =>
    rcases hs with rfl | hs
    · unfold Host.gpus at hgpu
      split at hgpu
      · obtain ⟨minor, -, hminor⟩ := List.mem_map.mp hgpu
        cases hminor
      obtain ⟨node, -, hnode⟩ := List.mem_map.mp hgpu
      cases hnode
      exact selector_devices (List.cons_ne_nil _ _)
        (List.forall_mem_singleton.mpr (devicePath_device node)) (List.pairwise_singleton _ _)
    · cases hs

theorem eq_of_nvidia_mem {vendor : String}
    (h : Gpu.nvidia minor ∈ host.gpus vendor.toList) : vendor = "NVIDIA" := by
  unfold Host.gpus at h
  split at h
  · rename_i hvendor
    exact String.toList_inj.mp hvendor.1
  · obtain ⟨node, -, hnode⟩ := List.mem_map.mp h
    cases hnode

variable {decimal : Char → Bool}

theorem physicalIdentity_offer (hdecimal : AsciiDecimal decimal) (hidentities : Identities identities)
    {vendor : String} (hgpu : gpu ∈ host.gpus vendor.toList)
    (hs : s = nodeSelector host gpu ∨ cdiSelector capabilities host identities gpu = some s) :
    physicalIdentity decimal
      (minorByUuid (vendorObject capabilities host identities vendor : Object F)) s =
        gpu.identity := by
  cases gpu with
  | nvidia minor =>
    obtain rfl := eq_of_nvidia_mem hgpu
    rcases hs with rfl | hs
    · exact physicalIdentity_node hdecimal _
    obtain ⟨value, hvalue, rfl⟩ := Option.map_eq_some_iff.mp hs
    obtain ⟨name, hname, rfl⟩ := publishedName_named hvalue
    have hfree := hname.free hidentities
    cases hname with
    | index => exact physicalIdentity_index hdecimal
    | uuid huuid =>
      have hentry := Association.mem_of_lookup huuid
      exact physicalIdentity_uuid hdecimal (hidentities.bounded _ hentry).2 hfree
        (minorByUuid_lookup hidentities hentry)
  | render device =>
    rcases hs with rfl | hs
    · unfold Host.gpus at hgpu
      split at hgpu
      · obtain ⟨minor, -, hminor⟩ := List.mem_map.mp hgpu
        cases hminor
      obtain ⟨node, -, hnode⟩ := List.mem_map.mp hgpu
      cases hnode
      exact physicalIdentity_device node
    · cases hs

theorem requireUuidMappings_offer (hidentities : Identities identities) {vendor : String}
    (h : s ∈ vendorOffers capabilities host identities vendor.toList) :
    requireUuidMappings
      (minorByUuid (vendorObject capabilities host identities vendor : Object F)) [s] = .ok () := by
  unfold requireUuidMappings
  apply forM_total
  rw [List.forall_mem_singleton]
  obtain ⟨gpu, hgpu, hs⟩ := mem_vendorOffers.mp h
  cases gpu with
  | render =>
    rcases hs with rfl | hs
    · rfl
    · cases hs
  | nvidia minor =>
    obtain rfl := eq_of_nvidia_mem hgpu
    rcases hs with rfl | hs
    · rfl
    obtain ⟨value, hvalue, rfl⟩ := Option.map_eq_some_iff.mp hs
    obtain ⟨name, hname, rfl⟩ := publishedName_named hvalue
    have hfree := hname.free hidentities
    dsimp only
    apply if_neg
    rw [Bool.and_eq_true, Bool.not_eq_true']
    rintro ⟨hcdi, hmissing⟩
    have hlast : (cdiName name).splitOn '=' = ["nvidia.com/gpu".toList, name] := by
      rw [← Segments.splitOn_append_join "nvidia.com/gpu".toList (by decide)
        (List.forall_mem_singleton.mpr hfree.2), Segments.join_cons, Segments.join_nil,
        List.append_nil]
      rfl
    rw [hlast] at hmissing
    have hnot : name ∉ (minorByUuid
        (vendorObject capabilities host identities "NVIDIA" : Object F)).map Prod.fst := by
      intro hmem
      have hcontains := List.contains_iff_mem.mpr hmem
      exact Bool.noConfusion (hcontains.symm.trans hmissing)
    cases hname with
    | index =>
      -- The name of a UUID goes on with a letter.
      have hstem : "nvidia.com/gpu=GPU-".toList <+: cdiName (Nat.toDigits 10 minor) := by
        unfold isUuidCdi at hcdi
        dsimp only at hcdi
        rw [Bool.and_eq_true, Bool.and_eq_true] at hcdi
        exact List.isPrefixOf_iff_prefix.mp hcdi.1.1
      have hdigits : "GPU-".toList <+: Nat.toDigits 10 minor :=
        (List.prefix_append_right_inj "nvidia.com/gpu=".toList).mp hstem
      have hletter : 'G' ∈ Nat.toDigits 10 minor := hdigits.subset List.mem_cons_self
      exact absurd (isDigit_of_mem_toDigits hletter) (by decide)
    | uuid huuid =>
      have hlookup : (minorByUuid
          (vendorObject capabilities host identities "NVIDIA" : Object F)).lookup name = _ :=
        minorByUuid_lookup hidentities (Association.mem_of_lookup huuid)
      exact hnot (List.mem_map_of_mem (Association.mem_of_lookup hlookup))

theorem nodeSelector_type : (nodeSelector host gpu).type = .devices := by cases gpu <;> rfl

theorem cdiSelector_type (h : cdiSelector capabilities host identities gpu = some s) :
    s.type = .cdi := by
  cases gpu with
  | nvidia =>
    obtain ⟨value, -, rfl⟩ := Option.map_eq_some_iff.mp h
    rfl
  | render => cases h

theorem shown_offered :
    shown capabilities host identities types gpu = nodeSelector host gpu ∨
      cdiSelector capabilities host identities gpu =
        some (shown capabilities host identities types gpu) := by
  unfold shown
  split
  · cases cdiSelector capabilities host identities gpu with
    | none => exact .inl rfl
    | some s => exact .inr rfl
  · exact .inl rfl

theorem shown_type (hnodes : .devices ∈ types) :
    (shown capabilities host identities types gpu).type ∈ types := by
  unfold shown
  split
  · rename_i hcdi
    cases hselector : cdiSelector capabilities host identities gpu with
    | none =>
      show (nodeSelector host gpu).type ∈ types
      rw [nodeSelector_type]
      exact hnodes
    | some s =>
      show s.type ∈ types
      rw [cdiSelector_type hselector]
      exact hcdi
  · rw [nodeSelector_type]
    exact hnodes

/-- For a runtime that lowers selectors, a vendor has one selector for each of its GPUs. -/
theorem vendorSelectors_perm (hdecimal : AsciiDecimal decimal) (hidentities : Identities identities)
    (htypes : types = [.devices] ∨ types = [.cdi, .devices])
    (vendor : String) :
    ∃ selectors, vendorSelectors decimal types
        (vendorObject capabilities host identities vendor : Object F) = .ok selectors ∧
      selectors.Perm
        ((host.gpus vendor.toList).map (shown capabilities host identities types)) := by
  let object : Object F := vendorObject capabilities host identities vendor
  let offers := vendorOffers capabilities host identities vendor.toList
  have hparsed : ∀ s, s ∈ parsedSelectors types (offers.map (Selector.toPlain (F := F))) ↔
      s.type ∈ types ∧ s ∈ offers := by
    intro s
    rw [mem_parsedSelectors]
    apply and_congr_right
    intro _
    constructor
    · rintro ⟨value, hvalue, hs⟩
      obtain ⟨t, ht, rfl⟩ := List.mem_map.mp hvalue
      rw [selector_offer hidentities ht] at hs
      exact Option.some_inj.mp hs ▸ ht
    · exact fun hs => ⟨s.toPlain, List.mem_map_of_mem hs, selector_offer hidentities hs⟩
  have hnodes : .devices ∈ types := by
    rcases htypes with rfl | rfl <;> decide
  obtain ⟨selectors, hok, hnodup, hsub, hcover⟩ := vendorSelectors_spec decimal
    (find_selectors vendor) fun s hs => requireUuidMappings_offer hidentities ((hparsed s).mp hs).2
  have hidentity : ∀ gpu ∈ host.gpus vendor.toList, ∀ s, s = nodeSelector host gpu ∨
      cdiSelector capabilities host identities gpu = some s →
        physicalIdentity decimal (minorByUuid object) s = gpu.identity :=
    fun gpu hgpu s hs => physicalIdentity_offer hdecimal hidentities hgpu hs
  -- A kept selector is the best one of its GPU: a published name comes in front of the nodes.
  have hbest : ∀ s ∈ selectors, ∀ gpu ∈ host.gpus vendor.toList, s = nodeSelector host gpu ∨
      cdiSelector capabilities host identities gpu = some s →
        s = shown capabilities host identities types gpu := by
    intro s hs gpu hgpu hoffer
    have htype := ((hparsed s).mp (hsub s hs)).1
    unfold shown
    split
    · rename_i hcdi
      cases hselector : cdiSelector capabilities host identities gpu with
      | none =>
        rcases hoffer with hoffer | hoffer
        · exact hoffer
        · rw [hselector] at hoffer
          cases hoffer
      | some c =>
        have hc : c ∈ parsedSelectors types (offers.map (Selector.toPlain (F := F))) := by
          rw [hparsed, cdiSelector_type hselector]
          exact ⟨hcdi, mem_vendorOffers.mpr ⟨gpu, hgpu, .inr hselector⟩⟩
        obtain ⟨t, ht, hsame, hrank⟩ := hcover c hc
        have heq : t = s := by
          apply List.inj_on_of_nodup_map hnodup ht hs
          rw [hsame, hidentity gpu hgpu c (.inr hselector), hidentity gpu hgpu s hoffer]
        rcases hoffer with hoffer | hoffer
        · rw [heq, hoffer, nodeSelector_type, cdiSelector_type hselector] at hrank
          rcases htypes with rfl | rfl
          · exact absurd hcdi (by decide)
          · exact absurd hrank (by decide)
        · rw [hselector] at hoffer
          exact (Option.some_inj.mp hoffer).symm
    · rename_i hcdi
      rcases hoffer with hoffer | hoffer
      · exact hoffer
      · rw [cdiSelector_type hoffer] at htype
        exact (hcdi htype).elim
  refine ⟨selectors, hok, (List.perm_ext_iff_of_nodup hnodup.of_map ?_).mpr fun s => ?_⟩
  · apply nodup_gpus.map_on
    intro gpu hgpu gpu' hgpu' heq
    apply Gpu.identity_injective
    rw [← hidentity gpu hgpu _ shown_offered, heq, hidentity gpu' hgpu' _ shown_offered]
  · rw [List.mem_map]
    constructor
    · intro hs
      obtain ⟨gpu, hgpu, hoffer⟩ := mem_vendorOffers.mp ((hparsed s).mp (hsub s hs)).2
      exact ⟨gpu, hgpu, (hbest s hs gpu hgpu hoffer).symm⟩
    · rintro ⟨gpu, hgpu, rfl⟩
      obtain ⟨t, ht, hsame, -⟩ := hcover _ ((hparsed _).mpr
        ⟨shown_type hnodes, mem_vendorOffers.mpr ⟨gpu, hgpu, shown_offered⟩⟩)
      obtain ⟨gpu', hgpu', hoffer⟩ := mem_vendorOffers.mp ((hparsed t).mp (hsub t ht)).2
      have heq : gpu' = gpu := by
        apply Gpu.identity_injective
        rw [← hidentity gpu' hgpu' t hoffer, hsame, hidentity gpu hgpu _ shown_offered]
      rw [← heq, ← hbest t ht gpu' hgpu' hoffer]
      exact ht

end

end NixNas.Accelerator
