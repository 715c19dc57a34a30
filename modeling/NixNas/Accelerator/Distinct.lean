import NixNas.Accelerator.Offers

/-!
# What selectors stand for

What a selector stands for is settled by the machine: a device node by the driver, a name of CDI by
the container toolkit.  The toolkit numbers its index names in the order of NVML, which is not the
order of the minors.
-/

open Fallible

namespace NixNas.Accelerator

open Spec

variable {F : Type}

structure Toolkit where
  /-- The minors in the order in which NVML enumerates the GPUs. -/
  minors : List ℕ
  nodup : minors.Nodup

section

variable (toolkit : Toolkit) (capabilities : List (Text × Bool)) (host : Host)
  (identities : List (ℕ × Text))

/-- The devices of CDI: each GPU under its index and under its UUID. -/
def cdiDevices : List (Text × Gpu) :=
  toolkit.minors.zipIdx.map (fun entry ↦ (indexName entry.2, .nvidia entry.1)) ++
    identities.map fun entry ↦ (cdiName entry.2, .nvidia entry.1)

/-- The nodes of `/dev` that belong to one GPU. -/
def Host.nodes : List (Text × Gpu) :=
  host.minors.map (fun minor ↦ (gpuNode minor, .nvidia minor)) ++
    host.renderNodes.map fun node ↦ (node.device, .render node.device)

def standsFor : Selector → Option Gpu
  | .cdi value => (cdiDevices toolkit identities).lookup value
  | .devices values => values.findSome? fun path ↦ host.nodes.lookup path

def indexNamed : List ℕ :=
  host.minors.filter fun minor ↦
    publishedName capabilities host identities minor = some (indexName minor)

def IndexNamesClosed : Prop :=
  ∀ minor ∈ indexNamed capabilities host identities,
    ∃ enumerated ∈ indexNamed capabilities host identities,
      toolkit.minors[minor]? = some enumerated

instance : Decidable (IndexNamesClosed toolkit capabilities host identities) :=
  inferInstanceAs (Decidable (∀ minor ∈ indexNamed capabilities host identities,
    ∃ enumerated ∈ indexNamed capabilities host identities,
      toolkit.minors[minor]? = some enumerated))

end

section

variable {toolkit : Toolkit} {capabilities : List (Text × Bool)} {host : Host}
  {identities : List (ℕ × Text)} {vendor : Text} {gpu : Gpu} {minor : ℕ}
variable {uuid : Text} {types : List SelectorType}

theorem gpus_of_minors (h : minor ∈ host.minors) :
    host.gpus "NVIDIA".toList = host.minors.map .nvidia := by
  unfold Host.gpus
  exact if_pos ⟨rfl, List.ne_nil_of_mem h⟩

theorem gpus_nvidia (h : Gpu.nvidia minor ∈ host.gpus vendor) :
    vendor = "NVIDIA".toList ∧ host.gpus vendor = host.minors.map .nvidia := by
  unfold Host.gpus at h
  split at h
  · rename_i hvendor
    obtain ⟨found, hfound, -⟩ := List.mem_map.mp h
    rw [hvendor.1]
    exact ⟨rfl, gpus_of_minors hfound⟩
  · obtain ⟨node, -, hnode⟩ := List.mem_map.mp h
    cases hnode

theorem minor_mem_of_gpu (h : Gpu.nvidia minor ∈ host.gpus vendor) : minor ∈ host.minors := by
  rw [(gpus_nvidia h).2] at h
  obtain ⟨found, hfound, heq⟩ := List.mem_map.mp h
  cases heq
  exact hfound

theorem lookup_gpuNode (h : minor ∈ host.minors) :
    host.nodes.lookup (gpuNode minor) = some (.nvidia minor) := by
  unfold Host.nodes
  apply Association.lookup_append_some
  apply Association.lookup_of_mem
  · rw [List.map_map]
    exact nodup_minors.map fun _ _ h => gpuNode_injective h
  · exact List.mem_map.mpr ⟨minor, h, rfl⟩

theorem lookup_device {node : RenderNode} (h : node ∈ host.renderNodes) :
    host.nodes.lookup node.device = some (.render node.device) := by
  unfold Host.nodes
  rw [Association.lookup_append_none]
  · apply Association.lookup_of_mem
    · have hdevices : (host.renderNodes.map fun node ↦ (node.device, Gpu.render node.device)).map
          Prod.fst = (host.renderNodes.map RenderNode.name).map ("/dev/dri/".toList ++ ·) := by
        rw [List.map_map, List.map_map]
        rfl
      rw [hdevices]
      exact host.nodup_names.map fun _ _ h => List.append_cancel_left h
    · exact List.mem_map.mpr ⟨node, h, rfl⟩
  · rw [Association.lookup_eq_none_iff, List.map_map]
    intro hmem
    obtain ⟨minor, -, heq⟩ := List.mem_map.mp hmem
    cases heq

theorem standsFor_node (h : gpu ∈ host.gpus vendor) :
    standsFor toolkit host identities (nodeSelector host gpu) = some gpu := by
  cases gpu with
  | nvidia minor =>
    unfold standsFor nodeSelector
    dsimp only
    rw [List.findSome?_cons, lookup_gpuNode (minor_mem_of_gpu h)]
  | render device =>
    unfold Host.gpus at h
    split at h
    · obtain ⟨minor, -, hminor⟩ := List.mem_map.mp h
      cases hminor
    obtain ⟨node, hnode, heq⟩ := List.mem_map.mp h
    cases heq
    have hmem : node ∈ host.renderNodes := List.mem_mergeSort.mp (List.mem_filter.mp hnode).1
    unfold standsFor nodeSelector
    dsimp only
    rw [List.findSome?_cons, lookup_device hmem]

theorem indexName_ne_uuid (h : isUuid uuid = true) : indexName minor ≠ cdiName uuid := by
  intro heq
  have hdigits : Nat.toDigits 10 minor = uuid := List.append_cancel_left heq
  obtain ⟨rest, hrest, -, -⟩ := isUuid_spec h
  have hletter : 'G' ∈ Nat.toDigits 10 minor := by
    rw [hdigits, hrest]
    exact List.mem_cons_self
  exact absurd (isDigit_of_mem_toDigits hletter) (by decide)

theorem indexKeys : (toolkit.minors.zipIdx.map fun entry ↦
    (indexName entry.2, Gpu.nvidia entry.1)).map Prod.fst =
      (List.range toolkit.minors.length).map indexName := by
  rw [List.map_map]
  show toolkit.minors.zipIdx.map (indexName ∘ Prod.snd) = _
  rw [← List.map_map, List.zipIdx_map_snd, List.range_eq_range']

theorem standsFor_index (hidentities : Identities identities) :
    standsFor toolkit host identities (.cdi (indexName minor)) =
      toolkit.minors[minor]?.map .nvidia := by
  show (cdiDevices toolkit identities).lookup (indexName minor) = _
  unfold cdiDevices
  cases henumerated : toolkit.minors[minor]? with
  | some found =>
    apply Association.lookup_append_some
    apply Association.lookup_of_mem
    · rw [indexKeys]
      exact List.nodup_range.map fun _ _ h => indexName_injective h
    · exact List.mem_map.mpr ⟨(found, minor), List.mem_zipIdx_iff_getElem?.mpr henumerated, rfl⟩
  | none =>
    rw [Association.lookup_append_none]
    · rw [Association.lookup_eq_none_iff.mpr]
      · rfl
      rw [List.map_map]
      intro hmem
      obtain ⟨entry, hentry, heq⟩ := List.mem_map.mp hmem
      exact indexName_ne_uuid (hidentities.bounded entry hentry).2 heq.symm
    · rw [Association.lookup_eq_none_iff, indexKeys]
      intro hmem
      obtain ⟨index, hindex, heq⟩ := List.mem_map.mp hmem
      rw [indexName_injective heq, List.mem_range] at hindex
      rw [List.getElem?_eq_none_iff] at henumerated
      omega

theorem standsFor_uuid (hidentities : Identities identities)
    (h : identities.lookup minor = some uuid) :
    standsFor toolkit host identities (.cdi (cdiName uuid)) = some (.nvidia minor) := by
  have hentry := Association.mem_of_lookup h
  show (cdiDevices toolkit identities).lookup (cdiName uuid) = _
  unfold cdiDevices
  rw [Association.lookup_append_none]
  · apply Association.lookup_of_mem
    · have hkeys : (identities.map fun entry ↦ (cdiName entry.2, Gpu.nvidia entry.1)).map Prod.fst =
          (identities.map Prod.snd).map cdiName := by
        rw [List.map_map, List.map_map]
        rfl
      rw [hkeys]
      exact hidentities.nodup_uuids.map fun _ _ h => List.append_cancel_left h
    · exact List.mem_map.mpr ⟨_, hentry, rfl⟩
  · rw [Association.lookup_eq_none_iff, indexKeys]
    intro hmem
    obtain ⟨index, -, heq⟩ := List.mem_map.mp hmem
    exact indexName_ne_uuid (hidentities.bounded _ hentry).2 heq

theorem mem_indexNamed : minor ∈ indexNamed capabilities host identities ↔
    minor ∈ host.minors ∧
      publishedName capabilities host identities minor = some (indexName minor) := by
  unfold indexNamed
  rw [List.mem_filter, decide_eq_true_iff]

theorem standsFor_shown (hidentities : Identities identities) (hgpu : gpu ∈ host.gpus vendor)
    (hname : ∀ minor, gpu = .nvidia minor → minor ∉ indexNamed capabilities host identities) :
    standsFor toolkit host identities (shown capabilities host identities types gpu) =
      some gpu := by
  rcases shown_offered with hshown | hshown
  · rw [hshown]
    exact standsFor_node hgpu
  cases gpu with
  | render => cases hshown
  | nvidia minor =>
    obtain ⟨value, hvalue, hselector⟩ := Option.map_eq_some_iff.mp hshown
    obtain ⟨name, hnamed, rfl⟩ := publishedName_named hvalue
    cases hnamed with
    | index => exact (hname minor rfl (mem_indexNamed.mpr ⟨minor_mem_of_gpu hgpu, hvalue⟩)).elim
    | uuid huuid =>
      rw [← hselector]
      exact standsFor_uuid hidentities huuid

theorem standsFor_shown_index (hidentities : Identities identities)
    (hcdi : .cdi ∈ types) (hminor : minor ∈ indexNamed capabilities host identities) :
    standsFor toolkit host identities (shown capabilities host identities types (.nvidia minor)) =
      toolkit.minors[minor]?.map .nvidia := by
  have hshown : shown capabilities host identities types (.nvidia minor) =
      .cdi (indexName minor) := by
    unfold shown cdiSelector
    dsimp only
    rw [if_pos hcdi, (mem_indexNamed.mp hminor).2]
    rfl
  rw [hshown]
  exact standsFor_index hidentities

theorem standsFor_shown_nodes (hcdi : .cdi ∉ types) (hgpu : gpu ∈ host.gpus vendor) :
    standsFor toolkit host identities (shown capabilities host identities types gpu) =
      some gpu := by
  unfold shown
  rw [if_neg hcdi]
  exact standsFor_node hgpu

/-- Where the index names are closed, or no name of CDI is lowered, the selectors of a vendor stand
for distinct GPUs of the vendor. -/
theorem distinct_of_closed (vendor : Text) (hidentities : Identities identities)
    (hclosed : .cdi ∈ types → IndexNamesClosed toolkit capabilities host identities) :
    ((host.gpus vendor).map fun gpu ↦ standsFor toolkit host identities
      (shown capabilities host identities types gpu)).Nodup ∧
    ∀ gpu ∈ host.gpus vendor, ∃ gpu' ∈ host.gpus vendor,
      standsFor toolkit host identities (shown capabilities host identities types gpu) =
        some gpu' := by
  by_cases hcdi : .cdi ∈ types
  swap
  · constructor
    · apply nodup_gpus.map_on
      intro gpu hgpu gpu' hgpu' heq
      rw [standsFor_shown_nodes hcdi hgpu, standsFor_shown_nodes hcdi hgpu'] at heq
      exact Option.some_inj.mp heq
    · exact fun gpu hgpu => ⟨gpu, hgpu, standsFor_shown_nodes hcdi hgpu⟩
  -- A GPU stands for itself, or its index is that of another index-named GPU.
  have hcases : ∀ gpu ∈ host.gpus vendor,
      ((∀ minor, gpu = .nvidia minor → minor ∉ indexNamed capabilities host identities) ∧
        standsFor toolkit host identities (shown capabilities host identities types gpu) =
          some gpu) ∨
      ∃ minor, gpu = .nvidia minor ∧
        ∃ enumerated ∈ indexNamed capabilities host identities,
          toolkit.minors[minor]? = some enumerated ∧
          standsFor toolkit host identities (shown capabilities host identities types gpu) =
            some (.nvidia enumerated) := by
    intro gpu hgpu
    by_cases hnamed : ∃ minor, gpu = .nvidia minor ∧ minor ∈ indexNamed capabilities host identities
    · obtain ⟨minor, rfl, hminor⟩ := hnamed
      obtain ⟨enumerated, henumerated, hindex⟩ := hclosed hcdi minor hminor
      refine .inr ⟨minor, rfl, enumerated, henumerated, hindex, ?_⟩
      rw [standsFor_shown_index hidentities hcdi hminor, hindex]
      rfl
    · have hother : ∀ minor, gpu = .nvidia minor →
          minor ∉ indexNamed capabilities host identities :=
        fun minor heq hminor => hnamed ⟨minor, heq, hminor⟩
      exact .inl ⟨hother, standsFor_shown hidentities hgpu hother⟩
  constructor
  · apply nodup_gpus.map_on
    intro gpu hgpu gpu' hgpu' heq
    rcases hcases gpu hgpu with ⟨hself, h⟩ | ⟨minor, rfl, enumerated, hnamed, hindex, h⟩ <;>
      rcases hcases gpu' hgpu' with ⟨hself', h'⟩ | ⟨minor', rfl, enumerated', hnamed', hindex', h'⟩
    · rw [h, h'] at heq
      exact Option.some_inj.mp heq
    · rw [h, h'] at heq
      exact (hself enumerated' (Option.some_inj.mp heq) hnamed').elim
    · rw [h, h'] at heq
      exact (hself' enumerated (Option.some_inj.mp heq).symm hnamed).elim
    · rw [h, h', Option.some_inj] at heq
      cases heq
      have hbound : minor < toolkit.minors.length := (List.getElem?_eq_some_iff.mp hindex).1
      have hsame : minor = minor' :=
        (List.getElem?_inj hbound toolkit.nodup).mp (hindex.trans hindex'.symm)
      rw [hsame]
  · intro gpu hgpu
    rcases hcases gpu hgpu with ⟨-, h⟩ | ⟨minor, rfl, enumerated, hnamed, -, h⟩
    · exact ⟨gpu, hgpu, h⟩
    · refine ⟨.nvidia enumerated, ?_, h⟩
      rw [(gpus_nvidia hgpu).2]
      exact List.mem_map_of_mem (mem_indexNamed.mp hnamed).1

/-- Where the selectors of NVIDIA stand for distinct GPUs of it, the index names are closed. -/
theorem closed_of_distinct (hidentities : Identities identities) (hcdi : .cdi ∈ types)
    (hnodup : ((host.gpus "NVIDIA".toList).map fun gpu ↦ standsFor toolkit host identities
      (shown capabilities host identities types gpu)).Nodup)
    (hgpus : ∀ gpu ∈ host.gpus "NVIDIA".toList, ∃ gpu' ∈ host.gpus "NVIDIA".toList,
      standsFor toolkit host identities (shown capabilities host identities types gpu) =
        some gpu') : IndexNamesClosed toolkit capabilities host identities := by
  intro minor hminor
  have hall : host.gpus "NVIDIA".toList = host.minors.map .nvidia :=
    gpus_of_minors (mem_indexNamed.mp hminor).1
  have hgpu : Gpu.nvidia minor ∈ host.gpus "NVIDIA".toList := by
    rw [hall]
    exact List.mem_map_of_mem (mem_indexNamed.mp hminor).1
  obtain ⟨gpu', hgpu', hstands⟩ := hgpus _ hgpu
  rw [standsFor_shown_index hidentities hcdi hminor, Option.map_eq_some_iff] at hstands
  obtain ⟨enumerated, hindex, rfl⟩ := hstands
  refine ⟨enumerated, ?_, hindex⟩
  -- Otherwise the GPU with the index would be shown as itself too.
  by_contra hnot
  have hself : standsFor toolkit host identities
      (shown capabilities host identities types (.nvidia enumerated)) =
        some (.nvidia enumerated) := by
    apply standsFor_shown hidentities hgpu'
    rintro other heq
    cases heq
    exact hnot
  have hsame : Gpu.nvidia enumerated = .nvidia minor := by
    apply List.inj_on_of_nodup_map hnodup hgpu' hgpu
    show standsFor toolkit host identities _ = standsFor toolkit host identities _
    rw [hself, standsFor_shown_index hidentities hcdi hminor, hindex]
    rfl
  cases hsame
  exact hnot hminor

end

end NixNas.Accelerator
