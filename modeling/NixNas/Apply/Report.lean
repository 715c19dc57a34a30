import NixNas.Apply.Bundle

/-!
# The report of an apply (`apply` of `services/nas_v2_apply.py`)

The writes of an apply that publishes no generation.  Its plan is one of the files that it writes and
lists the files that change.
-/

open Journal (sorted mem_sorted)

namespace NixNas.Apply

/-- What an apply has computed before it writes.  The paths of a configuration are distinct. -/
structure Request where
  files : List Listed
  stale : Finset Text
  planPath : Text
  /-- `_json_bytes` of the plan, by its `changedFiles`. -/
  jsonBytes : List Text → Bytes
  distinct : (files.map Listed.path ++ [planPath]).Nodup

def Request.planFile (r : Request) (changed : Finset Text) : Listed :=
  ⟨r.planPath, r.jsonBytes (sorted changed), 0o640⟩

/-- The files beside the plan that the apply takes for changed. -/
def Request.predicted (r : Request) (old : Files) : Finset Text :=
  ((changedFiles old r.files).map Listed.path).toFinset ∪ r.stale.filter (fun path ↦ (old path).isSome)

/-- With the plan itself where its first rendering is not on the disk. -/
def Request.predictedAll (r : Request) (old : Files) : Finset Text :=
  if (r.planFile (r.predicted old)).differs old then insert r.planPath (r.predicted old)
  else r.predicted old

/-- The files that are left and the `changedFiles` of the plan that is returned, unless a step of
one of the bundles raises. -/
def apply (r : Request) (old : Files) (fault fault' : Option Nat) : Option (Files × List Text) :=
  match replaceBundle old (r.files ++ [r.planFile (r.predictedAll old)]) r.stale fault with
  | (_, none) => none
  | (disk, some changed) =>
    if changed.toFinset = r.predictedAll old then some (disk.files, sorted (r.predictedAll old))
    else
      match replaceBundle disk.files [r.planFile changed.toFinset] ∅ fault' with
      | (_, none) => none
      | (disk, some _) => some (disk.files, sorted changed.toFinset)

variable {r : Request} {old new : Files} {fault fault' : Option Nat} {reported : List Text}
variable {changed : List Text}

def Request.changedBeside (r : Request) (old : Files) : Finset Text :=
  ((changedFiles old r.files).map Listed.path).toFinset ∪ r.stale.filter (fun path ↦
    (old path).isSome ∧ path ∉ r.files.map Listed.path ∧ path ≠ r.planPath)

def Request.Holds (r : Request) (old : Files) (changed : Finset Text) : Prop :=
  old r.planPath = some (r.planFile changed).file

instance (r : Request) (old : Files) (changed : Finset Text) : Decidable (r.Holds old changed) :=
  inferInstanceAs (Decidable (_ = _))

/-- The plan on the disk is none that the apply cannot report about: where it is the one that would
be written it stays, and lists itself only if it is replaced. -/
def Request.Reportable (r : Request) (old : Files) : Prop :=
  if r.Holds old (r.predicted old) ∨ r.Holds old (insert r.planPath (r.predicted old)) then
    r.Holds old (r.changedBeside old)
  else ¬ r.Holds old (insert r.planPath (r.changedBeside old))

theorem holds_predictedAll_iff : r.Holds old (r.predictedAll old) ↔
    r.Holds old (r.predicted old) ∨ r.Holds old (insert r.planPath (r.predicted old)) := by
  unfold Request.predictedAll
  by_cases h : r.Holds old (r.predicted old)
  · have hsame : (r.planFile (r.predicted old)).differs old = false := decide_eq_false (not_not.mpr h)
    rw [hsame, if_neg Bool.false_ne_true]
    exact iff_of_true h (.inl h)
  · have hdiffers : (r.planFile (r.predicted old)).differs old = true := decide_eq_true h
    rw [hdiffers, if_pos rfl, or_iff_right h]

theorem planPath_notMem_files (r : Request) : r.planPath ∉ r.files.map Listed.path := by
  intro hmem
  have hnodup := r.distinct
  rw [List.nodup_append] at hnodup
  exact hnodup.2.2 r.planPath hmem r.planPath List.mem_cons_self rfl

theorem planPath_notMem_changedBeside : r.planPath ∉ r.changedBeside old := by
  unfold Request.changedBeside
  rw [Finset.mem_union, List.mem_toFinset, Finset.mem_filter, not_or]
  refine ⟨fun hmem => planPath_notMem_files r ?_, fun hmem => hmem.2.2.2 rfl⟩
  obtain ⟨f, hf, heq⟩ := List.mem_map.mp hmem
  rw [← heq]
  exact List.mem_map_of_mem (mem_changedFiles.mp hf).1

theorem mem_changedBeside {plan : Finset Text}
    (h : Replaced old (r.files ++ [r.planFile plan]) r.stale new changed) {path : Text}
    (hpath : path ≠ r.planPath) : path ∈ r.changedBeside old ↔ new path ≠ old path := by
  have hbundle : path ∈ (r.files ++ [r.planFile plan]).map Listed.path ↔ path ∈ r.files.map Listed.path := by
    rw [List.map_append, List.mem_append]
    exact or_iff_left fun hmem => hpath (List.mem_singleton.mp hmem)
  unfold Request.changedBeside
  rw [Finset.mem_union, List.mem_toFinset, Finset.mem_filter]
  by_cases hlisted : path ∈ r.files.map Listed.path
  · obtain ⟨f, hf, rfl⟩ := List.mem_map.mp hlisted
    rw [h.written f (List.mem_append_left _ hf)]
    constructor
    · rintro (hmem | ⟨-, -, hnot, -⟩)
      · obtain ⟨g, hg, heq⟩ := List.mem_map.mp hmem
        obtain ⟨hg, hne⟩ := mem_changedFiles.mp hg
        have hnodup : (r.files.map Listed.path).Nodup := (List.nodup_append.mp r.distinct).1
        obtain rfl := List.inj_on_of_nodup_map hnodup hg hf heq
        exact hne.symm
      · exact absurd hlisted hnot
    · exact fun hne => .inl (List.mem_map_of_mem (mem_changedFiles.mpr ⟨hf, hne.symm⟩))
  · -- only a stale file can change elsewhere
    have hnot : path ∉ (changedFiles old r.files).map Listed.path := by
      intro hmem
      obtain ⟨f, hf, rfl⟩ := List.mem_map.mp hmem
      exact hlisted (List.mem_map_of_mem (mem_changedFiles.mp hf).1)
    by_cases hstale : path ∈ r.stale
    · rw [h.removed path hstale fun hmem => hlisted (hbundle.mp hmem)]
      constructor
      · rintro (hmem | ⟨-, hsome, -⟩)
        · exact absurd hmem hnot
        · exact (Option.isSome_iff_ne_none.mp hsome).symm
      · exact fun hne => .inr ⟨hstale, Option.isSome_iff_ne_none.mpr hne.symm, hlisted, hpath⟩
    · rw [h.kept path (fun hmem => hlisted (hbundle.mp hmem)) hstale]
      exact iff_of_false (fun hmem => hmem.elim hnot fun hmem => hstale hmem.1) fun hne => hne rfl

theorem toFinset_changed
    (h : Replaced old (r.files ++ [r.planFile (r.predictedAll old)]) r.stale new changed) :
    changed.toFinset =
      if r.Holds old (r.predictedAll old) then r.changedBeside old
      else insert r.planPath (r.changedBeside old) := by
  have hplan : new r.planPath = some (r.planFile (r.predictedAll old)).file :=
    h.written (r.planFile (r.predictedAll old)) (List.mem_append_right _ List.mem_cons_self)
  ext path
  rw [List.mem_toFinset, h.changed path]
  by_cases hpath : path = r.planPath
  · subst hpath
    rw [hplan]
    split
    · rename_i hholds
      exact iff_of_false (fun hne => hne hholds.symm) planPath_notMem_changedBeside
    · rename_i hholds
      exact iff_of_true (fun heq => hholds heq.symm) (Finset.mem_insert_self ..)
  · rw [← mem_changedBeside h hpath]
    split
    · rfl
    · rw [Finset.mem_insert, or_iff_right hpath]

/-- What an apply that returns leaves: the plan on the disk is the one returned, and beside the plan
the report is right. -/
theorem apply_spec (h : apply r old fault fault' = some (new, reported)) :
    ∃ changed : Finset Text, reported = sorted changed ∧
      new r.planPath = some (r.planFile changed).file ∧
      (∀ path ≠ r.planPath, new path ≠ old path ↔ path ∈ changed) ∧
      changed = if r.Holds old (r.predictedAll old) then r.changedBeside old
        else insert r.planPath (r.changedBeside old) := by
  unfold apply at h
  have hnodup : ((r.files ++ [r.planFile (r.predictedAll old)]).map Listed.path).Nodup := by
    rw [List.map_append]
    exact r.distinct
  cases hfirst : replaceBundle old (r.files ++ [r.planFile (r.predictedAll old)]) r.stale fault with
  | mk disk result =>
    rw [hfirst] at h
    cases result with
    | none => cases h
    | some changed =>
      have hchanged := replaced_of_some hnodup hfirst
      have hset := toFinset_changed hchanged
      have hplan : disk.files r.planPath = some (r.planFile (r.predictedAll old)).file :=
        hchanged.written (r.planFile (r.predictedAll old)) (List.mem_append_right _ List.mem_cons_self)
      dsimp only at h
      split at h
      · -- the prediction was right
        rename_i heq
        obtain ⟨rfl, rfl⟩ := Prod.mk.inj (Option.some.inj h)
        refine ⟨changed.toFinset, by rw [heq], by rw [heq]; exact hplan, fun path _ => ?_, hset⟩
        rw [List.mem_toFinset, hchanged.changed path]
      · -- the plan is written again
        cases hsecond : replaceBundle disk.files [r.planFile changed.toFinset] ∅ fault' with
        | mk disk' result' =>
          rw [hsecond] at h
          cases result' with
          | none => cases h
          | some changed' =>
            obtain ⟨rfl, rfl⟩ := Prod.mk.inj (Option.some.inj h)
            have hone : ([r.planFile changed.toFinset].map Listed.path).Nodup := List.nodup_singleton _
            have hagain := replaced_of_some hone hsecond
            refine ⟨changed.toFinset, rfl, hagain.written _ List.mem_cons_self, fun path hpath => ?_, hset⟩
            rw [List.mem_toFinset, hchanged.changed path,
              hagain.kept path (fun hmem => hpath (List.mem_singleton.mp hmem)) (Finset.notMem_empty _)]

/-- The returned plan is the one on the disk, and it lists exactly the files that have changed when
the apply could report about the plan that it found. -/
theorem apply_exact_iff (h : apply r old fault fault' = some (new, reported)) :
    new r.planPath = some ⟨r.jsonBytes reported, 0o640⟩ ∧
      ((∀ path, path ∈ reported ↔ new path ≠ old path) ↔ r.Reportable old) := by
  obtain ⟨changed, rfl, hplan, hbeside, hchanged⟩ := apply_spec h
  refine ⟨hplan, ?_⟩
  have hself : (∀ path, path ∈ sorted changed ↔ new path ≠ old path) ↔
      (r.planPath ∈ changed ↔ ¬ r.Holds old changed) := by
    constructor
    · intro hall
      rw [← mem_sorted, hall, hplan]
      exact not_congr eq_comm
    · intro hiff path
      rw [mem_sorted]
      by_cases hpath : path = r.planPath
      · rw [hpath, hiff, hplan]
        exact not_congr eq_comm
      · exact (hbeside path hpath).symm
  rw [hself]
  unfold Request.Reportable
  by_cases hholds : r.Holds old (r.predictedAll old)
  · -- the plan stays and is not listed
    rw [if_pos hholds] at hchanged
    rw [if_pos (holds_predictedAll_iff.mp hholds), hchanged, iff_false_left planPath_notMem_changedBeside,
      not_not]
  · -- the plan is replaced and listed
    rw [if_neg hholds] at hchanged
    rw [if_neg (mt holds_predictedAll_iff.mpr hholds), hchanged, iff_true_left (Finset.mem_insert_self ..)]

/-- An apply that writes the effective document and a unit beside its plan, and deletes the unit of
a service that is gone. -/
def exampleRequest : Request where
  files := [⟨"/v2/effective.json".toList, [3], 0o640⟩, ⟨"/v2/systemd/app.service".toList, [4], 0o644⟩]
  stale := {"/v2/systemd/old.service".toList}
  planPath := "/v2/plan.json".toList
  jsonBytes paths := paths.map fun path ↦ path.length.toUInt8
  distinct := by decide

def olderFiles : Files := fun path ↦
  if path = "/v2/effective.json".toList then some ⟨[2], 0o640⟩
  else if path = "/v2/systemd/old.service".toList then some ⟨[5], 0o644⟩
  else none

theorem apply_exact_iff_older :
    ∃ new reported, apply exampleRequest olderFiles none none = some (new, reported) ∧
      ∀ path, path ∈ reported ↔ new path ≠ olderFiles path := by
  have hsome : (apply exampleRequest olderFiles none none).isSome = true := by decide
  obtain ⟨⟨new, reported⟩, h⟩ := Option.isSome_iff_exists.mp hsome
  refine ⟨new, reported, h, (apply_exact_iff h).2.mpr ?_⟩
  -- no plan stands there that lists what is listed now
  have hplan : ∀ changed, ¬ exampleRequest.Holds olderFiles changed := fun _ => nofun
  unfold Request.Reportable
  rw [if_neg (not_or.mpr ⟨hplan _, hplan _⟩)]
  exact hplan _

/-- The second apply has only the plan to replace, and the third one reports nothing and has replaced
it as well. -/
theorem not_exact_thirdApply :
    ∃ first reported second third,
      apply exampleRequest olderFiles none none = some (first, reported) ∧
      apply exampleRequest first none none = some (second, [exampleRequest.planPath]) ∧
      apply exampleRequest second none none = some (third, []) ∧
      third exampleRequest.planPath ≠ second exampleRequest.planPath := by
  refine ⟨_, _, _, _, rfl, rfl, rfl, ?_⟩
  decide

end NixNas.Apply
