import NixNas.Backup.Runtime
import NixNas.Lib.Transition

/-!
# The state file of the backup

What a preparation leaves behind is listed in the state file from before it is there until after it
is gone, whatever fails and wherever the process is killed.
-/

open Transition

namespace NixNas.Backup

structure Covers (lists : RuntimeState) (created : List Snapshot) (started : List PendingDump) :
    Prop where
  snapshots : created ⊆ lists.snapshots
  nativeDumps : started ⊆ lists.nativeDumps

def Lists (state : Option RuntimeState) (created : List Snapshot) (started : List PendingDump) : Prop :=
  Covers (state.getD ⟨[], []⟩) created started

/-- Nothing is lost by a cleanup, and what it has not come to yet is all that is there, if nothing
has failed. -/
structure Cleans (c : Cleaning) (created : List Snapshot) (started : List PendingDump) : Prop where
  covers : Covers c.remaining created started
  rest : c.failed = false → Covers ⟨c.snapshots, c.nativeDumps⟩ created started

def StageOk (state : Option RuntimeState) (created : List Snapshot) (started : List PendingDump) :
    Stage → Prop
  | .idle | .unlinkLast => True
  | .resource p _ | .getMountpoint p _ _ | .refreshDump p _ | .writePaths p | .writeState p =>
    Covers p.lists created started
  | .listSnapshot p s _ => Covers p.lists created started ∧ s ∈ p.lists.snapshots
  | .listDump p d => Covers p.lists created started ∧ d ∈ p.lists.nativeDumps
  | .takeSnapshot p s _ => Covers p.lists created started ∧ state = some p.lists ∧ s ∈ p.lists.snapshots
  | .restartUnit p d => Covers p.lists created started ∧ state = some p.lists ∧ d ∈ p.lists.nativeDumps
  | .destroy c s | .probe c s => Cleans { c with snapshots := s :: c.snapshots } created started
  | .stopUnit c d | .removeArtifact c d =>
    Cleans { c with nativeDumps := d :: c.nativeDumps } created started
  | .unlistSnapshot c | .unlistDump c => Cleans c created started
  | .unlinkPaths c | .finish c =>
    Cleans c created started ∧ c.snapshots = [] ∧ c.nativeDumps = []

structure Inv (w : World) : Prop where
  listed : Lists w.state w.created w.started
  stage : StageOk w.state w.created w.started w.stage

variable {w w' : World} {event : Event} {r : Reply} {state : Option RuntimeState}
  {lists : RuntimeState} {created : List Snapshot} {started : List PendingDump} {p : Preparing}
  {c : Cleaning} {s : Snapshot} {d : PendingDump}

/-! ## The stages behind a step -/

theorem next_ok (h : Cleans c created started) : StageOk state created started c.next := by
  unfold Cleaning.next
  cases hsnapshots : c.snapshots with
  | cons s rest =>
    refine ⟨h.covers, fun hfailed => ?_⟩
    have hrest := h.rest hfailed
    rw [hsnapshots] at hrest
    exact hrest
  | nil =>
    cases hdumps : c.nativeDumps with
    | cons d rest =>
      refine ⟨h.covers, fun hfailed => ?_⟩
      have hrest := h.rest hfailed
      rw [hsnapshots, hdumps] at hrest
      exact hrest
    | nil =>
      dsimp only
      split
      · exact ⟨h, hsnapshots, hdumps⟩
      · exact ⟨h, hsnapshots, hdumps⟩

theorem ite_ok {a b : Stage} {q : Prop} [Decidable q] (ha : StageOk state created started a)
    (hb : StageOk state created started b) : StageOk state created started (if q then a else b) := by
  split
  · exact ha
  · exact hb

theorem fail_ok (h : Covers c.remaining created started) : StageOk state created started c.fail :=
  next_ok ⟨h, nofun⟩

theorem cleaning_ok {onError : Bool} (h : Covers lists created started) :
    StageOk state created started (cleaning onError lists) := by
  refine next_ok ⟨h, fun _ => ⟨fun s hs => ?_, fun d hd => ?_⟩⟩
  · exact List.mem_reverse.mpr (h.snapshots hs)
  · exact List.mem_reverse.mpr (h.nativeDumps hd)

theorem raise_ok (h : Covers p.lists created started) : StageOk state created started p.raise :=
  cleaning_ok h

theorem preparing_ok (h : Covers p.lists created started) : StageOk state created started p.next := by
  unfold Preparing.next
  split
  · exact h
  · exact h

theorem takeDataset_ok {name dataset path mountpoint : Text} (h : Covers p.lists created started) :
    StageOk state created started (takeDataset p name dataset path mountpoint) := by
  unfold takeDataset
  split
  · exact raise_ok h
  · split
    · exact preparing_ok h
    · refine ⟨⟨fun _ hs => List.mem_append_left _ (h.snapshots hs), h.nativeDumps⟩, ?_⟩
      exact List.mem_append_right _ (List.mem_singleton_self _)

theorem takeResource_ok {name : Text} (resource : Resource) (h : Covers p.lists created started) :
    StageOk state created started (takeResource p name resource) := by
  cases resource with
  | direct path => exact preparing_ok h
  | nativeDump d =>
    refine ⟨⟨h.snapshots, fun _ hd => List.mem_append_left _ (h.nativeDumps hd)⟩, ?_⟩
    exact List.mem_append_right _ (List.mem_singleton_self d)
  | zfsSnapshot dataset path =>
    unfold takeResource
    dsimp only
    split
    · exact takeDataset_ok h
    · exact h

/-! ## Effects -/

theorem lists_persisted (hlisted : Lists state created started) (h : Covers lists created started) :
    Lists (if r.applied then some lists else state) created started := by
  split
  · exact h
  · exact hlisted

theorem Covers.taken (h : Covers lists created started) (hs : s ∈ lists.snapshots) :
    Covers lists (if r.applied then s :: created else created) started := by
  split
  · exact ⟨List.cons_subset.mpr ⟨hs, h.snapshots⟩, h.nativeDumps⟩
  · exact h

theorem Covers.restarted (h : Covers lists created started) (hd : d ∈ lists.nativeDumps) :
    Covers lists created (if r.applied then d :: started else started) := by
  split
  · exact ⟨h.snapshots, List.cons_subset.mpr ⟨hd, h.nativeDumps⟩⟩
  · exact h

theorem Covers.destroyed (h : Covers lists created started) :
    Covers lists (if r.applied then created.filter (· ≠ s) else created) started := by
  split
  · exact ⟨fun _ hs => h.snapshots (List.mem_of_mem_filter hs), h.nativeDumps⟩
  · exact h

theorem Covers.removed (h : Covers lists created started) :
    Covers lists created
      (if r.applied then started.filter (·.artifactPath ≠ d.artifactPath) else started) := by
  split
  · exact ⟨h.snapshots, fun _ hd => h.nativeDumps (List.mem_of_mem_filter hd)⟩
  · exact h

theorem Cleans.erased (h : Cleans { c with snapshots := s :: c.snapshots } created started)
    (hgone : s ∉ created) :
    Cleans { c with remaining := { c.remaining with snapshots := c.remaining.snapshots.erase s } }
      created started where
  covers := by
    refine ⟨fun s' hs' => ?_, h.covers.nativeDumps⟩
    exact (List.mem_erase_of_ne (ne_of_mem_of_not_mem hs' hgone)).mpr (h.covers.snapshots hs')
  rest := by
    intro hfailed
    refine ⟨fun s' hs' => ?_, (h.rest hfailed).nativeDumps⟩
    exact ((List.mem_cons.mp ((h.rest hfailed).snapshots hs')).resolve_left
      (ne_of_mem_of_not_mem hs' hgone))

theorem Cleans.unlisted (h : Cleans { c with nativeDumps := d :: c.nativeDumps } created started)
    (hgone : d ∉ started) :
    Cleans { c with remaining := { c.remaining with nativeDumps := c.remaining.nativeDumps.erase d } }
      created started where
  covers := by
    refine ⟨h.covers.snapshots, fun d' hd' => ?_⟩
    exact (List.mem_erase_of_ne (ne_of_mem_of_not_mem hd' hgone)).mpr (h.covers.nativeDumps hd')
  rest := by
    intro hfailed
    refine ⟨(h.rest hfailed).snapshots, fun d' hd' => ?_⟩
    exact ((List.mem_cons.mp ((h.rest hfailed).nativeDumps hd')).resolve_left
      (ne_of_mem_of_not_mem hd' hgone))

/-! ## Steps -/

theorem Inv.reply (h : Inv w) (hstep : stepReply w r = some w') : Inv w' := by
  obtain ⟨hlisted, hstage⟩ := h
  unfold stepReply at hstep
  cases hw : w.stage <;> rw [hw] at hstep hstage <;> dsimp only at hstep
  case idle => cases hstep
  case resource => cases hstep
  case getMountpoint => cases hstep
  case listSnapshot p s path =>
    obtain ⟨hcovers, hs⟩ := hstage
    obtain rfl := Option.some.inj hstep
    refine ⟨lists_persisted hlisted hcovers, ?_⟩
    cases r with
    | ok => exact ⟨hcovers, rfl, hs⟩
    | failed applied => exact raise_ok hcovers
  case takeSnapshot p s path =>
    obtain ⟨hcovers, hstate, hs⟩ := hstage
    obtain rfl := Option.some.inj hstep
    have htaken := hcovers.taken (r := r) hs
    refine ⟨?_, ?_⟩
    · show Covers (w.state.getD _) _ _
      rw [hstate]
      exact htaken
    · cases r with
      | ok => exact preparing_ok htaken
      | failed applied => exact raise_ok htaken
  case listDump p d =>
    obtain ⟨hcovers, hd⟩ := hstage
    obtain rfl := Option.some.inj hstep
    refine ⟨lists_persisted hlisted hcovers, ?_⟩
    cases r with
    | ok => exact ⟨hcovers, rfl, hd⟩
    | failed applied => exact raise_ok hcovers
  case restartUnit p d =>
    obtain ⟨hcovers, hstate, hd⟩ := hstage
    obtain rfl := Option.some.inj hstep
    have hrestarted := hcovers.restarted (r := r) hd
    refine ⟨?_, ?_⟩
    · show Covers (w.state.getD _) _ _
      rw [hstate]
      exact hrestarted
    · cases r with
      | ok => exact hrestarted
      | failed applied => exact raise_ok hrestarted
  case refreshDump p d =>
    obtain rfl := Option.some.inj hstep
    refine ⟨lists_persisted hlisted hstage, ?_⟩
    cases r with
    | ok => exact preparing_ok hstage
    | failed applied => exact raise_ok hstage
  case writePaths p =>
    obtain rfl := Option.some.inj hstep
    refine ⟨hlisted, ?_⟩
    cases r with
    | ok => exact hstage
    | failed applied => exact raise_ok hstage
  case writeState p =>
    obtain rfl := Option.some.inj hstep
    refine ⟨lists_persisted hlisted hstage, ?_⟩
    cases r with
    | ok => trivial
    | failed applied => exact raise_ok hstage
  case destroy c s =>
    obtain rfl := Option.some.inj hstep
    have hcleans : Cleans { c with snapshots := s :: c.snapshots }
        (if r.applied then w.created.filter (· ≠ s) else w.created) w.started :=
      ⟨hstage.covers.destroyed, fun hfailed => (hstage.rest hfailed).destroyed⟩
    refine ⟨hlisted.destroyed, ?_⟩
    cases r with
    | ok =>
      have hgone : s ∉ w.created.filter (· ≠ s) := by simp
      exact hcleans.erased hgone
    | failed applied => exact hcleans
  case probe c s =>
    obtain rfl := Option.some.inj hstep
    refine ⟨hlisted, ?_⟩
    dsimp only
    split
    · rename_i hgone
      rw [Bool.and_eq_true, decide_eq_true_eq] at hgone
      exact hstage.erased hgone.2
    · exact fail_ok hstage.covers
  case unlistSnapshot c =>
    obtain rfl := Option.some.inj hstep
    refine ⟨lists_persisted hlisted hstage.covers, ?_⟩
    cases r with
    | ok => exact next_ok hstage
    | failed applied => trivial
  case stopUnit c d =>
    obtain rfl := Option.some.inj hstep
    refine ⟨hlisted, ?_⟩
    cases r with
    | ok => exact hstage
    | failed applied => exact fail_ok hstage.covers
  case removeArtifact c d =>
    obtain rfl := Option.some.inj hstep
    have hcleans : Cleans { c with nativeDumps := d :: c.nativeDumps } w.created
        (if r.applied then w.started.filter (·.artifactPath ≠ d.artifactPath) else w.started) :=
      ⟨hstage.covers.removed, fun hfailed => (hstage.rest hfailed).removed⟩
    refine ⟨hlisted.removed, ?_⟩
    cases r with
    | ok =>
      have hgone : d ∉ w.started.filter (·.artifactPath ≠ d.artifactPath) := by simp
      exact hcleans.unlisted hgone
    | failed applied => exact fail_ok hcleans.covers
  case unlistDump c =>
    obtain rfl := Option.some.inj hstep
    refine ⟨lists_persisted hlisted hstage.covers, ?_⟩
    cases r with
    | ok => exact next_ok hstage
    | failed applied => exact ite_ok (fail_ok hstage.covers) trivial
  case unlinkPaths c =>
    obtain rfl := Option.some.inj hstep
    refine ⟨hlisted, ?_⟩
    cases r with
    | ok => exact hstage
    | failed applied => trivial
  case finish c =>
    obtain ⟨hcleans, hsnapshots, hdumps⟩ := hstage
    split at hstep
    · obtain rfl := Option.some.inj hstep
      exact ⟨lists_persisted hlisted hcleans.covers, trivial⟩
    · rename_i hfailed
      have hnothing := hcleans.rest (Bool.eq_false_of_not_eq_true hfailed)
      rw [hsnapshots, hdumps] at hnothing
      obtain rfl := Option.some.inj hstep
      refine ⟨?_, ?_⟩
      · dsimp only
        split
        · exact hnothing
        · exact hlisted
      · exact ite_ok trivial trivial
  case unlinkLast =>
    obtain rfl := Option.some.inj hstep
    exact ⟨hlisted, trivial⟩

theorem covers_nothing (hlisted : Lists state created started) (h : priorState state = false)
    (lists : RuntimeState) : Covers lists created started := by
  have hnothing : state.getD ⟨[], []⟩ = ⟨[], []⟩ := by
    cases state with
    | none => rfl
    | some prior =>
      unfold priorState at h
      rw [Option.any_some, Bool.not_eq_false', Bool.and_eq_true, List.isEmpty_iff, List.isEmpty_iff] at h
      obtain ⟨snapshots, nativeDumps⟩ := prior
      obtain ⟨rfl, rfl⟩ := h
      rfl
  unfold Lists at hlisted
  rw [hnothing] at hlisted
  refine ⟨fun s hs => ?_, fun d hd => ?_⟩
  · exact absurd (hlisted.snapshots hs) List.not_mem_nil
  · exact absurd (hlisted.nativeDumps hd) List.not_mem_nil

theorem Inv.step (h : Inv w) (hstep : step w event = some w') : Inv w' := by
  cases event with
  | prepare resources =>
    unfold Backup.step at hstep
    dsimp only at hstep
    split at hstep
    · split at hstep
      · obtain rfl := Option.some.inj hstep
        exact h
      · rename_i hprior
        obtain rfl := Option.some.inj hstep
        exact ⟨h.listed, preparing_ok (covers_nothing h.listed (Bool.eq_false_of_not_eq_true hprior) _)⟩
    · cases hstep
  | cleanup =>
    unfold Backup.step at hstep
    dsimp only at hstep
    split at hstep
    · obtain rfl := Option.some.inj hstep
      exact ⟨h.listed, trivial⟩
    · rename_i hstate
      obtain rfl := Option.some.inj hstep
      have hlisted := h.listed
      rw [hstate] at hlisted
      exact ⟨h.listed, cleaning_ok hlisted⟩
    · cases hstep
  | resource name passes =>
    unfold Backup.step at hstep
    dsimp only at hstep
    split at hstep
    · rename_i p resource hw
      have hstage := h.stage
      rw [hw] at hstage
      obtain rfl := Option.some.inj hstep
      refine ⟨h.listed, ?_⟩
      cases passes with
      | true => exact takeResource_ok resource hstage
      | false => exact raise_ok hstage
    · cases hstep
  | mountpoint name answer =>
    unfold Backup.step at hstep
    dsimp only at hstep
    have hstage := h.stage
    split at hstep
    · rename_i hw
      rw [hw] at hstage
      obtain rfl := Option.some.inj hstep
      exact ⟨h.listed, raise_ok hstage⟩
    · rename_i hw
      rw [hw] at hstage
      obtain rfl := Option.some.inj hstep
      exact ⟨h.listed, takeDataset_ok hstage⟩
    · cases hstep
  | reply r => exact h.reply hstep
  | kill =>
    obtain rfl := Option.some.inj hstep
    exact ⟨h.listed, trivial⟩

theorem inv_initial : Inv .initial := ⟨⟨List.Subset.refl _, List.Subset.refl _⟩, trivial⟩

/-- Whatever backups are prepared and cleaned, whatever command or write fails, and wherever the process
is killed: a snapshot that was created and is there is listed in the state file, and so is a dump
whose unit was started and whose artifact is there; so where there is no state file, there is none. -/
theorem listed_of_reachable (h : Reachable (fun w event w' ↦ step w event = some w') .initial w) :
    (∀ s ∈ w.created, ∃ lists, w.state = some lists ∧ s ∈ lists.snapshots) ∧
      ∀ d ∈ w.started, ∃ lists, w.state = some lists ∧ d ∈ lists.nativeDumps := by
  have hlisted := (h.invariant inv_initial fun _ _ _ => Inv.step).listed
  unfold Lists at hlisted
  cases hstate : w.state with
  | none =>
    rw [hstate] at hlisted
    refine ⟨fun s hs => ?_, fun d hd => ?_⟩
    · exact absurd (hlisted.snapshots hs) List.not_mem_nil
    · exact absurd (hlisted.nativeDumps hd) List.not_mem_nil
  | some lists =>
    rw [hstate] at hlisted
    exact ⟨fun s hs => ⟨lists, rfl, hlisted.snapshots hs⟩, fun d hd => ⟨lists, rfl, hlisted.nativeDumps hd⟩⟩

def demoResource : Resource := .zfsSnapshot "tank/data".toList "/tank/data".toList

def demoSnapshot : List Event :=
  [.prepare [demoResource], .resource "nightly".toList true,
    .mountpoint "nightly".toList (some "/tank/data".toList), .reply .ok]

def demoKilled : List Event := demoSnapshot ++ [.reply (.failed true), .kill]

theorem listed_of_reachable_demo : ∃ w, demoKilled.foldlM step .initial = some w ∧
    ∃ s ∈ w.created, ∃ lists, w.state = some lists ∧ s ∈ lists.snapshots := by
  refine ⟨_, rfl, ⟨"tank/data".toList, "nightly".toList⟩, List.mem_cons_self, ?_⟩
  have hrun : Run (fun w event w' ↦ step w event = some w') .initial demoKilled _ := run_of_foldlM rfl
  exact (listed_of_reachable ⟨demoKilled, hrun⟩).1 _ List.mem_cons_self

end NixNas.Backup
