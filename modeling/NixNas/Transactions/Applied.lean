import NixNas.Transactions.Guarded

/-!
# What a rollback goes back to

The applied revision moves forward only when everything stands at the new one.  So a rollback
restores the text of a revision that the system has stood at, of the one it came up with, or of the
baseline without a service.
-/

open Transition
open NixNas.History (Commit bootstrapBaseline bootstrapBaselineLocked recordDesiredLocked restoreApplied
  restoreFrom_spec restoreApplied_cases rollbackTarget_cases textAt_of_lt lt_of_textAt)

namespace NixNas.Transactions

variable {Doc : Type} {o : Options} {compile : String → Except String (Entry.Compiled Doc)}
variable {h h' : History.State} {c : Commit} {changed : Bool} {failed : Option Commit}
  {r : History.RestoreResult} {settings : Entry.Settings} {i : Invocation}

/-- The log grows, and no revision becomes the applied one that was neither the applied nor the
previous one, unless it is the baseline. -/
structure Follows (h h' : History.State) : Prop where
  commits : h.commits <+: h'.commits
  applied : ∀ c, h'.applied = some c →
    h.applied = some c ∨ h.previousApplied = some c ∨ h'.textAt c = some bootstrapBaseline
  previous : ∀ c, h'.previousApplied = some c → h.applied = some c ∨ h.previousApplied = some c

theorem textAt_of_grown (hgrows : h.commits <+: h'.commits)
    {text : String} (htext : h.textAt c = some text) : h'.textAt c = some text := by
  obtain ⟨rest, hrest⟩ := hgrows
  have hlt := lt_of_textAt htext
  unfold History.State.textAt at htext ⊢
  rw [← hrest, List.getElem?_append_left hlt]
  exact htext

theorem Follows.same (hcommits : h.commits <+: h'.commits) (happlied : h'.applied = h.applied)
    (hprevious : h'.previousApplied = h.previousApplied ∨ h'.previousApplied = h.applied ∨
      h'.previousApplied = none) : Follows h h' := by
  refine ⟨hcommits, ?_, ?_⟩
  · intro c hc
    exact .inl (happlied ▸ hc)
  · intro c hc
    obtain hsame | hkept | hnone := hprevious
    · exact .inr (hsame ▸ hc)
    · exact .inl (hkept ▸ hc)
    · rw [hnone] at hc
      cases hc

theorem Follows.refl (h : History.State) : Follows h h :=
  .same List.prefix_rfl rfl (.inl rfl)

theorem follows_bootstrap
    (hbootstrap : bootstrapBaselineLocked h = .ok (c, changed, h')) : Follows h h' := by
  unfold bootstrapBaselineLocked at hbootstrap
  split at hbootstrap
  · cases hbootstrap
    exact .refl h
  · split at hbootstrap
    · cases hbootstrap
    · cases hbootstrap
      refine ⟨List.prefix_append _ _, ?_, ?_⟩
      · rintro c ⟨⟩
        refine .inr (.inr ?_)
        simp [History.State.textAt, History.State.commit]
      · intro c hc
        exact .inr hc

theorem follows_record (hrecord : recordDesiredLocked h = .ok (c, changed, h')) : Follows h h' := by
  have hcommit : ∀ text, Follows h (h.commit text) := fun text =>
    .same (List.prefix_append _ _) rfl (.inl rfl)
  unfold recordDesiredLocked at hrecord
  split at hrecord
  · cases hrecord
  · split at hrecord
    · split at hrecord
      · cases hrecord
        exact .refl h
      · cases hrecord
        exact hcommit _
    · cases hrecord
      exact hcommit _

theorem follows_restore (hrestore : restoreApplied h failed = .ok (r, h')) : Follows h h' ∧
      (h' = h ∨ ∃ target text, (h.applied = some target ∨ h.previousApplied = some target) ∧
        h.textAt target = some text ∧ h'.authority = some text) := by
  obtain ⟨-, rfl⟩ | ⟨-, applied, target, text, happlied, -, htarget, htext, -, rfl⟩ :=
    restoreApplied_cases hrestore
  · exact ⟨.refl h', .inl rfl⟩
  · have hfrom : h.applied = some target ∨ h.previousApplied = some target := by
      obtain ⟨rfl, -⟩ | ⟨-, hprevious⟩ | ⟨-, -, rfl, -⟩ := rollbackTarget_cases htarget
      · exact .inl happlied
      · exact .inr hprevious
      · exact .inl happlied
    obtain ⟨hauthority, hto, hprevious, hcommits⟩ := restoreFrom_spec h target text happlied
    refine ⟨⟨?_, ?_, ?_⟩, .inr ⟨target, text, hfrom, htext, hauthority⟩⟩
    · obtain ⟨hcommits, -⟩ | ⟨hcommits, -⟩ := hcommits
      · simp [hcommits]
      · simp [hcommits]
    · intro c hc
      cases hto.symm.trans hc
      exact hfrom.imp_right .inl
    · intro c hc
      cases hprevious.symm.trans hc

theorem Follows.restored (hfollows : Follows h h') (effects : Nat) :
    Follows h (restored h h' effects) := by
  match effects with
  | 0 => exact .refl h
  | 1 => exact .same List.prefix_rfl rfl (.inl rfl)
  | 2 => exact .same hfollows.commits rfl (.inl rfl)
  | _ + 3 =>
    refine ⟨hfollows.commits, hfollows.applied, ?_⟩
    intro c hc
    exact .inr hc

theorem follows_apply (w : Entry.World Doc) (name : Generation.GenName)
    (fault : Entry.ApplyFault) (now : Nat) :
    Follows w.history (Entry.applySection settings compile w name fault now).1.history := by
  unfold Entry.applySection
  split
  · exact .refl _
  · split
    · exact .refl _
    · rename_i hrecord
      have hfollows := follows_record hrecord
      dsimp only
      split
      · exact hfollows
      · split
        · exact hfollows
        · split
          · exact hfollows
          · exact hfollows

/-- The entry point bootstraps and records; its other steps leave the history alone. -/
theorem follows_main {e e' : Entry.State Doc} {act : Entry.Action}
    (hstep : Entry.step settings compile e act = some e') :
    Follows e.world.history e'.world.history := by
  unfold Entry.step at hstep
  split at hstep
  · cases hstep
    exact .same List.prefix_rfl rfl (.inl rfl)
  · cases hstep
    unfold Entry.stepBootstrap
    split
    · rename_i hbootstrap
      exact follows_bootstrap hbootstrap
    · exact .refl _
  · cases hstep
    unfold Entry.stepRecord
    split
    · rename_i hrecord
      exact follows_record hrecord
    · exact .refl _
  · cases hstep
    unfold Entry.stepAllocate
    split <;> exact .refl _
  · rename_i name _
    cases hstep
    unfold Entry.stepApply
    dsimp only
    split
    · exact follows_apply _ _ _ _
    · split <;> exact follows_apply _ _ _ _
  · cases hstep
    unfold Entry.stepDiscard
    split <;> exact .refl _
  · cases hstep
    unfold Entry.stepSeal
    split
    · exact .refl _
    · split <;> exact .refl _
  · cases hstep
    unfold Entry.stepLink
    dsimp only
    split <;> exact .refl _
  · cases hstep
    unfold Entry.stepCleanup
    split <;> exact .refl _
  · cases hstep
    unfold Entry.stepPrune
    split <;> exact .refl _
  · cases hstep

variable {s s' : State Doc}

/-- The other events leave the history and the tree alone. -/
def Event.changesWorld : Event → Bool
  | .edit _ | .touchPending | .advance | .partly | .main _ | .restore _ | .restorePartly .. => true
  | _ => false

variable {event : Event}

theorem world_eq_of_step (hevent : event.changesWorld = false)
    (hstep : step o compile s event = some s') : s'.world = s.world := by
  cases event with
  | edit | touchPending | advance | partly | main | restore | restorePartly =>
    simp [Event.changesWorld] at hevent
  | start | stop | crash => grind [step, State.begin, State.drop, State.answer, crash]
  | arm | launched | cleanup | cancel =>
    obtain ⟨i, -, hunit⟩ := Option.bind_eq_some_iff.mp hstep
    grind [arm, launched, cleanup, cancel, State.setRecord, State.setTimer, State.setGuard, State.goto]
  | timerFires | failureUnit | readGuardFile | claim | stopUnit | stopTimers | readFailed | restart
  | skipped | fail | kill | terminal | removeGuardFile =>
    grind [step, timerFires, failureUnit, readGuardFile, claim, stopUnit, stopTimers, readFailed,
      restart, skipped, fail, kill, terminal, removeGuardFile, State.setRecord, State.setTimer,
      State.setGuard, State.move, State.setRollback, State.startRollback, State.drop, State.answer,
      State.begin]

/-- `mark-applied` has read the revision and not kept it yet. -/
def Reads (s : State Doc) (c : Commit) : Prop :=
  ∃ i head, s.unit = some i ∧ i.phase = .keepApplied head (some c)

/-- Everything stands at the revision that becomes the applied one. -/
structure Marks (o : Options) (s s' : State Doc) : Prop where
  commits : s'.world.history.commits = s.world.history.commits
  previous : ∀ c, s'.world.history.previousApplied = some c →
    s.world.history.applied = some c ∨ s.world.history.previousApplied = some c
  applied : ∃ c, s'.world.history.applied = some c ∧ c < s'.world.history.commits.length
  complete : Complete o s'

/-- What a step does to the history: it goes on from the applied revisions that it has, it keeps the
one that was read, or it marks another one. -/
inductive Turns (o : Options) (s s' : State Doc) : Prop where
  | follows (h : Follows s.world.history s'.world.history)
  | keeps (hcommits : s'.world.history.commits = s.world.history.commits)
      (happlied : s'.world.history.applied = s.world.history.applied)
      (hprevious : ∀ c, s'.world.history.previousApplied = some c → Reads s c)
  | marks (h : Marks o s s')

theorem turns_advance (hguarded : Guarded o s) (hi : s.unit = some i)
    (hstep : advance o s i = some s') : Turns o s s' := by
  unfold advance at hstep
  split at hstep
  · obtain ⟨tree, -, rfl⟩ := Option.map_eq_some_iff.mp hstep
    exact .follows (.refl _)
  · split at hstep
    · cases hstep
    · rename_i hbootstrap
      cases hstep
      exact .follows (follows_bootstrap hbootstrap)
  · cases hstep
    exact .follows (.refl _)
  · cases hstep
    exact .follows (.refl _)
  · cases hstep
    exact .follows (.refl _)
  · obtain ⟨head, -, rfl⟩ := Option.map_eq_some_iff.mp hstep
    exact .follows (.refl _)
  · cases hstep
    exact .follows (.refl _)
  · cases hstep
    exact .follows (.refl _)
  · rename_i head hphase
    split at hstep
    · cases hstep
    · rename_i hmark
      cases hstep
      obtain ⟨hlt, rfl⟩ := markApplied_head hmark
      exact .marks ⟨rfl, fun _ hc => .inl hc, ⟨head, rfl, hlt⟩, hguarded.marks hi (.inl hphase) rfl⟩
  · rename_i head old hphase
    cases hstep
    refine .keeps rfl rfl ?_
    intro c hc
    obtain rfl : old = some c := hc
    exact ⟨i, head, hi, hphase⟩
  · rename_i head old hphase
    obtain ⟨⟨-, hknown⟩, hs'⟩ := Option.ite_none_right_eq_some.mp hstep
    cases hs'
    obtain ⟨text, htext⟩ := Option.isSome_iff_exists.mp hknown
    exact .marks ⟨rfl, fun _ hc => .inr hc, ⟨head, rfl, lt_of_textAt htext⟩,
      hguarded.marks hi (.inr ⟨old, hphase⟩) rfl⟩
  · split at hstep
    · cases hstep
    · rename_i hacknowledge
      cases hstep
      obtain ⟨happlied, hprevious, hcommits⟩ := acknowledge_applied hacknowledge
      refine .follows (.same ?_ happlied (.inl hprevious))
      simp [hcommits]
  · cases hstep
    exact .follows (.refl _)
  · cases hstep
    exact .follows (.same List.prefix_rfl rfl (.inr (.inr rfl)))
  · cases hstep

theorem follows_partly (hstep : partly s i = some s') :
    Follows s.world.history s'.world.history := by
  unfold partly at hstep
  split at hstep
  · split at hstep
    · cases hstep
      exact .same (List.prefix_append _ _) rfl (.inl rfl)
    · cases hstep
  · cases hstep
    exact .refl _
  · cases hstep
    exact .refl _
  · cases hstep
    exact .refl _
  · cases hstep
    exact .refl _
  · cases hstep

/-- Only the mark moves the applied revision forward, and there everything stands at it. -/
theorem turns_step (hguarded : Guarded o s)
    (hstep : step o compile s event = some s') : Turns o s s' := by
  by_cases hevent : event.changesWorld = false
  · refine .follows ?_
    rw [world_eq_of_step hevent hstep]
    exact .refl _
  · cases event with
    | edit | touchPending =>
      cases hstep
      exact .follows (.same List.prefix_rfl rfl (.inl rfl))
    | advance =>
      obtain ⟨i, hi, hadvance⟩ := Option.bind_eq_some_iff.mp hstep
      exact turns_advance hguarded hi hadvance
    | partly =>
      obtain ⟨i, -, hpartly⟩ := Option.bind_eq_some_iff.mp hstep
      exact .follows (follows_partly hpartly)
    | main act =>
      obtain ⟨i, -, hmain⟩ := Option.bind_eq_some_iff.mp hstep
      unfold main at hmain
      split at hmain
      · obtain ⟨entry, hentry, rfl⟩ := Option.map_eq_some_iff.mp hmain
        exact .follows (follows_main hentry)
      · cases hmain
    | restore r =>
      simp only [step, restore] at hstep
      split at hstep
      · split at hstep
        · cases hstep
        · rename_i hrestore
          cases hstep
          exact .follows (follows_restore hrestore).1
      · cases hstep
    | restorePartly r effects =>
      simp only [step, restorePartly] at hstep
      split at hstep
      · split at hstep
        · cases hstep
        · rename_i hrestore
          cases hstep
          exact .follows ((follows_restore hrestore).1.restored effects)
      · cases hstep
    | _ => simp [Event.changesWorld] at hevent

theorem reads_of_step (hstep : step o compile s event = some s')
    (hreads : Reads s' c) : s.world.history.applied = some c ∨ Reads s c := by
  obtain ⟨i', head, hi', hphase⟩ := hreads
  have hsame : s'.unit = s.unit → s.world.history.applied = some c ∨ Reads s c :=
    fun hunit => .inr ⟨i', head, hunit ▸ hi', hphase⟩
  cases event with
  | advance =>
    obtain ⟨i, hi, hadvance⟩ := Option.bind_eq_some_iff.mp hstep
    grind [advance, Option.map_eq_some_iff, State.goto]
  | partly =>
    obtain ⟨i, hi, hpartly⟩ := Option.bind_eq_some_iff.mp hstep
    grind [partly, State.goto, State.setHistory, State.setTimer, State.setGuard, State.setStanding]
  | main act =>
    obtain ⟨i, -, hmain⟩ := Option.bind_eq_some_iff.mp hstep
    grind [main, Option.map_eq_some_iff, State.goto]
  | arm | launched | cleanup | cancel =>
    obtain ⟨i, -, hunit⟩ := Option.bind_eq_some_iff.mp hstep
    grind [arm, launched, cleanup, cancel, State.setRecord, State.setTimer, State.setGuard, State.goto]
  | edit | touchPending | start | stop | crash =>
    grind [step, State.begin, State.drop, State.answer, crash, State.setHistory]
  | timerFires | failureUnit | readGuardFile | claim | stopUnit | stopTimers | readFailed | restore
  | restorePartly | restart | skipped | fail | kill | terminal | removeGuardFile =>
    grind [step, timerFires, failureUnit, readGuardFile, claim, stopUnit, stopTimers, readFailed,
      restore, restorePartly, restart, skipped, fail, kill, terminal, removeGuardFile,
      State.setRecord, State.setTimer, State.setGuard, State.move, State.setRollback,
      State.startRollback, State.drop, State.answer, State.begin, State.setHistory]

/-- The revision is the one the system came up with, or the baseline, or everything stood at it,
with the text that it has now, in an earlier state of the run. -/
def Stood (o : Options) (compile : String → Except String (Entry.Compiled Doc))
    (world : Entry.World Doc) (s : State Doc) (c : Commit) : Prop :=
  (world.history.applied = some c ∨ world.history.previousApplied = some c) ∨
    s.world.history.textAt c = some bootstrapBaseline ∨
    ∃ t text, Reachable (fun s event s' ↦ step o compile s event = some s') (boot world) t ∧
      Reachable (fun s event s' ↦ step o compile s event = some s') t s ∧ Complete o t ∧
      t.world.history.applied = some c ∧ t.world.history.textAt c = some text ∧
      s.world.history.textAt c = some text

variable {world : Entry.World Doc}

theorem Stood.step (h : Stood o compile world s c)
    (hcommits : s.world.history.commits <+: s'.world.history.commits)
    (hstep : step o compile s event = some s') : Stood o compile world s' c := by
  obtain hinherited | hbaseline | ⟨t, text, hboot, hrest, hcomplete, happlied, hthen, hnow⟩ := h
  · exact .inl hinherited
  · exact .inr (.inl (textAt_of_grown hcommits hbaseline))
  · exact .inr (.inr ⟨t, text, hboot, hrest.tail hstep, hcomplete, happlied, hthen,
      textAt_of_grown hcommits hnow⟩)

/-- The two applied revisions, and the one that `mark-applied` has read, are ones that the system has
stood at. -/
structure Proven (o : Options) (compile : String → Except String (Entry.Compiled Doc))
    (world : Entry.World Doc) (s : State Doc) : Prop where
  reachable : Reachable (fun s event s' ↦ step o compile s event = some s') (boot world) s
  guarded : Guarded o s
  single : Single (boot world) s
  applied : ∀ c, s.world.history.applied = some c → Stood o compile world s c
  previous : ∀ c, s.world.history.previousApplied = some c → Stood o compile world s c
  reads : ∀ c, Reads s c → Stood o compile world s c

theorem Turns.grows (h : Turns o s s') : s.world.history.commits <+: s'.world.history.commits := by
  cases h with
  | follows hfollows => exact hfollows.commits
  | keeps hcommits => simp [hcommits]
  | marks hmarks => simp [hmarks.commits]

theorem Proven.step (h : Proven o compile world s)
    (hstep : step o compile s event = some s') : Proven o compile world s' := by
  have hturns := turns_step h.guarded hstep
  have hreachable := h.reachable.tail hstep
  have hkept : ∀ c, Stood o compile world s c → Stood o compile world s' c :=
    fun c hc => hc.step hturns.grows hstep
  refine ⟨hreachable, h.guarded.step h.single hstep, h.single.step hstep, ?_, ?_, ?_⟩
  · intro c hc
    cases hturns with
    | follows hfollows =>
      obtain hwas | hwas | hbaseline := hfollows.applied c hc
      · exact hkept c (h.applied c hwas)
      · exact hkept c (h.previous c hwas)
      · exact .inr (.inl hbaseline)
    | keeps _ happlied => exact hkept c (h.applied c (happlied ▸ hc))
    | marks hmarks =>
      obtain ⟨head, happlied, hlt⟩ := hmarks.applied
      cases happlied.symm.trans hc
      obtain ⟨text, htext⟩ := textAt_of_lt hlt
      exact .inr (.inr ⟨s', text, hreachable, .refl s', hmarks.complete, happlied, htext, htext⟩)
  · intro c hc
    cases hturns with
    | follows hfollows =>
      obtain hwas | hwas := hfollows.previous c hc
      · exact hkept c (h.applied c hwas)
      · exact hkept c (h.previous c hwas)
    | keeps _ _ hprevious => exact hkept c (h.reads c (hprevious c hc))
    | marks hmarks =>
      obtain hwas | hwas := hmarks.previous c hc
      · exact hkept c (h.applied c hwas)
      · exact hkept c (h.previous c hwas)
  · intro c hc
    obtain hwas | hwas := reads_of_step hstep hc
    · exact hkept c (h.applied c hwas)
    · exact hkept c (h.reads c hwas)

theorem proven_of_reachable (hboot : world.tree.current = .absent)
    (h : Reachable (fun s event s' ↦ step o compile s event = some s') (boot world) s) :
    Proven o compile world s := by
  apply h.invariant
  · refine ⟨.refl _, guarded_boot hboot, single_boot world, ?_, ?_, ?_⟩
    · intro c hc
      exact .inl (.inl hc)
    · intro c hc
      exact .inl (.inr hc)
    · rintro c ⟨i, head, hi, -⟩
      cases hi
  · intro _ _ _ hproven hstep
    exact hproven.step hstep

theorem restored_authority (before after : History.State) (effects : Nat) :
    (restored before after effects).authority = before.authority ∨
      (restored before after effects).authority = after.authority := by
  match effects with
  | 0 => exact .inl rfl
  | 1 => exact .inr rfl
  | 2 => exact .inr rfl
  | _ + 3 => exact .inr rfl

theorem Proven.restored (h : Proven o compile world s) {history : History.State}
    (hrestore : restoreApplied s.world.history failed = .ok (r, history)) :
    history.authority = s.world.history.authority ∨
      ∃ c text, s.world.history.textAt c = some text ∧ history.authority = some text ∧
        Stood o compile world s c := by
  obtain ⟨-, rfl | ⟨target, text, hfrom, htext, hauthority⟩⟩ := follows_restore hrestore
  · exact .inl rfl
  · refine .inr ⟨target, text, htext, hauthority, ?_⟩
    obtain happlied | hprevious := hfrom
    · exact h.applied target happlied
    · exact h.previous target hprevious

/-- A rollback, whole or cut off, changes the authority only to the text of a revision that the
system has stood at, that it came up with, or that is the baseline. -/
theorem restored_stood (hboot : world.tree.current = .absent)
    (h : Reachable (fun s event s' ↦ step o compile s event = some s') (boot world) s) {r : Nat}
    {event : Event} (hevent : event = .restore r ∨ ∃ effects, event = .restorePartly r effects)
    (hstep : step o compile s event = some s') :
    s'.world.history.authority = s.world.history.authority ∨
      ∃ c text, s.world.history.textAt c = some text ∧
        s'.world.history.authority = some text ∧ Stood o compile world s c := by
  have hproven := proven_of_reachable hboot h
  obtain rfl | ⟨effects, rfl⟩ := hevent
  · simp only [step, restore] at hstep
    split at hstep
    · split at hstep
      · cases hstep
      · rename_i hrestore
        cases hstep
        exact hproven.restored hrestore
    · cases hstep
  · simp only [step, restorePartly] at hstep
    split at hstep
    · split at hstep
      · cases hstep
      · rename_i hrestore
        cases hstep
        obtain hbefore | hafter := restored_authority s.world.history _ effects
        · exact .inl hbefore
        · have hrestored := hproven.restored hrestore
          rw [← hafter] at hrestored
          exact hrestored
    · cases hstep

def demoApplied : List Event :=
  demoPublished ++ List.replicate 7 .advance ++
    [.cancel Guard.idle true Guard.idle Guard.idle, .advance, .advance]

/-- A second one fails at the network, and the failure unit runs the rollback up to the restore. -/
def demoRolledBack : List Event :=
  demoApplied ++ .edit (some "b") :: demoHalf ++
    [.failureUnit, .readGuardFile 0, .claim 0, .stopUnit 0 true, .stopTimers 0 [1], .readFailed 0]

theorem restored_stood_demo : ∃ s s' t : State String,
    step demoOptions Entry.copying s (.restore 0) = some s' ∧
      s.world.history.authority = some "b" ∧ s'.world.history.authority = some "a" ∧
      Reachable (fun s event s' ↦ step demoOptions Entry.copying s event = some s') t s ∧
      Complete demoOptions t := by
  have hrun : ((demoRolledBack.foldlM (step demoOptions Entry.copying) (boot Entry.firstBoot)).bind
      fun s ↦ (step demoOptions Entry.copying s (.restore 0)).map fun s' ↦
        (s.world.history.authority, s'.world.history.authority)) = some (some "b", some "a") := by
    decide +kernel
  obtain ⟨s, hs, hrestore⟩ := Option.bind_eq_some_iff.mp hrun
  obtain ⟨s', hs', hauthority⟩ := Option.map_eq_some_iff.mp hrestore
  rw [Prod.mk.injEq] at hauthority
  obtain ⟨hbefore, hafter⟩ := hauthority
  obtain hsame | ⟨c, text, htext, hrestored, hstood⟩ :=
    restored_stood rfl ⟨_, run_of_foldlM hs⟩ (.inl rfl) hs'
  · simp [hbefore, hafter] at hsame
  · obtain rfl : text = "a" := Option.some.inj (hrestored.symm.trans hafter)
    obtain (hinherited | hinherited) | hbaseline | ⟨t, _, _, hrest, hcomplete, _, _, _⟩ := hstood
    · cases hinherited
    · cases hinherited
    · have hsame := Option.some.inj (htext.symm.trans hbaseline)
      exact absurd hsame (by decide)
    · exact ⟨s, s', t, hs', hbefore, hafter, hrest, hcomplete⟩

end NixNas.Transactions
