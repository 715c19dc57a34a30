import NixNas.Secret.Rollback

/-!
# What the cleanup leaves of the secret trees

The rollback restores the old tree, or says that it could not, wherever the flags know of the last
move.  Behind an unrecorded move it depends on the commands that fail.
-/

namespace NixNas.Secret

variable {File : Type} [DecidableEq File] {setup : Setup File}
  {live staged prior : Option (SecretTree File)} {s : Transaction File} {rc : Fin 256}
  {r : RollbackReplies File}

/-! ## The parts of a rollback -/

/-- `nas_secret_tx_stop_target` returns zero. -/
def stops (r : RollbackReplies File) : Bool := r.stop.ok || !(r.isActive.ok && r.stop.active)

omit [DecidableEq File] in
theorem stopTarget_eq : stopTarget r.stop r.isActive s =
    ({ s with active := !r.stop.ok && r.stop.active }, stops r) := by
  unfold stopTarget stops
  cases r.stop.ok <;> rfl

def rootAfterRemoval (r : RollbackReplies File) (s : Transaction File) : Option (SecretTree File) :=
  if s.newInstalled then rm r.removeRoot r.removeRoot.kept s.root else s.root

def removes (r : RollbackReplies File) (s : Transaction File) : Bool :=
  !s.newInstalled || r.removeRoot.ok

def beforeRestore (r : RollbackReplies File) (s : Transaction File) : Transaction File :=
  { s with active := !r.stop.ok && r.stop.active, root := rootAfterRemoval r s }

def restarts (setup : Setup File) (r : RollbackReplies File) (s : Transaction File) : Bool :=
  !s.wasActive || (r.testReady.ok && isReadyTree setup s.root && r.testReadyLink.ok && r.start.ok)

def restored (setup : Setup File) (r : RollbackReplies File) (s : Transaction File) : Bool :=
  let after := restoreOld r (beforeRestore r s)
  stops r && removes r s && after.2 && restarts setup r after.1

theorem removeStage_eq (setup : Setup File) (r : RollbackReplies File) (s : Transaction File)
    (ok : Bool) : (removeStage setup r ok s).1.root = s.root ∧
    (removeStage setup r ok s).1.previous =
      (if ok && r.removeStage.ok && setup.hasDirectory then
        rm r.removeDirectory r.removeDirectory.keptPrevious s.previous else s.previous) ∧
    (removeStage setup r ok s).2 =
      (ok && r.removeStage.ok && removesDirectory setup r.removeDirectory) ∧
    (removeStage setup r ok s).1.committed = s.committed := by
  unfold removeStage removeDirectory removesDirectory
  cases ok <;> cases r.removeStage.ok <;> cases setup.hasDirectory <;> exact ⟨rfl, rfl, rfl, rfl⟩

theorem restoreOld_committed : (restoreOld r s).1.committed = s.committed := by
  unfold restoreOld
  split
  · split
    · split
      · split <;> rfl
      · rfl
    · rfl
  · rfl

omit [DecidableEq File] in
theorem restart_eq (setup : Setup File) (r : RollbackReplies File) (s : Transaction File) (ok : Bool) :
    let after := if s.wasActive && ok then restartTarget setup r s else (s, ok)
    after.1.root = s.root ∧ after.1.previous = s.previous ∧ after.2 = (ok && restarts setup r s) ∧
      after.1.committed = s.committed := by
  dsimp only
  unfold restarts restartTarget
  cases s.wasActive with
  | false => exact ⟨rfl, rfl, by cases ok <;> rfl, rfl⟩
  | true =>
    cases ok with
    | false => exact ⟨rfl, rfl, rfl, rfl⟩
    | true =>
      rw [Bool.and_self, if_pos rfl]
      split
      · rename_i hready
        rw [hready]
        exact ⟨rfl, rfl, rfl, rfl⟩
      · rename_i hready
        rw [Bool.not_eq_true] at hready
        rw [hready]
        exact ⟨rfl, rfl, rfl, rfl⟩

theorem rollback_started (setup : Setup File) (r : RollbackReplies File)
    (hstarted : s.swapStarted = true) (hcommitted : s.committed = false) :
    let after := (restoreOld r (beforeRestore r s)).1
    let outcome := rollback setup r s
    outcome.1.root = after.root ∧
      outcome.1.previous = (if restored setup r s && r.removeStage.ok && setup.hasDirectory then
        rm r.removeDirectory r.removeDirectory.keptPrevious after.previous else after.previous) ∧
      outcome.2 = (restored setup r s && r.removeStage.ok && removesDirectory setup r.removeDirectory) ∧
      outcome.1.committed = false := by
  have hbefore : (if s.newInstalled then
      { ({ s with active := !r.stop.ok && r.stop.active } : Transaction File) with
        root := rm r.removeRoot r.removeRoot.kept s.root }
      else { s with active := !r.stop.ok && r.stop.active }) = beforeRestore r s := by
    unfold beforeRestore rootAfterRemoval
    split <;> rfl
  dsimp only
  unfold rollback
  rw [hcommitted, hstarted, if_neg Bool.false_ne_true, if_neg (by decide), stopTarget_eq]
  dsimp only
  rw [hbefore]
  have hremoves : (!s.newInstalled || r.removeRoot.ok) = removes r s := rfl
  rw [hremoves]
  have hopen : (restoreOld r (beforeRestore r s)).1.committed = false :=
    restoreOld_committed.trans hcommitted
  unfold restored
  dsimp only
  generalize restoreOld r (beforeRestore r s) = after at hopen ⊢
  obtain ⟨t, back⟩ := after
  dsimp only at hopen ⊢
  obtain ⟨hroot, hprevious, hok, hcommitted'⟩ :=
    restart_eq setup r t (stops r && removes r s && back)
  generalize (if t.wasActive && (stops r && removes r s && back) then restartTarget setup r t
    else (t, stops r && removes r s && back)) = started at hroot hprevious hok hcommitted' ⊢
  obtain ⟨u, ok⟩ := started
  dsimp only at hroot hprevious hok hcommitted' ⊢
  obtain ⟨hroot', hprevious', hok', hopen'⟩ := removeStage_eq setup r u ok
  rw [hroot', hprevious', hok', hopen', hok, hroot, hprevious]
  exact ⟨rfl, rfl, rfl, hcommitted'.trans hopen⟩

/-! ## What is promised -/

/-- The transaction was committed, or the root is what it was, or the cleanup says that it failed
and the old tree is there. -/
def Kept (live staged : Option (SecretTree File)) (final : Transaction File) (status : ℕ) : Prop :=
  (final.committed = true ∧ staged.isSome = true ∧ final.root = staged) ∨ final.root = live ∨
    (status = 125 ∧ ∀ old, live = some old → final.root = some old ∨ final.previous = some old)

def Open (s : Transaction File) : Prop := s.swapStarted = true ∧ s.committed = false

/-- The old tree stands aside, and its flag is not set. -/
def OldUnrecorded (s : Transaction File) : Prop :=
  Open s ∧ s.previous.isSome = true ∧ s.oldMoved = false

/-- Nothing complains when the old tree goes away with the directory, or stays aside. -/
def LosesOld (setup : Setup File) (rc : Fin 256) (r : RollbackReplies File) (s : Transaction File) :
    Prop :=
  s.wasActive = false ∧ stops r = true ∧ r.removeStage.ok = true ∧
    if setup.hasDirectory then
      rm r.removeDirectory r.removeDirectory.keptPrevious s.previous ≠ s.previous
    else rc ≠ 0 ∧ rc ≠ 125

/-- The new tree stands where there was none, and its flag is not set. -/
def NewUnrecorded (live : Option (SecretTree File)) (s : Transaction File) : Prop :=
  Open s ∧ live = none ∧ s.stage = none ∧ s.newInstalled = false

/-- Nothing complains while the new tree stays. -/
def LeavesNew (setup : Setup File) (rc : Fin 256) (r : RollbackReplies File) (s : Transaction File) :
    Prop :=
  stops r = true ∧
    (s.wasActive = true → r.testReady.ok = true ∧ r.testReadyLink.ok = true ∧ r.start.ok = true) ∧
    r.removeStage.ok = true ∧ removesDirectory setup r.removeDirectory = true ∧ rc ≠ 0 ∧ rc ≠ 125

/-- An empty live directory was replaced by the new tree instead of being moved. -/
def EmptyReplaced (live : Option (SecretTree File)) (s : Transaction File) : Prop :=
  Open s ∧ live = some ∅ ∧ s.stage = none ∧ s.previous = none

/-- The failing removal of the new tree does not leave an empty directory. -/
def LosesEmpty (r : RollbackReplies File) (s : Transaction File) : Prop :=
  ¬ (s.newInstalled = true ∧ rm r.removeRoot r.removeRoot.kept s.root = some ∅)

/-- No exit of these three kinds, or a cleanup that makes up for it. -/
def Recoverable (setup : Setup File) (live : Option (SecretTree File)) (rc : Fin 256)
    (r : RollbackReplies File) (s : Transaction File) : Prop :=
  ¬ (OldUnrecorded s ∧ LosesOld setup rc r s) ∧ ¬ (NewUnrecorded live s ∧ LeavesNew setup rc r s) ∧
    ¬ (EmptyReplaced live s ∧ LosesEmpty r s)

theorem recoverable_of_not (hold : ¬ OldUnrecorded s)
    (hnew : ¬ NewUnrecorded live s) (hempty : ¬ EmptyReplaced live s) :
    Recoverable setup live rc r s :=
  ⟨fun h => hold h.1, fun h => hnew h.1, fun h => hempty h.1⟩

omit [DecidableEq File] in
theorem isSome_of_ready {tree : Option (SecretTree File)} (h : isReadyTree setup tree = true) :
    ∃ t, tree = some t ∧ t ≠ ∅ := by
  cases tree with
  | none => cases h
  | some t =>
    refine ⟨t, rfl, ?_⟩
    rintro rfl
    simp [isReadyTree] at h

theorem cleanup_open (h : s.committed = false) : cleanup setup rc r s =
    ((rollback setup r s).1, if !(rollback setup r s).2 || rc = 0 then 125 else (rc : ℕ)) := by
  unfold cleanup
  rw [h, if_neg Bool.false_ne_true]

/-! ## The cases -/

theorem kept_early (h : Early live staged prior s) :
    Kept live staged (cleanup setup rc r s).1 (cleanup setup rc r s).2 := by
  rw [cleanup_open h.committed]
  right
  left
  unfold rollback
  rw [h.committed, h.started, if_neg Bool.false_ne_true, if_pos (by decide)]
  exact (removeStage_eq setup r s true).1.trans h.root

theorem kept_unmoved (h : Unmoved setup live staged s) :
    Kept live staged (cleanup setup rc r s).1 (cleanup setup rc r s).2 := by
  rw [cleanup_open h.committed]
  right
  left
  rw [(rollback_started setup r h.started h.committed).1]
  unfold restoreOld
  have hold : (beforeRestore r s).oldMoved = false := h.oldMoved
  rw [hold, if_neg Bool.false_ne_true]
  show rootAfterRemoval r s = live
  rw [rootAfterRemoval, h.newInstalled, if_neg Bool.false_ne_true, h.root]

theorem restoreOld_cases {old : Option (SecretTree File)} (hmoved : s.oldMoved = true)
    (hprevious : s.previous = old) :
    (restoreOld r s).1.root = old ∨ ((restoreOld r s).2 = false ∧ (restoreOld r s).1.previous = old) := by
  unfold restoreOld
  rw [hmoved, if_pos rfl]
  split
  · split
    · cases hmv : mv s.previous s.root with
      | none => exact .inr ⟨rfl, hprevious⟩
      | some moved =>
        left
        have hsome : (mv s.previous s.root).isSome = true := by rw [hmv]; rfl
        obtain ⟨heq, -, -⟩ := mv_isSome hsome
        rw [hmv] at heq
        exact (Option.some.inj heq).trans hprevious
    · exact .inr ⟨rfl, hprevious⟩
  · exact .inr ⟨rfl, hprevious⟩

theorem kept_oldMoved (hstarted : s.swapStarted = true) (hcommitted : s.committed = false)
    (hmoved : s.oldMoved = true) (hprevious : s.previous = live) :
    Kept live staged (cleanup setup rc r s).1 (cleanup setup rc r s).2 := by
  rw [cleanup_open hcommitted]
  obtain ⟨hroot, haside, hok, -⟩ := rollback_started setup r hstarted hcommitted
  right
  rcases restoreOld_cases (s := beforeRestore r s) hmoved hprevious with hback | ⟨hfails, hold⟩
  · exact .inl (hroot.trans hback)
  · -- a failed restore keeps the directory
    have hrestored : restored setup r s = false := by
      unfold restored
      dsimp only
      rw [hfails, Bool.and_false, Bool.false_and]
    rw [hrestored, Bool.false_and, Bool.false_and, if_neg Bool.false_ne_true, hold] at haside
    rw [hrestored, Bool.false_and, Bool.false_and] at hok
    right
    rw [hok]
    exact ⟨rfl, fun old hlive => .inr (haside.trans hlive)⟩

theorem status_eq_iff {ok : Bool} :
    (if !ok || rc = 0 then 125 else (rc : ℕ)) = 125 ↔ ¬ (ok = true ∧ rc ≠ 0 ∧ rc ≠ 125) := by
  have hrc : (rc : ℕ) = 125 ↔ rc = 125 := by
    rw [Fin.ext_iff]
    rfl
  cases ok with
  | false => simp
  | true =>
    by_cases hzero : rc = 0
    · simp [hzero]
    · simp [hzero, hrc]

theorem kept_moved_iff (h : Moved setup live staged s) (hflag : s.oldMoved = false) :
    Kept live staged (cleanup setup rc r s).1 (cleanup setup rc r s).2 ↔ ¬ LosesOld setup rc r s := by
  obtain ⟨old, rfl⟩ := Option.isSome_iff_exists.mp h.isSome
  rw [cleanup_open h.committed]
  obtain ⟨hroot, haside, hok, hopen⟩ := rollback_started setup r h.started h.committed
  have hnoRestore : restoreOld r (beforeRestore r s) = (beforeRestore r s, true) := by
    unfold restoreOld
    have hold : (beforeRestore r s).oldMoved = false := hflag
    rw [hold, if_neg Bool.false_ne_true]
  have hrootNone : (beforeRestore r s).root = none := by
    show rootAfterRemoval r s = none
    rw [rootAfterRemoval, h.newInstalled, if_neg Bool.false_ne_true, h.root]
  rw [hnoRestore] at hroot haside
  dsimp only at hroot haside
  rw [hrootNone] at hroot
  -- nothing is ready at the root, so the target is not started again
  have hrestored : restored setup r s = (stops r && !s.wasActive) := by
    unfold restored restarts removes
    dsimp only
    rw [hnoRestore, h.newInstalled]
    dsimp only
    rw [hrootNone]
    have hnotReady : isReadyTree setup (none : Option (SecretTree File)) = false := rfl
    have hactive : (beforeRestore r s).wasActive = s.wasActive := rfl
    rw [hnotReady, hactive]
    cases stops r <;> cases s.wasActive <;> cases r.testReady.ok <;> rfl
  have hprevious : (beforeRestore r s).previous = s.previous := rfl
  rw [hrestored, hprevious] at haside
  rw [hrestored] at hok
  unfold Kept
  rw [hopen, hroot, status_eq_iff, hok, haside]
  have hfinal : (∀ tree, some old = some tree →
      (none : Option (SecretTree File)) = some tree ∨ (if (stops r && !s.wasActive) && r.removeStage.ok &&
        setup.hasDirectory then rm r.removeDirectory r.removeDirectory.keptPrevious s.previous
        else s.previous) = some tree) ↔
      (if (stops r && !s.wasActive) && r.removeStage.ok && setup.hasDirectory then
        rm r.removeDirectory r.removeDirectory.keptPrevious s.previous else s.previous) = s.previous := by
    rw [h.previous]
    constructor
    · intro hall
      rcases hall old rfl with hnone | hsome
      · cases hnone
      · exact hsome
    · intro heq tree htree
      rw [← htree]
      exact .inr heq
  rw [hfinal]
  unfold LosesOld removesDirectory
  rw [h.previous]
  have hgone : rm r.removeDirectory r.removeDirectory.keptPrevious (some old) = some old →
      r.removeDirectory.ok = false := by
    intro hkept
    unfold rm at hkept
    split at hkept
    · cases hkept
    · rename_i hfails
      exact Bool.eq_false_iff.mpr hfails
  cases s.wasActive with
  | true => simp
  | false =>
    cases stops r with
    | false => simp
    | true =>
      cases r.removeStage.ok with
      | false => simp
      | true =>
        cases setup.hasDirectory with
        | false => simp
        | true =>
          simp only [Bool.not_false, Bool.and_self, if_true, Bool.not_true, Bool.false_or,
            Bool.false_eq_true, false_and, false_or, reduceCtorEq, true_and, ne_eq, not_not]
          constructor
          · exact fun hboth => hboth.2
          · intro hkept
            exact ⟨fun hsilent => by rw [hgone hkept] at hsilent; exact absurd hsilent.1 nofun, hkept⟩

theorem restoreOld_unflagged (h : s.oldMoved = false) :
    restoreOld r (beforeRestore r s) = (beforeRestore r s, true) := by
  unfold restoreOld
  have hold : (beforeRestore r s).oldMoved = false := h
  rw [hold, if_neg Bool.false_ne_true]

theorem kept_installed_none_iff (h : Installed setup none staged s) (hflag : s.oldMoved = false) :
    Kept none staged (cleanup setup rc r s).1 (cleanup setup rc r s).2 ↔
      ¬ (s.newInstalled = false ∧ LeavesNew setup rc r s) := by
  rw [cleanup_open h.committed]
  obtain ⟨hroot, -, hok, hopen⟩ := rollback_started setup r h.started h.committed
  rw [restoreOld_unflagged hflag] at hroot
  have hroot' : (rollback setup r s).1.root = rootAfterRemoval r s := hroot
  have hrestored : restored setup r s =
      (stops r && removes r s && restarts setup r (beforeRestore r s)) := by
    unfold restored
    dsimp only
    rw [restoreOld_unflagged hflag]
    dsimp only
    rw [Bool.and_true]
  cases hnew : s.newInstalled with
  | true =>
    -- the new tree is removed, or the failing removal is reported
    refine iff_of_true ?_ (fun hnot => nomatch hnot.1)
    cases hremove : r.removeRoot.ok with
    | true =>
      right
      left
      rw [hroot', rootAfterRemoval, hnew, if_pos rfl]
      unfold rm
      rw [if_pos hremove]
    | false =>
      right
      right
      have hremoves : removes r s = false := by rw [removes, hnew, hremove]; rfl
      rw [hok, hrestored, hremoves, Bool.and_false, Bool.false_and, Bool.false_and, Bool.false_and]
      exact ⟨rfl, nofun⟩
  | false =>
    obtain ⟨new, hsome, -⟩ := isSome_of_ready h.ready
    have hremoves : removes r s = true := by rw [removes, hnew]; rfl
    have hstays : rootAfterRemoval r s = some new := by
      rw [rootAfterRemoval, hnew, if_neg Bool.false_ne_true, h.root, hsome]
    have hready : isReadyTree setup (beforeRestore r s).root = true := by
      show isReadyTree setup (rootAfterRemoval r s) = true
      rw [hstays, ← hsome]
      exact h.ready
    have hactive : (beforeRestore r s).wasActive = s.wasActive := rfl
    unfold Kept
    rw [hopen, hroot', hstays, status_eq_iff, hok, hrestored, hremoves, restarts, hready, hactive]
    unfold LeavesNew
    cases s.wasActive <;> simp [and_assoc]

theorem kept_installed_empty_iff (h : Installed setup (some ∅) staged s) (hflag : s.oldMoved = false)
    (hprevious : s.previous = none) :
    Kept (some ∅) staged (cleanup setup rc r s).1 (cleanup setup rc r s).2 ↔ ¬ LosesEmpty r s := by
  rw [cleanup_open h.committed]
  obtain ⟨hroot, haside, -, hopen⟩ := rollback_started setup r h.started h.committed
  rw [restoreOld_unflagged hflag] at hroot haside
  have hroot' : (rollback setup r s).1.root = rootAfterRemoval r s := hroot
  have hnone : (rollback setup r s).1.previous = none := by
    have hbefore : (beforeRestore r s).previous = none := hprevious
    rw [haside]
    dsimp only
    rw [hbefore]
    split
    · unfold rm
      split <;> rfl
    · rfl
  have hkept : Kept (some ∅) staged (rollback setup r s).1
      (if !(rollback setup r s).2 || rc = 0 then 125 else (rc : ℕ)) ↔
        rootAfterRemoval r s = some ∅ := by
    unfold Kept
    rw [hopen, hroot', hnone]
    constructor
    · rintro (⟨hcommitted, -⟩ | hback | ⟨-, hthere⟩)
      · cases hcommitted
      · exact hback
      · rcases hthere ∅ rfl with hback | hgone
        · exact hback
        · cases hgone
    · exact fun hback => .inr (.inl hback)
  rw [hkept]
  unfold LosesEmpty rootAfterRemoval
  rw [not_not]
  cases hnew : s.newInstalled with
  | true => rw [if_pos rfl, and_iff_right rfl]
  | false =>
    -- the new tree stays, and it is not empty
    rw [if_neg Bool.false_ne_true]
    refine iff_of_false ?_ (fun hnot => nomatch hnot.1)
    obtain ⟨new, hsome, hne⟩ := isSome_of_ready h.ready
    rw [h.root, hsome]
    exact fun heq => hne (Option.some.inj heq)

/-- After the cleanup the transaction was committed with the staged tree at the root, or the root is
what it was, or the status is 125 and the old tree is there: exactly where no exit behind an
unrecorded move, and no replaced empty directory, goes unnoticed. -/
theorem kept_iff_recoverable (setup : Setup File) (live staged prior : Option (SecretTree File))
    (active : Bool) (others signal : ℕ) (replies : List (Reply File)) (rc : Fin 256)
    (r : RollbackReplies File) :
    let s := exitState setup others signal replies (init live staged prior active)
    Kept live staged (cleanup setup rc r s).1 (cleanup setup rc r s).2 ↔
      Recoverable setup live rc r s := by
  dsimp only
  have hleft := left_exitState setup live staged prior active others signal replies
  generalize exitState setup others signal replies (init live staged prior active) = s at hleft ⊢
  cases hleft with
  | early h =>
    refine iff_of_true (kept_early h) (recoverable_of_not ?_ ?_ ?_)
    all_goals
      intro hopen
      have hstarted := hopen.1.1
      rw [h.started] at hstarted
      cases hstarted
  | unmoved h =>
    obtain ⟨new, hsome, -⟩ := isSome_of_ready h.ready
    have hstage : s.stage = some new := h.stage.trans hsome
    refine iff_of_true (kept_unmoved h) (recoverable_of_not (fun hold => ?_) (fun hnew => ?_)
      fun hempty => ?_)
    · have hprevious := hold.2.1
      rw [h.previous] at hprevious
      cases hprevious
    · exact nomatch hstage.symm.trans hnew.2.2.1
    · exact nomatch hstage.symm.trans hempty.2.2.1
  | moved h =>
    obtain ⟨new, hsome, -⟩ := isSome_of_ready h.ready
    have hstage : s.stage = some new := h.stage.trans hsome
    have hnew : ¬ NewUnrecorded live s := fun hnew => nomatch hstage.symm.trans hnew.2.2.1
    have hempty : ¬ EmptyReplaced live s := fun hempty => nomatch hstage.symm.trans hempty.2.2.1
    cases hflag : s.oldMoved with
    | true =>
      refine iff_of_true (kept_oldMoved h.started h.committed hflag h.previous)
        (recoverable_of_not (fun hold => ?_) hnew hempty)
      exact nomatch hflag.symm.trans hold.2.2
    | false =>
      rw [kept_moved_iff h hflag]
      have hold : OldUnrecorded s :=
        ⟨⟨h.started, h.committed⟩, by rw [h.previous]; exact h.isSome, hflag⟩
      exact ⟨fun hkept => ⟨fun hboth => hkept hboth.2, fun hboth => hnew hboth.1,
        fun hboth => hempty hboth.1⟩, fun hrec hloses => hrec.1 ⟨hold, hloses⟩⟩
  | installed h =>
    have hopen : Open s := ⟨h.started, h.committed⟩
    rcases h.old with ⟨hflag, hsome, hprevious⟩ | ⟨hflag, hprevious, rfl | rfl⟩
    · obtain ⟨old, rfl⟩ := Option.isSome_iff_exists.mp hsome
      refine iff_of_true (kept_oldMoved h.started h.committed hflag hprevious)
        (recoverable_of_not (fun hold => ?_) (fun hnew => nomatch hnew.2.1) fun hempty => ?_)
      · exact nomatch hflag.symm.trans hold.2.2
      · exact nomatch hprevious.symm.trans hempty.2.2.2
    · rw [kept_installed_none_iff h hflag]
      have hold : ¬ OldUnrecorded s := fun hold => by
        have haside := hold.2.1
        rw [hprevious] at haside
        cases haside
      have hempty : ¬ EmptyReplaced none s := fun hempty => nomatch hempty.2.1
      exact ⟨fun hkept => ⟨fun hboth => hold hboth.1, fun hboth => hkept ⟨hboth.1.2.2.2, hboth.2⟩,
        fun hboth => hempty hboth.1⟩,
        fun hrec hboth => hrec.2.1 ⟨⟨hopen, rfl, h.stage, hboth.1⟩, hboth.2⟩⟩
    · rw [kept_installed_empty_iff h hflag hprevious]
      have hold : ¬ OldUnrecorded s := fun hold => by
        have haside := hold.2.1
        rw [hprevious] at haside
        cases haside
      have hnew : ¬ NewUnrecorded (some ∅) s := fun hnew => nomatch hnew.2.1
      exact ⟨fun hkept => ⟨fun hboth => hold hboth.1, fun hboth => hnew hboth.1,
        fun hboth => hkept hboth.2⟩,
        fun hrec hloses => hrec.2.2 ⟨⟨hopen, rfl, h.stage, hprevious⟩, hloses⟩⟩
  | committed h =>
    obtain ⟨new, hsome, -⟩ := isSome_of_ready h.ready
    have hsame : cleanup setup rc r s = (s, (rc : ℕ)) := by
      unfold cleanup
      rw [h.committed, if_pos rfl]
    rw [hsame]
    refine iff_of_true (.inl ⟨h.committed, by rw [hsome]; rfl, h.root⟩) (recoverable_of_not ?_ ?_ ?_)
    all_goals
      intro hopen
      have hnot := hopen.1.2
      rw [h.committed] at hnot
      cases hnot

/-! ## An exit behind the move of the old tree -/

def fileSetup : Setup ℕ := ⟨fun f ↦ f = 0, true⟩

def success : Reply ℕ := ⟨true, none, none, none, false, false⟩

def allSucceed : RollbackReplies ℕ :=
  ⟨success, success, success, success, success, success, success, success, success, success, success⟩

/-- The target was not active, and the signal comes before `NAS_SECRET_TX_OLD_MOVED=true`. -/
def interrupted : Transaction ℕ :=
  exitState fileSetup 0 143 (List.replicate 17 success) (init (some {0, 1}) (some {0, 2}) none false)

/-- The old tree goes away with the directory, and the status is that of the signal. -/
theorem not_kept : ¬ ∀ (setup : Setup ℕ) (live staged prior : Option (SecretTree ℕ)) (active : Bool)
    (others signal : ℕ) (replies : List (Reply ℕ)) (rc : Fin 256) (r : RollbackReplies ℕ),
      let s := exitState setup others signal replies (init live staged prior active)
      Kept live staged (cleanup setup rc r s).1 (cleanup setup rc r s).2 := by
  intro h
  have hkept : Kept (some {0, 1}) (some {0, 2}) (cleanup fileSetup 143 allSucceed interrupted).1
      (cleanup fileSetup 143 allSucceed interrupted).2 :=
    h fileSetup (some {0, 1}) (some {0, 2}) none false 0 143 (List.replicate 17 success) 143 allSucceed
  have hroot : (cleanup fileSetup 143 allSucceed interrupted).1.root = none := by decide
  have hcommitted : (cleanup fileSetup 143 allSucceed interrupted).1.committed = false := by decide
  have hstatus : (cleanup fileSetup 143 allSucceed interrupted).2 = 143 := by decide
  unfold Kept at hkept
  rw [hroot, hcommitted, hstatus] at hkept
  rcases hkept with ⟨hc, -⟩ | hback | ⟨h125, -⟩
  · cases hc
  · cases hback
  · cases h125

end NixNas.Secret
