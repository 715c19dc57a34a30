import NixNas.Update.Deployment

/-!
# What a failed update leaves

Everything that an update advances is advanced under the raised flag, and a failing command brings it
back.  A signal does not: the handler that it runs sees no failure.
-/

open Script

namespace NixNas.Update

variable {u : Invocation} {a : Answers} {s : Shell} {w : World} {h : Handling} {n signal : ℕ}
  {message : String} {promoted : Bool} {r : Reply} {rs : List Reply} {marker : Option String}
  {stop : Stop Command Shell}
variable {rest cs : List Command} {s' : Shell}

/-! ## The handler -/

@[simp] theorem Handling.check_world : (h.check n message).world = h.world := by
  unfold Handling.check
  split <;> rfl

@[simp] theorem Handling.check_errors :
    (h.check n message).errors = [] ↔ h.errors = [] ∧ n = 0 := by
  unfold Handling.check
  split <;> simp_all

def profileAfter (u : Invocation) (a : Answers) (w : World) : String :=
  if u.moved w then a.rollback.profile else w.profile

/-- What the handler runs to bring the old generation back succeeds. -/
structure Undoes (u : Invocation) (a : Answers) (w : World) : Prop where
  rollback : u.moved w = true → a.rollback.status = 0
  activate : a.activate.status = 0
  profile : profileAfter u a w = u.oldProfile
  restore : a.restore.status = 0
  restart : u.protectedWasActive = true → a.restart.status = 0

theorem undoes_iff : Undoes u a w ↔ (u.moved w = true → a.rollback.status = 0) ∧
    a.activate.status = 0 ∧ profileAfter u a w = u.oldProfile ∧ a.restore.status = 0 ∧
    (u.protectedWasActive = true → a.restart.status = 0) :=
  ⟨fun h => ⟨h.rollback, h.activate, h.profile, h.restore, h.restart⟩,
    fun ⟨rollback, activate, profile, restore, restart⟩ =>
      ⟨rollback, activate, profile, restore, restart⟩⟩

/-- The candidate activation may have begun, and the flags say so. -/
structure Armed (u : Invocation) (s : Shell) : Prop where
  attempted : s.runtimeActivationAttempted = true
  needed : s.rollbackNeeded = true
  baseline : u.oldProfile ≠ ""
  snapshot : s.world.snapshot = true
  restored : s.world.restored = false

theorem rollbackProfile_errors : (rollbackProfile u r h).errors = [] ↔
    h.errors = [] ∧ (u.moved h.world = true → r.status = 0) := by
  unfold rollbackProfile
  split <;> simp_all

theorem rollbackProfile_world : (rollbackProfile u r h).world =
    if u.moved h.world then h.world.switch r else h.world := by
  unfold rollbackProfile
  split <;> simp

theorem activateOld_errors :
    (activateOld u r h).errors = [] ↔ h.errors = [] ∧ r.status = 0 := by
  simp [activateOld]

theorem activateOld_world : (activateOld u r h).world =
    { h.world with running := if r.status = 0 then u.oldSystem else r.running } := by
  simp [activateOld]

theorem requireOldProfile_errors (hbaseline : u.oldProfile ≠ "") :
    (requireOldProfile u h).errors = [] ↔ h.errors = [] ∧ h.world.profile = u.oldProfile := by
  unfold requireOldProfile
  split <;> simp_all

theorem requireOldProfile_world : (requireOldProfile u h).world = h.world := by
  unfold requireOldProfile
  split <;> rfl

theorem restoreStateSnapshot_errors (hsnapshot : h.world.snapshot = true) :
    (restoreStateSnapshot r h).errors = [] ↔ h.errors = [] ∧ r.status = 0 := by
  simp [restoreStateSnapshot, hsnapshot]

theorem restoreStateSnapshot_world (hsnapshot : h.world.snapshot = true) :
    (restoreStateSnapshot r h).world =
      { h.world with restored := h.world.restored || r.status == 0 } := by
  simp [restoreStateSnapshot, hsnapshot]

theorem restartProtected_errors : (restartProtected u r h).errors = [] ↔
    h.errors = [] ∧ (u.protectedWasActive = true → r.status = 0) := by
  unfold restartProtected
  split <;> simp_all

theorem restartProtected_world : (restartProtected u r h).world = h.world := by
  unfold restartProtected
  split <;> simp

theorem reverse_eq (hs : Armed u s) : ∃ h : Handling,
    reverse u a s = resetSource u a.reset s.sourcePromoted h ∧
    (h.errors = [] ↔ Undoes u a s.world) ∧ h.world.profile = profileAfter u a s.world ∧
    (a.activate.status = 0 → h.world.running = u.oldSystem) ∧
    (a.restore.status = 0 → h.world.restored = true) ∧ h.world.checkout = s.world.checkout := by
  have hsnapshot : (requireOldProfile u (activateOld u a.activate
      (rollbackProfile u a.rollback ⟨s.world, []⟩))).world.snapshot = true := by
    rw [requireOldProfile_world, activateOld_world, rollbackProfile_world]
    split <;> exact hs.snapshot
  refine ⟨_, by rw [reverse, if_pos hs.attempted], ?_, ?_, ?_, ?_, ?_⟩
  · rw [restartProtected_errors, restoreStateSnapshot_errors hsnapshot,
      requireOldProfile_errors hs.baseline, activateOld_errors, rollbackProfile_errors,
      activateOld_world, rollbackProfile_world, undoes_iff, profileAfter]
    by_cases hmoved : u.moved s.world = true <;> simp [hmoved, World.switch, and_assoc]
  all_goals
    rw [restartProtected_world, restoreStateSnapshot_world hsnapshot, requireOldProfile_world,
      activateOld_world, rollbackProfile_world]
  · unfold profileAfter
    split <;> rfl
  · intro hactivate
    simp [hactivate]
  · intro hrestore
    simp [hrestore]
  · show (if _ then _ else _ : World).checkout = _
    split <;> rfl

/-- Every authority stands where it stood, or was brought back to it. -/
structure Restored (u : Invocation) (w : World) : Prop where
  profile : w.profile = u.oldProfile
  running : w.activated = true → w.running = u.oldSystem
  state : w.activated = true → w.restored = true
  checkout : w.checkout = u.originalSourceCommit

/-- The old generation is back, or the operator is told that it is not. -/
def Consistent (u : Invocation) (e : Ended) : Prop :=
  Restored u e.world ∨ e.status = 70 ∧ e.marked.isSome = true ∧ e.world.marker = e.marked

theorem consistent_of_errors (hs : Armed u stop.state) (hstatus : stop.status ≠ 0)
    (herrors : (reverse u a stop.state).errors ≠ []) : Consistent u (rollback u a stop) := by
  refine .inr ?_
  simp [rollback, hs.needed, hstatus, herrors]

theorem rollback_world (hs : Armed u stop.state) (hstatus : stop.status ≠ 0)
    (herrors : (reverse u a stop.state).errors = []) :
    rollback u a stop = ⟨(reverse u a stop.state).world, stop.status, none⟩ := by
  simp [rollback, hs.needed, hstatus, herrors]

theorem consistent_of_promoted (hs : Armed u stop.state) (hstatus : stop.status ≠ 0)
    (hpromoted : stop.state.sourcePromoted = true) (htracked : u.originalSourceCommit ≠ "") :
    Consistent u (rollback u a stop) := by
  by_cases herrors : (reverse u a stop.state).errors = []
  · obtain ⟨h, heq, hundoes, hprofile, hrunning, hrestored, -⟩ := reverse_eq (a := a) hs
    rw [rollback_world hs hstatus herrors]
    rw [heq] at herrors ⊢
    have hreset : h.errors = [] ∧ a.reset.status = 0 := by
      simpa [resetSource, hpromoted, htracked] using herrors
    have hdone := hundoes.mp hreset.1
    refine .inl ?_
    simp only [resetSource, hpromoted, htracked, ne_eq, not_false_eq_true, decide_true,
      Bool.and_self, if_true, hreset.2, Handling.check_world]
    exact ⟨hprofile.trans hdone.profile, fun _ => hrunning hdone.activate,
      fun _ => hrestored hdone.restore, rfl⟩
  · exact consistent_of_errors hs hstatus herrors

/-! ## The script -/

/-- Nothing that the update advances was touched yet. -/
structure Untouched (u : Invocation) (s : Shell) : Prop where
  needed : s.rollbackNeeded = false
  profile : s.world.profile = u.oldProfile
  activated : s.world.activated = false
  restored : s.world.restored = false
  promoted : s.sourcePromoted = false
  checkout : s.world.checkout = u.originalSourceCommit

/-- The checkout was not merged. -/
structure Kept (u : Invocation) (s : Shell) : Prop where
  promoted : s.sourcePromoted = false
  checkout : s.world.checkout = u.originalSourceCommit

theorem consistent_of_kept (hs : Armed u stop.state) (hstatus : stop.status ≠ 0)
    (hkept : Kept u stop.state) : Consistent u (rollback u a stop) := by
  by_cases herrors : (reverse u a stop.state).errors = []
  · obtain ⟨h, heq, hundoes, hprofile, hrunning, hrestored, hcheckout⟩ := reverse_eq (a := a) hs
    have hreverse : reverse u a stop.state = h := by
      rw [heq]
      simp [resetSource, hkept.promoted]
    rw [rollback_world hs hstatus herrors, hreverse]
    rw [hreverse] at herrors
    have hdone := hundoes.mp herrors
    exact .inl ⟨hprofile.trans hdone.profile, fun _ => hrunning hdone.activate,
      fun _ => hrestored hdone.restore, hcheckout.trans hkept.checkout⟩
  · exact consistent_of_errors hs hstatus herrors

def Traced (u : Invocation) (s : Shell) : Prop :=
  Kept u s ∨ s.sourcePromoted = true ∧ u.originalSourceCommit ≠ ""

/-- The handler is disarmed although the candidate runs. -/
structure Committed (s : Shell) : Prop where
  needed : s.rollbackNeeded = false
  activated : s.world.activated = true
  restored : s.world.restored = false

/-- Where a script stops, by the commands that remain. -/
inductive Stopped (u : Invocation) (rest : List Command) (s : Shell) : Prop where
  | before (hclear : .clearNeeded ∈ rest) (hhead : rest.head? ≠ some .setPromoted)
      (hs : Untouched u s)
  | during (hclear : .clearNeeded ∈ rest) (hhead : rest.head? ≠ some .setPromoted)
      (hs : Armed u s) (htraced : Traced u s)
  | merged (hclear : .clearNeeded ∈ rest) (hhead : rest.head? = some .setPromoted)
      (hs : Armed u s) (hpromoted : s.sourcePromoted = false)
      (hcheckout : s.world.checkout = u.candidateCommit)
  | committed (hclear : .clearNeeded ∉ rest) (hs : Committed s)

theorem head_append_ne {c : Command} {ds : List Command} (hne : rest ≠ [])
    (hsuffix : rest <:+ cs) (hc : c ∉ cs) : (rest ++ ds).head? ≠ some c := by
  obtain ⟨d, tail, rfl⟩ := List.exists_cons_of_ne_nil hne
  rintro ⟨⟩
  exact hc (hsuffix.subset List.mem_cons_self)

section Segments

variable {ds : List Command} {P Q : Shell → Prop}
variable {c : Command}

theorem Untouched.exec (hs : Untouched u s)
    (hc : c ∈ validation ++ [.requireProfile, .createStateSnapshot, .setAttempted]) :
    Untouched u ((semantics u).exec c r s) := by
  cases c
  case setNeeded | test | switch | merge | setPromoted | removeMarker | clearNeeded =>
    exact absurd hc (by decide)
  all_goals exact ⟨hs.needed, hs.profile, hs.activated, hs.restored, hs.promoted, hs.checkout⟩

theorem Armed.exec (hs : Armed u s) (hc : c ∈ activation) : Armed u ((semantics u).exec c r s) := by
  cases c
  case createStateSnapshot | setAttempted | setNeeded | merge | clearNeeded =>
    exact absurd hc (by decide)
  all_goals exact ⟨hs.attempted, hs.needed, hs.baseline, hs.snapshot, hs.restored⟩

theorem Armed.update (hs : Armed u s) (checkout : String) (marker : Option String)
    (promoted : Bool) :
    Armed u { s with world := { s.world with checkout, marker }, sourcePromoted := promoted } :=
  ⟨hs.attempted, hs.needed, hs.baseline, hs.snapshot, hs.restored⟩

theorem Kept.exec (hs : Kept u s) (hc : c ∈ activation) : Kept u ((semantics u).exec c r s) := by
  cases c
  case merge | setPromoted => exact absurd hc (by decide)
  all_goals exact ⟨hs.promoted, hs.checkout⟩

theorem triple_prepare (hclear : .clearNeeded ∈ ds)
    (hrest : Triple (semantics u) (fun s => Armed u s ∧ Kept u s) ds Q (Stopped u)) :
    Triple (semantics u) (Untouched u)
      (validation ++ .requireProfile :: .createStateSnapshot :: .setAttempted :: .setNeeded :: ds)
      Q (Stopped u) := by
  refine .append (M := Untouched u) (.keep ?_ ?_) ?_
  · exact fun c hc r s hs => hs.exec (List.mem_append_left _ hc)
  · intro rest hne hsuffix s hs
    refine .before ?_ (head_append_ne hne hsuffix (by decide)) hs
    simp [hclear]
  refine .cons (M := fun s => Untouched u s ∧ u.oldProfile ≠ "")
    (fun s hs => .before (by simp [hclear]) nofun hs)
    (fun r s hs _ => .before (by simp [hclear]) nofun hs) ?_ ?_
  · intro r s hs hstatus
    refine ⟨hs, fun hempty => ?_⟩
    simp [semantics, status, hempty] at hstatus
  refine .cons (M := fun s => Untouched u s ∧ u.oldProfile ≠ "" ∧ s.world.snapshot = true)
    (fun s hs => .before (by simp [hclear]) nofun hs.1)
    (fun r s hs _ => .before (by simp [hclear]) nofun (hs.1.exec (by decide))) ?_ ?_
  · intro r s hs hstatus
    refine ⟨hs.1.exec (by decide), hs.2, ?_⟩
    show r.snapshot = true
    cases hsnapshot : r.snapshot with
    | true => rfl
    | false =>
      simp only [semantics, status, hsnapshot, Bool.not_false, Bool.and_true] at hstatus
      split at hstatus <;> simp_all
  refine .cons (M := fun s => Untouched u s ∧ u.oldProfile ≠ "" ∧ s.world.snapshot = true ∧
      s.runtimeActivationAttempted = true)
    (fun s hs => .before (by simp [hclear]) nofun hs.1)
    (fun r s hs hstatus => absurd rfl hstatus) ?_ ?_
  · intro r s hs _
    exact ⟨hs.1.exec (by decide), hs.2.1, hs.2.2, rfl⟩
  refine .cons (M := fun s => Armed u s ∧ Kept u s)
    (fun s hs => .before (by simp [hclear]) nofun hs.1)
    (fun r s hs hstatus => absurd rfl hstatus) ?_ hrest
  rintro r s ⟨hs, hbaseline, hsnapshot, hattempted⟩ -
  exact ⟨⟨hattempted, rfl, hbaseline, hsnapshot, hs.restored⟩, ⟨hs.promoted, hs.checkout⟩⟩

theorem triple_activation (hclear : .clearNeeded ∈ ds)
    (hrest : Triple (semantics u) (fun s => (Armed u s ∧ Kept u s) ∧ s.world.activated = true)
      ds Q (Stopped u)) :
    Triple (semantics u) (fun s => Armed u s ∧ Kept u s) (activation ++ ds) Q (Stopped u) := by
  have hstop : ∀ rest, rest ≠ [] → rest <:+ activation → ∀ s, Armed u s ∧ Kept u s →
      Stopped u (rest ++ ds) s := fun rest hne hsuffix s hs =>
    .during (List.mem_append_right _ hclear) (head_append_ne hne hsuffix (by decide)) hs.1 (.inl hs.2)
  have hhere := hstop activation nofun List.suffix_rfl
  have htest : ∀ r s, Armed u s ∧ Kept u s →
      Armed u ((semantics u).exec .test r s) ∧ Kept u ((semantics u).exec .test r s) :=
    fun r s hs => ⟨hs.1.exec (by decide), hs.2.exec (by decide)⟩
  refine .append (M := fun s => (Armed u s ∧ Kept u s) ∧ s.world.activated = true) ?_ hrest
  refine .cons hhere (fun r s hs _ => hhere _ (htest r s hs)) (fun r s hs _ => ⟨htest r s hs, rfl⟩)
    (.keep ?_ ?_)
  · intro c hc r s hs
    have hmem : c ∈ activation := List.mem_cons_of_mem _ hc
    refine ⟨⟨hs.1.1.exec hmem, hs.1.2.exec hmem⟩, ?_⟩
    cases c
    case test => rfl
    case merge => exact absurd hc (by decide)
    all_goals exact hs.2
  · intro rest hne hsuffix s hs
    exact hstop rest hne (hsuffix.trans (List.suffix_cons _ _)) s hs.1

theorem triple_promotion (hclear : .clearNeeded ∈ ds)
    (hrest : Triple (semantics u) (fun s => (Armed u s ∧ Traced u s) ∧ s.world.activated = true)
      ds Q (Stopped u)) :
    Triple (semantics u) (fun s => (Armed u s ∧ Kept u s) ∧ s.world.activated = true)
      (promotion u.sync ++ ds) Q (Stopped u) := by
  cases hsync : u.sync with
  | false => exact hrest.weaken fun s hs => ⟨⟨hs.1.1, .inl hs.1.2⟩, hs.2⟩
  | true =>
    show Triple _ _ (.merge :: .setPromoted :: ds) _ _
    have hmerge : .clearNeeded ∈ Command.merge :: .setPromoted :: ds := by simp [hclear]
    have hpromote : .clearNeeded ∈ Command.setPromoted :: ds := by simp [hclear]
    refine .cons (M := fun s => (Armed u s ∧ s.sourcePromoted = false ∧
        s.world.checkout = u.candidateCommit) ∧ s.world.activated = true)
      (fun s hs => .during hmerge nofun hs.1.1 (.inl hs.1.2)) ?_ ?_
      (.cons ?_ (fun r s hs hstatus => absurd rfl hstatus) ?_ hrest)
    · -- A failing merge has had no effect.
      intro r s hs hstatus
      rw [show (semantics u).exec .merge r s = s from if_neg hstatus]
      exact .during hmerge nofun hs.1.1 (.inl hs.1.2)
    · intro r s hs hstatus
      rw [show (semantics u).exec .merge r s =
        { s with world := { s.world with checkout := u.candidateCommit } } from if_pos hstatus]
      obtain ⟨⟨harmed, hkept⟩, hactivated⟩ := hs
      exact ⟨⟨harmed.update _ _ _, hkept.promoted, rfl⟩, hactivated⟩
    · exact fun s hs => .merged hpromote rfl hs.1.1 hs.1.2.1 hs.1.2.2
    · rintro r s ⟨⟨harmed, -⟩, hactivated⟩ -
      exact ⟨⟨harmed.update _ _ true, .inr ⟨rfl, u.tracked hsync⟩⟩, hactivated⟩

theorem triple_commit :
    Triple (semantics u) (fun s => (Armed u s ∧ Traced u s) ∧ s.world.activated = true)
      (.removeMarker :: .clearNeeded :: [.pruneStateSnapshots, .removeTrap]) Committed
      (Stopped u) := by
  refine .cons (fun s hs => .during (by decide) nofun hs.1.1 hs.1.2)
    (M := fun s => (Armed u s ∧ Traced u s) ∧ s.world.activated = true) ?_ ?_
    (.cons (M := Committed) (fun s hs => .during (by decide) nofun hs.1.1 hs.1.2)
      (fun r s hs hstatus => absurd rfl hstatus) ?_ (.keep ?_ ?_))
  · rintro r s ⟨⟨harmed, htraced⟩, -⟩ -
    exact .during (by decide) nofun (harmed.update _ none _)
      (htraced.imp (fun hkept => ⟨hkept.promoted, hkept.checkout⟩) id)
  · rintro r s ⟨⟨harmed, htraced⟩, hactivated⟩ -
    exact ⟨⟨harmed.update _ none _,
      htraced.imp (fun hkept => ⟨hkept.promoted, hkept.checkout⟩) id⟩, hactivated⟩
  · rintro r s ⟨⟨harmed, -⟩, hactivated⟩ -
    exact ⟨rfl, hactivated, harmed.restored⟩
  · intro c hc r s hs
    cases c
    case pruneStateSnapshots | removeTrap => exact hs
    all_goals exact absurd hc (by decide)
  · intro rest _ hsuffix s hs
    exact .committed (fun hmem => absurd (hsuffix.subset hmem) (by decide)) hs

theorem triple_script : Triple (semantics u) (Untouched u) (script u) Committed (Stopped u) := by
  have hclear : Command.clearNeeded ∈
      Command.removeMarker :: .clearNeeded :: [.pruneStateSnapshots, .removeTrap] := by decide
  have hpromotion := List.mem_append_right (promotion u.sync) hclear
  exact triple_prepare (List.mem_append_right _ hpromotion)
    (triple_activation hpromotion (triple_promotion hclear triple_commit))

end Segments

theorem untouched_initial : Untouched u (u.initial marker) := ⟨rfl, rfl, rfl, rfl, rfl, rfl⟩

theorem Untouched.restored_world (hs : Untouched u s) : Restored u s.world :=
  ⟨hs.profile, fun h => absurd h (by simp [hs.activated]), fun h => absurd h (by simp [hs.activated]),
    hs.checkout⟩

theorem rollback_disarmed (h : stop.state.rollbackNeeded = false) :
    rollback u a stop = ⟨stop.state.world, stop.status, none⟩ := by
  simp [rollback, h]

/-! ## Signals -/

def beforeTest : List Command :=
  validation ++ [.requireProfile, .createStateSnapshot, .setAttempted, .setNeeded]

theorem test_of_split {done : List Command} (h : script u = done ++ rest) :
    (.test ∈ rest ∧ done ⊆ beforeTest) ∨ (.test ∉ rest ∧ .test ∈ done) := by
  obtain ⟨behind, hbehind, hscript⟩ : ∃ behind, .test ∉ behind ∧
      script u = beforeTest ++ .test :: behind := by
    refine ⟨_, ?_, List.append_assoc validation _ _⟩
    cases hsync : u.sync <;> decide
  rw [hscript, List.append_eq_append_iff] at h
  obtain ⟨middle, rfl, hrest⟩ | ⟨middle, hbefore, rfl⟩ := h
  · cases middle with
    | nil =>
      rw [List.nil_append] at hrest
      rw [List.append_nil, ← hrest]
      exact .inl ⟨List.mem_cons_self, List.Subset.refl _⟩
    | cons c middle =>
      obtain ⟨rfl, rfl⟩ := List.cons.inj hrest
      refine .inr ⟨fun hmem => hbehind (List.mem_append_right _ hmem), ?_⟩
      exact List.mem_append_right _ List.mem_cons_self
  · rw [hbefore]
    refine .inl ⟨List.mem_append_right _ List.mem_cons_self, ?_⟩
    exact List.subset_append_left done middle

theorem restored_of_before (hbefore : cs ⊆ beforeTest)
    (hs : Untouched u s) (h : run (semantics u) signal cs rs s = .finished s') :
    Restored u s'.world := by
  have hkept : s'.world.profile = u.oldProfile ∧ s'.world.activated = false ∧
      s'.world.checkout = u.originalSourceCommit := by
    refine keep_of_finished (P := fun s => s.world.profile = u.oldProfile ∧
      s.world.activated = false ∧ s.world.checkout = u.originalSourceCommit) ?_
      ⟨hs.profile, hs.activated, hs.checkout⟩ h
    intro c hc r s hs
    have hmem := hbefore hc
    cases c
    case test | switch | merge => exact absurd hmem (by decide)
    all_goals exact hs
  exact ⟨hkept.1, fun hactivated => by simp [hkept.2.1] at hactivated,
    fun hactivated => by simp [hkept.2.1] at hactivated, hkept.2.2⟩

theorem activated_of_test (htest : .test ∈ cs)
    (h : run (semantics u) signal cs rs s = .finished s') : s'.world.activated = true := by
  have hkeep : ∀ c r s, s.world.activated = true →
      ((semantics u).exec c r s).world.activated = true := by
    intro c r s hs
    cases c
    case test => rfl
    case merge =>
      show (if r.status = 0 then _ else s : Shell).world.activated = true
      split
      · exact hs
      · exact hs
    all_goals exact hs
  induction cs generalizing rs s with
  | nil => cases htest
  | cons c cs ih =>
    cases rs with
    | nil => cases h
    | cons r rs =>
      rw [run] at h
      split at h
      · rcases List.mem_cons.mp htest with rfl | htest
        · exact keep_of_finished (P := fun s : Shell => s.world.activated = true)
            (fun c _ r s hs => hkeep c r s hs) rfl h
        · exact ih htest h
      · cases h

theorem not_restored_of_finished (hs : s.world.restored = false)
    (h : run (semantics u) signal cs rs s = .finished s') : s'.world.restored = false := by
  refine keep_of_finished (P := fun s => s.world.restored = false) ?_ hs h
  intro c _ r s hs
  cases c
  case merge =>
    show (if r.status = 0 then _ else s : Shell).world.restored = false
    split
    · exact hs
    · exact hs
  all_goals exact hs

theorem consistent_of_signal
    (hrun : run (semantics u) 0 (script u) rs (u.initial marker) = .stopped stop)
    (hstatus : stop.status = 0) :
    Consistent u (ended u a signal stop) ↔ .test ∈ stop.remaining := by
  obtain ⟨done, hsplit, hdone⟩ := run_of_signal hrun hstatus
  have hended : ended u a signal stop = ⟨stop.state.world, signal, none⟩ := by
    simp [ended, rollback, hstatus]
  rw [hended]
  obtain ⟨hrest, hbefore⟩ | ⟨hrest, htest⟩ := test_of_split hsplit
  · exact iff_of_true (.inl (restored_of_before hbefore untouched_initial hdone)) hrest
  · refine iff_of_false ?_ hrest
    rintro (hback | ⟨-, hmarked, -⟩)
    · have hrestored := hback.state (activated_of_test htest hdone)
      rw [not_restored_of_finished rfl hdone] at hrestored
      cases hrestored
    · cases hmarked

/-- A failing command is answered by the handler, as long as the flag is raised. -/
theorem consistent_of_failure
    (hrun : run (semantics u) 0 (script u) rs (u.initial marker) = .stopped stop)
    (hstatus : stop.status ≠ 0) :
    Consistent u (rollback u a stop) ↔ .clearNeeded ∈ stop.remaining := by
  cases triple_script.stopped untouched_initial hrun with
  | before hclear hhead hs =>
    rw [rollback_disarmed hs.needed]
    exact iff_of_true (.inl hs.restored_world) hclear
  | during hclear hhead hs htraced =>
    refine iff_of_true ?_ hclear
    obtain hkept | ⟨hpromoted, htracked⟩ := htraced
    · exact consistent_of_kept hs hstatus hkept
    · exact consistent_of_promoted hs hstatus hpromoted htracked
  | merged hclear hhead hs hpromoted hcheckout =>
    -- Raising the flag behind the merge does not fail.
    obtain ⟨c, r, t, hc, hfails⟩ := run_of_failure hrun hstatus
    rw [hhead] at hc
    cases hc
    exact absurd rfl hfails
  | committed hclear hs =>
    rw [rollback_disarmed hs.needed]
    refine iff_of_false ?_ hclear
    rintro (hback | ⟨-, hmarked, -⟩)
    · exact absurd (hback.state hs.activated) (by simp [hs.restored])
    · cases hmarked

/-- An update with `--sync` whose every command succeeds. -/
def sampleUpdate : Invocation where
  sync := true
  protectedWasActive := false
  oldSystem := "/nix/store/old"
  oldProfile := "/nix/store/old"
  oldProfileLink := "system-1-link"
  profileExists := true
  originalSourceCommit := "1111"
  candidateCommit := "2222"
  tracked := fun _ => by decide

def sampleReply : Reply := ⟨0, "system-2-link", "/nix/store/new", "/nix/store/new", true⟩

def sampleAnswers : Answers where
  rollback := ⟨0, "system-1-link", "/nix/store/old", "/nix/store/old", true⟩
  activate := sampleReply
  restore := sampleReply
  restart := sampleReply
  reset := sampleReply

end NixNas.Update
