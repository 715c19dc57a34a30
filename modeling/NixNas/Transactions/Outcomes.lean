import NixNas.Transactions.Machine

/-!
# A guard lets the rollback run once

Every start of the unit has a guard of its own, which is armed once.  So no stale timer meets the
record of a later transaction, whatever the order in which the unit, the timers and the failure unit
come to the record.
-/

open Transition
open NixNas.Guard (GuardState Record Pending stateOf armSection_ok armCleanup_cases cancelSection_ok
  cancelSection_error claimSection_cases stateOf_terminalSection)

namespace NixNas.Transactions

/-- A rollback was claimed, and perhaps its outcome is known. -/
def Settled (record : Option Record) : Prop :=
  stateOf record = some .claimed ∨ stateOf record = some .completed ∨ stateOf record = some .failed

def Phase.isEarly : Phase → Bool
  | .removePlan | .bootstrap | .guardFile | .arm => true
  | _ => false

def RollbackPhase.runs (phase : RollbackPhase) : Prop :=
  phase.isScript = true ∨ ∃ exitCode, phase = .ran exitCode

variable {Doc : Type}
variable {i : Invocation} {phase : RollbackPhase} {r : Nat} {g : GuardId}
  {live timerLive : Guard.Live} {o : Options}
  {compile : String → Except String (Entry.Compiled Doc)}

/-- What is known of the names of the guards and of the claims, since `s₀` as well. -/
structure Single (s₀ s : State Doc) : Prop where
  fresh : ∀ g, s.invocations ≤ g → s.guards g = ⟨none, false⟩
  file : ∀ g, s.guardFile = some (some g) → g < s.invocations
  unit : ∀ i, s.unit = some i → i.guard < s.invocations
  idle : ∀ r, s.started ≤ r → s.rollbacks r = .idle
  named : ∀ r g, (s.rollbacks r).guard = some g → g < s.invocations
  nameless : ∀ r, (s.rollbacks r).phase = .readGuardFile → (s.rollbacks r).guard = none
  unclaimed : ∀ r, (s.rollbacks r).phase = .readGuardFile ∨ (s.rollbacks r).phase = .claim →
    (s.rollbacks r).claimed = false
  runs : ∀ r g, (s.rollbacks r).guard = some g → (s.rollbacks r).phase.runs →
    (s.rollbacks r).claimed = true
  settled : ∀ r g, (s.rollbacks r).guard = some g → (s.rollbacks r).claimed = true →
    Settled (s.guards g).record
  once : ∀ r r' g, (s.rollbacks r).guard = some g → (s.rollbacks r').guard = some g →
    (s.rollbacks r).claimed = true → (s.rollbacks r').claimed = true → r = r'
  early : ∀ i, s.unit = some i → i.phase.isEarly = true →
    stateOf (s.guards i.guard).record ≠ some .cancelled
  kept : ∀ r, (s₀.rollbacks r).claimed = true →
    (s.rollbacks r).claimed = true ∧ (s.rollbacks r).guard = (s₀.rollbacks r).guard
  cancelled : ∀ g, stateOf (s₀.guards g).record = some .cancelled →
    stateOf (s.guards g).record = some .cancelled

theorem Settled.not_pending {record : Option Record} (h : Settled record) : ¬ Pending record := by
  unfold Settled at h
  unfold Pending
  grind

theorem Settled.not_cancelled {record : Option Record} (h : Settled record) :
    stateOf record ≠ some .cancelled := by
  unfold Settled at h
  grind

theorem not_cancelled_of_pending {record : Option Record} (h : Pending record) :
    stateOf record ≠ some .cancelled := by
  unfold Pending at h
  grind

theorem claimSection_of_pending {record : Option Record} (h : Pending record)
    (command : List String) : (Guard.claimSection record command).result = .ok true := by
  cases record with
  | none => rfl
  | some record =>
    have harmed : record.state = .armed := by
      rcases h with h | h
      · cases h
      · exact Option.some.inj h
    simp [Guard.claimSection, harmed]

variable {s₀ s s' : State Doc}

theorem Single.congr (h : Single s₀ s) (hguards : s'.guards = s.guards)
    (hinvocations : s'.invocations = s.invocations) (hfile : s'.guardFile = s.guardFile)
    (hunit : s'.unit = s.unit) (hrollbacks : s'.rollbacks = s.rollbacks)
    (hstarted : s'.started = s.started) : Single s₀ s' := by
  obtain ⟨h1, h2, h3, h4, h5, h6, h7, h8, h9, h10, h11, h12, h13⟩ := h
  constructor
  all_goals simp only [hguards, hinvocations, hfile, hunit, hrollbacks, hstarted]
  all_goals assumption

theorem Single.goto (h : Single s₀ s) (unit : Option Invocation)
    (hunit : ∀ i, unit = some i → i.guard < s.invocations)
    (hearly : ∀ i, unit = some i → i.phase.isEarly = true →
      stateOf (s.guards i.guard).record ≠ some .cancelled) : Single s₀ { s with unit } :=
  ⟨h.fresh, h.file, hunit, h.idle, h.named, h.nameless, h.unclaimed, h.runs, h.settled, h.once, hearly,
    h.kept, h.cancelled⟩

theorem Single.late (h : Single s₀ s) (hi : s.unit = some i) {phase : Phase}
    (hphase : phase.isEarly = true → i.phase.isEarly = true) :
    Single s₀ { s with unit := some { i with phase } } := by
  apply h.goto
  · rintro j hj
    cases hj
    exact h.unit i hi
  · rintro j hj hearly
    cases hj
    exact h.early i hi (hphase hearly)

theorem Single.move (h : Single s₀ s) (hstarted : (s.rollbacks r).phase = .ended → phase = .ended)
    (hread : phase ≠ .readGuardFile) (hclaim : phase ≠ .claim)
    (hruns : phase.runs → (s.rollbacks r).phase.runs) : Single s₀ (s.move r phase) := by
  obtain ⟨h1, h2, h3, h4, h5, h6, h7, h8, h9, h10, h11, h12, h13⟩ := h
  constructor
  all_goals simp only [State.move, State.setRollback, Function.update_apply]
  all_goals first | assumption | grind [Rollback.idle]

theorem Single.record (h : Single s₀ s) {guard : GuardUnit} (hg : g < s.invocations)
    (hsettled : Settled (s.guards g).record → Settled guard.record)
    (hcancelled : stateOf (s.guards g).record = some .cancelled →
      stateOf guard.record = some .cancelled)
    (hearly : ∀ i, s.unit = some i → i.guard = g → i.phase.isEarly = true →
      stateOf guard.record ≠ some .cancelled) : Single s₀ (s.setGuard g guard) := by
  obtain ⟨h1, h2, h3, h4, h5, h6, h7, h8, h9, h10, h11, h12, h13⟩ := h
  constructor
  all_goals simp only [State.setGuard, Function.update_apply]
  all_goals first | assumption | grind

theorem Single.answer (h : Single s₀ s) (exitCode : Int) : Single s₀ (s.answer exitCode) := by
  have hanswer : ∀ r, ((s.rollbacks r).answer exitCode).guard = (s.rollbacks r).guard ∧
      ((s.rollbacks r).answer exitCode).claimed = (s.rollbacks r).claimed ∧
      (((s.rollbacks r).answer exitCode).phase = (s.rollbacks r).phase ∨
        (s.rollbacks r).phase = .waiting ∧
          ((s.rollbacks r).answer exitCode).phase = .ran exitCode) := by
    intro r
    unfold Rollback.answer
    split <;> simp_all
  have hidle : Rollback.idle.answer exitCode = .idle := rfl
  have hwaiting : RollbackPhase.waiting.runs := .inl rfl
  obtain ⟨h1, h2, h3, h4, h5, h6, h7, h8, h9, h10, h11, h12, h13⟩ := h
  constructor
  all_goals simp only [State.answer]
  all_goals first | assumption | grind

theorem Single.drop (h : Single s₀ s) : Single s₀ s.drop := by
  have hended : Single s₀ { s.answer 1 with unit := none } := by
    apply (h.answer 1).goto none
    · rintro i ⟨⟩
    · rintro i ⟨⟩
  exact hended.congr rfl rfl rfl rfl rfl rfl

theorem Single.begin (h : Single s₀ s) : Single s₀ s.begin := by
  have hrecord : (s.guards s.invocations).record = none := by rw [h.fresh _ (Nat.le_refl _)]
  obtain ⟨h1, h2, h3, h4, h5, h6, h7, h8, h9, h10, h11, h12, h13⟩ := h
  constructor
  all_goals simp only [State.begin]
  all_goals first | assumption | grind [stateOf]

theorem Single.startRollback (h : Single s₀ s) {rollback : Rollback}
    (hclaimed : rollback.claimed = false)
    (hnamed : ∀ g, rollback.guard = some g → g < s.invocations)
    (hphase : rollback.phase = .readGuardFile ∧ rollback.guard = none ∨ rollback.phase = .claim) :
    Single s₀ (s.startRollback rollback) := by
  have hread : ¬ RollbackPhase.readGuardFile.runs := by simp [RollbackPhase.runs, RollbackPhase.isScript]
  have hclaim : ¬ RollbackPhase.claim.runs := by simp [RollbackPhase.runs, RollbackPhase.isScript]
  obtain ⟨h1, h2, h3, h4, h5, h6, h7, h8, h9, h10, h11, h12, h13⟩ := h
  constructor
  all_goals simp only [State.startRollback, State.setRollback, Function.update_apply]
  all_goals first | assumption | grind [Rollback.idle]

theorem Single.readGuardFile (h : Single s₀ s) (hstep : readGuardFile s r = some s') :
    Single s₀ s' := by
  unfold Transactions.readGuardFile at hstep
  split at hstep
  · rename_i hphase
    split at hstep
    · rename_i g hfile
      cases hstep
      have hclaim : ¬ RollbackPhase.claim.runs := by simp [RollbackPhase.runs, RollbackPhase.isScript]
      obtain ⟨h1, h2, h3, h4, h5, h6, h7, h8, h9, h10, h11, h12, h13⟩ := h
      constructor
      all_goals simp only [State.setRollback, Function.update_apply]
      all_goals first | assumption | grind [Rollback.idle]
    · cases hstep
      have hnone := h.nameless r hphase
      obtain ⟨h1, h2, h3, h4, h5, h6, h7, h8, h9, h10, h11, h12, h13⟩ := h
      constructor
      all_goals simp only [State.move, State.setRollback, Function.update_apply]
      all_goals first | assumption | grind [Rollback.idle]
  · cases hstep

theorem Single.claimed (h : Single s₀ s)
    (hphase : (s.rollbacks r).phase = .claim) (hguard : (s.rollbacks r).guard = some g)
    (hfirst : ∀ r', (s.rollbacks r').guard = some g → (s.rollbacks r').claimed = false)
    (hsettled : Settled (s.guards g).record) :
    Single s₀ (s.setRollback r { s.rollbacks r with claimed := true, phase := .stopUnit }) := by
  obtain ⟨h1, h2, h3, h4, h5, h6, h7, h8, h9, h10, h11, h12, h13⟩ := h
  constructor
  all_goals simp only [State.setRollback, Function.update_apply]
  all_goals first | assumption | grind [Rollback.idle]

theorem Single.behindFired (h : Single s₀ s) (hopen : (s.rollbacks r).phase ≠ .ended) :
    Single s₀ (s.move r (s.rollbacks r).behindFired) := by
  have hcases : (s.rollbacks r).behindFired = .removeGuardFile ∨
      (s.rollbacks r).behindFired = .ended := by
    unfold Rollback.behindFired
    split <;> simp
  apply h.move
  · intro hended
    exact absurd hended hopen
  · rcases hcases with h | h <;> simp [h]
  · rcases hcases with h | h <;> simp [h]
  · rcases hcases with h | h <;> simp [h, RollbackPhase.runs, RollbackPhase.isScript]

/-- A claim that goes through finds a record without an outcome, so that nobody has claimed it. -/
theorem Single.claim (h : Single s₀ s) (hstep : claim s r = some s') : Single s₀ s' := by
  unfold Transactions.claim at hstep
  split at hstep
  · rename_i g hphase hguard
    have hg := h.named r g hguard
    dsimp only at hstep
    obtain ⟨hok, hpending, hclaimed⟩ | ⟨hrefused, hsame⟩ :=
      claimSection_cases (s.guards g).record rollbackToApplied
    · rw [hok] at hstep
      cases hstep
      have hfirst : ∀ r', (s.rollbacks r').guard = some g → (s.rollbacks r').claimed = false := by
        intro r' hr'
        by_contra hother
        exact (h.settled r' g hr' (by simpa using hother)).not_pending hpending
      have hrecord : Single s₀ (s.setRecord g
          (Guard.claimSection (s.guards g).record rollbackToApplied).record) := by
        apply h.record hg
        · intro _
          exact .inl hclaimed
        · intro hcancelled
          exact absurd hcancelled (not_cancelled_of_pending hpending)
        · rintro _ _ _ _
          rw [hclaimed]
          decide
      apply hrecord.claimed hphase hguard hfirst
      simp only [State.setRecord, State.setGuard, Function.update_self]
      exact .inl hclaimed
    · have hrecord : Single s₀ (s.setRecord g
          (Guard.claimSection (s.guards g).record rollbackToApplied).record) := by
        rw [hsame]
        exact h.congr (Function.update_eq_self g s.guards) rfl rfl rfl rfl rfl
      have hs' : s' = (s.setRecord g (Guard.claimSection (s.guards g).record
          rollbackToApplied).record).move r (s.rollbacks r).behindFired := by
        split at hstep
        · contradiction
        · exact (Option.some.inj hstep).symm
      rw [hs']
      exact hrecord.behindFired (by simp [hphase])
  · cases hstep

theorem Single.terminal (h : Single s₀ s) (hstep : terminal s r = some s') : Single s₀ s' := by
  unfold Transactions.terminal at hstep
  split at hstep
  · rename_i exitCode g hphase hguard
    cases hstep
    have hclaimed : (s.rollbacks r).claimed = true := h.runs r g hguard (.inr ⟨exitCode, hphase⟩)
    have hrecord : Single s₀ (s.setRecord g
        (Guard.terminalSection (s.guards g).record rollbackToApplied exitCode)) := by
      apply h.record (h.named r g hguard)
      · intro _
        unfold Settled
        rw [stateOf_terminalSection]
        split <;> simp
      · intro hcancelled
        exact absurd hcancelled (h.settled r g hguard hclaimed).not_cancelled
      · rintro _ _ _ _
        rw [stateOf_terminalSection]
        split <;> simp
    exact hrecord.behindFired (by simp [hphase])
  · rename_i hphase _
    cases hstep
    apply h.move <;> simp [RollbackPhase.runs, RollbackPhase.isScript]
  · cases hstep

/-- `arm` refuses a record with an outcome, and one that waits for an outcome. -/
theorem refused_of_settled {record : Option Record} {command : List String} {timeoutSeconds : Int}
    (h : Settled record ∨ stateOf record = some .armed) :
    (Guard.armSection record command timeoutSeconds live timerLive).result ≠ .ok () := by
  cases record with
  | none =>
    simp [Settled, stateOf] at h
  | some record =>
    have hstate : record.state = .armed ∨ record.state = .claimed ∨ record.state = .completed ∨
        record.state = .failed := by
      simp only [Settled, stateOf, Option.map_some, Option.some.injEq] at h
      grind
    rcases hstate with hstate | hstate | hstate | hstate <;>
      simp [Guard.armSection, Guard.armPrior, Guard.Section.raise, hstate]

theorem Single.arm (h : Single s₀ s) (hi : s.unit = some i)
    (hstep : arm s i live timerLive = some s') : Single s₀ s' := by
  unfold Transactions.arm at hstep
  dsimp only at hstep
  split at hstep
  · rename_i hphase hresult
    cases hstep
    obtain ⟨-, harmed⟩ := armSection_ok hresult
    have hrecord : Single s₀ (s.setRecord i.guard (Guard.armSection (s.guards i.guard).record
        rollbackToApplied guardTimeoutSeconds live timerLive).record) := by
      apply h.record (h.unit i hi)
      · intro hsettled
        exact absurd hresult (refused_of_settled (.inl hsettled))
      · intro hcancelled
        exact absurd hcancelled (h.early i hi (by simp [Phase.isEarly, hphase]))
      · rintro _ _ _ _
        rw [harmed]
        decide
    exact hrecord.late hi (by simp [Phase.isEarly])
  · cases hstep

theorem Single.launched (h : Single s₀ s) (hi : s.unit = some i) {succeeds : Bool}
    (hstep : launched s i succeeds = some s') : Single s₀ s' := by
  unfold Transactions.launched at hstep
  split at hstep
  · rename_i hphase
    cases hstep
    split
    · have htimer : Single s₀ (s.setTimer i.guard true) :=
        h.record (h.unit i hi) id id fun j hj _ hearly => by
          cases hi.symm.trans hj
          simp [Phase.isEarly, hphase] at hearly
      exact htimer.late hi (by simp [Phase.isEarly])
    · exact h.late hi (by simp [Phase.isEarly])
  · cases hstep

theorem Single.cleanup (h : Single s₀ s) (hi : s.unit = some i) {unlinked : Bool}
    (hstep : cleanup s i unlinked = some s') : Single s₀ s' := by
  unfold Transactions.cleanup at hstep
  split at hstep
  · rename_i hphase
    cases hstep
    have hrecord : Single s₀ (s.setRecord i.guard
        (Guard.armCleanup (s.guards i.guard).record rollbackToApplied unlinked)) := by
      apply h.record (h.unit i hi)
      · intro hsettled
        obtain hsame | ⟨harmed, -⟩ :=
          armCleanup_cases (s.guards i.guard).record rollbackToApplied unlinked
        · simpa [hsame] using hsettled
        · exact absurd (.inr harmed) hsettled.not_pending
      · intro hcancelled
        obtain hsame | ⟨harmed, -⟩ :=
          armCleanup_cases (s.guards i.guard).record rollbackToApplied unlinked
        · simpa [hsame] using hcancelled
        · exact absurd hcancelled (not_cancelled_of_pending (.inr harmed))
      · intro j hj _ hearly
        cases hi.symm.trans hj
        simp [Phase.isEarly, hphase] at hearly
    exact hrecord.late hi (by simp [Phase.isEarly])
  · cases hstep

theorem Single.cancel (h : Single s₀ s) (hi : s.unit = some i) {after : Guard.Live} {stopped : Bool}
    (hstep : cancel s i live stopped timerLive after = some s') : Single s₀ s' := by
  unfold Transactions.cancel at hstep
  split at hstep
  · rename_i hphase
    dsimp only at hstep
    have hrecord : ∀ timer, Single s₀ (s.setGuard i.guard ⟨(Guard.cancelSection
        (s.guards i.guard).record live stopped timerLive after).record, timer⟩) := by
      intro timer
      apply h.record (h.unit i hi)
      · intro hsettled
        cases hresult : (Guard.cancelSection (s.guards i.guard).record live stopped timerLive
            after).result with
        | ok u => exact absurd (.inr (cancelSection_ok hresult).1) hsettled.not_pending
        | error e =>
          obtain hsame | ⟨harmed, -⟩ := cancelSection_error hresult
          · simpa [hsame] using hsettled
          · exact absurd (.inr harmed) hsettled.not_pending
      · intro hcancelled
        cases hresult : (Guard.cancelSection (s.guards i.guard).record live stopped timerLive
            after).result with
        | ok u =>
          exact absurd hcancelled (not_cancelled_of_pending (.inr (cancelSection_ok hresult).1))
        | error e =>
          obtain hsame | ⟨harmed, -⟩ := cancelSection_error hresult
          · simpa [hsame] using hcancelled
          · exact absurd hcancelled (not_cancelled_of_pending (.inr harmed))
      · intro j hj _ hearly
        cases hi.symm.trans hj
        simp [Phase.isEarly, hphase] at hearly
    split at hstep
    all_goals
      cases hstep
      exact (hrecord _).late hi (by simp [Phase.isEarly])
  · cases hstep

theorem Single.file_changed (h : Single s₀ s) {file : Option (Option GuardId)}
    (hfile : ∀ g, file = some (some g) → g < s.invocations) :
    Single s₀ { s with guardFile := file } :=
  ⟨h.fresh, hfile, h.unit, h.idle, h.named, h.nameless, h.unclaimed, h.runs, h.settled, h.once,
    h.early, h.kept, h.cancelled⟩

theorem Single.removed (h : Single s₀ s) : Single s₀ { s with guardFile := none } :=
  h.file_changed fun _ hg => (by cases hg)

/-- Nothing but the world, the subsystems and `lost` has changed. -/
theorem Single.world (h : Single s₀ s) (world : Entry.World Doc) (standing : Subsystem → Standing)
    (lost : Bool) : Single s₀ { s with world, standing, lost } :=
  h.congr rfl rfl rfl rfl rfl rfl

theorem Single.advance (h : Single s₀ s) (hi : s.unit = some i)
    (hstep : advance o s i = some s') : Single s₀ s' := by
  unfold Transactions.advance at hstep
  split at hstep
  · rename_i hphase
    obtain ⟨tree, -, rfl⟩ := Option.map_eq_some_iff.mp hstep
    exact (h.late hi (by simp [Phase.isEarly, hphase])).world _ _ _
  · rename_i hphase
    split at hstep
    · cases hstep
    · cases hstep
      exact (h.late hi (by simp [Phase.isEarly, hphase])).world _ _ _
  · rename_i hphase
    cases hstep
    have hfile : Single s₀ { s with guardFile := some (some i.guard) } :=
      h.file_changed fun g hg => by
        cases hg
        exact h.unit i hi
    exact hfile.late hi (by simp [Phase.isEarly, hphase])
  · cases hstep
    exact h.late hi (by simp [Phase.isEarly])
  · cases hstep
    exact h.late hi (by simp [Phase.isEarly])
  · obtain ⟨head, -, rfl⟩ := Option.map_eq_some_iff.mp hstep
    exact h.late hi (by simp [Phase.isEarly])
  · cases hstep
    exact (h.late hi (by simp [Phase.isEarly])).world _ _ _
  · cases hstep
    exact h.late hi (by simp [Phase.isEarly])
  · split at hstep
    · cases hstep
    · cases hstep
      exact (h.late hi (by simp [Phase.isEarly])).world _ _ _
  · cases hstep
    exact (h.late hi (by simp [Phase.isEarly])).world _ _ _
  · obtain ⟨-, hs'⟩ := Option.ite_none_right_eq_some.mp hstep
    cases hs'
    exact (h.late hi (by simp [Phase.isEarly])).world _ _ _
  · split at hstep
    · cases hstep
    · cases hstep
      exact (h.late hi (by simp [Phase.isEarly])).world _ _ _
  · cases hstep
    exact h.removed.late hi (by simp [Phase.isEarly])
  · cases hstep
    have hended := (h.answer 0).goto none (fun _ hg => (by cases hg)) fun _ hg => (by cases hg)
    exact hended.world _ _ _
  · cases hstep

theorem Single.partly (h : Single s₀ s) (hi : s.unit = some i)
    (hstep : partly s i = some s') : Single s₀ s' := by
  unfold Transactions.partly at hstep
  split at hstep
  · split at hstep
    · cases hstep
      exact h.world _ _ _
    · cases hstep
  · cases hstep
    exact h.file_changed fun _ hg => (by cases hg)
  · rename_i hphase
    cases hstep
    apply h.record (h.unit i hi)
    · exact id
    · exact id
    · intro j hj _ hearly
      cases hi.symm.trans hj
      simp [Phase.isEarly, hphase] at hearly
  · cases hstep
    exact h.world _ _ _
  · cases hstep
    exact h.late hi (by simp [Phase.isEarly])
  · cases hstep

theorem Single.main (h : Single s₀ s) (hi : s.unit = some i) {act : Entry.Action}
    (hstep : main o compile s i act = some s') : Single s₀ s' := by
  unfold Transactions.main at hstep
  split at hstep
  · obtain ⟨entry, -, rfl⟩ := Option.map_eq_some_iff.mp hstep
    exact (h.late hi (by simp [Phase.isEarly])).world _ _ _
  · cases hstep

theorem Single.script (h : Single s₀ s)
    (hfrom : (s.rollbacks r).phase.isScript = true) (hto : phase.runs) :
    Single s₀ (s.move r phase) := by
  apply h.move
  · intro hended
    simp [RollbackPhase.isScript, hended] at hfrom
  · rintro rfl
    simp [RollbackPhase.runs, RollbackPhase.isScript] at hto
  · rintro rfl
    simp [RollbackPhase.runs, RollbackPhase.isScript] at hto
  · intro _
    exact .inl hfrom

theorem Single.ended (h : Single s₀ s) (r : Nat) : Single s₀ (s.move r .ended) := by
  apply h.move <;> simp [RollbackPhase.runs, RollbackPhase.isScript]

theorem Single.stopTimers (h : Single s₀ s) {stopped : List GuardId}
    (hstep : stopTimers s r stopped = some s') : Single s₀ s' := by
  unfold Transactions.stopTimers at hstep
  split at hstep
  · rename_i hphase
    cases hstep
    have htimers : Single s₀ { s with guards := fun g ↦
        { s.guards g with timer := (s.guards g).timer && g ∉ stopped } } := by
      refine ⟨?_, h.file, h.unit, h.idle, h.named, h.nameless, h.unclaimed, h.runs, h.settled,
        h.once, h.early, h.kept, h.cancelled⟩
      intro g hg
      dsimp only
      rw [h.fresh g hg, Bool.false_and]
    exact htimers.script (by simp [RollbackPhase.isScript, hphase]) (.inl rfl)
  · cases hstep

theorem Single.stopUnit (h : Single s₀ s) {works : Bool}
    (hstep : stopUnit s r works = some s') : Single s₀ s' := by
  unfold Transactions.stopUnit at hstep
  split at hstep
  · rename_i hphase
    cases hstep
    split
    · apply h.drop.script
      · simp [RollbackPhase.isScript, Rollback.answer, hphase]
      · exact .inl rfl
    · exact h.script (by simp [RollbackPhase.isScript, hphase]) (.inl rfl)
  · cases hstep

theorem Single.timerFires (h : Single s₀ s) (hstep : timerFires s g = some s') : Single s₀ s' := by
  unfold Transactions.timerFires at hstep
  split at hstep
  · rename_i htimer
    cases hstep
    have hg : g < s.invocations := by
      by_contra hge
      rw [h.fresh g (Nat.le_of_not_lt hge)] at htimer
      cases htimer
    have hfired : Single s₀ (s.setTimer g false) := by
      apply h.record hg
      · exact id
      · exact id
      · rintro i hi rfl hearly
        exact h.early i hi hearly
    apply hfired.startRollback rfl
    · rintro g' hg'
      cases hg'
      exact hg
    · exact .inr rfl
  · cases hstep

theorem Single.failureUnit (h : Single s₀ s) (hstep : failureUnit s = some s') : Single s₀ s' := by
  unfold Transactions.failureUnit at hstep
  split at hstep
  · cases hstep
    have hflag : Single s₀ { s with failed := false } := h.congr rfl rfl rfl rfl rfl rfl
    split
    · exact hflag.startRollback rfl (fun _ hg => (by cases hg)) (.inl ⟨rfl, rfl⟩)
    · exact hflag
  · cases hstep

theorem Single.step
    {event : Event} (h : Single s₀ s) (hstep : step o compile s event = some s') : Single s₀ s' := by
  cases event with
  | edit | touchPending =>
    cases hstep
    exact h.world _ _ _
  | start =>
    obtain ⟨-, hs'⟩ := Option.ite_none_right_eq_some.mp hstep
    cases hs'
    exact h.begin
  | stop =>
    obtain ⟨-, hs'⟩ := Option.ite_none_right_eq_some.mp hstep
    cases hs'
    exact h.drop
  | crash =>
    obtain ⟨-, hs'⟩ := Option.ite_none_right_eq_some.mp hstep
    cases hs'
    exact h.drop.congr rfl rfl rfl rfl rfl rfl
  | advance =>
    obtain ⟨i, hi, hadvance⟩ := Option.bind_eq_some_iff.mp hstep
    exact h.advance hi hadvance
  | partly =>
    obtain ⟨i, hi, hpartly⟩ := Option.bind_eq_some_iff.mp hstep
    exact h.partly hi hpartly
  | main act =>
    obtain ⟨i, hi, hmain⟩ := Option.bind_eq_some_iff.mp hstep
    exact h.main hi hmain
  | arm live timerLive =>
    obtain ⟨i, hi, harm⟩ := Option.bind_eq_some_iff.mp hstep
    exact h.arm hi harm
  | launched succeeds =>
    obtain ⟨i, hi, hlaunched⟩ := Option.bind_eq_some_iff.mp hstep
    exact h.launched hi hlaunched
  | cleanup unlinked =>
    obtain ⟨i, hi, hcleanup⟩ := Option.bind_eq_some_iff.mp hstep
    exact h.cleanup hi hcleanup
  | cancel live stopped timerLive after =>
    obtain ⟨i, hi, hcancel⟩ := Option.bind_eq_some_iff.mp hstep
    exact h.cancel hi hcancel
  | timerFires g => exact h.timerFires hstep
  | failureUnit => exact h.failureUnit hstep
  | readGuardFile r => exact h.readGuardFile hstep
  | claim r => exact h.claim hstep
  | stopUnit r works => exact h.stopUnit hstep
  | stopTimers r stopped => exact h.stopTimers hstep
  | readFailed r =>
    simp only [Transactions.step, readFailed] at hstep
    split at hstep
    · rename_i hphase
      cases hstep
      exact h.script (by simp [RollbackPhase.isScript, hphase]) (.inl rfl)
    · cases hstep
  | restore r =>
    simp only [Transactions.step, restore] at hstep
    split at hstep
    · rename_i hphase
      split at hstep
      · cases hstep
      · cases hstep
        exact (h.script (by simp [RollbackPhase.isScript, hphase]) (.inl rfl)).world _ _ _
    · cases hstep
  | restorePartly r effects =>
    simp only [Transactions.step, restorePartly] at hstep
    split at hstep
    · rename_i hphase
      split at hstep
      · cases hstep
      · cases hstep
        exact (h.script (by simp [RollbackPhase.isScript, hphase]) (.inr ⟨1, rfl⟩)).world _ _ _
    · cases hstep
  | restart r =>
    simp only [Transactions.step, restart] at hstep
    split at hstep
    · rename_i hphase
      cases hstep
      exact h.begin.script (by simp [RollbackPhase.isScript, hphase]) (.inl rfl)
    · cases hstep
  | skipped r =>
    simp only [Transactions.step, skipped] at hstep
    split at hstep
    · rename_i hphase
      cases hstep
      have hscript : Single s₀ (s.drop.move r (.ran 0)) := by
        apply h.drop.script
        · simp [RollbackPhase.isScript, Rollback.answer, hphase]
        · exact .inr ⟨0, rfl⟩
      exact hscript.world _ _ _
    · cases hstep
  | fail r exitCode =>
    simp only [Transactions.step, fail] at hstep
    split at hstep
    · rename_i hscript
      cases hstep
      rw [Bool.and_eq_true] at hscript
      exact (h.script hscript.1 (.inr ⟨exitCode, rfl⟩)).world _ _ _
    · split at hstep
      · rename_i hphase
        cases hstep
        exact (h.behindFired (by simp [hphase])).world _ _ _
      · cases hstep
  | kill r =>
    cases hstep
    exact (h.ended r).world _ _ _
  | terminal r => exact h.terminal hstep
  | removeGuardFile r =>
    simp only [Transactions.step, Transactions.removeGuardFile] at hstep
    split at hstep
    · cases hstep
      exact h.removed.ended r
    · cases hstep

theorem single_boot (world : Entry.World Doc) : Single (boot world) (boot world) := by
  constructor
  all_goals simp [boot, Rollback.idle, stateOf]

theorem single_of_reachable {world : Entry.World Doc}
    (h : Reachable (fun s event s' ↦ step o compile s event = some s') (boot world) s) :
    Single s s := by
  have hsingle : Single (boot world) s :=
    h.invariant (single_boot world) fun _ _ _ hinv hstep => hinv.step hstep
  exact { hsingle with kept := fun _ hr => ⟨hr, rfl⟩, cancelled := fun _ hg => hg }

/-- Whatever the unit, the timers and the failure unit do, a guard lets the rollback run at most
once, and never if the transaction has cancelled it; both last for the rest of the run. -/
theorem rollback_once {o : Options} {compile : String → Except String (Entry.Compiled Doc)}
    {world : Entry.World Doc}
    (h : Reachable (fun s event s' ↦ step o compile s event = some s') (boot world) s)
    (hrest : Reachable (fun s event s' ↦ step o compile s event = some s') s s') :
    (∀ r r' g, (s.rollbacks r).guard = some g → (s.rollbacks r').guard = some g →
      (s.rollbacks r).claimed = true → (s.rollbacks r').claimed = true → r = r') ∧
    (∀ r, (s.rollbacks r).claimed = true →
      (s'.rollbacks r).claimed = true ∧ (s'.rollbacks r).guard = (s.rollbacks r).guard) ∧
    ∀ g, stateOf (s.guards g).record = some .cancelled →
      ∀ r, (s'.rollbacks r).guard = some g → (s'.rollbacks r).claimed = false := by
  have hsingle : Single s s' :=
    hrest.invariant (single_of_reachable h) fun _ _ _ hinv hstep => hinv.step hstep
  refine ⟨(single_of_reachable h).once, hsingle.kept, ?_⟩
  intro g hg r hr
  by_contra hclaimed
  have hsettled := hsingle.settled r g hr (by simpa using hclaimed)
  exact hsettled.not_cancelled (hsingle.cancelled g hg)

/-- An appliance with networking and a firewall, and the paths as they are. -/
def demoOptions : Options := ⟨.default, true, true⟩

/-- The unit fails behind `arm`; the failure unit and then the timer come to the guard. -/
def demoFailed : List Event :=
  [.start, .advance, .advance, .advance, .arm Guard.idle Guard.idle, .launched true, .crash,
    .failureUnit, .readGuardFile 0, .claim 0, .timerFires 0, .claim 1]

theorem rollback_once_demo : ∃ s : State String, (s.rollbacks 0).guard = some 0 ∧
    (s.rollbacks 1).guard = some 0 ∧ (s.rollbacks 0).claimed = true ∧
    ∀ r, (s.rollbacks r).guard = some 0 → (s.rollbacks r).claimed = true → 0 = r := by
  have hrun : (demoFailed.foldlM (step demoOptions Entry.copying) (boot Entry.firstBoot)).map
      (fun s ↦ (s.rollbacks 0, s.rollbacks 1)) =
        some (⟨some 0, true, true, .stopUnit⟩, ⟨some 0, false, false, .ended⟩) := by
    decide +kernel
  obtain ⟨s, hs, hrollbacks⟩ := Option.map_eq_some_iff.mp hrun
  rw [Prod.mk.injEq] at hrollbacks
  refine ⟨s, by rw [hrollbacks.1], by rw [hrollbacks.2], by rw [hrollbacks.1], ?_⟩
  intro r hguard hclaimed
  exact (rollback_once ⟨demoFailed, run_of_foldlM hs⟩ (.refl s)).1 0 r 0 (by rw [hrollbacks.1])
    hguard (by rw [hrollbacks.1]) hclaimed

end NixNas.Transactions
