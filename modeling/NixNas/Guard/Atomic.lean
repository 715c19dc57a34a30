import NixNas.Guard

/-!
# Arms that fail (`arm` of `services/nas_guarded_apply.py`)

The runs of the guard with the record that each arm has found, as an arm that creates no timer should
put it back.
-/

open Transition

namespace NixNas.Guard

/-- A state with the record that each arm has replaced. -/
structure Traced where
  state : State
  priors : List (Option Record)

def Traced.initial : Traced := ⟨Guard.initial, []⟩

def tracedStep (t : Traced) (act : Action) : Option Traced :=
  (step t.state act).map fun s ↦
    ⟨s, if s.arms.length = t.state.arms.length then t.priors else t.priors ++ [t.state.record]⟩

def TracedStep (t : Traced) (act : Action) (t' : Traced) : Prop := tracedStep t act = some t'

def Traced.prior (t : Traced) (a : ArmId) : Option Record := t.priors[a]?.join

/-- The record is the one that the arm has written. -/
def Traced.Own (t : Traced) (a : ArmId) : Prop :=
  stateOf t.state.record = some .armed ∧ t.state.lastArm = some a

instance (t : Traced) (a : ArmId) : Decidable (t.Own a) := inferInstanceAs (Decidable (_ ∧ _))

/-- A call of `arm` that raises puts back what its own record has replaced, and leaves every other
record alone. -/
def FailureAtomic (t t' : Traced) (a : ArmId) : Prop :=
  t'.state.record = if t.Own a then t.prior a else t.state.record

/-- `systemd-run` has answered, there was no record before, and the record is not another one with the
same command. -/
def Restorable (t : Traced) (a : ArmId) : Action → Prop
  | .cleanup _ unlinked =>
    if t.Own a then t.prior a = none ∧ unlinked = true
    else ∀ record, t.state.record = some record → record.state = .armed → unlinked = true →
      some record.rollbackCommand ≠ t.state.arms[a]?.map Arm.command
  | _ => ¬ t.Own a

/-! ## What a step does to the arms -/

variable {s s' : State} {t t' : Traced} {act : Action} {a : ArmId}
variable {prior : Option Record} {unlinked : Bool}

structure Armed (s s' : State) (command : List String) : Prop where
  arms : s'.arms = s.arms ++ [⟨command, .recorded⟩]
  last : s'.lastArm = some s.arms.length
  record : ∃ record, s'.record = some record ∧ record.rollbackCommand = command
  prior : stateOf s.record ≠ some .armed

structure KeepsArms (s s' : State) : Prop where
  commands : s'.arms.map Arm.command = s.arms.map Arm.command
  last : s'.lastArm = s.lastArm
  record : stateOf s'.record = some .armed → s'.record = s.record

theorem armPrior_ok (h : armPrior prior = .ok ()) : stateOf prior ≠ some .armed := by
  intro harmed
  cases prior with
  | none => cases harmed
  | some record =>
    have hstate : record.state = .armed := Option.some.inj harmed
    unfold armPrior at h
    dsimp only at h
    rw [hstate] at h
    cases h

theorem armSection_record {command : List String} {timeoutSeconds : Int} {live timerLive : Live}
    (h : (armSection prior command timeoutSeconds live timerLive).result = .ok ()) :
    armPrior prior = .ok () ∧
      ∃ record, (armSection prior command timeoutSeconds live timerLive).record = some record ∧
        record.rollbackCommand = command := by
  unfold armSection at h ⊢
  cases hprior : armPrior prior with
  | error e =>
    rw [hprior] at h
    cases h
  | ok u =>
    refine ⟨rfl, ?_⟩
    rw [hprior] at h
    dsimp only at h ⊢
    by_cases hstarted : live.started
    · rw [if_pos hstarted] at h
      cases h
    by_cases hfailed : live.hasFailed
    · rw [if_neg hstarted, if_pos hfailed] at h
      cases h
    by_cases hactive : timerLive.activeState = "active"
    · rw [if_neg hstarted, if_neg hfailed, if_pos hactive] at h
      cases h
    rw [if_neg hstarted, if_neg hfailed, if_neg hactive]
    exact ⟨_, rfl, rfl⟩

theorem record_of_armed (h : Step s act s') (harms : s'.arms.length = s.arms.length)
    (harmed : stateOf s'.record = some .armed) : s'.record = s.record := by
  have heffect := effect_of_step h
  cases heffect with
  | keep hrecord => exact hrecord
  | ran p a exitCode hproc hrecord => exact hrecord
  | settle hfrom hto =>
    obtain ⟨-, hnone⟩ | hfailed | hcollected := hto
    · cases harmed.symm.trans hnone
    · cases harmed.symm.trans hfailed
    · cases harmed.symm.trans hcollected
  | armed hfrom hto hprocs hlast hmore => omega
  | cancelled hfrom hto => cases harmed.symm.trans hto
  | claimed p a hact hproc hfrom hto => cases harmed.symm.trans hto
  | ended p a exitCode hact hproc hto =>
    have hboth := harmed.symm.trans hto
    split at hboth <;> cases hboth

theorem keepsArms_of (h : Step s act s') (hcommands : s'.arms.map Arm.command = s.arms.map Arm.command)
    (hlast : s'.lastArm = s.lastArm) : KeepsArms s s' := by
  refine ⟨hcommands, hlast, record_of_armed h ?_⟩
  have hlength := congrArg List.length hcommands
  rwa [List.length_map, List.length_map] at hlength

theorem commands_setArm {arm : Arm} (harm : s.arms[a]? = some arm) (phase : ArmPhase) :
    (s.setArm a arm phase).arms.map Arm.command = s.arms.map Arm.command := by
  show (s.arms.set a { arm with phase }).map Arm.command = _
  apply List.ext_getElem?
  intro b
  rw [List.getElem?_map, List.getElem?_map, List.getElem?_set]
  by_cases hb : a = b
  · subst hb
    rw [if_pos rfl, harm]
    split <;> rename_i hlt
    · rfl
    · exact absurd (List.getElem?_eq_some_iff.mp harm).1 hlt
  · rw [if_neg hb]

theorem armed_or_keeps (h : Step s act s') : (∃ command, Armed s s' command) ∨ KeepsArms s s' := by
  have hstep : step s act = some s' := h
  cases act with
  | arm command timeoutSeconds stopped live timerLive =>
    dsimp only [step] at hstep
    unfold stepArm at hstep
    split at hstep
    · split at hstep
      · cases hstep
        exact .inr (keepsArms_of h rfl rfl)
      · dsimp only at hstep
        split at hstep
        · cases hstep
          exact .inr (keepsArms_of h rfl rfl)
        · rename_i hresult
          cases hstep
          obtain ⟨hprior, hrecord⟩ := armSection_record hresult
          exact .inl ⟨command, rfl, rfl, hrecord, armPrior_ok hprior⟩
    · cases hstep
  | cancel live stopped timerLive after =>
    right
    dsimp only [step] at hstep
    unfold stepCancel at hstep
    split at hstep
    · dsimp only at hstep
      split at hstep <;> (cases hstep; exact keepsArms_of h rfl rfl)
    · cases hstep
  | claim p =>
    right
    dsimp only [step] at hstep
    unfold stepClaim at hstep
    split at hstep
    · dsimp only at hstep
      split at hstep <;> (cases hstep; exact keepsArms_of h rfl rfl)
    · cases hstep
  | handlerStart b =>
    right
    dsimp only [step] at hstep
    unfold stepStart at hstep
    split at hstep
    · cases hstep
      exact keepsArms_of h rfl rfl
    · cases hstep
  | timerStart b =>
    right
    dsimp only [step] at hstep
    split at hstep
    · unfold stepStart at hstep
      split at hstep
      · cases hstep
        exact keepsArms_of h rfl rfl
      · cases hstep
    · cases hstep
  | launched b | launchFailed b | launchRaised b | cleanup b =>
    right
    dsimp only [step] at hstep
    split at hstep
    · rename_i command harm
      cases hstep
      exact keepsArms_of h (commands_setArm harm _) rfl
    · cases hstep
  | rollback p exitCode =>
    right
    dsimp only [step] at hstep
    unfold stepRollback at hstep
    split at hstep
    · cases hstep
      exact keepsArms_of h rfl rfl
    · cases hstep
  | terminal p =>
    right
    dsimp only [step] at hstep
    unfold stepTerminal at hstep
    split at hstep
    · cases hstep
      exact keepsArms_of h rfl rfl
    · cases hstep
  | exit p =>
    right
    dsimp only [step] at hstep
    split at hstep
    · cases hstep
      exact keepsArms_of h rfl rfl
    · cases hstep
  | collect stopped =>
    right
    cases hstep
    exact keepsArms_of h rfl rfl

/-! ## Runs -/

/-- The arms with the records that they have found; an armed record has the command of the last arm. -/
structure Tracked (t : Traced) : Prop where
  length : t.priors.length = t.state.arms.length
  prior : ∀ record ∈ t.priors, stateOf record ≠ some .armed
  own : ∀ record, t.state.record = some record → record.state = .armed →
    ∃ a, t.state.lastArm = some a ∧ t.state.arms[a]?.map Arm.command = some record.rollbackCommand

theorem tracked_initial : Tracked Traced.initial where
  length := rfl
  prior _ h := (List.not_mem_nil h).elim
  own _ h := by cases h

theorem Tracked.step (h : Tracked t) (hstep : TracedStep t act t') : Tracked t' := by
  obtain ⟨s', hs', rfl⟩ := Option.map_eq_some_iff.mp hstep
  obtain ⟨command, harmed⟩ | hkeeps := armed_or_keeps hs'
  · have hlength : s'.arms.length = t.state.arms.length + 1 := by
      rw [harmed.arms, List.length_append]
      rfl
    rw [if_neg (by omega)]
    refine ⟨?_, fun record hrecord => ?_, fun record hrecord _ => ?_⟩
    · show (t.priors ++ [t.state.record]).length = _
      rw [List.length_append, h.length, hlength]
      rfl
    · rcases List.mem_append.mp hrecord with hold | hnew
      · exact h.prior record hold
      · rw [List.mem_singleton.mp hnew]
        exact harmed.prior
    · obtain ⟨written, hwritten, hcommand⟩ := harmed.record
      obtain rfl := Option.some.inj (hwritten.symm.trans hrecord)
      refine ⟨_, harmed.last, ?_⟩
      show s'.arms[t.state.arms.length]?.map Arm.command = _
      rw [harmed.arms, List.getElem?_concat_length, hcommand]
      rfl
  · have hlength : s'.arms.length = t.state.arms.length := by
      have hcommands := congrArg List.length hkeeps.commands
      rwa [List.length_map, List.length_map] at hcommands
    rw [if_pos hlength]
    refine ⟨h.length.trans hlength.symm, h.prior, fun record hrecord harmed => ?_⟩
    have hsame : t.state.record = some record :=
      (hkeeps.record ((congrArg stateOf hrecord).trans (congrArg some harmed))).symm.trans hrecord
    obtain ⟨b, hb, hcommand⟩ := h.own record hsame harmed
    refine ⟨b, hkeeps.last.trans hb, ?_⟩
    show s'.arms[b]?.map Arm.command = _
    rw [← List.getElem?_map, hkeeps.commands, List.getElem?_map]
    exact hcommand

theorem tracked_of_reachable (h : Reachable TracedStep Traced.initial t) : Tracked t :=
  h.invariant tracked_initial fun _ _ _ ht hstep => ht.step hstep

/-! ## Failures -/

theorem Tracked.prior_ne (h : Tracked t) : stateOf (t.prior a) ≠ some .armed := by
  unfold Traced.prior
  cases hprior : t.priors[a]? with
  | none => exact nofun
  | some record => exact h.prior record (List.mem_of_getElem? hprior)

theorem Tracked.own_record (h : Tracked t) (hown : t.Own a) : ∃ record, t.state.record = some record ∧
    record.state = .armed ∧ t.state.arms[a]?.map Arm.command = some record.rollbackCommand := by
  obtain ⟨harmed, hlast⟩ := hown
  obtain ⟨record, hrecord, hstate⟩ := Option.map_eq_some_iff.mp harmed
  obtain ⟨b, hb, hcommand⟩ := h.own record hrecord hstate
  obtain rfl := Option.some.inj (hlast.symm.trans hb)
  exact ⟨record, hrecord, hstate, hcommand⟩

theorem launchRaised_record (h : Step s (.launchRaised a) s') : s'.record = s.record := by
  have hstep : step s (.launchRaised a) = some s' := h
  dsimp only [step] at hstep
  split at hstep
  · cases hstep
    rfl
  · cases hstep

theorem cleanup_record (h : Step s (.cleanup a unlinked) s') :
    ∃ command, s.arms[a]?.map Arm.command = some command ∧
      s'.record = armCleanup s.record command unlinked := by
  have hstep : step s (.cleanup a unlinked) = some s' := h
  dsimp only [step] at hstep
  split at hstep
  · rename_i command harm
    cases hstep
    exact ⟨command, by rw [harm]; rfl, rfl⟩
  · cases hstep

theorem cleanup_own (h : Tracked t) (hstep : Step t.state (.cleanup a unlinked) s')
    (hown : t.Own a) : s'.record = if unlinked then none else t.state.record := by
  obtain ⟨record, hrecord, hstate, hcommand⟩ := h.own_record hown
  obtain ⟨command, harm, hafter⟩ := cleanup_record hstep
  obtain rfl := Option.some.inj (hcommand.symm.trans harm)
  rw [hafter, hrecord]
  unfold armCleanup
  cases unlinked with
  | true => exact if_pos ⟨hstate, rfl, rfl⟩
  | false => exact if_neg fun hall => Bool.false_ne_true hall.2.2

/-- In every run of arms, cancels and firings, a call of `arm` that has created no timer puts the record
back exactly when `systemd-run` has answered, nothing was there before, its unlink succeeds, and no
other guard has been armed with the same command. -/
theorem arm_failureAtomic_iff (h : Reachable TracedStep Traced.initial t) (hstep : TracedStep t act t')
    (hact : act = .launchRaised a ∨ ∃ unlinked, act = .cleanup a unlinked) :
    FailureAtomic t t' a ↔ Restorable t a act := by
  have ht := tracked_of_reachable h
  obtain ⟨s', hs', rfl⟩ := Option.map_eq_some_iff.mp hstep
  unfold FailureAtomic
  dsimp only
  obtain rfl | ⟨unlinked, rfl⟩ := hact
  · rw [launchRaised_record hs']
    unfold Restorable
    by_cases hown : t.Own a
    · -- its own record is left behind
      rw [if_pos hown]
      refine iff_of_false (fun heq => ht.prior_ne (a := a) ?_) fun hnot => hnot hown
      rw [← heq]
      exact hown.1
    · rw [if_neg hown]
      exact iff_of_true rfl hown
  · unfold Restorable
    dsimp only
    by_cases hown : t.Own a
    · rw [if_pos hown, if_pos hown, cleanup_own ht hs' hown]
      cases unlinked with
      | true => exact ⟨fun heq => ⟨heq.symm, rfl⟩, fun hboth => hboth.1.symm⟩
      | false =>
        refine iff_of_false (fun heq => ht.prior_ne (a := a) ?_) fun hboth => Bool.false_ne_true hboth.2
        have hsame : t.state.record = t.prior a := heq
        rw [← hsame]
        exact hown.1
    · -- the record is another one
      rw [if_neg hown, if_neg hown]
      obtain ⟨command, harm, hafter⟩ := cleanup_record hs'
      rw [hafter, harm]
      unfold armCleanup
      cases hrecord : t.state.record with
      | none => exact iff_of_true rfl nofun
      | some record =>
        dsimp only
        constructor
        · intro heq other hother hstate hunlinked hcommand
          obtain rfl := Option.some.inj hother
          rw [if_pos ⟨hstate, Option.some.inj hcommand, hunlinked⟩] at heq
          cases heq
        · intro hall
          exact if_neg fun hcase => hall record rfl hcase.1 hcase.2.2 (congrArg some hcase.2.1)

/-- An arm for a unit without a record whose `systemd-run` is refused. -/
def refusedOnce : List Action := [.arm ["restore"] 60 true idle idle, .launchFailed 0]

theorem arm_failureAtomic_iff_refusedOnce : ∃ t t', Reachable TracedStep Traced.initial t ∧
    TracedStep t (.cleanup 0 true) t' ∧ (FailureAtomic t t' 0 ↔ Restorable t 0 (.cleanup 0 true)) := by
  obtain ⟨t, ht, t', ht'⟩ : ∃ t, refusedOnce.foldlM tracedStep Traced.initial = some t ∧
      ∃ t', tracedStep t (.cleanup 0 true) = some t' := ⟨_, rfl, _, rfl⟩
  have hreachable : Reachable TracedStep Traced.initial t := ⟨_, run_of_foldlM ht⟩
  exact ⟨t, t', hreachable, ht', arm_failureAtomic_iff hreachable ht' (.inr ⟨true, rfl⟩)⟩

/-- A `systemd-run` that cannot be executed leaves the armed record of a guard without a timer. -/
theorem not_failureAtomic_launchRaised :
    ¬ ∀ t t' act a, Reachable TracedStep Traced.initial t → TracedStep t act t' →
      (act = .launchRaised a ∨ ∃ unlinked, act = .cleanup a unlinked) → FailureAtomic t t' a := by
  intro h
  obtain ⟨t, ht, t', ht', hprior, harmed⟩ : ∃ t, [Action.arm ["restore"] 60 true idle idle].foldlM
      tracedStep Traced.initial = some t ∧ ∃ t', tracedStep t (.launchRaised 0) = some t' ∧
      t.prior 0 = none ∧ t.Own 0 ∧ t'.state.record.isSome := ⟨_, rfl, _, rfl, rfl, ⟨rfl, rfl⟩, rfl⟩
  have hatomic := h t t' (.launchRaised 0) 0 ⟨_, run_of_foldlM ht⟩ ht' (.inl rfl)
  unfold FailureAtomic at hatomic
  rw [if_pos harmed.1, hprior] at hatomic
  rw [hatomic] at harmed
  cases harmed.2

end NixNas.Guard
