import NixNas.Accounts.Lockout

/-!
# What the journal says of the mutations

A mutation that was interrupted leaves its step running, or the plan to be recovered by hand; a step
is only recorded as failed behind a reply that says so, or one that could not be read.
-/

open Transition

namespace NixNas.Accounts

/-- The mutation was answered, and the step has taken the answer. -/
def Request.Accepted (r : Request) : Prop :=
  ∃ transport, r.transport = some transport ∧ transport.admits r.applied = true ∧
    r.task.outcome transport = .ok ()

/-- The mutation has failed, and not as an uncertain one. -/
def Request.Plain (r : Request) : Prop :=
  ∃ transport error, r.transport = some transport ∧ transport.admits r.applied = true ∧
    r.task.outcome transport = .error error ∧ error ≠ .ambiguous

/-- The plain failures behind which a mutation can be applied. -/
def Request.misread (r : Request) : Bool :=
  match r.transport with
  | some (.replied _) => true
  | some (.httpError code) => code < 400 || 599 < code
  | some (.unreadError code _) => !rejected code
  | some (.raised fault) => fault ∈ [.osError, .other]
  | _ => false

/-- The journal knows of the last mutation of every step for an account.  The step of the reserved
groups has several mutations, and listings behind them. -/
def Recorded (j : Journal) (requests : List Request) : Prop :=
  ∀ name r, name ≠ .reservedGroups → requests.find? (fun r ↦ r.task.step = name) = some r →
    j.stepStatus name = some .running ∨ j.stepStatus name = some .manualRecoveryRequired ∨
      (j.stepStatus name = some .complete ∧ r.Accepted) ∨ (j.stepStatus name = some .failed ∧ r.Plain)

variable {j j' : Journal} {requests : List Request} {r : Request} {t : Task} {todo : List Task}
  {name : StepName} {status : StepStatus}
variable {plan : Plan} {journal : Journal} {stage : Option Stage} {process : Option Process}

theorem Recorded.congr (h : Recorded j requests) (hsteps : j'.steps = j.steps) : Recorded j' requests := by
  unfold Recorded Journal.stepStatus
  rw [hsteps]
  exact h

theorem Recorded.record (h : Recorded j requests) (hsteps : j'.steps = j.record name status)
    (hlast : ∀ r, name ≠ .reservedGroups → requests.find? (fun r ↦ r.task.step = name) = some r →
      status = .running ∨ status = .manualRecoveryRequired ∨ (status = .complete ∧ r.Accepted) ∨
        (status = .failed ∧ r.Plain)) : Recorded j' requests := by
  intro name' r hname hr
  rw [stepStatus_of_steps hsteps]
  split
  · rename_i heq
    subst heq
    simpa only [Option.some.injEq] using hlast r hname hr
  · exact h name' r hname hr

theorem Recorded.sent (h : Recorded j requests) (hstatus : j.stepStatus r.task.step = some .running) :
    Recorded j (r :: requests) := by
  intro name r' hname hr'
  by_cases heq : r.task.step = name
  · exact .inl (heq ▸ hstatus)
  · rw [List.find?_cons_of_neg (by simpa using heq)] at hr'
    exact h name r' hname hr'

/-- A mutation of `ensure_groups`. -/
theorem Recorded.group (h : Recorded j requests) (hstep : r.task.step = .reservedGroups) :
    Recorded j (r :: requests) := by
  intro name r' hname hr'
  rw [List.find?_cons_of_neg (by simpa [hstep] using hname.symm)] at hr'
  exact h name r' hname hr'

theorem misread_of_plain (h : r.Plain) (happlied : r.applied = true) : r.misread = true := by
  obtain ⟨transport, error, htransport, hadmits, houtcome, hplain⟩ := h
  unfold Request.misread
  rw [htransport]
  rw [happlied] at hadmits
  unfold Task.outcome at houtcome
  cases transport with
  | replied body => rfl
  | unreadError code fault => exact hadmits
  | httpError code =>
    have herror : error = if ambiguousMutationFailure (.httpError code) then .ambiguous else .sync :=
      (Except.error.inj houtcome).symm
    have hcertain : ambiguousMutationFailure (.httpError code) = false := by
      rw [← Bool.not_eq_true]
      intro hambiguous
      exact hplain (herror.trans (if_pos hambiguous))
    simp only [ambiguousMutationFailure, rejected, Transport.admits, Bool.or_eq_false_iff,
      Bool.and_eq_false_iff, decide_eq_false_iff_not, Bool.not_true, Bool.false_or, Bool.not_eq_true']
      at hcertain hadmits
    simp only [Bool.or_eq_true, decide_eq_true_eq]
    simp only [ne_eq] at hadmits
    omega
  | urlError reason =>
    have hambiguous : ambiguousMutationFailure (.urlError reason) = true := hadmits
    have herror : error = if ambiguousMutationFailure (.urlError reason) then .ambiguous else .sync :=
      (Except.error.inj houtcome).symm
    exact absurd (herror.trans (if_pos hambiguous)) hplain
  | raised fault =>
    cases fault with
    | osError | other => rfl
    | timeout | connectionReset | connectionAborted | httpException =>
      exact absurd (Except.error.inj houtcome).symm hplain

theorem applied_of_accepted (h : r.Accepted) : r.applied = true := by
  obtain ⟨transport, -, hadmits, houtcome⟩ := h
  exact applied_of_outcome hadmits houtcome

/-- What a process knows of the mutations at a stage. -/
def Tracked (file : Option Journal) (journal : Journal) (requests : List Request) : Stage → Prop
  | .ready todo =>
    journal.status ≠ .manualRecoveryRequired ∧ ∀ t ∈ todo.getD [], t.step ≠ .reservedGroups
  | .requested t todo =>
    journal.status ≠ .manualRecoveryRequired ∧ journal.stepStatus t.step = some .running ∧
      (∀ j, file = some j → j.stepStatus t.step = some .running) ∧
      (todo = none → t.step = .reservedGroups) ∧
      ∀ todo', todo = some todo' → ∀ t' ∈ t :: todo', t'.step ≠ .reservedGroups
  | .accepted t todo =>
    journal.status ≠ .manualRecoveryRequired ∧ (∀ t' ∈ todo.getD [], t'.step ≠ .reservedGroups) ∧
      (t.step ≠ .reservedGroups →
        ∀ r, requests.find? (fun r ↦ r.task.step = t.step) = some r → r.Accepted)
  | .refused t error => journal.status ≠ .manualRecoveryRequired ∧ (error ≠ .ambiguous →
    t.step ≠ .reservedGroups → ∀ r, requests.find? (fun r ↦ r.task.step = t.step) = some r → r.Plain)
  | .escalating _ => journal.status = .manualRecoveryRequired
  | .closing => True

structure Known (w : World) (p : Process) : Prop where
  recorded : p.journal.status = .manualRecoveryRequired ∨ Recorded p.journal w.requests
  stage : Tracked w.journal p.journal w.requests p.stage

structure Certain (w : World) : Prop where
  file : ∀ j, w.journal = some j → j.status = .manualRecoveryRequired ∨ Recorded j w.requests
  process : ∀ p, w.process = some p → Known w p

variable {w w' : World} {p : Process}

theorem step_planTasks {complete : StepName → Bool} {d : Directory}
    (h : t ∈ planTasks complete plan d) : t.step ≠ .reservedGroups := by
  rcases mem_planTasks.mp h with ⟨a, -, ht⟩ | ⟨b, -, -, rfl⟩
  · rcases mem_accountTasks.mp ht with ⟨-, -, rfl⟩ | ⟨-, rfl⟩ | ⟨-, rfl⟩ <;> nofun
  · nofun

theorem Certain.saved (h : Certain w) (save : Save)
    (hrecorded : journal.status = .manualRecoveryRequired ∨ Recorded journal w.requests)
    (hstage : ∀ s, stage = some s → Tracked (some journal) journal w.requests s) :
    Certain (w.saved p journal stage save) := by
  cases save with
  | done =>
    constructor
    · intro j hj
      exact Option.some.inj hj ▸ hrecorded
    · intro p' hp'
      obtain ⟨s, hs, rfl⟩ := Option.map_eq_some_iff.mp hp'
      exact ⟨hrecorded, hstage s hs⟩
  | raised written =>
    constructor
    · intro j hj
      cases written with
      | false => exact h.file j hj
      | true => exact Option.some.inj hj ▸ hrecorded
    · intro p' hp'
      exact Option.some.inj hp' ▸ ⟨hrecorded, trivial⟩

theorem Certain.saves (h : Certain w) (hprocess : w.process = some p)
    (save : Save) (hsaves : p.Saves journal stage) :
    Certain (w.saved p journal stage save) := by
  have hknown := h.process p hprocess
  have htracked := hknown.stage
  have hrecorded (hopen : p.journal.status ≠ .manualRecoveryRequired) : Recorded p.journal w.requests :=
    hknown.recorded.resolve_left hopen
  -- by what the step records: its start, its end, a failure or that nobody knows
  cases hsaves with
  | ensuring hstage =>
    rw [hstage] at htracked
    apply h.saved save
    · exact .inr ((hrecorded htracked.1).record rfl fun _ _ _ => .inl rfl)
    · intro s hs
      obtain rfl := Option.some.inj hs
      refine ⟨nofun, (stepStatus_of_steps rfl).trans (if_pos rfl), ?_, fun _ => rfl,
        fun _ htodo => by cases htodo⟩
      intro j hj
      exact Option.some.inj hj ▸ (stepStatus_of_steps rfl).trans (if_pos rfl)
  | started hstage hfound =>
    rw [hstage] at htracked
    apply h.saved save
    · exact .inr ((hrecorded htracked.1).record rfl fun _ _ _ => .inl rfl)
    · intro s hs
      obtain rfl := Option.some.inj hs
      refine ⟨nofun, (stepStatus_of_steps rfl).trans (if_pos rfl), ?_, nofun, ?_⟩
      · intro j hj
        exact Option.some.inj hj ▸ (stepStatus_of_steps rfl).trans (if_pos rfl)
      · intro todo' htodo
        obtain rfl := Option.some.inj htodo
        exact htracked.2
  | completed hstage =>
    rw [hstage] at htracked
    obtain ⟨hopen, htodo, hlast⟩ := htracked
    apply h.saved save
    · exact .inr ((hrecorded hopen).record rfl
        fun r hname hr => .inr (.inr (.inl ⟨rfl, hlast hname r hr⟩)))
    · intro s hs
      obtain rfl := Option.some.inj hs
      exact ⟨hopen, htodo⟩
  | uncertain hstage =>
    apply h.saved save
    · exact .inl rfl
    · intro s hs
      obtain rfl := Option.some.inj hs
      rfl
  | failed hstage herror hnext =>
    rw [hstage] at htracked
    obtain ⟨hopen, hlast⟩ := htracked
    apply h.saved save
    · exact .inr ((hrecorded hopen).record rfl
        fun r hname hr => .inr (.inr (.inr ⟨rfl, hlast herror hname r hr⟩)))
    · intro s hs
      rcases hnext with rfl | rfl
      · exact Option.some.inj hs ▸ trivial
      · cases hs
  | escalated hstage =>
    rw [hstage] at htracked
    apply h.saved save
    · exact .inl htracked
    · exact fun s hs => Option.some.inj hs ▸ trivial
  | finished hstage =>
    rw [hstage] at htracked
    apply h.saved save
    · exact .inr ((hrecorded htracked.1).congr rfl)
    · nofun

section

variable (h : Certain w) (hprocess : w.process = some p) {todo' : List Task}
  (hstage : p.stage = .requested t (some todo'))
include h hprocess hstage

theorem Certain.sent (applied : Bool) (transport : Option Transport) :
    Certain { w.sent t applied transport with process := none } ∧
      Recorded p.journal (⟨t, applied, transport⟩ :: w.requests) := by
  have hknown := h.process p hprocess
  have htracked := hknown.stage
  rw [hstage] at htracked
  obtain ⟨hopen, hrunning, hfile, -⟩ := htracked
  refine ⟨⟨?_, fun _ hp => by cases hp⟩, ?_⟩
  · intro j hj
    exact (h.file j hj).imp_right fun hrecorded => hrecorded.sent (hfile j hj)
  · exact (hknown.recorded.resolve_left hopen).sent hrunning

theorem Certain.answered {applied : Bool} {transport : Option Transport} {stage : Stage}
    (hnext : Tracked w.journal p.journal (⟨t, applied, transport⟩ :: w.requests) stage) :
    Certain ((w.sent t applied transport).at p stage) := by
  obtain ⟨hcertain, hrecorded⟩ := h.sent hprocess hstage applied transport
  refine ⟨hcertain.file, ?_⟩
  intro p' hp'
  obtain rfl := Option.some.inj hp'
  exact ⟨.inr hrecorded, hnext⟩

end

theorem Certain.moved (h : Certain w) (hprocess : w.process = some p) {stage : Stage}
    (hmoves : p.Moves w.directory stage) : Certain (w.at p stage) := by
  have hknown := h.process p hprocess
  have htracked := hknown.stage
  have hnext (hstage : Tracked w.journal p.journal w.requests stage) : Certain (w.at p stage) := by
    refine ⟨h.file, ?_⟩
    intro p' hp'
    obtain rfl := Option.some.inj hp'
    exact ⟨hknown.recorded, hstage⟩
  cases hmoves with
  | stopped => exact hnext trivial
  | accepted hstage =>
    rw [hstage] at htracked
    obtain ⟨hopen, -, -, hstep, -⟩ := htracked
    exact hnext ⟨hopen, nofun, fun hother => absurd (hstep rfl) hother⟩
  | refused hstage =>
    rw [hstage] at htracked
    obtain ⟨hopen, -, -, hstep, -⟩ := htracked
    exact hnext ⟨hopen, fun _ hother => absurd (hstep rfl) hother⟩
  | listed hstage hguard =>
    rw [hstage] at htracked
    exact hnext ⟨htracked.1, fun _ => step_planTasks⟩

/-- The journal says nothing of the mutations of `ensure_groups`. -/
theorem Certain.ensuring (h : Certain w) (hprocess : w.process = some p) {request : GroupRequest}
    {applied : Bool} {transport : Option Transport}
    (hstage : p.stage = .requested t none)
    (hnext : process = none ∨ process = some p ∨
      ∃ error, process = some { p with stage := .refused t error }) :
    Certain { w.sentGroup request t applied transport with process := process } := by
  have hknown := h.process p hprocess
  have htracked := hknown.stage
  rw [hstage] at htracked
  obtain ⟨hopen, hrunning, hfile, hstep, htodo⟩ := htracked
  have hreserved := hstep rfl
  have hrecorded : p.journal.status = .manualRecoveryRequired ∨
      Recorded p.journal (⟨t, applied, transport⟩ :: w.requests) :=
    hknown.recorded.imp_right fun hrecorded => hrecorded.group hreserved
  constructor
  · exact fun j hj => (h.file j hj).imp_right fun hrecorded => hrecorded.group hreserved
  · intro p' hp'
    obtain rfl : process = some p' := hp'
    rcases hnext with hnone | hsame | ⟨error, herror⟩
    · cases hnone
    · cases hsame
      refine ⟨hrecorded, ?_⟩
      rw [hstage]
      exact ⟨hopen, hrunning, hfile, hstep, htodo⟩
    · cases herror
      exact ⟨hrecorded, hopen, fun _ hother => absurd hreserved hother⟩

theorem Certain.started (h : Certain w) {raw : RawPlan}
    (hjournal : openJournal w.journal raw = some journal)
    (hrequests : requests = if w.journal.any fun j ↦ !j.finished then w.requests else [])
    (hnext : process = some ⟨plan, journal, .ready none⟩ ∨ process = none) :
    Certain { w with journal := some journal, process := process, requests := requests } := by
  have hopened : journal.status ≠ .manualRecoveryRequired ∧ Recorded journal requests := by
    rcases openJournal_eq_some hjournal with ⟨hold, rfl⟩ | ⟨j, hj, hunfinished, -, hmanual, rfl⟩
    · have hnone : requests = [] := by
        rw [hrequests]
        apply if_neg
        rcases hold with hnone | ⟨j, hj, hfinished⟩
        · rw [hnone]
          decide
        · rw [hj, Option.any_some, hfinished]
          decide
      rw [hnone]
      exact ⟨nofun, fun _ _ _ hr => (by cases hr)⟩
    · have hsame : requests = w.requests := by
        rw [hrequests]
        apply if_pos
        rw [hj, Option.any_some, hunfinished]
        rfl
      rw [hsame]
      exact ⟨nofun, ((h.file j hj).resolve_left hmanual).congr rfl⟩
  obtain ⟨hopen, hrecorded⟩ := hopened
  constructor
  · intro j hj
    exact Option.some.inj hj ▸ .inr hrecorded
  · intro p hp
    rcases hnext with rfl | rfl
    · obtain rfl := Option.some.inj hp
      exact ⟨.inr hrecorded, hopen, nofun⟩
    · cases hp

theorem Certain.closed (h : Certain w) (hprocess : w.process = some p)
    (hopen : p.journal.status ≠ .manualRecoveryRequired) :
    Certain { w with journal := some { p.journal with status := .failed }, process := none } := by
  refine ⟨?_, fun _ hp => by cases hp⟩
  intro j hj
  have hrecorded := (h.process p hprocess).recorded.resolve_left hopen
  exact Option.some.inj hj ▸ .inr (hrecorded.congr rfl)

theorem Certain.cancelled (h : Certain w) (hprocess : w.process = none) (hjournal : w.journal = some j)
    (hcancel : j.cancellable = true) :
    Certain { w with journal := some { j with status := .cancelled } } := by
  constructor
  · intro j' hj'
    rw [Journal.cancellable, Bool.and_eq_true, decide_eq_true_eq] at hcancel
    have hrecorded := (h.file j hjournal).resolve_left (by rw [hcancel.1]; decide)
    exact Option.some.inj hj' ▸ .inr (hrecorded.congr rfl)
  · intro p hp
    cases hprocess.symm.trans hp

theorem Certain.step {event : Event} (h : Certain w) (hstep : step w event = some w') : Certain w' := by
  cases change_of_step hstep with
  | refused => exact h
  | started _ _ hjournal hrequests hnext => exact h.started hjournal hrequests hnext
  | moved hprocess hmoves => exact h.moved hprocess hmoves
  | ensuring hprocess hstage _ hnext => exact h.ensuring hprocess hstage hnext
  | saved hprocess hsaves => exact h.saves hprocess _ hsaves
  | @accepted p t todo applied transport hprocess hstage hadmits houtcome =>
    have htracked := (h.process p hprocess).stage
    rw [hstage] at htracked
    apply h.answered hprocess hstage
    refine ⟨htracked.1, fun t' ht' => htracked.2.2.2.2 todo rfl t' (List.mem_cons_of_mem _ ht'), ?_⟩
    intro _ r hr
    rw [List.find?_cons_of_pos (by simp)] at hr
    exact Option.some.inj hr ▸ ⟨transport, rfl, hadmits, houtcome⟩
  | @failed p t todo applied transport error hprocess hstage hadmits houtcome =>
    have htracked := (h.process p hprocess).stage
    rw [hstage] at htracked
    apply h.answered hprocess hstage
    refine ⟨htracked.1, fun herror _ r hr => ?_⟩
    rw [List.find?_cons_of_pos (by simp)] at hr
    exact Option.some.inj hr ▸ ⟨transport, error, rfl, hadmits, houtcome, herror⟩
  | closed hprocess hopen _ hjournal =>
    rcases hjournal with rfl | rfl
    · exact ⟨h.file, fun _ hp => by cases hp⟩
    · exact h.closed hprocess hopen
  | ended => exact ⟨h.file, fun _ hp => by cases hp⟩
  | killed hprocess hstage => exact (h.sent hprocess hstage _ none).1
  | cancelled hprocess hjournal hcancel => exact h.cancelled hprocess hjournal hcancel
  | retired hprocess _ =>
    refine ⟨h.file, ?_⟩
    intro p hp
    cases hprocess.symm.trans hp

/-- Where a journal can be cancelled, the last mutation of each step for an account is applied and the
step complete, or the step has failed, and the mutation is not applied unless its reply could not be
read. -/
theorem settled_of_cancellable {start : Directory}
    (h : Reachable (fun w event w' ↦ step w event = some w') (.initial start) w)
    (hjournal : w.journal = some j) (hcancel : j.cancellable = true)
    (hname : name ≠ .reservedGroups) (hlast : w.lastRequest name = some r) :
    (j.stepStatus name = some .complete ∧ r.applied = true) ∨
      (j.stepStatus name = some .failed ∧ (r.applied = true → r.misread = true)) := by
  have hcertain : Certain w := h.invariant ⟨fun _ hj => (by cases hj), fun _ hp => (by cases hp)⟩
    fun _ _ _ hinv hstep => hinv.step hstep
  have hstatus : j.status = .failed := by
    rw [Journal.cancellable, Bool.and_eq_true, decide_eq_true_eq] at hcancel
    exact hcancel.1
  have hrecorded := (hcertain.file j hjournal).resolve_left (by rw [hstatus]; decide)
  rcases hrecorded name r hname hlast with hrunning | hmanual | ⟨hcomplete, haccepted⟩ | ⟨hfailed, hplain⟩
  · rcases stepStatus_of_cancellable hcancel hrunning with h | h <;> cases h
  · rcases stepStatus_of_cancellable hcancel hmanual with h | h <;> cases h
  · exact .inl ⟨hcomplete, applied_of_accepted haccepted⟩
  · exact .inr ⟨hfailed, misread_of_plain hplain⟩

/-- A group is created, then the account of bob, and that reply is no JSON. -/
def demoUnread : List Event :=
  [.start demoPlan false .done, .begin .done,
    .ensuring (.create guestGroup) true (some (.replied .object)), .ensured none, .record .done, .list true,
    .begin .done, .reply true (.replied .invalid), .record .done, .close .done]

def demoFailed : Journal :=
  ⟨demoPlan, .failed, [(.account "bob".toList, .failed), (.reservedGroups, .complete)]⟩

theorem settled_of_cancellable_demo : ∃ r : Request, r.applied = true ∧
    demoFailed.stepStatus (.account "bob".toList) = some .failed ∧ (r.applied = true → r.misread = true) := by
  have hrun : (demoUnread.foldlM step (.initial demoDirectory)).map
      (fun w ↦ (w.journal, (w.lastRequest (.account "bob".toList)).map Request.applied)) =
        some (some demoFailed, some true) := by decide +kernel
  obtain ⟨w, hw, heq⟩ := Option.map_eq_some_iff.mp hrun
  rw [Prod.mk.injEq, Option.map_eq_some_iff] at heq
  obtain ⟨hjournal, r, hr, happlied⟩ := heq
  refine ⟨r, happlied, ?_⟩
  exact (settled_of_cancellable ⟨demoUnread, run_of_foldlM hw⟩ hjournal rfl (by decide) hr).resolve_left
    fun hcomplete => nomatch hcomplete.1

end NixNas.Accounts
