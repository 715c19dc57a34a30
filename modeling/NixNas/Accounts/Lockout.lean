import NixNas.Accounts.Applied

/-!
# What holds of the accounts in every run

There stays an administrator, a journal that is complete tells the truth, and no capability group
comes or goes.
-/

open NixNas.Setup (Status)
open NixNas.Caddy NixNas.Identity Transition

namespace NixNas.Accounts

variable {d start : Directory} {plan : Plan} {t : Task} {todo : List Task} {j : Journal}
  {administered : Prop}
variable {journal : Journal} {stage : Option Stage} {process : Option Process}

/-! ## The invariant -/

def StageInv (administered : Prop) (plan : Plan) (d : Directory) (j : Journal) : Stage → Prop
  | .ready (some todo) => Planned administered plan d todo ∧ Pending plan d j todo
  | .requested t none => t = .reservedGroups
  | .requested t (some todo) =>
    Planned administered plan d (t :: todo) ∧ Pending plan d j (t :: todo) ∧ ∀ username, t ≠ .lost username
  | .accepted t none => t = .reservedGroups
  | .accepted t (some todo) =>
    t.Done d ∧ t.Fits plan ∧ Planned administered plan d todo ∧ Pending plan d j (t :: todo)
  | _ => True

structure Running (administered : Prop) (d : Directory) (file : Option Journal) (p : Process) : Prop where
  plan : p.journal.raw.plan = .ok p.plan
  /-- The file is one of this run. -/
  own : ∃ j, file = some j ∧ j.raw = p.journal.raw
  unfinished : p.stage ≠ .closing → p.journal.finished = false ∧ ∀ j, file = some j → j.finished = false
  applied : Applied p.plan d p.journal
  stage : StageInv administered p.plan d p.journal p.stage

structure Sound (start d : Directory) (file : Option Journal) : Prop where
  administrator : HasAdministrator start → HasAdministrator d
  kept : Kept start d
  plan : ∀ j, file = some j → ∃ plan, j.raw.plan = .ok plan
  applied : ∀ j plan, file = some j → j.raw.plan = .ok plan → j.finished = false → Applied plan d j
  met : ∀ j plan, file = some j → j.raw.plan = .ok plan → j.status = .complete → Met plan d

structure Inv (start : Directory) (w : World) : Prop where
  sound : Sound start w.directory w.journal
  running : ∀ p, w.process = some p → Running (HasAdministrator start) w.directory w.journal p

theorem inv_initial (d : Directory) : Inv d (.initial d) where
  sound := ⟨id, kept_refl d, nofun, nofun, nofun⟩
  running := fun _ hp => by cases hp

variable {w w' : World} {p : Process}

theorem Inv.ended (h : Inv start w) : Inv start { w with process := none } where
  sound := h.sound
  running := fun _ hp => by cases hp

theorem Inv.at (h : Inv start w)
    (hrunning : Running (HasAdministrator start) w.directory w.journal p) :
    Inv start { w with process := some p } where
  sound := h.sound
  running := by
    intro p' hp'
    obtain rfl := Option.some.inj hp'
    exact hrunning

theorem Sound.write (h : Sound start d (some j)) {j' : Journal} (hraw : j'.raw = j.raw)
    (hplan : j.raw.plan = .ok plan) (happlied : Applied plan d j') (hmet : j'.status = .complete → Met plan d) :
    Sound start d (some j') where
  administrator := h.administrator
  kept := h.kept
  plan := by
    intro j'' hj''
    obtain rfl := Option.some.inj hj''
    exact ⟨plan, hraw ▸ hplan⟩
  applied := by
    intro j'' plan' hj'' hplan' _
    obtain rfl := Option.some.inj hj''
    rw [hraw, hplan] at hplan'
    exact Except.ok.inj hplan' ▸ happlied
  met := by
    intro j'' plan' hj'' hplan' hcomplete
    obtain rfl := Option.some.inj hj''
    rw [hraw, hplan] at hplan'
    exact Except.ok.inj hplan' ▸ hmet hcomplete

/-! ## Steps -/

theorem Inv.saved (h : Inv start w) (hprocess : w.process = some p)
    (save : Save) (hraw : journal.raw = p.journal.raw)
    (happlied : Applied p.plan w.directory journal)
    (hmet : journal.status = .complete → Met p.plan w.directory)
    (hstage : ∀ s, stage = some s → StageInv (HasAdministrator start) p.plan w.directory journal s)
    (hunfinished : ∀ s, stage = some s → s ≠ .closing → journal.finished = false) :
    Inv start (w.saved p journal stage save) := by
  have hrunning := h.running p hprocess
  obtain ⟨j, hj, hjraw⟩ := hrunning.own
  have hplan : journal.raw.plan = .ok p.plan := hraw ▸ hrunning.plan
  have hsound : Sound start w.directory (some journal) := by
    have hfile := h.sound
    rw [hj] at hfile
    exact hfile.write (hraw.trans hjraw.symm) (hjraw ▸ hrunning.plan) happlied hmet
  cases save with
  | done =>
    refine ⟨hsound, ?_⟩
    intro p' hp'
    obtain ⟨s, hs, rfl⟩ := Option.map_eq_some_iff.mp hp'
    refine ⟨hplan, ⟨journal, rfl, rfl⟩, ?_, happlied, hstage s hs⟩
    intro hne
    refine ⟨hunfinished s hs hne, ?_⟩
    intro j' hj'
    obtain rfl := Option.some.inj hj'
    exact hunfinished s hs hne
  | raised written =>
    constructor
    · cases written with
      | false => exact h.sound
      | true => exact hsound
    · intro p' hp'
      obtain rfl := Option.some.inj hp'
      refine ⟨hplan, ?_, fun hne => absurd rfl hne, happlied, trivial⟩
      cases written with
      | false => exact ⟨j, hj, hjraw.trans hraw.symm⟩
      | true => exact ⟨journal, rfl, rfl⟩

theorem Inv.saves (h : Inv start w) (hprocess : w.process = some p)
    (save : Save) (hsaves : p.Saves journal stage) :
    Inv start (w.saved p journal stage save) := by
  have hrunning := h.running p hprocess
  have hinv := hrunning.stage
  have happlied := hrunning.applied
  have hopen : p.stage ≠ .closing → p.journal.finished = false := fun hne => (hrunning.unfinished hne).1
  have hfailed (manual : Bool) : failedStatus manual ≠ .complete := by cases manual <;> decide
  -- only the end of a step and of the plan make a step or the plan complete
  cases hsaves with
  | ensuring hstage =>
    apply h.saved hprocess save
    · rfl
    · exact happlied.mono fun _ => stepComplete_of_record rfl (by decide)
    · nofun
    · exact fun s hs => Option.some.inj hs ▸ rfl
    · exact fun _ _ _ => rfl
  | started hstage hfound =>
    rw [hstage] at hinv
    apply h.saved hprocess save
    · rfl
    · exact happlied.mono fun _ => stepComplete_of_record rfl (by decide)
    · nofun
    · intro s hs
      obtain rfl := Option.some.inj hs
      exact ⟨hinv.1, hinv.2.startStep, hfound⟩
    · exact fun _ _ _ => rfl
  | @completed task todo hstage =>
    rw [hstage] at hinv hopen
    have hstatus := hopen nofun
    apply h.saved hprocess save
    · rfl
    · cases todo with
      | none =>
        obtain rfl := hinv
        exact happlied.completeStep trivial trivial
      | some todo => exact happlied.completeStep hinv.2.1 hinv.1
    · intro hcomplete
      rw [Journal.finished, Bool.or_eq_false_iff] at hstatus
      exact absurd hcomplete (of_decide_eq_false hstatus.1)
    · intro s hs
      obtain rfl := Option.some.inj hs
      cases todo with
      | none => trivial
      | some todo => exact ⟨hinv.2.2.1, hinv.2.2.2.completeStep⟩
    · exact fun _ _ _ => hstatus
  | uncertain hstage =>
    apply h.saved hprocess save
    · rfl
    · exact happlied.mono fun _ => stepComplete_of_record rfl (by decide)
    · exact fun hcomplete => absurd hcomplete (hfailed true)
    · exact fun s hs => Option.some.inj hs ▸ trivial
    · exact fun _ _ _ => rfl
  | failed hstage herror hnext =>
    apply h.saved hprocess save
    · rfl
    · exact happlied.mono fun _ => stepComplete_of_record rfl (by decide)
    · exact fun hcomplete => absurd hcomplete (hfailed false)
    · intro s hs
      rcases hnext with rfl | rfl
      · exact Option.some.inj hs ▸ trivial
      · cases hs
    · exact fun _ _ _ => rfl
  | escalated hstage =>
    rw [hstage] at hopen
    have hstatus := hopen nofun
    apply h.saved hprocess save
    · rfl
    · exact happlied.mono fun _ => stepComplete_of_record rfl (by decide)
    · intro hcomplete
      rw [Journal.finished, Bool.or_eq_false_iff] at hstatus
      exact absurd hcomplete (of_decide_eq_false hstatus.1)
    · exact fun s hs => Option.some.inj hs ▸ trivial
    · exact fun _ hs hne => absurd (Option.some.inj hs).symm hne
  | finished hstage =>
    rw [hstage] at hinv
    apply h.saved hprocess save
    · rfl
    · exact happlied.mono fun _ => id
    · exact fun _ => met_of_pending hinv.2 happlied
    · nofun
    · nofun

section

variable (h : Inv start w) (hprocess : w.process = some p) (hstage : p.stage = .requested t (some todo))
include h hprocess hstage

theorem Inv.requested : Planned (HasAdministrator start) p.plan w.directory (t :: todo) ∧
    Pending p.plan w.directory p.journal (t :: todo) ∧ ∀ username, t ≠ .lost username := by
  have hinv := (h.running p hprocess).stage
  rw [hstage] at hinv
  exact hinv

theorem Inv.applied_sent (applied : Bool) :
    Applied p.plan (if applied then t.apply w.directory else w.directory) p.journal := by
  have hplanned := (h.requested hprocess hstage).1
  have happlied := (h.running p hprocess).applied
  split
  · exact happlied.apply (hplanned.fits t List.mem_cons_self) (hplanned.current t List.mem_cons_self)
  · exact happlied

theorem Inv.sent (applied : Bool) :
    Sound start (if applied then t.apply w.directory else w.directory) w.journal := by
  have hplanned := (h.requested hprocess hstage).1
  have hrunning := h.running p hprocess
  cases applied with
  | false => exact h.sound
  | true =>
    show Sound start (t.apply w.directory) w.journal
    have hcurrent := hplanned.current t List.mem_cons_self
    refine ⟨fun hgiven => (hplanned.safe hgiven).2.administrator, h.sound.kept.apply hcurrent,
      h.sound.plan, ?_, ?_⟩
    · intro j plan hj hplan hunfinished
      obtain ⟨j', hj', hraw⟩ := hrunning.own
      obtain rfl : j = j' := Option.some.inj (hj.symm.trans hj')
      have hsame : plan = p.plan := Except.ok.inj (hplan.symm.trans (hraw ▸ hrunning.plan))
      subst hsame
      exact (h.sound.applied j p.plan hj hplan hunfinished).apply (hplanned.fits t List.mem_cons_self) hcurrent
    · intro j plan hj _ hcomplete
      have hunfinished := (hrunning.unfinished (by rw [hstage]; nofun)).2 j hj
      rw [Journal.finished, Bool.or_eq_false_iff] at hunfinished
      exact absurd hcomplete (of_decide_eq_false hunfinished.1)

theorem Inv.accepted {applied : Bool} {transport : Transport} (hadmits : transport.admits applied = true)
    (houtcome : t.outcome transport = .ok ()) :
    Inv start ((w.sent t applied (some transport)).at p (.accepted t (some todo))) := by
  obtain ⟨hplanned, hpending, hfound⟩ := h.requested hprocess hstage
  have hrunning := h.running p hprocess
  have hunfinished := hrunning.unfinished (by rw [hstage]; nofun)
  refine ⟨h.sent hprocess hstage applied, ?_⟩
  intro p' hp'
  obtain rfl := Option.some.inj hp'
  obtain rfl := applied_of_outcome hadmits houtcome
  have hfits := hplanned.fits t List.mem_cons_self
  have hdone := done_apply (hplanned.current t List.mem_cons_self) hfound
  exact ⟨hrunning.plan, hrunning.own, fun _ => hunfinished, h.applied_sent hprocess hstage true,
    hdone, hfits, hplanned.next, hpending.apply hfits⟩

theorem Inv.failed (applied : Bool) (transport : Option Transport) (error : RequestError) :
    Inv start ((w.sent t applied transport).at p (.refused t error)) := by
  have hrunning := h.running p hprocess
  have hunfinished := hrunning.unfinished (by rw [hstage]; nofun)
  refine ⟨h.sent hprocess hstage applied, ?_⟩
  intro p' hp'
  obtain rfl := Option.some.inj hp'
  exact ⟨hrunning.plan, hrunning.own, fun _ => hunfinished, h.applied_sent hprocess hstage applied, trivial⟩

end

theorem Inv.moved (h : Inv start w) (hprocess : w.process = some p) {stage : Stage}
    (hmoves : p.Moves w.directory stage) : Inv start (w.at p stage) := by
  have hrunning := h.running p hprocess
  have hinv := hrunning.stage
  have hnext (hopen : p.stage ≠ .closing)
      (hstage : StageInv (HasAdministrator start) p.plan w.directory p.journal stage) : Inv start (w.at p stage) :=
    h.at ⟨hrunning.plan, hrunning.own, fun _ => hrunning.unfinished hopen, hrunning.applied, hstage⟩
  cases hmoves with
  | stopped hstage => exact hnext (by rw [hstage]; nofun) trivial
  | accepted hstage =>
    rw [hstage] at hinv
    exact hnext (by rw [hstage]; nofun) hinv
  | refused hstage => exact hnext (by rw [hstage]; nofun) trivial
  | listed hstage hguard =>
    apply hnext (by rw [hstage]; nofun)
    refine ⟨⟨?_, fun _ => fits_planTasks, fun _ => current_planTasks, apart_planTasks ..⟩, pending_planTasks⟩
    intro hgiven
    exact safe_planTasks (h.sound.administrator hgiven) hguard hrunning.applied.account

/-- A mutation of `ensure_groups` is applied or not. -/
theorem Inv.ensuring (h : Inv start w) (hprocess : w.process = some p) {task : Task}
    {request : GroupRequest} {applied : Bool} {transport : Option Transport}
    (hstage : p.stage = .requested task none) (hdue : request.due w.directory = true)
    (hnext : process = none ∨ process = some p ∨
      ∃ error, process = some { p with stage := .refused task error }) :
    Inv start { w.sentGroup request task applied transport with process := process } := by
  have hrunning := h.running p hprocess
  have hunfinished := hrunning.unfinished (by rw [hstage]; nofun)
  have hinv := hrunning.stage
  rw [hstage] at hinv
  have happlied {plan : Plan} {j : Journal} (hbefore : Applied plan w.directory j) :
      Applied plan (w.sentGroup request task applied transport).directory j := by
    cases applied with
    | false => exact hbefore
    | true => exact hbefore.group hdue
  constructor
  · refine ⟨?_, ?_, h.sound.plan, ?_, ?_⟩
    · intro hgiven
      have hbefore := h.sound.administrator hgiven
      cases applied with
      | false => exact hbefore
      | true => exact hbefore.group request
    · cases applied with
      | false => exact h.sound.kept
      | true => exact h.sound.kept.group request
    · exact fun j plan hj hplan hopen => happlied (h.sound.applied j plan hj hplan hopen)
    · intro j plan hj _ hcomplete
      have hopen := hunfinished.2 j hj
      rw [Journal.finished, Bool.or_eq_false_iff] at hopen
      exact absurd hcomplete (of_decide_eq_false hopen.1)
  · intro p' hp'
    obtain rfl : process = some p' := hp'
    rcases hnext with hnone | hsame | ⟨error, herror⟩
    · cases hnone
    · cases hsame
      refine ⟨hrunning.plan, hrunning.own, fun _ => hunfinished, happlied hrunning.applied, ?_⟩
      rw [hstage]
      exact hinv
    · cases herror
      exact ⟨hrunning.plan, hrunning.own, fun _ => hunfinished, happlied hrunning.applied, trivial⟩

theorem Inv.started (h : Inv start w) {raw : RawPlan} {requests : List Request}
    (hplan : raw.plan = .ok plan)
    (hjournal : openJournal w.journal raw = some journal)
    (hnext : process = some ⟨plan, journal, .ready none⟩ ∨ process = none) :
    Inv start { w with journal := some journal, process := process, requests := requests } := by
  have hopened : journal.raw = raw ∧ journal.finished = false ∧ Applied plan w.directory journal := by
    rcases openJournal_eq_some hjournal with ⟨-, rfl⟩ | ⟨j, hj, hunfinished, rfl, -, rfl⟩
    · exact ⟨rfl, rfl, nofun, nofun⟩
    · exact ⟨rfl, rfl, (h.sound.applied j plan hj hplan hunfinished).mono fun _ => id⟩
  obtain ⟨rfl, hunfinished, happlied⟩ := hopened
  constructor
  · refine ⟨h.sound.administrator, h.sound.kept, ?_, ?_, ?_⟩
    · intro j hj
      obtain rfl := Option.some.inj hj
      exact ⟨plan, hplan⟩
    · intro j plan' hj hplan' _
      obtain rfl := Option.some.inj hj
      exact Except.ok.inj (hplan.symm.trans hplan') ▸ happlied
    · intro j plan' hj _ hcomplete
      obtain rfl := Option.some.inj hj
      rw [Journal.finished, Bool.or_eq_false_iff] at hunfinished
      exact absurd hcomplete (of_decide_eq_false hunfinished.1)
  · intro p hp
    rcases hnext with rfl | rfl
    · obtain rfl := Option.some.inj hp
      refine ⟨hplan, ⟨journal, rfl, rfl⟩, fun _ => ⟨hunfinished, ?_⟩, happlied, trivial⟩
      intro j hj
      exact Option.some.inj hj ▸ hunfinished
    · cases hp

theorem Inv.closed (h : Inv start w) (hprocess : w.process = some p) :
    Inv start { w with journal := some { p.journal with status := .failed }, process := none } := by
  have hrunning := h.running p hprocess
  obtain ⟨j, hj, hraw⟩ := hrunning.own
  have hfile := h.sound
  rw [hj] at hfile
  refine ⟨hfile.write hraw.symm (hraw ▸ hrunning.plan) ?_ nofun, fun _ hp => by cases hp⟩
  exact hrunning.applied.mono fun _ => id

theorem Inv.cancelled (h : Inv start w) (hprocess : w.process = none) (hjournal : w.journal = some j) :
    Inv start { w with journal := some { j with status := .cancelled } } := by
  constructor
  · refine ⟨h.sound.administrator, h.sound.kept, ?_, ?_, ?_⟩
    · intro j' hj'
      obtain rfl := Option.some.inj hj'
      exact h.sound.plan j hjournal
    · intro j' _ hj' _ hunfinished
      obtain rfl := Option.some.inj hj'
      cases hunfinished
    · intro j' _ hj' _ hcomplete
      obtain rfl := Option.some.inj hj'
      cases hcomplete
  · intro p hp
    cases hprocess.symm.trans hp

theorem Inv.retired (h : Inv start w) (hprocess : w.process = none) {administrator : Text}
    (hretirable : retirable w.directory administrator = true) :
    Inv start { w with directory := w.directory.delete bootstrapName } := by
  obtain ⟨⟨b, hb, hname, hadministrator⟩, hother⟩ := retirable_administers hretirable
  constructor
  · refine ⟨?_, h.sound.kept.delete, h.sound.plan, ?_, ?_⟩
    · intro _
      exact ⟨administrator, b, mem_delete.mpr ⟨hb, hname ▸ hother⟩, hname, hadministrator⟩
    · intro j plan hj hplan hunfinished
      exact (h.sound.applied j plan hj hplan hunfinished).delete
    · intro j plan hj hplan hcomplete
      exact (h.sound.met j plan hj hplan hcomplete).delete
  · intro p hp
    cases hprocess.symm.trans hp

theorem Inv.step {event : Event} (h : Inv start w) (hstep : step w event = some w') : Inv start w' := by
  cases change_of_step hstep with
  | refused => exact h
  | started _ hplan hjournal _ hnext => exact h.started hplan hjournal hnext
  | moved hprocess hmoves => exact h.moved hprocess hmoves
  | saved hprocess hsaves => exact h.saves hprocess _ hsaves
  | ensuring hprocess hstage hdue hnext => exact h.ensuring hprocess hstage hdue hnext
  | accepted hprocess hstage hadmits houtcome => exact h.accepted hprocess hstage hadmits houtcome
  | failed hprocess hstage _ _ => exact h.failed hprocess hstage _ _ _
  | closed hprocess _ _ hjournal =>
    rcases hjournal with rfl | rfl
    · exact h.ended
    · exact h.closed hprocess
  | ended => exact h.ended
  | killed hprocess hstage => exact ⟨h.sent hprocess hstage _, fun _ hp => by cases hp⟩
  | cancelled hprocess hjournal _ => exact h.cancelled hprocess hjournal
  | retired hprocess hretirable => exact h.retired hprocess hretirable

theorem inv_of_reachable (h : Reachable (fun w event w' ↦ step w event = some w') (.initial start) w) :
    Inv start w := h.invariant (inv_initial start) fun _ _ _ hinv hstep => hinv.step hstep

/-! ## Every state -/

theorem hasAdministrator_iff : HasAdministrator d ↔ currentAdministrators d ≠ [] := by
  constructor
  · rintro ⟨username, h⟩
    exact List.ne_nil_of_mem (mem_currentAdministrators.mpr h)
  · intro h
    obtain ⟨username, hmem⟩ := List.exists_mem_of_ne_nil _ h
    exact ⟨username, mem_currentAdministrators.mp hmem⟩

/-- Behind every single mutation, the accounts have an enabled administrator. -/
theorem administered_of_reachable (hstart : currentAdministrators start ≠ [])
    (h : Reachable (fun w event w' ↦ step w event = some w') (.initial start) w) :
    currentAdministrators w.directory ≠ [] :=
  hasAdministrator_iff.mp ((inv_of_reachable h).sound.administrator (hasAdministrator_iff.mpr hstart))

/-- Where the journal says that a plan is complete, the accounts are as the plan wants them, whatever
runs it took. -/
theorem met_of_complete (h : Reachable (fun w event w' ↦ step w event = some w') (.initial start) w)
    (hjournal : w.journal = some j) (hcomplete : j.status = .complete) :
    ∃ plan, j.raw.plan = .ok plan ∧ Met plan w.directory := by
  have hsound := (inv_of_reachable h).sound
  obtain ⟨plan, hplan⟩ := hsound.plan j hjournal
  exact ⟨plan, hplan, hsound.met j plan hjournal hplan hcomplete⟩

/-- No run gives or takes a capability group, and no account goes but `akadmin`. -/
theorem kept_of_reachable (h : Reachable (fun w event w' ↦ step w event = some w') (.initial start) w) :
    Kept start w.directory := (inv_of_reachable h).sound.kept

def demoDirectory : Directory :=
  ⟨[⟨"akadmin".toList, true, [adminGroup], false⟩, ⟨"alice".toList, true, [adminGroup], true⟩,
    ⟨"carol".toList, true, ["books".toList, userGroup], true⟩], by decide⟩

def demoPlan : RawPlan :=
  ⟨[⟨"alice".toList, true, [userGroup], false⟩, ⟨"bob".toList, true, [adminGroup], true⟩], true⟩

/-- The process dies with a password in flight, and the plan is applied again. -/
def demoEvents : List Event :=
  [.start demoPlan false .done, .begin .done, .ensured none, .record .done, .list true,
    .begin .done, .reply true (.replied .object), .record .done, .begin .done, .kill true,
    .start demoPlan true .done, .list true, .begin .done, .reply true (.replied .empty), .record .done,
    .begin .done, .reply true (.replied .object), .record .done,
    .begin .done, .reply true (.replied .object), .record .done, .finish .done,
    .retire "bob".toList true]

def demoFinal : Directory :=
  ⟨[⟨"bob".toList, true, [adminGroup], true⟩, ⟨"alice".toList, true, [userGroup], true⟩,
    ⟨"carol".toList, false, ["books".toList, disabledGroup], true⟩], by decide⟩

theorem demoReachable : ∃ w, Reachable (fun w event w' ↦ step w event = some w') (.initial demoDirectory) w ∧
    w.directory = demoFinal ∧ ∃ j, w.journal = some j ∧ j.raw = demoPlan ∧ j.status = .complete := by
  have hrun : (demoEvents.foldlM step (.initial demoDirectory)).map
      (fun w ↦ (w.directory, w.journal.map fun j ↦ (j.raw, j.status))) =
        some (demoFinal, some (demoPlan, .complete)) := by decide +kernel
  obtain ⟨w, hw, heq⟩ := Option.map_eq_some_iff.mp hrun
  rw [Prod.mk.injEq, Option.map_eq_some_iff] at heq
  obtain ⟨hdirectory, j, hj, hjournal⟩ := heq
  rw [Prod.mk.injEq] at hjournal
  exact ⟨w, ⟨demoEvents, run_of_foldlM hw⟩, hdirectory, j, hj, hjournal⟩

theorem administered_of_reachable_demo : currentAdministrators demoFinal ≠ [] := by
  obtain ⟨w, h, hdirectory, -⟩ := demoReachable
  rw [← hdirectory]
  exact administered_of_reachable (by decide +kernel) h

theorem met_of_complete_demo : ∃ plan, demoPlan.plan = .ok plan ∧ Met plan demoFinal := by
  obtain ⟨w, h, hdirectory, j, hj, hraw, hcomplete⟩ := demoReachable
  rw [← hdirectory, ← hraw]
  exact met_of_complete h hj hcomplete

theorem kept_of_reachable_demo : Kept demoDirectory demoFinal := by
  obtain ⟨w, h, hdirectory, -⟩ := demoReachable
  rw [← hdirectory]
  exact kept_of_reachable h

end NixNas.Accounts
