import NixNas.Operation.Lock

/-!
# What one step does to a call and to a process
-/

namespace NixNas.Operation

variable {s s' : State} {a : Action} {c c' : CallId} {call call' : Call} {p : Pid}
  {process process' : Process}
variable {phase : Phase} {q : Pid} {token : Text}

/-! ## Calls -/

/-- The phases that a call may be in after a step. -/
inductive PhaseStep (s : State) (call : Call) : Phase → Prop where
  | same : PhaseStep s call call.phase
  | idle (phase : Phase) (hgenerated : phase.generated? = none)
      (hadmitted : ∀ token, phase ≠ .admitted token) : PhaseStep s call phase
  | inherit (token : Text) (hpresented : call.presented = some token)
      (hoperation : call.isOperation = true)
      (haccepts : acceptsToken s.content token call.request.classes = true) :
      PhaseStep s call (.admitted token)
  | prepare (token : Text) (hphase : call.phase = .locked) (hfresh : s.generated token = none) :
      PhaseStep s call (.prepared token)
  | truncate (token : Text) (hphase : call.phase = .prepared token) :
      PhaseStep s call (.truncated token)
  | write (token : Text) (hphase : call.phase = .truncated token) : PhaseStep s call (.written token)
  | enter (token : Text) (hphase : call.phase = .written token) : PhaseStep s call (.body token)
  | clear (token : Text) (hphase : call.phase = .body token) : PhaseStep s call (.cleared token)

/-- A call is a new one of a live process, or goes on from where it was. -/
inductive CallStep (s : State) (c : CallId) (call' : Call) : Prop where
  | new (process : Process) (hphase : call'.phase = .opened)
      (hprocess : s.procs call'.pid = some process) (halive : process.alive = true)
      (hpresented : call'.presented = presentedToken process call'.request)
  | next (call : Call) (hcall : s.calls c = some call) (hpid : call'.pid = call.pid)
      (hrequest : call'.request = call.request) (hpresented : call'.presented = call.presented)
      (hphase : PhaseStep s call call'.phase)

theorem CallStep.refl (hcall : s.calls c = some call) : CallStep s c call :=
  .next call hcall rfl rfl rfl .same

theorem CallStep.of_setPhase (hcall : s.calls c = some call)
    (hphase : PhaseStep s call phase) (h : (s.setPhase c call phase).calls c' = some call') :
    CallStep s c' call' := by
  obtain ⟨rfl, rfl⟩ | ⟨-, hother⟩ := calls_setCall.mp h
  · exact .next call hcall rfl rfl rfl hphase
  · exact .refl hother

theorem CallStep.of_dropCall (h : (s.dropCall c).calls c' = some call') : CallStep s c' call' :=
  .refl (calls_dropCall.mp h).2

theorem callStep (hstep : Step s a s') (h : s'.calls c' = some call') : CallStep s c' call' := by
  cases hstep with
  | start => exact .refl h
  | spawn => exact .refl h
  | call c p request process hprocess halive =>
    obtain ⟨rfl, rfl⟩ | ⟨-, hother⟩ := calls_setCall.mp h
    · exact .new process rfl hprocess halive rfl
    · exact .refl hother
  | look c call hcall => exact .of_setPhase hcall (.idle .looked rfl nofun) h
  | lock c call hcall => exact .of_setPhase hcall (.idle .locked rfl nofun) h
  | probe c call hcall => exact .of_setPhase hcall (.idle .probing rfl nofun) h
  | busy c call hcall => exact .of_setPhase hcall (.idle .busy rfl nofun) h
  | refused => exact .of_dropCall h
  | inherit c call token hcall hphase hpresented hoperation haccepts =>
    exact .of_setPhase hcall (.inherit token hpresented hoperation haccepts) h
  | validated => exact .of_dropCall h
  | rejected => exact .of_dropCall h
  | generate c call token hcall hphase htoken hfresh =>
    exact .of_setPhase hcall (.prepare token hphase hfresh) h
  | truncate c call token hcall hphase => exact .of_setPhase hcall (.truncate token hphase) h
  | write c call token hcall hphase => exact .of_setPhase hcall (.write token hphase) h
  | enter c call token hcall hphase => exact .of_setPhase hcall (.enter token hphase) h
  | launch c call token q hcall =>
    obtain ⟨rfl, rfl⟩ | ⟨-, hother⟩ := calls_setCall.mp h
    · exact .next call hcall rfl rfl rfl .same
    · exact .refl hother
  | clear c call token hcall hphase => exact .of_setPhase hcall (.clear token hphase) h
  | clearFails c call token hcall hphase => exact .of_setPhase hcall (.clear token hphase) h
  | unlock c call hcall => exact .of_setPhase hcall (.idle .released rfl nofun) h
  | close => exact .of_dropCall h
  | leave => exact .of_dropCall h
  | fail c => exact .of_dropCall (c := c) h
  | kill => exact .refl (calls_kill.mp h).1

/-! ## Processes -/

/-- A process was started without a token, launched by another one, or was there with the token
it was launched with; its own token is new only for a call that enters its block. -/
inductive ProcessStep (s s' : State) (p : Pid) (process' : Process) : Prop where
  | start (hinherited : process'.inherited = none) (hown : process'.own = none)
      (hcommand : process'.command = false)
  | spawn (q : Pid) (process : Process) (hprocess : s.procs q = some process)
      (halive : process.alive = true) (hinherited : process'.inherited = process.token)
      (hown : process'.own = none) (hcommand : process'.command = false)
  | launch (c : CallId) (call call' : Call) (token : Text) (hcall : s.calls c = some call)
      (hcall' : s'.calls c = some call') (hsame : call'.phase = call.phase)
      (hphase : call.phase = .body token ∨ call.phase = .admitted token)
      (hinherited : process'.inherited = some token) (hown : process'.own = none)
  | next (process : Process) (hprocess : s.procs p = some process)
      (hinherited : process'.inherited = process.inherited)
      (hcommand : process'.command = process.command)
      (halive : process'.alive = true → process.alive = true)
      (hown : process'.own = none ∨ process'.own = process.own)
  | enter (process : Process) (c : CallId) (call call' : Call) (token : Text)
      (hprocess : s.procs p = some process) (hinherited : process'.inherited = process.inherited)
      (hcommand : process'.command = process.command) (halive : process'.alive = process.alive)
      (hcall : s.calls c = some call) (hpid : call.pid = p) (hphase : call.phase = .written token)
      (hcall' : s'.calls c = some call') (hphase' : call'.phase = .body token)
      (hown : process'.own = some token)

theorem ProcessStep.refl (hprocess : s.procs p = some process) : ProcessStep s s' p process :=
  .next process hprocess rfl rfl id (.inr rfl)

theorem procs_setProcess : (s.setProcess q process).procs p = some process' ↔
    p = q ∧ process' = process ∨ p ≠ q ∧ s.procs p = some process' := by
  show Function.update s.procs q (some process) p = some process' ↔ _
  by_cases h : p = q
  · subst h
    simp [eq_comm]
  · simp [h]

theorem procs_setOwn {own : Option Text} :
    (s.setOwn q own).procs p = some process' ↔
      p = q ∧ (∃ process, s.procs p = some process ∧ process' = { process with own }) ∨
        p ≠ q ∧ s.procs p = some process' := by
  show Function.update s.procs q _ p = some process' ↔ _
  by_cases h : p = q
  · subst h
    rw [Function.update_self, Option.map_eq_some_iff]
    simp only [true_and, ne_eq, not_true_eq_false, false_and, or_false]
    exact exists_congr fun _ => and_congr_right fun _ => eq_comm
  · simp [h]

theorem procs_kill : (s.kill q).procs p = some process' ↔
    p = q ∧ (∃ process, s.procs p = some process ∧ process' = { process with alive := false }) ∨
      p ≠ q ∧ s.procs p = some process' := by
  show Function.update s.procs q _ p = some process' ↔ _
  by_cases h : p = q
  · subst h
    rw [Function.update_self, Option.map_eq_some_iff]
    simp only [true_and, ne_eq, not_true_eq_false, false_and, or_false]
    exact exists_congr fun _ => and_congr_right fun _ => eq_comm
  · simp [h]

theorem processStep (hstep : Step s a s') (h : s'.procs p = some process') :
    ProcessStep s s' p process' := by
  cases hstep with
  | start q hfresh =>
    obtain ⟨rfl, rfl⟩ | ⟨-, hother⟩ := procs_setProcess.mp h
    · exact .start rfl rfl rfl
    · exact .refl hother
  | spawn q₀ q process hprocess halive hfresh =>
    obtain ⟨rfl, rfl⟩ | ⟨-, hother⟩ := procs_setProcess.mp h
    · exact .spawn q₀ process hprocess halive rfl rfl rfl
    · exact .refl hother
  | enter c call token hcall hphase =>
    obtain ⟨rfl, process, hprocess, rfl⟩ | ⟨-, hother⟩ := procs_setOwn.mp h
    · exact .enter process c call { call with phase := .body token } token hprocess rfl rfl rfl hcall
        rfl hphase (Function.update_self ..) rfl rfl
    · exact .refl hother
  | launch c call token q hcall hphase =>
    obtain ⟨rfl, rfl⟩ | ⟨-, hother⟩ := procs_setProcess.mp h
    · exact .launch c call { call with child := some p } token hcall (Function.update_self ..) rfl
        hphase rfl rfl
    · exact .refl hother
  | clear c call token =>
    obtain ⟨rfl, process, hprocess, rfl⟩ | ⟨-, hother⟩ := procs_setOwn.mp h
    · exact .next process hprocess rfl rfl id (.inl rfl)
    · exact .refl hother
  | clearFails c call token =>
    obtain ⟨rfl, process, hprocess, rfl⟩ | ⟨-, hother⟩ := procs_setOwn.mp h
    · exact .next process hprocess rfl rfl id (.inl rfl)
    · exact .refl hother
  | kill q =>
    obtain ⟨rfl, process, hprocess, rfl⟩ | ⟨-, hother⟩ := procs_kill.mp h
    · exact .next process hprocess rfl rfl nofun (.inr rfl)
    · exact .refl hother
  | _ => exact .refl h

theorem generated_of_step (hstep : Step s a s') {origin : Pid × List OperationClass}
    (h : s.generated token = some origin) : s'.generated token = some origin := by
  cases hstep with
  | generate c call token' hcall hphase htoken hfresh =>
    have hne : token ≠ token' := by
      rintro rfl
      rw [hfresh] at h
      cases h
    exact (Function.update_of_ne hne ..).trans h
  | _ => exact h

/-- A process stays, with the token it was launched with, and lives on unless it is killed. -/
theorem process_kept (hstep : Step s a s') (hprocess : s.procs p = some process) :
    ∃ process', s'.procs p = some process' ∧ process'.inherited = process.inherited ∧
      (a ≠ .kill p → process'.alive = process.alive) := by
  have hother {q : Pid} (hfresh : s.procs q = none) : p ≠ q := by
    rintro rfl
    rw [hfresh] at hprocess
    cases hprocess
  have hown (s₁ : State) (hsame : s₁.procs = s.procs) (q : Pid) (own : Option Text) :
      ∃ process', (s₁.setOwn q own).procs p = some process' ∧
        process'.inherited = process.inherited ∧ (a ≠ .kill p → process'.alive = process.alive) := by
    by_cases hp : p = q
    · exact ⟨{ process with own }, procs_setOwn.mpr (.inl ⟨hp, process, hsame ▸ hprocess, rfl⟩), rfl,
        fun _ => rfl⟩
    · exact ⟨process, procs_setOwn.mpr (.inr ⟨hp, hsame ▸ hprocess⟩), rfl, fun _ => rfl⟩
  cases hstep with
  | start q hfresh =>
    exact ⟨process, procs_setProcess.mpr (.inr ⟨hother hfresh, hprocess⟩), rfl, fun _ => rfl⟩
  | spawn q₀ q _ _ _ hfresh =>
    exact ⟨process, procs_setProcess.mpr (.inr ⟨hother hfresh, hprocess⟩), rfl, fun _ => rfl⟩
  | launch c call token q hcall hphase hlaunches hchild hfresh =>
    exact ⟨process, procs_setProcess.mpr (.inr ⟨hother hfresh, hprocess⟩), rfl, fun _ => rfl⟩
  | enter c call token => exact hown (s.setPhase c call (.body token)) rfl call.pid (some token)
  | clear c call token => exact hown (s.setPhase c call (.cleared token)) rfl call.pid none
  | clearFails c call token => exact hown (s.setPhase c call (.cleared token)) rfl call.pid none
  | kill q =>
    by_cases hp : p = q
    · subst hp
      exact ⟨{ process with alive := false }, procs_kill.mpr (.inl ⟨rfl, process, hprocess, rfl⟩), rfl,
        fun hne => (hne rfl).elim⟩
    · exact ⟨process, procs_kill.mpr (.inr ⟨hp, hprocess⟩), rfl, fun _ => rfl⟩
  | _ => exact ⟨process, hprocess, rfl, fun _ => rfl⟩

/-! ## The metadata in the file -/

/-- The step takes the metadata of the call out of the file, or its flock from the call. -/
def Withdraws (a : Action) (c : CallId) (call : Call) : Prop :=
  a = .kill call.pid ∨ a = .fail c ∨ a = .clear c ∨ a = .clearFails c

theorem holds_of_published (h : phase.published? = some token) :
    phase.holds = true ∧ phase.generated? = some token := by
  cases phase with
  | written => exact ⟨rfl, h⟩
  | body => exact ⟨rfl, h⟩
  | opened => cases h
  | looked => cases h
  | probing => cases h
  | busy => cases h
  | locked => cases h
  | prepared => cases h
  | truncated => cases h
  | cleared => cases h
  | admitted => cases h
  | released => cases h

theorem content_of_step (hstep : Step s a s') :
    s'.content = s.content ∨ s'.content = none ∨
      ∃ m c call', s'.content = some m ∧ s'.calls c = some call' ∧
        call'.phase.published? = some m.token ∧ call'.request.classes = m.classes := by
  cases hstep with
  | truncate => exact .inr (.inl rfl)
  | clear => exact .inr (.inl rfl)
  | write c call token => exact .inr (.inr ⟨_, c, _, rfl, Function.update_self .., rfl, rfl⟩)
  | _ => exact .inl rfl

theorem published_kept (hstep : Step s a s') (hcall : s.calls c = some call)
    (hpublished : call.phase.published? = some token) :
    Withdraws a c call ∨ ∃ call', s'.calls c = some call' ∧ call'.request = call.request ∧
      (call'.phase = call.phase ∨ call'.phase = .body token) := by
  -- a step of another call leaves this one alone
  have hother {c₁ : CallId} {call₁ : Call} {value : Option Call} (hcall₁ : s.calls c₁ = some call₁)
      (hquiet : call₁.phase.published? = none) :
      ∃ call', Function.update s.calls c₁ value c = some call' ∧ call'.request = call.request ∧
        (call'.phase = call.phase ∨ call'.phase = .body token) := by
    have hne : c ≠ c₁ := by
      rintro rfl
      cases hcall.symm.trans hcall₁
      rw [hpublished] at hquiet
      cases hquiet
    exact ⟨call, (Function.update_of_ne hne ..).trans hcall, rfl, .inl rfl⟩
  cases hstep with
  | start => exact .inr ⟨call, hcall, rfl, .inl rfl⟩
  | spawn => exact .inr ⟨call, hcall, rfl, .inl rfl⟩
  | call c₁ _ _ _ _ _ hfresh =>
    have hne : c ≠ c₁ := by
      rintro rfl
      rw [hfresh] at hcall
      cases hcall
    exact .inr ⟨call, (Function.update_of_ne hne ..).trans hcall, rfl, .inl rfl⟩
  | look c₁ call₁ hcall₁ hphase => exact .inr (hother hcall₁ (by rw [hphase]; rfl))
  | lock c₁ call₁ hcall₁ hphase => exact .inr (hother hcall₁ (by rw [hphase]; rfl))
  | probe c₁ call₁ hcall₁ hphase =>
    exact .inr (hother hcall₁ (by rw [hphase]; split <;> rfl))
  | busy c₁ call₁ hcall₁ hphase => exact .inr (hother hcall₁ (by rw [hphase]; rfl))
  | refused c₁ call₁ hcall₁ hphase =>
    exact .inr (hother hcall₁ (by rw [hphase]; split <;> rfl))
  | inherit c₁ call₁ _ hcall₁ hphase => exact .inr (hother hcall₁ (by rw [hphase]; rfl))
  | validated c₁ call₁ _ hcall₁ hphase => exact .inr (hother hcall₁ (by rw [hphase]; rfl))
  | rejected c₁ call₁ _ hcall₁ hphase => exact .inr (hother hcall₁ (by rw [hphase]; rfl))
  | generate c₁ call₁ _ hcall₁ hphase => exact .inr (hother hcall₁ (by rw [hphase]; rfl))
  | truncate c₁ call₁ _ hcall₁ hphase => exact .inr (hother hcall₁ (by rw [hphase]; rfl))
  | write c₁ call₁ _ hcall₁ hphase => exact .inr (hother hcall₁ (by rw [hphase]; rfl))
  | enter c₁ call₁ token₁ hcall₁ hphase =>
    by_cases hc : c = c₁
    · subst hc
      cases hcall.symm.trans hcall₁
      rw [hphase] at hpublished
      cases hpublished
      exact .inr ⟨_, Function.update_self .., rfl, .inr rfl⟩
    · exact .inr ⟨call, (Function.update_of_ne hc ..).trans hcall, rfl, .inl rfl⟩
  | launch c₁ call₁ token₁ q hcall₁ hphase =>
    by_cases hc : c = c₁
    · subst hc
      cases hcall.symm.trans hcall₁
      exact .inr ⟨_, Function.update_self .., rfl, .inl rfl⟩
    · exact .inr ⟨call, (Function.update_of_ne hc ..).trans hcall, rfl, .inl rfl⟩
  | clear c₁ call₁ token₁ hcall₁ hphase =>
    by_cases hc : c = c₁
    · exact .inl (.inr (.inr (.inl (congrArg Action.clear hc.symm))))
    · exact .inr ⟨call, (Function.update_of_ne hc ..).trans hcall, rfl, .inl rfl⟩
  | clearFails c₁ call₁ token₁ hcall₁ hphase =>
    by_cases hc : c = c₁
    · exact .inl (.inr (.inr (.inr (congrArg Action.clearFails hc.symm))))
    · exact .inr ⟨call, (Function.update_of_ne hc ..).trans hcall, rfl, .inl rfl⟩
  | unlock c₁ call₁ hcall₁ hphase =>
    have hquiet : call₁.phase.published? = none := by
      obtain hprobing | ⟨_, hcleared⟩ := hphase
      · rw [hprobing]
        rfl
      · rw [hcleared]
        rfl
    exact .inr (hother hcall₁ hquiet)
  | close c₁ call₁ hcall₁ hphase => exact .inr (hother hcall₁ (by rw [hphase]; rfl))
  | leave c₁ call₁ _ hcall₁ hphase => exact .inr (hother hcall₁ (by rw [hphase]; rfl))
  | fail c₁ call₁ hcall₁ =>
    by_cases hc : c = c₁
    · exact .inl (.inr (.inl (congrArg Action.fail hc.symm)))
    · exact .inr ⟨call, (Function.update_of_ne hc ..).trans hcall, rfl, .inl rfl⟩
  | kill p =>
    by_cases hp : call.pid = p
    · exact .inl (.inl (congrArg Action.kill hp.symm))
    · exact .inr ⟨call, calls_kill.mpr ⟨hcall, hp⟩, rfl, .inl rfl⟩

end NixNas.Operation
