import NixNas.Operation.Token

/-!
# Mutual exclusion of privileged mutations (`acquire_operation` and `main`)

A mutation body is the block of an operation, or a command that `main` launched.  It belongs to the
acquisition whose token it runs under.
-/

open Transition

namespace NixNas.Operation

def RunsCommand (s : State) (token : Text) : Prop :=
  ∃ p process, s.procs p = some process ∧ process.alive = true ∧ process.command = true ∧
    process.inherited = some token

def RunsBlock (s : State) (token : Text) : Prop :=
  ∃ c call, s.calls c = some call ∧ call.phase = .body token

def Executing (s : State) (token : Text) : Prop :=
  RunsBlock s token ∨
    (∃ c call, s.calls c = some call ∧ call.phase = .admitted token) ∨ RunsCommand s token

/-- All bodies that run belong to one acquisition of the flock. -/
def Exclusive (s : State) : Prop :=
  ∀ token token', Executing s token → Executing s token' → token = token'

/-- A live process was launched with the token in its environment. -/
def Inherited (s : State) (token : Text) : Prop :=
  ∃ p process, s.procs p = some process ∧ process.alive = true ∧ process.inherited = some token

/-- An operation has found the token in its environment. -/
def Presented (s : State) (token : Text) : Prop :=
  ∃ c call, s.calls c = some call ∧ call.isOperation = true ∧ call.presented = some token

/-- The step ends an acquisition whose token is still in use: by a kill, by the end of the block,
or by the end of a block whose metadata stay in the file. -/
def Abandons (s : State) : Action → Prop
  | .kill p => ∃ c call token, s.calls c = some call ∧ call.pid = p ∧ call.phase = .body token ∧
      Inherited s token
  | .clear c => ∃ call token, s.calls c = some call ∧ call.phase = .body token ∧
      ((∃ c' call', s.calls c' = some call' ∧ call'.phase = .admitted token) ∨ RunsCommand s token)
  | .clearFails c => ∃ call token, s.calls c = some call ∧ call.phase = .body token ∧
      (Inherited s token ∨ Presented s token)
  | _ => False

def AttendedStep (s : State) (a : Action) (s' : State) : Prop := Step s a s' ∧ ¬ Abandons s a

/-! ## Who knows a token -/

/-- The token is in the environment of a live process or of an open call. -/
def Carried (s : State) (token : Text) : Prop :=
  (∃ p process, s.procs p = some process ∧ process.alive = true ∧
    (process.inherited = some token ∨ process.own = some token)) ∨ Presented s token

/-- The token that a call has generated and not put into its environment. -/
def Phase.fresh? : Phase → Option Text
  | .prepared token | .truncated token | .written token => some token
  | _ => none

variable {s s' : State} {a : Action} {token : Text}
variable {process : Process} {p : Pid} {phase : Phase} {call' : Call}

/-- What the processes and the calls know of the generated tokens. -/
structure Known (s : State) : Prop where
  /-- A call belongs to a live process. -/
  caller : ∀ c call, s.calls c = some call →
    ∃ process, s.procs call.pid = some process ∧ process.alive = true
  own : ∀ p process token, s.procs p = some process → process.own = some token →
    ∃ classes, s.generated token = some (p, classes)
  inherited : ∀ p process token, s.procs p = some process → process.inherited = some token →
    ∃ origin, s.generated token = some origin
  /-- A presented token is inherited, or another call of the process generated it. -/
  presented : ∀ c call token, s.calls c = some call → call.isOperation = true →
    call.presented = some token →
    (∃ process, s.procs call.pid = some process ∧ process.inherited = some token) ∨
      ∃ classes, s.generated token = some (call.pid, classes)
  admitted : ∀ c call token, s.calls c = some call → call.phase = .admitted token →
    call.isOperation = true ∧ call.presented = some token

theorem known_initial : Known initial := ⟨nofun, nofun, nofun, nofun, nofun⟩

theorem Known.generated (h : Known s) (hcarried : Carried s token) :
    ∃ origin, s.generated token = some origin := by
  obtain ⟨p, process, hprocess, -, hinherited | hown⟩ | ⟨c, call, hcall, hoperation, hpresented⟩ :=
    hcarried
  · exact h.inherited p process token hprocess hinherited
  · obtain ⟨classes, hgenerated⟩ := h.own p process token hprocess hown
    exact ⟨_, hgenerated⟩
  · obtain ⟨process, hprocess, hinherited⟩ | ⟨classes, hgenerated⟩ :=
      h.presented c call token hcall hoperation hpresented
    · exact h.inherited _ process token hprocess hinherited
    · exact ⟨_, hgenerated⟩

theorem token_cases (h : process.token = some token) :
    process.own = some token ∨ process.inherited = some token := by
  unfold Process.token at h
  cases hown : process.own with
  | none =>
    rw [hown] at h
    exact .inr h
  | some t =>
    rw [hown] at h
    exact .inl h

theorem carried_of_token (hprocess : s.procs p = some process)
    (halive : process.alive = true) (h : process.token = some token) : Carried s token :=
  .inl ⟨p, process, hprocess, halive, (token_cases h).symm⟩

theorem token_of_presented {request : Request} {child : Option Pid} {presented : Option Text}
    (hoperation : (Call.mk p request presented phase child).isOperation = true)
    (h : presentedToken process request = some token) : process.token = some token := by
  cases request with
  | operation => exact h
  | validate => cases hoperation
  | reserve => cases hoperation
  | state => cases hoperation

theorem CallStep.operation {c : CallId} (h : CallStep s c call')
    (hoperation : call'.isOperation = true) (hpresented : call'.presented = some token) :
    (∃ process, s.procs call'.pid = some process ∧ process.alive = true ∧
      process.token = some token) ∨
    ∃ call, s.calls c = some call ∧ call'.pid = call.pid ∧ call.isOperation = true ∧
      call.presented = some token := by
  cases h with
  | new process _ hprocess halive hnew =>
    exact .inl ⟨process, hprocess, halive, token_of_presented hoperation (hnew.symm.trans hpresented)⟩
  | next call hcall hpid hrequest hold =>
    refine .inr ⟨call, hcall, hpid, ?_, hold.symm.trans hpresented⟩
    unfold Call.isOperation at hoperation ⊢
    rwa [hrequest] at hoperation

theorem Known.step (hcoherent : Coherent s) (h : Known s) (hstep : Step s a s') : Known s' := by
  refine ⟨?_, ?_, ?_, ?_, ?_⟩
  · intro c call' hcall'
    have hlive : ∃ process, s.procs call'.pid = some process ∧ process.alive = true := by
      cases callStep hstep hcall' with
      | new process _ hprocess halive => exact ⟨process, hprocess, halive⟩
      | next call hcall hpid =>
        rw [hpid]
        exact h.caller c call hcall
    obtain ⟨process, hprocess, halive⟩ := hlive
    obtain ⟨process', hprocess', -, hsame⟩ := process_kept hstep hprocess
    refine ⟨process', hprocess', (hsame ?_).trans halive⟩
    rintro rfl
    cases hstep
    exact (calls_kill.mp hcall').2 rfl
  · intro p process' token hprocess' hown
    have hgenerated : ∃ classes, s.generated token = some (p, classes) := by
      cases processStep hstep hprocess' with
      | start _ hnone => rw [hnone] at hown; cases hown
      | spawn _ _ _ _ _ hnone => rw [hnone] at hown; cases hown
      | launch _ _ _ _ _ _ _ _ _ hnone => rw [hnone] at hown; cases hown
      | next process hprocess _ _ _ hold =>
        obtain hnone | hsame := hold
        · rw [hnone] at hown
          cases hown
        · exact h.own p process token hprocess (hsame.symm.trans hown)
      | enter process c call _ token' _ _ _ _ hcall hpid hphase _ _ hnew =>
        cases hown.symm.trans hnew
        have horigin := hcoherent.origin c call token hcall (by rw [hphase]; rfl)
        exact ⟨_, hpid ▸ horigin⟩
    obtain ⟨classes, hgenerated⟩ := hgenerated
    exact ⟨classes, generated_of_step hstep hgenerated⟩
  · intro p process' token hprocess' hinherited
    have hgenerated : ∃ origin, s.generated token = some origin := by
      cases processStep hstep hprocess' with
      | start hnone => rw [hnone] at hinherited; cases hinherited
      | spawn q process hprocess halive hnew =>
        exact h.generated (carried_of_token hprocess halive (hnew.symm.trans hinherited))
      | launch c call _ token' hcall _ _ hphase hnew =>
        cases hinherited.symm.trans hnew
        obtain hbody | hadmitted := hphase
        · exact ⟨_, hcoherent.origin c call token hcall (by rw [hbody]; rfl)⟩
        · exact h.generated (.inr ⟨c, call, hcall, h.admitted c call token hcall hadmitted⟩)
      | next process hprocess hsame =>
        exact h.inherited p process token hprocess (hsame.symm.trans hinherited)
      | enter process _ _ _ _ hprocess hsame =>
        exact h.inherited p process token hprocess (hsame.symm.trans hinherited)
    obtain ⟨origin, hgenerated⟩ := hgenerated
    exact ⟨origin, generated_of_step hstep hgenerated⟩
  · intro c call' token hcall' hoperation hpresented
    have hold : (∃ process, s.procs call'.pid = some process ∧ process.inherited = some token) ∨
        ∃ classes, s.generated token = some (call'.pid, classes) := by
      obtain ⟨process, hprocess, -, htoken⟩ | ⟨call, hcall, hpid, hoperation₀, hpresented₀⟩ :=
        (callStep hstep hcall').operation hoperation hpresented
      · obtain hown | hinherited := token_cases htoken
        · exact .inr (h.own _ process token hprocess hown)
        · exact .inl ⟨process, hprocess, hinherited⟩
      · rw [hpid]
        exact h.presented c call token hcall hoperation₀ hpresented₀
    obtain ⟨process, hprocess, hinherited⟩ | ⟨classes, hgenerated⟩ := hold
    · obtain ⟨process', hprocess', hsame, -⟩ := process_kept hstep hprocess
      exact .inl ⟨process', hprocess', hsame.trans hinherited⟩
    · exact .inr ⟨classes, generated_of_step hstep hgenerated⟩
  · intro c call' token hcall' hphase'
    cases callStep hstep hcall' with
    | new _ hopened => rw [hphase'] at hopened; cases hopened
    | next call hcall _ hrequest hpresented hphase =>
      have hold : call.isOperation = true ∧ call.presented = some token := by
        generalize call'.phase = phase at hphase hphase'
        cases hphase with
        | same => exact h.admitted c call token hcall hphase'
        | idle _ _ hadmitted => exact (hadmitted token hphase').elim
        | inherit _ hpresented hoperation =>
          cases hphase'
          exact ⟨hoperation, hpresented⟩
        | prepare => cases hphase'
        | truncate => cases hphase'
        | write => cases hphase'
        | enter => cases hphase'
        | clear => cases hphase'
      unfold Call.isOperation at hold ⊢
      rw [hrequest, hpresented]
      exact hold

theorem carried_of_step (hknown : Known s) (hstep : Step s a s') (h : Carried s' token) :
    Carried s token ∨ RunsBlock s' token := by
  obtain ⟨p, process', hprocess', halive', hwhere⟩ | ⟨c, call', hcall', hoperation, hpresented⟩ := h
  · cases processStep hstep hprocess' with
    | start hinherited hown =>
      rw [hinherited, hown] at hwhere
      cases hwhere <;> contradiction
    | spawn q process hprocess halive hinherited hown =>
      rw [hinherited, hown] at hwhere
      exact .inl (carried_of_token hprocess halive (hwhere.resolve_right nofun))
    | launch c call call' token' hcall hcall' hsame hphase hinherited hown =>
      rw [hinherited, hown] at hwhere
      cases hwhere.resolve_right nofun
      obtain hbody | hadmitted := hphase
      · exact .inr ⟨c, call', hcall', hsame.trans hbody⟩
      · exact .inl (.inr ⟨c, call, hcall, hknown.admitted c call token hcall hadmitted⟩)
    | next process hprocess hinherited _ halive hown =>
      refine .inl (.inl ⟨p, process, hprocess, halive halive', ?_⟩)
      rw [hinherited] at hwhere
      obtain hnone | hsame := hown
      · rw [hnone] at hwhere
        exact .inl (hwhere.resolve_right nofun)
      · rwa [hsame] at hwhere
    | enter process c call call' token' hprocess hinherited _ halive _ _ _ hcall' hphase' hown =>
      rw [hinherited, hown] at hwhere
      obtain hold | hnew := hwhere
      · exact .inl (.inl ⟨p, process, hprocess, halive ▸ halive', .inl hold⟩)
      · cases hnew
        exact .inr ⟨c, call', hcall', hphase'⟩
  · obtain ⟨process, hprocess, halive, htoken⟩ | ⟨call, hcall, -, hoperation, hpresented⟩ :=
      (callStep hstep hcall').operation hoperation hpresented
    · exact .inl (carried_of_token hprocess halive htoken)
    · exact .inl (.inr ⟨c, call, hcall, hoperation, hpresented⟩)

/-- Nobody knows a token whose call has not entered its block. -/
def FreshUnknown (s : State) : Prop :=
  ∀ c call token, s.calls c = some call → call.phase.fresh? = some token → ¬ Carried s token

theorem holds_of_fresh (h : phase.fresh? = some token) :
    phase.holds = true ∧ ∀ token', phase ≠ .body token' := by
  cases phase with
  | prepared => exact ⟨rfl, nofun⟩
  | truncated => exact ⟨rfl, nofun⟩
  | written => exact ⟨rfl, nofun⟩
  | opened => cases h
  | looked => cases h
  | probing => cases h
  | busy => cases h
  | locked => cases h
  | body => cases h
  | cleared => cases h
  | admitted => cases h
  | released => cases h

theorem fresh_of_step (hstep : Step s a s') {c : CallId}
    (hcall' : s'.calls c = some call') (hfresh : call'.phase.fresh? = some token) :
    (∃ call, s.calls c = some call ∧ call.phase.fresh? = some token) ∨ s.generated token = none := by
  cases callStep hstep hcall' with
  | new _ hopened =>
    rw [hopened] at hfresh
    cases hfresh
  | next call hcall _ _ _ hphase =>
    generalize call'.phase = phase at hphase hfresh
    cases hphase with
    | same => exact .inl ⟨call, hcall, hfresh⟩
    | idle phase hgenerated =>
      cases phase with
      | prepared => cases hgenerated
      | truncated => cases hgenerated
      | written => cases hgenerated
      | _ => cases hfresh
    | inherit => cases hfresh
    | prepare _ _ hnew =>
      cases hfresh
      exact .inr hnew
    | truncate _ hold =>
      cases hfresh
      exact .inl ⟨call, hcall, by rw [hold]; rfl⟩
    | write _ hold =>
      cases hfresh
      exact .inl ⟨call, hcall, by rw [hold]; rfl⟩
    | enter => cases hfresh
    | clear => cases hfresh

theorem Coherent.unique (h : Coherent s) {c c' : CallId} {call : Call}
    (hcall : s.calls c = some call) (hcall' : s.calls c' = some call')
    (hholds : call.phase.holds = true) (hholds' : call'.phase.holds = true) :
    c = c' ∧ call = call' := by
  have hlock := h.holder c call hcall hholds
  rw [h.holder c' call' hcall' hholds'] at hlock
  cases hlock
  exact ⟨rfl, Option.some.inj (hcall.symm.trans hcall')⟩

theorem FreshUnknown.step (hcoherent : Coherent s) (hknown : Known s) (h : FreshUnknown s)
    (hstep : Step s a s') : FreshUnknown s' := by
  intro c call' token hcall' hfresh hcarried
  obtain hold | ⟨c₁, call₁, hcall₁, hbody⟩ := carried_of_step hknown hstep hcarried
  · obtain ⟨call, hcall, hfresh₀⟩ | hnew := fresh_of_step hstep hcall' hfresh
    · exact h c call token hcall hfresh₀ hold
    · obtain ⟨origin, hgenerated⟩ := hknown.generated hold
      rw [hnew] at hgenerated
      cases hgenerated
  · -- the flock has one holder, which is in its block or is not
    obtain ⟨hholds, hother⟩ := holds_of_fresh hfresh
    obtain ⟨-, rfl⟩ := (hcoherent.step hstep).unique hcall₁ hcall' (by rw [hbody]; rfl) hholds
    exact hother token hbody

/-! ## Attended acquisitions -/

/-- Metadata in the file are those of a call that holds the flock, or nobody knows their token;
every body that runs belongs to a block that holds the flock. -/
structure Attended (s : State) : Prop where
  content : ∀ m, s.content = some m → Carried s m.token →
    ∃ c call, s.calls c = some call ∧ call.phase.published? = some m.token
  executing : ∀ token, Executing s token → RunsBlock s token

theorem attended_initial : Attended initial :=
  ⟨nofun, by rintro _ (⟨_, _, h, -⟩ | ⟨_, _, h, -⟩ | ⟨_, _, h, -⟩) <;> cases h⟩

theorem Known.executing (h : Known s) (hexecuting : Executing s token) :
    RunsBlock s token ∨ Carried s token := by
  obtain hbody | ⟨c, call, hcall, hadmitted⟩ | ⟨p, process, hprocess, halive, -, hinherited⟩ :=
    hexecuting
  · exact .inl hbody
  · exact .inr (.inr ⟨c, call, hcall, h.admitted c call token hcall hadmitted⟩)
  · exact .inr (.inl ⟨p, process, hprocess, halive, .inl hinherited⟩)

variable {c : CallId} {call : Call}

theorem inherited_of_carried_kill (hcoherent : Coherent s) (hknown : Known s)
    (hcall : s.calls c = some call) (hgenerated : call.phase.generated? = some token)
    (h : Carried (s.kill call.pid) token) : Inherited s token := by
  have horigin := hcoherent.origin c call token hcall hgenerated
  obtain ⟨p, process', hprocess', halive, hwhere⟩ | ⟨c', call', hcall', hoperation, hpresented⟩ := h
  · obtain ⟨-, process, -, rfl⟩ | ⟨hne, hprocess⟩ := procs_kill.mp hprocess'
    · cases halive
    · obtain hinherited | hown := hwhere
      · exact ⟨p, process', hprocess, halive, hinherited⟩
      · obtain ⟨classes, hother⟩ := hknown.own p process' token hprocess hown
        cases horigin.symm.trans hother
        exact (hne rfl).elim
  · obtain ⟨hcall₀, hne⟩ := calls_kill.mp hcall'
    obtain ⟨process, hprocess, hinherited⟩ | ⟨classes, hother⟩ :=
      hknown.presented c' call' token hcall₀ hoperation hpresented
    · obtain ⟨process', hprocess', halive⟩ := hknown.caller c' call' hcall₀
      cases hprocess.symm.trans hprocess'
      exact ⟨_, process, hprocess, halive, hinherited⟩
    · have hsame := congrArg Prod.fst (Option.some.inj (horigin.symm.trans hother))
      exact (hne hsame.symm).elim

theorem carried_of_setOwn_none (hcoherent : Coherent s) (hknown : Known s)
    (hcall : s.calls c = some call) (hgenerated : call.phase.generated? = some token)
    (h : Carried ((s.setPhase c call phase).setOwn call.pid none) token) :
    Inherited s token ∨ Presented s token := by
  have horigin := hcoherent.origin c call token hcall hgenerated
  obtain ⟨p, process', hprocess', halive, hwhere⟩ | ⟨c', call', hcall', hoperation, hpresented⟩ := h
  · obtain ⟨-, process, hprocess, rfl⟩ | ⟨hne, hprocess⟩ := procs_setOwn.mp hprocess'
    · exact .inl ⟨p, process, hprocess, halive, hwhere.resolve_right nofun⟩
    · obtain hinherited | hown := hwhere
      · exact .inl ⟨p, process', hprocess, halive, hinherited⟩
      · obtain ⟨classes, hother⟩ := hknown.own p process' token hprocess hown
        cases horigin.symm.trans hother
        exact (hne rfl).elim
  · obtain ⟨rfl, rfl⟩ | ⟨-, hcall₀⟩ := calls_setCall.mp hcall'
    · exact .inr ⟨c', call, hcall, hoperation, hpresented⟩
    · exact .inr ⟨c', call', hcall₀, hoperation, hpresented⟩

theorem body_of_published (hfresh : FreshUnknown s) (hcall : s.calls c = some call)
    (hpublished : call.phase.published? = some token) (hcarried : Carried s token) :
    call.phase = .body token := by
  cases hphase : call.phase with
  | body =>
    rw [hphase] at hpublished
    cases hpublished
    rfl
  | written =>
    rw [hphase] at hpublished
    cases hpublished
    exact (hfresh c call token hcall (by rw [hphase]; rfl) hcarried).elim
  | _ =>
    rw [hphase] at hpublished
    cases hpublished

theorem body_kept (hcoherent : Coherent s) (hknown : Known s) (hstep : AttendedStep s a s')
    (hcall : s.calls c = some call) (hbody : call.phase = .body token)
    (huse : Executing s' token ∨ s'.content ≠ none ∧ Carried s' token) : RunsBlock s' token := by
  obtain ⟨hstep, hattended⟩ := hstep
  have hpublished : call.phase.published? = some token := by
    rw [hbody]
    rfl
  have hgenerated := (holds_of_published hpublished).2
  have huse' : RunsBlock s' token ∨ Carried s' token := by
    obtain hexecuting | ⟨-, hcarried⟩ := huse
    · exact (hknown.step hcoherent hstep).executing hexecuting
    · exact .inr hcarried
  obtain (rfl | rfl | rfl | rfl) | ⟨call', hcall', -, hphase⟩ := published_kept hstep hcall hpublished
  · cases hstep
    apply huse'.resolve_right
    intro hcarried
    exact hattended ⟨c, call, token, hcall, rfl, hbody,
      inherited_of_carried_kill hcoherent hknown hcall hgenerated hcarried⟩
  · -- only a call in front of its block can fail
    cases hstep with
    | fail _ call₀ hcall₀ hphase =>
      cases hcall.symm.trans hcall₀
      rw [hbody] at hphase
      simp at hphase
  · cases hstep with
    | clear _ call₀ token₀ hcall₀ =>
      cases hcall.symm.trans hcall₀
      obtain hexecuting | ⟨hcontent, -⟩ := huse
      · obtain hblock | ⟨c', call', hcall', hadmitted⟩ |
          ⟨p, process', hprocess', halive, hcommand, hinherited⟩ := hexecuting
        · exact hblock
        · obtain ⟨rfl, rfl⟩ | ⟨-, hother⟩ := calls_setCall.mp hcall'
          · cases hadmitted
          · exact (hattended ⟨call, token, hcall, hbody, .inl ⟨c', call', hother, hadmitted⟩⟩).elim
        · apply (hattended ⟨call, token, hcall, hbody, .inr ?_⟩).elim
          obtain ⟨-, process, hprocess, rfl⟩ | ⟨-, hprocess⟩ := procs_setOwn.mp hprocess'
          · exact ⟨p, process, hprocess, halive, hcommand, hinherited⟩
          · exact ⟨p, process', hprocess, halive, hcommand, hinherited⟩
      · exact (hcontent rfl).elim
  · cases hstep with
    | clearFails _ call₀ token₀ hcall₀ =>
      cases hcall.symm.trans hcall₀
      apply huse'.resolve_right
      intro hcarried
      exact hattended ⟨call, token, hcall, hbody,
        carried_of_setOwn_none hcoherent hknown hcall hgenerated hcarried⟩
  · refine ⟨c, call', hcall', ?_⟩
    obtain hsame | hentered := hphase
    · rw [hsame, hbody]
    · exact hentered

theorem runsBlock_of_executing (hfresh : FreshUnknown s) (h : Attended s)
    (hstep : Step s a s') (hexecuting : Executing s' token) :
    RunsBlock s' token ∨ RunsBlock s token := by
  obtain hblock | ⟨c, call', hcall', hadmitted⟩ | ⟨p, process', hprocess', halive', hcommand',
    hinherited'⟩ := hexecuting
  · exact .inl hblock
  · right
    cases callStep hstep hcall' with
    | new _ hopened => rw [hadmitted] at hopened; cases hopened
    | next call hcall _ hrequest _ hphase =>
      generalize call'.phase = phase at hphase hadmitted
      cases hphase with
      | same => exact h.executing token (.inr (.inl ⟨c, call, hcall, hadmitted⟩))
      | idle _ _ hother => exact (hother token hadmitted).elim
      | inherit _ hpresented hoperation haccepts =>
        -- the metadata that were accepted are those of a block
        cases hadmitted
        obtain ⟨m, hm, rfl, -⟩ := content_of_acceptsToken haccepts
        have hcarried : Carried s m.token := .inr ⟨c, call, hcall, hoperation, hpresented⟩
        obtain ⟨c₀, call₀, hcall₀, hpublished⟩ := h.content m hm hcarried
        exact ⟨c₀, call₀, hcall₀, body_of_published hfresh hcall₀ hpublished hcarried⟩
      | prepare => cases hadmitted
      | truncate => cases hadmitted
      | write => cases hadmitted
      | enter => cases hadmitted
      | clear => cases hadmitted
  · cases processStep hstep hprocess' with
    | start _ _ hcommand => rw [hcommand] at hcommand'; cases hcommand'
    | spawn _ _ _ _ _ _ hcommand => rw [hcommand] at hcommand'; cases hcommand'
    | launch c call call' token' hcall hcall' hsame hphase hinherited =>
      cases hinherited'.symm.trans hinherited
      obtain hbody | hadmitted := hphase
      · exact .inl ⟨c, call', hcall', hsame.trans hbody⟩
      · exact .inr (h.executing token (.inr (.inl ⟨c, call, hcall, hadmitted⟩)))
    | next process hprocess hinherited hcommand halive =>
      exact .inr (h.executing token (.inr (.inr ⟨p, process, hprocess, halive halive',
        hcommand ▸ hcommand', hinherited ▸ hinherited'⟩)))
    | enter process _ _ _ _ hprocess hinherited hcommand halive =>
      exact .inr (h.executing token (.inr (.inr ⟨p, process, hprocess, halive ▸ halive',
        hcommand ▸ hcommand', hinherited ▸ hinherited'⟩)))

theorem Attended.step (hcoherent : Coherent s) (hknown : Known s) (hfresh : FreshUnknown s)
    (h : Attended s) (hstep : AttendedStep s a s') : Attended s' := by
  refine ⟨?_, ?_⟩
  · intro m hm hcarried
    obtain hsame | hnone | ⟨m', c, call', hm', hcall', hpublished', -⟩ := content_of_step hstep.1
    · obtain hold | ⟨c, call', hcall', hbody⟩ := carried_of_step hknown hstep.1 hcarried
      · rw [hsame] at hm
        obtain ⟨c, call, hcall, hpublished⟩ := h.content m hm hold
        have hbody := body_of_published hfresh hcall hpublished hold
        have hcontent : s'.content ≠ none := by
          rw [hsame, hm]
          exact nofun
        obtain ⟨c', call', hcall', hbody'⟩ :=
          body_kept hcoherent hknown hstep hcall hbody (.inr ⟨hcontent, hcarried⟩)
        exact ⟨c', call', hcall', by rw [hbody']; rfl⟩
      · exact ⟨c, call', hcall', by rw [hbody]; rfl⟩
    · rw [hnone] at hm
      cases hm
    · cases hm.symm.trans hm'
      exact ⟨c, call', hcall', hpublished'⟩
  · intro token hexecuting
    obtain hblock | ⟨c, call, hcall, hbody⟩ :=
      runsBlock_of_executing hfresh h hstep.1 hexecuting
    · exact hblock
    · exact body_kept hcoherent hknown hstep hcall hbody (.inl hexecuting)

/-- What holds in every state of a run that abandons no acquisition. -/
structure Orderly (s : State) : Prop where
  coherent : Coherent s
  known : Known s
  fresh : FreshUnknown s
  attended : Attended s

theorem orderly_initial : Orderly initial :=
  ⟨coherent_initial, known_initial, nofun, attended_initial⟩

theorem Orderly.step (h : Orderly s) (hstep : AttendedStep s a s') : Orderly s' :=
  ⟨h.coherent.step hstep.1, h.known.step h.coherent hstep.1,
    h.fresh.step h.coherent h.known hstep.1, h.attended.step h.coherent h.known h.fresh hstep⟩

theorem Orderly.exclusive (h : Orderly s) : Exclusive s := by
  intro token token' hexecuting hexecuting'
  obtain ⟨c, call, hcall, hbody⟩ := h.attended.executing token hexecuting
  obtain ⟨c', call', hcall', hbody'⟩ := h.attended.executing token' hexecuting'
  -- both blocks hold the flock
  obtain ⟨-, rfl⟩ := h.coherent.unique hcall hcall' (by rw [hbody]; rfl) (by rw [hbody']; rfl)
  rw [hbody] at hbody'
  cases hbody'
  rfl

/-- In a run that abandons no acquisition all bodies belong to one. -/
theorem exclusive_of_attended (h : Reachable AttendedStep initial s) : Exclusive s :=
  (h.invariant orderly_initial fun _ _ _ hs => hs.step).exclusive

/-! ### A command that outlives `nas-operation-run` -/

/-- `main`, as call 0 of process 0. -/
def mainCall (phase : Phase) (child : Option Pid) : Call :=
  ⟨0, .operation "restore".toList [.state] false true, none, phase, child⟩

def directCall (phase : Phase) : Call :=
  ⟨1, .operation "update".toList [.update] false false, none, phase, none⟩

def nestedCall (phase : Phase) : Call :=
  ⟨2, .operation "nested".toList [.state] false false, some sampleToken, phase, none⟩

def otherToken : Text := List.replicate 32 'b'

/-- The command of `main` runs, and a nested operation was admitted under the same token. -/
theorem exists_nested : ∃ s, Reachable AttendedStep initial s ∧
    s.calls 2 = some (nestedCall (.admitted sampleToken)) ∧ RunsCommand s sampleToken := by
  have h₀ : Reachable AttendedStep initial initial := .refl _
  have h₁ := h₀.tail ⟨.start 0 rfl, id⟩
  have h₂ := h₁.tail ⟨.call 0 0 (mainCall .opened none).request idleProcess rfl rfl rfl rfl rfl, id⟩
  have h₃ := h₂.tail ⟨.lock 0 (mainCall .opened none) rfl rfl rfl rfl, id⟩
  have h₄ := h₃.tail ⟨.generate 0 (mainCall .locked none) sampleToken rfl rfl (by decide) rfl, id⟩
  have h₅ := h₄.tail ⟨.truncate 0 (mainCall (.prepared sampleToken) none) sampleToken rfl rfl, id⟩
  have h₆ := h₅.tail ⟨.write 0 (mainCall (.truncated sampleToken) none) sampleToken rfl rfl, id⟩
  have h₇ := h₆.tail ⟨.enter 0 (mainCall (.written sampleToken) none) sampleToken rfl rfl, id⟩
  have h₈ := h₇.tail ⟨.launch 0 (mainCall (.body sampleToken) none) sampleToken 2 rfl (.inl rfl) rfl
    rfl rfl, id⟩
  have h₉ := h₈.tail ⟨.call 2 2 (nestedCall .opened).request ⟨true, some sampleToken, none, true⟩
    rfl rfl rfl rfl (by decide), id⟩
  have h₁₀ := h₉.tail ⟨.busy 2 (nestedCall .opened) rfl rfl rfl rfl rfl, id⟩
  have h₁₁ := h₁₀.tail ⟨.inherit 2 (nestedCall .busy) sampleToken rfl rfl rfl rfl (by decide),
    id⟩
  exact ⟨_, h₁₁, rfl, 2, ⟨true, some sampleToken, none, true⟩, rfl, rfl, rfl, rfl⟩

theorem exclusive_of_attended_nested : ∃ s, Reachable AttendedStep initial s ∧ Exclusive s ∧
    RunsCommand s sampleToken := by
  obtain ⟨s, hreach, -, hcommand⟩ := exists_nested
  exact ⟨s, hreach, exclusive_of_attended hreach, hcommand⟩

/-- `main` is killed while its command runs; the next operation takes the free flock. -/
theorem not_exclusive_killed : ¬ ∀ s, Reachable Step initial s → Exclusive s := by
  intro h
  have h₀ : Reachable Step initial initial := .refl _
  have h₁ := h₀.tail (.start 0 rfl)
  have h₂ := h₁.tail (.call 0 0 (mainCall .opened none).request idleProcess rfl rfl rfl rfl rfl)
  have h₃ := h₂.tail (.lock 0 (mainCall .opened none) rfl rfl rfl rfl)
  have h₄ := h₃.tail (.generate 0 (mainCall .locked none) sampleToken rfl rfl (by decide) rfl)
  have h₅ := h₄.tail (.truncate 0 (mainCall (.prepared sampleToken) none) sampleToken rfl rfl)
  have h₆ := h₅.tail (.write 0 (mainCall (.truncated sampleToken) none) sampleToken rfl rfl)
  have h₇ := h₆.tail (.enter 0 (mainCall (.written sampleToken) none) sampleToken rfl rfl)
  have h₈ := h₇.tail (.launch 0 (mainCall (.body sampleToken) none) sampleToken 2 rfl (.inl rfl) rfl
    rfl rfl)
  have h₉ := h₈.tail (.kill 0 ⟨true, none, some sampleToken, false⟩ rfl rfl)
  have h₁₀ := h₉.tail (.start 1 rfl)
  have h₁₁ := h₁₀.tail (.call 1 1 (directCall .opened).request idleProcess rfl rfl rfl rfl rfl)
  have h₁₂ := h₁₁.tail (.lock 1 (directCall .opened) rfl rfl rfl rfl)
  have h₁₃ := h₁₂.tail (.generate 1 (directCall .locked) otherToken rfl rfl (by decide) rfl)
  have h₁₄ := h₁₃.tail (.truncate 1 (directCall (.prepared otherToken)) otherToken rfl rfl)
  have h₁₅ := h₁₄.tail (.write 1 (directCall (.truncated otherToken)) otherToken rfl rfl)
  have h₁₆ := h₁₅.tail (.enter 1 (directCall (.written otherToken)) otherToken rfl rfl)
  have hsame : sampleToken = otherToken :=
    h _ h₁₆ sampleToken otherToken
      (.inr (.inr ⟨2, ⟨true, some sampleToken, none, true⟩, rfl, rfl, rfl, rfl⟩))
      (.inl ⟨1, directCall (.body otherToken), rfl, rfl⟩)
  exact absurd hsame (by decide)

end NixNas.Operation
