import Mathlib.Data.List.Nodup
import NixNas.Lib.Transition
import NixNas.Setup.Journal

/-!
# Journaled setup (`run_setup_stage` of `services/nas_setup.py`)

Processes that run the stages one after the other over one journal.  A process may be killed between
any two steps; a save that fails stops it like a kill before or behind the save.
-/

namespace NixNas.Setup

variable {V : Type}
variable {name : Text} {j : Journal V}

structure Stage where
  name : Text
  /-- `manual_recovery_on_failure`. -/
  manual : Bool
  /-- There is a postcondition. -/
  verified : Bool
deriving DecidableEq, Repr

/-- Where a process stands in the first stage that it has still to do. -/
inductive Phase (V : Type) where
  | ready
  /-- The start of the step is saved. -/
  | started
  | acting
  | returned (result : Option V)
  | raised
  /-- The step is complete, and its postcondition does not hold. -/
  | violated
deriving Repr

structure Process (V : Type) where
  journal : Journal V
  todo : List Stage
  phase : Phase V

/-- The journal file, the process, and the stages whose action has returned at some time. -/
structure Machine (V : Type) where
  disk : Option (Journal V)
  process : Option (Process V)
  returned : List Text

def Machine.start (disk : Option (Journal V)) : Machine V := ⟨disk, none, []⟩

inductive Event (V : Type) where
  | opens
  | kill
  /-- The step is complete, and its postcondition holds. -/
  | skip (s : Stage)
  | refute (s : Stage)
  | saveStart (s : Stage)
  | execute (s : Stage)
  | returns (s : Stage) (result : Option V)
  | raises (s : Stage)
  | saveComplete (s : Stage)
  | saveFailed (s : Stage)
  | finish (result : Option V)
  | acknowledge
  | recover (step : Text) (result : V) (replacement : Option Text)

def Machine.save (m : Machine V) (p : Process V) : Machine V :=
  { m with disk := some p.journal, process := some p }

def Machine.saveLast (m : Machine V) (j : Journal V) : Machine V :=
  { m with disk := some j, process := none }

/-- `run_setup_stage` for the first stage of the list. -/
def stageEvent (m : Machine V) (p : Process V) (s : Stage) (rest : List Stage) :
    Event V → Option (Machine V)
  | .skip t =>
    match p.phase with
    | .ready => if t = s ∧ p.journal.stepComplete s.name then
        some { m with process := some { p with todo := rest } } else none
    | _ => none
  | .refute t =>
    match p.phase with
    -- the postcondition of an action that has returned holds
    | .ready => if t = s ∧ p.journal.stepComplete s.name ∧ s.verified ∧ s.name ∉ m.returned then
        some { m with process := some { p with phase := .violated } } else none
    | _ => none
  | .saveStart t =>
    match p.phase with
    | .ready => if t = s ∧ p.journal.stepComplete s.name = false then
        some (m.save { p with journal := p.journal.startStep s.name, phase := .started }) else none
    | _ => none
  | .execute t =>
    match p.phase with
    | .started => if t = s then some { m with process := some { p with phase := .acting } } else none
    | _ => none
  | .returns t result =>
    match p.phase with
    | .acting => if t = s then
        some { m with process := some { p with phase := .returned result }
                      returned := s.name :: m.returned } else none
    | _ => none
  | .raises t =>
    match p.phase with
    | .acting => if t = s then some { m with process := some { p with phase := .raised } } else none
    | _ => none
  | .saveComplete t =>
    match p.phase with
    | .returned result => if t = s then
        some (m.save ⟨p.journal.completeStep s.name result, rest, .ready⟩) else none
    | _ => none
  | .saveFailed t =>
    match p.phase with
    | .raised => if t = s then some (m.saveLast (p.journal.failStep s.name s.manual)) else none
    | .violated => if t = s then some (m.saveLast (p.journal.failStep s.name true)) else none
    | _ => none
  | _ => none

variable (stages : List Stage) (workflow fingerprint : Text)
variable {events : List (Event V)} {n : Machine V}

def next (m : Machine V) (e : Event V) : Option (Machine V) :=
  match m.process with
  | none =>
    match e with
    | .opens => (openJournal m.disk workflow fingerprint).toOption.map fun j ↦
        m.save ⟨j, stages, .ready⟩
    | .acknowledge => (acknowledgeManualRecovery m.disk workflow).toOption.map m.saveLast
    | .recover step result replacement =>
      (completeVerifiedRecoveryStep m.disk workflow fingerprint step result replacement).toOption.map
        m.saveLast
    | _ => none
  | some p =>
    match e with
    | .kill => some { m with process := none }
    | .finish result =>
      match p.todo, p.phase with
      | [], .ready => some (m.saveLast (p.journal.complete result))
      | _, _ => none
    | e =>
      match p.todo with
      | s :: rest => stageEvent m p s rest e
      | [] => none

def runs (m : Machine V) (events : List (Event V)) : Option (Machine V) :=
  events.foldlM (next stages workflow fingerprint) m

/-! ## What a run keeps -/

variable {stages workflow fingerprint}
variable {m m' : Machine V} {e : Event V} {p : Process V} {s : Stage} {rest : List Stage}

/-- The stage at hand, by the phase of its process. -/
def PhaseHolds (returned : List Text) (p : Process V) : Prop :=
  match p.phase, p.todo with
  | .ready, _ => True
  | .violated, s :: _ => s.name ∉ returned
  | .returned _, s :: _ => p.journal.stepComplete s.name = false ∧ s.name ∈ returned
  | _, s :: _ => p.journal.stepComplete s.name = false
  | _, [] => False

/-- The journal of a process stands in the file and is unfinished, and the stages before the one at
hand are complete. -/
structure Coherent (stages : List Stage) (m : Machine V) : Prop where
  disk : ∀ p, m.process = some p → m.disk = some p.journal
  unfinished : ∀ p, m.process = some p → p.journal.finished = false
  before : ∀ p, m.process = some p → ∃ before, stages = before ++ p.todo ∧
    ∀ t ∈ before, p.journal.stepComplete t.name = true
  phase : ∀ p, m.process = some p → PhaseHolds m.returned p

theorem Coherent.start (disk : Option (Journal V)) : Coherent stages (Machine.start disk) :=
  ⟨nofun, nofun, nofun, nofun⟩

theorem Coherent.of_none (h : m.process = none) : Coherent stages m := by
  refine ⟨?_, ?_, ?_, ?_⟩ <;> (intro p hp; rw [h] at hp; cases hp)

theorem Coherent.of_process (hprocess : m.process = some p) (hdisk : m.disk = some p.journal)
    (hunfinished : p.journal.finished = false)
    (hbefore : ∃ before, stages = before ++ p.todo ∧ ∀ t ∈ before, p.journal.stepComplete t.name = true)
    (hphase : PhaseHolds m.returned p) : Coherent stages m := by
  refine ⟨?_, ?_, ?_, ?_⟩ <;> (intro q hq; obtain rfl := Option.some.inj (hprocess.symm.trans hq))
  · exact hdisk
  · exact hunfinished
  · exact hbefore
  · exact hphase

/-- The events of a stage, with all that they require and do. -/
inductive StageStep (m : Machine V) (p : Process V) (s : Stage) (rest : List Stage) :
    Event V → Machine V → Prop where
  | skip (hphase : p.phase = .ready) (h : p.journal.stepComplete s.name = true) :
    StageStep m p s rest (.skip s) { m with process := some { p with todo := rest } }
  | refute (hphase : p.phase = .ready) (h : p.journal.stepComplete s.name = true)
    (hnew : s.name ∉ m.returned) :
    StageStep m p s rest (.refute s) { m with process := some { p with phase := .violated } }
  | saveStart (hphase : p.phase = .ready) (h : p.journal.stepComplete s.name = false) :
    StageStep m p s rest (.saveStart s)
      (m.save { p with journal := p.journal.startStep s.name, phase := .started })
  | execute (hphase : p.phase = .started) :
    StageStep m p s rest (.execute s) { m with process := some { p with phase := .acting } }
  | returns (hphase : p.phase = .acting) (result : Option V) :
    StageStep m p s rest (.returns s result)
      { m with process := some { p with phase := .returned result }, returned := s.name :: m.returned }
  | raises (hphase : p.phase = .acting) :
    StageStep m p s rest (.raises s) { m with process := some { p with phase := .raised } }
  | saveComplete (result : Option V) (hphase : p.phase = .returned result) :
    StageStep m p s rest (.saveComplete s)
      (m.save ⟨p.journal.completeStep s.name result, rest, .ready⟩)
  | saveRaised (hphase : p.phase = .raised) :
    StageStep m p s rest (.saveFailed s) (m.saveLast (p.journal.failStep s.name s.manual))
  | saveViolated (hphase : p.phase = .violated) :
    StageStep m p s rest (.saveFailed s) (m.saveLast (p.journal.failStep s.name true))

theorem stageStep_of_event (h : stageEvent m p s rest e = some m') : StageStep m p s rest e m' := by
  unfold stageEvent at h
  cases e with
  | skip t =>
    cases hphase : p.phase <;> simp only [hphase, Option.ite_none_right_eq_some, reduceCtorEq] at h
    obtain ⟨⟨rfl, hcomplete⟩, h⟩ := h
    obtain rfl := Option.some.inj h
    rw [← hphase]
    exact .skip hphase hcomplete
  | refute t =>
    cases hphase : p.phase <;> simp only [hphase, Option.ite_none_right_eq_some, reduceCtorEq] at h
    obtain ⟨⟨rfl, hcomplete, -, hnew⟩, h⟩ := h
    obtain rfl := Option.some.inj h
    exact .refute hphase hcomplete hnew
  | saveStart t =>
    cases hphase : p.phase <;> simp only [hphase, Option.ite_none_right_eq_some, reduceCtorEq] at h
    obtain ⟨⟨rfl, hcomplete⟩, h⟩ := h
    obtain rfl := Option.some.inj h
    exact .saveStart hphase hcomplete
  | execute t =>
    cases hphase : p.phase <;> simp only [hphase, Option.ite_none_right_eq_some, reduceCtorEq] at h
    obtain ⟨rfl, h⟩ := h
    obtain rfl := Option.some.inj h
    exact .execute hphase
  | returns t result =>
    cases hphase : p.phase <;> simp only [hphase, Option.ite_none_right_eq_some, reduceCtorEq] at h
    obtain ⟨rfl, h⟩ := h
    obtain rfl := Option.some.inj h
    exact .returns hphase result
  | raises t =>
    cases hphase : p.phase <;> simp only [hphase, Option.ite_none_right_eq_some, reduceCtorEq] at h
    obtain ⟨rfl, h⟩ := h
    obtain rfl := Option.some.inj h
    exact .raises hphase
  | saveComplete t =>
    cases hphase : p.phase <;> simp only [hphase, Option.ite_none_right_eq_some, reduceCtorEq] at h
    obtain ⟨rfl, h⟩ := h
    obtain rfl := Option.some.inj h
    exact .saveComplete _ hphase
  | saveFailed t =>
    cases hphase : p.phase <;> simp only [hphase, Option.ite_none_right_eq_some, reduceCtorEq] at h
    · obtain ⟨rfl, h⟩ := h
      obtain rfl := Option.some.inj h
      exact .saveRaised hphase
    · obtain ⟨rfl, h⟩ := h
      obtain rfl := Option.some.inj h
      exact .saveViolated hphase
  | _ => cases h

inductive Step (stages : List Stage) (workflow fingerprint : Text) (m : Machine V) :
    Event V → Machine V → Prop where
  | opens (hnone : m.process = none) (j : Journal V)
    (h : openJournal m.disk workflow fingerprint = .ok j) :
    Step stages workflow fingerprint m .opens (m.save ⟨j, stages, .ready⟩)
  | acknowledge (hnone : m.process = none) (j : Journal V)
    (h : acknowledgeManualRecovery m.disk workflow = .ok j) :
    Step stages workflow fingerprint m .acknowledge (m.saveLast j)
  | recover (hnone : m.process = none) (step : Text) (result : V) (replacement : Option Text)
    (j : Journal V)
    (h : completeVerifiedRecoveryStep m.disk workflow fingerprint step result replacement = .ok j) :
    Step stages workflow fingerprint m (.recover step result replacement) (m.saveLast j)
  | kill (p : Process V) (hp : m.process = some p) :
    Step stages workflow fingerprint m .kill { m with process := none }
  | finish (p : Process V) (hp : m.process = some p) (htodo : p.todo = []) (hphase : p.phase = .ready)
    (result : Option V) :
    Step stages workflow fingerprint m (.finish result) (m.saveLast (p.journal.complete result))
  | stage (p : Process V) (hp : m.process = some p) (s : Stage) (rest : List Stage)
    (htodo : p.todo = s :: rest) {e : Event V} {m' : Machine V} (h : StageStep m p s rest e m') :
    Step stages workflow fingerprint m e m'

theorem toOption_map_some {α β ε : Type} {x : Except ε α} {f : α → β} {b : β}
    (h : x.toOption.map f = some b) : ∃ a, x = .ok a ∧ f a = b := by
  cases x with
  | error err => cases h
  | ok a => exact ⟨a, rfl, Option.some.inj h⟩

theorem step_of_next (h : next stages workflow fingerprint m e = some m') :
    Step stages workflow fingerprint m e m' := by
  unfold next at h
  cases hprocess : m.process with
  | none =>
    rw [hprocess] at h
    cases e with
    | opens =>
      obtain ⟨j, hj, rfl⟩ := toOption_map_some h
      exact .opens hprocess j hj
    | acknowledge =>
      obtain ⟨j, hj, rfl⟩ := toOption_map_some h
      exact .acknowledge hprocess j hj
    | recover step result replacement =>
      obtain ⟨j, hj, rfl⟩ := toOption_map_some h
      exact .recover hprocess step result replacement j hj
    | _ => cases h
  | some p =>
    rw [hprocess] at h
    have hstage : (match p.todo with
        | s :: rest => stageEvent m p s rest e
        | [] => none) = some m' → Step stages workflow fingerprint m e m' := by
      intro hevent
      cases htodo : p.todo with
      | nil => rw [htodo] at hevent; cases hevent
      | cons s rest =>
        rw [htodo] at hevent
        exact .stage p hprocess s rest htodo (stageStep_of_event hevent)
    cases e with
    | kill =>
      obtain rfl := Option.some.inj h
      exact .kill p hprocess
    | finish result =>
      cases htodo : p.todo with
      | cons s rest => simp [htodo] at h
      | nil =>
        cases hphase : p.phase <;> simp only [htodo, hphase, reduceCtorEq] at h
        obtain rfl := Option.some.inj h
        exact .finish p hprocess htodo hphase result
    | _ => exact hstage h

theorem Coherent.step (hnodup : (stages.map Stage.name).Nodup) (h : Coherent stages m)
    (he : Step stages workflow fingerprint m e m') : Coherent stages m' := by
  cases he with
  | opens hnone j hj => exact .of_process rfl rfl (openJournal_unfinished hj) ⟨[], rfl, nofun⟩ trivial
  | acknowledge hnone j hj => exact .of_none rfl
  | recover hnone step result replacement j hj => exact .of_none rfl
  | kill p hp => exact .of_none rfl
  | finish p hp htodo hphase result => exact .of_none rfl
  | stage p hp s rest htodo hstep =>
    have hdisk := h.disk p hp
    have hunfinished := h.unfinished p hp
    obtain ⟨before, hstages, hcomplete⟩ := h.before p hp
    have hphase' := h.phase p hp
    -- a stage before this one has another name
    have hne : ∀ t ∈ before, t.name ≠ s.name := by
      intro t ht heq
      rw [hstages, htodo, List.map_append, List.nodup_append] at hnodup
      exact hnodup.2.2 t.name (List.mem_map_of_mem ht) s.name (by simp) heq
    have hsame : ∃ before, stages = before ++ p.todo ∧
        ∀ t ∈ before, p.journal.stepComplete t.name = true := ⟨before, hstages, hcomplete⟩
    have hnext : stages = before ++ [s] ++ rest := by rw [hstages, htodo, List.append_assoc]; rfl
    unfold PhaseHolds at hphase'
    rw [htodo] at hphase'
    cases hstep with
    | skip hphase hdone =>
      refine .of_process rfl hdisk hunfinished ⟨before ++ [s], hnext, fun t ht => ?_⟩ ?_
      · rcases List.mem_append.mp ht with hold | hlast
        · exact hcomplete t hold
        · rw [List.mem_singleton.mp hlast]
          exact hdone
      · unfold PhaseHolds
        rw [hphase]
        trivial
    | refute hphase hdone hnew =>
      refine .of_process rfl hdisk hunfinished hsame ?_
      unfold PhaseHolds
      rw [htodo]
      exact hnew
    | saveStart hphase hdone =>
      refine .of_process rfl rfl rfl ⟨before, hstages, fun t ht => ?_⟩ ?_
      · exact (stepComplete_startStep_of_ne (hne t ht)).trans (hcomplete t ht)
      · unfold PhaseHolds
        dsimp only
        rw [htodo]
        exact stepComplete_startStep
    | execute hphase =>
      rw [hphase] at hphase'
      refine .of_process rfl hdisk hunfinished hsame ?_
      unfold PhaseHolds
      dsimp only
      rw [htodo]
      exact hphase'
    | returns hphase result =>
      rw [hphase] at hphase'
      refine .of_process rfl hdisk hunfinished hsame ?_
      unfold PhaseHolds
      dsimp only
      rw [htodo]
      exact ⟨hphase', List.mem_cons_self⟩
    | raises hphase =>
      rw [hphase] at hphase'
      refine .of_process rfl hdisk hunfinished hsame ?_
      unfold PhaseHolds
      dsimp only
      rw [htodo]
      exact hphase'
    | saveComplete result hphase =>
      refine .of_process rfl rfl hunfinished ⟨before ++ [s], hnext, fun t ht => ?_⟩ trivial
      rcases List.mem_append.mp ht with hold | hlast
      · exact stepComplete_completeStep_of (hcomplete t hold)
      · rw [List.mem_singleton.mp hlast]
        exact stepComplete_completeStep
    | saveRaised hphase => exact .of_none rfl
    | saveViolated hphase => exact .of_none rfl

theorem runs_split (front : List (Event V)) (n : Machine V)
    (h : runs stages workflow fingerprint n (front ++ e :: events) = some m') :
    ∃ m₁ m₂, runs stages workflow fingerprint n front = some m₁ ∧
      Step stages workflow fingerprint m₁ e m₂ ∧
      runs stages workflow fingerprint m₂ events = some m' := by
  obtain ⟨m₁, m₂, hfront, he, hrest⟩ := Transition.foldlM_split front n h
  exact ⟨m₁, m₂, hfront, step_of_next he, hrest⟩

theorem coherent_runs (hnodup : (stages.map Stage.name).Nodup)
    (hn : Coherent stages n) (h : runs stages workflow fingerprint n events = some m) :
    Coherent stages m :=
  (Transition.run_of_foldlM h).invariant hn fun _ _ _ hcoherent hnext =>
    hcoherent.step hnodup (step_of_next hnext)

/-! ## Completed actions -/

/-- The action of the stage has returned, and the unfinished journal says that it is complete. -/
structure Recorded (name : Text) (m : Machine V) : Prop where
  returned : name ∈ m.returned
  disk : ∃ j, m.disk = some j ∧ j.finished = false ∧ j.stepComplete name = true

theorem finished_failStep (j : Journal V) (step : Text) (manual : Bool) :
    (j.failStep step manual).finished = false := by
  cases manual <;> rfl

theorem Recorded.step (hc : Coherent stages m) (h : Recorded name m)
    (he : Step stages workflow fingerprint m e m') (hfinish : ∀ result, e ≠ .finish result) :
    Recorded name m' := by
  obtain ⟨j, hdisk, hopen, hcomplete⟩ := h.disk
  cases he with
  | opens hnone j' hj =>
    rcases openJournal_ok hj with ⟨hold | ⟨j₀, hj₀, hfinished⟩, -⟩ | ⟨j₀, hj₀, -, -, -, -, rfl⟩
    · rw [hdisk] at hold
      cases hold
    · rw [hdisk] at hj₀
      cases hj₀
      rw [hopen] at hfinished
      cases hfinished
    · rw [hdisk] at hj₀
      cases hj₀
      exact ⟨h.returned, _, rfl, rfl, hcomplete⟩
  | acknowledge hnone j' hj =>
    obtain ⟨j₀, hj₀, -, rfl⟩ := acknowledge_ok hj
    rw [hdisk] at hj₀
    cases hj₀
    exact ⟨h.returned, _, rfl, rfl, hcomplete⟩
  | recover hnone step result replacement j' hj =>
    obtain ⟨j₀, hj₀, -, rfl⟩ := completeVerified_ok hj
    rw [hdisk] at hj₀
    cases hj₀
    exact ⟨h.returned, _, rfl, rfl, stepComplete_update_of hcomplete⟩
  | kill p hp => exact ⟨h.returned, j, hdisk, hopen, hcomplete⟩
  | finish p hp htodo hphase result => exact absurd rfl (hfinish result)
  | stage p hp s rest htodo hstep =>
    have hj : j = p.journal := Option.some.inj (hdisk.symm.trans (hc.disk p hp))
    subst hj
    have hphase' := hc.phase p hp
    unfold PhaseHolds at hphase'
    rw [htodo] at hphase'
    -- the stage at hand is another one, as it is not complete
    have hne : p.journal.stepComplete s.name = false → name ≠ s.name := by
      rintro hnot rfl
      rw [hcomplete] at hnot
      cases hnot
    cases hstep with
    | skip hphase hdone => exact ⟨h.returned, _, hdisk, hopen, hcomplete⟩
    | refute hphase hdone hnew => exact ⟨h.returned, _, hdisk, hopen, hcomplete⟩
    | saveStart hphase hnot =>
      exact ⟨h.returned, _, rfl, rfl, (stepComplete_startStep_of_ne (hne hnot)).trans hcomplete⟩
    | execute hphase => exact ⟨h.returned, _, hdisk, hopen, hcomplete⟩
    | returns hphase result =>
      exact ⟨List.mem_cons_of_mem _ h.returned, _, hdisk, hopen, hcomplete⟩
    | raises hphase => exact ⟨h.returned, _, hdisk, hopen, hcomplete⟩
    | saveComplete result hphase =>
      exact ⟨h.returned, _, rfl, hopen, stepComplete_completeStep_of hcomplete⟩
    | saveRaised hphase =>
      rw [hphase] at hphase'
      exact ⟨h.returned, _, rfl, finished_failStep _ _ _,
        (stepComplete_failStep_of_ne (hne hphase') _).trans hcomplete⟩
    | saveViolated hphase =>
      -- the postcondition of an action that has returned was not found false
      rw [hphase] at hphase'
      have hother : name ≠ s.name := by
        rintro rfl
        exact hphase' h.returned
      exact ⟨h.returned, _, rfl, finished_failStep _ _ _,
        (stepComplete_failStep_of_ne hother _).trans hcomplete⟩

theorem recorded_saveComplete (hc : Coherent stages m)
    (he : Step stages workflow fingerprint m (.saveComplete s) m') : Recorded s.name m' := by
  cases he with
  | stage p hp s' rest htodo hstep =>
    cases hstep with
    | saveComplete result hphase =>
      have hphase' := hc.phase p hp
      unfold PhaseHolds at hphase'
      rw [htodo, hphase] at hphase'
      exact ⟨hphase'.2, _, rfl, hc.unfinished p hp, stepComplete_completeStep⟩

theorem Recorded.not_execute (hc : Coherent stages m) (h : Recorded name m)
    (he : Step stages workflow fingerprint m (.execute s) m') : s.name ≠ name := by
  cases he with
  | stage p hp s' rest htodo hstep =>
    cases hstep with
    | execute hphase =>
      obtain ⟨j, hdisk, -, hcomplete⟩ := h.disk
      have hj : j = p.journal := Option.some.inj (hdisk.symm.trans (hc.disk p hp))
      have hphase' := hc.phase p hp
      unfold PhaseHolds at hphase'
      rw [htodo, hphase] at hphase'
      rintro rfl
      rw [hj, hphase'] at hcomplete
      cases hcomplete

theorem recorded_runs (hnodup : (stages.map Stage.name).Nodup)
     (hc : Coherent stages n) (hn : Recorded name n)
    (h : runs stages workflow fingerprint n events = some m)
    (hfinish : ∀ result, .finish result ∉ events) : Recorded name m := by
  induction events generalizing n with
  | nil =>
    obtain rfl : n = m := Option.some.inj h
    exact hn
  | cons e events ih =>
    obtain ⟨m₁, m₂, hm₁, he, hrest⟩ := runs_split [] n h
    obtain rfl : n = m₁ := Option.some.inj hm₁
    refine ih (hc.step hnodup he) (hn.step hc he fun result heq => ?_) hrest fun result hmem => ?_
    · exact hfinish result (heq ▸ List.mem_cons_self)
    · exact hfinish result (List.mem_cons_of_mem _ hmem)

/-! ## Order -/

/-- The journal in the file has a complete step for each of the stages. -/
def Machine.HasComplete (m : Machine V) (before : List Stage) : Prop :=
  ∃ j, m.disk = some j ∧ ∀ t ∈ before, j.stepComplete t.name = true

theorem hasComplete_of_execute (hnodup : (stages.map Stage.name).Nodup) (hc : Coherent stages m)
    (he : Step stages workflow fingerprint m (.execute s) m') {before after : List Stage}
    (hstages : stages = before ++ s :: after) : m.HasComplete before := by
  cases he with
  | stage p hp s' rest htodo hstep =>
    cases hstep with
    | execute hphase =>
      obtain ⟨done, hdone, hcomplete⟩ := hc.before p hp
      rw [htodo] at hdone
      -- the stage stands at one place of the list
      have honce : s ∉ done ++ rest := by
        have hnodup' : (done ++ s :: rest).Nodup := hdone ▸ List.Nodup.of_map _ hnodup
        exact (List.nodup_cons.mp (List.nodup_middle.mp hnodup')).1
      rw [List.mem_append, not_or] at honce
      obtain ⟨rfl, -⟩ :=
        (List.append_cons_inj_of_notMem honce.1 honce.2).mp (hdone.symm.trans hstages)
      exact ⟨p.journal, hc.disk p hp, hcomplete⟩

/-! ## Manual recovery -/

def Event.recovers : Event V → Bool
  | .acknowledge => true
  | .recover .. => true
  | _ => false

def Machine.Blocked (m : Machine V) : Prop :=
  m.process = none ∧ ∃ j, m.disk = some j ∧ j.status = .manualRecoveryRequired

theorem Machine.Blocked.recovers (h : m.Blocked) (he : Step stages workflow fingerprint m e m') :
    e.recovers = true := by
  obtain ⟨hprocess, j, hdisk, hstatus⟩ := h
  cases he with
  | opens hnone j' hj =>
    obtain ⟨hold | ⟨j₀, hj₀, hfinished⟩, -⟩ | ⟨j₀, hj₀, -, -, -, hnot, -⟩ := openJournal_ok hj
    · rw [hdisk] at hold
      cases hold
    · obtain rfl := Option.some.inj (hdisk.symm.trans hj₀)
      unfold Journal.finished at hfinished
      rw [hstatus] at hfinished
      cases hfinished
    · obtain rfl := Option.some.inj (hdisk.symm.trans hj₀)
      exact absurd hstatus hnot
  | acknowledge hnone j' hj => rfl
  | recover hnone step result replacement j' hj => rfl
  | kill p hp => cases hprocess.symm.trans hp
  | finish p hp htodo hphase result => cases hprocess.symm.trans hp
  | stage p hp s rest htodo hstep => cases hprocess.symm.trans hp

theorem blocked_saveFailed (hmanual : s.manual = true)
    (he : Step stages workflow fingerprint m (.saveFailed s) m') : m'.Blocked := by
  cases he with
  | stage p hp s' rest htodo hstep =>
    cases hstep with
    | saveRaised hphase =>
      rw [hmanual]
      exact ⟨rfl, _, rfl, rfl⟩
    | saveViolated hphase => exact ⟨rfl, _, rfl, rfl⟩

theorem Machine.Blocked.exists_recovers (h : m.Blocked) {mid rest : List (Event V)}
    (hrun : runs stages workflow fingerprint m (mid ++ .execute s :: rest) = some m') :
    ∃ e ∈ mid, e.recovers = true := by
  cases mid with
  | nil =>
    obtain ⟨m₁, m₂, hm₁, he, -⟩ := runs_split [] m hrun
    obtain rfl : m = m₁ := Option.some.inj hm₁
    cases h.recovers he
  | cons e mid =>
    obtain ⟨m₁, m₂, hm₁, he, -⟩ := runs_split [] m hrun
    obtain rfl : m = m₁ := Option.some.inj hm₁
    exact ⟨e, List.mem_cons_self, h.recovers he⟩

/-! ## Other operations -/

def Machine.Belongs (workflow : Text) (m : Machine V) : Prop :=
  ∀ j, m.disk = some j → j.workflow = workflow

def Machine.HasFingerprint (fingerprint : Text) (m : Machine V) : Prop :=
  ∀ j, m.disk = some j → j.fingerprint = fingerprint

theorem belongs_opens (he : Step stages workflow fingerprint m .opens m') :
    m'.Belongs workflow ∧ m'.HasFingerprint fingerprint := by
  cases he with
  | opens hnone j hj =>
    obtain ⟨-, rfl⟩ | ⟨j₀, -, -, hworkflow, hfingerprint, -, rfl⟩ := openJournal_ok hj
    · constructor <;> (intro j h; obtain rfl := Option.some.inj h; rfl)
    · constructor <;> (intro j h; obtain rfl := Option.some.inj h; assumption)
  | stage p hp s rest htodo hstep => cases hstep

theorem StageStep.sameOperation (h : StageStep m p s rest e m') :
    m'.disk = m.disk ∨
      ∃ j, m'.disk = some j ∧ j.workflow = p.journal.workflow ∧ j.fingerprint = p.journal.fingerprint := by
  cases h with
  | skip | refute | execute | returns | raises => exact .inl rfl
  | saveStart | saveComplete | saveRaised | saveViolated => exact .inr ⟨_, rfl, rfl, rfl⟩

theorem sameOperation (hc : Coherent stages m) (hworkflow : m.Belongs workflow)
    (he : Step stages workflow fingerprint m e m') :
    m'.Belongs workflow ∧
      (m.HasFingerprint fingerprint → (∀ step result f, e ≠ .recover step result (some f)) →
        m'.HasFingerprint fingerprint) := by
  have hof : ∀ {j₀ : Journal V}, m.disk = some j₀ →
      ∀ j, m'.disk = some j → j.workflow = j₀.workflow → j.fingerprint = j₀.fingerprint →
      m'.Belongs workflow ∧ (m.HasFingerprint fingerprint → m'.HasFingerprint fingerprint) := by
    intro j₀ hj₀ j hj hsame hsame'
    refine ⟨fun k hk => ?_, fun h k hk => ?_⟩
    · obtain rfl := Option.some.inj (hj.symm.trans hk)
      exact hsame.trans (hworkflow j₀ hj₀)
    · obtain rfl := Option.some.inj (hj.symm.trans hk)
      exact hsame'.trans (h j₀ hj₀)
  cases he with
  | opens hnone j hj =>
    have hopens : Step stages workflow fingerprint m .opens (m.save ⟨j, stages, .ready⟩) :=
      .opens hnone j hj
    exact ⟨(belongs_opens hopens).1, fun _ _ => (belongs_opens hopens).2⟩
  | acknowledge hnone j hj =>
    obtain ⟨j₀, hj₀, -, rfl⟩ := acknowledge_ok hj
    have hboth := hof hj₀ _ rfl rfl rfl
    exact ⟨hboth.1, fun h _ => hboth.2 h⟩
  | recover hnone step result replacement j hj =>
    obtain ⟨j₀, hj₀, -, rfl⟩ := completeVerified_ok hj
    refine ⟨fun k hk => ?_, fun h hnot k hk => ?_⟩
    · obtain rfl := Option.some.inj hk
      exact hworkflow j₀ hj₀
    · obtain rfl := Option.some.inj hk
      cases replacement with
      | none => exact h j₀ hj₀
      | some f => exact absurd rfl (hnot step result f)
  | kill p hp => exact ⟨hworkflow, fun h _ => h⟩
  | finish p hp htodo hphase result =>
    have hboth := hof (hc.disk p hp) _ rfl rfl rfl
    exact ⟨hboth.1, fun h _ => hboth.2 h⟩
  | stage p hp s rest htodo hstep =>
    obtain hsame | ⟨j, hj, hsame, hsame'⟩ := hstep.sameOperation
    · unfold Machine.Belongs Machine.HasFingerprint
      rw [hsame]
      exact ⟨hworkflow, fun h _ => h⟩
    · have hboth := hof (hc.disk p hp) j hj hsame hsame'
      exact ⟨hboth.1, fun h _ => hboth.2 h⟩

theorem sameOperation_runs (hnodup : (stages.map Stage.name).Nodup)
    (hc : Coherent stages n) (hworkflow : n.Belongs workflow)
    (h : runs stages workflow fingerprint n events = some m) :
    m.Belongs workflow ∧
      (n.HasFingerprint fingerprint → (∀ step result f, .recover step result (some f) ∉ events) →
        m.HasFingerprint fingerprint) := by
  induction events generalizing n with
  | nil =>
    obtain rfl : n = m := Option.some.inj h
    exact ⟨hworkflow, fun hfingerprint _ => hfingerprint⟩
  | cons e events ih =>
    obtain ⟨m₁, m₂, hm₁, he, hrest⟩ := runs_split [] n h
    obtain rfl : n = m₁ := Option.some.inj hm₁
    obtain ⟨hworkflow', hstep⟩ := sameOperation hc hworkflow he
    obtain ⟨hbelongs, hlast⟩ := ih (hc.step hnodup he) hworkflow' hrest
    refine ⟨hbelongs, fun hfingerprint hnot => ?_⟩
    have hnext : m₂.HasFingerprint fingerprint := by
      apply hstep hfingerprint
      rintro step result f rfl
      exact hnot step result f List.mem_cons_self
    exact hlast hnext fun step result f hmem => hnot step result f (List.mem_cons_of_mem _ hmem)

theorem openJournal_foreign {other : Text} (hunfinished : j.finished = false)
    (h : workflow ≠ j.workflow ∨ other ≠ j.fingerprint) :
    ∃ err, openJournal (some j) workflow other = .error err := by
  unfold openJournal
  dsimp only
  rw [if_neg (Bool.eq_false_iff.mp hunfinished)]
  by_cases hforeign : j.schemaVersion ≠ 1 ∨ j.workflow ≠ workflow
  · exact ⟨_, by rw [if_pos hforeign]⟩
  · have hother : j.fingerprint ≠ other := by
      rw [not_or, not_not, not_not] at hforeign
      exact (h.resolve_left (· hforeign.2.symm)).symm
    exact ⟨_, by rw [if_neg hforeign, if_pos hother]⟩

theorem foreign_refused (hnodup : (stages.map Stage.name).Nodup)
    (hn : Coherent stages n) (h : runs stages workflow fingerprint n events = some m)
    (hopens : .opens ∈ events) (hj : m.disk = some j) (hunfinished : j.finished = false) :
    (∀ other fingerprint', other ≠ workflow ∨ fingerprint' ≠ j.fingerprint →
        ∃ err, openJournal m.disk other fingerprint' = .error err) ∧
      ((∀ step result f, .recover step result (some f) ∉ events) → j.fingerprint = fingerprint) := by
  obtain ⟨front, rest, rfl⟩ := List.append_of_mem hopens
  obtain ⟨m₁, m₂, hfront, he, hrest⟩ := runs_split front n h
  have hc := coherent_runs hnodup hn hfront
  obtain ⟨hworkflow, hfingerprint⟩ := belongs_opens he
  obtain ⟨hbelongs, hlast⟩ := sameOperation_runs hnodup (hc.step hnodup he) hworkflow hrest
  constructor
  · intro other fingerprint' hother
    rw [hj]
    apply openJournal_foreign hunfinished
    rwa [hbelongs j hj]
  · intro hnot
    refine hlast hfingerprint (fun step result f hmem => hnot step result f ?_) j hj
    exact List.mem_append_right front (List.mem_cons_of_mem _ hmem)

/-- In every run, the action of a stage is not executed after its completion is saved, is executed
only when the stages before it are complete, and no action is executed between the saved failure of
a stage with manual recovery and a recovery; another operation is refused. -/
theorem runs_keepOrder (hnodup : (stages.map Stage.name).Nodup) (disk : Option (Journal V))
    {events : List (Event V)}
    (h : runs stages workflow fingerprint (Machine.start disk) events = some m) :
    (∀ front mid rest s s', events = front ++ .saveComplete s :: (mid ++ .execute s' :: rest) →
        (∀ result, .finish result ∉ mid) → s'.name ≠ s.name) ∧
      (∀ front rest s before after, events = front ++ .execute s :: rest →
        stages = before ++ s :: after →
        ∃ m₁, runs stages workflow fingerprint (Machine.start disk) front = some m₁ ∧
          m₁.HasComplete before) ∧
      (∀ front mid rest s s', events = front ++ .saveFailed s :: (mid ++ .execute s' :: rest) →
        s.manual = true → ∃ e ∈ mid, e.recovers = true) ∧
      (.opens ∈ events → ∀ j, m.disk = some j → j.finished = false →
        (∀ other fingerprint', other ≠ workflow ∨ fingerprint' ≠ j.fingerprint →
          ∃ err, openJournal m.disk other fingerprint' = .error err) ∧
        ((∀ step result f, .recover step result (some f) ∉ events) →
          j.fingerprint = fingerprint)) := by
  have hstart : Coherent stages (Machine.start disk) := .start disk
  refine ⟨?_, ?_, ?_, fun hopens j hj => foreign_refused hnodup hstart h hopens hj⟩
  · rintro front mid rest s s' rfl hfinish
    obtain ⟨m₁, m₂, hfront, he, hrest⟩ := runs_split front _ h
    obtain ⟨m₃, m₄, hmid, he', -⟩ := runs_split mid m₂ hrest
    have hc := coherent_runs hnodup hstart hfront
    have hc' := hc.step hnodup he
    have hrecorded := recorded_runs hnodup hc' (recorded_saveComplete hc he) hmid hfinish
    exact hrecorded.not_execute (coherent_runs hnodup hc' hmid) he'
  · rintro front rest s before after rfl hstages
    obtain ⟨m₁, m₂, hfront, he, -⟩ := runs_split front _ h
    exact ⟨m₁, hfront, hasComplete_of_execute hnodup (coherent_runs hnodup hstart hfront) he hstages⟩
  · rintro front mid rest s s' rfl hmanual
    obtain ⟨m₁, m₂, -, he, hrest⟩ := runs_split front _ h
    exact (blocked_saveFailed hmanual he).exists_recovers hrest

def demoStage : Stage := ⟨[], true, false⟩

def shareStage : Stage := ⟨"shares".toList, false, true⟩

/-- The first stage is completed by a process that is killed, and the action of the other one
raises. -/
def failedRun : List (Event Unit) :=
  [.opens, .saveStart shareStage, .execute shareStage, .returns shareStage none,
    .saveComplete shareStage, .kill, .opens, .skip shareStage, .saveStart demoStage,
    .execute demoStage, .raises demoStage]

def recoveredRun : List (Event Unit) :=
  [.acknowledge, .opens, .skip shareStage, .saveStart demoStage]

def lastEvents : List (Event Unit) :=
  [.returns demoStage none, .saveComplete demoStage, .finish none]

theorem runs_keepOrder_demo :
    ([shareStage, demoStage].map Stage.name).Nodup ∧
      (runs [shareStage, demoStage] [] [] (Machine.start none)
        (failedRun ++ .saveFailed demoStage :: (recoveredRun ++ .execute demoStage :: lastEvents))).isSome ∧
      (∃ m, runs [shareStage, demoStage] [] [] (Machine.start none)
        (failedRun ++ .saveFailed demoStage :: recoveredRun) = some m ∧
        m.HasComplete [shareStage]) ∧
      ∃ e ∈ recoveredRun, e.recovers = true := by
  have hnodup : ([shareStage, demoStage].map Stage.name).Nodup := by decide
  have hsome : (runs [shareStage, demoStage] [] [] (Machine.start none)
      (failedRun ++ .saveFailed demoStage ::
        (recoveredRun ++ .execute demoStage :: lastEvents))).isSome = true := by decide
  obtain ⟨m, hm⟩ := Option.isSome_iff_exists.mp hsome
  obtain ⟨-, hbefore, hrecovers, -⟩ := runs_keepOrder hnodup none hm
  refine ⟨hnodup, hsome, ?_, hrecovers failedRun recoveredRun lastEvents demoStage demoStage rfl rfl⟩
  refine hbefore (failedRun ++ .saveFailed demoStage :: recoveredRun) lastEvents demoStage
    [shareStage] [] ?_ rfl
  rw [List.append_assoc, List.cons_append]

/-- A process that is killed between the failure of an action and its save leaves a journal that is
opened again, and the action is executed without a recovery. -/
theorem execute_unacknowledged :
    ¬ ∀ (stages : List Stage) (events front mid rest : List (Event Unit)) (s s' : Stage),
      (stages.map Stage.name).Nodup →
      (runs stages [] [] (Machine.start none) events).isSome →
      events = front ++ .raises s :: (mid ++ .execute s' :: rest) → s.manual = true →
      ∃ e ∈ mid, e.recovers = true := by
  intro h
  obtain ⟨e, he, hrecovers⟩ := h [demoStage] _ [.opens, .saveStart demoStage, .execute demoStage]
    [.kill, .opens, .saveStart demoStage] [] demoStage demoStage (by decide) (by decide) rfl rfl
  simp only [List.mem_cons, List.not_mem_nil, or_false] at he
  rcases he with rfl | rfl | rfl <;> cases hrecovers

end NixNas.Setup
