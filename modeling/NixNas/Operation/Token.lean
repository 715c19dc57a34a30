import NixNas.Operation.Effects

/-!
# Coordination tokens (`validate_coordination_token`)
-/

open Transition

namespace NixNas.Operation

/-- The process that generated the token has the flock, and its classes cover the requested ones. -/
def HeldBy (s : State) (token : Text) (requested : List OperationClass) : Prop :=
  ∃ c call, s.lock = some c ∧ s.calls c = some call ∧
    s.generated token = some (call.pid, call.request.classes) ∧
    classesCover call.request.classes requested = true

/-- Every validation that reads the metadata now and does not raise is right. -/
def TokensSound (s : State) : Prop :=
  ∀ c call token, s.calls c = some call → call.phase = .busy → call.presented = some token →
    acceptsToken s.content token call.request.classes = true → HeldBy s token call.request.classes

/-- The step leaves the metadata of an operation in the file and gives its flock up. -/
def LeavesMetadata (s : State) : Action → Prop
  | .kill p => ∃ c call token, s.calls c = some call ∧ call.pid = p ∧
      call.phase.published? = some token
  | .fail c => ∃ call token, s.calls c = some call ∧ call.phase.published? = some token
  | .clearFails _ => True
  | _ => False

def CleaningStep (s : State) (a : Action) (s' : State) : Prop := Step s a s' ∧ ¬ LeavesMetadata s a

def Published (s : State) : Prop :=
  ∀ m, s.content = some m → ∃ c call, s.calls c = some call ∧
    call.phase.published? = some m.token ∧ call.request.classes = m.classes

theorem published_initial : Published initial := nofun

variable {s s' : State}

theorem Published.step (h : Published s) {a : Action} (hstep : CleaningStep s a s') :
    Published s' := by
  obtain ⟨hstep, hclean⟩ := hstep
  intro m hm
  obtain hsame | hnone | ⟨m', c, call', hm', hcall', hpublished', hclasses'⟩ :=
    content_of_step hstep
  · rw [hsame] at hm
    obtain ⟨c, call, hcall, hpublished, hclasses⟩ := h m hm
    obtain (rfl | rfl | rfl | rfl) | ⟨call', hcall', hrequest, hphase⟩ :=
      published_kept hstep hcall hpublished
    · exact (hclean ⟨c, call, m.token, hcall, rfl, hpublished⟩).elim
    · exact (hclean ⟨call, m.token, hcall, hpublished⟩).elim
    · -- the end of the block empties the file
      cases hstep
      rw [← hsame] at hm
      cases hm
    · exact (hclean trivial).elim
    · refine ⟨c, call', hcall', ?_, hrequest ▸ hclasses⟩
      obtain hphase | hphase := hphase
      · rw [hphase, hpublished]
      · rw [hphase]
        rfl
  · rw [hnone] at hm
    cases hm
  · cases hm.symm.trans hm'
    exact ⟨c, call', hcall', hpublished', hclasses'⟩

theorem content_of_acceptsToken {content : Option Metadata} {token : Text}
    {requested : List OperationClass} (h : acceptsToken content token requested = true) :
    ∃ m, content = some m ∧ m.token = token ∧ classesCover m.classes requested = true := by
  unfold acceptsToken readMetadata at h
  obtain ⟨m, hm, haccepts⟩ := (Option.any_eq_true _ _).mp h
  rw [Bool.and_eq_true, decide_eq_true_eq] at haccepts
  exact ⟨m, (Option.filter_eq_some_iff.mp hm).1, haccepts⟩

theorem tokensSound_of_published (hcoherent : Coherent s) (h : Published s) : TokensSound s := by
  intro c call token hcall hphase hpresented haccepts
  obtain ⟨m, hm, rfl, hcover⟩ := content_of_acceptsToken haccepts
  obtain ⟨c₀, call₀, hcall₀, hpublished, hclasses⟩ := h m hm
  obtain ⟨hholds, hgenerated⟩ := holds_of_published hpublished
  refine ⟨c₀, call₀, hcoherent.holder c₀ call₀ hcall₀ hholds, hcall₀,
    hcoherent.origin c₀ call₀ m.token hcall₀ hgenerated, ?_⟩
  rw [hclasses]
  exact hcover

/-- In a run that never gives the flock up with the metadata in the file, a validation that does not
raise has read them while the flock was held by the process that generated the token. -/
theorem tokensSound_of_cleaning (h : Reachable CleaningStep initial s) : TokensSound s := by
  have hcoherent : Coherent s := h.invariant coherent_initial fun _ _ _ hs hstep => hs.step hstep.1
  have hpublished : Published s := h.invariant published_initial fun _ _ _ hs => hs.step
  exact tokensSound_of_published hcoherent hpublished

def sampleToken : Text := List.replicate 32 'a'

def updateCall (phase : Phase) : Call :=
  ⟨0, .operation "update".toList [.update] false false, none, phase, none⟩

def validateCall (phase : Phase) : Call :=
  ⟨1, .validate sampleToken [.update], some sampleToken, phase, none⟩

def idleProcess : Process := ⟨true, none, none, false⟩

theorem exists_validating : ∃ s, Reachable CleaningStep initial s ∧
    s.calls 1 = some (validateCall .busy) ∧
    acceptsToken s.content sampleToken (validateCall .busy).request.classes = true := by
  have h₀ : Reachable CleaningStep initial initial := .refl _
  have h₁ := h₀.tail ⟨.start 0 rfl, id⟩
  have h₂ := h₁.tail ⟨.call 0 0 (updateCall .opened).request idleProcess rfl rfl rfl rfl rfl, id⟩
  have h₃ := h₂.tail ⟨.lock 0 (updateCall .opened) rfl rfl rfl rfl, id⟩
  have h₄ := h₃.tail ⟨.generate 0 (updateCall .locked) sampleToken rfl rfl (by decide) rfl, id⟩
  have h₅ := h₄.tail ⟨.truncate 0 (updateCall (.prepared sampleToken)) sampleToken rfl rfl, id⟩
  have h₆ := h₅.tail ⟨.write 0 (updateCall (.truncated sampleToken)) sampleToken rfl rfl, id⟩
  have h₇ := h₆.tail ⟨.enter 0 (updateCall (.written sampleToken)) sampleToken rfl rfl, id⟩
  have h₈ := h₇.tail ⟨.start 1 rfl, id⟩
  have h₉ := h₈.tail
    ⟨.call 1 1 (validateCall .opened).request idleProcess rfl rfl rfl rfl (by decide), id⟩
  have h₁₀ := h₉.tail ⟨.busy 1 (validateCall .opened) rfl rfl rfl rfl rfl, id⟩
  exact ⟨_, h₁₀, rfl, by decide⟩

theorem tokensSound_of_cleaning_validating : ∃ s, Reachable CleaningStep initial s ∧
    TokensSound s ∧ HeldBy s sampleToken (validateCall .busy).request.classes := by
  obtain ⟨s, hreach, hcall, haccepts⟩ := exists_validating
  have hsound := tokensSound_of_cleaning hreach
  exact ⟨s, hreach, hsound, hsound 1 (validateCall .busy) sampleToken hcall rfl rfl haccepts⟩

def statusCall (phase : Phase) : Call := ⟨2, .state, none, phase, none⟩

/-- The update is killed and leaves its metadata; the flock that the validator meets is the one a
status reader takes for an instant. -/
theorem not_tokensSound_killed : ¬ ∀ s, Reachable Step initial s → TokensSound s := by
  intro h
  have h₀ : Reachable Step initial initial := .refl _
  have h₁ := h₀.tail (.start 0 rfl)
  have h₂ := h₁.tail (.call 0 0 (updateCall .opened).request idleProcess rfl rfl rfl rfl rfl)
  have h₃ := h₂.tail (.lock 0 (updateCall .opened) rfl rfl rfl rfl)
  have h₄ := h₃.tail (.generate 0 (updateCall .locked) sampleToken rfl rfl (by decide) rfl)
  have h₅ := h₄.tail (.truncate 0 (updateCall (.prepared sampleToken)) sampleToken rfl rfl)
  have h₆ := h₅.tail (.write 0 (updateCall (.truncated sampleToken)) sampleToken rfl rfl)
  have h₇ := h₆.tail (.enter 0 (updateCall (.written sampleToken)) sampleToken rfl rfl)
  have h₈ := h₇.tail (.kill 0 ⟨true, none, some sampleToken, false⟩ rfl rfl)
  have h₉ := h₈.tail (.start 2 rfl)
  have h₁₀ := h₉.tail (.call 2 2 .state idleProcess rfl rfl rfl rfl rfl)
  have h₁₁ := h₁₀.tail (.look 2 (statusCall .opened) rfl rfl rfl)
  have h₁₂ := h₁₁.tail (.probe 2 (statusCall .looked) rfl rfl rfl rfl)
  have h₁₃ := h₁₂.tail (.start 1 rfl)
  have h₁₄ := h₁₃.tail
    (.call 1 1 (validateCall .opened).request idleProcess rfl rfl rfl rfl (by decide))
  have h₁₅ := h₁₄.tail (.busy 1 (validateCall .opened) rfl rfl rfl rfl rfl)
  obtain ⟨c, call, hlock, hcall, hgenerated, -⟩ :=
    h _ h₁₅ 1 (validateCall .busy) sampleToken rfl rfl rfl (by decide)
  -- the holder is the status reader of process 2, the token is of process 0
  cases hlock
  cases hcall
  cases hgenerated

end NixNas.Operation
