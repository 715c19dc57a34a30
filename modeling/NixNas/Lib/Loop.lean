import Mathlib.Data.Nat.Notation

/-!
# Loops

A loop repeats a step until it is done or fails.  Fuel bounds how often it does, and the loop ends
where some fuel is enough.
-/

namespace Loop

universe u v

inductive Next (S : Type u) (E : Type v) where
  | done
  | failed (error : E)
  | next (state : S)

variable {S : Type u} {E : Type v} (step : S → Next S E)

/-- The loop, or nothing where the fuel is used up. -/
def run : ℕ → S → Option (Except E Unit)
  | 0, _ => none
  | fuel + 1, state =>
    match step state with
    | .done => some (.ok ())
    | .failed error => some (.error error)
    | .next state => run fuel state

/-- The loop has the result with every fuel from some point on. -/
def Ends (state : S) (result : Except E Unit) : Prop :=
  ∃ fuel, ∀ more, run step (fuel + more) state = some result

/-- The loop comes to a state of the one kind, or fails with an error of the other. -/
inductive Comes (P : S → Prop) (Q : E → Prop) : S → Prop where
  | here {state : S} (h : P state) : Comes P Q state
  | failed {state : S} {error : E} (hstep : step state = .failed error) (h : Q error) :
    Comes P Q state
  | next {state state' : S} (hstep : step state = .next state') (h : Comes P Q state') :
    Comes P Q state

variable {step} {P P' : S → Prop} {Q : E → Prop} {state : S}

theorem Comes.bind (h : Comes step P Q state) (hnext : ∀ state, P state → Comes step P' Q state) :
    Comes step P' Q state := by
  induction h with
  | here h => exact hnext _ h
  | failed hstep h => exact .failed hstep h
  | next hstep _ ih => exact .next hstep ih

theorem Ends.of_next {state' : S} {result : Except E Unit} (hstep : step state = .next state')
    (h : Ends step state' result) : Ends step state result := by
  obtain ⟨fuel, hrun⟩ := h
  refine ⟨fuel + 1, fun more => ?_⟩
  rw [Nat.add_right_comm, run, hstep]
  exact hrun more

/-- A loop that comes to its end has a result. -/
theorem Comes.ends (h : Comes step (fun s ↦ step s = .done ∧ P s) Q state) :
    (Ends step state (.ok ()) ∧ ∃ s, P s) ∨ ∃ error, Ends step state (.error error) ∧ Q error := by
  induction h with
  | here h =>
    refine .inl ⟨⟨1, fun more => ?_⟩, _, h.2⟩
    rw [Nat.add_comm, run, h.1]
  | failed hstep h =>
    refine .inr ⟨_, ⟨1, fun more => ?_⟩, h⟩
    rw [Nat.add_comm, run, hstep]
  | next hstep _ ih =>
    rcases ih with ⟨hends, hs⟩ | ⟨error, hends, herror⟩
    · exact .inl ⟨hends.of_next hstep, hs⟩
    · exact .inr ⟨error, hends.of_next hstep, herror⟩

end Loop
