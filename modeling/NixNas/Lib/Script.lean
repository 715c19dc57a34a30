import Mathlib.Data.List.Infix

/-!
# Scripts that stop at the first failure

A script is a list of commands.  It stops at the first command that reports a failure, whatever
that command left behind, or at a signal that arrives between two commands.  The rules below give
what holds wherever a script stops and what holds when it went through.
-/

namespace Script

variable {C R S : Type*}

/-- What a command leaves, and what it reports, for each reply of its surroundings. -/
structure Semantics (C R S : Type*) where
  exec : C → R → S → S
  status : C → R → S → ℕ

/-- Where a script stopped, and the status that its exit handler is given: the command that failed, or
the one a signal came before, is the first of the remaining ones. -/
structure Stop (C S : Type*) where
  state : S
  status : ℕ
  remaining : List C

inductive Outcome (C S : Type*) where
  | stopped (stop : Stop C S)
  | finished (state : S)

/-- The signal arrives when the replies are used up; `signal` is the status it gives the handler. -/
def run (m : Semantics C R S) (signal : ℕ) : List C → List R → S → Outcome C S
  | [], _, s => .finished s
  | c :: cs, [], s => .stopped ⟨s, signal, c :: cs⟩
  | c :: cs, r :: rs, s =>
    if m.status c r s = 0 then run m signal cs rs (m.exec c r s)
    else .stopped ⟨m.exec c r s, m.status c r s, c :: cs⟩

/-- From a state in `P` the commands end in `Q`, or stop with `E`. -/
def Triple (m : Semantics C R S) (P : S → Prop) (cs : List C) (Q : S → Prop)
    (E : List C → S → Prop) : Prop :=
  ∀ signal rs s, P s →
    match run m signal cs rs s with
    | .stopped stop => E stop.remaining stop.state
    | .finished s' => Q s'

variable {m : Semantics C R S} {P Q M : S → Prop} {E : List C → S → Prop} {c : C}
  {cs ds : List C} {rs : List R} {s s' : S} {stop : Stop C S} {signal : ℕ}

/-- Where a signal gives the handler no failure, the commands before it have gone through. -/
theorem run_of_signal (h : run m 0 cs rs s = .stopped stop) (hstatus : stop.status = 0) :
    ∃ done, cs = done ++ stop.remaining ∧ run m 0 done rs s = .finished stop.state := by
  induction cs generalizing rs s with
  | nil => cases h
  | cons c cs ih =>
    cases rs with
    | nil =>
      cases h
      exact ⟨[], rfl, rfl⟩
    | cons r rs =>
      rw [run] at h
      by_cases hc : m.status c r s = 0
      · rw [if_pos hc] at h
        obtain ⟨done, rfl, hdone⟩ := ih h
        exact ⟨c :: done, rfl, by rw [run, if_pos hc, hdone]⟩
      · rw [if_neg hc] at h
        cases h
        exact absurd hstatus hc

theorem run_of_failure (h : run m 0 cs rs s = .stopped stop) (hstatus : stop.status ≠ 0) :
    ∃ c r t, stop.remaining.head? = some c ∧ m.status c r t ≠ 0 := by
  induction cs generalizing rs s with
  | nil => cases h
  | cons c cs ih =>
    cases rs with
    | nil =>
      cases h
      exact absurd rfl hstatus
    | cons r rs =>
      rw [run] at h
      by_cases hc : m.status c r s = 0
      · rw [if_pos hc] at h
        exact ih h
      · rw [if_neg hc] at h
        cases h
        exact ⟨c, r, s, rfl, hc⟩

theorem keep_of_finished (hexec : ∀ c ∈ cs, ∀ r s, P s → P (m.exec c r s)) (hs : P s)
    (h : run m signal cs rs s = .finished s') : P s' := by
  induction cs generalizing rs s with
  | nil =>
    cases h
    exact hs
  | cons c cs ih =>
    cases rs with
    | nil => cases h
    | cons r rs =>
      rw [run] at h
      split at h
      · exact ih (fun d hd => hexec d (List.mem_cons_of_mem c hd)) (hexec c List.mem_cons_self r s hs) h
      · cases h

theorem Triple.stopped (h : Triple m P cs Q E)
    (hs : P s) (hrun : run m signal cs rs s = .stopped stop) :
    E stop.remaining stop.state := by
  have hrule := h signal rs s hs
  rw [hrun] at hrule
  exact hrule

theorem Triple.weaken {P' : S → Prop} (h : Triple m P cs Q E) (hP : ∀ s, P' s → P s) :
    Triple m P' cs Q E := fun signal rs s hs => h signal rs s (hP s hs)

theorem Triple.nil (h : ∀ s, P s → Q s) : Triple m P [] Q E := fun _ _ s hs => h s hs

theorem Triple.cons (hsignal : ∀ s, P s → E (c :: cs) s)
    (hfail : ∀ r s, P s → m.status c r s ≠ 0 → E (c :: cs) (m.exec c r s))
    (hnext : ∀ r s, P s → m.status c r s = 0 → M (m.exec c r s))
    (hrest : Triple m M cs Q E) : Triple m P (c :: cs) Q E := by
  intro signal rs s hs
  cases rs with
  | nil => exact hsignal s hs
  | cons r rs =>
    rw [run]
    by_cases hstatus : m.status c r s = 0
    · rw [if_pos hstatus]
      exact hrest signal rs _ (hnext r s hs hstatus)
    · rw [if_neg hstatus]
      exact hfail r s hs hstatus

/-- Commands that keep an invariant stop in it and go through in it. -/
theorem Triple.keep (hexec : ∀ c ∈ cs, ∀ r s, P s → P (m.exec c r s))
    (hstop : ∀ rest, rest ≠ [] → rest <:+ cs → ∀ s, P s → E rest s) : Triple m P cs P E := by
  induction cs with
  | nil => exact .nil fun s hs => hs
  | cons c cs ih =>
    have hrest := ih (fun d hd => hexec d (List.mem_cons_of_mem c hd)) fun rest hne hsuffix =>
      hstop rest hne (hsuffix.trans (List.suffix_cons c cs))
    have hhere := hstop (c :: cs) (List.cons_ne_nil c cs) List.suffix_rfl
    have hkeep := hexec c List.mem_cons_self
    exact .cons hhere (fun r s hs _ => hhere _ (hkeep r s hs)) (fun r s hs _ => hkeep r s hs) hrest

theorem Triple.append (h : Triple m P cs M fun rest => E (rest ++ ds)) (h' : Triple m M ds Q E) :
    Triple m P (cs ++ ds) Q E := by
  intro signal rs s hs
  induction cs generalizing P rs s with
  | nil => exact h' signal rs s (h signal rs s hs)
  | cons c cs ih =>
    -- `E` of the first command is the rule at no reply, the rest is the rule after one reply.
    cases rs with
    | nil => exact h signal [] s hs
    | cons r rs =>
      have hstep := h signal (r :: rs) s hs
      rw [List.cons_append, run]
      rw [run] at hstep
      by_cases hstatus : m.status c r s = 0
      · rw [if_pos hstatus]
        refine ih (P := fun t => t = m.exec c r s) ?_ rs _ rfl
        rintro signal' rs' t rfl
        have hrest := h signal' (r :: rs') s hs
        rw [run, if_pos hstatus] at hrest
        exact hrest
      · rw [if_neg hstatus] at hstep ⊢
        exact hstep

end Script
