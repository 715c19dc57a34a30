import NixNas.Transactions.Outcomes

/-!
# A half-applied revision is never left alone

From the first effect of a transaction until its revision is marked as applied there is an armed
guard with a running timer, or a rollback at work.  Behind the mark everything stands at the applied
revision, and so the guard may be cancelled.
-/

open Transition
open NixNas.History (Commit)
open NixNas.Guard (stateOf armSection_ok claimSection_cases)

namespace NixNas.Transactions

variable {Doc : Type} (o : Options)
variable {head : Commit} {i i' : Invocation} {tree : Generation.World Doc} {phase : Phase}
  {rollback : Rollback} {compile : String → Except String (Entry.Compiled Doc)}
  {live timerLive : Guard.Live} {r : Nat} {g : GuardId}

/-- The applied revision is published, and every subsystem stands at it. -/
def Complete (s : State Doc) : Prop :=
  ∃ c, s.world.history.applied = some c ∧ currentRevision o s.world.tree = some c ∧
    ∀ subsystem ∈ o.subsystems, s.standing subsystem = .reached c

/-- Nothing has been published since the system is up, and no subsystem has been touched. -/
def Untouched (s : State Doc) : Prop :=
  s.world.tree.current = .absent ∧ ∀ subsystem, s.standing subsystem = .untouched

def State.Arms (s : State Doc) (g : GuardId) : Prop :=
  ∃ i, s.unit = some i ∧ i.guard = g ∧ (i.phase = .launch ∨ i.phase = .cleanup)

/-- A rollback is at work, or will be: the timer of an armed guard runs, `fired` is on its way to
the claim, the script runs, or it waits for the transaction that it has started. -/
inductive Due (s : State Doc) : Prop where
  | timer {g : GuardId} (harms : ¬ s.Arms g) (harmed : stateOf (s.guards g).record = some .armed)
      (htimer : (s.guards g).timer = true)
  | claim {r : Nat} {g : GuardId} (harms : ¬ s.Arms g)
      (harmed : stateOf (s.guards g).record = some .armed)
      (hguard : (s.rollbacks r).guard = some g) (hphase : (s.rollbacks r).phase = .claim)
  | script {r : Nat} (hscript : (s.rollbacks r).phase.isScript = true)
      (hphase : (s.rollbacks r).phase ≠ .waiting)
  | waiting {r : Nat} (hphase : (s.rollbacks r).phase = .waiting) (hunit : s.unit.isSome = true)

/-- A script is on its way to the restart, or a rollback has ended before that. -/
def Covered (s : State Doc) : Prop :=
  (∃ r, (s.rollbacks r).phase.isScript = true ∧ (s.rollbacks r).phase ≠ .waiting) ∨ s.lost = true

/-- Everything stands at the head of the transaction but what is still to come. -/
def Reached (s : State Doc) (head : Commit) (remaining : List Subsystem) : Prop :=
  currentRevision o s.world.tree = some head ∧
    ∀ subsystem ∈ o.subsystems, subsystem ∈ remaining ∨ s.standing subsystem = .reached head

def Holds (s : State Doc) (i : Invocation) : Prop :=
  match i.phase with
  | .launch => stateOf (s.guards i.guard).record = some .armed ∨ Covered s
  | .probe | .main _ _ | .readPlan => Due s ∨ s.lost = true
  | .project head remaining => (Due s ∨ s.lost = true) ∧ Reached o s head remaining
  | .markApplied head | .keepApplied head _ | .setApplied head _ =>
    (Due s ∨ s.lost = true) ∧ Reached o s head []
  | .acknowledge _ | .cancel | .removeGuardFile | .clearPrevious => Complete o s ∨ Covered s
  | _ => True

structure Guarded (s : State Doc) : Prop where
  due : Untouched s ∨ Complete o s ∨ Due s ∨ s.lost = true
  waiting : ∀ r, (s.rollbacks r).phase = .waiting → s.unit.isSome = true
  unit : ∀ i, s.unit = some i → Holds o s i

variable {o} {s₀ s s' : State Doc}
variable {history history' : History.State}

theorem Covered.due (h : Covered s) : Due s ∨ s.lost = true := by
  obtain ⟨r, hscript, hphase⟩ | hlost := h
  · exact .inl (.script hscript hphase)
  · exact .inr hlost

/-- What the guards, the rollbacks and the unit have to keep for the rollbacks that are due. -/
theorem Due.keep (h : Due s)
    (harmed : ∀ g, ¬ s.Arms g → stateOf (s.guards g).record = some .armed →
      ¬ s'.Arms g ∧ stateOf (s'.guards g).record = some .armed ∧
        ((s.guards g).timer = true → (s'.guards g).timer = true))
    (hclaim : ∀ r g, (s.rollbacks r).phase = .claim → (s.rollbacks r).guard = some g →
      stateOf (s.guards g).record = some .armed → s'.rollbacks r = s.rollbacks r)
    (hscript : ∀ r, (s.rollbacks r).phase.isScript = true → s'.rollbacks r = s.rollbacks r)
    (hunit : s.unit.isSome = true → s'.unit.isSome = true) : Due s' := by
  cases h with
  | timer harms hrecord hruns =>
    obtain ⟨harms', hrecord', htimer⟩ := harmed _ harms hrecord
    exact .timer harms' hrecord' (htimer hruns)
  | @claim r g harms hrecord hguard hphase =>
    obtain ⟨harms', hrecord', -⟩ := harmed _ harms hrecord
    have hsame := hclaim r g hphase hguard hrecord
    exact .claim harms' hrecord' (hsame ▸ hguard) (hsame ▸ hphase)
  | @script r hruns hphase =>
    have hsame := hscript r hruns
    exact .script (hsame ▸ hruns) (hsame ▸ hphase)
  | @waiting r hphase hsome =>
    have hsame := hscript r (by rw [hphase]; rfl)
    exact .waiting (hsame ▸ hphase) (hunit hsome)

variable (o) in
/-- What is published, and where the subsystems stand, is the same. -/
structure SameOutside (s s' : State Doc) : Prop where
  current : s'.world.tree.current = s.world.tree.current
  revision : currentRevision o s'.world.tree = currentRevision o s.world.tree
  standing : s'.standing = s.standing

theorem SameOutside.of_tree (htree : s'.world.tree = s.world.tree)
    (hstanding : s'.standing = s.standing) : SameOutside o s s' :=
  ⟨by rw [htree], by rw [htree], hstanding⟩

theorem Reached.congr {remaining : List Subsystem} (h : Reached o s head remaining)
    (hsame : SameOutside o s s') : Reached o s' head remaining := by
  unfold Reached
  rw [hsame.revision, hsame.standing]
  exact h

theorem Complete.congr (h : Complete o s) (hsame : SameOutside o s s')
    (happlied : ∀ c, s.world.history.applied = some c → s'.world.history.applied = some c) :
    Complete o s' := by
  obtain ⟨c, hc, hrevision, hstanding⟩ := h
  refine ⟨c, happlied c hc, ?_, ?_⟩
  · rw [hsame.revision]
    exact hrevision
  · rw [hsame.standing]
    exact hstanding

theorem Untouched.congr (h : Untouched s) (hsame : SameOutside o s s') : Untouched s' := by
  unfold Untouched
  rw [hsame.current, hsame.standing]
  exact h

theorem Guarded.quiet (h : Guarded o s) (hsame : SameOutside o s s')
    (happlied : ∀ c, s.world.history.applied = some c → s'.world.history.applied = some c)
    (hdue : Due s → Due s' ∨ s'.lost = true) (hlost : s.lost = true → s'.lost = true) :
    Untouched s' ∨ Complete o s' ∨ Due s' ∨ s'.lost = true := by
  obtain huntouched | hcomplete | hd | hl := h.due
  · exact .inl (huntouched.congr hsame)
  · exact .inr (.inl (hcomplete.congr hsame happlied))
  · exact .inr (.inr (hdue hd))
  · exact .inr (.inr (.inr (hlost hl)))

theorem Guarded.covered (h : Guarded o s) (hsame : SameOutside o s s') (hcovered : Covered s')
    (hunit : s'.unit = s.unit ∨ s'.unit = none)
    (hwaiting : ∀ r, (s'.rollbacks r).phase = .waiting → s'.unit.isSome = true) :
    Guarded o s' := by
  refine ⟨?_, hwaiting, ?_⟩
  · exact .inr (.inr hcovered.due)
  · intro i hi
    obtain hunit | hunit := hunit
    · have hholds := h.unit i (hunit ▸ hi)
      unfold Holds at hholds ⊢
      split at hholds
      · exact .inr hcovered
      · exact hcovered.due
      · exact hcovered.due
      · exact hcovered.due
      · exact ⟨hcovered.due, hholds.2.congr hsame⟩
      · exact ⟨hcovered.due, hholds.2.congr hsame⟩
      · exact ⟨hcovered.due, hholds.2.congr hsame⟩
      · exact ⟨hcovered.due, hholds.2.congr hsame⟩
      · exact .inr hcovered
      · exact .inr hcovered
      · exact .inr hcovered
      · exact .inr hcovered
      · trivial
    · cases hunit.symm.trans hi

theorem Guarded.beside (h : Guarded o s) (hsame : SameOutside o s s')
    (happlied : ∀ c, s.world.history.applied = some c → s'.world.history.applied = some c)
    (hunit : s'.unit = s.unit) (hlost : s'.lost = s.lost) (hdue : Due s → Due s')
    (hcovered : Covered s → Covered s')
    (harmed : ∀ g, stateOf (s.guards g).record = some .armed →
      stateOf (s'.guards g).record = some .armed)
    (hwaiting : ∀ r, (s'.rollbacks r).phase = .waiting → (s.rollbacks r).phase = .waiting) :
    Guarded o s' := by
  have hdue' : Due s ∨ s.lost = true → Due s' ∨ s'.lost = true := by
    rw [hlost]
    exact Or.imp_left hdue
  have hcomplete : Complete o s ∨ Covered s → Complete o s' ∨ Covered s' :=
    Or.imp (fun hc => hc.congr hsame happlied) hcovered
  refine ⟨?_, ?_, ?_⟩
  · exact h.quiet hsame happlied (fun hd => .inl (hdue hd)) (hlost ▸ id)
  · intro r hr
    rw [hunit]
    exact h.waiting r (hwaiting r hr)
  · intro i hi
    have hholds := h.unit i (hunit ▸ hi)
    unfold Holds at hholds ⊢
    split at hholds
    · exact hholds.imp (harmed _) hcovered
    · exact hdue' hholds
    · exact hdue' hholds
    · exact hdue' hholds
    · exact ⟨hdue' hholds.1, hholds.2.congr hsame⟩
    · exact ⟨hdue' hholds.1, hholds.2.congr hsame⟩
    · exact ⟨hdue' hholds.1, hholds.2.congr hsame⟩
    · exact ⟨hdue' hholds.1, hholds.2.congr hsame⟩
    · exact hcomplete hholds
    · exact hcomplete hholds
    · exact hcomplete hholds
    · exact hcomplete hholds
    · trivial

theorem Guarded.around (h : Guarded o s) (hsame : SameOutside o s s')
    (happlied : s'.world.history.applied = s.world.history.applied) (hunit : s'.unit = s.unit)
    (hrollbacks : s'.rollbacks = s.rollbacks) (hlost : s'.lost = s.lost)
    (harmed : ∀ g, stateOf (s.guards g).record = some .armed →
      stateOf (s'.guards g).record = some .armed)
    (htimer : ∀ g, (s.guards g).timer = true → (s'.guards g).timer = true) : Guarded o s' := by
  have hdue : Due s → Due s' := by
    intro hd
    apply hd.keep
    · intro g hnot hg
      refine ⟨?_, harmed g hg, htimer g⟩
      unfold State.Arms
      rw [hunit]
      exact hnot
    · intro r _ _ _ _
      rw [hrollbacks]
    · intro r _
      rw [hrollbacks]
    · rw [hunit]
      exact id
  apply h.beside hsame _ hunit hlost hdue _ harmed
  · intro r hr
    rw [← hrollbacks]
    exact hr
  · intro c hc
    rw [happlied]
    exact hc
  · unfold Covered
    rw [hrollbacks, hlost]
    exact id

/-! ## The unit -/

theorem Due.goto (h : Due s) (hi : s.unit = some i) (hi' : s'.unit = some i')
    (hguards : s'.guards = s.guards) (hrollbacks : s'.rollbacks = s.rollbacks)
    (harms : i'.phase = .launch ∨ i'.phase = .cleanup →
      i'.guard = i.guard ∧ (i.phase = .launch ∨ i.phase = .cleanup)) : Due s' := by
  apply h.keep
  · intro g hnot harmed
    rw [hguards]
    refine ⟨?_, harmed, id⟩
    rintro ⟨j, hj, rfl, hphase⟩
    cases hi'.symm.trans hj
    obtain ⟨hguard, hwas⟩ := harms hphase
    exact hnot ⟨i, hi, hguard.symm, hwas⟩
  · intro r g _ _ _
    rw [hrollbacks]
  · intro r _
    rw [hrollbacks]
  · intro _
    rw [hi']
    rfl

theorem Guarded.moved (hi' : s'.unit = some i')
    (hdue : Untouched s' ∨ Complete o s' ∨ Due s' ∨ s'.lost = true) (hholds : Holds o s' i') :
    Guarded o s' := by
  refine ⟨hdue, ?_, ?_⟩
  · intro r _
    rw [hi']
    rfl
  · intro j hj
    cases hi'.symm.trans hj
    exact hholds

theorem currentRevision_removePlan {tree' : Generation.World Doc}
    (h : removePlan o tree = some tree') :
    tree'.current = tree.current ∧ currentRevision o tree' = currentRevision o tree := by
  unfold removePlan at h
  split at h
  · cases h
  · cases h
    exact ⟨rfl, rfl⟩

theorem bootstrap_applied {r : Commit × Bool × History.State}
    (h : History.bootstrapBaselineLocked history = .ok r) (hr : r.2.2 = history') {c : Commit}
    (hc : history.applied = some c) : history'.applied = some c := by
  unfold History.bootstrapBaselineLocked at h
  rw [hc] at h
  cases h
  rw [← hr]
  exact hc

theorem markApplied_head {r : Commit × Option Commit}
    (h : History.markApplied history (some head) = (.ok r, history')) :
    head < history.commits.length ∧
      history' = { history with previousApplied := history.applied, applied := some head } := by
  unfold History.markApplied at h
  split at h
  · cases h
  · rename_i desired hdesired
    obtain rfl : head = desired := Option.some.inj hdesired
    split at h
    · cases h
    · rename_i text htext
      cases h
      exact ⟨History.lt_of_textAt htext, rfl⟩

theorem acknowledge_applied {current : Bool}
    (h : History.acknowledgePending history head = .ok (current, history')) :
    history'.applied = history.applied ∧ history'.previousApplied = history.previousApplied ∧
      history'.commits = history.commits := by
  unfold History.acknowledgePending at h
  split at h
  · cases h
  · cases h
    split <;> exact ⟨rfl, rfl, rfl⟩

theorem planRevision_current
    (h : planRevision o tree = some head) : currentRevision o tree = some head := by
  unfold planRevision at h
  split at h
  · split at h
    · exact h
    · cases h
  · cases h

theorem Guarded.goes (h : Guarded o s) (hi : s.unit = some i)
    (hi' : s'.unit = some { i with phase }) (hsame : SameOutside o s s')
    (happlied : ∀ c, s.world.history.applied = some c → s'.world.history.applied = some c)
    (hguards : s'.guards = s.guards) (hrollbacks : s'.rollbacks = s.rollbacks)
    (hlost : s'.lost = s.lost)
    (harms : phase = .launch ∨ phase = .cleanup → i.phase = .launch ∨ i.phase = .cleanup)
    (hholds : (Due s → Due s') → (Complete o s → Complete o s') → (Covered s → Covered s') →
      Holds o s' { i with phase }) : Guarded o s' := by
  have hdue : Due s → Due s' := fun hd =>
    hd.goto hi hi' hguards hrollbacks fun hphase => ⟨rfl, harms hphase⟩
  have hcovered : Covered s → Covered s' := by
    unfold Covered
    rw [hrollbacks, hlost]
    exact id
  apply Guarded.moved hi'
  · exact h.quiet hsame happlied (fun hd => .inl (hdue hd)) (hlost ▸ id)
  · exact hholds hdue (fun hc => hc.congr hsame happlied) hcovered

theorem due_or_lost (h : Due s ∨ s.lost = true) (hdue : Due s → Due s') (hlost : s'.lost = s.lost) :
    Due s' ∨ s'.lost = true := by
  rw [hlost]
  exact h.imp_left hdue

theorem answer_of_ne (h : rollback.phase ≠ .waiting) (exitCode : Int) :
    rollback.answer exitCode = rollback := if_neg h

theorem answer_ne_waiting (rollback : Rollback) (exitCode : Int) :
    (rollback.answer exitCode).phase ≠ .waiting := by
  unfold Rollback.answer
  split
  · simp
  · assumption

theorem Covered.answer (h : Covered s) {exitCode : Int}
    (hrollbacks : s'.rollbacks = (s.answer exitCode).rollbacks)
    (hlost : s.lost = true → s'.lost = true) : Covered s' := by
  obtain ⟨r, hscript, hphase⟩ | hl := h
  · have hsame : s'.rollbacks r = s.rollbacks r := by
      rw [hrollbacks]
      exact answer_of_ne hphase exitCode
    exact .inl ⟨r, hsame ▸ hscript, hsame ▸ hphase⟩
  · exact .inr (hlost hl)

theorem Guarded.marks (h : Guarded o s) (hi : s.unit = some i)
    (hphase : i.phase = .markApplied head ∨ ∃ old, i.phase = .setApplied head old)
    (happlied : history.applied = some head) :
    Complete o ({ s.setHistory history with lost := false }.goto i (.acknowledge head)) := by
  have hreached : Reached o s head [] := by
    have hholds := h.unit i hi
    obtain hphase | ⟨old, hphase⟩ := hphase
    · simp only [Holds, hphase] at hholds
      exact hholds.2
    · simp only [Holds, hphase] at hholds
      exact hholds.2
  obtain ⟨hrevision, hstanding⟩ := hreached
  refine ⟨head, happlied, hrevision, ?_⟩
  intro subsystem hmem
  exact (hstanding subsystem hmem).resolve_left (by simp)

theorem Guarded.advance (h : Guarded o s) (hi : s.unit = some i)
    (hstep : advance o s i = some s') : Guarded o s' := by
  have hholds := h.unit i hi
  unfold Transactions.advance at hstep
  split at hstep
  · obtain ⟨tree, htree, rfl⟩ := Option.map_eq_some_iff.mp hstep
    obtain ⟨hcurrent, hrevision⟩ := currentRevision_removePlan htree
    refine h.goes hi rfl ⟨hcurrent, hrevision, rfl⟩ (fun _ hc => hc) rfl rfl rfl (by simp) ?_
    exact fun _ _ _ => trivial
  · split at hstep
    · cases hstep
    · rename_i hbootstrap
      cases hstep
      refine h.goes hi rfl (.of_tree rfl rfl) (fun _ hc => bootstrap_applied hbootstrap rfl hc)
        rfl rfl rfl (by simp) ?_
      exact fun _ _ _ => trivial
  · cases hstep
    refine h.goes hi rfl (.of_tree rfl rfl) (fun _ hc => hc) rfl rfl rfl (by simp) ?_
    exact fun _ _ _ => trivial
  · rename_i hphase
    cases hstep
    refine h.goes hi rfl (.of_tree rfl rfl) (fun _ hc => hc) rfl rfl rfl (by simp) ?_
    intro hdue _ _
    simp only [Holds, hphase] at hholds
    exact due_or_lost hholds hdue rfl
  · rename_i hphase
    cases hstep
    refine h.goes hi rfl (.of_tree rfl rfl) (fun _ hc => hc) rfl rfl rfl (by simp) ?_
    intro hdue _ _
    simp only [Holds, hphase] at hholds
    exact due_or_lost hholds hdue rfl
  · rename_i hphase
    obtain ⟨head, hhead, rfl⟩ := Option.map_eq_some_iff.mp hstep
    refine h.goes hi rfl (.of_tree rfl rfl) (fun _ hc => hc) rfl rfl rfl (by simp) ?_
    intro hdue _ _
    simp only [Holds, hphase] at hholds
    exact ⟨due_or_lost hholds hdue rfl, planRevision_current hhead, fun _ => .inl⟩
  · rename_i head subsystem remaining hphase
    simp only [Holds, hphase] at hholds
    obtain ⟨hdue, hrevision, hstanding⟩ := hholds
    have hdue' : Due s' ∨ s'.lost = true := by
      cases hstep
      exact due_or_lost hdue (fun hd => hd.goto hi rfl rfl rfl (by simp)) rfl
    cases hstep
    refine Guarded.moved rfl (.inr (.inr hdue')) ⟨hdue', hrevision, ?_⟩
    intro other hother
    simp only [State.goto, State.setStanding, Function.update_apply, hrevision]
    by_cases hsame : other = subsystem
    · exact .inr (if_pos hsame)
    · rw [if_neg hsame]
      exact (hstanding other hother).imp_left fun hmem =>
        (List.mem_cons.mp hmem).resolve_left hsame
  · rename_i hphase
    cases hstep
    refine h.goes hi rfl (.of_tree rfl rfl) (fun _ hc => hc) rfl rfl rfl (by simp) ?_
    intro hdue _ _
    simp only [Holds, hphase] at hholds
    exact ⟨due_or_lost hholds.1 hdue rfl, hholds.2⟩
  · rename_i head hphase
    split at hstep
    · cases hstep
    · rename_i hmark
      have hcomplete := h.marks hi (.inl hphase) (congrArg _ (markApplied_head hmark).2)
      cases hstep
      exact Guarded.moved rfl (.inr (.inl hcomplete)) (.inl hcomplete)
  · rename_i hphase
    cases hstep
    refine h.goes hi rfl (.of_tree rfl rfl) (fun _ hc => hc) rfl rfl rfl (by simp) ?_
    intro hdue _ _
    simp only [Holds, hphase] at hholds
    exact ⟨due_or_lost hholds.1 hdue rfl, hholds.2⟩
  · rename_i head old hphase
    obtain ⟨-, hs'⟩ := Option.ite_none_right_eq_some.mp hstep
    cases hs'
    have happlied : ({ s.world.history with applied := some head } : History.State).applied =
        some head := rfl
    have hcomplete := h.marks hi (.inr ⟨old, hphase⟩) happlied
    exact Guarded.moved rfl (.inr (.inl hcomplete)) (.inl hcomplete)
  · rename_i hphase
    split at hstep
    · cases hstep
    · rename_i hacknowledge
      cases hstep
      have happlied := (acknowledge_applied hacknowledge).1
      refine h.goes hi rfl (.of_tree rfl rfl) (fun _ hc => happlied.trans hc) rfl rfl rfl
        (by simp) ?_
      intro _ hcomplete hcovered
      simp only [Holds, hphase] at hholds
      exact hholds.imp hcomplete hcovered
  · rename_i hphase
    cases hstep
    refine h.goes hi rfl (.of_tree rfl rfl) (fun _ hc => hc) rfl rfl rfl (by simp) ?_
    intro _ hcomplete hcovered
    simp only [Holds, hphase] at hholds
    exact hholds.imp hcomplete hcovered
  · rename_i hphase
    simp only [Holds, hphase] at hholds
    have hkept : Complete o s' ∨ Covered s' := by
      cases hstep
      obtain hcomplete | hcovered := hholds
      · exact .inl (hcomplete.congr (.of_tree rfl rfl) fun _ hc => hc)
      · exact .inr (hcovered.answer rfl id)
    refine ⟨?_, ?_, ?_⟩
    · exact .inr (hkept.imp_right Covered.due)
    · cases hstep
      intro r hr
      exact absurd hr (answer_ne_waiting _ 0)
    · cases hstep
      rintro j ⟨⟩
  · cases hstep

theorem Guarded.partly (h : Guarded o s) (hi : s.unit = some i)
    (hstep : partly s i = some s') : Guarded o s' := by
  have hholds := h.unit i hi
  unfold Transactions.partly at hstep
  split at hstep
  · split at hstep
    · cases hstep
      exact h.around (.of_tree rfl rfl) rfl rfl rfl rfl (fun _ => id) fun _ => id
    · cases hstep
  · cases hstep
    refine h.around (.of_tree rfl rfl) rfl rfl rfl rfl ?_ ?_
    · exact fun _ => id
    · exact fun _ => id
  · cases hstep
    refine h.around (.of_tree rfl rfl) rfl rfl rfl rfl ?_ ?_
    · intro g hg
      by_cases hsame : g = i.guard
      · simpa [hsame] using hg
      · simpa [hsame] using hg
    · intro g hg
      by_cases hsame : g = i.guard
      · simp [hsame]
      · simpa [hsame] using hg
  · rename_i head subsystem remaining hphase
    simp only [Holds, hphase] at hholds
    obtain ⟨hdue, hrevision, hstanding⟩ := hholds
    have hdue' : Due s' ∨ s'.lost = true := by
      cases hstep
      exact due_or_lost hdue (fun hd => hd.goto hi hi rfl rfl fun hp => ⟨rfl, hp⟩) rfl
    cases hstep
    refine Guarded.moved hi (.inr (.inr hdue')) ?_
    simp only [Holds, hphase]
    refine ⟨hdue', hrevision, ?_⟩
    intro other hother
    simp only [State.setStanding, Function.update_apply]
    by_cases hsame : other = subsystem
    · exact .inl (hsame ▸ List.mem_cons_self)
    · rw [if_neg hsame]
      exact hstanding other hother
  · rename_i hphase
    cases hstep
    refine h.goes hi rfl (.of_tree rfl rfl) (fun _ hc => hc) rfl rfl rfl (by simp) ?_
    intro hdue _ _
    simp only [Holds, hphase] at hholds
    exact ⟨due_or_lost hholds.1 hdue rfl, hholds.2⟩
  · cases hstep

theorem Guarded.main (h : Guarded o s) (hi : s.unit = some i) {act : Entry.Action}
    (hstep : main o compile s i act = some s') : Guarded o s' := by
  have hholds := h.unit i hi
  unfold Transactions.main at hstep
  split at hstep
  · rename_i hphase
    simp only [Holds, hphase] at hholds
    obtain ⟨entry, -, rfl⟩ := Option.map_eq_some_iff.mp hstep
    have hdue : Due ({ s with world := entry.world }.goto i (.main entry.phase entry.switched)) ∨
        s.lost = true := hholds.imp_left fun hd => hd.goto hi rfl rfl rfl (by simp)
    exact Guarded.moved rfl (.inr (.inr hdue)) hdue
  · cases hstep

theorem Due.own (h : Due s)
    (hnot : stateOf (s.guards i.guard).record ≠ some .armed ∨ s.Arms i.guard) (guard : GuardUnit)
    (phase : Phase) : Due ((s.setGuard i.guard guard).goto i phase) := by
  apply h.keep
  · intro g hg harmed
    have hother : g ≠ i.guard := by
      rintro rfl
      exact hnot.elim (· harmed) hg
    refine ⟨?_, ?_, ?_⟩
    · rintro ⟨j, hj, hguard, -⟩
      cases hj
      exact hother hguard.symm
    · simpa [hother] using harmed
    · simp [hother]
  · exact fun _ _ _ _ _ => rfl
  · exact fun _ _ => rfl
  · exact fun _ => rfl

theorem Guarded.own (h : Guarded o s)
    (hnot : stateOf (s.guards i.guard).record ≠ some .armed ∨ s.Arms i.guard) {guard : GuardUnit}
    (hholds : Holds o ((s.setGuard i.guard guard).goto i phase) { i with phase }) :
    Guarded o ((s.setGuard i.guard guard).goto i phase) := by
  refine Guarded.moved rfl ?_ hholds
  exact h.quiet (.of_tree rfl rfl) (fun _ hc => hc) (fun hd => .inl (hd.own hnot guard phase)) id

theorem Guarded.arm (h : Guarded o s)
    (hstep : arm s i live timerLive = some s') : Guarded o s' := by
  unfold Transactions.arm at hstep
  dsimp only at hstep
  split at hstep
  · rename_i hphase hresult
    cases hstep
    obtain ⟨-, harmed⟩ := armSection_ok hresult
    apply h.own
    · refine .inl fun hwas => ?_
      exact refused_of_settled (.inr hwas) hresult
    · refine .inl ?_
      simpa using harmed
  · cases hstep

theorem Guarded.launched (h : Guarded o s) (hi : s.unit = some i) {succeeds : Bool}
    (hstep : launched s i succeeds = some s') : Guarded o s' := by
  have hholds := h.unit i hi
  unfold Transactions.launched at hstep
  split at hstep
  · rename_i hphase
    simp only [Holds, hphase] at hholds
    cases succeeds with
    | true =>
      obtain rfl : s' = (s.setTimer i.guard true).goto i .probe := (Option.some.inj hstep).symm
      have hdue : Due ((s.setTimer i.guard true).goto i .probe) ∨ s.lost = true := by
        obtain harmed | hcovered := hholds
        · refine .inl (.timer (g := i.guard) ?_ ?_ ?_)
          · rintro ⟨j, hj, -, hlaunch⟩
            cases hj
            simp at hlaunch
          · simpa using harmed
          · simp
        · have hcovered' : Covered ((s.setTimer i.guard true).goto i .probe) := hcovered
          exact hcovered'.due
      exact Guarded.moved rfl (.inr (.inr hdue)) hdue
    | false =>
      cases hstep
      refine h.goes hi rfl (.of_tree rfl rfl) (fun _ hc => hc) rfl rfl rfl
        (fun _ => .inl hphase) ?_
      exact fun _ _ _ => trivial
  · cases hstep

theorem Guarded.cleanup (h : Guarded o s) (hi : s.unit = some i) {unlinked : Bool}
    (hstep : cleanup s i unlinked = some s') : Guarded o s' := by
  unfold Transactions.cleanup at hstep
  split at hstep
  · rename_i hphase
    cases hstep
    exact h.own (.inr ⟨i, hi, rfl, .inr hphase⟩) trivial
  · cases hstep

theorem Guarded.cancel (h : Guarded o s) (hi : s.unit = some i)
    {after : Guard.Live} {stopped : Bool}
    (hstep : cancel s i live stopped timerLive after = some s') : Guarded o s' := by
  have hholds := h.unit i hi
  unfold Transactions.cancel at hstep
  split at hstep
  · rename_i hphase
    simp only [Holds, hphase] at hholds
    have hkept : ∀ (guard : GuardUnit) (phase : Phase),
        Complete o ((s.setGuard i.guard guard).goto i phase) ∨
          Covered ((s.setGuard i.guard guard).goto i phase) :=
      fun _ _ => hholds.imp id id
    dsimp only at hstep
    split at hstep
    · cases hstep
      exact Guarded.moved rfl (.inr ((hkept _ _).imp_right Covered.due)) (hkept _ _)
    · cases hstep
      exact Guarded.moved rfl (.inr ((hkept _ _).imp_right Covered.due)) trivial
  · cases hstep

/-! ## Starts and ends of the unit -/

theorem Due.begin (h : Due s) : Due s.begin := by
  apply h.keep
  · intro g _ harmed
    refine ⟨?_, harmed, id⟩
    rintro ⟨j, hj, -, hphase⟩
    cases hj
    simp at hphase
  · exact fun _ _ _ _ _ => rfl
  · exact fun _ _ => rfl
  · exact fun _ => rfl

theorem Guarded.begin (h : Guarded o s) : Guarded o s.begin := by
  refine Guarded.moved rfl ?_ trivial
  exact h.quiet (.of_tree rfl rfl) (fun _ hc => hc) (fun hd => .inl hd.begin) id

theorem Due.drop (h : Due s) (hidle : ∀ r, s.started ≤ r → s.rollbacks r = .idle) :
    Due s.drop ∨ s.drop.lost = true := by
  have harms : ∀ g, ¬ s.drop.Arms g := by
    rintro g ⟨j, hj, -⟩
    cases hj
  cases h with
  | timer _ harmed htimer => exact .inl (.timer (harms _) harmed htimer)
  | @claim r g _ harmed hguard hphase =>
    have hsame : s.drop.rollbacks r = s.rollbacks r := answer_of_ne (by simp [hphase]) 1
    exact .inl (.claim (harms g) harmed (hsame ▸ hguard) (hsame ▸ hphase))
  | @script r hscript hphase =>
    have hsame : s.drop.rollbacks r = s.rollbacks r := answer_of_ne hphase 1
    exact .inl (.script (hsame ▸ hscript) (hsame ▸ hphase))
  | @waiting r hphase _ =>
    have hwaited : s.waited = true := by
      simp only [State.waited, List.any_eq_true, List.mem_range, decide_eq_true_eq]
      refine ⟨r, ?_, hphase⟩
      by_contra hge
      rw [hidle r (Nat.le_of_not_lt hge)] at hphase
      cases hphase
    refine .inr ?_
    simp [hwaited]

theorem Guarded.drop (h : Guarded o s) (hidle : ∀ r, s.started ≤ r → s.rollbacks r = .idle) :
    Guarded o s.drop := by
  refine ⟨?_, ?_, ?_⟩
  · refine h.quiet (.of_tree rfl rfl) (fun _ hc => hc) (fun hd => hd.drop hidle) ?_
    intro hlost
    simp [hlost]
  · intro r hr
    exact absurd hr (answer_ne_waiting _ 1)
  · rintro j ⟨⟩

/-! ## The rollbacks -/

theorem Guarded.rolls (h : Guarded o s) (hsame : SameOutside o s s')
    (hunit : s'.unit = s.unit) (hrollbacks : s'.rollbacks = Function.update s.rollbacks r rollback)
    (hphase : rollback.phase ≠ .waiting)
    (hcovered : rollback.phase.isScript = true ∨ s'.lost = true) : Guarded o s' := by
  apply h.covered hsame
  · obtain hscript | hlost := hcovered
    · refine .inl ⟨r, ?_⟩
      rw [hrollbacks, Function.update_self]
      exact ⟨hscript, hphase⟩
    · exact .inr hlost
  · exact .inl hunit
  · intro r' hr'
    rw [hunit]
    rw [hrollbacks, Function.update_apply] at hr'
    split at hr'
    · exact absurd hr' hphase
    · exact h.waiting r' hr'

theorem Guarded.aside (h : Guarded o s) (hworld : s'.world = s.world)
    (hstanding : s'.standing = s.standing) (hunit : s'.unit = s.unit) (hlost : s'.lost = s.lost)
    (hrollbacks : s'.rollbacks = Function.update s.rollbacks r rollback)
    (hphase : rollback.phase ≠ .waiting) (hscript : (s.rollbacks r).phase.isScript = false)
    (hclaim : ∀ g, (s.rollbacks r).phase = .claim → (s.rollbacks r).guard = some g →
      stateOf (s.guards g).record ≠ some .armed)
    (harmed : ∀ g, stateOf (s.guards g).record = some .armed →
      stateOf (s'.guards g).record = some .armed ∧ (s'.guards g).timer = (s.guards g).timer) :
    Guarded o s' := by
  have hother : ∀ r', (s.rollbacks r').phase.isScript = true → s'.rollbacks r' = s.rollbacks r' := by
    intro r' hr'
    rw [hrollbacks, Function.update_of_ne]
    rintro rfl
    rw [hscript] at hr'
    cases hr'
  have hdue : Due s → Due s' := by
    intro hd
    apply hd.keep
    · intro g hnot hg
      refine ⟨?_, (harmed g hg).1, ?_⟩
      · unfold State.Arms
        rw [hunit]
        exact hnot
      · rw [(harmed g hg).2]
        exact id
    · intro r' g hr' hguard hg
      rw [hrollbacks, Function.update_of_ne]
      rintro rfl
      exact hclaim g hr' hguard hg
    · exact hother
    · rw [hunit]
      exact id
  apply h.beside (.of_tree (by rw [hworld]) hstanding) _ hunit hlost hdue
  · rintro (⟨r', hr', hphase'⟩ | hl)
    · have hsame := hother r' hr'
      exact .inl ⟨r', hsame ▸ hr', hsame ▸ hphase'⟩
    · exact .inr (hlost ▸ hl)
  · exact fun g hg => (harmed g hg).1
  · intro r' hr'
    rw [hrollbacks, Function.update_apply] at hr'
    split at hr'
    · exact absurd hr' hphase
    · exact hr'
  · intro c hc
    rw [hworld]
    exact hc

theorem behindFired_ne_waiting (rollback : Rollback) : rollback.behindFired ≠ .waiting := by
  unfold Rollback.behindFired
  split <;> simp

theorem Guarded.readGuardFile (h : Guarded o s) (hstep : readGuardFile s r = some s') :
    Guarded o s' := by
  unfold Transactions.readGuardFile at hstep
  split at hstep
  · rename_i hphase
    split at hstep
    · cases hstep
      refine h.aside rfl rfl rfl rfl rfl (by simp) (by simp [hphase, RollbackPhase.isScript]) ?_ ?_
      · simp [hphase]
      · exact fun g hg => ⟨hg, rfl⟩
    · cases hstep
      exact h.rolls (.of_tree rfl rfl) rfl rfl (by simp) (.inl rfl)
  · cases hstep

theorem Guarded.claim (h : Guarded o s) (hstep : claim s r = some s') : Guarded o s' := by
  unfold Transactions.claim at hstep
  split at hstep
  · rename_i g hphase hguard
    dsimp only at hstep
    split at hstep
    · cases hstep
      exact h.rolls (.of_tree rfl rfl) rfl rfl (by simp) (.inl rfl)
    · rename_i hrefused
      cases hstep
      have hnot : stateOf (s.guards g).record ≠ some .armed := by
        intro harmed
        exact hrefused (claimSection_of_pending (.inr harmed) rollbackToApplied)
      refine h.aside rfl rfl rfl rfl rfl (behindFired_ne_waiting _)
        (by simp [hphase, RollbackPhase.isScript]) ?_ ?_
      · rintro g' - hg'
        cases hguard.symm.trans hg'
        exact hnot
      · intro g' hg'
        have hother : g' ≠ g := by
          rintro rfl
          exact hnot hg'
        simp [hother, hg']
  · cases hstep

theorem Guarded.stopUnit (h : Guarded o s) (hidle : ∀ r, s.started ≤ r → s.rollbacks r = .idle)
    {works : Bool} (hstep : stopUnit s r works = some s') : Guarded o s' := by
  unfold Transactions.stopUnit at hstep
  split at hstep
  · cases hstep
    split
    · exact (h.drop hidle).rolls (.of_tree rfl rfl) rfl rfl (by simp) (.inl rfl)
    · exact h.rolls (.of_tree rfl rfl) rfl rfl (by simp) (.inl rfl)
  · cases hstep

theorem restarted_guarded (hstep : restart s r = some s') : Guarded o s' := by
  unfold Transactions.restart at hstep
  split at hstep
  · cases hstep
    refine Guarded.moved rfl ?_ trivial
    exact .inr (.inr (.inl (.waiting (r := r) (by simp) rfl)))
  · cases hstep

theorem Guarded.terminal (h : Guarded o s) (hsingle : Single s₀ s)
    (hstep : terminal s r = some s') : Guarded o s' := by
  unfold Transactions.terminal at hstep
  split at hstep
  · rename_i exitCode g hphase hguard
    cases hstep
    have hsettled : Settled (s.guards g).record :=
      hsingle.settled r g hguard (hsingle.runs r g hguard (.inr ⟨exitCode, hphase⟩))
    refine h.aside rfl rfl rfl rfl rfl (behindFired_ne_waiting _)
      (by simp [hphase, RollbackPhase.isScript]) (by simp [hphase]) ?_
    intro g' hg'
    have hother : g' ≠ g := by
      rintro rfl
      exact hsettled.not_pending (.inr hg')
    simp [hother, hg']
  · rename_i hphase _
    cases hstep
    exact h.aside rfl rfl rfl rfl rfl (by simp) (by simp [hphase, RollbackPhase.isScript])
      (by simp [hphase]) fun g hg => ⟨hg, rfl⟩
  · cases hstep

theorem Due.fires (h : Due s) (hidle : s.rollbacks s.started = .idle) :
    Due ((s.setTimer g false).startRollback ⟨some g, false, false, .claim⟩) := by
  have hother : ∀ r, (s.rollbacks r).phase ≠ .ended →
      ((s.setTimer g false).startRollback ⟨some g, false, false, .claim⟩).rollbacks r =
        s.rollbacks r := by
    intro r hr
    refine Function.update_of_ne ?_ _ _
    rintro rfl
    simp [hidle, Rollback.idle] at hr
  have hrecord : ∀ g', (((s.setTimer g false).startRollback ⟨some g, false, false, .claim⟩).guards
      g').record = (s.guards g').record := by
    intro g'
    by_cases hsame : g' = g <;> simp [hsame]
  cases h with
  | @timer g' harms harmed htimer =>
    rw [← hrecord] at harmed
    by_cases hsame : g' = g
    · subst hsame
      exact .claim (r := s.started) harms harmed (by simp) (by simp)
    · exact .timer harms harmed (by simpa [hsame] using htimer)
  | @claim r g' harms harmed hguard hphase =>
    rw [← hrecord] at harmed
    have hsame := hother r (by simp [hphase])
    exact .claim harms harmed (hsame ▸ hguard) (hsame ▸ hphase)
  | @script r hscript hphase =>
    have hsame := hother r (by rintro hended; simp [hended, RollbackPhase.isScript] at hscript)
    exact .script (hsame ▸ hscript) (hsame ▸ hphase)
  | @waiting r hphase hunit =>
    have hsame := hother r (by simp [hphase])
    exact .waiting (hsame ▸ hphase) hunit

theorem Guarded.timerFires (h : Guarded o s) (hidle : s.rollbacks s.started = .idle)
    (hstep : timerFires s g = some s') : Guarded o s' := by
  unfold Transactions.timerFires at hstep
  split at hstep
  · cases hstep
    refine h.beside (.of_tree rfl rfl) (fun _ hc => hc) rfl rfl (fun hd => hd.fires hidle) ?_ ?_ ?_
    · rintro (⟨r, hr, hphase⟩ | hlost)
      · have hsame : r ≠ s.started := by
          rintro rfl
          simp [hidle, Rollback.idle, RollbackPhase.isScript] at hr
        refine .inl ⟨r, ?_⟩
        simpa [hsame] using ⟨hr, hphase⟩
      · exact .inr hlost
    · intro g' hg'
      by_cases hsame : g' = g
      · simpa [hsame] using hg'
      · simpa [hsame] using hg'
    · intro r hr
      by_cases hsame : r = s.started
      · simp [hsame] at hr
      · simpa [hsame] using hr
  · cases hstep

theorem Guarded.failureUnit (h : Guarded o s) (hidle : s.rollbacks s.started = .idle)
    (hstep : failureUnit s = some s') : Guarded o s' := by
  unfold Transactions.failureUnit at hstep
  split at hstep
  · cases hstep
    split
    · refine h.aside rfl rfl rfl rfl rfl (by simp) ?_ ?_ ?_
      · rw [hidle]
        rfl
      · simp [hidle, Rollback.idle]
      · exact fun g hg => ⟨hg, rfl⟩
    · exact h.around (.of_tree rfl rfl) rfl rfl rfl rfl (fun _ => id) fun _ => id
  · cases hstep

theorem Guarded.kill (h : Guarded o s) (r : Nat) : Guarded o (kill s r) := by
  cases hopen : (s.rollbacks r).phase.isOpen with
  | true =>
    refine h.rolls (.of_tree rfl rfl) rfl rfl (by simp) (.inr ?_)
    simp [Transactions.kill, hopen]
  | false =>
    simp only [RollbackPhase.isOpen, Bool.or_eq_false_iff, decide_eq_false_iff_not] at hopen
    refine h.aside rfl rfl rfl ?_ rfl (by simp) hopen.1.1 ?_ fun g hg => ⟨hg, rfl⟩
    · simp [Transactions.kill, RollbackPhase.isOpen, hopen]
    · intro g hphase
      exact absurd hphase hopen.2

theorem Guarded.step {event : Event}
    (h : Guarded o s) (hsingle : Single s₀ s) (hstep : step o compile s event = some s') :
    Guarded o s' := by
  cases event with
  | edit | touchPending =>
    cases hstep
    exact h.around (.of_tree rfl rfl) rfl rfl rfl rfl (fun _ => id) fun _ => id
  | start =>
    obtain ⟨-, hs'⟩ := Option.ite_none_right_eq_some.mp hstep
    cases hs'
    exact h.begin
  | stop =>
    obtain ⟨-, hs'⟩ := Option.ite_none_right_eq_some.mp hstep
    cases hs'
    exact h.drop hsingle.idle
  | crash =>
    obtain ⟨-, hs'⟩ := Option.ite_none_right_eq_some.mp hstep
    cases hs'
    exact (h.drop hsingle.idle).around (.of_tree rfl rfl) rfl rfl rfl rfl (fun _ => id) fun _ => id
  | advance =>
    obtain ⟨i, hi, hadvance⟩ := Option.bind_eq_some_iff.mp hstep
    exact h.advance hi hadvance
  | partly =>
    obtain ⟨i, hi, hpartly⟩ := Option.bind_eq_some_iff.mp hstep
    exact h.partly hi hpartly
  | main act =>
    obtain ⟨i, hi, hmain⟩ := Option.bind_eq_some_iff.mp hstep
    exact h.main hi hmain
  | arm live timerLive =>
    obtain ⟨i, -, harm⟩ := Option.bind_eq_some_iff.mp hstep
    exact h.arm harm
  | launched succeeds =>
    obtain ⟨i, hi, hlaunched⟩ := Option.bind_eq_some_iff.mp hstep
    exact h.launched hi hlaunched
  | cleanup unlinked =>
    obtain ⟨i, hi, hcleanup⟩ := Option.bind_eq_some_iff.mp hstep
    exact h.cleanup hi hcleanup
  | cancel live stopped timerLive after =>
    obtain ⟨i, hi, hcancel⟩ := Option.bind_eq_some_iff.mp hstep
    exact h.cancel hi hcancel
  | timerFires g => exact h.timerFires (hsingle.idle _ (Nat.le_refl _)) hstep
  | failureUnit => exact h.failureUnit (hsingle.idle _ (Nat.le_refl _)) hstep
  | readGuardFile r => exact h.readGuardFile hstep
  | claim r => exact h.claim hstep
  | stopUnit r works => exact h.stopUnit hsingle.idle hstep
  | stopTimers r stopped =>
    simp only [Transactions.step, stopTimers] at hstep
    split at hstep
    · cases hstep
      exact h.rolls (.of_tree rfl rfl) rfl rfl (by simp) (.inl rfl)
    · cases hstep
  | readFailed r =>
    simp only [Transactions.step, readFailed] at hstep
    split at hstep
    · cases hstep
      exact h.rolls (.of_tree rfl rfl) rfl rfl (by simp) (.inl rfl)
    · cases hstep
  | restore r =>
    simp only [Transactions.step, restore] at hstep
    split at hstep
    · split at hstep
      · cases hstep
      · cases hstep
        exact h.rolls (.of_tree rfl rfl) rfl rfl (by simp) (.inl rfl)
    · cases hstep
  | restorePartly r effects =>
    simp only [Transactions.step, restorePartly] at hstep
    split at hstep
    · split at hstep
      · cases hstep
      · cases hstep
        exact h.rolls (.of_tree rfl rfl) rfl rfl (by simp) (.inr rfl)
    · cases hstep
  | restart r => exact restarted_guarded hstep
  | skipped r =>
    simp only [Transactions.step, skipped] at hstep
    split at hstep
    · cases hstep
      exact (h.drop hsingle.idle).rolls (.of_tree rfl rfl) rfl rfl (by simp) (.inr rfl)
    · cases hstep
  | fail r exitCode =>
    simp only [Transactions.step, fail] at hstep
    split at hstep
    · cases hstep
      exact h.rolls (.of_tree rfl rfl) rfl rfl (by simp) (.inr rfl)
    · split at hstep
      · cases hstep
        exact h.rolls (.of_tree rfl rfl) rfl rfl (behindFired_ne_waiting _) (.inr rfl)
      · cases hstep
  | kill r =>
    cases hstep
    exact h.kill r
  | terminal r => exact h.terminal hsingle hstep
  | removeGuardFile r =>
    simp only [Transactions.step, Transactions.removeGuardFile] at hstep
    split at hstep
    · rename_i hphase
      cases hstep
      exact h.aside rfl rfl rfl rfl rfl (by simp) (by simp [hphase, RollbackPhase.isScript])
        (by simp [hphase]) fun g hg => ⟨hg, rfl⟩
    · cases hstep

theorem guarded_boot {world : Entry.World Doc} (hboot : world.tree.current = .absent) :
    Guarded o (boot world) := by
  refine ⟨.inl ⟨hboot, fun _ => rfl⟩, ?_, ?_⟩
  · rintro r ⟨⟩
  · rintro i ⟨⟩

/-- Until a rollback ends before it is done, each moment finds nothing published and touched, or
everything at the applied revision, or a rollback due. -/
theorem protected_of_reachable {compile : String → Except String (Entry.Compiled Doc)}
    {world : Entry.World Doc} (hboot : world.tree.current = .absent)
    (h : Reachable (fun s event s' ↦ step o compile s event = some s') (boot world) s) :
    Untouched s ∨ Complete o s ∨ Due s ∨ s.lost = true := by
  have hboth : Guarded o s ∧ Single (boot world) s := by
    apply h.invariant
    · exact ⟨guarded_boot hboot, single_boot world⟩
    · intro _ _ _ hinv hstep
      exact ⟨hinv.1.step hinv.2 hstep, hinv.2.step hstep⟩
  exact hboth.1.due

def demoMain : List Entry.Action :=
  [.bootstrap false, .recordDesired false, .allocate 1 false, .apply .none 2, .seal false] ++
    List.replicate 9 (.link .none) ++ [.prune none]

def demoPublished : List Event :=
  [.start, .advance, .advance, .advance, .arm Guard.idle Guard.idle, .launched true, .advance] ++
    demoMain.map .main ++ [.advance, .advance]

def demoHalf : List Event := demoPublished ++ [.partly, .crash]

theorem protected_of_reachable_demo : ∃ s : State String, s.unit = none ∧
    s.standing .nmstate = .between ∧ Due s := by
  have hrun : (demoHalf.foldlM (step demoOptions Entry.copying) (boot Entry.firstBoot)).map
      (fun s ↦ (s.unit, s.standing .nmstate, s.lost)) =
        some (none, .between, false) := by
    decide +kernel
  obtain ⟨s, hs, hstate⟩ := Option.map_eq_some_iff.mp hrun
  simp only [Prod.mk.injEq] at hstate
  obtain ⟨hunit, hstanding, hlost⟩ := hstate
  refine ⟨s, hunit, hstanding, ?_⟩
  obtain ⟨-, huntouched⟩ | ⟨c, -, -, hcomplete⟩ | hdue | hl :=
    protected_of_reachable rfl ⟨_, run_of_foldlM hs⟩
  · simp [huntouched] at hstanding
  · have hreached := hcomplete .nmstate (by decide)
    simp [hstanding] at hreached
  · exact hdue
  · simp [hlost] at hl

end NixNas.Transactions
