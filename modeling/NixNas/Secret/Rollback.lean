import NixNas.Secret.Transaction

/-!
# What an exit leaves of the secret trees

The flags of the transaction are set behind the moves that they record.  An exit between the two
is found by the cleanup with flags that do not know of the last move.
-/

open Script

namespace NixNas.Secret

variable {File : Type} [DecidableEq File] {setup : Setup File}

section Exit

variable (setup) (live staged prior : Option (SecretTree File))

structure Early (s : Transaction File) : Prop where
  started : s.swapStarted = false
  oldMoved : s.oldMoved = false
  newInstalled : s.newInstalled = false
  committed : s.committed = false
  root : s.root = live
  stage : s.stage = staged
  previous : s.previous = prior

/-- The swap has begun, with a staged tree that is ready. -/
structure Swapping (s : Transaction File) : Prop where
  started : s.swapStarted = true
  committed : s.committed = false
  ready : isReadyTree setup staged = true

structure Unmoved (s : Transaction File) : Prop extends Swapping setup staged s where
  oldMoved : s.oldMoved = false
  newInstalled : s.newInstalled = false
  root : s.root = live
  stage : s.stage = staged
  previous : s.previous = none

structure Moved (s : Transaction File) : Prop extends Swapping setup staged s where
  newInstalled : s.newInstalled = false
  root : s.root = none
  stage : s.stage = staged
  previous : s.previous = live
  isSome : live.isSome = true

structure Installed (s : Transaction File) : Prop extends Swapping setup staged s where
  root : s.root = staged
  stage : s.stage = none
  old : (s.oldMoved = true ∧ live.isSome = true ∧ s.previous = live) ∨
    (s.oldMoved = false ∧ s.previous = none ∧ (live = none ∨ live = some ∅))

structure Committed (s : Transaction File) : Prop where
  committed : s.committed = true
  ready : isReadyTree setup staged = true
  root : s.root = staged

/-- The states in which a script may exit. -/
inductive Left (s : Transaction File) : Prop where
  | early (h : Early live staged prior s)
  | unmoved (h : Unmoved setup live staged s)
  | moved (h : Moved setup live staged s)
  | installed (h : Installed setup live staged s)
  | committed (h : Committed setup staged s)

end Exit

variable {live staged prior : Option (SecretTree File)} {c : Command} {cs : List Command}
  {P M Q : Transaction File → Prop} {r : Reply File} {s : Transaction File}

theorem failsUnless_eq_zero {b : Bool} : failsUnless b = 0 ↔ b = true := by
  cases b <;> simp [failsUnless]

theorem exec_of_fails (hc : c ≠ .removePrevious ∧ c ≠ .removeDirectory)
    (h : status setup c r s ≠ 0) : exec setup c r s = s := by
  cases c with
  | moveOld =>
    unfold status failsUnless at h
    unfold exec
    cases hcond : s.condition with
    | false => rfl
    | true =>
      cases hok : r.ok with
      | false => rfl
      | true =>
        cases hmv : mv s.root s.previous with
        | none => rfl
        | some moved => simp [hcond, hok, hmv] at h
  | installNew =>
    unfold status failsUnless at h
    unfold exec
    cases hok : r.ok with
    | false => rfl
    | true =>
      cases hmv : mv s.stage s.root with
      | none => rfl
      | some moved => simp [hok, hmv] at h
  | removePrevious => exact absurd rfl hc.1
  | removeDirectory => exact absurd rfl hc.2
  | ask | askActive | recordActive | recordStarted | setPhase | stop | recordOldMoved
  | recordNewInstalled | recordCommitted => exact absurd rfl h
  | _ => rfl

theorem triple_step {E : Transaction File → Prop}
    (hc : c ≠ .removePrevious ∧ c ≠ .removeDirectory) (hP : ∀ s, P s → E s)
    (hnext : ∀ r s, P s → status setup c r s = 0 → M (exec setup c r s))
    (hrest : Triple (semantics setup) M cs Q fun _ => E) :
    Triple (semantics setup) P (c :: cs) Q fun _ => E := by
  refine .cons hP (fun r s hs hfails => ?_) hnext hrest
  have hsame : (semantics setup).exec c r s = s := exec_of_fails hc hfails
  rw [hsame]
  exact hP s hs

theorem mv_isSome {source target : Option (SecretTree File)} (h : (mv source target).isSome = true) :
    mv source target = some source ∧ source.isSome = true ∧ (target = none ∨ target = some ∅) := by
  unfold mv at h ⊢
  split at h
  · rename_i hcond
    rw [if_pos hcond]
    exact ⟨rfl, hcond⟩
  · cases h

theorem Early.exec (h : Early live staged prior s) (r : Reply File)
    (hc : c ∈ swapChecks) : Early live staged prior (exec setup c r s) := by
  cases c with
  | recordActive =>
    show Early live staged prior (if s.condition then { s with wasActive := true } else s)
    split
    · exact ⟨h.1, h.2, h.3, h.4, h.5, h.6, h.7⟩
    · exact h
  | require | ask | requireIf | askActive => exact ⟨h.1, h.2, h.3, h.4, h.5, h.6, h.7⟩
  | _ => simp [swapChecks] at hc

/-- An early state whose stage has passed its checks. -/
structure Checked (setup : Setup File) (live staged prior : Option (SecretTree File))
    (s : Transaction File) : Prop extends Early live staged prior s where
  ready : isReadyTree setup staged = true
  absent : prior = none

theorem require_holds {t : Test} (h : status setup (.require t) r s = 0) :
    t.holds setup s = true := by
  have hboth := failsUnless_eq_zero.mp h
  rw [Bool.and_eq_true] at hboth
  exact hboth.2

theorem triple_swapChecks :
    Triple (semantics setup) (Early live staged prior) swapChecks (Checked setup live staged prior)
      fun _ => Left setup live staged prior := by
  have hleft : ∀ s, Early live staged prior s → Left setup live staged prior s := fun _ => .early
  have hcheck : ∀ c ∈ swapChecks, c ≠ .removePrevious ∧ c ≠ .removeDirectory := by decide
  have hready : ∀ s, Early live staged prior s ∧ isReadyTree setup staged = true →
      Left setup live staged prior s := fun s h => .early h.1
  have hall : ∀ s, Checked setup live staged prior s → Left setup live staged prior s :=
    fun s h => .early h.toEarly
  -- the tests of the stage; the first two are repeated by the third
  refine triple_step (hcheck _ (by decide)) hleft (fun r s h _ => h.exec r (by decide)) ?_
  refine triple_step (hcheck _ (by decide)) hleft (fun r s h _ => h.exec r (by decide)) ?_
  refine triple_step (M := fun s => Early live staged prior s ∧ isReadyTree setup staged = true)
    (hcheck _ (by decide)) hleft (fun r s h hzero => ⟨h.exec r (by decide), ?_⟩) ?_
  · have hholds := require_holds hzero
    rwa [Test.holds, h.stage] at hholds
  refine triple_step (M := fun s => Early live staged prior s ∧ isReadyTree setup staged = true)
    (hcheck _ (by decide)) hready (fun r s h _ => ⟨h.1.exec r (by decide), h.2⟩) ?_
  refine triple_step (M := fun s => Early live staged prior s ∧ isReadyTree setup staged = true)
    (hcheck _ (by decide)) hready (fun r s h _ => ⟨h.1.exec r (by decide), h.2⟩) ?_
  refine triple_step (M := fun s => Early live staged prior s ∧ isReadyTree setup staged = true)
    (hcheck _ (by decide)) hready (fun r s h _ => ⟨h.1.exec r (by decide), h.2⟩) ?_
  refine triple_step (M := fun s => Early live staged prior s ∧ isReadyTree setup staged = true)
    (hcheck _ (by decide)) hready (fun r s h _ => ⟨h.1.exec r (by decide), h.2⟩) ?_
  refine triple_step (M := Checked setup live staged prior)
    (hcheck _ (by decide)) hready (fun r s h hzero => ⟨h.1.exec r (by decide), h.2, ?_⟩) ?_
  · have hholds := require_holds hzero
    rwa [Test.holds, h.1.previous, Option.isNone_iff_eq_none] at hholds
  refine triple_step (M := Checked setup live staged prior)
    (hcheck _ (by decide)) hall (fun r s h _ => ⟨h.toEarly.exec r (by decide), h.2, h.3⟩) ?_
  refine triple_step (M := Checked setup live staged prior)
    (hcheck _ (by decide)) hall (fun r s h _ => ⟨h.toEarly.exec r (by decide), h.2, h.3⟩) ?_
  exact .nil fun s h => h

/-- The swap over a tree that was not moved, or over one that was. -/
def Between (setup : Setup File) (live staged : Option (SecretTree File)) (s : Transaction File) :
    Prop :=
  Unmoved setup live staged s ∨ (Moved setup live staged s ∧ s.oldMoved = true)

omit [DecidableEq File] in
theorem Between.left (h : Between setup live staged s) : Left setup live staged prior s := by
  rcases h with hunmoved | ⟨hmoved, -⟩
  · exact .unmoved hunmoved
  · exact .moved hmoved

/-- The state behind the move of the old tree, before its flag is set. -/
def Aside (setup : Setup File) (live staged : Option (SecretTree File)) (s : Transaction File) : Prop :=
  (Unmoved setup live staged s ∧ s.condition = false) ∨
    (Moved setup live staged s ∧ s.condition = true)

theorem aside_of_moveOld (h : Unmoved setup live staged s ∧ (s.condition = true → live.isSome = true))
    (hzero : status setup .moveOld r s = 0) :
    Aside setup live staged (exec setup .moveOld r s) := by
  obtain ⟨hun, hlive⟩ := h
  have hstatus := failsUnless_eq_zero.mp hzero
  show Aside setup live staged (if s.condition && r.ok then _ else s)
  cases hcond : s.condition with
  | false => exact .inl ⟨hun, hcond⟩
  | true =>
    rw [hcond, Bool.not_true, Bool.false_or, Bool.and_eq_true] at hstatus
    obtain ⟨hmv, -, -⟩ := mv_isSome hstatus.2
    rw [hstatus.1, Bool.and_self, if_pos rfl, hmv]
    refine .inr ⟨⟨⟨hun.started, hun.committed, hun.ready⟩, hun.newInstalled, rfl, hun.stage, hun.root,
      hlive hcond⟩, rfl⟩

theorem between_of_record (h : Aside setup live staged s) :
    Between setup live staged (exec setup .recordOldMoved r s) := by
  show Between setup live staged (if s.condition then { s with oldMoved := true } else s)
  rcases h with ⟨hun, hcond⟩ | ⟨hmoved, hcond⟩
  · rw [hcond, if_neg Bool.false_ne_true]
    exact .inl hun
  · rw [hcond, if_pos rfl]
    exact .inr ⟨⟨⟨hmoved.started, hmoved.committed, hmoved.ready⟩, hmoved.newInstalled, hmoved.root,
      hmoved.stage, hmoved.previous, hmoved.isSome⟩, rfl⟩

theorem installed_of_installNew (h : Between setup live staged s)
    (hzero : status setup .installNew r s = 0) :
    Installed setup live staged (exec setup .installNew r s) := by
  have hstatus := failsUnless_eq_zero.mp hzero
  rw [Bool.and_eq_true] at hstatus
  obtain ⟨hmv, -, htarget⟩ := mv_isSome hstatus.2
  show Installed setup live staged (if r.ok then _ else s)
  rw [hstatus.1, if_pos rfl, hmv]
  rcases h with hun | ⟨hmoved, hflag⟩
  · rw [hun.root] at htarget
    exact ⟨⟨hun.started, hun.committed, hun.ready⟩, hun.stage, rfl,
      .inr ⟨hun.oldMoved, hun.previous, htarget⟩⟩
  · exact ⟨⟨hmoved.started, hmoved.committed, hmoved.ready⟩, hmoved.stage, rfl,
      .inl ⟨hflag, hmoved.isSome, hmoved.previous⟩⟩

theorem Installed.exec (h : Installed setup live staged s) (r : Reply File)
    (hc : c = .recordNewInstalled ∨ (∃ p, c = .setPhase p) ∨ (∃ t, c = .validate t) ∨ c = .other ∨
      c = .requireInstalled ∨ c = .requireUncommitted) :
    Installed setup live staged (exec setup c r s) := by
  rcases hc with rfl | ⟨p, rfl⟩ | ⟨t, rfl⟩ | rfl | rfl | rfl
  · exact ⟨⟨h.started, h.committed, h.ready⟩, h.root, h.stage, h.old⟩
  · exact ⟨⟨h.started, h.committed, h.ready⟩, h.root, h.stage, h.old⟩
  · exact h
  · exact h
  · exact h
  · exact h

theorem Unmoved.exec (h : Unmoved setup live staged s) (r : Reply File)
    (hc : (∃ p, c = .setPhase p) ∨ c = .stop ∨ c = .confirmStopped) :
    Unmoved setup live staged (exec setup c r s) := by
  rcases hc with ⟨p, rfl⟩ | rfl | rfl
  · exact ⟨⟨h.started, h.committed, h.ready⟩, h.oldMoved, h.newInstalled, h.root, h.stage, h.previous⟩
  · exact ⟨⟨h.started, h.committed, h.ready⟩, h.oldMoved, h.newInstalled, h.root, h.stage, h.previous⟩
  · exact h

omit [DecidableEq File] in
theorem Moved.setPhase (h : Moved setup live staged s) (p : Phase) :
    Moved setup live staged { s with phase := p } :=
  ⟨⟨h.started, h.committed, h.ready⟩, h.newInstalled, h.root, h.stage, h.previous, h.isSome⟩

theorem triple_moves :
    Triple (semantics setup) (Between setup live staged)
      [.setPhase .oldMoved, .installNew, .recordNewInstalled, .setPhase .newInstalled,
        .validate .rootIsDirectory, .validate .isNoLink, .validate .rootIsReady, .validate .isNoLink]
      (Installed setup live staged) fun _ => Left setup live staged prior := by
  have hleft : ∀ s, Between setup live staged s → Left setup live staged prior s :=
    fun _ => Between.left
  have hnew : ∀ s, Installed setup live staged s → Left setup live staged prior s := fun _ => .installed
  refine triple_step (M := Between setup live staged) (by decide) hleft (fun r s h _ => ?_) ?_
  · rcases h with hun | ⟨hmoved, hflag⟩
    · exact .inl (hun.exec r (.inl ⟨_, rfl⟩))
    · exact .inr ⟨hmoved.setPhase _, hflag⟩
  refine triple_step (by decide) hleft (fun r s h hzero => installed_of_installNew h hzero) ?_
  refine triple_step (by decide) hnew (fun r s h _ => h.exec r (by simp)) ?_
  refine triple_step (by decide) hnew (fun r s h _ => h.exec r (by simp)) ?_
  refine triple_step (by decide) hnew (fun r s h _ => h.exec r (by simp)) ?_
  refine triple_step (by decide) hnew (fun r s h _ => h.exec r (by simp)) ?_
  refine triple_step (by decide) hnew (fun r s h _ => h.exec r (by simp)) ?_
  refine triple_step (by decide) hnew (fun r s h _ => h.exec r (by simp)) ?_
  exact .nil fun s h => h

theorem triple_swapMoves :
    Triple (semantics setup) (Checked setup live staged prior) swapMoves (Installed setup live staged)
      fun _ => Left setup live staged prior := by
  have hun : ∀ s, Unmoved setup live staged s → Left setup live staged prior s := fun _ => .unmoved
  refine triple_step (M := Unmoved setup live staged) (by decide) (fun s h => .early h.toEarly)
    (fun r s h _ => ?_) ?_
  · exact ⟨⟨rfl, h.committed, h.ready⟩, h.oldMoved, h.newInstalled, h.root, h.stage,
      h.previous.trans h.absent⟩
  refine triple_step (by decide) hun (fun r s h _ => h.exec r (by simp)) ?_
  refine triple_step (by decide) hun (fun r s h _ => h.exec r (by simp)) ?_
  refine triple_step (by decide) hun (fun r s h _ => h.exec r (by simp)) ?_
  refine triple_step (by decide) hun (fun r s h _ => h.exec r (by simp)) ?_
  -- the condition of the move is that there is a live tree
  refine triple_step (M := fun s => Unmoved setup live staged s ∧ (s.condition = true → live.isSome = true))
    (by decide) hun (fun r s h _ => ⟨?_, fun hcond => ?_⟩) ?_
  · exact ⟨⟨h.started, h.committed, h.ready⟩, h.oldMoved, h.newInstalled, h.root, h.stage, h.previous⟩
  · have hboth : (r.ok && s.root.isSome) = true := hcond
    rw [Bool.and_eq_true, h.root] at hboth
    exact hboth.2
  refine triple_step (by decide) (fun s h => .unmoved h.1)
    (fun r s h hzero => aside_of_moveOld h hzero) ?_
  refine triple_step (by decide) (fun s h => ?_) (fun r s h _ => between_of_record h) triple_moves
  rcases h with ⟨hunmoved, -⟩ | ⟨hmoved, -⟩
  · exact .unmoved hunmoved
  · exact .moved hmoved

theorem Committed.exec (h : Committed setup staged s) (r : Reply File)
    (hc : (∃ p, c = .setPhase p) ∨ c = .removePrevious ∨ c = .removeDirectory) :
    Committed setup staged (exec setup c r s) := by
  rcases hc with ⟨p, rfl⟩ | rfl | rfl
  · exact ⟨h.committed, h.ready, h.root⟩
  · exact ⟨h.committed, h.ready, h.root⟩
  · show Committed setup staged { removeDirectory setup r s with phase := _ }
    unfold removeDirectory
    split
    · exact ⟨h.committed, h.ready, h.root⟩
    · exact ⟨h.committed, h.ready, h.root⟩

theorem triple_commit :
    Triple (semantics setup) (Installed setup live staged) commit (Committed setup staged)
      fun _ => Left setup live staged prior := by
  have hnew : ∀ s, Installed setup live staged s → Left setup live staged prior s := fun _ => .installed
  refine triple_step (by decide) hnew (fun r s h _ => h.exec r (by simp)) ?_
  refine triple_step (by decide) hnew (fun r s h _ => h.exec r (by simp)) ?_
  refine triple_step (M := Committed setup staged) (by decide) hnew
    (fun r s h _ => ⟨rfl, h.ready, h.root⟩) ?_
  -- whatever the removals leave, the new tree is the live one
  refine .keep (fun c hc r s h => h.exec r ?_) fun _ _ _ s h => .committed h
  simp only [List.mem_cons, List.not_mem_nil, or_false] at hc
  rcases hc with rfl | rfl | rfl | rfl <;> simp

theorem triple_others (others : ℕ) :
    Triple (semantics setup) (Installed setup live staged) (List.replicate others .other)
      (Installed setup live staged) fun _ => Left setup live staged prior := by
  refine .keep (fun c hc r s h => h.exec r ?_) fun _ _ _ s h => .installed h
  rw [List.eq_of_mem_replicate hc]
  simp

theorem left_exitState (setup : Setup File) (live staged prior : Option (SecretTree File)) (active : Bool)
    (others signal : ℕ) (replies : List (Reply File)) :
    Left setup live staged prior
      (exitState setup others signal replies (init live staged prior active)) := by
  have hscript : Triple (semantics setup) (Early live staged prior) (script others)
      (Committed setup staged) fun _ => Left setup live staged prior :=
    triple_swapChecks.append (triple_swapMoves.append ((triple_others others).append triple_commit))
  have hrun := hscript signal replies (init live staged prior active) ⟨rfl, rfl, rfl, rfl, rfl, rfl, rfl⟩
  unfold exitState
  cases hexit : run (semantics setup) signal (script others) replies (init live staged prior active) with
  | stopped stop =>
    rw [hexit] at hrun
    exact hrun
  | finished s =>
    rw [hexit] at hrun
    exact .committed hrun

end NixNas.Secret
