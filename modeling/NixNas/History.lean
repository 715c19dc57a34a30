import NixNas.Lib.Transition

/-!
# The desired-state history (`services/nas_v2_history.py`)

The repository is the list of committed authority texts and the three refs that the module moves.
Git's index is left out: every operation that compares it with `HEAD` has just overwritten it, with
`git add` or with `git restore --staged`.
-/

open Transition

namespace NixNas.History

/-- A revision is its position in the commit log, so a new commit is always a new revision; further
numbers are object names that the repository does not have.  `git rev-parse --verify` takes every
full object name as it stands, so `_rev_parse` of a revision is the revision. -/
abbrev Commit := Nat

def bootstrapBaseline : String := "schemaVersion: 3\nservices: {}\n"

structure State where
  /-- The authority text committed at each revision. -/
  commits : List String
  /-- `DESIRED_REF`, which `HEAD` names. -/
  head : Option Commit
  /-- `APPLIED_REF`. -/
  applied : Option Commit
  /-- `PREVIOUS_APPLIED_REF`. -/
  previousApplied : Option Commit
  /-- The authority file, `none` while it is missing. -/
  authority : Option String
  /-- The level-triggered reconcile marker. -/
  pending : Bool
  deriving DecidableEq, Repr

inductive HistoryError where
  | desiredWithoutApplied
  | unreadable (commit : Commit)
  | authorityMissing
  | nothingToMark
  | noApplied
  | noPreviousTarget
  /-- `_git` raises for the command. -/
  | commandFailed (command : String) (commit : Commit)
  deriving DecidableEq, Repr

/-- The text up to where Git's own begins. -/
def HistoryError.message : HistoryError → String
  | .desiredWithoutApplied => "history has desired revisions but no applied revision; " ++
      "refusing to invent a first-boot rollback target"
  | .unreadable commit => "unable to read committed authority " ++ toString commit
  | .authorityMissing => "desired-state authority is missing: /var/lib/nas-control/services.yaml"
  | .nothingToMark => "cannot mark applied state before desired state has been committed"
  | .noApplied => "no last-applied desired-state revision exists"
  | .commandFailed _ _ => "command failed (128): git"
  | .noPreviousTarget =>
      "applied revision matches the failed transaction but no previous rollback target exists"

def State.fresh (authority : Option String) : State :=
  { commits := [], head := none, applied := none, previousApplied := none, authority,
    pending := false }

def State.textAt (s : State) (c : Commit) : Option String := s.commits[c]?

/-- Text-mode reading: `\r\n` and `\r` are read as `\n`. -/
def universalNewlines : List Char → List Char
  | '\r' :: '\n' :: cs => '\n' :: universalNewlines cs
  | '\r' :: cs => '\n' :: universalNewlines cs
  | c :: cs => c :: universalNewlines cs
  | [] => []

def readText (text : String) : String := String.ofList (universalNewlines text.toList)

/-- `git commit` of one authority text on top of `HEAD`. -/
def State.commit (s : State) (text : String) : State :=
  { s with commits := s.commits ++ [text], head := some s.commits.length }

/-- The text committed at `HEAD`. -/
def State.headText (s : State) : Option String := s.head.bind s.textAt

/-- `_bootstrap_baseline_locked`: the applied revision and whether it was created here. -/
def bootstrapBaselineLocked (s : State) : Except HistoryError (Commit × Bool × State) :=
  match s.applied with
  | some applied => .ok (applied, false, s)
  | none =>
    match s.head with
    | some _ => .error .desiredWithoutApplied
    | none =>
      let s' := s.commit bootstrapBaseline
      .ok (s.commits.length, true, { s' with applied := some s.commits.length })

def authorityMatchesCommitLocked (s : State) (commit : Commit) : Except HistoryError Bool :=
  match s.authority, s.textAt commit with
  | none, _ => .ok false
  | some _, none => .error (.unreadable commit)
  | some current, some text => .ok (readText text == readText current)

/-- `_is_bootstrap_revision_locked`: the check is on the committed text. -/
def isBootstrapRevisionLocked (s : State) (commit : Commit) : Bool :=
  (s.textAt commit).map readText == some bootstrapBaseline

/-- `record_desired_locked`: the head and whether a commit was needed. -/
def recordDesiredLocked (s : State) : Except HistoryError (Commit × Bool × State) :=
  match s.authority with
  | none => .error .authorityMissing
  | some text =>
    match s.head with
    | some head =>
      if s.textAt head = some text then .ok (head, false, s)
      else .ok (s.commits.length, true, s.commit text)
    | none => .ok (s.commits.length, true, s.commit text)

/-- The first `update-ref` of `mark_applied`. -/
def keepApplied (s : State) : State := { s with previousApplied := s.applied }

/-- `mark_applied`: the applied revision and the one it replaced, and the state it leaves.  Only the
second `update-ref` refuses an object that the repository does not have. -/
def markApplied (s : State) (commit : Option Commit) :
    Except HistoryError (Commit × Option Commit) × State :=
  match commit <|> s.head with
  | none => (.error .nothingToMark, s)
  | some desired =>
    match s.textAt desired with
    | none => (.error (.commandFailed "update-ref" desired), keepApplied s)
    | some _ => (.ok (desired, s.applied), { keepApplied s with applied := some desired })

def clearPreviousApplied (s : State) : State := { s with previousApplied := none }

/-- `acknowledge_pending`: whether the authority still was the acknowledged revision. -/
def acknowledgePending (s : State) (commit : Commit) : Except HistoryError (Bool × State) :=
  match authorityMatchesCommitLocked s commit with
  | .error e => .error e
  | .ok current => .ok (current, if current then { s with pending := false } else s)

structure RestoreResult where
  changed : Bool
  superseded : Bool
  failedCommit : Option Commit
  restoredFrom : Option Commit
  head : Option Commit
  deriving DecidableEq, Repr

/-- The revision `restore_applied` goes back to. -/
def rollbackTarget (s : State) (applied : Commit) (failedCommit : Option Commit) :
    Except HistoryError Commit :=
  if failedCommit = some applied then
    match s.previousApplied with
    | some previous => .ok previous
    | none => if isBootstrapRevisionLocked s applied then .ok applied else .error .noPreviousTarget
  else .ok applied

/-- `git restore --source=target --staged --worktree`, the commit that follows when the index
differs from `HEAD`, and the refs. -/
def restoreFrom (s : State) (applied target : Commit) (text : String) : Bool × State :=
  let changed := s.headText != some text
  let s₁ := { s with authority := some text }
  let s₂ := if changed then s₁.commit text else s₁
  (changed, clearPreviousApplied (if target ≠ applied then { s₂ with applied := some target }
    else s₂))

/-- Whether the authority still is the failed revision; without one there is nothing to compare. -/
def failedStillCurrent (s : State) : Option Commit → Except HistoryError Bool
  | none => .ok true
  | some failed => authorityMatchesCommitLocked s failed

def restoreApplied (s : State) (failedCommit : Option Commit) :
    Except HistoryError (RestoreResult × State) :=
  match s.applied with
  | none => .error .noApplied
  | some applied =>
    match failedStillCurrent s failedCommit with
    | .error e => .error e
    | .ok false => .ok (⟨false, true, failedCommit, none, s.head⟩, s)
    | .ok true =>
      match rollbackTarget s applied failedCommit with
      | .error e => .error e
      | .ok target =>
        match s.textAt target with
        | none => .error (.commandFailed "restore" target)
        | some text =>
          let (changed, s') := restoreFrom s applied target text
          .ok (⟨changed, false, failedCommit, some target, s'.head⟩, s')

/-! ## Runs of the history operations -/

inductive Op where
  | edit (authority : Option String)
  | touchPending
  | recordDesired
  | markApplied (commit : Option Commit)
  | clearPreviousApplied
  | acknowledgePending (commit : Commit)
  | restoreApplied (failedCommit : Option Commit)

/-- The state one operation leaves; but for `mark_applied`, one that raises has changed nothing. -/
def exec (s : State) : Op → State
  | .edit authority => { s with authority }
  | .touchPending => { s with pending := true }
  | .recordDesired => ((recordDesiredLocked s).toOption.map (·.2.2)).getD s
  | .markApplied commit => (markApplied s commit).2
  | .clearPreviousApplied => clearPreviousApplied s
  | .acknowledgePending commit => ((acknowledgePending s commit).toOption.map (·.2)).getD s
  | .restoreApplied failed => ((restoreApplied s failed).toOption.map (·.2)).getD s

def Step (s : State) (op : Op) (s' : State) : Prop := s' = exec s op

/-- `ensure_bootstrap_applied` on a repository nothing was committed to. -/
def bootstrapped (authority : Option String) : State :=
  { State.fresh authority with
    commits := [bootstrapBaseline], head := some 0, applied := some 0 }

def baseline : Commit := 0

/-! ## What a single operation does -/

variable {s s' : State} {c f : Commit} {op : Op}

theorem textAt_of_lt (hc : c < s.commits.length) : ∃ text, s.textAt c = some text :=
  ⟨_, List.getElem?_eq_getElem hc⟩

theorem lt_of_textAt {text : String} (h : s.textAt c = some text) : c < s.commits.length :=
  (List.getElem?_eq_some_iff.mp h).1

theorem authorityMatches_iff :
    authorityMatchesCommitLocked s c = .ok true ↔
      ∃ text current, s.textAt c = some text ∧ s.authority = some current ∧
        readText text = readText current := by
  unfold authorityMatchesCommitLocked
  cases s.authority with
  | none => simp
  | some current =>
    cases s.textAt c with
    | none => simp
    | some text => simp

theorem recordDesiredLocked_spec {head : Commit} {changed : Bool}
    (h : recordDesiredLocked s = .ok (head, changed, s')) :
    ∃ text, s.authority = some text ∧ s'.authority = some text ∧ s'.textAt head = some text := by
  unfold recordDesiredLocked at h
  cases hauthority : s.authority with
  | none =>
    rw [hauthority] at h
    cases h
  | some text =>
    have hcommit : (s.commit text).textAt s.commits.length = some text := by
      simp [State.commit, State.textAt]
    rw [hauthority] at h
    dsimp only at h
    split at h
    · rename_i current _
      by_cases htext : s.textAt current = some text
      · rw [if_pos htext] at h
        cases h
        exact ⟨text, rfl, hauthority, htext⟩
      · rw [if_neg htext] at h
        cases h
        exact ⟨text, rfl, hauthority, hcommit⟩
    · cases h
      exact ⟨text, rfl, hauthority, hcommit⟩

/-- The refs and the text after going back to `target`. -/
theorem restoreFrom_spec (s : State) {applied : Commit} (target : Commit) (text : String)
    (happlied : s.applied = some applied) :
    let s' := (restoreFrom s applied target text).2
    s'.authority = some text ∧ s'.applied = some target ∧ s'.previousApplied = none ∧
      (s'.commits = s.commits ∧ s'.head = s.head ∨
        s'.commits = s.commits ++ [text] ∧ s'.head = some s.commits.length) := by
  unfold restoreFrom clearPreviousApplied
  dsimp only
  by_cases ht : target = applied
  · subst ht
    by_cases hchanged : s.headText = some text <;> simp [hchanged, State.commit, happlied]
  · by_cases hchanged : s.headText = some text <;> simp [hchanged, ht, State.commit]

theorem restoreApplied_cases {failed : Option Commit} {r : RestoreResult}
    (h : restoreApplied s failed = .ok (r, s')) :
    r.superseded = true ∧ s' = s ∨
    r.superseded = false ∧ ∃ applied target text, s.applied = some applied ∧
      failedStillCurrent s failed = .ok true ∧
      rollbackTarget s applied failed = .ok target ∧ s.textAt target = some text ∧
      r.restoredFrom = some target ∧ s' = (restoreFrom s applied target text).2 := by
  unfold restoreApplied at h
  split at h
  · cases h
  · rename_i applied happlied
    split at h
    · cases h
    · cases h
      exact .inl ⟨rfl, rfl⟩
    · rename_i hcurrent
      split at h
      · cases h
      · rename_i target htarget
        split at h
        · cases h
        · rename_i text htext
          cases h
          exact .inr ⟨rfl, applied, target, text, happlied, hcurrent, htarget, htext, rfl, rfl⟩

theorem rollbackTarget_cases {applied target : Commit} {failed : Option Commit}
    (h : rollbackTarget s applied failed = .ok target) :
    target = applied ∧ failed ≠ some applied ∨
    failed = some applied ∧ s.previousApplied = some target ∨
    failed = some applied ∧ s.previousApplied = none ∧ target = applied ∧
      isBootstrapRevisionLocked s applied = true := by
  unfold rollbackTarget at h
  by_cases hfailed : failed = some applied
  · rw [if_pos hfailed] at h
    cases hprevious : s.previousApplied with
    | some previous =>
      rw [hprevious] at h
      cases h
      exact .inr (.inl ⟨hfailed, rfl⟩)
    | none =>
      rw [hprevious] at h
      by_cases hboot : isBootstrapRevisionLocked s applied = true
      · simp only [hboot, if_true, Except.ok.injEq] at h
        exact .inr (.inr ⟨hfailed, rfl, h.symm, hboot⟩)
      · simp [hboot] at h
  · rw [if_neg hfailed] at h
    cases h
    exact .inl ⟨rfl, hfailed⟩

def Op.marked (s : State) : Op → Option Commit
  | .markApplied commit => commit <|> s.head
  | _ => none

/-- What one operation does to the log and to the two applied refs. -/
inductive Effect (marked : Option Commit) (s s' : State) : Prop where
  | keep (hcommits : s'.commits = s.commits) (hhead : s'.head = s.head)
      (happlied : s'.applied = s.applied)
      (hprevious : s'.previousApplied = s.previousApplied ∨ s'.previousApplied = none)
  | record (text : String) (hcommits : s'.commits = s.commits ++ [text])
      (hhead : s'.head = some s.commits.length) (happlied : s'.applied = s.applied)
      (hprevious : s'.previousApplied = s.previousApplied)
  | refuse (c : Commit) (hmarked : marked = some c) (hunknown : s.textAt c = none)
      (hcommits : s'.commits = s.commits) (hhead : s'.head = s.head)
      (happlied : s'.applied = s.applied) (hprevious : s'.previousApplied = s.applied)
  | mark (c : Commit) (hmarked : marked = some c) (hlt : c < s.commits.length)
      (hcommits : s'.commits = s.commits) (hhead : s'.head = s.head)
      (happlied : s'.applied = some c) (hprevious : s'.previousApplied = s.applied)
  | restore (target : Commit) (text : String) (htext : s.textAt target = some text)
      (htarget : s.applied = some target ∨ s.previousApplied = some target)
      (hcommits : s'.commits = s.commits ∧ s'.head = s.head ∨
        s'.commits = s.commits ++ [text] ∧ s'.head = some s.commits.length)
      (happlied : s'.applied = some target) (hprevious : s'.previousApplied = none)

theorem Effect.rfl' (marked : Option Commit) (s : State) : Effect marked s s :=
  .keep rfl rfl rfl (.inl rfl)

theorem effect_recordDesired (s : State) : Effect none s (exec s .recordDesired) := by
  dsimp only [exec]
  unfold recordDesiredLocked
  cases s.authority with
  | none => exact .rfl' _ s
  | some text =>
    cases hhead : s.head with
    | none => exact .record text rfl rfl rfl rfl
    | some head =>
      dsimp only
      by_cases htext : s.textAt head = some text
      · rw [if_pos htext]
        exact .rfl' _ s
      · rw [if_neg htext]
        exact .record text rfl rfl rfl rfl

theorem effect_markApplied (s : State) (commit : Option Commit) :
    Effect (commit <|> s.head) s (exec s (.markApplied commit)) := by
  dsimp only [exec]
  unfold markApplied
  cases commit <|> s.head with
  | none => exact .rfl' _ s
  | some desired =>
    dsimp only
    cases htext : s.textAt desired with
    | none => exact .refuse desired rfl htext rfl rfl rfl rfl
    | some text => exact .mark desired rfl (lt_of_textAt htext) rfl rfl rfl rfl

theorem effect_acknowledgePending (s : State) (commit : Commit) :
    Effect none s (exec s (.acknowledgePending commit)) := by
  dsimp only [exec]
  unfold acknowledgePending
  cases authorityMatchesCommitLocked s commit with
  | error e => exact .rfl' _ s
  | ok current => cases current <;> exact .keep rfl rfl rfl (.inl rfl)

theorem effect_restoreApplied (s : State) (failed : Option Commit) :
    Effect none s (exec s (.restoreApplied failed)) := by
  dsimp only [exec]
  cases hrestore : restoreApplied s failed with
  | error e => exact .rfl' _ s
  | ok result =>
    obtain ⟨r, s'⟩ := result
    obtain ⟨-, rfl⟩ | ⟨-, applied, target, text, happlied, -, htarget, htext, -, rfl⟩ :=
      restoreApplied_cases hrestore
    · exact .rfl' _ s'
    · obtain ⟨-, hto, hprevious, hcommits⟩ := restoreFrom_spec s target text happlied
      refine .restore target text htext ?_ hcommits hto hprevious
      obtain ⟨rfl, -⟩ | ⟨-, hfrom⟩ | ⟨-, -, rfl, -⟩ := rollbackTarget_cases htarget
      · exact .inl happlied
      · exact .inr hfrom
      · exact .inl happlied

theorem effect_of_step (hstep : Step s op s') : Effect (op.marked s) s s' := by
  subst hstep
  cases op with
  | edit authority => exact .keep rfl rfl rfl (.inl rfl)
  | touchPending => exact .keep rfl rfl rfl (.inl rfl)
  | recordDesired => exact effect_recordDesired s
  | markApplied commit => exact effect_markApplied s commit
  | clearPreviousApplied => exact .keep rfl rfl rfl (.inr rfl)
  | acknowledgePending commit => exact effect_acknowledgePending s commit
  | restoreApplied failed => exact effect_restoreApplied s failed

/-! ## Invariants of every run -/

/-- The revisions the refs name are in the log, and the applied ref exists. -/
structure WellFormed (s : State) : Prop where
  head : ∀ c, s.head = some c → c < s.commits.length
  applied : ∃ c, s.applied = some c ∧ c < s.commits.length
  previousApplied : ∀ c, s.previousApplied = some c → c < s.commits.length

theorem wellFormed_bootstrapped (authority : Option String) :
    WellFormed (bootstrapped authority) := by
  refine ⟨?_, ⟨0, rfl, Nat.zero_lt_one⟩, ?_⟩
  · intro c hc
    cases hc
    exact Nat.zero_lt_one
  · intro c hc
    cases hc

theorem WellFormed.effect {marked : Option Commit} (h : WellFormed s)
    (heffect : Effect marked s s') :
    WellFormed s' := by
  obtain ⟨c, hc, hlt⟩ := h.applied
  cases heffect with
  | keep hcommits hhead happlied hprevious =>
    refine ⟨?_, ⟨c, happlied ▸ hc, hcommits ▸ hlt⟩, ?_⟩
    · rw [hcommits, hhead]
      exact h.head
    · rw [hcommits]
      intro p hp
      obtain hkept | hcleared := hprevious
      · exact h.previousApplied p (hkept ▸ hp)
      · rw [hcleared] at hp
        cases hp
  | record text hcommits hhead happlied hprevious =>
    have hlength : s'.commits.length = s.commits.length + 1 := by simp [hcommits]
    refine ⟨?_, ⟨c, happlied ▸ hc, hlength ▸ Nat.lt_succ_of_lt hlt⟩, ?_⟩
    · intro p hp
      rw [hhead] at hp
      cases hp
      exact hlength ▸ Nat.lt_succ_self _
    · intro p hp
      exact hlength ▸ Nat.lt_succ_of_lt (h.previousApplied p (hprevious ▸ hp))
  | refuse _ _ _ hcommits hhead happlied hprevious =>
    refine ⟨?_, ⟨c, happlied ▸ hc, hcommits ▸ hlt⟩, ?_⟩
    · rw [hcommits, hhead]
      exact h.head
    · intro p hp
      rw [hprevious, hc] at hp
      cases hp
      exact hcommits ▸ hlt
  | mark c' _ hlt' hcommits hhead happlied hprevious =>
    refine ⟨?_, ⟨c', happlied, hcommits ▸ hlt'⟩, ?_⟩
    · rw [hcommits, hhead]
      exact h.head
    · intro p hp
      rw [hprevious, hc] at hp
      cases hp
      exact hcommits ▸ hlt
  | restore target text htext htarget hcommits happlied hprevious =>
    have hlength : s.commits.length ≤ s'.commits.length := by
      obtain ⟨hsame, -⟩ | ⟨hgrown, -⟩ := hcommits
      · exact hsame ▸ Nat.le_refl _
      · simp [hgrown]
    refine ⟨?_, ⟨target, happlied, Nat.lt_of_lt_of_le (lt_of_textAt htext) hlength⟩, ?_⟩
    · intro p hp
      obtain ⟨-, hhead⟩ | ⟨hgrown, hhead⟩ := hcommits
      · exact Nat.lt_of_lt_of_le (h.head p (hhead ▸ hp)) hlength
      · rw [hhead] at hp
        cases hp
        simp [hgrown]
    · intro p hp
      rw [hprevious] at hp
      cases hp

theorem wellFormed_of_reachable {authority : Option String}
    (h : Reachable Step (bootstrapped authority) s) : WellFormed s :=
  h.invariant (wellFormed_bootstrapped authority) fun _ _ _ hs hstep =>
    hs.effect (effect_of_step hstep)

theorem textAt_of_effect {marked : Option Commit} (heffect : Effect marked s s')
    (hc : c < s.commits.length) : s'.textAt c = s.textAt c := by
  have happend (text : String) (hcommits : s'.commits = s.commits ++ [text]) :
      s'.textAt c = s.textAt c := by
    unfold State.textAt
    rw [hcommits]
    exact List.getElem?_append_left hc
  cases heffect with
  | keep hcommits => simp only [State.textAt, hcommits]
  | record text hcommits => exact happend text hcommits
  | refuse _ _ _ hcommits => simp only [State.textAt, hcommits]
  | mark _ _ _ hcommits => simp only [State.textAt, hcommits]
  | restore _ text _ _ hcommits =>
    obtain ⟨hcommits, -⟩ | ⟨hcommits, -⟩ := hcommits
    · simp only [State.textAt, hcommits]
    · exact happend text hcommits

/-! ## A failed revision and its rollback target -/

/-- The restored target differs from `f`, its text is in place and `f` is no longer applied. -/
def Reverts (f : Commit) (r : RestoreResult) (s' : State) : Prop :=
  ∃ target text, r.restoredFrom = some target ∧ target ≠ f ∧ s'.textAt target = some text ∧
    s'.authority = some text ∧ s'.applied ≠ some f

/-- Every restore of the failed revision `f` that goes through reverts it. -/
def RestoreReverts (s : State) (f : Commit) : Prop :=
  ∀ r s', restoreApplied s (some f) = .ok (r, s') → r.superseded = false → Reverts f r s'

/-- The applied revision `f` still is the authority, and its only way back is itself: a mark behind its
own has kept it as the previous one, or nothing precedes it and its text is the baseline's. -/
def SelfTarget (s : State) (f : Commit) : Prop :=
  authorityMatchesCommitLocked s f = .ok true ∧ s.applied = some f ∧
    (s.previousApplied = some f ∨
      s.previousApplied = none ∧ isBootstrapRevisionLocked s f = true)

theorem restoreReverts_of_not_selfTarget (h : ¬ SelfTarget s f) : RestoreReverts s f := by
  intro r s' hrestore hr
  obtain ⟨htrue, -⟩ | ⟨-, applied, target, text, happlied, hcurrent, htarget, htext, hfrom, rfl⟩ :=
    restoreApplied_cases hrestore
  · rw [htrue] at hr
    cases hr
  have hne : target ≠ f := by
    rintro rfl
    apply h
    obtain ⟨rfl, hfailed⟩ | ⟨hfailed, hprevious⟩ | ⟨hfailed, hprevious, rfl, hboot⟩ :=
      rollbackTarget_cases htarget
    · exact absurd rfl hfailed
    · cases hfailed
      exact ⟨hcurrent, happlied, .inl hprevious⟩
    · exact ⟨hcurrent, happlied, .inr ⟨hprevious, hboot⟩⟩
  obtain ⟨hauthority, hto, -, hcommits⟩ := restoreFrom_spec s target text happlied
  refine ⟨target, text, hfrom, hne, ?_, hauthority, ?_⟩
  · unfold State.textAt
    obtain ⟨hsame, -⟩ | ⟨hgrown, -⟩ := hcommits
    · rw [hsame]
      exact htext
    · rw [hgrown]
      exact (List.getElem?_append_left (lt_of_textAt htext)).trans htext
  · rw [hto]
    exact fun heq => hne (Option.some.inj heq)

theorem restoreApplied_of_selfTarget (hwf : WellFormed s) (h : SelfTarget s f) :
    ∃ r s', restoreApplied s (some f) = .ok (r, s') ∧ r.superseded = false ∧
      r.restoredFrom = some f := by
  obtain ⟨hcurrent, happlied, hback⟩ := h
  obtain ⟨c, hc, hlt⟩ := hwf.applied
  rw [happlied] at hc
  cases hc
  obtain ⟨text, htext⟩ := textAt_of_lt hlt
  have htarget : rollbackTarget s f (some f) = .ok f := by
    unfold rollbackTarget
    rw [if_pos rfl]
    obtain hprevious | ⟨hprevious, hboot⟩ := hback
    · rw [hprevious]
    · rw [hprevious, hboot]
      rfl
  unfold restoreApplied failedStillCurrent
  simp only [happlied, hcurrent, htarget, htext]
  exact ⟨_, _, rfl, rfl, rfl⟩

theorem restoreReverts_iff (hwf : WellFormed s) : RestoreReverts s f ↔ ¬ SelfTarget s f := by
  refine ⟨fun hreverts hself => ?_, restoreReverts_of_not_selfTarget⟩
  obtain ⟨r, s', hrestore, hr, hfrom⟩ := restoreApplied_of_selfTarget hwf hself
  obtain ⟨target, text, htarget, hne, -⟩ := hreverts r s' hrestore hr
  rw [hfrom] at htarget
  exact hne (Option.some.inj htarget).symm

/-- A step that marks no unknown revision, and neither the revision that is applied already nor one
with the baseline's text; the baseline itself may be marked at any time. -/
def CarefulStep (s : State) (op : Op) (s' : State) : Prop :=
  Step s op s' ∧ ∀ c, op.marked s = some c → c < s.commits.length ∧
    (c ≠ baseline → s.applied ≠ some c ∧ isBootstrapRevisionLocked s c = false)

/-- The applied refs are apart and neither names a revision with the baseline's text, the baseline
excepted. -/
structure Apart (s : State) : Prop where
  wellFormed : WellFormed s
  distinct : ∀ c, c ≠ baseline → s.applied = some c → s.previousApplied ≠ some c
  applied : ∀ c, c ≠ baseline → s.applied = some c → isBootstrapRevisionLocked s c = false
  previousApplied : ∀ c, c ≠ baseline → s.previousApplied = some c →
    isBootstrapRevisionLocked s c = false

theorem apart_bootstrapped (authority : Option String) : Apart (bootstrapped authority) := by
  refine ⟨wellFormed_bootstrapped authority, ?_, ?_, ?_⟩
  · intro c _ _ hprevious
    cases hprevious
  · intro c hc happlied
    cases happlied
    exact absurd rfl hc
  · intro c _ hprevious
    cases hprevious

theorem Apart.step (h : Apart s) (hstep : CarefulStep s op s') : Apart s' := by
  obtain ⟨hstep, hcareful⟩ := hstep
  have heffect := effect_of_step hstep
  have happlied_lt : ∀ c, s.applied = some c → c < s.commits.length := by
    intro c hc
    obtain ⟨c', hc', hlt⟩ := h.wellFormed.applied
    exact Option.some.inj (hc'.symm.trans hc) ▸ hlt
  have hboot : ∀ c, c < s.commits.length → isBootstrapRevisionLocked s c = false →
      isBootstrapRevisionLocked s' c = false := by
    intro c hc hs
    unfold isBootstrapRevisionLocked at *
    rw [textAt_of_effect heffect hc]
    exact hs
  have hknown : ∀ c, op.marked s = some c → s.textAt c ≠ none := by
    intro c hmarked hnone
    obtain ⟨text, htext⟩ := textAt_of_lt (hcareful c hmarked).1
    rw [hnone] at htext
    cases htext
  -- only a mark brings a revision forward, and a careful one is known, new and not the baseline
  refine ⟨h.wellFormed.effect heffect, ?_, ?_, ?_⟩
  · intro c hc ha hp
    cases heffect with
    | keep _ _ happlied hprevious =>
      obtain hkept | hcleared := hprevious
      · exact h.distinct c hc (happlied ▸ ha) (hkept ▸ hp)
      · rw [hcleared] at hp
        cases hp
    | record _ _ _ happlied hprevious => exact h.distinct c hc (happlied ▸ ha) (hprevious ▸ hp)
    | refuse m hmarked hunknown => exact absurd hunknown (hknown m hmarked)
    | mark m hmarked _ _ _ happlied hprevious =>
      rw [happlied] at ha
      cases ha
      exact ((hcareful _ hmarked).2 hc).1 (hprevious ▸ hp)
    | restore _ _ _ _ _ _ hprevious =>
      rw [hprevious] at hp
      cases hp
  · intro c hc ha
    cases heffect with
    | keep _ _ happlied =>
      exact hboot c (happlied_lt c (happlied ▸ ha)) (h.applied c hc (happlied ▸ ha))
    | record _ _ _ happlied =>
      exact hboot c (happlied_lt c (happlied ▸ ha)) (h.applied c hc (happlied ▸ ha))
    | refuse m hmarked hunknown => exact absurd hunknown (hknown m hmarked)
    | mark m hmarked hlt _ _ happlied =>
      rw [happlied] at ha
      cases ha
      exact hboot _ hlt ((hcareful _ hmarked).2 hc).2
    | restore target _ htext htarget _ happlied =>
      rw [happlied] at ha
      cases ha
      refine hboot _ (lt_of_textAt htext) ?_
      obtain hfrom | hfrom := htarget
      · exact h.applied _ hc hfrom
      · exact h.previousApplied _ hc hfrom
  · intro c hc hp
    cases heffect with
    | keep _ _ _ hprevious =>
      obtain hkept | hcleared := hprevious
      · exact hboot c (h.wellFormed.previousApplied c (hkept ▸ hp))
          (h.previousApplied c hc (hkept ▸ hp))
      · rw [hcleared] at hp
        cases hp
    | record _ _ _ _ hprevious =>
      exact hboot c (h.wellFormed.previousApplied c (hprevious ▸ hp))
        (h.previousApplied c hc (hprevious ▸ hp))
    | refuse m hmarked hunknown => exact absurd hunknown (hknown m hmarked)
    | mark _ _ _ _ _ _ hprevious =>
      exact hboot c (happlied_lt c (hprevious ▸ hp)) (h.applied c hc (hprevious ▸ hp))
    | restore _ _ _ _ _ _ hprevious =>
      rw [hprevious] at hp
      cases hp

theorem Apart.not_selfTarget (h : Apart s) (hf : f ≠ baseline) : ¬ SelfTarget s f := by
  rintro ⟨-, happlied, hprevious | ⟨-, hboot⟩⟩
  · exact h.distinct f hf happlied hprevious
  · rw [h.applied f hf happlied] at hboot
    cases hboot

/-- In every reachable state a restore reverts the failed revision exactly when that revision is
not its own target, and it never is in a run that only marks carefully. -/
theorem restoreApplied_reverts (authority : Option String) (s : State) (f : Commit)
    (hf : f ≠ baseline) :
    (Reachable Step (bootstrapped authority) s → (RestoreReverts s f ↔ ¬ SelfTarget s f)) ∧
      (Reachable CarefulStep (bootstrapped authority) s → RestoreReverts s f) := by
  refine ⟨fun h => restoreReverts_iff (wellFormed_of_reachable h), fun h => ?_⟩
  have hapart : Apart s := h.invariant (apart_bootstrapped authority) fun _ _ _ hs => hs.step
  exact restoreReverts_of_not_selfTarget (hapart.not_selfTarget hf)

def markedOnce : State :=
  [.edit (some "a"), .recordDesired, .markApplied (some 1)].foldl exec (bootstrapped none)

def markedTwice : State := exec markedOnce (.markApplied (some 1))

theorem restoreApplied_reverts_markedOnce :
    RestoreReverts markedOnce 1 ∧ ∃ r s', restoreApplied markedOnce (some 1) = .ok (r, s') ∧
      r.superseded = false ∧ r.restoredFrom = some baseline :=
  ⟨((restoreApplied_reverts none markedOnce 1 (by decide)).1 ⟨_, run_foldl exec _ _⟩).2 (by
    rintro ⟨-, -, h | ⟨h, -⟩⟩
    · exact absurd h (by decide)
    · cases h), _, _, rfl, rfl, rfl⟩

/-- Marking the applied revision again makes it its own rollback target. -/
theorem not_restoreReverts_markedTwice :
    ¬ ∀ (authority : Option String) (s : State) (f : Commit), f ≠ baseline →
      Reachable Step (bootstrapped authority) s → RestoreReverts s f := by
  intro h
  have hreach : Reachable Step (bootstrapped none) markedTwice :=
    Reachable.tail ⟨_, run_foldl exec _ _⟩ (a := .markApplied (some 1)) rfl
  obtain ⟨target, text, htarget, hne, -⟩ :=
    h none markedTwice 1 (by decide) hreach _ _ rfl rfl
  cases htarget
  exact hne rfl

end NixNas.History
