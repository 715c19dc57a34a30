import NixNas.Editor.Document

/-!
# Editors, the compiler, the rollback and the acknowledgement

Their critical sections interleave under the authority lock and hand over through the authority
text, the commits and the reconcile marker.  Every change of the file is followed by one touch of
the marker, at any later time.
-/

open Transition

namespace NixNas.Editor

open History (Commit)

structure HandoverState where
  history : History.State
  /-- Changes of the authority file that no touch has followed yet. -/
  touches : Nat
  /-- The commit of the last `acknowledge_pending` that found the authority current. -/
  acknowledged : Option Commit

def authorityData (s : History.State) : Option ByteArray := s.authority.map fun t ↦ encode t.toList

inductive HandoverOp (Digest Modes : Type) where
  | replaceDocument (yamlText : String) (expectedRevision : Option Digest)
  | setServiceModes (modes : Modes)
  | recordDesired
  /-- `apply` records the authority it compiles. -/
  | apply
  | markApplied (commit : Option Commit)
  | clearPreviousApplied
  | restoreApplied (failedCommit : Option Commit)
  | acknowledgePending (commit : Commit)
  /-- `nas-managed-services-dirty.service`. -/
  | touch

/-- The state after a section; a changed authority owes a touch. -/
def HandoverState.after (s : HandoverState) (history : History.State) : HandoverState :=
  { s with
    history
    touches := s.touches + if history.authority = s.history.authority then 0 else 1 }

variable {Digest Document Effective Modes : Type} [DecidableEq Digest]
  (p : Pipeline Digest Document Effective)
variable {h : History.State} {commit : Commit} {expected : Digest} {op : HandoverOp Digest Modes}

/-- `set_service_modes` under the lock; `editModes` loads, edits, renders and validates. -/
def setServiceModes (editModes : Modes → Text → Except (EditorError Digest) Text)
    (authority : Option ByteArray) (modes : Modes) : Except (EditorError Digest) Text :=
  readText authority >>= editModes modes

variable (editModes : Modes → Text → Except (EditorError Digest) Text)

/-- The state that a section leaves; one that raises has changed nothing. -/
def handover (s : HandoverState) : HandoverOp Digest Modes → HandoverState
  | .replaceDocument yamlText expectedRevision =>
    match replaceDocument p (authorityData s.history) yamlText.toList expectedRevision with
    | .ok _ => s.after { s.history with authority := some yamlText }
    | .error _ => s
  | .setServiceModes modes =>
    match setServiceModes editModes (authorityData s.history) modes with
    | .ok rendered => s.after { s.history with authority := some (String.ofList rendered) }
    | .error _ => s
  | .recordDesired => s.after (History.exec s.history .recordDesired)
  | .apply => s.after (History.exec s.history .recordDesired)
  | .markApplied commit => s.after (History.exec s.history (.markApplied commit))
  | .clearPreviousApplied => s.after (History.clearPreviousApplied s.history)
  | .restoreApplied failed => s.after (History.exec s.history (.restoreApplied failed))
  | .acknowledgePending commit =>
    match History.acknowledgePending s.history commit with
    | .ok (true, history) => { s with history, acknowledged := some commit }
    | _ => s
  | .touch => { s with history := { s.history with pending := true }, touches := s.touches - 1 }

def HandoverStep (s : HandoverState) (op : HandoverOp Digest Modes) (s' : HandoverState) : Prop :=
  s' = handover p editModes s op

/-- After the bootstrap; a file that is there is a change that no touch has followed. -/
def handoverInitial (authority : Option String) : HandoverState :=
  ⟨History.bootstrapped authority, if authority.isSome then 1 else 0, none⟩

/-! ## What must not happen to an edit -/

def IsCommitted (s : History.State) (commit : Commit) : Prop :=
  ∃ text, s.authority = some text ∧ s.textAt commit = some text

/-- What a section may do with the text it finds. -/
def KeepsEdits (s : HandoverState) (op : HandoverOp Digest Modes) (s' : HandoverState) : Prop :=
  match op with
  | .replaceDocument _ (some expected) => s'.history.authority ≠ s.history.authority →
      ∃ text, s.history.authority = some text ∧ revision p text.toList = expected
  | .restoreApplied (some failed) => s'.history.authority ≠ s.history.authority →
      IsCommitted s.history failed
  | .acknowledgePending commit => s.history.pending = true → s'.history.pending = false →
      IsCommitted s.history commit
  | _ => True

/-- Without a marker and an owed touch the authority has the text of the last acknowledged commit. -/
def Settled (s : HandoverState) : Prop :=
  s.history.pending = false → s.touches = 0 →
    s.history.authority = s.acknowledged.bind s.history.textAt

def ExactlyCompared (s : History.State) (commit : Commit) : Prop :=
  ∀ text committed, s.authority = some text → s.textAt commit = some committed →
    History.readText committed = History.readText text → committed = text

/-- The texts that the section compares can be compared after reading. -/
def PlainComparison (s : HandoverState) : HandoverOp Digest Modes → Prop
  | .replaceDocument _ (some _) => ∀ text, s.history.authority = some text → '\r' ∉ text.toList
  | .restoreApplied (some failed) => ExactlyCompared s.history failed
  | .acknowledgePending commit => ExactlyCompared s.history commit
  | _ => True

def PlainHandoverStep (s : HandoverState) (op : HandoverOp Digest Modes) (s' : HandoverState) :
    Prop :=
  HandoverStep p editModes s op s' ∧ PlainComparison s op

variable {p editModes} {s s' : HandoverState}

theorem isCommitted_of_matches (hmatches : History.authorityMatchesCommitLocked h commit = .ok true)
    (hexact : ExactlyCompared h commit) : IsCommitted h commit := by
  obtain ⟨committed, text, hcommitted, htext, hread⟩ := History.authorityMatches_iff.mp hmatches
  obtain rfl := hexact text committed htext hcommitted hread
  exact ⟨committed, htext, hcommitted⟩

theorem acknowledgePending_ok {h' : History.State}
    (hack : History.acknowledgePending h commit = .ok (true, h')) :
    History.authorityMatchesCommitLocked h commit = .ok true ∧ h' = { h with pending := false } := by
  unfold History.acknowledgePending at hack
  cases hmatches : History.authorityMatchesCommitLocked h commit with
  | error e =>
    rw [hmatches] at hack
    cases hack
  | ok current =>
    rw [hmatches] at hack
    cases current with
    | false => cases hack
    | true =>
      cases hack
      exact ⟨rfl, rfl⟩

theorem checkRevision_ok {authority : Option ByteArray}
    (h : checkRevision p authority (some expected) = .ok ()) :
    revisionForPath p authority = .ok expected := by
  obtain ⟨current, hcurrent, h⟩ := Fallible.bind_ok h
  split at h
  · rename_i heq
    rw [hcurrent, heq]
  · cases h

theorem revision_of_replaceDocument {text yamlText : Text}
    {result : Replaced Digest Effective × Option ByteArray}
    (h : replaceDocument p (some (encode text)) yamlText (some expected) = .ok result) :
    revision p (History.universalNewlines text) = expected := by
  obtain ⟨_, -, h⟩ := Fallible.bind_ok h
  obtain ⟨⟨⟩, hcheck, -⟩ := Fallible.bind_ok h
  have hcurrent := checkRevision_ok hcheck
  rw [show some (encode text) = atomicReplace text from rfl, revisionForPath_atomicReplace] at hcurrent
  exact Except.ok.inj hcurrent

theorem restoreApplied_authority {failed : Commit}
    (hchanged : (History.exec h (.restoreApplied (some failed))).authority ≠ h.authority) :
    History.authorityMatchesCommitLocked h failed = .ok true := by
  dsimp only [History.exec] at hchanged
  cases hrestore : History.restoreApplied h (some failed) with
  | error e =>
    rw [hrestore] at hchanged
    exact (hchanged rfl).elim
  | ok result =>
    obtain ⟨r, h'⟩ := result
    obtain ⟨-, rfl⟩ | ⟨-, _, _, _, -, hcurrent, -⟩ := History.restoreApplied_cases hrestore
    · rw [hrestore] at hchanged
      exact (hchanged rfl).elim
    · exact hcurrent

theorem keepsEdits_of_plain
    (hstep : PlainHandoverStep p editModes s op s') : KeepsEdits p s op s' := by
  obtain ⟨rfl, hplain⟩ := hstep
  cases op with
  | replaceDocument yamlText expectedRevision =>
    cases expectedRevision with
    | none => trivial
    | some expected =>
      intro hchanged
      dsimp only [handover] at hchanged
      split at hchanged
      · rename_i result hresult
        cases hauthority : s.history.authority with
        | none =>
          -- there is no revision to find
          rw [authorityData, hauthority] at hresult
          obtain ⟨_, -, hresult⟩ := Fallible.bind_ok hresult
          obtain ⟨_, hcheck, -⟩ := Fallible.bind_ok hresult
          cases hcheck
        | some text =>
          rw [authorityData, hauthority] at hresult
          refine ⟨text, rfl, ?_⟩
          rw [← revision_of_replaceDocument hresult,
            universalNewlines_of_notMem (hplain text hauthority)]
      · exact (hchanged rfl).elim
  | restoreApplied failed =>
    cases failed with
    | none => trivial
    | some failed =>
      intro hchanged
      exact isCommitted_of_matches (restoreApplied_authority hchanged) hplain
  | acknowledgePending commit =>
    intro hpending hcleared
    dsimp only [handover] at hcleared
    split at hcleared
    · rename_i history hack
      exact isCommitted_of_matches (acknowledgePending_ok hack).1 hplain
    · rw [hpending] at hcleared
      cases hcleared
  | setServiceModes => trivial
  | recordDesired => trivial
  | apply => trivial
  | markApplied => trivial
  | clearPreviousApplied => trivial
  | touch => trivial

/-! ## No marker means nothing is left to do -/

structure Consistent (s : HandoverState) : Prop where
  settled : Settled s
  known : ∀ c, s.acknowledged = some c → ∃ text, s.history.textAt c = some text

theorem consistent_initial (authority : Option String) : Consistent (handoverInitial authority) := by
  refine ⟨fun _ htouches => ?_, nofun⟩
  cases authority with
  | none => rfl
  | some text => cases htouches

/-- The committed texts stay, the marker is not removed, and a new text owes a touch. -/
theorem Consistent.after {history : History.State} {marked : Option Commit} (h : Consistent s)
    (heffect : History.Effect marked s.history history)
    (hpending : history.pending = s.history.pending) : Consistent (s.after history) := by
  have htexts {c : Commit} {text : String} (htext : s.history.textAt c = some text) :
      history.textAt c = some text :=
    (History.textAt_of_effect heffect (History.lt_of_textAt htext)).trans htext
  refine ⟨?_, ?_⟩
  · intro hnone htouches
    have hsame : history.authority = s.history.authority := by
      by_contra hne
      dsimp only [HandoverState.after] at htouches
      rw [if_neg hne] at htouches
      omega
    have hold : s.touches = 0 := by
      dsimp only [HandoverState.after] at htouches
      omega
    show history.authority = s.acknowledged.bind history.textAt
    rw [hsame, h.settled (hpending.symm.trans hnone) hold]
    cases hacknowledged : s.acknowledged with
    | none => rfl
    | some c =>
      obtain ⟨text, htext⟩ := h.known c hacknowledged
      show s.history.textAt c = history.textAt c
      rw [htext, htexts htext]
  · intro c hc
    obtain ⟨text, htext⟩ := h.known c hc
    exact ⟨text, htexts htext⟩

theorem pending_recordDesired (h : History.State) :
    (History.exec h .recordDesired).pending = h.pending := by
  dsimp only [History.exec]
  cases hrecord : History.recordDesiredLocked h with
  | error e => rfl
  | ok result =>
    unfold History.recordDesiredLocked at hrecord
    cases hauthority : h.authority with
    | none =>
      rw [hauthority] at hrecord
      cases hrecord
    | some text =>
      rw [hauthority] at hrecord
      cases hhead : h.head with
      | none =>
        rw [hhead] at hrecord
        cases hrecord
        rfl
      | some head =>
        rw [hhead] at hrecord
        dsimp only at hrecord
        split at hrecord
        · cases hrecord
          rfl
        · cases hrecord
          rfl

theorem pending_markApplied (h : History.State) (commit : Option Commit) :
    (History.exec h (.markApplied commit)).pending = h.pending := by
  dsimp only [History.exec]
  unfold History.markApplied
  cases commit <|> h.head with
  | none => rfl
  | some desired =>
    dsimp only
    cases h.textAt desired with
    | none => rfl
    | some text => rfl

theorem pending_restoreFrom (h : History.State) (applied target : Commit) (text : String) :
    (History.restoreFrom h applied target text).2.pending = h.pending := by
  unfold History.restoreFrom History.clearPreviousApplied
  dsimp only
  by_cases ht : target = applied
  · by_cases hchanged : h.headText = some text <;> simp [hchanged, ht, History.State.commit]
  · by_cases hchanged : h.headText = some text <;> simp [hchanged, ht, History.State.commit]

theorem pending_restoreApplied (h : History.State) (failed : Option Commit) :
    (History.exec h (.restoreApplied failed)).pending = h.pending := by
  dsimp only [History.exec]
  cases hrestore : History.restoreApplied h failed with
  | error e => rfl
  | ok result =>
    obtain ⟨r, h'⟩ := result
    obtain ⟨-, rfl⟩ | ⟨-, applied, target, text, -, -, -, -, -, rfl⟩ :=
      History.restoreApplied_cases hrestore
    · rfl
    · exact pending_restoreFrom h applied target text

theorem Consistent.step (h : Consistent s)
    (hstep : PlainHandoverStep p editModes s op s') : Consistent s' := by
  obtain ⟨rfl, hplain⟩ := hstep
  have hedit (text : String) : Consistent (s.after { s.history with authority := some text }) :=
    h.after (@History.effect_of_step _ _ (.edit (some text)) rfl) rfl
  cases op with
  | replaceDocument yamlText expectedRevision =>
    dsimp only [handover]
    split
    · exact hedit yamlText
    · exact h
  | setServiceModes modes =>
    dsimp only [handover]
    split
    · rename_i rendered _
      exact hedit (String.ofList rendered)
    · exact h
  | recordDesired =>
    exact h.after (History.effect_recordDesired s.history) (pending_recordDesired s.history)
  | apply => exact h.after (History.effect_recordDesired s.history) (pending_recordDesired s.history)
  | markApplied commit =>
    exact h.after (History.effect_markApplied s.history commit) (pending_markApplied s.history commit)
  | clearPreviousApplied =>
    exact h.after (@History.effect_of_step _ _ .clearPreviousApplied rfl) rfl
  | restoreApplied failed =>
    exact h.after (History.effect_restoreApplied s.history failed)
      (pending_restoreApplied s.history failed)
  | acknowledgePending commit =>
    dsimp only [handover]
    split
    · -- the commit that is acknowledged is the text that stands there
      rename_i history hack
      obtain ⟨hmatches, rfl⟩ := acknowledgePending_ok hack
      obtain ⟨text, hauthority, htext⟩ := isCommitted_of_matches hmatches hplain
      refine ⟨fun _ _ => hauthority.trans htext.symm, fun c hc => ?_⟩
      cases hc
      exact ⟨text, htext⟩
    · exact h
  | touch => exact ⟨nofun, h.known⟩

/-- In a run that compares no texts that differ in their line ends alone, no section overrides an
edit it has not seen, and without a marker and an owed touch the authority is acknowledged. -/
theorem noEditLost_of_plain (authority : Option String)
    (h : Reachable (PlainHandoverStep p editModes) (handoverInitial authority) s) :
    Settled s ∧ ∀ op s', PlainHandoverStep p editModes s op s' → KeepsEdits p s op s' :=
  ⟨(h.invariant (consistent_initial authority) fun _ _ _ hs => hs.step).settled,
    fun _ _ => keepsEdits_of_plain⟩

/-! ### An edit of the line ends during an apply -/

def noModes : Empty → Text → Except (EditorError String) Text := nofun

def plainString : String := "schemaVersion: 3\nservices: {}\n"

def carriageString : String := "schemaVersion: 3\r\nservices: {}\r\n"

/-- The state after the sections of a run, from a repository without an authority. -/
def handoverRun (ops : List (HandoverOp String Empty)) : HandoverState :=
  ops.foldl (handover emptyPipeline noModes) (handoverInitial none)

/-- The plain document is written, its touch follows, and it is compiled. -/
def appliedOps : List (HandoverOp String Empty) :=
  [.replaceDocument plainString none, .touch, .apply]

theorem reachable_applied :
    Reachable (PlainHandoverStep emptyPipeline noModes) (handoverInitial none)
      (handoverRun appliedOps) := by
  have h₀ : Reachable (PlainHandoverStep emptyPipeline noModes) (handoverInitial none)
      (handoverInitial none) := .refl _
  have h₁ := h₀.tail (a := HandoverOp.replaceDocument plainString none) ⟨rfl, trivial⟩
  have h₂ := h₁.tail (a := HandoverOp.touch) ⟨rfl, trivial⟩
  exact h₂.tail (a := HandoverOp.apply) ⟨rfl, trivial⟩

theorem noEditLost_of_plain_applied :
    Settled (handoverRun appliedOps) ∧ ∀ op s',
      PlainHandoverStep emptyPipeline noModes (handoverRun appliedOps) op s' →
        KeepsEdits emptyPipeline (handoverRun appliedOps) op s' :=
  noEditLost_of_plain none reachable_applied

/-- The line ends are edited behind the compiler; the acknowledgement of what was compiled removes
the marker of that edit. -/
theorem not_noEditLost_carriage :
    ¬ ∀ s, Reachable (HandoverStep emptyPipeline noModes) (handoverInitial none) s →
      Settled s ∧ ∀ op s', HandoverStep emptyPipeline noModes s op s' →
        KeepsEdits emptyPipeline s op s' := by
  intro h
  have hreach : Reachable (HandoverStep emptyPipeline noModes) (handoverInitial none)
      (handoverRun (appliedOps ++ [.replaceDocument carriageString none, .touch])) :=
    ⟨_, run_foldl (handover emptyPipeline noModes) _ _⟩
  obtain ⟨text, hauthority, hcommitted⟩ :=
    (h _ hreach).2 (.acknowledgePending 0) _ rfl rfl (by decide)
  have htext : text = carriageString := Option.some.inj (hauthority.symm.trans (by decide))
  have htext' : text = plainString := Option.some.inj (hcommitted.symm.trans (by decide))
  exact absurd (htext.symm.trans htext') (by decide)

end NixNas.Editor
