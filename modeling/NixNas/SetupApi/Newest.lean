import NixNas.SetupApi.Machine

/-!
# Only the newest capability counts

However polls, requests, the worker and kills interleave, there is never more than one capability
that is accepted: the one that was handed out last, for the job or the completed plan that it was
handed out for, and only until it is revoked or grows old.
-/

open Transition

namespace NixNas.SetupApi

variable {Token Digest JobId : Type} {sha256 : Token → Digest} {s s' : State Token Digest JobId}
variable {post : Post Token JobId} {record : Record JobId} {event : Event Token JobId} {now : Time}
  {setup : Setup} {jobs : JobId → Option JobStatus}

def State.Bare (s : State Token Digest JobId) : Prop := ∀ digest, s.records digest = none

/-- A record is the one of the capability that was handed out last. -/
structure Newest (sha256 : Token → Digest) (s : State Token Digest JobId) (digest : Digest)
    (record : Record JobId) (i : Issue Token JobId) : Prop where
  last : s.issued.head? = some i
  digest : digest = sha256 i.token
  scope : record.scope = i.scope
  issuedAt : record.issuedAt = i.moment
  used : record.lastUsedAt ∈ i.moment :: s.uses
  kept : s.revoked = false

def Shown (sha256 : Token → Digest) (s : State Token Digest JobId) (token : Option Token)
    (scopes : Scope JobId → Prop) : Prop :=
  ∃ i t, s.issued.head? = some i ∧ token = some t ∧ sha256 t = sha256 i.token ∧ scopes i.scope ∧
    s.revoked = false

theorem Shown.mono {token : Option Token} {scopes scopes' : Scope JobId → Prop}
    (h : Shown sha256 s token scopes) (hissued : s'.issued = s.issued)
    (hrevoked : s'.revoked = s.revoked) (hle : ∀ scope, scopes scope → scopes' scope) :
    Shown sha256 s' token scopes' := by
  obtain ⟨i, t, hlast, htoken, hdigest, hscope, hkept⟩ := h
  exact ⟨i, t, hissued ▸ hlast, htoken, hdigest, hle _ hscope, hrevoked ▸ hkept⟩

/-- What is known while a request is handled. -/
def Holds (sha256 : Token → Digest) (s : State Token Digest JobId) : Post Token JobId → Prop
  | .recordActive _ | .clearCompleted _ | .clearRebooted => s.Bare
  | .issueJob jobId => s.Bare ∧ s.active = some jobId
  | .issueCompleted _ => s.Bare ∧ s.active = none
  | .resumeStatus | .resumeCompleted _ => s.active = none
  | .resumeJob jobId | .resumeWorker jobId | .resumeStorage jobId | .revokeJob jobId =>
    s.active = some jobId
  | .rebootCompleted token => Shown sha256 s token fun scope ↦ scope.isCompleted = true
  | .rebootJob token jobId | .rebootStatus token jobId =>
    Shown sha256 s token (· = .jobPollReboot jobId)
  | .command token => Shown sha256 s token fun _ ↦ True
  | _ => True

structure Kept (sha256 : Token → Digest) (s : State Token Digest JobId) : Prop where
  newest : ∀ digest record, s.records digest = some record → ∃ i, Newest sha256 s digest record i
  active : ∀ jobId, s.active = some jobId → ∀ digest record, s.records digest = some record →
    record.scope = .jobPollReboot jobId

structure Inv (sha256 : Token → Digest) (s : State Token Digest JobId) : Prop extends
    Kept sha256 s where
  post : ∀ post, s.post = some post → Holds sha256 s post

theorem Holds.congr (h : Holds sha256 s post) (hbare : s.Bare → s'.Bare)
    (hactive : s'.active = s.active) (hissued : s'.issued = s.issued)
    (hrevoked : s'.revoked = s.revoked) : Holds sha256 s' post := by
  cases post
  all_goals simp only [Holds, Shown, hactive, hissued, hrevoked] at h ⊢
  all_goals first | exact h | exact hbare h | exact ⟨hbare h.1, h.2⟩

theorem Kept.congr (h : Kept sha256 s) (hrecords : s'.records = s.records)
    (hissued : s'.issued = s.issued) (hrevoked : s'.revoked = s.revoked) (huses : s'.uses = s.uses)
    (hactive : ∀ jobId, s'.active = some jobId → s.active = some jobId) : Kept sha256 s' := by
  refine ⟨?_, ?_⟩
  · intro digest record hrecord
    obtain ⟨i, hi⟩ := h.newest digest record (hrecords ▸ hrecord)
    exact ⟨i, hissued ▸ hi.last, hi.digest, hi.scope, hi.issuedAt, huses ▸ hi.used, hrevoked ▸ hi.kept⟩
  · intro jobId hjob digest record hrecord
    exact h.active jobId (hactive jobId hjob) digest record (hrecords ▸ hrecord)

theorem State.Bare.kept (h : s.Bare) : Kept sha256 s :=
  ⟨fun digest _ hrecord => absurd hrecord (by simp [h digest]),
    fun _ _ digest _ hrecord => absurd hrecord (by simp [h digest])⟩

theorem Inv.congr (h : Inv sha256 s) (hrecords : s'.records = s.records)
    (hactive : s'.active = s.active) (hpost : s'.post = s.post) (hissued : s'.issued = s.issued)
    (hrevoked : s'.revoked = s.revoked) (huses : s'.uses = s.uses) : Inv sha256 s' := by
  refine ⟨h.toKept.congr hrecords hissued hrevoked huses fun jobId hjob => hactive ▸ hjob, ?_⟩
  intro post hp
  apply (h.post post (hpost ▸ hp)).congr _ hactive hissued hrevoked
  unfold State.Bare
  rw [hrecords]
  exact id

theorem Kept.goto (h : Kept sha256 s) (hholds : Holds sha256 s post) :
    Inv sha256 (s.goto post) := by
  refine ⟨h.congr rfl rfl rfl rfl fun _ => id, ?_⟩
  intro post' hpost
  cases hpost
  exact hholds.congr id rfl rfl rfl

theorem Kept.done (h : Kept sha256 s) : Inv sha256 s.done :=
  ⟨h.congr rfl rfl rfl rfl fun _ => id, fun _ hpost => (by cases hpost)⟩

/-! ## The requests -/

section Requests

variable [DecidableEq JobId]

theorem Kept.revokeJob (h : Kept sha256 s) (jobId : JobId) : Kept sha256 (s.revokeJob jobId) := by
  have hold : ∀ d record, (s.revokeJob jobId).records d = some record →
      s.records d = some record ∧ record.scope ≠ .jobPollReboot jobId := by
    intro d record hrecord
    simpa [State.revokeJob] using hrecord
  refine ⟨?_, ?_⟩
  · intro d record hrecord
    obtain ⟨hrecord, hother⟩ := hold d record hrecord
    obtain ⟨i, hi⟩ := h.newest d record hrecord
    refine ⟨i, hi.last, hi.digest, hi.scope, hi.issuedAt, hi.used, ?_⟩
    have hscope : i.scope ≠ .jobPollReboot jobId := hi.scope ▸ hother
    simp [State.revokeJob, hi.kept, hi.last, hscope]
  · intro jobId' hjob d record hrecord
    exact h.active jobId' hjob d record (hold d record hrecord).1

theorem Kept.bare_revokeJob (h : Kept sha256 s) {jobId : JobId} (hactive : s.active = some jobId) :
    (s.revokeJob jobId).Bare := by
  intro d
  cases hrecord : s.records d with
  | none => simp [State.revokeJob, hrecord]
  | some record =>
    have hscope := h.active jobId hactive d record hrecord
    simp [State.revokeJob, hrecord, hscope]

theorem Inv.proceed (h : Inv sha256 s) (hpost : s.post = some post)
    (hstep : proceed s post = some s') : Inv sha256 s' := by
  have hholds := h.post post hpost
  have hkept := h.toKept
  have hbare : s.revokeAll.Bare := fun _ => rfl
  unfold SetupApi.proceed at hstep
  split at hstep
  · split at hstep
    · cases hstep
      exact hkept.goto trivial
    · split at hstep
      · cases hstep
        exact hkept.done
      · cases hstep
        split <;> exact hkept.goto trivial
  · cases hstep
    exact hbare.kept.goto hbare
  · rename_i jobId
    cases hstep
    have hset : State.Bare { s with active := some jobId } := hholds
    exact hset.kept.goto ⟨hset, rfl⟩
  · cases hstep
    exact hbare.kept.goto hbare
  · cases hstep
    have hset : State.Bare { s with active := none } := hholds
    exact hset.kept.goto ⟨hset, rfl⟩
  · split at hstep
    · rename_i hnone
      cases hstep
      exact hkept.goto hnone
    · rename_i hsome
      cases hstep
      exact hkept.goto hsome
  · cases hstep
    exact hbare.kept.goto ⟨hbare, hholds⟩
  · split at hstep
    · cases hstep
      exact hkept.goto trivial
    · cases hstep
      split <;> exact hkept.goto hholds
  · cases hstep
    have hset : Kept sha256 { s with active := none } :=
      hkept.congr rfl rfl rfl rfl fun _ hjob => (by cases hjob)
    exact hset.goto trivial
  · cases hstep
    exact (hkept.revokeJob _).done
  · cases hstep
    exact (hkept.revokeJob _).goto ⟨hkept.bare_revokeJob hholds, hholds⟩
  · cases hstep
    split
    · have hshown : Shown sha256 s _ fun scope ↦ scope.isCompleted = true := hholds
      have hany : Shown sha256 s _ fun _ ↦ True := hshown.mono rfl rfl fun _ _ => trivial
      exact hkept.goto hany
    · exact hkept.done
  · cases hstep
    split
    · exact hkept.goto hholds
    · exact hkept.done
  · cases hstep
    split
    · rename_i jobId _
      have hshown : Shown sha256 s _ (· = .jobPollReboot jobId) := hholds
      have hany : Shown sha256 s _ fun _ ↦ True := hshown.mono rfl rfl fun _ _ => trivial
      exact hkept.goto hany
    · exact hkept.done
  · cases hstep
    exact hbare.kept.goto hbare
  · cases hstep
    have hset : Kept sha256 { s with active := none } :=
      hkept.congr rfl rfl rfl rfl fun _ hjob => (by cases hjob)
    exact hset.done
  · cases hstep

omit [DecidableEq JobId] in
theorem Inv.asked (h : Inv sha256 s) (hpost : s.post = some post)
    (hstep : (∃ active, answered s active post = some s') ∨
      (∃ result, started s result post = some s') ∨
      (∃ complete, resumeStatus s complete post = some s') ∨
      ∃ succeeds, systemctl s succeeds post = some s') : Inv sha256 s' := by
  have hholds := h.post post hpost
  have hkept := h.toKept
  obtain ⟨active, hstep⟩ | ⟨result, hstep⟩ | ⟨complete, hstep⟩ | ⟨succeeds, hstep⟩ := hstep
  · unfold answered at hstep
    split at hstep
    all_goals
      cases hstep
      try split
      all_goals first | exact hkept.done | exact hkept.goto hholds
  · unfold started at hstep
    split at hstep
    · cases result with
      | raised =>
        cases hstep
        exact hkept.done
      | submitted | complete =>
        cases hstep
        exact hkept.goto trivial
    · cases hstep
  · unfold resumeStatus at hstep
    split at hstep
    · cases complete with
      | none =>
        cases hstep
        exact hkept.done
      | some status =>
        cases hstep
        exact hkept.goto hholds
    · cases hstep
  · unfold systemctl at hstep
    split at hstep
    · cases hstep
      split
      · exact hkept.goto trivial
      · exact hkept.done
    · cases hstep

end Requests

/-! ## A look at a capability -/

variable [DecidableEq Digest] {scopes : Scope JobId → Bool}
  {token : Option Token} {moment : Time} {written : Bool}

theorem lookup_some (h : (lookup sha256 s scopes token moment written).2 = some record) :
    ∃ t old, token = some t ∧ s.records (sha256 t) = some old ∧ scopes old.scope = true ∧
      old.isExpired moment = false ∧ s.supports old.scope = true ∧
      record = { old with lastUsedAt := moment } ∧
      (lookup sha256 s scopes token moment written).1 = { s with
        records := Function.update s.records (sha256 t) (some record)
        uses := moment :: s.uses } := by
  unfold lookup at h ⊢
  cases token with
  | none => cases h
  | some t =>
    dsimp only at h ⊢
    cases hrecord : s.records (sha256 t) with
    | none => simp [hrecord] at h
    | some old =>
      simp only [hrecord] at h ⊢
      split at h
      · cases h
      · split at h
        · cases h
        · split at h
          · cases h
          · split at h
            · cases h
            · cases h
              simp_all

theorem lookup_none (h : (lookup sha256 s scopes token moment written).2 = none) :
    (lookup sha256 s scopes token moment written).1 = s ∨
      ∃ digest, (lookup sha256 s scopes token moment written).1 = s.unlink digest := by
  unfold lookup at h ⊢
  split
  · exact .inl rfl
  · dsimp only
    split
    · exact .inl rfl
    · split
      · exact .inl rfl
      · split
        · exact .inr ⟨_, rfl⟩
        · split
          · exact .inr ⟨_, rfl⟩
          · split
            · exact .inl rfl
            · simp_all

theorem Kept.unlink (h : Kept sha256 s) (digest : Digest) : Kept sha256 (s.unlink digest) := by
  have hold : ∀ d record, (s.unlink digest).records d = some record → s.records d = some record := by
    intro d record hrecord
    simp only [State.unlink, Function.update_apply] at hrecord
    split at hrecord
    · cases hrecord
    · exact hrecord
  refine ⟨?_, fun jobId hjob d record hrecord => h.active jobId hjob d record (hold d record hrecord)⟩
  intro d record hrecord
  obtain ⟨i, hi⟩ := h.newest d record (hold d record hrecord)
  exact ⟨i, hi.last, hi.digest, hi.scope, hi.issuedAt, hi.used, hi.kept⟩

theorem Kept.use (h : Kept sha256 s) {digest : Digest} {old : Record JobId}
    (hrecord : s.records digest = some old) (moment : Time) :
    Kept sha256 { s with
      records := Function.update s.records digest (some { old with lastUsedAt := moment })
      uses := moment :: s.uses } := by
  refine ⟨?_, ?_⟩
  · intro d record hd
    simp only [Function.update_apply] at hd
    split at hd
    · rename_i hsame
      cases hd
      obtain ⟨i, hi⟩ := h.newest digest old hrecord
      exact ⟨i, hi.last, hsame ▸ hi.digest, hi.scope, hi.issuedAt, by simp, hi.kept⟩
    · obtain ⟨i, hi⟩ := h.newest d record hd
      refine ⟨i, hi.last, hi.digest, hi.scope, hi.issuedAt, ?_, hi.kept⟩
      rcases List.mem_cons.mp hi.used with hfirst | hlater
      · exact List.mem_cons.mpr (.inl hfirst)
      · exact List.mem_cons_of_mem _ (List.mem_cons_of_mem _ hlater)
  · intro jobId hjob d record hd
    simp only [Function.update_apply] at hd
    split at hd
    · cases hd
      exact h.active jobId hjob digest old hrecord
    · exact h.active jobId hjob d record hd

/-- A look changes the records and the uses, and nothing else. -/
structure SameRequest (s s' : State Token Digest JobId) : Prop where
  active : s'.active = s.active
  post : s'.post = s.post
  issued : s'.issued = s.issued
  revoked : s'.revoked = s.revoked
  bare : s.Bare → s'.Bare

theorem sameRequest_lookup (s : State Token Digest JobId) (scopes : Scope JobId → Bool)
    (token : Option Token) (moment : Time) (written : Bool) :
    SameRequest s (lookup sha256 s scopes token moment written).1 := by
  cases hlookup : (lookup sha256 s scopes token moment written).2 with
  | none =>
    obtain hsame | ⟨digest, hunlink⟩ := lookup_none hlookup
    · rw [hsame]
      exact ⟨rfl, rfl, rfl, rfl, id⟩
    · rw [hunlink]
      refine ⟨rfl, rfl, rfl, rfl, ?_⟩
      intro hbare d
      simp only [State.unlink, Function.update_apply, hbare d, ite_self]
  | some record =>
    obtain ⟨t, old, -, hold, -, -, -, -, hused⟩ := lookup_some hlookup
    rw [hused]
    refine ⟨rfl, rfl, rfl, rfl, ?_⟩
    intro hbare
    rw [hbare] at hold
    cases hold

theorem Kept.lookup (h : Kept sha256 s) (scopes : Scope JobId → Bool) (token : Option Token)
    (moment : Time) (written : Bool) :
    Kept sha256 (lookup sha256 s scopes token moment written).1 := by
  cases hlookup : (SetupApi.lookup sha256 s scopes token moment written).2 with
  | none =>
    obtain hsame | ⟨digest, hunlink⟩ := lookup_none hlookup
    · rw [hsame]
      exact h
    · rw [hunlink]
      exact h.unlink digest
  | some record =>
    obtain ⟨t, old, -, hold, -, -, -, rfl, hused⟩ := lookup_some hlookup
    rw [hused]
    exact h.use hold moment

theorem Inv.lookup (h : Inv sha256 s) (scopes : Scope JobId → Bool) (token : Option Token)
    (moment : Time) (written : Bool) :
    Inv sha256 (lookup sha256 s scopes token moment written).1 := by
  have hsame : SameRequest s (SetupApi.lookup sha256 s scopes token moment written).1 :=
    sameRequest_lookup ..
  refine ⟨h.toKept.lookup scopes token moment written, ?_⟩
  intro post hpost
  exact (h.post post (hsame.post ▸ hpost)).congr hsame.bare hsame.active hsame.issued hsame.revoked

theorem Kept.shown (h : Kept sha256 s)
    (hlookup : (SetupApi.lookup sha256 s scopes token moment written).2 = some record) :
    Shown sha256 s token (· = record.scope) ∧ scopes record.scope = true := by
  obtain ⟨t, old, rfl, hold, hscopes, -, -, rfl, -⟩ := lookup_some hlookup
  obtain ⟨i, hi⟩ := h.newest _ old hold
  exact ⟨⟨i, t, hi.last, rfl, hi.digest, hi.scope.symm, hi.kept⟩, hscopes⟩

theorem State.Bare.hand (h : s.Bare) {token : Token} {scope : Scope JobId}
    (hactive : ∀ jobId, s.active = some jobId → scope = .jobPollReboot jobId) :
    Kept sha256 (s.hand sha256 token scope moment) := by
  have honly : ∀ d record, (s.hand sha256 token scope moment).records d = some record →
      d = sha256 token ∧ record = ⟨scope, moment, moment⟩ := by
    intro d record hrecord
    simp only [State.hand, Function.update_apply, h d] at hrecord
    split at hrecord
    · rename_i hsame
      exact ⟨hsame, (Option.some.inj hrecord).symm⟩
    · cases hrecord
  refine ⟨?_, ?_⟩
  · intro d record hrecord
    obtain ⟨rfl, rfl⟩ := honly d record hrecord
    exact ⟨⟨token, scope, moment⟩, rfl, rfl, rfl, rfl, List.mem_cons_self, rfl⟩
  · intro jobId hjob d record hrecord
    obtain ⟨rfl, rfl⟩ := honly d record hrecord
    exact hactive jobId hjob

theorem Inv.authorizeReboot (h : Inv sha256 s)
    (hstep : authorizeReboot sha256 s moment written post = some s') :
    Inv sha256 s' := by
  unfold SetupApi.authorizeReboot at hstep
  split at hstep
  · rename_i token
    have hkept := h.toKept.lookup Scope.isCompleted token moment written
    have hsame : SameRequest s (SetupApi.lookup sha256 s Scope.isCompleted token moment written).1 :=
      sameRequest_lookup ..
    split at hstep
    · rename_i s₁ record hlookup
      rw [hlookup] at hkept hsame
      cases hstep
      obtain ⟨hshown, hcompleted⟩ := h.toKept.shown (congrArg Prod.snd hlookup)
      -- The look has changed neither which capability is the last one nor whether it is revoked.
      apply hkept.goto
      show Shown sha256 _ token fun scope ↦ scope.isCompleted = true
      apply hshown.mono hsame.issued hsame.revoked
      intro scope hscope
      exact hscope ▸ hcompleted
    · rename_i s₁ hlookup
      rw [hlookup] at hkept
      cases hstep
      exact hkept.goto trivial
  · rename_i token
    have hkept := h.toKept.lookup Scope.isJob token moment written
    have hsame : SameRequest s (SetupApi.lookup sha256 s Scope.isJob token moment written).1 :=
      sameRequest_lookup ..
    split at hstep
    · rename_i s₁ jobId issuedAt lastUsedAt hlookup
      rw [hlookup] at hkept hsame
      cases hstep
      obtain ⟨hshown, -⟩ := h.toKept.shown (congrArg Prod.snd hlookup)
      apply hkept.goto
      exact hshown.mono hsame.issued hsame.revoked fun _ hscope => hscope
    · rename_i s₁ result _ hlookup
      rw [hlookup] at hkept
      cases hstep
      exact hkept.done
  · cases hstep

theorem Inv.issue (h : Inv sha256 s) (hpost : s.post = some post)
    {token : Token} (hstep : issue sha256 s token moment post = some s') :
    Inv sha256 s' := by
  have hholds := h.post post hpost
  unfold SetupApi.issue at hstep
  split at hstep
  · rename_i jobId
    cases hstep
    obtain ⟨hbare, hactive⟩ := hholds
    have hhand : Kept sha256 (s.hand sha256 token (.jobPollReboot jobId) moment) := by
      apply hbare.hand
      intro jobId' hjob
      rw [hactive] at hjob
      cases hjob
      rfl
    exact hhand.done
  · obtain ⟨hbare, hactive⟩ := hholds
    split at hstep
    · rename_i identity _
      have hhand : Kept sha256 (s.hand sha256 token (.completedReboot identity) moment) := by
        apply hbare.hand
        intro jobId hjob
        rw [hactive] at hjob
        cases hjob
      cases hstep
      split
      · exact hhand.done
      · exact h.toKept.done
    · cases hstep
      exact h.toKept.done
  · cases hstep

variable [DecidableEq JobId]

theorem Inv.step (h : Inv sha256 s) (hstep : step sha256 s event = some s') : Inv sha256 s' := by
  cases event with
  | tick | setup | report =>
    cases hstep
    exact h.congr rfl rfl rfl rfl rfl rfl
  | poll token moment written =>
    simp only [SetupApi.step] at hstep
    split at hstep
    · cases hstep
      exact h.lookup Scope.isJob token moment written
    · cases hstep
  | request request =>
    simp only [SetupApi.step] at hstep
    split at hstep
    · cases hstep
      cases request
      all_goals exact h.toKept.goto trivial
    · cases hstep
  | proceed =>
    obtain ⟨post, hpost, hstep⟩ := Option.bind_eq_some_iff.mp hstep
    exact h.proceed hpost hstep
  | answer active =>
    obtain ⟨post, hpost, hstep⟩ := Option.bind_eq_some_iff.mp hstep
    exact h.asked hpost (.inl ⟨active, hstep⟩)
  | started result =>
    obtain ⟨post, hpost, hstep⟩ := Option.bind_eq_some_iff.mp hstep
    exact h.asked hpost (.inr (.inl ⟨result, hstep⟩))
  | status complete =>
    obtain ⟨post, hpost, hstep⟩ := Option.bind_eq_some_iff.mp hstep
    exact h.asked hpost (.inr (.inr (.inl ⟨complete, hstep⟩)))
  | lookup moment written =>
    simp only [SetupApi.step] at hstep
    split at hstep
    · obtain ⟨post, -, hstep⟩ := Option.bind_eq_some_iff.mp hstep
      exact h.authorizeReboot hstep
    · cases hstep
  | issue token moment =>
    simp only [SetupApi.step] at hstep
    split at hstep
    · obtain ⟨post, hpost, hstep⟩ := Option.bind_eq_some_iff.mp hstep
      exact h.issue hpost hstep
    · cases hstep
  | systemctl succeeds =>
    obtain ⟨post, hpost, hstep⟩ := Option.bind_eq_some_iff.mp hstep
    exact h.asked hpost (.inr (.inr (.inr ⟨succeeds, hstep⟩)))
  | abort =>
    simp only [SetupApi.step] at hstep
    split at hstep
    · cases hstep
      exact h.toKept.done
    · cases hstep

theorem inv_of_reachable
    (h : Reachable (fun s event s' ↦ step sha256 s event = some s') (boot now setup jobs) s) :
    Inv sha256 s := by
  apply h.invariant
  · have hbare : State.Bare (boot now setup jobs : State Token Digest JobId) := fun _ => rfl
    exact hbare.kept.done
  · intro s event s' hinv hstep
    exact hinv.step hstep

/-- A capability that is accepted is the last one that was handed out, is not revoked, is at most a
day old, was used in the last half hour, and belongs to the active job if there is one. -/
theorem accepted_newest {now : Time} {setup : Setup} {jobs : JobId → Option JobStatus}
    (h : Reachable (fun s event s' ↦ step sha256 s event = some s') (boot now setup jobs) s)
    {shown : Token} {record : Record JobId}
    (hlookup : (lookup sha256 s scopes (some shown) moment written).2 = some record) :
    ∃ i, s.issued.head? = some i ∧ sha256 shown = sha256 i.token ∧ record.scope = i.scope ∧
      s.revoked = false ∧ moment - i.moment ≤ lifetime ∧
      (∃ used ∈ i.moment :: s.uses, moment - used ≤ inactivity) ∧ s.supports i.scope = true ∧
      ∀ jobId, s.active = some jobId → i.scope = .jobPollReboot jobId := by
  have hinv := inv_of_reachable h
  obtain ⟨t, old, hshown, hold, -, hyoung, hsupports, rfl, -⟩ := lookup_some hlookup
  cases hshown
  obtain ⟨i, hi⟩ := hinv.newest _ old hold
  simp only [Record.isExpired, Bool.or_eq_false_iff, decide_eq_false_iff_not, Int.not_gt_eq,
    gt_iff_lt] at hyoung
  refine ⟨i, hi.last, hi.digest, hi.scope, hi.kept, hi.issuedAt ▸ hyoung.1, ?_,
    hi.scope ▸ hsupports, ?_⟩
  · exact ⟨old.lastUsedAt, hi.used, hyoung.2⟩
  · intro jobId hjob
    rw [← hi.scope]
    exact hinv.active jobId hjob _ old hold

/-- Someone starts job 7 and is handed the capability `"b"`. -/
def demoStarted : List (Event String Nat) :=
  [.report 7 (some .running), .request .firstRun, .proceed, .answer false, .started (.submitted 7),
    .proceed, .proceed, .issue "a" 0, .tick 5, .request .resume, .proceed, .proceed, .answer true,
    .proceed, .issue "b" 5]

/-- The wizard still shows `"b"` after half a minute; `"a"` is dead since the resumption. -/
theorem accepted_newest_demo : ∃ s : State String String Nat,
    demoStarted.foldlM (step id) (boot 0 .unfinished fun _ ↦ none) = some s ∧
      (lookup id s Scope.isJob (some "a") (seconds 30) true).2 = none ∧
      ∃ i, s.issued.head? = some i ∧ i.token = "b" ∧ s.active = some 7 := by
  have hrun : ((demoStarted.foldlM (step id) (boot 0 .unfinished fun _ ↦ none)).map
      fun s : State String String Nat ↦
        (s.active, (lookup id s Scope.isJob (some "a") (seconds 30) true).2,
          (lookup id s Scope.isJob (some "b") (seconds 30) true).2)) =
      some (some 7, none, some ⟨.jobPollReboot 7, 5, seconds 30⟩) := by
    decide
  obtain ⟨s, hs, hlooks⟩ := Option.map_eq_some_iff.mp hrun
  rw [Prod.mk.injEq, Prod.mk.injEq] at hlooks
  obtain ⟨hactive, hdead, hlookup⟩ := hlooks
  obtain ⟨i, hlast, hdigest, -⟩ := accepted_newest ⟨_, run_of_foldlM hs⟩ hlookup
  exact ⟨s, hs, hdead, i, hlast, hdigest.symm, hactive⟩

/-! ## The reboot -/

def Post.isCleared : Post Token JobId → Bool
  | .rebootStatus _ _ | .command _ => true
  | _ => false

/-- What the last look before the command has seen. -/
def Allowed (s : State Token Digest JobId) (token : Option Token) : Prop :=
  (s.post = some (.rebootCompleted token) ∧ s.setup.isComplete = true) ∨
    ∃ jobId, s.post = some (.rebootStatus token jobId) ∧
      (s.jobs jobId).any JobStatus.isComplete = true

omit [DecidableEq Digest] in
theorem looked_of_proceed {before : Post Token JobId} (hbefore : s.post = some before)
    (hstep : proceed s before = some s') (hpost : s'.post = some post)
    (hcleared : post.isCleared = true) :
    s'.issued = s.issued ∧
      ((∃ token jobId, post = .rebootStatus token jobId ∧ s.setup.isComplete = true) ∨
        ∃ token, post = .command token ∧ Allowed s token) := by
  cases before with
  | rebootCompleted token =>
    cases hstep
    split at hpost
    · rename_i hcomplete
      cases hpost
      rw [if_pos hcomplete]
      exact ⟨rfl, .inr ⟨token, rfl, .inl ⟨hbefore, hcomplete⟩⟩⟩
    · cases hpost
  | rebootJob token jobId =>
    cases hstep
    split at hpost
    · rename_i hcomplete
      cases hpost
      rw [if_pos hcomplete]
      exact ⟨rfl, .inl ⟨token, jobId, rfl, hcomplete⟩⟩
    · cases hpost
  | rebootStatus token jobId =>
    cases hstep
    split at hpost
    · rename_i hdone
      cases hpost
      rw [if_pos hdone]
      exact ⟨rfl, .inr ⟨token, rfl, .inr ⟨jobId, hbefore, hdone⟩⟩⟩
    · cases hpost
  | firstRun | resume | resumeJob =>
    simp only [proceed] at hstep
    split at hstep
    · cases hstep
      cases hpost
      cases hcleared
    · try split at hstep
      all_goals
        cases hstep
        try split at hpost
        all_goals
          cases hpost <;> cases hcleared
  | _ =>
    cases hstep
    all_goals
      cases hpost <;> cases hcleared

theorem proceeded_of_step (hstep : step sha256 s event = some s')
    (hpost : s'.post = some post) (hcleared : post.isCleared = true) :
    (s'.issued = s.issued ∧ s.post = some post) ∨
      ∃ before, s.post = some before ∧ proceed s before = some s' := by
  -- behind every other answer the setup is still to be looked at
  cases event with
  | tick | setup | report =>
    cases hstep
    exact .inl ⟨rfl, hpost⟩
  | poll shown moment written =>
    simp only [SetupApi.step] at hstep
    split at hstep
    · cases hstep
      have hsame : SameRequest s (SetupApi.lookup sha256 s Scope.isJob shown moment written).1 :=
        sameRequest_lookup ..
      exact .inl ⟨hsame.issued, hsame.post ▸ hpost⟩
    · cases hstep
  | proceed => exact .inr (Option.bind_eq_some_iff.mp hstep)
  | request request =>
    simp only [SetupApi.step] at hstep
    split at hstep
    · cases hstep
      cases request
      all_goals
        cases hpost
        cases hcleared
    · cases hstep
  | answer active =>
    obtain ⟨before, -, hstep⟩ := Option.bind_eq_some_iff.mp hstep
    cases before
    case firstRunWorker | firstRunStorage | resumeWorker | resumeStorage =>
      cases active
      all_goals
        cases hstep
        cases hpost <;> cases hcleared
    all_goals cases hstep
  | started result =>
    obtain ⟨before, -, hstep⟩ := Option.bind_eq_some_iff.mp hstep
    cases before
    case startFirstStart =>
      cases result
      all_goals
        cases hstep
        cases hpost <;> cases hcleared
    all_goals cases hstep
  | status complete =>
    obtain ⟨before, -, hstep⟩ := Option.bind_eq_some_iff.mp hstep
    cases before
    case resumeStatus =>
      cases complete
      all_goals
        cases hstep
        cases hpost <;> cases hcleared
    all_goals cases hstep
  | lookup moment written =>
    simp only [SetupApi.step] at hstep
    split at hstep
    · obtain ⟨before, -, hstep⟩ := Option.bind_eq_some_iff.mp hstep
      unfold SetupApi.authorizeReboot at hstep
      split at hstep
      · split at hstep
        all_goals
          cases hstep
          cases hpost
          cases hcleared
      · split at hstep
        all_goals
          cases hstep
          cases hpost <;> cases hcleared
      · cases hstep
    · cases hstep
  | issue token moment =>
    simp only [SetupApi.step] at hstep
    split at hstep
    · obtain ⟨before, -, hstep⟩ := Option.bind_eq_some_iff.mp hstep
      unfold SetupApi.issue at hstep
      split at hstep
      · cases hstep
        cases hpost
      · split at hstep
        · cases hstep
          split at hpost
          all_goals
            cases hpost
        · cases hstep
          cases hpost
      · cases hstep
    · cases hstep
  | systemctl succeeds =>
    obtain ⟨before, -, hstep⟩ := Option.bind_eq_some_iff.mp hstep
    cases before
    case command shown =>
      cases hstep
      split at hpost
      all_goals
        cases hpost <;> cases hcleared
    all_goals cases hstep
  | abort =>
    simp only [SetupApi.step] at hstep
    split at hstep
    · cases hstep
      cases hpost
    · cases hstep

/-- Where the command is about to be given, it was allowed since the capability was handed out. -/
structure Cleared (sha256 : Token → Digest) (start s : State Token Digest JobId) : Prop where
  reachable : Reachable (fun s event s' ↦ step sha256 s event = some s') start s
  seen : ∀ token jobId, s.post = some (.rebootStatus token jobId) →
    ∃ t, Reachable (fun s event s' ↦ step sha256 s event = some s') start t ∧
      Reachable (fun s event s' ↦ step sha256 s event = some s') t s ∧ t.issued = s.issued ∧
      t.setup.isComplete = true
  allowed : ∀ token, s.post = some (.command token) →
    ∃ t u, Reachable (fun s event s' ↦ step sha256 s event = some s') start t ∧
      Reachable (fun s event s' ↦ step sha256 s event = some s') t u ∧
      Reachable (fun s event s' ↦ step sha256 s event = some s') u s ∧
      t.issued = s.issued ∧ u.issued = s.issued ∧ t.setup.isComplete = true ∧ Allowed u token

theorem Cleared.step {start : State Token Digest JobId} (h : Cleared sha256 start s)
    (hstep : step sha256 s event = some s') :
    Cleared sha256 start s' := by
  have hlast : Reachable (fun s event s' ↦ SetupApi.step sha256 s event = some s') s s' :=
    (Reachable.refl s).tail hstep
  refine ⟨h.reachable.tail hstep, ?_, ?_⟩
  · intro token jobId hpost
    obtain ⟨hissued, hsame⟩ | ⟨before, hbefore, hproceed⟩ := proceeded_of_step hstep hpost rfl
    · obtain ⟨t, ht, hrest, hlike, hcomplete⟩ := h.seen token jobId hsame
      exact ⟨t, ht, hrest.tail hstep, hlike.trans hissued.symm, hcomplete⟩
    · obtain ⟨hissued, ⟨_, _, -, hcomplete⟩ | ⟨_, hother, -⟩⟩ :=
        looked_of_proceed hbefore hproceed hpost rfl
      · exact ⟨s, h.reachable, hlast, hissued.symm, hcomplete⟩
      · cases hother
  · intro token hcommand
    obtain ⟨hissued, hsame⟩ | ⟨before, hbefore, hproceed⟩ := proceeded_of_step hstep hcommand rfl
    · obtain ⟨t, u, ht, hu, hrest, hlike, hlike', hcomplete, hallowed⟩ := h.allowed token hsame
      exact ⟨t, u, ht, hu, hrest.tail hstep, hlike.trans hissued.symm, hlike'.trans hissued.symm,
        hcomplete, hallowed⟩
    · obtain ⟨hissued, ⟨_, _, hother, -⟩ | ⟨_, hsame, hallowed⟩⟩ :=
        looked_of_proceed hbefore hproceed hcommand rfl
      · cases hother
      · cases hsame
        obtain ⟨-, hcomplete⟩ | ⟨jobId, hstatus, -⟩ := id hallowed
        · exact ⟨s, s, h.reachable, .refl s, hlast, hissued.symm, hissued.symm, hcomplete,
            hallowed⟩
        · obtain ⟨t, ht, hrest, hlike, hcomplete⟩ := h.seen token jobId hstatus
          exact ⟨t, s, ht, hrest, hlast, hlike.trans hissued.symm, hissued.symm, hcomplete,
            hallowed⟩

theorem cleared_of_reachable
    (h : Reachable (fun s event s' ↦ step sha256 s event = some s') (boot now setup jobs) s) :
    Cleared sha256 (boot now setup jobs) s := by
  apply h.invariant
  · refine ⟨.refl _, ?_, ?_⟩
    · intro token jobId hpost
      cases hpost
    · intro token hcommand
      cases hcommand
  · intro s event s' hcleared hstep
    exact hcleared.step hstep

/-- The appliance is told to reboot only for the last capability that was handed out, not revoked
since.  Since it was handed out the setup was seen complete, and for a capability of a job after
that the job as well. -/
theorem rebooted_of_complete {now : Time} {setup : Setup} {jobs : JobId → Option JobStatus}
    (h : Reachable (fun s event s' ↦ step sha256 s event = some s') (boot now setup jobs) s)
    {succeeds : Bool} (hstep : step sha256 s (.systemctl succeeds) = some s') :
    ∃ i shown t u, s.post = some (.command (some shown)) ∧ s.issued.head? = some i ∧
      sha256 shown = sha256 i.token ∧ s.revoked = false ∧
      Reachable (fun s event s' ↦ step sha256 s event = some s') (boot now setup jobs) t ∧
      Reachable (fun s event s' ↦ step sha256 s event = some s') t u ∧
      Reachable (fun s event s' ↦ step sha256 s event = some s') u s ∧
      t.issued = s.issued ∧ u.issued = s.issued ∧ t.setup.isComplete = true ∧
      ∀ jobId, i.scope = .jobPollReboot jobId →
        (u.jobs jobId).any JobStatus.isComplete = true := by
  obtain ⟨post, hpost, hsystemctl⟩ := Option.bind_eq_some_iff.mp hstep
  cases post
  case command token =>
    obtain ⟨i, shown, hlast, rfl, hdigest, -, hrevoked⟩ := (inv_of_reachable h).post _ hpost
    obtain ⟨t, u, ht, hu, hrest, hissued, hissued', hcomplete, hseen⟩ :=
      (cleared_of_reachable h).allowed _ hpost
    refine ⟨i, shown, t, u, hpost, hlast, hdigest, hrevoked, ht, hu, hrest, hissued, hissued',
      hcomplete, ?_⟩
    intro jobId hscope
    have hthen := (inv_of_reachable (ht.trans hu)).post
    -- The capability shown then is the one that is still the last.
    obtain ⟨hcompleted, -⟩ | ⟨jobId', hjob, hdone⟩ := hseen
    · obtain ⟨i', _, hlast', -, -, hother, -⟩ := hthen _ hcompleted
      rw [hissued', hlast] at hlast'
      cases hlast'
      rw [hscope] at hother
      cases hother
    · obtain ⟨i', _, hlast', -, -, hjob', -⟩ := hthen _ hjob
      rw [hissued', hlast] at hlast'
      cases hlast'
      rw [hscope] at hjob'
      cases hjob'
      exact hdone
  all_goals cases hsystemctl

/-- The job completes, and the wizard asks for the reboot; by the look at the job's report a new setup
has begun. -/
def demoRebooting : List (Event String Nat) :=
  demoStarted ++ [.setup (.complete none), .report 7 (some .complete),
    .request (.reboot (some "b")), .lookup 5 true, .lookup 5 true, .proceed, .setup .unfinished,
    .proceed]

theorem rebooted_of_complete_demo : ∃ s s' t u : State String String Nat,
    demoRebooting.foldlM (step id) (boot 0 .unfinished fun _ ↦ none) = some s ∧
      step id s (.systemctl true) = some s' ∧
      Reachable (fun s event s' ↦ step id s event = some s') t u ∧
      Reachable (fun s event s' ↦ step id s event = some s') u s ∧
      t.setup.isComplete = true ∧ (u.jobs 7).any JobStatus.isComplete = true := by
  have hrun : ((demoRebooting.foldlM (step id) (boot 0 .unfinished fun _ ↦ none)).bind
      fun s : State String String Nat ↦ (step id s (.systemctl true)).map fun _ ↦
        s.issued.head?.map fun i ↦ i.scope) = some (some (.jobPollReboot 7)) := by
    decide
  obtain ⟨s, hs, hreboot⟩ := Option.bind_eq_some_iff.mp hrun
  obtain ⟨s', hs', hscope⟩ := Option.map_eq_some_iff.mp hreboot
  obtain ⟨i, shown, t, u, -, hlast, -, -, -, htu, hrest, -, -, hcomplete, hjob⟩ :=
    rebooted_of_complete ⟨_, run_of_foldlM hs⟩ hs'
  rw [hlast] at hscope
  exact ⟨s, s', t, u, hs, hs', htu, hrest, hcomplete, hjob 7 (Option.some.inj hscope)⟩

end NixNas.SetupApi
