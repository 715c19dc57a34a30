import NixNas.Syncthing.Ownership

/-!
# Runs that resume

The journal of a run is written over the journal of the interrupted one.  What the interrupted run
created is still owned afterwards if the state file names it or the new run desires it.
-/

open Transition

namespace NixNas.Syncthing

variable {C : Type} {generation : Desired C → Text} {expectedSubset : C → C → Bool}
  {config : Config C} {w w' : World C} {event : Event C} {key : Key}
variable {request : Request C} {todo : List (Request C)} {removed retained : List Key}
  {c : Config C}

/-- A run that finds the journal of an interrupted one desires what is there of that one's objects,
unless the state file names it. -/
def Resumes (w : World C) : Event C → Prop
  | .start desired => ∀ journal, w.journal = some journal → journal.phase ≠ .committed →
      ∀ key ∈ journal.desired.keys, w.config key ≠ none → key ∈ w.state.owned ∨ key ∈ desired.keys
  | _ => True

/-- An object is there that was not there before the first run. -/
def Created (config : Config C) (w : World C) (key : Key) : Prop :=
  w.config key ≠ none ∧ config key = none

/-! ## The invariant -/

def Stage.phase : Stage C → JournalPhase
  | .started | .requests _ _ _ => .prepared
  | .mutated _ _ | .verified _ => .mutated
  | .committed _ | .saved _ => .committed

def Stage.journaled : Stage C → List Key
  | .started | .requests _ _ _ => []
  | .mutated _ retained | .verified retained | .committed retained | .saved retained => retained

/-- The object is still to be deleted, or to be found deleted. -/
def Process.Pending (p : Process C) (key : Key) : Prop :=
  match p.stage with
  | .requests todo removed _ => .delete key ∈ todo ∨ key ∈ p.removedFolders ∨ key ∈ removed
  | .mutated removed _ => key ∈ p.removedFolders ∨ key ∈ removed
  | _ => False

/-- What a process knows of the created objects. -/
structure Tracks (generation : Desired C → Text) (expectedSubset : C → C → Bool)
    (config : Config C) (w : World C) (p : Process C) : Prop where
  state : (∀ retained, p.stage ≠ .saved retained) → p.state = w.state
  started : p.stage = .started → ∀ key, Created config w key →
    key ∈ p.old ∧ (key ∈ w.state.owned ∨ key ∈ p.desired.keys)
  puts : ∀ key body, .put key body ∈ p.stage.todo → key ∈ p.desired.keys
  deletes : ∀ key, .delete key ∈ p.stage.todo → key ∈ p.old ∧ key ∉ p.desired.keys
  listed : ∀ key, .delete key ∈ p.stage.todo ∨ key ∈ p.stage.retained → key ∈ w.state.owned
  devices : ∀ key ∈ p.stage.retained, key.isFolder = false
  stays : p.stage ≠ .started → ∀ key, Created config w key →
    key ∈ p.desired.keys ∨ key ∈ p.stage.retained ∨ p.Pending key
  journal : p.stage ≠ .started → w.journal =
    some ⟨p.stage.phase, generation p.desired, p.state, p.desired, p.stage.journaled⟩
  verified : p.stage ≠ .started → (∀ todo removed retained, p.stage ≠ .requests todo removed retained) →
    (∀ removed retained, p.stage ≠ .mutated removed retained) →
    verifyConfiguration expectedSubset w.config p.desired [] = true
  saved : ∀ retained, p.stage = .saved retained →
    w.state = expectedState generation p.desired retained

structure Tracked (generation : Desired C → Text) (expectedSubset : C → C → Bool)
    (config : Config C) (w : World C) : Prop where
  untouched : Untouched config w
  recorded : ∀ key, Created config w key →
    key ∈ w.state.owned ∨ ∃ journal, w.journal = some journal ∧ key ∈ journal.desired.keys
  committed : ∀ journal, w.journal = some journal → journal.phase = .committed →
    (∀ key, Created config w key → key ∈ journal.names) ∧
      ∀ key ∈ journal.retainedDevices, key ∈ w.state.owned
  consistent : ∀ journal, w.journal = some journal → journal.generation = generation journal.desired ∧
    (journal.phase ≠ .committed → journal.previousState = w.state)
  process : ∀ p, w.process = some p → Tracks generation expectedSubset config w p

theorem tracked_initial : Tracked generation expectedSubset config (.initial config) where
  untouched := untouched_initial
  recorded := fun _ h => absurd h.2 h.1
  committed := nofun
  consistent := nofun
  process := nofun

theorem Tracked.ended (h : Tracked generation expectedSubset config w) :
    Tracked generation expectedSubset config { w with process := none } where
  untouched := h.untouched.ended
  recorded := h.recorded
  committed := h.committed
  consistent := h.consistent
  process := nofun

/-! ## Steps -/

variable {p : Process C}

theorem Tracked.prepared (h : Tracked generation expectedSubset config w)
    (hprocess : w.process = some p) (hstage : p.stage = .started)
    (huntouched : Untouched config { w with
      journal := some ⟨.prepared, generation p.desired, p.state, p.desired, []⟩
      process := some { p with stage := .requests (plannedRequests w.config p) [] [] } }) :
    Tracked generation expectedSubset config { w with
      journal := some ⟨.prepared, generation p.desired, p.state, p.desired, []⟩
      process := some { p with stage := .requests (plannedRequests w.config p) [] [] } } := by
  have htracks := h.process p hprocess
  have hstarted := htracks.started hstage
  have hstate : p.state = w.state := htracks.state (by rw [hstage]; exact nofun)
  have hplanned : ∀ key, .delete key ∈ plannedRequests w.config p →
      key ∈ p.old ∧ key ∉ p.desired.keys ∧ w.config key ≠ none := by
    intro key hkey
    obtain ⟨body, hput, -⟩ | ⟨-, hold, hdesired, hthere⟩ := mem_plannedRequests hkey
    · cases hput
    · exact ⟨hold, hdesired, hthere⟩
  refine ⟨huntouched, ?_, ?_, ?_, ?_⟩
  · intro key hkey
    exact (hstarted key hkey).2.imp id fun hdesired => ⟨_, rfl, hdesired⟩
  · rintro j ⟨⟩ ⟨⟩
  · rintro j ⟨⟩
    exact ⟨rfl, fun _ => hstate⟩
  · rintro _ ⟨⟩
    constructor
    · exact fun _ => hstate
    · exact nofun
    · intro key body hput
      obtain ⟨-, -, hdesired⟩ | ⟨hdelete, -⟩ := mem_plannedRequests hput
      · exact hdesired
      · cases hdelete
    · exact fun key hkey => ⟨(hplanned key hkey).1, (hplanned key hkey).2.1⟩
    · rintro key (hkey | hkey)
      · obtain ⟨hold, hdesired, hthere⟩ := hplanned key hkey
        have hcreated : Created config w key :=
          ⟨hthere, h.untouched.names key (names_process hprocess (mem_old hold))⟩
        exact (hstarted key hcreated).2.resolve_right hdesired
      · cases hkey
    · exact nofun
    · intro _ key hkey
      by_cases hdesired : key ∈ p.desired.keys
      · exact .inl hdesired
      · right; right; left
        unfold plannedRequests
        apply List.mem_append_right
        apply List.mem_map_of_mem
        rw [mem_sortedKeys, List.mem_filter, Bool.and_eq_true, decide_eq_true_eq,
          Option.isSome_iff_ne_none]
        exact ⟨(hstarted key hkey).1, hdesired, hkey.1⟩
    · exact fun _ => rfl
    · exact fun _ hne => absurd rfl (hne _ _ _)
    · exact nofun

theorem created_request (htracks : Tracks generation expectedSubset config w p)
    (hstage : p.stage = .requests (request :: todo) removed retained)
    (hconfig : c = w.config ∨ c = request.apply w.config)
    (hkey : c key ≠ none ∧ config key = none) : Created config w key ∨ key ∈ p.desired.keys := by
  obtain rfl | rfl := hconfig
  · exact .inl hkey
  · have hrequest : request ∈ p.stage.todo := by
      rw [hstage]
      exact List.mem_cons_self
    by_cases hsame : key = request.key
    · cases request with
      | put key' body =>
        right
        rw [hsame]
        exact htracks.puts key' body hrequest
      | delete key' =>
        refine absurd ?_ hkey.1
        rw [hsame]
        exact Function.update_self _ _ _
    · left
      rwa [apply_of_ne hsame] at hkey

theorem Tracked.raised (h : Tracked generation expectedSubset config w)
    (hprocess : w.process = some p) (hstage : p.stage = .requests (request :: todo) removed retained)
    (hconfig : c = w.config ∨ c = request.apply w.config)
    (huntouched : Untouched config { w with config := c, process := none }) :
    Tracked generation expectedSubset config { w with config := c, process := none } := by
  have htracks := h.process p hprocess
  have hjournal := htracks.journal (by rw [hstage]; exact nofun)
  refine ⟨huntouched, ?_, ?_, h.consistent, nofun⟩
  · intro key hkey
    obtain hcreated | hdesired := created_request htracks hstage hconfig hkey
    · exact h.recorded key hcreated
    · exact .inr ⟨_, hjournal, hdesired⟩
  · intro j hj hphase
    obtain rfl := Option.some.inj (hjournal.symm.trans hj)
    rw [hstage] at hphase
    cases hphase

theorem Tracked.answered {removed' retained' : List Key} {answer : Answer}
    (h : Tracked generation expectedSubset config w) (hprocess : w.process = some p)
    (hstage : p.stage = .requests (request :: todo) removed retained)
    (hconfig : c = w.config ∨ c = request.apply w.config)
    (hrecord : request.record removed retained answer = (removed', retained'))
    (huntouched : Untouched config { w with
      config := c, process := some { p with stage := .requests todo removed' retained' } }) :
    Tracked generation expectedSubset config { w with
      config := c, process := some { p with stage := .requests todo removed' retained' } } := by
  have htracks := h.process p hprocess
  have hstarted : p.stage ≠ .started := by rw [hstage]; exact nofun
  have hraised := h.raised hprocess hstage hconfig huntouched.ended
  have htodo : ∀ r ∈ todo, r ∈ p.stage.todo := by
    rw [hstage]
    exact fun _ => List.mem_cons_of_mem _
  have hrequest : request ∈ p.stage.todo := by
    rw [hstage]
    exact List.mem_cons_self
  have hretained : ∀ key ∈ retained', key ∈ p.stage.retained ∨
      (.delete key ∈ p.stage.todo ∧ key.isFolder = false) := by
    intro key hkey
    obtain hkey | ⟨rfl, hfolder⟩ := (record_cases _ hrecord).1 hkey
    · left
      rwa [hstage]
    · exact .inr ⟨hrequest, hfolder⟩
  refine ⟨huntouched, hraised.recorded, hraised.committed, h.consistent, ?_⟩
  rintro _ ⟨⟩
  constructor
  · exact fun _ => htracks.state (by rw [hstage]; exact nofun)
  · exact nofun
  · exact fun key body hput => htracks.puts key body (htodo _ hput)
  · exact fun key hdelete => htracks.deletes key (htodo _ hdelete)
  · rintro key (hdelete | hkey)
    · exact htracks.listed key (.inl (htodo _ hdelete))
    · exact htracks.listed key ((hretained key hkey).symm.imp And.left id)
  · intro key hkey
    obtain hkey | ⟨-, hfolder⟩ := hretained key hkey
    · exact htracks.devices key hkey
    · exact hfolder
  · intro _ key hkey
    obtain hcreated | hdesired := created_request htracks hstage hconfig hkey
    · obtain hdesired | hkept | hpending := htracks.stays hstarted key hcreated
      · exact .inl hdesired
      · rw [hstage] at hkept
        exact .inr (.inl ((record_cases _ hrecord).2.2.1 hkept))
      · unfold Process.Pending at hpending
        rw [hstage] at hpending
        obtain hdelete | hfolder | hremoved := hpending
        · obtain rfl | hdelete := List.mem_cons.mp hdelete
          · -- its own request has been answered
            cases key with
            | folder id =>
              obtain ⟨hold, hdesired⟩ := htracks.deletes _ hrequest
              right; right; right; left
              unfold Process.removedFolders
              rw [List.mem_filter, Bool.and_eq_true, decide_eq_true_eq]
              exact ⟨hold, rfl, hdesired⟩
            | device id =>
              obtain hremoved | hkept := (record_cases (.device id) hrecord).2.2.2 id rfl
              · exact .inr (.inr (.inr (.inr hremoved)))
              · exact .inr (.inl hkept)
          · exact .inr (.inr (.inl hdelete))
        · exact .inr (.inr (.inr (.inl hfolder)))
        · exact .inr (.inr (.inr (.inr ((record_cases _ hrecord).2.1 hremoved))))
    · exact .inl hdesired
  · intro _
    rw [htracks.journal hstarted, hstage]
    rfl
  · exact fun _ hne => absurd rfl (hne _ _ _)
  · exact nofun

theorem Tracked.mutated
    (h : Tracked generation expectedSubset config w) (hprocess : w.process = some p)
    (hstage : p.stage = .requests [] removed retained)
    (huntouched : Untouched config { w with
      journal := some ⟨.mutated, generation p.desired, p.state, p.desired, retained⟩
      process := some { p with stage := .mutated removed retained } }) :
    Tracked generation expectedSubset config { w with
      journal := some ⟨.mutated, generation p.desired, p.state, p.desired, retained⟩
      process := some { p with stage := .mutated removed retained } } := by
  have htracks := h.process p hprocess
  have hstarted : p.stage ≠ .started := by rw [hstage]; exact nofun
  have hstate : p.state = w.state := htracks.state (by rw [hstage]; exact nofun)
  have hjournal := htracks.journal hstarted
  refine ⟨huntouched, ?_, ?_, ?_, ?_⟩
  · intro key hkey
    obtain hlisted | ⟨j, hj, hdesired⟩ := h.recorded key hkey
    · exact .inl hlisted
    · obtain rfl := Option.some.inj (hjournal.symm.trans hj)
      exact .inr ⟨_, rfl, hdesired⟩
  · rintro j ⟨⟩ ⟨⟩
  · rintro j ⟨⟩
    exact ⟨rfl, fun _ => hstate⟩
  · rintro _ ⟨⟩
    constructor
    · exact fun _ => hstate
    · exact nofun
    · exact fun _ _ => nofun
    · exact fun _ => nofun
    · rintro key (hdelete | hkey)
      · cases hdelete
      · exact htracks.listed key (.inr (by rwa [hstage]))
    · exact fun key hkey => htracks.devices key (by rwa [hstage])
    · intro _ key hkey
      obtain hdesired | hkept | hpending := htracks.stays hstarted key hkey
      · exact .inl hdesired
      · rw [hstage] at hkept
        exact .inr (.inl hkept)
      · unfold Process.Pending at hpending
        rw [hstage] at hpending
        exact .inr (.inr (hpending.resolve_left List.not_mem_nil))
    · exact fun _ => rfl
    · exact fun _ _ hne => absurd rfl (hne _ _)
    · exact nofun

theorem Tracked.verified
    (h : Tracked generation expectedSubset config w) (hprocess : w.process = some p)
    (hstage : p.stage = .mutated removed retained)
    (hverify : verifyConfiguration expectedSubset w.config p.desired (p.removedFolders ++ removed) = true)
    (huntouched : Untouched config { w with process := some { p with stage := .verified retained } }) :
    Tracked generation expectedSubset config
      { w with process := some { p with stage := .verified retained } } := by
  have htracks := h.process p hprocess
  have hstarted : p.stage ≠ .started := by rw [hstage]; exact nofun
  unfold verifyConfiguration at hverify
  rw [Bool.and_eq_true, List.all_eq_true] at hverify
  obtain ⟨hdesired, hgone⟩ := hverify
  refine ⟨huntouched, h.recorded, h.committed, h.consistent, ?_⟩
  rintro _ ⟨⟩
  constructor
  · exact fun _ => htracks.state (by rw [hstage]; exact nofun)
  · exact nofun
  · exact fun _ _ => nofun
  · exact fun _ => nofun
  · rintro key (hdelete | hkey)
    · cases hdelete
    · exact htracks.listed key (.inr (by rwa [hstage]))
  · exact fun key hkey => htracks.devices key (by rwa [hstage])
  · intro _ key hkey
    obtain hdesired | hkept | hpending := htracks.stays hstarted key hkey
    · exact .inl hdesired
    · rw [hstage] at hkept
      exact .inr (.inl hkept)
    · -- the verification has found it deleted
      unfold Process.Pending at hpending
      rw [hstage] at hpending
      have habsent := hgone key (List.mem_append.mpr hpending)
      exact absurd (Option.isNone_iff_eq_none.mp habsent) hkey.1
  · intro _
    rw [htracks.journal hstarted, hstage]
    rfl
  · intro _ _ _
    unfold verifyConfiguration
    rw [Bool.and_eq_true]
    exact ⟨hdesired, rfl⟩
  · exact nofun

theorem Tracks.stays_verified (h : Tracks generation expectedSubset config w p)
    (hstage : ∀ todo removed retained, p.stage ≠ .started ∧ p.stage ≠ .requests todo removed retained ∧
      p.stage ≠ .mutated removed retained) (hkey : Created config w key) :
    key ∈ p.desired.keys ∨ key ∈ p.stage.retained := by
  obtain hdesired | hkept | hpending := h.stays (hstage [] [] []).1 key hkey
  · exact .inl hdesired
  · exact .inr hkept
  · unfold Process.Pending at hpending
    split at hpending
    · rename_i hrequests
      exact absurd hrequests (hstage _ _ _).2.1
    · rename_i hmutated
      exact absurd hmutated (hstage [] _ _).2.2
    · exact hpending.elim

theorem Tracked.commits
    (h : Tracked generation expectedSubset config w) (hprocess : w.process = some p)
    (hstage : p.stage = .verified retained)
    (huntouched : Untouched config { w with
      journal := some ⟨.committed, generation p.desired, p.state, p.desired, retained⟩
      process := some { p with stage := .committed retained } }) :
    Tracked generation expectedSubset config { w with
      journal := some ⟨.committed, generation p.desired, p.state, p.desired, retained⟩
      process := some { p with stage := .committed retained } } := by
  have htracks := h.process p hprocess
  have hstarted : p.stage ≠ .started := by rw [hstage]; exact nofun
  have hstays : ∀ key, Created config w key → key ∈ p.desired.keys ∨ key ∈ retained := by
    intro key hkey
    have hkept := htracks.stays_verified (fun _ _ _ => by rw [hstage]; exact ⟨nofun, nofun, nofun⟩) hkey
    rwa [hstage] at hkept
  have hlisted : ∀ key ∈ retained, key ∈ w.state.owned :=
    fun key hkey => htracks.listed key (.inr (by rwa [hstage]))
  refine ⟨huntouched, ?_, ?_, ?_, ?_⟩
  · intro key hkey
    obtain hdesired | hkept := hstays key hkey
    · exact .inr ⟨_, rfl, hdesired⟩
    · exact .inl (hlisted key hkept)
  · rintro j ⟨⟩ -
    exact ⟨fun key hkey => List.mem_append.mpr (hstays key hkey), hlisted⟩
  · rintro j ⟨⟩
    exact ⟨rfl, fun hne => absurd rfl hne⟩
  · rintro _ ⟨⟩
    constructor
    · exact fun _ => htracks.state (by rw [hstage]; exact nofun)
    · exact nofun
    · exact fun _ _ => nofun
    · exact fun _ => nofun
    · rintro key (hdelete | hkey)
      · cases hdelete
      · exact hlisted key hkey
    · exact fun key hkey => htracks.devices key (by rwa [hstage])
    · exact fun _ key hkey => (hstays key hkey).imp id .inl
    · exact fun _ => rfl
    · exact fun _ _ _ => htracks.verified hstarted (by rw [hstage]; exact nofun) (by rw [hstage]; exact nofun)
    · exact nofun

theorem Tracked.saves
    (h : Tracked generation expectedSubset config w) (hprocess : w.process = some p)
    (hstage : p.stage = .committed retained)
    (huntouched : Untouched config { w with
      state := expectedState generation p.desired retained
      process := some { p with stage := .saved retained } }) :
    Tracked generation expectedSubset config { w with
      state := expectedState generation p.desired retained
      process := some { p with stage := .saved retained } } := by
  have htracks := h.process p hprocess
  have hstarted : p.stage ≠ .started := by rw [hstage]; exact nofun
  have hjournal := htracks.journal hstarted
  rw [hstage] at hjournal
  have hstays : ∀ key, Created config w key → key ∈ p.desired.keys ∨ key ∈ retained := by
    intro key hkey
    have hkept := htracks.stays_verified (fun _ _ _ => by rw [hstage]; exact ⟨nofun, nofun, nofun⟩) hkey
    rwa [hstage] at hkept
  refine ⟨huntouched, ?_, ?_, ?_, ?_⟩
  · exact fun key hkey => .inl (mem_expectedState.mpr (hstays key hkey))
  · intro j hj hphase
    obtain rfl := Option.some.inj (hjournal.symm.trans hj)
    exact ⟨fun key hkey => List.mem_append.mpr (hstays key hkey),
      fun key hkey => mem_expectedState.mpr (.inr hkey)⟩
  · intro j hj
    obtain rfl := Option.some.inj (hjournal.symm.trans hj)
    exact ⟨rfl, fun hne => absurd rfl hne⟩
  · rintro _ ⟨⟩
    constructor
    · exact fun hne => absurd rfl (hne _)
    · exact nofun
    · exact fun _ _ => nofun
    · exact fun _ => nofun
    · rintro key (hdelete | hkey)
      · cases hdelete
      · exact mem_expectedState.mpr (.inr hkey)
    · exact fun key hkey => htracks.devices key (by rwa [hstage])
    · exact fun _ key hkey => (hstays key hkey).imp id .inl
    · exact fun _ => hjournal
    · exact fun _ _ _ => htracks.verified hstarted (by rw [hstage]; exact nofun) (by rw [hstage]; exact nofun)
    · rintro _ ⟨⟩
      rfl

theorem Tracked.finished
    (h : Tracked generation expectedSubset config w) (hprocess : w.process = some p)
    (hstage : p.stage = .saved retained)
    (huntouched : Untouched config { w with journal := none, process := none }) :
    Tracked generation expectedSubset config { w with journal := none, process := none } := by
  have htracks := h.process p hprocess
  refine ⟨huntouched, ?_, nofun, nofun, nofun⟩
  intro key hkey
  have hkept := htracks.stays_verified (fun _ _ _ => by rw [hstage]; exact ⟨nofun, nofun, nofun⟩) hkey
  rw [hstage] at hkept
  left
  show key ∈ w.state.owned
  rw [htracks.saved retained hstage]
  exact mem_expectedState.mpr hkept

variable [DecidableEq C]

/-! ## Taking over -/

/-- What the ownership of an interrupted run comes to. -/
structure TakenOver (config : Config C) (w : World C) (keys : List Key) (state : Ownership)
    (journal : Option (Journal C)) : Prop where
  old : ∀ key, Created config w key → key ∈ w.state.owned ∨ key ∈ keys
  journal : journal = w.journal
  listed : ∀ key, Created config w key → key ∈ state.owned ∨
    ∃ j, w.journal = some j ∧ j.phase ≠ .committed ∧ key ∈ j.desired.keys
  retained : ∀ j, w.journal = some j → j.phase = .committed → ∀ key ∈ j.retainedDevices, key ∈ state.owned
  same : (∀ j, w.journal = some j → j.phase ≠ .committed) → state = w.state

theorem Tracked.takenOver (h : Tracked generation expectedSubset config w) :
    ∃ keys state journal,
      interruptedOwnership generation w.state w.journal = some (keys, state, journal) ∧
        TakenOver config w keys state journal := by
  cases hjournal : w.journal with
  | none =>
    refine ⟨[], w.state, none, rfl, ?_⟩
    have hlisted : ∀ key, Created config w key → key ∈ w.state.owned := by
      intro key hkey
      obtain hkey | ⟨j, hj, -⟩ := h.recorded key hkey
      · exact hkey
      · rw [hjournal] at hj
        cases hj
    constructor
    · exact fun key hkey => .inl (hlisted key hkey)
    · rw [hjournal]
    · exact fun key hkey => .inl (hlisted key hkey)
    · exact fun j hj => absurd (hjournal ▸ hj) nofun
    · exact fun _ => rfl
  | some j =>
    unfold interruptedOwnership
    by_cases hphase : j.phase = .committed
    · obtain ⟨hnames, hretained⟩ := h.committed j hjournal hphase
      refine ⟨_, _, _, if_pos hphase, ?_⟩
      constructor
      · intro key hkey
        obtain hdesired | hkept := List.mem_append.mp (hnames key hkey)
        · exact .inr hdesired
        · exact .inl (hretained key hkept)
      · rw [hjournal]
      · exact fun key hkey => .inl (mem_sortedKeys.mpr (hnames key hkey))
      · intro j' hj' _ key hkey
        obtain rfl : j = j' := Option.some.inj (hjournal.symm.trans hj')
        exact mem_sortedKeys.mpr (List.mem_append_right _ hkey)
      · exact fun hnone => absurd hphase (hnone j hjournal)
    · obtain ⟨hgeneration, hprevious⟩ := h.consistent j hjournal
      refine ⟨j.desired.keys, w.state, some j, ?_, ?_⟩
      · dsimp only
        rw [if_neg hphase, if_neg (not_not.mpr hgeneration), if_neg (not_not.mpr (hprevious hphase))]
      · have hrecorded : ∀ key, Created config w key →
            key ∈ w.state.owned ∨ key ∈ j.desired.keys := by
          intro key hkey
          obtain hkey | ⟨j', hj', hkey⟩ := h.recorded key hkey
          · exact .inl hkey
          · obtain rfl : j = j' := Option.some.inj (hjournal.symm.trans hj')
            exact .inr hkey
        constructor
        · exact hrecorded
        · rw [hjournal]
        · exact fun key hkey => (hrecorded key hkey).imp id fun hkey => ⟨j, hjournal, hphase, hkey⟩
        · intro j' hj' hcommitted
          obtain rfl : j = j' := Option.some.inj (hjournal.symm.trans hj')
          exact absurd hcommitted hphase
        · exact fun _ => rfl

theorem Tracked.started {desired : Desired C} {keys : List Key} {state : Ownership}
    {journal : Option (Journal C)} (h : Tracked generation expectedSubset config w)
    (hresumes : Resumes w (.start desired))
    (hinterrupted : interruptedOwnership generation w.state w.journal = some (keys, state, journal))
    (huntouched : Untouched config ⟨w.config, state, journal,
      some ⟨desired, state, w.state.owned ++ keys, .started⟩⟩) :
    Tracked generation expectedSubset config
      ⟨w.config, state, journal, some ⟨desired, state, w.state.owned ++ keys, .started⟩⟩ := by
  obtain ⟨keys', state', journal', hinterrupted', htaken⟩ := h.takenOver
  obtain ⟨rfl, rfl, rfl⟩ : keys' = keys ∧ state' = state ∧ journal' = journal := by
    simpa using hinterrupted'.symm.trans hinterrupted
  obtain rfl := htaken.journal
  refine ⟨huntouched, ?_, ?_, ?_, ?_⟩
  · intro key hkey
    exact (htaken.listed key hkey).imp id fun ⟨j, hj, _, hdesired⟩ => ⟨j, hj, hdesired⟩
  · intro j hj hphase
    exact ⟨(h.committed j hj hphase).1, htaken.retained j hj hphase⟩
  · intro j hj
    refine ⟨(h.consistent j hj).1, fun hphase => ?_⟩
    rw [(h.consistent j hj).2 hphase, htaken.same]
    intro j' hj'
    obtain rfl : j = j' := Option.some.inj (hj.symm.trans hj')
    exact hphase
  · rintro p ⟨⟩
    constructor
    · exact fun _ => rfl
    · intro _ key hkey
      refine ⟨List.mem_append.mpr (htaken.old key hkey), ?_⟩
      obtain hlisted | ⟨j, hj, hphase, hdesired⟩ := htaken.listed key hkey
      · exact .inl hlisted
      · -- the state is the one that was there, as the journal is not a committed one
        have hsame : state' = w.state := by
          apply htaken.same
          intro j' hj'
          obtain rfl : j = j' := Option.some.inj (hj.symm.trans hj')
          exact hphase
        rw [hsame]
        exact hresumes j hj hphase key hdesired hkey.1
    · exact nofun
    · exact nofun
    · exact fun key hkey => hkey.elim nofun nofun
    · exact nofun
    · exact fun hne => absurd rfl hne
    · exact fun hne => absurd rfl hne
    · exact fun hne => absurd rfl hne
    · exact nofun

theorem Tracked.step (h : Tracked generation expectedSubset config w) (hresumes : Resumes w event)
    (hstep : step generation expectedSubset w event = some w') :
    Tracked generation expectedSubset config w' := by
  have huntouched := h.untouched.step hstep
  cases change_of_step hstep with
  | refused => exact h
  | started _ hinterrupted => exact h.started hresumes hinterrupted huntouched
  | stopped => exact h.ended
  | prepared hprocess hstage => exact h.prepared hprocess hstage huntouched
  | answered hprocess hstage hconfig _ hrecord =>
    exact h.answered hprocess hstage hconfig hrecord huntouched
  | raised hprocess hstage hconfig => exact h.raised hprocess hstage hconfig huntouched
  | mutated hprocess hstage => exact h.mutated hprocess hstage huntouched
  | verified hprocess hstage hverify => exact h.verified hprocess hstage hverify huntouched
  | committed hprocess hstage => exact h.commits hprocess hstage huntouched
  | saved hprocess hstage => exact h.saves hprocess hstage huntouched
  | finished hprocess hstage => exact h.finished hprocess hstage huntouched

def ResumedStep (generation : Desired C → Text) (expectedSubset : C → C → Bool) (w : World C)
    (event : Event C) (w' : World C) : Prop :=
  step generation expectedSubset w event = some w' ∧ Resumes w event

/-- Where every run resumes the interrupted one, wherever the runs end: no run is refused for the
journal, nor for an object that a run created; and when a run has written its state, what is desired
is there, and a created object that is there is desired or a retained device of the state file. -/
theorem owned_of_resumed (h : Reachable (ResumedStep generation expectedSubset) (.initial config) w) :
    interruptedOwnership generation w.state w.journal ≠ none ∧
      ∀ p, w.process = some p →
        (p.stage = .started → ∀ key ∈ unmanaged w.config p, config key ≠ none) ∧
        ∀ retained, p.stage = .saved retained →
          verifyConfiguration expectedSubset w.config p.desired [] = true ∧
            ∀ key, w.config key ≠ none → config key = none → key ∈ p.desired.keys ∨
              (key ∈ retained ∧ key.isFolder = false ∧ key ∈ w.state.owned) := by
  have hw : Tracked generation expectedSubset config w :=
    h.invariant tracked_initial fun _ _ _ hs hstep => hs.step hstep.2 hstep.1
  constructor
  · obtain ⟨keys, state, journal, hinterrupted, -⟩ := hw.takenOver
    rw [hinterrupted]
    exact nofun
  · intro p hprocess
    have htracks := hw.process p hprocess
    constructor
    · intro hstage key hkey habsent
      unfold unmanaged at hkey
      rw [List.mem_filter, Bool.and_eq_true, decide_eq_true_eq, Option.isSome_iff_ne_none] at hkey
      exact hkey.2.2 (htracks.started hstage key ⟨hkey.2.1, habsent⟩).1
    · intro retained hstage
      refine ⟨htracks.verified (by rw [hstage]; exact nofun) (by rw [hstage]; exact nofun)
        (by rw [hstage]; exact nofun), fun key hthere habsent => ?_⟩
      have hkept := htracks.stays_verified (fun _ _ _ => by rw [hstage]; exact ⟨nofun, nofun, nofun⟩)
        ⟨hthere, habsent⟩
      refine hkept.imp id fun hretained => ?_
      have hlisted := htracks.listed key (.inr hretained)
      have hdevice := htracks.devices key hretained
      rw [hstage] at hretained
      exact ⟨hretained, hdevice, hlisted⟩

def demoResumed : List (Event Nat) :=
  demoInterrupted ++ [.start demoDesired, .prepare, .request true .accepted,
    .request true .accepted, .mutate, .verify, .commit, .save]

theorem owned_of_resumed_demo : ∃ w p, demoResumed.foldlM demoStep (.initial demoConfig) = some w ∧
    w.process = some p ∧ p.stage = .saved [] ∧
      ∀ key, w.config key ≠ none → demoConfig key = none →
        key ∈ p.desired.keys ∨ key ∈ ([] : List Key) ∧ key.isFolder = false ∧ key ∈ w.state.owned := by
  refine ⟨_, _, rfl, rfl, rfl, ?_⟩
  have hresumes : ∀ w : World Nat, (∀ j ∈ w.journal, j.desired = demoDesired) →
      Resumes w (.start demoDesired) := by
    intro w hw j hj _ key hkey _
    rw [hw j hj] at hkey
    exact .inr hkey
  have hrun : Run (ResumedStep demoGeneration demoSubset) (.initial demoConfig) demoResumed _ :=
    .cons ⟨rfl, hresumes _ nofun⟩ <| .cons ⟨rfl, trivial⟩ <| .cons ⟨rfl, trivial⟩ <|
    .cons ⟨rfl, trivial⟩ <| .cons ⟨rfl, hresumes _ (by rintro j ⟨⟩; rfl)⟩ <| .cons ⟨rfl, trivial⟩ <|
    .cons ⟨rfl, trivial⟩ <| .cons ⟨rfl, trivial⟩ <| .cons ⟨rfl, trivial⟩ <| .cons ⟨rfl, trivial⟩ <|
    .cons ⟨rfl, trivial⟩ <| .cons ⟨rfl, trivial⟩ <| .nil _
  exact ((owned_of_resumed ⟨demoResumed, hrun⟩).2 _ rfl).2 [] rfl |>.2

/-- A run that desires nothing is interrupted behind its journal; the next one desires again. -/
def demoForgotten : List (Event Nat) :=
  demoInterrupted ++ [.start ⟨[], []⟩, .prepare, .kill, .start demoDesired]

example : ∃ w p, demoForgotten.foldlM demoStep (.initial demoConfig) = some w ∧
    w.process = some p ∧ unmanaged w.config p = [.device "phone".toList] :=
  ⟨_, _, rfl, rfl, rfl⟩

end NixNas.Syncthing
