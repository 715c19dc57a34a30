import Mathlib.Data.List.Induction

/-!
# Settling units one after the other

A start of a unit also starts what it requires, and a stop also stops what depends on it.  Units are
brought back to the activity that they had, in the order of a list.
-/

namespace Settling

variable {α : Type*}
variable {active' : α → Bool}

/-- What starts and what stops along with a unit. -/
structure Dependencies (α : Type*) where
  pulls : α → α → Bool
  drops : α → α → Bool
  pulls_self : ∀ a, pulls a a = true
  drops_self : ∀ a, drops a a = true
  pulls_trans : ∀ {a b c}, pulls a b = true → pulls b c = true → pulls a c = true
  drops_trans : ∀ {a b c}, drops a b = true → drops b c = true → drops a c = true
  /-- A unit is stopped with what it requires. -/
  drops_of_pulls : ∀ {a b}, pulls a b = true → drops b a = true

def Dependencies.apart [DecidableEq α] : Dependencies α where
  pulls a b := a = b
  drops a b := a = b
  pulls_self _ := decide_eq_true rfl
  drops_self _ := decide_eq_true rfl
  pulls_trans h h' := decide_eq_true ((of_decide_eq_true h).trans (of_decide_eq_true h'))
  drops_trans h h' := decide_eq_true ((of_decide_eq_true h).trans (of_decide_eq_true h'))
  drops_of_pulls h := decide_eq_true (of_decide_eq_true h).symm

variable (deps : Dependencies α) (was : α → Bool)

def Dependencies.start (unit : α) (active : α → Bool) : α → Bool := fun other ↦
  active other || deps.pulls unit other

def Dependencies.stop (unit : α) (active : α → Bool) : α → Bool := fun other ↦
  active other && !deps.drops unit other

def settleOne (active : α → Bool) (unit : α) : α → Bool :=
  if active unit = was unit then active
  else if was unit then deps.start unit active
  else deps.stop unit active

def settle (units : List α) (active : α → Bool) : α → Bool :=
  units.foldl (settleOne deps was) active

/-- A unit that was active while one that it requires was not is active still, and is stopped with
none of those that are to be stopped. -/
def Required (left : α → Bool) (units : List α) : Prop :=
  ∀ a ∈ units, ∀ b ∈ units, was a = true → was b = false → deps.pulls a b = true →
    left a = true ∧ ∀ y ∈ units, was y = false → left y = true → deps.drops y a = false

/-- The units can be settled in this order, from the activity `left`. -/
structure Restorable (left : α → Bool) (units : List α) : Prop where
  requirements : Required deps was left units
  /-- What is stopped along with a unit after its own turn is started again along with a later one,
  unless the unit has itself been stopped along with an earlier one. -/
  dependents : ∀ before y after, units = before ++ y :: after → was y = false → left y = true →
    (∀ y' ∈ before, was y' = false → left y' = true → deps.drops y' y = false) →
    ∀ x ∈ before, was x = true → deps.drops y x = true →
      ∃ z ∈ after, was z = true ∧ deps.pulls z x = true

variable {deps was} {left active : α → Bool} {units before rest : List α} {unit a b x y : α}

theorem restorable_apart [DecidableEq α] : Restorable .apart was left units where
  requirements := by
    intro a _ b _ hwas hno hpulls
    rw [of_decide_eq_true hpulls, hno] at hwas
    cases hwas
  dependents := by
    intro before y after _ hno _ _ x _ hwas hdrops
    rw [← of_decide_eq_true hdrops, hno] at hwas
    cases hwas

theorem settleOne_cases (deps : Dependencies α) (was active : α → Bool) (unit : α) :
    active unit = was unit ∧ settleOne deps was active unit = active ∨
      was unit = true ∧ active unit = false ∧
        settleOne deps was active unit = deps.start unit active ∨
      was unit = false ∧ active unit = true ∧
        settleOne deps was active unit = deps.stop unit active := by
  unfold settleOne
  cases hwas : was unit <;> cases hactive : active unit <;> simp

theorem start_apply : deps.start unit active x = true ↔
    active x = true ∨ deps.pulls unit x = true := by
  unfold Dependencies.start
  rw [Bool.or_eq_true]

theorem stop_apply : deps.stop unit active x = true ↔
    active x = true ∧ deps.drops unit x = false := by
  unfold Dependencies.stop
  rw [Bool.and_eq_true, Bool.not_eq_true']

theorem settle_append (units units' : List α) (active : α → Bool) :
    settle deps was (units ++ units') active =
      settle deps was units' (settle deps was units active) := List.foldl_append

theorem settle_cons (units : List α) (active : α → Bool) :
    settle deps was (unit :: units) active =
      settle deps was units (settleOne deps was active unit) := rfl

/-! ## Units that are not to be active -/

/-- No unit is started that was not active, and what was to be stopped is known. -/
structure Kept (deps : Dependencies α) (was left : α → Bool) (units before : List α)
    (active : α → Bool) : Prop where
  notStarted : ∀ v ∈ units, was v = false → active v = true → left v = true
  stopped : ∀ v ∈ units, left v = true → active v = false →
    ∃ y ∈ before, was y = false ∧ left y = true ∧ deps.drops y v = true
  gone : ∀ y ∈ before, was y = false → left y = true → ∀ v ∈ units, was v = false →
    deps.drops y v = true → active v = false

/-- Nothing that was not active is started, as far as the requirements are met. -/
theorem Kept.notPulled (h : Kept deps was left units before active)
    (hrequirements : Required deps was left units)
    (hbefore : before ⊆ units) (hunit : unit ∈ units) (hwas : was unit = true)
    (hactive : active unit = false) :
    ∀ v ∈ units, was v = false → deps.start unit active v = active v := by
  intro v hv hno
  unfold Dependencies.start
  cases hpulls : deps.pulls unit v with
  | false => exact Bool.or_false _
  | true =>
    obtain ⟨hleft, hnone⟩ := hrequirements unit hunit v hv hwas hno hpulls
    obtain ⟨y, hy, hyno, hyleft, hdrops⟩ := h.stopped unit hunit hleft hactive
    rw [hnone y (hbefore hy) hyno hyleft] at hdrops
    cases hdrops

theorem Kept.settleOne (h : Kept deps was left units before active)
    (hrequirements : Required deps was left units)
    (hbefore : before ⊆ units) (hunit : unit ∈ units) :
    Kept deps was left units (before ++ [unit]) (settleOne deps was active unit) := by
  -- what is inactive at its turn has been stopped with another one
  have hgone : active unit = false → was unit = false → left unit = true → ∀ v ∈ units,
      was v = false → deps.drops unit v = true → active v = false := by
    intro hactive hno hleft v hv hvno hdrops
    obtain ⟨y, hy, hyno, hyleft, hydrops⟩ := h.stopped unit hunit hleft hactive
    exact h.gone y hy hyno hyleft v hv hvno (deps.drops_trans hydrops hdrops)
  have hstopped : ∀ v ∈ units, left v = true → active v = false →
      ∃ y ∈ before ++ [unit], was y = false ∧ left y = true ∧ deps.drops y v = true := by
    intro v hv hleft hactive
    obtain ⟨y, hy, hrest⟩ := h.stopped v hv hleft hactive
    exact ⟨y, List.mem_append_left _ hy, hrest⟩
  rcases settleOne_cases deps was active unit with ⟨hsame, heq⟩ | ⟨hwas, hactive, heq⟩ |
    ⟨hwas, hactive, heq⟩
  · rw [heq]
    refine ⟨h.notStarted, hstopped, ?_⟩
    rw [List.forall_mem_append, List.forall_mem_singleton]
    exact ⟨h.gone, fun hno => hgone (hsame.trans hno) hno⟩
  · rw [heq]
    have hkeep := h.notPulled hrequirements hbefore hunit hwas hactive
    refine ⟨?_, ?_, ?_⟩
    · intro v hv hno hstart
      rw [hkeep v hv hno] at hstart
      exact h.notStarted v hv hno hstart
    · intro v hv hleft hstart
      exact hstopped v hv hleft (Bool.or_eq_false_iff.mp hstart).1
    · rw [List.forall_mem_append, List.forall_mem_singleton]
      refine ⟨?_, fun hno => ?_⟩
      · intro y hy hyno hyleft v hv hno hdrops
        rw [hkeep v hv hno]
        exact h.gone y hy hyno hyleft v hv hno hdrops
      · rw [hwas] at hno
        cases hno
  · rw [heq]
    have hfewer : ∀ v, active v = false → deps.stop unit active v = false := by
      intro v hv
      unfold Dependencies.stop
      rw [hv, Bool.false_and]
    refine ⟨?_, ?_, ?_⟩
    · intro v hv hno hstop
      exact h.notStarted v hv hno (stop_apply.mp hstop).1
    · intro v hv hleft hstop
      cases hv' : active v with
      | false => exact hstopped v hv hleft hv'
      | true =>
        refine ⟨unit, List.mem_append_right _ (List.mem_singleton_self unit), hwas,
          h.notStarted unit hunit hwas hactive, ?_⟩
        unfold Dependencies.stop at hstop
        rw [hv', Bool.true_and, Bool.not_eq_false'] at hstop
        exact hstop
    · rw [List.forall_mem_append, List.forall_mem_singleton]
      refine ⟨?_, ?_⟩
      · intro y hy hyno hyleft v hv hno hdrops
        exact hfewer v (h.gone y hy hyno hyleft v hv hno hdrops)
      · intro _ _ v _ _ hdrops
        unfold Dependencies.stop
        rw [hdrops, Bool.not_true, Bool.and_false]

theorem kept_settle
    (hrequirements : Required deps was left units)
    (hbefore : before ⊆ units) :
    Kept deps was left units before (settle deps was before left) := by
  induction before using List.reverseRecOn with
  | nil =>
    refine ⟨fun _ _ _ h => h, fun v _ hleft hactive => ?_, List.forall_mem_nil _⟩
    cases hleft.symm.trans hactive
  | append_singleton before unit ih =>
    obtain ⟨hfront, hunit⟩ := List.append_subset.mp hbefore
    rw [settle_append]
    exact (ih hfront).settleOne hrequirements hfront (hunit (List.mem_singleton_self unit))

/-! ## Units whose turn is over -/

/-- What had its turn is as it was, or comes back with a unit whose turn is still to come. -/
structure Done (deps : Dependencies α) (was : α → Bool) (before rest : List α) (active : α → Bool) :
    Prop where
  off : ∀ v ∈ before, was v = false → active v = false
  on : ∀ v ∈ before, was v = true → active v = true ∨
    ∃ z ∈ rest, was z = true ∧ deps.pulls z v = true ∧ (active z = true → active v = true)

theorem Done.settleOne (h : Done deps was before (unit :: rest) active)
    (hcan : Restorable deps was left units) (hunits : units = before ++ unit :: rest)
    (hkept : Kept deps was left units before active) :
    Done deps was (before ++ [unit]) rest (settleOne deps was active unit) := by
  have hbefore : before ⊆ units := by
    rw [hunits]
    exact List.subset_append_left _ _
  have hunit : unit ∈ units := by
    rw [hunits]
    exact List.mem_append_right _ List.mem_cons_self
  rcases settleOne_cases deps was active unit with ⟨hsame, heq⟩ | ⟨hwas, hactive, heq⟩ |
    ⟨hwas, hactive, heq⟩
  · rw [heq]
    refine ⟨?_, ?_⟩
    · rw [List.forall_mem_append, List.forall_mem_singleton]
      exact ⟨h.off, hsame.trans⟩
    · rw [List.forall_mem_append, List.forall_mem_singleton]
      refine ⟨fun v hv hwas => ?_, fun hwas => .inl (hsame.trans hwas)⟩
      obtain hon | ⟨z, hz, hzwas, hpulls, hlink⟩ := h.on v hv hwas
      · exact .inl hon
      · rcases List.mem_cons.mp hz with rfl | hz
        · exact .inl (hlink (hsame.trans hzwas))
        · exact .inr ⟨z, hz, hzwas, hpulls, hlink⟩
  · rw [heq]
    refine ⟨?_, ?_⟩
    · rw [List.forall_mem_append, List.forall_mem_singleton]
      refine ⟨fun v hv hno => ?_, fun hno => ?_⟩
      · rw [hkept.notPulled hcan.requirements hbefore hunit hwas hactive v (hbefore hv) hno]
        exact h.off v hv hno
      · rw [hwas] at hno
        cases hno
    · rw [List.forall_mem_append, List.forall_mem_singleton]
      refine ⟨fun v hv hvwas => ?_, fun _ => .inl (start_apply.mpr (.inr (deps.pulls_self unit)))⟩
      obtain hon | ⟨z, hz, hzwas, hpulls, hlink⟩ := h.on v hv hvwas
      · exact .inl (start_apply.mpr (.inl hon))
      · rcases List.mem_cons.mp hz with rfl | hz
        · exact .inl (start_apply.mpr (.inr hpulls))
        · refine .inr ⟨z, hz, hzwas, hpulls, fun hzstart => start_apply.mpr ?_⟩
          exact (start_apply.mp hzstart).imp hlink fun hpull => deps.pulls_trans hpull hpulls
  · rw [heq]
    have hleft := hkept.notStarted unit hunit hwas hactive
    -- the unit has not been stopped along with an earlier one
    have hfirst : ∀ y' ∈ before, was y' = false → left y' = true → deps.drops y' unit = false := by
      intro y' hy hno hyleft
      rw [← Bool.not_eq_true]
      intro hdrops
      cases hactive.symm.trans (hkept.gone y' hy hno hyleft unit hunit hwas hdrops)
    refine ⟨?_, ?_⟩
    · rw [List.forall_mem_append, List.forall_mem_singleton]
      refine ⟨fun v hv hno => ?_, fun _ => ?_⟩
      · unfold Dependencies.stop
        rw [h.off v hv hno, Bool.false_and]
      · unfold Dependencies.stop
        rw [deps.drops_self, Bool.not_true, Bool.and_false]
    · rw [List.forall_mem_append, List.forall_mem_singleton]
      refine ⟨fun v hv hvwas => ?_, fun hyes => ?_⟩
      · cases hdrops : deps.drops unit v with
        | true =>
          obtain ⟨z, hz, hzwas, hpulls⟩ :=
            hcan.dependents before unit rest hunits hwas hleft hfirst v hv hvwas hdrops
          refine .inr ⟨z, hz, hzwas, hpulls, fun hzstop => ?_⟩
          have hzdrops := deps.drops_trans hdrops (deps.drops_of_pulls hpulls)
          cases hzdrops.symm.trans (stop_apply.mp hzstop).2
        | false =>
          obtain hon | ⟨z, hz, hzwas, hpulls, hlink⟩ := h.on v hv hvwas
          · exact .inl (stop_apply.mpr ⟨hon, hdrops⟩)
          · rcases List.mem_cons.mp hz with rfl | hz
            · cases hzwas.symm.trans hwas
            · exact .inr ⟨z, hz, hzwas, hpulls, fun hzstop =>
                stop_apply.mpr ⟨hlink (stop_apply.mp hzstop).1, hdrops⟩⟩
      · cases hyes.symm.trans hwas

theorem done_settle (hcan : Restorable deps was left units) (hunits : units = before ++ rest) :
    Done deps was before rest (settle deps was before left) := by
  induction before using List.reverseRecOn generalizing rest with
  | nil => exact ⟨List.forall_mem_nil _, List.forall_mem_nil _⟩
  | append_singleton before unit ih =>
    rw [List.append_assoc, List.singleton_append] at hunits
    have hfront : before ⊆ units := by
      rw [hunits]
      exact List.subset_append_left _ _
    rw [settle_append]
    exact (ih hunits).settleOne hcan hunits (kept_settle hcan.requirements hfront)

/-! ## What cannot be settled -/

/-- A unit is not active without what it requires, once one of them has been touched. -/
theorem linked_settleOne (hpulls : deps.pulls a b = true)
    (h : active a = true → active b = true) :
    settleOne deps was active unit a = true → settleOne deps was active unit b = true := by
  rcases settleOne_cases deps was active unit with ⟨-, heq⟩ | ⟨-, -, heq⟩ | ⟨-, -, heq⟩
  · rwa [heq]
  · rw [heq, start_apply, start_apply]
    exact Or.imp h fun hpull => deps.pulls_trans hpull hpulls
  · rw [heq, stop_apply, stop_apply]
    rintro ⟨hactive, hdrops⟩
    refine ⟨h hactive, ?_⟩
    rw [← Bool.not_eq_true]
    intro hb
    cases (deps.drops_trans hb (deps.drops_of_pulls hpulls)).symm.trans hdrops

theorem linked_settle (hpulls : deps.pulls a b = true) (h : active a = true → active b = true) :
    settle deps was units active a = true → settle deps was units active b = true := by
  induction units generalizing active with
  | nil => exact h
  | cons unit units ih => exact ih (linked_settleOne hpulls h)

/-- A unit that is to be stopped is active until it has been stopped along with another one. -/
theorem linked_or_active (hpulls : deps.pulls a b = true) (hdrops : deps.drops y a = true)
    (h : (active a = true → active b = true) ∨ active y = true) :
    (settle deps was units active a = true → settle deps was units active b = true) ∨
      settle deps was units active y = true := by
  induction units generalizing active with
  | nil => exact h
  | cons unit units ih =>
    apply ih
    rcases h with hlinked | hactive
    · exact .inl (linked_settleOne hpulls hlinked)
    · rcases settleOne_cases deps was active unit with ⟨-, heq⟩ | ⟨-, -, heq⟩ | ⟨-, -, heq⟩
      · rw [heq]
        exact .inr hactive
      · rw [heq]
        exact .inr (start_apply.mpr (.inl hactive))
      · rw [heq]
        cases hy : deps.drops unit y with
        | false => exact .inr (stop_apply.mpr ⟨hactive, hy⟩)
        | true =>
          refine .inl fun hstop => ?_
          cases (deps.drops_trans hy hdrops).symm.trans (stop_apply.mp hstop).2

/-- At its turn it is stopped, if it has not been. -/
theorem linked_of_stop (hpulls : deps.pulls a b = true) (hdrops : deps.drops y a = true)
    (hwas : was y = false) (h : (active a = true → active b = true) ∨ active y = true) :
    settleOne deps was active y a = true → settleOne deps was active y b = true := by
  rcases h with hlinked | hactive
  · exact linked_settleOne hpulls hlinked
  · rcases settleOne_cases deps was active y with ⟨hsame, -⟩ | ⟨hyes, -, -⟩ | ⟨-, -, heq⟩
    · cases hactive.symm.trans (hsame.trans hwas)
    · cases hyes.symm.trans hwas
    · rw [heq]
      intro hstop
      cases hdrops.symm.trans (stop_apply.mp hstop).2

theorem required_of_settled (h : ∀ u ∈ units, settle deps was units left u = was u) :
    Required deps was left units := by
  intro a ha b hb hwas hno hpulls
  have hunlinked : ¬ (settle deps was units left a = true → settle deps was units left b = true) := by
    rw [h a ha, h b hb, hwas, hno]
    exact fun himp => Bool.false_ne_true (himp rfl)
  constructor
  · rw [← Bool.not_eq_false]
    intro hleft
    apply hunlinked
    apply linked_settle hpulls
    rw [hleft]
    exact fun hfalse => (Bool.false_ne_true hfalse).elim
  · intro y hy hyno hyleft
    rw [← Bool.not_eq_true]
    intro hdrops
    obtain ⟨before, after, rfl⟩ := List.append_of_mem hy
    apply hunlinked
    rw [settle_append, settle_cons]
    apply linked_settle hpulls
    exact linked_of_stop hpulls hdrops hyno (linked_or_active hpulls hdrops (.inr hyleft))

theorem settle_off (hactive : active x = false)
    (h : ∀ z ∈ units, was z = true → deps.pulls z x = false) :
    settle deps was units active x = false := by
  induction units generalizing active with
  | nil => exact hactive
  | cons unit units ih =>
    obtain ⟨hunit, hunits⟩ := List.forall_mem_cons.mp h
    refine ih ?_ hunits
    rcases settleOne_cases deps was active unit with ⟨-, heq⟩ | ⟨hwas, -, heq⟩ | ⟨-, -, heq⟩
    · rw [heq]
      exact hactive
    · rw [heq]
      unfold Dependencies.start
      rw [hactive, hunit hwas]
      rfl
    · rw [heq]
      unfold Dependencies.stop
      rw [hactive, Bool.false_and]

/-- Every unit is as it was exactly when the units can be settled in this order. -/
theorem settled_iff :
    (∀ u ∈ units, settle deps was units left u = was u) ↔ Restorable deps was left units := by
  constructor
  · intro h
    have hrequirements := required_of_settled h
    refine ⟨hrequirements, ?_⟩
    rintro before y after rfl hno hleft hfirst x hx hwas hdrops
    have hy : y ∈ before ++ y :: after := List.mem_append_right _ List.mem_cons_self
    have hkept := kept_settle hrequirements (List.subset_append_left before (y :: after))
    have hactive : settle deps was before left y = true := by
      rw [← Bool.not_eq_false]
      intro hactive
      obtain ⟨y', hy', hno', hleft', hdrops'⟩ := hkept.stopped y hy hleft hactive
      cases hdrops'.symm.trans (hfirst y' hy' hno' hleft')
    have hstop : settleOne deps was (settle deps was before left) y x = false := by
      rcases settleOne_cases deps was (settle deps was before left) y with ⟨hsame, -⟩ |
        ⟨hyes, -, -⟩ | ⟨-, -, heq⟩
      · cases hactive.symm.trans (hsame.trans hno)
      · cases hyes.symm.trans hno
      · rw [heq]
        unfold Dependencies.stop
        rw [hdrops, Bool.not_true, Bool.and_false]
    by_contra hnone
    have hfinal : settle deps was (before ++ y :: after) left x = false := by
      rw [settle_append, settle_cons]
      refine settle_off hstop fun z hz hzwas => ?_
      rw [← Bool.not_eq_true]
      exact fun hpulls => hnone ⟨z, hz, hzwas, hpulls⟩
    rw [h x (List.mem_append_left _ hx), hwas] at hfinal
    cases hfinal
  · intro h u hu
    have hdone := done_settle h (List.append_nil units).symm
    cases hwas : was u with
    | false => exact hdone.off u hu hwas
    | true =>
      obtain hon | ⟨z, hz, -⟩ := hdone.on u hu hwas
      · exact hon
      · cases hz

theorem settleOne_self : settleOne deps was active unit unit = was unit := by
  rcases settleOne_cases deps was active unit with ⟨hsame, heq⟩ | ⟨hwas, -, heq⟩ | ⟨hwas, -, heq⟩
  · rw [heq, hsame]
  · rw [heq, hwas]
    exact start_apply.mpr (.inr (deps.pulls_self unit))
  · rw [heq, hwas]
    unfold Dependencies.stop
    rw [deps.drops_self, Bool.not_true, Bool.and_false]

theorem settleOne_apart (hpulls : deps.pulls unit x = false) (hdrops : deps.drops unit x = false) :
    settleOne deps was active unit x = active x := by
  rcases settleOne_cases deps was active unit with ⟨-, heq⟩ | ⟨-, -, heq⟩ | ⟨-, -, heq⟩
  · rw [heq]
  · rw [heq]
    unfold Dependencies.start
    rw [hpulls, Bool.or_false]
  · rw [heq]
    unfold Dependencies.stop
    rw [hdrops, Bool.not_false, Bool.and_true]

theorem settle_apart (hx : x ∈ units)
    (h : ∀ v ∈ units, deps.pulls v x = true ∨ deps.drops v x = true → v = x) :
    settle deps was units active x = was x := by
  have hstay : ∀ {units : List α} {active : α → Bool},
      (∀ v ∈ units, deps.pulls v x = true ∨ deps.drops v x = true → v = x) →
        active x = was x → settle deps was units active x = was x := by
    intro units
    induction units with
    | nil => exact fun _ hactive => hactive
    | cons unit units ih =>
      intro active h hactive
      obtain ⟨hunit, hunits⟩ := List.forall_mem_cons.mp h
      refine ih hunits ?_
      by_cases hsame : unit = x
      · rw [hsame]
        exact settleOne_self
      · rw [settleOne_apart (Bool.eq_false_iff.mpr fun hpulls => hsame (hunit (.inl hpulls)))
          (Bool.eq_false_iff.mpr fun hdrops => hsame (hunit (.inr hdrops))), hactive]
  obtain ⟨before, after, rfl⟩ := List.append_of_mem hx
  rw [settle_append, settle_cons]
  refine hstay (fun v hv => h v ?_) settleOne_self
  exact List.mem_append_right _ (List.mem_cons_of_mem _ hv)

theorem settleOne_congr (hunit : active unit = active' unit) (hx : active x = active' x) :
    settleOne deps was active unit x = settleOne deps was active' unit x := by
  unfold settleOne
  rw [hunit]
  split
  · exact hx
  · split
    · unfold Dependencies.start
      rw [hx]
    · unfold Dependencies.stop
      rw [hx]

/-- Units that touch none of the others can be left out. -/
theorem settle_filter {P : α → Bool} {all : List α} (hunits : units ⊆ all)
    (h : ∀ v ∈ all, P v = false → ∀ x ∈ all, P x = true →
      deps.pulls v x = false ∧ deps.drops v x = false)
    (hactive : ∀ x ∈ all, P x = true → active x = active' x) :
    ∀ x ∈ all, P x = true →
      settle deps was units active x = settle deps was (units.filter P) active' x := by
  induction units generalizing active active' with
  | nil => exact hactive
  | cons unit units ih =>
    obtain ⟨hunit, hrest⟩ := List.cons_subset.mp hunits
    cases hP : P unit with
    | true =>
      rw [List.filter_cons_of_pos hP]
      exact ih hrest fun x hx hPx => settleOne_congr (hactive unit hunit hP) (hactive x hx hPx)
    | false =>
      rw [List.filter_cons_of_neg (Bool.eq_false_iff.mp hP)]
      refine ih hrest fun x hx hPx => ?_
      obtain ⟨hpulls, hdrops⟩ := h unit hunit hP x hx hPx
      rw [settleOne_apart hpulls hdrops, hactive x hx hPx]

end Settling
