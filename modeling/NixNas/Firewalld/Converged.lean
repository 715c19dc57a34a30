import Mathlib.Data.Finset.Lattice.Lemmas
import Mathlib.Data.Finset.Dedup
import NixNas.Firewalld.Manifest
import NixNas.Firewalld.Native

/-!
# The firewall that runs is what was compiled

A run brings the objects of the projection to exactly what the manifest says, whatever earlier runs
left, and touches no other object.  Wherever runs are cut off, the running firewall has the objects
of one manifest, whole.
-/

open Fallible Transition NixNas.Spec NixNas.Authentik NixNas.Session

namespace NixNas.Firewalld

variable {F : Type} {float : FloatEq F} {networks : IpNetworks}
variable {name : Text} {o : Object F} {u : Unit} {entry : Plain F} {isZone : Bool}
  {desired : Desired F} {store : Objects}

/-! ## What is wanted -/

def nativeOf : Text × Bool × Object F → Native
  | (_, true, o) => .zone {fieldAt "interface" o}
  | (_, false, o) => .policy
    { target := fieldAt "target" o
      priority := priorityAt o
      ingress := {fieldAt "ingress" o}
      egress := {fieldAt "egress" o}
      ports := ((itemsAt "ports" o).map portPair).toFinset
      forwardPorts := ((itemsAt "forwardPorts" o).map portTriple).toFinset
      richRules := ((itemsAt "richRules" o).map ruleText).toFinset }

def projected (desired : Desired F) (store : Objects) : Objects := fun key ↦
  if isOurs key then (desired.find? fun e ↦ keyOf e = key).map nativeOf else store key

theorem isZoneName_of_checkZone (h : checkZone name o = .ok u) : isZoneName name = true := by
  unfold checkZone at h
  split at h
  · cases h
  · rename_i hnot
    rw [Bool.not_eq_true, Bool.or_eq_false_iff, Bool.not_eq_false'] at hnot
    exact hnot.1

theorem isZoneName_of_checkPolicy
    (h : checkPolicy networks name o = .ok u) : isZoneName name = false := by
  unfold checkPolicy at h
  split at h
  · cases h
  · rename_i hnot
    rw [Bool.not_eq_true, Bool.or_eq_false_iff] at hnot
    exact hnot.1

theorem checkObject_ours
    (h : checkObject networks entry = .ok (isZone, name, o)) : isOurs (isZone, name) = true := by
  unfold checkObject at h
  split at h
  · split at h
    · rename_i kind name' _ _
      split at h
      · cases h
      · rename_i howned
        simp only [not_or, Bool.not_eq_false] at howned
        split at h
        · obtain ⟨u, hzone, hok⟩ := bind_ok h
          cases hok
          simp [isOurs, howned.2, isZoneName_of_checkZone hzone]
        · obtain ⟨u, hpolicy, hok⟩ := bind_ok h
          cases hok
          simp [isOurs, howned.2, isZoneName_of_checkPolicy hpolicy]
    · cases h
  · cases h

/-- The names are different, and all of them are the projection's. -/
def Ours (desired : Desired F) : Prop :=
  (desired.map Prod.fst).Nodup ∧ ∀ e ∈ desired, isOurs (keyOf e) = true

theorem Ours.add {desired' : Desired F} (h : Ours desired)
    (hadd : addDesired networks desired entry = .ok desired') : Ours desired' := by
  unfold addDesired at hadd
  obtain ⟨⟨isZone, name, o⟩, hcheck, hadd⟩ := bind_ok hadd
  dsimp only at hadd
  split at hadd
  · cases hadd
  · rename_i hnew
    cases hadd
    refine ⟨?_, ?_⟩
    · rw [List.map_append, List.map_singleton, ← List.concat_eq_append]
      exact h.1.concat hnew
    · intro e he
      rcases List.mem_append.mp he with he | he
      · exact h.2 e he
      · rw [List.mem_singleton] at he
        rw [he]
        exact checkObject_ours hcheck

theorem readProjection_ours {manifest : Plain F}
    (h : readProjection float networks manifest = .ok desired) : Ours desired := by
  unfold readProjection at h
  split at h
  · split at h
    · cases h
    · split at h
      · obtain ⟨desired', hread, h⟩ := bind_ok h
        obtain ⟨_, -, hok⟩ := bind_ok h
        cases hok
        apply foldlM_invariant hread
        · exact ⟨List.nodup_nil, fun _ he => (by cases he)⟩
        · intro _ _ _ _ hours hadd
          exact hours.add hadd
      · cases h
  · cases h

/-! ## The commands of one object -/

theorem key_applyObject (e : Text × Bool × Object F) : ∀ c ∈ applyObject e, c.key = keyOf e := by
  obtain ⟨name, isZone, o⟩ := e
  intro c hc
  cases isZone with
  | true =>
    simp only [applyObject, applyZone, List.mem_cons, List.not_mem_nil, or_false] at hc
    rcases hc with rfl | rfl <;> rfl
  | false =>
    simp only [applyObject, applyPolicy, List.mem_append, List.mem_cons, List.not_mem_nil, or_false,
      List.mem_map] at hc
    rcases hc with (((rfl | rfl | rfl | rfl | rfl) | ⟨_, _, rfl⟩) | ⟨_, _, rfl⟩) | ⟨_, _, rfl⟩ <;> rfl

theorem foldl_act_policy {α β : Type} [DecidableEq β] (command : α → Change) (value : α → β)
    (put : Finset β → PolicySettings)
    (hact : ∀ a values, (command a).act (some (.policy (put values))) =
      some (.policy (put (insert (value a) values)))) (items : List α) (values : Finset β) :
    (items.map command).foldl (fun v c ↦ c.act v) (some (.policy (put values))) =
      some (.policy (put (values ∪ (items.map value).toFinset))) := by
  induction items generalizing values with
  | nil => simp
  | cons a items ih =>
    rw [List.map_cons, List.foldl_cons, hact, ih, List.map_cons, List.toFinset_cons]
    congr 3
    rw [Finset.insert_union, Finset.union_insert]

theorem act_applyObject (e : Text × Bool × Object F) :
    (applyObject e).foldl (fun v c ↦ c.act v) none = some (nativeOf e) := by
  obtain ⟨name, isZone, o⟩ := e
  cases isZone with
  | true => rfl
  | false =>
    let base : PolicySettings := { PolicySettings.new with
      target := fieldAt "target" o
      priority := priorityAt o
      ingress := {fieldAt "ingress" o}
      egress := {fieldAt "egress" o} }
    have hports := foldl_act_policy (Change.addPort name ∘ portPair) portPair
      (fun ports ↦ { base with ports }) (fun _ _ => rfl) (itemsAt "ports" o) ∅
    have hforwards := foldl_act_policy (Change.addForwardPort name ∘ portTriple) portTriple
      (fun forwardPorts ↦ { base with
        ports := ((itemsAt "ports" o).map portPair).toFinset, forwardPorts })
      (fun _ _ => rfl) (itemsAt "forwardPorts" o) ∅
    have hrules := foldl_act_policy (Change.addRichRule name ∘ ruleText) ruleText
      (fun richRules ↦ { base with
        ports := ((itemsAt "ports" o).map portPair).toFinset
        forwardPorts := ((itemsAt "forwardPorts" o).map portTriple).toFinset, richRules })
      (fun _ _ => rfl) (itemsAt "richRules" o) ∅
    rw [Finset.empty_union] at hports hforwards hrules
    let run (cs : List Change) (v : Option Native) := cs.foldl (fun v c ↦ c.act v) v
    let ports := (itemsAt "ports" o).map (Change.addPort name ∘ portPair)
    let forwards := (itemsAt "forwardPorts" o).map (Change.addForwardPort name ∘ portTriple)
    let rules := (itemsAt "richRules" o).map (Change.addRichRule name ∘ ruleText)
    simp only [applyObject, applyPolicy, List.foldl_append]
    calc run rules (run forwards (run ports (some (.policy base))))
      _ = run rules (run forwards _) := congrArg (fun v ↦ run rules (run forwards v)) hports
      _ = run rules _ := congrArg (run rules) hforwards
      _ = _ := hrules

/-! ## The plan -/

theorem run_delete (store : Objects) (keys : List Key) (key : Key) :
    changes.run store (keys.map .delete) key = if key ∈ keys then none else store key := by
  induction keys generalizing store with
  | nil => rfl
  | cons k keys ih =>
    have hrest := ih (changes.step store (.delete k))
    rw [changes.step_apply] at hrest
    rw [List.map_cons]
    refine hrest.trans ?_
    by_cases hk : key = k
    · simp [hk, changes, Change.key, Change.act]
    · simp [hk, changes, Change.key, Ne.symm hk]

theorem mem_currentOwned {names : List Text} {key : Key} :
    key ∈ currentOwned isZone names ↔ key.1 = isZone ∧ key.2 ∈ names ∧ isOurs key = true := by
  obtain ⟨kind, name⟩ := key
  simp only [currentOwned, List.mem_map, List.mem_insertionSort, List.mem_dedup, List.mem_filter,
    Prod.mk.injEq]
  constructor
  · rintro ⟨name', ⟨hname, hours⟩, rfl, rfl⟩
    exact ⟨rfl, hname, hours⟩
  · rintro ⟨rfl, hname, hours⟩
    exact ⟨name, ⟨hname, hours⟩, rfl, rfl⟩

theorem desired_perm (desired : Desired F) :
    (desiredZones desired ++ desiredPolicies desired).Perm desired := by
  have hzones : (desiredZones desired).Perm (desired.filter (·.2.1)) := List.perm_insertionSort _ _
  have hpolicies : (desiredPolicies desired).Perm (desired.filter (!·.2.1)) :=
    List.perm_insertionSort _ _
  exact (hzones.append hpolicies).trans (List.filter_append_perm _ _)

theorem Ours.keys_nodup (h : Ours desired) : (desired.map keyOf).Nodup := by
  apply List.Nodup.of_map Prod.snd
  rw [List.map_map]
  exact h.1

theorem run_plan {zones policies : List Text}
    (hzones : ∀ name, name ∈ zones ↔ store (true, name) ≠ none)
    (hpolicies : ∀ name, name ∈ policies ↔ store (false, name) ≠ none) (hours : Ours desired) :
    changes.run store (plan zones policies desired) = projected desired store := by
  funext key
  have hperm := desired_perm desired
  have hkeys : ((desiredZones desired ++ desiredPolicies desired).map keyOf).Nodup :=
    (hperm.map keyOf).nodup_iff.mpr hours.keys_nodup
  unfold plan
  rw [changes.run_append]
  generalize hcleared : changes.run store _ = cleared
  -- Every object of the projection is gone.
  have hgone : cleared key = if isOurs key then none else store key := by
    rw [← hcleared, run_delete]
    simp only [List.mem_append, mem_currentOwned]
    have hlisted : (key.1 = false ∧ key.2 ∈ policies ∧ isOurs key = true ∨
        key.1 = true ∧ key.2 ∈ zones ∧ isOurs key = true) ↔
          isOurs key = true ∧ store key ≠ none := by
      obtain ⟨isZone, name⟩ := key
      cases isZone with
      | true => simp [hzones, and_comm]
      | false => simp [hpolicies, and_comm]
    simp only [hlisted]
    by_cases hthere : store key = none <;> simp [hthere]
  unfold projected
  cases hfind : desired.find? fun e ↦ keyOf e = key with
  | some e =>
    have hmem := List.mem_of_find?_eq_some hfind
    have hkey : keyOf e = key := by simpa using List.find?_some hfind
    subst hkey
    rw [changes.run_flatMap (fun e _ => key_applyObject e) hkeys _ (hperm.mem_iff.mpr hmem), hgone,
      if_pos (hours.2 e hmem), if_pos (hours.2 e hmem)]
    exact act_applyObject e
  | none =>
    rw [changes.run_of_forall_ne, hgone]
    · rfl
    · intro c hc
      obtain ⟨e, he, hc⟩ := List.mem_flatMap.mp hc
      rw [show changes.key c = keyOf e from key_applyObject e c hc]
      simpa using List.find?_eq_none.mp hfind e (hperm.mem_iff.mp he)

/-! ## Runs -/

section Runs

variable {Host : Type} {cmd : FirewallCmd Host}
variable {zones policies : List Text} {host : Host} {manifest : Plain F} {wasOwned : Bool}
  {commands : List Command}

/-- Some of the commands have had their effect, and all of them when none has failed. -/
theorem execute_spec (hdoc : Documented cmd) (host : Host) (commands : List Command) :
    ∃ n, cmd.config (execute cmd host commands).1 =
        (commands.take n).foldl Command.effect (cmd.config host) ∧
      ((execute cmd host commands).2 = true → commands.length ≤ n) := by
  induction commands generalizing host with
  | nil => exact ⟨0, rfl, fun _ => Nat.le_refl _⟩
  | cons command commands ih =>
    rcases hrun : cmd.run host command with ⟨host', ok⟩
    cases ok with
    | true =>
      obtain ⟨n, hconfig, hlength⟩ := ih host'
      have hdone := hdoc.done host command (by rw [hrun])
      rw [hrun] at hdone
      refine ⟨n + 1, ?_, ?_⟩
      · simp only [execute, hrun, List.take_succ_cons, List.foldl_cons]
        rw [hconfig, hdone]
      · simp only [execute, hrun, List.length_cons]
        intro hok
        exact Nat.succ_le_succ (hlength hok)
    | false =>
      have hfailed := hdoc.failed host command (by rw [hrun])
      rw [hrun] at hfailed
      obtain hsame | heffect := hfailed
      · exact ⟨0, by simp [execute, hrun, hsame], by simp [execute, hrun]⟩
      · exact ⟨1, by simp [execute, hrun, heffect], by simp [execute, hrun]⟩

theorem effect_permanent (config : Config) (cs : List Change) :
    (cs.map .permanent).foldl Command.effect config =
      { config with permanent := changes.run config.permanent cs } := by
  induction cs generalizing config with
  | nil => rfl
  | cons c cs ih =>
    rw [List.map_cons, List.foldl_cons, ih]
    rfl

theorem effect_take (config : Config) (cs : List Change) (n : Nat) :
    ((commandsOf cs).take n).foldl Command.effect config =
        { config with permanent := changes.run config.permanent (cs.take n) } ∧ n < cs.length + 2 ∨
      ((commandsOf cs).take n).foldl Command.effect config =
        ⟨changes.run config.permanent cs, changes.run config.permanent cs⟩ := by
  unfold commandsOf
  by_cases hn : n < cs.length + 2
  · refine .inl ⟨?_, hn⟩
    rw [List.take_append, List.foldl_append, ← List.map_take, effect_permanent, List.length_map]
    obtain hrest | hrest : n - cs.length = 0 ∨ n - cs.length = 1 := by omega
    · rw [hrest]
      rfl
    · rw [hrest]
      rfl
  · refine .inr ?_
    rw [List.take_of_length_le (by simp; omega), List.foldl_append, effect_permanent]
    rfl

theorem key_plan (hours : Ours desired) :
    ∀ c ∈ plan zones policies desired, isOurs c.key = true := by
  intro c hc
  unfold plan at hc
  rcases List.mem_append.mp hc with hc | hc
  · obtain ⟨key, hkey, rfl⟩ := List.mem_map.mp hc
    rcases List.mem_append.mp hkey with hkey | hkey
    · exact (mem_currentOwned.mp hkey).2.2
    · exact (mem_currentOwned.mp hkey).2.2
  · obtain ⟨e, he, hc⟩ := List.mem_flatMap.mp hc
    rw [key_applyObject e c hc]
    exact hours.2 e ((desired_perm desired).mem_iff.mp he)

theorem run_take_plan (hours : Ours desired) (n : Nat) {key : Key} (hkey : isOurs key = false) :
    changes.run store ((plan zones policies desired).take n) key = store key := by
  apply changes.run_of_forall_ne
  intro c hc heq
  have hc := key_plan hours c (List.mem_of_mem_take hc)
  rw [show c.key = key from heq, hkey] at hc
  cases hc

/-- What a start leaves behind: the firewall runs as before, or with all the objects wanted. -/
inductive Left (float : FloatEq F) (networks : IpNetworks) (manifest : Plain F) (before after : Config) :
    Prop where
  | cut (hruntime : after.runtime = before.runtime)
      (hothers : ∀ key, isOurs key = false → after.permanent key = before.permanent key)
  | whole (desired : Desired F) (hread : readProjection float networks manifest = .ok desired)
      (hafter : after = ⟨projected desired before.permanent, projected desired before.permanent⟩)

theorem prepare_some (hdoc : Documented cmd)
    (h : prepare cmd float networks host manifest = some (desired, wasOwned, commands)) :
    readProjection float networks manifest = .ok desired ∧ ∃ zones policies,
      commands = commandsOf (plan zones policies desired) ∧
      changes.run (cmd.config host).permanent (plan zones policies desired) =
        projected desired (cmd.config host).permanent := by
  unfold prepare at h
  split at h
  · cases h
  · rename_i hread
    split at h
    · rename_i zones policies hzones hpolicies
      cases h
      refine ⟨hread, zones, policies, rfl, ?_⟩
      exact run_plan (hdoc.getPermanent host true zones hzones)
        (hdoc.getPermanent host false policies hpolicies) (readProjection_ours hread)
    · cases h

theorem left_of_take (hdoc : Documented cmd)
    (h : prepare cmd float networks host manifest = some (desired, wasOwned, commands)) (n : Nat) :
    Left float networks manifest (cmd.config host)
      ((commands.take n).foldl Command.effect (cmd.config host)) := by
  obtain ⟨hread, zones, policies, rfl, hplan⟩ := prepare_some hdoc h
  obtain ⟨hcut, -⟩ | hwhole := effect_take (cmd.config host) (plan zones policies desired) n
  · rw [hcut]
    exact .cut rfl fun key hkey => run_take_plan (readProjection_ours hread) n hkey
  · rw [hplan] at hwhole
    exact .whole desired hread hwhole

theorem left_of_attempt (hdoc : Documented cmd) (host : Host) (a : Attempt F) :
    Left float networks a.manifest (cmd.config host)
      (cmd.config (attempt cmd float networks host a)) := by
  have hnothing : Left float networks a.manifest (cmd.config host) (cmd.config host) :=
    .cut rfl fun _ _ => rfl
  unfold attempt
  split
  · unfold reconcile
    split
    · exact hnothing
    · rename_i hprepare
      obtain ⟨n, hconfig, -⟩ := execute_spec hdoc host _
      split
      all_goals
        rename_i hexecute
        rw [hexecute] at hconfig
        rw [hconfig]
        exact left_of_take hdoc hprepare n
  · unfold killed
    split
    · exact hnothing
    · rename_i hprepare
      obtain ⟨n, hconfig, -⟩ := execute_spec hdoc host _
      rw [hconfig, List.take_take]
      exact left_of_take hdoc hprepare _

theorem projected_congr {store' : Objects}
    (h : ∀ key, isOurs key = false → store key = store' key) :
    projected desired store = projected desired store' := by
  funext key
  unfold projected
  split
  · rfl
  · rename_i hkey
    exact h key (by simpa using hkey)

def demoCmd : FirewallCmd (List Command) :=
  let config := fun host ↦ host.foldl Command.effect ⟨fun _ ↦ none, fun _ ↦ none⟩
  let names := fun (host : List Command) isZone ↦ host.filterMap fun
    | .permanent c => if c.key.1 = isZone then some c.key.2 else none
    | _ => none
  { config
    getPermanent := fun host isZone ↦
      some ((names host isZone).filter fun name ↦ (config host).permanent (isZone, name) ≠ none)
    getRuntime := fun host isZone ↦
      some ((names host isZone).filter fun name ↦ (config host).runtime (isZone, name) ≠ none)
    state := fun _ ↦ true
    run := fun host command ↦ (host ++ [command], true) }

theorem demoCmd_absent (host : List Command) {key : Key}
    (h : ∀ c, .permanent c ∈ host → c.key ≠ key) :
    (demoCmd.config host).permanent key = none ∧ (demoCmd.config host).runtime key = none := by
  induction host using List.reverseRecOn with
  | nil => exact ⟨rfl, rfl⟩
  | append_singleton host command ih =>
    obtain ⟨hpermanent, hruntime⟩ := ih fun c hc => h c (List.mem_append_left _ hc)
    have hconfig : demoCmd.config (host ++ [command]) = command.effect (demoCmd.config host) :=
      List.foldl_append
    rw [hconfig]
    cases command with
    | permanent c =>
      refine ⟨?_, hruntime⟩
      have hne : c.key ≠ key := h c (by simp)
      exact (changes.step_apply _ c key).trans ((if_neg hne).trans hpermanent)
    | checkConfig => exact ⟨hpermanent, hruntime⟩
    | reload => exact ⟨hpermanent, hpermanent⟩

theorem demoCmd_mem {host : List Command} {isZone : Bool} {name : Text}
    (h : ∃ c, .permanent c ∈ host ∧ c.key = (isZone, name)) :
    name ∈ host.filterMap fun
      | .permanent c => if c.key.1 = isZone then some c.key.2 else none
      | _ => none := by
  obtain ⟨c, hc, hkey⟩ := h
  exact List.mem_filterMap.mpr ⟨.permanent c, hc, by simp [hkey]⟩

theorem demoCmd_documented : Documented demoCmd where
  getPermanent host isZone names hnames name := by
    cases hnames
    rw [List.mem_filter, decide_eq_true_eq]
    refine ⟨fun h => h.2, fun h => ⟨demoCmd_mem ?_, h⟩⟩
    by_contra hnone
    refine h (demoCmd_absent host fun c hc hkey => ?_).1
    exact hnone ⟨c, hc, hkey⟩
  getRuntime host isZone names hnames name := by
    cases hnames
    rw [List.mem_filter, decide_eq_true_eq]
    refine ⟨fun h => h.2, fun h => ⟨demoCmd_mem ?_, h⟩⟩
    by_contra hnone
    refine h (demoCmd_absent host fun c hc hkey => ?_).2
    exact hnone ⟨c, hc, hkey⟩
  done _ _ _ := List.foldl_append
  failed _ _ h := by cases h

/-- Over all the starts of the reconciler, whatever fails and wherever it is killed: no object of
another owner is ever touched, and the firewall runs with what it had at the beginning, or with
exactly the objects of one of the manifests. -/
theorem whole_of_run (hdoc : Documented cmd) {host host' : Host} {attempts : List (Attempt F)}
    (h : Run (fun host a host' ↦ host' = attempt cmd float networks host a) host attempts host') :
    (∀ key, isOurs key = false →
      (cmd.config host').permanent key = (cmd.config host).permanent key) ∧
    ((cmd.config host').runtime = (cmd.config host).runtime ∨
      ∃ a ∈ attempts, ∃ desired, readProjection float networks a.manifest = .ok desired ∧
        (cmd.config host').runtime = projected desired (cmd.config host).permanent) := by
  induction h with
  | nil host => exact ⟨fun _ _ => rfl, .inl rfl⟩
  | @cons host middle host' a attempts hstep _ ih =>
    subst hstep
    obtain ⟨hothers, hruntime⟩ := ih
    have hleft : Left float networks a.manifest (cmd.config host)
        (cmd.config (attempt cmd float networks host a)) := left_of_attempt hdoc host a
    have hkept : ∀ key, isOurs key = false →
        (cmd.config (attempt cmd float networks host a)).permanent key =
          (cmd.config host).permanent key := by
      intro key hkey
      cases hleft with
      | cut _ hothers => exact hothers key hkey
      | whole desired hread hafter =>
        rw [hafter]
        simp [projected, hkey]
    refine ⟨?_, ?_⟩
    · intro key hkey
      rw [hothers key hkey, hkept key hkey]
    · obtain hsame | ⟨b, hb, desired, hread, hprojected⟩ := hruntime
      · rw [hsame]
        cases hleft with
        | cut hsame _ => exact .inl hsame
        | whole desired hread hafter =>
          refine .inr ⟨a, List.mem_cons_self, desired, hread, ?_⟩
          rw [hafter]
      · refine .inr ⟨b, List.mem_cons_of_mem _ hb, desired, hread, ?_⟩
        rw [hprojected]
        exact projected_congr hkept

def demoAttempts : List (Attempt Unit) :=
  let zone := FirewallObject.zone "nv2z0123456789ab".toList "nv20123456789a".toList
  let manifest := .object [("schemaVersion".toList, number 2),
    ("objects".toList, .array [.object zone.json])]
  [⟨manifest, some 3⟩, ⟨manifest, none⟩]

theorem whole_of_run_demo : ∃ host, ∃ a ∈ demoAttempts, ∃ desired,
    readProjection demoNumbers.float demoNetworks a.manifest = .ok desired ∧
      (demoCmd.config host).runtime = projected desired fun _ ↦ none := by
  obtain ⟨-, hsame | hwhole⟩ := whole_of_run demoCmd_documented
    (run_foldl (attempt demoCmd demoNumbers.float demoNetworks) demoAttempts [])
  · have hthere := congrFun hsame (true, "nv2z0123456789ab".toList)
    exact absurd hthere (by decide +kernel)
  · exact ⟨_, hwhole⟩

theorem reconcile_done (hdoc : Documented cmd) {host' : Host}
    {result : Result} (h : reconcile cmd float networks host manifest = (host', some result)) :
    ∃ desired, readProjection float networks manifest = .ok desired ∧
      cmd.config host' = ⟨projected desired (cmd.config host).permanent,
        projected desired (cmd.config host).permanent⟩ := by
  unfold reconcile at h
  split at h
  · cases h
  · rename_i desired wasOwned commands hprepare
    obtain ⟨hread, zones, policies, rfl, hplan⟩ := prepare_some hdoc hprepare
    obtain ⟨n, hconfig, hlength⟩ := execute_spec hdoc host (commandsOf (plan zones policies desired))
    split at h
    · cases h
    · rename_i hexecute
      rw [hexecute] at hconfig hlength
      obtain ⟨rfl, -⟩ := Prod.mk.inj h
      refine ⟨desired, hread, ?_⟩
      obtain ⟨-, hn⟩ | hwhole := effect_take (cmd.config host) (plan zones policies desired) n
      · have hlength := hlength rfl
        simp [commandsOf] at hlength
        omega
      · rw [hconfig, hwhole, hplan]

end Runs

/-! ## From the compiler to the firewall -/

def RichRule.text (rule : RichRule) : Text := ruleWords rule.family rule.destination rule.port

def FirewallObject.native : FirewallObject → Native
  | .zone _ interface => .zone {interface}
  | .policy p => .policy
    { target := p.target
      priority := p.priority
      ingress := {p.ingress}
      egress := {p.egress}
      ports := p.ports.toFinset
      forwardPorts := p.forwardPorts.toFinset
      richRules := (p.richRules.map RichRule.text).toFinset }

def FirewallObject.key (o : FirewallObject) : Key := (o.isZone, o.name)

theorem fieldAt_stored (key : String) (o : Object F) : fieldAt key (storedEntries o) = fieldAt key o := by
  unfold fieldAt
  rw [textAt_stored]

theorem ruleText_stored (rule : RichRule) : ruleText (stored (rule.json : Plain F)) = rule.text := by
  obtain ⟨family, destination, port⟩ := rule
  cases port <;> rfl

theorem itemsAt_stored {key : String} {items : List (Plain F)}
    (h : find key.toList o = some (.array items)) :
    itemsAt key (storedEntries o) = items.map stored := by
  unfold itemsAt
  rw [find_storedEntries, h, ← storedItems_eq_map]
  rfl

theorem nativeOf_desired (o : FirewallObject) : nativeOf (o.desired : Text × Bool × Object F) = o.native := by
  cases o with
  | zone name interface => rfl
  | policy p =>
    have hports : (itemsAt "ports" (storedEntries (p.json : Object F))).map portPair = p.ports := by
      have hfind : find "ports".toList (p.json : Object F) =
          some (.array (p.ports.map fun e ↦ texts [e.1, e.2])) := rfl
      rw [itemsAt_stored hfind, List.map_map, List.map_map]
      exact List.map_id _
    have hforwards : (itemsAt "forwardPorts" (storedEntries (p.json : Object F))).map portTriple =
        p.forwardPorts := by
      have hfind : find "forwardPorts".toList (p.json : Object F) =
          some (.array (p.forwardPorts.map fun e ↦ texts [e.1, e.2.1, e.2.2])) := rfl
      rw [itemsAt_stored hfind, List.map_map, List.map_map]
      exact List.map_id _
    have hrules : (itemsAt "richRules" (storedEntries (p.json : Object F))).map ruleText =
        p.richRules.map RichRule.text := by
      have hfind : find "richRules".toList (p.json : Object F) =
          some (.array (p.richRules.map RichRule.json)) := rfl
      rw [itemsAt_stored hfind, List.map_map, List.map_map]
      exact List.map_congr_left fun rule _ => ruleText_stored rule
    show nativeOf (p.name, false, storedEntries p.json) = _
    simp only [nativeOf, fieldAt_stored, hports, hforwards, hrules]
    rfl

theorem projected_ours_iff (hours : Ours desired) {key : Key} (hkey : isOurs key = true)
    {native : Native} :
    projected desired store key = some native ↔ ∃ e ∈ desired, keyOf e = key ∧ nativeOf e = native := by
  unfold projected
  rw [if_pos hkey, Option.map_eq_some_iff]
  constructor
  · rintro ⟨e, hfind, hnative⟩
    exact ⟨e, List.mem_of_find?_eq_some hfind, by simpa using List.find?_some hfind, hnative⟩
  · rintro ⟨e, he, rfl, hnative⟩
    refine ⟨e, ?_, hnative⟩
    cases hfind : desired.find? fun e' ↦ keyOf e' = keyOf e with
    | none =>
      have habsent := List.find?_eq_none.mp hfind e he
      simp at habsent
    | some e' =>
      have hsame : keyOf e' = keyOf e := by simpa using List.find?_some hfind
      rw [List.inj_on_of_nodup_map hours.keys_nodup (List.mem_of_find?_eq_some hfind) he hsame]

/-- Behind a run with a result the firewall that runs has the compiled objects, nothing else of the
projection's, and whatever the permanent configuration had of others. -/
theorem compiled_runs {Host : Type} {cmd : FirewallCmd Host} {numbers : Numbers F}
    {sha256 : Text → Text} {effective : Object F} {lanZone : Text} {p : Projection}
    (hdigest : Sha256Digest sha256) (hlanName : isZoneName lanZone = false)
    (hports : PortsAccepted numbers.float effective) (hintegers : IntegersOnly numbers effective)
    (hcompile : compileProjection numbers networks sha256 effective lanZone = .ok p)
    (hdoc : Documented cmd) {host host' : Host} {result : Result}
    (h : reconcile cmd numbers.float networks host (stored (.object p.manifest)) =
      (host', some result)) :
    (∀ key, isOurs key = true → ∀ native, (cmd.config host').runtime key = some native ↔
      ∃ o ∈ p.objects, o.key = key ∧ o.native = native) ∧
    (∀ key, isOurs key = false →
      (cmd.config host').runtime key = (cmd.config host).permanent key) ∧
    (cmd.config host').permanent = (cmd.config host').runtime := by
  obtain ⟨desired, hread, hconfig⟩ := reconcile_done hdoc h
  have hours := readProjection_ours hread
  obtain rfl : p.sorted.map FirewallObject.desired = desired :=
    Except.ok.inj (((survives_iff hdigest hlanName hports hcompile).mpr hintegers).symm.trans hread)
  rw [hconfig]
  refine ⟨?_, ?_, rfl⟩
  · intro key hkey native
    rw [projected_ours_iff hours hkey]
    simp only [List.mem_map, exists_exists_and_eq_and, nativeOf_desired]
    constructor
    · rintro ⟨o, ho, hsame, hnative⟩
      exact ⟨o, (List.mem_insertionSort _).mp ho, hsame, hnative⟩
    · rintro ⟨o, ho, hsame, hnative⟩
      exact ⟨o, (List.mem_insertionSort _).mpr ho, hsame, hnative⟩
  · intro key hkey
    simp [projected, hkey]

theorem integersOnly_demo : IntegersOnly demoNumbers (demoDocument (number 443)) := by
  intro services hservices id service policy hservice _ hpolicy _
  obtain ⟨rfl, rfl⟩ := demo_services hservices hservice hpolicy
  constructor
  · intro port hport
    exact ⟨443, List.mem_singleton.mp hport⟩
  · intro entry hentry
    cases hentry

theorem compiled_runs_demo : ∃ p host result, compileDemo (number 443) = .ok p ∧
    reconcile demoCmd demoNumbers.float demoNetworks [] (stored (.object p.manifest)) =
      (host, some result) ∧
    ∀ key, isOurs key = true → ∀ native, (demoCmd.config host).runtime key = some native ↔
      ∃ o ∈ p.objects, o.key = key ∧ o.native = native := by
  obtain ⟨p, hp⟩ : ∃ p, compileDemo (number 443) = .ok p := exists_of_isOk (by decide +kernel)
  have hdone : ((compileDemo (number 443)).toOption.map fun p ↦
      (reconcile demoCmd demoNumbers.float demoNetworks [] (stored (.object p.manifest))).2.isSome) =
        some true := by
    decide +kernel
  rw [hp] at hdone
  obtain ⟨result, hresult⟩ := Option.isSome_iff_exists.mp (Option.some.inj hdone)
  have hrun : reconcile demoCmd demoNumbers.float demoNetworks [] (stored (.object p.manifest)) =
      (_, some result) := Prod.ext rfl hresult
  exact ⟨p, _, result, hp, hrun, (compiled_runs demoSha256_digest (by decide)
    (portsAccepted_demo (.integer (by decide) (by decide))) integersOnly_demo hp demoCmd_documented
    hrun).1⟩

end NixNas.Firewalld
