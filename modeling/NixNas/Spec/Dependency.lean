import Mathlib.Data.Char
import Mathlib.Data.Finset.Sort
import Mathlib.Data.List.Lex
import Mathlib.Data.List.Range
import NixNas.Lib.Digraph
import NixNas.Lib.Fallible
import NixNas.Spec.Yaml

/-!
# Dependencies between services (`services/nas_v2_spec.py`)

`_validate_dependency_graph` visits every service depth first.  The nested calls share the two sets
and the trail, so they are one state that a call hands on.  A call is nested in another one for each
link of a chain of dependencies, and the interpreter bounds how deeply.
-/

open Relation Fallible Digraph

namespace NixNas.Spec

/-- The services of a document with the names in their `dependencies`, which are services too. -/
structure ServiceMap where
  ids : Finset Text
  dependencies : Text → List Text
  closed : ∀ id ∈ ids, ∀ dependency ∈ dependencies id, dependency ∈ ids

def DependsOn (services : ServiceMap) (id dependency : Text) : Prop :=
  id ∈ services.ids ∧ dependency ∈ services.dependencies id

structure Search where
  visiting : Finset Text
  visited : Finset Text
  trail : List Text

inductive Halt where
  /-- `RecursionError`. -/
  | recursionError
  | raised (error : SpecError)

def cycleError (cycle : List Text) (serviceId : Text) : SpecError :=
  ⟨"Dependency cycle: ".toList ++ " -> ".toList.intercalate cycle,
    "$.services.".toList ++ serviceId ++ ".dependencies".toList, "dependency-cycle".toList⟩

def Search.enter (search : Search) (serviceId : Text) : Search where
  visiting := insert serviceId search.visiting
  visited := search.visited
  trail := search.trail ++ [serviceId]

def Search.leave (search : Search) (serviceId : Text) : Search where
  visiting := search.visiting.erase serviceId
  visited := insert serviceId search.visited
  trail := search.trail.dropLast

/-- `visit`; the interpreter leaves room for `limit` nested calls, the one that constructs the error
among them. -/
def visit (services : ServiceMap) : (limit : Nat) → Search → Text → Except Halt Search
  | 0, _, _ => .error .recursionError
  | limit + 1, search, serviceId =>
    if serviceId ∈ search.visited then .ok search
    else if serviceId ∈ search.visiting then
      let start := search.trail.idxOf serviceId
      let cycle := search.trail.drop start ++ [serviceId]
      if limit = 0 then .error .recursionError
      else .error (.raised (cycleError cycle serviceId))
    else do
      let search ← (services.dependencies serviceId).foldlM (visit services limit)
        (search.enter serviceId)
      .ok (search.leave serviceId)

/-- The call of `visit` for one service of the map, with a trail of its own. -/
def visitRoot (services : ServiceMap) (limit : Nat) (search : Search) (serviceId : Text) :
    Except Halt Search :=
  visit services limit { search with trail := [] } serviceId

def validateDependencyGraph (services : ServiceMap) (limit : Nat) : Except Halt Unit := do
  let _ ← (services.ids.sort (· ≤ ·)).foldlM (visitRoot services limit) ⟨∅, ∅, []⟩
  .ok ()

/-! ## What the check is for -/

/-- The second map differs from the first one at most in the order of its dependency lists. -/
structure Reorders (services services' : ServiceMap) : Prop where
  ids : services'.ids = services.ids
  dependencies : ∀ id, (services'.dependencies id).Perm (services.dependencies id)

/-- The check returns exactly if the dependencies have no cycle; what it refuses it shows a cycle of,
and the order of the dependency lists plays no part. -/
structure Decides (services : ServiceMap) (limit : Nat) : Prop where
  accepts : validateDependencyGraph services limit = .ok () ↔
    ∀ id, ¬ TransGen (DependsOn services) id id
  shows : ∀ halt, validateDependencyGraph services limit = .error halt →
    ∃ cycle serviceId, IsCycle (DependsOn services) cycle ∧ cycle.getLast? = some serviceId ∧
      halt = .raised (cycleError cycle serviceId)
  orderFree : ∀ services', Reorders services services' →
    (validateDependencyGraph services' limit = .ok () ↔
      validateDependencyGraph services limit = .ok ())

/-- A walk along which the calls may be nested.  It starts at a service that is visited from the
outside, and but for its last one its services are distinct and new to the search: no service before
the first one leads to a cycle or to one of them. -/
structure Descent (services : ServiceMap) (walk : List Text) : Prop where
  edges : walk.IsChain (DependsOn services)
  nodup : walk.dropLast.Nodup
  starts : ∃ root ∈ services.ids, walk.head? = some root ∧
    ∀ earlier ∈ services.ids, earlier < root → AcyclicFrom (DependsOn services) earlier ∧
      ∀ id ∈ walk.dropLast, ¬ ReflTransGen (DependsOn services) earlier id

/-- The nested calls along a walk.  One that comes back to a service of its own ends in the call that
constructs the error. -/
def calls (walk : List Text) : Nat := if walk.Nodup then walk.length else walk.length + 1

/-- No walk of the search needs more nested calls than there is room for. -/
def Shallow (services : ServiceMap) (limit : Nat) : Prop :=
  ∀ walk, Descent services walk → calls walk ≤ limit

/-! ## The invariant of the search -/

variable {services services' : ServiceMap} {search search' : Search} {id : Text} {limit : Nat}
variable {ids before after walk rest : List Text} {root v : Text}

/-- The trail is a walk through the services being visited.  No dependency leads out of the visited
ones, and none of them is on a cycle. -/
structure Sound (services : ServiceMap) (search : Search) : Prop where
  onTrail : ∀ id, id ∈ search.visiting ↔ id ∈ search.trail
  nodup : search.trail.Nodup
  known : ∀ id ∈ search.trail, id ∈ services.ids
  walk : search.trail.IsChain (DependsOn services)
  apart : ∀ id ∈ search.visited, id ∉ search.trail
  closed : Closed (DependsOn services) {id | id ∈ search.visited}
  acyclic : ∀ id ∈ search.visited, ¬ TransGen (DependsOn services) id id

/-- What a call that returns does to the search. -/
structure Extends (services : ServiceMap) (search search' : Search) : Prop where
  sound : Sound services search'
  trail : search'.trail = search.trail
  visited : search.visited ⊆ search'.visited

def NamesCycle (services : ServiceMap) (id : Text) (error : SpecError) : Prop :=
  ∃ cycle serviceId, IsCycle (DependsOn services) cycle ∧ cycle.getLast? = some serviceId ∧
    ReflTransGen (DependsOn services) id serviceId ∧ error = cycleError cycle serviceId

/-- The walk of the nested calls, for which there is no room behind the trail. -/
structure TooDeep (services : ServiceMap) (search : Search) (id : Text) (limit : Nat)
    (walk : List Text) : Prop where
  edges : walk.IsChain (DependsOn services)
  nodup : walk.dropLast.Nodup
  unvisited : ∀ id ∈ walk.dropLast, id ∉ search.visited
  starts : search.trail ++ [id] <+: walk
  long : limit + search.trail.length < calls walk

/-- What the visits of the services from a search on may end in. -/
def Outcome (services : ServiceMap) (search : Search) (ids : List Text) (limit : Nat) :
    Except Halt Search → Prop
  | .ok search' => Extends services search search' ∧ (∀ id ∈ ids, id ∈ search'.visited) ∧
      ∀ id ∈ search'.visited, id ∈ search.visited ∨
        ∃ root ∈ ids, ReflTransGen (DependsOn services) root id
  | .error (.raised error) => ∃ id ∈ ids, NamesCycle services id error
  | .error .recursionError => ∃ id ∈ ids, ∃ walk, TooDeep services search id limit walk

theorem length_le_calls (walk : List Text) : walk.length ≤ calls walk := by
  unfold calls
  split <;> omega

theorem calls_le (walk : List Text) : calls walk ≤ walk.length + 1 := by
  unfold calls
  split <;> omega

theorem Sound.enter (h : Sound services search) (hid : id ∈ services.ids)
    (hwalk : (search.trail ++ [id]).IsChain (DependsOn services)) (hvisited : id ∉ search.visited)
    (hvisiting : id ∉ search.visiting) : Sound services (search.enter id) := by
  have htrail : id ∉ search.trail := fun hmem => hvisiting ((h.onTrail id).mpr hmem)
  unfold Search.enter
  refine ⟨?_, ?_, ?_, hwalk, ?_, h.closed, h.acyclic⟩
  · intro other
    rw [Finset.mem_insert, h.onTrail other, List.mem_append, List.mem_singleton, or_comm]
  · exact List.concat_eq_append ▸ h.nodup.concat htrail
  · intro other hother
    rcases List.mem_append.mp hother with hother | hother
    · exact h.known other hother
    · rwa [List.mem_singleton.mp hother]
  · intro other hother hmem
    rcases List.mem_append.mp hmem with hmem | hmem
    · exact h.apart other hother hmem
    · rw [List.mem_singleton] at hmem
      exact hvisited (hmem ▸ hother)

theorem Sound.leave (h : Sound services search') (htrail : search'.trail = search.trail ++ [id])
    (hedges : ∀ dependency ∈ services.dependencies id, dependency ∈ search'.visited) :
    Sound services (search'.leave id) := by
  have hlast : search'.trail.dropLast = search.trail := by rw [htrail, List.dropLast_concat]
  have hnodup : (search.trail ++ [id]).Nodup := htrail ▸ h.nodup
  have hid : id ∉ search.trail := by
    intro hmem
    exact (List.nodup_append.mp hnodup).2.2 id hmem id (.head []) rfl
  have hunvisited : id ∉ search'.visited := by
    intro hmem
    apply h.apart id hmem
    rw [htrail]
    exact List.mem_append_right _ (.head [])
  unfold Search.leave
  -- the trail is the one before, and the service joins the visited ones
  refine ⟨?_, ?_, ?_, ?_, ?_, ?_, ?_⟩
  · intro other
    rw [Finset.mem_erase, h.onTrail other, hlast, htrail, List.mem_append, List.mem_singleton]
    constructor
    · rintro ⟨hne, hmem | heq⟩
      · exact hmem
      · exact absurd heq hne
    · intro hmem
      refine ⟨?_, .inl hmem⟩
      rintro rfl
      exact hid hmem
  · rw [hlast]
    exact (List.nodup_append.mp hnodup).1
  · intro other hother
    exact h.known other (List.mem_of_mem_dropLast hother)
  · exact h.walk.dropLast
  · intro other hother
    rw [hlast]
    rcases Finset.mem_insert.mp hother with rfl | hother
    · exact hid
    · intro hmem
      apply h.apart other hother
      rw [htrail]
      exact List.mem_append_left _ hmem
  · intro other hother dependency hdependency
    apply Finset.mem_insert_of_mem
    rcases Finset.mem_insert.mp hother with rfl | hother
    · exact hedges dependency hdependency.2
    · exact h.closed other hother dependency hdependency
  · intro other hother
    rcases Finset.mem_insert.mp hother with rfl | hother
    · exact h.closed.not_transGen_self hunvisited fun j hj => hedges j hj.2
    · exact h.acyclic other hother

/-! ## What a visit ends in -/

theorem Sound.namesCycle (h : Sound services search) (hvisiting : id ∈ search.visiting)
    (hwalk : (search.trail ++ [id]).IsChain (DependsOn services)) :
    NamesCycle services id
      (cycleError (search.trail.drop (search.trail.idxOf id) ++ [id]) id) := by
  have hlt := List.idxOf_lt_length_of_mem ((h.onTrail id).mp hvisiting)
  have hdrop : search.trail.drop (search.trail.idxOf id) =
      id :: search.trail.drop (search.trail.idxOf id + 1) := by
    rw [List.drop_eq_getElem_cons hlt, List.getElem_idxOf hlt]
  refine ⟨_, id, ?_, List.getLast?_concat, .refl, rfl⟩
  have hwhole : (search.trail.take (search.trail.idxOf id) ++
      id :: search.trail.drop (search.trail.idxOf id + 1) ++ [id]).IsChain (DependsOn services) := by
    rw [← hdrop, List.take_append_drop]
    exact hwalk
  rw [hdrop]
  exact isCycle_of_walk hwhole

/-- The trail with the service is a walk for whose calls there is no room. -/
theorem Sound.tooDeep (h : Sound services search)
    (hwalk : (search.trail ++ [id]).IsChain (DependsOn services))
    (hlong : limit + search.trail.length < calls (search.trail ++ [id])) :
    TooDeep services search id limit (search.trail ++ [id]) := by
  refine ⟨hwalk, ?_, ?_, List.prefix_rfl, hlong⟩
  · rw [List.dropLast_concat]
    exact h.nodup
  · rw [List.dropLast_concat]
    exact fun v hv hmem => h.apart v hmem hv

theorem outcome_foldlM {f : Search → Text → Except Halt Search}
    (hvisit : ∀ id ∈ ids, ∀ next, Extends services search next →
      Outcome services next [id] limit (f next id))
    (h : Sound services search) : Outcome services search ids limit (ids.foldlM f search) := by
  -- the search moves along the list
  suffices hall : ∀ start, Extends services search start →
      Outcome services start ids limit (ids.foldlM f start) from hall search ⟨h, rfl, subset_rfl⟩
  induction ids with
  | nil =>
    intro start hstart
    exact ⟨⟨hstart.sound, rfl, subset_rfl⟩, List.forall_mem_nil _, fun _ hid => .inl hid⟩
  | cons id ids ih =>
    intro start hstart
    rw [List.forall_mem_cons] at hvisit
    have hone := hvisit.1 start hstart
    rw [List.foldlM_cons]
    cases hf : f start id with
    | error halt =>
      rw [hf] at hone
      cases halt with
      | recursionError =>
        obtain ⟨_, hmem, hdeep⟩ := hone
        exact ⟨id, .head _, List.mem_singleton.mp hmem ▸ hdeep⟩
      | raised error =>
        obtain ⟨_, hmem, hcycle⟩ := hone
        exact ⟨id, .head _, List.mem_singleton.mp hmem ▸ hcycle⟩
    | ok next =>
      rw [hf] at hone
      obtain ⟨hnext, hid, hfrom⟩ := hone
      have hrest := ih hvisit.2 next
        ⟨hnext.sound, hnext.trail.trans hstart.trail, hstart.visited.trans hnext.visited⟩
      show Outcome services start (id :: ids) limit (ids.foldlM f next)
      cases hfold : ids.foldlM f next with
      | error halt =>
        rw [hfold] at hrest
        cases halt with
        | recursionError =>
          obtain ⟨other, hother, walk, hdeep⟩ := hrest
          refine ⟨other, .tail _ hother, walk, hdeep.edges, hdeep.nodup, ?_, ?_, ?_⟩
          · exact fun v hv hmem => hdeep.unvisited v hv (hnext.visited hmem)
          · rw [← hnext.trail]
            exact hdeep.starts
          · rw [← hnext.trail]
            exact hdeep.long
        | raised error =>
          obtain ⟨other, hother, hcycle⟩ := hrest
          exact ⟨other, .tail _ hother, hcycle⟩
      | ok final =>
        rw [hfold] at hrest
        obtain ⟨hfinal, hids, hreached⟩ := hrest
        refine ⟨⟨hfinal.sound, hfinal.trail.trans hnext.trail,
          hnext.visited.trans hfinal.visited⟩, ?_, ?_⟩
        · rw [List.forall_mem_cons]
          exact ⟨hfinal.visited (hid id (.head [])), hids⟩
        · intro v hv
          rcases hreached v hv with hv | ⟨root, hroot, hv⟩
          · rcases hfrom v hv with hv | ⟨root, hroot, hv⟩
            · exact .inl hv
            · exact .inr ⟨id, .head _, List.mem_singleton.mp hroot ▸ hv⟩
          · exact .inr ⟨root, .tail _ hroot, hv⟩

/-- A visit returns with its service visited, names a cycle, or is nested too deeply. -/
theorem outcome_visit (h : Sound services search) (hid : id ∈ services.ids)
    (hwalk : (search.trail ++ [id]).IsChain (DependsOn services)) :
    Outcome services search [id] limit (visit services limit search id) := by
  induction limit generalizing search id with
  | zero =>
    refine ⟨id, .head _, search.trail ++ [id], h.tooDeep hwalk ?_⟩
    have hlength := length_le_calls (search.trail ++ [id])
    rw [List.length_append, List.length_singleton] at hlength
    omega
  | succ limit ih =>
    unfold visit
    split
    · -- black: an earlier visit has returned
      rename_i hvisited
      refine ⟨⟨h, rfl, subset_rfl⟩, ?_, fun _ hv => .inl hv⟩
      rw [List.forall_mem_singleton]
      exact hvisited
    rename_i hvisited
    split
    · -- grey: the service is on the trail
      rename_i hvisiting
      dsimp only
      split
      · -- the error is one call too many
        rename_i hzero
        refine ⟨id, .head _, search.trail ++ [id], h.tooDeep hwalk ?_⟩
        have hback : ¬ (search.trail ++ [id]).Nodup := by
          intro hnodup
          have hmem := (h.onTrail id).mp hvisiting
          exact (List.nodup_append.mp hnodup).2.2 id hmem id (.head []) rfl
        rw [calls, if_neg hback, List.length_append, List.length_singleton]
        omega
      · exact ⟨id, .head _, h.namesCycle hvisiting hwalk⟩
    · -- white: the dependencies are visited with the service on the trail
      rename_i hvisiting
      have henter := h.enter hid hwalk hvisited hvisiting
      have hfold : Outcome services (search.enter id) (services.dependencies id) limit
          ((services.dependencies id).foldlM (visit services limit) (search.enter id)) := by
        apply outcome_foldlM _ henter
        intro dependency hdependency next hnext
        apply ih hnext.sound (services.closed id hid dependency hdependency)
        rw [hnext.trail]
        apply hwalk.append (List.isChain_singleton _)
        rintro last hlast first ⟨⟩
        rw [List.getLast?_concat, Option.mem_some_iff] at hlast
        rw [← hlast]
        exact ⟨hid, hdependency⟩
      cases hrun : (services.dependencies id).foldlM (visit services limit) (search.enter id) with
      | error halt =>
        rw [hrun] at hfold
        cases halt with
        | recursionError =>
          obtain ⟨dependency, -, walk, hdeep⟩ := hfold
          have hlong : limit + (search.trail ++ [id]).length < calls walk := hdeep.long
          rw [List.length_append, List.length_singleton] at hlong
          refine ⟨id, .head _, walk, hdeep.edges, hdeep.nodup, hdeep.unvisited, ?_, by omega⟩
          exact (List.prefix_append _ _).trans hdeep.starts
        | raised error =>
          obtain ⟨dependency, hmem, cycle, serviceId, hcycle, hlast, hleads, rfl⟩ := hfold
          exact ⟨id, .head _, cycle, serviceId, hcycle, hlast, .head ⟨hid, hmem⟩ hleads, rfl⟩
      | ok next =>
        rw [hrun] at hfold
        obtain ⟨hnext, hedges, hreached⟩ := hfold
        show Outcome services search [id] (limit + 1) (.ok (next.leave id))
        refine ⟨⟨hnext.sound.leave hnext.trail hedges, ?_, ?_⟩, ?_, ?_⟩
        · show next.trail.dropLast = search.trail
          rw [hnext.trail]
          exact List.dropLast_concat
        · exact hnext.visited.trans (Finset.subset_insert _ _)
        · rw [List.forall_mem_singleton]
          exact Finset.mem_insert_self _ _
        · intro v hv
          rcases Finset.mem_insert.mp hv with rfl | hv
          · exact .inr ⟨v, .head _, .refl⟩
          · rcases hreached v hv with hv | ⟨dependency, hmem, hv⟩
            · exact .inl hv
            · exact .inr ⟨id, .head _, .head ⟨hid, hmem⟩ hv⟩

/-! ## The check -/

theorem sound_start : Sound services ⟨∅, ∅, []⟩ := by
  refine ⟨fun _ => ?_, .nil, List.forall_mem_nil _, .nil, ?_, ?_, ?_⟩
  · exact iff_of_false (Finset.notMem_empty _) List.not_mem_nil
  · exact fun _ hid => (Finset.notMem_empty _ hid).elim
  · exact fun _ hid => (Finset.notMem_empty _ hid).elim
  · exact fun _ hid => (Finset.notMem_empty _ hid).elim

theorem outcome_roots (hids : ∀ id ∈ ids, id ∈ services.ids) :
    Outcome services ⟨∅, ∅, []⟩ ids limit (ids.foldlM (visitRoot services limit) ⟨∅, ∅, []⟩) := by
  apply outcome_foldlM _ sound_start
  intro id hid next hnext
  -- a search between two services has an empty trail
  have htrail : { next with trail := [] } = next := by
    rcases next with ⟨visiting, visited, trail⟩
    rw [Search.mk.injEq]
    exact ⟨rfl, rfl, hnext.trail.symm⟩
  unfold visitRoot
  rw [htrail]
  apply outcome_visit hnext.sound (hids id hid)
  rw [hnext.trail]
  exact List.isChain_singleton _

theorem mem_before_iff (hsort : services.ids.sort (· ≤ ·) = before ++ root :: after) {e : Text} :
    e ∈ before ↔ e ∈ services.ids ∧ e < root := by
  have hsorted : (before ++ root :: after).Pairwise (· < ·) := by
    rw [← hsort]
    exact (services.ids.sortedLT_sort).pairwise
  rw [List.pairwise_append, List.pairwise_cons] at hsorted
  rw [← Finset.mem_sort (· ≤ ·), hsort, List.mem_append, List.mem_cons]
  constructor
  · intro he
    exact ⟨.inl he, hsorted.2.2 e he root (.head _)⟩
  · rintro ⟨he | rfl | he, hlt⟩
    · exact he
    · exact absurd hlt (lt_irrefl _)
    · exact absurd (hsorted.2.1.1 e he) (lt_asymm hlt)

theorem acyclic_of_ok (h : validateDependencyGraph services limit = .ok ()) (id : Text) :
    ¬ TransGen (DependsOn services) id id := by
  unfold validateDependencyGraph at h
  obtain ⟨final, hrun, -⟩ := bind_ok h
  have hall := @outcome_roots services limit _ fun id hid => (Finset.mem_sort (· ≤ ·)).mp hid
  rw [hrun] at hall
  intro hcycle
  obtain ⟨_, ⟨hid, -⟩, -⟩ := TransGen.head'_iff.mp hcycle
  exact hall.1.sound.acyclic id (hall.2.1 id ((Finset.mem_sort _).mpr hid)) hcycle

theorem TooDeep.descent
    (hsort : services.ids.sort (· ≤ ·) = before ++ root :: after) (h : Sound services search)
    (hvisited : ∀ id ∈ before, id ∈ search.visited) (htrail : search.trail = [])
    (hdeep : TooDeep services search root limit walk) : Descent services walk := by
  refine ⟨hdeep.edges, hdeep.nodup, root, ?_, ?_, ?_⟩
  · rw [← Finset.mem_sort (· ≤ ·), hsort]
    exact List.mem_append_right _ (.head _)
  · obtain ⟨rest, hrest⟩ := hdeep.starts
    rw [← hrest, htrail]
    rfl
  · intro earlier hearlier hlt
    have hmem := hvisited earlier ((mem_before_iff hsort).mpr ⟨hearlier, hlt⟩)
    have hbelow : ∀ id, ReflTransGen (DependsOn services) earlier id → id ∈ search.visited := by
      intro id hreach
      rcases reflTransGen_iff_eq_or_transGen.mp hreach with rfl | hreach
      · exact hmem
      · exact h.closed.mem_of_transGen hmem hreach
    refine ⟨fun id hreach => h.acyclic id (hbelow id hreach), ?_⟩
    exact fun id hid hreach => hdeep.unvisited id hid (hbelow id hreach)

/-- With room for every walk of the search a check that is refused has found a cycle. -/
theorem Shallow.namesCycle (h : Shallow services limit) {halt : Halt}
    (hrun : validateDependencyGraph services limit = .error halt) :
    ∃ id error, halt = .raised error ∧ NamesCycle services id error := by
  unfold validateDependencyGraph at hrun
  rcases bind_error hrun with hrun | ⟨final, -, hrun⟩
  · obtain ⟨before, root, after, search, hsort, hbefore, hroot⟩ := foldlM_error_split hrun
    have hids : ∀ id ∈ before ++ root :: after, id ∈ services.ids := by
      intro id hid
      rw [← hsort] at hid
      exact (Finset.mem_sort (· ≤ ·)).mp hid
    have hall := @outcome_roots services limit before fun id hid =>
      hids id (List.mem_append_left _ hid)
    rw [hbefore] at hall
    obtain ⟨hextends, hvisited, -⟩ := hall
    have htrail : search.trail = [] := hextends.trail
    have hstart : { search with trail := [] } = search := by
      rcases search with ⟨visiting, visited, trail⟩
      rw [Search.mk.injEq]
      exact ⟨rfl, rfl, htrail.symm⟩
    have hone : Outcome services search [root] limit (visit services limit search root) := by
      apply outcome_visit hextends.sound (hids root (List.mem_append_right _ (.head _)))
      rw [htrail]
      exact List.isChain_singleton _
    unfold visitRoot at hroot
    rw [hstart] at hroot
    rw [hroot] at hone
    cases halt with
    | recursionError =>
      obtain ⟨_, hmem, walk, hdeep⟩ := hone
      rw [List.mem_singleton.mp hmem] at hdeep
      have hlength := h walk (hdeep.descent hsort hextends.sound hvisited htrail)
      have hlong := hdeep.long
      omega
    | raised error =>
      obtain ⟨id, -, hcycle⟩ := hone
      exact ⟨id, error, rfl, hcycle⟩
  · cases hrun

theorem NamesCycle.transGen {error : SpecError} (h : NamesCycle services id error) :
    ¬ AcyclicFrom (DependsOn services) id := by
  obtain ⟨cycle, serviceId, hcycle, hlast, hleads, -⟩ := h
  obtain ⟨i, rest, hne, rfl, hclosed⟩ := hcycle.closed
  obtain ⟨j, rest, rfl⟩ := List.exists_cons_of_ne_nil hne
  rw [List.getLast?_cons_cons, hclosed] at hlast
  obtain rfl := Option.some.inj hlast
  exact fun hacyclic => hacyclic _ hleads (transGen_of_isChain hcycle.edges hclosed)

/-! ## The order of the dependency lists -/

theorem Reorders.dependsOn (h : Reorders services services') :
    DependsOn services' = DependsOn services := by
  funext id dependency
  unfold DependsOn
  rw [h.ids, (h.dependencies id).mem_iff]

theorem Reorders.shallow (h : Reorders services services') (hshallow : Shallow services limit) :
    Shallow services' limit := by
  intro walk hwalk
  apply hshallow walk
  obtain ⟨hedges, hnodup, hstarts⟩ := hwalk
  rw [h.dependsOn] at hedges hstarts
  rw [h.ids] at hstarts
  exact ⟨hedges, hnodup, hstarts⟩

theorem Shallow.validate_ok_iff (h : Shallow services limit) :
    validateDependencyGraph services limit = .ok () ↔
      ∀ id, ¬ TransGen (DependsOn services) id id := by
  refine ⟨acyclic_of_ok, fun hacyclic => ?_⟩
  cases hrun : validateDependencyGraph services limit with
  | ok _ => rfl
  | error halt =>
    obtain ⟨id, error, -, hcycle⟩ := h.namesCycle hrun
    exact absurd (fun i _ => hacyclic i) hcycle.transGen

theorem Shallow.decides (h : Shallow services limit) : Decides services limit := by
  refine ⟨h.validate_ok_iff, ?_, ?_⟩
  · intro halt hrun
    obtain ⟨_, _, rfl, cycle, serviceId, hcycle, hlast, -, rfl⟩ := h.namesCycle hrun
    exact ⟨cycle, serviceId, hcycle, hlast, rfl⟩
  · intro services' hreorders
    rw [(hreorders.shallow h).validate_ok_iff, h.validate_ok_iff, hreorders.dependsOn]

def first (walk : List Text) (id : Text) (dependencies : List Text) : List Text :=
  match walk[walk.idxOf id + 1]? with
  | some next => if next ∈ dependencies then next :: dependencies.erase next else dependencies
  | none => dependencies

theorem perm_first (walk : List Text) (id : Text) (dependencies : List Text) :
    (first walk id dependencies).Perm dependencies := by
  unfold first
  split
  · split
    · rename_i hmem
      exact (List.perm_cons_erase hmem).symm
    · exact .refl _
  · exact .refl _

theorem first_of_walk {dependencies : List Text} {w : Text}
    (hnodup : (before ++ v :: w :: rest).dropLast.Nodup) (hmem : w ∈ dependencies) :
    first (before ++ v :: w :: rest) v dependencies = w :: dependencies.erase w := by
  have hnotin : v ∉ before := by
    intro hv
    rw [List.dropLast_append_of_ne_nil (by simp), List.dropLast_cons_cons] at hnodup
    exact (List.nodup_append.mp hnodup).2.2 v hv v (.head _) rfl
  unfold first
  rw [List.idxOf_append_of_notMem hnotin, List.idxOf_cons_self, Nat.add_zero,
    List.getElem?_append_right (Nat.le_add_right _ 1), Nat.add_sub_cancel_left]
  show (if w ∈ dependencies then _ else _) = _
  rw [if_pos hmem]

def ServiceMap.along (services : ServiceMap) (walk : List Text) : ServiceMap where
  ids := services.ids
  dependencies id := first walk id (services.dependencies id)
  closed id hid dependency hdependency :=
    services.closed id hid dependency ((perm_first walk id _).mem_iff.mp hdependency)

theorem reorders_along (services : ServiceMap) (walk : List Text) :
    Reorders services (services.along walk) :=
  ⟨rfl, fun id => perm_first walk id (services.dependencies id)⟩

theorem visit_along (hedges : (before ++ v :: rest).IsChain (DependsOn services))
    (hnodup : (before ++ v :: rest).dropLast.Nodup)
    (hopen : ∀ u ∈ before, u ∉ search.visited ∧ u ∈ search.visiting)
    (hnew : ∀ u ∈ (v :: rest).dropLast, u ∉ search.visited ∧ u ∉ search.visiting)
    (hlong : limit + before.length < calls (before ++ v :: rest)) :
    visit (services.along (before ++ v :: rest)) limit search v = .error .recursionError := by
  induction limit generalizing before v rest search with
  | zero => rfl
  | succ limit ih =>
    cases rest with
    | nil =>
      -- only the error of a walk that comes back is left to be called
      rw [List.dropLast_concat] at hnodup
      have hback : v ∈ before := by
        by_contra hmem
        have hwhole : (before ++ [v]).Nodup := List.concat_eq_append ▸ hnodup.concat hmem
        rw [calls, if_pos hwhole, List.length_append, List.length_singleton] at hlong
        omega
      have hcalls := calls_le (before ++ [v])
      rw [List.length_append, List.length_singleton] at hcalls
      have hzero : limit = 0 := by omega
      unfold visit
      rw [if_neg (hopen v hback).1, if_pos (hopen v hback).2]
      exact if_pos hzero
    | cons w rest =>
      rw [List.dropLast_cons_cons, List.forall_mem_cons] at hnew
      have hedge : DependsOn services v w :=
        (List.isChain_cons_cons.mp hedges.right_of_append).1
      have hdeeper : visit (services.along (before ++ v :: w :: rest)) limit (search.enter v) w =
          .error .recursionError := by
        have hsame : before ++ v :: w :: rest = (before ++ [v]) ++ w :: rest := by simp
        rw [hsame] at hedges hnodup hlong ⊢
        apply ih hedges hnodup
        · intro u hu
          rcases List.mem_append.mp hu with hu | hu
          · exact ⟨(hopen u hu).1, Finset.mem_insert_of_mem (hopen u hu).2⟩
          · rw [List.mem_singleton.mp hu]
            exact ⟨hnew.1.1, Finset.mem_insert_self v search.visiting⟩
        · intro u hu
          refine ⟨(hnew.2 u hu).1, ?_⟩
          show u ∉ insert v search.visiting
          rw [Finset.mem_insert, not_or]
          refine ⟨?_, (hnew.2 u hu).2⟩
          rintro rfl
          rw [List.dropLast_append_of_ne_nil (List.cons_ne_nil w rest)] at hnodup
          exact (List.nodup_append.mp hnodup).2.2 u (by simp) u hu rfl
        · rw [List.length_append, List.length_singleton]
          omega
      unfold visit
      rw [if_neg hnew.1.1, if_neg hnew.1.2]
      show (first _ v (services.dependencies v)).foldlM _ _ >>= _ = _
      rw [first_of_walk hnodup hedge.2, List.foldlM_cons, hdeeper]
      rfl

/-- Where a walk of the search needs too many calls, some order of the dependency lists leads down
it. -/
theorem Descent.recursionError (h : Descent services walk) (hlong : limit < calls walk) :
    validateDependencyGraph (services.along walk) limit = .error .recursionError := by
  obtain ⟨hedges, hnodup, root, hroot, hhead, hearlier⟩ := h
  obtain ⟨rest, rfl⟩ : ∃ rest, walk = root :: rest := by
    cases walk with
    | nil => cases hhead
    | cons v rest =>
      cases hhead
      exact ⟨rest, rfl⟩
  have hreorders := reorders_along services (root :: rest)
  obtain ⟨before, after, hsort⟩ : ∃ before after,
      (services.along (root :: rest)).ids.sort (· ≤ ·) = before ++ root :: after :=
    List.append_of_mem ((Finset.mem_sort (· ≤ ·)).mpr hroot)
  have hbefore : ∀ id ∈ before, id ∈ services.ids ∧ id < root := fun id hid =>
    (mem_before_iff hsort).mp hid
  -- the roots in front of this one return without a service of the walk
  have hall := @outcome_roots (services.along (root :: rest)) limit before fun id hid =>
    (hbefore id hid).1
  unfold validateDependencyGraph
  rw [hsort, List.foldlM_append]
  cases hrun : before.foldlM (visitRoot (services.along (root :: rest)) limit) ⟨∅, ∅, []⟩ with
  | error halt =>
    rw [hrun] at hall
    cases halt with
    | recursionError => rfl
    | raised error =>
      obtain ⟨id, hid, hcycle⟩ := hall
      have hacyclic := (hearlier id (hbefore id hid).1 (hbefore id hid).2).1
      rw [← hreorders.dependsOn] at hacyclic
      exact absurd hacyclic hcycle.transGen
  | ok next =>
    rw [hrun] at hall
    obtain ⟨hextends, -, hreached⟩ := hall
    have hdive : visitRoot (services.along (root :: rest)) limit next root =
        .error .recursionError := by
      apply @visit_along services _ limit [] rest root hedges hnodup (List.forall_mem_nil _) _ hlong
      intro u hu
      constructor
      · intro hmem
        rcases hreached u hmem with hmem | ⟨id, hid, hleads⟩
        · exact (Finset.notMem_empty _ hmem).elim
        · rw [hreorders.dependsOn] at hleads
          exact (hearlier id (hbefore id hid).1 (hbefore id hid).2).2 u hu hleads
      · intro hmem
        have htrail := (hextends.sound.onTrail u).mp hmem
        rw [hextends.trail] at htrail
        exact List.not_mem_nil htrail
    show ((root :: after).foldlM _ next >>= fun _ ↦ _) = _
    rw [List.foldlM_cons, hdive]
    rfl

theorem shallow_of_card_lt (h : services.ids.card + 1 < limit) : Shallow services limit := by
  intro walk hwalk
  have hmem : ∀ id ∈ walk.dropLast, id ∈ services.ids := by
    intro id hid
    obtain ⟨_, hedge⟩ := exists_edge_of_mem_dropLast hwalk.edges hid
    exact hedge.1
  have hle : walk.dropLast.length ≤ services.ids.card := by
    rw [← List.toFinset_card_of_nodup hwalk.nodup]
    apply Finset.card_le_card
    intro id hid
    exact hmem id (List.mem_toFinset.mp hid)
  have hcalls := calls_le walk
  rw [List.length_dropLast] at hle
  omega

/-! ## A chain of a thousand dependencies -/

def numbered (n : Nat) : Text :=
  's' :: [n / 1000, n / 100 % 10, n / 10 % 10, n % 10].map Nat.digitChar

def position (id : Text) : Nat := (id.drop 1).foldl (fun n digit ↦ 10 * n + (digit.toNat - 48)) 0

theorem position_numbered : ∀ n < 1002, position (numbered n) = n := by decide +kernel

/-- A thousand and one services, each of which waits for the next one. -/
def chainServices : ServiceMap where
  ids := (Finset.range 1001).image numbered
  dependencies id := if position id < 1000 then [numbered (position id + 1)] else []
  closed id hid dependency hdependency := by
    split at hdependency
    · rename_i hlt
      rw [List.mem_singleton.mp hdependency]
      exact Finset.mem_image_of_mem _ (Finset.mem_range.mpr (Nat.succ_lt_succ hlt))
    · cases hdependency

def chainWalk : List Text := (List.range 1001).map numbered

theorem dependsOn_chain {dependency : Text} (h : DependsOn chainServices id dependency) :
    position id < position dependency := by
  obtain ⟨-, hmem⟩ := h
  unfold chainServices at hmem
  dsimp only at hmem
  split at hmem
  · rename_i hlt
    rw [List.mem_singleton.mp hmem, position_numbered _ (by omega)]
    exact Nat.lt_succ_self _
  · cases hmem

theorem acyclic_chain (id : Text) : ¬ TransGen (DependsOn chainServices) id id := by
  intro hcycle
  have hlt : position id < position id := by
    have hmono : ∀ {a b : Text}, TransGen (DependsOn chainServices) a b → position a < position b := by
      intro a b h
      induction h with
      | single hedge => exact dependsOn_chain hedge
      | tail _ hedge ih => exact ih.trans (dependsOn_chain hedge)
    exact hmono hcycle
  exact lt_irrefl _ hlt

theorem descent_chain : Descent chainServices chainWalk := by
  have hinj : ∀ n < 1001, ∀ m < 1001, numbered n = numbered m → n = m := by
    intro n hn m hm heq
    rw [← position_numbered n (by omega), heq, position_numbered m (by omega)]
  refine ⟨?_, ?_, numbered 0, ?_, ?_, ?_⟩
  · unfold chainWalk
    rw [List.isChain_map, List.isChain_range]
    intro n hn
    refine ⟨Finset.mem_image_of_mem _ (Finset.mem_range.mpr (by omega)), ?_⟩
    show numbered (n + 1) ∈ if position (numbered n) < 1000 then _ else _
    rw [position_numbered n (by omega), if_pos (by omega)]
    exact .head _
  · apply List.Nodup.sublist (List.dropLast_sublist _)
    unfold chainWalk
    apply List.Nodup.map_on
    · intro n hn m hm
      exact hinj n (List.mem_range.mp hn) m (List.mem_range.mp hm)
    · exact List.nodup_range
  · exact Finset.mem_image_of_mem _ (Finset.mem_range.mpr (by omega))
  · unfold chainWalk
    rw [List.head?_map, List.head?_range, if_neg (by omega), Option.map_some]
  · have hleast : ∀ n < 1001, ¬ numbered n < numbered 0 := by decide +kernel
    intro earlier hearlier hlt
    obtain ⟨n, hn, rfl⟩ := Finset.mem_image.mp hearlier
    exact absurd hlt (hleast n (Finset.mem_range.mp hn))

theorem along_chain (walk : List Text) : chainServices.along walk = chainServices := by
  have hlists : (chainServices.along walk).dependencies = chainServices.dependencies := by
    funext id
    have hperm := perm_first walk id (chainServices.dependencies id)
    show first walk id (chainServices.dependencies id) = _
    unfold chainServices at hperm ⊢
    dsimp only at hperm ⊢
    split
    · rename_i hlt
      rw [if_pos hlt] at hperm
      exact List.perm_singleton.mp hperm
    · rename_i hlt
      rw [if_neg hlt] at hperm
      exact List.perm_nil.mp hperm
  unfold ServiceMap.along at hlists ⊢
  rw [ServiceMap.mk.injEq]
  exact ⟨rfl, hlists⟩

end NixNas.Spec
