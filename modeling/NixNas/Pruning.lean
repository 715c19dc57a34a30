import NixNas.Generation
import NixNas.Lib.Transition
import NixNas.Reconcile.Rollback

/-!
# Pruning under live links

The generation root, the `current` pointer and the runtime links over entry runs and reconciles.  An
entry run publishes one generation and prunes with `retain=3`, after attempts that it discards; a
reconcile links the files of the current generation, or is rolled back.
-/

open Fallible Journal Transition
open NixNas.History (Commit)
open Settling (Dependencies)
open NixNas.Generation

namespace NixNas.Pruning

variable {Doc Content : Type}
variable {tree tree' : Generation.World Doc} {name : GenName} {now : Nat} {revision : Commit}
  {files : List (String × File Doc)} {fault : Option Cut}

/-! ## The files of the generations -/

section

variable (locate : GenName → String → Text) (render : File Doc → Text) (sha256 : Text → Text)

def holds (d : Directory Doc) (value : Text) : Bool :=
  d.files.any fun f ↦ locate d.name f.1 = value

/-- What the reconciler sees of the generation root; `locate` is the path of a file. -/
def filesOf (tree : Generation.World Doc) : Reconcile.Files where
  current value :=
    match tree.resolveCurrent with
    | some (.generation d) => if holds locate d value then some value else none
    | _ => none
  generated value := tree.generations.any fun d ↦ holds locate d value
  generated_of_current := by
    intro value source h
    split at h
    · rename_i d hd
      split at h
      · rename_i hholds
        cases h
        rw [List.any_eq_true]
        exact ⟨d, List.mem_of_find?_eq_some (resolveCurrent_generation hd).2, hholds⟩
      · cases h
    · cases h
  bytes value :=
    ((tree.generations.findSome? fun d ↦
      (d.files.find? fun f ↦ locate d.name f.1 = value).map fun f ↦ render f.2)).getD []
  sha256 := sha256

end

/-! ## The system -/

/-- `installed` and `live` remember the last reconcile that returned: the places of its manifest and
the generation that was current. -/
structure System (Doc Content : Type) where
  tree : Generation.World Doc
  world : Reconcile.World Content
  installed : List Reconcile.Place
  live : Option GenName

/-- The attempt of `main` that publishes the files: allocate, switch, prune.  A prune that raises is
deferred. -/
def entryRun (tree : Generation.World Doc) (revision : Commit) (now : Nat)
    (files : List (String × File Doc)) (fault : Option (Nat × Cut)) :
    Except GenerationError (Generation.World Doc) := do
  let (name, tree) ← allocateGeneration tree revision now
  let tree := tree.update name fun d ↦ { d with isSealed := true, files := files }
  let tree := { tree with current := .link (.generation name) }
  match pruneGenerations tree 3 fault with
  | .ok tree => .ok tree
  | .error _ => .ok tree

/-- An attempt of `main` whose candidate is discarded. -/
def discardedAttempt (tree : Generation.World Doc) (revision : Commit) (now : Nat)
    (files : List (String × File Doc)) (fault : Option Cut) :
    Except GenerationError (Generation.World Doc) := do
  let (name, tree) ← allocateGeneration tree revision now
  let tree := tree.update name fun d ↦ { d with files := files }
  match discardGeneration tree name fault with
  | .ok tree => .ok tree
  | .error _ => .ok tree

/-- The links once the generation root has changed: the file behind a link may be gone, and the path
of a dangling one may exist again. -/
def settle (fs : Reconcile.Files) (revives : Reconcile.Place → Option Text)
    (run : Reconcile.Runtime) : Reconcile.Runtime :=
  mapStore (fun place node ↦
    match node with
    | .live source => if fs.generated source then .live source else .dangling
    | .dangling =>
      match revives place with
      | some source => if fs.generated source then .live source else .dangling
      | none => .dangling
    | .file => .file) run

def manifestPlaces (manifest : Reconcile.Manifest) : List Reconcile.Place :=
  manifest.links.map (fun item ↦ (.systemd, item.1)) ++
    manifest.quadletLinks.map fun item ↦ (.quadlet, item.1)

inductive Action (Doc : Type) where
  | entry (revision : Commit) (now : Nat) (files : List (String × File Doc))
      (fault : Option (Nat × Cut)) (revives : Reconcile.Place → Option Text)
  | discarded (revision : Commit) (now : Nat) (files : List (String × File Doc))
      (fault : Option Cut) (revives : Reconcile.Place → Option Text)
  | reconcile (manifest : Reconcile.Manifest) (deps : Dependencies Text) (readable : Text → Bool)
      (sys : Reconcile.Step → Reconcile.Outcome)

section

variable (locate : GenName → String → Text) (render : File Doc → Text) (sha256 : Text → Text)
  (codec : Reconcile.Codec Content)

/-- The system behind a change of the generation root; one that raised has changed nothing. -/
def System.setTree (s : System Doc Content) (revives : Reconcile.Place → Option Text) :
    Except GenerationError (Generation.World Doc) → System Doc Content
  | .error _ => s
  | .ok tree =>
    { s with
      tree := tree
      world := { s.world with
        runtime := settle (filesOf locate render sha256 tree) revives s.world.runtime } }

def act (s : System Doc Content) : Action Doc → System Doc Content
  | .entry revision now files fault revives =>
    s.setTree locate render sha256 revives (entryRun s.tree revision now files fault)
  | .discarded revision now files fault revives =>
    s.setTree locate render sha256 revives (discardedAttempt s.tree revision now files fault)
  | .reconcile manifest deps readable sys =>
    let r := Reconcile.reconcile (filesOf locate render sha256 s.tree) codec deps readable sys
      manifest s.world
    match r.result with
    | .ok _ =>
      { s with
        world := r.world, installed := manifestPlaces manifest, live := s.tree.currentName }
    | .error _ => { s with world := r.world }

def Step (s : System Doc Content) (a : Action Doc) (s' : System Doc Content) : Prop :=
  s' = act locate render sha256 codec s a

/-- Every link of the last reconcile that returned leads to a file of a generation directory that
exists. -/
def LinksStand (s : System Doc Content) : Prop :=
  ∀ place ∈ s.installed, ∃ source, s.world.runtime.lookup place = some (.live source) ∧
    ∃ d ∈ s.tree.generations, holds locate d source = true

/-- The other directories that are at least as new as the generation of the live links. -/
def rivals (tree : Generation.World Doc) (live : GenName) : List (Directory Doc) :=
  match tree.dir live with
  | none => []
  | some l => tree.generations.filter fun d ↦ d.name ≠ live ∧ l.mtime ≤ d.mtime

/-- At most one other directory is as new as the one of the live links when a publishing attempt
begins.  A directory whose removal was cut off counts with the time of the removal. -/
def Calm (s : System Doc Content) : Action Doc → Prop
  | .entry _ _ _ _ _ => ∀ live ∈ s.live, (rivals s.tree live).length ≤ 1
  | .discarded _ _ _ _ _ => True
  | .reconcile _ _ _ _ => True

end

/-! ## What a prune keeps -/

/-- What has at most `n` other elements in front of it, or level with it, is among the first. -/
theorem mem_take_of_rivals {α : Type} {before : α → α → Prop} [DecidableRel before]
    {l m : List α} {x : α} {n : Nat} (hl : l.Pairwise before) (hnodup : l.Nodup) (hx : x ∈ l)
    (hm : ∀ y ∈ l, y ≠ x → before y x → y ∈ m) (hn : m.length ≤ n) : x ∈ l.take (n + 1) := by
  rcases List.append_of_mem hx with ⟨pre, post, rfl⟩
  have hpre : pre ⊆ m := by
    intro y hy
    apply hm y (List.mem_append_left _ hy)
    · rintro rfl
      exact (List.nodup_append.mp hnodup).2.2 y hy y (.head post) rfl
    · exact (List.pairwise_append.mp hl).2.2 y hy x (.head post)
  have hlength : pre.length ≤ n :=
    ((((List.nodup_append.mp hnodup).1).subperm hpre).length_le).trans hn
  rw [List.take_append]
  apply List.mem_append_right
  rw [show n + 1 - pre.length = (n - pre.length) + 1 by omega, List.take_succ_cons]
  exact .head _

theorem names_update (tree : Generation.World Doc) (name : GenName)
    (f : Directory Doc → Directory Doc) :
    (tree.update name f).generations.map (·.name) = tree.generations.map (·.name) := by
  unfold Generation.World.update
  rw [List.map_map]
  apply List.map_congr_left
  intro d _
  show (if d.name = name then { f d with name := name } else d).name = d.name
  split
  · rename_i h
    exact h.symm
  · rfl

theorem names_removeVictims (w : Generation.World Doc) (victims : List GenName)
    (fault : Option (Nat × Cut)) :
    ((removeVictims w victims fault).generations.map (·.name)).Sublist
      (w.generations.map (·.name)) := by
  have hremove : ∀ (w : Generation.World Doc) name,
      ((w.remove name).generations.map (·.name)).Sublist (w.generations.map (·.name)) :=
    fun w name => (List.filter_sublist).map _
  induction w, victims, fault using removeVictims.induct with
  | case1 w fault =>
    unfold removeVictims
    exact .refl _
  | case2 w victim rest ih =>
    unfold removeVictims
    exact ih.trans (hremove w victim)
  | case3 w victim rest n =>
    unfold removeVictims
    rw [names_update]
  | case4 w victim rest k n ih =>
    unfold removeVictims
    exact ih.trans (hremove w victim)

theorem notMem_pruneVictims {current live : GenName}
    {l : Directory Doc} (hnodup : (tree.generations.map (·.name)).Nodup)
    (hlive : tree.dir live = some l)
    (hrivals : (tree.generations.filter fun d ↦
      d.name ≠ current ∧ d.name ≠ live ∧ l.mtime ≤ d.mtime).length ≤ 1) :
    live ∉ pruneVictims tree current 3 := by
  unfold pruneVictims
  simp only
  intro hmem
  rw [List.mem_filter, decide_eq_true_eq, List.mem_cons, not_or] at hmem
  rcases hmem with ⟨_, hcurrent, htake⟩
  apply htake
  have hname : l.name = live := World.name_of_dir hlive
  -- the directories other than `current`, the newest first
  let sorted := tree.generations.insertionSort fun a b ↦ b.mtime ≤ a.mtime
  have hperm : sorted.Perm tree.generations := List.perm_insertionSort _ _
  have hsorted : sorted.Pairwise fun a b ↦ b.mtime ≤ a.mtime := by
    have htotal : Std.Total fun a b : Directory Doc ↦ b.mtime ≤ a.mtime :=
      ⟨fun a b => Nat.le_total b.mtime a.mtime⟩
    have htrans : IsTrans (Directory Doc) fun a b ↦ b.mtime ≤ a.mtime :=
      ⟨fun a b c hab hbc => Nat.le_trans hbc hab⟩
    exact List.pairwise_insertionSort _ _
  have hmemL : l ∈ sorted.filter fun d ↦ d.name ≠ current := by
    rw [List.mem_filter, decide_eq_true_eq, hname]
    exact ⟨hperm.mem_iff.mpr (List.mem_of_find?_eq_some hlive), hcurrent⟩
  have hin : l ∈ (sorted.filter fun d ↦ d.name ≠ current).take (1 + 1) := by
    refine mem_take_of_rivals (hsorted.filter _) ?_ hmemL ?_ hrivals
    · exact (hperm.nodup_iff.mpr (List.Nodup.of_map _ hnodup)).filter _
    · intro y hy hne hbefore
      rw [List.mem_filter, decide_eq_true_eq] at hy
      have hyGen := hperm.mem_iff.mp hy.1
      rw [List.mem_filter, decide_eq_true_eq]
      refine ⟨hyGen, hy.2, ?_, hbefore⟩
      intro hyname
      exact hne (List.inj_on_of_nodup_map hnodup hyGen (List.mem_of_find?_eq_some hlive)
        (hyname.trans hname.symm))
  have hmap : ((sorted.map (·.name)).filter (· ≠ current)).take (3 - 1) =
      ((sorted.filter fun d ↦ d.name ≠ current).take (1 + 1)).map (·.name) := by
    rw [List.filter_map, List.map_take]
    rfl
  rw [hmap, List.mem_map]
  exact ⟨l, hin, hname⟩

theorem update_add {f : Directory Doc → Directory Doc} (hfresh : tree.dir name = none) :
    (tree.add ⟨name, now, false, []⟩).update name f =
      tree.add { f ⟨name, now, false, []⟩ with name } := by
  unfold Generation.World.update Generation.World.add
  simp only [List.map_append, List.map_cons, List.map_nil, if_true]
  congr 2
  calc tree.generations.map _ = tree.generations.map id := by
        apply List.map_congr_left
        intro d hd
        rw [if_neg (by simpa using List.find?_eq_none.mp hfresh d hd)]
        rfl
    _ = tree.generations := List.map_id _

theorem nodup_add {d : Directory Doc}
    (hnodup : (tree.generations.map (·.name)).Nodup) (hfresh : tree.dir d.name = none) :
    ((tree.add d).generations.map (·.name)).Nodup := by
  unfold Generation.World.add
  rw [List.map_append]
  apply List.Nodup.append hnodup (List.nodup_singleton _)
  intro n hn hn'
  rcases List.mem_map.mp hn with ⟨e, he, rfl⟩
  exact absurd (List.mem_singleton.mp hn') (by simpa using List.find?_eq_none.mp hfresh e he)

theorem entryRun_ok {fault : Option (Nat × Cut)}
    (h : entryRun tree revision now files fault = .ok tree') :
    ∃ name published, tree.dir name = none ∧
      published = ⟨tree.generations ++ [⟨name, now, true, files⟩], .link (.generation name),
        tree.stable⟩ ∧
      (tree' = published ∨ tree' = removeVictims published (pruneVictims published name 3) fault) := by
  unfold entryRun at h
  rcases bind_ok h with ⟨⟨name, added⟩, halloc, h⟩
  rcases allocateGeneration_spec halloc with ⟨_, hfresh, rfl⟩
  refine ⟨name, _, hfresh, rfl, ?_⟩
  simp only at h
  rw [update_add hfresh] at h
  split at h
  · rename_i pruned hprune
    cases h
    apply Or.inr
    unfold pruneGenerations at hprune
    split at hprune
    · rename_i d hresolve
      cases hprune
      have hname := (resolveCurrent_generation hresolve).1
      rw [← Option.some.inj hname]
      rfl
    · cases hprune
  · cases h
    exact .inl rfl

theorem discardGeneration_kept (h : discardGeneration tree name fault = .ok tree') :
    ((tree'.generations.map (·.name)).Sublist (tree.generations.map (·.name))) ∧
      ∀ other, other ≠ name → tree'.dir other = tree.dir other := by
  unfold discardGeneration at h
  split at h
  · cases h
    exact ⟨.refl _, fun _ _ => rfl⟩
  · split at h
    · cases h
    · dsimp only at h
      split at h
      · cases h
      · split at h
        all_goals cases h
        · constructor
          · rw [← names_update tree name fun d ↦ { d with isSealed := false }]
            exact List.filter_sublist.map _
          · intro other hother
            rw [World.dir_remove_of_ne _ hother, World.dir_update_of_ne _ hother]
        · constructor
          · rw [names_update, names_update]
          · intro other hother
            rw [World.dir_update_of_ne _ hother, World.dir_update_of_ne _ hother]

theorem discardedAttempt_ok (hnodup : (tree.generations.map (·.name)).Nodup)
    (h : discardedAttempt tree revision now files fault = .ok tree') :
    (tree'.generations.map (·.name)).Nodup ∧
      ∀ name d, tree.dir name = some d → tree'.dir name = some d := by
  unfold discardedAttempt at h
  rcases bind_ok h with ⟨⟨name, added⟩, halloc, h⟩
  rcases allocateGeneration_spec halloc with ⟨_, hfresh, rfl⟩
  simp only at h
  rw [update_add hfresh] at h
  have hadded := @nodup_add _ _ ⟨name, now, false, files⟩ hnodup hfresh
  split at h
  · rename_i discarded hdiscard
    cases h
    rcases discardGeneration_kept hdiscard with ⟨hnames, hothers⟩
    refine ⟨hadded.sublist hnames, ?_⟩
    intro other d hd
    rw [hothers other ?_]
    · exact World.dir_add_of_some hd
    · rintro rfl
      rw [hfresh] at hd
      cases hd
  · cases h
    exact ⟨hadded, fun other d hd => World.dir_add_of_some hd⟩

/-! ## Live links -/

section

variable {locate : GenName → String → Text} {render : File Doc → Text} {sha256 : Text → Text}
  {codec : Reconcile.Codec Content} {s s' : System Doc Content}
variable {revives : Reconcile.Place → Option Text}

/-- Names are unique, and the installed links lead into the generation remembered with them. -/
structure Inv (locate : GenName → String → Text) (s : System Doc Content) : Prop where
  nodup : (s.tree.generations.map (·.name)).Nodup
  links : ∀ place ∈ s.installed, ∃ live d source, s.live = some live ∧ s.tree.dir live = some d ∧
    holds locate d source = true ∧ s.world.runtime.lookup place = some (.live source)

theorem LinksStand.of_inv (h : Inv locate s) : LinksStand locate s := by
  intro place hplace
  rcases h.links place hplace with ⟨live, d, source, _, hd, hholds, hlookup⟩
  exact ⟨source, hlookup, d, List.mem_of_find?_eq_some hd, hholds⟩

theorem Inv.setTree (h : Inv locate s) (hnodup : (tree.generations.map (·.name)).Nodup)
    (hkeep : ∀ live ∈ s.live, ∀ d, s.tree.dir live = some d → tree.dir live = some d) :
    Inv locate (s.setTree locate render sha256 revives (.ok tree)) := by
  refine ⟨hnodup, ?_⟩
  intro place hplace
  rcases h.links place hplace with ⟨live, d, source, hlive, hd, hholds, hlookup⟩
  have hkept := hkeep live hlive d hd
  refine ⟨live, d, source, hlive, hkept, hholds, ?_⟩
  show (settle _ revives s.world.runtime).lookup place = _
  unfold settle
  rw [lookup_mapStore, hlookup]
  have hgenerated : (filesOf locate render sha256 tree).generated source = true := by
    show (tree.generations.any fun d ↦ holds locate d source) = true
    rw [List.any_eq_true]
    exact ⟨d, List.mem_of_find?_eq_some hkept, hholds⟩
  simp only [Option.map_some, hgenerated, if_true]

theorem Inv.entry {revision : Commit} {now : Nat}
    {files : List (String × File Doc)} {fault : Option (Nat × Cut)}
    (h : Inv locate s)
    (hcalm : ∀ live ∈ s.live, (rivals s.tree live).length ≤ 1)
    (hrun : entryRun s.tree revision now files fault = .ok tree) :
    Inv locate (s.setTree locate render sha256 revives (.ok tree)) := by
  rcases entryRun_ok hrun with ⟨name, published, hfresh, hpublished, hcases⟩
  have hnodup : (published.generations.map (·.name)).Nodup := by
    rw [hpublished]
    exact @nodup_add _ _ ⟨name, now, true, files⟩ h.nodup hfresh
  apply h.setTree
  · rcases hcases with rfl | rfl
    · exact hnodup
    · exact hnodup.sublist (names_removeVictims _ _ _)
  · intro live hlive d hd
    have hpub : published.dir live = some d := by
      rw [hpublished]
      exact World.dir_add_of_some hd
    -- at most one other directory is as new, so the live one is among the three that are kept
    rcases hcases with rfl | rfl
    · exact hpub
    · rw [(removeVictims_untouched published _ fault).2 live ?_, hpub]
      apply notMem_pruneVictims hnodup hpub
      have hrivals := hcalm live hlive
      unfold rivals at hrivals
      rw [hd] at hrivals
      refine le_trans (List.Sublist.length_le ?_) hrivals
      rw [hpublished]
      simp only [List.filter_append]
      rw [show List.filter _ [_] = [] from by simp, List.append_nil]
      apply List.monotone_filter_right
      intro e he
      simp only [decide_eq_true_eq] at he ⊢
      exact he.2

theorem Inv.reconcile {manifest : Reconcile.Manifest} {deps : Dependencies Text}
    {readable : Text → Bool} {sys : Reconcile.Step → Reconcile.Outcome} (h : Inv locate s) :
    Inv locate (act locate render sha256 codec s (.reconcile manifest deps readable sys)) := by
  unfold act
  simp only
  split
  · rename_i report hok
    refine ⟨h.nodup, ?_⟩
    intro place hplace
    have hinstalled : ∃ item ∈ manifest.entries place.1, item.1 = place.2 := by
      rcases List.mem_append.mp hplace with hp | hp
      · rcases List.mem_map.mp hp with ⟨item, hitem, rfl⟩
        exact ⟨item, hitem, rfl⟩
      · rcases List.mem_map.mp hp with ⟨item, hitem, rfl⟩
        exact ⟨item, hitem, rfl⟩
    rcases hinstalled with ⟨item, hitem, heq⟩
    -- a run that returns has every link of the manifest where the current generation has it
    have hest : ∃ source, (filesOf locate render sha256 s.tree).current item.2 = some source ∧
        (Reconcile.reconcile (filesOf locate render sha256 s.tree) codec deps readable sys manifest
          s.world).world.runtime.lookup (place.1, item.1) = some (.live source) := by
      rcases Reconcile.reconcile_ok hok with ⟨p, hp, ⟨hnoop, hrun⟩ | ⟨_, hforward, hworld⟩⟩
      · rw [hrun]
        exact (Reconcile.established_of_noop hp hnoop).installed place.1 item hitem
      · rw [hworld]
        exact (Reconcile.established_of_forward hp hforward).installed place.1 item hitem
    rcases hest with ⟨source, hsource, hlookup⟩
    have hcurrent : ∃ d, s.tree.resolveCurrent = some (.generation d) ∧
        holds locate d source = true := by
      unfold filesOf at hsource
      simp only at hsource
      split at hsource
      · rename_i d hd
        split at hsource
        · rename_i hholds
          cases hsource
          exact ⟨d, hd, hholds⟩
        · cases hsource
      · cases hsource
    rcases hcurrent with ⟨d, hd, hholds⟩
    rcases resolveCurrent_generation hd with ⟨hname, hdir⟩
    refine ⟨d.name, d, source, hname, hdir, hholds, ?_⟩
    rw [heq] at hlookup
    exact hlookup
  · rename_i failure herror
    refine ⟨h.nodup, ?_⟩
    intro place hplace
    rcases h.links place hplace with ⟨live, d, source, hlive, hd, hholds, hlookup⟩
    refine ⟨live, d, source, hlive, hd, hholds, ?_⟩
    -- a run that raises keeps every link that led somewhere
    rcases Reconcile.runtime_of_error herror place with heq | ⟨hdangling, _⟩
    · rw [← hlookup]
      exact heq
    · rw [hlookup] at hdangling
      cases hdangling

theorem Inv.step {a : Action Doc} (h : Inv locate s) (hcalm : Calm s a)
    (hstep : Step locate render sha256 codec s a s') : Inv locate s' := by
  rw [show s' = act locate render sha256 codec s a from hstep]
  cases a with
  | entry revision now files fault revives =>
    unfold act
    simp only
    cases hrun : entryRun s.tree revision now files fault with
    | error e => exact h
    | ok tree => exact h.entry hcalm hrun
  | discarded revision now files fault revives =>
    unfold act
    simp only
    cases hrun : discardedAttempt s.tree revision now files fault with
    | error e => exact h
    | ok tree =>
      rcases discardedAttempt_ok h.nodup hrun with ⟨hnodup, hkept⟩
      exact h.setTree hnodup fun live _ d hd => hkept live d hd
  | reconcile manifest deps readable sys => exact h.reconcile

def Fresh (s : System Doc Content) : Prop :=
  (s.tree.generations.map (·.name)).Nodup ∧ s.installed = []

/-- While every publishing attempt finds at most one other directory as new as the one of the live
links, they stand in every state of the run. -/
theorem linksStand_of_calm {as : List (Action Doc)} (hfresh : Fresh s)
    (hrun : Run (fun s a s' ↦ Calm s a ∧ Step locate render sha256 codec s a s') s as s') :
    LinksStand locate s' := by
  apply LinksStand.of_inv
  apply @Run.invariant _ _ (Inv locate) _ _ _ _ hrun
  · refine ⟨hfresh.1, ?_⟩
    rw [hfresh.2]
    intro place hplace
    exact (List.not_mem_nil hplace).elim
  · intro t a t' hinv hstep
    exact hinv.step hstep.1 hstep.2

end

/-! ## Three publications after the last reconcile that returned -/

def generationPath (name : GenName) (path : String) : Text :=
  "/g/".toList ++ (Nat.repr name.index).toList ++ '/' :: path.toList

def appFile : List (String × File Unit) := [("nas-v2-app.service", .generated ())]

def plainAct : System Unit Reconcile.Recorded → Action Unit → System Unit Reconcile.Recorded :=
  act generationPath (fun _ ↦ []) id Reconcile.plainCodec

def appManifest (index : Nat) : Reconcile.Manifest :=
  { Reconcile.appManifest with
    links := [("nas-v2-app.service".toList, generationPath ⟨0, index⟩ "nas-v2-app.service")] }

def publish (now : Nat) : Action Unit := .entry 0 now appFile none fun _ ↦ none

def reconciled (index : Nat) : Action Unit :=
  .reconcile (appManifest index) .apart (fun _ ↦ true) fun _ ↦ .done fun _ ↦ true

/-- A reconcile whose `daemon-reload` fails. -/
def refused (index : Nat) : Action Unit :=
  .reconcile (appManifest index) .apart (fun _ ↦ true) (Reconcile.failsAt .daemonReload false)

def emptySystem : System Unit Reconcile.Recorded :=
  ⟨⟨[], .absent, fun _ ↦ .absent⟩, ⟨∅, none, fun _ ↦ false⟩, [], none⟩

/-- Three applies fail after the first one; the third publication prunes the live generation. -/
theorem not_linksStand_thirdFailure :
    ∃ as s', Fresh emptySystem ∧
      Run (Step generationPath (fun _ ↦ []) id Reconcile.plainCodec) emptySystem as s' ∧
      ¬ LinksStand generationPath s' := by
  let as : List (Action Unit) :=
    [publish 1, reconciled 1, publish 2, refused 2, publish 3, refused 3, publish 4]
  refine ⟨as, as.foldl plainAct emptySystem, ⟨List.nodup_nil, rfl⟩,
    run_foldl plainAct as emptySystem, ?_⟩
  intro hstand
  have hinstalled : (.systemd, "nas-v2-app.service".toList) ∈
      (as.foldl plainAct emptySystem).installed := by decide
  have hlookup : (as.foldl plainAct emptySystem).world.runtime.lookup
      (.systemd, "nas-v2-app.service".toList) = some .dangling := by decide
  rcases hstand _ hinstalled with ⟨source, hsource, _⟩
  rw [hlookup] at hsource
  cases hsource

theorem linksStand_of_calm_twoPublications :
    LinksStand generationPath
      ([publish 1, reconciled 1, publish 2, refused 2, publish 3].foldl plainAct emptySystem) := by
  have hcalm (now : Nat) (s : System Unit Reconcile.Recorded) (hlive : s.live = some ⟨0, 1⟩)
      (hrivals : (rivals s.tree ⟨0, 1⟩).length ≤ 1) : Calm s (publish now) := by
    intro live h
    rw [show live = ⟨0, 1⟩ from Option.some.inj (h.symm.trans hlive)]
    exact hrivals
  have hrun : Run (fun s a s' ↦
      Calm s a ∧ Step generationPath (fun _ ↦ []) id Reconcile.plainCodec s a s') emptySystem
      [publish 1, reconciled 1, publish 2, refused 2, publish 3]
      ([publish 1, reconciled 1, publish 2, refused 2, publish 3].foldl plainAct emptySystem) := by
    refine .cons ⟨?_, rfl⟩ (.cons ⟨trivial, rfl⟩ (.cons ⟨?_, rfl⟩
      (.cons ⟨trivial, rfl⟩ (.cons ⟨?_, rfl⟩ (.nil _)))))
    · intro live hlive
      cases hlive
    · exact hcalm 2 _ (by decide) (by decide)
    · exact hcalm 3 _ (by decide) (by decide)
  have hfresh : Fresh emptySystem := ⟨List.nodup_nil, rfl⟩
  exact linksStand_of_calm hfresh hrun

end NixNas.Pruning
