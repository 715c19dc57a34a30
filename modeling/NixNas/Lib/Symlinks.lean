import Mathlib.Data.Finset.Card
import Mathlib.Data.Finset.Dedup
import NixNas.Lib.Association

/-!
# Symbolic links

A file system as the kernel walks it: from a directory, part by part, and through the target of
every link that stands in the way.
-/

namespace Symlinks

variable {N : Type}
variable {depth : ℕ}

inductive PathPart (N : Type) where
  | up
  | name (n : N)
  deriving DecidableEq, Repr

/-- An absolute path; two slashes in front are no other place, but another path. -/
structure PosixPath (N : Type) where
  doubled : Bool
  parts : List (PathPart N)
  deriving DecidableEq, Repr

inductive Target (N : Type) where
  | relative (parts : List (PathPart N))
  | absolute (path : PosixPath N)
  deriving DecidableEq, Repr

inductive Node (N : Type) where
  | directory
  | file
  | link (target : Target N)
  deriving DecidableEq, Repr

/-- Where something stands: the names on the way to it from the root. -/
abbrev Place (N : Type) := List N

structure FileSystem (N : Type) where
  node : Place N → Option (Node N)
  root : node [] = some .directory
  parent : ∀ p n, node (p ++ [n]) ≠ none → node p = some .directory
  links : Finset (Place N)
  mem_links : ∀ {p t}, node p = some (.link t) → p ∈ links

def Place.parts (p : Place N) : List (PathPart N) := p.map .name

def Target.parts : Target N → List (PathPart N)
  | .relative parts => parts
  | .absolute path => path.parts

def Target.start (d : Place N) : Target N → Place N
  | .relative _ => d
  | .absolute _ => []

def Target.path (d : Place N) : Target N → PosixPath N
  | .relative parts => ⟨false, d.parts ++ parts⟩
  | .absolute path => path

/-! ## Walking -/

/-- The way from the first place through the parts to the last one, with the links followed. -/
inductive Walks (fs : FileSystem N) : Place N → List (PathPart N) → List (Place N) → Place N → Prop where
  | done (d : Place N) : Walks fs d [] [] d
  | up {d e : Place N} {rest : List (PathPart N)} {followed : List (Place N)}
    (hd : fs.node d = some .directory) (h : Walks fs d.dropLast rest followed e) :
    Walks fs d (.up :: rest) followed e
  | plain {d e : Place N} {n : N} {node : Node N} {rest : List (PathPart N)} {followed : List (Place N)}
    (hnode : fs.node (d ++ [n]) = some node) (hplain : ∀ t, node ≠ .link t)
    (h : Walks fs (d ++ [n]) rest followed e) : Walks fs d (.name n :: rest) followed e
  | link {d m e : Place N} {n : N} {t : Target N} {rest : List (PathPart N)}
    {inner followed : List (Place N)} (hnode : fs.node (d ++ [n]) = some (.link t))
    (htarget : Walks fs (t.start d) t.parts inner m) (h : Walks fs m rest followed e) :
    Walks fs d (.name n :: rest) ((d ++ [n]) :: (inner ++ followed)) e

variable {fs : FileSystem N} {d e m : Place N} {n : N} {t : Target N} {xs ys : List (PathPart N)}
  {followed followed' : List (Place N)}

theorem Walks.append (h : Walks fs d xs followed m) (h' : Walks fs m ys followed' e) :
    Walks fs d (xs ++ ys) (followed ++ followed') e := by
  induction h with
  | done => exact h'
  | up hd _ ih => exact .up hd (ih h')
  | plain hnode hplain _ ih => exact .plain hnode hplain (ih h')
  | link hnode htarget _ _ ih =>
    have hrest := Walks.link hnode htarget (ih h')
    rw [← List.append_assoc] at hrest
    exact hrest

theorem Walks.split (h : Walks fs d (xs ++ ys) followed e) :
    ∃ first m second, Walks fs d xs first m ∧ Walks fs m ys second e ∧ followed = first ++ second := by
  induction xs generalizing d followed with
  | nil => exact ⟨[], d, followed, .done d, h, rfl⟩
  | cons x xs ih =>
    cases h with
    | up hd h =>
      obtain ⟨first, m, second, hxs, hys, rfl⟩ := ih h
      exact ⟨first, m, second, .up hd hxs, hys, rfl⟩
    | plain hnode hplain h =>
      obtain ⟨first, m, second, hxs, hys, rfl⟩ := ih h
      exact ⟨first, m, second, .plain hnode hplain hxs, hys, rfl⟩
    | link hnode htarget h =>
      obtain ⟨first, m, second, hxs, hys, rfl⟩ := ih h
      refine ⟨_, m, second, .link hnode htarget hxs, hys, ?_⟩
      rw [List.cons_append, List.append_assoc]

theorem Walks.unique {e' : Place N} (h : Walks fs d xs followed e) (h' : Walks fs d xs followed' e') :
    followed = followed' ∧ e = e' := by
  induction h generalizing followed' e' with
  | done =>
    cases h'
    exact ⟨rfl, rfl⟩
  | up hd _ ih =>
    cases h' with
    | up _ h' => exact ih h'
  | plain hnode hplain _ ih =>
    cases h' with
    | plain _ _ h' => exact ih h'
    | link hlink => exact (hplain _ (Option.some.inj (hnode.symm.trans hlink))).elim
  | link hnode _ _ ihtarget ih =>
    cases h' with
    | plain hnode' hplain => exact (hplain _ (Option.some.inj (hnode'.symm.trans hnode))).elim
    | link hnode' htarget' h' =>
      cases Option.some.inj (hnode.symm.trans hnode')
      obtain ⟨rfl, rfl⟩ := ihtarget htarget'
      obtain ⟨rfl, rfl⟩ := ih h'
      exact ⟨rfl, rfl⟩

/-- What is followed in the target of a link is followed on the way through the link. -/
theorem Walks.inner {l : Place N} (h : Walks fs d xs followed e) (hl : l ∈ followed)
    (hnode : fs.node l = some (.link t)) :
    ∃ inner m, Walks fs (t.start l.dropLast) t.parts inner m ∧ inner ⊆ followed := by
  induction h with
  | done => cases hl
  | up _ _ ih => exact ih hl
  | plain _ _ _ ih => exact ih hl
  | @link d m e n t' rest inner followed hnode' htarget _ ihtarget ih =>
    rcases List.mem_cons.mp hl with rfl | hl
    · cases Option.some.inj (hnode'.symm.trans hnode)
      rw [List.dropLast_concat]
      exact ⟨inner, m, htarget, fun x hx => List.mem_cons_of_mem _ (List.mem_append_left _ hx)⟩
    · rcases List.mem_append.mp hl with hl | hl
      · obtain ⟨inner', m', hwalks, hsub⟩ := ihtarget hl
        exact ⟨inner', m', hwalks, fun x hx =>
          List.mem_cons_of_mem _ (List.mem_append_left _ (hsub hx))⟩
      · obtain ⟨inner', m', hwalks, hsub⟩ := ih hl
        exact ⟨inner', m', hwalks, fun x hx =>
          List.mem_cons_of_mem _ (List.mem_append_right _ (hsub hx))⟩

theorem Walks.mem_followed {front back : List (PathPart N)} {before : List (Place N)}
    (h : Walks fs d (front ++ .name n :: back) followed e) (hfront : Walks fs d front before m)
    (hnode : fs.node (m ++ [n]) = some (.link t)) : m ++ [n] ∈ followed := by
  obtain ⟨first, m', second, hfirst, hsecond, rfl⟩ := h.split
  obtain ⟨rfl, rfl⟩ := hfront.unique hfirst
  apply List.mem_append_right
  cases hsecond with
  | plain hnode' hplain => exact (hplain _ (Option.some.inj (hnode'.symm.trans hnode))).elim
  | link => exact List.mem_cons_self

/-! ## Resolving a path -/

inductive WalkError where
  | missing
  | notDirectory
  | tooManyLinks
  deriving DecidableEq, Repr

/-- The walk, where the targets of links are followed as given. -/
def walkWith (fs : FileSystem N) (follow : Place N → Target N → Except WalkError (Place N)) :
    Place N → List (PathPart N) → Except WalkError (Place N)
  | d, [] => .ok d
  | d, .up :: rest =>
    match fs.node d with
    | some .directory => walkWith fs follow d.dropLast rest
    | _ => .error .notDirectory
  | d, .name n :: rest =>
    match fs.node (d ++ [n]) with
    | none => .error .missing
    | some (.link t) =>
      match follow d t with
      | .error e => .error e
      | .ok m => walkWith fs follow m rest
    | some _ => walkWith fs follow (d ++ [n]) rest

def resolve (fs : FileSystem N) : ℕ → Place N → List (PathPart N) → Except WalkError (Place N)
  | 0 => walkWith fs fun _ _ ↦ .error .tooManyLinks
  | depth + 1 => walkWith fs fun d t ↦ resolve fs depth (t.start d) t.parts

theorem resolve_eq_walkWith (fs : FileSystem N) (depth : ℕ) :
    ∃ follow, resolve fs depth = walkWith fs follow := by
  cases depth <;> exact ⟨_, rfl⟩

theorem resolve_nil (fs : FileSystem N) (depth : ℕ) (d : Place N) : resolve fs depth d [] = .ok d := by
  cases depth <;> rfl

theorem resolve_up (hd : fs.node d = some .directory) (depth : ℕ) :
    resolve fs depth d (.up :: xs) = resolve fs depth d.dropLast xs := by
  obtain ⟨follow, hfollow⟩ := resolve_eq_walkWith fs depth
  rw [hfollow, walkWith, hd]

theorem resolve_plain {node : Node N} (hnode : fs.node (d ++ [n]) = some node)
    (hplain : ∀ t, node ≠ .link t) (depth : ℕ) :
    resolve fs depth d (.name n :: xs) = resolve fs depth (d ++ [n]) xs := by
  obtain ⟨follow, hfollow⟩ := resolve_eq_walkWith fs depth
  rw [hfollow, walkWith, hnode]
  cases node with
  | directory => rfl
  | file => rfl
  | link t => exact (hplain t rfl).elim

theorem resolve_link (hnode : fs.node (d ++ [n]) = some (.link t))
    (htarget : resolve fs depth (t.start d) t.parts = .ok m) :
    resolve fs (depth + 1) d (.name n :: xs) = resolve fs (depth + 1) m xs := by
  unfold resolve
  rw [walkWith, hnode]
  dsimp only
  rw [htarget]

theorem Walks.resolve (h : Walks fs d xs followed e) :
    ∃ depth, ∀ more, resolve fs (depth + more) d xs = .ok e := by
  induction h with
  | done d => exact ⟨0, fun more => resolve_nil fs _ d⟩
  | up hd _ ih =>
    obtain ⟨depth, hdepth⟩ := ih
    exact ⟨depth, fun more => (resolve_up hd _).trans (hdepth more)⟩
  | plain hnode hplain _ ih =>
    obtain ⟨depth, hdepth⟩ := ih
    exact ⟨depth, fun more => (resolve_plain hnode hplain _).trans (hdepth more)⟩
  | link hnode _ _ ihtarget ih =>
    obtain ⟨inner, hinner⟩ := ihtarget
    obtain ⟨outer, houter⟩ := ih
    refine ⟨inner + outer + 1, fun more => ?_⟩
    have htarget := hinner (outer + more)
    have hrest := houter (inner + 1 + more)
    have hshift : inner + outer + 1 + more = inner + (outer + more) + 1 := by omega
    have hshift' : inner + outer + 1 + more = outer + (inner + 1 + more) := by omega
    rw [hshift, resolve_link hnode htarget, ← hshift, hshift']
    exact hrest

theorem walks_of_walkWith {follow : Place N → Target N → Except WalkError (Place N)}
    (hfollow : ∀ d t m, follow d t = .ok m → ∃ inner, Walks fs (t.start d) t.parts inner m)
    (h : walkWith fs follow d xs = .ok e) : ∃ followed, Walks fs d xs followed e := by
  induction xs generalizing d with
  | nil =>
    cases h
    exact ⟨[], .done _⟩
  | cons x xs ih =>
    cases x with
    | up =>
      unfold walkWith at h
      split at h
      · rename_i hd
        obtain ⟨followed, hwalks⟩ := ih h
        exact ⟨followed, .up hd hwalks⟩
      · cases h
    | name n =>
      unfold walkWith at h
      split at h
      · cases h
      · rename_i t hnode
        split at h
        · cases h
        · rename_i m htarget
          obtain ⟨inner, hinner⟩ := hfollow d t m htarget
          obtain ⟨followed, hwalks⟩ := ih h
          exact ⟨_, .link hnode hinner hwalks⟩
      · rename_i node hplain hnode
        obtain ⟨followed, hwalks⟩ := ih h
        exact ⟨followed, .plain hnode (fun t ht => hplain t ht) hwalks⟩

theorem walks_of_resolve (h : resolve fs depth d xs = .ok e) :
    ∃ followed, Walks fs d xs followed e := by
  induction depth generalizing d xs e with
  | zero =>
    apply walks_of_walkWith _ h
    intro d t m hm
    cases hm
  | succ depth ih => exact walks_of_walkWith (fun d t m hm => ih hm) h

theorem exists_depth (fs : FileSystem N) (paths : List (List (PathPart N))) :
    ∃ depth, ∀ xs ∈ paths, ∀ followed e, Walks fs [] xs followed e →
      ∀ more, Symlinks.resolve fs (depth + more) [] xs = .ok e := by
  induction paths with
  | nil => exact ⟨0, List.forall_mem_nil _⟩
  | cons xs paths ih =>
    obtain ⟨depth, hdepth⟩ := ih
    by_cases hwalks : ∃ followed e, Walks fs [] xs followed e
    · obtain ⟨followed, e, hwalks⟩ := hwalks
      obtain ⟨depth', hdepth'⟩ := hwalks.resolve
      refine ⟨depth + depth', ?_⟩
      rw [List.forall_mem_cons]
      constructor
      · intro followed' e' hwalks' more
        rw [← (hwalks.unique hwalks').2, Nat.add_comm depth, Nat.add_assoc]
        exact hdepth' _
      · intro ys hys followed' e' hwalks' more
        rw [Nat.add_assoc]
        exact hdepth ys hys followed' e' hwalks' _
    · refine ⟨depth, ?_⟩
      rw [List.forall_mem_cons]
      exact ⟨fun followed e h => (hwalks ⟨followed, e, h⟩).elim, hdepth⟩

/-! ## Places -/

def IsReal (fs : FileSystem N) (p : Place N) : Prop :=
  ∃ node, fs.node p = some node ∧ ∀ t, node ≠ .link t

theorem isReal_of_directory (h : fs.node d = some .directory) : IsReal fs d :=
  ⟨.directory, h, fun _ h => by cases h⟩

theorem directory_dropLast (h : fs.node d ≠ none) : fs.node d.dropLast = some .directory := by
  rcases List.eq_nil_or_concat d with rfl | ⟨p, n, rfl⟩
  · exact fs.root
  · rw [List.concat_eq_append] at h ⊢
    rw [List.dropLast_concat]
    exact fs.parent p n h

theorem Walks.isReal (h : Walks fs d xs followed e) (hd : IsReal fs d) : IsReal fs e := by
  induction h with
  | done => exact hd
  | up hnode _ ih =>
    apply ih
    apply isReal_of_directory
    apply directory_dropLast
    rw [hnode]
    exact Option.some_ne_none _
  | plain hnode hplain _ ih => exact ih ⟨_, hnode, hplain⟩
  | @link d m e n t _ _ _ hnode _ _ ihtarget ih =>
    have hparent : fs.node d = some .directory := by
      apply fs.parent d n
      rw [hnode]
      exact Option.some_ne_none _
    apply ih
    apply ihtarget
    cases t with
    | relative => exact isReal_of_directory hparent
    | absolute => exact isReal_of_directory fs.root

theorem walks_place {p : Place N} (h : IsReal fs p) : Walks fs [] p.parts [] p := by
  induction p using List.reverseRecOn with
  | nil => exact .done []
  | append_singleton p n ih =>
    obtain ⟨node, hnode, hplain⟩ := h
    have hparent : fs.node p = some .directory := by
      apply fs.parent p n
      rw [hnode]
      exact Option.some_ne_none _
    have hlast : Walks fs p [.name n] [] (p ++ [n]) := .plain hnode hplain (.done _)
    have hparts : Place.parts (p ++ [n]) = Place.parts p ++ [.name n] := List.map_append
    rw [hparts]
    exact (ih (isReal_of_directory hparent)).append hlast

theorem walks_path (hd : fs.node d = some .directory) (h : Walks fs (t.start d) t.parts followed e) :
    ∃ front, (t.path d).parts = front ++ t.parts ∧ Walks fs [] front [] (t.start d) ∧
      Walks fs [] (t.path d).parts followed e := by
  cases t with
  | relative parts =>
    have hfront := walks_place (isReal_of_directory hd)
    exact ⟨d.parts, rfl, hfront, hfront.append h⟩
  | absolute path => exact ⟨[], rfl, .done [], h⟩

/-! ## File systems from their entries -/

section

variable [DecidableEq N]

def nodeOf (entries : List (Place N × Node N)) (p : Place N) : Option (Node N) :=
  if p = [] then some .directory else entries.lookup p

def isTree (entries : List (Place N × Node N)) : Bool :=
  entries.all fun entry ↦ nodeOf entries entry.1.dropLast = some .directory

theorem mem_of_nodeOf {entries : List (Place N × Node N)} {p : Place N} {node : Node N}
    (hp : p ≠ []) (h : nodeOf entries p = some node) : (p, node) ∈ entries := by
  unfold nodeOf at h
  rw [if_neg hp] at h
  exact Association.mem_of_lookup h

def FileSystem.ofEntries (entries : List (Place N × Node N)) (htree : isTree entries = true) :
    FileSystem N where
  node := nodeOf entries
  root := if_pos rfl
  parent p n h := by
    obtain ⟨node, hnode⟩ := Option.ne_none_iff_exists'.mp h
    have hmem := mem_of_nodeOf (List.append_ne_nil_of_right_ne_nil p (List.cons_ne_nil n [])) hnode
    have hparent := List.all_eq_true.mp htree _ hmem
    rw [List.dropLast_concat] at hparent
    exact of_decide_eq_true hparent
  links := (entries.map Prod.fst).toFinset
  mem_links {p t} h := by
    have hp : p ≠ [] := by
      rintro rfl
      cases h
    exact List.mem_toFinset.mpr (List.mem_map_of_mem (mem_of_nodeOf hp h))

end

end Symlinks
