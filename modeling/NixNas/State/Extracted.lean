import NixNas.State.Confined

/-!
# Extractions that end, and extractions that fail

Member after member, what was made is what the members name. A failure takes all of it away, unless
it comes between two directories that one call makes.
-/

open Association

namespace NixNas.State

variable {os : Os} {limits : Limits} {world : Disk} {destination : OsPath}
  {made done : List (RelPath × Node Mode)} {p q : RelPath} {node : Node Mode}
variable {seen : Seen} {st : Extraction}

/-! ## What the members name -/

/-- The entries and nothing else but the directories above them. -/
structure Holds (os : Os) (made done : List (RelPath × Node Mode)) : Prop where
  keys : ∀ q, made.lookup q ≠ none ↔ q ≠ [] ∧ ∃ e ∈ done, q <+: e.1
  nodes : ∀ e ∈ done, made.lookup e.1 = some e.2
  others : ∀ q node, made.lookup q = some node → (∀ e ∈ done, e.1 ≠ q) →
    node = .directory os.directoryMode

theorem Holds.nil : Holds os [] [] where
  keys _ := iff_of_false (fun h => h rfl) (fun ⟨_, _, h, _⟩ => absurd h List.not_mem_nil)
  nodes := nofun
  others _ _ h := nomatch h

theorem Holds.place {made' : List (RelPath × Node Mode)} (h : Holds os made done)
    (hfresh : Fresh made') (hplaced : Placed os made made' p node) (hp : p ≠ [])
    (hnew : ∀ e ∈ done, e.1 ≠ p) : Holds os made' (done ++ [(p, node)]) where
  keys q := by
    by_cases hq : q = p
    · subst hq
      refine iff_of_true (by rw [hplaced.here]; exact nofun) ⟨hp, ?_⟩
      exact ⟨_, List.mem_append_right _ List.mem_cons_self, List.prefix_rfl⟩
    · constructor
      · intro hsome
        rcases hplaced.others q hq with hsame | ⟨-, -, hne, hprefix⟩
        · rw [hsame] at hsome
          obtain ⟨hne, e, he, hprefix⟩ := (h.keys q).mp hsome
          exact ⟨hne, e, List.mem_append_left _ he, hprefix⟩
        · exact ⟨hne, _, List.mem_append_right _ List.mem_cons_self, hprefix⟩
      · rintro ⟨hne, e, he, hprefix⟩
        rcases List.mem_append.mp he with hold | hlast
        · have hsome := (h.keys q).mpr ⟨hne, e, hold, hprefix⟩
          rcases hplaced.others q hq with hsame | ⟨hnone, -⟩
          · rwa [hsame]
          · exact absurd hnone hsome
        · -- a directory above the new entry
          rw [List.mem_singleton.mp hlast] at hprefix
          rcases hfresh.dirs (by rw [hplaced.here]; exact nofun) q hprefix hq with hroot | ⟨mode, hmode⟩
          · exact absurd hroot hne
          · rw [hmode]
            exact nofun
  nodes e he := by
    rcases List.mem_append.mp he with hold | hlast
    · have hnode := h.nodes e hold
      rcases hplaced.others e.1 (hnew e hold) with hsame | ⟨hnone, -⟩
      · rwa [hsame]
      · rw [hnone] at hnode
        cases hnode
    · rw [List.mem_singleton.mp hlast]
      exact hplaced.here
  others q node' hnode hall := by
    have hq : q ≠ p := fun heq =>
      hall _ (List.mem_append_right _ List.mem_cons_self) heq.symm
    rcases hplaced.others q hq with hsame | ⟨-, hdir, -⟩
    · rw [hsame] at hnode
      exact h.others q node' hnode fun e he => hall e (List.mem_append_left _ he)
    · exact Option.some.inj (hnode.symm.trans hdir)

def Member.asNode (member : Member) : Node Mode :=
  if member.kind = .directory then .directory (permissionBits member.mode)
  else .file (permissionBits member.mode) member.data

def Member.entry (member : Member) : RelPath × Node Mode := (pathParts member.name, member.asNode)

def Member.bytes (member : Member) : Nat := member.asNode.content.length

/-- The header checks have counted the members and their bytes. -/
structure Accounted (limits : Limits) (seen : Seen) (members : List Member) : Prop where
  index : seen.index = members.length
  within : seen.index ≤ limits.members
  paths : ∀ q, q ∈ seen.paths ↔ ∃ e ∈ members.map Member.entry, e.1 = q
  bytes : (members.map Member.bytes).sum ≤ seen.total
  total : seen.total ≤ limits.bytes

theorem Accounted.start : Accounted limits .start [] where
  index := rfl
  within := Nat.zero_le _
  paths _ := iff_of_false List.not_mem_nil fun ⟨_, he, _⟩ => absurd he List.not_mem_nil
  bytes := Nat.le_refl _
  total := Nat.zero_le _

variable {members : List Member}

theorem Accounted.next {member : Member}
    (h : Accounted limits seen members) (hindex : seen.index + 1 ≤ limits.members)
    (htotal : seen.total + (max 0 member.size).toNat ≤ limits.bytes)
    (hbytes : member.bytes ≤ (max 0 member.size).toNat) :
    Accounted limits ⟨seen.index + 1, pathParts member.name :: seen.paths,
      seen.total + (max 0 member.size).toNat⟩ (members ++ [member]) where
  index := by
    rw [List.length_append, List.length_singleton, ← h.index]
  within := hindex
  paths q := by
    rw [List.mem_cons, h.paths, List.map_append]
    constructor
    · rintro (rfl | ⟨e, he, rfl⟩)
      · exact ⟨member.entry, List.mem_append_right _ List.mem_cons_self, rfl⟩
      · exact ⟨e, List.mem_append_left _ he, rfl⟩
    · rintro ⟨e, he, rfl⟩
      rcases List.mem_append.mp he with hold | hlast
      · exact .inr ⟨e, hold, rfl⟩
      · rw [List.mem_singleton.mp hlast]
        exact .inl rfl
  bytes := by
    rw [List.map_append, List.sum_append, List.map_singleton, List.sum_singleton]
    exact Nat.add_le_add h.bytes hbytes
  total := htotal

structure Extracted (os : Os) (limits : Limits) (world : Disk) (destination : OsPath)
    (st : Extraction) (seen : Seen) (members : List Member) : Prop where
  rep : ∃ made, Rep os world destination st made ∧ Holds os made (members.map Member.entry)
  names : ∀ member ∈ members, member.kind ≠ .other ∧
    safeMemberName member.name = .ok (pathParts member.name)
  accounted : Accounted limits seen members

/-- At a member whose header is accepted, the directories above its place are made in part. -/
def InterruptedAt (os : Os) (limits : Limits) (destination : OsPath) (st : Extraction) (seen : Seen)
    (member : Member) : Prop :=
  match checkStreamedHeader limits seen member with
  | .error _ => False
  | .ok (relative, _) =>
    (member.kind = .directory → lstatType os st.disk (joinPath destination relative) = .ok none) ∧
      PartlyMade os destination st.disk (joinPath destination relative).dropLast

def Interrupted (os : Os) (limits : Limits) (destination : OsPath) (st : Extraction) (seen : Seen) :
    List Member → Prop
  | [] => False
  | member :: members =>
    InterruptedAt os limits destination st seen member ∨
      match extractMember os limits destination st seen member with
      | (.error _, _) => False
      | (.ok seen', st') => Interrupted os limits destination st' seen' members

instance {st : Extraction} {seen : Seen} {member : Member} :
    Decidable (InterruptedAt os limits destination st seen member) :=
  match h : checkStreamedHeader limits seen member with
  | .error _ => .isFalse (by rw [InterruptedAt, h]; exact id)
  | .ok (relative, _) => decidable_of_iff
      ((member.kind = .directory → lstatType os st.disk (joinPath destination relative) = .ok none) ∧
        PartlyMade os destination st.disk (joinPath destination relative).dropLast)
      (by rw [InterruptedAt, h])

instance Interrupted.decidable (st : Extraction) (seen : Seen) :
    ∀ members, Decidable (Interrupted os limits destination st seen members)
  | [] => .isFalse id
  | member :: members =>
    match h : extractMember os limits destination st seen member with
    | (.error _, _) => decidable_of_iff (InterruptedAt os limits destination st seen member)
        (by rw [Interrupted, h, or_false])
    | (.ok seen', st') =>
      haveI : Decidable (Interrupted os limits destination st' seen' members) :=
        Interrupted.decidable st' seen' members
      decidable_of_iff (InterruptedAt os limits destination st seen member ∨
        Interrupted os limits destination st' seen' members) (by rw [Interrupted, h])

theorem not_interrupted (hroom : ∀ d path, os.hasRoom d path = true)
    : ¬ Interrupted os limits destination st seen members := by
  induction members generalizing st seen with
  | nil => exact id
  | cons member members ih =>
    rintro (hat | hlater)
    · unfold InterruptedAt at hat
      split at hat
      · exact hat
      · obtain ⟨-, missing, -, -, hpart⟩ := hat
        exact hpart (makes_of_room hroom)
    · split at hlater
      · exact hlater
      · exact ih hlater

theorem extractMember_cases (hworld : EmptyDirectory world destination)
    (h : Extracted os limits world destination st seen members) (member : Member) :
    (¬ InterruptedAt os limits destination st seen member ∧
        ((∃ e st' made, extractMember os limits destination st seen member = (.error e, st') ∧
            Rep os world destination st' made) ∨
          ∃ seen' st', extractMember os limits destination st seen member = (.ok seen', st') ∧
            Extracted os limits world destination st' seen' (members ++ [member]))) ∨
      InterruptedAt os limits destination st seen member ∧
        ∃ e st', extractMember os limits destination st seen member = (.error e, st') ∧
          Leaves destination st' := by
  obtain ⟨made, hrep, hholds⟩ := h.rep
  unfold extractMember InterruptedAt
  cases hcheck : checkStreamedHeader limits seen member with
  | error e => exact .inl ⟨id, .inl ⟨_, _, _, rfl, hrep⟩⟩
  | ok checked =>
    obtain ⟨path, seen'⟩ := checked
    obtain ⟨hname, hnew, hkind, hindex, htotal, rfl⟩ := checkStreamedHeader_ok hcheck
    obtain ⟨rfl, hne, hnames⟩ := safeMemberName_ok hname
    have hnotDone : ∀ e ∈ members.map Member.entry, e.1 ≠ pathParts member.name :=
      fun e he heq => hnew ((h.accounted.paths _).mpr ⟨e, he, heq⟩)
    -- a file stands only where a member named it
    have hfile : ∀ mode content, made.lookup (pathParts member.name) ≠ some (.file mode content) := by
      intro mode content hlookup
      cases hholds.others _ _ hlookup hnotDone
    have hnames' : ∀ m ∈ members ++ [member], m.kind ≠ .other ∧
        safeMemberName m.name = .ok (pathParts m.name) := by
      intro m hm
      rcases List.mem_append.mp hm with hold | hlast
      · exact h.names m hold
      · rw [List.mem_singleton.mp hlast]
        exact ⟨hkind, hname⟩
    have hdone : ∀ {st' : Extraction} {made' : List (RelPath × Node Mode)},
        Rep os world destination st' made' →
        Placed os made made' (pathParts member.name) member.asNode →
        member.bytes ≤ (max 0 member.size).toNat →
        Extracted os limits world destination st'
          ⟨seen.index + 1, pathParts member.name :: seen.paths,
            seen.total + (max 0 member.size).toNat⟩ (members ++ [member]) := by
      intro st' made' hrep' hplaced hbytes
      refine ⟨⟨made', hrep', ?_⟩, hnames', h.accounted.next hindex htotal hbytes⟩
      rw [List.map_append]
      exact hholds.place hrep'.fresh hplaced hne hnotDone
    dsimp only
    rw [joinPath_names hnames]
    cases hk : member.kind with
    | directory =>
      have hnode : member.asNode = .directory (permissionBits member.mode) := if_pos hk
      dsimp only
      rw [forall_prop_of_true rfl]
      rcases extractDirectory_cases os hworld hrep hne hnames hfile (permissionBits member.mode) with
        ⟨hwhole, ⟨e, st', made', he, hrep'⟩ | ⟨st', made', he, hrep', hplaced⟩⟩ |
          ⟨hpartly, e, st', he, hleaves⟩
      · rw [he]
        exact .inl ⟨hwhole, .inl ⟨_, _, _, rfl, hrep'⟩⟩
      · rw [he]
        rw [← hnode] at hplaced
        refine .inl ⟨hwhole, .inr ⟨_, _, rfl, hdone hrep' hplaced ?_⟩⟩
        rw [Member.bytes, hnode]
        exact Nat.zero_le _
      · rw [he]
        exact .inr ⟨hpartly, _, _, rfl, hleaves⟩
    | regular =>
      have hnode : member.asNode = .file (permissionBits member.mode) member.data :=
        if_neg (by rw [hk]; decide)
      have hnotDir : Kind.regular = .directory → lstatType os st.disk
          (destination ++ pathParts member.name) = .ok none := fun h => (by cases h)
      dsimp only
      rw [and_iff_right hnotDir]
      rcases extractFile_cases os limits hworld hrep hne hnames seen.total member with
        ⟨hwhole, ⟨e, st', made', he, hrep'⟩ | ⟨st', made', he, hrep', hplaced, hlength⟩⟩ |
          ⟨hpartly, e, st', he, hleaves⟩
      · rw [he]
        exact .inl ⟨hwhole, .inl ⟨_, _, _, rfl, hrep'⟩⟩
      · rw [he]
        rw [← hnode] at hplaced
        refine .inl ⟨hwhole, .inr ⟨_, _, rfl, hdone hrep' hplaced ?_⟩⟩
        rw [Member.bytes, hnode]
        exact Nat.le_of_eq hlength
      · rw [he]
        exact .inr ⟨hpartly, _, _, rfl, hleaves⟩
    | other => exact absurd hk hkind

theorem extractMembers_cases {front : List Member} (ends : Bool)
    (members : List Member) (hworld : EmptyDirectory world destination)
    (h : Extracted os limits world destination st seen front) :
    (¬ Interrupted os limits destination st seen members ∧
        ((∃ e st' made, extractMembers os limits destination ends st seen members = (.error e, st') ∧
            Rep os world destination st' made) ∨
          ∃ st' seen', extractMembers os limits destination ends st seen members = (.ok (), st') ∧
            Extracted os limits world destination st' seen' (front ++ members))) ∨
      Interrupted os limits destination st seen members ∧
        ∃ e st', extractMembers os limits destination ends st seen members = (.error e, st') ∧
          Leaves destination st' := by
  induction members generalizing st seen front with
  | nil =>
    unfold extractMembers
    cases ends with
    | false =>
      obtain ⟨made, hrep, -⟩ := h.rep
      exact .inl ⟨id, .inl ⟨_, _, _, rfl, hrep⟩⟩
    | true =>
      rw [List.append_nil]
      exact .inl ⟨id, .inr ⟨_, _, rfl, h⟩⟩
  | cons member members ih =>
    unfold extractMembers Interrupted
    rcases extractMember_cases hworld h member with
      ⟨hwhole, ⟨e, st', made, he, hrep⟩ | ⟨seen', st', he, hnext⟩⟩ | ⟨hat, e, st', he, hleaves⟩
    · rw [he]
      exact .inl ⟨fun h => h.elim hwhole id, .inl ⟨_, _, _, rfl, hrep⟩⟩
    · -- the member is extracted, and the others follow
      rw [he, List.append_cons, or_iff_right hwhole]
      exact ih hnext
    · rw [he]
      exact .inr ⟨.inl hat, e, st', rfl, hleaves⟩

/-! ## The cleanup -/

theorem beneath_trans {a b c : OsPath} (h : Beneath a b) (h' : Beneath b c) : Beneath a c := by
  refine ⟨h.1.trans h'.1, fun heq => h'.2 ?_⟩
  subst heq
  exact h.1.eq_of_length_le h'.1.length_le

theorem remove_last (hworld : EmptyDirectory world destination) (hp : p ≠ [])
    (habsent : made.lookup p = none) :
    Disk.remove (world ++ lift destination (made ++ [(p, node)])) (destination ++ p) =
      world ++ lift destination made := by
  unfold Disk.remove
  rw [lift_append, ← List.append_assoc, List.filter_append]
  have hkeep : (world ++ lift destination made).filter (fun e ↦ decide (e.1 ≠ destination ++ p)) =
      world ++ lift destination made := by
    apply List.filter_eq_self.mpr
    intro e he
    apply decide_eq_true
    rcases List.mem_append.mp he with hold | hmade
    · intro heq
      exact hworld.empty e hold (heq ▸ beneath_append hp)
    · obtain ⟨e', he', rfl⟩ := List.mem_map.mp hmade
      intro heq
      have hkey : e'.1 = p := List.append_cancel_left heq
      exact lookup_eq_none_iff.mp habsent (hkey ▸ List.mem_map_of_mem he')
  have hdrop : (lift destination [(p, node)]).filter (fun e ↦ decide (e.1 ≠ destination ++ p)) = [] := by
    apply List.filter_eq_nil_iff.mpr
    intro e he
    rw [lift, List.map_singleton, List.mem_singleton] at he
    rw [he, decide_eq_true_eq, not_not]
  rw [hkeep, hdrop, List.append_nil]

theorem rmdir_last (hworld : EmptyDirectory world destination) (h : Fresh made) (hp : p ≠ [])
    (habsent : made.lookup p = none) :
    rmdir (world ++ lift destination (made ++ [(p, node)])) (destination ++ p) =
      world ++ lift destination made := by
  rw [rmdir, if_neg, remove_last hworld hp habsent]
  rintro ⟨e, he, hbeneath⟩
  rcases List.mem_append.mp he with hold | hmade
  · exact hworld.empty e hold (beneath_trans (beneath_append hp) hbeneath)
  · obtain ⟨e', he', rfl⟩ := List.mem_map.mp hmade
    have hprefix : p <+: e'.1 := (List.prefix_append_right_inj destination).mp hbeneath.1
    rcases List.mem_append.mp he' with hold | hlast
    · have hsome : made.lookup e'.1 ≠ none := fun hnone =>
        lookup_eq_none_iff.mp hnone (List.mem_map_of_mem hold)
      by_cases heq : p = e'.1
      · exact hsome (heq ▸ habsent)
      · rcases h.dirs hsome p hprefix heq with hroot | ⟨mode, hmode⟩
        · exact hp hroot
        · rw [habsent] at hmode
          cases hmode
    · rw [List.mem_singleton.mp hlast] at hbeneath
      exact hbeneath.2 rfl

theorem cleanup_fold (hworld : EmptyDirectory world destination) (h : Fresh made)
    (hreaches : ∀ p ∈ made.map Prod.fst, os.reaches (destination ++ p) = true) :
    cleanupPartial os ⟨world ++ lift destination made,
      (made.map Prod.fst).map (destination ++ ·)⟩ = world := by
  induction h with
  | nil => exact List.append_nil world
  | @push made p node h hne hnames habsent hparent ih =>
    rw [List.map_append] at hreaches
    have hlast : os.reaches (destination ++ p) = true :=
      hreaches p (List.mem_append_right _ (List.mem_singleton_self p))
    have hrest := ih fun q hq => hreaches q (List.mem_append_left _ hq)
    unfold cleanupPartial at hrest ⊢
    have hfresh : Fresh (made ++ [(p, node)]) := h.push hne hnames habsent hparent
    have hlookup : (made ++ [(p, node)]).lookup p = some node := by
      rw [lookup_append_none habsent, List.lookup_cons_self]
    have hstat : lstatType os (world ++ lift destination (made ++ [(p, node)])) (destination ++ p) =
        .ok (some node) := by
      rw [lstatType, if_pos hlast,
        walk_found hworld hne (hfresh.dirs (by rw [hlookup]; exact nofun)), hlookup]
    simp only [List.map_append, List.map_cons, List.map_nil, List.reverse_append,
      List.reverse_singleton, List.singleton_append, List.foldl_cons]
    rw [hstat]
    cases node with
    | directory mode =>
      dsimp only
      rw [rmdir_last hworld h hne habsent]
      exact hrest
    | file mode content =>
      dsimp only
      rw [remove_last hworld hne habsent]
      exact hrest

theorem cleanupPartial_eq (hworld : EmptyDirectory world destination)
    (h : Rep os world destination st made) : cleanupPartial os st = world := by
  have hst : st = ⟨world ++ lift destination made, (made.map Prod.fst).map (destination ++ ·)⟩ := by
    rw [← h.disk, ← h.created]
  rw [hst]
  exact cleanup_fold hworld h.fresh h.reaches

theorem mem_cleanupPartial {e : OsPath × Node Mode} (hdisk : e ∈ st.disk)
    (hcreated : e.1 ∉ st.created) : e ∈ cleanupPartial os st := by
  unfold cleanupPartial
  refine List.foldlRecOn (motive := fun d ↦ e ∈ d) _ _ hdisk ?_
  intro d hd path hpath
  have hne : e.1 ≠ path := fun heq => hcreated (List.mem_reverse.mp (heq ▸ hpath))
  have hremove : e ∈ d.remove path := List.mem_filter.mpr ⟨hd, decide_eq_true hne⟩
  split
  · exact hd
  · exact hd
  · unfold rmdir
    split
    · exact hd
    · exact hremove
  · exact hremove

/-! ## Whole extractions -/

/-- The destination holds what the members name, within the limits. -/
structure Unpacked (limits : Limits) (destination : OsPath) (disk : Disk) (members : List Member) :
    Prop where
  entries : ∀ p, p ≠ [] → (disk.find (destination ++ p) ≠ none ↔
    ∃ member ∈ members, p <+: pathParts member.name)
  nodes : ∀ member ∈ members, member.kind ≠ .other ∧
    safeMemberName member.name = .ok (pathParts member.name) ∧
    disk.find (destination ++ pathParts member.name) = some member.asNode
  parents : ∀ p node, p ≠ [] → disk.find (destination ++ p) = some node →
    (∀ member ∈ members, pathParts member.name ≠ p) → node.isDir = true
  count : members.length ≤ limits.members
  bytes : (members.map Member.bytes).sum ≤ limits.bytes

theorem Extracted.unpacked (hworld : EmptyDirectory world destination)
    (h : Extracted os limits world destination st seen members) :
    Unpacked limits destination st.disk members := by
  obtain ⟨made, hrep, hholds⟩ := h.rep
  have hfind : ∀ {p}, p ≠ [] → st.disk.find (destination ++ p) = made.lookup p := by
    intro p hp
    rw [hrep.disk, find_beneath hworld hp]
  refine ⟨?_, ?_, ?_, ?_, ?_⟩
  · intro p hp
    rw [hfind hp, hholds.keys, and_iff_right hp]
    constructor
    · rintro ⟨e, he, hprefix⟩
      obtain ⟨member, hmember, rfl⟩ := List.mem_map.mp he
      exact ⟨member, hmember, hprefix⟩
    · rintro ⟨member, hmember, hprefix⟩
      exact ⟨_, List.mem_map_of_mem hmember, hprefix⟩
  · intro member hmember
    obtain ⟨hkind, hname⟩ := h.names member hmember
    obtain ⟨-, hne, -⟩ := safeMemberName_ok hname
    refine ⟨hkind, hname, ?_⟩
    rw [hfind hne]
    exact hholds.nodes _ (List.mem_map_of_mem hmember)
  · intro p node hp hnode hnone
    rw [hfind hp] at hnode
    rw [hholds.others p node hnode ?_]
    · rfl
    · intro e he
      obtain ⟨member, hmember, rfl⟩ := List.mem_map.mp he
      exact hnone member hmember
  · exact h.accounted.index ▸ h.accounted.within
  · exact h.accounted.bytes.trans h.accounted.total

theorem find_outside (hp : ¬ Beneath destination q) (h : Fresh made) :
    Disk.find (world ++ lift destination made) q = world.find q := by
  unfold Disk.find
  split
  · rfl
  · rw [List.lookup_append, lookup_lift_outside, Option.or_none]
    rintro ⟨p, rfl, hmem⟩
    obtain ⟨e, he, rfl⟩ := List.mem_map.mp hmem
    exact hp (beneath_append (h.entry e he).1)

theorem Rep.created_beneath (h : Rep os world destination st made) {path : OsPath}
    (hpath : path ∈ st.created) :
    ∃ p, path = destination ++ p ∧ p ≠ [] ∧ ∀ name ∈ p, IsName name := by
  rw [h.created] at hpath
  obtain ⟨p, hp, rfl⟩ := List.mem_map.mp hpath
  obtain ⟨e, he, rfl⟩ := List.mem_map.mp hp
  exact ⟨e.1, rfl, h.fresh.entry e he⟩

theorem Extracted.start :
    Extracted os limits world destination ⟨world, []⟩ .start [] where
  rep := ⟨[], ⟨(List.append_nil world).symm, rfl, .nil, nofun⟩, .nil⟩
  names := nofun
  accounted := .start

theorem mkdirParents_destination (hworld : EmptyDirectory world destination) :
    mkdirParents os world destination = (.ok (), world) := by
  obtain ⟨mode, hmode⟩ := hworld.dirs destination List.prefix_rfl
  have hwalk : world.walk [] destination = .ok (some (.directory mode)) := by
    rw [walk_of_dirs fun before hbefore _ => hworld.dirs before hbefore, List.nil_append, hmode]
  obtain ⟨e, he⟩ := mkdirParents_exists os hwalk
  rw [he, Disk.isDir, hwalk, if_pos rfl]

/-- An extraction touches nothing outside of its destination, takes everything away when it fails,
and otherwise leaves what the members name. -/
structure Confined (limits : Limits) (world : Disk) (destination : OsPath) (members : List Member)
    (outcome : Except StateError Unit × Disk × List OsPath) : Prop where
  created : ∀ path ∈ outcome.2.2, ∃ p, path = destination ++ p ∧ p ≠ [] ∧ ∀ name ∈ p, IsName name
  outside : ∀ path, ¬ Beneath destination path → outcome.2.1.find path = world.find path
  cleaned : ∀ e, outcome.1 = .error e → outcome.2.1 = world
  unpacked : outcome.1 = .ok () → Unpacked limits destination outcome.2.1 members

/-- Somewhere in the archive the directories above a member are made in part. -/
def Archive.Interrupts (archive : Archive) (os : Os) (limits : Limits) (world : Disk)
    (destination : OsPath) : Prop :=
  archive.opens = true ∧ Interrupted os limits destination ⟨world, []⟩ .start archive.members

instance (archive : Archive) : Decidable (archive.Interrupts os limits world destination) :=
  inferInstanceAs (Decidable (_ ∧ _))

variable {archive : Archive}

theorem extractBundle_interrupted (hworld : EmptyDirectory world destination)
    (h : archive.Interrupts os limits world destination) :
    (∃ e, (extractBundle os limits destination world archive).1 = .error e) ∧
      ∃ e ∈ (extractBundle os limits destination world archive).2.1, Beneath destination e.1 := by
  unfold extractBundle
  rw [mkdirParents_destination hworld]
  dsimp only
  rw [if_pos h.1]
  rcases extractMembers_cases archive.ends archive.members hworld .start with
    ⟨hwhole, -⟩ | ⟨-, e, st, he, entry, hdisk, hbeneath, hcreated⟩
  · exact absurd h.2 hwhole
  · rw [he]
    exact ⟨⟨e, rfl⟩, entry, mem_cleanupPartial hdisk hcreated, hbeneath⟩

theorem extractBundle_confined (hworld : EmptyDirectory world destination)
    (h : ¬ archive.Interrupts os limits world destination) :
    Confined limits world destination archive.members
      (extractBundle os limits destination world archive) := by
  unfold extractBundle
  rw [mkdirParents_destination hworld]
  dsimp only
  by_cases hopens : archive.opens = true
  · rw [if_pos hopens]
    rcases extractMembers_cases archive.ends archive.members hworld .start with
      ⟨-, ⟨e, st, made, he, hrep⟩ | ⟨st, seen, he, hafter⟩⟩ | ⟨hinterrupted, -⟩
    · -- everything that was made is recorded, and taken away
      rw [he]
      refine ⟨fun path => hrep.created_beneath, fun path _ => ?_, fun _ _ => ?_, nofun⟩
      · dsimp only
        rw [cleanupPartial_eq hworld hrep]
      · exact cleanupPartial_eq hworld hrep
    · rw [he, List.nil_append] at *
      obtain ⟨made, hrep, -⟩ := hafter.rep
      refine ⟨fun path => hrep.created_beneath, fun path hpath => ?_, nofun, fun _ => ?_⟩
      · dsimp only
        rw [hrep.disk]
        exact find_outside hpath hrep.fresh
      · exact hafter.unpacked hworld
    · exact absurd ⟨hopens, hinterrupted⟩ h
  · rw [if_neg hopens]
    exact ⟨nofun, fun _ _ => rfl, fun _ _ => rfl, nofun⟩

/-- An extraction is confined exactly where no directories are made in part. -/
theorem extractBundle_confined_iff (archive : Archive) (hworld : EmptyDirectory world destination) :
    Confined limits world destination archive.members
        (extractBundle os limits destination world archive) ↔
      ¬ archive.Interrupts os limits world destination := by
  constructor
  · intro h hinterrupts
    obtain ⟨⟨e, he⟩, entry, hentry, hbeneath⟩ := extractBundle_interrupted hworld hinterrupts
    rw [h.cleaned e he] at hentry
    exact hworld.empty entry hentry hbeneath
  · exact extractBundle_confined hworld

/-- A bundle that names a file in a directory before the directory, a bundle that puts a file below a
file, and a bundle with a file two directories down. -/
def orderedBundle : Archive where
  opens := true
  members := [⟨str "paths/a", .regular, 2, 0o640, [], [1, 2], false⟩,
    ⟨str "paths", .directory, 0, 0o700, [], [], false⟩]
  ends := true

def throughFile : Archive where
  opens := true
  members := [⟨str "a/b", .regular, 1, 0o600, [], [7], false⟩,
    ⟨str "a/b/c", .regular, 1, 0o600, [], [8], false⟩]
  ends := true

def deepBundle : Archive where
  opens := true
  members := [⟨str "a/b/c", .regular, 1, 0o600, [], [9], false⟩]
  ends := true

def stageDisk : Disk := [([str "stage"], .directory 0o700)]

def stageOs : Os := ⟨fun _ ↦ true, fun _ _ ↦ true, fun _ _ ↦ true, 0o755⟩

def smallOs (entries : Nat) : Os := { stageOs with hasRoom := fun d _ ↦ d.length < entries }

theorem stageDisk_empty : EmptyDirectory stageDisk [str "stage"] where
  dirs front hfront := by
    rcases List.prefix_cons_iff.mp hfront with rfl | ⟨rest, rfl, hrest⟩
    · exact ⟨0o755, rfl⟩
    · rw [List.prefix_nil.mp hrest]
      exact ⟨0o700, by decide⟩
  empty e he := by
    rw [List.mem_singleton.mp he]
    exact fun h => h.2 rfl

/-- The bundle through a file fails and leaves nothing, the ordered one is unpacked, and the deep one
leaves nothing where not even its first directory finds room. -/
theorem extractBundle_confined_iff_stage :
    (extractBundle stageOs ⟨10, 100, 10⟩ [str "stage"] stageDisk throughFile).2.1 = stageDisk ∧
      Unpacked ⟨10, 100, 10⟩ [str "stage"]
        (extractBundle stageOs ⟨10, 100, 10⟩ [str "stage"] stageDisk orderedBundle).2.1
        orderedBundle.members ∧
      (extractBundle (smallOs 1) ⟨10, 100, 10⟩ [str "stage"] stageDisk deepBundle).2.1 =
        stageDisk := by
  have hstage : ∀ {archive : Archive},
      ¬ archive.Interrupts stageOs ⟨10, 100, 10⟩ stageDisk [str "stage"] :=
    fun h => not_interrupted (fun _ _ => rfl) h.2
  refine ⟨?_, ?_, ?_⟩
  · apply ((extractBundle_confined_iff throughFile stageDisk_empty).mpr hstage).cleaned .cannotPrepare
    decide +kernel
  · apply ((extractBundle_confined_iff orderedBundle stageDisk_empty).mpr hstage).unpacked
    decide +kernel
  · have hdeep : ¬ deepBundle.Interrupts (smallOs 1) ⟨10, 100, 10⟩ stageDisk [str "stage"] := by
      decide +kernel
    apply ((extractBundle_confined_iff deepBundle stageDisk_empty).mpr hdeep).cleaned .cannotPrepare
    decide +kernel

/-- With room for one entry, the first directory of the deep bundle stays. -/
theorem not_confined_deepBundle :
    (extractBundle (smallOs 2) ⟨10, 100, 10⟩ [str "stage"] stageDisk deepBundle).1 =
        .error .cannotPrepare ∧
      (extractBundle (smallOs 2) ⟨10, 100, 10⟩ [str "stage"] stageDisk deepBundle).2.1 =
        stageDisk ++ [([str "stage", str "a"], .directory 0o755)] ∧
      ¬ Confined ⟨10, 100, 10⟩ stageDisk [str "stage"] deepBundle.members
        (extractBundle (smallOs 2) ⟨10, 100, 10⟩ [str "stage"] stageDisk deepBundle) := by
  have hresult : (extractBundle (smallOs 2) ⟨10, 100, 10⟩ [str "stage"] stageDisk deepBundle).1 =
      .error .cannotPrepare := by decide +kernel
  have hleft : (extractBundle (smallOs 2) ⟨10, 100, 10⟩ [str "stage"] stageDisk deepBundle).2.1 =
      stageDisk ++ [([str "stage", str "a"], .directory 0o755)] := by decide +kernel
  refine ⟨hresult, hleft, fun h => ?_⟩
  have hcleaned := h.cleaned _ hresult
  rw [hleft] at hcleaned
  exact absurd hcleaned (by decide)

end NixNas.State
