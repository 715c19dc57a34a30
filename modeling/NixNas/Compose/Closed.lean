import NixNas.Compose.Owned

/-!
# Closed bundles (`_namespace_bundle` of `services/nas_v2_compose_import.py`)

When the renamed files refer to each other as the files did, and belong to the owner.
-/

open Fallible Lines Marked UnitFile

namespace NixNas.Compose

open Network Reconcile
open Caddy (isSpace)

def OwnedBy (owner : Text) (a : Assignment Char) : Prop :=
  a.header = some unitSection ∧ a.key isBlank = partOfKey ∧ owner ∈ words isBlank a.value

def Kept (owner : Text) (bound : Bool) (before after : List (Assignment Char)) : Prop :=
  after = before ∨ bound = true ∧ ∃ front back, before = front ++ back ∧
    after = front ++ partOf (some unitSection) owner :: back

structure Closed (serviceId owner : Text) (names : List Text) (file out : Text × Text) : Prop where
  name : out.1 = namespaced serviceId file.1
  /-- Every reference has the new name, and every other key and value is as it was. -/
  kept : Kept owner (isBound file.1) ((assignments file.2).map (renamed serviceId names))
    (assignments out.2)
  owned : isBound file.1 = true → ∃ a ∈ assignments out.2, OwnedBy owner a

/-- A file whose references the rewriting finds, and to which it adds the owner where it belongs. -/
structure Complete (owner : Text) (names : List Text) (file : Text × Text) : Prop where
  found : ∀ a ∈ seenAssignments names file.2, Found names a
  /-- The text of the directive stands nowhere else than in the directive. -/
  declared : isBound file.1 = true → directiveOf owner <:+: file.2 →
    ∃ a ∈ assignments file.2, OwnedBy owner a
  /-- The first header is that of the unit's section. -/
  header : isBound file.1 = true → ¬ directiveOf owner <:+: file.2 → hasHeader file.2 = true →
    sectionThrough file.2 = some unitSection
  /-- The section of the unit is not opened above an assignment without one. -/
  start : isBound file.1 = true → ¬ directiveOf owner <:+: file.2 → hasHeader file.2 = false →
    ∀ a ∈ assignments file.2, a.header ≠ none

/-! ## The owner among the assignments -/

section

variable {serviceId owner : Text} {names : List Text}
variable {a : Assignment Char}

theorem renamed_of_partOf (h : a.header = some unitSection)
    (hkey : a.key isBlank = partOfKey) : renamed serviceId names a = a := by
  have hrelationship : isRelationship a = false := by
    have hsection : (some unitSection).any (· ∈ quadletSections) = false := by decide
    unfold isRelationship
    rw [h, hsection, Bool.false_and]
  have hdependency : isDependency a = false := by
    have hno : partOfKey ∉ dependencyKeys := by decide
    unfold isDependency
    rw [hkey, decide_eq_false hno, Bool.and_false]
  have htarget : target serviceId names a = id := by
    funext word
    unfold target
    rw [hrelationship, hdependency]
    rfl
  unfold renamed
  rw [htarget, mapWords_id]

theorem key_partOf {header : Option Text} : (partOf header owner).key isBlank = partOfKey := by
  have hkey : partOfKey.rdropWhile isBlank = partOfKey := by decide
  exact hkey

theorem renamed_partOf :
    renamed serviceId names (partOf (some unitSection) owner) = partOf (some unitSection) owner :=
  renamed_of_partOf rfl key_partOf

theorem ownedBy_renamed : OwnedBy owner (renamed serviceId names a) ↔ OwnedBy owner a := by
  constructor
  · intro h
    have hsame : renamed serviceId names a = a := renamed_of_partOf h.1 h.2.1
    rwa [hsame] at h
  · intro h
    rwa [renamed_of_partOf h.1 h.2.1]

theorem ownedBy_partOf (howner : IsPlain owner) (hne : owner ≠ []) :
    OwnedBy owner (partOf (some unitSection) owner) := by
  have hblank : ∀ c ∈ owner, isBlank c = false := by
    intro c hc
    rw [← Bool.not_eq_true]
    intro hblank
    have hspace := (isPlain_spec howner).1 c hc
    rw [isSpace_of_isBlank hblank] at hspace
    cases hspace
  refine ⟨rfl, key_partOf, ?_⟩
  show owner ∈ words isBlank owner
  rw [words_singleton hblank, if_neg hne]
  exact List.mem_singleton_self owner

theorem clear_of_starts {m : List (Char × Bool)} (h : Starts isGap true m)
    (hgap : ∀ c ∈ plain m, isGap c = false) (hfirst : ∀ c y, m ≠ (c, true) :: y) : Clear m := by
  have hrest : ∀ {m : List (Char × Bool)}, Starts isGap false m →
      (∀ c ∈ plain m, isGap c = false) → Clear m := by
    intro m h hgap
    induction m with
    | nil => exact List.forall_mem_nil _
    | cons e m ih =>
      obtain ⟨he, hm⟩ := List.forall_mem_cons.mp hgap
      refine List.forall_mem_cons.mpr ⟨?_, ih (he ▸ h.2) hm⟩
      rw [← Bool.not_eq_true]
      exact fun hmark => Bool.false_ne_true (h.1 hmark).1
  cases m with
  | nil => exact List.forall_mem_nil _
  | cons e m =>
    obtain ⟨c, mark⟩ := e
    obtain ⟨he, hm⟩ := List.forall_mem_cons.mp hgap
    cases mark with
    | true => exact (hfirst c m rfl).elim
    | false => exact List.forall_mem_cons.mpr ⟨rfl, hrest (he ▸ h.2) hm⟩

theorem plain_of_insert_partOf (howner : IsPlain owner) {a : Assignment (Char × Bool)}
    (h : MarkedBehind a)
    (heq : a.insert (namePrefix serviceId) = partOf (some unitSection) owner) :
    a.plain = partOf (some unitSection) owner := by
  have hleft : plain a.left = partOfKey := by
    have hinsert : insert (namePrefix serviceId) a.left = partOfKey := congrArg Assignment.left heq
    rwa [h.left.insert] at hinsert
  have hvalue : insert (namePrefix serviceId) a.value = owner := congrArg Assignment.value heq
  have hclear : Clear a.value := by
    refine clear_of_starts h.value (fun c hc => ?_) fun c y hfirst => ?_
    · apply isGap_of_safeChar
      apply howner
      rw [← hvalue]
      exact mem_insert_of_mem hc
    · obtain ⟨front, key, hbase, hsuffix⟩ := h.key c y hfirst
      rw [hleft] at hsuffix
      obtain ⟨front', heq⟩ := hsuffix
      exact append_ne_append_partOfKey hbase heq
  have hheader : (a.insert (namePrefix serviceId)).header = some unitSection :=
    congrArg Assignment.header heq
  have hname : a.header.map plain = some unitSection := by
    obtain ⟨name, hname, hinsert⟩ := Option.map_eq_some_iff.mp hheader
    have hclear : Clear name := by
      by_contra hmark
      have hdash : '-' ∈ namePrefix serviceId := List.mem_append_right _ (List.mem_singleton_self '-')
      have hmem : '-' ∈ unitSection := by
        rw [← hinsert]
        exact mem_insert_of_not_clear hmark hdash
      revert hmem
      decide
    rw [hname, Option.map_some, ← hclear.insert (p := namePrefix serviceId), hinsert]
  rw [hclear.insert] at hvalue
  unfold Assignment.plain partOf
  rw [hname, hleft, hvalue]

end

/-! ## Lists with one entry more -/

variable {α β : Type}

theorem same_of_inserted {f g : β → α} {p x : α} {l : List β}
    {front back front' back' : List α} (hp : ∀ b ∈ l, f b = p → g b = p)
    (hfront : l.map f = front ++ back) (hfront' : l.map g = front' ++ back')
    (h : front ++ x :: back = front' ++ p :: back') : x = p ∧ ∀ b ∈ l, f b = g b := by
  induction l generalizing front back front' back' x with
  | nil =>
    obtain ⟨rfl, rfl⟩ := List.append_eq_nil_iff.mp hfront.symm
    obtain ⟨rfl, rfl⟩ := List.append_eq_nil_iff.mp hfront'.symm
    exact ⟨(List.cons.inj h).1, List.forall_mem_nil _⟩
  | cons b l ih =>
    obtain ⟨hb, hl⟩ := List.forall_mem_cons.mp hp
    rw [List.forall_mem_cons]
    cases front with
    | nil =>
      cases front' with
      | nil =>
        obtain ⟨hx, rfl⟩ := List.cons.inj h
        rw [List.nil_append] at hfront hfront'
        obtain ⟨hfirst, hrest⟩ := List.cons.inj (hfront.trans hfront'.symm)
        exact ⟨hx, hfirst, List.map_inj_left.mp hrest⟩
      | cons y front' =>
        -- the entry of the left stands where the right has its first one
        obtain ⟨rfl, hrest'⟩ := List.cons.inj hfront'
        obtain ⟨rfl, hback⟩ := List.cons.inj h
        rw [List.nil_append] at hfront
        have hmap : l.map f = [] ++ l.map f := rfl
        have hback' : [] ++ f b :: l.map f = front' ++ p :: back' := hfront.trans hback
        obtain ⟨hfirst, hrest⟩ := ih hl hmap hrest' hback'
        exact ⟨hb hfirst, hfirst.trans (hb hfirst).symm, hrest⟩
    | cons y front =>
      obtain ⟨rfl, hrest⟩ := List.cons.inj hfront
      cases front' with
      | nil =>
        obtain ⟨hfirst, hback⟩ := List.cons.inj h
        rw [List.nil_append] at hfront'
        have hmap : l.map g = [] ++ l.map g := rfl
        have hback' : front ++ x :: back = [] ++ p :: l.map g := by
          rw [← hb hfirst]
          exact hback.trans hfront'.symm
        obtain ⟨hx, hsame⟩ := ih hl hrest hmap hback'
        exact ⟨hx, hfirst.trans (hb hfirst).symm, hsame⟩
      | cons y' front' =>
        obtain ⟨rfl, hrest'⟩ := List.cons.inj hfront'
        obtain ⟨hfirst, hback⟩ := List.cons.inj h
        obtain ⟨hx, hsame⟩ := ih hl hrest hrest' hback
        exact ⟨hx, hfirst, hsame⟩

/-! ## One file -/

section

variable {serviceId owner : Text} {names : List Text} {file out : Text × Text}

theorem isBound_namespaced {name : Text} (h : (splitName name).isSome = true) :
    isBound (namespaced serviceId name) = isBound name := by
  obtain ⟨⟨stem, suffix⟩, hsplit⟩ := Option.isSome_iff_exists.mp h
  obtain ⟨rfl, hne⟩ := splitName_eq_some.mp hsplit
  have hnew : splitName (namespaced serviceId (stem ++ '.' :: suffix.ext)) =
      some (namespaced serviceId stem, suffix) := by
    rw [splitName_eq_some]
    unfold namespaced
    exact ⟨by simp only [List.append_assoc, List.cons_append],
      List.append_ne_nil_of_right_ne_nil _ (List.cons_ne_nil _ _)⟩
  unfold isBound
  rw [hnew, hsplit]

section

variable (hid : IsPlain serviceId) (hnames : ∀ name ∈ names, IsPlain name)
  (hsplit : ∀ name ∈ names, (splitName name).isSome = true)
variable {ls : List Text}

include hid hnames hsplit

theorem renamed_assignments (text : Text) : (assignments text).map (renamed serviceId names) =
    (seenAssignments names text).map fun a ↦ renamed serviceId names a.plain := by
  rw [(assignments_rewriteLines hid hnames hsplit text).1, List.map_map]
  rfl

theorem inserted_eq_renamed_iff (text : Text) :
    (seenAssignments names text).map (Assignment.insert (namePrefix serviceId)) =
        (assignments text).map (renamed serviceId names) ↔
      ∀ a ∈ seenAssignments names text, Found names a := by
  rw [renamed_assignments hid hnames hsplit, List.map_inj_left]
  exact forall₂_congr fun a ha =>
    insert_eq_renamed_iff hid hnames hsplit (markedBehind hnames hsplit ha)

theorem closed_iff_of_read (hname : out.1 = namespaced serviceId file.1)
    (hread : assignments out.2 =
      (seenAssignments names file.2).map (Assignment.insert (namePrefix serviceId)))
    (hdirective : isBound file.1 = true → directiveOf owner <:+: file.2) :
    Closed serviceId owner names file out ↔ Complete owner names file := by
  have hfound := inserted_eq_renamed_iff hid hnames hsplit file.2
  rw [← hread] at hfound
  constructor
  · intro h
    -- no assignment is added, as the lengths say
    have hsame : assignments out.2 = (assignments file.2).map (renamed serviceId names) := by
      rcases h.kept with hsame | ⟨-, front, back, hfront, hback⟩
      · exact hsame
      · have hlength := congrArg List.length hback
        have hlength' := congrArg List.length hfront
        rw [hread, List.length_map, List.length_append, List.length_cons] at hlength
        rw [renamed_assignments hid hnames hsplit, List.length_map, List.length_append] at hlength'
        omega
    refine ⟨hfound.mp hsame, ?_, fun hbound hnot => (hnot (hdirective hbound)).elim,
      fun hbound hnot => (hnot (hdirective hbound)).elim⟩
    intro hbound _
    obtain ⟨a, ha, howned⟩ := h.owned hbound
    rw [hsame] at ha
    obtain ⟨a', ha', rfl⟩ := List.mem_map.mp ha
    exact ⟨a', ha', ownedBy_renamed.mp howned⟩
  · intro h
    have hsame := hfound.mpr h.found
    refine ⟨hname, .inl hsame, fun hbound => ?_⟩
    obtain ⟨a, ha, howned⟩ := h.declared hbound (hdirective hbound)
    rw [hsame]
    exact ⟨_, List.mem_map_of_mem ha, ownedBy_renamed.mpr howned⟩

theorem closed_iff_of_inserted (howner : IsPlain owner) (hne : owner ≠ [])
    (hname : out.1 = namespaced serviceId file.1) (hbound : isBound file.1 = true)
    {header : Option Text} {before after : List (Assignment Char)}
    (hread : (seenAssignments names file.2).map (Assignment.insert (namePrefix serviceId)) =
      before ++ after)
    (hout : assignments out.2 = before ++ partOf header owner :: after) :
    Closed serviceId owner names file out ↔
      header = some unitSection ∧ ∀ a ∈ seenAssignments names file.2, Found names a := by
  rw [← inserted_eq_renamed_iff hid hnames hsplit]
  constructor
  · intro h
    rcases h.kept with hsame | ⟨-, front, back, hfront, hback⟩
    · have hlength := congrArg List.length hsame
      have hlength' := congrArg List.length hread
      rw [hout, renamed_assignments hid hnames hsplit, List.length_map, List.length_append,
        List.length_cons] at hlength
      rw [List.length_map, List.length_append] at hlength'
      omega
    · have hadded : ∀ a ∈ seenAssignments names file.2,
          a.insert (namePrefix serviceId) = partOf (some unitSection) owner →
            renamed serviceId names a.plain = partOf (some unitSection) owner := by
        intro a ha heq
        rw [plain_of_insert_partOf howner (markedBehind hnames hsplit ha) heq, renamed_partOf]
      rw [hout] at hback
      rw [renamed_assignments hid hnames hsplit] at hfront ⊢
      obtain ⟨hpartOf, hsame⟩ := same_of_inserted hadded hread hfront hback
      exact ⟨congrArg Assignment.header hpartOf, List.map_inj_left.mpr hsame⟩
  · rintro ⟨rfl, hsame⟩
    refine ⟨hname, .inr ⟨hbound, before, after, hsame.symm.trans hread, hout⟩, fun _ => ?_⟩
    rw [hout]
    exact ⟨_, List.mem_append_right _ List.mem_cons_self, ownedBy_partOf howner hne⟩

omit hid hnames hsplit in
theorem not_closed_of_start {name : Text}
    (hout : assignments out.2 = partOf (some unitSection) owner ::
      readFrom View.text isBlank (some name) ls)
    {a : Assignment Char} (ha : a ∈ assignments file.2) (hnone : a.header = none) :
    ¬ Closed serviceId owner names file out := by
  intro h
  have hsome : ∀ a ∈ assignments out.2, a.header ≠ none := by
    rw [hout]
    exact List.forall_mem_cons.mpr ⟨Option.some_ne_none _, header_ne_none ls⟩
  have hrenamed := List.mem_map_of_mem (f := renamed serviceId names) ha
  rcases h.kept with hsame | ⟨-, front, back, hfront, hback⟩
  · rw [← hsame] at hrenamed
    exact hsome _ hrenamed hnone
  · rw [hfront] at hrenamed
    refine hsome (renamed serviceId names a) ?_ hnone
    rw [hback]
    rcases List.mem_append.mp hrenamed with hmem | hmem
    · exact List.mem_append_left _ hmem
    · exact List.mem_append_right _ (List.mem_cons_of_mem _ hmem)

theorem closed_iff_of_prefix (howner : IsPlain owner) (hne : owner ≠ [])
    (hname : out.1 = namespaced serviceId file.1) (hbound : isBound file.1 = true)
    (hdirective : ¬ directiveOf owner <:+: file.2) (hheader : hasHeader file.2 = false)
    (hread : readFrom View.text isBlank none ls =
      (seenAssignments names file.2).map (Assignment.insert (namePrefix serviceId)))
    (hout : assignments out.2 = partOf (some unitSection) owner ::
      readFrom View.text isBlank (some unitSection) ls) :
    Closed serviceId owner names file out ↔ Complete owner names file := by
  have hplain := (assignments_rewriteLines hid hnames hsplit file.2).1
  by_cases hstart : ∀ a ∈ assignments file.2, a.header ≠ none
  · have hkept : readFrom View.text isBlank (some unitSection) ls =
        readFrom View.text isBlank none ls := by
      apply readFrom_some
      rw [hplain, List.forall_mem_map] at hstart
      rw [hread, List.forall_mem_map]
      intro a ha hnone
      apply hstart a ha
      exact Option.map_eq_none_iff.mpr (Option.map_eq_none_iff.mp hnone)
    rw [hkept] at hout
    have hsame : (seenAssignments names file.2).map (Assignment.insert (namePrefix serviceId)) =
        [] ++ readFrom View.text isBlank none ls := hread.symm
    have hinserted : assignments out.2 = [] ++ partOf (some unitSection) owner ::
        readFrom View.text isBlank none ls := hout
    rw [closed_iff_of_inserted hid hnames hsplit howner hne hname hbound hsame hinserted]
    constructor
    · rintro ⟨-, hfound⟩
      refine ⟨hfound, fun _ hmem => (hdirective hmem).elim, fun _ _ hyes => ?_, fun _ _ _ => hstart⟩
      cases hheader.symm.trans hyes
    · exact fun hcomplete => ⟨rfl, hcomplete.found⟩
  · simp only [not_forall, not_not] at hstart
    obtain ⟨a, ha, hnone⟩ := hstart
    exact iff_of_false (not_closed_of_start hout ha hnone)
      fun hcomplete => hcomplete.start hbound hdirective hheader a ha hnone

theorem closed_iff (howner : IsPlain owner) (hne : owner ≠ [])
    (hfile : (splitName file.1).isSome = true)
    (h : namespaceFile serviceId owner names file = .ok out) :
    Closed serviceId owner names file out ↔ Complete owner names file := by
  unfold namespaceFile at h
  split at h
  · cases h
  · split at h
    · cases h
    · cases h
      have hread := (assignments_rewriteLines hid hnames hsplit file.2).2
      have hpart : directiveOf owner <:+: namespaceQuadletText (mappingOf serviceId names) file.2 ↔
          directiveOf owner <:+: file.2 := infix_rewriteLines howner hid hnames file.2
      obtain ⟨hhas, hthrough⟩ := header_insert hnames hsplit (newline_namePrefix hid) file.2
      have htext : insert (namePrefix serviceId) (seenLines names none (lines file.2)) =
          namespaceQuadletText (mappingOf serviceId names) file.2 := insert_seenLines (lines file.2)
      rw [htext] at hhas hthrough
      rw [isBound_namespaced hfile]
      by_cases hbound : isBound file.1 = true
      · rw [if_pos hbound]
        by_cases hdirective : directiveOf owner <:+: file.2
        · apply closed_iff_of_read hid hnames hsplit rfl
          · rw [assignments_withNewline]
            unfold injectPartOf
            rw [if_pos (hpart.mpr hdirective), hread]
          · exact fun _ => hdirective
        · have hnot := fun hmem => hdirective (hpart.mp hmem)
          cases hheader : hasHeader file.2 with
          | true =>
            obtain ⟨before, after, hsame, hinserted⟩ :=
              assignments_injectPartOf howner hnot (hhas.trans hheader)
            rw [closed_iff_of_inserted hid hnames hsplit howner hne rfl hbound
              (hread.symm.trans hsame) ((assignments_withNewline _).trans hinserted), hthrough]
            constructor
            · rintro ⟨hunit, hfound⟩
              refine ⟨hfound, fun _ hmem => (hdirective hmem).elim, fun _ _ _ => hunit,
                fun _ _ hno => ?_⟩
              cases hheader.symm.trans hno
            · exact fun hcomplete =>
                ⟨hcomplete.header hbound hdirective hheader, hcomplete.found⟩
          | false =>
            exact closed_iff_of_prefix hid hnames hsplit howner hne rfl hbound hdirective hheader
              hread ((assignments_withNewline _).trans
                (assignments_injectPartOf_none howner hnot (hhas.trans hheader)))
      · rw [if_neg hbound]
        apply closed_iff_of_read hid hnames hsplit rfl
        · rw [assignments_withNewline, hread]
        · exact fun hyes => (hbound hyes).elim

end

end

/-! ## The bundle -/

theorem forall₂_iff {R P : α → β → Prop} {Q : α → Prop} {xs : List α} {ys : List β}
    (h : List.Forall₂ R xs ys) (hiff : ∀ x ∈ xs, ∀ y, R x y → (P x y ↔ Q x)) :
    List.Forall₂ P xs ys ↔ ∀ x ∈ xs, Q x := by
  induction h with
  | nil => exact iff_of_true .nil (List.forall_mem_nil _)
  | cons hxy _ ih =>
    obtain ⟨hfirst, hrest⟩ := List.forall_mem_cons.mp hiff
    rw [List.forall₂_cons, List.forall_mem_cons, ih hrest, hfirst _ hxy]

theorem isPlain_of_checkName {name : Text} (h : checkName name = .ok ()) :
    IsPlain name ∧ (splitName name).isSome = true := by
  obtain ⟨stem, suffix, hname, hne, hsafe⟩ := checkName_ok.mp h
  unfold isSafeFile at hsafe
  rw [Bool.and_eq_true, List.all_eq_true] at hsafe
  refine ⟨hsafe.2, ?_⟩
  rw [splitName_eq_some.mpr ⟨hname, hne⟩]
  rfl

section

variable {serviceId owner : Text} {files output : List (Text × Text)}

theorem namespaceTexts_ok (h : namespaceTexts serviceId owner files = .ok output) :
    (∀ name ∈ files.map Prod.fst, checkName name = .ok ()) ∧
      List.Forall₂ (fun file out ↦
        namespaceFile serviceId owner (files.map Prod.fst) file = .ok out) files output := by
  unfold namespaceTexts at h
  dsimp only at h
  split at h
  · cases h
  · rename_i hchecks
    split at h
    · cases h
    · obtain ⟨output', hmap, h⟩ := bind_ok h
      split at h
      · cases h
      · cases h
        exact ⟨forM_ok hchecks, mapM_ok hmap⟩

end

/-! ## A dependency between two containers -/

def shopOwner : Text := "nas-v2-shop.target".toList

def databaseFile : Text × Text := ("db.container".toList, "[Container]\nImage=postgres\n".toList)

/-- Podlet writes `depends_on` as the unit of the other container. -/
def pageFile : Text × Text :=
  ("web.container".toList, "[Unit]\nRequires=db.service\n\n[Container]\nImage=nginx\n".toList)

set_option maxRecDepth 4000 in
theorem exists_shop : ∃ output,
    namespaceTexts "shop".toList shopOwner [databaseFile, pageFile] = .ok output :=
  exists_of_isOk (by decide)

theorem isPlain_shop : IsPlain "shop".toList ∧ IsPlain shopOwner :=
  ⟨forall_mem_of_all (by decide), forall_mem_of_all (by decide)⟩

end NixNas.Compose
