import NixNas.Compose.References

/-!
# What the rewriting leaves (`_namespace_quadlet_text` of `services/nas_v2_compose_import.py`)

The rewriting puts the namespace in front of the words that it takes for names, and changes nothing
else of a file.  A file is read afterwards as it was, with the same in front of the same words.
-/

open Fallible Lines Marked UnitFile

namespace NixNas.Compose

open Network Reconcile
open Caddy (isSpace)

/-! ## Assignments -/

theorem isKeyChar_spec {c : Char} (h : isKeyChar c = true) : isSpace c = false ∧ c ≠ '=' := by
  have hspace : isSpace c = false := by
    unfold isKeyChar at h
    rw [Bool.or_eq_true, List.contains_iff_mem] at h
    rcases h with h | h
    · exact isSpace_of_isAlphanum h
    · have hall : ∀ d ∈ ['+', '_', '-'], isSpace d = false := forall_mem_of_all (by decide)
      exact hall c h
  refine ⟨hspace, ?_⟩
  rintro rfl
  revert h
  decide

/-- A key as `_ASSIGNMENT` reads it. -/
def IsKey (key : Text) : Prop := key.head?.any Char.isAlpha = true ∧ ∀ c ∈ key, isKeyChar c = true

theorem isKey_of_baseKey_mem {left : Text} (h : baseKey left ∈ referenceFields) : IsKey left := by
  have hplain : ∀ field ∈ referenceFields,
      (field.head?.any Char.isAlpha && field.all isKeyChar) = true := by decide
  have hplus : ∀ field ∈ referenceFields,
      ((field ++ ['+']).head?.any Char.isAlpha && (field ++ ['+']).all isKeyChar) = true := by decide
  have hboth := forall_baseKey_mem (P := fun left ↦
    (left.head?.any Char.isAlpha && left.all isKeyChar) = true) hplain hplus h
  rw [Bool.and_eq_true, List.all_eq_true] at hboth
  exact hboth

section

variable {line indent key value : Text}

theorem takeWhile_key (value : Text) (hkey : ∀ c ∈ key, isKeyChar c = true) :
    (key ++ '=' :: value).takeWhile isKeyChar = key ∧
      (key ++ '=' :: value).dropWhile isKeyChar = '=' :: value := by
  have hequals : ¬ isKeyChar '=' = true := by decide
  rw [List.takeWhile_append_of_pos hkey, List.dropWhile_append_of_pos hkey,
    List.takeWhile_cons_of_neg hequals, List.dropWhile_cons_of_neg hequals, List.append_nil]
  exact ⟨rfl, rfl⟩

theorem dropWhile_indent (value : Text) (hindent : ∀ c ∈ indent, isSpace c = true) (hkey : IsKey key) :
    (indent ++ (key ++ '=' :: value)).dropWhile isSpace = key ++ '=' :: value ∧
      (indent ++ (key ++ '=' :: value)).takeWhile isSpace = indent := by
  obtain ⟨hfirst, hkey⟩ := hkey
  cases key with
  | nil => cases hfirst
  | cons c key =>
    have hc : ¬ isSpace c = true := by
      rw [(isKeyChar_spec (hkey c List.mem_cons_self)).1]
      exact Bool.false_ne_true
    rw [List.dropWhile_append_of_pos hindent, List.takeWhile_append_of_pos hindent, List.cons_append,
      List.dropWhile_cons_of_neg hc, List.takeWhile_cons_of_neg hc, List.append_nil]
    exact ⟨rfl, rfl⟩

theorem matchAssignment_eq_some : matchAssignment line = some (indent, key, value) ↔
    line = indent ++ (key ++ '=' :: value) ∧ (∀ c ∈ indent, isSpace c = true) ∧ IsKey key := by
  unfold matchAssignment
  constructor
  · intro h
    dsimp only at h
    split at h
    · rename_i first rest value' htake hdrop
      rw [Option.ite_none_right_eq_some] at h
      obtain ⟨halpha, heq⟩ := h
      cases heq
      have hkey : ∀ c ∈ first :: rest, isKeyChar c = true := by
        rw [← htake]
        exact fun c hc => List.mem_takeWhile_imp hc
      refine ⟨?_, fun c hc => List.mem_takeWhile_imp hc, halpha, hkey⟩
      rw [← hdrop, ← htake, List.takeWhile_append_dropWhile, List.takeWhile_append_dropWhile]
    · cases h
  · rintro ⟨rfl, hindent, hkey⟩
    obtain ⟨hdrop, htake⟩ := dropWhile_indent value hindent hkey
    obtain ⟨htake', hdrop'⟩ := takeWhile_key value hkey.2
    dsimp only
    rw [hdrop, htake, htake', hdrop']
    obtain ⟨hfirst, -⟩ := hkey
    cases key with
    | nil => cases hfirst
    | cons c key => exact if_pos hfirst

end

/-! ## One line -/

section

variable {mapping : Mapping} {current : Option Text} {line : Text}

theorem rewriteLine_fst : (rewriteLine mapping current line).1 = nextSection current line := by
  unfold rewriteLine nextSection
  cases sectionName line with
  | some name => rfl
  | none =>
    cases matchAssignment line with
    | none => rfl
    | some groups =>
      dsimp only
      split
      · rfl
      · split <;> rfl

theorem rewriteLine_cases (mapping : Mapping) (current : Option Text) (line : Text) :
    (rewriteLine mapping current line).2 = line ∨
      ∃ indent key value, line = indent ++ (key ++ '=' :: value) ∧
        (∀ c ∈ indent, isSpace c = true) ∧ baseKey key ∈ referenceFields ∧
        (rewriteLine mapping current line).2 =
          indent ++ (key ++ '=' :: rewriteReferenceValue mapping (baseKey key = volumeKey) value) := by
  unfold rewriteLine
  cases sectionName line with
  | some name => exact .inl rfl
  | none =>
    cases hmatch : matchAssignment line with
    | none => exact .inl rfl
    | some groups =>
      obtain ⟨indent, key, value⟩ := groups
      obtain ⟨hline, hindent, -⟩ := matchAssignment_eq_some.mp hmatch
      dsimp only
      split
      · exact .inl rfl
      · rename_i hbase
        split
        · exact .inl rfl
        · exact .inr ⟨indent, key, value, hline, hindent, not_not.mp hbase, rfl⟩

end

/-! ## What the rewriting sees -/

/-- What `namespaced` puts in front of a name. -/
def namePrefix (serviceId : Text) : Text := "nas-v2-".toList ++ serviceId ++ ['-']

section

variable {serviceId : Text} {names : List Text} {current : Option Text} {line : Text}
variable {c : Char} {mapping : Mapping} {x y : Text} {a : Assignment (Char × Bool)}

theorem namespaced_eq_append (serviceId word : Text) :
    namespaced serviceId word = namePrefix serviceId ++ word := by
  unfold namespaced namePrefix
  rw [List.append_assoc (_ ++ _), List.singleton_append]

theorem isPlain_namePrefix (hid : IsPlain serviceId) : IsPlain (namePrefix serviceId) := by
  have hnew : IsPlain (namespaced serviceId []) :=
    mem_namespaced hid (forall_mem_of_all (by decide)) (by decide) (List.forall_mem_nil _)
  rwa [namespaced_eq_append, List.append_nil] at hnew

theorem namePrefix_ne_nil : namePrefix serviceId ≠ [] := List.concat_ne_nil _ _

theorem any_quadletSections : (current.any (· ∈ quadletSections)) = true ↔
    ¬ ∀ name ∈ current, name ∉ quadletSections := by
  cases current <;> simp

/-- What the rewriting does with a line is to put the namespace in front of what it sees there. -/
theorem insert_seenLine : insert (namePrefix serviceId) (seenLine names current line) =
    (rewriteLine (mappingOf serviceId names) current line).2 := by
  unfold seenLine rewriteLine
  cases sectionName line with
  | some name => exact insert_unmarked
  | none =>
    cases hmatch : matchAssignment line with
    | none => exact insert_unmarked
    | some groups =>
      obtain ⟨indent, key, value⟩ := groups
      dsimp only
      by_cases hbase : baseKey key ∈ referenceFields
      · rw [if_neg (not_not_intro hbase)]
        by_cases hsection : ∀ name ∈ current, name ∉ quadletSections
        · rw [if_pos hsection, if_neg fun h => any_quadletSections.mp h.2 hsection]
          exact insert_unmarked
        · have htoken : ∀ word, rewriteReferenceToken (mappingOf serviceId names)
              (baseKey key = volumeKey) word =
                if namesFile names (baseKey key = volumeKey) word then
                  namePrefix serviceId ++ word else word := by
            intro word
            rw [rewriteReferenceToken_eq, namespaced_eq_append]
            unfold namesFile
            simp only [decide_eq_true_eq]
          rw [if_neg hsection, if_pos ⟨hbase, any_quadletSections.mpr hsection⟩, insert_append,
            insert_unmarked, insert_markWords htoken, List.append_assoc, List.append_assoc]
          rfl
      · rw [if_pos hbase, if_neg fun h => hbase h.1]
        exact insert_unmarked

theorem plain_seenLine : plain (seenLine names current line) = line := by
  unfold seenLine
  split
  · rename_i hmatch
    split
    · rw [plain_append, plain_unmarked, plain_markWords, (matchAssignment_eq_some.mp hmatch).1,
        List.append_assoc, List.append_assoc]
      rfl
    · exact plain_unmarked
  · exact plain_unmarked

theorem insert_seenLines (ls : List Line) :
    insert (namePrefix serviceId) (seenLines names current ls) =
      rewriteLines (mappingOf serviceId names) current ls := by
  induction ls generalizing current with
  | nil => rfl
  | cons line rest ih =>
    rw [seenLines, rewriteLines, rewriteLine_fst, insert_append, insert_append, insert_unmarked,
      insert_seenLine, ih]

theorem plain_seenLines (text : Text) : plain (seenLines names current (lines text)) = text := by
  have hlines : ∀ current ls, plain (seenLines names current ls) = ls.flatMap Line.text := by
    intro current ls
    induction ls generalizing current with
    | nil => rfl
    | cons line rest ih =>
      rw [seenLines, plain_append, plain_append, plain_unmarked, plain_seenLine, ih,
        List.flatMap_cons, Line.text, List.append_assoc]
  rw [hlines, flatten_lines]

def isGap (c : Char) : Bool := isSpace c || c = '='

/-- In front of a mark is a gap, and where it is an equals sign the key of a relationship. -/
structure BeforeMark (front : Text) (c : Char) : Prop where
  equals : '=' ∈ front
  safe : safeChar c = true
  gap : ∃ front' d, front = front' ++ [d] ∧ isGap d = true ∧
    (d = '=' → ∃ key, baseKey key ∈ referenceFields ∧ key <:+ front')

theorem BeforeMark.append {front : Text} (x : Text) (h : BeforeMark front c) :
    BeforeMark (x ++ front) c where
  equals := List.mem_append_right x h.equals
  safe := h.safe
  gap := by
    obtain ⟨front', d, rfl, hd, hkey⟩ := h.gap
    refine ⟨x ++ front', d, (List.append_assoc _ _ _).symm, hd, fun hequals => ?_⟩
    obtain ⟨key, hbase, hsuffix⟩ := hkey hequals
    exact ⟨key, hbase, hsuffix.trans (List.suffix_append x front')⟩

theorem guarded_seenLine (hnames : ∀ name ∈ names, IsPlain name)
    (hsplit : ∀ name ∈ names, (splitName name).isSome = true) :
    Guarded BeforeMark (seenLine names current line) := by
  unfold seenLine
  split
  · rename_i indent key value hsection hmatch
    split
    · rename_i hseen
      have hvalue : Guarded (fun x c ↦ (x = [] ∨ ∃ x' d, x = x' ++ [d] ∧ isSpace d = true) ∧
            ∃ w, namesFile names (baseKey key = volumeKey) (c :: w) = true)
          (markWords isSpace (namesFile names (baseKey key = volumeKey)) value) :=
        guarded_markWords value
      refine clear_unmarked.guarded_append (hvalue.mono ?_)
      rw [plain_unmarked]
      rintro x c ⟨hx, word, hword⟩
      refine ⟨?_, safeChar_of_namesFile hnames hsplit hword, ?_⟩
      · simp
      · rcases hx with rfl | ⟨x', d, rfl, hd⟩
        · exact ⟨indent ++ key, '=', by rw [List.append_nil, List.append_assoc], by decide,
            fun _ => ⟨key, hseen.1, List.suffix_append indent key⟩⟩
        · refine ⟨indent ++ (key ++ ['=']) ++ x', d, (List.append_assoc _ _ _).symm, ?_, ?_⟩
          · unfold isGap
            rw [hd, Bool.true_or]
          · rintro rfl
            have hno : isSpace '=' = false := by decide
            rw [hno] at hd
            cases hd
    · exact clear_unmarked.guarded
  · exact clear_unmarked.guarded

/-! ## One text -/

theorem rewriteLines_whole (hx : ∀ c ∈ x, isBreak c = false) :
    rewriteLines mapping current (lines x) = (rewriteLine mapping current x).2 := by
  rw [lines_whole hx]
  split
  · rename_i hnil
    rw [hnil]
    rfl
  · exact List.append_nil _

theorem rewriteLines_cut (hx : ∀ d ∈ x, isBreak d = false) (hc : isBreak c = true) :
    rewriteLines mapping current (lines (x ++ c :: y)) = (rewriteLine mapping current x).2 ++
      c :: rewriteLines mapping (nextSection current x) (lines y) := by
  have hsection : (rewriteLine mapping current x).1 = nextSection current x := rewriteLine_fst
  rw [← hsection]
  rcases lines_cut (y := y) hx hc with h | ⟨rest, rfl, rfl, h⟩
  · rw [h]
    rfl
  · rw [h]
    rfl

theorem seenLines_whole (hx : ∀ c ∈ x, isBreak c = false) :
    seenLines names current (lines x) = seenLine names current x := by
  rw [lines_whole hx]
  split
  · rename_i hnil
    rw [hnil]
    rfl
  · exact List.append_nil _

theorem seenLines_cut (hx : ∀ d ∈ x, isBreak d = false) (hc : isBreak c = true) :
    seenLines names current (lines (x ++ c :: y)) = seenLine names current x ++
      (c, false) :: seenLines names (nextSection current x) (lines y) := by
  rcases lines_cut (y := y) hx hc with h | ⟨rest, rfl, rfl, h⟩
  · rw [h]
    rfl
  · rw [h]
    rfl

theorem guarded_seenLines (hnames : ∀ name ∈ names, IsPlain name)
    (hsplit : ∀ name ∈ names, (splitName name).isSome = true) (text : Text) :
    ∀ line ∈ contents View.marked (seenLines names current (lines text)),
      Guarded BeforeMark line := by
  have happend : ∀ x y : List (Char × Bool), Guarded BeforeMark x → Guarded BeforeMark y →
      Guarded BeforeMark (x ++ y) := fun _ _ => Guarded.append fun x _ _ h => h.append x
  have hline : ∀ current x, (∀ c ∈ x, isBreak c = false) →
      ∀ e ∈ seenLine names current x, View.marked.char e ≠ '\n' := by
    intro current x hx e he hnewline
    have hplain : plain (seenLine names current x) = x := plain_seenLine
    have hmem : e.1 ∈ x := by
      rw [← hplain]
      exact List.mem_map_of_mem he
    have hno := hx e.1 hmem
    rw [show e.1 = '\n' from hnewline] at hno
    revert hno
    decide
  induction text using cut_induction isBreak generalizing current with
  | whole x hx =>
    rw [seenLines_whole hx, contents_whole (hline current x hx)]
    exact List.forall_mem_singleton.mpr (guarded_seenLine hnames hsplit)
  | cut x c y hx hc ih =>
    rw [seenLines_cut hx hc]
    exact forall_contents_append happend (hline current x hx) (guarded_seenLine hnames hsplit)
      (Clear.guarded (List.forall_mem_singleton.mpr rfl)) ih

theorem sound_of_guarded {m : List (Char × Bool)} (h : Guarded BeforeMark m) : Sound isBlank m := by
  refine h.mono fun x c hc => ⟨hc.equals, ?_⟩
  have hspecial : ∀ d ∈ [' ', '\t', '\n', '\r', '\\', ']'], safeChar d = false :=
    forall_mem_of_all (by decide)
  have hno : c ∉ [' ', '\t', '\n', '\r', '\\', ']'] := by
    intro hmem
    have hsafe := hc.safe
    rw [hspecial c hmem] at hsafe
    cases hsafe
  simp only [List.mem_cons, List.not_mem_nil, or_false, not_or] at hno
  unfold isBlank
  simp [hno]

theorem safeChar_of_mark (hnames : ∀ name ∈ names, IsPlain name)
    (hsplit : ∀ name ∈ names, (splitName name).isSome = true) (ls : List Line) :
    ∀ e ∈ seenLines names current ls, e.2 = true → safeChar e.1 = true := by
  induction ls generalizing current with
  | nil => exact List.forall_mem_nil _
  | cons line rest ih =>
    rw [seenLines, List.forall_mem_append, List.forall_mem_append]
    refine ⟨?_, ?_, ih⟩
    · rintro ⟨c, mark⟩ he hmark
      cases hmark
      obtain ⟨x, y, heq⟩ := List.append_of_mem he
      exact (guarded_seenLine hnames hsplit x c y heq).safe
    · intro e he hmark
      rw [clear_unmarked e he] at hmark
      cases hmark

theorem newline_of_mark (hnames : ∀ name ∈ names, IsPlain name)
    (hsplit : ∀ name ∈ names, (splitName name).isSome = true) (text : Text) :
    ∀ e ∈ seenLines names current (lines text), e.2 = true → e.1 ≠ '\n' := by
  intro e he hmark hequals
  have hsafe := safeChar_of_mark hnames hsplit (lines text) e he hmark
  rw [hequals] at hsafe
  revert hsafe
  decide

theorem newline_namePrefix (hid : IsPlain serviceId) : '\n' ∉ namePrefix serviceId := by
  intro hmem
  have hsafe := isPlain_namePrefix hid _ hmem
  revert hsafe
  decide

/-- The rewritten file is read as the file, with the namespace in front of what is seen. -/
theorem assignments_rewriteLines (hid : IsPlain serviceId) (hnames : ∀ name ∈ names, IsPlain name)
    (hsplit : ∀ name ∈ names, (splitName name).isSome = true) (text : Text) :
    assignments text = (seenAssignments names text).map Assignment.plain ∧
      assignments (namespaceQuadletText (mappingOf serviceId names) text) =
        (seenAssignments names text).map (Assignment.insert (namePrefix serviceId)) := by
  have hsound : ∀ line ∈ contents View.marked (seenLines names none (lines text)),
      Sound isBlank line := fun line hline =>
    sound_of_guarded (guarded_seenLines hnames hsplit text line hline)
  have hnewline : ∀ e ∈ seenLines names none (lines text), e.2 = true → e.1 ≠ '\n' :=
    newline_of_mark hnames hsplit text
  constructor
  · have hread := read_insert (p := []) (by decide) List.not_mem_nil hnewline hsound
    rw [Marked.insert_nil, plain_seenLines] at hread
    rw [show Assignment.plain = Assignment.insert [] from
      funext fun a => (Assignment.insert_nil a).symm]
    exact hread
  · have hread := read_insert (by decide) (newline_namePrefix hid) hnewline hsound
    rw [insert_seenLines] at hread
    exact hread

/-! ## What is found -/

theorem isGap_of_safeChar (h : safeChar c = true) : isGap c = false := by
  obtain ⟨hspace, -, -, hequals⟩ := safeChar_spec h
  unfold isGap
  rw [hspace, decide_eq_false hequals]
  rfl

theorem isSpace_of_isBlank (h : isBlank c = true) : isSpace c = true := by
  unfold isBlank at h
  rw [List.contains_iff_mem] at h
  have hall : ∀ d ∈ [' ', '\t', '\n', '\r'], isSpace d = true := forall_mem_of_all (by decide)
  exact hall c h

structure MarkedBehind (a : Assignment (Char × Bool)) : Prop where
  left : Clear a.left
  value : Starts isGap true a.value
  /-- A mark directly behind the equals sign is there for the key of a relationship. -/
  key : ∀ c y, a.value = (c, true) :: y →
    ∃ front key, baseKey key ∈ referenceFields ∧ key <:+ front ++ plain a.left

theorem markedBehind (hnames : ∀ name ∈ names, IsPlain name)
    (hsplit : ∀ name ∈ names, (splitName name).isSome = true) {text : Text}
    (h : a ∈ seenAssignments names text) : MarkedBehind a := by
  obtain ⟨line, hline, hkind⟩ := exists_line h
  have hguarded : Guarded BeforeMark line := by
    refine forall_mem_joinFrom (fun _ _ => Guarded.append fun x _ _ h => h.append x) ?_ nofun
      (guarded_seenLines hnames hsplit text) line hline
    intro line hline
    refine Guarded.append (fun x _ _ h => h.append x) ?_
      (Clear.guarded (List.forall_mem_singleton.mpr rfl))
    obtain ⟨z, hz⟩ := List.dropLast_prefix line
    rw [← hz] at hline
    exact hline.of_append
  -- the line is cut at its first equals sign, and every mark stands behind one
  obtain ⟨front, e, rfl, he, hfront, hleft⟩ := eq_of_kind hkind
  have hequals : '=' ∉ plain front ++ plain a.left := by
    rw [List.mem_append]
    refine not_or_intro (fun hmem => ?_) fun hmem => ?_
    · obtain ⟨e', he', heq⟩ := List.mem_map.mp hmem
      have hblank : isBlank e'.1 = true := hfront e' he'
      rw [heq] at hblank
      revert hblank
      decide
    · obtain ⟨e', he', heq⟩ := List.mem_map.mp hmem
      exact hleft e' he' heq
  have hplain : plain (front ++ (a.left ++ [e])) = (plain front ++ plain a.left) ++ ['='] := by
    rw [plain_append, plain_append, ← List.append_assoc]
    exact congrArg _ (congrArg (· :: []) he)
  have hsplit' : front ++ (a.left ++ e :: a.value) = (front ++ (a.left ++ [e])) ++ a.value := by
    simp only [List.append_assoc, List.singleton_append]
  have hvalue : Guarded (fun x c ↦ BeforeMark ((plain front ++ plain a.left) ++ ['='] ++ x) c)
      a.value := by
    rw [hsplit'] at hguarded
    rw [← hplain]
    exact hguarded.behind
  refine ⟨?_, ?_, ?_⟩
  · rintro ⟨c, mark⟩ hmem
    rw [← Bool.not_eq_true]
    rintro rfl
    obtain ⟨x, y, hx⟩ := List.append_of_mem hmem
    have hbefore := hguarded (front ++ x) c (y ++ e :: a.value) (by
      rw [hx]
      simp only [List.append_assoc, List.cons_append])
    apply hequals
    have hmem := hbefore.equals
    rw [plain_append] at hmem
    rw [hx, plain_append, ← List.append_assoc]
    exact List.mem_append_left _ hmem
  · refine (hvalue.mono fun x c hbefore => ?_).starts
    refine ⟨isGap_of_safeChar hbefore.safe, ?_⟩
    obtain ⟨front', d, heq, hd, -⟩ := hbefore.gap
    rcases List.eq_nil_or_concat x with rfl | ⟨x', d', rfl⟩
    · exact .inl ⟨rfl, rfl⟩
    · rw [List.concat_eq_append, ← List.append_assoc] at heq
      have hlast := (List.append_inj' heq rfl).2
      obtain ⟨rfl, -⟩ := List.cons.inj hlast
      exact .inr ⟨x', _, List.concat_eq_append, hd⟩
  · intro c y heq
    obtain ⟨front', d, hd, -, hkey⟩ := (hvalue [] c y heq).gap
    have hnil : plain ([] : List (Char × Bool)) = [] := rfl
    rw [hnil, List.append_nil] at hd
    obtain ⟨hfront', hlast⟩ := List.append_inj' hd rfl
    obtain ⟨rfl, -⟩ := List.cons.inj hlast
    obtain ⟨key, hbase, hsuffix⟩ := hkey rfl
    exact ⟨plain front, key, hbase, hfront' ▸ hsuffix⟩

theorem insert_eq_renamed_iff (hid : IsPlain serviceId) (hnames : ∀ name ∈ names, IsPlain name)
    (hsplit : ∀ name ∈ names, (splitName name).isSome = true)
    (h : MarkedBehind a) :
    a.insert (namePrefix serviceId) = renamed serviceId names a.plain ↔ Found names a := by
  have hvalue : (renamed serviceId names a.plain).value = insert (namePrefix serviceId)
      (markWords isBlank (refersTo names a.plain) a.plain.value) := by
    symm
    apply insert_markWords
    intro word
    rw [target_eq, namespaced_eq_append]
  have hstarts : Starts isGap true (markWords isBlank (refersTo names a.plain) a.plain.value) := by
    refine ((guarded_markWords _).mono ?_).starts
    rintro x c ⟨hx, word, hword⟩
    refine ⟨isGap_of_safeChar (safeChar_of_refersTo hnames hsplit hword), ?_⟩
    refine hx.imp (fun hx => ⟨hx, rfl⟩) ?_
    rintro ⟨x', d, rfl, hd⟩
    refine ⟨x', d, rfl, ?_⟩
    unfold isGap
    rw [isSpace_of_isBlank hd, Bool.true_or]
  have hgap : ∀ c ∈ namePrefix serviceId, isGap c = false := fun c hc =>
    isGap_of_safeChar (isPlain_namePrefix hid c hc)
  have hplain : plain a.value =
      plain (markWords isBlank (refersTo names a.plain) a.plain.value) :=
    (plain_markWords a.plain.value).symm
  have hheader : a.header.map (insert (namePrefix serviceId)) = a.header.map plain ↔
      ∀ name ∈ a.header, Clear name := by
    cases a.header with
    | none => exact iff_of_true rfl nofun
    | some name =>
      rw [Option.map_some, Option.map_some, Option.some_inj, insert_eq_plain_iff namePrefix_ne_nil]
      exact ⟨fun h => by rintro _ ⟨⟩; exact h, fun h => h name rfl⟩
  have hsame : a.insert (namePrefix serviceId) = renamed serviceId names a.plain ↔
      a.header.map (insert (namePrefix serviceId)) = a.header.map plain ∧
        insert (namePrefix serviceId) a.value = (renamed serviceId names a.plain).value := by
    constructor
    · intro heq
      exact ⟨congrArg Assignment.header heq, congrArg Assignment.value heq⟩
    · rintro ⟨hheader, hvalue⟩
      unfold Assignment.insert
      rw [hheader, h.left.insert, hvalue]
      rfl
  rw [hsame, hheader, hvalue, insert_inj hgap namePrefix_ne_nil h.value hstarts hplain]
  exact ⟨fun h => ⟨h.1, h.2⟩, fun h => ⟨h.header, h.value⟩⟩

end

end NixNas.Compose
