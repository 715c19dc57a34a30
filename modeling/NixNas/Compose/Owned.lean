import NixNas.Compose.Rewritten

/-!
# The owner of a file (`_inject_part_of` of `services/nas_v2_compose_import.py`)

Where the directive for the owner comes to stand in the file, and when it stands there already.
-/

open Fallible Lines Marked UnitFile

namespace NixNas.Compose

open Network Reconcile
open Caddy (isSpace)

/-! ## Headers of the unit -/

variable {c d letter : Char} {line : Text} {α : Type} {l : List α}

theorem eq_of_toLower (hd : d.toNat < 97) (h : c.toLower = d) : c = d := by
  unfold Char.toLower at h
  split at h
  · rename_i hupper
    have hvalue := congrArg Char.toNat h
    have hrange : 65 ≤ c.val.toNat ∧ c.val.toNat ≤ 90 := hupper
    have hshift : ('a'.val - 'A'.val).toNat = 32 := by decide
    have hlower : (c.val + ('a'.val - 'A'.val)).toNat = d.toNat := hvalue
    rw [UInt32.toNat_add, hshift] at hlower
    omega
  · exact h

theorem eq_of_matchesLetter (hd : d ∈ ['[', ']']) (h : matchesLetter d c = true) : c = d := by
  unfold matchesLetter at h
  simp only [List.mem_cons, List.not_mem_nil, or_false] at hd
  rcases hd with rfl | rfl
  · simp at h
    exact eq_of_toLower (by decide) h
  · simp at h
    exact eq_of_toLower (by decide) h

theorem plain_of_matchesLetter (hletter : letter ∈ "Unit".toList)
    (h : matchesLetter letter c = true) : c ∉ ['=', '#', ';', '\\'] := by
  have hall : ("Unit".toList.all fun letter ↦
      ['=', '#', ';', '\\'].all fun c ↦ !matchesLetter letter c) = true := by decide
  rw [List.all_eq_true] at hall
  have hnone := hall letter hletter
  rw [List.all_eq_true] at hnone
  intro hmem
  have hc := hnone c hmem
  rw [h] at hc
  cases hc

theorem afterWord_cons {word rest : Text} (h : afterWord (letter :: word) line = some rest) :
    ∃ c line', line = c :: line' ∧ matchesLetter letter c = true ∧ afterWord word line' = some rest := by
  cases line with
  | nil => cases h
  | cons c line =>
    unfold afterWord at h
    rw [Option.ite_none_right_eq_some] at h
    exact ⟨c, line, rfl, h⟩

theorem shape_of_isUnitHeader (h : isUnitHeader line = true) :
    ∃ front name back, line = front ++ '[' :: (name ++ ']' :: back) ∧
      (∀ c ∈ front, isSpace c = true) ∧ (∀ c ∈ back, isSpace c = true) ∧
      ∀ c ∈ name, c ∉ ['=', '#', ';', '\\'] := by
  unfold isUnitHeader at h
  split at h
  · rename_i back hafter
    rw [List.all_eq_true] at h
    obtain ⟨open', l, hl, hopen, hafter⟩ := afterWord_cons hafter
    obtain ⟨u, l, rfl, hu, hafter⟩ := afterWord_cons hafter
    obtain ⟨n, l, rfl, hn, hafter⟩ := afterWord_cons hafter
    obtain ⟨i, l, rfl, hi, hafter⟩ := afterWord_cons hafter
    obtain ⟨t, l, rfl, ht, hafter⟩ := afterWord_cons hafter
    obtain ⟨close, l, rfl, hclose, hafter⟩ := afterWord_cons hafter
    cases hafter
    cases eq_of_matchesLetter (by decide) hopen
    cases eq_of_matchesLetter (by decide) hclose
    refine ⟨line.takeWhile isSpace, [u, n, i, t], back, ?_, fun c hc => List.mem_takeWhile_imp hc, h,
      ?_⟩
    · calc line = line.takeWhile isSpace ++ line.dropWhile isSpace :=
          List.takeWhile_append_dropWhile.symm
        _ = _ := by rw [hl]; rfl
    · simp only [List.forall_mem_cons]
      exact ⟨plain_of_matchesLetter (by decide) hu, plain_of_matchesLetter (by decide) hn,
        plain_of_matchesLetter (by decide) hi, plain_of_matchesLetter (by decide) ht,
        List.forall_mem_nil _⟩
  · cases h

theorem isUnitHeader_of_mem (h : '=' ∈ line) : isUnitHeader line = false := by
  rw [← Bool.not_eq_true]
  intro hheader
  obtain ⟨front, name, back, rfl, hfront, hback, hname⟩ := shape_of_isUnitHeader hheader
  have hequals : ¬ isSpace '=' = true := by decide
  simp only [List.mem_append, List.mem_cons] at h
  rcases h with h | h | h | h | h
  · exact hequals (hfront _ h)
  · cases h
  · exact hname _ h List.mem_cons_self
  · cases h
  · exact hequals (hback _ h)

/-! ## The section of the first header -/

def through {α : Type} (P : α → Bool) : List α → List α
  | [] => []
  | x :: rest => if P x then [x] else x :: through P rest

/-- The section in which the first line stands that `_UNIT_HEADER` matches. -/
def sectionThrough (text : Text) : Option Text :=
  sectionAfter View.text isBlank none
    (joinFrom View.text isBlank none (through isUnitHeader (contents View.text text)))

theorem through_map {β : Type} {f : α → β} {P : β → Bool} {Q : α → Bool}
    (h : ∀ x ∈ l, P (f x) = Q x) : through P (l.map f) = (through Q l).map f := by
  induction l with
  | nil => rfl
  | cons x l ih =>
    obtain ⟨hx, hl⟩ := List.forall_mem_cons.mp h
    rw [List.map_cons, through, through, hx, ih hl]
    split <;> rfl

theorem mem_of_mem_through {P : α → Bool} {x : α} (h : x ∈ through P l) : x ∈ l := by
  induction l with
  | nil => cases h
  | cons y l ih =>
    rw [through] at h
    split at h
    · rw [List.mem_singleton.mp h]
      exact List.mem_cons_self
    · rcases List.mem_cons.mp h with rfl | hmem
      · exact List.mem_cons_self
      · exact List.mem_cons_of_mem _ (ih hmem)

def hasHeader (text : Text) : Bool := (contents View.text text).any isUnitHeader

section

variable {serviceId : Text} {names : List Text} {p : Text} {line : List (Char × Bool)}

theorem isUnitHeader_insert (h : Guarded BeforeMark line) :
    isUnitHeader (insert p line) = isUnitHeader (plain line) := by
  by_cases hclear : Clear line
  · rw [hclear.insert]
  · have hequals : ∀ p : Text, '=' ∈ insert p line := fun p =>
      (h.mono fun _ _ hc => hc.equals).mem_insert hclear
    have hplain := hequals []
    rw [Marked.insert_nil] at hplain
    rw [isUnitHeader_of_mem (hequals p), isUnitHeader_of_mem hplain]

theorem name_eq_unitSection {name : List (Char × Bool)} (h : Sound isBlank line)
    (hkind : kind View.marked isBlank line = .header name) :
    insert p name = unitSection ↔ plain name = unitSection := by
  obtain ⟨front, opening, closing, back, rfl, hopening, hfront⟩ := eq_of_kind_header hkind
  have hassoc : front ++ opening :: (name ++ closing :: back) =
      (front ++ [opening]) ++ (name ++ closing :: back) := by
    simp only [List.append_assoc, List.singleton_append]
  have hguarded : Guarded (fun x _ ↦ '=' ∈ x) name := by
    rw [hassoc] at h
    refine h.behind.of_append.mono fun x c hc => ?_
    rcases List.mem_append.mp hc.1 with hmem | hmem
    · obtain ⟨e, he, heq⟩ := List.mem_map.mp hmem
      rcases List.mem_append.mp he with he | he
      · have hblank : isBlank e.1 = true := hfront e he
        have hno : isBlank '=' = false := by decide
        rw [heq, hno] at hblank
        cases hblank
      · have hbracket : opening.1 = '[' := hopening
        rw [List.mem_singleton.mp he, hbracket] at heq
        cases heq
    · exact hmem
  by_cases hclear : Clear name
  · rw [hclear.insert]
  · have hno : '=' ∉ unitSection := by decide
    have hplain : '=' ∈ insert [] name := hguarded.mem_insert hclear
    rw [Marked.insert_nil] at hplain
    constructor
    · intro heq
      have hinsert : '=' ∈ insert p name := hguarded.mem_insert hclear
      exact (hno (heq ▸ hinsert)).elim
    · exact fun heq => (hno (heq ▸ hplain)).elim

/-- The rewriting keeps the first header, and whether it stands in the section of the unit. -/
theorem header_insert (hnames : ∀ name ∈ names, IsPlain name)
    (hsplit : ∀ name ∈ names, (splitName name).isSome = true) (hp : '\n' ∉ p) (text : Text) :
    hasHeader (insert p (seenLines names none (lines text))) = hasHeader text ∧
      (sectionThrough (insert p (seenLines names none (lines text))) = some unitSection ↔
        sectionThrough text = some unitSection) := by
  have hguarded : ∀ line ∈ contents View.marked (seenLines names none (lines text)),
      Guarded BeforeMark line := guarded_seenLines hnames hsplit text
  have hlines : ∀ {q : Text}, '\n' ∉ q →
      contents View.text (insert q (seenLines names none (lines text))) =
        (contents View.marked (seenLines names none (lines text))).map (insert q) := fun hq =>
    contents_insert hq (newline_of_mark hnames hsplit text)
  have hheader : ∀ {q : Text}, ∀ line ∈ contents View.marked (seenLines names none (lines text)),
      isUnitHeader (insert q line) = isUnitHeader (plain line) := fun line hline =>
    isUnitHeader_insert (hguarded line hline)
  have hsound : ∀ line ∈ through (fun line ↦ isUnitHeader (plain line))
      (contents View.marked (seenLines names none (lines text))), Sound isBlank line :=
    fun line hline => sound_of_guarded (hguarded line (mem_of_mem_through hline))
  have hjoined : ∀ line ∈ joinFrom View.marked isBlank none
      (through (fun line ↦ isUnitHeader (plain line))
        (contents View.marked (seenLines names none (lines text)))), Sound isBlank line :=
    forall_mem_joinFrom (fun _ _ => Sound.append) (fun _ => Sound.continued) nofun hsound
  have hblank : isBlank '=' = false := by decide
  -- the same lines with a text at their marks: `p`, or nothing for the file itself
  have hany : ∀ {q : Text}, '\n' ∉ q →
      hasHeader (insert q (seenLines names none (lines text))) =
        (contents View.marked (seenLines names none (lines text))).any
          fun line ↦ isUnitHeader (plain line) := by
    intro q hq
    unfold hasHeader
    rw [hlines hq, List.any_map, Bool.eq_iff_iff, List.any_eq_true, List.any_eq_true]
    refine exists_congr fun line => and_congr_right fun hline => ?_
    rw [Function.comp_apply, hheader line hline]
  have hsection : ∀ {q : Text}, '\n' ∉ q →
      sectionThrough (insert q (seenLines names none (lines text))) =
        (sectionAfter View.marked isBlank none (joinFrom View.marked isBlank none
          (through (fun line ↦ isUnitHeader (plain line))
            (contents View.marked (seenLines names none (lines text)))))).map (insert q) := by
    intro q hq
    have hjoin := joinFrom_insert (p := q) hblank none hsound
    rw [Option.map_none] at hjoin
    unfold sectionThrough
    rw [hlines hq, through_map hheader, hjoin]
    exact (readFrom_insert hblank none hjoined).2
  have htext : insert [] (seenLines names none (lines text)) = text := by
    rw [Marked.insert_nil, plain_seenLines]
  have hnil : '\n' ∉ ([] : Text) := List.not_mem_nil
  have hany' := hany hnil
  have hsection' := hsection hnil
  rw [htext] at hany' hsection'
  rw [hany hp, hany', hsection hp, hsection']
  refine ⟨rfl, ?_⟩
  rcases sectionAfter_cases none (joinFrom View.marked isBlank none
    (through (fun line ↦ isUnitHeader (plain line))
      (contents View.marked (seenLines names none (lines text))))) with
    h | ⟨line, hline, name, hkind, h⟩
  · rw [h]
    rfl
  · rw [h, Option.map_some, Option.map_some, Option.some_inj, Option.some_inj,
      name_eq_unitSection (hjoined line hline) hkind, Marked.insert_nil]

end

/-! ## The directive that is added -/

def partOfKey : Text := "PartOf".toList

def partOf (header : Option Text) (owner : Text) : Assignment Char := ⟨header, partOfKey, owner⟩

theorem insertDirective_cases (directive : Text) (ls : List Text) :
    insertDirective directive ls = none ∧ ls.any isUnitHeader = false ∨
      ∃ before header blanks after, ls = before ++ header :: (blanks ++ after) ∧
        isUnitHeader header = true ∧ through isUnitHeader ls = before ++ [header] ∧
        (∀ line ∈ blanks, ∀ c ∈ line, isSpace c = true) ∧
        insertDirective directive ls = some (before ++ header :: (blanks ++ directive :: after)) := by
  induction ls with
  | nil => exact .inl ⟨rfl, rfl⟩
  | cons line rest ih =>
    unfold insertDirective through
    by_cases hheader : isUnitHeader line = true
    · right
      refine ⟨[], line, rest.takeWhile (·.all isSpace), rest.dropWhile (·.all isSpace), ?_, hheader,
        if_pos hheader, ?_, if_pos hheader⟩
      · rw [List.takeWhile_append_dropWhile, List.nil_append]
      · intro line' hline
        have hall := List.mem_takeWhile_imp (p := fun l : Text ↦ l.all isSpace) hline
        exact List.all_eq_true.mp hall
    · rw [if_neg hheader, if_neg hheader, List.any_cons, Bool.eq_false_iff.mpr hheader]
      rcases ih with ⟨hnone, hany⟩ |
        ⟨before, header, blanks, after, rfl, hheader', hthrough, hblanks, hsome⟩
      · exact .inl ⟨by rw [hnone]; rfl, hany⟩
      · exact .inr ⟨line :: before, header, blanks, after, rfl, hheader',
          congrArg _ hthrough, hblanks, by rw [hsome]; rfl⟩

section

variable {owner text : Text}

theorem isPlain_spec (howner : IsPlain owner) :
    (∀ c ∈ owner, isSpace c = false) ∧ (∀ c ∈ owner, isBreak c = false) ∧ ':' ∉ owner ∧ '=' ∉ owner :=
  ⟨fun c hc => (safeChar_spec (howner c hc)).1, fun c hc => (safeChar_spec (howner c hc)).2.1,
    fun hmem => (safeChar_spec (howner _ hmem)).2.2.1 rfl,
    fun hmem => (safeChar_spec (howner _ hmem)).2.2.2 rfl⟩

theorem directiveOf_eq : directiveOf owner = partOfKey ++ '=' :: owner := rfl

theorem isBreak_directiveOf (howner : IsPlain owner) : ∀ c ∈ directiveOf owner, isBreak c = false := by
  have hkey : ∀ c ∈ partOfKey, isBreak c = false := by
    unfold partOfKey
    exact forall_mem_of_all (by decide)
  rw [directiveOf_eq, List.forall_mem_append, List.forall_mem_cons]
  exact ⟨hkey, by decide, (isPlain_spec howner).2.1⟩

/-- A line of its own: neither a comment nor continued. -/
structure Alone (line : Text) : Prop where
  comment : isComment View.text isBlank line = false
  continued : continues View.text line = false

theorem alone_of_forall (h : ∀ c ∈ line, c ∉ ['#', ';', '\\']) : Alone line where
  comment := by
    unfold isComment
    rw [← Bool.not_eq_true, Option.any_eq_true]
    rintro ⟨c, hc, hsign⟩
    have hmem := (List.dropWhile_suffix fun c ↦ isBlank (View.text.char c)).subset
      (List.mem_of_mem_head? hc)
    have hno := h c hmem
    rw [Bool.or_eq_true, decide_eq_true_eq, decide_eq_true_eq] at hsign
    rcases hsign with rfl | rfl
    · exact hno (by decide)
    · exact hno (by decide)
  continued := by
    unfold continues
    rw [← Bool.not_eq_true, Option.any_eq_true]
    rintro ⟨c, hc, hslash⟩
    have hno := h c (List.mem_of_getLast? hc)
    rw [decide_eq_true_eq] at hslash
    rw [show c = '\\' from hslash] at hno
    exact hno (by decide)

theorem alone_of_blank (h : ∀ c ∈ line, isSpace c = true) :
    Alone line ∧ kind View.text isBlank line = .other := by
  have hspecial : ∀ d ∈ ['#', ';', '\\', '[', '='], isSpace d = false :=
    forall_mem_of_all (by decide)
  have hno : ∀ c ∈ line, c ∉ ['#', ';', '\\', '[', '='] := by
    intro c hc hmem
    have hspace := h c hc
    rw [hspecial c hmem] at hspace
    cases hspace
  refine ⟨alone_of_forall fun c hc hmem => ?_, kind_other (fun c hc heq => ?_) fun c hc heq => ?_⟩
  · exact hno c hc (List.mem_append_left ['[', '='] hmem)
  · rw [show c = '[' from heq] at hc
    exact hno '[' hc (by decide)
  · rw [show c = '=' from heq] at hc
    exact hno '=' hc (by decide)

theorem alone_of_isUnitHeader (h : isUnitHeader line = true) : Alone line := by
  obtain ⟨front, name, back, rfl, hfront, hback, hname⟩ := shape_of_isUnitHeader h
  have hspace : ∀ c, isSpace c = true → c ∉ ['#', ';', '\\'] := by
    have hspecial : ∀ d ∈ ['#', ';', '\\'], isSpace d = false := forall_mem_of_all (by decide)
    intro c hc hmem
    rw [hspecial c hmem] at hc
    cases hc
  apply alone_of_forall
  rw [List.forall_mem_append, List.forall_mem_cons, List.forall_mem_append, List.forall_mem_cons]
  exact ⟨fun c hc => hspace c (hfront c hc), by decide,
    fun c hc hmem => hname c hc (List.mem_cons_of_mem _ hmem), by decide,
    fun c hc => hspace c (hback c hc)⟩

theorem alone_directiveOf (howner : IsPlain owner) : Alone (directiveOf owner) ∧
    kind View.text isBlank (directiveOf owner) = .assignment partOfKey owner := by
  have hsafe : ∀ c, safeChar c = true → c ∉ ['#', ';', '\\'] := by
    have hspecial : ∀ d ∈ ['#', ';', '\\'], safeChar d = false := forall_mem_of_all (by decide)
    intro c hc hmem
    rw [hspecial c hmem] at hc
    cases hc
  have hkey : IsPlain partOfKey := forall_mem_of_all (by decide)
  refine ⟨alone_of_forall ?_, ?_⟩
  · rw [directiveOf_eq, List.forall_mem_append, List.forall_mem_cons]
    exact ⟨fun c hc => hsafe c (hkey c hc), by decide, fun c hc => hsafe c (howner c hc)⟩
  · have hword : partOfKey = 'P' :: "artOf".toList := by decide
    have hequals : ∀ c ∈ 'P' :: "artOf".toList, View.text.char c ≠ '=' := by
      intro c hc heq
      rw [show c = '=' from heq] at hc
      revert hc
      decide
    rw [directiveOf_eq, hword]
    exact kind_assignment (by decide) (by decide) hequals rfl

theorem joinFrom_blanks {blanks : List Text} (h : ∀ line ∈ blanks, ∀ c ∈ line, isSpace c = true)
    (rest : List Text) : joinFrom View.text isBlank none (blanks ++ rest) =
      blanks ++ joinFrom View.text isBlank none rest := by
  induction blanks with
  | nil => rfl
  | cons line blanks ih =>
    obtain ⟨hline, hblanks⟩ := List.forall_mem_cons.mp h
    have halone := (alone_of_blank hline).1
    rw [List.cons_append, joinFrom_cons halone.comment halone.continued, ih hblanks, List.cons_append]

theorem contents_intercalate {ls : List Text} (hls : ls ≠ []) (h : ∀ line ∈ ls, '\n' ∉ line) :
    contents View.text (['\n'].intercalate ls) = ls :=
  List.splitOn_intercalate '\n' h hls

theorem assignments_injectPartOf (howner : IsPlain owner) (hnot : ¬ directiveOf owner <:+: text)
    (hheader : hasHeader text = true) : ∃ before after, assignments text = before ++ after ∧
      assignments (injectPartOf text owner) =
        before ++ partOf (sectionThrough text) owner :: after := by
  have hcontents : contents View.text text = text.splitOn '\n' := rfl
  have hnewline : ∀ line ∈ text.splitOn '\n', '\n' ∉ line := fun line hline =>
    Segments.not_mem_of_mem_splitOn hline
  unfold hasHeader at hheader
  rw [hcontents] at hheader
  rcases insertDirective_cases (directiveOf owner) (text.splitOn '\n') with
    ⟨-, hnone⟩ | ⟨before, header, blanks, after, hls, hfound, hthrough, hblanks, hsome⟩
  · cases hnone.symm.trans hheader
  · have halone := alone_of_isUnitHeader hfound
    obtain ⟨hdirective, hkind⟩ := alone_directiveOf howner
    have hinjected : injectPartOf text owner = ['\n'].intercalate
        (before ++ header :: (blanks ++ directiveOf owner :: after)) := by
      unfold injectPartOf
      rw [if_neg hnot, hsome]
    have hlines : ∀ line ∈ before ++ header :: (blanks ++ directiveOf owner :: after),
        '\n' ∉ line := by
      rw [hls] at hnewline
      simp only [List.forall_mem_append, List.forall_mem_cons] at hnewline ⊢
      refine ⟨hnewline.1, hnewline.2.1, hnewline.2.2.1, fun hmem => ?_, hnewline.2.2.2⟩
      have hbreak := isBreak_directiveOf howner _ hmem
      revert hbreak
      decide
    have hother : ∀ line ∈ blanks, kind View.text isBlank line = .other := fun line hline =>
      (alone_of_blank (hblanks line hline)).2
    refine ⟨readFrom View.text isBlank none
        (joinFrom View.text isBlank none (before ++ [header])),
      readFrom View.text isBlank (sectionThrough text)
        (joinFrom View.text isBlank none after), ?_, ?_⟩
    · unfold assignments UnitFile.read sectionThrough
      rw [hcontents, hthrough, hls, joinFrom_append halone.comment halone.continued,
        joinFrom_blanks hblanks, readFrom_append, readFrom_append, (readFrom_other hother).1,
        (readFrom_other hother).2]
      rfl
    · unfold assignments UnitFile.read sectionThrough
      rw [hinjected, contents_intercalate
        (List.append_ne_nil_of_right_ne_nil _ (List.cons_ne_nil _ _)) hlines, hcontents, hthrough,
        joinFrom_append halone.comment halone.continued, joinFrom_blanks hblanks,
        joinFrom_cons hdirective.comment hdirective.continued, readFrom_append, readFrom_append,
        (readFrom_other hother).1, (readFrom_other hother).2, readFrom, hkind]
      rfl

theorem assignments_injectPartOf_none (howner : IsPlain owner)
    (hnot : ¬ directiveOf owner <:+: text) (hheader : hasHeader text = false) :
    assignments (injectPartOf text owner) = partOf (some unitSection) owner ::
      readFrom View.text isBlank (some unitSection)
        (joinFrom View.text isBlank none (contents View.text text)) := by
  unfold hasHeader at hheader
  rcases insertDirective_cases (directiveOf owner) (text.splitOn '\n') with
    ⟨hnone, -⟩ | ⟨before, header, blanks, after, hls, hfound, -, -, -⟩
  · obtain ⟨hdirective, hkind⟩ := alone_directiveOf howner
    -- three lines come in front: the header, the directive and an empty one
    have hinjected : injectPartOf text owner =
        "[Unit]".toList ++ '\n' :: (directiveOf owner ++ '\n' :: ([] ++ '\n' :: text)) := by
      have hopen : "[Unit]\n".toList = "[Unit]".toList ++ ['\n'] := by decide
      have hblank : "\n\n".toList = ['\n', '\n'] := by decide
      unfold injectPartOf
      rw [if_neg hnot, hnone]
      dsimp only
      rw [hopen, hblank, List.append_assoc, List.append_assoc]
      rfl
    have hunit : ∀ c ∈ "[Unit]".toList, View.text.char c ≠ '\n' := by
      intro c hc heq
      rw [show c = '\n' from heq] at hc
      revert hc
      decide
    have hline : ∀ c ∈ directiveOf owner, View.text.char c ≠ '\n' := by
      intro c hc heq
      have hbreak := isBreak_directiveOf howner c hc
      rw [show c = '\n' from heq] at hbreak
      revert hbreak
      decide
    have halone : Alone "[Unit]".toList := alone_of_isUnitHeader (by decide)
    have hempty : Alone [] := (alone_of_blank (List.forall_mem_nil _)).1
    have hheader' : kind View.text isBlank "[Unit]".toList = .header unitSection := by decide
    have hblank : kind View.text isBlank [] = .other := by decide
    have hnewline : View.text.char '\n' = '\n' := rfl
    unfold assignments UnitFile.read
    rw [hinjected, contents_cut hunit hnewline, contents_cut hline hnewline,
      contents_cut (List.forall_mem_nil _) hnewline, joinFrom_cons halone.comment halone.continued,
      joinFrom_cons hdirective.comment hdirective.continued,
      joinFrom_cons hempty.comment hempty.continued, readFrom, hheader']
    dsimp only
    rw [readFrom, hkind]
    dsimp only
    rw [readFrom, hblank]
    rfl
  · have hsome : (text.splitOn '\n').any isUnitHeader = true := by
      rw [hls]
      exact List.any_eq_true.mpr
        ⟨header, List.mem_append_right _ List.mem_cons_self, hfound⟩
    cases hsome.symm.trans hheader

theorem assignments_withNewline (text : Text) :
    assignments (withNewline text) = assignments text := by
  unfold withNewline
  split
  · rfl
  · have hcontents : contents View.text (text ++ ['\n']) = contents View.text text ++ [[]] :=
      List.splitOnP_append_cons text [] (by decide)
    unfold assignments UnitFile.read
    rw [hcontents]
    have hconcat : joinFrom View.text isBlank none (contents View.text text ++ [[]]) =
          joinFrom View.text isBlank none (contents View.text text) ∨
        joinFrom View.text isBlank none (contents View.text text ++ [[]]) =
          joinFrom View.text isBlank none (contents View.text text) ++ [[]] :=
      joinFrom_concat_nil none _
    rcases hconcat with h | h
    · rw [h]
    · have hempty : kind View.text isBlank [] = .other := rfl
      rw [h, readFrom_append, readFrom, hempty]
      exact List.append_nil _

end

section

variable {owner text : Text} {current : Option Text}
variable {x key : Text}

/-! ## The directive that is there -/

theorem notMem_directiveOf {c : Char} (hkey : c ∉ partOfKey) (hc : c ≠ '=')
    (hmem : c ∉ owner) : c ∉ directiveOf owner := by
  rw [directiveOf_eq, List.mem_append, List.mem_cons]
  exact not_or_intro hkey (not_or_intro hc hmem)

theorem not_infix_of_notMem (hx : '=' ∉ x) : ¬ directiveOf owner <:+: x := by
  intro h
  apply hx
  apply h.subset
  rw [directiveOf_eq]
  exact List.mem_append_right _ List.mem_cons_self

theorem notMem_of_isPlain (hx : IsPlain x) : '=' ∉ x := (isPlain_spec hx).2.2.2

theorem infix_namespaced {serviceId file suffix : Text} (howner : IsPlain owner)
    (hid : IsPlain serviceId) (hfile : IsPlain file)
    (hsuffix : suffix = [] ∨ ∃ options, suffix = ':' :: options) :
    directiveOf owner <:+: namespaced serviceId file ++ suffix ↔ directiveOf owner <:+: file ++ suffix := by
  have hnew : IsPlain (namespaced serviceId file) :=
    mem_namespaced hid (forall_mem_of_all (by decide)) (by decide) hfile
  have hcolon : ':' ∉ directiveOf owner := by
    have hkey : ':' ∉ partOfKey := by decide
    exact notMem_directiveOf hkey (by decide) (isPlain_spec howner).2.2.1
  rcases hsuffix with rfl | ⟨options, rfl⟩
  · rw [List.append_nil, List.append_nil]
    exact iff_of_false (not_infix_of_notMem (notMem_of_isPlain hnew))
      (not_infix_of_notMem (notMem_of_isPlain hfile))
  · rw [infix_append_cons_iff hcolon, infix_append_cons_iff hcolon,
      or_iff_right (not_infix_of_notMem (notMem_of_isPlain hnew)),
      or_iff_right (not_infix_of_notMem (notMem_of_isPlain hfile))]

variable {serviceId : Text} {names : List Text}

theorem dropWhile_colon (word : Text) :
    word.dropWhile (· ≠ ':') = [] ∨ ∃ options, word.dropWhile (· ≠ ':') = ':' :: options := by
  cases hdrop : word.dropWhile (· ≠ ':') with
  | nil => exact .inl rfl
  | cons c options =>
    have hhead := List.head_dropWhile_not (fun c ↦ decide (c ≠ ':')) (l := word)
      (by rw [hdrop]; exact List.cons_ne_nil c options)
    simp only [hdrop, List.head_cons, decide_eq_false_iff_not, ne_eq, not_not] at hhead
    exact .inr ⟨options, by rw [hhead]⟩

theorem token_spec (hid : IsPlain serviceId) (volume : Bool) {word : Text} (hne : word ≠ [])
    (hword : ∀ c ∈ word, isSpace c = false) :
    rewriteReferenceToken (mappingOf serviceId names) volume word ≠ [] ∧
      ∀ c ∈ rewriteReferenceToken (mappingOf serviceId names) volume word, isSpace c = false := by
  have htoken : rewriteReferenceToken (mappingOf serviceId names) volume word =
        namespaced serviceId word ∨
      rewriteReferenceToken (mappingOf serviceId names) volume word = word := by
    rw [rewriteReferenceToken_eq]
    exact ite_eq_or_eq _ _ _
  rcases htoken with h | h
  · rw [h]
    exact ⟨List.append_ne_nil_of_right_ne_nil _ (List.cons_ne_nil _ _),
      mem_namespaced (fun c hc => (safeChar_spec (hid c hc)).1) (forall_mem_of_all (by decide))
        (by decide) hword⟩
  · rw [h]
    exact ⟨hne, hword⟩

theorem infix_token (howner : IsPlain owner) (hid : IsPlain serviceId)
    (hnames : ∀ name ∈ names, IsPlain name) (volume : Bool) (word : Text) :
    directiveOf owner <:+: rewriteReferenceToken (mappingOf serviceId names) volume word ↔
      directiveOf owner <:+: word := by
  have htoken : rewriteReferenceToken (mappingOf serviceId names) volume word =
      if (if volume then word.takeWhile (· ≠ ':') else word) ∈ names then namespaced serviceId word
      else word := rewriteReferenceToken_eq volume
  rw [htoken]
  by_cases hmem : (if volume then word.takeWhile (· ≠ ':') else word) ∈ names
  · rw [if_pos hmem]
    have hplain := hnames _ hmem
    cases volume with
    | false =>
      have hword := infix_namespaced howner hid hplain (.inl rfl)
      rw [List.append_nil, List.append_nil] at hword
      exact hword
    | true =>
      rw [if_pos rfl] at hplain
      have hword := infix_namespaced howner hid hplain (dropWhile_colon word)
      rw [takeWhile_append_suffix, List.takeWhile_append_dropWhile] at hword
      exact hword
  · rw [if_neg hmem]

theorem infix_value (howner : IsPlain owner) (hid : IsPlain serviceId)
    (hnames : ∀ name ∈ names, IsPlain name) (volume : Bool) (value : Text) :
    directiveOf owner <:+: rewriteReferenceValue (mappingOf serviceId names) volume value ↔
      directiveOf owner <:+: value := by
  have hblank : ∀ c ∈ directiveOf owner, isSpace c = false := by
    have hkey : ∀ c ∈ partOfKey, isSpace c = false := by
      unfold partOfKey
      exact forall_mem_of_all (by decide)
    rw [directiveOf_eq, List.forall_mem_append, List.forall_mem_cons]
    exact ⟨hkey, by decide, (isPlain_spec howner).1⟩
  have hne : directiveOf owner ≠ [] := by
    rw [directiveOf_eq]
    exact List.append_ne_nil_of_right_ne_nil _ (List.cons_ne_nil _ _)
  have hwords : words isSpace (rewriteReferenceValue (mappingOf serviceId names) volume value) =
      (words isSpace value).map (rewriteReferenceToken (mappingOf serviceId names) volume) :=
    words_mapWordsFrom (fun _ hw hblank => token_spec hid volume hw hblank) (List.forall_mem_nil _) value
  rw [infix_iff_word hblank hne, infix_iff_word hblank hne, hwords]
  simp only [List.mem_map, exists_exists_and_eq_and, infix_token howner hid hnames]

theorem append_ne_append_partOfKey {front front' : Text} (h : baseKey key ∈ referenceFields) :
    front ++ key ≠ front' ++ partOfKey := by
  have hlast : key.getLast?.any (· ≠ 'f') = true :=
    forall_baseKey_mem (P := fun key ↦ key.getLast?.any (· ≠ 'f') = true) (by decide) (by decide) h
  have hf : partOfKey.getLast? = some 'f' := by decide
  intro heq
  have hboth := congrArg List.getLast? heq
  rw [List.getLast?_append, List.getLast?_append, hf, Option.some_or] at hboth
  cases hkey : key.getLast? with
  | none =>
    rw [hkey] at hlast
    cases hlast
  | some c =>
    rw [hkey, Option.some_or, Option.some_inj] at hboth
    rw [hkey, hboth] at hlast
    cases hlast

theorem not_suffix_partOfKey {indent : Text} (h : baseKey key ∈ referenceFields) :
    ¬ partOfKey <:+ indent ++ key := by
  rintro ⟨front, heq⟩
  exact append_ne_append_partOfKey h heq.symm

theorem infix_rewriteLine (howner : IsPlain owner) (hid : IsPlain serviceId)
    (hnames : ∀ name ∈ names, IsPlain name) (line : Text) :
    directiveOf owner <:+: (rewriteLine (mappingOf serviceId names) current line).2 ↔
      directiveOf owner <:+: line := by
  rcases rewriteLine_cases (mappingOf serviceId names) current line with
    h | ⟨indent, key, value, rfl, hindent, hbase, h⟩
  · rw [h]
  · have hequals : '=' ∉ indent ++ key := by
      rw [List.mem_append]
      refine not_or_intro (fun hmem => ?_) fun hmem =>
        (isKeyChar_spec ((isKey_of_baseKey_mem hbase).2 _ hmem)).2 rfl
      have hblank := hindent _ hmem
      revert hblank
      decide
    have hpartOf : '=' ∉ partOfKey := by decide
    rw [h, directiveOf_eq, ← List.append_assoc, ← List.append_assoc,
      infix_behind_iff hequals hpartOf (not_suffix_partOfKey hbase),
      infix_behind_iff hequals hpartOf (not_suffix_partOfKey hbase), ← directiveOf_eq]
    exact infix_value howner hid hnames _ value

theorem infix_rewriteLines (howner : IsPlain owner) (hid : IsPlain serviceId)
    (hnames : ∀ name ∈ names, IsPlain name) (text : Text) :
    directiveOf owner <:+: rewriteLines (mappingOf serviceId names) current (lines text) ↔
      directiveOf owner <:+: text := by
  induction text using cut_induction isBreak generalizing current with
  | whole x hx =>
    rw [rewriteLines_whole hx]
    exact infix_rewriteLine howner hid hnames x
  | cut x c y hx hc ih =>
    have hmem : c ∉ directiveOf owner := by
      intro hmem
      rw [isBreak_directiveOf howner c hmem] at hc
      cases hc
    rw [rewriteLines_cut hx hc, infix_append_cons_iff hmem, infix_append_cons_iff hmem, ih,
      infix_rewriteLine howner hid hnames]

end

end NixNas.Compose
