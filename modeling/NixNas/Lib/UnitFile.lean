import NixNas.Lib.Marked

/-!
# Unit files

A unit file is a list of assignments, each in the section whose header is the last one above it.  A
line ends at its newline, and one with a backslash in front of it goes on in the next line that is
no comment.  Which characters are blanks is a parameter, and a character may carry a mark.
-/

namespace UnitFile

open Lines Marked

variable {α : Type*}
variable {x y line name left value : List α} {c e : α} {P : List α → Prop} {front : Option (List α)}
  {ls : List (List α)}

/-- How an entry is a character, and the entry that takes the place of a backslash. -/
structure View (α : Type*) where
  char : α → Char
  space : α

def View.text : View Char := ⟨id, ' '⟩

def View.marked : View (Char × Bool) := ⟨Prod.fst, (' ', false)⟩

inductive Kind (α : Type*) where
  | header (name : List α)
  /-- What stands in front of the first equals sign, and behind it. -/
  | assignment (left value : List α)
  /-- A blank line, or neither of the others. -/
  | other
  deriving DecidableEq, Repr

structure Assignment (α : Type*) where
  header : Option (List α)
  left : List α
  value : List α
  deriving DecidableEq, Repr

section

variable (view : View α) (blank : Char → Bool)

def trim (line : List α) : List α := line.dropWhile fun c ↦ blank (view.char c)

def isComment (line : List α) : Bool :=
  (trim view blank line).head?.any fun c ↦ view.char c = '#' || view.char c = ';'

def continues (line : List α) : Bool := line.getLast?.any fun c ↦ view.char c = '\\'

/-- The lines with those that continue them, of which the first one continues what is in front. -/
def joinFrom (front : Option (List α)) : List (List α) → List (List α)
  | [] => front.toList
  | line :: rest =>
    if isComment view blank line then joinFrom front rest
    else if continues view line then
      joinFrom (some (front.getD [] ++ (line.dropLast ++ [view.space]))) rest
    else (front.getD [] ++ line) :: joinFrom none rest

def contents (text : List α) : List (List α) := text.splitOnP fun c ↦ view.char c == '\n'

def isBracketed (t : List α) : Bool :=
  t.head?.any (fun c ↦ view.char c = '[') && t.getLast?.any fun c ↦ view.char c = ']'

def kindOf (line : List α) : Kind α :=
  let stripped := line.rdropWhile fun c ↦ blank (view.char c)
  if isBracketed view stripped then .header (stripped.drop 1).dropLast
  else
    match line.takeWhile (fun c ↦ view.char c ≠ '='), line.dropWhile (fun c ↦ view.char c ≠ '=') with
    | c :: left, _ :: value => .assignment (c :: left) value
    | _, _ => .other

def kind (line : List α) : Kind α := kindOf view blank (trim view blank line)

/-- The assignments of the lines, the first of which are in the current section. -/
def readFrom (current : Option (List α)) : List (List α) → List (Assignment α)
  | [] => []
  | line :: rest =>
    match kind view blank line with
    | .header name => readFrom (some name) rest
    | .assignment left value => ⟨current, left, value⟩ :: readFrom current rest
    | .other => readFrom current rest

def next (current : Option (List α)) (line : List α) : Option (List α) :=
  match kind view blank line with
  | .header name => some name
  | _ => current

def sectionAfter (current : Option (List α)) (lines : List (List α)) : Option (List α) :=
  lines.foldl (next view blank) current

def read (text : List α) : List (Assignment α) :=
  readFrom view blank none (joinFrom view blank none (contents view text))

def Assignment.key (a : Assignment Char) : List Char := a.left.rdropWhile blank

end

variable {view : View α} {blank : Char → Bool} {current : Option (List α)}

/-! ## Texts cut into lines -/

theorem contents_whole (hx : ∀ c ∈ x, view.char c ≠ '\n') : contents view x = [x] :=
  List.splitOnP_eq_singleton fun c hc => beq_eq_false_iff_ne.mpr (hx c hc)

theorem contents_cut (hx : ∀ d ∈ x, view.char d ≠ '\n')
    (hc : view.char c = '\n') : contents view (x ++ c :: y) = x :: contents view y :=
  List.splitOnP_append_cons_of_forall_mem (fun d hd => beq_eq_false_iff_ne.mpr (hx d hd)) c
    (beq_iff_eq.mpr hc) y

theorem contents_append (hx : ∀ c ∈ x, view.char c ≠ '\n') (y : List α) :
    contents view (x ++ y) = (contents view y).modifyHead (x ++ ·) := by
  induction x with
  | nil =>
    rw [List.nil_append]
    cases contents view y <;> rfl
  | cons c x ih =>
    obtain ⟨hc, hx⟩ := List.forall_mem_cons.mp hx
    have hrest := ih hx
    unfold contents at *
    rw [List.cons_append, List.splitOnP_cons_eq_if_modifyHead,
      if_neg (by rw [beq_iff_eq]; exact hc), hrest, List.modifyHead_modifyHead]
    rfl

theorem forall_contents_append (happend : ∀ x y, P x → P y → P (x ++ y))
     (hx : ∀ c ∈ x, view.char c ≠ '\n') (hPx : P x) (hPe : P [e])
    (hy : ∀ line ∈ contents view y, P line) : ∀ line ∈ contents view (x ++ e :: y), P line := by
  by_cases he : view.char e = '\n'
  · rw [contents_cut hx he]
    exact List.forall_mem_cons.mpr ⟨hPx, hy⟩
  · have hfront : ∀ c ∈ x ++ [e], view.char c ≠ '\n' :=
      List.forall_mem_append.mpr ⟨hx, List.forall_mem_singleton.mpr he⟩
    obtain ⟨line, rest, hcontents⟩ := List.exists_cons_of_ne_nil
      (List.splitOnP_ne_nil (fun c ↦ view.char c == '\n') y)
    have hlines : contents view y = line :: rest := hcontents
    rw [List.append_cons, contents_append hfront, hlines]
    rw [hlines] at hy
    obtain ⟨hline, hrest⟩ := List.forall_mem_cons.mp hy
    exact List.forall_mem_cons.mpr ⟨happend _ _ (happend _ _ hPx hPe) hline, hrest⟩

/-! ## Joined lines -/

theorem joinFrom_append {xs ys : List (List α)}
    (hcomment : isComment view blank line = false) (hcontinues : continues view line = false) :
    joinFrom view blank front (xs ++ line :: ys) =
      joinFrom view blank front (xs ++ [line]) ++ joinFrom view blank none ys := by
  induction xs generalizing front with
  | nil =>
    simp only [List.nil_append, joinFrom, hcomment, hcontinues, Bool.false_eq_true, if_false]
    rfl
  | cons x xs ih =>
    rw [List.cons_append, List.cons_append, joinFrom, joinFrom]
    split
    · exact ih
    · split
      · exact ih
      · rw [ih, List.cons_append]

theorem joinFrom_cons {rest : List (List α)}
    (hcomment : isComment view blank line = false) (hcontinues : continues view line = false) :
    joinFrom view blank none (line :: rest) = line :: joinFrom view blank none rest := by
  rw [joinFrom, hcomment, hcontinues, if_neg Bool.false_ne_true, if_neg Bool.false_ne_true]
  rfl

theorem forall_mem_joinFrom (happend : ∀ x y, P x → P y → P (x ++ y))
    (hcontinued : ∀ line, P line → P (line.dropLast ++ [view.space]))
    (hfront : ∀ x ∈ front, P x) (hls : ∀ line ∈ ls, P line) :
    ∀ line ∈ joinFrom view blank front ls, P line := by
  have hadd : ∀ {front : Option (List α)} {line}, (∀ x ∈ front, P x) → P line →
      P (front.getD [] ++ line) := by
    intro front line hfront hline
    cases front with
    | none => exact hline
    | some x => exact happend x line (hfront x rfl) hline
  induction ls generalizing front with
  | nil =>
    intro line hline
    exact hfront line (Option.mem_toList.mp hline)
  | cons line rest ih =>
    obtain ⟨hline, hrest⟩ := List.forall_mem_cons.mp hls
    rw [joinFrom]
    split
    · exact ih hfront hrest
    · split
      · apply ih _ hrest
        rintro x ⟨⟩
        exact hadd hfront (hcontinued line hline)
      · exact List.forall_mem_cons.mpr ⟨hadd hfront hline, ih nofun hrest⟩

theorem joinFrom_concat_nil (front : Option (List α)) (ls : List (List α)) :
    joinFrom view blank front (ls ++ [[]]) = joinFrom view blank front ls ∨
      joinFrom view blank front (ls ++ [[]]) = joinFrom view blank front ls ++ [[]] := by
  induction ls generalizing front with
  | nil =>
    cases front with
    | none => exact .inr rfl
    | some x =>
      left
      show [x ++ []] = [x]
      rw [List.append_nil]
  | cons line rest ih =>
    rw [List.cons_append, joinFrom, joinFrom]
    split
    · exact ih front
    · split
      · exact ih _
      · exact (ih none).imp (congrArg _) (congrArg _)

/-! ## Reading line after line -/

theorem readFrom_append (xs ys : List (List α)) :
    readFrom view blank current (xs ++ ys) =
      readFrom view blank current xs ++ readFrom view blank (sectionAfter view blank current xs) ys := by
  induction xs generalizing current with
  | nil => rfl
  | cons x xs ih =>
    rw [List.cons_append, readFrom, readFrom, sectionAfter, List.foldl_cons, next]
    cases kind view blank x with
    | header name => exact ih
    | assignment left value => exact congrArg _ ih
    | other => exact ih

theorem readFrom_other (h : ∀ line ∈ ls, kind view blank line = .other) :
    readFrom view blank current ls = [] ∧ sectionAfter view blank current ls = current := by
  induction ls with
  | nil => exact ⟨rfl, rfl⟩
  | cons line rest ih =>
    obtain ⟨hline, hrest⟩ := List.forall_mem_cons.mp h
    rw [readFrom, sectionAfter, List.foldl_cons, next, hline]
    exact ih hrest

theorem sectionAfter_cases (current : Option (List α)) (ls : List (List α)) :
    sectionAfter view blank current ls = current ∨ ∃ line ∈ ls, ∃ name,
      kind view blank line = .header name ∧ sectionAfter view blank current ls = some name := by
  induction ls generalizing current with
  | nil => exact .inl rfl
  | cons line rest ih =>
    have hstep : sectionAfter view blank current (line :: rest) =
        sectionAfter view blank (next view blank current line) rest := rfl
    rw [hstep]
    rcases ih (next view blank current line) with h | ⟨line', hline, name, hkind, h⟩
    · rw [h]
      unfold next
      cases hkind : kind view blank line with
      | header name => exact .inr ⟨line, List.mem_cons_self, name, hkind, rfl⟩
      | assignment => exact .inl rfl
      | other => exact .inl rfl
    · exact .inr ⟨line', List.mem_cons_of_mem _ hline, name, hkind, h⟩

theorem header_ne_none (ls : List (List α)) :
    ∀ a ∈ readFrom view blank (some name) ls, a.header ≠ none := by
  induction ls generalizing name with
  | nil => exact List.forall_mem_nil _
  | cons line rest ih =>
    rw [readFrom]
    cases kind view blank line with
    | header name => exact ih
    | assignment left value => exact List.forall_mem_cons.mpr ⟨Option.some_ne_none name, ih⟩
    | other => exact ih

theorem readFrom_some (h : ∀ a ∈ readFrom view blank none ls, a.header ≠ none) :
    readFrom view blank (some name) ls = readFrom view blank none ls := by
  induction ls with
  | nil => rfl
  | cons line rest ih =>
    rw [readFrom] at h
    rw [readFrom, readFrom]
    cases hkind : kind view blank line with
    | header name => rfl
    | assignment left value =>
      rw [hkind] at h
      exact (h _ List.mem_cons_self rfl).elim
    | other =>
      rw [hkind] at h
      exact ih h

/-! ## One line -/

theorem kind_other (hopen : ∀ c ∈ line, view.char c ≠ '[')
    (hequals : ∀ c ∈ line, view.char c ≠ '=') : kind view blank line = .other := by
  have htrim : trim view blank line <:+ line := List.dropWhile_suffix _
  have hstripped := (List.rdropWhile_prefix (fun c ↦ blank (view.char c))
    (l := trim view blank line)).subset
  have hbracketed : ¬ isBracketed view
      ((trim view blank line).rdropWhile fun c ↦ blank (view.char c)) = true := by
    unfold isBracketed
    rw [Bool.and_eq_true, Option.any_eq_true]
    rintro ⟨⟨c, hc, hbracket⟩, -⟩
    exact hopen c (htrim.subset (hstripped (List.mem_of_mem_head? hc))) (of_decide_eq_true hbracket)
  have hnone : (trim view blank line).dropWhile (fun c ↦ view.char c ≠ '=') = [] := by
    rw [List.dropWhile_eq_nil_iff]
    exact fun c hc => decide_eq_true (hequals c (htrim.subset hc))
  unfold kind kindOf
  dsimp only
  rw [if_neg hbracketed, hnone]
  split
  · rename_i hcons
    cases hcons
  · rfl

theorem kind_assignment (hblank : blank (view.char c) = false)
    (hopen : view.char c ≠ '[') (hleft : ∀ d ∈ c :: left, view.char d ≠ '=')
    (he : view.char e = '=') :
    kind view blank (c :: left ++ e :: value) = .assignment (c :: left) value := by
  have htrim : trim view blank (c :: left ++ e :: value) = c :: left ++ e :: value :=
    List.dropWhile_cons_of_neg (by rw [hblank]; exact Bool.false_ne_true)
  have hbracketed : ¬ isBracketed view
      ((c :: left ++ e :: value).rdropWhile fun c ↦ blank (view.char c)) = true := by
    have hahead := List.rdropWhile_prefix (fun c ↦ blank (view.char c))
      (l := c :: left ++ e :: value)
    unfold isBracketed
    cases hrest : (c :: left ++ e :: value).rdropWhile fun c ↦ blank (view.char c) with
    | nil => exact Bool.false_ne_true
    | cons d rest =>
      rw [hrest, List.cons_append, List.cons_prefix_cons] at hahead
      rw [hahead.1, List.head?_cons, Option.any_some, Bool.and_eq_true, decide_eq_true_eq]
      exact fun h => hopen h.1
  have hkept : ∀ d ∈ c :: left, decide (view.char d ≠ '=') = true := fun d hd =>
    decide_eq_true (hleft d hd)
  have hstop : ¬ decide (view.char e ≠ '=') = true := by
    rw [he]
    decide
  unfold kind kindOf
  dsimp only
  rw [htrim, if_neg hbracketed, List.takeWhile_append_of_pos hkept, List.dropWhile_append_of_pos hkept,
    List.takeWhile_cons, List.dropWhile_cons, if_neg hstop, if_neg hstop, List.append_nil]

theorem eq_of_kind_header (h : kind view blank line = .header name) :
    ∃ front opening closing back, line = front ++ opening :: (name ++ closing :: back) ∧
      view.char opening = '[' ∧ ∀ c ∈ front, blank (view.char c) = true := by
  unfold kind kindOf at h
  dsimp only at h
  split at h
  · rename_i hbracketed
    cases h
    obtain ⟨back, hback⟩ := List.rdropWhile_prefix (fun c ↦ blank (view.char c))
      (l := trim view blank line)
    have hline : line.takeWhile (fun c ↦ blank (view.char c)) ++ trim view blank line = line :=
      List.takeWhile_append_dropWhile
    generalize (trim view blank line).rdropWhile (fun c ↦ blank (view.char c)) = stripped at *
    unfold isBracketed at hbracketed
    rw [Bool.and_eq_true, Option.any_eq_true, Option.any_eq_true] at hbracketed
    obtain ⟨⟨opening, hopening, hopen⟩, closing, hclosing, hclose⟩ := hbracketed
    rw [decide_eq_true_eq] at hopen hclose
    cases stripped with
    | nil => cases hopening
    | cons c rest =>
      cases hopening
      rcases List.eq_nil_or_concat rest with rfl | ⟨inner, d, rfl⟩
      · rw [List.getLast?_singleton] at hclosing
        rw [← Option.some.inj hclosing, hopen] at hclose
        cases hclose
      · refine ⟨line.takeWhile fun c ↦ blank (view.char c), _, d, back, ?_, hopen, ?_⟩
        · rw [List.concat_eq_append, List.cons_append, List.append_assoc] at hback
          rw [List.concat_eq_append, List.drop_one, List.tail_cons, List.dropLast_concat,
            ← List.singleton_append (x := d), hback]
          exact hline.symm
        · exact fun c hc => List.mem_takeWhile_imp (p := fun c ↦ blank (view.char c)) hc
  · split at h <;> cases h

theorem eq_of_kind (h : kind view blank line = .assignment left value) :
    ∃ front e, line = front ++ (left ++ e :: value) ∧ view.char e = '=' ∧
      (∀ c ∈ front, blank (view.char c) = true) ∧ ∀ c ∈ left, view.char c ≠ '=' := by
  unfold kind kindOf at h
  dsimp only at h
  split at h
  · cases h
  · split at h
    · rename_i c left' e value' htake hdrop
      cases h
      refine ⟨line.takeWhile fun c ↦ blank (view.char c), e, ?_, ?_, ?_, ?_⟩
      · rw [← htake, ← hdrop, List.takeWhile_append_dropWhile]
        exact List.takeWhile_append_dropWhile.symm
      · have hhead := List.head?_dropWhile_not (fun c ↦ decide (view.char c ≠ '='))
          (trim view blank line)
        rw [hdrop] at hhead
        simpa using hhead
      · exact fun c hc => List.mem_takeWhile_imp (p := fun c ↦ blank (view.char c)) hc
      · rw [← htake]
        intro c hc
        have hkept := List.mem_takeWhile_imp (p := fun c ↦ decide (view.char c ≠ '=')) hc
        exact of_decide_eq_true hkept
    · cases h

theorem exists_line {a : Assignment α} (h : a ∈ readFrom view blank current ls) :
    ∃ line ∈ ls, kind view blank line = .assignment a.left a.value := by
  induction ls generalizing current with
  | nil => cases h
  | cons line rest ih =>
    rw [readFrom] at h
    cases hkind : kind view blank line with
    | header name =>
      rw [hkind] at h
      obtain ⟨line', hline, hread⟩ := ih h
      exact ⟨line', List.mem_cons_of_mem _ hline, hread⟩
    | other =>
      rw [hkind] at h
      obtain ⟨line', hline, hread⟩ := ih h
      exact ⟨line', List.mem_cons_of_mem _ hline, hread⟩
    | assignment left value =>
      rw [hkind] at h
      rcases List.mem_cons.mp h with rfl | hrest
      · exact ⟨line, List.mem_cons_self, hkind⟩
      · obtain ⟨line', hline, hread⟩ := ih hrest
        exact ⟨line', List.mem_cons_of_mem _ hline, hread⟩

/-! ## A text in front of the marks -/

def Assignment.plain (a : Assignment (Char × Bool)) : Assignment Char where
  header := a.header.map Marked.plain
  left := Marked.plain a.left
  value := Marked.plain a.value

def Assignment.insert (p : List Char) (a : Assignment (Char × Bool)) : Assignment Char where
  header := a.header.map (Marked.insert p)
  left := Marked.insert p a.left
  value := Marked.insert p a.value

def Kind.insert (p : List Char) : Kind (Char × Bool) → Kind Char
  | .header name => .header (Marked.insert p name)
  | .assignment left value => .assignment (Marked.insert p left) (Marked.insert p value)
  | .other => .other

/-- A mark stands in a value, at a character that means nothing to the format. -/
def Sound (blank : Char → Bool) (line : List (Char × Bool)) : Prop :=
  Guarded (fun x c ↦ '=' ∈ x ∧ blank c = false ∧ c ∉ ['\n', '\\', ']']) line

section

variable {p : List Char} {line : List (Char × Bool)}
variable {ls : List (List (Char × Bool))} {m : List (Char × Bool)}

theorem Sound.append {line' : List (Char × Bool)} (h : Sound blank line) (h' : Sound blank line') :
    Sound blank (line ++ line') :=
  Guarded.append (fun x _ _ hc => ⟨List.mem_append_right x hc.1, hc.2⟩) h h'

theorem Sound.dropLast (h : Sound blank line) : Sound blank line.dropLast := by
  obtain ⟨z, hz⟩ := List.dropLast_prefix line
  rw [← hz] at h
  exact h.of_append

theorem Sound.continued (h : Sound blank line) : Sound blank (line.dropLast ++ [View.marked.space]) :=
  h.dropLast.append (Clear.guarded (List.forall_mem_singleton.mpr rfl))

theorem Sound.mark (h : Sound blank line) {e : Char × Bool} (he : e ∈ line) (hmark : e.2 = true) :
    blank e.1 = false ∧ e.1 ∉ ['\n', '\\', ']'] := by
  obtain ⟨c, mark⟩ := e
  cases hmark
  obtain ⟨x, y, rfl⟩ := List.append_of_mem he
  exact (h x c y rfl).2

variable (hequals : blank '=' = false)

include hequals

theorem Sound.trim (h : Sound blank line) : Sound blank (trim View.marked blank line) := by
  have hsplit : line.takeWhile (fun e ↦ blank e.1) ++ UnitFile.trim View.marked blank line = line :=
    List.takeWhile_append_dropWhile
  rw [← hsplit] at h
  refine Guarded.mono h.behind fun x c hc => ⟨?_, hc.2⟩
  rcases List.mem_append.mp hc.1 with hmem | hmem
  · obtain ⟨e, he, heq⟩ := List.mem_map.mp hmem
    have hblank : blank e.1 = true := List.mem_takeWhile_imp (p := fun e : Char × Bool ↦ blank e.1) he
    rw [heq, hequals] at hblank
    cases hblank
  · exact hmem

theorem trim_insert (h : Sound blank line) :
    trim View.text blank (Marked.insert p line) =
      Marked.insert p (trim View.marked blank line) := by
  have hguarded := Guarded.mono h fun x c hc =>
    (⟨'=', hc.1, hequals⟩ : ∃ d ∈ x, blank d = false)
  exact (takeWhile_insert hguarded).2.2

omit hequals in
theorem head?_insert (h : Sound blank line) :
    (Marked.insert p line).head? = line.head?.map Prod.fst := by
  cases line with
  | nil => rfl
  | cons e line =>
    obtain ⟨c, mark⟩ := e
    cases mark with
    | false => rfl
    | true => cases (h [] c line rfl).1

theorem isComment_insert (h : Sound blank line) :
    isComment View.text blank (Marked.insert p line) = isComment View.marked blank line := by
  unfold isComment
  rw [trim_insert hequals h, head?_insert (h.trim hequals), Option.any_map]
  rfl

omit hequals in
theorem continues_insert :
    continues View.text (Marked.insert p line) = continues View.marked line := by
  unfold continues
  rw [getLast?_insert, Option.any_map]
  rfl

omit hequals in
theorem dropLast_insert_of_mark (h : ∀ e ∈ line.getLast?, e.2 = false) :
    (Marked.insert p line).dropLast = Marked.insert p line.dropLast := by
  rcases List.eq_nil_or_concat line with rfl | ⟨z, e, rfl⟩
  · rfl
  · rw [List.concat_eq_append] at *
    rw [List.dropLast_concat]
    exact dropLast_insert (h e List.getLast?_concat)

omit hequals in
theorem isBracketed_insert (h : Sound blank line) :
    isBracketed View.text (Marked.insert p line) = isBracketed View.marked line := by
  unfold isBracketed
  rw [head?_insert h, getLast?_insert, Option.any_map, Option.any_map]
  rfl

omit hequals in
theorem name_insert (h : Sound blank line) (hbracketed : isBracketed View.marked line = true) :
    ((Marked.insert p line).drop 1).dropLast = Marked.insert p (line.drop 1).dropLast := by
  unfold isBracketed at hbracketed
  rw [Bool.and_eq_true, Option.any_eq_true, Option.any_eq_true] at hbracketed
  obtain ⟨-, last, hlast, hclose⟩ := hbracketed
  cases line with
  | nil => rfl
  | cons e line =>
    obtain ⟨c, mark⟩ := e
    cases mark with
    | true => cases (h [] c line rfl).1
    | false =>
      apply dropLast_insert_of_mark
      intro e he
      have heq : e = last := by
        have hcons := List.getLast?_cons (a := (c, false)) (l := line)
        rw [hlast, Option.mem_def.mp he] at hcons
        exact (Option.some.inj hcons).symm
      rw [← Bool.not_eq_true]
      intro hmark
      have hmem := (h.mark (List.mem_cons_of_mem _ (List.mem_of_getLast? he)) hmark).2
      rw [heq] at hmem
      apply hmem
      rw [show last.1 = ']' from of_decide_eq_true hclose]
      decide

theorem kind_insert (h : Sound blank line) :
    kind View.text blank (Marked.insert p line) = (kind View.marked blank line).insert p := by
  unfold kind
  rw [trim_insert hequals h]
  have hsound := h.trim hequals
  generalize UnitFile.trim View.marked blank line = l at hsound
  -- the blanks at both ends have no mark, and nothing up to the first equals sign has one
  have hstripped : (Marked.insert p l).rdropWhile (fun c ↦ blank (View.text.char c)) =
      Marked.insert p (l.rdropWhile fun e ↦ blank (View.marked.char e)) :=
    rdropWhile_insert fun e he hmark => (hsound.mark he hmark).1
  have hfirst : Sound blank (l.rdropWhile fun e ↦ blank (View.marked.char e)) := by
    obtain ⟨z, hz⟩ := List.rdropWhile_prefix (fun e ↦ blank (View.marked.char e)) (l := l)
    have hwhole := hsound
    rw [← hz] at hwhole
    exact hwhole.of_append
  have hguarded := Guarded.mono hsound fun x c hc =>
    (⟨'=', hc.1, by decide⟩ : ∃ d ∈ x, decide (d ≠ '=') = false)
  obtain ⟨hclear, htake, hdrop⟩ := takeWhile_insert (p := p) hguarded
  have htake' : (Marked.insert p l).takeWhile (fun c ↦ View.text.char c ≠ '=') =
    Marked.plain (l.takeWhile fun e ↦ View.marked.char e ≠ '=') := htake
  have hdrop' : (Marked.insert p l).dropWhile (fun c ↦ View.text.char c ≠ '=') =
    Marked.insert p (l.dropWhile fun e ↦ View.marked.char e ≠ '=') := hdrop
  have hsplit : l.takeWhile (fun e ↦ View.marked.char e ≠ '=') ++
      l.dropWhile (fun e ↦ View.marked.char e ≠ '=') = l := List.takeWhile_append_dropWhile
  unfold kindOf
  dsimp only
  rw [hstripped, isBracketed_insert hfirst, htake', hdrop']
  -- a header is read between its brackets, an assignment is cut at the sign
  by_cases hbracketed :
      isBracketed View.marked (l.rdropWhile fun e ↦ blank (View.marked.char e)) = true
  · rw [if_pos hbracketed, if_pos hbracketed, name_insert hfirst hbracketed]
    rfl
  · rw [if_neg hbracketed, if_neg hbracketed]
    have hleft : '=' ∉ Marked.plain (l.takeWhile fun e ↦ View.marked.char e ≠ '=') := by
      intro hmem
      obtain ⟨e, he, heq⟩ := List.mem_map.mp hmem
      have hkept := List.mem_takeWhile_imp (p := fun e ↦ decide (View.marked.char e ≠ '=')) he
      exact of_decide_eq_true hkept heq
    have hclear' : Clear (l.takeWhile fun e ↦ View.marked.char e ≠ '=') := hclear
    generalize l.takeWhile (fun e ↦ View.marked.char e ≠ '=') = left at *
    generalize l.dropWhile (fun e ↦ View.marked.char e ≠ '=') = rest at *
    rw [← hclear'.insert (p := p)]
    cases left with
    | nil => rfl
    | cons d left =>
      cases rest with
      | nil =>
        rw [hclear'.insert]
        rfl
      | cons e value =>
        obtain ⟨c, mark⟩ := e
        cases mark with
        | false =>
          rw [hclear'.insert, plain_cons, insert_cons_false]
          have hinsert := hclear'.insert (p := p)
          rw [plain_cons] at hinsert
          show Kind.assignment _ _ = Kind.assignment _ _
          rw [hinsert]
        | true => exact (hleft (hsound _ c value hsplit.symm).1).elim

theorem readFrom_insert (current : Option (List (Char × Bool)))
    (h : ∀ line ∈ ls, Sound blank line) :
    readFrom View.text blank (current.map (Marked.insert p)) (ls.map (Marked.insert p)) =
        (readFrom View.marked blank current ls).map (Assignment.insert p) ∧
      sectionAfter View.text blank (current.map (Marked.insert p)) (ls.map (Marked.insert p)) =
        (sectionAfter View.marked blank current ls).map (Marked.insert p) := by
  induction ls generalizing current with
  | nil => exact ⟨rfl, rfl⟩
  | cons line rest ih =>
    obtain ⟨hline, hrest⟩ := List.forall_mem_cons.mp h
    rw [List.map_cons, readFrom, readFrom, sectionAfter, sectionAfter, List.foldl_cons,
      List.foldl_cons, next, next, kind_insert hequals hline]
    cases kind View.marked blank line with
    | header name => exact ih (some name) hrest
    | assignment left value =>
      obtain ⟨hread, hsection⟩ := ih current hrest
      exact ⟨congrArg _ hread, hsection⟩
    | other => exact ih current hrest

theorem joinFrom_insert (front : Option (List (Char × Bool))) (h : ∀ line ∈ ls, Sound blank line) :
    joinFrom View.text blank (front.map (Marked.insert p)) (ls.map (Marked.insert p)) =
      (joinFrom View.marked blank front ls).map (Marked.insert p) := by
  have hfront : ∀ front : Option (List (Char × Bool)),
      (front.map (Marked.insert p)).getD [] = Marked.insert p (front.getD []) := by
    rintro (_ | x) <;> rfl
  induction ls generalizing front with
  | nil => cases front <;> rfl
  | cons line rest ih =>
    obtain ⟨hline, hrest⟩ := List.forall_mem_cons.mp h
    rw [List.map_cons, joinFrom, joinFrom, isComment_insert hequals hline, continues_insert]
    split
    · exact ih front hrest
    · split
      · rename_i hcontinues
        have hlast : ∀ e ∈ line.getLast?, e.2 = false := by
          intro e he
          rw [← Bool.not_eq_true]
          intro hmark
          have hmem := (hline.mark (List.mem_of_getLast? he) hmark).2
          unfold continues at hcontinues
          rw [Option.mem_def.mp he, Option.any_some] at hcontinues
          apply hmem
          rw [show e.1 = '\\' from of_decide_eq_true hcontinues]
          decide
        rw [← ih _ hrest, hfront, dropLast_insert_of_mark hlast, Option.map_some, insert_append,
          insert_append]
        rfl
      · rw [List.map_cons, ← ih none hrest, hfront, insert_append]
        rfl

omit hequals in
theorem contents_insert (hp : '\n' ∉ p) (hm : ∀ e ∈ m, e.2 = true → e.1 ≠ '\n') :
    contents View.text (Marked.insert p m) = (contents View.marked m).map (Marked.insert p) := by
  apply splitOnP_insert
  · rintro c hc
    rw [beq_eq_false_iff_ne]
    rintro rfl
    exact hp hc
  · exact fun e he hmark => beq_eq_false_iff_ne.mpr (hm e he hmark)

theorem read_insert (hp : '\n' ∉ p)
    (hm : ∀ e ∈ m, e.2 = true → e.1 ≠ '\n') (h : ∀ line ∈ contents View.marked m, Sound blank line) :
    read View.text blank (Marked.insert p m) =
      (read View.marked blank m).map (Assignment.insert p) := by
  have hjoin := joinFrom_insert (p := p) hequals none h
  have hjoined : ∀ line ∈ joinFrom View.marked blank none (contents View.marked m),
      Sound blank line :=
    forall_mem_joinFrom (fun _ _ => Sound.append) (fun _ => Sound.continued) nofun h
  unfold read
  rw [contents_insert hp hm]
  rw [Option.map_none] at hjoin
  rw [hjoin]
  exact (readFrom_insert hequals none hjoined).1

omit hequals in
theorem Assignment.insert_nil (a : Assignment (Char × Bool)) : a.insert [] = a.plain := by
  unfold Assignment.insert Assignment.plain
  rw [Marked.insert_nil, Marked.insert_nil]
  congr 2
  exact funext fun _ => Marked.insert_nil

end

end UnitFile
