import NixNas.Compose.Rewriting

/-!
# References between the files of a bundle

What the names in an assignment refer to, and which of them the rewriting finds.
-/

open Fallible Lines Marked UnitFile

namespace NixNas.Compose

open Network Reconcile
open Caddy (isSpace)

/-! ## What an assignment refers to -/

def isBlank (c : Char) : Bool := [' ', '\t', '\n', '\r'].contains c

def assignments (text : Text) : List (Assignment Char) := read View.text isBlank text

def unitSection : Text := "Unit".toList

def networkKey : Text := "Network".toList

def dependencyKeys : List Text := ["Requires", "After", "Wants", "BindsTo"].map String.toList

def isRelationship (a : Assignment Char) : Bool :=
  a.header.any (· ∈ quadletSections) && baseKey (a.key isBlank) ∈ referenceFields

def isDependency (a : Assignment Char) : Bool :=
  a.header = some unitSection && a.key isBlank ∈ dependencyKeys

def takesOptions (a : Assignment Char) : Bool :=
  baseKey (a.key isBlank) = volumeKey || baseKey (a.key isBlank) = networkKey

def generatedUnit (name : Text) : Option Text :=
  (splitName name).map fun split ↦ split.1 ++ (match split.2 with
    | .container | .kube => ".service".toList
    | .pod => "-pod.service".toList
    | .network => "-network.service".toList
    | .volume => "-volume.service".toList
    | .build => "-build.service".toList
    | .image => "-image.service".toList)

section

variable (serviceId : Text) (names : List Text) (a : Assignment Char)

def referenceOf (word : Text) : Text := if takesOptions a then word.takeWhile (· ≠ ':') else word

/-- What a word has to become: the new name of the file with the options behind it, or the unit of
the file with the new name. -/
def target (word : Text) : Text :=
  if isRelationship a then
    if referenceOf a word ∈ names then
      namespaced serviceId (referenceOf a word) ++ word.drop (referenceOf a word).length
    else word
  else if isDependency a then
    match names.find? (generatedUnit · = some word) with
    | some name => (generatedUnit (namespaced serviceId name)).getD word
    | none => word
  else word

def renamed : Assignment Char :=
  { a with value := mapWords isBlank (target serviceId names a) a.value }

def refersTo (word : Text) : Bool :=
  if isRelationship a then referenceOf a word ∈ names
  else isDependency a && names.any (generatedUnit · = some word)

end

/-! ## What the rewriting sees -/

section

variable (names : List Text)

def namesFile (volume : Bool) (word : Text) : Bool :=
  (if volume then word.takeWhile (· ≠ ':') else word) ∈ names

def nextSection (current : Option Text) (line : Text) : Option Text :=
  (sectionName line).or current

/-- The line with a mark at every word that the rewriting takes for the name of a file. -/
def seenLine (current : Option Text) (line : Text) : List (Char × Bool) :=
  match sectionName line, matchAssignment line with
  | none, some (indent, key, value) =>
    if baseKey key ∈ referenceFields ∧ current.any (· ∈ quadletSections) then
      unmarked (indent ++ (key ++ ['='])) ++
        markWords isSpace (namesFile names (baseKey key = volumeKey)) value
    else unmarked line
  | _, _ => unmarked line

def seenLines (current : Option Text) : List Line → List (Char × Bool)
  | [] => []
  | line :: rest =>
    seenLine names current line.content ++ (unmarked line.ending ++
      seenLines (nextSection current line.content) rest)

def seenAssignments (text : Text) : List (Assignment (Char × Bool)) :=
  read View.marked isBlank (seenLines names none (lines text))

/-- The rewriting sees files in the assignment exactly where it refers to files or units of the
bundle, and none in the header of its section. -/
structure Found (a : Assignment (Char × Bool)) : Prop where
  header : ∀ name ∈ a.header, Clear name
  value : a.value = markWords isBlank (refersTo names a.plain) a.plain.value

end

/-! ## Names -/

variable {c : Char}

theorem isSpace_of_isAlphanum (h : c.isAlphanum = true) : isSpace c = false := by
  have hrange : 48 ≤ c.toNat ∧ c.toNat ≤ 57 ∨ 65 ≤ c.toNat ∧ c.toNat ≤ 90 ∨
      97 ≤ c.toNat ∧ c.toNat ≤ 122 := by
    unfold Char.isAlphanum Char.isAlpha Char.isUpper Char.isLower Char.isDigit at h
    simp only [Bool.or_eq_true, Bool.and_eq_true, decide_eq_true_eq, ge_iff_le,
      UInt32.le_iff_toNat_le] at h
    have htoNat : c.toNat = c.val.toNat := rfl
    simp at h
    omega
  unfold isSpace
  simp
  omega

theorem isSpace_of_isBreak (h : isBreak c = true) : isSpace c = true := by
  unfold isBreak at h
  rw [decide_eq_true_eq] at h
  have hall : ∀ d ∈ ['\n', '\r', '\x0b', '\x0c', '\x1c', '\x1d', '\x1e', '\x85', '\u2028', '\u2029'],
      isSpace d = true := forall_mem_of_all (by decide)
  exact hall c h

/-- A text that may stand in a name of the bundle. -/
def IsPlain (t : Text) : Prop := ∀ c ∈ t, safeChar c = true

theorem safeChar_spec (h : safeChar c = true) :
    isSpace c = false ∧ isBreak c = false ∧ c ≠ ':' ∧ c ≠ '=' := by
  have hspace : isSpace c = false := by
    unfold safeChar at h
    rw [Bool.or_eq_true, List.contains_iff_mem] at h
    rcases h with h | h
    · exact isSpace_of_isAlphanum h
    · have hall : ∀ d ∈ ['_', '.', '-'], isSpace d = false := forall_mem_of_all (by decide)
      exact hall c h
  refine ⟨hspace, ?_, ?_, ?_⟩
  · by_contra hbreak
    rw [isSpace_of_isBreak (Bool.not_eq_false _ ▸ hbreak)] at hspace
    cases hspace
  · rintro rfl
    revert h
    decide
  · rintro rfl
    revert h
    decide

section

variable {serviceId : Text} {names : List Text} {a : Assignment Char} {word : Text}
variable {left : Text}

theorem mem_namespaced {P : Char → Prop} (hid : ∀ c ∈ serviceId, P c)
    (hfirst : ∀ c ∈ "nas-v2-".toList, P c) (hdash : P '-') (hword : ∀ c ∈ word, P c) :
    ∀ c ∈ namespaced serviceId word, P c := by
  unfold namespaced
  rw [List.forall_mem_append, List.forall_mem_append, List.forall_mem_cons]
  exact ⟨⟨hfirst, hid⟩, hdash, hword⟩

theorem lookup_mappingOf : (mappingOf serviceId names).lookup word =
    if word ∈ names then some (namespaced serviceId word) else none := by
  unfold mappingOf
  induction names with
  | nil => rfl
  | cons name names ih =>
    rw [List.map_cons, List.lookup_cons, ih]
    by_cases h : word = name
    · rw [h, beq_self_eq_true, if_pos List.mem_cons_self]
    · rw [beq_eq_false_iff_ne.mpr h]
      simp only [List.mem_cons, h, false_or]

theorem takeWhile_append_suffix :
    namespaced serviceId (word.takeWhile (· ≠ ':')) ++ word.dropWhile (· ≠ ':') =
      namespaced serviceId word := by
  unfold namespaced
  rw [List.append_assoc, List.cons_append, List.takeWhile_append_dropWhile]

theorem rewriteReferenceToken_eq (volume : Bool) :
    rewriteReferenceToken (mappingOf serviceId names) volume word =
      if (if volume then word.takeWhile (· ≠ ':') else word) ∈ names then namespaced serviceId word
      else word := by
  unfold rewriteReferenceToken Mapping.get
  cases volume with
  | true =>
    rw [if_pos rfl, if_pos rfl, lookup_mappingOf]
    split
    · exact takeWhile_append_suffix
    · exact List.takeWhile_append_dropWhile
  | false =>
    rw [if_neg Bool.false_ne_true, if_neg Bool.false_ne_true, lookup_mappingOf]
    split <;> rfl

theorem generatedUnit_namespaced {name : Text} (h : generatedUnit name = some word) :
    generatedUnit (namespaced serviceId name) = some (namespaced serviceId word) := by
  unfold generatedUnit at h ⊢
  obtain ⟨⟨stem, suffix⟩, hsplit, rfl⟩ := Option.map_eq_some_iff.mp h
  obtain ⟨rfl, -⟩ := splitName_eq_some.mp hsplit
  have hname : namespaced serviceId (stem ++ '.' :: suffix.ext) =
      namespaced serviceId stem ++ '.' :: suffix.ext := by
    unfold namespaced
    simp only [List.append_assoc, List.cons_append]
  have hne : namespaced serviceId stem ≠ [] := by
    unfold namespaced
    simp
  rw [splitName_eq_some.mpr ⟨hname, hne⟩]
  unfold namespaced
  simp only [Option.map_some, List.append_assoc, List.cons_append]

theorem target_eq : target serviceId names a word =
    if refersTo names a word then namespaced serviceId word else word := by
  unfold target refersTo
  by_cases hrelationship : isRelationship a = true
  · rw [if_pos hrelationship, if_pos hrelationship]
    simp only [decide_eq_true_eq]
    split
    · unfold referenceOf
      split
      · have hdrop : word.drop (word.takeWhile (· ≠ ':')).length = word.dropWhile (· ≠ ':') :=
          calc word.drop (word.takeWhile (· ≠ ':')).length
            _ = (word.takeWhile (· ≠ ':') ++ word.dropWhile (· ≠ ':')).drop
                  (word.takeWhile (· ≠ ':')).length := by rw [List.takeWhile_append_dropWhile]
            _ = word.dropWhile (· ≠ ':') := List.drop_left
        rw [hdrop]
        exact takeWhile_append_suffix
      · rw [List.drop_length, List.append_nil]
    · rfl
  · rw [if_neg hrelationship, if_neg hrelationship]
    cases isDependency a with
    | false => rfl
    | true =>
      rw [if_pos rfl, Bool.true_and]
      cases hfound : names.find? (generatedUnit · = some word) with
      | none =>
        rw [List.find?_eq_none] at hfound
        rw [if_neg]
        rw [List.any_eq_true]
        rintro ⟨name, hname, hunit⟩
        exact hfound name hname hunit
      | some found =>
        have hunit := List.find?_some hfound
        have hany : names.any (generatedUnit · = some word) = true :=
          List.any_eq_true.mpr ⟨found, List.mem_of_find?_eq_some hfound, hunit⟩
        dsimp only
        rw [if_pos hany, generatedUnit_namespaced (of_decide_eq_true hunit)]
        rfl

theorem safeChar_of_namesFile {volume : Bool} (hnames : ∀ name ∈ names, IsPlain name)
    (hsplit : ∀ name ∈ names, (splitName name).isSome = true)
    (h : namesFile names volume (c :: word) = true) : safeChar c = true := by
  unfold namesFile at h
  rw [decide_eq_true_eq] at h
  split at h
  · rw [List.takeWhile_cons] at h
    split at h
    · exact hnames _ h c List.mem_cons_self
    · exact absurd (hsplit _ h) (by decide)
  · exact hnames _ h c List.mem_cons_self

theorem safeChar_of_refersTo (hnames : ∀ name ∈ names, IsPlain name)
    (hsplit : ∀ name ∈ names, (splitName name).isSome = true)
    (h : refersTo names a (c :: word) = true) : safeChar c = true := by
  unfold refersTo at h
  split at h
  · have hfile : namesFile names (takesOptions a) (c :: word) = true := h
    exact safeChar_of_namesFile hnames hsplit hfile
  · rw [Bool.and_eq_true, List.any_eq_true] at h
    obtain ⟨-, name, hname, hunit⟩ := h
    rw [decide_eq_true_eq] at hunit
    unfold generatedUnit at hunit
    obtain ⟨⟨stem, suffix⟩, hsplit', heq⟩ := Option.map_eq_some_iff.mp hunit
    obtain ⟨rfl, hne⟩ := splitName_eq_some.mp hsplit'
    cases stem with
    | nil => exact (hne rfl).elim
    | cons d stem =>
      obtain ⟨rfl, -⟩ := List.cons.inj heq
      exact hnames _ hname _ List.mem_cons_self

/-! ## Keys -/

theorem baseKey_mem (h : baseKey left ∈ referenceFields) :
    left ∈ referenceFields ∨ ∃ field ∈ referenceFields, left = field ++ ['+'] := by
  unfold baseKey at h
  split at h
  · rename_i hlast
    right
    refine ⟨_, h, ?_⟩
    have hne : left ≠ [] := by
      rintro rfl
      cases hlast
    rw [List.getLast?_eq_some_getLast hne, Option.some_inj] at hlast
    rw [← hlast, List.dropLast_append_getLast hne]
  · exact .inl h

theorem forall_baseKey_mem {P : Text → Prop} (hplain : ∀ field ∈ referenceFields, P field)
    (hplus : ∀ field ∈ referenceFields, P (field ++ ['+']))
    (h : baseKey left ∈ referenceFields) : P left := by
  rcases baseKey_mem h with hmem | ⟨field, hmem, rfl⟩
  · exact hplain left hmem
  · exact hplus field hmem

end

end NixNas.Compose
