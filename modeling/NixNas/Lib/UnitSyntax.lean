import Mathlib.Data.List.Basic

/-!
# The values of unit files

What the manual pages of systemd say about a value that is a list of words: words may be wrapped in
quotes, escapes are those of C, a percent sign starts a specifier, and in the arguments of a command
a dollar sign starts a variable.  Each of them stands for itself when it is doubled.
-/

namespace UnitSyntax

/-! ## Escapes -/

/-- A character of the value, as it stands there or out of an escape. -/
inductive Sign where
  | plain (c : Char)
  | literal (c : Char)
  deriving DecidableEq, Repr

def Sign.char : Sign → Char
  | .plain c | .literal c => c

def letterEscape (c : Char) : Option Char :=
  [('a', '\x07'), ('b', '\x08'), ('f', '\x0c'), ('n', '\n'), ('r', '\r'), ('t', '\t'), ('v', '\x0b'),
    ('\\', '\\'), ('"', '"'), ('\'', '\''), ('s', ' ')].lookup c

def digitValue (c : Char) : Option ℕ :=
  if c.isDigit then some (c.toNat - '0'.toNat)
  else if 'a' ≤ c ∧ c ≤ 'f' then some (c.toNat - 'a'.toNat + 10)
  else if 'A' ≤ c ∧ c ≤ 'F' then some (c.toNat - 'A'.toNat + 10)
  else none

def number (base : ℕ) (digits : List Char) : Option ℕ :=
  digits.foldlM (fun n c ↦ do
    let d ← digitValue c
    if d < base then some (n * base + d) else none) 0

/-- The character of a number up to the bound; there is no escape for NUL. -/
def numbered (bound base : ℕ) (digits : List Char) : Option Sign := do
  let n ← number base digits
  if n ≠ 0 ∧ n ≤ bound ∧ n.isValidChar then some (.literal (Char.ofNat n)) else none

/-- The value with its escapes resolved.  A byte above ASCII is no character of its own. -/
def signs : List Char → Option (List Sign)
  | [] => some []
  | '\\' :: 'x' :: a :: b :: rest => do
    let sign ← numbered 0x7F 16 [a, b]
    let rest ← signs rest
    some (sign :: rest)
  | '\\' :: 'u' :: a :: b :: c :: d :: rest => do
    let sign ← numbered 0xFFFF 16 [a, b, c, d]
    let rest ← signs rest
    some (sign :: rest)
  | '\\' :: 'U' :: a :: b :: c :: d :: e :: f :: g :: h :: rest => do
    let sign ← numbered 0x10FFFF 16 [a, b, c, d, e, f, g, h]
    let rest ← signs rest
    some (sign :: rest)
  | '\\' :: a :: rest =>
    match letterEscape a, rest with
    | some c, rest => (signs rest).map (.literal c :: ·)
    | none, b :: c :: rest => do
      let sign ← numbered 0x7F 8 [a, b, c]
      let rest ← signs rest
      some (sign :: rest)
    | none, _ => none
  | ['\\'] => none
  | c :: rest => (signs rest).map (.plain c :: ·)

/-! ## Words -/

def isBlank (c : Char) : Bool := c ∈ [' ', '\t', '\n', '\r']

def isQuote (c : Char) : Bool := c = '"' || c = '\''

/-- Where a word is being read: in front of the next one, in one without quotes, between its quotes,
or behind the closing quote. -/
inductive Mode where
  | between
  | bare (word : List Char)
  | inside (quote : Char) (word : List Char)
  | closed (word : List Char)
  deriving DecidableEq, Repr

/-- The words of the rest.  A quote opens a word and closes it, and nothing else follows it. -/
def wordsFrom : Mode → List Sign → Option (List (List Char))
  | .between, [] => some []
  | .between, .plain c :: rest =>
    if isBlank c then wordsFrom .between rest
    else if isQuote c then wordsFrom (.inside c []) rest
    else wordsFrom (.bare [c]) rest
  | .between, .literal c :: rest => wordsFrom (.bare [c]) rest
  | .bare word, [] => some [word]
  | .bare word, .plain c :: rest =>
    if isBlank c then (wordsFrom .between rest).map (word :: ·)
    else if isQuote c then none
    else wordsFrom (.bare (word ++ [c])) rest
  | .bare word, .literal c :: rest => wordsFrom (.bare (word ++ [c])) rest
  | .inside _ _, [] => none
  | .inside quote word, .plain c :: rest =>
    if c = quote then wordsFrom (.closed word) rest
    else wordsFrom (.inside quote (word ++ [c])) rest
  | .inside quote word, .literal c :: rest => wordsFrom (.inside quote (word ++ [c])) rest
  | .closed word, [] => some [word]
  | .closed word, .plain c :: rest =>
    if isBlank c then (wordsFrom .between rest).map (word :: ·) else none
  | .closed _, .literal _ :: _ => none

def splitWords (value : List Char) : Option (List (List Char)) := do
  let signs ← signs value
  wordsFrom .between signs

/-! ## Specifiers and variables -/

variable (specifier : Char → Option (List Char)) (lookup : List Char → Option (List Char))

/-- The specifiers of a word; one that means nothing is left as it is. -/
def expandSpecifiers : List Char → List Char
  | [] => []
  | '%' :: '%' :: rest => '%' :: expandSpecifiers rest
  | '%' :: c :: rest => (specifier c).getD ['%', c] ++ expandSpecifiers rest
  | c :: rest => c :: expandSpecifiers rest

/-- The variables in the middle of a word, where the name is being read if there is one. -/
def expandFrom : Option (List Char) → List Char → List Char
  | none, [] => []
  | none, '$' :: '$' :: rest => '$' :: expandFrom none rest
  | none, '$' :: '{' :: rest => expandFrom (some []) rest
  | none, c :: rest => c :: expandFrom none rest
  | some name, [] => '$' :: '{' :: name
  | some name, c :: rest =>
    if c = '}' then (lookup name).getD [] ++ expandFrom none rest
    else expandFrom (some (name ++ [c])) rest

/-- The arguments that a word of a command stands for: a variable without braces that is a word of
its own is split at its blanks. -/
def expandWord (word : List Char) : List (List Char) :=
  match word with
  | '$' :: rest =>
    if rest.head? = some '$' ∨ rest.head? = some '{' then [expandFrom lookup none word]
    else (((lookup rest).getD []).splitOnP isBlank).filter fun w ↦ !w.isEmpty
  | _ => [expandFrom lookup none word]

def arguments (value : List Char) : Option (List (List Char)) := do
  let words ← splitWords value
  some ((words.map (expandSpecifiers specifier)).flatMap (expandWord lookup))

def assignment (word : List Char) : Option (List Char × List Char) :=
  match word.span (· ≠ '=') with
  | (name, _ :: value) => if name = [] then none else some (name, value)
  | (_, []) => none

def assignments (value : List Char) : Option (List (List Char × List Char)) := do
  let words ← splitWords value
  (words.map (expandSpecifiers specifier)).mapM assignment

/-! ## What doubling and quoting protect -/

/-- Each occurrence of the mark with another one in front of it. -/
def double (mark : Char) (text : List Char) : List Char :=
  text.flatMap fun c ↦ if c = mark then [mark, mark] else [c]

def backslashed (text : List Char) : List Char :=
  text.flatMap fun c ↦ if c = '\\' then ['\\', '\\'] else if c = '"' then ['\\', '"'] else [c]

def quoted (text : List Char) : List Char := '"' :: (backslashed text ++ ['"'])

/-- What is read of a character that was written with a backslash where it needs one. -/
def sign (c : Char) : Sign := if c = '\\' ∨ c = '"' then .literal c else .plain c

variable {specifier lookup}

theorem signs_plain {c : Char} (hc : c ≠ '\\') (rest : List Char) :
    signs (c :: rest) = (signs rest).map (.plain c :: ·) := by
  rw [signs]
  all_goals
    intros
    simp_all

theorem signs_letter {a c : Char} (ha : letterEscape a = some c) (hx : a ≠ 'x') (hu : a ≠ 'u')
    (hU : a ≠ 'U') (rest : List Char) :
    signs ('\\' :: a :: rest) = (signs rest).map (.literal c :: ·) := by
  rw [signs]
  case heq => exact ha
  all_goals
    intros
    simp_all

theorem signs_backslashed (text rest : List Char) :
    signs (backslashed text ++ rest) = (signs rest).map (text.map sign ++ ·) := by
  have hmap : ∀ (x y : List Sign) (o : Option (List Sign)),
      (o.map (y ++ ·)).map (x ++ ·) = o.map ((x ++ y) ++ ·) := by
    intro x y o
    rw [Option.map_map]
    congr 1
    funext z
    exact (List.append_assoc x y z).symm
  induction text with
  | nil =>
    cases h : signs rest with
    | none => exact h
    | some s => exact h
  | cons c text ih =>
    have hcons : backslashed (c :: text) = (if c = '\\' then ['\\', '\\'] else
        if c = '"' then ['\\', '"'] else [c]) ++ backslashed text := List.flatMap_cons
    rw [hcons, List.append_assoc, List.map_cons]
    -- The two characters that are written with a backslash, and all others.
    by_cases hslash : c = '\\'
    · rw [hslash, if_pos rfl]
      show signs ('\\' :: '\\' :: (backslashed text ++ rest)) = _
      rw [signs_letter (show letterEscape '\\' = some '\\' by decide) (by decide) (by decide)
        (by decide), ih]
      exact hmap [.literal '\\'] _ _
    rw [if_neg hslash]
    by_cases hquote : c = '"'
    · rw [hquote, if_pos rfl]
      show signs ('\\' :: '"' :: (backslashed text ++ rest)) = _
      rw [signs_letter (show letterEscape '"' = some '"' by decide) (by decide) (by decide)
        (by decide), ih]
      exact hmap [.literal '"'] _ _
    · rw [if_neg hquote]
      show signs (c :: (backslashed text ++ rest)) = _
      rw [signs_plain hslash, ih]
      have hsign : sign c = .plain c := if_neg (not_or.mpr ⟨hslash, hquote⟩)
      rw [hsign]
      exact hmap [.plain c] _ _

/-- A mark that doubling does not touch is the end of the quoted word. -/
theorem wordsFrom_inside (text word : List Char) (rest : List Sign) :
    wordsFrom (.inside '"' word) (text.map sign ++ rest) =
      wordsFrom (.inside '"' (word ++ text)) rest := by
  induction text generalizing word with
  | nil => rw [List.append_nil, List.map_nil, List.nil_append]
  | cons c text ih =>
    rw [List.map_cons, List.cons_append]
    by_cases hescaped : c = '\\' ∨ c = '"'
    · rw [show sign c = .literal c from if_pos hescaped, wordsFrom, ih, List.append_assoc,
        List.singleton_append]
    · rw [show sign c = .plain c from if_neg hescaped, wordsFrom,
        if_neg fun hquote => hescaped (.inr hquote), ih, List.append_assoc, List.singleton_append]

theorem signs_quoted (text rest : List Char) :
    signs (quoted text ++ rest) =
      (signs rest).map fun s ↦ .plain '"' :: (text.map sign ++ .plain '"' :: s) := by
  unfold quoted
  rw [List.cons_append, List.append_assoc, signs_plain (by decide), signs_backslashed,
    List.singleton_append, signs_plain (by decide), Option.map_map, Option.map_map]
  rfl

theorem wordsFrom_quoted (text : List Char) (rest : List Sign) :
    wordsFrom .between (.plain '"' :: (text.map sign ++ .plain '"' :: rest)) =
      wordsFrom (.closed text) rest := by
  rw [wordsFrom, if_neg (by decide), if_pos (by decide), wordsFrom_inside, List.nil_append, wordsFrom,
    if_pos rfl]

def unwords (words : List (List Char)) : List Char := (words.intersperse [' ']).flatten

/-- A list of quoted words is read as those words. -/
theorem splitWords_quoted (words : List (List Char)) :
    splitWords (unwords (words.map quoted)) = some words := by
  have hall : ∀ words, ∃ s, signs (unwords (words.map quoted)) = some s ∧
      wordsFrom .between s = some words := by
    intro words
    induction words with
    | nil => exact ⟨[], rfl, rfl⟩
    | cons word words ih =>
      obtain ⟨s, hs, hwords⟩ := ih
      cases words with
      | nil =>
        refine ⟨.plain '"' :: (word.map sign ++ [.plain '"']), ?_, ?_⟩
        · have hquoted := signs_quoted word []
          rw [List.append_nil] at hquoted
          show signs (quoted word ++ []) = _
          rw [List.append_nil, hquoted]
          rfl
        · rw [wordsFrom_quoted]
          rfl
      | cons next words =>
        refine ⟨.plain '"' :: (word.map sign ++ .plain '"' :: .plain ' ' :: s), ?_, ?_⟩
        · show signs (quoted word ++ ' ' :: unwords ((next :: words).map quoted)) = _
          rw [signs_quoted, signs_plain (by decide), hs]
          rfl
        · rw [wordsFrom_quoted, wordsFrom, if_pos (by decide), hwords]
          rfl
  obtain ⟨s, hs, hwords⟩ := hall words
  unfold splitWords
  rw [hs]
  exact hwords

theorem double_cons (mark c : Char) (text : List Char) :
    double mark (c :: text) = (if c = mark then [mark, mark] else [c]) ++ double mark text :=
  List.flatMap_cons

theorem expandSpecifiers_double (text : List Char) :
    expandSpecifiers specifier (double '%' text) = text := by
  induction text with
  | nil => rfl
  | cons c text ih =>
    rw [double_cons]
    by_cases hpercent : c = '%'
    · rw [if_pos hpercent, hpercent]
      show expandSpecifiers specifier ('%' :: '%' :: double '%' text) = _
      rw [expandSpecifiers, ih]
    · rw [if_neg hpercent]
      show expandSpecifiers specifier (c :: double '%' text) = _
      rw [expandSpecifiers, ih]
      all_goals
        intros
        simp_all

theorem expandFrom_double (text : List Char) :
    expandFrom lookup none (double '$' text) = text := by
  induction text with
  | nil => rfl
  | cons c text ih =>
    rw [double_cons]
    by_cases hdollar : c = '$'
    · rw [if_pos hdollar, hdollar]
      show expandFrom lookup none ('$' :: '$' :: double '$' text) = _
      rw [expandFrom, ih]
    · rw [if_neg hdollar]
      show expandFrom lookup none (c :: double '$' text) = _
      rw [expandFrom, ih]
      all_goals
        intros
        simp_all

theorem expandWord_double (text : List Char) : expandWord lookup (double '$' text) = [text] := by
  have hinner : expandFrom lookup none (double '$' text) = text := expandFrom_double text
  unfold expandWord
  split
  · rename_i rest heq
    have hhead : rest.head? = some '$' := by
      cases text with
      | nil => cases heq
      | cons c text =>
        rw [double_cons] at heq
        split at heq
        · rw [← (List.cons.inj heq).2]
          rfl
        · rename_i hne
          exact (hne (List.cons.inj heq).1).elim
    rw [if_pos (.inl hhead), hinner]
  · rw [hinner]

end UnitSyntax
