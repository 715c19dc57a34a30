import NixNas.Lib.UnitSyntax
import NixNas.Spec.Object
import NixNas.Systemd.Dropin

/-!
# Quoted arguments and assignments (`services/nas_v2_systemd_native.py`)

What systemd reads out of the `ExecStart=` and `Environment=` lines of a generated unit is what was
written into them.  Whether a name is one that systemd lets a variable have, and what it makes of
the signs in front of the program's path, are questions behind the reading and left out.
-/

open Fallible UnitSyntax

namespace NixNas.Systemd

open Spec (Plain Object find)

variable {F : Type}
variable {value : Text}

def hasCtrl (value : Text) : Bool := value.any fun c ↦ [Char.ofNat 0, '\r', '\n'].contains c

def execQuote (value : Text) : Except ProjectionError Text :=
  quote (value.flatMap fun c ↦ if c = '$' then "$$".toList else [c])

/-- The `ExecStart=` line of `_python_unit`. -/
def execStart (command : List Text) : Except ProjectionError Text := do
  let quoted ← command.mapM execQuote
  .ok ("ExecStart=".toList ++ Systemd.unwords quoted)

inductive EnvironmentError where
  /-- `environment must be an object` -/
  | notObject
  /-- `invalid environment variable name …` -/
  | name (name : Text)
  /-- `invalid environment value for …` -/
  | value (name : Text)
  | quoting (error : ProjectionError)
  deriving DecidableEq, Repr

/-- `sorted(env.items())`; no two entries have the same name. -/
def sortedItems (env : Object F) : Object F := env.mergeSort fun a b ↦ decide (a.1 ≤ b.1)

def environmentLine (entry : Text × Plain F) : Except EnvironmentError Text :=
  if entry.1 = [] ∨ '=' ∈ entry.1 ∨ hasCtrl entry.1 = true then .error (.name entry.1)
  else
    match entry.2 with
    | .scalar (.string value) =>
      if hasCtrl value then .error (.value entry.1)
      else do
        let assignment ← (quote (entry.1 ++ '=' :: value)).mapError .quoting
        .ok ("Environment=".toList ++ assignment)
    | _ => .error (.value entry.1)

def environmentLines (runtime : Object F) : Except EnvironmentError (List Text) :=
  match find "environment".toList runtime with
  | none => .ok []
  | some (.object env) => (sortedItems env).mapM environmentLine
  | some _ => .error .notObject

theorem hasCtrl_append (a b : Text) : hasCtrl (a ++ b) = (hasCtrl a || hasCtrl b) :=
  List.any_append

theorem quote_ok (h : hasCtrl value = false) : quote value = .ok (quoted (double '%' value)) := by
  have hline : singleLine "systemd argument" value = .ok (double '%' value) := by
    unfold singleLine
    rw [if_neg]
    · rfl
    · show ¬ hasCtrl value = true
      rw [h]
      exact Bool.false_ne_true
  unfold quote
  rw [hline]
  rfl

theorem hasCtrl_double {mark : Char} (hmark : hasCtrl [mark] = false)
    (h : hasCtrl value = false) : hasCtrl (double mark value) = false := by
  induction value with
  | nil => rfl
  | cons c value ih =>
    have hcons : hasCtrl [c] = false ∧ hasCtrl value = false := by
      rw [← Bool.or_eq_false_iff, ← hasCtrl_append]
      exact h
    rw [double_cons, hasCtrl_append, Bool.or_eq_false_iff]
    refine ⟨?_, ih hcons.2⟩
    split
    · show hasCtrl ([mark] ++ [mark]) = false
      rw [hasCtrl_append, hmark]
      rfl
    · exact hcons.1

theorem execQuote_ok (h : hasCtrl value = false) :
    execQuote value = .ok (quoted (double '%' (double '$' value))) :=
  quote_ok (hasCtrl_double (by decide) h)

variable {specifier : Char → Option Text} {lookup : Text → Option Text}

theorem arguments_quoted (command : List Text) :
    arguments specifier lookup
      (Systemd.unwords (command.map fun part ↦ quoted (double '%' (double '$' part)))) =
      some command := by
  have hwords : splitWords (Systemd.unwords (command.map fun part ↦
      quoted (double '%' (double '$' part)))) =
      some (command.map fun part ↦ double '%' (double '$' part)) := by
    rw [← splitWords_quoted, List.map_map]
    rfl
  -- The doubled percent signs go first, then the doubled dollar signs.
  have hpart : ∀ part : Text, expandWord lookup
      (expandSpecifiers specifier (double '%' (double '$' part))) = [part] := by
    intro part
    rw [expandSpecifiers_double, expandWord_double]
  unfold arguments
  rw [hwords]
  show some ((List.map _ (command.map fun part ↦ double '%' (double '$' part))).flatMap _) = _
  rw [List.map_map, List.flatMap_map]
  apply congrArg some
  show command.flatMap (fun part ↦ expandWord lookup
    (expandSpecifiers specifier (double '%' (double '$' part)))) = command
  simp only [hpart]
  exact List.flatMap_singleton' command

theorem mapM_execQuote {command : List Text} (h : ∀ part ∈ command, hasCtrl part = false) :
    command.mapM execQuote = .ok (command.map fun part ↦ quoted (double '%' (double '$' part))) := by
  induction command with
  | nil => rfl
  | cons part command ih =>
    rw [List.forall_mem_cons] at h
    rw [List.mapM_cons, execQuote_ok h.1, ih h.2]
    rfl

theorem assignments_quoted {name : Text} (hne : name ≠ []) (hequals : '=' ∉ name) :
    assignments specifier (quoted (double '%' (name ++ '=' :: value))) = some [(name, value)] := by
  have hwords : splitWords (quoted (double '%' (name ++ '=' :: value))) =
      some [double '%' (name ++ '=' :: value)] := by
    rw [← splitWords_quoted]
    show _ = splitWords (quoted (double '%' (name ++ '=' :: value)) ++ [])
    rw [List.append_nil]
  have hspan : (name ++ '=' :: value).span (· ≠ '=') = (name, '=' :: value) := by
    rw [List.span_eq_takeWhile_dropWhile]
    have hall : ∀ c ∈ name, decide (c ≠ '=') = true := by
      intro c hc
      rw [decide_eq_true_iff]
      rintro rfl
      exact hequals hc
    rw [List.takeWhile_append_of_pos hall, List.dropWhile_append_of_pos hall]
    simp
  have hassignment : assignment (name ++ '=' :: value) = some (name, value) := by
    unfold assignment
    rw [hspan]
    exact if_neg hne
  unfold assignments
  rw [hwords]
  show [expandSpecifiers specifier (double '%' (name ++ '=' :: value))].mapM assignment = _
  rw [expandSpecifiers_double, List.mapM_cons, hassignment]
  rfl

/-- The line sets exactly the variable of the entry. -/
def SetsEntry (specifier : Char → Option Text) (entry : Text × Plain F) (line : Text) : Prop :=
  ∃ value assigned, entry.2 = .scalar (.string value) ∧ line = "Environment=".toList ++ assigned ∧
    assignments specifier assigned = some [(entry.1, value)]

theorem setsEntry_of_ok {entry : Text × Plain F} {line : Text}
    (h : environmentLine entry = .ok line) : SetsEntry specifier entry line := by
  unfold environmentLine at h
  split at h
  · cases h
  rename_i hname
  rw [not_or, not_or, Bool.not_eq_true] at hname
  split at h
  · rename_i value hvalue
    split at h
    · cases h
    rename_i hctrl
    have hvalueCtrl : hasCtrl value = false := by simpa using hctrl
    have hwhole : hasCtrl (entry.1 ++ '=' :: value) = false := by
      rw [hasCtrl_append, hname.2.2]
      show (hasCtrl (['='] ++ value)) = false
      rw [hasCtrl_append, hvalueCtrl]
      rfl
    rw [quote_ok hwhole] at h
    cases h
    exact ⟨value, _, hvalue, rfl, assignments_quoted hname.1 hname.2.1⟩
  · cases h

/-- Arguments without NUL, CR and LF come out of the `ExecStart=` value as they went in, whatever
the specifiers and the variables, and each accepted entry of the environment comes out of its
`Environment=` line. -/
theorem quoting_roundTrips (specifier : Char → Option Text) (lookup : Text → Option Text) :
    (∀ command : List Text, (∀ part ∈ command, hasCtrl part = false) →
      ∃ value, execStart command = .ok ("ExecStart=".toList ++ value) ∧
        arguments specifier lookup value = some command) ∧
    ∀ (runtime : Object F) (lines : List Text), environmentLines runtime = .ok lines →
      (find "environment".toList runtime = none ∧ lines = []) ∨
      ∃ env, find "environment".toList runtime = some (.object env) ∧
        List.Forall₂ (SetsEntry specifier) (sortedItems env) lines := by
  constructor
  · intro command h
    refine ⟨_, ?_, arguments_quoted command⟩
    unfold execStart
    rw [mapM_execQuote h]
    rfl
  · intro runtime lines h
    unfold environmentLines at h
    split at h
    · rename_i hnone
      cases h
      exact .inl ⟨hnone, rfl⟩
    · rename_i env hfind
      exact .inr ⟨env, hfind, (mapM_ok h).imp fun _ _ hline => setsEntry_of_ok hline⟩
    · cases h

end NixNas.Systemd
