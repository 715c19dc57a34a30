/-!
# Texts and identifiers

A text of the source is the list of its code points.
-/

namespace NixNas

abbrev Text := List Char

instance : LawfulBEq Text := List.instLawfulBEq

variable {value : Text}

theorem notMem_literal {c : Char} (h : c ∉ value) : c ∉ (String.ofList value).toList := by
  rwa [String.toList_ofList]

/-- `[a-z][a-z0-9-]{0,63}`, the identifiers of services, routes and networks. -/
def isIdentifier (value : Text) : Bool :=
  match value with
  | [] => false
  | c :: rest => c.isLower && rest.length ≤ 63 &&
      rest.all fun d ↦ d.isLower || d.isDigit || d = '-'

/-- `^[a-z][a-z0-9-]{0,63}$` as the schema tests it: a line break may stand at the end. -/
def Caddy.isSchemaId (value : Text) : Bool :=
  isIdentifier value || (value.getLast? = some '\n' && isIdentifier value.dropLast)

theorem identifierChar (h : isIdentifier value = true) :
    ∀ c ∈ value, (c.isLower || c.isDigit || c = '-') = true := by
  cases value with
  | nil => exact nofun
  | cons c rest =>
    unfold isIdentifier at h
    simp only [Bool.and_eq_true, List.all_eq_true] at h
    rw [List.forall_mem_cons]
    constructor
    · rw [h.1.1]
      rfl
    · exact h.2

theorem schemaIdChar (h : Caddy.isSchemaId value = true) :
    ∀ c ∈ value, (c.isLower || c.isDigit || c = '-' || c = '\n') = true := by
  unfold Caddy.isSchemaId at h
  rw [Bool.or_eq_true, Bool.and_eq_true, decide_eq_true_eq] at h
  intro c hc
  rcases h with h | ⟨hlast, h⟩
  · rw [identifierChar h c hc]
    rfl
  · rcases List.getLast?_eq_some_iff.mp hlast with ⟨rest, rfl⟩
    rw [List.dropLast_concat] at h
    rw [List.mem_append, List.mem_singleton] at hc
    rcases hc with hc | rfl
    · rw [identifierChar h c hc]
      rfl
    · decide

end NixNas
