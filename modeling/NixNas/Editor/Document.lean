import Mathlib
import NixNas.History
import NixNas.Spec.Yaml

/-!
# The authority document and its revisions (`services/nas_v2_editor.py`)

The authority file is its bytes.  `parse_yaml_text`, `compile_document` and `resolve_effective` are
parameters: what is hashed does not depend on them.
-/

namespace NixNas.Editor

open History (universalNewlines)
open Spec (SpecError)

/-- `text.encode("utf-8")`. -/
def encode (text : Text) : ByteArray := (text.flatMap String.utf8EncodeChar).toByteArray

/-- `data.decode("utf-8")`. -/
def decode (data : ByteArray) : Option Text := data.utf8Decode?.map Array.toList

theorem decode_encode (text : Text) : decode (encode text) = some text := by
  show ((List.utf8Encode text).utf8Decode?).map Array.toList = some text
  rw [List.utf8Decode?_utf8Encode]
  rfl

theorem encode_injective : Function.Injective encode := by
  intro text text' h
  have hdecode := congrArg decode h
  rw [decode_encode, decode_encode] at hdecode
  exact Option.some.inj hdecode

/-! ## Universal newlines -/

variable {text : Text}

theorem universalNewlines_of_notMem (h : '\r' ∉ text) : universalNewlines text = text := by
  fun_induction universalNewlines text with
  | case1 => exact absurd List.mem_cons_self h
  | case2 => exact absurd List.mem_cons_self h
  | case3 c cs _ _ ih => rw [ih fun hmem => h (List.mem_cons_of_mem c hmem)]
  | case4 => rfl

theorem carriageReturn_notMem (text : Text) : '\r' ∉ universalNewlines text := by
  fun_induction universalNewlines text with
  | case1 cs ih => simpa using ih
  | case2 cs _ ih => simpa using ih
  | case3 c cs _ hc ih =>
    rw [List.mem_cons, not_or]
    exact ⟨fun heq => hc heq.symm, ih⟩
  | case4 => exact List.not_mem_nil

theorem universalNewlines_eq_self_iff : universalNewlines text = text ↔ '\r' ∉ text :=
  ⟨fun h => h ▸ carriageReturn_notMem text, universalNewlines_of_notMem⟩

/-! ## Reading and replacing the document -/

/-- `compile` is `compile_document` under the schema and the platform capabilities, `resolve` is
`resolve_effective` against the platform inventory. -/
structure Pipeline (Digest Document Effective : Type) where
  sha256 : ByteArray → Digest
  parse : Text → Except SpecError Document
  compile : Document → Except SpecError Effective
  resolve : Effective → Except SpecError Effective

inductive EditorError (Digest : Type) where
  | unreadable
  | undecodable
  | unparsable (error : SpecError)
  | invalid (error : SpecError)
  | conflict (expected current : Digest)
  deriving DecidableEq, Repr

variable {Digest Document Effective : Type} (p : Pipeline Digest Document Effective)

def revision (text : Text) : Digest := p.sha256 (encode text)

/-- `_read_text`, in text mode. -/
def readText (authority : Option ByteArray) : Except (EditorError Digest) Text :=
  match authority with
  | none => .error .unreadable
  | some data =>
    match decode data with
    | none => .error .undecodable
    | some text => .ok (universalNewlines text)

def revisionForPath (authority : Option ByteArray) : Except (EditorError Digest) Digest :=
  (readText authority).map (revision p)

def validateText (text : Text) : Except SpecError Effective := p.parse text >>= p.compile

/-- `_atomic_replace`: on the platforms of the appliance writing in text mode translates nothing. -/
def atomicReplace (text : Text) : Option ByteArray := some (encode text)

/-- Of the effective document the caller sees the schema version and the number of services. -/
structure Replaced (Digest Effective : Type) where
  revision : Digest
  effective : Effective

section Replace

variable [DecidableEq Digest]

/-- The compare-and-swap check of `replace_document`. -/
def checkRevision (authority : Option ByteArray) (expectedRevision : Option Digest) :
    Except (EditorError Digest) Unit :=
  match expectedRevision with
  | none => .ok ()
  | some expected => do
    let current ← revisionForPath p authority
    if current = expected then .ok () else .error (.conflict expected current)

/-- `replace_document`: what it returns and the new authority. -/
def replaceDocument (authority : Option ByteArray) (yamlText : Text)
    (expectedRevision : Option Digest) :
    Except (EditorError Digest) (Replaced Digest Effective × Option ByteArray) := do
  let effective ← (validateText p yamlText).mapError .invalid
  checkRevision p authority expectedRevision
  .ok (⟨revision p yamlText, effective⟩, atomicReplace yamlText)

end Replace

structure ReadDocument (Digest Document : Type) where
  revision : Digest
  yaml : Text
  document : Document

def readDocument (authority : Option ByteArray) :
    Except (EditorError Digest) (ReadDocument Digest Document) := do
  let text ← readText authority
  let document ← (p.parse text).mapError .unparsable
  .ok ⟨revision p text, text, document⟩

/-- `_compile_paths_inner`: the effective document and its `provenance.desiredSha256`. -/
def compilePathsInner (authority : Option ByteArray) :
    Except (EditorError Digest) (Effective × Digest) :=
  match authority with
  | none => .error .unreadable
  | some desiredBytes =>
    match decode desiredBytes with
    | none => .error .undecodable
    | some text => do
      let effective ← (validateText p text >>= p.resolve).mapError .invalid
      .ok (effective, p.sha256 desiredBytes)

/-- The `desired_revision` that `status` looks for in the provenance. -/
def statusRevision (authority : Option ByteArray) : Except (EditorError Digest) Digest :=
  (readText authority).map (revision p)

/-- Every reader of the authority computes `revision`. -/
structure OneRevision (authority : Option ByteArray) (revision : Digest) : Prop where
  read : ∀ document, readDocument p authority = .ok document → document.revision = revision
  swap : revisionForPath p authority = .ok revision
  compiled : ∀ effective provenance, compilePathsInner p authority = .ok (effective, provenance) →
    provenance = revision
  status : statusRevision p authority = .ok revision

/-! ## When the readers agree -/

variable {p}

theorem readText_atomicReplace (text : Text) :
    (readText (atomicReplace text) : Except (EditorError Digest) Text) =
      .ok (universalNewlines text) := by
  unfold readText atomicReplace
  simp only [decode_encode]

theorem revisionForPath_atomicReplace (text : Text) :
    revisionForPath p (atomicReplace text) = .ok (revision p (universalNewlines text)) := by
  unfold revisionForPath
  rw [readText_atomicReplace]
  rfl

theorem compilePathsInner_atomicReplace {effective : Effective} {provenance : Digest}
    (h : compilePathsInner p (atomicReplace text) = .ok (effective, provenance)) :
    provenance = revision p text := by
  unfold compilePathsInner atomicReplace at h
  simp only [decode_encode] at h
  obtain ⟨_, -, h⟩ := Fallible.bind_ok h
  cases h
  rfl

theorem replaceDocument_ok [DecidableEq Digest] {authority authority' : Option ByteArray}
    {expected : Option Digest} {result : Replaced Digest Effective}
    (h : replaceDocument p authority text expected = .ok (result, authority')) :
    result.revision = revision p text ∧ authority' = atomicReplace text := by
  obtain ⟨_, -, h⟩ := Fallible.bind_ok h
  obtain ⟨_, -, h⟩ := Fallible.bind_ok h
  cases h
  exact ⟨rfl, rfl⟩

/-- The revision that `replace_document` returns is the one of every reader exactly when the text
has no carriage return, provided the text and its reading do not collide under the hash. -/
theorem oneRevision_iff [DecidableEq Digest] {authority authority' : Option ByteArray} {text : Text}
    {expected : Option Digest} {result : Replaced Digest Effective}
    (h : replaceDocument p authority text expected = .ok (result, authority'))
    (hcollision : p.sha256 (encode (universalNewlines text)) = p.sha256 (encode text) →
      encode (universalNewlines text) = encode text) :
    OneRevision p authority' result.revision ↔ '\r' ∉ text := by
  obtain ⟨hrevision, rfl⟩ := replaceDocument_ok h
  rw [hrevision]
  constructor
  · intro hone
    have hswap := hone.swap
    rw [revisionForPath_atomicReplace] at hswap
    apply universalNewlines_eq_self_iff.mp
    apply encode_injective
    exact hcollision (Except.ok.inj hswap)
  · intro hplain
    have hread := universalNewlines_of_notMem hplain
    have hcurrent : revisionForPath p (atomicReplace text) = .ok (revision p text) := by
      rw [revisionForPath_atomicReplace, hread]
    refine ⟨?_, hcurrent, fun _ _ => compilePathsInner_atomicReplace, hcurrent⟩
    intro document hdocument
    obtain ⟨read, hread', hdocument⟩ := Fallible.bind_ok hdocument
    rw [readText_atomicReplace, hread] at hread'
    cases hread'
    obtain ⟨_, -, hdocument⟩ := Fallible.bind_ok hdocument
    cases hdocument
    rfl

/-! ### A document with the line ends of another system -/

def plainText : Text := "schemaVersion: 3\nservices: {}\n".toList

def carriageText : Text := "schemaVersion: 3\r\nservices: {}\r\n".toList

def plainDigest : String := "bb0b014c37a5b0673c92990cbb822ff81da4b3fb6d634f2728a58eb629790dce"

def carriageDigest : String := "6d881ec01c794135ec6accb6b13e087fc02615af49a809041a7cfa3c5c10fdfa"

def textValue (value : String) : Spec.Plain Empty := .scalar (.string value.toList)

def emptyObject : Spec.Plain Empty := .object []

def emptyEntries : List (Text × Spec.Plain Empty) :=
  [("schemaVersion".toList, .scalar (.integer 3)), ("services".toList, emptyObject)]

/-- The defaults of `normalize` and the derived part of `build_effective`. -/
def emptyDefaults : List (Text × Spec.Plain Empty) :=
  [("generation".toList, .scalar (.integer 1)), ("storageResources".toList, emptyObject),
    ("credentials".toList, emptyObject), ("networkProfiles".toList, emptyObject),
    ("backup".toList, .object [("remote".toList, .object [
      ("provider".toList, textValue "local"), ("scope".toList, textValue "config-only"),
      ("rcloneRemote".toList, textValue ""), ("rcloneConfigFile".toList, textValue "")])]),
    ("derived".toList, .object [("authorization".toList, emptyObject),
      ("runtime".toList, emptyObject), ("routes".toList, .array []),
      ("backupResources".toList, .array [])])]

def emptyPipeline : Pipeline String (List (Text × Spec.Plain Empty)) (List (Text × Spec.Plain Empty))
    where
  sha256 data :=
    if data = encode carriageText then carriageDigest else plainDigest
  parse text :=
    if text = plainText ∨ text = carriageText then .ok emptyEntries
    else .error ⟨"Managed Services V2 desired state must not be empty".toList, ['$'],
      "yaml-empty".toList⟩
  compile document := .ok (document ++ emptyDefaults)
  resolve effective := .ok effective

theorem revision_plainText : revision emptyPipeline plainText = plainDigest := by
  have hne : encode plainText ≠ encode carriageText := fun heq =>
    absurd (encode_injective heq) (by decide)
  show (if encode plainText = encode carriageText then carriageDigest else plainDigest) = _
  exact if_neg hne

theorem revision_carriageText : revision emptyPipeline carriageText = carriageDigest := by
  show (if encode carriageText = encode carriageText then carriageDigest else plainDigest) = _
  exact if_pos rfl

theorem oneRevision_iff_plain :
    OneRevision emptyPipeline (atomicReplace plainText) (revision emptyPipeline plainText) ↔
      '\r' ∉ plainText :=
  @oneRevision_iff _ _ _ emptyPipeline _ none _ plainText none
    ⟨_, emptyEntries ++ emptyDefaults⟩ rfl (fun _ => congrArg encode (by decide))

/-- Carriage returns are written, hashed on the way in, and gone on the way back. -/
theorem not_oneRevision_carriage :
    ¬ ∀ (authority authority' : Option ByteArray) (text : Text) (expected : Option String)
        (result : Replaced String (List (Text × Spec.Plain Empty))),
      replaceDocument emptyPipeline authority text expected = .ok (result, authority') →
        OneRevision emptyPipeline authority' result.revision := by
  intro h
  have hswap := (h none _ carriageText none _ rfl).swap
  have hread : universalNewlines carriageText = plainText := by decide
  rw [revisionForPath_atomicReplace, hread, revision_plainText] at hswap
  have hdigest : plainDigest = revision emptyPipeline carriageText := Except.ok.inj hswap
  rw [revision_carriageText] at hdigest
  exact absurd hdigest (by decide)

end NixNas.Editor
