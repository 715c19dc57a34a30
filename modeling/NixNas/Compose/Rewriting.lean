import NixNas.Caddy.Routes
import NixNas.Compose.Bundle
import NixNas.Lib.UnitFile

/-!
# The texts of a bundle (`_namespace_bundle` of `services/nas_v2_compose_import.py`)

The references between the files that Podlet wrote are rewritten line by line, and the files that
have a unit of their own are bound to the unit that owns the application.
-/

open Fallible Lines

namespace NixNas.Compose

open Network Reconcile
open Caddy (isSpace)

abbrev Mapping := List (Text × Text)

/-- `mapping.get(name, name)`. -/
def Mapping.get (mapping : Mapping) (name : Text) : Text := (mapping.lookup name).getD name

/-- `_rewrite_reference_token`; the suffix of a volume starts at its first colon. -/
def rewriteReferenceToken (mapping : Mapping) (volume : Bool) (token : Text) : Text :=
  if volume then mapping.get (token.takeWhile (· ≠ ':')) ++ token.dropWhile (· ≠ ':')
  else mapping.get token

def rewriteReferenceValue (mapping : Mapping) (volume : Bool) (value : Text) : Text :=
  mapWords isSpace (rewriteReferenceToken mapping volume) value

def referenceFields : List Text :=
  ["Build", "Container", "Image", "Kube", "Network", "Pod", "Volume"].map String.toList

def quadletSections : List Text :=
  ["Build", "Container", "Image", "Kube", "Network", "Pod", "Volume"].map String.toList

def volumeKey : Text := "Volume".toList

/-- `key.removesuffix("+")`. -/
def baseKey (key : Text) : Text := if key.getLast? = some '+' then key.dropLast else key

/-- `[A-Za-z0-9+_-]`. -/
def isKeyChar (c : Char) : Bool := c.isAlphanum || ['+', '_', '-'].contains c

/-- The groups of `_ASSIGNMENT` before the end of the line: its indentation, key and value.  What
ends a line is either its newline or a blank at the end of the value. -/
def matchAssignment (line : Text) : Option (Text × Text × Text) :=
  let rest := line.dropWhile isSpace
  match rest.takeWhile isKeyChar, rest.dropWhile isKeyChar with
  | first :: key, '=' :: value =>
    if first.isAlpha then some (line.takeWhile isSpace, first :: key, value) else none
  | _, _ => none

def sectionName (line : Text) : Option Text :=
  let stripped := (line.dropWhile isSpace).rdropWhile isSpace
  if stripped.head? = some '[' && stripped.getLast? = some ']' then
    some (stripped.drop 1).dropLast
  else none

section

variable (mapping : Mapping)

/-- One line of `_namespace_quadlet_text` without its end, and the section behind it. -/
def rewriteLine (current : Option Text) (line : Text) : Option Text × Text :=
  match sectionName line with
  | some name => (some name, line)
  | none =>
    match matchAssignment line with
    | none => (current, line)
    | some (indent, key, value) =>
      if baseKey key ∉ referenceFields then (current, line)
      else if ∀ name ∈ current, name ∉ quadletSections then (current, line)
      else (current, indent ++ (key ++
        '=' :: rewriteReferenceValue mapping (baseKey key = volumeKey) value))

def rewriteLines (current : Option Text) : List Line → Text
  | [] => []
  | line :: rest =>
    (rewriteLine mapping current line.content).2 ++ (line.ending ++
      rewriteLines (rewriteLine mapping current line.content).1 rest)

def namespaceQuadletText (text : Text) : Text := rewriteLines mapping none (lines text)

end

def matchesLetter (letter c : Char) : Bool :=
  c.toLower = letter.toLower || (letter.toLower = 'i' && ['\u0130', '\u0131'].contains c) ||
    (letter.toLower = 's' && c = '\u017F')

def afterWord : Text → Text → Option Text
  | [], rest => some rest
  | letter :: word, c :: rest => if matchesLetter letter c then afterWord word rest else none
  | _ :: _, [] => none

/-- A line that `_UNIT_HEADER` matches. -/
def isUnitHeader (line : Text) : Bool :=
  match afterWord "[Unit]".toList (line.dropWhile isSpace) with
  | some rest => rest.all isSpace
  | none => false

/-- The directive after the first header of the unit and the blank lines behind it, over which the
match extends. -/
def insertDirective (directive : Text) : List Text → Option (List Text)
  | [] => none
  | line :: rest =>
    if isUnitHeader line then
      some (line :: (rest.takeWhile (·.all isSpace) ++ directive :: rest.dropWhile (·.all isSpace)))
    else (insertDirective directive rest).map (line :: ·)

def directiveOf (owner : Text) : Text := "PartOf=".toList ++ owner

def injectPartOf (text owner : Text) : Text :=
  if directiveOf owner <:+: text then text
  else
    match insertDirective (directiveOf owner) (text.splitOn '\n') with
    | some inserted => ['\n'].intercalate inserted
    | none => "[Unit]\n".toList ++ (directiveOf owner ++ "\n\n".toList ++ text)

def lineStarts (text : Text) : List Text :=
  text :: text.tails.filterMap fun rest ↦
    match rest with
    | '\n' :: rest => some rest
    | _ => none

/-- `_EXPLICIT_SERVICE_NAME` and `_EXPLICIT_CONTAINER_NAME`, by their word. -/
def setsExplicitly (word text : Text) : Bool :=
  (lineStarts text).any fun rest ↦
    match afterWord word (rest.dropWhile isSpace) with
    | some rest => (rest.dropWhile isSpace).head? = some '='
    | none => false

inductive BundleError where
  | names (error : ImportError)
  | serviceName (file : Text)
  | containerName
  deriving DecidableEq, Repr

/-- A file of its own unit, which is stopped with its owner. -/
def isBound (name : Text) : Bool :=
  match splitName name with
  | some (_, suffix) => suffix ∈ [.container, .pod, .kube]
  | none => false

def withNewline (text : Text) : Text := if text.getLast? = some '\n' then text else text ++ ['\n']

/-- The new names, of the files in the order of their names. -/
def mappingOf (serviceId : Text) (names : List Text) : Mapping :=
  names.map fun name ↦ (name, namespaced serviceId name)

def namespaceFile (serviceId owner : Text) (names : List Text) (file : Text × Text) :
    Except BundleError (Text × Text) :=
  if setsExplicitly "ServiceName".toList file.2 then .error (.serviceName file.1)
  else if setsExplicitly "ContainerName".toList file.2 then .error .containerName
  else
    let text := namespaceQuadletText (mappingOf serviceId names) file.2
    let name := namespaced serviceId file.1
    .ok (name, withNewline (if isBound name then injectPartOf text owner else text))

/-- `_namespace_bundle`; the files are those of the directory as `read_text` returns them. -/
def namespaceTexts (serviceId owner : Text) (files : List (Text × Text)) :
    Except BundleError (List (Text × Text)) := do
  let names := files.map Prod.fst
  match names.forM checkName with
  | .error e => .error (.names e)
  | .ok () =>
    if files = [] then .error (.names .noFiles)
    else
      let output ← files.mapM (namespaceFile serviceId owner names)
      if (output.map Prod.fst).filterMap entryUnit = [] then .error (.names .noEntryUnits)
      else .ok output

end NixNas.Compose
