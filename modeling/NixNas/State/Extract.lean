import NixNas.Lib.Segments
import NixNas.State.Disk

/-!
# Extraction of state bundles (`extract_bundle` of `services/nas_state.py`)

The archive stands for what `tarfile` reads from the file: members one after the other, and then
the end or an error.
-/

open Fallible

namespace NixNas.State

/-! ## Archives -/

inductive Kind where
  | directory
  | regular
  | other
deriving DecidableEq, Repr

/-- A header and what can be read of the data behind it. -/
structure Member where
  name : Str
  kind : Kind
  size : Int
  mode : Nat
  paxHeaders : List (Str × Str)
  data : List UInt8
  /-- Whether reading stops with an error after the data. -/
  truncated : Bool

structure Archive where
  opens : Bool
  members : List Member
  /-- Whether the archive ends behind the last member, and not with an error. -/
  ends : Bool

/-- `MAX_ARCHIVE_MEMBERS`, `MAX_ARCHIVE_BYTES` and `MAX_ARCHIVE_METADATA_BYTES`. -/
structure Limits where
  members : Nat
  bytes : Nat
  metadata : Nat

inductive StateError where
  | emptyName
  | controlCharacter
  | notUtf8
  | nameTooLong
  | unsafePath
  | componentTooLong
  | tooManyMembers
  | metadataTooLarge
  | duplicatePath
  | unsupportedObject
  | tooManyBytes
  | unreadable
  | memberTruncated
  | cannotPrepare
  | cannotExtract
  | extractionFailed
deriving DecidableEq, Repr

/-! ## Names -/

/-- `PurePosixPath(name).parts`, where the root is not a part. -/
def pathParts (name : Str) : RelPath := (name.splitOn slash).filter fun part ↦ part ≠ [] ∧ part ≠ [dot]

def isAbsolute (name : Str) : Bool := name.head? = some slash

/-- `path.joinpath(*parts)`: an absolute part starts anew. -/
def joinPath (path : OsPath) (parts : List Str) : OsPath :=
  parts.foldl (fun path part ↦ if isAbsolute part then pathParts part else path ++ pathParts part) path

def maxNameBytes : Nat := 4096

def maxComponentBytes : Nat := 255

def safeMemberName (name : Str) : Except StateError RelPath :=
  if name = [] then .error .emptyName
  else if name.any fun c ↦ c.val < 32 || c.val = 127 then .error .controlCharacter
  else
    match utf8? name with
    | none => .error .notUtf8
    | some encoded =>
      if encoded.length > maxNameBytes then .error .nameTooLong
      else
        let parts := pathParts name
        if isAbsolute name || parts = [] || parts.any (· = [dot, dot]) then .error .unsafePath
        else if parts.any fun part ↦ ((utf8? part).map List.length).getD 0 > maxComponentBytes then
          .error .componentTooLong
        else .ok parts

/-- `len(value.encode("utf-8", errors="replace"))`. -/
def replacedLength (value : Str) : Nat :=
  (value.map fun c ↦ match c.char? with
    | some char => (String.utf8EncodeChar char).length
    | none => 1).sum

/-- `_pax_metadata_size`, which stops behind the limit. -/
def paxMetadataSize (limits : Limits) : List (Str × Str) → Nat → Nat
  | [], total => total
  | (key, value) :: rest, total =>
    let total := total + replacedLength key + replacedLength value + 2
    if total > limits.metadata then total else paxMetadataSize limits rest total

/-- What `_check_streamed_header` keeps. -/
structure Seen where
  index : Nat
  paths : List RelPath
  total : Nat

def Seen.start : Seen := ⟨0, [], 0⟩

/-- `_check_streamed_header` at the next member. -/
def checkStreamedHeader (limits : Limits) (seen : Seen) (member : Member) :
    Except StateError (RelPath × Seen) :=
  if seen.index + 1 > limits.members then .error .tooManyMembers
  else if paxMetadataSize limits member.paxHeaders 0 > limits.metadata then .error .metadataTooLarge
  else do
    let normalized ← safeMemberName member.name
    if normalized ∈ seen.paths then .error .duplicatePath
    else if member.kind = .other then .error .unsupportedObject
    else if seen.total + (max 0 member.size).toNat > limits.bytes then .error .tooManyBytes
    else .ok (normalized,
      ⟨seen.index + 1, normalized :: seen.paths, seen.total + (max 0 member.size).toNat⟩)

/-! ## Extraction -/

def copyChunk : Nat := 1024 * 1024

/-- The loop of `_copy_bounded`: its result and what it has written. -/
def copyBlocks (limits : Limits) (stores : List UInt8 → Bool) (before : Nat)
    (data written : List UInt8) : Except StateError Unit × List UInt8 :=
  if _h : data = [] then (.ok (), written)
  else if before + written.length + (data.take copyChunk).length > limits.bytes then
    (.error .tooManyBytes, written)
  else if stores (written ++ data.take copyChunk) then
    copyBlocks limits stores before (data.drop copyChunk) (written ++ data.take copyChunk)
  else (.error .cannotExtract, written)
termination_by data.length
decreasing_by
  have hpos := List.length_pos_iff.mpr _h
  rw [List.length_drop, copyChunk]
  omega

def copyBounded (limits : Limits) (stores : List UInt8 → Bool) (before : Nat) (member : Member) :
    Except StateError Unit × List UInt8 :=
  match copyBlocks limits stores before member.data [] with
  | (.error e, written) => (.error e, written)
  | (.ok (), written) =>
    if member.truncated then (.error .memberTruncated, written)
    else if written.length ≠ (max 0 member.size).toNat then (.error .memberTruncated, written)
    else (.ok (), written)

/-- The disk, and the paths that were recorded for the cleanup. -/
structure Extraction where
  disk : Disk
  created : List OsPath

def permissionBits (mode : Nat) : Mode := ⟨mode % 0o1000, Nat.mod_lt _ (by decide)⟩

variable (os : Os) (limits : Limits) (destination : OsPath)
variable {stores : List UInt8 → Bool} {before : Nat} {written : List UInt8} {member : Member}
  {name : Str} {parts : RelPath}

/-- The loop of `_prepare_parent`: the paths that are missing, from the deepest one up. -/
def missingParents (d : Disk) (path : OsPath) : Except OsError (List OsPath) :=
  if _h : path = destination ∨ path = [] then .ok []
  else
    match lstatType os d path with
    | .error e => .error e
    | .ok (some _) => .ok []
    | .ok none => (missingParents d path.dropLast).map (path :: ·)
termination_by path.length
decreasing_by
  rw [List.length_dropLast]
  have hpos := List.length_pos_iff.mpr (not_or.mp _h).2
  omega

def prepareParent (raised : StateError) (st : Extraction) (path : OsPath) :
    Except StateError Unit × Extraction :=
  match missingParents os destination st.disk path with
  | .error _ => (.error raised, st)
  | .ok missing =>
    match mkdirParents os st.disk path with
    | (.error _, disk) => (.error .cannotPrepare, { st with disk := disk })
    | (.ok (), disk) => (.ok (), ⟨disk, st.created ++ missing.reverse⟩)

def extractDirectory (st : Extraction) (target : OsPath) (mode : Mode) :
    Except StateError Unit × Extraction :=
  match lstatType os st.disk target with
  | .error _ => (.error .extractionFailed, st)
  | .ok (some _) => (.ok (), { st with disk := chmod st.disk target mode })
  | .ok none =>
    match prepareParent os destination .cannotExtract st target.dropLast with
    | (.error e, st) => (.error e, st)
    | (.ok (), st) =>
      match mkdir os st.disk target with
      | .error .exists => (.error .duplicatePath, st)
      | .error _ => (.error .cannotExtract, st)
      | .ok disk => (.ok (), ⟨chmod disk target mode, st.created ++ [target]⟩)

/-- `os.open` with `O_CREAT | O_EXCL`: the target is made where its parent is a directory. -/
def createFile (d : Disk) (target : OsPath) (mode : Mode) : Except OsError Disk :=
  if os.reaches target then
    match d.walk [] target with
    | .error e => .error e
    | .ok (some _) => .error .exists
    | .ok none =>
      if d.isDir target.dropLast then
        if os.hasRoom d target then .ok (d ++ [(target, .file mode [])]) else .error .noSpace
      else .error .notFound
  else .error .nameTooLong

def writeFile (d : Disk) (target : OsPath) (content : List UInt8) : Disk :=
  d.update target fun node ↦ match node with
    | .file mode _ => .file mode content
    | .directory mode => .directory mode

def extractFile (st : Extraction) (target : OsPath) (before : Nat) (member : Member) :
    Except StateError Unit × Extraction :=
  match prepareParent os destination .extractionFailed st target.dropLast with
  | (.error e, st) => (.error e, st)
  | (.ok (), st) =>
    match createFile os st.disk target (permissionBits member.mode) with
    | .error .exists => (.error .duplicatePath, st)
    | .error _ => (.error .cannotExtract, st)
    | .ok disk =>
      let created := st.created ++ [target]
      match copyBounded limits (os.stores target) before member with
      | (.error e, written) => (.error e, ⟨writeFile disk target written, created⟩)
      | (.ok (), written) =>
        (.ok (), ⟨chmod (writeFile disk target written) target (permissionBits member.mode), created⟩)

/-- One round of the loop of `extract_bundle`. -/
def extractMember (st : Extraction) (seen : Seen) (member : Member) :
    Except StateError Seen × Extraction :=
  match checkStreamedHeader limits seen member with
  | .error e => (.error e, st)
  | .ok (relative, seen') =>
    let target := joinPath destination relative
    match member.kind with
    | .directory =>
      match extractDirectory os destination st target (permissionBits member.mode) with
      | (.error e, st) => (.error e, st)
      | (.ok (), st) => (.ok seen', st)
    | _ =>
      match extractFile os limits destination st target seen.total member with
      | (.error e, st) => (.error e, st)
      | (.ok (), st) => (.ok seen', st)

def extractMembers (ends : Bool) (st : Extraction) (seen : Seen) :
    List Member → Except StateError Unit × Extraction
  | [] => (if ends then .ok () else .error .unreadable, st)
  | member :: members =>
    match extractMember os limits destination st seen member with
    | (.error e, st) => (.error e, st)
    | (.ok seen, st) => extractMembers ends st seen members

/-- `_cleanup_partial`: what was created goes away, the last entry first. -/
def cleanupPartial (st : Extraction) : Disk :=
  st.created.reverse.foldl (fun d path ↦
    match lstatType os d path with
    | .ok none | .error _ => d
    | .ok (some (.directory _)) => rmdir d path
    | .ok (some (.file _ _)) => d.remove path) st.disk

/-- `extract_bundle`: its result, the disk it leaves, and the paths it has created. -/
def extractBundle (d : Disk) (archive : Archive) : Except StateError Unit × Disk × List OsPath :=
  match mkdirParents os d destination with
  | (.error _, d) => (.error .cannotPrepare, d, [])
  | (.ok (), d) =>
    if archive.opens then
      match extractMembers os limits destination archive.ends ⟨d, []⟩ .start archive.members with
      | (.error e, st) => (.error e, cleanupPartial os st, st.created)
      | (.ok (), st) => (.ok (), st.disk, st.created)
    else (.error .unreadable, d, [])

/-! ## Copies -/

theorem copyBlocks_ok {limits : Limits} {data result : List UInt8}
    (h : copyBlocks limits stores before data written = (.ok (), result)) :
    result = written ++ data := by
  fun_induction copyBlocks limits stores before data written with
  | case1 written =>
    cases h
    exact (List.append_nil _).symm
  | case2 => cases h
  | case3 data written hne hle hstored ih =>
    rw [ih h, List.append_assoc, List.take_append_drop]
  | case4 => cases h

theorem copyBounded_ok {limits : Limits}
    (h : copyBounded limits stores before member = (.ok (), written)) :
    written = member.data ∧ member.data.length = (max 0 member.size).toNat := by
  unfold copyBounded at h
  cases hcopy : copyBlocks limits stores before member.data [] with
  | mk result copied =>
    rw [hcopy] at h
    cases result with
    | error e => cases h
    | ok =>
      have hall := copyBlocks_ok hcopy
      rw [List.nil_append] at hall
      dsimp only at h
      split at h
      · cases h
      · split at h
        · cases h
        · rename_i hlength
          cases h
          rw [not_not] at hlength
          exact ⟨hall, hall ▸ hlength⟩

theorem createFile_ok {os : Os} {d d' : Disk} {target : OsPath} {mode : Mode}
    (h : createFile os d target mode = .ok d') :
    os.reaches target = true ∧ d.walk [] target = .ok none ∧ d' = d ++ [(target, .file mode [])] := by
  unfold createFile at h
  split at h
  · rename_i hreaches
    cases hwalk : d.walk [] target with
    | error e => rw [hwalk] at h; cases h
    | ok entry =>
      rw [hwalk] at h
      cases entry with
      | some node => cases h
      | none =>
        dsimp only at h
        split at h
        · split at h
          · cases h
            exact ⟨hreaches, rfl, rfl⟩
          · cases h
        · cases h
  · cases h

/-! ## Accepted names -/

theorem subset_of_mem_splitOn {part : Str} (h : part ∈ name.splitOn slash) :
    ∀ c ∈ part, c ∈ name := by
  intro c hc
  have hjoin : c ∈ Segments.join slash (name.splitOn slash) :=
    List.mem_flatMap.mpr ⟨part, h, List.mem_cons_of_mem _ hc⟩
  rw [Segments.join_splitOn] at hjoin
  rcases List.mem_cons.mp hjoin with rfl | hmem
  · exact absurd hc (Segments.not_mem_of_mem_splitOn h)
  · exact hmem

theorem safeMemberName_ok (h : safeMemberName name = .ok parts) :
    parts = pathParts name ∧ parts ≠ [] ∧ ∀ part ∈ parts, IsName part := by
  unfold safeMemberName at h
  split at h
  · cases h
  · split at h
    · cases h
    · rename_i hcontrol
      split at h
      · cases h
      · dsimp only at h
        split at h
        · cases h
        · split at h
          · cases h
          · rename_i hunsafe
            split at h
            · cases h
            · cases h
              simp only [Bool.or_eq_true, decide_eq_true_eq, List.any_eq_true, not_or, not_exists,
                not_and] at hunsafe
              refine ⟨rfl, hunsafe.1.2, fun part hpart => ?_⟩
              have hpieces := List.mem_filter.mp hpart
              have hkept := of_decide_eq_true hpieces.2
              refine ⟨hkept.1, Segments.not_mem_of_mem_splitOn hpieces.1, ?_, hkept.2,
                hunsafe.2 part hpart⟩
              -- a zero is a control character
              intro hzero
              apply hcontrol
              exact List.any_eq_true.mpr ⟨0, subset_of_mem_splitOn hpieces.1 0 hzero, by decide⟩

theorem pathParts_name (h : IsName name) : pathParts name = [name] := by
  unfold pathParts
  rw [List.splitOn_eq_singleton h.slash, List.filter_singleton, decide_eq_true ⟨h.ne_nil, h.dot.1⟩]
  rfl

theorem joinPath_names {path : OsPath} (h : ∀ part ∈ parts, IsName part) :
    joinPath path parts = path ++ parts := by
  unfold joinPath
  induction parts generalizing path with
  | nil => exact (List.append_nil path).symm
  | cons part parts ih =>
    rw [List.forall_mem_cons] at h
    have habsolute : isAbsolute part = false := by
      unfold isAbsolute
      rw [decide_eq_false_iff_not]
      intro hhead
      exact h.1.slash (List.mem_of_mem_head? hhead)
    rw [List.foldl_cons, habsolute, if_neg Bool.false_ne_true, pathParts_name h.1, ih h.2,
      List.append_assoc, List.singleton_append]

theorem checkStreamedHeader_ok {limits : Limits} {seen seen' : Seen} {path : RelPath}
    (h : checkStreamedHeader limits seen member = .ok (path, seen')) :
    safeMemberName member.name = .ok path ∧ path ∉ seen.paths ∧ member.kind ≠ .other ∧
      seen.index + 1 ≤ limits.members ∧
      seen.total + (max 0 member.size).toNat ≤ limits.bytes ∧
      seen' = ⟨seen.index + 1, path :: seen.paths, seen.total + (max 0 member.size).toNat⟩ := by
  unfold checkStreamedHeader at h
  split at h
  · cases h
  · rename_i hindex
    split at h
    · cases h
    · obtain ⟨normalized, hname, h⟩ := bind_ok h
      split at h
      · cases h
      · rename_i hnew
        split at h
        · cases h
        · rename_i hkind
          split at h
          · cases h
          · rename_i htotal
            cases h
            exact ⟨hname, hnew, hkind, by omega, by omega, rfl⟩

end NixNas.State
