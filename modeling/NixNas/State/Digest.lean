import NixNas.Lib.Framing
import NixNas.State.Tree

/-!
# Tree digests (`hash_path` and `_dir_content_digest` of `services/nas_state.py`)

Both feed a hash with a header and the content of each entry, one after the other.
-/

open Fallible NixNas.Framing

namespace NixNas.State

variable {μ : Type}
variable {entries entries' : List (RelPath × Node μ)}

/-! ## Headers -/

/-- How a mode stands in a header. -/
structure Marking (μ : Type) where
  write : μ → List UInt8
  read : ∀ {m m' : μ} {x x' : List UInt8}, write m ++ x = write m' ++ x' → m = m' ∧ x = x'

/-- `f"{mode:o}".encode()`. -/
def octal (mode : Mode) : List UInt8 := (Nat.toDigits 8 mode).flatMap String.utf8EncodeChar

theorem octal_injective {mode mode' : Mode} (h : octal mode = octal mode') : mode = mode' := by
  have hvalue := congrArg (fun digits ↦ Nat.ofDigitChars 8 digits 0) (utf8_injective h)
  simp only [Nat.ofDigitChars_toDigits (by decide : 1 < 8) (by decide : 8 ≤ 10)] at hvalue
  exact Fin.ext hvalue

theorem zero_notMem_octal (mode : Mode) : 0 ∉ octal mode := by
  intro hzero
  obtain ⟨c, hc, hmem⟩ := List.mem_flatMap.mp hzero
  have hdigit := Nat.isDigit_of_mem_toDigits (by decide : 0 < 8) (by decide) hc
  rw [zero_mem_utf8EncodeChar hmem] at hdigit
  exact absurd hdigit (by decide)

/-- The permission bits and a separator, as `hash_path` writes them. -/
def permissions : Marking Mode where
  write mode := octal mode ++ [0]
  read {mode mode'} x x' h := by
    rw [List.append_assoc, List.append_assoc, List.singleton_append, List.singleton_append,
      Joined.join_inj (zero_notMem_octal mode) (zero_notMem_octal mode')] at h
    exact ⟨octal_injective h.1, h.2⟩

/-- `_dir_content_digest` leaves modes out. -/
def noPermissions : Marking Unit where
  write _ := []
  read h := ⟨rfl, h⟩

def kindByte (isDir : Bool) : UInt8 := if isDir then 0x64 else 0x66

/-- `f"{kind}\0{relative}\0{mode:o}\0".encode()` -/
def header (marking : Marking μ) (e : RelPath × Node μ) : Option (List UInt8) :=
  (utf8? (asPosix e.1)).map fun relative ↦
    [kindByte e.2.isDir, 0] ++ relative ++ [0] ++ marking.write e.2.mode

/-- What is fed to the hash for the entries, unless a name does not encode. -/
def fed (marking : Marking μ) (entries : List (RelPath × Node μ)) : Option (List UInt8) :=
  (entries.mapM fun e ↦ (header marking e).map (· ++ e.2.content)).map List.flatten

/-- The bytes that `hash_path` digests. -/
def hashedBytes (t : FileTree Mode) : Option (List UInt8) := fed permissions t.paths

/-- The bytes that `_dir_content_digest` digests. -/
def dirContentBytes (t : FileTree Mode) : Option (List UInt8) := fed noPermissions t.erase.below

/-! ## Heads -/

structure Head (μ : Type) where
  path : RelPath
  isDir : Bool
  mode : μ

def headOf (e : RelPath × Node μ) : Head μ := ⟨e.1, e.2.isDir, e.2.mode⟩

def itemOf (e : RelPath × Node μ) : Item (Head μ) UInt8 := ⟨headOf e, e.2.content⟩

def Encodes (path : RelPath) : Prop := (utf8? (asPosix path)).isSome

instance : DecidablePred Encodes := fun _ ↦ inferInstanceAs (Decidable (_ = true))

structure BelowHeads (heads : List (Head μ)) : Prop where
  listing : Listing (heads.map fun h ↦ (h.path, h.isDir))
  encodes : ∀ h ∈ heads, Encodes h.path

def TreeHeads : List (Head μ) → Prop
  | [] => False
  | root :: heads => root.path = [] ∧ BelowHeads heads ∧ (root.isDir = false → heads = [])

def writeHead (marking : Marking μ) (h : Head μ) : List UInt8 :=
  [kindByte h.isDir, 0] ++ (utf8? (asPosix h.path)).getD [] ++ [0] ++ marking.write h.mode

def grammar (marking : Marking μ) (admits : List (Head μ) → Prop) : Grammar (Head μ) UInt8 where
  enc := writeHead marking
  bodied h := !h.isDir
  admits := admits

variable {marking : Marking μ} {heads : List (Head μ)} {items : List (Item (Head μ) UInt8)}

theorem writeHead_read {h h' : Head μ} {x x' : List UInt8}
    (hencodes : Encodes h.path) (hencodes' : Encodes h'.path)
    (hnames : ∀ name ∈ h.path, IsName name) (hnames' : ∀ name ∈ h'.path, IsName name)
    (heq : writeHead marking h ++ x = writeHead marking h' ++ x') : h = h' ∧ x = x' := by
  obtain ⟨relative, hrelative⟩ := Option.isSome_iff_exists.mp hencodes
  obtain ⟨relative', hrelative'⟩ := Option.isSome_iff_exists.mp hencodes'
  unfold writeHead at heq
  rw [hrelative, hrelative', Option.getD_some, Option.getD_some] at heq
  simp only [List.append_assoc, List.cons_append, List.nil_append, List.cons.injEq, true_and] at heq
  obtain ⟨hkind, htexts⟩ := heq
  rw [Joined.join_inj (zero_notMem_utf8 hrelative (zero_notMem_asPosix hnames))
    (zero_notMem_utf8 hrelative' (zero_notMem_asPosix hnames'))] at htexts
  obtain ⟨htext, hmarks⟩ := htexts
  obtain ⟨hmode, hx⟩ := marking.read hmarks
  refine ⟨?_, hx⟩
  have hpath : h.path = h'.path := by
    apply asPosix_inj hnames hnames'
    rw [htext] at hrelative
    exact utf8?_inj hrelative hrelative'
  have hdir : h.isDir = h'.isDir := by
    revert hkind
    cases h.isDir <;> cases h'.isDir <;> decide
  cases h
  cases h'
  cases hpath
  cases hdir
  cases hmode
  rfl

theorem BelowHeads.name {heads : List (Head μ)} (h : BelowHeads heads) {head : Head μ}
    (hhead : head ∈ heads) : ∀ name ∈ head.path, IsName name :=
  (h.listing.names _ (List.mem_map_of_mem hhead)).2

theorem BelowHeads.shorter {heads' : List (Head μ)} (h : BelowHeads (heads ++ heads')) :
    BelowHeads heads := by
  refine ⟨?_, fun head hhead => h.encodes head (List.mem_append_left _ hhead)⟩
  have hlisting := h.listing
  rw [List.map_append] at hlisting
  exact hlisting.shorter

theorem lawful_below (marking : Marking μ) : (grammar marking BelowHeads).Lawful where
  ne_nil _ := List.cons_ne_nil _ _
  read h h' hmem hmem' heq :=
    writeHead_read (h.encodes _ hmem) (h'.encodes _ hmem') (h.name hmem) (h'.name hmem') heq
  shorter _ h := h.shorter

theorem TreeHeads.encodes (h : TreeHeads heads) {head : Head μ}
    (hhead : head ∈ heads) : Encodes head.path ∧ ∀ name ∈ head.path, IsName name := by
  cases heads with
  | nil => exact absurd h id
  | cons root heads =>
    obtain ⟨hroot, hbelow, -⟩ := h
    rcases List.mem_cons.mp hhead with rfl | hmem
    · rw [hroot]
      exact ⟨by decide, nofun⟩
    · exact ⟨hbelow.encodes _ hmem, hbelow.name hmem⟩

theorem lawful_tree (marking : Marking μ) : (grammar marking TreeHeads).Lawful where
  ne_nil _ := List.cons_ne_nil _ _
  read h h' hmem hmem' heq :=
    writeHead_read (h.encodes hmem).1 (h'.encodes hmem').1 (h.encodes hmem).2 (h'.encodes hmem').2 heq
  shorter {hs hs'} hne h := by
    cases hs with
    | nil => exact absurd rfl hne
    | cons root heads =>
      obtain ⟨hroot, hbelow, hflat⟩ := h
      refine ⟨hroot, hbelow.shorter, fun hfile => ?_⟩
      exact (List.append_eq_nil_iff.mp (hflat hfile)).1

/-! ## What is fed -/

theorem fed_of_encodes (admits : List (Head μ) → Prop) (h : ∀ e ∈ entries, Encodes e.1) :
    fed marking entries = some ((grammar marking admits).stream (entries.map itemOf)) := by
  induction entries with
  | nil => rfl
  | cons e entries ih =>
    rw [List.forall_mem_cons] at h
    obtain ⟨relative, hrelative⟩ := Option.isSome_iff_exists.mp h.1
    have hrest := ih h.2
    unfold fed at hrest ⊢
    obtain ⟨pieces, hpieces, hflat⟩ := Option.map_eq_some_iff.mp hrest
    have hheader : header marking e = some (writeHead marking (headOf e)) := by
      unfold header writeHead headOf
      rw [hrelative]
      rfl
    rw [List.mapM_cons, hheader, hpieces, List.map_cons, stream_cons, ← hflat, ← List.append_assoc]
    rfl

theorem encodes_of_fed {bytes : List UInt8}
    (h : fed marking entries = some bytes) : ∀ e ∈ entries, Encodes e.1 := by
  unfold fed at h
  obtain ⟨pieces, hpieces, -⟩ := Option.map_eq_some_iff.mp h
  clear h
  induction entries generalizing pieces with
  | nil => exact nofun
  | cons e entries ih =>
    rw [List.mapM_cons] at hpieces
    obtain ⟨piece, hpiece, hrest⟩ := Option.bind_eq_some_iff.mp hpieces
    obtain ⟨rest, hrest, -⟩ := Option.bind_eq_some_iff.mp hrest
    obtain ⟨_, hheader, -⟩ := Option.map_eq_some_iff.mp hpiece
    obtain ⟨relative, hrelative, -⟩ := Option.map_eq_some_iff.mp hheader
    exact List.forall_mem_cons.mpr ⟨Option.isSome_iff_exists.mpr ⟨_, hrelative⟩, ih _ hrest⟩

theorem fed_eq_iff (admits : List (Head μ) → Prop) :
    (∃ bytes, fed marking entries = some bytes ∧ fed marking entries' = some bytes) ↔
      (∀ e ∈ entries, Encodes e.1) ∧ (∀ e ∈ entries', Encodes e.1) ∧
        (grammar marking admits).stream (entries'.map itemOf) =
          (grammar marking admits).stream (entries.map itemOf) := by
  constructor
  · rintro ⟨bytes, hbytes, hbytes'⟩
    refine ⟨encodes_of_fed hbytes, encodes_of_fed hbytes', ?_⟩
    rw [fed_of_encodes admits (encodes_of_fed hbytes)] at hbytes
    rw [fed_of_encodes admits (encodes_of_fed hbytes')] at hbytes'
    exact Option.some.inj (hbytes'.trans hbytes.symm)
  · rintro ⟨hencodes, hencodes', hstream⟩
    refine ⟨_, fed_of_encodes admits hencodes, ?_⟩
    rw [fed_of_encodes admits hencodes', hstream]

/-! ## Trees as items -/

def entryOf (item : Item (Head μ) UInt8) : RelPath × Node μ :=
  (item.head.path,
    if item.head.isDir then .directory item.head.mode else .file item.head.mode item.body)

@[simp]
theorem entryOf_itemOf (e : RelPath × Node μ) : entryOf (itemOf e) = e := by
  obtain ⟨path, mode | ⟨mode, content⟩⟩ := e <;> rfl

theorem itemOf_entryOf {item : Item (Head μ) UInt8} (h : item.head.isDir = true → item.body = []) :
    itemOf (entryOf item) = item := by
  obtain ⟨⟨path, isDir, mode⟩, body⟩ := item
  cases isDir with
  | true =>
    cases h rfl
    rfl
  | false => rfl

theorem itemOf_injective : Function.Injective (itemOf (μ := μ)) :=
  Function.LeftInverse.injective entryOf_itemOf

theorem map_itemOf_inj : entries.map itemOf = entries'.map itemOf ↔ entries = entries' :=
  List.map_inj_right fun _ _ h => itemOf_injective h

theorem valid_below (marking : Marking μ) {below : List (RelPath × Node μ)}
    (hlisting : Listing (shape below)) (hencodes : ∀ e ∈ below, Encodes e.1) :
    (grammar marking BelowHeads).Valid (below.map itemOf) where
  heads := by
    refine ⟨?_, ?_⟩
    · rw [List.map_map, List.map_map]
      exact hlisting
    · rw [List.map_map, List.forall_mem_map]
      exact hencodes
  bodies := by
    rw [List.forall_mem_map]
    rintro ⟨path, mode | ⟨mode, content⟩⟩ _ h
    · rfl
    · cases h

theorem map_itemOf_entryOf {admits : List (Head μ) → Prop}
    (h : (grammar marking admits).Valid items) :
    (items.map entryOf).map itemOf = items := by
  rw [List.map_map]
  apply (List.map_congr_left fun item hitem => ?_).trans (List.map_id items)
  apply itemOf_entryOf
  intro hdir
  apply h.bodies item hitem
  show (!item.head.isDir) = false
  rw [hdir]
  rfl

theorem shape_map_entryOf (items : List (Item (Head μ) UInt8)) :
    shape (items.map entryOf) = (items.map Item.head).map fun h ↦ (h.path, h.isDir) := by
  unfold shape
  rw [List.map_map, List.map_map]
  apply List.map_congr_left
  rintro ⟨⟨path, isDir, mode⟩, body⟩ _
  cases isDir <;> rfl

theorem exists_below (h : (grammar marking BelowHeads).Valid items) :
    ∃ below, below.map itemOf = items ∧ Listing (shape below) ∧ ∀ e ∈ below, Encodes e.1 := by
  refine ⟨items.map entryOf, map_itemOf_entryOf h, ?_, ?_⟩
  · rw [shape_map_entryOf]
    exact h.heads.listing
  · rw [List.forall_mem_map]
    intro item hitem
    exact h.heads.encodes _ (List.mem_map_of_mem hitem)

theorem valid_tree {t : FileTree μ} (hencodes : ∀ e ∈ t.paths, Encodes e.1) :
    (grammar marking TreeHeads).Valid (t.paths.map itemOf) where
  heads := by
    have hbelow := valid_below marking t.listing
      (List.forall_mem_cons.mp hencodes).2
    refine ⟨rfl, hbelow.heads, fun hfile => ?_⟩
    have hempty : t.below = [] := t.flat hfile
    rw [hempty]
    rfl
  bodies := by
    rw [List.forall_mem_map]
    rintro ⟨path, mode | ⟨mode, content⟩⟩ _ h
    · rfl
    · cases h

theorem exists_tree (h : (grammar marking TreeHeads).Valid items) :
    ∃ t : FileTree μ, t.paths.map itemOf = items ∧ ∀ e ∈ t.paths, Encodes e.1 := by
  have hback := map_itemOf_entryOf h
  cases items with
  | nil => exact absurd h.heads id
  | cons root items =>
    obtain ⟨hroot, hbelow, hflat⟩ := h.heads
    have hlisting : Listing (shape (items.map entryOf)) := by
      rw [shape_map_entryOf]
      exact hbelow.listing
    have hempty : (entryOf root).2.isDir = false → items.map entryOf = [] := by
      intro hfile
      have hdir : root.head.isDir = false := by
        obtain ⟨⟨path, isDir, mode⟩, body⟩ := root
        cases isDir with
        | true => cases hfile
        | false => rfl
      rw [List.map_eq_nil_iff.mp (hflat hdir), List.map_nil]
    refine ⟨⟨(entryOf root).2, items.map entryOf, hlisting, hempty⟩, ?_, ?_⟩
    · have hentry : entryOf root = ([], (entryOf root).2) := by
        rw [← hroot]
        rfl
      show itemOf ([], (entryOf root).2) :: (items.map entryOf).map itemOf = _
      rw [← hentry]
      exact hback
    · show ∀ e ∈ ([], (entryOf root).2) :: items.map entryOf, Encodes e.1
      intro e he
      rcases List.mem_cons.mp he with rfl | he
      · show Encodes []
        decide
      · obtain ⟨item, hitem, rfl⟩ := List.mem_map.mp he
        exact hbelow.encodes _ (List.mem_map_of_mem hitem)

/-! ## Which trees a digest tells apart -/

def SameHashed (t t' : FileTree Mode) : Prop :=
  ∃ bytes, hashedBytes t = some bytes ∧ hashedBytes t' = some bytes

def SameDirContent (t t' : FileTree Mode) : Prop :=
  ∃ bytes, dirContentBytes t = some bytes ∧ dirContentBytes t' = some bytes

/-- No entry follows a file, and no end of a file reads as further entries of the tree. -/
def HashFramed (t : FileTree Mode) : Prop :=
  (grammar permissions TreeHeads).Framed (t.paths.map itemOf)

def ContentFramed (t : FileTree Mode) : Prop :=
  (grammar noPermissions BelowHeads).Framed (t.erase.below.map itemOf)

def FileTree.bare (below : List (RelPath × Node Unit)) (h : Listing (shape below)) : FileTree Mode where
  root := .directory 0
  below := below.map fun e ↦ (e.1, e.2.map fun _ ↦ 0)
  listing := by
    rw [shape_map]
    exact h
  flat := nofun

theorem erase_bare (below : List (RelPath × Node Unit)) (h : Listing (shape below)) :
    (FileTree.bare below h).erase.below = below := by
  show (below.map _).map _ = below
  rw [List.map_map]
  apply (List.map_congr_left fun e _ => ?_).trans (List.map_id below)
  obtain ⟨path, mode | ⟨mode, content⟩⟩ := e <;> rfl

variable {t : FileTree Mode}

theorem hashed_unique_iff (hencodes : ∀ e ∈ t.paths, Encodes e.1) :
    (∀ t', SameHashed t t' → t' = t) ↔ HashFramed t := by
  unfold HashFramed
  rw [← unique_iff (lawful_tree permissions) (valid_tree hencodes)]
  constructor
  · intro hunique items hvalid hstream
    obtain ⟨t', rfl, hencodes'⟩ := exists_tree hvalid
    rw [hunique t' ((fed_eq_iff TreeHeads).mpr ⟨hencodes, hencodes', hstream⟩)]
  · intro hunique t' hsame
    obtain ⟨-, hencodes', hstream⟩ := (fed_eq_iff TreeHeads).mp hsame
    have hpaths := map_itemOf_inj.mp (hunique _ (valid_tree hencodes') hstream)
    obtain ⟨hroot, hbelow⟩ := List.cons.inj hpaths
    exact FileTree.ext (congrArg Prod.snd hroot) hbelow

theorem erase_eq_iff {t' : FileTree Mode} (h : t.root.isDir = true) (h' : t'.root.isDir = true) :
    t'.erase = t.erase ↔ t'.erase.below = t.erase.below := by
  constructor
  · exact congrArg FileTree.below
  · intro hbelow
    refine FileTree.ext ?_ hbelow
    show t'.root.map _ = t.root.map _
    cases hroot : t.root with
    | directory mode =>
      cases hroot' : t'.root with
      | directory mode' => rfl
      | file mode' content' => rw [hroot'] at h'; cases h'
    | file mode content => rw [hroot] at h; cases h

theorem dirContent_unique_iff (hdir : t.root.isDir = true)
    (hencodes : ∀ e ∈ t.erase.below, Encodes e.1) :
    (∀ t', t'.root.isDir = true → SameDirContent t t' → t'.erase = t.erase) ↔ ContentFramed t := by
  unfold ContentFramed
  rw [← unique_iff (lawful_below noPermissions) (valid_below noPermissions t.erase.listing hencodes)]
  constructor
  · intro hunique items hvalid hstream
    obtain ⟨below, rfl, hlisting, hencodes'⟩ := exists_below hvalid
    have hsame : SameDirContent t (.bare below hlisting) := by
      apply (fed_eq_iff BelowHeads).mpr
      rw [erase_bare]
      exact ⟨hencodes, hencodes', hstream⟩
    have hbelow := (erase_eq_iff hdir rfl).mp (hunique _ rfl hsame)
    rw [erase_bare] at hbelow
    rw [hbelow]
  · intro hunique t' hdir' hsame
    obtain ⟨-, hencodes', hstream⟩ := (fed_eq_iff BelowHeads).mp hsame
    apply (erase_eq_iff hdir hdir').mpr
    exact map_itemOf_inj.mp (hunique _ (valid_below noPermissions t'.erase.listing hencodes') hstream)

/-- Exactly the trees that frame their files are told from all others by their digests, and those
with a name that does not encode, which have no digest. -/
theorem identified_iff (t : FileTree Mode) :
    ((∀ t', SameHashed t t' → t' = t) ↔ (∃ e ∈ t.paths, ¬ Encodes e.1) ∨ HashFramed t) ∧
      ((∀ t', t.root.isDir = true → t'.root.isDir = true → SameDirContent t t' →
          t'.erase = t.erase) ↔
        t.root.isDir = false ∨ (∃ e ∈ t.erase.below, ¬ Encodes e.1) ∨ ContentFramed t) := by
  constructor
  · by_cases hencodes : ∀ e ∈ t.paths, Encodes e.1
    · rw [hashed_unique_iff hencodes, or_iff_right]
      rintro ⟨e, he, hnot⟩
      exact hnot (hencodes e he)
    · refine iff_of_true ?_ (.inl (by simpa using hencodes))
      rintro t' ⟨bytes, hbytes, -⟩
      exact absurd (encodes_of_fed hbytes) hencodes
  · cases hdir : t.root.isDir with
    | false => exact iff_of_true (fun _ hfile => nomatch hfile) (.inl rfl)
    | true =>
      by_cases hencodes : ∀ e ∈ t.erase.below, Encodes e.1
      · rw [or_iff_right (by decide), or_iff_right (fun ⟨e, he, hnot⟩ => hnot (hencodes e he)),
          ← dirContent_unique_iff hdir hencodes]
        exact forall_congr' fun t' => forall_prop_of_true rfl
      · refine iff_of_true ?_ (.inr (.inl (by simpa using hencodes)))
        rintro t' - - ⟨bytes, hbytes, -⟩
        exact absurd (encodes_of_fed hbytes) hencodes

def twoFiles : FileTree Mode where
  root := .directory 0o700
  below := [([str "a"], .file 0o644 []), ([str "b"], .file 0o644 [0x6f, 0x6b])]
  listing := by decide
  flat := nofun

def oneFile (header : List UInt8) : FileTree Mode where
  root := .directory 0o700
  below := [([str "a"], .file 0o644 (header ++ [0x6f, 0x6b]))]
  listing := by
    show Listing [([str "a"], false)]
    decide
  flat := nofun

/-- Neither digest tells two files from one that holds the header of the second. -/
theorem not_identified :
    (¬ ∀ t t' : FileTree Mode, SameHashed t t' → t' = t) ∧
      ¬ ∀ t t' : FileTree Mode, t.root.isDir = true → t'.root.isDir = true →
        SameDirContent t t' → t'.erase = t.erase := by
  constructor
  · intro h
    have hsame : SameHashed twoFiles (oneFile [0x66, 0, 0x62, 0, 0x36, 0x34, 0x34, 0]) :=
      ⟨_, rfl, by decide⟩
    have hbelow := congrArg (fun t ↦ t.below.length) (h _ _ hsame)
    exact absurd hbelow (by decide)
  · intro h
    have hsame : SameDirContent twoFiles (oneFile [0x66, 0, 0x62, 0]) := ⟨_, rfl, by decide⟩
    have hbelow := congrArg (fun t ↦ t.below.length) (h _ _ rfl rfl hsame)
    exact absurd hbelow (by decide)

end NixNas.State
