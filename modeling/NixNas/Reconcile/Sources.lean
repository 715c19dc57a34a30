import Mathlib
import NixNas.Lib.Fallible
import NixNas.Lib.Joined
import NixNas.Reconcile.Targets

/-!
# Names of units and of Quadlet sources

Which names the reconciler knows, and which unit it derives from the name of a source.
-/

open Fallible Joined

namespace NixNas.Reconcile

/-- `_ALLOWED_SUFFIXES`, without the dot. -/
inductive Suffix where
  | container | pod | network | volume | kube | build | image
  deriving DecidableEq, Repr

def Suffix.ext : Suffix → Text
  | .container => "container".toList
  | .pod => "pod".toList
  | .network => "network".toList
  | .volume => "volume".toList
  | .kube => "kube".toList
  | .build => "build".toList
  | .image => "image".toList

/-- A source, by what stands between its prefix and its suffix. -/
def quadletFile (key : Text) (suffix : Suffix) : Text :=
  "nas-v2-".toList ++ (key ++ '.' :: suffix.ext)

def serviceUnit (stem : Text) : Text := "nas-v2-".toList ++ (stem ++ ".service".toList)

def sessionUnit (id : Text) : Text := "nas-v2-session-".toList ++ (id ++ ".target".toList)

def identifierAfter (first key : Text) : Option Text := (key.dropPrefix? first).filter isIdentifier

def networkUnit (key : Text) : Text :=
  match identifierAfter "net-".toList key with
  | some id => serviceUnit id
  | none =>
    match identifierAfter "snet-".toList key with
    | some id => sessionUnit id
    | none => serviceUnit (key ++ "-network".toList)

def sourceUnit (key : Text) : Suffix → Text
  | .container => serviceUnit key
  | .kube => serviceUnit key
  | .network => networkUnit key
  | .pod => serviceUnit (key ++ "-pod".toList)
  | .volume => serviceUnit (key ++ "-volume".toList)
  | .build => serviceUnit (key ++ "-build".toList)
  | .image => serviceUnit (key ++ "-image".toList)

variable {s t : Suffix} {key first name : Text}

theorem Suffix.ext_injective (h : s.ext = t.ext) : s = t := by
  revert h
  cases s <;> cases t <;> decide

theorem Suffix.dot_notMem (s : Suffix) : '.' ∉ s.ext := by
  cases s <;> decide

theorem quadletFile_inj {key' : Text} :
    quadletFile key s = quadletFile key' t ↔ key = key' ∧ s = t := by
  unfold quadletFile
  rw [List.append_cancel_left_eq, join_inj_right s.dot_notMem t.dot_notMem]
  exact and_congr_right fun _ => ⟨Suffix.ext_injective, congrArg _⟩

theorem identifierAfter_eq_some {id : Text} :
    identifierAfter first key = some id ↔ key = first ++ id ∧ isIdentifier id = true := by
  unfold identifierAfter
  rw [Option.filter_eq_some_iff, dropPrefix?_eq_some]

theorem between_eq_some {last mid : Text} :
    between first last name = some mid ↔ name = first ++ (mid ++ last) := by
  unfold between
  rw [Option.bind_eq_some_iff]
  constructor
  · rintro ⟨rest, hfirst, hlast⟩
    rw [dropPrefix?_eq_some.mp hfirst, dropSuffix?_eq_some.mp hlast]
  · intro hname
    exact ⟨_, dropPrefix?_eq_some.mpr hname, dropSuffix?_eq_some.mpr rfl⟩

theorem isName_iff {suffixes : List Text} :
    isName suffixes name = true ↔ ∃ suffix ∈ suffixes, ∃ stem, name = stem ++ suffix ∧
      stem ≠ [] ∧ ∀ c ∈ stem, nameChar c = true := by
  unfold isName
  rw [List.any_eq_true]
  refine exists_congr fun suffix => and_congr_right fun _ => ?_
  constructor
  · intro h
    split at h
    · rename_i stem hstem
      rw [Bool.and_eq_true, Bool.not_eq_true', List.isEmpty_eq_false_iff, List.all_eq_true] at h
      exact ⟨stem, dropSuffix?_eq_some.mp hstem, h.1, h.2⟩
    · cases h
  · rintro ⟨stem, hname, hne, hchars⟩
    rw [dropSuffix?_eq_some.mpr hname]
    simp only [Bool.and_eq_true, Bool.not_eq_true', List.isEmpty_eq_false_iff, List.all_eq_true]
    exact ⟨hne, hchars⟩

section

variable {stem ext unit : Text}

theorem isName_join (exts : List Text) (hexts : ∀ e ∈ exts, '.' ∉ e) (hext : '.' ∉ ext) :
    isName (exts.map fun e ↦ '.' :: e) (stem ++ '.' :: ext) = true ↔
      ext ∈ exts ∧ stem ≠ [] ∧ ∀ c ∈ stem, nameChar c = true := by
  rw [isName_iff]
  constructor
  · rintro ⟨suffix, hsuffix, other, heq, hother⟩
    rcases List.mem_map.mp hsuffix with ⟨e, he, rfl⟩
    rcases (join_inj_right hext (hexts e he)).mp heq with ⟨rfl, rfl⟩
    exact ⟨he, hother⟩
  · rintro ⟨hmem, hstem⟩
    exact ⟨'.' :: ext, List.mem_map_of_mem hmem, stem, rfl, hstem⟩

def unitExts : List Text :=
  ["service".toList, "timer".toList, "target".toList, "path".toList, "socket".toList]

theorem isUnit_join (hext : '.' ∉ ext) : isUnit (stem ++ '.' :: ext) = true ↔
    ext ∈ unitExts ∧ stem ≠ [] ∧ ∀ c ∈ stem, nameChar c = true :=
  isName_join unitExts (by decide) hext

theorem dropinOwner_dropin : dropinOwner (unit ++ ".d/50-nas-v2.conf".toList) =
    if isName [".service".toList, ".timer".toList, ".target".toList] unit then some unit else none := by
  unfold dropinOwner
  rw [dropSuffix?_eq_some.mpr rfl]
  rfl

theorem safeTarget_dropin : (safeTarget (unit ++ ".d/50-nas-v2.conf".toList)).isSome = true ↔
    isName [".service".toList, ".timer".toList, ".target".toList] unit = true := by
  have hnot : isUnit (unit ++ ".d/50-nas-v2.conf".toList) = false := by
    rw [show ".d/50-nas-v2.conf".toList = ".d/50-nas-v2".toList ++ '.' :: "conf".toList from by
      decide, ← List.append_assoc, Bool.eq_false_iff, Ne, isUnit_join (by decide)]
    exact fun h => absurd h.1 (by decide)
  unfold safeTarget
  rw [dropinOwner_dropin, hnot]
  cases isName [".service".toList, ".timer".toList, ".target".toList] unit with
  | true => exact iff_of_true rfl rfl
  | false => exact iff_of_false Bool.noConfusion Bool.noConfusion

theorem safeTarget_join (hext : '.' ∉ ext) (hconf : ext ≠ "conf".toList) :
    (safeTarget (stem ++ '.' :: ext)).isSome = true ↔ isUnit (stem ++ '.' :: ext) = true := by
  have hnone : dropinOwner (stem ++ '.' :: ext) = none := by
    unfold dropinOwner
    rw [Option.filter_eq_none_iff]
    intro other hother
    rw [dropSuffix?_eq_some, show ".d/50-nas-v2.conf".toList =
      ".d/50-nas-v2".toList ++ '.' :: "conf".toList from by decide, ← List.append_assoc,
      join_inj_right hext (by decide)] at hother
    exact (hconf hother.2).elim
  unfold safeTarget
  rw [hnone]
  cases isUnit (stem ++ '.' :: ext) with
  | true => exact iff_of_true rfl rfl
  | false => exact iff_of_false Bool.noConfusion Bool.noConfusion

end

section

variable {id : Text}

theorem between_quadletFile {t : Suffix} :
    (between ("nas-v2-".toList ++ first) ('.' :: t.ext) (quadletFile key s)).filter isIdentifier =
      if s = t then identifierAfter first key else none := by
  ext id
  rw [Option.filter_eq_some_iff, between_eq_some, List.append_assoc]
  unfold quadletFile
  rw [List.append_cancel_left_eq, ← List.append_assoc, join_inj_right s.dot_notMem t.dot_notMem]
  split
  · rename_i heq
    rw [identifierAfter_eq_some, heq, and_iff_left rfl]
  · rename_i hne
    constructor
    · exact fun h => (hne (Suffix.ext_injective h.1.2)).elim
    · nofun

theorem isQuadlet_quadletFile :
    isQuadlet (quadletFile key s) = true ↔ key ≠ [] ∧ ∀ c ∈ key, nameChar c = true := by
  unfold isQuadlet quadletFile
  rw [dropPrefix?_eq_some.mpr rfl]
  show isName _ _ = true ↔ _
  rw [isName_iff]
  constructor
  · rintro ⟨suffix, hsuffix, stem, heq, hne, hchars⟩
    have hkey : ∃ t : Suffix, suffix = '.' :: t.ext := by
      simp only [List.mem_cons, List.not_mem_nil, or_false] at hsuffix
      rcases hsuffix with rfl | rfl | rfl | rfl | rfl | rfl | rfl
      · exact ⟨.container, rfl⟩
      · exact ⟨.pod, rfl⟩
      · exact ⟨.network, rfl⟩
      · exact ⟨.volume, rfl⟩
      · exact ⟨.kube, rfl⟩
      · exact ⟨.image, rfl⟩
      · exact ⟨.build, rfl⟩
    rcases hkey with ⟨t, rfl⟩
    rw [((join_inj_right s.dot_notMem t.dot_notMem).mp heq).1]
    exact ⟨hne, hchars⟩
  · intro h
    refine ⟨'.' :: s.ext, ?_, key, rfl, h⟩
    cases s <;> decide

theorem quadletTails_eq : quadletTails =
    [('.' :: Suffix.container.ext, []), ('.' :: Suffix.network.ext, "-network".toList),
      ('.' :: Suffix.pod.ext, "-pod".toList), ('.' :: Suffix.volume.ext, "-volume".toList),
      ('.' :: Suffix.image.ext, "-image".toList), ('.' :: Suffix.build.ext, "-build".toList),
      ('.' :: Suffix.kube.ext, [])] := by
  decide

/-- The last rule of `_safe_quadlet_target`. -/
theorem findSome_quadletTails :
    (quadletTails.findSome? fun tail ↦ ((quadletFile key s).dropSuffix? tail.1).map fun name ↦
      name ++ tail.2 ++ ".service".toList) =
      some (if s = .network then serviceUnit (key ++ "-network".toList) else sourceUnit key s) := by
  have hdrop : ∀ t : Suffix, (quadletFile key s).dropSuffix? ('.' :: t.ext) =
      if s = t then some ("nas-v2-".toList ++ key) else none := by
    intro t
    unfold quadletFile
    rw [← List.append_assoc, dropSuffix?_join s.dot_notMem t.dot_notMem]
    split
    · rename_i heq
      rw [if_pos (Suffix.ext_injective heq)]
    · rename_i hne
      rw [if_neg fun heq => hne (congrArg _ heq)]
  have hjoin : ∀ tail : Text, "nas-v2-".toList ++ key ++ tail ++ ".service".toList =
      serviceUnit (key ++ tail) := by
    intro tail
    unfold serviceUnit
    rw [List.append_assoc, List.append_assoc, List.append_assoc]
  have hplain : "nas-v2-".toList ++ key ++ ".service".toList = serviceUnit key :=
    List.append_assoc _ _ _
  rw [quadletTails_eq]
  cases s <;>
    simp only [List.findSome?_cons, hdrop, reduceCtorEq, if_false, if_true, Option.map_none,
      Option.map_some, hjoin, hplain, sourceUnit, List.append_nil]

theorem nameChar_of_isIdentifier (h : isIdentifier id = true) : ∀ c ∈ id, nameChar c = true := by
  intro c hc
  have hchar := identifierChar h c hc
  unfold nameChar
  rw [Bool.or_eq_true, Bool.or_eq_true, decide_eq_true_eq] at hchar
  rcases hchar with (hlower | hdigit) | rfl
  · simp [Char.isAlphanum, Char.isAlpha, hlower]
  · simp [Char.isAlphanum, hdigit]
  · decide

theorem ne_nil_of_isIdentifier (h : isIdentifier id = true) : id ≠ [] := by
  rintro rfl
  cases h

theorem safe_of_identifierAfter (hfirst : ∀ c ∈ first, nameChar c = true)
    (h : identifierAfter first key = some id) : key ≠ [] ∧ ∀ c ∈ key, nameChar c = true := by
  rcases identifierAfter_eq_some.mp h with ⟨rfl, hid⟩
  refine ⟨List.append_ne_nil_of_right_ne_nil _ (ne_nil_of_isIdentifier hid), ?_⟩
  intro c hc
  rcases List.mem_append.mp hc with hc | hc
  · exact hfirst c hc
  · exact nameChar_of_isIdentifier hid c hc

theorem safeQuadletTarget_eq : safeQuadletTarget (quadletFile key s) =
    if key ≠ [] ∧ ∀ c ∈ key, nameChar c = true then some (sourceUnit key s) else none := by
  have hcontainer : (between "nas-v2-".toList ".container".toList (quadletFile key s)).filter
      isIdentifier = if s = .container then identifierAfter [] key else none :=
    between_quadletFile (t := .container)
  have hnet : (between "nas-v2-net-".toList ".network".toList (quadletFile key s)).filter
      isIdentifier = if s = .network then identifierAfter "net-".toList key else none :=
    between_quadletFile (t := .network)
  have hsnet : (between "nas-v2-snet-".toList ".network".toList (quadletFile key s)).filter
      isIdentifier = if s = .network then identifierAfter "snet-".toList key else none :=
    between_quadletFile (t := .network)
  have hlast : ∀ unit : Text, (if (!isQuadlet (quadletFile key s)) = true then none else some unit) =
      if key ≠ [] ∧ ∀ c ∈ key, nameChar c = true then some unit else none := by
    intro unit
    by_cases hsafe : key ≠ [] ∧ ∀ c ∈ key, nameChar c = true
    · rw [isQuadlet_quadletFile.mpr hsafe, if_neg (by decide), if_pos hsafe]
    · rw [Bool.eq_false_iff.mpr (mt isQuadlet_quadletFile.mp hsafe), if_pos (by decide),
        if_neg hsafe]
  have hunit : ∀ id : Text, "nas-v2-".toList ++ id ++ ".service".toList = serviceUnit id :=
    fun _ => List.append_assoc _ _ _
  unfold safeQuadletTarget
  simp only [hcontainer, hnet, hsnet, findSome_quadletTails, hlast, hunit]
  cases s with
  | container =>
    cases hid : identifierAfter [] key with
    | none => simp only [reduceCtorEq, if_false, if_true]
    | some id =>
      simp only [if_true]
      rw [if_pos (safe_of_identifierAfter (fun _ h => (List.not_mem_nil h).elim) hid)]
      rw [show key = id from (identifierAfter_eq_some.mp hid).1]
      rfl
  | network =>
    simp only [reduceCtorEq, if_false, if_true, sourceUnit, networkUnit]
    cases hid : identifierAfter "net-".toList key with
    | some id =>
      have hsafe := safe_of_identifierAfter (forall_mem_of_all (by decide)) hid
      simp only [if_pos hsafe]
    | none =>
      cases hid : identifierAfter "snet-".toList key with
      | some id =>
        have hsafe := safe_of_identifierAfter (forall_mem_of_all (by decide)) hid
        simp only [if_pos hsafe]
        exact congrArg some (List.append_assoc _ _ _)
      | none => rfl
  | _ => simp only [reduceCtorEq, if_false]

end

end NixNas.Reconcile
