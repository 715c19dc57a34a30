import NixNas.Session.Private
import NixNas.Session.Projection

/-!
# Templates that stay below their root

When a session is compiled its templates are tested with one probe word, when it starts with the
identifier itself.
-/

open Fallible Template NixNas.Spec

namespace NixNas.Session

/-- `p` lies below `q` and is not `q` itself. -/
def StrictlyBeneath (p q : PurePath) : Prop := Beneath p q ∧ q.parts.length < p.parts.length

instance (p q : PurePath) : Decidable (StrictlyBeneath p q) := inferInstanceAs (Decidable (_ ∧ _))

/-- Below the root there is no link: a path below it leads where the root leads, and on from there. -/
def Unlinked (resolve : PurePath → PurePath) (root : PurePath) : Prop :=
  ∀ p, Beneath p root → resolve p = ⟨(resolve root).root, (resolve root).parts ++
    p.parts.drop root.parts.length⟩

/-- Every valid identity starts with a source strictly below the root of the template. -/
def Contained (resolve : PurePath → PurePath) (e : VolumeTemplate) : Prop :=
  ∀ t : Identity, (e.scope = .user → t.user.isSome = true) →
    ∃ v, resolveVolume resolve t.inst t.user e = .ok v ∧
      StrictlyBeneath v.source (purePath e.root)

/-! ## Words -/

structure SafeWord (x : Text) : Prop where
  word : PathWord x
  plain : ∀ c ∈ x, c ∉ ['\x00', '\r', '\n', ':', '\x7b', '\x7d']

theorem safeWord_of_letters {x : Text} {letter : Char → Bool} (hword : PathWord x)
    (h : x.all letter = true)
    (hforbidden : ['\x00', '\r', '\n', ':', '\x7b', '\x7d'].all (fun c ↦ !letter c) = true) :
    SafeWord x := by
  refine ⟨hword, fun c hc hmem => notMem_of_letters h ?_ hc⟩
  exact (Bool.not_eq_true' _).mp (List.all_eq_true.mp hforbidden c hmem)

theorem safeWord_instance {x : Text} (h : isInstanceId x = true) : SafeWord x :=
  safeWord_of_letters (pathWord_instance h) (all_instance h) (by decide)

theorem safeWord_user {x : Text} (h : isUserId x = true) : SafeWord x :=
  safeWord_of_letters (pathWord_user h) (all_user h) (by decide)

def Scope.probe (scope : Scope) : Text := scope.token.tail.dropLast ++ "-probe".toList

theorem pathWord_probe (scope : Scope) : PathWord scope.probe := by
  cases scope
  · exact ⟨by decide, 'i', by decide, by decide⟩
  · exact ⟨by decide, 'u', by decide, by decide⟩

theorem pathWord_token (scope : Scope) : PathWord scope.token := by
  cases scope
  · exact ⟨by decide, 'i', by decide, by decide⟩
  · exact ⟨by decide, 'u', by decide, by decide⟩

theorem probe_ne_token (scope : Scope) : scope.probe ≠ scope.token := by
  cases scope <;> decide

/-! ## Paths of a filled template -/

variable {s x y : Text}
variable {c : Char} {value out : Text}

theorem rootOf_of_ne (hc : c ≠ '/') (rest : Text) : rootOf (c :: rest) = [] := by
  have hfirst : ('/' == c) = false := beq_false_of_ne hc.symm
  unfold rootOf
  simp [List.isPrefixOf, hfirst]

theorem fill_cons_ne (hc : c ≠ '/') (h : PathWord x) (rest : Text) :
    ∃ d tail, (c :: rest).flatMap (fill mark x) = d :: tail ∧ d ≠ '/' := by
  rw [List.flatMap_cons]
  unfold fill
  split
  · obtain ⟨d, tail, rfl⟩ := List.exists_cons_of_ne_nil h.ne_nil
    exact ⟨d, _, rfl, fun heq => h.slash (heq ▸ List.mem_cons_self)⟩
  · exact ⟨c, _, rfl, hc⟩

theorem rootOf_fill (h : PathWord x) (s : Text) : rootOf (s.flatMap (fill mark x)) = rootOf s := by
  have hslash : ∀ rest : Text, ('/' :: rest).flatMap (fill mark x) =
      '/' :: rest.flatMap (fill mark x) := fun _ => rfl
  have hfront : ∀ rest : Text, rest = [] ∨ (∃ tail, rest = '/' :: tail) ∨
      ∃ c tail, rest = c :: tail ∧ c ≠ '/' := by
    intro rest
    cases rest with
    | nil => exact .inl rfl
    | cons c tail =>
      by_cases hc : c = '/'
      · exact .inr (.inl ⟨tail, by rw [hc]⟩)
      · exact .inr (.inr ⟨c, tail, rfl, hc⟩)
  obtain rfl | ⟨s₁, rfl⟩ | ⟨c, s₁, rfl, hc⟩ := hfront s
  · rfl
  · rw [hslash]
    obtain rfl | ⟨s₂, rfl⟩ | ⟨c, s₂, rfl, hc⟩ := hfront s₁
    · rfl
    · rw [hslash]
      obtain rfl | ⟨s₃, rfl⟩ | ⟨c, s₃, rfl, hc⟩ := hfront s₂
      · rfl
      · rfl
      · obtain ⟨d, tail, htail, hd⟩ := fill_cons_ne hc h s₃
        rw [htail]
        simp [rootOf, List.isPrefixOf, beq_false_of_ne hc.symm, beq_false_of_ne hd.symm]
    · obtain ⟨d, tail, htail, hd⟩ := fill_cons_ne hc h s₂
      rw [htail]
      simp [rootOf, List.isPrefixOf, beq_false_of_ne hc.symm, beq_false_of_ne hd.symm]
  · obtain ⟨d, tail, htail, hd⟩ := fill_cons_ne hc h s₁
    rw [htail, rootOf_of_ne hd, rootOf_of_ne hc]

theorem fill_eq_dots_iff (h : PathWord x) {part : Text} :
    part.flatMap (fill mark x) = "..".toList ↔ part = "..".toList := by
  constructor
  · intro heq
    by_cases hmark : mark ∈ part
    · obtain ⟨c, hc, hdot⟩ := h.letter
      have hmem := subset_fill hmark hc
      rw [heq] at hmem
      have hdots : c = '.' := by simpa using hmem
      exact (hdot hdots).elim
    · rwa [fill_of_notMem hmark] at heq
  · rintro rfl
    rfl

theorem contains_dots_fill (h : PathWord x) (s : Text) :
    (Accelerator.pathParts (s.flatMap (fill mark x))).contains "..".toList =
      (Accelerator.pathParts s).contains "..".toList := by
  rw [Bool.eq_iff_iff, List.contains_iff_mem, List.contains_iff_mem, pathParts_fill h, List.mem_map]
  constructor
  · rintro ⟨part, hpart, heq⟩
    rwa [(fill_eq_dots_iff h).mp heq] at hpart
  · intro hmem
    exact ⟨_, hmem, rfl⟩

theorem notMem_fill (hx : c ∉ x) (hy : c ∉ s.flatMap (fill mark y)) :
    c ∉ s.flatMap (fill mark x) := by
  intro hc
  rcases mem_fill.mp hc with ⟨-, hc⟩ | ⟨hc, hne⟩
  · exact hx hc
  · exact hy (mem_fill.mpr (.inr ⟨hc, hne⟩))

/-! ## The two checks -/

theorem safeVolumePath_ok (h : safeVolumePath value = .ok out) :
    out = value ∧ (rootOf value).isEmpty = false ∧
      (Accelerator.pathParts value).contains "..".toList = false ∧
      ∀ c ∈ ['\x00', '\r', '\n', ':'], c ∉ value := by
  unfold safeVolumePath at h
  obtain ⟨hpath, h⟩ := guard_ok h
  obtain ⟨hcontrol, h⟩ := guard_ok h
  cases h
  simp only [Bool.or_eq_true, not_or, Bool.not_eq_true, List.contains_eq_mem,
    decide_eq_false_iff_not] at hpath
  refine ⟨rfl, hpath.1.1, by simpa using hpath.1.2, ?_⟩
  intro c hc hmem
  simp only [List.mem_cons, List.not_mem_nil, or_false] at hc
  rcases hc with rfl | rfl | rfl | rfl
  · exact hcontrol (List.any_eq_true.mpr ⟨_, hmem, rfl⟩)
  · exact hcontrol (List.any_eq_true.mpr ⟨_, hmem, rfl⟩)
  · exact hcontrol (List.any_eq_true.mpr ⟨_, hmem, rfl⟩)
  · exact hpath.2 hmem

theorem safePath_of_plain (hroot : (rootOf value).isEmpty = false)
    (hdots : (Accelerator.pathParts value).contains "..".toList = false)
    (hplain : ∀ c ∈ ['\x00', '\r', '\n', ':'], c ∉ value) :
    safePath value = .ok (purePath value) := by
  unfold safePath
  rw [if_neg, if_neg]
  · rw [hroot, hdots]
    exact Bool.false_ne_true
  · intro hany
    obtain ⟨c, hc, hforbidden⟩ := List.any_eq_true.mp hany
    refine hplain c ?_ hc
    simpa [or_assoc] using hforbidden

theorem safePath_of_volumePath (h : safeVolumePath value = .ok out) :
    safePath value = .ok (purePath value) := by
  obtain ⟨-, hroot, hdots, hplain⟩ := safeVolumePath_ok h
  exact safePath_of_plain hroot hdots hplain

structure Tested (root template : Text) (scope : Scope) : Prop where
  rootSafe : safePath root = .ok (purePath root)
  token : scope.token <:+: template
  braces : hasBrace (Template.replace scope.token scope.probe template) = false
  absolute : (rootOf (Template.replace scope.token scope.probe template)).isEmpty = false
  dots : (Accelerator.pathParts (Template.replace scope.token scope.probe template)).contains
    "..".toList = false
  plain : ∀ c ∈ ['\x00', '\r', '\n', ':'], c ∉ Template.replace scope.token scope.probe template
  beneath : Beneath (purePath (Template.replace scope.token scope.probe template)) (purePath root)

theorem tested_of_ok {root template : Text} {scope : Scope}
    (h : templateBeneathRoot root template scope = .ok ()) : Tested root template scope := by
  obtain ⟨root', hroot, h⟩ := bind_ok h
  obtain ⟨htoken, h⟩ := guard_ok h
  obtain ⟨hbrace, h⟩ := guard_ok h
  obtain ⟨probe, hprobe, h⟩ := bind_ok h
  split at h
  · rename_i hbeneath
    obtain ⟨rfl, -⟩ := safeVolumePath_ok hroot
    obtain ⟨rfl, habsolute, hdots, hplain⟩ := safeVolumePath_ok hprobe
    exact ⟨safePath_of_volumePath hroot, not_not.mp htoken, Bool.eq_false_iff.mpr hbrace, habsolute,
      hdots, hplain, hbeneath⟩
  · cases h

section

variable {root template : Text} {scope : Scope}

theorem Tested.mark_notMem (h : Tested root template scope) : mark ∉ template := by
  intro hmark
  exact h.plain mark (by decide) (mem_replaceFrom scope.probe (token_ne_nil scope)
    (mark_notMem_token scope) (List.nil_subset _) hmark)

def marked (scope : Scope) (template : Text) : Text := Template.replace scope.token [mark] template

theorem Tested.replace_eq (h : Tested root template scope) (x : Text) :
    Template.replace scope.token x template = (marked scope template).flatMap (fill mark x) :=
  replace_eq_flatMap x h.mark_notMem

theorem Tested.purePath_eq (h : Tested root template scope) (hx : PathWord x) :
    purePath (Template.replace scope.token x template) =
      ⟨rootOf (marked scope template),
        (Accelerator.pathParts (marked scope template)).map (·.flatMap (fill mark x))⟩ := by
  unfold purePath
  rw [h.replace_eq, rootOf_fill hx, pathParts_fill hx]

theorem Tested.purePath_self (h : Tested root template scope) :
    purePath template = ⟨rootOf (marked scope template),
      (Accelerator.pathParts (marked scope template)).map (·.flatMap (fill mark scope.token))⟩ := by
  rw [← h.purePath_eq (pathWord_token scope), replace_self (token_ne_nil scope)]

theorem Tested.safePath (h : Tested root template scope) (hx : SafeWord x) :
    hasBrace (Template.replace scope.token x template) = false ∧
      safePath (Template.replace scope.token x template) =
        .ok (purePath (Template.replace scope.token x template)) := by
  have hletter : ∀ c ∈ ['\x00', '\r', '\n', ':', '\x7b', '\x7d'],
      c ∉ Template.replace scope.token scope.probe template →
      c ∉ Template.replace scope.token x template := by
    intro c hc hprobe
    rw [h.replace_eq] at hprobe ⊢
    exact notMem_fill (fun hmem => hx.plain c hmem hc) hprobe
  have hbrace : ∀ c, c = '\x7b' ∨ c = '\x7d' →
      c ∉ Template.replace scope.token scope.probe template := by
    intro c hc hmem
    have hany : hasBrace (Template.replace scope.token scope.probe template) = true :=
      List.any_eq_true.mpr ⟨c, hmem, by simpa using hc⟩
    rw [h.braces] at hany
    cases hany
  constructor
  · rw [Bool.eq_false_iff]
    intro hany
    obtain ⟨c, hc, hbad⟩ := List.any_eq_true.mp hany
    have hcases : c = '\x7b' ∨ c = '\x7d' := by simpa using hbad
    refine hletter c ?_ (hbrace c hcases) hc
    rcases hcases with rfl | rfl <;> decide
  · apply safePath_of_plain
    · have habsolute := h.absolute
      rw [h.replace_eq, rootOf_fill (pathWord_probe scope)] at habsolute
      rw [h.replace_eq, rootOf_fill hx.word]
      exact habsolute
    · have hdots := h.dots
      rw [h.replace_eq, contains_dots_fill (pathWord_probe scope)] at hdots
      rw [h.replace_eq, contains_dots_fill hx.word]
      exact hdots
    · intro c hc
      have hmem : ∀ d ∈ ['\x00', '\r', '\n', ':'],
          d ∈ ['\x00', '\r', '\n', ':', '\x7b', '\x7d'] := Fallible.forall_mem_of_all (by decide)
      exact hletter c (hmem c hc) (h.plain c hc)

theorem Tested.strictlyBeneath (h : Tested root template scope) (hx : PathWord x)
    (hwritten : StrictlyBeneath (purePath template) (purePath root)) :
    StrictlyBeneath (purePath (Template.replace scope.token x template)) (purePath root) := by
  have hprobe := h.beneath
  rw [h.purePath_eq (pathWord_probe scope)] at hprobe
  rw [h.purePath_self] at hwritten
  rw [h.purePath_eq hx]
  refine ⟨⟨hprobe.1, ?_⟩, ?_⟩
  · exact prefix_map_fill (probe_ne_token scope) hprobe.2 hwritten.1.2 x
  · have hlength := hwritten.2
    rw [List.length_map] at hlength ⊢
    exact hlength

theorem Tested.written_of_two (h : Tested root template scope) (hx : PathWord x) (hy : PathWord y)
    (hne : x ≠ y)
    (hxs : StrictlyBeneath (purePath (Template.replace scope.token x template)) (purePath root))
    (hys : StrictlyBeneath (purePath (Template.replace scope.token y template)) (purePath root)) :
    StrictlyBeneath (purePath template) (purePath root) := by
  rw [h.purePath_eq hx] at hxs
  rw [h.purePath_eq hy] at hys
  rw [h.purePath_self]
  refine ⟨⟨hxs.1.1, prefix_map_fill hne hxs.1.2 hys.1.2 _⟩, ?_⟩
  have hlength := hxs.2
  rw [List.length_map] at hlength ⊢
  exact hlength

end

theorem resolveVolume_eq {resolve : PurePath → PurePath} {e : VolumeTemplate} {inst : Text}
    {user : Option Text} {target : PurePath} (h : Tested e.root e.sourceTemplate e.scope)
    (htarget : safePath e.target = .ok target) (hx : SafeWord x)
    (hvalue : placeholderValue e.scope inst user = .ok x) :
    resolveVolume resolve inst user e =
      if ¬ Beneath (resolve (purePath (Template.replace e.scope.token x e.sourceTemplate)))
          (resolve (purePath e.root)) then .error .escapes
      else .ok ⟨purePath (Template.replace e.scope.token x e.sourceTemplate), target, e.access⟩ := by
  obtain ⟨hbrace, hsafe⟩ := h.safePath hx
  unfold resolveVolume
  rw [hvalue]
  show (if _ then _ else _) = _
  rw [if_neg (by rw [hbrace]; exact Bool.false_ne_true), hsafe, h.rootSafe, htarget]
  rfl

theorem exists_word (scope : Scope) (t : Identity) (huser : scope = .user → t.user.isSome = true) :
    ∃ x, SafeWord x ∧ placeholderValue scope t.inst t.user = .ok x := by
  cases scope with
  | inst => exact ⟨t.inst, safeWord_instance t.inst_ok, rfl⟩
  | user =>
    obtain ⟨u, hu⟩ := Option.isSome_iff_exists.mp (huser rfl)
    refine ⟨u, safeWord_user (t.user_ok u hu), ?_⟩
    rw [hu]
    rfl

def namedAlike (name : Text) (hinst : isInstanceId name = true) (huser : isUserId name = true) :
    Identity := converterOf name name hinst huser

/-- A template that was accepted when the session was compiled stays strictly below its root for
every identity exactly if it lies there as it is written, its placeholder in place. -/
theorem contained_iff {resolve : PurePath → PurePath} {e : VolumeTemplate} {target : Text}
    (haccept : templateBeneathRoot e.root e.sourceTemplate e.scope = .ok ())
    (htarget : safeVolumePath e.target = .ok target)
    (hlinks : Unlinked resolve (purePath e.root)) :
    Contained resolve e ↔ StrictlyBeneath (purePath e.sourceTemplate) (purePath e.root) := by
  have htested := tested_of_ok haccept
  have hsafe := safePath_of_volumePath htarget
  constructor
  · intro hcontained
    have hone : ∀ name (hinst : isInstanceId name = true) (huser : isUserId name = true),
        StrictlyBeneath (purePath (Template.replace e.scope.token name e.sourceTemplate))
          (purePath e.root) := by
      intro name hinst huser
      obtain ⟨v, hv, hbeneath⟩ := hcontained (namedAlike name hinst huser) fun _ => rfl
      obtain ⟨x, hx, hsource⟩ := resolveVolume_ok hv
      have hname : x = name := by
        cases hscope : e.scope <;> rw [hscope] at hx <;> cases hx <;> rfl
      rw [hsource, hname] at hbeneath
      exact hbeneath
    exact htested.written_of_two (pathWord_instance (x := "a".toList) (by decide))
      (pathWord_instance (x := "b".toList) (by decide)) (by decide)
      (hone "a".toList (by decide) (by decide)) (hone "b".toList (by decide) (by decide))
  · intro hwritten t huser
    obtain ⟨x, hx, hvalue⟩ := exists_word e.scope t huser
    have hbeneath := htested.strictlyBeneath hx.word hwritten
    refine ⟨⟨purePath (Template.replace e.scope.token x e.sourceTemplate), purePath e.target,
      e.access⟩, ?_, hbeneath⟩
    rw [resolveVolume_eq htested hsafe hx hvalue, if_neg]
    rw [not_not, hlinks _ hbeneath.1]
    exact ⟨rfl, List.prefix_append _ _⟩

/-! ## A root that is named like the probe -/

theorem unlinked_id (root : PurePath) : Unlinked id root := by
  intro p ⟨hroot, rest, hrest⟩
  have hdrop : p.parts.drop root.parts.length = rest := by
    rw [← hrest, List.drop_left]
  show p = ⟨root.root, root.parts ++ p.parts.drop root.parts.length⟩
  rw [hdrop, hrest, ← hroot]

theorem contained_iff_work :
    Contained id workTemplate ↔
      StrictlyBeneath (purePath workTemplate.sourceTemplate) (purePath workTemplate.root) := by
  have htarget : safeVolumePath workTemplate.target = .ok "/work".toList := by decide
  exact contained_iff (by decide) htarget (unlinked_id _)

def probeTemplate : VolumeTemplate where
  root := "/srv/instance-probe".toList
  sourceTemplate := "/srv/\x7binstance\x7d".toList
  target := "/work".toList
  access := .rw
  scope := .inst

/-- The template is accepted, and every instance but one escapes from its root. -/
theorem not_contained_probe :
    templateBeneathRoot probeTemplate.root probeTemplate.sourceTemplate probeTemplate.scope =
        .ok () ∧
      safeVolumePath probeTemplate.target = .ok "/work".toList ∧
      Unlinked id (purePath probeTemplate.root) ∧
      resolveVolume id "one".toList none probeTemplate = .error .escapes ∧
      ¬ Contained id probeTemplate := by
  refine ⟨by decide, by decide, unlinked_id _, by decide, ?_⟩
  intro hcontained
  obtain ⟨v, hv, -⟩ := hcontained aliceOne nofun
  revert hv
  have hescapes : resolveVolume id aliceOne.inst aliceOne.user probeTemplate = .error .escapes := by
    decide
  rw [hescapes]
  exact nofun

end NixNas.Session
