import NixNas.Reconcile.Planning

/-!
# Acceptable manifests

What `reconcile` asks of the names in a manifest before it changes anything.
-/

open Fallible Journal

namespace NixNas.Reconcile

structure Accepts (manifest : Manifest) : Prop where
  version : manifest.schemaVersion = 1
  safe : ∀ kind, ∀ entry ∈ manifest.entries kind, (affectedUnit kind entry.1).isSome = true
  nodup : ∀ kind, ((manifest.entries kind).map Prod.fst).Nodup
  ownedUnits : ∀ unit ∈ manifest.ownedUnits, isUnit unit = true
  startUnits : ∀ unit ∈ manifest.startUnits, isUnit unit = true
  stopUnits : ∀ unit ∈ manifest.stopUnits, isUnit unit = true
  start_owned : manifest.startUnits ⊆ manifest.ownedUnits
  stop_owned : manifest.stopUnits ⊆ manifest.ownedUnits
  fingerprints : ∀ unit ∈ manifest.fingerprints.keys,
    isUnit unit ∧ manifest.fingerprints.lookup unit ≠ some .other

variable {Content : Type} {fs : Files} {codec : Codec Content} {manifest : Manifest}
  {w : World Content}
variable {kind : Kind} {items : List (Text × Text)}

theorem exists_links (hsafe : ∀ entry ∈ items, (affectedUnit kind entry.1).isSome = true)
    (hsource : ∀ entry ∈ items, (fs.current entry.2).isSome = true) :
    ∃ links, List.Forall₂ (ParsesAs fs kind) items links ∧
      links.map Link.target = items.map Prod.fst := by
  induction items with
  | nil => exact ⟨[], .nil, rfl⟩
  | cons item items ih =>
    rw [List.forall_mem_cons] at hsafe hsource
    rcases ih hsafe.2 hsource.2 with ⟨links, hlinks, htargets⟩
    rcases Option.isSome_iff_exists.mp hsafe.1 with ⟨affected, haffected⟩
    rcases Option.isSome_iff_exists.mp hsource.1 with ⟨source, hcurrent⟩
    refine ⟨⟨item.1, source, affected, fs.sha256 (fs.bytes source)⟩ :: links,
      .cons ⟨rfl, haffected, hcurrent, rfl⟩ hlinks, ?_⟩
    rw [List.map_cons, List.map_cons, htargets]

theorem targets_of_parses {links : List Link} (h : List.Forall₂ (ParsesAs fs kind) items links) :
    links.map Link.target = items.map Prod.fst := by
  induction h with
  | nil => rfl
  | cons hitem _ ih => rw [List.map_cons, List.map_cons, ih, hitem.target]

/-- On a host that has the sources and nothing foreign in the way, the run gets to its first change
exactly where the manifest is acceptable. -/
theorem prepare_ok_iff
    (hsource : ∀ kind, ∀ entry ∈ manifest.entries kind, (fs.current entry.2).isSome = true)
    (hruntime : ∀ kind, ∀ entry ∈ manifest.entries kind, Fits fs (w.runtime.lookup (kind, entry.1)))
    {previous : Option Recorded} (hstate : readState codec w.state = .ok previous)
    (hprevious : checkPrevious previous = .ok ()) :
    (∃ p, prepare fs codec manifest w = .ok p) ↔ Accepts manifest := by
  constructor
  · rintro ⟨p, hp⟩
    have h := prepare_ok hp
    have hnodup : ∀ kind, ((manifest.entries kind).map Prod.fst).Nodup := by
      intro kind
      rw [← targets_of_parses (h.parses kind)]
      exact h.nodup kind
    refine ⟨h.version, ?_, hnodup, List.all_eq_true.mp h.ownedUnits,
      List.all_eq_true.mp h.startUnits, List.all_eq_true.mp h.stopUnits, ?_, ?_, ?_⟩
    · intro kind entry hentry
      rcases exists_right (h.parses kind) hentry with ⟨_, _, hparses⟩
      rw [hparses.affected]
      rfl
    · intro unit hunit
      have hmem := h.start_owned (h.start ▸ List.mem_toFinset.mpr hunit)
      rw [h.owned] at hmem
      exact List.mem_toFinset.mp hmem
    · intro unit hunit
      have hmem := h.stop_owned (h.stop ▸ List.mem_toFinset.mpr hunit)
      rw [h.owned] at hmem
      exact List.mem_toFinset.mp hmem
    · exact h.fingerprint_ok
  · intro h
    rcases exists_links (h.safe .systemd) (hsource .systemd) with ⟨links, hlinks, htargets⟩
    rcases exists_links (h.safe .quadlet) (hsource .quadlet) with ⟨quadlets, hquadlets, htargets'⟩
    have hfits : ∀ {kind : Kind} {ls : List Link},
        ls.map Link.target = (manifest.entries kind).map Prod.fst →
        ∀ l ∈ ls, Fits fs (w.runtime.lookup (kind, l.target)) := by
      intro kind ls heq l hl
      have hmem := List.mem_map_of_mem (f := Link.target) hl
      rw [heq] at hmem
      rcases List.mem_map.mp hmem with ⟨entry, hentry, htarget⟩
      rw [← htarget]
      exact hruntime kind entry hentry
    let drifted (kind : Kind) (ls : List Link) : Bool :=
      ls.any fun l ↦ w.runtime.lookup (kind, l.target) ≠ some (.live l.source)
    refine ⟨⟨links, quadlets, drifted .systemd links || drifted .quadlet quadlets,
      manifest.ownedUnits.toFinset, manifest.startUnits.toFinset, manifest.stopUnits.toFinset,
      manifest.fingerprints, previous, discover w.runtime⟩, prepare_of ⟨⟨h.version, ?_, ?_,
      List.all_eq_true.mpr h.ownedUnits, List.all_eq_true.mpr h.startUnits,
      List.all_eq_true.mpr h.stopUnits, rfl, rfl, rfl, ?_, ?_, rfl, h.fingerprints⟩, hstate,
      hprevious, ?_, ?_, rfl⟩⟩
    · intro kind
      cases kind with
      | systemd => exact hlinks
      | quadlet => exact hquadlets
    · intro kind
      cases kind with
      | systemd =>
        show (links.map Link.target).Nodup
        rw [htargets]
        exact h.nodup .systemd
      | quadlet =>
        show (quadlets.map Link.target).Nodup
        rw [htargets']
        exact h.nodup .quadlet
    · intro unit hunit
      exact List.mem_toFinset.mpr (h.start_owned (List.mem_toFinset.mp hunit))
    · intro unit hunit
      exact List.mem_toFinset.mpr (h.stop_owned (List.mem_toFinset.mp hunit))
    · intro kind
      cases kind with
      | systemd => exact hfits htargets
      | quadlet => exact hfits htargets'
    · simp only [Bool.or_eq_true, drifted, List.any_eq_true, decide_eq_true_eq]
      constructor
      · rintro (hdrift | hdrift)
        · exact ⟨.systemd, hdrift⟩
        · exact ⟨.quadlet, hdrift⟩
      · rintro ⟨kind, hdrift⟩
        cases kind with
        | systemd => exact .inl hdrift
        | quadlet => exact .inr hdrift

end NixNas.Reconcile
