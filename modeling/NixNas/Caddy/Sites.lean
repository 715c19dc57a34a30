import NixNas.Caddy.Render
import NixNas.Lib.Fallible

/-!
# The blocks of the generated sites

Every handle block comes from one entry: its patterns from the path, its directives from the route.
-/

open Fallible Percent Quote

namespace NixNas.Caddy

section

variable (cf : CaseFold) (sha256 : Text → Text)
variable {authentikUpstream authentikPath : Text} {index : Nat} {sites : List Site}
  {directives : List Directive}

theorem quote_ok {value token : Text} (h : quote value = .ok token) : token = jsonDumps value := by
  unfold quote at h
  split at h
  · cases h
  · exact (Except.ok.inj h).symm

theorem renderEntries_ok {kind : Text} {entries : List Entry} {handles : List Handle}
    (h : renderEntries cf sha256 kind authentikUpstream authentikPath index entries =
      .ok handles) :
    handles.map (·.entry) = entries ∧
      ∀ h ∈ handles, (∃ patterns, pathPatterns cf h.entry.path = .ok patterns ∧
        h.patterns = patterns.map jsonDumps) ∧
        renderHandler sha256 h.entry.route authentikUpstream authentikPath = .ok h.directives := by
  induction entries generalizing index handles with
  | nil =>
    cases h
    exact ⟨rfl, nofun⟩
  | cons e rest ih =>
    unfold renderEntries at h
    obtain ⟨patterns, hpatterns, h⟩ := bind_ok h
    obtain ⟨tokens, htokens, h⟩ := bind_ok h
    obtain ⟨directives, hdirectives, h⟩ := bind_ok h
    obtain ⟨handles', hrest, h⟩ := bind_ok h
    cases h
    obtain ⟨hentries, hall⟩ := ih hrest
    refine ⟨by rw [List.map_cons, hentries], fun handle hmem => ?_⟩
    obtain rfl | hmem := List.mem_cons.mp hmem
    · exact ⟨⟨patterns, hpatterns, mapM_eq_map (fun _ _ => quote_ok) htokens⟩, hdirectives⟩
    · exact hall handle hmem

theorem renderHostnames_ok {groups : List (Text × List Entry)}
    (h : renderHostnames cf sha256 authentikUpstream authentikPath index groups = .ok sites) :
    ∀ s ∈ sites, ∃ g ∈ groups, s.hostname = some g.1 ∧
      ∃ index, renderEntries cf sha256 "hostpath".toList authentikUpstream authentikPath index g.2 =
        .ok s.handles := by
  induction groups generalizing index sites with
  | nil =>
    cases h
    exact nofun
  | cons g rest ih =>
    unfold renderHostnames at h
    obtain ⟨outpost, -, h⟩ := bind_ok h
    obtain ⟨handles, hhandles, h⟩ := bind_ok h
    obtain ⟨sites', hrest, h⟩ := bind_ok h
    cases h
    intro s hs
    obtain rfl | hs := List.mem_cons.mp hs
    · exact ⟨g, List.mem_cons_self, rfl, index, hhandles⟩
    · obtain ⟨g', hg', hs⟩ := ih hrest s hs
      exact ⟨g', List.mem_cons_of_mem g hg', hs⟩

theorem renderProxy_ok {r : Route} (h : renderProxy sha256 r = .ok directives) :
    checkRequestHeaders r.proxy.requestHeaders = .ok () ∧
      ∃ set strip upstream down,
        (sortedItems r.proxy.requestHeaders).mapM quotedHeader = .ok set ∧
        renderStrip r.proxy.stripPrefix = .ok strip ∧
        directives = r.proxy.removeRequestHeaders.map deleteHeader ++
          set.map (fun (name, value) ↦ .requestHeader name (some value)) ++ strip ++
          [.reverseProxy upstream down r.target.isHttps] := by
  unfold renderProxy at h
  obtain ⟨⟨⟩, hcheck, h⟩ := bind_ok h
  obtain ⟨removed, hremoved, h⟩ := bind_ok h
  obtain ⟨set, hset, h⟩ := bind_ok h
  obtain ⟨-, -, h⟩ := bind_ok h
  obtain ⟨strip, hstrip, h⟩ := bind_ok h
  obtain ⟨upstream, -, h⟩ := bind_ok h
  obtain ⟨down, -, h⟩ := bind_ok h
  cases h
  have hname (name name' : Text) (hok : headerName name = .ok name') : name' = id name := by
    unfold headerName at hok
    split at hok
    · cases hok
    · exact (Except.ok.inj hok).symm
  have hremoved := mapM_eq_map hname hremoved
  rw [List.map_id] at hremoved
  exact ⟨hcheck, set, strip, upstream, down, hset, hstrip, by rw [hremoved]⟩

theorem renderStrip_ok {value : Option Text} (h : renderStrip value = .ok directives) :
    directives = [] ∨ ∃ token, directives = [.stripPrefix token] := by
  unfold renderStrip at h
  split at h
  · split at h
    · cases h
      exact .inl rfl
    · obtain ⟨token, -, rfl⟩ := map_ok h
      exact .inr ⟨token, rfl⟩
  · cases h
    exact .inl rfl

theorem renderIdentityAuth_ok {service route capability : Text}
    (h : renderIdentityAuth service route capability authentikUpstream authentikPath =
      .ok directives) :
    ∃ uri token, quote (allowedGroups capability) = .ok token ∧
      directives = identityHeaders.map deleteHeader ++
        [.forwardAuth authentikUpstream uri authentikCopyHeaders,
          .respondUnless (matcherName service route "missing_identity".toList)
            (.header "X-Authentik-Username".toList ['*']),
          .respondUnless (matcherName service route "missing_capability".toList)
            (.headerRegexp "X-Authentik-Groups".toList token)] ++
        remoteHeaders.map fun (name, source) ↦
          .requestHeader name (some (headerPlaceholder source)) := by
  unfold renderIdentityAuth at h
  obtain ⟨-, -, h⟩ := bind_ok h
  obtain ⟨-, h⟩ := guard_ok h
  obtain ⟨uri, -, h⟩ := bind_ok h
  obtain ⟨-, h⟩ := guard_ok h
  obtain ⟨token, htoken, h⟩ := bind_ok h
  cases h
  exact ⟨uri, token, htoken, rfl⟩

theorem handler_of_generateSites {effective : Effective} {lanHost : Text}
    (h : generateSites cf sha256 effective authentikUpstream authentikPath lanHost = .ok sites)
    {s : Site} (hs : s ∈ sites) {handle : Handle} (hh : handle ∈ s.handles) :
    renderHandler sha256 handle.entry.route authentikUpstream authentikPath =
      .ok handle.directives := by
  unfold generateSites at h
  obtain ⟨-, h⟩ := guard_ok h
  obtain ⟨-, -, h⟩ := bind_ok h
  obtain ⟨handles, hhandles, h⟩ := bind_ok h
  obtain ⟨hostnameSites, hhostnames, h⟩ := bind_ok h
  cases h
  obtain rfl | hs := List.mem_cons.mp hs
  · exact ((renderEntries_ok cf sha256 hhandles).2 handle hh).2
  · obtain ⟨g, -, -, index, hrender⟩ := renderHostnames_ok cf sha256 hhostnames s hs
    exact ((renderEntries_ok cf sha256 hrender).2 handle hh).2

end

def sitesOf (effective : Effective) : Except CaddyError (List Site) :=
  generateSites .asciiOnly id effective "127.0.0.1:9010".toList "/identity/".toList
    "nas.local".toList

def anyHandle (p : Handle → Bool) : Except CaddyError (List Site) → Bool
  | .ok sites => sites.any fun s ↦ s.handles.any p
  | .error _ => false

theorem exists_handle (p : Handle → Bool) (effective : Effective)
    (h : anyHandle p (sitesOf effective) = true) :
    ∃ sites, sitesOf effective = .ok sites ∧ ∃ s ∈ sites, ∃ handle ∈ s.handles,
      p handle = true := by
  unfold anyHandle at h
  split at h
  · rename_i sites hsites
    obtain ⟨s, hs, h⟩ := List.any_eq_true.mp h
    exact ⟨sites, hsites, s, hs, List.any_eq_true.mp h⟩
  · cases h

end NixNas.Caddy
