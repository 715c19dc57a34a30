import Mathlib.Data.Char
import Mathlib.Data.List.DropRight
import Mathlib.Data.List.Lex
import Mathlib.Data.List.Sort
import Mathlib.Data.Prod.Lex
import NixNas.Lib.Percent
import NixNas.Lib.Quote
import NixNas.Names

/-!
# The Caddy projection (`services/nas_v2_caddy.py`)

Compiled routes become sites, handle blocks and directives.  A directive keeps the source text of
its tokens, so that printing adds nothing but keywords and indentation.
-/

open Percent Quote

namespace NixNas.Caddy

/-! ## Compiled routes -/

inductive AuthMode where
  | publicMode | identity | upstream
  deriving DecidableEq, Repr

inductive Target where
  | http (host : Text) (port : Nat)
  | https (host : Text) (port : Nat)
  | unixHttp (socket : Text)
  deriving DecidableEq, Repr

inductive Exposure where
  | path (paths : List Text)
  | hostname (hostnames : List Text) (path : Text)
  deriving DecidableEq, Repr

structure Proxy where
  stripPrefix : Option Text
  requestHeaders : List (Text × Text)
  removeRequestHeaders : List Text
  responseHeaders : List (Text × Text)
  trustedIdentityHeaders : List Text
  requireHeaders : List (Text × Text)
  deriving DecidableEq, Repr

structure Route where
  service : Text
  route : Text
  authMode : AuthMode
  requiredCapability : Option Text
  onDemandWake : Bool
  target : Target
  exposure : Exposure
  proxy : Proxy
  deriving DecidableEq, Repr

/-- `derived.routes` and `services[id].enabled`. -/
structure Effective where
  routes : List Route
  enabled : Text → Bool

/-! ## Constants -/

/-- `identity-headers.json`. -/
def identityHeaders : List Text :=
  ["Remote-User", "Remote-Groups", "Remote-Name", "Remote-Email", "Remote-UID", "Remote-Role",
    "X-Authentik-Username", "X-Authentik-Groups", "X-Authentik-Name", "X-Authentik-Email",
    "X-Authentik-Uid", "X-Authentik-Jwt", "X-Authentik-Entitlements", "X-Authentik-Meta-Outpost",
    "X-Authentik-Meta-App", "X-Authentik-Meta-Provider", "X-Authentik-Meta-User",
    "X-Authentik-Meta-Is-Superuser", "X-Authentik-Role", "X-Authentik-Meta-Jwks",
    "X-Authentik-Meta-Version"].map String.toList

def authentikCopyHeaders : List Text :=
  ["X-Authentik-Username", "X-Authentik-Groups", "X-Authentik-Name", "X-Authentik-Email",
    "X-Authentik-Uid"].map String.toList

def remoteHeaders : List (Text × Text) :=
  [("Remote-User", "X-Authentik-Username"), ("Remote-Groups", "X-Authentik-Groups"),
    ("Remote-Name", "X-Authentik-Name"), ("Remote-Email", "X-Authentik-Email"),
    ("Remote-UID", "X-Authentik-Uid")].map fun (a, b) ↦ (a.toList, b.toList)

def reservedRoutePrefixes : List Text := ["/outpost.goauthentik.io".toList]

def adminGroup : Text := "nas_admin".toList

inductive CaddyError where
  | controlCharacter
  | unsafeHeaderName (name : Text)
  | unsafeRoutePath (path : Text)
  | reservedRoutePath (path : Text)
  | unsafeAuthentikUpstream
  | authentikPath
  | invalidCapability (group : Text)
  | staticIdentityHeader (name : Text)
  | trustedNeedsIdentity
  | unsupportedTrustedHeader (name : Text)
  | onDemandUpstream (service : Text)
  | invalidIdentifier (value : Text)
  | unsafeHost (host : Text)
  | unsafeSocket
  | missingCapability
  | invalidApplianceHostname (host : Text)
  | invalidHostname (host : Text)
  | hostnameCollides (host : Text)
  deriving DecidableEq, Repr

/-! ## Checked values -/

/-- `_ctl`. -/
def hasControl (value : Text) : Bool := value.any fun c ↦ c = '\x00' || c = '\r' || c = '\n'

def hasBrace (value : Text) : Bool := value.any fun c ↦ c = '{' || c = '}'

/-- `_q`. -/
def quote (value : Text) : Except CaddyError Text :=
  if hasControl value then .error .controlCharacter else .ok (jsonDumps value)

def isHeaderNameChar (c : Char) : Bool := c.isAlphanum || c ∈ "!#$%&'*+.^_`|~-".toList

def headerName (value : Text) : Except CaddyError Text :=
  if value = [] || !value.all isHeaderNameChar then .error (.unsafeHeaderName value)
  else .ok value

def lower (value : Text) : Text := value.map Char.toLower

/-- `name.lower() in _IDENTITY_HEADER_NAMES`. -/
def isIdentityHeader (name : Text) : Bool := lower name ∈ identityHeaders.map lower

/-- `_matcher`. -/
def matcherName (service route suffix : Text) : Text :=
  ("v2_".toList ++ service ++ '_' :: route ++ '_' :: suffix).map fun c ↦
    if c.isAlphanum || c = '_' then c else '_'

/-- A label of `HOSTNAME_RE`; ignoring case lets four letters outside ASCII match as well. -/
def isHostnameLabel (label : Text) : Bool :=
  let letter (c : Char) := c.isAlphanum || c ∈ ['\u0130', '\u0131', '\u017F', '\u212A']
  label ≠ [] && label.length ≤ 63 && label.all (fun c ↦ letter c || c = '-') &&
    label.head? ≠ some '-' && label.getLast? ≠ some '-'

/-- `HOSTNAME_RE.fullmatch`. -/
def isHostname (host : Text) : Bool := (host.splitOn '.').all isHostnameLabel

/-- `_authentik_upstream`. -/
def checkAuthentikUpstream (value : Text) : Except CaddyError Text :=
  if hasControl value || hasBrace value then .error .unsafeAuthentikUpstream else .ok value

/-- `_safe_posix`: the path as `PurePosixPath` prints it. -/
def safePosix (path : Text) : Except CaddyError Text :=
  let parts := (path.splitOn '/').filter fun s ↦ s ≠ [] && s ≠ ['.']
  if hasControl path || hasBrace path then .error .unsafeSocket
  else if path.head? ≠ some '/' || "..".toList ∈ parts then .error .unsafeSocket
  else
    let root := if path.take 2 = "//".toList && path.take 3 ≠ "///".toList then "//".toList
      else "/".toList
    .ok (root ++ "/".toList.intercalate parts)

section

variable (cf : CaseFold) (sha256 : Text → Text)

/-- `socket_path` of `services/nas_v2_activation.py`; `sha256` is the hexadecimal digest. -/
def socketPath (service route : Text) : Except CaddyError Text :=
  if !isIdentifier service then .error (.invalidIdentifier service)
  else if !isIdentifier route then .error (.invalidIdentifier route)
  else
    let root := "/run/nas-control/activate/".toList
    let name := service ++ '-' :: route
    let hashed := '-' ∈ service || '-' ∈ route || 107 < (root ++ name ++ ".sock".toList).length
    let name := if hashed then "h_".toList ++ sha256 (service ++ '\x00' :: route) else name
    .ok (root ++ name ++ ".sock".toList)

/-- `rstrip("/")`. -/
def rstripSlash (path : Text) : Text := path.rdropWhile (· = '/')

def underReserved (folded : Text) : Bool :=
  reservedRoutePrefixes.any fun reserved ↦
    folded = cf.text reserved || (cf.text reserved ++ ['/']).isPrefixOf folded

def pathPatterns (path : Text) : Except CaddyError (List Text) :=
  if path.head? ≠ some '/' || hasControl path || hasBrace path || '*' ∈ path then
    .error (.unsafeRoutePath path)
  else if underReserved cf (cf.text path) then .error (.reservedRoutePath path)
  else if path = ['/'] then .ok ["/*".toList]
  else if path.getLast? = some '/' then .ok [path, rstripSlash path, path ++ ['*']]
  else .ok [path, path ++ "/*".toList]

/-! ## Directives -/

/-- What a request must have for a handle block to go on. -/
inductive Test where
  | header (name value : Text)
  | headerRegexp (name pattern : Text)
  deriving DecidableEq, Repr

/-- The directives of a handle block, with the source text of their tokens. -/
inductive Directive where
  /-- `request_header field value`; without a value when `field` starts with a minus sign. -/
  | requestHeader (field : Text) (value : Option Text)
  /-- A matcher `not test` and `respond 403` for what it matches. -/
  | respondUnless (matcher : Text) (test : Test)
  | forwardAuth (upstream uri : Text) (copyHeaders : List Text)
  | stripPrefix (value : Text)
  | reverseProxy (upstream : Text) (headerDown : List (Text × Text)) (tls : Bool)
  deriving DecidableEq, Repr

def deleteHeader (name : Text) : Directive := .requestHeader ('-' :: name) none

/-- `re.escape` on the characters of a group name. -/
def reEscape (value : Text) : Text :=
  value.flatMap fun c ↦
    if c ∈ "()[]\x7b\x7d?*+-|^$\\.&~# \t\n\r\x0b\x0c".toList then ['\\', c] else [c]

/-- `.replace(r"\\.", "[.]")`. -/
def dotToClass : Text → Text
  | '\\' :: '.' :: rest => "[.]".toList ++ dotToClass rest
  | c :: rest => c :: dotToClass rest
  | [] => []

def allowedGroups (requiredCapability : Text) : Text :=
  let groups := [requiredCapability, adminGroup].map fun group ↦ dotToClass (reEscape group)
  "(^|[|,][[:space:]]*)(".toList ++ ['|'].intercalate groups ++ ")([[:space:]]*[|,]|$)".toList

/-- The `header_up` lines of `forward_auth` do not depend on the route. -/
def forwardAuthHeaderUp : List Text :=
  ["X-Original-URL \x7bhttp.request.scheme\x7d://\x7bhttp.request.hostport\x7d" ++
      "\x7bhttp.request.orig_uri\x7d",
    "X-Forwarded-Proto \x7bscheme\x7d", "X-Forwarded-Host \x7bhttp.request.hostport\x7d",
    "X-Forwarded-Uri \x7buri\x7d"].map String.toList

def headerPlaceholder (name : Text) : Text := "\x7bhttp.request.header.".toList ++ name ++ ['}']

def renderIdentityAuth (service route requiredCapability authentikUpstream authentikPath : Text) :
    Except CaddyError (List Directive) := do
  let _ ← checkAuthentikUpstream authentikUpstream
  if authentikPath.head? ≠ some '/' || hasControl authentikPath then throw .authentikPath
  let uri ← quote "/outpost.goauthentik.io/auth/caddy".toList
  if requiredCapability ≠ adminGroup && !("application.".toList).isPrefixOf requiredCapability then
    throw (.invalidCapability requiredCapability)
  let pattern ← quote (allowedGroups requiredCapability)
  return identityHeaders.map deleteHeader ++
    [.forwardAuth authentikUpstream uri authentikCopyHeaders,
      .respondUnless (matcherName service route "missing_identity".toList)
        (.header "X-Authentik-Username".toList ['*']),
      .respondUnless (matcherName service route "missing_capability".toList)
        (.headerRegexp "X-Authentik-Groups".toList pattern)] ++
    remoteHeaders.map fun (name, source) ↦ .requestHeader name (some (headerPlaceholder source))

/-- `sorted(items())` of a dictionary of texts. -/
def sortedItems (items : List (Text × Text)) : List (Text × Text) :=
  items.insertionSort fun a b ↦ toLex a ≤ toLex b

/-- The upstream token of `_render_proxy`. -/
def proxyUpstream (r : Route) : Except CaddyError Text :=
  if r.onDemandWake then
    if r.authMode = .upstream then .error (.onDemandUpstream r.service)
    else (socketPath sha256 r.service r.route).map ("unix/".toList ++ ·)
  else
    match r.target with
    | .http host port | .https host port =>
      if hasControl host || ' ' ∈ host || hasBrace host then .error (.unsafeHost host)
      else .ok (host ++ ':' :: (toString port).toList)
    | .unixHttp socket => (safePosix socket).map ("unix/".toList ++ ·)

def Target.isHttps : Target → Bool
  | .https _ _ => true
  | _ => false

def checkRequestHeaders : List (Text × Text) → Except CaddyError Unit
  | [] => .ok ()
  | (name, _) :: rest => do
    let name ← headerName name
    if isIdentityHeader name then throw (.staticIdentityHeader name)
    else checkRequestHeaders rest

def quotedHeader (item : Text × Text) : Except CaddyError (Text × Text) := do
  let name ← headerName item.1
  let value ← quote item.2
  return (name, value)

def checkTrusted (r : Route) : Except CaddyError Unit :=
  if r.proxy.trustedIdentityHeaders ≠ [] && r.authMode ≠ .identity then
    .error .trustedNeedsIdentity
  else
    match r.proxy.trustedIdentityHeaders.find? (· ∉ identityHeaders) with
    | some name => .error (.unsupportedTrustedHeader name)
    | none => .ok ()

def renderStrip : Option Text → Except CaddyError (List Directive)
  | some value => if value = [] then .ok [] else (quote value).map ([.stripPrefix ·])
  | none => .ok []

def renderProxy (r : Route) : Except CaddyError (List Directive) := do
  checkRequestHeaders r.proxy.requestHeaders
  let removed ← r.proxy.removeRequestHeaders.mapM headerName
  let set ← (sortedItems r.proxy.requestHeaders).mapM quotedHeader
  checkTrusted r
  let strip ← renderStrip r.proxy.stripPrefix
  let upstream ← proxyUpstream sha256 r
  let down ← (sortedItems r.proxy.responseHeaders).mapM quotedHeader
  return removed.map deleteHeader ++ set.map (fun (name, value) ↦ .requestHeader name (some value)) ++
    strip ++ [.reverseProxy upstream down r.target.isHttps]

def renderRequired (r : Route) : Except CaddyError (List Directive) := do
  let required ← (sortedItems r.proxy.requireHeaders).mapM quotedHeader
  return required.zipIdx.map fun ((name, value), index) ↦
    .respondUnless (matcherName r.service r.route ("missing_required_".toList ++
      (toString index).toList)) (.header name value)

def renderAuth (r : Route) (authentikUpstream authentikPath : Text) :
    Except CaddyError (List Directive) :=
  match r.authMode with
  | .publicMode | .upstream => .ok []
  | .identity =>
    match r.requiredCapability with
    | none => .error .missingCapability
    | some capability =>
      if capability = [] then .error .missingCapability
      else renderIdentityAuth r.service r.route capability authentikUpstream authentikPath

def renderHandler (r : Route) (authentikUpstream authentikPath : Text) :
    Except CaddyError (List Directive) := do
  let required ← renderRequired r
  let auth ← renderAuth r authentikUpstream authentikPath
  let proxy ← renderProxy sha256 r
  return identityHeaders.map deleteHeader ++ required ++ auth ++ proxy

/-! ## Sites -/

structure Entry where
  route : Route
  path : Text
  deriving DecidableEq, Repr

structure Handle where
  entry : Entry
  matcher : Text
  /-- The quoted patterns. -/
  patterns : List Text
  directives : List Directive
  deriving DecidableEq, Repr

/-- The snippet of the appliance (no hostname) or the site of a hostname. -/
structure Site where
  hostname : Option Text
  /-- The upstream of the outpost handler, where the site has one. -/
  outpost : Option Text
  handles : List Handle
  deriving DecidableEq, Repr

def Entry.norm (e : Entry) : Text := if rstripSlash e.path = [] then ['/'] else rstripSlash e.path

/-- `strip("/")`. -/
def stripSlash (path : Text) : Text := rstripSlash (path.dropWhile (· = '/'))

def Entry.segCount (e : Entry) : Nat :=
  if e.norm = ['/'] then 0 else ((stripSlash e.norm).splitOn '/').length

/-- `_path_sort_key`, and what follows the hostname in `_hostname_sort_key`. -/
def Entry.sortKey (e : Entry) : ℤ ×ₗ ℤ ×ₗ Text ×ₗ Text ×ₗ Text :=
  toLex (-(e.segCount : ℤ), toLex (-(e.norm.length : ℤ),
    toLex (e.path, toLex (e.route.service, e.route.route))))

def sortEntries (entries : List Entry) : List Entry :=
  entries.insertionSort fun a b ↦ a.sortKey ≤ b.sortKey

def enabledRoutes (effective : Effective) : List Route :=
  (effective.routes.filter fun r ↦ effective.enabled r.service).insertionSort fun a b ↦
    toLex (a.service, a.route) ≤ toLex (b.service, b.route)

def pathEntries (routes : List Route) : List Entry :=
  routes.flatMap fun r ↦
    match r.exposure with
    | .path paths => paths.map (Entry.mk r)
    | .hostname _ _ => []

def hostnameEntries (routes : List Route) : List (Text × Entry) :=
  routes.flatMap fun r ↦
    match r.exposure with
    | .path _ => []
    | .hostname hostnames path => hostnames.map fun hostname ↦ (hostname, ⟨r, path⟩)

def checkHostnames (lanHost : Text) : List (Text × Entry) → Except CaddyError Unit
  | [] => .ok ()
  | (hostname, _) :: rest =>
    if !isHostname hostname then .error (.invalidHostname hostname)
    else if lower hostname = lower lanHost then .error (.hostnameCollides hostname)
    else checkHostnames lanHost rest

def sortHostnameEntries (entries : List (Text × Entry)) : List (Text × Entry) :=
  entries.insertionSort fun a b ↦
    toLex (cf.text a.1, a.2.sortKey) ≤ toLex (cf.text b.1, b.2.sortKey)

/-- The entries grouped by case-folded hostname, in the order of first occurrence; a group carries
the spelling that came first. -/
def groupHostnames (entries : List (Text × Entry)) : List (Text × List Entry) :=
  (entries.map fun e ↦ cf.text e.1).eraseDups.map fun key ↦
    let group := entries.filter fun e ↦ cf.text e.1 = key
    ((group.head?.map Prod.fst).getD [], group.map Prod.snd)

/-- The handle blocks of entries numbered from `index` on. -/
def renderEntries (kind authentikUpstream authentikPath : Text) :
    Nat → List Entry → Except CaddyError (List Handle)
  | _, [] => .ok []
  | index, e :: rest => do
    let patterns ← pathPatterns cf e.path
    let tokens ← patterns.mapM quote
    let directives ← renderHandler sha256 e.route authentikUpstream authentikPath
    let handles ← renderEntries kind authentikUpstream authentikPath (index + 1) rest
    return ⟨e, matcherName e.route.service e.route.route (kind ++ '_' :: (toString index).toList),
      tokens, directives⟩ :: handles

def siteOutpost (authentikUpstream : Text) (entries : List Entry) :
    Except CaddyError (Option Text) :=
  if entries.any (·.route.authMode = .identity) then
    (checkAuthentikUpstream authentikUpstream).map some
  else .ok none

def renderHostnames (authentikUpstream authentikPath : Text) :
    Nat → List (Text × List Entry) → Except CaddyError (List Site)
  | _, [] => .ok []
  | index, (hostname, entries) :: rest => do
    let outpost ← siteOutpost authentikUpstream entries
    let handles ← renderEntries cf sha256 "hostpath".toList authentikUpstream authentikPath index
      entries
    let sites ← renderHostnames authentikUpstream authentikPath (index + entries.length) rest
    return ⟨some hostname, outpost, handles⟩ :: sites

/-- `generate_caddyfile`, up to printing: the appliance snippet and the hostname sites. -/
def generateSites (effective : Effective) (authentikUpstream authentikPath lanHost : Text) :
    Except CaddyError (List Site) := do
  if !isHostname lanHost then throw (.invalidApplianceHostname lanHost)
  let routes := enabledRoutes effective
  let hostnames := hostnameEntries routes
  checkHostnames lanHost hostnames
  let handles ← renderEntries cf sha256 "path".toList authentikUpstream authentikPath 0
    (sortEntries (pathEntries routes))
  let sites ← renderHostnames cf sha256 authentikUpstream authentikPath 0
    (groupHostnames cf (sortHostnameEntries cf hostnames))
  return ⟨none, none, handles⟩ :: sites

/-! ## Printing -/

def Test.line : Test → Text
  | .header name value => "not header ".toList ++ name ++ ' ' :: value
  | .headerRegexp name pattern => "not header_regexp ".toList ++ name ++ ' ' :: pattern

def Directive.lines (indent : Text) : Directive → List Text
  | .requestHeader field value =>
    [indent ++ "request_header ".toList ++ field ++ (value.map (' ' :: ·)).getD []]
  | .respondUnless matcher test =>
    let respond := indent ++ "respond @".toList ++ matcher ++ " 403".toList
    if test = .header "X-Authentik-Username".toList ['*'] then
      [indent ++ '@' :: matcher ++ ' ' :: test.line, respond]
    else
      [indent ++ '@' :: matcher ++ " \x7b".toList, indent ++ "  ".toList ++ test.line,
        indent ++ ['}'], respond]
  | .forwardAuth upstream uri copyHeaders =>
    [indent ++ "forward_auth ".toList ++ upstream ++ " \x7b".toList,
      indent ++ "  uri ".toList ++ uri] ++
    (forwardAuthHeaderUp.map fun line ↦ indent ++ "  header_up ".toList ++ line) ++
    [indent ++ "  copy_headers ".toList ++ [' '].intercalate copyHeaders, indent ++ ['}']]
  | .stripPrefix value => [indent ++ "uri strip_prefix ".toList ++ value]
  | .reverseProxy upstream headerDown tls =>
    [indent ++ "reverse_proxy ".toList ++ upstream ++ " \x7b".toList] ++
    (headerDown.map fun (name, value) ↦
      indent ++ "  header_down ".toList ++ name ++ ' ' :: value) ++
    (if tls then [indent ++ "  transport http \x7b".toList, indent ++ "    tls".toList,
      indent ++ "  \x7d".toList] else []) ++
    [indent ++ ['}']]

def Handle.lines (h : Handle) : List Text :=
  ["  @".toList ++ h.matcher ++ " path ".toList ++ [' '].intercalate h.patterns,
    "  handle @".toList ++ h.matcher ++ " \x7b".toList, "    route \x7b".toList] ++
  h.directives.flatMap (·.lines "      ".toList) ++ ["    \x7d".toList, "  \x7d".toList]

def outpostLines (upstream : Text) : List Text :=
  ["  @authentik_outpost path \"/outpost.goauthentik.io/*\"".toList,
    "  handle @authentik_outpost \x7b".toList, "    reverse_proxy ".toList ++ upstream ++ " \x7b".toList,
    "      header_up Host \x7bhttp.request.host\x7d".toList,
    "      header_up X-Forwarded-Proto https".toList,
    "      header_up X-Forwarded-For \x7bremote_host\x7d".toList, "    \x7d".toList, "  \x7d".toList]

def Site.lines (s : Site) : List Text :=
  (match s.hostname with
    | none => ["(nas_v2_managed_paths) \x7b".toList]
    | some hostname => ["https://".toList ++ hostname ++ " \x7b".toList, "  tls internal".toList]) ++
  ((s.outpost.map outpostLines).getD []) ++ s.handles.flatMap Handle.lines ++
  ["\x7d".toList, []]

/-- `generate_caddyfile`: no blank line is left at the end. -/
def generateCaddyfile (effective : Effective)
    (authentikUpstream authentikPath lanHost : Text) : Except CaddyError Text := do
  let sites ← generateSites cf sha256 effective authentikUpstream authentikPath lanHost
  let lines := ["# Generated by Managed Services V2 — do not edit".toList, []] ++
    sites.flatMap Site.lines
  return (['\n'].intercalate lines).rdropWhile (· = '\n') ++ ['\n']

end

end NixNas.Caddy
