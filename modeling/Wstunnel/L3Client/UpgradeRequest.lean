import Wstunnel.Core.AssocMap
import Wstunnel.Core.Uri
import Wstunnel.L2Rules.PathPrefix
import Wstunnel.L3Server.Mtls

/-!
# The upgrade request of the client

How the client builds the request that opens a tunnel, over both transports,
read by the functions of the server that take it apart: the path prefix goes
into the request target and comes out of the path; the token goes into a
header and comes out of it.

**Third-party code.**
* `http` parses names, values and targets; its tables are written out (`nameChar`,
  `headerValue`, `Http.Uri`). Nothing of it is assumed.
* `x509_parser` is the parameter `parse`, of which nothing is assumed.
* `jsonwebtoken::encode` is the parameter `Signer`; all that is assumed of its text is
  that it is visible ASCII.
* `regex` is asked to match the pattern made of a prefix as `Matchers.RegexSpec` says,
  where `from_path_prefix` is concerned.

**Results.**
* `prefixAgrees_iff`: the server finds the prefix the client was given, and
  neither `from_path_prefix` nor mTLS refuses it, exactly when the prefix has
  none of `/`, `?` and `#` (`slashPrefix_refused`) and, over HTTP/2, the `Host`
  header in front of it brings no path that starts otherwise.
* `token_recovered_iff`: the server finds the token exactly when the last custom
  headers of the two names that may carry it leave it to be found
  (`customHeader_hides_token`).
-/
namespace Wstunnel.L3.Upgrade

open Wstunnel.L1 Wstunnel.L2

/-! ## Header names and values -/

/-- `HeaderValue::from_str`: bytes that are no ASCII are accepted, and left to
`HeaderValue::to_str` to refuse. -/
def headerValue (text : String) : Option Bytes :=
  let bytes := Utf8.encode text.toList
  if bytes.all fun b => (32 ≤ b && b ≠ 127) || b = 9 then some bytes else none

/-- The characters of a token in HTTP. -/
def nameChar (c : Char) : Bool := c.isAlphanum || "!#$%&'*+-.^_`|~".toList.contains c

def hostName : HeaderName := .other "host"

/-- `HeaderName::from_str`: names are compared without case. -/
def headerName (text : String) : Option HeaderName :=
  if text.isEmpty || 65535 < text.length || !text.toList.all nameChar then none
  else some (match String.ofList (text.toList.map Char.toLower) with
    | "sec-websocket-protocol" => .secWebsocketProtocol
    | "cookie" => .cookie
    | "authorization" => .authorization
    | "x-forwarded-for" => .xForwardedFor
    | name => .other name)

/-- One line of a headers file; `none` for a line that is no UTF-8. -/
def readHeader (line : Option String) : Option (HeaderName × Bytes) := do
  let (header, value) ← Str.splitOnce [':'] (← line).toList
  let header ← headerName (Str.trim (String.ofList header))
  let value ← headerValue (Str.trim (String.ofList value))
  return (header, value)

/-- The `Host` header, of which the last one counts, and the others, from the
lines of the file; `none` for a file that cannot be opened.
mirrors wstunnel/src/tunnel/transport/mod.rs:24-50 -/
def headersFromFile (file : Option (List (Option String))) : Option (HeaderName × Bytes) × HeaderMap :=
  let headers := (file.getD []).filterMap readHeader
  ((headers.filter fun h => h.1 = hostName).getLast?, headers.filter fun h => h.1 ≠ hostName)

/-! ## The configuration -/

/-- mirrors wstunnel/src/config.rs:9 -/
def defaultClientUpgradePathPrefix : String := "v1"

/-- The arguments that the request depends on. `httpHeadersFile` is the
content of the file when a tunnel is opened. -/
structure ClientArgs where
  httpUpgradePathPrefix : String
  httpUpgradeCredentials : Option Bytes
  httpHeaders : HeaderMap
  httpHeadersFile : Option (Option (List (Option String)))
  tlsCertificate : Option (List CertificateDer)
  remoteHost : Host
  remotePort : UInt16

/-- The schemes of the HTTP/2 transport. -/
inductive Scheme where
  | http | https
  deriving DecidableEq, Repr

def Scheme.toStr : Scheme → String
  | .http => "http"
  | .https => "https"

structure WsClientConfig where
  httpUpgradePathPrefix : String
  httpUpgradeCredentials : Option Bytes
  httpHeaders : HeaderMap
  httpHeadersFile : Option (Option (List (Option String)))
  httpHeaderHost : Bytes
  remotePort : UInt16

/-- The common name of the certificate takes the place of the default prefix.
mirrors wstunnel/src/lib.rs:73-83 -/
def clientPathPrefix (parse : CertificateDer → Option X509Certificate) (args : ClientArgs) : String :=
  if args.httpUpgradePathPrefix = defaultClientUpgradePathPrefix then
    ((args.tlsCertificate.bind (findLeafCertificate parse)).bind cnFromCertificate).getD args.httpUpgradePathPrefix
  else args.httpUpgradePathPrefix

/-- mirrors wstunnel/src/lib.rs:133-142 -/
def clientHostHeader (args : ClientArgs) : Option Bytes :=
  match args.httpHeaders.find? fun h => h.1 = hostName with
  | some (_, value) => some value
  | none =>
    if args.remotePort = 80 ∨ args.remotePort = 443 then headerValue args.remoteHost.display
    else headerValue (args.remoteHost.display ++ ":" ++ toString args.remotePort.toNat)

/-- The part of `create_client` that the request depends on; `CreateClient` has all of it.
mirrors wstunnel/src/lib.rs:73-162 -/
def createClient (parse : CertificateDer → Option X509Certificate) (args : ClientArgs) : Option WsClientConfig := do
  let httpHeaderHost ← clientHostHeader args
  return {
    httpUpgradePathPrefix := clientPathPrefix parse args
    httpUpgradeCredentials := args.httpUpgradeCredentials
    httpHeaders := args.httpHeaders.filter fun h => h.1 ≠ hostName
    httpHeadersFile := args.httpHeadersFile
    httpHeaderHost, remotePort := args.remotePort }

/-! ## The request -/

/-- `headers.remove(k)` and `headers.append(k, v)` -/
def replaceHeader (headers : HeaderMap) (header : HeaderName × Bytes) : HeaderMap :=
  AssocMap.erase headers header.1 ++ [header]

/-- The headers of the command line, the credentials and the headers of the
file, in the order in which they are put into the request. -/
def WsClientConfig.customHeaders (cfg : WsClientConfig) : HeaderMap :=
  cfg.httpHeaders ++ (cfg.httpUpgradeCredentials.map fun auth => (HeaderName.authorization, auth)).toList ++
    (cfg.httpHeadersFile.map fun file => (headersFromFile file).2).getD []

/-- The `Host` header of the file. -/
def WsClientConfig.fileHost (cfg : WsClientConfig) : Option (HeaderName × Bytes) :=
  cfg.httpHeadersFile.bind fun file => (headersFromFile file).1

/-- `HeaderValue::from_static` -/
def ascii (text : String) : Bytes := Utf8.encode text.toList

/-- `key` is the random key of the handshake.
mirrors wstunnel/src/tunnel/transport/websocket.rs:248-299 -/
def websocketRequest (cfg : WsClientConfig) (key : Bytes) (token : String) : Option Request := do
  let uri ← Http.Uri.parse ('/' :: (cfg.httpUpgradePathPrefix.toList ++ "/events".toList))
  let protocol ← headerValue ("v1, " ++ jwtHeaderPrefix ++ token)
  let headers : HeaderMap :=
    [(hostName, cfg.httpHeaderHost), (.other "upgrade", ascii "websocket"), (.other "connection", ascii "upgrade"),
      (.other "sec-websocket-key", key), (.other "sec-websocket-version", ascii "13"),
      (.secWebsocketProtocol, protocol)]
  return ⟨String.ofList uri.pathText, (cfg.customHeaders ++ cfg.fileHost.toList).foldl replaceHeader headers⟩

theorem websocketRequest_eq_some {cfg : WsClientConfig} {key : Bytes} {token : String} {req : Request}
    (h : websocketRequest cfg key token = some req) : ∃ uri protocol,
      Http.Uri.parse ('/' :: (cfg.httpUpgradePathPrefix.toList ++ "/events".toList)) = some uri ∧
      headerValue ("v1, " ++ jwtHeaderPrefix ++ token) = some protocol ∧
      req = ⟨String.ofList uri.pathText, (cfg.customHeaders ++ cfg.fileHost.toList).foldl replaceHeader
        [(hostName, cfg.httpHeaderHost), (.other "upgrade", ascii "websocket"), (.other "connection", ascii "upgrade"),
          (.other "sec-websocket-key", key), (.other "sec-websocket-version", ascii "13"),
          (.secWebsocketProtocol, protocol)]⟩ := by
  obtain ⟨uri, huri, h⟩ := Option.bind_eq_some_iff.mp h
  obtain ⟨protocol, hprotocol, h⟩ := Option.bind_eq_some_iff.mp h
  exact ⟨uri, protocol, huri, hprotocol, (Option.some.inj h).symm⟩

/-- The authority of the request: the host of the file, with the port unless
it is the one of the scheme, or else the host header.
mirrors wstunnel/src/tunnel/transport/http2.rs:133-153, 160-162 -/
def WsClientConfig.authority (cfg : WsClientConfig) (scheme : Scheme) : String :=
  match cfg.fileHost with
  | some (_, value) =>
    let host := (headerToStr value).getD ""
    if (scheme, cfg.remotePort) = (.http, 80) ∨ (scheme, cfg.remotePort) = (.https, 443) then host
    else host ++ ":" ++ toString cfg.remotePort.toNat
  | none => (headerToStr cfg.httpHeaderHost).getD ""

/-- mirrors wstunnel/src/tunnel/transport/http2.rs:155-203 -/
def http2Request (cfg : WsClientConfig) (scheme : Scheme) (token : String) : Option Request := do
  let uri ← Http.Uri.parse (scheme.toStr.toList ++ "://".toList ++
    ((cfg.authority scheme).toList ++ '/' :: (cfg.httpUpgradePathPrefix.toList ++ "/events".toList)))
  let cookie ← headerValue token
  let headers : HeaderMap := [(.cookie, cookie), (.other "content-type", ascii "application/json")]
  return ⟨String.ofList uri.pathText, cfg.customHeaders.foldl replaceHeader headers⟩

theorem http2Request_eq_some {cfg : WsClientConfig} {scheme : Scheme} {token : String} {req : Request}
    (h : http2Request cfg scheme token = some req) : ∃ uri cookie,
      Http.Uri.parse (scheme.toStr.toList ++ "://".toList ++
        ((cfg.authority scheme).toList ++ '/' :: (cfg.httpUpgradePathPrefix.toList ++ "/events".toList))) = some uri ∧
      headerValue token = some cookie ∧
      req = ⟨String.ofList uri.pathText, cfg.customHeaders.foldl replaceHeader
        [(.cookie, cookie), (.other "content-type", ascii "application/json")]⟩ := by
  obtain ⟨uri, huri, h⟩ := Option.bind_eq_some_iff.mp h
  obtain ⟨cookie, hcookie, h⟩ := Option.bind_eq_some_iff.mp h
  exact ⟨uri, cookie, huri, hcookie, (Option.some.inj h).symm⟩

inductive Transport where
  | websocket (key : Bytes)
  | http2 (scheme : Scheme)
  deriving DecidableEq, Repr

def upgradeRequest (cfg : WsClientConfig) (token : String) : Transport → Option Request
  | .websocket key => websocketRequest cfg key token
  | .http2 scheme => http2Request cfg scheme token

/-! ## The path prefix -/

/-- No character that ends a path segment, or the path. -/
def Clean (text : String) : Prop := ∀ c ∈ text.toList, Http.endsAuthority c = false

instance (text : String) : Decidable (Clean text) := List.decidableBAll _ _

/-- The server sees the prefix of the client and, when it is the one that it
is restricted to, refuses nothing that it would not refuse anyway. -/
structure PrefixAgrees (pathPrefix : String) (req : Request) : Prop where
  extracted : extractPathPrefix req.path = .ok pathPrefix
  mtls : checkPath (some pathPrefix) req = .ok pathPrefix
  rules : ∀ (M : Matchers), M.RegexSpec → ∀ restrictTo rules unrestricted,
    fromPathPrefix M [pathPrefix] restrictTo = some rules →
    fromPathPrefix M [] restrictTo = some unrestricted → ∀ remote auth,
      (validateTunnel M remote pathPrefix auth rules).isSome =
        (validateTunnel M remote pathPrefix auth unrestricted).isSome

/-- The authorities that leave the prefix where the server looks for it. -/
inductive AuthorityFits (pathPrefix : String) : List Char → Prop
  /-- No character that ends an authority. -/
  | clean {host : List Char} (hhost : ∀ c ∈ host, Http.endsAuthority c = false) : AuthorityFits pathPrefix host
  /-- A path behind the host, which has the prefix as its first segment. -/
  | segment {host path : List Char} (hhost : ∀ c ∈ host, Http.endsAuthority c = false)
    (hpath : ∀ c ∈ path, Http.endsPath c = false) (hfirst : path.takeWhile (· ≠ '/') = pathPrefix.toList) :
    AuthorityFits pathPrefix (host ++ '/' :: path)
  /-- A path and a query or a fragment: that path is the whole one. -/
  | whole {host rest more : List Char} {c : Char} (hhost : ∀ c ∈ host, Http.endsAuthority c = false)
    (hrest : ∀ c ∈ rest, Http.endsPath c = false) (hevents : "events".toList <:+ rest)
    (hc : Http.endsPath c = true) :
    AuthorityFits pathPrefix (host ++ '/' :: (pathPrefix.toList ++ '/' :: (rest ++ c :: more)))

/-- The target behind the slash that the client puts in front of the prefix. -/
def eventsTarget (pathPrefix : String) : List Char := pathPrefix.toList ++ "/events".toList

/-- The path of the request, by the text of the target. -/
def requestPath (cfg : WsClientConfig) : Transport → List Char
  | .websocket _ => '/' :: (eventsTarget cfg.httpUpgradePathPrefix).takeWhile fun c => !Http.endsPath c
  | .http2 scheme => Http.absolutePath ((cfg.authority scheme).toList ++ '/' :: eventsTarget cfg.httpUpgradePathPrefix)

theorem path_of_upgradeRequest {cfg : WsClientConfig} {token : String} {transport : Transport} {req : Request}
    (h : upgradeRequest cfg token transport = some req) : req.path.toList = requestPath cfg transport := by
  cases transport with
  | websocket key =>
    obtain ⟨uri, protocol, huri, -, rfl⟩ := websocketRequest_eq_some h
    rw [String.toList_ofList]
    exact Http.parse_origin huri
  | http2 scheme =>
    obtain ⟨uri, cookie, huri, -, rfl⟩ := http2Request_eq_some h
    rw [String.toList_ofList]
    refine Http.parse_absolute ?_ huri
    cases scheme
    · exact .inl rfl
    · exact .inr rfl

theorem Clean.endsPath {text : String} (h : Clean text) : ∀ c ∈ text.toList, Http.endsPath c = false := by
  intro c hc
  have hends := h c hc
  rw [Http.endsAuthority, Bool.or_eq_false_iff] at hends
  exact hends.2

theorem Clean.slash_not_mem {text : String} (h : Clean text) : '/' ∉ text.toList :=
  fun hmem => absurd (h '/' hmem) (by decide)

/-- What is extracted has no slash, and no character that the path does not have. -/
theorem clean_of_path {pathPrefix : String} {target r : List Char}
    (hpath : target.takeWhile (fun c => !Http.endsPath c) = pathPrefix.toList ++ r)
    (hslash : '/' ∉ pathPrefix.toList) : Clean pathPrefix := by
  intro c hc
  have hmem : c ∈ target.takeWhile fun c => !Http.endsPath c := hpath ▸ List.mem_append_left _ hc
  have hends : Http.endsPath c = false := by simpa using List.mem_takeWhile_imp hmem
  have hne : c ≠ '/' := fun heq => hslash (heq ▸ hc)
  rw [Http.endsAuthority, hends, decide_eq_false hne]
  rfl

theorem takeWhile_endsPath {s : List Char} (h : ∀ c ∈ s, Http.endsPath c = false) (t : List Char) :
    (s ++ t).takeWhile (fun c => !Http.endsPath c) = s ++ t.takeWhile fun c => !Http.endsPath c :=
  List.takeWhile_append_of_pos fun c hc => by rw [h c hc]; rfl

theorem takeWhile_eventsTarget {pathPrefix : String} (h : Clean pathPrefix) :
    (eventsTarget pathPrefix).takeWhile (fun c => !Http.endsPath c) = eventsTarget pathPrefix := by
  rw [eventsTarget, takeWhile_endsPath h.endsPath]
  rfl

theorem firstSegment_append (l r : List Char) : (l ++ '/' :: r).takeWhile (· ≠ '/') = l.takeWhile (· ≠ '/') := by
  induction l with
  | nil => rfl
  | cons c l ih => rw [List.cons_append, List.takeWhile_cons, List.takeWhile_cons, ih]

theorem firstSegment_of_not_mem {l : List Char} (h : '/' ∉ l) : l.takeWhile (· ≠ '/') = l := by
  rw [List.takeWhile_eq_self_iff]
  exact fun c hc => decide_eq_true fun heq => h (heq ▸ hc)

theorem extractPathPrefix_origin_iff {pathPrefix path : String}
    (h : path.toList = '/' :: (eventsTarget pathPrefix).takeWhile fun c => !Http.endsPath c) :
    extractPathPrefix path = .ok pathPrefix ↔ Clean pathPrefix := by
  rw [extractPathPrefix_eq_ok, h]
  refine ⟨fun ⟨r, hpath, hslash, _⟩ => clean_of_path (List.cons.inj hpath).2 hslash, fun hclean => ?_⟩
  exact ⟨"events".toList, by rw [takeWhile_eventsTarget hclean]; rfl, hclean.slash_not_mem, List.suffix_rfl⟩

/-- A text up to the first character with a property. -/
theorem split_at_first (p : Char → Bool) (s : List Char) :
    (∀ c ∈ s, p c = false) ∨ ∃ l c r, s = l ++ c :: r ∧ p c = true ∧ ∀ c ∈ l, p c = false := by
  induction s with
  | nil => exact .inl fun c hc => absurd hc List.not_mem_nil
  | cons d s ih =>
    cases hd : p d with
    | true => exact .inr ⟨[], d, s, rfl, hd, fun c hc => absurd hc List.not_mem_nil⟩
    | false =>
      rcases ih with hall | ⟨l, c, r, rfl, hc, hl⟩
      · exact .inl (List.forall_mem_cons.mpr ⟨hd, hall⟩)
      · exact .inr ⟨d :: l, c, r, rfl, hc, List.forall_mem_cons.mpr ⟨hd, hl⟩⟩

/-- The converse of `extractPathPrefix_of_fits`. -/
theorem fits_of_extractPathPrefix {pathPrefix path : String} {authority : List Char}
    (h : path.toList = Http.absolutePath (authority ++ '/' :: eventsTarget pathPrefix))
    (hextract : extractPathPrefix path = .ok pathPrefix) :
    Clean pathPrefix ∧ AuthorityFits pathPrefix authority := by
  obtain ⟨r, hpath, hslash, hevents⟩ := extractPathPrefix_eq_ok.mp hextract
  rw [h] at hpath
  rcases split_at_first Http.endsAuthority authority with hall | ⟨host, c, tail, rfl, hc, hhost⟩
  · rw [Http.absolutePath_slash hall] at hpath
    exact ⟨clean_of_path (List.cons.inj hpath).2 hslash, .clean hall⟩
  rw [List.append_assoc, List.cons_append] at hpath
  by_cases hcslash : c = '/'
  · subst hcslash
    rw [Http.absolutePath_slash hhost] at hpath
    have htarget := (List.cons.inj hpath).2
    refine ⟨clean_of_path htarget hslash, ?_⟩
    rcases split_at_first Http.endsPath tail with hall | ⟨before, d, more, rfl, hd, hbefore⟩
    · -- the path of the authority goes on into the prefix
      refine .segment hhost hall ?_
      rw [takeWhile_endsPath hall, List.takeWhile_cons_of_pos (by decide)] at htarget
      have hsegment := congrArg (List.takeWhile (· ≠ '/')) htarget
      rwa [firstSegment_append, firstSegment_append, firstSegment_of_not_mem hslash] at hsegment
    · rw [List.append_assoc, List.cons_append, takeWhile_endsPath hbefore,
        List.takeWhile_cons_of_neg (by rw [hd]; decide), List.append_nil] at htarget
      subst htarget
      rw [List.append_assoc, List.cons_append]
      exact .whole hhost (fun e he => hbefore e (List.mem_append_right _ (List.mem_cons_of_mem _ he))) hevents hd
  · -- a query or a fragment behind the host: the path is a slash
    have hends : Http.endsPath c = true := by simpa [Http.endsAuthority, hcslash] using hc
    rw [Http.absolutePath_endsPath hhost hends] at hpath
    simp at hpath

theorem extractPathPrefix_of_fits {pathPrefix path : String} {authority : List Char}
    (h : path.toList = Http.absolutePath (authority ++ '/' :: eventsTarget pathPrefix)) (hclean : Clean pathPrefix)
    (hfits : AuthorityFits pathPrefix authority) : extractPathPrefix path = .ok pathPrefix := by
  rw [extractPathPrefix_eq_ok, h]
  cases hfits with
  | clean hhost =>
    rw [Http.absolutePath_slash hhost, takeWhile_eventsTarget hclean]
    exact ⟨"events".toList, rfl, hclean.slash_not_mem, List.suffix_rfl⟩
  | @segment host path hhost hpath hfirst =>
    have hsplit := List.takeWhile_append_dropWhile (p := (· ≠ '/')) (l := path)
    rw [hfirst] at hsplit
    rw [List.append_assoc, List.cons_append, Http.absolutePath_slash hhost, takeWhile_endsPath hpath,
      List.takeWhile_cons_of_pos (by decide), takeWhile_eventsTarget hclean, ← hsplit, List.append_assoc]
    have hevents : "events".toList <:+ eventsTarget pathPrefix := ⟨pathPrefix.toList ++ ['/'], by
      rw [eventsTarget, List.append_assoc]
      rfl⟩
    cases hrest : path.dropWhile (· ≠ '/') with
    | nil => exact ⟨_, rfl, hclean.slash_not_mem, hevents⟩
    | cons c rest =>
      have hc : c = '/' := by
        have hhead := List.head?_dropWhile_not (p := (· ≠ '/')) path
        rw [hrest] at hhead
        simpa using hhead
      subst hc
      exact ⟨_, rfl, hclean.slash_not_mem, hevents.trans ⟨rest ++ ['/'], by simp⟩⟩
  | @whole host rest more c hhost hrest hevents hc =>
    rw [List.append_assoc, List.cons_append, Http.absolutePath_slash hhost, List.append_assoc, List.cons_append,
      List.append_assoc, List.cons_append, takeWhile_endsPath hclean.endsPath, List.takeWhile_cons_of_pos (by decide),
      takeWhile_endsPath hrest, List.takeWhile_cons_of_neg (by rw [hc]; decide), List.append_nil]
    exact ⟨rest, rfl, hclean.slash_not_mem, hevents⟩

/-- The server finds the prefix in the request exactly when the prefix ends nothing
and, over HTTP/2, the authority fits. -/
theorem extractPathPrefix_upgradeRequest {cfg : WsClientConfig} {token : String} {transport : Transport}
    {req : Request} (h : upgradeRequest cfg token transport = some req) :
    extractPathPrefix req.path = .ok cfg.httpUpgradePathPrefix ↔
      Clean cfg.httpUpgradePathPrefix ∧ ∀ scheme, transport = .http2 scheme →
        AuthorityFits cfg.httpUpgradePathPrefix (cfg.authority scheme).toList := by
  have hpath := path_of_upgradeRequest h
  cases transport with
  | websocket key =>
    rw [extractPathPrefix_origin_iff hpath, iff_self_and]
    intro _ scheme hscheme
    cases hscheme
  | http2 scheme =>
    refine ⟨fun hextract => ?_, fun ⟨hclean, hfits⟩ => extractPathPrefix_of_fits hpath hclean (hfits scheme rfl)⟩
    obtain ⟨hclean, hfits⟩ := fits_of_extractPathPrefix hpath hextract
    refine ⟨hclean, fun scheme' hscheme => ?_⟩
    cases hscheme
    exact hfits

/-- A rule for the prefix asks nothing of a request with that prefix. -/
theorem fromPathPrefix_sole {M : Matchers} (hre : M.RegexSpec) {restrictTo : List (String × UInt16)}
    {rules unrestricted : RestrictionsRules} {pathPrefix : String}
    (hrules : fromPathPrefix M [pathPrefix] restrictTo = some rules)
    (hall : fromPathPrefix M [] restrictTo = some unrestricted) (remote : RemoteAddr) (auth : Option String) :
    (validateTunnel M remote pathPrefix auth rules).isSome =
      (validateTunnel M remote pathPrefix auth unrestricted).isSome := by
  obtain ⟨allow, hallow, ⟨hnil, -⟩ | ⟨-, hmap⟩⟩ := fromPathPrefix_cases M hrules
  · cases hnil
  obtain ⟨allow', hallow', ⟨-, hopen⟩ | ⟨hne, -⟩⟩ := fromPathPrefix_cases M hall
  · cases hallow.symm.trans hallow'
    rw [Bool.eq_iff_iff, validateTunnel_isSome_iff, validateTunnel_isSome_iff, hopen]
    simp only [List.mem_singleton, exists_eq_left, allowAll_admits]
    refine ⟨fun ⟨r, hr, hadmits⟩ => ?_, fun hexists => ?_⟩
    · obtain ⟨p, hp, hrule⟩ := (mem_of_mapM hmap r).mp hr
      exact ((pathRule_admits M hre hrule remote pathPrefix auth).mp hadmits).2
    · obtain ⟨r, hr, hrule⟩ := exists_of_mapM hmap List.mem_cons_self
      exact ⟨r, hr, (pathRule_admits M hre hrule remote pathPrefix auth).mpr ⟨rfl, hexists⟩⟩
  · exact absurd rfl hne

/-- **Client and server agree on the path prefix exactly when it has none of
`/`, `?` and `#`** and, over HTTP/2, the authority in front of it has none either,
or has a path of its own that starts with the prefix. -/
theorem prefixAgrees_iff (cfg : WsClientConfig) (token : String) (transport : Transport) (req : Request)
    (hreq : upgradeRequest cfg token transport = some req) :
    PrefixAgrees cfg.httpUpgradePathPrefix req ↔
      Clean cfg.httpUpgradePathPrefix ∧ ∀ scheme, transport = .http2 scheme →
        AuthorityFits cfg.httpUpgradePathPrefix (cfg.authority scheme).toList := by
  have hiff := extractPathPrefix_upgradeRequest hreq
  refine ⟨fun h => hiff.mp h.extracted, fun hclean => ?_⟩
  have hextract := hiff.mpr hclean
  refine ⟨hextract, checkPath_eq_ok.mpr ⟨hextract, fun p hp => Option.some.inj hp⟩, ?_⟩
  intro M hre restrictTo rules unrestricted hrules hall remote auth
  exact fromPathPrefix_sole hre hrules hall remote auth

/-- A client with a prefix and no headers. -/
def plainClient (pathPrefix : String) : WsClientConfig := ⟨pathPrefix, none, [], none, ascii "example.com", 443⟩

/-- A `Host` header with a path. -/
def hostPathClient (pathPrefix : String) : WsClientConfig :=
  { plainClient pathPrefix with httpHeaderHost := ascii "h/v1" }

theorem prefixAgrees_v1 :
    (∃ req, upgradeRequest (plainClient "v1") "e.t.s" (.http2 .https) = some req ∧ PrefixAgrees "v1" req) ∧
    (∃ req, upgradeRequest (hostPathClient "v1") "e.t.s" (.http2 .https) = some req ∧ PrefixAgrees "v1" req) ∧
    ∃ req, upgradeRequest (hostPathClient "v2") "e.t.s" (.http2 .https) = some req ∧ ¬ PrefixAgrees "v2" req := by
  have hclean : AuthorityFits "v1" "example.com".toList := .clean (by simp [Http.endsAuthority, Http.endsPath])
  have hsegment : AuthorityFits "v1" (['h'] ++ '/' :: ['v', '1']) :=
    .segment (by simp [Http.endsAuthority, Http.endsPath]) (by simp [Http.endsPath]) (by decide)
  refine ⟨⟨_, rfl, ?_⟩, ⟨_, rfl, ?_⟩, ⟨_, rfl, fun h => ?_⟩⟩
  · exact (prefixAgrees_iff (plainClient "v1") "e.t.s" (.http2 .https) _ rfl).mpr ⟨by decide, fun scheme _ => hclean⟩
  · refine (prefixAgrees_iff (hostPathClient "v1") "e.t.s" (.http2 .https) _ rfl).mpr ⟨by decide, fun scheme _ => ?_⟩
    rwa [show (hostPathClient "v1").authority scheme = "h/v1" from rfl]
  · have hextract := h.extracted
    revert hextract
    decide

/-- The server sees the first segment of a prefix with a slash, and no prefix
at all behind a question mark. -/
theorem slashPrefix_refused :
    (∃ req, upgradeRequest (plainClient "team/a") "e.t.s" (.websocket []) = some req ∧
      extractPathPrefix req.path = .ok "team" ∧ checkPath (some "team/a") req = .error badRequest) ∧
    ∃ req, upgradeRequest (plainClient "a?b") "e.t.s" (.websocket []) = some req ∧
      extractPathPrefix req.path = .error .badUpgradeRequest := by
  refine ⟨⟨_, rfl, by decide, by decide⟩, ⟨_, rfl, by decide⟩⟩

/-- The prefix of a client without one of its own is the name its certificate
restricts it to. -/
theorem createClient_pathPrefix {parse : CertificateDer → Option X509Certificate} {args : ClientArgs}
    {cfg : WsClientConfig} {cn : String} (hcfg : createClient parse args = some cfg)
    (hdefault : args.httpUpgradePathPrefix = defaultClientUpgradePathPrefix)
    (hcn : restrictPath parse args.tlsCertificate = some cn) : cfg.httpUpgradePathPrefix = cn := by
  obtain ⟨host, -, hsome⟩ := Option.bind_eq_some_iff.mp hcfg
  cases hsome
  rw [restrictPath] at hcn
  rw [clientPathPrefix, if_pos hdefault, hcn, Option.getD_some]

/-- **mTLS lets in a client that takes its prefix from its certificate**, if
the common name has none of `/`, `?` and `#` and the authority fits. -/
theorem checkPath_certificate {parse : CertificateDer → Option X509Certificate} {args : ClientArgs}
    {cfg : WsClientConfig} {token cn : String} {transport : Transport} {req : Request}
    (hcfg : createClient parse args = some cfg)
    (hdefault : args.httpUpgradePathPrefix = defaultClientUpgradePathPrefix)
    (hcn : restrictPath parse args.tlsCertificate = some cn) (hclean : Clean cn)
    (hauthority : ∀ scheme, transport = .http2 scheme → AuthorityFits cn (cfg.authority scheme).toList)
    (hreq : upgradeRequest cfg token transport = some req) :
    checkPath (restrictPath parse args.tlsCertificate) req = .ok cn := by
  have hiff := extractPathPrefix_upgradeRequest hreq
  rw [createClient_pathPrefix hcfg hdefault hcn] at hiff
  rw [hcn]
  exact checkPath_eq_ok.mpr ⟨hiff.mpr ⟨hclean, hauthority⟩, fun name hname => Option.some.inj hname⟩

/-! ## The token -/

/-- Visible ASCII characters and spaces only. -/
def Visible (text : String) : Prop := ∀ c ∈ text.toList, 32 ≤ c.toNat ∧ c.toNat < 127

instance (text : String) : Decidable (Visible text) := List.decidableBAll _ _

theorem headerValue_of_visible {text : String} (h : Visible text) :
    headerValue text = some (Utf8.encode text.toList) := by
  have hascii : ∀ c ∈ text.toList, c.toNat < 0x80 := fun c hc => Nat.lt_succ_of_lt (h c hc).2
  refine if_pos ?_
  rw [Utf8.encode_of_ascii hascii, List.all_map, List.all_eq_true]
  intro c hc
  have hcode := Utf8.toNat_ofNat_of_ascii (hascii c hc)
  have hvisible := h c hc
  simp only [Function.comp_apply, Bool.or_eq_true, Bool.and_eq_true, decide_eq_true_eq, UInt8.le_iff_toNat_le,
    ne_eq, ← UInt8.toNat_inj, hcode, UInt8.reduceToNat]
  omega

/-- `jsonwebtoken::encode` with the key of the client, whose text is base64
with dots, or empty when it fails. -/
structure Signer where
  encode : JwtTunnelConfig → String
  visible : ∀ cfg, Visible (encode cfg)

/-- `none` is `unreachable!`.
mirrors wstunnel/src/tunnel/transport/jwt.rs:62-66 -/
def tunnelToJwtToken (signer : Signer) (requestId : String) (dest : RemoteAddr) : Option String :=
  (JwtTunnelConfig.new requestId dest).map signer.encode

theorem visible_tunnelToJwtToken {signer : Signer} {requestId token : String} {dest : RemoteAddr}
    (h : tunnelToJwtToken signer requestId dest = some token) : Visible token := by
  obtain ⟨cfg, -, rfl⟩ := Option.map_eq_some_iff.mp h
  exact signer.visible cfg

/-- Visible text comes out of a header as it went in. -/
theorem headerToStr_headerValue {text : String} {value : Bytes} (hvisible : Visible text)
    (h : headerValue text = some value) : headerToStr value = some text := by
  have hascii : ∀ c ∈ text.toList, c.toNat < 0x80 := fun c hc => Nat.lt_succ_of_lt (hvisible c hc).2
  rw [headerValue, Option.ite_none_right_eq_some, Utf8.encode_of_ascii hascii] at h
  cases h.2
  have hall : (text.toList.map fun c => UInt8.ofNat c.toNat).all
      (fun b => (32 ≤ b && b < 127) || b = 9) = true := by
    simp only [List.all_map, List.all_eq_true, Function.comp_apply, Bool.or_eq_true, Bool.and_eq_true,
      decide_eq_true_eq, UInt8.le_iff_toNat_le, UInt8.lt_iff_toNat_lt]
    intro c hc
    rw [Utf8.toNat_ofNat_of_ascii (hascii c hc)]
    exact .inl (hvisible c hc)
  have hchars : text.toList.map ((fun b : UInt8 => Char.ofNat b.toNat) ∘ fun c => UInt8.ofNat c.toNat) =
      text.toList := by
    refine List.map_congr_left (g := id) ?_ |>.trans (List.map_id _)
    intro c hc
    rw [Function.comp_apply, Utf8.toNat_ofNat_of_ascii (hascii c hc), Char.ofNat_toNat]
    rfl
  rw [headerToStr, if_pos hall, List.map_map, hchars, String.ofList_toList]

theorem get_replaceHeader_self (headers : HeaderMap) (header : HeaderName × Bytes) :
    HeaderMap.get (replaceHeader headers header) header.1 = some header.2 := by
  rw [HeaderMap.get, replaceHeader, List.lookup_append, AssocMap.lookup_erase_self]
  exact List.lookup_cons_self

theorem get_replaceHeader_of_ne (headers : HeaderMap) {header : HeaderName × Bytes} {name : HeaderName}
    (h : name ≠ header.1) : HeaderMap.get (replaceHeader headers header) name = headers.get name := by
  rw [HeaderMap.get, replaceHeader, List.lookup_append, AssocMap.lookup_erase_of_ne _ h,
    show [header].lookup name = none from AssocMap.lookup_cons_of_ne h, Option.or_none]
  rfl

/-- The value of the last header of a name. -/
def lastHeader (headers : HeaderMap) (name : HeaderName) : Option Bytes := headers.reverse.lookup name

/-- What is found is the last custom header of the name, or else what the request
was built with. -/
theorem get_foldl_replaceHeader (headers custom : HeaderMap) (name : HeaderName) :
    HeaderMap.get (custom.foldl replaceHeader headers) name = (lastHeader custom name).or (headers.get name) := by
  induction custom generalizing headers with
  | nil => rfl
  | cons c custom ih =>
    rw [List.foldl_cons, ih, lastHeader, lastHeader, List.reverse_cons, List.lookup_append, Option.or_assoc]
    congr 1
    by_cases hc : name = c.1
    · rw [hc, get_replaceHeader_self, List.lookup_cons_self, Option.some_or]
    · rw [get_replaceHeader_of_ne headers hc, AssocMap.lookup_cons_of_ne (v := c.2) hc, List.lookup_nil, Option.none_or]

/-- The text of the header has the mark of a token. -/
def Marked (value : Bytes) : Prop := ∃ text, headerToStr value = some text ∧ jwtHeaderPrefix.toList <:+: text.toList

/-- The text of the header has the mark, and the token behind the first one. -/
def Bears (value : Bytes) (token : String) : Prop :=
  ∃ text front, headerToStr value = some text ∧ text.toList = front ++ jwtHeaderPrefix.toList ++ token.toList ∧
    ∀ l r, text.toList = l ++ jwtHeaderPrefix.toList ++ r → front.length ≤ l.length

/-- The text of an optional header. -/
def textOf (value : Option Bytes) : String := (value.bind headerToStr).getD ""

/-- The last custom headers of the two names that may carry a token leave `token`
to be found. Over WebSocket no custom header may take the place of the protocol
header, unless it, or else the cookie, says the same; over HTTP/2 no protocol header
may be marked with another token, and no cookie may take the place of the one with
the token. -/
def KeepsToken (token : String) (protocol cookie : Option Bytes) : Transport → Prop
  | .websocket _ => ∀ value, protocol = some value → Bears value token ∨ ¬ Marked value ∧ textOf cookie = token
  | .http2 _ => (∃ value, protocol = some value ∧ Bears value token) ∨
      (∀ value, protocol = some value → ¬ Marked value) ∧ ∀ value, cookie = some value → textOf cookie = token

theorem bears_iff {value : Bytes} {token : String} : Bears value token ↔ ∃ text front,
    headerToStr value = some text ∧ Str.splitOnce jwtHeaderPrefix.toList text.toList = some (front, token.toList) := by
  refine ⟨fun ⟨text, front, htext, hsplit, hfirst⟩ => ?_, fun ⟨text, front, htext, hsplit⟩ =>
    ⟨text, front, htext, Str.splitOnce_first hsplit⟩⟩
  have hsome := Str.isSome_splitOnce.mpr ⟨front, token.toList, hsplit.symm⟩
  obtain ⟨⟨l, r⟩, hlr⟩ := Option.isSome_iff_exists.mp hsome
  obtain ⟨hsplit', hfirst'⟩ := Str.splitOnce_first hlr
  -- both are the first occurrence
  have hlen : front.length = l.length := Nat.le_antisymm (hfirst l r hsplit') (hfirst' front _ hsplit)
  have heq := hsplit.symm.trans hsplit'
  rw [List.append_assoc, List.append_assoc] at heq
  obtain ⟨rfl, hrest⟩ := List.append_inj heq hlen
  rw [← List.append_cancel_left hrest] at hlr
  exact ⟨text, front, htext, hlr⟩

theorem splitOnce_protocol (token : List Char) :
    Str.splitOnce jwtHeaderPrefix.toList ("v1, ".toList ++ jwtHeaderPrefix.toList ++ token) =
      some ("v1, ".toList, token) := by
  rfl

/-- The protocol header is asked first; the cookie when it has no mark. -/
theorem tokenText_eq_iff {req : Request} {token : String} : tokenText req = token ↔
    (∃ value, req.headers.get .secWebsocketProtocol = some value ∧ Bears value token) ∨
      (∀ value, req.headers.get .secWebsocketProtocol = some value → ¬ Marked value) ∧
        textOf (req.headers.get .cookie) = token := by
  simp only [tokenText, bears_iff]
  cases hget : req.headers.get .secWebsocketProtocol with
  | none => simp [textOf]
  | some value =>
    cases htext : headerToStr value with
    | none => simp [htext, Marked, textOf]
    | some text =>
      cases hsplit : Str.splitOnce jwtHeaderPrefix.toList text.toList with
      | none =>
        have hunmarked : ¬ jwtHeaderPrefix.toList <:+: text.toList := by
          rw [← Str.isSome_splitOnce, hsplit]
          exact Bool.false_ne_true
        simp [htext, hsplit, Marked, hunmarked, textOf]
      | some lr =>
        have hmarked : jwtHeaderPrefix.toList <:+: text.toList := by
          rw [← Str.isSome_splitOnce, hsplit]
          rfl
        have htoken : String.ofList lr.2 = token ↔ lr.2 = token.toList := by
          rw [← String.toList_inj, String.toList_ofList]
        simp [htext, hsplit, Marked, hmarked, Prod.ext_iff, htoken]

/-- The `Host` header of the file is one. -/
theorem fileHost_fst {cfg : WsClientConfig} {header : HeaderName × Bytes} (h : cfg.fileHost = some header) :
    header.1 = hostName := by
  obtain ⟨file, -, hlast⟩ := Option.bind_eq_some_iff.mp h
  have hmem := List.mem_of_getLast? hlast
  simpa using (List.mem_filter.mp hmem).2

/-- The protocol header of a WebSocket request bears the token. -/
theorem bears_protocol {token : String} {value : Bytes} (hvisible : Visible token)
    (h : headerValue ("v1, " ++ jwtHeaderPrefix ++ token) = some value) : Bears value token := by
  have hfront : Visible ("v1, " ++ jwtHeaderPrefix) := by decide
  have htext : Visible ("v1, " ++ jwtHeaderPrefix ++ token) := by
    intro c hc
    rw [String.toList_append, List.mem_append] at hc
    exact hc.elim (hfront c) (hvisible c)
  refine bears_iff.mpr ⟨_, "v1, ".toList, headerToStr_headerValue htext h, ?_⟩
  rw [String.toList_append, String.toList_append]
  exact splitOnce_protocol token.toList

/-- The `Host` header of the file is none of the two. -/
theorem lastHeader_fileHost (cfg : WsClientConfig) {name : HeaderName} (hname : name ≠ hostName) :
    lastHeader (cfg.customHeaders ++ cfg.fileHost.toList) name = lastHeader cfg.customHeaders name := by
  rw [lastHeader, lastHeader, List.reverse_append, List.lookup_append]
  cases hhost : cfg.fileHost with
  | none => rfl
  | some header =>
    have hne : name ≠ header.1 := by rwa [fileHost_fst hhost]
    rw [show header = (header.1, header.2) from rfl, Option.toList_some, List.reverse_singleton,
      AssocMap.lookup_cons_of_ne hne, List.lookup_nil, Option.none_or]

/-- Over WebSocket the client writes the protocol header, and no cookie. -/
theorem carriers_websocket {cfg : WsClientConfig} {key : Bytes} {token : String} {req : Request}
    (h : websocketRequest cfg key token = some req) : ∃ value,
      headerValue ("v1, " ++ jwtHeaderPrefix ++ token) = some value ∧
      req.headers.get .secWebsocketProtocol =
        (lastHeader cfg.customHeaders .secWebsocketProtocol).or (some value) ∧
      req.headers.get .cookie = lastHeader cfg.customHeaders .cookie := by
  obtain ⟨uri, value, -, hvalue, rfl⟩ := websocketRequest_eq_some h
  refine ⟨value, hvalue, ?_, ?_⟩
  · rw [get_foldl_replaceHeader, lastHeader_fileHost cfg (by decide)]
    rfl
  · rw [get_foldl_replaceHeader, lastHeader_fileHost cfg (by decide)]
    exact Option.or_none

/-- Over HTTP/2 it writes the cookie, and no protocol header. -/
theorem carriers_http2 {cfg : WsClientConfig} {scheme : Scheme} {token : String} {req : Request}
    (h : http2Request cfg scheme token = some req) : ∃ value, headerValue token = some value ∧
      req.headers.get .secWebsocketProtocol = lastHeader cfg.customHeaders .secWebsocketProtocol ∧
      req.headers.get .cookie = (lastHeader cfg.customHeaders .cookie).or (some value) := by
  obtain ⟨uri, value, -, hvalue, rfl⟩ := http2Request_eq_some h
  refine ⟨value, hvalue, ?_, ?_⟩
  · rw [get_foldl_replaceHeader]
    exact Option.or_none
  · rw [get_foldl_replaceHeader]
    rfl

/-- **The token of the destination is what the server finds, exactly when the last
custom headers of the two names leave it to be found.** -/
theorem token_recovered_iff (signer : Signer) (requestId : String) (dest : RemoteAddr) (token : String)
    (cfg : WsClientConfig) (transport : Transport) (req : Request)
    (htoken : tunnelToJwtToken signer requestId dest = some token)
    (hreq : upgradeRequest cfg token transport = some req) :
    tokenText req = token ↔ KeepsToken token (lastHeader cfg.customHeaders .secWebsocketProtocol)
      (lastHeader cfg.customHeaders .cookie) transport := by
  have hvisible := visible_tunnelToJwtToken htoken
  rw [tokenText_eq_iff]
  cases transport with
  | websocket key =>
    obtain ⟨value, hvalue, hprotocol, hcookie⟩ := carriers_websocket hreq
    have hbears := bears_protocol hvisible hvalue
    rw [hprotocol, hcookie]
    cases lastHeader cfg.customHeaders .secWebsocketProtocol with
    | none => exact iff_of_true (.inl ⟨value, rfl, hbears⟩) fun _ hnone => by cases hnone
    | some custom => simp [KeepsToken]
  | http2 scheme =>
    obtain ⟨value, hvalue, hprotocol, hcookie⟩ := carriers_http2 hreq
    have htext : textOf (some value) = token := by
      rw [textOf, Option.bind_some, headerToStr_headerValue hvisible hvalue, Option.getD_some]
    rw [hprotocol, hcookie]
    cases lastHeader cfg.customHeaders .cookie with
    | none => simp [KeepsToken, htext]
    | some custom => simp [KeepsToken]

/-- A token that does not depend on the destination. -/
def constSigner : Signer := ⟨fun _ => "e.t.s", fun _ => by decide⟩

def ssh : RemoteAddr := ⟨.tcp false, .domain "db.internal", 22⟩

def headerClient (name : HeaderName) (value : String) : WsClientConfig :=
  { plainClient "v1" with httpHeaders := [(name, ascii value)] }

/-- A marked protocol header on the command line is replaced by one without a mark in
the headers file. -/
def chatClient : WsClientConfig :=
  { headerClient .secWebsocketProtocol "authorization.bearer.x" with
    httpHeadersFile := some (some [some "Sec-WebSocket-Protocol: chat"]) }

theorem token_recovered_chat :
    (∃ req, upgradeRequest (headerClient .authorization "Basic dTpw") "e.t.s" (.websocket []) = some req ∧
      tokenText req = "e.t.s") ∧
    ∃ req, upgradeRequest chatClient "e.t.s" (.http2 .https) = some req ∧ tokenText req = "e.t.s" := by
  refine ⟨⟨_, rfl, ?_⟩, ⟨_, rfl, ?_⟩⟩
  · refine (token_recovered_iff constSigner "id" ssh "e.t.s" (headerClient .authorization "Basic dTpw")
      (.websocket []) _ rfl rfl).mpr fun value hvalue => ?_
    cases hvalue
  · refine (token_recovered_iff constSigner "id" ssh "e.t.s" chatClient (.http2 .https) _ rfl rfl).mpr
      (.inr ⟨fun value hvalue => ?_, fun value hvalue => ?_⟩)
    · have hchat : lastHeader chatClient.customHeaders .secWebsocketProtocol = some (ascii "chat") := rfl
      cases hchat.symm.trans hvalue
      rintro ⟨text, htext, hmark⟩
      obtain rfl : "chat" = text := Option.some.inj htext
      exact absurd hmark.length_le (by decide)
    · cases hvalue

/-- A custom header takes the place of the one that carries the token. -/
theorem customHeader_hides_token : tunnelToJwtToken constSigner "id" ssh = some "e.t.s" ∧
    (∃ req, upgradeRequest (headerClient .secWebsocketProtocol "chat") "e.t.s" (.websocket []) = some req ∧
      tokenText req = "") ∧
    ∃ req, upgradeRequest (headerClient .cookie "session=1") "e.t.s" (.http2 .https) = some req ∧
      tokenText req = "session=1" := by
  refine ⟨rfl, ⟨_, rfl, by decide⟩, ⟨_, rfl, by decide⟩⟩

end Wstunnel.L3.Upgrade
