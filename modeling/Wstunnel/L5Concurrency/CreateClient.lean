import Wstunnel.L3Client.ProxyAuth
import Wstunnel.L3Client.UpgradeRequest
import Wstunnel.L4App.ClientStart
import Wstunnel.L5Concurrency.TransportAgreement

/-!
# `create_client`

Before the first tunnel the client loads its certificate, fixes the path prefix,
the proxy, the TLS connector, the `Host` header and the address of the server, in
this order, and gives up at the first of them that cannot be had. Other modules look
at one part each: `UpgradeRequest` at what the upgrade request depends on, `ClientTls`
at the connector, `TransportAgreement` at the address. Here they are steps of one
function.

**Third-party code.** What `rustls` builds (`ClientRustls`), what is in the files, the
answer to the ECH lookup, the parser of the proxy's URL, the DNS resolver and the
connection pool are parameters, of which nothing is assumed. The parser of the
server's URL has run before; `parseServerUrl` is what the command line asks of it.

**Left out.** The socket mark, the frame mask, the server name, the connection timeout
and the sizes of the pool go from the arguments to where they are used unread.

**Results.**
* `createClient_eq_ok_iff`: the client is created exactly when each of the partial
  models gives its part and the rest is there, and it consists of these parts.
* `created_of_effect`: before that nothing is bound, served or started.
* `panics_of_createClient`: with a server URL that the command line accepts, what
  makes the client panic is a file, the resolver or the connector, never the URL.
-/
namespace Wstunnel.L5.CreateClient

open Wstunnel.L1 Wstunnel.L3 Wstunnel.L3.ProxyAuth Wstunnel.L4 Wstunnel.UnixPath
open Wstunnel.L4.ClientStart (CreateFailure)
open Wstunnel.L5.Reload (ClientRustls StartWorld TlsClientConfig TlsConnector TransportScheme clientPair startEch
  tlsConnector)
open Wstunnel.L5.Agreement (ServerUrl TransportAddr parseServerUrl remoteAddr isTls)

/-! ## The arguments and the world -/

/-- The arguments that `create_client` reads. -/
structure Client where
  remoteAddr : ServerUrl
  httpProxy : Option String
  httpProxyLogin : Option String
  httpProxyPassword : Option String
  tlsVerifyCertificate : Bool
  tlsSniDisable : Bool
  tlsEchEnable : Bool
  tlsCertificate : Option Path
  tlsPrivateKey : Option Path
  httpUpgradePathPrefix : String
  httpUpgradeCredentials : Option L3.Bytes
  httpHeaders : HeaderMap
  httpHeadersFile : Option Path
  websocketPingFrequency : Option Duration

variable {Key Ech : Type}

/-- What the client finds at its start, and the lines of the headers file when a
tunnel is opened. -/
structure World (Key Ech : Type) extends StartWorld CertificateDer Key Ech where
  proxyUrlParse : String → Option ProxyUrl
  /-- `DnsResolver::new_from_urls` -/
  newFromUrls : Option ProxyUrl → Bool
  pathExists : Path → Bool
  headerLines : Path → Option (List (Option String))
  /-- `WsClient::new`: the file watcher and the pool -/
  newClient : Bool

/-- `WsClientConfig`; `request` is what the upgrade request depends on. -/
structure WsClientConfig (Key Ech : Type) where
  remoteAddr : TransportAddr (TlsClientConfig × TlsConnector CertificateDer Key Ech)
  request : Upgrade.WsClientConfig
  websocketPingFrequency : Option Duration
  httpProxy : Option ProxyUrl

/-- The arguments of the connector. -/
def Client.tlsArgs (args : Client) : Reload.ClientArgs where
  remoteScheme := args.remoteAddr.scheme
  tlsVerifyCertificate := args.tlsVerifyCertificate
  tlsSniDisable := args.tlsSniDisable
  tlsEchEnable := args.tlsEchEnable
  tlsCertificate := args.tlsCertificate
  tlsPrivateKey := args.tlsPrivateKey

variable (w : World Key Ech)

/-- The arguments of the upgrade request. -/
def Client.requestArgs (args : Client) (certificate : Option (List CertificateDer)) (host : Host) (port : UInt16) :
    Upgrade.ClientArgs where
  httpUpgradePathPrefix := args.httpUpgradePathPrefix
  httpUpgradeCredentials := args.httpUpgradeCredentials
  httpHeaders := args.httpHeaders
  httpHeadersFile := args.httpHeadersFile.map w.headerLines
  tlsCertificate := certificate
  remoteHost := host
  remotePort := port

/-! ## The function -/

section

variable {α : Type}

/-- `Option::expect`, and `Result::expect` without the error. -/
def expect (message : String) : Option α → Except CreateFailure α
  | some a => .ok a
  | none => .error (.panicked message)

def unwrap (x : Option α) : Except CreateFailure α := expect "called `Option::unwrap()` on a `None` value" x

/-- Fails unless the condition holds. -/
def ensure (ok : Bool) (failure : CreateFailure) : Except CreateFailure Unit :=
  if ok then .ok () else .error failure

theorem expect_eq_ok {message : String} {x : Option α} {a : α} : expect message x = .ok a ↔ x = some a := by
  cases x <;> simp [expect]

theorem unwrap_eq_ok {x : Option α} {a : α} : unwrap x = .ok a ↔ x = some a := expect_eq_ok

theorem ensure_eq_ok {ok : Bool} {failure : CreateFailure} {u : Unit} : ensure ok failure = .ok u ↔ ok = true := by
  cases ok <;> simp [ensure]

end

/-- mirrors wstunnel/src/lib.rs:63-71 -/
def loadPair (args : Client) : Except CreateFailure (Option (List CertificateDer) × Option Key) :=
  match args.tlsCertificate, args.tlsPrivateKey with
  | some cert, some key => do
    let certificate ← expect "Cannot load client TLS certificate (mTLS)" (w.loadCertificatesFromPem cert)
    let key ← expect "Cannot load client TLS private key (mTLS)" (w.loadPrivateKeyFromFile key)
    return (some certificate, some key)
  | _, _ => return (none, none)

/-- mirrors wstunnel/src/lib.rs:98-110 -/
def echConfig (args : Client) : Except CreateFailure (Option Ech) :=
  if args.tlsEchEnable then
    if w.awsLcRs then do
      let _ ← unwrap args.remoteAddr.host
      w.lookupEchConfig.elim (.error .echLookup) .ok
    else .error .echUnsupported
  else .ok none

variable (R : ClientRustls CertificateDer Key Ech)

/-- mirrors wstunnel/src/lib.rs:95-131 -/
def tlsClientConfig (args : Client) (scheme : TransportScheme) (certificate : Option (List CertificateDer))
    (key : Option Key) :
    Except CreateFailure (Option (TlsClientConfig × TlsConnector CertificateDer Key Ech)) :=
  match scheme with
  | .ws | .http => return none
  | .wss | .https => do
    let ech ← echConfig w args
    let connector ← expect "Cannot create tls connector"
      (tlsConnector R args.tlsVerifyCertificate scheme.alpnProtocols (!args.tlsSniDisable) ech certificate key)
    return some (⟨args.tlsVerifyCertificate, args.tlsSniDisable, args.tlsCertificate, args.tlsPrivateKey⟩, connector)

/-- mirrors wstunnel/src/lib.rs:134-142 -/
def hostHeader (args : Client) : Except CreateFailure L3.Bytes :=
  match args.httpHeaders.find? fun h => h.1 = Upgrade.hostName with
  | some (_, value) => return value
  | none => do
    let host ← unwrap args.remoteAddr.host
    let text := match args.remoteAddr.portOrKnownDefault with
      | none => host.display
      | some port =>
        if port = 80 ∨ port = 443 then host.display else host.display ++ ":" ++ toString port.toNat
    (Upgrade.headerValue text).elim (.error .hostHeader) .ok

/-- `Path::display` -/
def display (path : Path) : String := String.ofList ((Utf8.decode (Utf8.lossy path)).getD [])

/-- mirrors wstunnel/src/lib.rs:143-147 -/
def checkHeadersFile (args : Client) : Except CreateFailure Unit :=
  match args.httpHeadersFile with
  | some path => ensure (w.pathExists path) (.panicked ("http headers file does not exists: " ++ display path))
  | none => return ()

/-- 30 seconds unless another frequency is given; one below a second is none.
mirrors wstunnel/src/lib.rs:164-167 -/
def pingFrequency (args : Client) : Option Duration :=
  (args.websocketPingFrequency.or (some (30 * oneSecond))).filter fun d => 0 < d / oneSecond

variable (parse : CertificateDer → Option X509Certificate)

/-- mirrors wstunnel/src/lib.rs:59-184 -/
def createClient (args : Client) : Except CreateFailure (WsClientConfig Key Ech) := do
  let (certificate, key) ← loadPair w args
  let httpProxy ← (mkHttpProxy w.proxyUrlParse args.httpProxy args.httpProxyLogin args.httpProxyPassword).mapError
    .httpProxy
  ensure (w.newFromUrls httpProxy) (.panicked "cannot create dns resolver")
  let scheme ← expect "invalid scheme in server url" (TransportScheme.fromStr args.remoteAddr.scheme)
  let tls ← tlsClientConfig w R args scheme certificate key
  let httpHeaderHost ← hostHeader args
  checkHeadersFile w args
  let host ← unwrap args.remoteAddr.host
  let port ← unwrap args.remoteAddr.portOrKnownDefault
  let remoteAddr ← unwrap (TransportAddr.new scheme host port tls)
  ensure w.newClient .newClient
  return {
    remoteAddr
    request := {
      httpUpgradePathPrefix := Upgrade.clientPathPrefix parse (args.requestArgs w certificate host port)
      httpUpgradeCredentials := args.httpUpgradeCredentials
      httpHeaders := args.httpHeaders.filter fun h => h.1 ≠ Upgrade.hostName
      httpHeadersFile := args.httpHeadersFile.map w.headerLines
      httpHeaderHost
      remotePort := port }
    websocketPingFrequency := pingFrequency args
    httpProxy }

/-! ## Its parts -/

variable {w R parse} {args : Client} {certificate : Option (List CertificateDer)} {key : Option Key}
  {scheme : TransportScheme} {tls : Option (TlsClientConfig × TlsConnector CertificateDer Key Ech)}
  {host : Host} {port : UInt16}

theorem loadPair_eq_ok : loadPair w args = .ok (certificate, key) ↔
    clientPair w.toStartWorld args.tlsArgs = some (certificate, key) := by
  unfold loadPair clientPair Client.tlsArgs
  cases args.tlsCertificate with
  | none => simp [pure, Except.pure]
  | some cert =>
    cases args.tlsPrivateKey with
    | none => simp [pure, Except.pure]
    | some path =>
      simp only [Collect.bind_eq_ok, expect_eq_ok, Option.bind_eq_bind, Option.bind_eq_some_iff, pure, Except.pure,
        Except.ok.injEq, Option.some.injEq]

theorem echConfig_eq_ok (hhost : args.remoteAddr.host = some host) {ech : Option Ech} :
    echConfig w args = .ok ech ↔ startEch w.toStartWorld args.tlsArgs = some ech := by
  unfold echConfig startEch Client.tlsArgs
  cases args.tlsEchEnable with
  | false => simp
  | true =>
    cases w.awsLcRs with
    | false => simp
    | true =>
      simp only [if_true, hhost, Collect.bind_eq_ok, unwrap_eq_ok, Option.some.injEq, exists_eq_left']
      cases w.lookupEchConfig <;> simp

theorem tlsClientConfig_eq_ok (hhost : args.remoteAddr.host = some host)
    (hpair : clientPair w.toStartWorld args.tlsArgs = some (certificate, key))
    (hscheme : TransportScheme.fromStr args.remoteAddr.scheme = some scheme) :
    tlsClientConfig w R args scheme certificate key = .ok tls ↔
      Reload.createClient R w.toStartWorld args.tlsArgs = some (scheme, tls) := by
  have hscheme : TransportScheme.fromStr args.tlsArgs.remoteScheme = some scheme := hscheme
  rw [Reload.createClient, hpair]
  simp only [Option.bind_eq_bind, Option.bind_some, hscheme]
  cases scheme with
  | ws | http => simp [tlsClientConfig, pure, Except.pure]
  | wss | https =>
    simp only [tlsClientConfig, Collect.bind_eq_ok, echConfig_eq_ok hhost, expect_eq_ok, Option.bind_eq_some_iff]
    simp [pure, Except.pure, Client.tlsArgs]

theorem hostHeader_eq_ok (w : World Key Ech) (certificate : Option (List CertificateDer))
    (hhost : args.remoteAddr.host = some host)
    (hport : args.remoteAddr.portOrKnownDefault = some port) {value : L3.Bytes} :
    hostHeader args = .ok value ↔
      Upgrade.clientHostHeader (args.requestArgs w certificate host port) = some value := by
  unfold hostHeader Upgrade.clientHostHeader Client.requestArgs
  cases args.httpHeaders.find? fun h => h.1 = Upgrade.hostName with
  | some header => simp [pure, Except.pure]
  | none =>
    simp only [hhost, hport, Collect.bind_eq_ok, unwrap_eq_ok, Option.some.injEq, exists_eq_left']
    split
    · cases Upgrade.headerValue host.display <;> simp
    · cases Upgrade.headerValue (host.display ++ ":" ++ toString port.toNat) <;> simp

theorem checkHeadersFile_eq_ok {u : Unit} :
    checkHeadersFile w args = .ok u ↔ ∀ path ∈ args.httpHeadersFile, w.pathExists path = true := by
  unfold checkHeadersFile
  cases args.httpHeadersFile with
  | none => simp [pure, Except.pure]
  | some path => simp [ensure_eq_ok]

/-- The client, put together from its parts. -/
structure Created (R : ClientRustls CertificateDer Key Ech) (parse : CertificateDer → Option X509Certificate)
    (w : World Key Ech) (args : Client) (cfg : WsClientConfig Key Ech) : Prop where
  proxy : mkHttpProxy w.proxyUrlParse args.httpProxy args.httpProxyLogin args.httpProxyPassword = .ok cfg.httpProxy
  resolver : w.newFromUrls cfg.httpProxy = true
  transport : ∃ scheme tls, Reload.createClient R w.toStartWorld args.tlsArgs = some (scheme, tls) ∧
    remoteAddr args.remoteAddr tls = some cfg.remoteAddr
  request : ∃ certificate key host port, clientPair w.toStartWorld args.tlsArgs = some (certificate, key) ∧
    args.remoteAddr.host = some host ∧ args.remoteAddr.portOrKnownDefault = some port ∧
    Upgrade.createClient parse (args.requestArgs w certificate host port) = some cfg.request
  headersFile : ∀ path ∈ args.httpHeadersFile, w.pathExists path = true
  pings : cfg.websocketPingFrequency = pingFrequency args
  pool : w.newClient = true

/-- **The client is created exactly when its parts are**, and consists of them. -/
theorem createClient_eq_ok_iff {cfg : WsClientConfig Key Ech} :
    createClient w R parse args = .ok cfg ↔ Created R parse w args cfg := by
  simp only [createClient, Collect.bind_eq_ok, Prod.exists, loadPair_eq_ok, Collect.mapError_eq_ok, ensure_eq_ok,
    expect_eq_ok, unwrap_eq_ok, checkHeadersFile_eq_ok, exists_const, pure, Except.pure, Except.ok.injEq]
  refine ⟨?_, fun h => ?_⟩
  · rintro ⟨certificate, key, hpair, proxy, hproxy, hresolver, scheme, hscheme, tls, htls, value, hvalue, hfile,
      host, hhost, port, hport, addr, haddr, hpool, rfl⟩
    rw [tlsClientConfig_eq_ok hhost hpair hscheme] at htls
    rw [hostHeader_eq_ok w certificate hhost hport] at hvalue
    refine ⟨hproxy, hresolver, ⟨scheme, tls, htls, ?_⟩, ⟨certificate, key, host, port, hpair, hhost, hport, ?_⟩,
      hfile, rfl, hpool⟩
    · rw [remoteAddr, hscheme, hhost, hport]
      exact haddr
    · rw [Upgrade.createClient, hvalue]
      rfl
  · obtain ⟨scheme, tls, htls, haddr⟩ := h.transport
    obtain ⟨certificate, key, host, port, hpair, hhost, hport, hrequest⟩ := h.request
    have hscheme : TransportScheme.fromStr args.remoteAddr.scheme = some scheme :=
      (Agreement.createClient_scheme htls).1
    obtain ⟨value, hvalue, hrequest⟩ := Option.bind_eq_some_iff.mp hrequest
    rw [remoteAddr, hscheme, hhost, hport] at haddr
    refine ⟨certificate, key, hpair, cfg.httpProxy, h.proxy, h.resolver, scheme, hscheme, tls,
      (tlsClientConfig_eq_ok hhost hpair hscheme).mpr htls, value,
      (hostHeader_eq_ok w certificate hhost hport).mpr hvalue, h.headersFile, host, hhost, port, hport, cfg.remoteAddr, haddr, h.pool, ?_⟩
    obtain ⟨addr, request, pings, proxy⟩ := cfg
    cases hrequest
    cases h.pings
    rfl

/-- `run_client` of these arguments, with the tunnels of the command line.
mirrors wstunnel/src/lib.rs:44-57, 186-192 -/
def runClient (w : World Key Ech) (R : ClientRustls CertificateDer Key Ech)
    (parse : CertificateDer → Option X509Certificate) (listens : LocalToRemote → Bool) (args : Client)
    (remoteToLocal localToRemote : List LocalToRemote) : Trace ClientStart.Effect ClientStart.Ending Unit :=
  ClientStart.runClient listens ((createClient w R parse args).map fun _ => ()) remoteToLocal localToRemote

/-- **No listener is bound and no tunnel started without a client.** -/
theorem created_of_effect {listens : LocalToRemote → Bool} {remoteToLocal localToRemote : List LocalToRemote}
    {e : ClientStart.Effect} (h : e ∈ (runClient w R parse listens args remoteToLocal localToRemote).log) :
    ∃ cfg, Created R parse w args cfg := by
  cases hcreate : createClient w R parse args with
  | error failure =>
    rw [runClient, hcreate] at h
    cases h
  | ok cfg => exact ⟨cfg, createClient_eq_ok_iff.mp hcreate⟩

/-! ## Panics -/

theorem expect_eq_error {α : Type} {message : String} {x : Option α} {failure : CreateFailure} :
    expect message x = .error failure ↔ x = none ∧ .panicked message = failure := by
  cases x <;> simp [expect]

theorem ensure_eq_error {ok : Bool} {failure failure' : CreateFailure} :
    ensure ok failure = .error failure' ↔ ok = false ∧ failure = failure' := by
  cases ok <;> simp [ensure]

/-- What is missing when the client panics, by the message. -/
inductive Panics (R : ClientRustls CertificateDer Key Ech) (w : World Key Ech) (args : Client) : String → Prop
  | certificate {cert key : Path} (hcert : args.tlsCertificate = some cert) (hkey : args.tlsPrivateKey = some key)
    (hload : w.loadCertificatesFromPem cert = none) : Panics R w args "Cannot load client TLS certificate (mTLS)"
  | key {cert key : Path} (hcert : args.tlsCertificate = some cert) (hkey : args.tlsPrivateKey = some key)
    (hload : w.loadPrivateKeyFromFile key = none) : Panics R w args "Cannot load client TLS private key (mTLS)"
  | resolver {proxy : Option ProxyUrl}
    (hproxy : mkHttpProxy w.proxyUrlParse args.httpProxy args.httpProxyLogin args.httpProxyPassword = .ok proxy)
    (hnew : w.newFromUrls proxy = false) : Panics R w args "cannot create dns resolver"
  | connector {scheme : TransportScheme} {ech : Option Ech} {certificate : Option (List CertificateDer)}
    {key : Option Key} (hscheme : TransportScheme.fromStr args.remoteAddr.scheme = some scheme)
    (htls : isTls scheme = true)
    (hnew : tlsConnector R args.tlsVerifyCertificate scheme.alpnProtocols (!args.tlsSniDisable) ech certificate key =
      none) : Panics R w args "Cannot create tls connector"
  | headersFile {path : Path} (hpath : args.httpHeadersFile = some path) (hno : w.pathExists path = false) :
    Panics R w args ("http headers file does not exists: " ++ display path)

section

variable {message : String}

theorem panics_of_loadPair (h : loadPair w args = .error (.panicked message)) : Panics R w args message := by
  unfold loadPair at h
  split at h
  · rename_i cert path hcert hkey
    simp only [Collect.bind_eq_error, expect_eq_error, pure, Except.pure, reduceCtorEq, and_false, exists_false,
      or_false, CreateFailure.panicked.injEq] at h
    rcases h with ⟨hload, rfl⟩ | ⟨_, -, hload, rfl⟩
    · exact .certificate hcert hkey hload
    · exact .key hcert hkey hload
  · cases h

theorem not_panicked_of_echConfig (hhost : args.remoteAddr.host = some host) :
    echConfig w args ≠ .error (.panicked message) := by
  unfold echConfig
  split
  · split
    · rw [hhost]
      cases hlookup : w.lookupEchConfig <;> simp [unwrap, expect, bind, Except.bind]
    · simp
  · simp

theorem panics_of_tlsClientConfig (hhost : args.remoteAddr.host = some host)
    (hscheme : TransportScheme.fromStr args.remoteAddr.scheme = some scheme)
    (h : tlsClientConfig w R args scheme certificate key = .error (.panicked message)) : Panics R w args message := by
  cases scheme with
  | ws | http => cases h
  | wss | https =>
    simp only [tlsClientConfig, Collect.bind_eq_error, expect_eq_error, pure, Except.pure, reduceCtorEq, and_false,
      exists_false, or_false, CreateFailure.panicked.injEq] at h
    rcases h with h | ⟨ech, -, hnew, rfl⟩
    · exact absurd h (not_panicked_of_echConfig hhost)
    · exact .connector hscheme rfl hnew

theorem panics_of_checkHeadersFile (h : checkHeadersFile w args = .error (.panicked message)) :
    Panics R w args message := by
  unfold checkHeadersFile at h
  split at h
  · rename_i path hpath
    obtain ⟨hno, he⟩ := ensure_eq_error.mp h
    cases he
    exact .headersFile hpath hno
  · cases h

theorem not_panicked_of_hostHeader (hhost : args.remoteAddr.host = some host) :
    hostHeader args ≠ .error (.panicked message) := by
  unfold hostHeader
  split
  · simp [pure, Except.pure]
  · simp only [hhost, unwrap, expect, bind, Except.bind]
    split <;> (try split) <;> cases Upgrade.headerValue _ <;> simp

end

/-- **A server URL that the command line accepts does not make the client panic.**
What does is a certificate, a key or a headers file that cannot be had, or what the
libraries refuse to build from the arguments. -/
theorem panics_of_createClient {urlParse : String → Option ServerUrl} {arg message : String}
    (hurl : parseServerUrl urlParse arg = .ok args.remoteAddr) (hport : args.remoteAddr.portOrKnownDefault ≠ none)
    (h : createClient w R parse args = .error (.panicked message)) : Panics R w args message := by
  obtain ⟨⟨scheme, hscheme⟩, host, hhost⟩ := Agreement.fromStr_of_parseServerUrl hurl
  obtain ⟨port, hport⟩ := Option.ne_none_iff_exists'.mp hport
  -- one step of the function after the other
  rcases Collect.bind_eq_error.mp h with h | ⟨⟨certificate, key⟩, hpair, h⟩
  · exact panics_of_loadPair h
  rcases Collect.bind_eq_error.mp h with h | ⟨proxy, hproxy, h⟩
  · obtain ⟨e, -, he⟩ := Collect.mapError_eq_error.mp h
    cases he
  rcases Collect.bind_eq_error.mp h with h | ⟨_, -, h⟩
  · obtain ⟨hnew, he⟩ := ensure_eq_error.mp h
    cases he
    exact .resolver (Collect.mapError_eq_ok.mp hproxy) hnew
  rcases Collect.bind_eq_error.mp h with h | ⟨scheme', hscheme', h⟩
  · rw [hscheme] at h
    cases h
  obtain rfl : scheme = scheme' := Option.some.inj (hscheme.symm.trans (expect_eq_ok.mp hscheme'))
  rcases Collect.bind_eq_error.mp h with h | ⟨tls, htls, h⟩
  · exact panics_of_tlsClientConfig hhost hscheme h
  rcases Collect.bind_eq_error.mp h with h | ⟨value, -, h⟩
  · exact absurd h (not_panicked_of_hostHeader hhost)
  rcases Collect.bind_eq_error.mp h with h | ⟨_, -, h⟩
  · exact panics_of_checkHeadersFile h
  have hcreated := (tlsClientConfig_eq_ok hhost (loadPair_eq_ok.mp hpair) hscheme).mp htls
  obtain ⟨addr, haddr⟩ := Agreement.remoteAddr_isSome hscheme hhost hport (Agreement.createClient_scheme hcreated).2
  rw [remoteAddr, hscheme, hhost, hport] at haddr
  have haddr : TransportAddr.new scheme host port tls = some addr := haddr
  rw [hhost, hport] at h
  simp only [unwrap, expect, bind, Except.bind, haddr] at h
  cases hnew : w.newClient <;> rw [hnew] at h <;> cases h

end Wstunnel.L5.CreateClient
