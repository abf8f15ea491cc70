import Wstunnel.L5Concurrency.FileEvents

/-!
# Reloading the client's TLS connector

`create_client` builds the connector from the command line and, with
`--tls-ech-enable`, from the encrypted-client-hello configuration that it
looks up. `handle_client_fs_event` builds a new one when the certificate or
the key file changes, from what the client configuration has kept, and
replaces the old one.

**Third-party code.**
* Which steps of the builder of `rustls` succeed is the parameter `ClientRustls`; a
  connector is what it was built from. Nothing is assumed of either.
* The files, the feature `aws-lc-rs` and the answer to the ECH lookup are
  `StartWorld`, what a reload reads from the files is a label.
* `notify` may report any events in any order (`FileEvents`). The lock around the
  connector makes the replacement one step.

**Results.**
* `reload_keeps_settings`: without an ECH configuration at the start, every
  connector in use was built with the verification flag, ALPN list, SNI flag
  and ECH configuration of the first one.
* `reload_drops_ech`: with one, the first reload drops it.
-/
namespace Wstunnel.L5.Reload

open Wstunnel.UnixPath

variable {Cert Key Ech : Type}

/-! ## Building a connector -/

/-- mirrors wstunnel/src/tunnel/transport/types.rs:6-12 -/
inductive TransportScheme where
  | ws | wss | http | https
  deriving DecidableEq, Repr

/-- mirrors wstunnel/src/tunnel/transport/types.rs:28-35 -/
def TransportScheme.alpnProtocols : TransportScheme → List String
  | .ws => []
  | .wss => ["http/1.1"]
  | .http => []
  | .https => ["h2"]

/-- mirrors wstunnel/src/tunnel/transport/types.rs:37-49 -/
def TransportScheme.fromStr (s : String) : Option TransportScheme :=
  match s with
  | "https" => some .https
  | "http" => some .http
  | "wss" => some .wss
  | "ws" => some .ws
  | _ => none

/-- Which steps of `ClientConfig::builder` succeed. -/
structure ClientRustls (Cert Key Ech : Type) where
  withEch : Ech → Bool
  withSafeDefaultProtocolVersions : Bool
  withClientAuthCert : List Cert → Key → Bool

/-- A connector, by what it was built from; the root store is the system's. -/
structure TlsConnector (Cert Key Ech : Type) where
  tlsVerifyCertificate : Bool
  alpnProtocols : List String
  enableSni : Bool
  echConfig : Option Ech
  clientAuth : Option (List Cert × Key)
  deriving DecidableEq, Repr

variable (R : ClientRustls Cert Key Ech)

/-- mirrors wstunnel/src/protocols/tls/server.rs:106-156 -/
def tlsConnector (tlsVerifyCertificate : Bool) (alpnProtocols : List String) (enableSni : Bool)
    (echConfig : Option Ech) (tlsClientCertificate : Option (List Cert)) (tlsClientKey : Option Key) :
    Option (TlsConnector Cert Key Ech) :=
  let versions := match echConfig with
    | some ech => R.withEch ech
    | none => R.withSafeDefaultProtocolVersions
  let clientAuth := match tlsClientCertificate, tlsClientKey with
    | some certificate, some key =>
      if R.withClientAuthCert certificate key then some (some (certificate, key)) else none
    | _, _ => some none
  if versions then
    clientAuth.map fun auth => ⟨tlsVerifyCertificate, alpnProtocols, enableSni, echConfig, auth⟩
  else none

/-! ## The start of the client -/

/-- The arguments that the connector depends on. -/
structure ClientArgs where
  remoteScheme : String
  tlsVerifyCertificate : Bool
  tlsSniDisable : Bool
  tlsEchEnable : Bool
  tlsCertificate : Option Path
  tlsPrivateKey : Option Path
  deriving DecidableEq, Repr

/-- What the client finds at its start: the files, whether it was built with
`aws-lc-rs`, and the answer to the ECH lookup. -/
structure StartWorld (Cert Key Ech : Type) where
  loadCertificatesFromPem : Path → Option (List Cert)
  loadPrivateKeyFromFile : Path → Option Key
  awsLcRs : Bool
  lookupEchConfig : Option (Option Ech)

/-- The settings that the configuration keeps.
mirrors wstunnel/src/lib.rs:122-129 -/
structure TlsClientConfig where
  tlsVerifyCertificate : Bool
  tlsSniDisabled : Bool
  tlsCertificatePath : Option Path
  tlsKeyPath : Option Path
  deriving DecidableEq, Repr

variable (w : StartWorld Cert Key Ech)

/-- mirrors wstunnel/src/lib.rs:63-71 -/
def clientPair (args : ClientArgs) : Option (Option (List Cert) × Option Key) :=
  match args.tlsCertificate, args.tlsPrivateKey with
  | some cert, some key => do
    let certificate ← w.loadCertificatesFromPem cert
    let key ← w.loadPrivateKeyFromFile key
    return (some certificate, some key)
  | _, _ => some (none, none)

/-- mirrors wstunnel/src/lib.rs:98-110 -/
def startEch (args : ClientArgs) : Option (Option Ech) :=
  if args.tlsEchEnable then if w.awsLcRs then w.lookupEchConfig else none else some none

/-- The TLS part of `create_client`; `none` when it fails. `CreateClient` has all of it.
mirrors wstunnel/src/lib.rs:94-131 -/
def createClient (args : ClientArgs) :
    Option (TransportScheme × Option (TlsClientConfig × TlsConnector Cert Key Ech)) := do
  let (certificate, key) ← clientPair w args
  let scheme ← TransportScheme.fromStr args.remoteScheme
  match scheme with
  | .ws | .http => return (scheme, none)
  | .wss | .https =>
    let ech ← startEch w args
    let connector ← tlsConnector R args.tlsVerifyCertificate scheme.alpnProtocols
      (!args.tlsSniDisable) ech certificate key
    return (scheme, some (⟨args.tlsVerifyCertificate, args.tlsSniDisable, args.tlsCertificate,
      args.tlsPrivateKey⟩, connector))

/-! ## The reloader -/

/-- mirrors wstunnel/src/tunnel/tls_reloader.rs:25-31 -/
structure TlsReloaderClientState where
  scheme : TransportScheme
  tls : TlsClientConfig
  certPath : Path
  keyPath : Path
  deriving DecidableEq, Repr

/-- `none` is `Empty`: nothing to watch.
mirrors wstunnel/src/tunnel/tls_reloader.rs:93-126 -/
def newForClient (scheme : TransportScheme) (tls : TlsClientConfig) : Option TlsReloaderClientState :=
  match tls.tlsCertificatePath, tls.tlsKeyPath with
  | some certPath, some keyPath => some ⟨scheme, tls, certPath, keyPath⟩
  | _, _ => none

structure TlsClient (Cert Key Ech : Type) where
  tlsConnector : TlsConnector Cert Key Ech
  tlsReloadCertificate : Bool
  deriving DecidableEq, Repr

/-- Where `handle_client_fs_event` is. -/
inductive ClientWork (Cert Key Ech : Type) where
  | arms (todo : List Action)
  | loaded (certificate : List Cert) (key : Key) (todo : List Action)
  | built (connector : TlsConnector Cert Key Ech) (todo : List Action)
  | stored (todo : List Action)
  deriving DecidableEq, Repr

inductive ClientLabel (Cert Key : Type) where
  | load (certificate : Option (List Cert)) (key : Option Key)
  | rewatch
  | build
  | store
  | setFlag
  | done
  deriving DecidableEq, Repr

/-- The two arms: the certificate's path is the reloader's, the key's that of
the configuration.
mirrors wstunnel/src/tunnel/tls_reloader.rs:261-363 -/
def handleClientFsEvent (this : TlsReloaderClientState) (e : Event) : Option (ClientWork Cert Key Ech) :=
  some (.arms ((this.certPath :: this.tls.tlsKeyPath.toList).filterMap fun path => e.action path))

/-- The steps of an arm, the same in both. A connector that cannot be built
ends the handler, without its other arm.
mirrors wstunnel/src/tunnel/tls_reloader.rs:281-317 and 325-361 -/
def clientWork (this : TlsReloaderClientState) (s : TlsClient Cert Key Ech) :
    ClientWork Cert Key Ech → ClientLabel Cert Key →
    Option (TlsClient Cert Key Ech × Option (ClientWork Cert Key Ech) × List Path)
  | .arms [], .done => some (s, none, [])
  | .arms (.rewatch path :: todo), .rewatch => some (s, some (.arms todo), [path])
  | .arms (.reload path :: todo), .load certificate key => match certificate, key with
    | some certificate, some key => some (s, some (.loaded certificate key todo), [])
    | _, _ => some (s, some (.arms todo), [path])
  | .loaded certificate key todo, .build =>
    match tlsConnector R this.tls.tlsVerifyCertificate this.scheme.alpnProtocols
      (!this.tls.tlsSniDisabled) none (some certificate) (some key) with
    | some connector => some (s, some (.built connector todo), [])
    | none => some (s, none, [])
  | .built connector todo, .store => some ({ s with tlsConnector := connector }, some (.stored todo), [])
  | .stored todo, .setFlag => some ({ s with tlsReloadCertificate := true }, some (.arms todo), [])
  | _, _ => none

/-- The client with the connector it started with; nothing but the handlers
touches it. -/
def clientReloader (this : TlsReloaderClientState) (connector : TlsConnector Cert Key Ech) :
    LTS (Threads (TlsClient Cert Key Ech) (Thread (ClientWork Cert Key Ech)))
      (Threads.Label Empty (Input (ClientLabel Cert Key))) :=
  Threads.system ⟨⟨connector, false⟩, [.watching]⟩ (fun _ e => nomatch e)
    (watchStep (handleClientFsEvent this) (clientWork R this))

/-- Built by `tls_connector` with the settings of `c₀`. -/
def BuiltLike (c₀ c : TlsConnector Cert Key Ech) : Prop :=
  ∃ certificate key, tlsConnector R c₀.tlsVerifyCertificate c₀.alpnProtocols c₀.enableSni c₀.echConfig
    certificate key = some c

/-! ## What a connector was built from -/

variable {R w}

theorem tlsConnector_settings {verify sni : Bool} {alpn : List String} {ech : Option Ech}
    {certificate : Option (List Cert)} {key : Option Key} {c : TlsConnector Cert Key Ech}
    (h : tlsConnector R verify alpn sni ech certificate key = some c) :
    c.tlsVerifyCertificate = verify ∧ c.alpnProtocols = alpn ∧ c.enableSni = sni ∧ c.echConfig = ech := by
  simp only [tlsConnector, Option.ite_none_right_eq_some, Option.map_eq_some_iff] at h
  obtain ⟨-, auth, -, rfl⟩ := h
  exact ⟨rfl, rfl, rfl, rfl⟩

/-- The first connector has the settings that the configuration keeps, and
the ECH configuration besides. -/
theorem createClient_connector {args : ClientArgs} {scheme : TransportScheme} {tls : TlsClientConfig}
    {connector : TlsConnector Cert Key Ech}
    (h : createClient R w args = some (scheme, some (tls, connector))) : ∃ ech certificate key,
      tlsConnector R tls.tlsVerifyCertificate scheme.alpnProtocols (!tls.tlsSniDisabled) ech
        certificate key = some connector := by
  simp only [createClient, Option.bind_eq_bind, Option.bind_eq_some_iff, Prod.exists, Option.pure_def] at h
  obtain ⟨certificate, key, -, scheme', -, h⟩ := h
  cases scheme' with
  | ws | http => cases h
  | wss | https =>
    obtain ⟨ech, -, h⟩ := Option.bind_eq_some_iff.mp h
    obtain ⟨c, hc, h⟩ := Option.bind_eq_some_iff.mp h
    cases h
    exact ⟨ech, certificate, key, hc⟩

/-- The connector that a handler is about to store. -/
def toStore : ClientWork Cert Key Ech → Option (TlsConnector Cert Key Ech)
  | .built connector _ => some connector
  | .arms _ | .loaded _ _ _ | .stored _ => none

/-- A step of a handler leaves both connectors, builds one or stores it. -/
inductive ClientMove (R : ClientRustls Cert Key Ech) (this : TlsReloaderClientState)
    (s : TlsClient Cert Key Ech) : ClientWork Cert Key Ech → TlsClient Cert Key Ech →
    Option (ClientWork Cert Key Ech) → Prop where
  | quiet {w : ClientWork Cert Key Ech} {s' : TlsClient Cert Key Ech}
      {rest : Option (ClientWork Cert Key Ech)} (hs : s'.tlsConnector = s.tlsConnector)
      (hrest : rest.bind toStore = none) : ClientMove R this s w s' rest
  | build {w : ClientWork Cert Key Ech} {certificate : List Cert} {key : Key}
      {connector : TlsConnector Cert Key Ech} {todo : List Action}
      (hc : tlsConnector R this.tls.tlsVerifyCertificate this.scheme.alpnProtocols
        (!this.tls.tlsSniDisabled) none (some certificate) (some key) = some connector) :
      ClientMove R this s w s (some (.built connector todo))
  | store {connector : TlsConnector Cert Key Ech} {todo : List Action} :
      ClientMove R this s (.built connector todo) { s with tlsConnector := connector } (some (.stored todo))

theorem move_of_clientWork {this : TlsReloaderClientState} {s s' : TlsClient Cert Key Ech}
    {w : ClientWork Cert Key Ech} {l : ClientLabel Cert Key} {rest : Option (ClientWork Cert Key Ech)}
    {paths : List Path} (h : clientWork R this s w l = some (s', rest, paths)) :
    ClientMove R this s w s' rest := by
  unfold clientWork at h
  split at h
  · cases h
    exact .quiet rfl rfl
  · cases h
    exact .quiet rfl rfl
  · split at h <;> cases h <;> exact .quiet rfl rfl
  · split at h <;> cases h
    · rename_i hc
      exact .build hc
    · exact .quiet rfl rfl
  · cases h
    exact .store
  · cases h
    exact .quiet rfl rfl
  · cases h

/-- A property of the first connector and of all that handlers build is one
of the connector in use. -/
theorem connector_inductive {this : TlsReloaderClientState} {connector : TlsConnector Cert Key Ech}
    {P : TlsConnector Cert Key Ech → Prop} (hfirst : P connector)
    (hnew : ∀ certificate key c, tlsConnector R this.tls.tlsVerifyCertificate
      this.scheme.alpnProtocols (!this.tls.tlsSniDisabled) none (some certificate) (some key) = some c →
      P c) :
    (clientReloader R this connector).Inductive fun x =>
      P x.shared.tlsConnector ∧ ∀ c ∈ x.threads.filterMap (carried toStore), P c := by
  refine watch_inductive (I := fun (s : TlsClient Cert Key Ech) cs => P s.tlsConnector ∧ ∀ c ∈ cs, P c)
    (fun _ _ h => by cases h; rfl) ⟨hfirst, nofun⟩ (fun _ _ e => nomatch e) ?_
  intro s w l s' rest paths a b ⟨hs, hcs⟩ hw
  have hothers : ∀ c ∈ a ++ b, P c := fun c hc => hcs c (by simp only [List.mem_append] at hc ⊢; tauto)
  cases move_of_clientWork hw with
  | quiet hsame hrest =>
    rw [hrest, Option.toList_none, List.append_nil, hsame]
    exact ⟨hs, hothers⟩
  | build hc =>
    refine ⟨hs, fun c hmem => ?_⟩
    rw [Option.bind_some, toStore, Option.toList_some] at hmem
    simp only [List.mem_append, List.mem_singleton] at hmem hothers
    rcases hmem with (hmem | rfl) | hmem
    · exact hothers c (.inl hmem)
    · exact hnew _ _ _ hc
    · exact hothers c (.inr hmem)
  | store =>
    refine ⟨hcs _ (by simp [toStore]), ?_⟩
    rw [Option.bind_some, toStore, Option.toList_none, List.append_nil]
    exact hothers

/-! ## The settings of the connector in use -/

/-- **A reload changes nothing but the certificate.** If `create_client` found
no ECH configuration, then after every sequence of file events, and at every
point in between, the connector in use was built by `tls_connector` with the
settings of the first one. -/
theorem reload_keeps_settings (R : ClientRustls Cert Key Ech) (w : StartWorld Cert Key Ech)
    (args : ClientArgs) (scheme : TransportScheme) (tls : TlsClientConfig)
    (connector : TlsConnector Cert Key Ech)
    (hstart : createClient R w args = some (scheme, some (tls, connector)))
    (this : TlsReloaderClientState) (hthis : newForClient scheme tls = some this)
    (hech : connector.echConfig = none)
    (x : Threads (TlsClient Cert Key Ech) (Thread (ClientWork Cert Key Ech)))
    (hr : (clientReloader R this connector).Reachable x) :
    BuiltLike R connector x.shared.tlsConnector := by
  obtain ⟨ech, certificate, key, hfirst⟩ := createClient_connector hstart
  obtain ⟨hverify, halpn, hsni, hech'⟩ := tlsConnector_settings hfirst
  have hkept : this.scheme = scheme ∧ this.tls = tls := by
    unfold newForClient at hthis
    split at hthis <;> cases hthis
    exact ⟨rfl, rfl⟩
  have hlike : BuiltLike R connector connector :=
    ⟨certificate, key, by rwa [hverify, halpn, hsni, hech']⟩
  refine ((connector_inductive hlike fun certificate key c hc => ?_).reachable x hr).1
  rw [hkept.1, hkept.2] at hc
  exact ⟨some certificate, some key, by rwa [hverify, halpn, hsni, hech]⟩

/-- Everything can be built and loaded, and the lookup finds `ech`. -/
def foundEch (ech : Option Nat) : StartWorld Nat Nat Nat := ⟨fun _ => some [1], fun _ => some 1, true, some ech⟩

def anyRustls : ClientRustls Nat Nat Nat := ⟨fun _ => true, true, fun _ _ => true⟩

/-- `wss` with `/c` and `/k`, verification and ECH. -/
def echArgs : ClientArgs := ⟨"wss", true, false, true, some [47, 99], some [47, 107]⟩

def echReloader : TlsReloaderClientState :=
  ⟨.wss, ⟨true, false, some [47, 99], some [47, 107]⟩, [47, 99], [47, 107]⟩

def wssConnector (ech : Option Nat) (certificate : Nat) : TlsConnector Nat Nat Nat :=
  ⟨true, ["http/1.1"], true, ech, some ([certificate], certificate)⟩

/-- The certificate file is modified; it and the key are now 2. -/
def certificateReload : List (Threads.Label Empty (Input (ClientLabel Nat Nat))) :=
  [.thread 0 (.event (some ⟨.modify, [[47, 99]]⟩)), .thread 0 (.work (.load (some [2]) (some 2))),
   .thread 0 (.work .build), .thread 0 (.work .store), .thread 0 (.work .setFlag), .thread 0 (.work .done)]

theorem certificateReload_reachable (ech : Option Nat) :
    (clientReloader anyRustls echReloader (wssConnector ech 1)).Reachable
      ⟨⟨wssConnector none 2, true⟩, [.watching]⟩ := by
  refine ⟨_, certificateReload, rfl, LTS.run_ofFn.mpr ?_⟩
  rfl

theorem reload_keeps_settings_noEch :
    createClient anyRustls (foundEch none) echArgs =
      some (.wss, some (echReloader.tls, wssConnector none 1)) ∧
    newForClient .wss echReloader.tls = some echReloader ∧
    (clientReloader anyRustls echReloader (wssConnector none 1)).Reachable
      ⟨⟨wssConnector none 2, true⟩, [.watching]⟩ ∧
    BuiltLike anyRustls (wssConnector none 1) (wssConnector none 2) :=
  ⟨rfl, rfl, certificateReload_reachable none, reload_keeps_settings anyRustls (foundEch none) echArgs .wss
    echReloader.tls (wssConnector none 1) rfl echReloader rfl rfl _ (certificateReload_reachable none)⟩

/-- The client started with the ECH configuration 7; after the reload the
connector in use has none. -/
theorem reload_drops_ech :
    createClient anyRustls (foundEch (some 7)) echArgs =
      some (.wss, some (echReloader.tls, wssConnector (some 7) 1)) ∧
    newForClient .wss echReloader.tls = some echReloader ∧
    (clientReloader anyRustls echReloader (wssConnector (some 7) 1)).Reachable
      ⟨⟨wssConnector none 2, true⟩, [.watching]⟩ ∧
    ¬ BuiltLike anyRustls (wssConnector (some 7) 1) (wssConnector none 2) := by
  refine ⟨rfl, rfl, certificateReload_reachable (some 7), ?_⟩
  rintro ⟨certificate, key, h⟩
  obtain ⟨-, -, -, hech⟩ := tlsConnector_settings h
  cases hech

end Wstunnel.L5.Reload
