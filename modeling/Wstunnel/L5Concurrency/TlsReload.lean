import Wstunnel.L5Concurrency.FileEvents

/-!
# Reloading the server's TLS material

`TlsReloader` for a server whose certificate and key paths are set, and
`TlsContext::tls_acceptor` of the accept loop. A handler loads a file,
replaces the certificate, the key or the client CA list under its own lock,
and then sets one flag. The accept loop swaps the flag back and, if it was
set, reads the three values one after the other and builds an acceptor.

Every one of these is a step of its own, so a rebuild may see a new
certificate with an old key, and handlers may replace what it has just read.
(`tls_acceptor` keeps the lock of the certificate while it reads the key;
here a handler may come in between.) The flag is read and written relaxed: a
loop that has seen it set takes the locks afterwards, and if it took one of
them before the handler did, its swap would come before the handler's store.

**Third-party code.** What `rustls` builds from certificates and keys is the parameter
`Rustls`, of which nothing is assumed: a CA may be refused, a list of CAs may not be
verifiable, a key may not fit its certificate. An acceptor is what it was built from.
What the handlers read from the files, and when, are labels (`FileEvents`).

**Results.**
* `no_reload_lost`: when no handler is between its replacement and the flag
  and the loop is not rebuilding, a flag that is not set means that the last
  attempt was made with the current values. The acceptor in use is always the
  result of the last attempt that succeeded.
-/
namespace Wstunnel.L5.Reload

open Wstunnel.UnixPath

variable {Cert Key Verifier : Type}

/-! ## Building an acceptor -/

/-- What `rustls` does with certificates and keys. -/
structure Rustls (Cert Key Verifier : Type) where
  /-- `RootCertStore::add` succeeds -/
  addRoot : Cert → Bool
  /-- `WebPkiClientVerifier::builder` and `build` -/
  buildVerifier : List Cert → Option Verifier
  noClientAuth : Verifier
  /-- `with_single_cert` succeeds -/
  singleCert : List Cert → Key → Bool

structure TlsAcceptor (Cert Key Verifier : Type) where
  clientCertVerifier : Verifier
  certificate : List Cert
  key : Key
  alpnProtocols : List String
  deriving DecidableEq, Repr

variable (R : Rustls Cert Key Verifier)

/-- The first part of `tls_acceptor`.
mirrors wstunnel/src/protocols/tls/server.rs:159-172 -/
def clientCertVerifier : Option (List Cert) → Option Verifier
  | some cas => if cas.all R.addRoot then R.buildVerifier cas else none
  | none => some R.noClientAuth

/-- Its second part, with the protocols that both callers pass.
mirrors wstunnel/src/protocols/tls/server.rs:174-183 and
wstunnel/src/tunnel/server/server.rs:452-455 -/
def serverConfig (verifier : Verifier) (certificate : List Cert) (key : Key) :
    Option (TlsAcceptor Cert Key Verifier) :=
  if R.singleCert certificate key then some ⟨verifier, certificate, key, ["h2", "http/1.1"]⟩ else none

/-- mirrors wstunnel/src/protocols/tls/server.rs:158-184 -/
def tlsAcceptor (clientCa : Option (List Cert)) (certificate : List Cert) (key : Key) :
    Option (TlsAcceptor Cert Key Verifier) :=
  (clientCertVerifier R clientCa).bind fun verifier => serverConfig R verifier certificate key

/-- What an attempt to build has read, the certificate and the key only if
the verifier could be built, and its result. -/
structure Attempt (Cert Key Verifier : Type) where
  clientCa : Option (List Cert)
  pair : Option (List Cert × Key)
  result : Option (TlsAcceptor Cert Key Verifier)
  deriving DecidableEq, Repr

/-! ## The shared state, the accept loop and the handlers -/

/-- Where the accept loop is, with what it has read since the swap. -/
inductive AcceptPc (Cert Key Verifier : Type) where
  | idle
  | rebuild
  | haveVerifier (clientCa : Option (List Cert)) (verifier : Verifier)
  | haveCertificate (clientCa : Option (List Cert)) (verifier : Verifier) (certificate : List Cert)
  | haveKey (clientCa : Option (List Cert)) (verifier : Verifier) (certificate : List Cert) (key : Key)
  deriving DecidableEq, Repr

/-- `TlsServerConfig`, the reloader's flag and the accept loop's `TlsContext`;
`attempts` logs the builds. -/
structure TlsServer (Cert Key Verifier : Type) where
  tlsCertificate : List Cert
  tlsKey : Key
  tlsClientCaCertificates : Option (List Cert)
  tlsReloadCertificate : Bool
  pc : AcceptPc Cert Key Verifier
  tlsAcceptor : TlsAcceptor Cert Key Verifier
  attempts : List (Attempt Cert Key Verifier)
  deriving DecidableEq, Repr

inductive AcceptLabel where
  | swap | readClientCa | readCertificate | readKey | build
  deriving DecidableEq, Repr

/-- An attempt is over; a failed one leaves the acceptor. -/
def TlsServer.finish (s : TlsServer Cert Key Verifier) (a : Attempt Cert Key Verifier) :
    TlsServer Cert Key Verifier :=
  { s with pc := .idle, tlsAcceptor := a.result.getD s.tlsAcceptor, attempts := s.attempts ++ [a] }

/-- mirrors wstunnel/src/tunnel/server/server.rs:613-622 and
wstunnel/src/tunnel/tls_reloader.rs:129-135 -/
def acceptStep (s : TlsServer Cert Key Verifier) (l : AcceptLabel) : Option (TlsServer Cert Key Verifier) :=
  match s.pc, l with
  | .idle, .swap =>
    if s.tlsReloadCertificate then some { s with tlsReloadCertificate := false, pc := .rebuild } else some s
  | .rebuild, .readClientCa => match clientCertVerifier R s.tlsClientCaCertificates with
    | some verifier => some { s with pc := .haveVerifier s.tlsClientCaCertificates verifier }
    | none => some (s.finish ⟨s.tlsClientCaCertificates, none, none⟩)
  | .haveVerifier clientCa verifier, .readCertificate =>
    some { s with pc := .haveCertificate clientCa verifier s.tlsCertificate }
  | .haveCertificate clientCa verifier certificate, .readKey =>
    some { s with pc := .haveKey clientCa verifier certificate s.tlsKey }
  | .haveKey clientCa verifier certificate key, .build =>
    some (s.finish ⟨clientCa, some (certificate, key), serverConfig R verifier certificate key⟩)
  | _, _ => none

inductive TlsFile where
  | certificate | key | clientCa
  deriving DecidableEq, Repr

/-- A file that was loaded. -/
inductive Loaded (Cert Key : Type) where
  | certificate (certs : List Cert)
  | key (key : Key)
  | clientCa (certs : List Cert)
  deriving DecidableEq, Repr

def Loaded.file : Loaded Cert Key → TlsFile
  | .certificate _ => .certificate
  | .key _ => .key
  | .clientCa _ => .clientCa

/-- Replace the value in memory; there is no CA list to replace in a server
without one. -/
def TlsServer.replace (s : TlsServer Cert Key Verifier) : Loaded Cert Key →
    Option (TlsServer Cert Key Verifier)
  | .certificate certs => some { s with tlsCertificate := certs }
  | .key key => some { s with tlsKey := key }
  | .clientCa certs => s.tlsClientCaCertificates.map fun _ =>
      { s with tlsClientCaCertificates := some certs }

structure TlsPaths where
  certPath : Path
  keyPath : Path
  clientCaPath : Option Path

/-- Where `handle_server_fs_event` is: the arms it still has to go through, a
file it has loaded, or a value it has replaced without setting the flag. -/
inductive TlsWork (Cert Key : Type) where
  | arms (todo : List (TlsFile × Action))
  | loaded (file : Loaded Cert Key) (todo : List (TlsFile × Action))
  | replaced (todo : List (TlsFile × Action))
  deriving DecidableEq, Repr

inductive TlsLabel (Cert Key : Type) where
  | load (file : Option (Loaded Cert Key))
  | rewatch
  | replace
  | setFlag
  | done
  deriving DecidableEq, Repr

def TlsPaths.files (paths : TlsPaths) : List (TlsFile × Path) :=
  [(.certificate, paths.certPath), (.key, paths.keyPath)] ++
    paths.clientCaPath.toList.map fun path => (.clientCa, path)

/-- The arms of an event, in the order of the source.
mirrors wstunnel/src/tunnel/tls_reloader.rs:171-259 -/
def handleServerFsEvent (paths : TlsPaths) (e : Event) : Option (TlsWork Cert Key) :=
  some (.arms (paths.files.filterMap fun (file, path) => (e.action path).map fun action => (file, action)))

/-- The steps of one arm: a file that cannot be loaded, or was removed, is
watched again. -/
def tlsWork (s : TlsServer Cert Key Verifier) : TlsWork Cert Key → TlsLabel Cert Key →
    Option (TlsServer Cert Key Verifier × Option (TlsWork Cert Key) × List Path)
  | .arms [], .done => some (s, none, [])
  | .arms ((_, .rewatch path) :: todo), .rewatch => some (s, some (.arms todo), [path])
  | .arms ((_, .reload path) :: todo), .load none => some (s, some (.arms todo), [path])
  | .arms ((file, .reload _) :: todo), .load (some f) =>
    if f.file = file then some (s, some (.loaded f todo), []) else none
  | .loaded f todo, .replace => match s.replace f with
    | some s' => some (s', some (.replaced todo), [])
    | none => some (s, some (.arms todo), [])
  | .replaced todo, .setFlag => some ({ s with tlsReloadCertificate := true }, some (.arms todo), [])
  | _, _ => none

/-- The values a server starts with; it starts only if they give an acceptor. -/
structure TlsStart (R : Rustls Cert Key Verifier) where
  certificate : List Cert
  key : Key
  clientCa : Option (List Cert)
  acceptor : TlsAcceptor Cert Key Verifier
  built : tlsAcceptor R clientCa certificate key = some acceptor

variable {R}

/-- mirrors wstunnel/src/tunnel/server/server.rs:450-461 and
wstunnel/src/tunnel/tls_reloader.rs:54-91 -/
def TlsStart.state (start : TlsStart R) :
    Threads (TlsServer Cert Key Verifier) (Thread (TlsWork Cert Key)) where
  shared :=
    { tlsCertificate := start.certificate, tlsKey := start.key, tlsClientCaCertificates := start.clientCa
      tlsReloadCertificate := false, pc := .idle, tlsAcceptor := start.acceptor
      attempts := [⟨start.clientCa, some (start.certificate, start.key), some start.acceptor⟩] }
  threads := [.watching]

def tlsServer (paths : TlsPaths) (start : TlsStart R) :
    LTS (Threads (TlsServer Cert Key Verifier) (Thread (TlsWork Cert Key)))
      (Threads.Label AcceptLabel (Input (TlsLabel Cert Key))) :=
  Threads.system start.state (acceptStep R) (watchStep (handleServerFsEvent paths) tlsWork)

/-- Between a replacement and the store of the flag. -/
def TlsWork.unflagged : TlsWork Cert Key → Bool
  | .replaced _ => true
  | .arms _ | .loaded _ _ => false

/-- `verifier` is the one that a CA list stands for: all of its certificates are
roots of it. Without a list no client needs a certificate. -/
def Verifies (R : Rustls Cert Key Verifier) (verifier : Verifier) : Option (List Cert) → Prop
  | some cas => (∀ ca ∈ cas, R.addRoot ca = true) ∧ R.buildVerifier cas = some verifier
  | none => verifier = R.noClientAuth

/-- No verifier can be made of the CA list. -/
def Unverifiable (R : Rustls Cert Key Verifier) (clientCa : Option (List Cert)) : Prop :=
  ∃ cas, clientCa = some cas ∧ ((∃ ca ∈ cas, R.addRoot ca = false) ∨ R.buildVerifier cas = none)

/-- The acceptor is made of these three values, and `rustls` takes them. -/
structure TlsAcceptor.MadeOf (R : Rustls Cert Key Verifier) (clientCa : Option (List Cert))
    (certificate : List Cert) (key : Key) (acceptor : TlsAcceptor Cert Key Verifier) : Prop where
  verifies : Verifies R acceptor.clientCertVerifier clientCa
  certificate_eq : acceptor.certificate = certificate
  key_eq : acceptor.key = key
  alpn_eq : acceptor.alpnProtocols = ["h2", "http/1.1"]
  paired : R.singleCert certificate key = true

/-- The attempt was made with the values of `s`: what it read is current. If it
succeeded, its acceptor is made of them, and if it failed, they give none. It
read no certificate and key only if the CA list gives no verifier. -/
structure Attempt.UsedCurrent (R : Rustls Cert Key Verifier) (s : TlsServer Cert Key Verifier)
    (a : Attempt Cert Key Verifier) : Prop where
  clientCa : a.clientCa = s.tlsClientCaCertificates
  pair : a.pair = some (s.tlsCertificate, s.tlsKey) ∨ a.pair = none ∧ Unverifiable R s.tlsClientCaCertificates
  made : ∀ acceptor, a.result = some acceptor →
    acceptor.MadeOf R s.tlsClientCaCertificates s.tlsCertificate s.tlsKey
  failed : a.result = none →
    Unverifiable R s.tlsClientCaCertificates ∨ R.singleCert s.tlsCertificate s.tlsKey = false

theorem clientCertVerifier_eq_some {clientCa : Option (List Cert)} {verifier : Verifier}
    (h : clientCertVerifier R clientCa = some verifier) : Verifies R verifier clientCa := by
  cases clientCa with
  | none => exact (Option.some.inj h).symm
  | some cas =>
    obtain ⟨hroots, hbuild⟩ := Option.ite_none_right_eq_some.mp h
    exact ⟨List.all_eq_true.mp hroots, hbuild⟩

theorem clientCertVerifier_eq_none {clientCa : Option (List Cert)} (h : clientCertVerifier R clientCa = none) :
    Unverifiable R clientCa := by
  cases clientCa with
  | none => cases h
  | some cas =>
    refine ⟨cas, rfl, ?_⟩
    by_cases hroots : cas.all R.addRoot = true
    · rw [clientCertVerifier, if_pos hroots] at h
      exact .inr h
    · left
      simpa using hroots

theorem tlsAcceptor_eq_some {clientCa : Option (List Cert)} {certificate : List Cert} {key : Key}
    {acceptor : TlsAcceptor Cert Key Verifier} (h : tlsAcceptor R clientCa certificate key = some acceptor) :
    acceptor.MadeOf R clientCa certificate key := by
  obtain ⟨verifier, hverifier, hconfig⟩ := Option.bind_eq_some_iff.mp h
  obtain ⟨hpaired, hacceptor⟩ := Option.ite_none_right_eq_some.mp hconfig
  cases hacceptor
  exact ⟨clientCertVerifier_eq_some hverifier, rfl, rfl, rfl, hpaired⟩

theorem tlsAcceptor_eq_none {clientCa : Option (List Cert)} {certificate : List Cert} {key : Key}
    (h : tlsAcceptor R clientCa certificate key = none) :
    Unverifiable R clientCa ∨ R.singleCert certificate key = false := by
  cases hverifier : clientCertVerifier R clientCa with
  | none => exact .inl (clientCertVerifier_eq_none hverifier)
  | some verifier =>
    rw [tlsAcceptor, hverifier, Option.bind_some, serverConfig] at h
    exact .inr (by simpa using h)

/-! ## What the accept loop has read is current, or somebody will tell it -/

/-- Everything read since the swap, or by the last attempt, is current. -/
def Fresh (s : TlsServer Cert Key Verifier) : Prop :=
  match s.pc with
  | .idle => ∀ a, s.attempts.getLast? = some a →
      a.clientCa = s.tlsClientCaCertificates ∧ ∀ p, a.pair = some p → p = (s.tlsCertificate, s.tlsKey)
  | .rebuild => True
  | .haveVerifier clientCa _ => clientCa = s.tlsClientCaCertificates
  | .haveCertificate clientCa _ certificate =>
    clientCa = s.tlsClientCaCertificates ∧ certificate = s.tlsCertificate
  | .haveKey clientCa _ certificate key =>
    clientCa = s.tlsClientCaCertificates ∧ certificate = s.tlsCertificate ∧ key = s.tlsKey

/-- The verifier that the loop holds was built from the CA list it read. -/
def AcceptPc.Verified (R : Rustls Cert Key Verifier) : AcceptPc Cert Key Verifier → Prop
  | .idle | .rebuild => True
  | .haveVerifier clientCa verifier | .haveCertificate clientCa verifier _
  | .haveKey clientCa verifier _ _ => clientCertVerifier R clientCa = some verifier

/-- The result of an attempt is that of `tls_acceptor` on what it read. -/
def Attempt.Built (R : Rustls Cert Key Verifier) (a : Attempt Cert Key Verifier) : Prop :=
  match a.pair with
  | some (certificate, key) => a.result = tlsAcceptor R a.clientCa certificate key
  | none => clientCertVerifier R a.clientCa = none ∧ a.result = none

def lastSuccess (attempts : List (Attempt Cert Key Verifier)) : Option (TlsAcceptor Cert Key Verifier) :=
  attempts.reverse.findSome? (·.result)

/-- The steps of the accept loop. -/
inductive AcceptMove (R : Rustls Cert Key Verifier) (s : TlsServer Cert Key Verifier) :
    TlsServer Cert Key Verifier → Prop where
  | unset : AcceptMove R s s
  | taken : AcceptMove R s { s with tlsReloadCertificate := false, pc := .rebuild }
  | verifier {v : Verifier} (hv : clientCertVerifier R s.tlsClientCaCertificates = some v) :
      AcceptMove R s { s with pc := .haveVerifier s.tlsClientCaCertificates v }
  | noVerifier (hv : clientCertVerifier R s.tlsClientCaCertificates = none) :
      AcceptMove R s (s.finish ⟨s.tlsClientCaCertificates, none, none⟩)
  | certificate {ca : Option (List Cert)} {v : Verifier} (hpc : s.pc = .haveVerifier ca v) :
      AcceptMove R s { s with pc := .haveCertificate ca v s.tlsCertificate }
  | key {ca : Option (List Cert)} {v : Verifier} {cert : List Cert}
      (hpc : s.pc = .haveCertificate ca v cert) :
      AcceptMove R s { s with pc := .haveKey ca v cert s.tlsKey }
  | build {ca : Option (List Cert)} {v : Verifier} {cert : List Cert} {key : Key}
      (hpc : s.pc = .haveKey ca v cert key) :
      AcceptMove R s (s.finish ⟨ca, some (cert, key), serverConfig R v cert key⟩)

theorem move_of_acceptStep {s s' : TlsServer Cert Key Verifier} {l : AcceptLabel}
    (hs : acceptStep R s l = some s') : AcceptMove R s s' := by
  unfold acceptStep at hs
  split at hs
  · split at hs <;> cases hs
    · exact .taken
    · exact .unset
  · split at hs <;> cases hs
    · rename_i v hv
      exact .verifier hv
    · rename_i hv
      exact .noVerifier hv
  · rename_i hpc
    cases hs
    exact .certificate hpc
  · rename_i hpc
    cases hs
    exact .key hpc
  · rename_i hpc
    cases hs
    exact .build hpc
  · cases hs

/-- What holds of the accept loop by itself. -/
structure LoopInv (R : Rustls Cert Key Verifier) (s : TlsServer Cert Key Verifier) : Prop where
  verified : s.pc.Verified R
  built : ∀ a ∈ s.attempts, a.Built R
  inUse : lastSuccess s.attempts = some s.tlsAcceptor

theorem LoopInv.exists_last {s : TlsServer Cert Key Verifier} (h : LoopInv R s) :
    ∃ a, s.attempts.getLast? = some a := by
  cases hlast : s.attempts.getLast? with
  | some a => exact ⟨a, rfl⟩
  | none =>
    have hinUse := h.inUse
    rw [List.getLast?_eq_none_iff.mp hlast] at hinUse
    cases hinUse

/-- An attempt that failed for the CA list has not read the other two. -/
theorem LoopInv.usedCurrent {s : TlsServer Cert Key Verifier} (h : LoopInv R s)
    {a : Attempt Cert Key Verifier} (ha : a ∈ s.attempts) (hca : a.clientCa = s.tlsClientCaCertificates)
    (hpair : ∀ p, a.pair = some p → p = (s.tlsCertificate, s.tlsKey)) : a.UsedCurrent R s := by
  have hbuilt := h.built a ha
  rw [Attempt.Built, hca] at hbuilt
  cases hp : a.pair with
  | some p =>
    rw [hp, hpair p hp] at hbuilt
    refine ⟨hca, .inl (by rw [hp, hpair p hp]), fun acceptor hok => ?_, fun hfailed => ?_⟩
    · exact tlsAcceptor_eq_some (hbuilt.symm.trans hok)
    · exact tlsAcceptor_eq_none (hbuilt.symm.trans hfailed)
  | none =>
    rw [hp] at hbuilt
    obtain ⟨hverifier, hresult⟩ := hbuilt
    have hnone := clientCertVerifier_eq_none hverifier
    refine ⟨hca, .inr ⟨hp, hnone⟩, fun acceptor hok => ?_, fun _ => .inl hnone⟩
    rw [hresult] at hok
    cases hok

theorem lastSuccess_concat (attempts : List (Attempt Cert Key Verifier)) (a : Attempt Cert Key Verifier) :
    lastSuccess (attempts ++ [a]) = a.result.or (lastSuccess attempts) := by
  rw [lastSuccess, List.reverse_append, List.reverse_singleton, List.singleton_append,
    List.findSome?_cons]
  cases a.result <;> rfl

theorem finish_loopInv {s : TlsServer Cert Key Verifier} (h : LoopInv R s)
    {a : Attempt Cert Key Verifier} (ha : a.Built R) : LoopInv R (s.finish a) where
  verified := trivial
  built b hb := by
    rcases List.mem_append.mp hb with hb | hb
    · exact h.built b hb
    · rwa [List.mem_singleton.mp hb]
  inUse := by
    refine (lastSuccess_concat s.attempts a).trans ?_
    rw [h.inUse]
    cases hres : a.result <;> simp [TlsServer.finish, hres]

theorem acceptMove_loopInv {s s' : TlsServer Cert Key Verifier} (h : LoopInv R s)
    (hs : AcceptMove R s s') : LoopInv R s' := by
  have hverified := h.verified
  cases hs with
  | unset => exact h
  | taken => exact ⟨trivial, h.built, h.inUse⟩
  | verifier hv => exact ⟨hv, h.built, h.inUse⟩
  | noVerifier hv => exact finish_loopInv h ⟨hv, rfl⟩
  | certificate hpc | key hpc =>
    rw [hpc] at hverified
    exact ⟨hverified, h.built, h.inUse⟩
  | build hpc =>
    rename_i ca v cert key
    rw [hpc] at hverified
    refine finish_loopInv h ?_
    show serverConfig R v cert key = tlsAcceptor R ca cert key
    rw [tlsAcceptor, show clientCertVerifier R ca = some v from hverified, Option.bind_some]

/-- A handler that has replaced a value carries the duty to set the flag. -/
def TlsWork.duty (w : TlsWork Cert Key) : Option Unit := if w.unflagged then some () else none

/-- A value that is not current will be read again: the flag is set, or a
handler has the duty to set it. -/
def Told (s : TlsServer Cert Key Verifier) (duties : List Unit) : Prop :=
  s.tlsReloadCertificate = true ∨ duties ≠ [] ∨ Fresh s

theorem finish_fresh {s : TlsServer Cert Key Verifier} {a : Attempt Cert Key Verifier}
    (hca : a.clientCa = s.tlsClientCaCertificates)
    (hpair : ∀ p, a.pair = some p → p = (s.tlsCertificate, s.tlsKey)) : Fresh (s.finish a) := by
  intro b hb
  obtain rfl := Option.some.inj (List.getLast?_concat.symm.trans hb)
  exact ⟨hca, hpair⟩

/-- The swap takes the flag only to read everything again; the other steps of
the loop leave the flag and read what is current. -/
theorem acceptMove_told {s s' : TlsServer Cert Key Verifier} {duties : List Unit} (h : Told s duties)
    (hs : AcceptMove R s s') : Told s' duties := by
  cases hs with
  | unset => exact h
  | taken => exact .inr (.inr trivial)
  | verifier => exact .inr (.inr rfl)
  | noVerifier => exact .inr (.inr (finish_fresh rfl nofun))
  | certificate hpc =>
    refine h.imp_right (Or.imp_right fun hf => ?_)
    rw [Fresh, hpc] at hf
    exact ⟨hf, rfl⟩
  | key hpc =>
    refine h.imp_right (Or.imp_right fun hf => ?_)
    rw [Fresh, hpc] at hf
    exact ⟨hf.1, hf.2, rfl⟩
  | build hpc =>
    refine h.imp_right (Or.imp_right fun hf => ?_)
    rw [Fresh, hpc] at hf
    obtain ⟨hca, hcert, hkey⟩ := hf
    refine finish_fresh hca fun p hp => ?_
    rw [← Option.some.inj hp, hcert, hkey]

/-! ## The handlers -/

/-- What a handler's step does to the shared state: nothing, a replacement
after which it has to set the flag, or that. -/
inductive TlsMove (s : TlsServer Cert Key Verifier) : TlsWork Cert Key → TlsServer Cert Key Verifier →
    Option (TlsWork Cert Key) → Prop where
  | quiet {w : TlsWork Cert Key} {rest : Option (TlsWork Cert Key)}
      (hw : w.unflagged = false) : TlsMove s w s rest
  | replace {w : TlsWork Cert Key} {f : Loaded Cert Key} {s' : TlsServer Cert Key Verifier}
      {todo : List (TlsFile × Action)} (hs : s.replace f = some s') :
      TlsMove s w s' (some (.replaced todo))
  | flag {w : TlsWork Cert Key} {rest : Option (TlsWork Cert Key)} :
      TlsMove s w { s with tlsReloadCertificate := true } rest

theorem move_of_tlsWork {s s' : TlsServer Cert Key Verifier} {w : TlsWork Cert Key}
    {l : TlsLabel Cert Key} {rest : Option (TlsWork Cert Key)} {paths : List Path}
    (h : tlsWork s w l = some (s', rest, paths)) : TlsMove s w s' rest := by
  unfold tlsWork at h
  split at h
  · cases h
    exact .quiet rfl
  · cases h
    exact .quiet rfl
  · cases h
    exact .quiet rfl
  · split at h <;> cases h
    exact .quiet rfl
  · split at h <;> cases h
    · rename_i hs
      exact .replace hs
    · exact .quiet rfl
  · cases h
    exact .flag
  · cases h

/-- A replacement changes nothing of the accept loop. -/
theorem replace_loopInv {s s' : TlsServer Cert Key Verifier} (h : LoopInv R s) {f : Loaded Cert Key}
    (hs : s.replace f = some s') : LoopInv R s' := by
  cases f with
  | certificate certs =>
    cases hs
    exact ⟨h.verified, h.built, h.inUse⟩
  | key key =>
    cases hs
    exact ⟨h.verified, h.built, h.inUse⟩
  | clientCa certs =>
    obtain ⟨_, -, rfl⟩ := Option.map_eq_some_iff.mp hs
    exact ⟨h.verified, h.built, h.inUse⟩

theorem tlsInv_inductive (paths : TlsPaths) (start : TlsStart R) :
    (tlsServer paths start).Inductive fun x =>
      LoopInv R x.shared ∧ Told x.shared (x.threads.filterMap (carried TlsWork.duty)) := by
  refine watch_inductive (I := fun s duties => LoopInv R s ∧ Told s duties)
    (fun _ _ h => by cases h; rfl) ?_ ?_ ?_
  · refine ⟨⟨trivial, fun a ha => ?_, rfl⟩, .inr (.inr fun a ha => ?_)⟩
    · obtain rfl := List.mem_singleton.mp ha
      exact start.built.symm
    · cases ha
      exact ⟨rfl, fun p hp => (Option.some.inj hp).symm⟩
  · intro s duties l s' ⟨hloop, htold⟩ hs
    have hmove := move_of_acceptStep hs
    exact ⟨acceptMove_loopInv hloop hmove, acceptMove_told htold hmove⟩
  · intro s w l s' rest rewatched a b ⟨hloop, htold⟩ hw
    cases move_of_tlsWork hw with
    | quiet hq =>
      refine ⟨hloop, htold.imp_right (Or.imp_left fun hduties hnil => hduties ?_)⟩
      rw [TlsWork.duty, hq, if_neg Bool.false_ne_true]
      simp only [List.append_eq_nil_iff] at hnil ⊢
      exact ⟨⟨hnil.1.1, rfl⟩, hnil.2⟩
    | replace hrep =>
      exact ⟨replace_loopInv hloop hrep, .inr (.inl (by simp [TlsWork.duty, TlsWork.unflagged]))⟩
    | flag => exact ⟨⟨hloop.verified, hloop.built, hloop.inUse⟩, .inl rfl⟩

/-- **No reload is lost.** In every reachable state in which no handler is
between its replacement and the store of the flag and the accept loop is not
rebuilding, if the flag is not set then the last attempt to build used the
current certificate, key and CA list. The acceptor in use is always the
result of the last attempt that succeeded. -/
theorem no_reload_lost (paths : TlsPaths) (start : TlsStart R)
    (x : Threads (TlsServer Cert Key Verifier) (Thread (TlsWork Cert Key)))
    (hr : (tlsServer paths start).Reachable x) :
    ((∀ spawned w, Thread.handling spawned w ∈ x.threads → w.unflagged = false) →
      x.shared.pc = .idle → x.shared.tlsReloadCertificate = false →
      ∃ a, x.shared.attempts.getLast? = some a ∧ a.UsedCurrent R x.shared) ∧
    lastSuccess x.shared.attempts = some x.shared.tlsAcceptor := by
  obtain ⟨hloop, htold⟩ := (tlsInv_inductive paths start).reachable x hr
  refine ⟨fun hquiet hidle hflag => ?_, hloop.inUse⟩
  have hduties : x.threads.filterMap (carried TlsWork.duty) = [] := by
    refine filterMap_carried_eq_nil fun spawned w hw => ?_
    rw [TlsWork.duty, hquiet spawned w hw, if_neg Bool.false_ne_true]
  have hfresh : Fresh x.shared := by
    rcases htold with h | h | h
    · rw [hflag] at h
      cases h
    · exact absurd hduties h
    · exact h
  rw [Fresh, hidle] at hfresh
  obtain ⟨a, hlast⟩ := hloop.exists_last
  obtain ⟨hca, hpair⟩ := hfresh a hlast
  exact ⟨a, hlast, hloop.usedCurrent (List.mem_of_getLast? hlast) hca hpair⟩

/-- The key `n` belongs to the certificate `[n]`; a verifier is the list of its
roots, and 0 is no root. -/
def numbered : Rustls Nat Nat (List Nat) where
  addRoot ca := ca ≠ 0
  buildVerifier cas := some cas
  noClientAuth := []
  singleCert certificate key := certificate = [key]

def numberedStart : TlsStart numbered := ⟨[1], 1, some [7], ⟨[7], [1], 1, ["h2", "http/1.1"]⟩, rfl⟩

/-- `/c`, `/k` and `/a` -/
def numberedPaths : TlsPaths := ⟨[47, 99], [47, 107], some [47, 97]⟩

/-- A file is modified and loaded. -/
def reloaded (path : Path) (file : Loaded Nat Nat) :
    List (Threads.Label AcceptLabel (Input (TlsLabel Nat Nat))) :=
  [.thread 0 (.event (some ⟨.modify, [path]⟩)), .thread 0 (.work (.load (some file))),
   .thread 0 (.work .replace), .thread 0 (.work .setFlag), .thread 0 (.work .done)]

/-- The loop rebuilds. -/
def rebuilt : List (Threads.Label AcceptLabel (Input (TlsLabel Nat Nat))) :=
  [.env .swap, .env .readClientCa, .env .readCertificate, .env .readKey, .env .build]

/-- The rebuild between the certificate and the key fails, the one after both
succeeds, the one after a CA list with 0 in it fails, and the one after a good list
succeeds with that list. -/
theorem no_reload_lost_newCa : ∃ x, (tlsServer numberedPaths numberedStart).Reachable x ∧
    (∀ spawned w, Thread.handling spawned w ∈ x.threads → w.unflagged = false) ∧
    x.shared.pc = .idle ∧ x.shared.tlsReloadCertificate = false ∧
    x.shared.attempts.map (·.result.isSome) = [true, false, true, false, true] ∧
    x.shared.tlsClientCaCertificates = some [8, 9] ∧ x.shared.tlsAcceptor.clientCertVerifier = [8, 9] ∧
    ∃ a, x.shared.attempts.getLast? = some a ∧ a.UsedCurrent numbered x.shared := by
  obtain ⟨x, hs, hts, hpc, hflag, ha, hca, hverifier⟩ : ∃ x, LTS.exec (Threads.step (acceptStep numbered)
        (watchStep (handleServerFsEvent numberedPaths) tlsWork)) numberedStart.state
        (reloaded [47, 99] (.certificate [2]) ++ rebuilt ++ reloaded [47, 107] (.key 2) ++ rebuilt ++
          reloaded [47, 97] (.clientCa [8, 0]) ++ [.env .swap, .env .readClientCa] ++
          reloaded [47, 97] (.clientCa [8, 9]) ++ rebuilt) = some x ∧
      x.threads = [.watching] ∧ x.shared.pc = .idle ∧ x.shared.tlsReloadCertificate = false ∧
      x.shared.attempts.map (·.result.isSome) = [true, false, true, false, true] ∧
      x.shared.tlsClientCaCertificates = some [8, 9] ∧ x.shared.tlsAcceptor.clientCertVerifier = [8, 9] :=
    ⟨_, rfl, rfl, rfl, rfl, rfl, rfl, rfl⟩
  have hr : (tlsServer numberedPaths numberedStart).Reachable x := ⟨_, _, rfl, LTS.run_ofFn.mpr hs⟩
  have hquiet : ∀ spawned w, Thread.handling spawned w ∈ x.threads → w.unflagged = false := by
    simp [hts]
  exact ⟨x, hr, hquiet, hpc, hflag, ha, hca, hverifier,
    (no_reload_lost numberedPaths numberedStart x hr).1 hquiet hpc hflag⟩

end Wstunnel.L5.Reload
