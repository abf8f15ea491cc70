import Wstunnel.Core.Uuid
import Wstunnel.L3Client.ReverseClient

/-!
# The tunnels of the command line

`parse_tunnel_arg` reads `proto://[bind:]port:host:port?options` and its
variants: a bind address in front of a destination (`tcp`, `udp`), a bind
address with options (`http`, `socks5`, `tproxy+tcp`, `tproxy+udp`), a path
(`unix`), a destination alone (`stdio`), and a UUID (`tunnel`). The
destination is what the `url` crate makes of it.

Every error is an `io::Error` of the kind `InvalidInput`, here its text.

**Third-party code.** `Url::parse`, `form_urlencoded` and the text of an error of
`uuid` are the parameter `Crates`, of which nothing is assumed here; `TunnelDest` asks
for `Crates.FollowsStandard`. `Uuid::parse_str` is `Core.Uuid`, the address parsers of
the standard library are those of `Net`.

**Results.**
* `parseTunnelArg_tunnel`, `parseTunnelArg_of_uuid`: what is accepted behind
  `tunnel://`, and what it becomes.
-/
namespace Wstunnel.L3

open Wstunnel.L1 Wstunnel.Str

/-- What the code reads of a `url::Url`. -/
structure ParsedUrl where
  host : Option Host
  /-- `Url::port`: `none` for the port of the scheme, too -/
  port : Option UInt16
  queryPairs : List (String × String)
  deriving DecidableEq, Repr

/-- What is called of the `url` and `uuid` crates. -/
structure Crates where
  /-- `Url::parse` -/
  urlParse : String → Option ParsedUrl
  /-- `form_urlencoded::parse` -/
  formUrlencoded : String → List (String × String)
  /-- `Display` of the error of `Uuid::parse_str` -/
  uuidError : String → String

/-! ## Options -/

/-- The pairs that are collected into a `BTreeMap`. -/
abbrev Options := List (String × String)

/-- The last of several values counts. -/
def Options.get (options : Options) (key : String) : Option String := options.reverse.lookup key

/-- mirrors wstunnel/src/config.rs:543-549 -/
def getTimeout (options : Options) : Option Duration :=
  match (options.get "timeout_sec").bind fun x => parseUnsigned 64 x.toList with
  | some d => if d = 0 then none else some (d * oneSecond)
  | none => some (30 * oneSecond)

/-- mirrors wstunnel/src/config.rs:550-554 -/
def getCredentials (options : Options) : Option Credentials :=
  (options.get "login").bind fun login => (options.get "password").map fun p => (login, p)

/-- mirrors wstunnel/src/config.rs:555 -/
def getProxyProtocol (options : Options) : Bool := (options.get "proxy_protocol").isSome

/-! ## Addresses -/

/-- The bind address in front, 127.0.0.1 if there is none, and what is left.
mirrors wstunnel/src/config.rs:468-491 -/
def splitBind (arg : List Char) : Except String (IpAddr × List Char) :=
  match arg with
  | '[' :: _ => match splitOnce [']'] arg with
    | none => .error ("cannot parse IPv6 bind from " ++ String.ofList arg)
    | some (ipv6Str, remaining) => match ipv6FromStr ipv6Str.tail with
      | none => .error ("cannot parse IPv6 bind from " ++ String.ofList ipv6Str)
      | some ipv6Addr => .ok (.v6 ipv6Addr, remaining)
  | _ =>
    let (ipv4Str, remaining) := (splitOnce [':'] arg).getD (arg, [])
    match ipv4FromStr ipv4Str with
    | none => .ok (.v4 0x7F000001, arg)
    | some ipv4Addr => .ok (.v4 ipv4Addr, remaining)

/-- `split_once([':', '?'])`, or all of it. -/
def splitPort (remaining : List Char) : List Char × List Char :=
  (remaining.takeWhile fun c => c ≠ ':' && c ≠ '?', (remaining.dropWhile fun c => c ≠ ':' && c ≠ '?').tail)

/-- mirrors wstunnel/src/config.rs:465-504 -/
def parseLocalBind (arg : List Char) : Except String (SocketAddr × List Char) := do
  let (bind, remaining) ← splitBind arg
  let (portStr, remaining) := splitPort (remaining.dropWhile (· = ':'))
  match parseUnsigned 16 portStr with
  | none => .error ("cannot parse bind port from " ++ String.ofList portStr)
  | some bindPort => .ok (⟨bind, UInt16.ofNat bindPort⟩, remaining)

variable (C : Crates)

/-- mirrors wstunnel/src/config.rs:506-539 -/
def parseTunnelDest (remaining : List Char) : Except String (Host × UInt16 × Options) :=
  match C.urlParse ("https://" ++ String.ofList remaining) with
  | none => .error ("cannot parse remote from " ++ String.ofList remaining)
  | some remote => match remote.host with
    | none => .error ("cannot parse remote host from " ++ String.ofList remaining)
    | some remoteHost => match remote.port with
      | some remotePort => .ok (remoteHost, remotePort, remote.queryPairs)
      | none =>
        -- the crate does not report the port if it is the default one
        if ":443".toList.isSuffixOf remaining || (splitOnce ":443?".toList remaining).isSome then
          .ok (remoteHost, 443, remote.queryPairs)
        else .error ("cannot parse remote port from " ++ String.ofList remaining)

/-! ## The argument -/

/-- The UUID as typed, and the options behind it. -/
def splitTunnelInfo (tunnelInfo : List Char) : String × List Char :=
  let (tunnelId, query) := (splitOnce ['?'] tunnelInfo).getD (tunnelInfo, [])
  (Str.trim (String.ofList tunnelId), query)

/-- mirrors wstunnel/src/config.rs:639-663 -/
def parseTunnelStdio (tunnelInfo : List Char) : Except String LocalToRemote :=
  let (tunnelId, query) := splitTunnelInfo tunnelInfo
  match UuidText.parse tunnelId.toList with
  | none => .error ("Invalid tunnel uuid '" ++ tunnelId ++ "': " ++ C.uuidError tunnelId)
  | some _ =>
    let options := if query = [] then [] else C.formUrlencoded (String.ofList query)
    .ok ⟨.tunnelStdio (getProxyProtocol options) (getTimeout options), ⟨.v4 0, 0⟩, .domain tunnelId, 0⟩

/-- A bind address, and options that are read as those of a destination. -/
def parseBindOnly (tunnelInfo : List Char) (localProtocol : Options → LocalProtocol) : Except String LocalToRemote := do
  let (localBind, remaining) ← parseLocalBind tunnelInfo
  let (destHost, destPort, options) ← parseTunnelDest C ("0.0.0.0:0?".toList ++ remaining)
  return ⟨localProtocol options, localBind, destHost, destPort⟩

/-- A bind address and a destination. -/
def parseBindDest (tunnelInfo : List Char) (localProtocol : Options → LocalProtocol) : Except String LocalToRemote := do
  let (localBind, remaining) ← parseLocalBind tunnelInfo
  let (destHost, destPort, options) ← parseTunnelDest C remaining
  return ⟨localProtocol options, localBind, destHost, destPort⟩

/-- mirrors wstunnel/src/config.rs:541-691 -/
def parseTunnelArg (arg : String) : Except String LocalToRemote :=
  match splitOnce "://".toList arg.toList with
  | none => .error ("cannot parse protocol from " ++ arg)
  | some (proto, tunnelInfo) => match String.ofList proto with
    | "tcp" => parseBindDest C tunnelInfo fun options => .tcp (getProxyProtocol options)
    | "udp" => parseBindDest C tunnelInfo fun options => .udp (getTimeout options)
    | "unix" => match splitOnce [':'] tunnelInfo with
      | none => .error ("cannot parse unix socket path from " ++ arg)
      | some (path, remote) => do
        let (destHost, destPort, options) ← parseTunnelDest C remote
        return ⟨.unix ⟨String.ofList path⟩ (getProxyProtocol options), ⟨.v6 0, 0⟩, destHost, destPort⟩
    | "http" => parseBindOnly C tunnelInfo fun options =>
      .httpProxy (getTimeout options) (getCredentials options) (getProxyProtocol options)
    | "socks5" => parseBindOnly C tunnelInfo fun options => .socks5 (getTimeout options) (getCredentials options)
    | "stdio" => do
      let (destHost, destPort, options) ← parseTunnelDest C tunnelInfo
      return ⟨.stdio (getProxyProtocol options), ⟨.v4 0, 0⟩, destHost, destPort⟩
    | "tunnel" => parseTunnelStdio C tunnelInfo
    | "tproxy+tcp" => parseBindOnly C tunnelInfo fun _ => .tproxyTcp
    | "tproxy+udp" => parseBindOnly C tunnelInfo fun options => .tproxyUdp (getTimeout options)
    | _ => .error ("Invalid local protocol for tunnel " ++ arg)

/-- `Debug` of a timeout, which is a whole number of seconds here. -/
def debugTimeout : Option Duration → String
  | none => "None"
  | some timeout => "Some(" ++ toString (timeout / oneSecond) ++ "s)"

/-- The reverse protocol of a protocol; the error is its `Debug`. The reverse
protocols themselves are no result of `parse_tunnel_arg`.
mirrors wstunnel/src/config.rs:695-719 -/
def toReverse : LocalProtocol → Except String LocalProtocol
  | .tcp _ => .ok .reverseTcp
  | .udp timeout => .ok (.reverseUdp timeout)
  | .socks5 timeout credentials => .ok (.reverseSocks5 timeout credentials)
  | .httpProxy timeout credentials _ => .ok (.reverseHttpProxy timeout credentials)
  | .unix path _ => .ok (.reverseUnix path)
  | .tproxyTcp => .error "TProxyTcp"
  | .tproxyUdp timeout => .error ("TProxyUdp \x7b timeout: " ++ debugTimeout timeout ++ " \x7d")
  | .stdio proxyProtocol => .error ("Stdio \x7b proxy_protocol: " ++ toString proxyProtocol ++ " \x7d")
  | .tunnelStdio proxyProtocol timeout => .error ("TunnelStdio \x7b proxy_protocol: " ++ toString proxyProtocol ++
      ", timeout: " ++ debugTimeout timeout ++ " \x7d")
  | .reverseTcp | .reverseUdp _ | .reverseSocks5 _ _ | .reverseHttpProxy _ _ | .reverseUnix _ => .error ""

/-- mirrors wstunnel/src/config.rs:693-726 -/
def parseReverseTunnelArg (arg : String) : Except String LocalToRemote := do
  let proto ← parseTunnelArg C arg
  match toReverse proto.localProtocol with
  | .error debug => .error ("Cannot use " ++ debug ++ " as reverse tunnels " ++ arg)
  | .ok localProtocol => .ok { proto with localProtocol }

variable {C}

/-- The text behind `tunnel://` and in front of the options. -/
def tunnelId (arg : String) : String := (splitTunnelInfo (arg.toList.drop "tunnel://".length)).1

/-- **What is accepted behind `tunnel://`** is text that spells a UUID, and
the destination is that text, as typed. -/
theorem parseTunnelArg_tunnel {arg : String} {t : LocalToRemote} (hscheme : "tunnel://".toList <+: arg.toList)
    (h : parseTunnelArg C arg = .ok t) : ∃ uuid proxyProtocol timeout,
      UuidText.parse (tunnelId arg).toList = some uuid ∧
      t = ⟨.tunnelStdio proxyProtocol timeout, ⟨.v4 0, 0⟩, .domain (tunnelId arg), 0⟩ := by
  obtain ⟨tunnelInfo, hinfo⟩ := hscheme
  have hsplit : splitOnce "://".toList arg.toList = some ("tunnel".toList, tunnelInfo) := by
    rw [← hinfo]
    rfl
  have hid : tunnelId arg = (splitTunnelInfo tunnelInfo).1 := by
    rw [tunnelId, ← hinfo]
    rfl
  have hstdio : parseTunnelStdio C tunnelInfo = .ok t := by
    rw [parseTunnelArg, hsplit] at h
    exact h
  simp only [parseTunnelStdio] at hstdio
  rw [hid]
  split at hstdio
  · cases hstdio
  · rename_i uuid huuid
    cases hstdio
    exact ⟨uuid, _, _, huuid, rfl⟩

/-- The tunnel for an id without options. -/
def idTunnel (tunnelId : String) : LocalToRemote :=
  ⟨.tunnelStdio false (some (30 * oneSecond)), ⟨.v4 0, 0⟩, .domain tunnelId, 0⟩

/-- A UUID has neither a question mark nor white space. -/
theorem splitTunnelInfo_of_uuid {s : String} {uuid : BitVec 128} (h : UuidText.parse s.toList = some uuid) :
    splitTunnelInfo s.toList = (s, []) := by
  have hquery : splitOnce ['?'] s.toList = none := splitOnce_of_not_mem fun hmem =>
    absurd (UuidText.all_of_parse (p := fun c => c ≠ '?') h (by decide) '?' hmem) (by decide)
  have hspace : ∀ c ∈ s.toList, (!isWhitespace c) = true := UuidText.all_of_parse h (by decide)
  simp only [splitTunnelInfo, hquery, Option.getD_none, String.ofList_toList]
  rw [trim_of_noWhitespace fun c hc => Bool.not_eq_true' _ ▸ hspace c hc]

/-- **Every spelling of a UUID is accepted**, and kept. -/
theorem parseTunnelArg_of_uuid {s : String} {uuid : BitVec 128} (h : UuidText.parse s.toList = some uuid) :
    parseTunnelArg C ("tunnel://" ++ s) = .ok (idTunnel s) := by
  have hsplit : splitOnce "://".toList ("tunnel://" ++ s).toList = some ("tunnel".toList, s.toList) := by
    rw [String.toList_append]
    rfl
  rw [parseTunnelArg, hsplit]
  show parseTunnelStdio C s.toList = _
  simp only [parseTunnelStdio, splitTunnelInfo_of_uuid h, h]
  rfl

end Wstunnel.L3
