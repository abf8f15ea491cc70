import Wstunnel.Core.Base64
import Wstunnel.L1Encoding.Percent

/-!
# The credentials of an HTTP proxy

`mk_http_proxy` puts `--http-proxy-login` and `--http-proxy-password` into the
URL of the proxy, where the setters write some characters as escapes and keep
`%` as it is. `connect_with_http_proxy` takes them out again, decodes the
escapes and sends them as a `Proxy-Authorization` header; `verify_credentials`
of a listener compares that header with its own pair.

A `String` that was decoded is the bytes it was decoded to, so texts are bytes
here once they are in the URL.

**Third-party code.** `Url::parse` of the proxy's URL is a parameter; `set_username`,
`set_password` and `urlencoding::decode` are written out, with the set of characters
that the `url` crate escapes. `base64` is `Core.Base64`, and an HTTP header is its
bytes.

**Results.**
* `proxyAuthorization_eq_iff`: what is sent is the pair that was given exactly
  when the password is not empty and neither text has an escape.
* `proxyCredentials_sent_iff`: so is what a listener with the pair accepts.
-/
namespace Wstunnel.L3.ProxyAuth

open Wstunnel.L1 Wstunnel.Str

abbrev Bytes := List UInt8

/-! ## The URL -/

/-- What is read and set of the URL. -/
structure ProxyUrl where
  host : Option Host
  username : Bytes
  password : Option Bytes
  deriving DecidableEq, Repr

/-- The encode set `USERINFO`. -/
def userinfoSet (b : UInt8) : Bool :=
  b < 0x20 || 0x7F ≤ b || " \"#<>?`\x7b\x7d/:;=@[\\]^|".toList.contains (Char.ofNat b.toNat)

def ProxyUrl.hasHost (url : ProxyUrl) : Bool := url.host ≠ none && url.host ≠ some (.domain "")

/-- `Url::set_username` -/
def ProxyUrl.setUsername (url : ProxyUrl) (username : String) : Option ProxyUrl :=
  let username := Utf8.encode username.toList
  if !url.hasHost then none
  else if url.username = username then some url
  else some { url with username := percentEncode userinfoSet username }

/-- `Url::set_password`: an empty password is none. -/
def ProxyUrl.setPassword (url : ProxyUrl) (password : String) : Option ProxyUrl :=
  let password := Utf8.encode password.toList
  if !url.hasHost then none
  else some { url with password := if password = [] then none else some (percentEncode userinfoSet password) }

/-- The text that is parsed. -/
def proxyText (proxy : String) : String :=
  if "http://".toList.isPrefixOf proxy.toList then proxy else "http://" ++ proxy

/-- mirrors wstunnel/src/lib.rs:568-596 -/
def mkHttpProxy (urlParse : String → Option ProxyUrl) (httpProxy proxyLogin proxyPassword : Option String) :
    Except String (Option ProxyUrl) :=
  match httpProxy with
  | none => .ok none
  | some proxy => do
    let proxy ← (urlParse (proxyText proxy)).elim (.error "Invalid http proxy url") .ok
    let proxy ← match proxyLogin with
      | none => .ok proxy
      | some login => (proxy.setUsername login).elim (.error "Cannot set http proxy login") .ok
    let proxy ← match proxyPassword with
      | none => .ok proxy
      | some password => (proxy.setPassword password).elim (.error "Cannot set http proxy password") .ok
    return some proxy

/-! ## The request -/

/-- `urlencoding::decode` -/
def urlDecode (bs : Bytes) : Option Bytes := if (Utf8.decode (percentDecode bs)).isSome then some (percentDecode bs) else none

/-- Base64 of `user:password`. -/
def basicToken (user password : Bytes) : String := String.ofList (Base64.encode (user ++ 0x3A :: password))

def asciiText (bs : Bytes) : String := String.ofList (bs.map fun b => Char.ofNat b.toNat)

/-- The token that is sent, if any.
mirrors wstunnel/src/protocols/tcp/server.rs:152-160 -/
def proxyAuthorization (proxy : ProxyUrl) : Except String (Option String) :=
  match proxy.password with
  | none => .ok none
  | some password => match urlDecode proxy.username with
    | none => .error ("Cannot urldecode proxy user: " ++ asciiText proxy.username)
    | some user => match urlDecode password with
      | none => .error ("Cannot urldecode proxy password: " ++ asciiText password)
      | some password => .ok (some (basicToken user password))

def authorizationLine : Option String → String
  | some creds => "Proxy-Authorization: Basic " ++ creds ++ "\r\n"
  | none => ""

/-- The text of the request. mirrors wstunnel/src/protocols/tcp/server.rs:162 -/
def connectText (host : Host) (port : UInt16) (authorization : String) : String :=
  let authority := host.display ++ ":" ++ toString port.toNat
  "CONNECT " ++ authority ++ " HTTP/1.0\r\nHost: " ++ authority ++ "\r\n" ++ authorization ++ "\r\n"

/-- The request that is written once the proxy is connected.
mirrors wstunnel/src/protocols/tcp/server.rs:145-164 -/
def connectRequest (proxy : ProxyUrl) (host : Host) (port : UInt16) : Except String String :=
  if proxy.host = none then .error "Cannot parse proxy host"
  else (proxyAuthorization proxy).map fun authorization => connectText host port (authorizationLine authorization)

/-! ## The listener -/

/-- mirrors wstunnel/src/protocols/http_proxy/server.rs:168-169 -/
def authHeader (credentials : Option (String × String)) : Option String :=
  credentials.map fun (user, pass) => String.ofList (Base64.encode (Utf8.encode (user ++ ":" ++ pass).toList))

/-- mirrors wstunnel/src/protocols/http_proxy/server.rs:80-95 -/
def verifyCredentials (credentials headerValue : Option String) : Bool :=
  match credentials with
  | none => true
  | some token => match headerValue with
    | none => false
    | some headerValue =>
      let auth := (Str.trim headerValue).toList
      "Basic ".toList.isPrefixOf auth && auth.drop "Basic ".length = token.toList

example : verifyCredentials (authHeader (some ("a", "b"))) (some " Basic YTpi") = true := by decide
example : verifyCredentials (authHeader (some ("a", "b"))) (some "Basic YTpj") = false := by decide

/-! ## What is sent -/

theorem keepsEscapes_userinfoSet : KeepsEscapes userinfoSet where
  percent := by decide
  digit := forall_byte (by decide +kernel)

/-- The URL of a proxy with the pair. -/
def withCredentials (url : ProxyUrl) (login password : String) : ProxyUrl :=
  { url with
    username := percentEncode userinfoSet (Utf8.encode login.toList)
    password := if Utf8.encode password.toList = [] then none
      else some (percentEncode userinfoSet (Utf8.encode password.toList)) }

theorem mkHttpProxy_eq {urlParse : String → Option ProxyUrl} {proxy login password : String} {url : ProxyUrl}
    (hurl : urlParse (proxyText proxy) = some url) (hhost : url.hasHost = true) (huser : url.username = []) :
    mkHttpProxy urlParse (some proxy) (some login) (some password) =
      .ok (some (withCredentials url login password)) := by
  have hlogin : url.setUsername login =
      some { url with username := percentEncode userinfoSet (Utf8.encode login.toList) } := by
    rw [ProxyUrl.setUsername, hhost]
    simp only [Bool.not_true, Bool.false_eq_true, if_false]
    split
    · -- an empty login, which is what the URL has already
      rename_i hsame
      rw [← hsame, huser, show percentEncode userinfoSet [] = url.username from huser.symm]
    · rfl
  have hset (username : Bytes) : ProxyUrl.hasHost { url with username } = true := hhost
  simp only [mkHttpProxy, hurl, Option.elim_some, bind, Except.bind, hlogin, ProxyUrl.setPassword, hset,
    Bool.not_true, Bool.false_eq_true, if_false]
  rfl

theorem urlDecode_percentEncode (text : String) : urlDecode (percentEncode userinfoSet (Utf8.encode text.toList)) =
    urlDecode (Utf8.encode text.toList) := by
  rw [urlDecode, urlDecode, percentDecode_percentEncode_of_keeps keepsEscapes_userinfoSet]

/-- A text without escapes is not changed. -/
theorem urlDecode_of_not_hasEscape {text : String} (h : ¬ HasEscape (Utf8.encode text.toList)) :
    urlDecode (Utf8.encode text.toList) = some (Utf8.encode text.toList) := by
  rw [urlDecode, percentDecode_eq_self_iff.mpr h, Utf8.decode_encode]
  rfl

theorem urlDecode_eq_some {bs decoded : Bytes} (h : urlDecode bs = some decoded) : decoded = percentDecode bs :=
  (Option.some.inj (Option.ite_none_right_eq_some.mp h).2).symm

/-- Decoding both texts makes the pair shorter if either has an escape. -/
theorem hasEscape_of_pair {login password : Bytes}
    (h : percentDecode login ++ 0x3A :: percentDecode password = login ++ 0x3A :: password) :
    ¬ HasEscape login ∧ ¬ HasEscape password := by
  have hlen := congrArg List.length h
  rw [List.length_append, List.length_append, List.length_cons, List.length_cons] at hlen
  have hl := length_percentDecode_le login
  have hp := length_percentDecode_le password
  refine ⟨fun he => ?_, fun he => ?_⟩
  · have := length_percentDecode_lt he
    omega
  · have := length_percentDecode_lt he
    omega

/-- The texts that arrive as they were given. -/
structure SentAsGiven (login password : String) : Prop where
  ne_empty : password ≠ ""
  login : ¬ HasEscape (Utf8.encode login.toList)
  password : ¬ HasEscape (Utf8.encode password.toList)

theorem encode_eq_nil_iff {text : String} : Utf8.encode text.toList = [] ↔ text = "" := by
  refine ⟨fun h => ?_, fun h => by rw [h]; rfl⟩
  have hdecode := Utf8.decode_encode text.toList
  rw [h] at hdecode
  exact String.toList_inj.mp (Option.some.inj hdecode).symm

/-- The token of a pair, as a listener computes it. -/
theorem authHeader_some (login password : String) :
    authHeader (some (login, password)) = some (basicToken (Utf8.encode login.toList) (Utf8.encode password.toList)) := by
  have hbytes : Utf8.encode (login ++ ":" ++ password).toList =
      Utf8.encode login.toList ++ 0x3A :: Utf8.encode password.toList := by
    rw [String.toList_append, String.toList_append, Utf8.encode, Utf8.encode, Utf8.encode, List.flatMap_append,
      List.flatMap_append, List.append_assoc]
    rfl
  show some (String.ofList (Base64.encode (Utf8.encode (login ++ ":" ++ password).toList))) = _
  rw [hbytes]
  rfl

theorem basicToken_injective {a b c d : Bytes} (h : basicToken a b = basicToken c d) :
    a ++ 0x3A :: b = c ++ 0x3A :: d :=
  Base64.encode_injective (String.ofList_injective h)

/-- **The token is that of the pair** exactly when the password is not empty
and neither text has an escape. -/
theorem proxyAuthorization_eq_iff (url : ProxyUrl) {login password : String} :
    proxyAuthorization (withCredentials url login password) = .ok (authHeader (some (login, password))) ↔
      SentAsGiven login password := by
  rw [authHeader_some, proxyAuthorization, withCredentials]
  by_cases hempty : password = ""
  · rw [if_pos (encode_eq_nil_iff.mpr hempty)]
    refine iff_of_false (fun h => by cases h) fun h => h.ne_empty hempty
  simp only [if_neg (mt encode_eq_nil_iff.mp hempty), urlDecode_percentEncode]
  refine ⟨fun h => ?_, fun h => ?_⟩
  · split at h
    · cases h
    · rename_i user huser
      split at h
      · cases h
      · rename_i pass hpass
        have htoken := basicToken_injective (Option.some.inj (Except.ok.inj h))
        rw [urlDecode_eq_some huser, urlDecode_eq_some hpass] at htoken
        obtain ⟨hlogin, hpassword⟩ := hasEscape_of_pair htoken
        exact ⟨hempty, hlogin, hpassword⟩
  · simp only [urlDecode_of_not_hasEscape h.login, urlDecode_of_not_hasEscape h.password]

theorem append_cancel {front back x y : String} (h : front ++ x ++ back = front ++ y ++ back) : x = y := by
  have hlist := congrArg String.toList h
  rw [String.toList_append, String.toList_append, String.toList_append, String.toList_append] at hlist
  exact String.toList_inj.mp (List.append_cancel_left (List.append_cancel_right hlist))

theorem append_ne_empty (a : String) {b : String} (hb : b ≠ "") : a ++ b ≠ "" := by
  intro h
  have hlist := congrArg String.toList h
  rw [String.toList_append] at hlist
  exact hb (String.toList_eq_nil_iff.mp (List.append_eq_nil_iff.mp hlist).2)

theorem authorizationLine_injective {auth : Option String} {token : String}
    (h : authorizationLine auth = authorizationLine (some token)) : auth = some token := by
  cases auth with
  | none => exact absurd h.symm (append_ne_empty _ (by decide))
  | some creds => exact congrArg some (append_cancel h)

theorem connectText_injective {host : Host} {port : UInt16} {a b : String}
    (h : connectText host port a = connectText host port b) : a = b := append_cancel h

/-- The request with a given token is the one that is written. -/
theorem connectRequest_eq_iff {proxy : ProxyUrl} (hhost : proxy.host ≠ none) {host : Host} {port : UInt16}
    {token : String} : connectRequest proxy host port = .ok (connectText host port (authorizationLine (some token))) ↔
      proxyAuthorization proxy = .ok (some token) := by
  rw [connectRequest, if_neg hhost]
  cases proxyAuthorization proxy with
  | error e => exact iff_of_false (fun h => by cases h) fun h => by cases h
  | ok auth =>
    refine ⟨fun h => ?_, fun h => ?_⟩
    · rw [authorizationLine_injective (connectText_injective (Except.ok.inj h))]
    · rw [Except.ok.inj h]
      rfl

/-! ## What is accepted -/

theorem isWhitespace_of_mem_encode {bs : Bytes} {c : Char} (h : c ∈ Base64.encode bs) : isWhitespace c = false := by
  have hdigit : ∀ n < 64, isWhitespace (Base64.digit n) = false := by decide
  rcases Base64.mem_encode h with rfl | ⟨n, hn, rfl⟩
  · decide
  · exact hdigit n hn

theorem encode_ne_nil {bs : Bytes} (h : bs ≠ []) : Base64.encode bs ≠ [] := fun hnil =>
  h (Base64.encode_injective (hnil.trans Base64.encode.eq_4.symm))

theorem verifyCredentials_basic {token : String} {user password : Bytes} :
    verifyCredentials (some token) (some ("Basic " ++ basicToken user password)) = true ↔
      basicToken user password = token := by
  have hcreds : (basicToken user password).toList = Base64.encode (user ++ 0x3A :: password) := String.toList_ofList
  have htext : ("Basic " ++ basicToken user password).toList =
      "Basic ".toList ++ Base64.encode (user ++ 0x3A :: password) := by
    rw [String.toList_append, hcreds]
  have htrim : Str.trim ("Basic " ++ basicToken user password) = "Basic " ++ basicToken user password := by
    obtain hnil | ⟨m, d, hm⟩ := List.eq_nil_or_concat' (Base64.encode (user ++ 0x3A :: password))
    · exact absurd hnil (encode_ne_nil (List.append_ne_nil_of_right_ne_nil _ (List.cons_ne_nil _ _)))
    · have hmem : d ∈ Base64.encode (user ++ 0x3A :: password) := hm ▸ List.mem_append_right m List.mem_cons_self
      have hd : isWhitespace d = false := isWhitespace_of_mem_encode hmem
      have hlast : ("Basic " ++ basicToken user password).toList = ("Basic ".toList ++ m) ++ [d] := by
        rw [htext, hm, List.append_assoc]
      exact trim_of_ends (c := 'B') htext hlast (by decide) hd
  have hpre : "Basic ".toList.isPrefixOf ("Basic ".toList ++ Base64.encode (user ++ 0x3A :: password)) = true :=
    List.isPrefixOf_iff_prefix.mpr (List.prefix_append _ _)
  simp only [verifyCredentials, htrim, htext, hpre, Bool.true_and, decide_eq_true_eq]
  rw [← String.toList_inj, hcreds]
  rfl

theorem token_of_proxyAuthorization {proxy : ProxyUrl} {creds : String}
    (h : proxyAuthorization proxy = .ok (some creds)) : ∃ user password, creds = basicToken user password := by
  unfold proxyAuthorization at h
  split at h
  · cases h
  · split at h
    · cases h
    · rename_i user huser
      split at h
      · cases h
      · rename_i password hpassword
        cases h
        exact ⟨user, password, rfl⟩

/-- A listener accepts a request exactly if it has the listener's token. -/
theorem accepted_iff {proxy : ProxyUrl} {token : String} :
    (∃ auth, proxyAuthorization proxy = .ok auth ∧
        verifyCredentials (some token) (auth.map ("Basic " ++ ·)) = true) ↔
      proxyAuthorization proxy = .ok (some token) := by
  refine ⟨fun ⟨auth, hauth, haccept⟩ => ?_, fun h => ⟨some token, h, ?_⟩⟩
  · cases auth with
    | none => cases haccept
    | some creds =>
      obtain ⟨user, password, rfl⟩ := token_of_proxyAuthorization hauth
      rw [← verifyCredentials_basic.mp haccept]
      exact hauth
  · obtain ⟨user, password, rfl⟩ := token_of_proxyAuthorization h
    exact verifyCredentials_basic.mpr rfl

/-- **Credentials are sent as given, and accepted**, exactly when the password
is not empty and neither text has an escape. -/
theorem proxyCredentials_sent_iff {urlParse : String → Option ProxyUrl} {proxy : String} {url : ProxyUrl}
    (hurl : urlParse (proxyText proxy) = some url) (hhost : url.hasHost = true)
    (huserinfo : url.username = [] ∧ url.password = none) (login password : String) (host : Host) (port : UInt16) :
    ∃ proxyUrl, mkHttpProxy urlParse (some proxy) (some login) (some password) = .ok (some proxyUrl) ∧
      (connectRequest proxyUrl host port =
          .ok (connectText host port (authorizationLine (authHeader (some (login, password))))) ↔
        SentAsGiven login password) ∧
      ((∃ auth, proxyAuthorization proxyUrl = .ok auth ∧
          verifyCredentials (authHeader (some (login, password))) (auth.map ("Basic " ++ ·)) = true) ↔
        SentAsGiven login password) := by
  have hne : (withCredentials url login password).host ≠ none := by
    intro hnone
    rw [ProxyUrl.hasHost, show url.host = none from hnone] at hhost
    cases hhost
  refine ⟨withCredentials url login password, mkHttpProxy_eq hurl hhost huserinfo.1, ?_, ?_⟩
  · rw [← proxyAuthorization_eq_iff url, authHeader_some]
    exact connectRequest_eq_iff hne
  · rw [← proxyAuthorization_eq_iff url, authHeader_some]
    exact accepted_iff

/-- The URL `http://proxy:3128`. -/
def plainProxy : ProxyUrl := ⟨some (.domain "proxy"), [], none⟩

theorem proxyCredentials_sent_colon :
    ∃ proxyUrl, mkHttpProxy (fun _ => some plainProxy) (some "proxy:3128") (some "admin") (some "p:w d") =
        .ok (some proxyUrl) ∧
      (connectRequest proxyUrl (.ipv4 0x01010101) 443 =
          .ok (connectText (.ipv4 0x01010101) 443 (authorizationLine (authHeader (some ("admin", "p:w d"))))) ↔
        SentAsGiven "admin" "p:w d") ∧
      ((∃ auth, proxyAuthorization proxyUrl = .ok auth ∧
          verifyCredentials (authHeader (some ("admin", "p:w d"))) (auth.map ("Basic " ++ ·)) = true) ↔
        SentAsGiven "admin" "p:w d") :=
  proxyCredentials_sent_iff rfl (by decide) ⟨rfl, rfl⟩ "admin" "p:w d" (.ipv4 0x01010101) 443

/-- The login `a%41` is sent as `aA`, and an empty password is not sent at
all: a listener with the pair refuses both. -/
theorem proxyCredentials_changed :
    ((mkHttpProxy (fun _ => some plainProxy) (some "proxy:3128") (some "a%41") (some "b")).bind
        (fun url => (url.elim (.ok none) proxyAuthorization)) = .ok (some "YUE6Yg==") ∧
      verifyCredentials (authHeader (some ("a%41", "b"))) (some "Basic YUE6Yg==") = false) ∧
    (mkHttpProxy (fun _ => some plainProxy) (some "proxy:3128") (some "admin") (some "")).bind
        (fun url => (url.elim (.ok none) proxyAuthorization)) = .ok none ∧
      verifyCredentials (authHeader (some ("admin", ""))) none = false := by
  decide +kernel

end Wstunnel.L3.ProxyAuth
