import Wstunnel.L3Transport.Link

/-!
# UDP datagrams through the WebSocket tunnel

The two loops of `Link` with a UDP source at one end and a UDP destination at
the other. The loops are written for byte streams: one `read_buf` takes one
datagram, a read of 0 bytes ends the loop, and `write_all` calls `poll_write`
until no bytes are left, where each call sends one datagram.

The three sources differ in what they do with a datagram that is longer than
the buffer's room: a socket cuts it, `Socks5UdpStream` fails. The three
destinations differ in what they put in front of the payload.

**Third-party code.** A UDP socket gives one datagram for each `recv`, cut to the
room, and sends one for each `send`; the transport between the loops is that of
`Link`. The header that `fast_socks5` puts in front of a payload is any bytes
(`Destination.socks5`). 65507 is the most that UDP over IPv4 carries.

**Results.**
* `datagrams_unchanged`: without I/O errors, timeouts and close signals, and
  with datagrams of 1 to 65507 bytes, the destination sends the datagrams of
  the source, one for one and in order, and both loops go on.
* `emptyDatagram_closes_tunnel`: an empty datagram ends the sender's loop.
-/
namespace Wstunnel.L3.Link

/-- `UdpStream`, `Socks5UdpStream` and `WsUdpSocket` as `local_rx`. -/
inductive Source where
  | udpStream | socks5UdpStream | wsUdpSocket
  deriving DecidableEq, Repr

/-- `poll_read` with the next datagram; `none` is an error.
mirrors wstunnel/src/protocols/udp/server.rs:205 and 316-320, and
wstunnel/src/protocols/socks5/udp_server.rs:198-208 -/
def Source.pollRead (source : Source) (room : Nat) (datagram : Bytes) : Option Bytes :=
  match source with
  | .udpStream | .wsUdpSocket => some (datagram.take room)
  | .socks5UdpStream => if room < datagram.length then none else some datagram

/-- What the loop makes of it.
mirrors wstunnel/src/tunnel/transport/io.rs:155-162 -/
def Source.readEv (source : Source) (room : Nat) (datagram : Bytes) : SenderEv :=
  match source.pollRead room datagram with
  | some [] | none => .readEnd
  | some bytes => .read bytes

/-- `UdpStreamWriter`, `WsUdpSocket` and `Socks5UdpStreamWriter` as `local_tx`. -/
inductive Destination where
  | udpStream | wsUdpSocket
  | socks5 (udpHeader : Bytes)
  deriving DecidableEq, Repr

/-- The datagram that carries a payload. -/
def Destination.datagram : Destination → Bytes → Bytes
  | .udpStream, payload | .wsUdpSocket, payload => payload
  | .socks5 udpHeader, payload => udpHeader ++ payload

/-- What `poll_write` returns when the datagram was sent.
mirrors wstunnel/src/protocols/udp/server.rs:227-229 and 324-326, and
wstunnel/src/protocols/socks5/udp_server.rs:216-222 -/
def Destination.written : Destination → Bytes → Nat
  | .udpStream, buf | .wsUdpSocket, buf => buf.length
  | .socks5 udpHeader, buf => (udpHeader ++ buf).length - udpHeader.length

/-- `source` are the datagrams that are not read yet, `sent` those that the
destination has sent. -/
structure UdpTunnel where
  source : List Bytes
  link : State
  sent : List Bytes
  deriving DecidableEq, Repr

inductive UdpEv where
  /-- `read_buf` with the next datagram -/
  | read
  /-- the next round of `write_all`, or its end -/
  | write
  /-- the loops by themselves -/
  | link (ev : Ev)
  deriving DecidableEq, Repr

/-- Reads and writes are those of the source and the destination. -/
def Ev.isOwn : Ev → Bool
  | .sender (.read _) | .deliver _ => false
  | _ => true

variable (cfg : Cfg) (source : Source) (destination : Destination)

/-- One round of `write_all`: a `poll_write` of 0 bytes is an error. -/
def UdpTunnel.write (s : UdpTunnel) (rest : Bytes) : Option UdpTunnel :=
  if rest = [] then (step cfg s.link (.deliver 0)).map fun link => { s with link }
  else
    let n := destination.written rest
    (step cfg s.link (if n = 0 then .deliverErr else .deliver n)).map fun link =>
      { s with link, sent := s.sent ++ [destination.datagram rest] }

def udpStep (s : UdpTunnel) : UdpEv → Option UdpTunnel
  | .read => match s.source with
    | [] => none
    | d :: ds => (step cfg s.link (.sender (source.readEv s.link.sender.buf.room d))).map fun link =>
        { s with source := ds, link }
  | .write => match s.link.receiver with
    | .writing rest => s.write cfg destination rest
    | _ => none
  | .link ev => if ev.isOwn then (step cfg s.link ev).map fun link => { s with link } else none

def udpTunnel (datagrams : List Bytes) : LTS UdpTunnel UdpEv :=
  LTS.ofFn (· = ⟨datagrams, start cfg, []⟩) (udpStep cfg source destination)

/-! ## Without errors, timeouts and close signals -/

/-- The steps of the sender that are not an error, the end of the source, the
ping timeout or a close. -/
def SenderEv.calm (s : Sender) : SenderEv → Bool
  | .pending | .read _ | .notify => true
  | .tick => s.inFlightPing < 3
  | .writeFrame ok _ _ | .flush ok | .popOp ok | .pingFrame ok => ok
  | .queueOp op => op ≠ .close
  | .readEnd | .closed | .sendData _ | .closeFrame _ | .requestClose => false

def calm (s : UdpTunnel) : UdpEv → Bool
  | .read | .write => true
  | .link (.sender ev) => ev.calm s.link.sender
  | .link (.opSent ok) => ok
  | .link .recv => true
  | .link _ => false

/-- Both loops go on. -/
def UdpTunnel.Open (s : UdpTunnel) : Prop :=
  s.link.sender.pc ≠ .close ∧ s.link.sender.pc ≠ .ended ∧ s.link.receiver ≠ .ended

/-! ## Between the source and the destination -/

/-- The datagram in the sender's buffer. -/
def inBuffer (s : Sender) : List Bytes := if s.pc = .write then [s.buf.content] else []

/-- The datagram in the receiver's hands. -/
def ReceiverPc.inHand : ReceiverPc → List Bytes
  | .writing rest => [rest]
  | .copying | .sendingOp _ | .ended => []

/-- Every datagram that was not sent yet, in order. -/
def UdpTunnel.underway (s : UdpTunnel) : List Bytes :=
  s.link.receiver.inHand ++ payloads s.link.wire ++ inBuffer s.link.sender ++ s.source

/-- 1 to 65507 bytes. -/
def Sized (d : Bytes) : Prop := d ≠ [] ∧ d.length ≤ 65507

/-- The sender without an error: its buffer keeps its capacity, since no
datagram fills it. -/
structure SenderOk (s : Sender) : Prop where
  goesOn : s.pc ≠ .close ∧ s.pc ≠ .ended
  capacity : s.buf.capacity = maxPacketLength
  short : s.buf.content.length < maxPacketLength
  noClose : Op.close ∉ s.ops
  owes : ∃ failed, Owes s failed (inBuffer s)

variable {cfg source destination}

theorem Owes.eq_inBuffer {s : Sender} {failed : Bool} {owed : List Bytes} (h : Owes s failed owed)
    (hgo : s.pc ≠ .close ∧ s.pc ≠ .ended) : owed = inBuffer s := by
  unfold Owes at h
  unfold inBuffer
  split at h <;> rename_i hpc
  · rw [h.1, hpc, if_neg (by simp)]
  · rw [h.1, hpc, if_neg (by simp)]
  · rw [h.1, hpc, if_neg (by simp)]
  · rw [h, if_pos hpc]
  · rw [h, hpc, if_neg (by simp)]
  · exact absurd hpc hgo.1
  · exact absurd hpc hgo.2

theorem SenderOk.empty {s : Sender} (h : SenderOk s) (hp : s.pc = .select) : s.buf.content = [] := by
  obtain ⟨failed, howes⟩ := h.owes
  exact (howes.of_between (.inl hp)).2

/-- A pending operation that is not a close is answered, or counted. -/
theorem handleOp_calm {s s' : Sender} {fs : List Frame} (hp : s.pc = .pendingOps)
    (hops : Op.close ∉ s.ops) (hs : handleOp s true = (s', fs)) :
    (s'.pc = .pendingOps ∨ s'.pc = .select) ∧ s'.buf = s.buf ∧ Op.close ∉ s'.ops ∧ Frame.close ∉ fs := by
  unfold handleOp at hs
  split at hs
  · cases hs
    exact ⟨.inr rfl, rfl, hops, List.not_mem_nil⟩
  · rename_i hop
    rw [hop] at hops
    exact absurd List.mem_cons_self hops
  · rename_i hop
    rw [hop] at hops
    cases hs
    exact ⟨.inl hp, rfl, fun h => hops (List.mem_cons_of_mem _ h), by simp⟩
  · rename_i hop
    rw [hop] at hops
    cases hs
    exact ⟨.inl hp, rfl, fun h => hops (List.mem_cons_of_mem _ h), List.not_mem_nil⟩

/-- What a calm step keeps of the sender, besides what it owes. -/
structure CalmStep (s' : Sender) (fs : List Frame) : Prop where
  goesOn : s'.pc ≠ .close ∧ s'.pc ≠ .ended
  capacity : s'.buf.capacity = maxPacketLength
  short : s'.buf.content.length < maxPacketLength
  noClose : Op.close ∉ s'.ops
  frames : Frame.close ∉ fs

theorem calmStep {s s' : Sender} {ev : SenderEv} {fs : List Frame} (hk : cfg.kind = .websocket)
    (h : SenderOk s) (hs : senderStep cfg s ev = some (s', fs)) (hcalm : ev.calm s = true)
    (hread : ∀ bytes ∈ ev.readBytes, bytes.length < maxPacketLength) : CalmStep s' fs := by
  cases move_of_senderStep cfg hs with
  | pending => exact ⟨⟨by simp, by simp⟩, h.capacity, h.short, h.noClose, List.not_mem_nil⟩
  | @read bytes hp =>
    refine ⟨⟨by simp, by simp⟩, ?_, ?_, h.noClose, List.not_mem_nil⟩
    · have hroom : ¬ s.buf.capacity ≤ s.buf.content.length := by
        rw [h.capacity]
        exact Nat.not_le.mpr h.short
      rw [Buf.push, if_neg hroom]
      exact h.capacity
    · simp only [Buf.push, h.empty hp, List.nil_append]
      exact hread bytes (List.mem_singleton.mpr rfl)
  | stop hev => rcases hev with rfl | rfl <;> cases hcalm
  | tick hp =>
    have hping : ¬ 3 ≤ s.inFlightPing := Nat.not_le.mpr (of_decide_eq_true hcalm)
    simp only [pingTick, hk, if_neg hping]
    exact ⟨⟨by simp, by simp⟩, h.capacity, h.short, h.noClose, List.not_mem_nil⟩
  | @writeFrame ok sent masked hp =>
    cases (show ok = true from hcalm)
    simp only [senderStep, Option.ite_none_right_eq_some] at hs
    refine ⟨⟨by simp, by simp⟩, h.capacity, ?_, h.noClose, by simp⟩
    rw [hs.1.2.2]
    exact h.short
  | flushed =>
    refine ⟨⟨by simp, by simp⟩, ?_, by simp [Buf.clearAndGrow, maxPacketLength], h.noClose, List.not_mem_nil⟩
    have hfull : ¬ (s.buf.capacity = s.buf.content.length ∧ s.buf.capacity < maxBufferLength) := by
      intro hfull
      exact Nat.ne_of_gt h.short (h.capacity.symm.trans hfull.1)
    rw [Buf.clearAndGrow, if_neg hfull]
    exact h.capacity
  | flushErr => cases hcalm
  | sendData => cases hcalm
  | @popOp ok hp =>
    cases (show ok = true from hcalm)
    obtain ⟨hpc, hbuf, hops, hfs⟩ := handleOp_calm hp h.noClose (Prod.eta (handleOp s true)).symm
    refine ⟨?_, hbuf ▸ h.capacity, hbuf ▸ h.short, hops, hfs⟩
    rcases hpc with hpc | hpc <;> rw [hpc] <;> exact ⟨by simp, by simp⟩
  | @pingFrame ok =>
    cases (show ok = true from hcalm)
    exact ⟨⟨by simp, by simp⟩, h.capacity, h.short, h.noClose, by simp⟩
  | closeFrame => cases hcalm
  | @queueOp op =>
    refine ⟨h.goesOn, h.capacity, h.short, fun hmem => ?_, List.not_mem_nil⟩
    rcases List.mem_append.mp hmem with hmem | hmem
    · exact h.noClose hmem
    · exact (of_decide_eq_true hcalm) (List.mem_singleton.mp hmem).symm
  | notify => exact ⟨h.goesOn, h.capacity, h.short, h.noClose, List.not_mem_nil⟩
  | requestClose => cases hcalm

/-- A calm step of the sender moves datagrams on and loses none. -/
theorem senderOk_step {s s' : Sender} {ev : SenderEv} {fs : List Frame} (hk : cfg.kind = .websocket)
    (h : SenderOk s) (hs : senderStep cfg s ev = some (s', fs)) (hcalm : ev.calm s = true)
    (hread : ∀ bytes ∈ ev.readBytes, bytes.length < maxPacketLength) :
    SenderOk s' ∧ Frame.close ∉ fs ∧ payloads fs ++ inBuffer s' = inBuffer s ++ ev.readBytes := by
  obtain ⟨hgo, hcap, hshort, hops, hfs⟩ := calmStep hk h hs hcalm hread
  obtain ⟨failed, howes⟩ := h.owes
  obtain ⟨owed, howes', hpaid⟩ := senderStep_owes hs howes
  obtain rfl := howes'.eq_inBuffer hgo
  exact ⟨⟨hgo, hcap, hshort, hops, _, howes'⟩, hfs, hpaid.symm⟩

/-- `datagrams` are those sent and those underway, and both loops go on. -/
structure UdpInv (destination : Destination) (datagrams : List Bytes) (s : UdpTunnel) : Prop where
  sender : SenderOk s.link.sender
  noCloseFrame : Frame.close ∉ s.link.wire
  receiver : s.link.receiver ≠ .ended ∧ s.link.receiver ≠ .sendingOp .close
  sized : ∀ d ∈ s.underway, Sized d
  flow : datagrams.map destination.datagram = s.sent ++ s.underway.map destination.datagram

variable {datagrams : List Bytes}

theorem senderOk_start (hk : cfg.kind = .websocket) : SenderOk (Sender.start cfg) where
  goesOn := ⟨by simp [Sender.start], by simp [Sender.start]⟩
  capacity := by simp [Sender.start, hk]
  short := show 0 < maxPacketLength by decide
  noClose := List.not_mem_nil
  owes := ⟨false, rfl, rfl⟩

theorem udpInv_start (hk : cfg.kind = .websocket) (hsized : ∀ d ∈ datagrams, Sized d) :
    UdpInv destination datagrams ⟨datagrams, start cfg, []⟩ :=
  ⟨senderOk_start hk, List.not_mem_nil, ⟨by simp [start], by simp [start]⟩, hsized, rfl⟩

/-- Nothing is sent, and what is underway moves on. -/
theorem UdpInv.moved {s s' : UdpTunnel} (h : UdpInv destination datagrams s)
    (hsender : SenderOk s'.link.sender) (hclose : Frame.close ∉ s'.link.wire)
    (hreceiver : s'.link.receiver ≠ .ended ∧ s'.link.receiver ≠ .sendingOp .close)
    (hunderway : s'.underway = s.underway) (hsent : s'.sent = s.sent) :
    UdpInv destination datagrams s' := by
  refine ⟨hsender, hclose, hreceiver, ?_, ?_⟩
  · rw [hunderway]
    exact h.sized
  · rw [hunderway, hsent]
    exact h.flow

/-- The sender takes a step, with or without a read from the source. -/
theorem UdpInv.senderStep {s : UdpTunnel} (h : UdpInv destination datagrams s)
    (hk : cfg.kind = .websocket) {ev : SenderEv} (hcalm : ev.calm s.link.sender = true)
    {rest : List Bytes} (hsource : s.source = ev.readBytes ++ rest) {link : State}
    (hs : step cfg s.link (.sender ev) = some link) :
    UdpInv destination datagrams { s with source := rest, link } := by
  have hread : ∀ bytes ∈ ev.readBytes, bytes.length < maxPacketLength := by
    intro bytes hb
    have hsized := h.sized bytes (by simp [UdpTunnel.underway, hsource, hb])
    exact Nat.lt_of_le_of_lt hsized.2 (by decide)
  simp only [step] at hs
  split at hs
  · cases hs
  · rename_i sender frames hstep
    cases hs
    obtain ⟨hok, hframes, hpaid⟩ := senderOk_step hk h.sender hstep hcalm hread
    refine h.moved hok ?_ h.receiver ?_ rfl
    · simp only [List.mem_append, not_or]
      exact ⟨h.noCloseFrame, hframes⟩
    · calc s.link.receiver.inHand ++ payloads (s.link.wire ++ frames) ++ inBuffer sender ++ rest
          = s.link.receiver.inHand ++ payloads s.link.wire ++ (payloads frames ++ inBuffer sender) ++ rest := by
            simp only [payloads_append, List.append_assoc]
        _ = s.underway := by
            rw [hpaid, UdpTunnel.underway, hsource]
            simp only [List.append_assoc]

/-- A datagram that fits is read whole. -/
theorem readEv_of_sized {room : Nat} {d : Bytes} (hd : Sized d) (hroom : d.length ≤ room) :
    source.readEv room d = .read d := by
  have hpoll : source.pollRead room d = some d := by
    cases source with
    | udpStream | wsUdpSocket => exact congrArg some (List.take_of_length_le hroom)
    | socks5UdpStream => exact if_neg (Nat.not_lt.mpr hroom)
  cases d with
  | nil => exact absurd rfl hd.1
  | cons b d => simp only [Source.readEv, hpoll]

/-- Between two writes the whole buffer is room. -/
theorem SenderOk.room {s : Sender} (h : SenderOk s) (hp : s.pc = .select) :
    s.buf.room = maxPacketLength := by
  rw [Buf.room, h.empty hp, h.capacity]
  rfl

theorem readEv_cases (source : Source) (room : Nat) (d : Bytes) :
    source.readEv room d = .readEnd ∨ ∃ bytes, source.readEv room d = .read bytes := by
  unfold Source.readEv
  split
  · exact .inl rfl
  · exact .inl rfl
  · exact .inr ⟨_, rfl⟩

/-- The loop reads only while it waits in `select!`. -/
theorem select_of_read {s s' : Sender} {fs : List Frame} {room : Nat} {d : Bytes}
    (hs : senderStep cfg s (source.readEv room d) = some (s', fs)) : s.pc = .select := by
  rcases readEv_cases source room d with hev | ⟨bytes, hev⟩
  · rw [hev] at hs
    cases move_of_senderStep cfg hs with
    | stop _ hp => exact hp
  · rw [hev] at hs
    cases move_of_senderStep cfg hs with
    | read hp => exact hp
    | stop hev => simp at hev

theorem Sized.le_room {d : Bytes} (hd : Sized d) : d.length ≤ maxPacketLength :=
  Nat.le_trans hd.2 (by decide)

theorem UdpInv.read {s s' : UdpTunnel} (h : UdpInv destination datagrams s) (hk : cfg.kind = .websocket)
    (hs : udpStep cfg source destination s .read = some s') : UdpInv destination datagrams s' := by
  simp only [udpStep] at hs
  split at hs
  · cases hs
  · rename_i d ds hsource
    obtain ⟨link, hlink, rfl⟩ := Option.map_eq_some_iff.mp hs
    have hp : s.link.sender.pc = .select := by
      simp only [step] at hlink
      split at hlink
      · cases hlink
      · rename_i hstep
        exact select_of_read hstep
    have hd : Sized d := h.sized d (by simp [UdpTunnel.underway, hsource])
    rw [readEv_of_sized hd (h.sender.room hp ▸ hd.le_room)] at hlink
    exact h.senderStep hk rfl hsource hlink

theorem Destination.written_eq (payload : Bytes) : destination.written payload = payload.length := by
  cases destination with
  | udpStream | wsUdpSocket => rfl
  | socks5 udpHeader =>
    rw [Destination.written, List.length_append]
    exact Nat.add_sub_cancel_left ..

/-- The datagram in hand goes out in one `poll_write`. -/
theorem write_of_sized {s : UdpTunnel} {rest : Bytes} (hr : s.link.receiver = .writing rest)
    (hrest : Sized rest) : s.write cfg destination rest = some { s with
      link := { s.link with delivered := s.link.delivered ++ rest, receiver := .copying }
      sent := s.sent ++ [destination.datagram rest] } := by
  have hn : ¬ rest.length = 0 := fun h0 => hrest.1 (List.length_eq_zero_iff.mp h0)
  simp only [UdpTunnel.write, if_neg hrest.1, Destination.written_eq, if_neg hn, step, hr,
    Nat.le_refl, if_true, List.take_length, Option.map_some]

theorem UdpInv.write {s s' : UdpTunnel} (h : UdpInv destination datagrams s)
    (hs : udpStep cfg source destination s .write = some s') : UdpInv destination datagrams s' := by
  simp only [udpStep] at hs
  split at hs
  · rename_i rest hr
    have hunderway : s.underway = rest :: (payloads s.link.wire ++ inBuffer s.link.sender ++ s.source) := by
      simp [UdpTunnel.underway, hr, ReceiverPc.inHand]
    have hrest : Sized rest := h.sized rest (by simp [hunderway])
    rw [write_of_sized hr hrest] at hs
    cases hs
    refine ⟨h.sender, h.noCloseFrame, ⟨by simp, by simp⟩, fun d hd => h.sized d ?_, ?_⟩
    · rw [hunderway]
      exact List.mem_cons_of_mem _ hd
    · rw [h.flow, hunderway]
      simp [UdpTunnel.underway, ReceiverPc.inHand]
  · cases hs

theorem UdpInv.recv {s : UdpTunnel} (h : UdpInv destination datagrams s) (hk : cfg.kind = .websocket)
    {link : State} (hs : step cfg s.link .recv = some link) :
    UdpInv destination datagrams { s with link } := by
  simp only [step] at hs
  split at hs
  · rename_i f fs hr hw
    cases hs
    have hclose := h.noCloseFrame
    rw [hw, List.mem_cons, not_or] at hclose
    refine h.moved h.sender hclose.2 ?_ ?_ rfl
    · cases f with
      | close => exact absurd rfl hclose.1
      | _ => simp [receive, hk]
    · cases f with
      | close => exact absurd rfl hclose.1
      | _ => simp [UdpTunnel.underway, hr, hw, receive, hk, ReceiverPc.inHand, payloads]
  · cases hs

theorem UdpInv.opSent {s : UdpTunnel} (h : UdpInv destination datagrams s) {link : State}
    (hs : step cfg s.link (.opSent true) = some link) :
    UdpInv destination datagrams { s with link } := by
  simp only [step] at hs
  split at hs
  · rename_i op hr
    cases hs
    have hop : afterOp op true = .copying := by
      cases op with
      | close => exact absurd hr h.receiver.2
      | _ => rfl
    refine h.moved h.sender h.noCloseFrame ?_ ?_ rfl
    · rw [hop]
      exact ⟨by simp, by simp⟩
    · simp [UdpTunnel.underway, hr, hop, ReceiverPc.inHand]
  · cases hs

theorem udpInv_inductive (hk : cfg.kind = .websocket) (hsized : ∀ d ∈ datagrams, Sized d) :
    ((udpTunnel cfg source destination datagrams).guard fun s ev => calm s ev = true).Inductive
      (UdpInv destination datagrams) where
  init s hs := by
    subst hs
    exact udpInv_start hk hsized
  step s ev s' h hs := by
    obtain ⟨hs, hcalm⟩ := hs
    cases ev with
    | read => exact h.read hk hs
    | write => exact h.write hs
    | link ev =>
      simp only [udpTunnel, LTS.ofFn, udpStep, Option.ite_none_right_eq_some] at hs
      obtain ⟨hown, hs⟩ := hs
      obtain ⟨link, hlink, rfl⟩ := Option.map_eq_some_iff.mp hs
      cases ev with
      | sender ev =>
        refine h.senderStep hk hcalm ?_ hlink
        cases ev with
        | read bytes => cases hown
        | _ => rfl
      | recv => exact h.recv hk hlink
      | opSent ok =>
        cases (show ok = true from hcalm)
        exact h.opSent hlink
      | _ => cases hcalm

/-! ## The loops get the datagrams through -/

def Pc.rank : Pc → Nat
  | .select | .close | .ended => 0
  | .flush | .pendingOps => 1
  | .ping => 3
  | .write => 4

/-- The work left for the sender; a frame it hands over counts 2. -/
def Sender.rank (s : Sender) : Nat := s.pc.rank + (if s.notified then 2 else 0) + 3 * s.ops.length

def ReceiverPc.rank : ReceiverPc → Nat
  | .writing _ | .sendingOp _ => 1
  | .copying | .ended => 0

/-- The work left for both loops. -/
def UdpTunnel.rank (s : UdpTunnel) : Nat :=
  6 * s.source.length + s.link.sender.rank + 2 * s.link.wire.length + s.link.receiver.rank

/-- The sender comes back to where it reads. -/
theorem SenderOk.progress {s : Sender} (hk : cfg.kind = .websocket) (h : SenderOk s)
    (hbusy : s.polls = false) : ∃ ev s' fs, Link.senderStep cfg s ev = some (s', fs) ∧
      ev.calm s = true ∧ (Ev.sender ev).isOwn = true ∧ s'.rank + 2 * fs.length < s.rank := by
  cases hp : s.pc with
  | select =>
    have hn : s.notified = true := by simpa [Sender.polls, hp] using hbusy
    refine ⟨.pending, _, _, if_pos ⟨hp, hn⟩, rfl, rfl, ?_⟩
    simp only [Sender.rank, hp, hn, Pc.rank, List.length_nil, if_true, Bool.false_eq_true, if_false]
    omega
  | write =>
    refine ⟨.writeFrame true false s.buf.content, _, _, if_pos ⟨hp, hk, rfl⟩, rfl, rfl, ?_⟩
    simp only [Sender.rank, hp, Pc.rank, true_or, if_true, List.length_singleton]
    omega
  | flush =>
    refine ⟨.flush true, _, _, if_pos hp, rfl, rfl, ?_⟩
    simp only [Sender.rank, hp, Pc.rank, List.length_nil]
    omega
  | pendingOps =>
    refine ⟨.popOp true, (handleOp s true).1, (handleOp s true).2, if_pos hp, rfl, rfl, ?_⟩
    cases hops : s.ops with
    | nil =>
      simp only [handleOp, hops, Sender.rank, hp, Pc.rank, List.length_nil]
      omega
    | cons op ops =>
      cases op with
      | close => exact absurd (hops ▸ List.mem_cons_self) h.noClose
      | ping payload =>
        simp only [handleOp, hops, Sender.rank, hp, Pc.rank, List.length_cons, List.length_nil, if_true]
        omega
      | pong =>
        simp only [handleOp, hops, Sender.rank, hp, Pc.rank, List.length_cons, List.length_nil]
        omega
  | ping =>
    refine ⟨.pingFrame true, _, _, if_pos hp, rfl, rfl, ?_⟩
    simp only [Sender.rank, hp, Pc.rank, if_true, List.length_singleton]
    omega
  | close => exact absurd hp h.goesOn.1
  | ended => exact absurd hp h.goesOn.2

/-- The next datagram can be read. -/
theorem SenderOk.canRead {s : Sender} (h : SenderOk s) (hpolls : s.polls = true) {d : Bytes}
    (hd : Sized d) : Link.senderStep cfg s (.read d) =
      some ({ s with buf := s.buf.push cfg d, pc := .write }, []) := by
  have hroom : d.length ≤ s.buf.room := h.room (pc_of_polls hpolls) ▸ hd.le_room
  exact if_pos ⟨hpolls, hd.1, hroom⟩

theorem step_sender {s : State} {ev : SenderEv} {sender : Sender} {fs : List Frame}
    (hs : senderStep cfg s.sender ev = some (sender, fs)) : ∃ link, step cfg s (.sender ev) = some link ∧
      link.sender = sender ∧ link.wire = s.wire ++ fs ∧ link.receiver = s.receiver := by
  simp only [step, hs]
  exact ⟨_, rfl, rfl, rfl, rfl⟩

/-- While datagrams are underway some loop can take a step, with less work
left after it. -/
theorem UdpInv.progress {s : UdpTunnel} (h : UdpInv destination datagrams s) (hk : cfg.kind = .websocket)
    (hwork : s.underway ≠ []) : ∃ ev s', udpStep cfg source destination s ev = some s' ∧
      calm s ev = true ∧ s'.rank < s.rank := by
  cases hr : s.link.receiver with
  | writing rest =>
    have hrest : Sized rest := h.sized rest (by simp [UdpTunnel.underway, hr, ReceiverPc.inHand])
    have hs : udpStep cfg source destination s .write = s.write cfg destination rest := by
      simp only [udpStep, hr]
    refine ⟨.write, _, hs.trans (write_of_sized hr hrest), rfl, ?_⟩
    simp [UdpTunnel.rank, hr, ReceiverPc.rank]
  | sendingOp op =>
    refine ⟨.link (.opSent true), { s with link := { s.link with receiver := afterOp op true } }, ?_, rfl, ?_⟩
    · simp [udpStep, Ev.isOwn, step, hr]
    · cases op <;> simp [UdpTunnel.rank, hr, afterOp, ReceiverPc.rank]
  | ended => exact absurd hr h.receiver.1
  | copying =>
    cases hw : s.link.wire with
    | cons f fs =>
      refine ⟨.link .recv, { s with link := { s.link with receiver := receive cfg.kind f, wire := fs } },
        ?_, rfl, ?_⟩
      · simp [udpStep, Ev.isOwn, step, hr, hw]
      · have hrank : (receive cfg.kind f).rank ≤ 1 := by cases f <;> simp [receive, hk, ReceiverPc.rank]
        simp only [UdpTunnel.rank, hr, hw, List.length_cons]
        omega
    | nil =>
      cases hpolls : s.link.sender.polls with
      | false =>
        obtain ⟨ev, sender, fs, hs, hcalm, hown, hrank⟩ := h.sender.progress hk hpolls
        obtain ⟨link, hlink, hsender, hwire, hreceiver⟩ := step_sender hs
        refine ⟨.link (.sender ev), { s with link }, ?_, hcalm, ?_⟩
        · simp only [udpStep, hown, if_true, hlink, Option.map_some]
        · simp only [UdpTunnel.rank, hsender, hwire, hreceiver, List.length_append]
          omega
      | true =>
        have hp := pc_of_polls hpolls
        cases hsource : s.source with
        | nil => simp [UdpTunnel.underway, hr, hw, hsource, ReceiverPc.inHand, payloads, inBuffer, hp] at hwork
        | cons d ds =>
          have hd : Sized d := h.sized d (by simp [UdpTunnel.underway, hsource])
          obtain ⟨link, hlink, hsender, hwire, hreceiver⟩ := step_sender (h.sender.canRead hpolls hd)
          refine ⟨.read, { s with source := ds, link }, ?_, rfl, ?_⟩
          · simp only [udpStep, hsource]
            rw [readEv_of_sized hd (h.sender.room hp ▸ hd.le_room), hlink, Option.map_some]
          · simp only [UdpTunnel.rank, hsender, hwire, hreceiver, hsource, Sender.rank, hp, Pc.rank,
              List.length_append, List.length_cons, List.length_nil]
            omega

theorem UdpInv.drains (hk : cfg.kind = .websocket) (hsized : ∀ d ∈ datagrams, Sized d) {s : UdpTunnel}
    (h : UdpInv destination datagrams s) : ∃ evs s',
      ((udpTunnel cfg source destination datagrams).guard fun s ev => calm s ev = true).Run s evs s' ∧
        s'.underway = [] := by
  refine (udpInv_inductive hk hsized).exists_run (μ := UdpTunnel.rank) (fun s h hwork => ?_) h
  obtain ⟨ev, s', hs, hcalm, hlt⟩ := h.progress hk hwork
  exact ⟨ev, s', ⟨hs, hcalm⟩, hlt⟩

theorem UdpInv.open {s : UdpTunnel} (h : UdpInv destination datagrams s) : s.Open :=
  ⟨h.sender.goesOn.1, h.sender.goesOn.2, h.receiver.1⟩

/-- **Datagrams cross unchanged.** From each of the three sources to each of
the three destinations, with datagrams of 1 to 65507 bytes and without I/O
errors, timeouts and close signals: at every point of every run both loops go
on, and the datagrams of the source are those sent, in order and one for one,
followed by those underway; and the loops can always get all of them sent. -/
theorem datagrams_unchanged (cfg : Cfg) (hk : cfg.kind = .websocket) (source : Source)
    (destination : Destination) (datagrams : List Bytes) (hne : ∀ d ∈ datagrams, d ≠ [])
    (hlen : ∀ d ∈ datagrams, d.length ≤ 65507) (s : UdpTunnel)
    (hr : ((udpTunnel cfg source destination datagrams).guard
      fun s ev => calm s ev = true).Reachable s) :
    s.Open ∧ datagrams.map destination.datagram = s.sent ++ s.underway.map destination.datagram ∧
      ∃ evs s', ((udpTunnel cfg source destination datagrams).guard
        fun s ev => calm s ev = true).Run s evs s' ∧ s'.Open ∧
          s'.sent = datagrams.map destination.datagram := by
  have hsized : ∀ d ∈ datagrams, Sized d := fun d hd => ⟨hne d hd, hlen d hd⟩
  have hind : ((udpTunnel cfg source destination datagrams).guard
      fun s ev => calm s ev = true).Inductive (UdpInv destination datagrams) :=
    udpInv_inductive hk hsized
  have h := hind.reachable s hr
  obtain ⟨evs, s', hrun, hdone⟩ := h.drains hk hsized
  have h' := hind.run h hrun
  refine ⟨h.open, h.flow, evs, s', hrun, h'.open, ?_⟩
  have hflow := h'.flow
  rw [hdone, List.map_nil, List.append_nil] at hflow
  exact hflow.symm

/-- The first of two datagrams is on the wire, the second in the buffer. -/
def oneUnderway : List UdpEv :=
  [.read, .link (.sender (.writeFrame true false [7])), .link (.sender (.flush true)), .read]

theorem datagrams_unchanged_oneUnderway : ∃ s,
    ((udpTunnel plainCfg .udpStream (.socks5 [0, 0, 0, 1]) [[1], [2, 3]]).guard
      fun s ev => calm s ev = true).Reachable s ∧ s.underway = [[1], [2, 3]] ∧ s.Open ∧
    ∃ evs s', ((udpTunnel plainCfg .udpStream (.socks5 [0, 0, 0, 1]) [[1], [2, 3]]).guard
      fun s ev => calm s ev = true).Run s evs s' ∧
        s'.sent = [[0, 0, 0, 1, 1], [0, 0, 0, 1, 2, 3]] := by
  obtain ⟨s, hs, hunderway⟩ : ∃ s, LTS.exec (fun s ev => if calm s ev = true then
      udpStep plainCfg .udpStream (.socks5 [0, 0, 0, 1]) s ev else none)
      ⟨[[1], [2, 3]], start plainCfg, []⟩ oneUnderway = some s ∧ s.underway = [[1], [2, 3]] :=
    ⟨_, rfl, rfl⟩
  have hr : ((udpTunnel plainCfg .udpStream (.socks5 [0, 0, 0, 1]) [[1], [2, 3]]).guard
      fun s ev => calm s ev = true).Reachable s := ⟨_, _, rfl, LTS.run_guard_ofFn hs⟩
  obtain ⟨hopen, -, evs, s', hrun, -, hsent⟩ :=
    datagrams_unchanged plainCfg rfl _ _ _ (by decide) (by decide) s hr
  exact ⟨s, hr, hunderway, hopen, evs, s', hrun, hsent⟩

theorem read_empty (source : Source) (destination : Destination) (ds : List Bytes) :
    udpStep plainCfg source destination ⟨[] :: ds, start plainCfg, []⟩ .read =
      some ⟨ds, { start plainCfg with sender := { (start plainCfg).sender with pc := .close } }, []⟩ := by
  cases source <;> rfl

/-- An empty datagram: the sender's loop takes it for the end of the source
and goes to its close; the datagram is gone and the one after it is not read. -/
theorem emptyDatagram_closes_tunnel : ∃ s,
    ((udpTunnel plainCfg .udpStream .wsUdpSocket [[], [1]]).guard
      fun s ev => calm s ev = true).Reachable s ∧
    ¬ s.Open ∧ s.sent = [] ∧ s.underway = [[1]] :=
  ⟨_, ⟨_, [.read], rfl, .single ⟨read_empty .udpStream .wsUdpSocket [[1]], rfl⟩⟩, fun h => h.1 rfl, rfl, rfl⟩

end Wstunnel.L3.Link
