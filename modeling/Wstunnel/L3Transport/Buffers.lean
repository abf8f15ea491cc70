import Wstunnel.L3Transport.Datagrams

/-!
# The send buffers

The two writers recycle their buffer differently: the WebSocket writer clears
it, and grows it when the last read had filled it; the HTTP/2 writer splits
off what was read, and refills the rest when less than a packet is left. The
loop relies on a whole packet of room at its head.

**Third-party code.** `Cfg.ReserveSpec` is what is assumed of
`BytesMut::reserve` on an empty buffer; `clear` keeps the capacity, and `split`
leaves what was not used of it. How much `read_buf` reads and what fails is
left to the events.

**Results.**
* `exec_fill`, `exec_drain`: how the two buffers get more room, from any state
  at the head of the loop.
* `send_buffers_bounded`: at every head of the loop the buffer is empty and has
  room for a packet, so `Socks5UdpStream` never runs out of room, and the buffer
  of the WebSocket writer stays below 64 MiB, and with it every frame.
-/
namespace Wstunnel.L3.Link

/-- At least `n`, and at most the double of what there was. -/
def Cfg.ReserveSpec (cfg : Cfg) : Prop :=
  ∀ cap n, n ≤ cfg.reserve 0 cap n ∧ cfg.reserve 0 cap n ≤ max n (2 * cap)

/-- The largest message that the peer accepts. -/
def maxMessageSize : Nat := 64 * 1024 * 1024

variable (cfg : Cfg)

/-- The sender with all frames it has handed to the transport. -/
def sendStep (x : Sender × List Frame) (ev : SenderEv) : Option (Sender × List Frame) :=
  (senderStep cfg x.1 ev).map fun (s, frames) => (s, x.2 ++ frames)

def sending : LTS (Sender × List Frame) SenderEv := LTS.ofFn (· = (Sender.start cfg, [])) (sendStep cfg)

/-- A packet fits at any time; what was read fits too, and is gone at the head
of the loop. -/
structure BufOk (s : Sender) : Prop where
  packet : maxPacketLength ≤ s.buf.capacity
  fits : s.buf.content.length ≤ s.buf.capacity
  empty : s.pc = .select ∨ s.pc = .pendingOps ∨ s.pc = .ping → s.buf.content = []
  bound : cfg.kind = .websocket → s.buf.capacity < maxMessageSize

variable {cfg}

theorem bufOk_start : BufOk cfg (Sender.start cfg) := by
  refine ⟨?_, Nat.zero_le _, fun _ => rfl, fun hk => ?_⟩
  · unfold Sender.start
    cases cfg.kind <;> decide
  · simp only [Sender.start, hk]
    decide

/-- The loop goes on with its buffer as it was. -/
theorem BufOk.goOn {s s' : Sender} (h : BufOk cfg s) (hbuf : s'.buf = s.buf)
    (hempty : s'.pc = .select ∨ s'.pc = .pendingOps ∨ s'.pc = .ping → s.buf.content = []) : BufOk cfg s' :=
  ⟨hbuf ▸ h.packet, hbuf ▸ h.fits, hbuf ▸ hempty, hbuf ▸ h.bound⟩

/-- An empty buffer offers all of its capacity, and a read keeps it. -/
theorem Buf.room_of_empty {b : Buf} (hempty : b.content = []) (hcap : 0 < b.capacity) : b.room = b.capacity := by
  rw [Buf.room, hempty, List.length_nil, if_neg (Nat.not_le.mpr hcap), Nat.sub_zero]

theorem Buf.push_of_empty {b : Buf} (hempty : b.content = []) (hcap : 0 < b.capacity) (bytes : Bytes) :
    b.push cfg bytes = ⟨bytes, b.capacity⟩ := by
  rw [Buf.push, hempty, List.length_nil, if_neg (Nat.not_le.mpr hcap), List.nil_append]

theorem BufOk.capacity_pos {s : Sender} (h : BufOk cfg s) : 0 < s.buf.capacity :=
  Nat.lt_of_lt_of_le (by decide) h.packet

theorem BufOk.room_eq {s : Sender} (h : BufOk cfg s) (hp : s.pc = .select) : s.buf.room = s.buf.capacity :=
  Buf.room_of_empty (h.empty (.inl hp)) h.capacity_pos

/-- A read of at most the room leaves the capacity as it is. -/
theorem BufOk.read {s : Sender} (h : BufOk cfg s) (hp : s.pc = .select) {bytes : Bytes}
    (hlen : bytes.length ≤ s.buf.room) : BufOk cfg { s with buf := s.buf.push cfg bytes, pc := .write } := by
  have hpush : s.buf.push cfg bytes = ⟨bytes, s.buf.capacity⟩ :=
    Buf.push_of_empty (h.empty (.inl hp)) h.capacity_pos bytes
  rw [h.room_eq hp] at hlen
  refine ⟨?_, ?_, by simp, ?_⟩
  · simpa only [hpush] using h.packet
  · simpa only [hpush] using hlen
  · simpa only [hpush] using h.bound

/-- A buffer that was filled grows, by a factor of at most 2 and only below
32 MiB. -/
theorem BufOk.clearAndGrow {s : Sender} (h : BufOk cfg s) (hspec : cfg.ReserveSpec) :
    BufOk cfg { s with pc := .select, buf := s.buf.clearAndGrow cfg } := by
  have hp := h.packet
  obtain ⟨hle, hge⟩ := hspec s.buf.capacity (s.buf.capacity + s.buf.capacity / 4)
  refine ⟨?_, Nat.zero_le _, fun _ => rfl, fun hk => ?_⟩
  · simp only [Buf.clearAndGrow]
    split <;> omega
  · have hb := h.bound hk
    simp only [Buf.clearAndGrow]
    split
    · rename_i hfull
      simp only [maxBufferLength, maxMessageSize] at *
      omega
    · exact hb

theorem BufOk.splitAndGrow {s s' : Sender} (hspec : cfg.ReserveSpec) (hk : cfg.kind = .http2)
    (hbuf : s'.buf = s.buf.splitAndGrow cfg) : BufOk cfg s' := by
  refine ⟨?_, ?_, fun _ => by rw [hbuf]; rfl, fun hk' => ?_⟩
  · rw [hbuf]
    simp only [Buf.splitAndGrow]
    split
    · exact (hspec _ _).1
    · omega
  · rw [hbuf]
    exact Nat.zero_le _
  · rw [hk] at hk'
    cases hk'

theorem senderStep_bufOk (hspec : cfg.ReserveSpec) {s s' : Sender} {ev : SenderEv} {fs : List Frame}
    (h : BufOk cfg s) (hs : senderStep cfg s ev = some (s', fs)) : BufOk cfg s' := by
  cases move_of_senderStep cfg hs with
  | pending hp => exact h.goOn rfl fun _ => h.empty (.inl hp)
  | @read bytes hp =>
    simp only [senderStep, Option.ite_none_right_eq_some] at hs
    exact h.read hp hs.1.2.2
  | stop _ hp => exact h.goOn rfl fun _ => h.empty (.inl hp)
  | tick hp =>
    have hbuf : (pingTick cfg s).buf = s.buf := by
      unfold pingTick
      split
      · rfl
      · split <;> rfl
    exact h.goOn hbuf fun _ => h.empty (.inl hp)
  | @writeFrame ok sent masked hp =>
    simp only [senderStep, Option.ite_none_right_eq_some] at hs
    refine ⟨h.packet, hs.1.2.2 ▸ h.fits, ?_, h.bound⟩
    cases ok <;> simp
  | flushed _ => exact h.clearAndGrow hspec
  | flushErr _ => exact h.goOn rfl (by simp)
  | sendData _ hk => exact .splitAndGrow hspec hk rfl
  | @popOp ok hp =>
    have hbuf : (handleOp s ok).1.buf = s.buf := by
      unfold handleOp
      split <;> (try split) <;> rfl
    exact h.goOn hbuf fun _ => h.empty (.inr (.inl hp))
  | pingFrame hp => exact h.goOn rfl fun _ => h.empty (.inr (.inr hp))
  | closeFrame _ => exact h.goOn rfl (by simp)
  | queueOp | notify | requestClose => exact h.goOn rfl h.empty

/-- A frame carries what is in the buffer. -/
theorem payloads_senderStep {s s' : Sender} {ev : SenderEv} {fs : List Frame}
    (hs : senderStep cfg s ev = some (s', fs)) {payload : Bytes} (hmem : payload ∈ payloads fs) :
    payload = s.buf.content := by
  cases move_of_senderStep cfg hs with
  | writeFrame _ | sendData _ _ =>
    split at hmem
    · exact List.mem_singleton.mp hmem
    · cases hmem
  | @popOp ok _ =>
    unfold handleOp at hmem
    split at hmem
    · cases hmem
    · split at hmem <;> cases hmem
    · split at hmem <;> cases hmem
    · cases hmem
  | pingFrame _ => split at hmem <;> cases hmem
  | closeFrame _ => split at hmem <;> cases hmem
  | _ => cases hmem

theorem bufOk_inductive (hspec : cfg.ReserveSpec) : (sending cfg).Inductive fun x =>
    BufOk cfg x.1 ∧ (cfg.kind = .websocket → ∀ payload ∈ payloads x.2, payload.length < maxMessageSize) where
  init x hx := by
    cases (show x = _ from hx)
    exact ⟨bufOk_start, fun _ _ hmem => (nomatch hmem)⟩
  step x ev x' h hs := by
    obtain ⟨⟨s, fs⟩, hstep, rfl⟩ := Option.map_eq_some_iff.mp hs
    refine ⟨senderStep_bufOk hspec h.1 hstep, fun hk payload hmem => ?_⟩
    rw [payloads_append] at hmem
    rcases List.mem_append.mp hmem with hmem | hmem
    · exact h.2 hk payload hmem
    · rw [payloads_senderStep hstep hmem]
      exact Nat.lt_of_le_of_lt h.1.fits (h.1.bound hk)

/-- **Room for a packet, and no frame too large.** In every run of the loop,
with either writer, the buffer is empty at the head of the loop and has room
for 64 KiB, so no UDP datagram is too long for `Socks5UdpStream`; the buffer
of the WebSocket writer and the frames made from it stay below 64 MiB. -/
theorem send_buffers_bounded (cfg : Cfg) (hspec : cfg.ReserveSpec) (x : Sender × List Frame)
    (hr : (sending cfg).Reachable x) :
    (x.1.pc = .select → x.1.buf.content = [] ∧ maxPacketLength ≤ x.1.buf.room ∧
      ∀ datagram : Bytes, datagram.length < 2 ^ 16 →
        Source.socks5UdpStream.pollRead x.1.buf.room datagram = some datagram) ∧
    (cfg.kind = .websocket → x.1.buf.capacity < maxMessageSize ∧
      ∀ payload ∈ payloads x.2, payload.length < maxMessageSize) := by
  obtain ⟨h, hframes⟩ := (bufOk_inductive hspec).reachable x hr
  refine ⟨fun hp => ?_, fun hk => ⟨h.bound hk, hframes hk⟩⟩
  have hroom : maxPacketLength ≤ x.1.buf.room := by
    rw [h.room_eq hp]
    exact h.packet
  refine ⟨h.empty (.inl hp), hroom, fun datagram hlen => ?_⟩
  exact if_neg (Nat.not_lt.mpr (Nat.le_trans (Nat.le_of_lt hlen) hroom))

/-! ## Buffers that grow -/

section Grow

variable (cfg) {s : Sender} (hp : s.polls = true) (hempty : s.buf.content = []) (hcap : 0 < s.buf.capacity)
  {bytes : Bytes} (hbytes : bytes ≠ []) (sent : List Frame)

include hp hempty hcap hbytes in
theorem sendStep_read (hlen : bytes.length ≤ s.buf.capacity) :
    sendStep cfg (s, sent) (.read bytes) =
      some ({ s with buf := ⟨bytes, s.buf.capacity⟩, pc := .write }, sent) := by
  have hroom : bytes.length ≤ s.buf.room := Buf.room_of_empty hempty hcap ▸ hlen
  rw [sendStep, senderStep, if_pos ⟨hp, hbytes, hroom⟩, Buf.push_of_empty hempty hcap]
  simp only [Option.map_some, List.append_nil]

include hp hempty hcap hbytes in
/-- A read that fills the buffer of the WebSocket writer makes it grow. -/
theorem exec_fill (hk : cfg.kind = .websocket) (hlen : bytes.length = s.buf.capacity)
    (hmax : s.buf.capacity < maxBufferLength) :
    LTS.exec (sendStep cfg) (s, sent) [.read bytes, .writeFrame true true bytes, .flush true] =
      some ({ s with
        pc := .select
        buf := ⟨[], cfg.reserve 0 s.buf.capacity (s.buf.capacity + s.buf.capacity / 4)⟩ },
        sent ++ [.data bytes]) := by
  rw [LTS.exec, sendStep_read cfg hp hempty hcap hbytes sent (Nat.le_of_eq hlen), Option.bind_some]
  simp [LTS.exec, sendStep, senderStep, hk, Buf.clearAndGrow, hlen, hmax]

include hp hempty hcap hbytes in
/-- A read that leaves less than a packet makes the HTTP/2 writer refill its
buffer. -/
theorem exec_drain (hk : cfg.kind = .http2) (hlen : bytes.length ≤ s.buf.capacity)
    (hrest : s.buf.capacity - bytes.length < maxPacketLength) :
    LTS.exec (sendStep cfg) (s, sent) [.read bytes, .sendData true] =
      some ({ s with
        pc := .select
        buf := ⟨[], cfg.reserve 0 (s.buf.capacity - bytes.length) maxPacketLength⟩ },
        sent ++ [.data bytes]) := by
  rw [LTS.exec, sendStep_read cfg hp hempty hcap hbytes sent hlen, Option.bind_some]
  simp [LTS.exec, sendStep, senderStep, hk, Buf.splitAndGrow, hrest]

end Grow

/-- A WebSocket buffer that is filled and grows by a quarter, and an HTTP/2
buffer that is used up and refilled. -/
theorem send_buffers_bounded_grown :
    (∃ x, (sending ⟨.websocket, false, fun _ _ n => n⟩).Reachable x ∧ x.1.buf.capacity = 80 * 1024 ∧
      maxPacketLength ≤ x.1.buf.room ∧ ∀ payload ∈ payloads x.2, payload.length < maxMessageSize) ∧
    ∃ x, (sending ⟨.http2, false, fun _ _ n => n⟩).Reachable x ∧ x.1.buf.capacity = 64 * 1024 ∧
      maxPacketLength ≤ x.1.buf.room := by
  have hspec (kind : Kind) : Cfg.ReserveSpec ⟨kind, false, fun _ _ n => n⟩ := fun cap n =>
    ⟨Nat.le_refl n, Nat.le_max_left n (2 * cap)⟩
  have hbytes (n : Nat) : List.replicate (n + 1) (7 : UInt8) ≠ [] := List.cons_ne_nil _ _
  refine ⟨?_, ?_⟩
  · have hx := exec_fill ⟨.websocket, false, fun _ _ n => n⟩
      (s := Sender.start ⟨.websocket, false, fun _ _ n => n⟩) rfl rfl (by decide) (hbytes 65535) [] rfl
      List.length_replicate (by decide)
    have hr : (sending ⟨.websocket, false, fun _ _ n => n⟩).Reachable _ := ⟨_, _, rfl, LTS.run_ofFn.mpr hx⟩
    obtain ⟨hhead, hframes⟩ := send_buffers_bounded _ (hspec .websocket) _ hr
    exact ⟨_, hr, rfl, (hhead rfl).2.1, (hframes rfl).2⟩
  · have hx := exec_drain ⟨.http2, false, fun _ _ n => n⟩
      (s := Sender.start ⟨.http2, false, fun _ _ n => n⟩) rfl rfl (by decide) (hbytes 1300000) [] rfl
      (by rw [List.length_replicate]; decide) (by rw [List.length_replicate]; decide)
    have hr : (sending ⟨.http2, false, fun _ _ n => n⟩).Reachable _ := ⟨_, _, rfl, LTS.run_ofFn.mpr hx⟩
    exact ⟨_, hr, rfl, ((send_buffers_bounded _ (hspec .http2) _ hr).1 rfl).2.1⟩

end Wstunnel.L3.Link
