import Mathlib.Algebra.Order.Ring.Nat
import Vlink.Derp.Client
import Vlink.Lib.Post

set_option autoImplicit false

/-!
# Packets through a DERP server

After their logins, clients send packets to each other through a DERP server.
`TailscleDerpOutboundSender::send` puts a `SendPacket` in the channel of the connection; a task of
`async_connect` takes requests from the channel, encodes them and writes them; the loop of
`connect_derp_server` decodes what the server sends, and passes each packet on to the device with a
sender for the key that it came from.

At the level of packets this is a post office (`Vlink.Post`): whatever the order in which clients
and server go on, and however the streams are cut into pieces, the packets that a client passes on
are packets that were sent to it, in the order in which they were sent.

## Main definitions

* `Vlink.Derp.Station`, `Vlink.Derp.Hub` — a client after its login, and all clients of the server.
* `Vlink.Derp.Hub.step` — the steps of the clients, of the server and of the network.
* `Vlink.Derp.Hub.Refines` — the bytes in channels, streams and buffers are these packets.

## Main results

* `Vlink.Derp.Hub.Refines.step` — a step moves packets as in a post office.
* `Vlink.Derp.Hub.relayed` — what a client receives from another one, in every run.

## Design

The server is not part of the program. It does what the comments of `CmdType` say: a `SendPacket`
is the key of the addressee and a packet, and becomes a `RecvPacket` with the key of the sender. It
takes a frame when all of it has come, may drop packets, drops those that are longer than
`MAX_PACKET_SIZE`, and may send other frames that are well formed whenever it wants to.

When writing fails, the rest of the request may be missing from the stream; the task ends, and with
it the channel.
-/

namespace Vlink.Derp

/-! ## The model -/

/-- `MAX_PACKET_SIZE`. -/
def maxPacketSize : ℕ := 64 <<< 10

/-- A client after its login. -/
structure Station where
  codec : DerpCodec
  requests : List DerpRequest
  /-- The task that writes is running. -/
  writing : Bool
  toServer : Bytes
  fromServer : Bytes
  /-- What has arrived and was not decoded. -/
  buffer : Bytes
  /-- The loop that reads is running. -/
  reading : Bool

/-- The clients of a server, by their keys. -/
abbrev Hub := Block 32 → Station

/-- A client that has just logged in. -/
def Station.new (codec : DerpCodec) : Station := ⟨codec, [], true, [], [], [], true⟩

/-- The packets of a server. -/
abbrev Packet := Block 32 × Bytes

/-- The first frame of a stream if it is complete: its type byte, its payload, and what follows. -/
def splitFrame : Bytes → Option (UInt8 × Bytes × Bytes)
  | ty :: l₀ :: l₁ :: l₂ :: l₃ :: rest =>
    if beNat [l₀, l₁, l₂, l₃] ≤ rest.length then
      some (ty, rest.take (beNat [l₀, l₁, l₂, l₃]), rest.drop (beNat [l₀, l₁, l₂, l₃]))
    else none
  | _ => none

/-- The packet in a `SendPacket`, with its addressee. -/
def packetOf (ty : UInt8) (payload : Bytes) : Option Packet :=
  if CmdType.ofByte ty = .frameSendPacket then
    if h : 32 ≤ payload.length then some (⟨payload.take 32, by simp [h]⟩, payload.drop 32)
    else none
  else none

/-- The packet in a response, with its sender. -/
def DerpResponse.packet? : DerpResponse → Option Packet
  | .frameRecvPacket src data => some (src, data)
  | _ => none

/-- The steps of clients, server and network. -/
inductive HubAction where
  /-- `TailscleDerpOutboundSender::send`. -/
  | send (k dst : Block 32) (data : Bytes)
  /-- The task that writes takes a request; writing may fail after some bytes. -/
  | write (k : Block 32) (nonce : Block 24) (fault : Option ℕ)
  /-- The server takes a frame. -/
  | relay (k : Block 32) (drop : Bool)
  /-- The server sends another frame. -/
  | notice (k : Block 32) (f : Frame)
  /-- Bytes arrive. -/
  | arrive (k : Block 32) (n : ℕ)
  /-- The loop that reads calls the decoder. -/
  | poll (k : Block 32)

namespace Hub

variable (E : Crates) (S : Sealer)

/-- One step; `none` if the task has to wait. -/
def step (h : Hub) : HubAction → Option (Hub × List (Post.Event (Block 32) Bytes))
  | .send k dst data =>
    -- the receiver of the channel is gone
    if (h k).writing = false then some (h, [])
    else if (h k).requests.length < requestCapacity then
      some (Function.update h k
        { h k with requests := (h k).requests ++ [.sendPacket dst.val data] }, [.sent k dst data])
    else none
  | .write k nonce fault =>
    if (h k).writing = false then none
    else
      match (h k).requests with
      | [] => none
      | r :: rs =>
        match (h k).codec.encode S nonce [] r, fault with
        | .error _, _ =>
          some (Function.update h k { h k with requests := [], writing := false }, [])
        | .ok bytes, none =>
          some (Function.update h k
            { h k with requests := rs, toServer := (h k).toServer ++ bytes }, [])
        | .ok bytes, some n =>
          some (Function.update h k { h k with
            requests := []
            writing := false
            toServer := (h k).toServer ++ bytes.take n }, [])
  | .relay k drop =>
    match splitFrame (h k).toServer with
    | none => none
    | some (ty, payload, rest) =>
      let h := Function.update h k { h k with toServer := rest }
      match packetOf ty payload with
      | none => some (h, [])
      | some (dst, data) =>
        if drop ∨ maxPacketSize < data.length then some (h, [])
        else
          some (Function.update h dst { h dst with
            fromServer := writeFrame (h dst).fromServer .frameRecvPacket (k.val ++ data) }, [])
  | .notice k f =>
    if CmdType.ofByte f.ty = .frameRecvPacket then none
    else some (Function.update h k { h k with fromServer := (h k).fromServer ++ f.bytes }, [])
  | .arrive k n =>
    some (Function.update h k { h k with
      buffer := (h k).buffer ++ (h k).fromServer.take n
      fromServer := (h k).fromServer.drop n }, [])
  | .poll k =>
    if (h k).reading = false then none
    else
      match (DerpCodec.decoder E).decode (h k).codec (h k).buffer with
      | .fail _ => some (Function.update h k { h k with reading := false }, [])
      | .wait codec buffer => some (Function.update h k { h k with codec, buffer }, [])
      | .item r codec buffer =>
        some (Function.update h k { h k with codec, buffer },
          r.packet?.toList.map fun x => .received k x.1 x.2)

end Hub

/-- No packet is longer than `n`. -/
def HubAction.Sized (n : ℕ) : HubAction → Prop
  | .send _ _ data => data.length ≤ n
  | _ => True

/-- Nothing fails, and the server drops nothing. -/
def HubAction.Faultless : HubAction → Prop
  | .write _ _ (some _) => False
  | .relay _ true => False
  | _ => True

/-- Nothing new is sent. -/
def HubAction.Settles : HubAction → Prop
  | .write _ _ none | .relay _ false | .arrive .. | .poll _ => True
  | _ => False

/-- Steps that settle the hub are small and do not fail. -/
lemma HubAction.Settles.sized_faultless {act : HubAction} (h : act.Settles) (n : ℕ) :
    act.Sized n ∧ act.Faultless := by
  cases act with
  | send | notice => exact h.elim
  | write k nonce fault =>
    cases fault with
    | none => exact ⟨trivial, trivial⟩
    | some m => exact h.elim
  | relay k drop =>
    cases drop with
    | false => exact ⟨trivial, trivial⟩
    | true => exact h.elim
  | arrive | poll => exact ⟨trivial, trivial⟩

/-! ## Frames -/

section Frames

variable {ty : UInt8} {data rest : Bytes}

/-- A complete frame is taken, whatever follows. -/
lemma splitFrame_frameBytes (ty : UInt8) (h : data.length < 2 ^ 32) (rest : Bytes) :
    splitFrame (frameBytes ty data ++ rest) = some (ty, data, rest) := by
  obtain ⟨l₀, l₁, l₂, l₃, hnat, hbytes⟩ := exists_frameBytes_eq ty h
  rw [hbytes]
  simp only [List.cons_append, splitFrame, hnat]
  rw [if_pos (by simp), List.take_left, List.drop_left]

/-- A frame that was cut off is not. -/
lemma splitFrame_take (ty : UInt8) (h : data.length < 2 ^ 32) {n : ℕ}
    (hn : n < (frameBytes ty data).length) : splitFrame ((frameBytes ty data).take n) = none := by
  obtain ⟨l₀, l₁, l₂, l₃, hnat, hbytes⟩ := exists_frameBytes_eq ty h
  rw [hbytes] at hn ⊢
  match n with
  | 0 | 1 | 2 | 3 | 4 => rfl
  | m + 5 =>
    simp only [List.length_cons] at hn
    show splitFrame (ty :: l₀ :: l₁ :: l₂ :: l₃ :: data.take m) = none
    rw [splitFrame, if_neg]
    rw [hnat, List.length_take]
    omega

/-- The packet in a frame for a key. -/
lemma packetOf_append (dst : Block 32) (data : Bytes) :
    packetOf CmdType.frameSendPacket.toByte (dst.val ++ data) = some (dst, data) := by
  have hty : CmdType.ofByte CmdType.frameSendPacket.toByte = .frameSendPacket := by decide
  have hlen : 32 ≤ (dst.val ++ data).length := by
    rw [List.length_append, dst.2]
    omega
  rw [packetOf, if_pos hty, dif_pos hlen]
  simp only [List.take_left' dst.2, List.drop_left' dst.2]

/-- The frame of a packet, as the server sends it. -/
def recvFrame (src : Block 32) (data : Bytes) (h : data.length ≤ maxPacketSize) : Frame where
  ty := CmdType.frameRecvPacket.toByte
  payload := src.val ++ data
  wellFormed := by
    have hmax : 32 + maxPacketSize ≤ maxFrameLen := by decide
    have hty : CmdType.ofByte CmdType.frameRecvPacket.toByte = .frameRecvPacket := by decide
    rw [WellFormed, hty, List.length_append, src.2]
    exact ⟨by omega, Nat.le_add_right _ _⟩

/-- The packet in a frame of the server. -/
lemma packet?_recvFrame (src : Block 32) (data : Bytes) (h : data.length ≤ maxPacketSize) :
    (recvFrame src data h).response.packet? = some (src, data) := by
  have hty : CmdType.ofByte (recvFrame src data h).ty = .frameRecvPacket := by
    show CmdType.ofByte CmdType.frameRecvPacket.toByte = _
    decide
  unfold Frame.response
  split
  all_goals try (next h' => rw [hty] at h'; cases h')
  · simp only [DerpResponse.packet?, recvFrame, List.take_left' src.2, List.drop_left' src.2]
  · next h' _ _ => exact absurd hty h'

/-- Other frames have no packet. -/
lemma packet?_response_of_ne {f : Frame} (h : CmdType.ofByte f.ty ≠ .frameRecvPacket) :
    f.response.packet? = none := by
  unfold Frame.response
  split
  · rfl
  · next h' => exact absurd h' h
  · rfl
  · rfl
  · rfl

end Frames

/-! ## What the bytes stand for -/

/-- The request for a packet. -/
def request (x : Packet) : DerpRequest := .sendPacket x.1.val x.2

/-- The frame of a packet, as a client writes it. -/
def sendFrame (x : Packet) : Bytes := frameBytes CmdType.frameSendPacket.toByte (x.1.val ++ x.2)

/-- A request is encoded as its frame. -/
lemma encode_request (S : Sealer) (c : DerpCodec) (nonce : Block 24) (x : Packet) :
    c.encode S nonce [] (request x) = .ok (sendFrame x) := rfl

/-- The channel and the streams of a client stand for packets of at most `n` bytes: the requests
that wait, the frames that were written, and the packets that come. -/
structure Station.Holds (E : Crates) (n : ℕ) (c : Station) (q u d : List Packet) : Prop where
  requests : c.requests = q.map request
  sized : ∀ x ∈ q ++ u, x.2.length ≤ n
  /-- A frame that was cut off may follow when the task that writes has ended. -/
  written : ∃ tail, c.toServer = u.flatMap sendFrame ++ tail ∧ splitFrame tail = none ∧
    (c.writing = true → tail = [])
  reading : c.reading = true
  upgraded : c.codec.toWsResponse = false
  incoming : ∃ rs c', rs.filterMap DerpResponse.packet? = d ∧
    (c'.toWsResponse = false ∧ c'.header = none) ∧
    (DerpCodec.decoder E).drain c.codec (c.buffer ++ c.fromServer) = (rs, .waiting c' [])

/-- Draining one frame. -/
lemma DerpCodec.drain_frame {E : Crates} {c : DerpCodec}
    (hc : c.toWsResponse = false ∧ c.header = none) (f : Frame) :
    ∃ c', (c'.toWsResponse = false ∧ c'.header = none) ∧
      (decoder E).drain c f.bytes = ([f.response], .waiting c' []) := by
  obtain ⟨c', hc', hdrain⟩ : ∃ c' : DerpCodec, (c'.toWsResponse = false ∧ c'.header = none) ∧
      (decoder E).drain c ([f].flatMap Frame.bytes) =
        ([f].map Frame.response, .waiting c' []) :=
    (reads (E := E)).lawful.drain_frames [f]
      (P := fun c => c.toWsResponse = false ∧ c.header = none) And.left
      (fun f _ c rest hc => decode_frame hc.1 hc.2 f rest)
      (fun c hc => reads.short hc.1 (by simp [need, hc.2])) hc
  refine ⟨c', hc', ?_⟩
  simpa using hdrain

namespace Station.Holds

variable {E : Crates} {n : ℕ} {c : Station} {q u d : List Packet} {x : Packet}

/-- A request for one more packet. -/
lemma push (h : c.Holds E n q u d) (hx : x.2.length ≤ n) :
    { c with requests := c.requests ++ [request x] }.Holds E n (q ++ [x]) u d where
  requests := by rw [h.requests, List.map_append, List.map_singleton]
  sized y hy := by
    simp only [List.mem_append, List.mem_singleton] at hy
    rcases hy with (hy | rfl) | hy
    · exact h.sized y (List.mem_append_left _ hy)
    · exact hx
    · exact h.sized y (List.mem_append_right _ hy)
  written := h.written
  reading := h.reading
  upgraded := h.upgraded
  incoming := h.incoming

/-- The first request is written. -/
lemma write (h : c.Holds E n (x :: q) u d) (hw : c.writing = true) :
    { c with requests := q.map request, toServer := c.toServer ++ sendFrame x }.Holds E n q
      (u ++ [x]) d where
  requests := rfl
  sized y hy := by
    refine h.sized y ?_
    simp only [List.mem_append, List.mem_cons, List.not_mem_nil, or_false] at hy ⊢
    tauto
  written := by
    obtain ⟨tail, hto, -, htail⟩ := h.written
    refine ⟨[], ?_, rfl, fun _ => rfl⟩
    simp [hto, htail hw]
  reading := h.reading
  upgraded := h.upgraded
  incoming := h.incoming

/-- Writing the first request fails: all of it was written, or a part. -/
lemma fault (hn : n + 32 < 2 ^ 32) (h : c.Holds E n (x :: q) u d) (hw : c.writing = true)
    (m : ℕ) : ∃ u', (u' = u ∨ u' = u ++ [x]) ∧
      { c with
        requests := []
        writing := false
        toServer := c.toServer ++ (sendFrame x).take m }.Holds E n [] u' d := by
  obtain ⟨tail, hto, -, htail⟩ := h.written
  rw [htail hw, List.append_nil] at hto
  have hx : x.2.length ≤ n := h.sized x (by simp)
  have hu : ∀ y ∈ u, y.2.length ≤ n := fun y hy => h.sized y (List.mem_append_right _ hy)
  by_cases hm : m < (sendFrame x).length
  · refine ⟨u, .inl rfl, rfl, hu, ?_, h.reading, h.upgraded, h.incoming⟩
    refine ⟨(sendFrame x).take m, by rw [hto], ?_, fun hf => by cases hf⟩
    exact splitFrame_take _ (by rw [List.length_append, x.1.2]; omega) hm
  · refine ⟨u ++ [x], .inr rfl, rfl, ?_, ?_, h.reading, h.upgraded, h.incoming⟩
    · intro y hy
      simp only [List.nil_append, List.mem_append, List.mem_singleton] at hy
      rcases hy with hy | rfl
      · exact hu y hy
      · exact hx
    · refine ⟨[], ?_, rfl, fun _ => rfl⟩
      simp [hto, List.take_of_length_le (Nat.not_lt.mp hm)]

/-- The frame that the server takes is that of the first packet. -/
lemma take (hn : n + 32 < 2 ^ 32) (h : c.Holds E n q u d) {ty : UInt8} {payload rest : Bytes}
    (hs : splitFrame c.toServer = some (ty, payload, rest)) :
    ∃ x u', u = x :: u' ∧ packetOf ty payload = some x ∧
      { c with toServer := rest }.Holds E n q u' d := by
  obtain ⟨tail, hto, hnone, htail⟩ := h.written
  cases u with
  | nil =>
    rw [hto, List.flatMap_nil, List.nil_append, hnone] at hs
    cases hs
  | cons x u' =>
    have hx : x.2.length ≤ n := h.sized x (by simp)
    have hlen : (x.1.val ++ x.2).length < 2 ^ 32 := by
      rw [List.length_append, x.1.2]
      omega
    rw [hto, List.flatMap_cons, List.append_assoc, sendFrame, splitFrame_frameBytes _ hlen] at hs
    cases hs
    refine ⟨x, u', rfl, packetOf_append x.1 x.2, h.requests, fun y hy => h.sized y ?_,
      ⟨tail, rfl, hnone, htail⟩, h.reading, h.upgraded, h.incoming⟩
    simp only [List.mem_append, List.mem_cons] at hy ⊢
    tauto

/-- The server sends a frame. -/
lemma frame (h : c.Holds E n q u d) (f : Frame) :
    { c with fromServer := c.fromServer ++ f.bytes }.Holds E n q u
      (d ++ f.response.packet?.toList) where
  requests := h.requests
  sized := h.sized
  written := h.written
  reading := h.reading
  upgraded := h.upgraded
  incoming := by
    obtain ⟨rs, c', hd, hc', hdrain⟩ := h.incoming
    obtain ⟨c'', hc'', hframe⟩ := DerpCodec.drain_frame (E := E) hc' f
    have happ := ((DerpCodec.reads (E := E)).lawful.drain_append h.upgraded
      (c.buffer ++ c.fromServer) f.bytes).2 c' [] (by rw [hdrain])
    refine ⟨rs ++ [f.response], c'', ?_, hc'', ?_⟩
    · rw [List.filterMap_append, hd]
      cases hr : f.response.packet? <;> simp [hr]
    · rw [← List.append_assoc, happ, hdrain, List.nil_append, hframe]

/-- Bytes arrive. -/
lemma arrive (h : c.Holds E n q u d) (m : ℕ) :
    { c with
      buffer := c.buffer ++ c.fromServer.take m
      fromServer := c.fromServer.drop m }.Holds E n q u d where
  requests := h.requests
  sized := h.sized
  written := h.written
  reading := h.reading
  upgraded := h.upgraded
  incoming := by
    obtain ⟨rs, c', hd, hc', hdrain⟩ := h.incoming
    refine ⟨rs, c', hd, hc', ?_⟩
    rwa [List.append_assoc, List.take_append_drop]

/-- Decoding does not fail. -/
lemma decode_ne_fail (h : c.Holds E n q u d) (e : Failure Error) :
    (DerpCodec.decoder E).decode c.codec c.buffer ≠ .fail e := by
  intro hfail
  obtain ⟨rs, c', -, -, hdrain⟩ := h.incoming
  have hmore := (DerpCodec.reads (E := E)).lawful.fail_append c.fromServer h.upgraded hfail
  rw [Decoder.drain_fail hmore] at hdrain
  cases hdrain

/-- The decoder waits. -/
lemma wait (h : c.Holds E n q u d) {codec : DerpCodec} {buffer : Bytes}
    (hwait : (DerpCodec.decoder E).decode c.codec c.buffer = .wait codec buffer) :
    { c with codec, buffer }.Holds E n q u d where
  requests := h.requests
  sized := h.sized
  written := h.written
  reading := h.reading
  upgraded := (DerpCodec.reads (E := E)).lawful.wait_inv h.upgraded hwait
  incoming := by
    obtain ⟨rs, c', hd, hc', hdrain⟩ := h.incoming
    have happ := ((DerpCodec.reads (E := E)).lawful.drain_append h.upgraded c.buffer
      c.fromServer).2 codec buffer (by rw [Decoder.drain_wait hwait])
    rw [Decoder.drain_wait hwait, List.nil_append, hdrain] at happ
    exact ⟨rs, c', hd, hc', happ.symm⟩

/-- The decoder hands back a response. -/
lemma item (h : c.Holds E n q u d) {r : DerpResponse} {codec : DerpCodec} {buffer : Bytes}
    (hitem : (DerpCodec.decoder E).decode c.codec c.buffer = .item r codec buffer) :
    ∃ d', d = r.packet?.toList ++ d' ∧ { c with codec, buffer }.Holds E n q u d' := by
  have law := (DerpCodec.reads (E := E)).lawful
  obtain ⟨rs, c', hd, hc', hdrain⟩ := h.incoming
  rw [law.drain_item h.upgraded (law.item_append c.fromServer h.upgraded hitem)] at hdrain
  obtain ⟨rfl, hend⟩ := Prod.mk.inj hdrain
  refine ⟨_, ?_, h.requests, h.sized, h.written, h.reading, law.item_inv h.upgraded hitem, _, c',
    rfl, hc', Prod.ext rfl hend⟩
  rw [← hd]
  cases hr : r.packet? <;> simp [hr]

end Station.Holds

/-! ## The post office -/

namespace Hub

variable {E : Crates} {S : Sealer} {n : ℕ} {h h' : Hub} {p : Post (Block 32) Bytes}
  {act : HubAction} {evs tr : List (Post.Event (Block 32) Bytes)}

/-- The clients stand for what is on its way. -/
def Refines (E : Crates) (n : ℕ) (h : Hub) (p : Post (Block 32) Bytes) : Prop :=
  ∀ k, (h k).Holds E n (p.queued k) (p.up k) (p.down k)

/-- One client goes on. -/
lemma Refines.update (href : Refines E n h p) (k : Block 32) {c : Station}
    {q u d : List Packet} (hc : c.Holds E n q u d) :
    Refines E n (Function.update h k c) ⟨Function.update p.queued k q, Function.update p.up k u,
      Function.update p.down k d⟩ := by
  intro k'
  by_cases hk : k' = k
  · subst hk
    simpa using hc
  · simpa [Function.update_of_ne hk] using href k'

/-- **A step moves packets as in a post office**, and without a fault none is lost.

**Proof sketch.** A request that is written moves its packet from the queue to the stream of the
client; the frame that the server takes is that of the first packet in the stream; a frame that the
server sends is decoded last; and the response that is decoded is the first one that is to come. -/
theorem Refines.step (hn : n + 32 < 2 ^ 32) (href : Refines E n h p) (ok : act.Sized n)
    (hstep : h.step E S act = some (h', evs)) :
    ∃ p', Run Post.step (fun _ b => act.Faultless → n ≤ maxPacketSize → b.keeps) p evs p' ∧
      Refines E n h' p' := by
  cases act with
  | send k dst data =>
    rw [Hub.step] at hstep
    split_ifs at hstep
    · cases hstep
      exact ⟨p, .nil, href⟩
    · cases hstep
      have hsend : p.step (.send k dst data) = some (_, [.sent k dst data]) := rfl
      refine ⟨_, Post.run_of_step hsend fun _ _ => trivial, ?_⟩
      simpa [request] using href.update k ((href k).push (x := (dst, data)) ok)
  | write k nonce fault =>
    rw [Hub.step] at hstep
    split_ifs at hstep with hw
    rw [Bool.not_eq_false] at hw
    have hk := href k
    cases hq : p.queued k with
    | nil =>
      rw [hq] at hk
      simp [hk.requests] at hstep
    | cons x q =>
      rw [hq] at hk
      simp only [hk.requests, List.map_cons, encode_request] at hstep
      cases fault with
      | none =>
        cases hstep
        refine ⟨_, Post.run_of_step (Post.step_write hq) fun _ _ => trivial, ?_⟩
        simpa using href.update k (hk.write hw)
      | some m =>
        cases hstep
        -- what is left in the channel is lost, perhaps with the request that was being written
        obtain ⟨u, rfl | rfl, hfault⟩ := hk.fault hn hw m
        · refine ⟨_, .snoc (a := .clear k) .nil (fun hf => hf.elim) rfl, ?_⟩
          simpa using href.update k hfault
        · refine ⟨_, .snoc (a := .clear k)
            (Post.run_of_step (Post.step_write hq) fun _ _ => trivial) (fun hf => hf.elim) rfl, ?_⟩
          simpa using href.update k hfault
  | relay k drop =>
    rw [Hub.step] at hstep
    cases hs : splitFrame (h k).toServer with
    | none => simp [hs] at hstep
    | some r =>
      obtain ⟨ty, payload, rest⟩ := r
      obtain ⟨⟨dst, data⟩, u, hu, hpacket, htake⟩ := (href k).take hn hs
      have hlen : data.length ≤ n := (href k).sized (dst, data) (by simp [hu])
      have href₁ := href.update k htake
      simp only [Function.update_eq_self] at href₁
      simp only [hs, hpacket] at hstep
      split_ifs at hstep with hdrop
      · cases hstep
        refine ⟨_, Post.run_of_step (Post.step_drop hu) ?_, href₁⟩
        intro hf hmax
        rcases hdrop with rfl | hlong
        · exact hf.elim
        · omega
      · cases hstep
        have hshort : data.length ≤ maxPacketSize := by
          rw [not_or] at hdrop
          omega
        refine ⟨_, Post.run_of_step (Post.step_pass hu) fun _ _ => trivial, ?_⟩
        have href₂ := href₁.update dst ((href₁ dst).frame (recvFrame k data hshort))
        simp only [Function.update_eq_self, packet?_recvFrame, Option.toList_some] at href₂
        exact href₂
  | notice k f =>
    rw [Hub.step] at hstep
    split_ifs at hstep with hty
    cases hstep
    refine ⟨p, .nil, ?_⟩
    have href₁ := href.update k ((href k).frame f)
    rw [packet?_response_of_ne hty] at href₁
    simpa using href₁
  | arrive k m =>
    cases hstep
    refine ⟨p, .nil, ?_⟩
    simpa using href.update k ((href k).arrive m)
  | poll k =>
    rw [Hub.step] at hstep
    split_ifs at hstep
    cases hd : (DerpCodec.decoder E).decode (h k).codec (h k).buffer with
    | fail e => exact absurd hd ((href k).decode_ne_fail e)
    | wait codec buffer =>
      simp only [hd, Option.some.injEq, Prod.mk.injEq] at hstep
      obtain ⟨rfl, rfl⟩ := hstep
      refine ⟨p, .nil, ?_⟩
      simpa using href.update k ((href k).wait hd)
    | item r codec buffer =>
      simp only [hd, Option.some.injEq, Prod.mk.injEq] at hstep
      obtain ⟨rfl, rfl⟩ := hstep
      obtain ⟨d, hdown, hitem⟩ := (href k).item hd
      have href₁ := href.update k hitem
      simp only [Function.update_eq_self] at href₁
      cases hr : r.packet? with
      | none =>
        rw [hr] at hdown
        refine ⟨p, .nil, ?_⟩
        have hsame : d = p.down k := by simpa using hdown.symm
        simpa [hsame] using href₁
      | some x =>
        rw [hr] at hdown
        exact ⟨_, Post.run_of_step (Post.step_receive hdown) fun _ _ => trivial, href₁⟩

/-- The clients when all of them have just logged in. -/
def start (codec : Block 32 → DerpCodec) : Hub := fun k => .new (codec k)

/-- Nothing is on its way. -/
lemma refines_start {codec : Block 32 → DerpCodec}
    (idle : ∀ k, (codec k).toWsResponse = false ∧ (codec k).header = none) :
    Refines E n (start codec) .empty := by
  intro k
  have hwait : (DerpCodec.decoder E).decode (codec k) [] = .wait (codec k) [] :=
    DerpCodec.reads.short (idle k).1 (by simp [DerpCodec.need, (idle k).2])
  exact {
    requests := rfl
    sized := fun x hx => by simp [Post.empty] at hx
    written := ⟨[], rfl, rfl, fun _ => rfl⟩
    reading := rfl
    upgraded := (idle k).1
    incoming := ⟨[], codec k, rfl, idle k, Decoder.drain_wait hwait⟩ }

/-- **A run is a run of a post office.** It loses nothing if there are no faults and no packet is
too long for the server. -/
lemma Refines.run (hn : n + 32 < 2 ^ 32) (href : Refines E n h p) (L : Prop)
    {guard : Hub → HubAction → Prop}
    (ok : ∀ h act, guard h act → act.Sized n ∧ (L → act.Faultless))
    (hmax : L → n ≤ maxPacketSize) (run : Run (Hub.step E S) guard h tr h') :
    ∃ p', Run Post.step (fun _ b => L → b.keeps) p tr p' ∧ Refines E n h' p' := by
  refine run.invariant (I := fun tr h' =>
    ∃ p', Run Post.step (fun _ b => L → b.keeps) p tr p' ∧ Refines E n h' p')
    ⟨p, .nil, href⟩ ?_
  rintro tr h₁ act h₂ evs - ⟨p₁, run₁, href₁⟩ hact hstep
  obtain ⟨hsized, hfault⟩ := ok h₁ act hact
  obtain ⟨p₂, run₂, href₂⟩ := href₁.step hn hsized hstep
  exact ⟨p₂, run₁.trans (run₂.mono fun _ _ hk hf => hk (hfault hf) (hmax hf)), href₂⟩

/-! ## Everything comes through -/

/-- Without a fault the tasks that write go on: a packet can always be encoded. -/
lemma Refines.writing (href : Refines E n h p) (hfault : act.Faultless)
    (hstep : h.step E S act = some (h', evs)) (k : Block 32) :
    (h' k).writing = (h k).writing := by
  have update (h : Hub) (k' : Block 32) (c : Station) (hc : c.writing = (h k').writing) :
      (Function.update h k' c k).writing = (h k).writing := by
    by_cases hk : k = k'
    · subst hk
      simpa using hc
    · rw [Function.update_of_ne hk]
  cases act with
  | send k' dst data =>
    rw [Hub.step] at hstep
    split_ifs at hstep
    · cases hstep
      rfl
    · cases hstep
      exact update h k' _ rfl
  | write k' nonce fault =>
    rw [Hub.step] at hstep
    split_ifs at hstep
    cases hq : p.queued k' with
    | nil =>
      rw [(href k').requests, hq] at hstep
      cases hstep
    | cons x q =>
      rw [(href k').requests, hq] at hstep
      cases fault with
      | none =>
        cases hstep
        exact update h k' _ rfl
      | some m => exact hfault.elim
  | relay k' drop =>
    rw [Hub.step] at hstep
    cases hs : splitFrame (h k').toServer with
    | none => simp [hs] at hstep
    | some r =>
      obtain ⟨ty, payload, rest⟩ := r
      simp only [hs] at hstep
      split at hstep
      · cases hstep
        exact update h k' _ rfl
      · split_ifs at hstep
        · cases hstep
          exact update h k' _ rfl
        · cases hstep
          refine (update _ _ _ ?_).trans (update h k' { h k' with toServer := rest } rfl)
          rfl
  | notice k' f =>
    rw [Hub.step] at hstep
    split_ifs at hstep
    cases hstep
    exact update h k' _ rfl
  | arrive k' m =>
    cases hstep
    exact update h k' _ rfl
  | poll k' =>
    rw [Hub.step] at hstep
    split_ifs at hstep
    split at hstep
    · cases hstep
      exact update h k' _ rfl
    · cases hstep
      exact update h k' _ rfl
    · cases hstep
      exact update h k' _ rfl

/-- In a run. -/
lemma writing_of_run (hn : n + 32 < 2 ^ 32) (href : Refines E n h p)
    (hw : ∀ k, (h k).writing = true)
    (run : Run (Hub.step E S) (fun _ act => act.Sized n ∧ act.Faultless) h tr h') (k : Block 32) :
    (h' k).writing = true := by
  have inv : (∃ p, Refines E n h' p) ∧ ∀ k, (h' k).writing = true := by
    refine run.invariant (I := fun _ h' => (∃ p, Refines E n h' p) ∧ ∀ k, (h' k).writing = true)
      ⟨⟨p, href⟩, hw⟩ ?_
    rintro tr h₁ act h₂ evs - ⟨⟨p₁, href₁⟩, hw₁⟩ ok hstep
    obtain ⟨p₂, -, href₂⟩ := href₁.step hn ok.1 hstep
    exact ⟨⟨p₂, href₂⟩, fun k => (href₁.writing ok.2 hstep k).trans (hw₁ k)⟩
  exact inv.2 k

/-- The task that writes works off its channel. -/
lemma exists_written (hn : n + 32 < 2 ^ 32) (href : ∃ p, Refines E n h p) {a : Block 32}
    (hw : (h a).writing = true) : ∃ tr h', Run (Hub.step E S) (fun _ act => act.Settles) h tr h' ∧
      (tr = [] ∧ (∃ p, Refines E n h' p) ∧ (h' a).writing = true) ∧ (h' a).requests = [] := by
  refine Run.exists_final _ _ (fun h => (h a).requests.length) ⟨rfl, href, hw⟩ ?_
  rintro tr h₁ ⟨rfl, ⟨p, href⟩, hw⟩ hmore
  obtain ⟨r, rs, hr⟩ := List.exists_cons_of_ne_nil hmore
  obtain ⟨x, q, -, rfl, rfl⟩ := List.map_eq_cons_iff.mp ((href a).requests.symm.trans hr)
  let act : HubAction := .write a (Block.zero 24) none
  have hstep : h₁.step E S act = some (Function.update h₁ a
      { h₁ a with
        requests := q.map request
        toServer := (h₁ a).toServer ++ sendFrame x }, []) := by
    simp [act, Hub.step, hw, hr, encode_request]
  have hsized : act.Sized n := trivial
  obtain ⟨p', -, href'⟩ := href.step hn hsized hstep
  refine ⟨act, _, _, trivial, hstep, ⟨rfl, ⟨p', href'⟩, by simp [hw]⟩, ?_⟩
  simp [hr]

/-- A frame that the server takes. -/
lemma step_relay_eq {k : Block 32} {drop : Bool}
    (hstep : h.step E S (.relay k drop) = some (h', evs)) {ty : UInt8} {payload rest : Bytes}
    (hs : splitFrame (h k).toServer = some (ty, payload, rest)) :
    evs = [] ∧ (h' k).toServer = rest ∧ (h' k).requests = (h k).requests ∧
      (h' k).writing = (h k).writing := by
  simp only [Hub.step, hs] at hstep
  cases hp : packetOf ty payload with
  | none =>
    simp only [hp, Option.some.injEq, Prod.mk.injEq] at hstep
    obtain ⟨rfl, rfl⟩ := hstep
    simp
  | some x =>
    simp only [hp] at hstep
    split_ifs at hstep
    · cases hstep
      simp
    · cases hstep
      by_cases hx : k = x.1
      · rw [← hx]
        simp
      · simp [Function.update_of_ne hx]

/-- There is a frame to take. -/
lemma exists_step_relay {k : Block 32} (drop : Bool) {r : UInt8 × Bytes × Bytes}
    (hs : splitFrame (h k).toServer = some r) :
    ∃ h' evs, h.step E S (.relay k drop) = some (h', evs) := by
  obtain ⟨ty, payload, rest⟩ := r
  simp only [Hub.step, hs]
  cases packetOf ty payload with
  | none => exact ⟨_, _, rfl⟩
  | some x =>
    dsimp only
    split_ifs
    · exact ⟨_, _, rfl⟩
    · exact ⟨_, _, rfl⟩

/-- A client that has not failed has written whole frames. -/
lemma Refines.splitFrame (hn : n + 32 < 2 ^ 32) (href : Refines E n h p) {k : Block 32}
    (hw : (h k).writing = true) (hne : (h k).toServer ≠ []) :
    ∃ ty payload rest, Derp.splitFrame (h k).toServer = some (ty, payload, rest) ∧
      rest.length < (h k).toServer.length := by
  obtain ⟨tail, hto, -, htail⟩ := (href k).written
  rw [htail hw, List.append_nil] at hto
  cases hu : p.up k with
  | nil =>
    rw [hu] at hto
    exact absurd hto hne
  | cons x u =>
    have hx : x.2.length ≤ n := (href k).sized x (by simp [hu])
    have hlen : (x.1.val ++ x.2).length < 2 ^ 32 := by
      rw [List.length_append, x.1.2]
      omega
    rw [hu, List.flatMap_cons, sendFrame] at hto
    refine ⟨_, _, u.flatMap sendFrame, hto ▸ splitFrame_frameBytes _ hlen _, ?_⟩
    rw [hto, List.length_append, frameBytes, List.length_cons]
    omega

/-- The server takes all frames of a client. -/
lemma exists_passed (hn : n + 32 < 2 ^ 32) (href : ∃ p, Refines E n h p) {a : Block 32}
    (hw : (h a).writing = true) (hr : (h a).requests = []) :
    ∃ tr h', Run (Hub.step E S) (fun _ act => act.Settles) h tr h' ∧
      (tr = [] ∧ (∃ p, Refines E n h' p) ∧ (h' a).writing = true ∧ (h' a).requests = []) ∧
      (h' a).toServer = [] := by
  refine Run.exists_final _ _ (fun h => (h a).toServer.length) ⟨rfl, href, hw, hr⟩ ?_
  rintro tr h₁ ⟨rfl, ⟨p, href⟩, hw, hr⟩ hmore
  obtain ⟨ty, payload, rest, hs, hlt⟩ := href.splitFrame hn hw hmore
  let act : HubAction := .relay a false
  obtain ⟨h₂, evs, hstep⟩ : ∃ h₂ evs, h₁.step E S act = some (h₂, evs) :=
    exists_step_relay false hs
  obtain ⟨rfl, hto, hreq, hwriting⟩ := step_relay_eq hstep hs
  have hsized : act.Sized n := trivial
  obtain ⟨p', -, href'⟩ := href.step hn hsized hstep
  refine ⟨act, h₂, _, trivial, hstep, ⟨rfl, ⟨p', href'⟩, hwriting.trans hw, hreq.trans hr⟩, ?_⟩
  rwa [hto]

/-- Decoding has nothing to do with what is sent. -/
lemma outgoing_update (h : Hub) (b : Block 32) (codec : DerpCodec) (buffer : Bytes)
    (k : Block 32) :
    (Function.update h b { h b with codec, buffer } k).requests = (h k).requests ∧
      (Function.update h b { h b with codec, buffer } k).toServer = (h k).toServer := by
  by_cases hk : k = b
  · subst hk
    simp
  · simp [Function.update_of_ne hk]

/-- When all bytes have arrived and the decoder waits, nothing is left. -/
lemma Refines.wait_eq (href : Refines E n h p) {b : Block 32} (hfrom : (h b).fromServer = [])
    {codec : DerpCodec} {buffer : Bytes}
    (hwait : (DerpCodec.decoder E).decode (h b).codec (h b).buffer = .wait codec buffer) :
    buffer = [] ∧ codec.header = none := by
  obtain ⟨rs, c', -, hc', hdrain⟩ := (href b).incoming
  rw [hfrom, List.append_nil, Decoder.drain_wait hwait] at hdrain
  cases hdrain
  exact ⟨rfl, hc'.2⟩

/-- The loop that reads decodes all that has arrived. -/
lemma exists_decoded (hn : n + 32 < 2 ^ 32) (href : ∃ p, Refines E n h p) {b : Block 32}
    (hfrom : (h b).fromServer = []) :
    ∃ tr h', Run (Hub.step E S) (fun _ act => act.Settles) h tr h' ∧
      ((∀ x y, Post.sentTo x y tr = []) ∧ (∃ p, Refines E n h' p) ∧ (h' b).fromServer = [] ∧
        ∀ k, (h' k).requests = (h k).requests ∧ (h' k).toServer = (h k).toServer) ∧
      ((h' b).buffer = [] ∧ (h' b).codec.header = none) := by
  refine Run.exists_final _ _
    (fun h => (DerpCodec.decoder E).weight (h b).codec + (h b).buffer.length)
    ⟨fun _ _ => rfl, href, hfrom, fun _ => ⟨rfl, rfl⟩⟩ ?_
  rintro tr h₁ ⟨hsent, ⟨p, href⟩, hfrom, hsame⟩ hmore
  let act : HubAction := .poll b
  have hsized : act.Sized n := trivial
  have hreading := (href b).reading
  cases hd : (DerpCodec.decoder E).decode (h₁ b).codec (h₁ b).buffer with
  | fail e => exact absurd hd ((href b).decode_ne_fail e)
  | wait codec buffer =>
    have hstep : h₁.step E S act = some (Function.update h₁ b { h₁ b with codec, buffer }, []) := by
      simp [act, Hub.step, hreading, hd]
    obtain ⟨p', -, href'⟩ := href.step hn hsized hstep
    obtain ⟨rfl, hheader⟩ := href.wait_eq hfrom hd
    refine ⟨act, _, _, trivial, hstep, ⟨by simpa using hsent, ⟨p', href'⟩, by simp [hfrom], ?_⟩, ?_⟩
    · intro k
      rw [(outgoing_update ..).1, (outgoing_update ..).2]
      exact hsame k
    · -- there was a header, or something in the buffer
      simp only [Function.update_self, DerpCodec.decoder, hheader, Option.isSome_none,
        Bool.false_eq_true, if_false, List.length_nil]
      by_contra hzero
      refine hmore ⟨List.eq_nil_of_length_eq_zero (by omega), ?_⟩
      rw [← Option.not_isSome_iff_eq_none]
      intro hsome
      simp [hsome] at hzero
  | item r codec buffer =>
    have hstep : h₁.step E S act = some (Function.update h₁ b { h₁ b with codec, buffer },
        r.packet?.toList.map fun x => .received b x.1 x.2) := by
      simp [act, Hub.step, hreading, hd]
    obtain ⟨p', -, href'⟩ := href.step hn hsized hstep
    refine ⟨act, _, _, trivial, hstep, ⟨?_, ⟨p', href'⟩, by simp [hfrom], ?_⟩, ?_⟩
    · intro x y
      rw [Post.sentTo_append, hsent x y]
      cases r.packet? <;> rfl
    · intro k
      rw [(outgoing_update ..).1, (outgoing_update ..).2]
      exact hsame k
    · simpa using (DerpCodec.reads (E := E)).lawful.item_lt (href b).upgraded hd

/-- Nothing is on its way from `a` to `b` when the channel and the streams are empty. -/
lemma Refines.pending_eq_nil (href : Refines E n h p) {a b : Block 32}
    (hreq : (h a).requests = []) (hto : (h a).toServer = []) (hfrom : (h b).fromServer = [])
    (hbuf : (h b).buffer = []) (hheader : (h b).codec.header = none) : p.pending a b = [] := by
  have hqueued : p.queued a = [] := List.map_eq_nil_iff.mp ((href a).requests.symm.trans hreq)
  have hup : p.up a = [] := by
    obtain ⟨tail, htail, -⟩ := (href a).written
    rw [hto] at htail
    cases hu : p.up a with
    | nil => rfl
    | cons x u =>
      rw [hu, List.flatMap_cons, sendFrame, frameBytes] at htail
      cases htail
  have hdown : p.down b = [] := by
    obtain ⟨rs, c', hd, -, hdrain⟩ := (href b).incoming
    have hwait : (DerpCodec.decoder E).decode (h b).codec [] = .wait (h b).codec [] :=
      DerpCodec.reads.short (href b).upgraded (by simp [DerpCodec.need, hheader])
    rw [hbuf, hfrom, List.append_nil, Decoder.drain_wait hwait] at hdrain
    cases hdrain
    exact hd.symm
  rw [Post.pending, hqueued, hup, hdown]
  rfl

/-- What `a` has sent to `b` can be brought to `b`. -/
lemma exists_settled (hn : n + 32 < 2 ^ 32) (href : ∃ p, Refines E n h p) {a : Block 32}
    (hw : (h a).writing = true) (b : Block 32) :
    ∃ tr h', Run (Hub.step E S) (fun _ act => act.Settles) h tr h' ∧ Post.sentTo a b tr = [] ∧
      ∀ p, Refines E n h' p → p.pending a b = [] := by
  obtain ⟨_, h₁, run₁, ⟨rfl, href₁, hw₁⟩, hreq₁⟩ := exists_written (S := S) hn href hw
  obtain ⟨_, h₂, run₂, ⟨rfl, ⟨p₂, href₂⟩, -, hreq₂⟩, hto₂⟩ :=
    exists_passed (S := S) hn href₁ hw₁ hreq₁
  -- all bytes arrive at once
  let act : HubAction := .arrive b (h₂ b).fromServer.length
  have hstep : h₂.step E S act = some (Function.update h₂ b { h₂ b with
      buffer := (h₂ b).buffer ++ (h₂ b).fromServer.take (h₂ b).fromServer.length
      fromServer := (h₂ b).fromServer.drop (h₂ b).fromServer.length }, []) := rfl
  set h₃ : Hub := Function.update h₂ b { h₂ b with
    buffer := (h₂ b).buffer ++ (h₂ b).fromServer.take (h₂ b).fromServer.length
    fromServer := (h₂ b).fromServer.drop (h₂ b).fromServer.length } with hh₃
  have hsized : act.Sized n := trivial
  have hsettles : act.Settles := trivial
  obtain ⟨p₃, -, href₃⟩ := href₂.step hn hsized hstep
  have hsame₃ : (h₃ a).requests = [] ∧ (h₃ a).toServer = [] := by
    by_cases hab : a = b
    · subst hab
      simp [hh₃, hreq₂, hto₂]
    · simp [hh₃, Function.update_of_ne hab, hreq₂, hto₂]
  obtain ⟨tr, h₄, run₄, ⟨hsent, -, hfrom₄, hsame₄⟩, hbuf₄, hheader₄⟩ :=
    exists_decoded (S := S) hn ⟨p₃, href₃⟩ (b := b) (by simp [hh₃])
  refine ⟨_, h₄, ((run₁.trans run₂).snoc hsettles hstep).trans run₄, ?_, fun p hp => ?_⟩
  · simpa using hsent a b
  · exact hp.pending_eq_nil ((hsame₄ a).1.trans hsame₃.1) ((hsame₄ a).2.trans hsame₃.2) hfrom₄
      hbuf₄ hheader₄

/-- **Packets through a DERP server.** Clients have logged in, and send packets that are not too
long for the length of a frame. Whatever the clients, the server and the network do, and in
whatever pieces the bytes arrive, the loops that read go on, and the packets that `b` has passed on
as coming from `a` are packets that `a` has sent to `b`, in this order. If nothing has failed and
the server drops nothing, then all of them can still come.

**Proof sketch.** The hub refines a post office, which keeps packets in order, and all of them if
nothing fails. What is on its way there can be brought to its end. -/
theorem relayed (E : Crates) (S : Sealer) {codec : Block 32 → DerpCodec}
    (idle : ∀ k, (codec k).toWsResponse = false ∧ (codec k).header = none) {n : ℕ}
    (hn : n + 32 < 2 ^ 32)
    (run : Run (Hub.step E S) (fun _ act => act.Sized n) (start codec) tr h) (a b : Block 32) :
    (∀ k, (h k).reading = true) ∧
    (Post.receivedFrom a b tr).Sublist (Post.sentTo a b tr) ∧
    (n ≤ maxPacketSize →
      Run (Hub.step E S) (fun _ act => act.Sized n ∧ act.Faultless) (start codec) tr h →
      ∃ tr' h', Run (Hub.step E S) (fun _ act => act.Settles) h tr' h' ∧
        Post.sentTo a b tr' = [] ∧ Post.receivedFrom a b (tr ++ tr') = Post.sentTo a b tr) := by
  have hstart := refines_start (E := E) (n := n) idle
  obtain ⟨p, post, href⟩ := hstart.run hn False (fun _ _ ok => ⟨ok, False.elim⟩) False.elim run
  refine ⟨fun k => (href k).reading, ?_, fun hmax clean => ?_⟩
  · exact (List.sublist_append_left _ _).trans (Post.received_sublist post a b)
  · obtain ⟨tr', h', settled, hsent, hnone⟩ :=
      exists_settled (S := S) hn ⟨p, href⟩ (writing_of_run hn hstart (fun _ => rfl) clean a) b
    have whole := clean.trans (settled.mono fun _ act hact => hact.sized_faultless n)
    obtain ⟨p', post', href'⟩ := hstart.run hn True (fun _ _ ok => ⟨ok.1, fun _ => ok.2⟩)
      (fun _ => hmax) whole
    have hall := Post.received_eq (post'.mono fun _ _ hk => hk trivial) a b
    rw [hnone p' href', List.append_nil, Post.sentTo_append, hsent, List.append_nil] at hall
    exact ⟨tr', h', settled, hsent, hall⟩

section Examples

/-- A client that sends two packets to another one; the second is still in the channel when the
first arrives in two pieces. -/
def twoPackets (a b : Block 32) : List HubAction :=
  [.send a b [1, 2], .write a (Block.zero 24) none, .send a b [3], .relay a false, .arrive b 3,
    .poll b, .arrive b 100, .poll b]

/-- One packet has come, and the other one can. -/
theorem relayed_sample : ∃ (a b : Block 32) (tr tr' : List (Post.Event (Block 32) Bytes))
    (h h' : Hub),
    Run (Hub.step .idle ⟨fun _ => none, fun _ _ _ => none⟩)
      (fun _ act => act.Sized 100 ∧ act.Faultless)
      (start fun k => .new k (Block.zero 32) true) tr h ∧
    Post.receivedFrom a b tr = [[1, 2]] ∧ Post.sentTo a b tr = [[1, 2], [3]] ∧
    Run (Hub.step .idle ⟨fun _ => none, fun _ _ _ => none⟩) (fun _ act => act.Settles) h tr' h' ∧
    Post.receivedFrom a b (tr ++ tr') = [[1, 2], [3]] := by
  let a : Block 32 := Block.zero 32
  let b : Block 32 := ⟨List.replicate 32 1, rfl⟩
  have check : (exec (Hub.step .idle ⟨fun _ => none, fun _ _ _ => none⟩)
      (start fun k => .new k (Block.zero 32) true) (twoPackets a b)).any (fun r =>
        Post.receivedFrom a b r.2 = [[1, 2]] ∧ Post.sentTo a b r.2 = [[1, 2], [3]]) = true := by
    decide +kernel
  obtain ⟨⟨h, tr⟩, hexec, hcheck⟩ := (Option.any_eq_true _ _).mp check
  obtain ⟨hreceived, hsent⟩ := of_decide_eq_true hcheck
  have run : Run (Hub.step .idle ⟨fun _ => none, fun _ _ _ => none⟩)
      (fun _ act => act.Sized 100 ∧ act.Faultless) (start fun k => .new k (Block.zero 32) true)
      tr h := by
    refine Run.of_exec (fun _ act hact => ?_) hexec
    simp only [twoPackets, List.mem_cons, List.not_mem_nil, or_false] at hact
    rcases hact with rfl | rfl | rfl | rfl | rfl | rfl | rfl | rfl <;>
      simp [HubAction.Sized, HubAction.Faultless]
  obtain ⟨tr', h', settled, -, hall⟩ := (relayed .idle ⟨fun _ => none, fun _ _ _ => none⟩
    (fun _ => ⟨rfl, rfl⟩) (show 100 + 32 < 2 ^ 32 by decide) (run.mono fun _ _ ok => ok.1)
    a b).2.2 (by decide) run
  exact ⟨a, b, tr, tr', h, h', run, hreceived, hsent, settled, hall.trans hsent⟩

end Examples

end Hub

end Vlink.Derp
