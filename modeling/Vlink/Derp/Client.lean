import Vlink.Derp.Panics

set_option autoImplicit false

/-!
# Logging in to a DERP server

`derp_client.rs` and the encoder of `derp_codec.rs`. After the connection is upgraded, the server
sends its public key; the client answers with a sealed `ClientInfo`, and the server with a sealed
`ServerInfo`. `await_handshake` reads the stream until this has happened, and puts the `ClientInfo`
in a channel. Another task takes requests from the channel, encodes them and writes them; encoder
and decoder share the codec, and with it the box that the server key gives.

When the stream ends `await_handshake` leaves its loop and hands back `Ok`, as if the login had
succeeded. It does not look at what `send` hands back either, so that it may log in without having
answered. And `send` waits while the channel is full: if the connection takes nothing, a server that
goes on sending keys keeps `await_handshake` from coming back at all.

## Main definitions

* `Vlink.Derp.DerpCodec.encode` — the encoder.
* `Vlink.Derp.Login`, `Vlink.Derp.Login.step` — `await_handshake` with its stream and its channel,
  and the task that writes.
* `Vlink.Derp.LoggedIn` — the login has happened.

## Main results

* `Vlink.Derp.DerpCodec.decode_box` — what a call of the decoder does to the box, and that a
  `ServerInfo` was opened with it.
* `Vlink.Derp.Login.Inv.step` — the invariant of the login.
* `Vlink.Derp.Login.waits_iff` — when the reading task cannot go on.
* `Vlink.Derp.login_iff` — as long as the stream does not end and the channel is open and has room,
  `await_handshake` comes back, with `Ok` exactly if the login has happened.
* `Vlink.Derp.login_without_server` — a stream that ends at once, a channel that is closed, and one
  that is full.

## Design

A step of the reading task is one poll of the framed stream, or one `send`. At the end of the
stream the decoder is called once more for each item that is still in the buffer; bytes that are
left over are an error.

The writing task takes a request out of the channel and encodes it in one step; that the connection
has taken the frame is another one, and need not come. A `send` to a full channel has no step.
-/

namespace Vlink.Derp

/-! ## The encoder -/

/-- `PROTOCOL_VERSION`. -/
def protocolVersion : UInt8 := 2

/-- `ClientInfo`, without the fields that are not written. -/
structure ClientInfo where
  version : UInt8
  canAckPings : Bool
deriving DecidableEq

/-- `ClientInfo::new`. -/
def ClientInfo.new (canAckPings : Bool) : ClientInfo := ⟨protocolVersion, canAckPings⟩

/-- `DerpRequest`. -/
inductive DerpRequest where
  | clientInfo (info : ClientInfo)
  | sendPacket (dstKey data : Bytes)
  | test
deriving DecidableEq

/-- The errors of `errors.rs` that encoding hands back. -/
inductive SendError where
  | encodeError
  | noServerKey
  | encryptError
deriving DecidableEq

/-- What other crates do for the encoder: `serde_json::to_string` at the type `ClientInfo`, and
`SalsaBox::encrypt`. -/
structure Sealer where
  clientInfo : ClientInfo → Option Bytes
  encrypt : Block 32 × Block 32 → Block 24 → Bytes → Option Bytes

namespace DerpCodec

variable (S : Sealer)

/-- `DerpCodec::encrypt_data`, with the nonce that it draws. -/
def encryptData (c : DerpCodec) (nonce : Block 24) (data : Bytes) : Except SendError Bytes :=
  match c.salsaBox with
  | none => .error .noServerKey
  | some box =>
    match S.encrypt box nonce data with
    | none => .error .encryptError
    | some bytes => .ok bytes

/-- `DerpCodec::encode`: the buffer afterwards. -/
def encode (c : DerpCodec) (nonce : Block 24) (dst : Bytes) :
    DerpRequest → Except SendError Bytes
  | .clientInfo info =>
    match S.clientInfo info with
    | none => .error .encodeError
    | some json =>
      match c.encryptData S nonce json with
      | .error e => .error e
      | .ok bytes => .ok (writeFrame dst .frameClientInfo (c.publicKey.val ++ nonce.val ++ bytes))
  | .sendPacket dstKey data => .ok (writeFrame dst .frameSendPacket (dstKey ++ data))
  | .test => .ok dst

end DerpCodec

/-! ## What a call of the decoder does to the box -/

/-- The payload of a `ServerInfo`: a nonce, and text that the box opens. -/
def Opens (E : Crates) (box : Block 32 × Block 32) (payload : Bytes) (info : ServerInfo) : Prop :=
  ∃ (nonce : Block 24) (text plain : Bytes), payload = nonce.val ++ text ∧
    E.decrypt box nonce text = some plain ∧ E.serverInfo plain = some info

namespace DerpCodec

variable {E : Crates} {c c' : DerpCodec} {src rest data : Bytes}

/-- The payload of the frame that a call decodes. -/
def payload (c : DerpCodec) (src : Bytes) : Bytes :=
  match c.takeHeader src with
  | (.ok (some header), _, rest) => rest.take header.len
  | _ => []

/-- What is decrypted was opened with the box. -/
lemma decryptData_eq_ok {plain : Bytes} (h : c.decryptData E data = .ret (.ok plain)) :
    ∃ box nonce text, c.salsaBox = some box ∧ data = nonce.val ++ text ∧
      E.decrypt box nonce text = some plain := by
  unfold decryptData at h
  obtain ⟨nonce, hnonce, h⟩ := Outcome.bind_eq_ret.mp h
  have hlen : 0 + 24 ≤ data.length := Bytes.block_returns_iff.mp ⟨nonce, hnonce⟩
  have hdata : data = nonce.val ++ data.drop 24 := by
    rw [Bytes.block_eq_ret hlen] at hnonce
    cases hnonce
    simp
  have hslice : Bytes.slice data 24 data.length = .ret (data.drop 24) := by
    rw [Bytes.slice_of_le (by omega) le_rfl, List.take_of_length_le (by simp)]
  cases hbox : c.salsaBox with
  | none => simp [hbox] at h
  | some box =>
    simp only [hbox, hslice, Outcome.ret_bind] at h
    refine ⟨box, nonce, data.drop 24, rfl, hdata, ?_⟩
    cases hd : E.decrypt box nonce (data.drop 24) with
    | none => simp [hd] at h
    | some p =>
      simp only [hd, Outcome.pure_eq, Outcome.ret.injEq, Except.ok.injEq] at h
      rw [h]

/-- What the box is after a result, and what a `ServerInfo` says about it. -/
def BoxAfter (E : Crates) (c : DerpCodec) (payload : Bytes) (c' : DerpCodec) :
    Except Error (Option DerpResponse) → Prop
  | .ok (some (.frameServerKey key)) => c'.salsaBox = some (key, c.privateKey)
  | .ok (some (.serverInfo info)) =>
    c'.salsaBox = c.salsaBox ∧ ∃ box, c.salsaBox = some box ∧ Opens E box payload info
  | _ => c'.salsaBox = c.salsaBox

/-- What `decode_frame` does to the box. -/
lemma decodeFrame_box {header : Header} {r : Except Error (Option DerpResponse)}
    (h : c.decodeFrame E header data = .ret (r, c')) :
    c'.privateKey = c.privateKey ∧ BoxAfter E c data c' r := by
  unfold decodeFrame at h
  split at h
  · obtain ⟨tail, -, h⟩ := Outcome.bind_eq_ret.mp h
    obtain ⟨key, -, h⟩ := Outcome.bind_eq_ret.mp h
    cases h
    exact ⟨rfl, rfl⟩
  · obtain ⟨plain, hplain, h⟩ := Outcome.bind_eq_ret.mp h
    cases plain with
    | error e =>
      cases h
      exact ⟨rfl, rfl⟩
    | ok plain =>
      cases hinfo : E.serverInfo plain with
      | none =>
        simp only [hinfo, Outcome.pure_eq, Outcome.ret.injEq, Prod.mk.injEq] at h
        obtain ⟨rfl, rfl⟩ := h
        exact ⟨rfl, rfl⟩
      | some info =>
        simp only [hinfo, Outcome.pure_eq, Outcome.ret.injEq, Prod.mk.injEq] at h
        obtain ⟨rfl, rfl⟩ := h
        obtain ⟨box, nonce, text, hbox, hdata, hopen⟩ := decryptData_eq_ok hplain
        exact ⟨rfl, rfl, box, hbox, nonce, text, plain, hdata, hopen, hinfo⟩
  · cases h
    exact ⟨rfl, rfl⟩
  · obtain ⟨src, -, h⟩ := Outcome.bind_eq_ret.mp h
    obtain ⟨packet, -, h⟩ := Outcome.bind_eq_ret.mp h
    cases h
    exact ⟨rfl, rfl⟩
  · obtain ⟨key, -, h⟩ := Outcome.bind_eq_ret.mp h
    split at h
    · cases h
    · cases h
      exact ⟨rfl, rfl⟩
  · cases h
    exact ⟨rfl, rfl⟩

/-- The header of the next frame has nothing to do with the keys. -/
lemma takeHeader_keys {r : Except Error (Option Header)}
    (h : c.takeHeader src = (r, c', rest)) :
    c'.privateKey = c.privateKey ∧ c'.salsaBox = c.salsaBox := by
  unfold takeHeader at h
  split at h
  · cases h
    exact ⟨rfl, rfl⟩
  · split at h
    · dsimp only at h
      split_ifs at h <;> cases h <;> exact ⟨rfl, rfl⟩
    · cases h
      exact ⟨rfl, rfl⟩

/-- **What a call of the decoder does to the box.** Only a server key changes it, and a
`ServerInfo` was opened with it. -/
theorem decode_box {r : Except Error (Option DerpResponse)}
    (h : c.decode E src = .ret (r, c', rest)) :
    c'.privateKey = c.privateKey ∧ BoxAfter E c (c.payload src) c' r := by
  unfold decode at h
  split_ifs at h
  · split at h
    · cases h
      exact ⟨rfl, rfl⟩
    · cases h
      exact ⟨rfl, rfl⟩
    · split_ifs at h
      cases h
      exact ⟨rfl, rfl⟩
  · split at h
    · next ht =>
      cases h
      exact takeHeader_keys ht
    · next ht =>
      cases h
      exact takeHeader_keys ht
    · next header c₁ src₁ ht =>
      obtain ⟨hkey, hbox⟩ := takeHeader_keys ht
      split_ifs at h
      · cases h
        exact ⟨hkey, hbox⟩
      · obtain ⟨⟨r₁, c₂⟩, hf, hr⟩ := Outcome.bind_eq_ret.mp h
        cases hr
        have hpayload : c.payload src = src₁.take header.len := by rw [payload, ht]
        obtain ⟨hkey', hafter⟩ := decodeFrame_box hf
        refine ⟨hkey'.trans hkey, ?_⟩
        rw [hpayload]
        unfold BoxAfter at hafter ⊢
        rw [hkey, hbox] at hafter
        exact hafter

/-- What a codec has taken from the stream and not used: a header that is kept stands for five
bytes. The upgrade is still to come, or not. -/
def pending (c : DerpCodec) : ℕ :=
  (if c.header.isSome then 5 else 0) + if c.toWsResponse then 1 else 0

/-- The header of the next frame takes its five bytes. -/
lemma pending_takeHeader {header : Header}
    (h : c.takeHeader src = (.ok (some header), c', rest)) :
    c'.pending + 5 + rest.length = c.pending + src.length ∧ c'.header = none := by
  unfold takeHeader at h
  split at h
  · next kept hkept =>
    cases h
    simp only [pending, hkept, Option.isSome_some, Option.isSome_none, if_true]
    exact ⟨by simp; omega, trivial⟩
  · next hnone =>
    split at h
    · dsimp only at h
      split_ifs at h
      · cases h
      · cases h
        exact ⟨by simp; omega, hnone⟩
    · cases h

/-- A call that waits takes nothing from the stream, and an item uses something up. -/
lemma pending_decode {r : Option DerpResponse} (h : c.decode E src = .ret (.ok r, c', rest)) :
    c'.pending + rest.length + (if r.isSome then 1 else 0) ≤ c.pending + src.length := by
  unfold decode at h
  split_ifs at h with hws
  · split at h
    · cases h
    · cases h
      simp
    · split_ifs at h
      cases h
      simp only [pending, hws, if_true, List.length_drop, Option.isSome_some]
      simp
      omega
  · split at h
    · cases h
    · next ht =>
      unfold takeHeader at ht
      split at ht
      · cases ht
      · split at ht
        · dsimp only at ht
          split_ifs at ht <;> cases ht
        · cases ht
          cases h
          simp
    · next header c₁ src₁ ht =>
      obtain ⟨hsum, hnone⟩ := pending_takeHeader ht
      split_ifs at h with hlen
      · cases h
        simp only [pending, hnone, Option.isSome_none, Option.isSome_some, if_true] at hsum ⊢
        simp at hsum ⊢
        omega
      · obtain ⟨⟨r₁, c₂⟩, hf, hr⟩ := Outcome.bind_eq_ret.mp h
        have hsame : r₁ = .ok r → c₂.pending = c₁.pending := by
          rcases decodeFrame_cases (E := E) c₁ header (src₁.take header.len) with
            hp | ⟨e, he⟩ | ⟨i, c₃, hi, hws', hh⟩
          · rw [hp] at hf
            cases hf
          · rw [he] at hf
            cases hf
            exact fun _ => rfl
          · rw [hi] at hf
            cases hf
            intro _
            rw [pending, pending, hws', hh]
        cases hr
        have hpend := hsame rfl
        have hone : (if r.isSome then 1 else 0) ≤ 1 := by split_ifs <;> omega
        rw [List.length_drop]
        omega

end DerpCodec

/-! ## The login -/

/-- Where `await_handshake` stands. -/
inductive LoginTask where
  /-- At the head of the loop, in `stream.next()`. -/
  | reading
  /-- A server key has come; the `ClientInfo` is put in the channel next. -/
  | answering
  /-- Handed back `Ok`, or `HandshakeError`. -/
  | done (ok : Bool)
  | panicked
deriving DecidableEq

/-- The capacity of the channel of requests. -/
def requestCapacity : ℕ := 32

/-- Where the task that writes stands. -/
inductive Writer where
  /-- In `rx.recv()`. -/
  | waiting
  /-- In `sink.send`, with a frame that the connection has not taken. -/
  | flushing (frame : Bytes)
  /-- Over; the receiver of the channel is gone. -/
  | ended
deriving DecidableEq

/-- `await_handshake` with the framed stream, and the channel of the task that writes. The input is
what reads of the connection will give, bytes or an error, before the end of the stream. -/
structure Login where
  codec : DerpCodec
  buf : Bytes := []
  input : List (Except Unit Bytes)
  /-- A read has returned nothing: the end of the stream. -/
  eof : Bool := false
  channel : List DerpRequest := []
  writer : Writer := .waiting
  task : LoginTask := .reading

/-- What can be observed. -/
inductive LoginEvent where
  /-- The connection was read. -/
  | read
  /-- The stream yields a response, decoded from that payload; or an error; or its end. -/
  | received (r : DerpResponse) (payload : Bytes)
  | failed
  | ended
  /-- `send` has put a request in the channel, or found the channel closed. -/
  | queued (request : DerpRequest)
  | unsent
  /-- The other task has written a frame, or has ended. -/
  | written (frame : Bytes)
  | writerEnded
deriving DecidableEq

/-- The steps. -/
inductive LoginAction where
  /-- A round of `poll_next`, and the `send` of the answer. -/
  | poll
  | send
  /-- The task that writes takes a request. -/
  | take (nonce : Block 24)
  /-- The connection has taken the frame, or has failed. -/
  | flush (sent : Bool)

namespace Login

/-- `DerpClient::async_connect`, when it comes to the login. -/
def new (publicKey privateKey : Block 32) (fastConnect : Bool) (input : List (Except Unit Bytes)) :
    Login where
  codec := .new publicKey privateKey fastConnect
  input := input

/-- The receiver of the channel is there. -/
def isOpen (s : Login) : Bool := s.writer ≠ .ended

/-- The channel has a free place. -/
def hasRoom (s : Login) : Bool := s.channel.length < requestCapacity

/-- What the loop does with a response. -/
def react (s : Login) (r : DerpResponse) : LoginTask :=
  match r with
  | .frameServerKey _ => .answering
  | .serverInfo _ => .done true
  | _ => s.task

/-- The decoder waits: read on. At the end of the stream `decode_eof` makes an error of what is left
in the buffer; if nothing is left, the loop is over. -/
def readOn (s : Login) : Login × List LoginEvent :=
  if s.eof then
    if s.buf = [] then ({ s with task := .done true }, [.ended])
    else ({ s with task := .done false }, [.failed])
  else
    match s.input with
    | [] => ({ s with eof := true }, [.read])
    | .error () :: rest => ({ s with input := rest, task := .done false }, [.failed])
    | .ok [] :: rest => ({ s with input := rest, eof := true }, [.read])
    | .ok (b :: chunk) :: rest =>
      ({ s with input := rest, buf := s.buf ++ b :: chunk }, [.read])

variable (E : Crates) (S : Sealer)

/-- One step; `none` if the action is not possible. -/
def step (s : Login) : LoginAction → Option (Login × List LoginEvent)
  | .poll =>
    match s.task with
    | .reading =>
      match s.codec.decode E s.buf with
      | .panic => some ({ s with task := .panicked }, [])
      | .ret (.error _, codec, buf) =>
        some ({ s with codec, buf, task := .done false }, [.failed])
      | .ret (.ok none, codec, buf) => some ({ s with codec, buf }.readOn)
      | .ret (.ok (some r), codec, buf) =>
        some ({ s with codec, buf, task := s.react r }, [.received r (s.codec.payload s.buf)])
    | _ => none
  | .send =>
    match s.task with
    | .answering =>
      if s.isOpen = false then some ({ s with task := .reading }, [.unsent])
      else if s.hasRoom then
        some ({ s with
          channel := s.channel ++ [.clientInfo (.new false)]
          task := .reading }, [.queued (.clientInfo (.new false))])
      else none
    | _ => none
  | .take nonce =>
    match s.writer, s.channel with
    | .waiting, request :: rest =>
      match s.codec.encode S nonce [] request with
      | .ok frame => some ({ s with channel := rest, writer := .flushing frame }, [])
      | .error _ => some ({ s with channel := [], writer := .ended }, [.writerEnded])
    | _, _ => none
  | .flush sent =>
    match s.writer with
    | .flushing frame =>
      if sent then some ({ s with writer := .waiting }, [.written frame])
      else some ({ s with channel := [], writer := .ended }, [.writerEnded])
    | _ => none

/-- The stream does not come to its end with nothing left in the buffer, no payload is of an
unsuitable length, the channel has room when a server key comes, and is open when the answer is
sent. -/
def attended (s : Login) : LoginAction → Bool
  | .poll =>
    match s.codec.decode E s.buf with
    | .panic => false
    | .ret (.ok none, _, buf) => !(s.eof && buf.isEmpty)
    | .ret (.ok (some (.frameServerKey _)), _, _) => s.hasRoom
    | _ => true
  | .send => s.isOpen
  | .take _ | .flush _ => true

/-- A run with steps that meet `guard` leads to `s` and emits `tr`. -/
def Reaches (s : Login) (publicKey privateKey : Block 32) (fastConnect : Bool)
    (input : List (Except Unit Bytes)) (guard : Login → LoginAction → Prop)
    (tr : List LoginEvent) : Prop :=
  Run (step E S) guard (new publicKey privateKey fastConnect input) tr s

end Login

/-- A server key was received. -/
def KeyReceived (key : Block 32) (tr : List LoginEvent) : Prop :=
  ∃ payload, .received (.frameServerKey key) payload ∈ tr

/-- A server key was received, and a `ClientInfo` was put in the channel after it. -/
def Answered (key : Block 32) (tr : List LoginEvent) : Prop :=
  ∃ payload info,
    [.received (.frameServerKey key) payload, .queued (.clientInfo info)].Sublist tr

/-- **The login has happened**: a server key was received, then a `ClientInfo` was put in the
channel, then a `ServerInfo` was received that opens under this server key. -/
def LoggedIn (E : Crates) (privateKey : Block 32) (tr : List LoginEvent) : Prop :=
  ∃ key payload clientInfo payload' info,
    [.received (.frameServerKey key) payload, .queued (.clientInfo clientInfo),
      .received (.serverInfo info) payload'].Sublist tr ∧
    Opens E (key, privateKey) payload' info

section Traces

variable {E : Crates} {key privateKey : Block 32} {tr evs : List LoginEvent}

/-- A key that was received stays so. -/
lemma KeyReceived.append (h : KeyReceived key tr) : KeyReceived key (tr ++ evs) := by
  obtain ⟨payload, h⟩ := h
  exact ⟨payload, List.mem_append_left _ h⟩

/-- An answer that was sent stays so. -/
lemma Answered.append (h : Answered key tr) : Answered key (tr ++ evs) := by
  obtain ⟨payload, info, h⟩ := h
  exact ⟨payload, info, h.trans (List.sublist_append_left _ _)⟩

/-- A login that has happened stays so. -/
lemma LoggedIn.append (h : LoggedIn E privateKey tr) : LoggedIn E privateKey (tr ++ evs) := by
  obtain ⟨key, payload, clientInfo, payload', info, h, hopens⟩ := h
  exact ⟨key, payload, clientInfo, payload', info, h.trans (List.sublist_append_left _ _), hopens⟩

/-- A key that was received is answered. -/
lemma KeyReceived.answered (h : KeyReceived key tr) (info : ClientInfo) :
    Answered key (tr ++ [.queued (.clientInfo info)]) := by
  obtain ⟨payload, h⟩ := h
  exact ⟨payload, info, (List.singleton_sublist.mpr h).append (List.Sublist.refl _)⟩

/-- A `ServerInfo` comes after the answer. -/
lemma Answered.loggedIn (h : Answered key tr) {payload : Bytes} {info : ServerInfo}
    (hopens : Opens E (key, privateKey) payload info) :
    LoggedIn E privateKey (tr ++ [.received (.serverInfo info) payload]) := by
  obtain ⟨payload', clientInfo, h⟩ := h
  exact ⟨key, payload', clientInfo, payload, info, h.append (List.Sublist.refl _), hopens⟩

/-- A login needs a `ServerInfo`. -/
lemma LoggedIn.received (h : LoggedIn E privateKey tr) :
    ∃ info payload, .received (.serverInfo info) payload ∈ tr := by
  obtain ⟨key, payload, clientInfo, payload', info, h, -⟩ := h
  exact ⟨info, payload', h.subset (by simp)⟩

end Traces

/-- What is known of a login whose steps are attended. -/
structure Login.Inv (E : Crates) (privateKey : Block 32) (tr : List LoginEvent) (s : Login) :
    Prop where
  key : s.codec.privateKey = privateKey
  /-- The box is that of a server key that was received. It was answered, or is about to be. -/
  box : ∀ box, s.codec.salsaBox = some box → ∃ key, box = (key, privateKey) ∧
    KeyReceived key tr ∧ (s.task ≠ .answering → Answered key tr)
  done : s.task = .done true → LoggedIn E privateKey tr
  alive : s.task ≠ .panicked
  /-- There is room for the answer that is about to be sent. -/
  room : s.task = .answering → s.isOpen = true → s.hasRoom = true
  info : ∀ info payload, .received (.serverInfo info) payload ∈ tr → s.task = .done true

namespace Login

variable {E : Crates} {S : Sealer} {s s' : Login} {a : LoginAction} {tr evs : List LoginEvent}
  {publicKey privateKey : Block 32} {fastConnect : Bool} {input : List (Except Unit Bytes)}

/-- The invariant holds at the start. -/
lemma inv_new : (new publicKey privateKey fastConnect input).Inv E privateKey [] where
  key := rfl
  box _ h := by cases h
  done h := by cases h
  alive h := by cases h
  room h := by cases h
  info _ _ h := by cases h

/-- A step that leaves the keys alone, and neither begins nor ends an answer or a login. -/
lemma Inv.keep (h : s.Inv E privateKey tr) (hkey : s'.codec.privateKey = s.codec.privateKey)
    (hbox : s'.codec.salsaBox = s.codec.salsaBox)
    (hans : s'.task ≠ .answering → s.task ≠ .answering)
    (hdone : s'.task = .done true ↔ s.task = .done true) (halive : s'.task ≠ .panicked)
    (hroom : s'.task = .answering → s'.isOpen = true → s'.hasRoom = true)
    (hevs : ∀ info payload, .received (.serverInfo info) payload ∉ evs) :
    s'.Inv E privateKey (tr ++ evs) where
  key := hkey.trans h.key
  box box hb := by
    obtain ⟨key, hpair, hrec, hanswered⟩ := h.box box (hbox ▸ hb)
    exact ⟨key, hpair, hrec.append, fun ht => (hanswered (hans ht)).append⟩
  done ht := (h.done (hdone.mp ht)).append
  alive := halive
  room := hroom
  info info payload hmem := by
    rcases List.mem_append.mp hmem with hmem | hmem
    · exact hdone.mpr (h.info info payload hmem)
    · exact absurd hmem (hevs info payload)

/-- A server key has come. -/
lemma Inv.key_received (h : s.Inv E privateKey tr) (hread : s.task = .reading)
    (hroom : s.hasRoom = true) {key : Block 32} {payload : Bytes} {codec : DerpCodec} {buf : Bytes}
    (hkey : codec.privateKey = s.codec.privateKey)
    (hbox : codec.salsaBox = some (key, s.codec.privateKey)) :
    ({ s with codec, buf, task := .answering } : Login).Inv E privateKey
      (tr ++ [.received (.frameServerKey key) payload]) where
  key := hkey.trans h.key
  box box hb := by
    obtain rfl : (key, s.codec.privateKey) = box := Option.some.inj (hbox.symm.trans hb)
    exact ⟨key, by rw [h.key], ⟨payload, by simp⟩, fun ht => absurd rfl ht⟩
  done ht := by cases ht
  alive ht := by cases ht
  room _ _ := hroom
  info info payload' hmem := by
    rcases List.mem_append.mp hmem with hmem | hmem
    · have := h.info info payload' hmem
      rw [hread] at this
      cases this
    · simp at hmem

/-- The answer has been put in the channel. -/
lemma Inv.answered (h : s.Inv E privateKey tr) (hans : s.task = .answering) (info : ClientInfo)
    (channel : List DerpRequest) :
    ({ s with channel, task := .reading } : Login).Inv E privateKey
      (tr ++ [.queued (.clientInfo info)]) where
  key := h.key
  box box hb := by
    obtain ⟨key, hpair, hrec, -⟩ := h.box box hb
    exact ⟨key, hpair, hrec.append, fun _ => hrec.answered info⟩
  done ht := by cases ht
  alive ht := by cases ht
  room ht := by cases ht
  info info payload hmem := by
    rcases List.mem_append.mp hmem with hmem | hmem
    · have := h.info info payload hmem
      rw [hans] at this
      cases this
    · simp at hmem

/-- A `ServerInfo` has come: the box that opens it is that of a key that was answered. -/
lemma Inv.logged_in (h : s.Inv E privateKey tr) (hread : s.task = .reading) {info : ServerInfo}
    {payload : Bytes} {box : Block 32 × Block 32} {codec : DerpCodec} {buf : Bytes}
    (hkey : codec.privateKey = s.codec.privateKey) (hsame : codec.salsaBox = s.codec.salsaBox)
    (hbox : s.codec.salsaBox = some box) (hopens : Opens E box payload info) :
    ({ s with codec, buf, task := .done true } : Login).Inv E privateKey
      (tr ++ [.received (.serverInfo info) payload]) where
  key := hkey.trans h.key
  box box' hb := by
    obtain ⟨key, hpair, hrec, hans⟩ := h.box box' (hsame ▸ hb)
    exact ⟨key, hpair, hrec.append, fun _ => (hans (by simp [hread])).append⟩
  done _ := by
    obtain ⟨key, rfl, -, hans⟩ := h.box box hbox
    exact (hans (by simp [hread])).loggedIn hopens
  alive ht := by cases ht
  room ht := by cases ht
  info _ _ _ := rfl

/-- Reading on after a call that waits. -/
lemma Inv.readOn (h : s.Inv E privateKey tr) (hread : s.task = .reading)
    (hrest : (s.eof && s.buf.isEmpty) = false) :
    s.readOn.1.Inv E privateKey (tr ++ s.readOn.2) := by
  unfold Login.readOn
  split_ifs with heof hbuf
  · simp [heof, hbuf] at hrest
  · exact h.keep rfl rfl (by simp [hread]) (by simp [hread]) (by simp) (by simp) (by simp)
  · split <;> exact h.keep rfl rfl (by simp [hread]) (by simp [hread]) (by simp [hread])
      (by simp [hread]) (by simp)

/-- The task that writes has taken a request: there is a frame to be written, or the task is
over. -/
lemma step_take {nonce : Block 24} (hstep : s.step E S (.take nonce) = some (s', evs)) :
    ∃ request rest, s.writer = .waiting ∧ s.channel = request :: rest ∧
      ((∃ frame, s' = { s with channel := rest, writer := .flushing frame } ∧ evs = []) ∨
        s' = { s with channel := [], writer := .ended } ∧ evs = [.writerEnded]) := by
  simp only [Login.step] at hstep
  split at hstep
  · next request rest hwriter hchannel =>
    refine ⟨request, rest, hwriter, hchannel, ?_⟩
    split at hstep <;> cases hstep
    · exact .inl ⟨_, rfl, rfl⟩
    · exact .inr ⟨rfl, rfl⟩
  · cases hstep

/-- The connection has taken a frame, or the task that writes is over. -/
lemma step_flush {sent : Bool} (hstep : s.step E S (.flush sent) = some (s', evs)) :
    ∃ frame, s.writer = .flushing frame ∧
      (s' = { s with writer := .waiting } ∧ evs = [.written frame] ∨
        s' = { s with channel := [], writer := .ended } ∧ evs = [.writerEnded]) := by
  simp only [Login.step] at hstep
  split at hstep
  · next frame hwriter =>
    refine ⟨frame, hwriter, ?_⟩
    split_ifs at hstep <;> cases hstep
    · exact .inl ⟨rfl, rfl⟩
    · exact .inr ⟨rfl, rfl⟩
  · cases hstep

/-- **Step lemma.** An attended step keeps the invariant.

**Proof sketch.** A poll changes the box only if it decodes a server key, and then the channel has
room for the answer; the `send` that follows answers that key. A `ServerInfo` was opened with the
box, that is, with a key that was answered. The writing task only makes room. -/
theorem Inv.step (h : s.Inv E privateKey tr) (ok : s.attended E a = true)
    (hstep : s.step E S a = some (s', evs)) : s'.Inv E privateKey (tr ++ evs) := by
  cases a with
  | poll =>
    simp only [Login.step] at hstep
    split at hstep
    · next hread =>
      cases hd : s.codec.decode E s.buf with
      | panic => simp [attended, hd] at ok
      | ret x =>
        obtain ⟨r, codec, buf⟩ := x
        obtain ⟨hkey, hafter⟩ := DerpCodec.decode_box hd
        rw [hd] at hstep
        cases r with
        | error e =>
          cases hstep
          exact h.keep hkey hafter (by simp [hread]) (by simp [hread]) (by simp) (by simp) (by simp)
        | ok r =>
          cases r with
          | none =>
            have hrest : (s.eof && buf.isEmpty) = false := by
              simpa only [attended, hd, Bool.not_eq_true'] using ok
            obtain ⟨rfl, rfl⟩ := Prod.ext_iff.mp (Option.some.inj hstep)
            have hcodec : ({ s with codec, buf } : Login).Inv E privateKey tr := by
              have hnil : ({ s with codec, buf } : Login).Inv E privateKey (tr ++ []) :=
                h.keep hkey hafter id Iff.rfl h.alive h.room (by simp)
              rwa [List.append_nil] at hnil
            exact hcodec.readOn hread hrest
          | some r =>
            cases hstep
            cases r with
            | frameServerKey key =>
              have hroom : s.hasRoom = true := by simpa only [attended, hd] using ok
              exact h.key_received hread hroom hkey hafter
            | serverInfo info =>
              obtain ⟨hsame, box, hbox, hopens⟩ := hafter
              exact h.logged_in hread hkey hsame hbox hopens
            | ws | frameRecvPacket _ _ | framePeerGonePacket _ _ | frameKeepAlive | test =>
              exact h.keep hkey hafter id Iff.rfl h.alive h.room (by simp)
    · cases hstep
  | send =>
    simp only [Login.step] at hstep
    split at hstep
    · next hans =>
      split_ifs at hstep with hclosed
      · exact absurd (hclosed.symm.trans ok) Bool.false_ne_true
      · cases hstep
        exact h.answered hans _ _
    · cases hstep
  | take nonce =>
    obtain ⟨request, rest, hwriter, hchannel, ⟨frame, rfl, rfl⟩ | ⟨rfl, rfl⟩⟩ := step_take hstep
    · refine h.keep rfl rfl id Iff.rfl h.alive (fun hans _ => ?_) (by simp)
      have hroom := h.room hans (by simp [isOpen, hwriter])
      simp only [hasRoom, hchannel, List.length_cons, decide_eq_true_eq] at hroom ⊢
      omega
    · exact h.keep rfl rfl id Iff.rfl h.alive (fun _ hopen => by simp [isOpen] at hopen) (by simp)
  | flush sent =>
    obtain ⟨frame, hwriter, ⟨rfl, rfl⟩ | ⟨rfl, rfl⟩⟩ := step_flush hstep
    · refine h.keep rfl rfl id Iff.rfl h.alive (fun hans _ => ?_) (by simp)
      exact h.room hans (by simp [isOpen, hwriter])
    · exact h.keep rfl rfl id Iff.rfl h.alive (fun _ hopen => by simp [isOpen] at hopen) (by simp)

/-- **Run lemma.** -/
lemma Reaches.inv (run : s.Reaches E S publicKey privateKey fastConnect input
    (fun s a => s.attended E a = true) tr) : s.Inv E privateKey tr :=
  Run.invariant (I := fun tr s => Login.Inv E privateKey tr s) inv_new
    (fun _ ih ok hstep => ih.step ok hstep) run

/-! ## The login comes to an end -/

/-- What a read is to the reading task: itself, and the bytes that it gives. -/
def readSize : Except Unit Bytes → ℕ
  | .error _ => 1
  | .ok chunk => chunk.length + 1

/-- What is left to do for the reading task. -/
def left (s : Login) : ℕ :=
  let rest := s.codec.pending + s.buf.length + (s.input.map readSize).sum + if s.eof then 0 else 1
  match s.task with
  | .reading => 2 * rest + 1
  | .answering => 2 * rest + 2
  | .done _ | .panicked => 0

end Login

/-- What the reading task does. -/
def LoginEvent.ofReader : LoginEvent → Bool
  | .written _ | .writerEnded => false
  | _ => true

namespace Login

variable {E : Crates} {S : Sealer} {s s' : Login} {a : LoginAction} {tr evs : List LoginEvent}
  {publicKey privateKey : Block 32} {fastConnect : Bool} {input : List (Except Unit Bytes)}

/-- Reading on leaves less to do. -/
lemma left_readOn (hread : s.task = .reading) :
    s.readOn.2.countP LoginEvent.ofReader + s.readOn.1.left ≤ s.left := by
  unfold Login.readOn
  split_ifs with heof hbuf
  · simp [left, hread, LoginEvent.ofReader]
  · simp [left, hread, LoginEvent.ofReader]
  · split
    · next hin =>
      simp [left, hread, hin, heof, LoginEvent.ofReader]
      omega
    · simp [left, hread, LoginEvent.ofReader]
    · next hin =>
      simp [left, hread, hin, heof, readSize, LoginEvent.ofReader]
      omega
    · next hin =>
      simp [left, hread, hin, heof, readSize, LoginEvent.ofReader]
      omega

/-- Each step of the reading task leaves less to do, and the other task does not matter to it. -/
lemma left_step (hstep : s.step E S a = some (s', evs)) :
    evs.countP LoginEvent.ofReader + s'.left ≤ s.left := by
  cases a with
  | poll =>
    simp only [Login.step] at hstep
    split at hstep
    · next hread =>
      cases hd : s.codec.decode E s.buf with
      | panic =>
        rw [hd] at hstep
        cases hstep
        simp [left]
      | ret x =>
        obtain ⟨r, codec, buf⟩ := x
        rw [hd] at hstep
        cases r with
        | error e =>
          cases hstep
          simp [left, hread, LoginEvent.ofReader]
        | ok r =>
          have hpend := DerpCodec.pending_decode hd
          cases r with
          | none =>
            obtain ⟨rfl, rfl⟩ := Prod.ext_iff.mp (Option.some.inj hstep)
            refine (left_readOn (s := { s with codec, buf }) hread).trans ?_
            simp only [left, hread]
            simp at hpend
            omega
          | some r =>
            cases hstep
            simp only [Option.isSome_some, if_true] at hpend
            cases r with
            | serverInfo info => simp [left, react, hread, LoginEvent.ofReader]
            | frameServerKey key =>
              simp [left, react, hread, LoginEvent.ofReader]
              omega
            | ws | frameRecvPacket _ _ | framePeerGonePacket _ _ | frameKeepAlive | test =>
              simp [left, react, hread, LoginEvent.ofReader]
              omega
    · cases hstep
  | send =>
    simp only [Login.step] at hstep
    split at hstep
    · next hans =>
      split_ifs at hstep <;> cases hstep <;> simp [left, hans, LoginEvent.ofReader] <;> omega
    · cases hstep
  | take nonce =>
    obtain ⟨request, rest, -, -, ⟨frame, rfl, rfl⟩ | ⟨rfl, rfl⟩⟩ := step_take hstep <;>
      simp [left, LoginEvent.ofReader]
  | flush sent =>
    obtain ⟨frame, -, ⟨rfl, rfl⟩ | ⟨rfl, rfl⟩⟩ := step_flush hstep <;>
      simp [left, LoginEvent.ofReader]

/-- The reading task makes no more steps than there is to do at the start. -/
lemma Reaches.count_le {guard : Login → LoginAction → Prop}
    (run : s.Reaches E S publicKey privateKey fastConnect input guard tr) :
    tr.countP LoginEvent.ofReader + s.left ≤
      (new publicKey privateKey fastConnect input).left := by
  refine Run.invariant (I := fun tr (s : Login) => tr.countP LoginEvent.ofReader + s.left ≤
    (new publicKey privateKey fastConnect input).left) ?_ ?_ run
  · simp
  · intro tr s a s' evs _ ih _ hstep
    have hle := left_step hstep
    rw [List.countP_append]
    omega

/-- **When the reading task cannot go on**: it is over or has panicked, or it has an answer for a
channel that is open and full. In the last case only the writing task can make room, and it does not
as long as the connection takes nothing. -/
theorem waits_iff (E : Crates) (S : Sealer) (s : Login) :
    (∀ a ∈ [LoginAction.poll, .send], s.step E S a = none) ↔
      (∃ ok, s.task = .done ok) ∨ s.task = .panicked ∨
        s.task = .answering ∧ s.isOpen = true ∧ s.hasRoom = false := by
  cases htask : s.task with
  | done ok => simp [step, htask]
  | panicked => simp [step, htask]
  | answering =>
    cases hopen : s.isOpen <;> cases hroom : s.hasRoom <;> simp [step, htask, hopen, hroom]
  | reading =>
    simp only [step, htask]
    rcases s.codec.decode E s.buf with ⟨_ | _ | _, _, _⟩ | _ <;> simp

end Login

/-- **The login is reported exactly if it has happened**, in every run with attended steps: whatever
the server sends, in whatever chunks, and whatever the task that writes does. And the login comes to
an end: the reading task can always make a step until it is over, and it makes no more steps than
the input allows.

**Proof sketch.** The invariant holds along the run. It says that a login that is reported has
happened, that a `ServerInfo` ends the login, that nothing has panicked, and that an answer that is
about to be sent finds room; so `waits_iff` leaves only the end of the login. Each step of the
reading task uses up some of the input. -/
theorem login_iff {E : Crates} {S : Sealer} {s : Login} {publicKey privateKey : Block 32}
    {fastConnect : Bool} {input : List (Except Unit Bytes)} {tr : List LoginEvent}
    (run : s.Reaches E S publicKey privateKey fastConnect input
      (fun s a => s.attended E a = true) tr) :
    (s.task = .done true ↔ LoggedIn E privateKey tr) ∧
    ((∃ ok, s.task = .done ok) ∨ ∃ a ∈ [LoginAction.poll, .send], (s.step E S a).isSome) ∧
    tr.countP LoginEvent.ofReader ≤ (Login.new publicKey privateKey fastConnect input).left := by
  have hinv := run.inv
  refine ⟨⟨hinv.done, fun h => ?_⟩, ?_, ?_⟩
  · obtain ⟨info, payload, hmem⟩ := h.received
    exact hinv.info info payload hmem
  · by_contra hstuck
    obtain ⟨hover, hnone⟩ := not_or.mp hstuck
    have hwaits : ∀ a ∈ [LoginAction.poll, .send], s.step E S a = none := fun a ha => by
      by_contra hsome
      exact hnone ⟨a, ha, Option.isSome_iff_ne_none.mpr hsome⟩
    rcases (Login.waits_iff E S s).mp hwaits with hdone | hpanic | ⟨hans, hopen, hfull⟩
    · exact hover hdone
    · exact hinv.alive hpanic
    · exact Bool.false_ne_true (hfull.symm.trans (hinv.room hans hopen))
  · have := run.count_le
    omega

section Examples

/-- Boxes for runs on fixed inputs: a text is sealed by putting the first byte of the server key in
front of it. The text of a `ServerInfo` is its version. -/
def Crates.toy : Crates where
  parseResponse _ := .ok none
  debug := id
  decrypt box _ text := if box.1.val.head? = text.head? then some text.tail else none
  serverInfo
    | [version] => some ⟨version⟩
    | _ => none

def Sealer.toy : Sealer where
  clientInfo info := some [info.version]
  encrypt box _ text := some (box.1.val.headD 0 :: text)

/-- The frames of a server whose key consists of the byte `b`. -/
def serverKeyFrame (b : UInt8) : Bytes :=
  frameBytes 1 (magic.toUTF8.toList ++ List.replicate 32 b)

def serverInfoFrame (b : UInt8) : Bytes := frameBytes 3 (List.replicate 24 0 ++ [b, 2])

/-- A login of a client whose keys are zero. -/
def Login.fresh (input : List (Except Unit Bytes)) : Login :=
  .new (Block.zero 32) (Block.zero 32) true input

/-- A login: the server key comes in two chunks, and then its `ServerInfo`. -/
theorem login_iff_sample : ∃ s tr,
    Login.Reaches .toy .toy s (Block.zero 32) (Block.zero 32) true
      [.ok ((serverKeyFrame 7).take 9), .ok ((serverKeyFrame 7).drop 9 ++ serverInfoFrame 7)]
      (fun s a => s.attended .toy a = true) tr ∧
    s.task = .done true ∧ LoggedIn .toy (Block.zero 32) tr := by
  obtain ⟨s, tr, run, hdone⟩ := exists_run_of_exec
    (checked (Login.step .toy .toy) (Login.attended .toy))
    [.poll, .poll, .poll, .send, .take (Block.zero 24), .flush true, .poll]
    (Login.fresh
      [.ok ((serverKeyFrame 7).take 9), .ok ((serverKeyFrame 7).drop 9 ++ serverInfoFrame 7)])
    (fun r => decide (r.1.task = .done true)) (by decide +kernel)
  have hdone : s.task = .done true := by simpa using hdone
  have run := run.of_checked
  exact ⟨s, tr, run, hdone, (login_iff run).1.mp hdone⟩

/-- The keys that are received, and `none` for each answer. -/
def LoginEvent.keyOrAnswer : LoginEvent → Option (Option (Block 32))
  | .received (.frameServerKey key) _ => some (some key)
  | .queued _ => some none
  | _ => none

/-- The payload of a `ServerInfo`. -/
def LoginEvent.sealedInfo : LoginEvent → Option Bytes
  | .received (.serverInfo _) payload => some payload
  | _ => none

/-- A server key comes, and is answered if there is room. -/
def keyAndAnswer : List LoginAction := [.poll, .poll, .send]

/-- Three servers. The first closes the stream at once, and the client is logged in by mistake. The
second sends a key, and the answer cannot be written, so that the task that writes ends. The server
sends another key, to which there is no answer, and its `ServerInfo`; the client is logged in by
mistake again. The third sends its key 34 times and takes no answer: one is on its way, 32 are in
the channel, and the login waits with the last one. -/
theorem login_without_server :
    (∃ s tr, Login.Reaches .toy .toy s (Block.zero 32) (Block.zero 32) true [] (fun _ _ => True)
      tr ∧ s.task = .done true ∧ ¬ LoggedIn .toy (Block.zero 32) tr) ∧
    (∃ s tr, Login.Reaches .toy .toy s (Block.zero 32) (Block.zero 32) true
        [.ok (serverKeyFrame 7 ++ serverKeyFrame 8 ++ serverInfoFrame 8)] (fun _ _ => True) tr ∧
      s.task = .done true ∧ ¬ LoggedIn .toy (Block.zero 32) tr) ∧
    ∃ s tr, Login.Reaches .toy .toy s (Block.zero 32) (Block.zero 32) true
        (List.replicate 34 (.ok (serverKeyFrame 7))) (fun _ _ => True) tr ∧
      (∀ a, (s.step .toy .toy a).isSome → ∃ sent, a = .flush sent) ∧ s.task = .answering := by
  refine ⟨?_, ?_, ?_⟩
  · obtain ⟨s, tr, run, hcheck⟩ := exists_run_of_exec (Login.step .toy .toy) [.poll, .poll]
      (Login.fresh []) (fun r => decide (r.1.task = .done true) && decide (r.2 = [.read, .ended]))
      (by decide +kernel)
    simp only [Bool.and_eq_true, decide_eq_true_eq] at hcheck
    obtain ⟨hdone, rfl⟩ := hcheck
    refine ⟨s, _, run, hdone, fun h => ?_⟩
    obtain ⟨info, payload, hmem⟩ := h.received
    simp at hmem
  · obtain ⟨s, tr, run, hcheck⟩ := exists_run_of_exec (Login.step .toy .toy)
      [.poll, .poll, .send, .take (Block.zero 24), .flush false, .poll, .send, .poll]
      (Login.fresh [.ok (serverKeyFrame 7 ++ serverKeyFrame 8 ++ serverInfoFrame 8)])
      (fun r => decide (r.1.task = .done true) && decide (r.2 =
        [.read, .received (.frameServerKey ⟨List.replicate 32 7, rfl⟩) ((serverKeyFrame 7).drop 5),
          .queued (.clientInfo (.new false)), .writerEnded,
          .received (.frameServerKey ⟨List.replicate 32 8, rfl⟩) ((serverKeyFrame 8).drop 5),
          .unsent, .received (.serverInfo ⟨2⟩) (List.replicate 24 0 ++ [8, 2])]))
      (by decide +kernel)
    simp only [Bool.and_eq_true, decide_eq_true_eq] at hcheck
    obtain ⟨hdone, rfl⟩ := hcheck
    refine ⟨s, _, run, hdone, ?_⟩
    rintro ⟨key, payload, clientInfo, payload', info, hsub, nonce, text, plain, hcut, hopen, -⟩
    -- the only answer is to the first key, which does not open the text
    have hanswers : [some key, none].Sublist
        [some ⟨List.replicate 32 7, rfl⟩, none, some ⟨List.replicate 32 8, rfl⟩] :=
      hsub.filterMap LoginEvent.keyOrAnswer
    have hfirst : ∀ k k₁ k₂ : Block 32,
        [some k, none].Sublist [some k₁, none, some k₂] → k = k₁ := by
      simp [List.sublist_cons_iff]
    obtain rfl := hfirst _ _ _ hanswers
    have hinfo : [payload'].Sublist [List.replicate 24 0 ++ [8, 2]] :=
      hsub.filterMap LoginEvent.sealedInfo
    obtain rfl := List.mem_singleton.mp (List.singleton_sublist.mp hinfo)
    have htext : text = [8, 2] := by
      have hdrop := congrArg (List.drop 24) hcut
      rwa [List.drop_left' nonce.2, eq_comm] at hdrop
    simp [Crates.toy, htext] at hopen
  · obtain ⟨s, tr, run, hcheck⟩ := exists_run_of_exec (Login.step .toy .toy)
      (keyAndAnswer ++ [.take (Block.zero 24)] ++ (List.replicate 32 keyAndAnswer).flatten ++
        [.poll, .poll])
      (Login.fresh (List.replicate 34 (.ok (serverKeyFrame 7))))
      (fun r => decide (r.1.task = .answering) && !r.1.hasRoom && r.1.isOpen &&
        decide (r.1.writer ≠ .waiting)) (by decide +kernel)
    simp only [Bool.and_eq_true, Bool.not_eq_true', decide_eq_true_eq] at hcheck
    obtain ⟨⟨⟨hans, hfull⟩, hopen⟩, hwriter⟩ := hcheck
    refine ⟨s, tr, run, fun a ha => ?_, hans⟩
    have hwaits := (Login.waits_iff .toy .toy s).mpr (.inr (.inr ⟨hans, hopen, hfull⟩))
    cases a with
    | poll => simp [hwaits .poll (by simp)] at ha
    | send => simp [hwaits .send (by simp)] at ha
    | take nonce =>
      obtain ⟨⟨s', evs⟩, hstep⟩ := Option.isSome_iff_exists.mp ha
      obtain ⟨-, -, hwaiting, -⟩ := Login.step_take hstep
      exact absurd hwaiting hwriter
    | flush sent => exact ⟨sent, rfl⟩

end Examples

end Vlink.Derp
