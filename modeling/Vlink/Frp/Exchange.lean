import Vlink.Frp.Stream

set_option autoImplicit false

/-!
# Encoder and decoder of an FRP connection

After the initialisation vector has been exchanged, one codec encodes a sequence of requests, and
another with the same token and vector reads them. The encoder encrypts a request only if
`is_encrypt` says so, which is true of `NewProxy` alone; the decoder decrypts everything. So the
requests are recovered under every cipher exactly if all of them are encrypted.

## Main definitions

* `Vlink.Frp.Message` — a request with its type byte and its text, which is not too long.
* `Vlink.Frp.encodeAll` — encoding one request after the other.
* `Vlink.Frp.Recovers` — the reader with the same token and vector gives back what was encoded.
* `Vlink.Frp.Sync` — a decrypting state that follows an encrypting one.

## Main results

* `Vlink.Frp.drain_encrypted` — encrypted messages are read one after the other, whatever follows.
* `Vlink.Frp.recovers_iff_encrypted` — the condition under which every cipher gives back the
  messages.
-/

namespace Vlink.Frp

variable {C : Cipher} {J : Json}

/-- A request that has a text of a length that the decoder accepts. -/
structure Message (J : Json) where
  request : FrpRequest J
  typeByte : MsgType
  value : J.Request
  body : Bytes
  message : request.message = some (typeByte, value)
  text : J.text value = .ok body
  length_body : body.length ≤ maxBodyLen

namespace Message

/-- The bytes of a message before they are encrypted. -/
def bytes (m : Message J) : Bytes := FrpCodec.messageBytes m.typeByte m.body

/-- What the decoder should make of a message. -/
def read (m : Message J) : Header × Bytes := (⟨m.typeByte, m.body.length⟩, m.body)

/-- The nine bytes before the body. -/
def head (m : Message J) : Bytes := m.typeByte :: beBytes 8 m.body.length

/-- A message is head and body. -/
lemma bytes_eq (m : Message J) : m.bytes = m.head ++ m.body := rfl

/-- The head has nine bytes. -/
@[simp] lemma length_head (m : Message J) : m.head.length = 9 := by
  simp [head, beBytes]

end Message

/-- One codec encodes one request after the other. -/
def encodeAll (J : Json) : FrpCodec C → List (FrpRequest J) → Bytes →
    Except Error (FrpCodec C × Bytes)
  | c, [], dst => .ok (c, dst)
  | c, item :: items, dst =>
    match c.encode J item dst with
    | .error e => .error e
    | .ok (c, dst) => encodeAll J c items dst

/-- The coder that token and vector give. -/
def FrpBufCrypto.start (C : Cipher) (token : String) (iv : Block 16) : FrpBufCrypto C :=
  ⟨iv.val, C.init token iv, C.init token iv⟩

/-- A block makes a cipher. -/
lemma FrpBufCrypto.new_block (token : String) (iv : Block 16) :
    FrpBufCrypto.new C token iv.val = .ok (start C token iv) := dif_pos iv.property

/-- The messages are recovered: whichever codec encodes them after it was given the vector, the
handling of header and body with a new coder from the same token and vector gives them back, in
order, and uses up the bytes. -/
def Recovers (C : Cipher) (token : String) (iv : Block 16) (ms : List (Message J)) : Prop :=
  ∀ (sender : FrpCodec C) (coder : FrpBufCrypto C), sender.stage = .work →
    sender.frpCoder = some coder → coder.iv = iv.val → coder.enc = C.init token iv →
    ∀ coder', FrpBufCrypto.new C token iv.val = .ok coder' →
    ∃ sender' wire receiver', encodeAll J sender (ms.map (·.request)) [] = .ok (sender', wire) ∧
      (FrpCodec.reader C).drain ⟨token, none, some coder', .work⟩ wire =
        (ms.map (·.read), .waiting receiver' [])

/-! ## The wire -/

/-- What is sent for a list of messages by a coder that stands in a state. -/
def sent (C : Cipher) : C.State → List (Message J) → Bytes
  | _, [] => []
  | enc, m :: ms =>
    if m.request.isEncrypt then
      (C.encrypt enc m.bytes).1 ++ sent C (C.encrypt enc m.bytes).2 ms
    else m.bytes ++ sent C enc ms

/-- Encoding a message never fails when there is a coder. -/
lemma encode_message {c : FrpCodec C} {coder : FrpBufCrypto C} (hc : c.frpCoder = some coder)
    (m : Message J) (dst : Bytes) :
    c.encode J m.request dst =
      if m.request.isEncrypt then
        .ok ({ c with frpCoder := some { coder with enc := (C.encrypt coder.enc m.bytes).2 } },
          dst ++ (C.encrypt coder.enc m.bytes).1)
      else .ok (c, dst ++ m.bytes) := by
  simp only [FrpCodec.encode, m.message, m.text, hc]
  rfl

/-- What encoding messages appends. -/
lemma encodeAll_eq {c : FrpCodec C} {coder : FrpBufCrypto C} (hc : c.frpCoder = some coder)
    (ms : List (Message J)) (dst : Bytes) :
    ∃ c', encodeAll J c (ms.map (·.request)) dst = .ok (c', dst ++ sent C coder.enc ms) := by
  induction ms generalizing c coder dst with
  | nil => exact ⟨c, by simp [encodeAll, sent]⟩
  | cons m ms ih =>
    rw [List.map_cons, encodeAll, encode_message hc, sent]
    split_ifs with henc
    · obtain ⟨c', hc'⟩ := ih (c := { c with
        frpCoder := some { coder with enc := (C.encrypt coder.enc m.bytes).2 } }) rfl
        (dst ++ (C.encrypt coder.enc m.bytes).1)
      exact ⟨c', by rw [← List.append_assoc]; exact hc'⟩
    · obtain ⟨c', hc'⟩ := ih hc (dst ++ m.bytes)
      exact ⟨c', by rw [← List.append_assoc]; exact hc'⟩

/-! ## Following the encryption -/

/-- The decrypting state `d` follows the encrypting state `e`. -/
def Sync (C : Cipher) (e d : C.State) : Prop := ∀ p, (C.decrypt d (C.encrypt e p).1).1 = p

/-- New ciphers are in step. -/
lemma sync_init (hC : C.Lawful) (token : String) (iv : Block 16) :
    Sync C (C.init token iv) (C.init token iv) := hC.decrypt_encrypt token iv

/-- The states still follow one another when both sides have processed some bytes. -/
lemma Sync.next (hC : C.Lawful) {e d : C.State} (h : Sync C e d) (p : Bytes) :
    Sync C (C.encrypt e p).2 (C.decrypt d (C.encrypt e p).1).2 := by
  intro q
  have hall := h (p ++ q)
  rw [hC.encrypt_append, hC.decrypt_append, h p] at hall
  exact List.append_cancel_left hall

/-- The header that the codec keeps when it has decrypted the nine bytes of a message. -/
lemma withHeader_message {c : FrpCodec C} {coder : FrpBufCrypto C} (hc : c.frpCoder = some coder)
    (m : Message J) {p : Bytes} (hp : (C.decrypt coder.dec p).1 = m.head) :
    c.withHeader p =
      { c with header := some m.read.1, frpCoder := some (coder.after p) } := by
  have hlen : m.body.length < 256 ^ 8 := by
    have := m.length_body
    norm_num [maxBodyLen] at this ⊢
    omega
  simp only [FrpCodec.withHeader, FrpCodec.decryptBuf_some hc, hp, Message.head, List.headD_cons,
    List.drop_one, List.tail_cons, beNat_beBytes, Nat.mod_eq_of_lt hlen]
  rfl

/-- **A message is read.** If the bytes `w` are decrypted to a message, they are read as such, and
the cipher has moved on by them. -/
lemma readMessage_message (hC : C.Lawful) {c : FrpCodec C} {coder : FrpBufCrypto C}
    (hc : c.frpCoder = some coder) (hh : c.header = none) (m : Message J) {w : Bytes}
    (hw : (C.decrypt coder.dec w).1 = m.bytes) (rest : Bytes) :
    c.readMessage (w ++ rest) =
      (.ok (some m.read), { c with frpCoder := some (coder.after w) }, rest) := by
  have hlen : w.length = 9 + m.body.length := by
    rw [← hC.length_decrypt coder.dec w, hw, m.bytes_eq, List.length_append, m.length_head]
  have hhead : (C.decrypt coder.dec (w.take 9)).1 = m.head := by
    rw [← hC.take_decrypt, hw, m.bytes_eq, List.take_left' m.length_head]
  have hbody : (C.decrypt (coder.after (w.take 9)).dec (w.drop 9)).1 = m.body := by
    rw [FrpBufCrypto.after, ← hC.drop_decrypt, hw, m.bytes_eq, List.drop_left' m.length_head]
  have hdrop : (w.drop 9).length = m.body.length := by rw [List.length_drop]; omega
  obtain ⟨token, header, frpCoder, stage⟩ := c
  cases hc
  cases hh
  conv_lhs => rw [← List.take_append_drop 9 w, List.append_assoc]
  rw [FrpCodec.readMessage_header rfl (by rw [List.length_take]; omega),
    withHeader_message rfl m hhead, FrpCodec.readMessage_pending rfl, Message.read,
    if_neg (by simpa using m.length_body), if_neg (by rw [List.length_append, hdrop]; simp),
    List.take_left' hdrop, List.drop_left' hdrop, FrpCodec.decryptBuf_some rfl, hbody,
    ← FrpBufCrypto.after_append hC, List.take_append_drop]

/-- **Encrypted messages are read one after the other**, whatever follows them. -/
theorem drain_encrypted (hC : C.Lawful) (ms post : List (Message J))
    (hms : ∀ m ∈ ms, m.request.isEncrypt = true) {c : FrpCodec C} {coder : FrpBufCrypto C}
    {enc : C.State} (hc : c.frpCoder = some coder) (hh : c.header = none)
    (hsync : Sync C enc coder.dec) :
    ∃ c' coder' enc', c'.frpCoder = some coder' ∧ c'.header = none ∧ Sync C enc' coder'.dec ∧
      (FrpCodec.reader C).drain c (sent C enc (ms ++ post)) =
        (ms.map (·.read) ++ ((FrpCodec.reader C).drain c' (sent C enc' post)).1,
          ((FrpCodec.reader C).drain c' (sent C enc' post)).2) := by
  induction ms generalizing c coder enc with
  | nil => exact ⟨c, coder, enc, hc, hh, hsync, rfl⟩
  | cons m ms ih =>
    have hread := readMessage_message hC hc hh m (hsync m.bytes)
      (sent C (C.encrypt enc m.bytes).2 (ms ++ post))
    have hitem : (FrpCodec.reader C).decode c (sent C enc (m :: ms ++ post)) =
        .item m.read { c with frpCoder := some (coder.after (C.encrypt enc m.bytes).1) }
          (sent C (C.encrypt enc m.bytes).2 (ms ++ post)) := by
      rw [FrpCodec.reader_decode, List.cons_append, sent, if_pos (hms m List.mem_cons_self), hread]
      rfl
    have hnext : Sync C (C.encrypt enc m.bytes).2 (coder.after (C.encrypt enc m.bytes).1).dec :=
      hsync.next hC m.bytes
    obtain ⟨c', coder', enc', hc', hh', hsync', hdrain⟩ :=
      ih (c := { c with frpCoder := some (coder.after (C.encrypt enc m.bytes).1) })
        (fun m hm => hms m (List.mem_cons_of_mem _ hm)) rfl hh hnext
    refine ⟨c', coder', enc', hc', hh', hsync', ?_⟩
    rw [FrpCodec.readMessage_reads.lawful.drain_item trivial hitem, hdrain]
    rfl

/-- Encrypted messages are recovered. -/
lemma recovers_of_encrypted (hC : C.Lawful) (token : String) (iv : Block 16)
    {ms : List (Message J)} (hms : ∀ m ∈ ms, m.request.isEncrypt = true) :
    Recovers C token iv ms := by
  intro sender coder _ hcoder _ henc coder' hnew
  rw [FrpBufCrypto.new_block] at hnew
  cases hnew
  obtain ⟨sender', hsent⟩ := encodeAll_eq hcoder ms []
  obtain ⟨c', -, enc', -, hh', -, hdrain⟩ := drain_encrypted hC ms [] hms
    (c := ⟨token, none, some (.start C token iv), .work⟩) rfl rfl (sync_init hC token iv)
  refine ⟨sender', _, c', hsent, ?_⟩
  rw [List.append_nil] at hdrain
  have hdone : (FrpCodec.reader C).drain c' [] = ([], .waiting c' []) := by
    refine Decoder.drain_wait ?_
    rw [FrpCodec.reader_decode, FrpCodec.readMessage_short hh' (by simp)]
    rfl
  rw [henc, List.nil_append, hdrain, sent, hdone, List.append_nil]

/-! ## A message that is not encrypted -/

/-- A cipher that adds one to each byte. -/
def shift : Cipher where
  State := Unit
  init _ _ := ()
  encrypt _ p := (p.map (· + 1), ())
  decrypt _ p := (p.map (· - 1), ())

/-- The sample cipher is lawful. -/
lemma shift_lawful : shift.Lawful := by
  have hinv : ((· - 1) ∘ (· + 1) : UInt8 → UInt8) = id := by
    funext b
    exact UInt8.add_sub_cancel b 1
  constructor <;> simp [shift, hinv]

/-- What is read first from bytes that were not encrypted has another type byte. -/
lemma shift_typeByte {c : FrpCodec shift} {coder : FrpBufCrypto shift}
    (hc : c.frpCoder = some coder) (hh : c.header = none) (m : Message J) (rest : Bytes)
    {i : Header × Bytes}
    (hi : ((FrpCodec.reader shift).drain c (m.bytes ++ rest)).1.head? = some i) :
    i.1.typeByte = m.typeByte - 1 := by
  cases hd : (FrpCodec.reader shift).decode c (m.bytes ++ rest) with
  | wait s b =>
    rw [Decoder.drain_wait hd] at hi
    cases hi
  | fail e =>
    rw [Decoder.drain_fail hd] at hi
    cases hi
  | item i' s b =>
    rw [FrpCodec.readMessage_reads.lawful.drain_item trivial hd] at hi
    cases hi
    have hread : c.readMessage (m.bytes ++ rest) = (.ok (some i), s, b) :=
      Outcome.ret.inj (Answer.ofCall_eq_item hd)
    rw [m.bytes_eq, List.append_assoc, FrpCodec.readMessage_header hh m.length_head] at hread
    have hheader : ∃ len, (c.withHeader m.head).header = some ⟨m.typeByte - 1, len⟩ := by
      simp only [FrpCodec.withHeader, FrpCodec.decryptBuf_some hc]
      exact ⟨_, rfl⟩
    obtain ⟨len, hheader⟩ := hheader
    rw [FrpCodec.readMessage_pending hheader] at hread
    split_ifs at hread <;> cases hread
    rfl

/-- With this cipher, messages are not recovered if one of them is not encrypted: those before it
are read, and then a type byte is that of the message less one. -/
lemma not_recovers_shift (pre post : List (Message J)) (m : Message J)
    (hpre : ∀ m ∈ pre, m.request.isEncrypt = true) (hm : ¬ m.request.isEncrypt = true)
    (token : String) (iv : Block 16) : ¬ Recovers shift token iv (pre ++ m :: post) := by
  intro h
  obtain ⟨sender', wire, receiver', hsent, hdrain⟩ :=
    h ⟨token, none, some (.start shift token iv), .work⟩ _ rfl rfl rfl rfl _
      (FrpBufCrypto.new_block token iv)
  obtain ⟨sender'', hsent'⟩ := encodeAll_eq
    (c := ⟨token, none, some (.start shift token iv), .work⟩) rfl (pre ++ m :: post) []
  rw [hsent] at hsent'
  cases hsent'
  obtain ⟨c, coder, enc, hc, hh, -, hpieces⟩ := drain_encrypted shift_lawful pre (m :: post) hpre
    (c := ⟨token, none, some (.start shift token iv), .work⟩) rfl rfl
    (sync_init shift_lawful token iv)
  have hitems := congrArg Prod.fst (hpieces.symm.trans hdrain)
  rw [List.map_append, sent, if_neg hm] at hitems
  have htype : m.typeByte = m.typeByte - 1 := shift_typeByte hc hh m (sent shift enc post)
    (i := m.read) (by rw [List.append_cancel_left hitems]; rfl)
  grind

/-- **When the messages are recovered.** Whatever the cipher, the token and the vector, the messages
are recovered: this holds exactly if every one of them is encrypted.

**Proof sketch.** If all are encrypted, the decrypting state follows the encrypting one. Otherwise
the cipher that adds one to each byte does not recover the first that is not encrypted. -/
theorem recovers_iff_encrypted (J : Json) (ms : List (Message J)) :
    (∀ C : Cipher, C.Lawful → ∀ token iv, Recovers C token iv ms) ↔
      ∀ m ∈ ms, m.request.isEncrypt = true := by
  refine ⟨fun h => ?_, fun hms C hC token iv => recovers_of_encrypted hC token iv hms⟩
  by_contra hsome
  have hfind : (ms.find? fun m => !m.request.isEncrypt).isSome := by simpa using hsome
  obtain ⟨m, hm⟩ := Option.isSome_iff_exists.mp hfind
  obtain ⟨hplain, pre, post, rfl, hpre⟩ := List.find?_eq_some_iff_append.mp hm
  exact not_recovers_shift pre post m (by simpa using hpre) (by simpa using hplain) ""
    (Block.zero 16) (h shift shift_lawful "" (Block.zero 16))

namespace Sample

/-- A ping and a new proxy, with the text that the reading of JSON of this sample gives. -/
def ping : Message json :=
  ⟨.ping (), typePing, (), version, rfl, rfl, by decide⟩
def newProxy : Message json :=
  ⟨.newProxy (), typeNewProxy, (), version, rfl, rfl, by decide⟩

end Sample

open Sample in
/-- Two new proxies are recovered, whatever the cipher. -/
theorem recovers_iff_encrypted_sample :
    ∀ C : Cipher, C.Lawful → ∀ token iv, Recovers C token iv [newProxy, newProxy] :=
  (recovers_iff_encrypted json [newProxy, newProxy]).mpr (by decide)

open Sample in
/-- A ping is sent as it is, and the reader decrypts it. -/
theorem ping_not_recovered : shift.Lawful ∧ ¬ Recovers shift "" vector [ping] :=
  ⟨shift_lawful, not_recovers_shift [] [] ping (by simp) (by decide) "" vector⟩

end Vlink.Frp
