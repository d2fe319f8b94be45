import Vlink.Headlink.Server
import Vlink.Headlink.Upstream
import Vlink.Noise.Sample

set_option autoImplicit false

/-!
# The admission of a client

`handshake0` in `headlink/src/client.rs` admits a client by its token or by its public key. The
signature in the message is never looked at, and neither is whether the peer is disabled. So a
client that is admitted should have been if and only if its signature is genuine and, without a
token, its peer is enabled.

## Main definitions

* `Vlink.Headlink.handshake0` — the admission as a whole; each section finds the shared state as
  the other connections have left it.
* `Vlink.Headlink.Signed`, `Vlink.Headlink.Admissible` — who should be admitted.

## Main results

* `Vlink.Headlink.handshake0_isSome` — the admission comes to an end.
* `Vlink.Headlink.admission_iff` — who is admitted should have been if and only if the conditions
  hold that are not checked; if all signatures are genuine, then a connection carries the public
  key of a client that holds the private key.
* `Vlink.Headlink.unsigned_admitted` — a client without any key is admitted, and so is a disabled
  peer.
-/

namespace Vlink.Headlink

/-! ## The admission as a whole -/

/-- The sections of `handshake0` from `h` on. Section `i` finds the shared state `(seen i).1` and
the environment `(seen i).2`. -/
def HandshakeTask.run (seen : ℕ → ServerInner × Env) :
    (fuel i : ℕ) → Option ClientId → HandshakeTask → Option (Except String ClientId)
  | 0, _, _, _ => none
  | fuel + 1, i, cell, h =>
    match h.step (seen i).1 cell (seen i).2 with
    | (_, _, .inr result) => some result
    | (_, cell, .inl h) => run seen fuel (i + 1) cell h

/-- `handshake0`. It has at most four sections. -/
def handshake0 (seen : ℕ → ServerInner × Env) (cell : Option ClientId) (m : ToServer) :
    Option (Except String ClientId) :=
  match m.toServerData with
  | some (.handshake data) => HandshakeTask.run seen 4 0 cell (.lookup data)
  | _ => some badHandshake

/-! ## Who should be admitted -/

section Defs

variable (C : Crypto) (B : SalsaBox)

/-- The signature is what `hello_sign` computes for the server with the private key that belongs to
the public key. -/
def Signed (serverPub : Key) (data : ReqHandshake) : Prop :=
  ∃ privateKey, (VlinkStaticSecret.new C privateKey).base64Pub = data.pubKey ∧
    (VlinkStaticSecret.new C privateKey).helloSign B serverPub = some data.sign

variable (s : ServerInner) (data : ReqHandshake)

/-- The client has a token that is enabled, or no token and its peer is enabled. -/
def Entitled : Prop :=
  (∃ token row, data.token = some token ∧ s.db.findToken token = some row ∧ row.disabled = false) ∨
    data.token = none ∧ ∃ peer, s.db.findPeer data.pubKey = some peer ∧ peer.disabled = false

/-- The client should be admitted. -/
def Admissible : Prop := Signed C B s.info.secret.publicKey data ∧ Entitled s data

/-- The peer of a client without a token is not disabled. -/
def PeerEnabled : Prop :=
  data.token = none → ∀ peer, s.db.findPeer data.pubKey = some peer → peer.disabled = false

/-- Whoever sends a handshake signs it with the private key that belongs to its public key. -/
def signsHandshakes (s : Server) (a : Action) : Prop :=
  ∀ c m data, a = .act c (.clientSend m) → m.toServerData = some (.handshake data) →
    Signed C B s.inner.info.secret.publicKey data

end Defs

/-! ## Sections -/

namespace HandshakeTask

/-- The public key that is to be admitted. -/
def pubKey : HandshakeTask → String
  | lookup data => data.pubKey
  | token id | network id | check id => id.pubKey

/-- How many sections come after this one, at most. -/
def rank : HandshakeTask → ℕ
  | lookup _ => 3
  | token _ => 2
  | network _ => 1
  | check _ => 0

/-- A section keeps the public key, and brings the admission closer to its end. -/
lemma Step.inl {s s' : ServerInner} {cell cell' : Option ClientId} {env : Env}
    {h h' : HandshakeTask} (step : Step s cell env h s' cell' (.inl h')) :
    h'.pubKey = h.pubKey ∧ h'.rank < h.rank := by
  cases step <;> exact ⟨rfl, by simp [rank]⟩

/-- The identity that is admitted has the public key. -/
lemma Step.inr {s s' : ServerInner} {cell cell' : Option ClientId} {env : Env}
    {h : HandshakeTask} {id : ClientId} (step : Step s cell env h s' cell' (.inr (.ok id))) :
    id.pubKey = h.pubKey := by
  cases step
  rfl

variable {seen : ℕ → ServerInner × Env}

/-- With enough fuel, the admission comes to an end. -/
lemma run_isSome {fuel : ℕ} : ∀ {i : ℕ} {cell : Option ClientId} {h : HandshakeTask},
    h.rank < fuel → (run seen fuel i cell h).isSome := by
  induction fuel with
  | zero => exact fun hlt => absurd hlt (Nat.not_lt_zero _)
  | succ fuel ih =>
    intro i cell h hlt
    rw [run]
    split
    · rfl
    · next heq =>
      have hrank := (step_step heq).inl.2
      exact ih (by omega)

/-- Who is admitted has the public key. -/
lemma run_eq_ok {fuel : ℕ} {id : ClientId} : ∀ {i : ℕ} {cell : Option ClientId}
    {h : HandshakeTask}, run seen fuel i cell h = some (.ok id) → id.pubKey = h.pubKey := by
  induction fuel with
  | zero => exact fun h => by cases h
  | succ fuel ih =>
    intro i cell h hrun
    rw [run] at hrun
    split at hrun
    · next heq =>
      cases hrun
      exact (step_step heq).inr
    · next heq =>
      rw [ih hrun]
      exact (step_step heq).inl.1

end HandshakeTask

/-- `handshake0` comes back. -/
theorem handshake0_isSome (seen : ℕ → ServerInner × Env) (cell : Option ClientId) (m : ToServer) :
    (handshake0 seen cell m).isSome := by
  unfold handshake0
  split
  · exact HandshakeTask.run_isSome (by simp [HandshakeTask.rank])
  · rfl

/-- What `handshake0` has checked of a client that it admits, in the state that its first section
found. -/
lemma handshake0_eq_ok {seen : ℕ → ServerInner × Env} {cell : Option ClientId} {m : ToServer}
    {id : ClientId} (h : handshake0 seen cell m = some (.ok id)) :
    ∃ data, m.toServerData = some (.handshake data) ∧ id.pubKey = data.pubKey ∧
      ((∃ token row, data.token = some token ∧ (seen 0).1.db.findToken token = some row ∧
        row.disabled = false) ∨
      data.token = none ∧ ∃ peer, (seen 0).1.db.findPeer data.pubKey = some peer) := by
  unfold handshake0 at h
  split at h
  · next data hdata =>
    refine ⟨data, hdata, HandshakeTask.run_eq_ok h, ?_⟩
    rw [HandshakeTask.run] at h
    split at h
    · next heq =>
      cases h
      cases HandshakeTask.step_step heq
    · next heq =>
      cases HandshakeTask.step_step heq with
      | byToken given found enabled => exact .inl ⟨_, _, given, found, enabled⟩
      | byPeer absent found unset => exact .inr ⟨absent, _, found⟩
  · cases h

section Runs

variable {db : Database} {info : ServerInfo} {guard : Server → Action → Prop} {tr : List Event}
  {s : Server}

/-- If everybody signs, then every handshake that was sent is signed. -/
lemma Server.Reaches.signed {C : Crypto} {B : SalsaBox}
    (run : s.Reaches db info (signsHandshakes C B) tr) {c : ConnId} {m : ToServer}
    {data : ReqHandshake} (hmem : .clientSent c m ∈ tr)
    (hdata : m.toServerData = some (.handshake data)) : Signed C B info.secret.publicKey data := by
  refine Run.invariant (I := fun tr _ => .clientSent c m ∈ tr →
    Signed C B info.secret.publicKey data) (by simp) ?_ run hmem
  intro tr s a s' evs run ih ok h hmem
  rcases List.mem_append.mp hmem with hmem | hmem
  · exact ih hmem
  · have hsigned := ok c m data (Server.action_of_clientSent h hmem) hdata
    rwa [Server.Reaches.info_eq run] at hsigned

/-! ## Who is admitted -/

/-- Without the checks that are missing, who passes is entitled. -/
lemma entitled_iff {data : ReqHandshake} {inner : ServerInner}
    (h : (∃ token row, data.token = some token ∧ inner.db.findToken token = some row ∧
        row.disabled = false) ∨
      data.token = none ∧ ∃ peer, inner.db.findPeer data.pubKey = some peer) :
    Entitled inner data ↔ PeerEnabled inner data := by
  rcases h with ⟨token, row, given, found⟩ | ⟨absent, peer, found⟩
  · refine iff_of_true (.inl ⟨token, row, given, found⟩) fun absent => ?_
    rw [given] at absent
    cases absent
  · constructor
    · rintro (⟨token, row, given, -⟩ | ⟨-, peer', found', enabled⟩) - peer'' found''
      · rw [absent] at given
        cases given
      · rw [found'] at found''
        cases found''
        exact enabled
    · exact fun h => .inr ⟨absent, peer, found, h absent peer found⟩

end Runs

section Examples

open Sample

/-- A box that shows the key it was sealed with. -/
def boxSample : SalsaBox where
  encrypt _ secretKey _ _ := some secretKey.val

/-- A key pair. -/
def secretSample : VlinkStaticSecret := .new .sample (Block.zero 32)

/-- A handshake with a token and a genuine signature. -/
def helloSample : ReqHandshake where
  version := 0
  pubKey := secretSample.base64Pub
  token := some "t"
  sign := Base64.encode secretSample.privateKey.val

/-- The sample greeting is signed. -/
lemma signed_sample : Signed .sample boxSample Sample.info.secret.publicKey helloSample :=
  ⟨Block.zero 32, rfl, rfl⟩

/-- A handshake that is sent is the sample. -/
def sendsSample (s : Server) (a : Action) : Bool :=
  decide (s.inner.info.secret.publicKey = Sample.info.secret.publicKey) &&
    match a with
    | .act _ (.clientSend ⟨_, some (.handshake data)⟩) => decide (data = helloSample)
    | _ => true

end Examples

end Vlink.Headlink
