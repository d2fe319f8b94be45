import Mathlib.Logic.Function.Basic
import Vlink.Headlink.Registry

set_option autoImplicit false

/-!
# The address book

What the head server knows about addresses: the rows of the database, the copies of them in the
registry, and how far each request for a configuration has come. A request reads the copy of the
row of its peer; if the row has no address, it chooses one that is in no copy, writes it to the
database and then to the registry. This is an abstraction of the server; the rules under which the
addresses of a network stay distinct are found here.

## Main definitions

* `Vlink.Headlink.Stage` — how far a request has come.
* `Vlink.Headlink.Book.Step` — the steps, with the rules for one network: no two requests for one
  peer, no choice while an address of the network is chosen but not yet in the registry, and no
  end between the two writes.
* `Vlink.Headlink.Book.Recorded` — the address that is recorded for a peer.

## Main results

* `Vlink.Headlink.Book.Step.inv` — the steps keep the addresses of the network distinct.
* `Vlink.Headlink.Book.Step.recorded` — what is recorded stays so.
-/

namespace Vlink.Headlink

/-- How far a request for the configuration has come. -/
inductive Stage where
  /-- The row of the peer was read. -/
  | reading (m : PeerModel)
  /-- An address was chosen; it was written to the database. -/
  | chosen (m : PeerModel) (ip : Ipv4Addr)
  | written (m : PeerModel) (ip : Ipv4Addr)
  /-- The address is known and recorded. -/
  | settled (addr : Ipv4Addr)
deriving DecidableEq

namespace Stage

/-- The row that was read, as long as it matters. -/
def model? : Stage → Option PeerModel
  | reading m | chosen m _ | written m _ => some m
  | settled _ => none

/-- An address was chosen and is not yet in the registry. -/
def isPending : Stage → Bool
  | chosen .. | written .. => true
  | _ => false

end Stage

/-- The address book. -/
structure Book where
  db : Database
  /-- The registry: its copies of the rows. -/
  models : ClientId → Option PeerModel
  /-- The requests: for whom they are, and how far they have come. -/
  claims : ConnId → Option (ClientId × Stage)

namespace Book

/-- A request goes on, or ends. -/
def claim (b : Book) (c : ConnId) (x : Option (ClientId × Stage)) : Book :=
  { b with claims := Function.update b.claims c x }

/-- The row of the model is in the database, up to its address, and it is that of the peer. -/
def Fits (db : Database) (id : ClientId) (m : PeerModel) : Prop :=
  (∃ ip, { m with ip } ∈ db.peers) ∧ m.pubKey = id.pubKey ∧ m.networkId = id.networkId

/-- The address is recorded for the peer, in the registry and in the database. -/
def Recorded (b : Book) (id : ClientId) (addr : Ipv4Addr) : Prop :=
  ∃ m text, b.models id = some m ∧ m ∈ b.db.peers ∧ m.ip = some text ∧
    Ipv4Addr.parse text = some addr

/-- The steps, with the rules for the network `n`. -/
inductive Step (n : ℤ) (b : Book) : Book → Prop
  | skip : Step n b b
  /-- A network is loaded. -/
  | load {n' : ℤ} {models : ClientId → Option PeerModel}
      (absent : ∀ k, b.models ⟨k, n'⟩ = none)
      (loaded : ∀ k m, models ⟨k, n'⟩ = some m ↔
        m ∈ b.db.peers ∧ m.networkId = n' ∧ m.pubKey = k)
      (other : ∀ id : ClientId, id.networkId ≠ n' → models id = b.models id) :
      Step n b { b with models }
  /-- A request ends, or is cut off, but not between the two writes. -/
  | release {c : ConnId}
      (whole : ∀ id m ip, b.claims c = some (id, .written m ip) → id.networkId ≠ n) :
      Step n b (b.claim c none)
  /-- A request reads the row of its peer, while no other request does. -/
  | read {c : ConnId} {id : ClientId} {m : PeerModel} (idle : b.claims c = none)
      (found : b.models id = some m)
      (alone : id.networkId = n → ∀ c' st, b.claims c' = some (id, st) → st.model? = none) :
      Step n b (b.claim c (some (id, .reading m)))
  /-- An address is chosen that is not in the registry, while no other address is chosen. -/
  | choose {c : ConnId} {id : ClientId} {m : PeerModel} {ip : Ipv4Addr}
      (reading : b.claims c = some (id, .reading m)) (unset : m.ip = none)
      (free : ∀ k m', b.models ⟨k, id.networkId⟩ = some m' → m'.ip ≠ some ip.toText)
      (first : id.networkId = n → ∀ c' id' st, b.claims c' = some (id', st) →
        id'.networkId = n → st.isPending = false) :
      Step n b (b.claim c (some (id, .chosen m ip)))
  /-- The row had an address. -/
  | accept {c : ConnId} {id : ClientId} {m : PeerModel} {text : String} {addr : Ipv4Addr}
      (reading : b.claims c = some (id, .reading m)) (set : m.ip = some text)
      (parsed : Ipv4Addr.parse text = some addr) :
      Step n b (b.claim c (some (id, .settled addr)))
  /-- The address is written to the database. -/
  | write {c : ConnId} {id : ClientId} {m : PeerModel} {ip : Ipv4Addr} {db : Database}
      (chosen : b.claims c = some (id, .chosen m ip))
      (updated : b.db.updateIp m.id ip.toText = some db) :
      Step n b { b.claim c (some (id, .written m ip)) with db }
  /-- The address is written to the registry. -/
  | refresh {c : ConnId} {id : ClientId} {m : PeerModel} {ip : Ipv4Addr}
      {models : ClientId → Option PeerModel} (written : b.claims c = some (id, .written m ip))
      (stored : ∀ id', models id' = if id' = ⟨m.pubKey, id.networkId⟩ then
        (b.models id').map fun _ => { m with ip := some ip.toText } else b.models id') :
      Step n b { b.claim c (some (id, .settled ip)) with models }

/-! ## Rows and copies -/

/-- The claims after a request went on. -/
lemma claims_claim {b : Book} {c c' : ConnId} {x : Option (ClientId × Stage)}
    {y : ClientId × Stage} :
    (b.claim c x).claims c' = some y ↔ c' = c ∧ x = some y ∨ c' ≠ c ∧ b.claims c' = some y := by
  unfold claim
  by_cases hc : c' = c <;> simp [hc]

/-- A row that is updated keeps everything but its address. -/
lemma Fits.update {db db' : Database} {id : ClientId} {m : PeerModel} {i : ℤ} {ip : String}
    (h : Fits db id m) (updated : db.updateIp i ip = some db') : Fits db' id m := by
  obtain ⟨⟨old, hrow⟩, hid⟩ := h
  refine ⟨?_, hid⟩
  have hmem := (Database.mem_updateIp updated).mpr ⟨_, hrow, rfl⟩
  unfold Database.withIp at hmem
  split_ifs at hmem
  · exact ⟨some ip, hmem⟩
  · exact ⟨old, hmem⟩

/-- An update of one row leaves the rows of the other networks as they are. -/
lemma Fits.mem_iff {db db' : Database} {id : ClientId} {m r : PeerModel} {ip : String}
    (h : Fits db id m) (updated : db.updateIp m.id ip = some db')
    (hne : r.networkId ≠ id.networkId) : r ∈ db'.peers ↔ r ∈ db.peers := by
  obtain ⟨⟨old, hrow⟩, -, hnet⟩ := h
  have keep : ∀ r' ∈ db.peers, r'.networkId ≠ id.networkId → Database.withIp m.id ip r' = r' := by
    intro r' hr' hne'
    refine if_neg fun hid => hne' ?_
    rw [Database.eq_of_id hr' hrow hid, hnet]
  rw [Database.mem_updateIp updated]
  constructor
  · rintro ⟨r', hr', rfl⟩
    rw [Database.networkId_withIp] at hne
    rwa [keep r' hr' hne]
  · exact fun hr => ⟨r, hr, keep r hr hne⟩

/-- The copies and the rows that were read are those of their peers. -/
structure Keyed (b : Book) : Prop where
  model : ∀ {id m}, b.models id = some m → Fits b.db id m
  claim : ∀ {c id st m}, b.claims c = some (id, st) → st.model? = some m → Fits b.db id m

/-- A request goes on, with a row of its peer. -/
lemma Keyed.goto {b : Book} {c : ConnId} {x : Option (ClientId × Stage)} (h : Keyed b)
    (hx : ∀ id st m, x = some (id, st) → st.model? = some m → Fits b.db id m) :
    Keyed (b.claim c x) := by
  refine ⟨h.model, fun hc hst => ?_⟩
  rcases claims_claim.mp hc with ⟨-, heq⟩ | ⟨-, hc⟩
  · exact hx _ _ _ heq hst
  · exact h.claim hc hst

/-- Every step keeps that. -/
lemma Step.keyed {n : ℤ} {b b' : Book} (step : Step n b b') (h : Keyed b) : Keyed b' := by
  cases step with
  | skip => exact h
  | @load n' models absent loaded other =>
    refine ⟨fun {id m} hm => ?_, h.claim⟩
    by_cases hn : id.networkId = n'
    · subst hn
      obtain ⟨hrow, hnet, hkey⟩ := (loaded _ _).mp hm
      exact ⟨⟨m.ip, hrow⟩, hkey, hnet⟩
    · exact h.model ((other id hn).symm.trans hm)
  | release _ => exact h.goto (by simp)
  | read idle found alone =>
    refine h.goto ?_
    rintro _ _ _ ⟨⟩ ⟨⟩
    exact h.model found
  | choose reading unset free first =>
    refine h.goto ?_
    rintro _ _ _ ⟨⟩ ⟨⟩
    exact h.claim reading rfl
  | accept reading set parsed =>
    refine h.goto ?_
    rintro _ _ _ ⟨⟩ ⟨⟩
  | write chosen updated =>
    refine ⟨fun hm => (h.model hm).update updated, fun hc hst => ?_⟩
    rcases claims_claim.mp hc with ⟨-, heq⟩ | ⟨-, hc⟩
    · cases heq
      cases hst
      exact (h.claim chosen rfl).update updated
    · exact (h.claim hc hst).update updated
  | @refresh c id m ip models written stored =>
    refine ⟨fun {id' m'} hm => ?_, fun hc hst => ?_⟩
    · replace hm : models id' = some m' := hm
      rw [stored] at hm
      split_ifs at hm with hid
      · obtain ⟨m₀, -, rfl⟩ := Option.map_eq_some_iff.mp hm
        obtain ⟨hrow, -, hnet⟩ := h.claim written rfl
        subst hid
        exact ⟨hrow, rfl, hnet⟩
      · exact h.model hm
    · rcases claims_claim.mp hc with ⟨-, heq⟩ | ⟨-, hc⟩
      · cases heq
        cases hst
      · exact h.claim hc hst

/-! ## Requests -/

/-- The requests in the network `n`: no two are for one peer, no two have an address pending, and
what a request has read is still in the registry. -/
structure Orderly (n : ℤ) (b : Book) : Prop where
  current : ∀ {c k st m}, b.claims c = some (⟨k, n⟩, st) → st.model? = some m →
    b.models ⟨k, n⟩ = some m
  alone : ∀ {c c' k st st'}, b.claims c = some (⟨k, n⟩, st) → b.claims c' = some (⟨k, n⟩, st') →
    st.model? ≠ none → st'.model? ≠ none → c = c'
  one : ∀ {c c' k k' st st'}, b.claims c = some (⟨k, n⟩, st) → b.claims c' = some (⟨k', n⟩, st') →
    st.isPending = true → st'.isPending = true → c = c'
  unset : ∀ {c id st m}, b.claims c = some (id, st) → st.isPending = true → st.model? = some m →
    m.ip = none

/-- A request goes on: what has to be known of where it goes. -/
lemma Orderly.claim {n : ℤ} {b : Book} {c : ConnId} {x : Option (ClientId × Stage)}
    (h : Orderly n b)
    (current : ∀ k st m, x = some (⟨k, n⟩, st) → st.model? = some m → b.models ⟨k, n⟩ = some m)
    (alone : ∀ k st c' st', x = some (⟨k, n⟩, st) → st.model? ≠ none → c' ≠ c →
      b.claims c' = some (⟨k, n⟩, st') → st'.model? = none)
    (one : ∀ k st c' k' st', x = some (⟨k, n⟩, st) → st.isPending = true → c' ≠ c →
      b.claims c' = some (⟨k', n⟩, st') → st'.isPending = false)
    (unset : ∀ id st m, x = some (id, st) → st.isPending = true → st.model? = some m →
      m.ip = none) : Orderly n (b.claim c x) := by
  constructor
  · intro c' k st m hc hst
    rcases claims_claim.mp hc with ⟨-, hx⟩ | ⟨-, hc⟩
    · exact current k st m hx hst
    · exact h.current hc hst
  · intro c₁ c₂ k st₁ st₂ hc₁ hc₂ hst₁ hst₂
    rcases claims_claim.mp hc₁ with ⟨h₁, hx₁⟩ | ⟨h₁, hc₁⟩ <;>
      rcases claims_claim.mp hc₂ with ⟨h₂, hx₂⟩ | ⟨h₂, hc₂⟩
    · rw [h₁, h₂]
    · exact absurd (alone k st₁ c₂ st₂ hx₁ hst₁ h₂ hc₂) hst₂
    · exact absurd (alone k st₂ c₁ st₁ hx₂ hst₂ h₁ hc₁) hst₁
    · exact h.alone hc₁ hc₂ hst₁ hst₂
  · intro c₁ c₂ k₁ k₂ st₁ st₂ hc₁ hc₂ hst₁ hst₂
    rcases claims_claim.mp hc₁ with ⟨h₁, hx₁⟩ | ⟨h₁, hc₁⟩ <;>
      rcases claims_claim.mp hc₂ with ⟨h₂, hx₂⟩ | ⟨h₂, hc₂⟩
    · rw [h₁, h₂]
    · simp [one k₁ st₁ c₂ k₂ st₂ hx₁ hst₁ h₂ hc₂] at hst₂
    · simp [one k₂ st₂ c₁ k₁ st₁ hx₂ hst₂ h₁ hc₁] at hst₁
    · exact h.one hc₁ hc₂ hst₁ hst₂
  · intro c' id st m hc hst hm
    rcases claims_claim.mp hc with ⟨-, hx⟩ | ⟨-, hc⟩
    · exact unset id st m hx hst hm
    · exact h.unset hc hst hm

/-- Other requests for the peer of a request. -/
lemma Orderly.alone_of_claim {n : ℤ} {b : Book} {c c' : ConnId} {k : String} {st st' : Stage}
    (h : Orderly n b) (hc : b.claims c = some (⟨k, n⟩, st)) (hst : st.model? ≠ none)
    (hne : c' ≠ c) (hc' : b.claims c' = some (⟨k, n⟩, st')) : st'.model? = none := by
  by_contra hst'
  exact hne (h.alone hc' hc hst' hst)

/-- Every step keeps the requests in order.

**Proof sketch.** A request that goes on keeps what it has read (`Orderly.claim`). The copies change
when a network is loaded, which had none before, and at the end of a request, which is the only one
for its peer. -/
lemma Step.orderly {n : ℤ} {b b' : Book} (step : Step n b b') (keyed : Keyed b)
    (h : Orderly n b) : Orderly n b' := by
  cases step with
  | skip => exact h
  | @load n' models absent loaded other =>
    refine ⟨fun {c k st m} hc hst => ?_, h.alone, h.one, h.unset⟩
    have hm := h.current hc hst
    have hn : n ≠ n' := by
      rintro rfl
      rw [absent] at hm
      cases hm
    exact (other ⟨k, n⟩ hn).trans hm
  | release _ => exact h.claim (by simp) (by simp) (by simp) (by simp)
  | @read c id m idle found alone =>
    refine h.claim ?_ ?_ ?_ ?_
    · rintro k st m' ⟨⟩ ⟨⟩
      exact found
    · rintro k st c' st' ⟨⟩ - - hc'
      exact alone rfl c' st' hc'
    · rintro k st c' k' st' ⟨⟩ ⟨⟩
    · rintro id' st m' ⟨⟩ ⟨⟩
  | @choose c id m ip reading unset free first =>
    refine h.claim ?_ ?_ ?_ ?_
    · rintro k st m' ⟨⟩ ⟨⟩
      exact h.current reading rfl
    · rintro k st c' st' ⟨⟩ - hne hc'
      exact h.alone_of_claim reading (by simp [Stage.model?]) hne hc'
    · rintro k st c' k' st' ⟨⟩ - - hc'
      exact first rfl c' _ st' hc' rfl
    · rintro id' st m' ⟨⟩ - ⟨⟩
      exact unset
  | accept reading set parsed =>
    refine h.claim ?_ ?_ ?_ ?_
    · rintro k st m' ⟨⟩ ⟨⟩
    · rintro k st c' st' ⟨⟩ hst
      exact absurd rfl hst
    · rintro k st c' k' st' ⟨⟩ ⟨⟩
    · rintro id' st m' ⟨⟩ ⟨⟩
  | @write c id m ip db chosen updated =>
    have hclaims : Orderly n (b.claim c (some (id, .written m ip))) := by
      refine h.claim ?_ ?_ ?_ ?_
      · rintro k st m' ⟨⟩ ⟨⟩
        exact h.current chosen rfl
      · rintro k st c' st' ⟨⟩ - hne hc'
        exact h.alone_of_claim chosen (by simp [Stage.model?]) hne hc'
      · rintro k st c' k' st' ⟨⟩ - hne hc'
        by_contra hst'
        exact hne (h.one hc' chosen (by simpa using hst') rfl)
      · rintro id' st m' ⟨⟩ - ⟨⟩
        exact h.unset chosen rfl rfl
    exact ⟨hclaims.current, hclaims.alone, hclaims.one, hclaims.unset⟩
  | @refresh c id m ip models written stored =>
    have hclaims : Orderly n (b.claim c (some (id, .settled ip))) := by
      refine h.claim ?_ ?_ ?_ ?_
      · rintro k st m' ⟨⟩ ⟨⟩
      · rintro k st c' st' ⟨⟩ hst
        exact absurd rfl hst
      · rintro k st c' k' st' ⟨⟩ ⟨⟩
      · rintro id' st m' ⟨⟩ ⟨⟩
    refine ⟨fun {c' k st m'} hc hst => ?_, hclaims.alone, hclaims.one, hclaims.unset⟩
    have hold : b.models ⟨k, n⟩ = some m' := hclaims.current hc hst
    show models ⟨k, n⟩ = some m'
    rw [stored, if_neg, hold]
    -- no other request is for the peer whose copy is replaced
    rintro heq
    obtain ⟨rfl, rfl⟩ := ClientId.mk.inj heq
    rcases claims_claim.mp hc with ⟨-, hx⟩ | ⟨hne, hc⟩
    · rw [← (Prod.mk.inj (Option.some.inj hx)).2] at hst
      cases hst
    · have hkey : m.pubKey = id.pubKey := (keyed.claim written rfl).2.1
      rw [hkey] at hc
      exact hne (h.alone hc written (by simp [hst]) (by simp [Stage.model?]))

/-! ## Addresses -/

/-- The addresses of the network `n`. -/
structure Distinct (n : ℤ) (b : Book) : Prop where
  /-- No two rows have the same address. -/
  rows : ∀ {r r' text}, r ∈ b.db.peers → r' ∈ b.db.peers → r.networkId = n → r'.networkId = n →
    r.ip = some text → r'.ip = some text → r = r'
  /-- A copy is a row, unless the address of the row was just written. -/
  mirrored : ∀ {k m}, b.models ⟨k, n⟩ = some m →
    m ∈ b.db.peers ∨ ∃ c ip, b.claims c = some (⟨k, n⟩, .written m ip)
  /-- Once the network is loaded, every row has a copy. -/
  complete : ∀ {k m r}, b.models ⟨k, n⟩ = some m → r ∈ b.db.peers → r.networkId = n →
    ∃ m', b.models ⟨r.pubKey, n⟩ = some m'
  /-- A chosen address belongs to no row; a written one is that of its row. -/
  free : ∀ {c k m ip r}, b.claims c = some (⟨k, n⟩, .chosen m ip) → r ∈ b.db.peers →
    r.networkId = n → r.ip ≠ some ip.toText
  stored : ∀ {c k m ip}, b.claims c = some (⟨k, n⟩, .written m ip) →
    { m with ip := some ip.toText } ∈ b.db.peers
  /-- What a request settled on is recorded. -/
  settled : ∀ {c k addr}, b.claims c = some (⟨k, n⟩, .settled addr) → b.Recorded ⟨k, n⟩ addr

section Write

variable {n : ℤ} {b : Book} {c : ConnId} {k : String} {m : PeerModel} {ip : Ipv4Addr}

/-- While an address is pending, the copy of the peer is its row, except between the writes. -/
lemma Distinct.mem_of_chosen (h : Distinct n b) (orderly : Orderly n b)
    (chosen : b.claims c = some (⟨k, n⟩, .chosen m ip)) : m ∈ b.db.peers := by
  rcases h.mirrored (orderly.current chosen rfl) with hrow | ⟨c', ip', hc'⟩
  · exact hrow
  · -- the other request is this one, which has not written yet
    have heq := orderly.one hc' chosen rfl rfl
    subst heq
    rw [chosen] at hc'
    cases hc'

/-- A row of another peer is not changed when the address is written. -/
lemma Distinct.mem_of_write (h : Distinct n b) (orderly : Orderly n b) {db : Database}
    {r : PeerModel} (chosen : b.claims c = some (⟨k, n⟩, .chosen m ip))
    (updated : b.db.updateIp m.id ip.toText = some db) (hr : r ∈ b.db.peers) (hne : r ≠ m) :
    r ∈ db.peers := by
  refine (Database.mem_updateIp updated).mpr ⟨r, hr, if_neg fun hid => hne ?_⟩
  exact Database.eq_of_id hr (h.mem_of_chosen orderly chosen) hid

end Write

/-- What is recorded stays so. -/
theorem Step.recorded {n : ℤ} {b b' : Book} (step : Step n b b') (keyed : Keyed b)
    (orderly : Orderly n b) (h : Distinct n b) {k : String} {addr : Ipv4Addr}
    (recorded : b.Recorded ⟨k, n⟩ addr) : b'.Recorded ⟨k, n⟩ addr := by
  obtain ⟨m, text, hm, hrow, hip, hparse⟩ := recorded
  cases step with
  | skip | release _ | read _ _ _ | choose _ _ _ _ | accept _ _ _ =>
    exact ⟨m, text, hm, hrow, hip, hparse⟩
  | @load n' models absent loaded other =>
    have hn : n ≠ n' := by
      rintro rfl
      rw [absent] at hm
      cases hm
    exact ⟨m, text, (other ⟨k, n⟩ hn).trans hm, hrow, hip, hparse⟩
  | @write c id m₀ ip db chosen updated =>
    refine ⟨m, text, hm, ?_, hip, hparse⟩
    show m ∈ db.peers
    by_cases hn : id.networkId = n
    · obtain ⟨k₀, n₀⟩ := id
      subst hn
      refine h.mem_of_write orderly chosen updated hrow fun heq => ?_
      -- the address is written to a row that has none
      rw [heq, orderly.unset chosen rfl rfl] at hip
      cases hip
    · refine ((keyed.claim chosen rfl).mem_iff updated fun heq => hn ?_).mpr hrow
      rw [← heq, (keyed.model hm).2.2]
  | @refresh c id m₀ ip models written stored =>
    refine ⟨m, text, ?_, hrow, hip, hparse⟩
    show models ⟨k, n⟩ = some m
    rw [stored, if_neg, hm]
    intro heq
    obtain ⟨k₀, n₀⟩ := id
    obtain ⟨rfl, rfl⟩ := ClientId.mk.inj heq
    obtain ⟨-, hkey, -⟩ := keyed.claim written rfl
    rw [hkey, orderly.current written rfl] at hm
    rw [← Option.some.inj hm, orderly.unset written rfl rfl] at hip
    cases hip

/-- A request goes on, without a write: what has to be known of where it goes. -/
lemma Distinct.claim {n : ℤ} {b : Book} {c : ConnId} {x : Option (ClientId × Stage)}
    (h : Distinct n b) (whole : ∀ k m ip, b.claims c ≠ some (⟨k, n⟩, .written m ip))
    (free : ∀ k m ip, x = some (⟨k, n⟩, .chosen m ip) → ∀ r ∈ b.db.peers, r.networkId = n →
      r.ip ≠ some ip.toText)
    (stored : ∀ k m ip, x ≠ some (⟨k, n⟩, .written m ip))
    (settled : ∀ k addr, x = some (⟨k, n⟩, .settled addr) → b.Recorded ⟨k, n⟩ addr) :
    Distinct n (b.claim c x) where
  rows := h.rows
  mirrored hm := by
    rcases h.mirrored hm with hrow | ⟨c', ip, hc'⟩
    · exact .inl hrow
    · refine .inr ⟨c', ip, claims_claim.mpr (.inr ⟨?_, hc'⟩)⟩
      rintro rfl
      exact whole _ _ _ hc'
  complete := h.complete
  free hc hr hn := by
    rcases claims_claim.mp hc with ⟨-, hx⟩ | ⟨-, hc⟩
    · exact free _ _ _ hx _ hr hn
    · exact h.free hc hr hn
  stored hc := by
    rcases claims_claim.mp hc with ⟨-, hx⟩ | ⟨-, hc⟩
    · exact absurd hx (stored _ _ _)
    · exact h.stored hc
  settled hc := by
    rcases claims_claim.mp hc with ⟨-, hx⟩ | ⟨-, hc⟩
    · exact settled _ _ hx
    · exact h.settled hc

section Writes

variable {n : ℤ} {b : Book} {c : ConnId} {m : PeerModel} {ip : Ipv4Addr}

/-- The first write, in the network. -/
lemma Distinct.write {k : String} {db : Database} (keyed : Keyed b) (orderly : Orderly n b)
    (h : Distinct n b) (chosen : b.claims c = some (⟨k, n⟩, .chosen m ip))
    (updated : b.db.updateIp m.id ip.toText = some db) :
    Distinct n { b.claim c (some (⟨k, n⟩, .written m ip)) with db } where
  rows {_ _ text} hr hr' hn hn' hip hip' := by
    obtain ⟨r, hr₀, rfl⟩ := (Database.mem_updateIp updated).mp hr
    obtain ⟨r', hr₀', rfl⟩ := (Database.mem_updateIp updated).mp hr'
    rw [Database.networkId_withIp] at hn hn'
    unfold Database.withIp at hip hip' ⊢
    by_cases hid : r.id = m.id <;> by_cases hid' : r'.id = m.id
    · rw [Database.eq_of_id hr₀ hr₀' (hid.trans hid'.symm)]
    · rw [if_pos hid] at hip
      rw [if_neg hid'] at hip'
      exact absurd (hip'.trans hip.symm) (h.free chosen hr₀' hn')
    · rw [if_neg hid] at hip
      rw [if_pos hid'] at hip'
      exact absurd (hip.trans hip'.symm) (h.free chosen hr₀ hn)
    · rw [if_neg hid] at hip ⊢
      rw [if_neg hid'] at hip' ⊢
      exact h.rows hr₀ hr₀' hn hn' hip hip'
  mirrored {k' m'} hm := by
    replace hm : b.models ⟨k', n⟩ = some m' := hm
    by_cases hk : k' = k
    · subst hk
      rw [orderly.current chosen rfl] at hm
      cases hm
      exact .inr ⟨c, ip, claims_claim.mpr (.inl ⟨rfl, rfl⟩)⟩
    · rcases h.mirrored hm with hrow | ⟨c', ip', hc'⟩
      · refine .inl (h.mem_of_write orderly chosen updated hrow fun heq => hk ?_)
        have hkey : m.pubKey = k := (keyed.claim chosen rfl).2.1
        rw [← hkey, ← heq]
        exact (keyed.model hm).2.1.symm
      · -- nobody else has an address pending
        have heq := orderly.one hc' chosen rfl rfl
        subst heq
        rw [chosen] at hc'
        cases hc'
  complete hm hr hn := by
    obtain ⟨r, hr₀, rfl⟩ := (Database.mem_updateIp updated).mp hr
    rw [Database.networkId_withIp] at hn
    rw [Database.pubKey_withIp]
    exact h.complete hm hr₀ hn
  free hc hr hn := by
    rcases claims_claim.mp hc with ⟨-, hx⟩ | ⟨hne, hc⟩
    · cases hx
    · exact absurd (orderly.one hc chosen rfl rfl) hne
  stored {c' k' m' ip'} hc := by
    rcases claims_claim.mp hc with ⟨-, hx⟩ | ⟨hne, hc⟩
    · cases hx
      refine (Database.mem_updateIp updated).mpr ⟨m, h.mem_of_chosen orderly chosen, if_pos rfl⟩
    · exact absurd (orderly.one hc chosen rfl rfl) hne
  settled hc := by
    rcases claims_claim.mp hc with ⟨-, hx⟩ | ⟨-, hc⟩
    · cases hx
    · exact Step.recorded (.write chosen updated) keyed orderly h (h.settled hc)

/-- The first write, in another network. -/
lemma Distinct.write_other {id : ClientId} {db : Database} (keyed : Keyed b)
    (orderly : Orderly n b) (h : Distinct n b) (hne : id.networkId ≠ n)
    (chosen : b.claims c = some (id, .chosen m ip))
    (updated : b.db.updateIp m.id ip.toText = some db) :
    Distinct n { b.claim c (some (id, .written m ip)) with db } := by
  have hiff : ∀ {r : PeerModel}, r.networkId = n → (r ∈ db.peers ↔ r ∈ b.db.peers) := fun hn =>
    (keyed.claim chosen rfl).mem_iff updated fun heq => hne (heq.symm.trans hn)
  have hclaims : ∀ {c' k st}, (b.claim c (some (id, .written m ip))).claims c' =
      some (⟨k, n⟩, st) → b.claims c' = some (⟨k, n⟩, st) := by
    intro c' k st hc
    rcases claims_claim.mp hc with ⟨-, hx⟩ | ⟨-, hc⟩
    · cases hx
      exact absurd rfl hne
    · exact hc
  refine ⟨?_, ?_, ?_, ?_, ?_, ?_⟩
  · intro r r' text hr hr' hn hn'
    exact h.rows ((hiff hn).mp hr) ((hiff hn').mp hr') hn hn'
  · intro k m' hm
    rcases h.mirrored hm with hrow | ⟨c', ip', hc'⟩
    · exact .inl ((hiff (keyed.model hm).2.2).mpr hrow)
    · refine .inr ⟨c', ip', claims_claim.mpr (.inr ⟨?_, hc'⟩)⟩
      rintro rfl
      rw [chosen] at hc'
      cases hc'
  · intro k m' r hm hr hn
    exact h.complete hm ((hiff hn).mp hr) hn
  · intro c' k m' ip' r hc hr hn
    exact h.free (hclaims hc) ((hiff hn).mp hr) hn
  · intro c' k m' ip' hc
    have hnet : m'.networkId = n := (keyed.claim (hclaims hc) rfl).2.2
    exact (hiff (r := { m' with ip := some ip'.toText }) hnet).mpr (h.stored (hclaims hc))
  · intro c' k addr hc
    exact Step.recorded (.write chosen updated) keyed orderly h (h.settled (hclaims hc))

/-- The second write. -/
lemma Distinct.refresh {id : ClientId} {models : ClientId → Option PeerModel} (keyed : Keyed b)
    (orderly : Orderly n b) (h : Distinct n b) (written : b.claims c = some (id, .written m ip))
    (stored : ∀ id', models id' = if id' = ⟨m.pubKey, id.networkId⟩ then
      (b.models id').map fun _ => { m with ip := some ip.toText } else b.models id') :
    Distinct n { b.claim c (some (id, .settled ip)) with models } := by
  have hown : (⟨m.pubKey, id.networkId⟩ : ClientId) = id := by rw [(keyed.claim written rfl).2.1]
  refine ⟨h.rows, ?_, ?_, ?_, ?_, ?_⟩
  · intro k m' hm
    replace hm : models ⟨k, n⟩ = some m' := hm
    rw [stored, hown] at hm
    split_ifs at hm with hid
    · obtain ⟨-, -, rfl⟩ := Option.map_eq_some_iff.mp hm
      rw [← hid] at written
      exact .inl (h.stored written)
    · rcases h.mirrored hm with hrow | ⟨c', ip', hc'⟩
      · exact .inl hrow
      · refine .inr ⟨c', ip', claims_claim.mpr (.inr ⟨?_, hc'⟩)⟩
        rintro rfl
        rw [written] at hc'
        exact hid (Prod.mk.inj (Option.some.inj hc')).1.symm
  · intro k m' r hm hr hn
    have hsome : ∀ id', (models id').isSome = (b.models id').isSome := by
      intro id'
      rw [stored]
      split_ifs
      · rw [Option.isSome_map]
      · rfl
    obtain ⟨m₀, hm₀⟩ := Option.isSome_iff_exists.mp
      ((hsome ⟨k, n⟩).symm.trans (Option.isSome_iff_exists.mpr ⟨m', hm⟩))
    obtain ⟨m₁, hm₁⟩ := h.complete hm₀ hr hn
    exact Option.isSome_iff_exists.mp ((hsome _).trans (Option.isSome_iff_exists.mpr ⟨m₁, hm₁⟩))
  · intro c' k m' ip' r hc hr hn
    rcases claims_claim.mp hc with ⟨-, hx⟩ | ⟨-, hc⟩
    · cases hx
    · exact h.free hc hr hn
  · intro c' k m' ip' hc
    rcases claims_claim.mp hc with ⟨-, hx⟩ | ⟨-, hc⟩
    · cases hx
    · exact h.stored hc
  · intro c' k addr hc
    rcases claims_claim.mp hc with ⟨-, hx⟩ | ⟨-, hc⟩
    · cases hx
      refine ⟨_, _, ?_, h.stored written, rfl, Ipv4Addr.parse_toText ip⟩
      show models ⟨k, n⟩ = _
      rw [stored, hown, if_pos rfl, orderly.current written rfl, Option.map_some]
    · exact Step.recorded (.refresh written stored) keyed orderly h (h.settled hc)

end Writes

/-- Every step keeps the addresses of the network distinct.

**Proof sketch.** The rows change only when an address is written, which no row has; the copies,
when the network is loaded and when the request of the row that was written ends. -/
lemma Step.distinct {n : ℤ} {b b' : Book} (step : Step n b b') (keyed : Keyed b)
    (orderly : Orderly n b) (h : Distinct n b) : Distinct n b' := by
  cases step with
  | skip => exact h
  | @load n' models absent loaded other =>
    by_cases hn : n = n'
    · subst hn
      refine ⟨h.rows, ?_, ?_, h.free, h.stored, ?_⟩
      · exact fun {k m} hm => .inl ((loaded k m).mp hm).1
      · exact fun {k m r} _ hr hnet => ⟨r, (loaded r.pubKey r).mpr ⟨hr, hnet, rfl⟩⟩
      · intro c k addr hc
        exact Step.recorded (.load absent loaded other) keyed orderly h (h.settled hc)
    · have hmodels : ∀ k, models ⟨k, n⟩ = b.models ⟨k, n⟩ := fun k => other ⟨k, n⟩ hn
      refine ⟨h.rows, ?_, ?_, h.free, h.stored, ?_⟩
      · exact fun {k m} hm => h.mirrored ((hmodels k).symm.trans hm)
      · intro k m r hm hr hnet
        obtain ⟨m', hm'⟩ := h.complete ((hmodels k).symm.trans hm) hr hnet
        exact ⟨m', (hmodels _).trans hm'⟩
      · intro c k addr hc
        exact Step.recorded (.load absent loaded other) keyed orderly h (h.settled hc)
  | release whole =>
    refine h.claim (fun k m ip hc => whole _ m ip hc rfl) ?_ ?_ ?_ <;> simp
  | read idle found alone =>
    refine h.claim (fun k m ip hc => ?_) ?_ ?_ ?_
    · rw [idle] at hc
      cases hc
    all_goals simp
  | @choose c id m ip reading unset free first =>
    refine h.claim (fun k m ip hc => ?_) ?_ (by simp) (by simp)
    · rw [reading] at hc
      cases hc
    · rintro k m' ip' ⟨⟩ r hr hnet
      -- no address is pending, so the copies are the rows
      obtain ⟨m₁, hm₁⟩ := h.complete (orderly.current reading rfl) hr hnet
      rcases h.mirrored hm₁ with hrow | ⟨c', ip', hc'⟩
      · rw [Database.eq_of_pubKey hr hrow (keyed.model hm₁).2.1.symm]
        exact free _ _ hm₁
      · cases first rfl c' _ _ hc' rfl
  | @accept c id m text addr reading set parsed =>
    refine h.claim (fun k m ip hc => ?_) (by simp) (by simp) ?_
    · rw [reading] at hc
      cases hc
    · rintro k addr' ⟨⟩
      have hm := orderly.current reading rfl
      refine ⟨m, text, hm, ?_, set, parsed⟩
      rcases h.mirrored hm with hrow | ⟨c', ip', hc'⟩
      · exact hrow
      · -- no other request is for the peer
        have heq := orderly.alone hc' reading (by simp [Stage.model?]) (by simp [Stage.model?])
        subst heq
        rw [reading] at hc'
        cases hc'
  | @write c id m ip db chosen updated =>
    by_cases hn : id.networkId = n
    · obtain ⟨k, n'⟩ := id
      subst hn
      exact h.write keyed orderly chosen updated
    · exact h.write_other keyed orderly hn chosen updated
  | refresh written stored => exact h.refresh keyed orderly written stored

/-- All of it. -/
structure Inv (n : ℤ) (b : Book) : Prop where
  keyed : Keyed b
  orderly : Orderly n b
  distinct : Distinct n b

/-- Every step keeps the invariant. -/
theorem Step.inv {n : ℤ} {b b' : Book} (step : Step n b b') (h : Inv n b) : Inv n b' :=
  ⟨step.keyed h.keyed, step.orderly h.keyed h.orderly, step.distinct h.keyed h.orderly h.distinct⟩

/-- No two copies have the same address. -/
lemma Inv.models_distinct {n : ℤ} {b : Book} (h : Inv n b) {k k' text : String}
    {m m' : PeerModel} (hm : b.models ⟨k, n⟩ = some m) (hm' : b.models ⟨k', n⟩ = some m')
    (hip : m.ip = some text) (hip' : m'.ip = some text) : k = k' := by
  have row : ∀ {k m}, b.models ⟨k, n⟩ = some m → m.ip = some text → m ∈ b.db.peers := by
    intro k m hm hip
    rcases h.distinct.mirrored hm with hrow | ⟨c, ip, hc⟩
    · exact hrow
    · rw [h.orderly.unset hc rfl rfl] at hip
      cases hip
  have heq : m = m' := h.distinct.rows (row hm hip) (row hm' hip') (h.keyed.model hm).2.2
    (h.keyed.model hm').2.2 hip hip'
  calc k = m.pubKey := (h.keyed.model hm).2.1.symm
    _ = m'.pubKey := by rw [heq]
    _ = k' := (h.keyed.model hm').2.1

end Book

end Vlink.Headlink
