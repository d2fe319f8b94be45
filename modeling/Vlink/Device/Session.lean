import Mathlib.Data.Finset.Basic
import Vlink.Device.NonceFilter
import Vlink.Noise.Crypto

set_option autoImplicit false

/-!
# Sessions and the tables that hold them

`device/peer/session.rs`: a session with its keys, and the index of all sessions of a device.

A `Session` of the source is cloned freely; its clones share the send counter and the replay
filter through two `Arc`s. Here the shared part of a session is a cell of a heap, and a session
carries the number of its cell.

## Main definitions

* `Vlink.Session`, `Vlink.Heap` — a session, and the cells that clones share.
* `Vlink.SessionIndex` — the sessions of a device by sender index. The bookkeeping of the source
  (`keys` covers `indexes`) is a field.
* `Vlink.SessionIndex.performAll` — a sequence of operations on the index.
* `Vlink.SessionIndex.Exact` — `keys` records no index but those in use.

## Main results

* `Vlink.SessionIndex.remove_spec` — the `unwrap` in `remove` never fails.
* `Vlink.SessionIndex.Exact.perform` — an operation that takes no index away from another peer keeps
  `keys` exact.
* `Vlink.SessionIndex.performAll_consistent` — every sequence of operations comes back and leaves
  the two maps consistent; if no index is taken away, `remove_by_key` removes the sessions of the
  peer and no others.
-/

namespace Vlink

/-! ## Cells -/

/-- What the clones of a session share. -/
structure SessionCell where
  senderNonce : UInt64
  nonceFilter : NonceFilter

/-- The cell of a new session. -/
def SessionCell.new : SessionCell := ⟨0, .new⟩

/-- The cells allocated so far are those below `size`. -/
structure Heap where
  size : ℕ
  cell : ℕ → SessionCell

namespace Heap

/-- No cells. -/
def empty : Heap := ⟨0, fun _ => .new⟩

/-- A new cell is the next one. -/
def alloc (h : Heap) : Heap := ⟨h.size + 1, Function.update h.cell h.size .new⟩

/-- Overwrite a cell. -/
def write (h : Heap) (r : ℕ) (c : SessionCell) : Heap :=
  { h with cell := Function.update h.cell r c }

/-- One cell more. -/
@[simp] lemma size_alloc (h : Heap) : h.alloc.size = h.size + 1 := rfl

/-- The new cell is fresh. -/
@[simp] lemma cell_alloc_self (h : Heap) : h.alloc.cell h.size = .new :=
  Function.update_self ..

/-- The other cells stay. -/
lemma cell_alloc_of_ne (h : Heap) {r : ℕ} (hr : r ≠ h.size) : h.alloc.cell r = h.cell r :=
  Function.update_of_ne hr ..

/-- The cell that is written. -/
@[simp] lemma cell_write_self (h : Heap) (r : ℕ) (c : SessionCell) : (h.write r c).cell r = c :=
  Function.update_self ..

/-- Other cells stay. -/
lemma cell_write_of_ne (h : Heap) {r r' : ℕ} (c : SessionCell) (hr : r' ≠ r) :
    (h.write r c).cell r' = h.cell r' :=
  Function.update_of_ne hr ..

end Heap

/-! ## Sessions -/

/-- `Session`. The two ciphers of the source are its two keys; `shared` is the cell that holds
`sender_nonce` and `nonce_filter`. -/
structure Session where
  secret : PeerStaticSecret
  senderIndex : UInt32
  senderKey : Key
  receiverIndex : UInt32
  receiverKey : Key
  shared : ℕ
deriving DecidableEq

namespace Session

/-- `Session::new`, with a new cell. -/
def new (heap : Heap) (secret : PeerStaticSecret) (senderIndex : UInt32) (senderKey : Key)
    (receiverIndex : UInt32) (receiverKey : Key) : Session × Heap :=
  (⟨secret, senderIndex, senderKey, receiverIndex, receiverKey, heap.size⟩, heap.alloc)

/-- `Session::can_accept`. -/
def canAccept (s : Session) (heap : Heap) (nonce : UInt64) : Outcome Bool :=
  (heap.cell s.shared).nonceFilter.canAccept nonce.toNat

/-- `Session::aceept`. -/
def aceept (s : Session) (heap : Heap) (nonce : UInt64) : Outcome Heap := do
  let f ← (heap.cell s.shared).nonceFilter.accept nonce.toNat
  return heap.write s.shared { heap.cell s.shared with nonceFilter := f }

/-- `Session::next_nonce`: the counter wraps. -/
def nextNonce (s : Session) (heap : Heap) : UInt64 × Heap :=
  let c := heap.cell s.shared
  (c.senderNonce, heap.write s.shared { c with senderNonce := c.senderNonce + 1 })

/-- Accepting a counter allocates nothing. -/
lemma size_aceept {s : Session} {heap heap' : Heap} {nonce : UInt64}
    (h : s.aceept heap nonce = .ret heap') : heap'.size = heap.size := by
  obtain ⟨f, -, hr⟩ := Outcome.bind_eq_ret.mp h
  cases hr
  rfl

variable (C : Crypto)

/-- `Session::encrypt_data`; the nonce is used up also when sealing fails. -/
def encryptData (s : Session) (heap : Heap) (data : Bytes) :
    Except NoiseError TransportData × Heap :=
  let (nonce, heap) := s.nextNonce heap
  match aeadEncrypt C s.senderKey nonce data [] with
  | .ok payload => (.ok ⟨s.receiverIndex, nonce, payload⟩, heap)
  | .error e => (.error e, heap)

/-- Sealing leaves the heap as drawing the nonce does. -/
lemma encryptData_heap (s : Session) (heap : Heap) (data : Bytes) :
    (s.encryptData C heap data).2 = (s.nextNonce heap).2 := by
  simp only [encryptData]
  cases aeadEncrypt C s.senderKey (s.nextNonce heap).1 data [] <;> rfl

/-- `Session::decrypt_data`. -/
def decryptData (s : Session) (packet : TransportData) : Except NoiseError Bytes :=
  if s.senderIndex ≠ packet.receiverIndex then .error .receiverIndexNotMatch
  else aeadDecrypt C s.receiverKey packet.counter packet.payload []

end Session

/-! ## The index -/

/-- `SessionIndex`: the next index to hand out, the sessions by sender index, and the indexes
in use by the public key of the peer. -/
structure SessionIndex where
  index : UInt32
  indexes : UInt32 → Option Session
  keys : Key → Option (Finset UInt32)
  /-- Sessions are kept under their own index, and `keys` records the index. -/
  recorded : ∀ {i s}, indexes i = some s →
    s.senderIndex = i ∧ ∃ is, keys s.secret.publicKey = some is ∧ i ∈ is

namespace SessionIndex

/-- `SessionIndex::new`, with the random first index. -/
def new (start : UInt32) : SessionIndex where
  index := start
  indexes _ := none
  keys _ := none
  recorded h := by cases h

/-- `SessionIndex::next_index`: the counter wraps. -/
def nextIndex (t : SessionIndex) : UInt32 × SessionIndex :=
  (t.index, { t with index := t.index + 1 })

/-- `keys.entry(key).or_default().insert(index)`. -/
def recordKey (keys : Key → Option (Finset UInt32)) (s : Session) : Key → Option (Finset UInt32) :=
  Function.update keys s.secret.publicKey
    (some (insert s.senderIndex ((keys s.secret.publicKey).getD ∅)))

/-- Recording a session keeps the other sessions recorded. -/
private lemma recorded_insert (t : SessionIndex) (s : Session) {i : UInt32} {s' : Session}
    (h : Function.update t.indexes s.senderIndex (some s) i = some s') :
    s'.senderIndex = i ∧ ∃ is, recordKey t.keys s s'.secret.publicKey = some is ∧ i ∈ is := by
  rw [Function.update_apply] at h
  split_ifs at h with hi
  · cases h
    exact ⟨hi.symm, _, Function.update_self .., by simp [hi]⟩
  · obtain ⟨hidx, is, his, hmem⟩ := t.recorded h
    refine ⟨hidx, ?_⟩
    by_cases hk : s'.secret.publicKey = s.secret.publicKey
    · refine ⟨_, by rw [recordKey, hk]; exact Function.update_self .., ?_⟩
      simp [← hk, his, hmem]
    · exact ⟨is, by rw [recordKey, Function.update_of_ne hk]; exact his, hmem⟩

/-- `SessionIndex::insert`. -/
def insert (t : SessionIndex) (s : Session) : SessionIndex where
  index := t.index
  indexes := Function.update t.indexes s.senderIndex (some s)
  keys := recordKey t.keys s
  recorded := t.recorded_insert s

/-- `SessionIndex::get_by_index`. -/
def getByIndex (t : SessionIndex) (i : UInt32) : Option Session := t.indexes i

/-- Removing a session keeps the other sessions recorded. -/
private lemma recorded_remove (t : SessionIndex) {i : UInt32} {found : Session}
    {is : Finset UInt32} (hfound : t.indexes i = some found)
    (his : t.keys found.secret.publicKey = some is) {j : UInt32} {s : Session}
    (h : Function.update t.indexes i none j = some s) :
    s.senderIndex = j ∧ ∃ js, Function.update t.keys found.secret.publicKey
      (some (is.erase found.senderIndex)) s.secret.publicKey = some js ∧ j ∈ js := by
  rw [Function.update_apply] at h
  split_ifs at h with hj
  obtain ⟨hidx, js, hjs, hmem⟩ := t.recorded h
  refine ⟨hidx, ?_⟩
  by_cases hk : s.secret.publicKey = found.secret.publicKey
  · rw [hk, his] at hjs
    cases hjs
    refine ⟨_, by rw [hk]; exact Function.update_self .., ?_⟩
    rw [(t.recorded hfound).1]
    exact Finset.mem_erase.mpr ⟨hj, hmem⟩
  · exact ⟨js, by rw [Function.update_of_ne hk]; exact hjs, hmem⟩

/-- `SessionIndex::remove`: the entry under the sender index of `s` goes, whatever session it
is; the `unwrap` on the indexes of its peer panics if there are none. -/
def remove (t : SessionIndex) (s : Session) : Outcome (SessionIndex × Option Session) :=
  match hf : t.indexes s.senderIndex with
  | none => .ret (t, none)
  | some found =>
    match hk : t.keys found.secret.publicKey with
    | none => .panic
    | some is => .ret
        ({ index := t.index
           indexes := Function.update t.indexes s.senderIndex none
           keys := Function.update t.keys found.secret.publicKey
             (some (is.erase found.senderIndex))
           recorded := t.recorded_remove hf hk }, some found)

/-- Removing the indexes of a peer keeps the other sessions recorded. -/
private lemma recorded_removeByKey (t : SessionIndex) {key : Key} {is : Finset UInt32}
    (his : t.keys key = some is) {i : UInt32} {s : Session}
    (h : (if i ∈ is then none else t.indexes i) = some s) :
    s.senderIndex = i ∧
      ∃ js, Function.update t.keys key none s.secret.publicKey = some js ∧ i ∈ js := by
  split_ifs at h with hi
  obtain ⟨hidx, js, hjs, hmem⟩ := t.recorded h
  have hk : s.secret.publicKey ≠ key := by
    rintro rfl
    rw [his] at hjs
    cases hjs
    exact hi hmem
  exact ⟨hidx, js, by rwa [Function.update_of_ne hk], hmem⟩

/-- `SessionIndex::remove_by_key`: what `keys` has for the peer goes, and each index in it. -/
def removeByKey (t : SessionIndex) (key : Key) : SessionIndex :=
  match hk : t.keys key with
  | none => t
  | some is =>
    { index := t.index
      indexes := fun i => if i ∈ is then none else t.indexes i
      keys := Function.update t.keys key none
      recorded := t.recorded_removeByKey hk }

/-- `SessionIndex::clear`. -/
def clear (t : SessionIndex) : SessionIndex where
  index := t.index
  indexes _ := none
  keys _ := none
  recorded h := by cases h

/-- The indexes after an insertion. -/
@[simp] lemma indexes_insert (t : SessionIndex) (s : Session) :
    (t.insert s).indexes = Function.update t.indexes s.senderIndex (some s) := rfl

/-- What `remove` does when it comes back. -/
lemma remove_cases {t t' : SessionIndex} {s : Session} {found : Option Session}
    (h : t.remove s = .ret (t', found)) :
    t.indexes s.senderIndex = none ∧ found = none ∧ t' = t ∨
    ∃ f is, t.indexes s.senderIndex = some f ∧ t.keys f.secret.publicKey = some is ∧
      found = some f ∧ t'.index = t.index ∧
      t'.indexes = Function.update t.indexes s.senderIndex none ∧
      t'.keys = Function.update t.keys f.secret.publicKey (some (is.erase f.senderIndex)) := by
  unfold remove at h
  split at h
  next hf =>
    cases h
    exact .inl ⟨hf, rfl, rfl⟩
  next f hf =>
    split at h
    next hk => cases h
    next is hk =>
      cases h
      exact .inr ⟨f, is, hf, hk, rfl, rfl, rfl, rfl⟩

/-- The `unwrap` in `remove` never fails: `keys` has the indexes of every session. -/
lemma remove_returns (t : SessionIndex) (s : Session) : (t.remove s).Returns := by
  unfold remove
  split
  next => exact Outcome.returns_ret _
  next found hf =>
    obtain ⟨-, is, his, -⟩ := t.recorded hf
    split
    next hk => rw [hk] at his; cases his
    next => exact Outcome.returns_ret _

/-- `remove` comes back, and afterwards nothing is found under the sender index. -/
theorem remove_spec (t : SessionIndex) (s : Session) :
    ∃ t' found, t.remove s = .ret (t', found) ∧ found = t.indexes s.senderIndex ∧
      t'.index = t.index ∧ t'.indexes = Function.update t.indexes s.senderIndex none := by
  obtain ⟨⟨t', found⟩, h⟩ := t.remove_returns s
  refine ⟨t', found, h, ?_⟩
  rcases remove_cases h with ⟨hf, rfl, rfl⟩ | ⟨f, is, hf, -, rfl, hidx, hindexes, -⟩
  · refine ⟨hf.symm, rfl, ?_⟩
    rw [← hf, Function.update_eq_self]
  · exact ⟨hf.symm, hidx, hindexes⟩

/-- What `remove_by_key` leaves. -/
lemma removeByKey_spec (t : SessionIndex) (key : Key) :
    (∀ i, (t.removeByKey key).indexes i =
      if i ∈ (t.keys key).getD ∅ then none else t.indexes i) ∧
    (t.removeByKey key).keys = Function.update t.keys key none := by
  unfold removeByKey
  split
  next hk => exact ⟨fun i => by simp [hk], by rw [← hk, Function.update_eq_self]⟩
  next is hk => exact ⟨fun i => by simp [hk], rfl⟩

/-! ## Sequences of operations -/

/-- The operations of the index that change it. -/
inductive Op where
  | nextIndex
  | insert (s : Session)
  | remove (s : Session)
  | removeByKey (key : Key)
  | clear

/-- Carry out an operation. -/
def perform (t : SessionIndex) : Op → Outcome SessionIndex
  | .nextIndex => .ret t.nextIndex.2
  | .insert s => .ret (t.insert s)
  | .remove s => do
    let (t, _) ← t.remove s
    return t
  | .removeByKey key => .ret (t.removeByKey key)
  | .clear => .ret t.clear

/-- Carry out a sequence of operations. -/
def performAll : SessionIndex → List Op → Outcome SessionIndex
  | t, [] => .ret t
  | t, op :: ops => do
    let t ← t.perform op
    t.performAll ops

/-- The peer whose session has the index `i`. -/
def keyOf (t : SessionIndex) (i : UInt32) : Option Key :=
  (t.indexes i).map fun s => s.secret.publicKey

/-- The operation does not insert a session under an index that another peer has. -/
def Keeps (t : SessionIndex) : Op → Prop
  | .insert s => ∀ k, t.keyOf s.senderIndex = some k → k = s.secret.publicKey
  | _ => True

/-- No operation of the sequence does. -/
def KeepsAll : SessionIndex → List Op → Prop
  | _, [] => True
  | t, op :: ops => t.Keeps op ∧ ∀ t', t.perform op = .ret t' → t'.KeepsAll ops

/-- The indexes that `keys` has for a peer are those of its sessions. -/
def Exact (t : SessionIndex) : Prop :=
  ∀ k i, i ∈ (t.keys k).getD ∅ ↔ t.keyOf i = some k

/-- An empty table is exact. -/
lemma exact_new (start : UInt32) : (new start).Exact := by
  intro k i
  simp [new, keyOf]

/-- Every operation comes back. -/
lemma perform_returns (t : SessionIndex) (op : Op) : (t.perform op).Returns := by
  cases op with
  | remove s => exact Outcome.returns_bind (t.remove_returns s) fun _ _ => Outcome.returns_ret _
  | _ => exact Outcome.returns_ret _

section Exact

variable {t t' : SessionIndex}

/-- Inserting keeps a table exact. -/
lemma Exact.insert {s : Session} (h : t.Exact) (hk : t.Keeps (.insert s)) :
    (t.insert s).Exact := by
  intro k i
  have hold := h k i
  simp only [SessionIndex.insert, recordKey, keyOf, Function.update_apply] at hold ⊢
  by_cases hkey : k = s.secret.publicKey
  · by_cases hi : i = s.senderIndex
    · simp [hkey, hi]
    · rw [if_pos hkey, if_neg hi, ← hold, hkey]
      simp [hi]
  · by_cases hi : i = s.senderIndex
    · -- the index was not that of another peer
      have hfree : ¬ t.keyOf i = some k := fun hki => hkey (hk k (hi ▸ hki))
      simp only [hkey, if_false, hi, if_true, Option.map_some, Option.some.injEq]
      rw [← hi, hold]
      exact iff_of_false hfree (Ne.symm hkey)
    · rwa [if_neg hkey, if_neg hi]

/-- Removing keeps a table exact. -/
theorem Exact.remove {s : Session} {found : Option Session} (h : t.Exact)
    (hr : t.remove s = .ret (t', found)) : t'.Exact := by
  rcases remove_cases hr with ⟨-, -, rfl⟩ | ⟨f, is, hf, his, -, -, hindexes, hkeys⟩
  · exact h
  · intro k i
    have hold := h k i
    have hidx := (t.recorded hf).1
    simp only [keyOf, hindexes, hkeys, Function.update_apply] at hold ⊢
    by_cases hi : i = s.senderIndex
    · rw [hi, hf] at hold
      by_cases hkey : k = f.secret.publicKey
      · simp [hkey, hi, hidx]
      · simpa [hkey, hi, Ne.symm hkey] using hold
    · by_cases hkey : k = f.secret.publicKey
      · subst hkey
        rw [his] at hold
        rw [if_pos rfl, if_neg hi, ← hold]
        simp [hi, hidx]
      · rwa [if_neg hkey, if_neg hi]

/-- Under an exact index `remove_by_key` removes the sessions of the peer, and no others. -/
lemma Exact.indexes_removeByKey (h : t.Exact) (key : Key) (i : UInt32) :
    (t.removeByKey key).indexes i =
      (t.indexes i).filter fun s => s.secret.publicKey ≠ key := by
  have hmem := h key i
  rw [(t.removeByKey_spec key).1]
  unfold keyOf at hmem
  cases hs : t.indexes i with
  | none => simp
  | some s =>
    by_cases hkey : s.secret.publicKey = key
    · simp [hmem, hs, hkey, Option.filter]
    · simp [hmem, hs, hkey, Option.filter]

/-- So does removing a peer. -/
lemma Exact.removeByKey (h : t.Exact) (key : Key) : (t.removeByKey key).Exact := by
  intro k i
  have hold := h k i
  rw [keyOf, h.indexes_removeByKey, (t.removeByKey_spec key).2, Function.update_apply]
  simp only [keyOf, Option.map_eq_some_iff, Option.filter_eq_some_iff, decide_eq_true_eq] at hold ⊢
  by_cases hkey : k = key
  · subst hkey
    simp
  · rw [if_neg hkey, hold]
    constructor
    · rintro ⟨s, hs, rfl⟩
      exact ⟨s, ⟨hs, hkey⟩, rfl⟩
    · rintro ⟨s, ⟨hs, -⟩, hk⟩
      exact ⟨s, hs, hk⟩

/-- An operation that takes no index away from another peer keeps `keys` exact. -/
theorem Exact.perform {op : Op} (h : t.Exact) (hk : t.Keeps op) (hr : t.perform op = .ret t') :
    t'.Exact := by
  cases op with
  | nextIndex =>
    cases hr
    exact h
  | insert s =>
    cases hr
    exact h.insert hk
  | remove s =>
    obtain ⟨⟨t₁, found⟩, hrem, hret⟩ := Outcome.bind_eq_ret.mp hr
    cases hret
    exact h.remove hrem
  | removeByKey key =>
    cases hr
    exact h.removeByKey key
  | clear =>
    cases hr
    intro k i
    simp [clear, keyOf]

end Exact

/-- A sequence of operations comes back; if none of them takes an index away from another peer,
then `keys` stays exact. -/
lemma performAll_spec (ops : List Op) : ∀ t : SessionIndex,
    ∃ t', t.performAll ops = .ret t' ∧ (t.Exact → t.KeepsAll ops → t'.Exact) := by
  induction ops with
  | nil => exact fun t => ⟨t, rfl, fun h _ => h⟩
  | cons op ops ih =>
    intro t
    obtain ⟨t₁, h₁⟩ := t.perform_returns op
    obtain ⟨t', h', hexact⟩ := ih t₁
    refine ⟨t', by rw [performAll, h₁, Outcome.ret_bind, h'], fun he hk => ?_⟩
    exact hexact (he.perform hk.1 h₁) (hk.2 t₁ h₁)

/-- **The two maps of the index stay consistent.** Whatever operations are carried out on a new
index, each of them comes back; every index in use is recorded under the key of its session, so
`remove` comes back as well. If no index in use by one peer was given to a session of another, then
`keys` has exactly the indexes of each peer, and `remove_by_key` removes the sessions of the peer
and no others. -/
theorem performAll_consistent (start : UInt32) (ops : List Op) :
    ∃ t, (new start).performAll ops = .ret t ∧
      (∀ i s, t.indexes i = some s → ∃ is, t.keys s.secret.publicKey = some is ∧ i ∈ is) ∧
      (∀ s, (t.remove s).Returns) ∧
      ((new start).KeepsAll ops → ∀ k, (∀ i, i ∈ (t.keys k).getD ∅ ↔ t.keyOf i = some k) ∧
        ∀ i, (t.removeByKey k).indexes i =
          (t.indexes i).filter fun s => s.secret.publicKey ≠ k) := by
  obtain ⟨t, ht, hexact⟩ := performAll_spec ops (new start)
  refine ⟨t, ht, fun i s hs => (t.recorded hs).2, t.remove_returns, fun hk k => ?_⟩
  have he := hexact (exact_new start) hk
  exact ⟨he k, he.indexes_removeByKey k⟩

/-- A session with the peer `key`. -/
def sampleSession (key : Key) (i : UInt32) : Session :=
  ⟨⟨⟨Block.zero 32, Block.zero 32⟩, key, Block.zero 32⟩, i, Block.zero 32, 0, Block.zero 32, 0⟩

/-- The key of another peer than `Block.zero 32`. -/
def sampleKey : Key := ⟨List.replicate 32 1, List.length_replicate⟩

/-- Two sessions of one peer and one of another, which stays when the first two are removed. -/
theorem performAll_consistent_two_peers :
    ∃ t, (new 7).performAll [.insert (sampleSession sampleKey 7),
        .insert (sampleSession (Block.zero 32) 8), .insert (sampleSession sampleKey 9),
        .remove (sampleSession sampleKey 7)] = .ret t ∧
      (t.removeByKey sampleKey).indexes 9 = none ∧
      (t.removeByKey sampleKey).indexes 8 = some (sampleSession (Block.zero 32) 8) := by
  obtain ⟨t, ht, -, -, hexact⟩ := performAll_consistent 7 [.insert (sampleSession sampleKey 7),
    .insert (sampleSession (Block.zero 32) 8), .insert (sampleSession sampleKey 9),
    .remove (sampleSession sampleKey 7)]
  have hkeeps : (new 7).KeepsAll [.insert (sampleSession sampleKey 7),
      .insert (sampleSession (Block.zero 32) 8), .insert (sampleSession sampleKey 9),
      .remove (sampleSession sampleKey 7)] := by
    refine ⟨fun k hk => ?_, ?_⟩
    · cases hk
    · rintro _ ⟨⟩
      refine ⟨fun k hk => ?_, ?_⟩
      · cases hk
      · rintro _ ⟨⟩
        refine ⟨fun k hk => ?_, ?_⟩
        · cases hk
        · rintro _ -
          exact ⟨trivial, fun _ _ => trivial⟩
  refine ⟨t, ht, ?_⟩
  rw [(hexact hkeeps sampleKey).2, (hexact hkeeps sampleKey).2]
  cases ht
  decide

end SessionIndex

end Vlink
