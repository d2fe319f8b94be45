import Mathlib.Algebra.Order.Ring.Nat
import Vlink.Lib.Outcome

set_option autoImplicit false

/-!
# Snowflake ids

`headlink/src/db/snowflake.rs`: an id of 64 bits is put together from a timestamp, the number of
the machine and a sequence number. The number of the machine is always zero. There are two
layouts: `MySnowflakeParams`, which the generator uses and which is meant for ids that JavaScript
can hold (53 bits), and `NormalSnowflakeParams`.

## Main definitions

* `Vlink.Headlink.Layout` — where the parts of an id are, and how large they may be.
* `Vlink.Headlink.Layout.constructSnowflake`, `timestamp`, `sequenceNumber` — putting an id together
  and taking it apart.
* `Vlink.Headlink.mySnowflakeParams`, `normalSnowflakeParams` — the two layouts.

## Main results

* `Vlink.Headlink.Layout.constructSnowflake_eq` — the id as a number.
* `Vlink.Headlink.Layout.timestamp_eq`, `Layout.sequenceNumber_eq`, `Layout.lt_iff` — an id gives
  back its parts, and ids are ordered as their parts are.
* `Vlink.Headlink.faithful_iff` — an id of `MySnowflakeParams` has 53 bits if and only if the
  timestamp has 39; the layout admits timestamps of 42.
-/

namespace Vlink.Headlink

/-! ## Layouts -/

/-- The numbers in which the implementations of `Layout` differ. The parts do not overlap, and the
id has room for them. -/
structure Layout where
  /-- `timestamp << timestampShift`. -/
  timestampShift : UInt64
  /-- `machine_id() << machineShift`. -/
  machineShift : UInt64
  /-- A timestamp is below `1 << timestampBits`. -/
  timestampBits : UInt64
  /-- A sequence number is below `1 << sequenceBits`. -/
  sequenceBits : UInt64
  timestampShift_pos : 0 < timestampShift.toNat
  timestampBits_pos : 0 < timestampBits.toNat
  sequenceBits_le : sequenceBits.toNat ≤ timestampShift.toNat
  bits_le : timestampBits.toNat + timestampShift.toNat ≤ 64

/-- `machine_id`. -/
def machineId : UInt64 := 0

namespace Layout

variable (l : Layout)

/-- `exceeds_timestamp`. -/
def exceedsTimestamp (input : UInt64) : Bool := input ≥ 1 <<< l.timestampBits

/-- `exceeds_sequence_number`. -/
def exceedsSequenceNumber (input : UInt64) : Bool := input ≥ 1 <<< l.sequenceBits

/-- `construct_snowflake`, with its `assert!`. -/
def constructSnowflake (timestamp sequenceNumber : UInt64) : Outcome UInt64 :=
  if !l.exceedsTimestamp timestamp && !l.exceedsSequenceNumber sequenceNumber then
    .ret ((timestamp <<< l.timestampShift) ||| (machineId <<< l.machineShift) ||| sequenceNumber)
  else .panic

/-- `timestamp`. -/
def timestamp (input : UInt64) : UInt64 := input >>> l.timestampShift

/-- `sequence_number`. -/
def sequenceNumber (input : UInt64) : UInt64 := input &&& ((1 <<< l.sequenceBits) - 1)

end Layout

/-- `MySnowflakeParams`. -/
def mySnowflakeParams : Layout where
  timestampShift := 14
  machineShift := 13
  timestampBits := 42
  sequenceBits := 9
  timestampShift_pos := by decide
  timestampBits_pos := by decide
  sequenceBits_le := by decide
  bits_le := by decide

/-- `NormalSnowflakeParams`. -/
def normalSnowflakeParams : Layout where
  timestampShift := 22
  machineShift := 12
  timestampBits := 42
  sequenceBits := 12
  timestampShift_pos := by decide
  timestampBits_pos := by decide
  sequenceBits_le := by decide
  bits_le := by decide

namespace Layout

variable {l : Layout} {t n t' n' id id' : UInt64}

/-! ## Ids as numbers -/

/-- The bound that a shift writes down. -/
lemma toNat_one_shiftLeft {k : UInt64} (hk : k.toNat < 64) :
    ((1 : UInt64) <<< k).toNat = 2 ^ k.toNat := by
  have hpow : 2 ^ k.toNat < 2 ^ 64 := Nat.pow_lt_pow_right (by omega) hk
  rw [UInt64.toNat_shiftLeft, Nat.mod_eq_of_lt hk, UInt64.toNat_one, Nat.one_shiftLeft,
    Nat.mod_eq_of_lt hpow]

/-- No shift is by the width of an id or more. -/
lemma timestampShift_lt (l : Layout) : l.timestampShift.toNat < 64 := by
  have := l.bits_le
  have := l.timestampBits_pos
  omega

/-- The bits fit in a word. -/
lemma timestampBits_lt (l : Layout) : l.timestampBits.toNat < 64 := by
  have := l.bits_le
  have := l.timestampShift_pos
  omega

/-- The bits fit in a word. -/
lemma sequenceBits_lt (l : Layout) : l.sequenceBits.toNat < 64 :=
  lt_of_le_of_lt l.sequenceBits_le l.timestampShift_lt

/-- The bound on the time. -/
lemma exceedsTimestamp_eq_false :
    l.exceedsTimestamp t = false ↔ t.toNat < 2 ^ l.timestampBits.toNat := by
  rw [exceedsTimestamp, decide_eq_false_iff_not, ge_iff_le, UInt64.le_iff_toNat_le,
    toNat_one_shiftLeft l.timestampBits_lt, Nat.not_le]

/-- The bound on the number. -/
lemma exceedsSequenceNumber_eq_false :
    l.exceedsSequenceNumber n = false ↔ n.toNat < 2 ^ l.sequenceBits.toNat := by
  rw [exceedsSequenceNumber, decide_eq_false_iff_not, ge_iff_le, UInt64.le_iff_toNat_le,
    toNat_one_shiftLeft l.sequenceBits_lt, Nat.not_le]

/-- A sequence number that is admitted lies below the timestamp. -/
lemma toNat_lt_of_admitted (hn : l.exceedsSequenceNumber n = false) :
    n.toNat < 2 ^ l.timestampShift.toNat :=
  lt_of_lt_of_le (exceedsSequenceNumber_eq_false.mp hn)
    (Nat.pow_le_pow_right (by omega) l.sequenceBits_le)

/-- **The id as a number**: what is admitted is put together without loss.

**Proof sketch.** The shifted timestamp keeps all its bits, and those of the sequence number are
below it, so `|` is a sum. -/
theorem constructSnowflake_eq (ht : l.exceedsTimestamp t = false)
    (hn : l.exceedsSequenceNumber n = false) :
    ∃ id, l.constructSnowflake t n = .ret id ∧
      id.toNat = t.toNat * 2 ^ l.timestampShift.toNat + n.toNat := by
  have hroom : t.toNat * 2 ^ l.timestampShift.toNat < 2 ^ 64 := by
    calc t.toNat * 2 ^ l.timestampShift.toNat
        < 2 ^ l.timestampBits.toNat * 2 ^ l.timestampShift.toNat :=
          Nat.mul_lt_mul_of_pos_right (exceedsTimestamp_eq_false.mp ht) (Nat.two_pow_pos _)
      _ = 2 ^ (l.timestampBits.toNat + l.timestampShift.toNat) := (Nat.pow_add ..).symm
      _ ≤ 2 ^ 64 := Nat.pow_le_pow_right (by omega) l.bits_le
  have hmachine : machineId <<< l.machineShift = 0 := UInt64.zero_shiftLeft
  refine ⟨(t <<< l.timestampShift) ||| (machineId <<< l.machineShift) ||| n,
    by simp [constructSnowflake, ht, hn], ?_⟩
  rw [hmachine, UInt64.or_zero, UInt64.toNat_or, UInt64.toNat_shiftLeft,
    Nat.mod_eq_of_lt l.timestampShift_lt, Nat.mod_eq_of_lt (by rwa [Nat.shiftLeft_eq]),
    ← Nat.shiftLeft_add_eq_or_of_lt (toNat_lt_of_admitted hn), Nat.shiftLeft_eq]

/-- An id that came back was put together from admitted parts. -/
lemma constructSnowflake_eq_ret (h : l.constructSnowflake t n = .ret id) :
    (l.exceedsTimestamp t = false ∧ l.exceedsSequenceNumber n = false) ∧
      id.toNat = t.toNat * 2 ^ l.timestampShift.toNat + n.toNat := by
  have hadm : l.exceedsTimestamp t = false ∧ l.exceedsSequenceNumber n = false := by
    unfold constructSnowflake at h
    split_ifs at h with hc
    simpa using hc
  obtain ⟨id', h', heq⟩ := constructSnowflake_eq hadm.1 hadm.2
  rw [h] at h'
  cases h'
  exact ⟨hadm, heq⟩

/-! ## Taking an id apart -/

/-- The timestamp of an id. -/
theorem timestamp_eq (h : l.constructSnowflake t n = .ret id) : l.timestamp id = t := by
  obtain ⟨⟨-, hn⟩, heq⟩ := constructSnowflake_eq_ret h
  apply UInt64.toNat_inj.mp
  rw [timestamp, UInt64.toNat_shiftRight, Nat.mod_eq_of_lt l.timestampShift_lt,
    Nat.shiftRight_eq_div_pow, heq, Nat.add_comm, Nat.add_mul_div_right _ _ (Nat.two_pow_pos _),
    Nat.div_eq_of_lt (toNat_lt_of_admitted hn), Nat.zero_add]

/-- The sequence number of an id. -/
theorem sequenceNumber_eq (h : l.constructSnowflake t n = .ret id) : l.sequenceNumber id = n := by
  obtain ⟨⟨-, hn⟩, heq⟩ := constructSnowflake_eq_ret h
  have hmask : ((1 <<< l.sequenceBits : UInt64) - 1).toNat = 2 ^ l.sequenceBits.toNat - 1 := by
    have hone : (1 : UInt64) ≤ 1 <<< l.sequenceBits := by
      rw [UInt64.le_iff_toNat_le, toNat_one_shiftLeft l.sequenceBits_lt]
      exact Nat.one_le_two_pow
    rw [UInt64.toNat_sub_of_le _ _ hone, toNat_one_shiftLeft l.sequenceBits_lt]
    rfl
  have hdvd : 2 ^ l.sequenceBits.toNat ∣ t.toNat * 2 ^ l.timestampShift.toNat :=
    Dvd.dvd.mul_left (Nat.pow_dvd_pow 2 l.sequenceBits_le) _
  apply UInt64.toNat_inj.mp
  rw [sequenceNumber, UInt64.toNat_and, hmask, Nat.and_two_pow_sub_one_eq_mod, heq, Nat.add_mod,
    Nat.mod_eq_zero_of_dvd hdvd, Nat.zero_add, Nat.mod_mod,
    Nat.mod_eq_of_lt (exceedsSequenceNumber_eq_false.mp hn)]

/-- Ids are ordered as the pairs of timestamp and sequence number are. -/
theorem lt_iff (h : l.constructSnowflake t n = .ret id)
    (h' : l.constructSnowflake t' n' = .ret id') : id < id' ↔ t < t' ∨ t = t' ∧ n < n' := by
  obtain ⟨⟨-, hn⟩, heq⟩ := constructSnowflake_eq_ret h
  obtain ⟨⟨-, hn'⟩, heq'⟩ := constructSnowflake_eq_ret h'
  have hlt := toNat_lt_of_admitted hn
  have hlt' := toNat_lt_of_admitted hn'
  rw [UInt64.lt_iff_toNat_lt, UInt64.lt_iff_toNat_lt, UInt64.lt_iff_toNat_lt, heq, heq',
    ← UInt64.toNat_inj]
  rcases Nat.lt_trichotomy t.toNat t'.toNat with hlt | heq | hgt
  · have := Nat.mul_le_mul_right (2 ^ l.timestampShift.toNat) (Nat.succ_le_of_lt hlt)
    rw [Nat.succ_mul] at this
    omega
  · rw [heq]
    omega
  · have := Nat.mul_le_mul_right (2 ^ l.timestampShift.toNat) (Nat.succ_le_of_lt hgt)
    rw [Nat.succ_mul] at this
    omega

end Layout

/-! ## Ids for JavaScript -/

/-- What is asked of the id for a timestamp and a sequence number: it gives both back, it is ordered
as they are, and it is below `2 ^ 53`. -/
def Faithful (l : Layout) (t n : UInt64) : Prop :=
  ∃ id, l.constructSnowflake t n = .ret id ∧ l.timestamp id = t ∧ l.sequenceNumber id = n ∧
    (∀ t' n' id', l.constructSnowflake t' n' = .ret id' →
      (id < id' ↔ t < t' ∨ t = t' ∧ n < n') ∧ (id' < id ↔ t' < t ∨ t' = t ∧ n' < n)) ∧
    id.toNat < 2 ^ 53

/-- **An id of `MySnowflakeParams` is faithful if and only if the timestamp has 39 bits.** The
layout admits timestamps of 42 bits, and leaves 14 bits below them.

**Proof sketch.** The id is the timestamp times `2 ^ 14` and a number below `2 ^ 14`. -/
theorem faithful_iff (t n : UInt64) (ht : mySnowflakeParams.exceedsTimestamp t = false)
    (hn : mySnowflakeParams.exceedsSequenceNumber n = false) :
    Faithful mySnowflakeParams t n ↔ t.toNat < 2 ^ 39 := by
  obtain ⟨id, hid, heq⟩ := Layout.constructSnowflake_eq ht hn
  have hbelow := Layout.toNat_lt_of_admitted hn
  have hshift : mySnowflakeParams.timestampShift.toNat = 14 := rfl
  rw [hshift] at heq hbelow
  constructor
  · rintro ⟨id', hid', -, -, -, hlt⟩
    rw [hid] at hid'
    cases hid'
    omega
  · intro hlt
    refine ⟨id, hid, Layout.timestamp_eq hid, Layout.sequenceNumber_eq hid,
      fun t' n' id' hid' => ?_, by omega⟩
    exact ⟨Layout.lt_iff hid hid', Layout.lt_iff hid' hid⟩

/-- The last millisecond with a faithful id. -/
theorem faithful_iff_last : mySnowflakeParams.exceedsTimestamp 549755813887 = false ∧
    mySnowflakeParams.exceedsSequenceNumber 511 = false ∧
    Faithful mySnowflakeParams 549755813887 511 :=
  ⟨by decide, by decide, (faithful_iff _ _ (by decide) (by decide)).mpr (by decide)⟩

/-- In the millisecond after it the id is `2 ^ 53`. -/
theorem snowflake_too_large : mySnowflakeParams.exceedsTimestamp 549755813888 = false ∧
    mySnowflakeParams.exceedsSequenceNumber 0 = false ∧
    mySnowflakeParams.constructSnowflake 549755813888 0 = .ret 9007199254740992 ∧
    ¬ Faithful mySnowflakeParams 549755813888 0 := by
  refine ⟨by decide, by decide, by decide, ?_⟩
  rintro ⟨id, hid, -, -, -, hlt⟩
  have : mySnowflakeParams.constructSnowflake 549755813888 0 = .ret 9007199254740992 := by decide
  rw [this] at hid
  cases hid
  exact absurd hlt (by decide)

end Vlink.Headlink
