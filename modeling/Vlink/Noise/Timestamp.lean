import Mathlib.Order.Basic
import Vlink.Lib.Bytes

set_option autoImplicit false

/-!
# Clocks and handshake timestamps

The two clocks of the program, and the timestamp that an initiation carries
(`noise/timestamp.rs`). A reading of the monotonic clock (`Instant`) is a number of
nanoseconds from some origin; only differences of readings have a meaning, and `elapsed`
saturates at zero as `Instant::elapsed` does. A reading of the wall clock (`SystemTime`) is a
number of nanoseconds since the Unix epoch.

## Main definitions

* `Vlink.Instant`, `Vlink.Duration`, `Vlink.SystemTime` — clock readings and time spans.
* `Vlink.Timestamp.stamp` — the twelve bytes of a timestamp: seconds and nanoseconds, both
  big-endian, the low bits of the nanoseconds masked out.
* `Vlink.Timestamp.cmp`, `Vlink.Timestamp.le` — the order of timestamps, by bytes.

## Main results

* `Vlink.Timestamp.cmp_stamp` — timestamps are ordered as the rounded times are.
* `Vlink.Timestamp.stamp_mono` — a later time has no smaller timestamp, and a larger one if it is
  later by `2 ^ 24` nanoseconds.
-/

namespace Vlink

/-- A reading of the monotonic clock, in nanoseconds. -/
abbrev Instant := ℤ

/-- A span of time, in nanoseconds. -/
abbrev Duration := ℕ

/-- A reading of the wall clock, in nanoseconds since the Unix epoch. -/
abbrev SystemTime := ℕ

/-- `Duration::from_secs`. -/
def Duration.fromSecs (s : ℕ) : Duration := s * 1000000000

/-- `Instant::elapsed` at the reading `now`; zero when `t` lies in the future. -/
def Instant.elapsed (t now : Instant) : Duration := (now - t).toNat

/-- The twelve bytes of a `Timestamp`. -/
abbrev Timestamp := Block 12

namespace Timestamp

/-- `BASE`. -/
def base : ℕ := 0x400000000000000a

/-- `WHITENER_MASK`. -/
def whitenerMask : UInt32 := 0x1000000 - 1

/-- `Timestamp::stamp`. -/
def stamp (t : SystemTime) : Timestamp :=
  let secs := base + t / 1000000000
  let subsecNanos := UInt32.ofNat (t % 1000000000)
  let nanos := subsecNanos &&& ~~~whitenerMask
  ⟨beBytes 8 secs ++ beBytes 4 nanos.toNat, by simp⟩

/-- Clearing the bits of `WHITENER_MASK` rounds down to a multiple of `2 ^ 24`. -/
lemma toNat_whitened (x : UInt32) :
    (x &&& ~~~whitenerMask).toNat = x.toNat / 2 ^ 24 * 2 ^ 24 := by
  have hmask : (~~~whitenerMask).toNat = (2 ^ 8 - 1) <<< 24 := by decide
  have hhigh : ∀ i, 8 ≤ i - 24 → x.toNat.testBit i = false := fun i h =>
    Nat.testBit_lt_two_pow (lt_of_lt_of_le x.toNat_lt (Nat.pow_le_pow_right (by omega) (by omega)))
  rw [UInt32.toNat_and, hmask, ← Nat.shiftRight_eq_div_pow, ← Nat.shiftLeft_eq]
  apply Nat.eq_of_testBit_eq
  intro i
  rw [Nat.testBit_and, Nat.testBit_shiftLeft, Nat.testBit_shiftLeft, Nat.testBit_shiftRight,
    Nat.testBit_two_pow_sub_one]
  by_cases h : 24 ≤ i
  · by_cases h8 : i - 24 < 8
    · simp [h, h8]
    · simp [h, h8, hhigh i (by omega)]
  · simp [h]

/-- `Timestamp::cmp`. -/
def cmp (t t' : Timestamp) : Ordering := Bytes.cmp t.val t'.val

/-- `t ≤ t'` in the order of `Timestamp`. -/
def le (t t' : Timestamp) : Bool := (cmp t t').isLE

/-! ## The order of time -/

/-- The time without the nanoseconds that are masked out. -/
def rounded (t : SystemTime) : ℕ :=
  t / 1000000000 * 2 ^ 32 + t % 1000000000 / 2 ^ 24 * 2 ^ 24

/-- The timestamp as a number: as long as the seconds fit, `BASE` is added to them. -/
lemma beNat_stamp {t : ℕ} (h : t / 1000000000 ≤ 2 ^ 64 - 1 - base) :
    beNat (stamp t).val = base * 2 ^ 32 + rounded t := by
  have hsecs : base + t / 1000000000 < 256 ^ 8 := by
    unfold base at h ⊢
    omega
  have hword : (UInt32.ofNat (t % 1000000000)).toNat = t % 1000000000 :=
    Nat.mod_eq_of_lt (by omega)
  have hnanos : t % 1000000000 / 2 ^ 24 * 2 ^ 24 < 256 ^ 4 := by omega
  rw [stamp, beNat_append, length_beBytes, beNat_beBytes, beNat_beBytes, toNat_whitened, hword,
    Nat.mod_eq_of_lt hsecs, Nat.mod_eq_of_lt hnanos, rounded]
  omega

/-- Timestamps are ordered as the rounded times are. -/
theorem cmp_stamp {t t' : ℕ} (h : t / 1000000000 ≤ 2 ^ 64 - 1 - base)
    (h' : t' / 1000000000 ≤ 2 ^ 64 - 1 - base) :
    cmp (stamp t) (stamp t') = compare (rounded t) (rounded t') := by
  rw [cmp, Bytes.cmp_eq_compare (by simp), beNat_stamp h, beNat_stamp h']
  simp only [Nat.compare_eq_ite_lt, Nat.add_lt_add_iff_left]

/-- Rounding keeps the order. -/
lemma rounded_le {t t' : ℕ} (h : t ≤ t') : rounded t ≤ rounded t' := by
  unfold rounded
  omega

/-- In one second the nanoseconds are rounded down to multiples of `2 ^ 24`, and a difference of
`2 ^ 24` is a different multiple. The last multiple of a second leaves less than `2 ^ 24`
nanoseconds, but what follows it is in the next second, which counts more. -/
lemma rounded_lt {t t' : ℕ} (h : t + 2 ^ 24 ≤ t') : rounded t < rounded t' := by
  unfold rounded
  omega

/-- **Timestamps order times.** A later time has no smaller timestamp, and if it is later by at
least `2 ^ 24` nanoseconds, then its timestamp is larger. -/
theorem stamp_mono (t t' : SystemTime) (hle : t ≤ t')
    (h : t' / 1000000000 ≤ 2 ^ 64 - 1 - base) :
    le (stamp t) (stamp t') = true ∧
      (2 ^ 24 ≤ t' - t → cmp (stamp t) (stamp t') = .lt) := by
  have hsecs : t / 1000000000 ≤ t' / 1000000000 := Nat.div_le_div_right hle
  rw [le, cmp_stamp (hsecs.trans h) h]
  constructor
  · exact Nat.isLE_compare.mpr (rounded_le hle)
  · intro hfar
    rw [Nat.compare_eq_lt]
    exact rounded_lt (Nat.add_le_of_le_sub' hle hfar)

/-- From the last nanosecond of a second, `2 ^ 24` nanoseconds on. -/
theorem stamp_mono_second : le (stamp 1999999999) (stamp 2016777215) = true ∧
    cmp (stamp 1999999999) (stamp 2016777215) = .lt := by
  have h := stamp_mono 1999999999 2016777215 (by decide) (by decide)
  exact ⟨h.1, h.2 (by decide)⟩

end Timestamp

end Vlink
