import Vlink.Lib.Bytes

set_option autoImplicit false

/-!
# Base 64

The standard alphabet with padding. Decoding is strict: the padding has to be there, and the bits
that are not used have to be zero, so a byte string has exactly one text. This is what the crate
`base64` documents for its engine `general_purpose::STANDARD`: the alphabet of RFC 4648, padding as
in `DecodePaddingMode::RequireCanonical`, and an error for trailing bits that are not zero.

## Main definitions

* `Base64.encode`, `Base64.decode` — byte strings as text, and back.

## Main results

* `Base64.decode_encode` — decoding what was encoded.
* `Base64.encode_of_decode` — only what was encoded can be decoded.
-/

namespace Base64

/-! ## Groups of six bits -/

/-- The standard alphabet. -/
def alphabet : List Char :=
  "ABCDEFGHIJKLMNOPQRSTUVWXYZabcdefghijklmnopqrstuvwxyz0123456789+/".toList

/-- The character for a number below 64. -/
def char (n : ℕ) : Char := alphabet.getD n 'A'

/-- The number that a character stands for. -/
def sextet (c : Char) : Option ℕ := alphabet.idxOf? c

/-- Digits are read back. -/
lemma sextet_char : ∀ n : Fin 64, sextet (char n) = some n.val ∧ char n ≠ '=' := by
  decide +kernel

/-- Digits are read back. -/
lemma sextet_char_of_lt {n : ℕ} (h : n < 64) : sextet (char n) = some n :=
  (sextet_char ⟨n, h⟩).1

/-- No digit is the padding. -/
lemma char_ne_pad {n : ℕ} (h : n < 64) : char n ≠ '=' := (sextet_char ⟨n, h⟩).2

/-- A character of the alphabet stands for a number below 64, whose character it is. -/
lemma of_sextet {c : Char} {n : ℕ} (h : sextet c = some n) : n < 64 ∧ char n = c := by
  have hlen : alphabet.length = 64 := by decide +kernel
  unfold sextet at h
  rw [List.idxOf?_eq_some_iff] at h
  obtain ⟨hn, hc, -⟩ := h
  refine ⟨hlen ▸ hn, ?_⟩
  rw [char, List.getD_eq_getElem?_getD, List.getElem?_eq_getElem hn]
  exact hc

/-! ## Encoding -/

/-- The characters of a byte string, three bytes at a time. -/
def encodeChars : Bytes → List Char
  | [] => []
  | [a] => [char (a.toNat / 4), char (a.toNat % 4 * 16), '=', '=']
  | [a, b] => [char (a.toNat / 4), char (a.toNat % 4 * 16 + b.toNat / 16),
      char (b.toNat % 16 * 4), '=']
  | a :: b :: c :: rest =>
    [char (a.toNat / 4), char (a.toNat % 4 * 16 + b.toNat / 16),
      char (b.toNat % 16 * 4 + c.toNat / 64), char (c.toNat % 64)] ++ encodeChars rest

/-- The text of a byte string. -/
def encode (b : Bytes) : String := String.ofList (encodeChars b)

/-! ## Decoding -/

/-- The last group, when it stands for one byte. -/
def last₁ (a b : Char) : Option Bytes := do
  let x ← sextet a
  let y ← sextet b
  if y % 16 = 0 then some [UInt8.ofNat (x * 4 + y / 16)] else none

/-- The last group, when it stands for two bytes. -/
def last₂ (a b c : Char) : Option Bytes := do
  let x ← sextet a
  let y ← sextet b
  let z ← sextet c
  if z % 4 = 0 then some [UInt8.ofNat (x * 4 + y / 16), UInt8.ofNat (y % 16 * 16 + z / 4)]
  else none

/-- A full group. -/
def group (a b c d : Char) : Option Bytes := do
  let x ← sextet a
  let y ← sextet b
  let z ← sextet c
  let w ← sextet d
  some [UInt8.ofNat (x * 4 + y / 16), UInt8.ofNat (y % 16 * 16 + z / 4),
    UInt8.ofNat (z % 4 * 64 + w)]

/-- The bytes that a list of characters stands for. -/
def decodeChars : List Char → Option Bytes
  | [] => some []
  | a :: b :: c :: d :: rest =>
    if rest = [] ∧ d = '=' then if c = '=' then last₁ a b else last₂ a b c
    else do
      let bytes ← group a b c d
      return bytes ++ (← decodeChars rest)
  | _ => none

/-- The byte string that a text stands for. -/
def decode (s : String) : Option Bytes := decodeChars s.toList

/-! ## Round trips -/

/-- Decoding what was encoded. The induction is on groups of three bytes. -/
lemma decodeChars_encodeChars (b : Bytes) : decodeChars (encodeChars b) = some b := by
  fun_induction encodeChars b with
  | case1 => rfl
  | case2 a =>
    have ha := a.toNat_lt
    simp only [decodeChars, and_self, if_true, last₁]
    rw [sextet_char_of_lt (by omega), sextet_char_of_lt (by omega)]
    simp only [Option.bind_eq_bind, Option.bind_some]
    rw [if_pos (by omega), show a.toNat / 4 * 4 + a.toNat % 4 * 16 / 16 = a.toNat by omega,
      UInt8.ofNat_toNat]
  | case3 a b =>
    have ha := a.toNat_lt
    have hb := b.toNat_lt
    simp only [decodeChars, and_self, if_true, char_ne_pad (show b.toNat % 16 * 4 < 64 by omega),
      if_false, last₂]
    rw [sextet_char_of_lt (by omega), sextet_char_of_lt (by omega), sextet_char_of_lt (by omega)]
    simp only [Option.bind_eq_bind, Option.bind_some]
    rw [if_pos (by omega),
      show a.toNat / 4 * 4 + (a.toNat % 4 * 16 + b.toNat / 16) / 16 = a.toNat by omega,
      show (a.toNat % 4 * 16 + b.toNat / 16) % 16 * 16 + b.toNat % 16 * 4 / 4 = b.toNat by omega,
      UInt8.ofNat_toNat, UInt8.ofNat_toNat]
  | case4 a b c rest ih =>
    have ha := a.toNat_lt
    have hb := b.toNat_lt
    have hc := c.toNat_lt
    simp only [List.cons_append, List.nil_append, decodeChars,
      char_ne_pad (show c.toNat % 64 < 64 by omega), and_false, if_false, group]
    rw [sextet_char_of_lt (by omega), sextet_char_of_lt (by omega), sextet_char_of_lt (by omega),
      sextet_char_of_lt (by omega), ih]
    simp only [Option.bind_eq_bind, Option.bind_some]
    rw [show a.toNat / 4 * 4 + (a.toNat % 4 * 16 + b.toNat / 16) / 16 = a.toNat by omega,
      show (a.toNat % 4 * 16 + b.toNat / 16) % 16 * 16 + (b.toNat % 16 * 4 + c.toNat / 64) / 4 =
        b.toNat by omega,
      show (b.toNat % 16 * 4 + c.toNat / 64) % 4 * 64 + c.toNat % 64 = c.toNat by omega,
      UInt8.ofNat_toNat, UInt8.ofNat_toNat, UInt8.ofNat_toNat]
    rfl

/-- Decoding what was encoded. -/
theorem decode_encode (b : Bytes) : decode (encode b) = some b := by
  rw [decode, encode, String.toList_ofList, decodeChars_encodeChars]

/-- A number below 256 as a byte. -/
lemma toNat_byte {n : ℕ} (h : n < 256) : (UInt8.ofNat n).toNat = n :=
  UInt8.toNat_ofNat_of_lt' h

/-- The characters of a full group. -/
lemma of_group {a b c d : Char} {bytes : Bytes} (h : group a b c d = some bytes) (rest : Bytes) :
    encodeChars (bytes ++ rest) = [a, b, c, d] ++ encodeChars rest := by
  simp only [group, Option.bind_eq_bind, Option.bind_eq_some_iff] at h
  obtain ⟨x, hx, y, hy, z, hz, w, hw, h⟩ := h
  obtain ⟨hx, rfl⟩ := of_sextet hx
  obtain ⟨hy, rfl⟩ := of_sextet hy
  obtain ⟨hz, rfl⟩ := of_sextet hz
  obtain ⟨hw, rfl⟩ := of_sextet hw
  cases h
  simp only [List.cons_append, List.nil_append, encodeChars]
  rw [toNat_byte (by omega), toNat_byte (by omega), toNat_byte (by omega),
    show (x * 4 + y / 16) / 4 = x by omega,
    show (x * 4 + y / 16) % 4 * 16 + (y % 16 * 16 + z / 4) / 16 = y by omega,
    show (y % 16 * 16 + z / 4) % 16 * 4 + (z % 4 * 64 + w) / 64 = z by omega,
    show (z % 4 * 64 + w) % 64 = w by omega]

/-- The characters of a last group that stands for one byte. -/
lemma of_last₁ {a b : Char} {bytes : Bytes} (h : last₁ a b = some bytes) :
    encodeChars bytes = [a, b, '=', '='] := by
  simp only [last₁, Option.bind_eq_bind, Option.bind_eq_some_iff] at h
  obtain ⟨x, hx, y, hy, h⟩ := h
  obtain ⟨hx, rfl⟩ := of_sextet hx
  obtain ⟨hy, rfl⟩ := of_sextet hy
  split_ifs at h with hzero
  cases h
  rw [encodeChars, toNat_byte (by omega), show (x * 4 + y / 16) / 4 = x by omega,
    show (x * 4 + y / 16) % 4 * 16 = y by omega]

/-- The characters of a last group that stands for two bytes. -/
lemma of_last₂ {a b c : Char} {bytes : Bytes} (h : last₂ a b c = some bytes) :
    encodeChars bytes = [a, b, c, '='] := by
  simp only [last₂, Option.bind_eq_bind, Option.bind_eq_some_iff] at h
  obtain ⟨x, hx, y, hy, z, hz, h⟩ := h
  obtain ⟨hx, rfl⟩ := of_sextet hx
  obtain ⟨hy, rfl⟩ := of_sextet hy
  obtain ⟨hz, rfl⟩ := of_sextet hz
  split_ifs at h with hzero
  cases h
  rw [encodeChars, toNat_byte (by omega), toNat_byte (by omega),
    show (x * 4 + y / 16) / 4 = x by omega,
    show (x * 4 + y / 16) % 4 * 16 + (y % 16 * 16 + z / 4) / 16 = y by omega,
    show (y % 16 * 16 + z / 4) % 16 * 4 = z by omega]

/-- Only the text of a byte string decodes to it. The induction is on groups of four
characters. -/
lemma encodeChars_of_decodeChars {cs : List Char} :
    ∀ {b : Bytes}, decodeChars cs = some b → encodeChars b = cs := by
  fun_induction decodeChars cs with
  | case1 =>
    intro bytes h
    cases h
    rfl
  | case2 a b d rest hlast =>
    intro bytes h
    obtain ⟨rfl, rfl⟩ := hlast
    exact of_last₁ h
  | case3 a b c d rest hlast hc =>
    intro bytes h
    obtain ⟨rfl, rfl⟩ := hlast
    exact of_last₂ h
  | case4 a b c d rest hlast ih =>
    intro bytes h
    simp only [Option.bind_eq_bind, Option.bind_eq_some_iff, Option.pure_def,
      Option.some.injEq] at h
    obtain ⟨bytes, hgroup, tail, htail, rfl⟩ := h
    rw [of_group hgroup, ih htail]
    rfl
  | case5 cs =>
    intro bytes h
    cases h

/-- Only the text of a byte string decodes to it. -/
theorem encode_of_decode {s : String} {b : Bytes} (h : decode s = some b) : encode b = s := by
  rw [encode, encodeChars_of_decodeChars h, String.ofList_toList]

end Base64
