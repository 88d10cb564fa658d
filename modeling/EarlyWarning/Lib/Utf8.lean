/-
# `Lib.Utf8` — UTF-8, with the replacement of what is malformed

Bytes are numbers below 256.  The decoder is the one of `bytes.decode("utf-8", "replace")`: it reads
one byte after another, and where no character can be continued by the next byte, one U+FFFD stands
for the bytes so far, and the byte is read again as the first of a character.

`decode_encode`: what was encoded is decoded to itself.
-/
import Mathlib.Data.List.Basic

namespace Lib.Utf8

/-! ## Encoding -/

/-- The bytes of the character `n`. -/
def encodeNat (n : Nat) : List Nat :=
  if n < 0x80 then [n]
  else if n < 0x800 then [0xC0 + n / 64, 0x80 + n % 64]
  else if n < 0x10000 then [0xE0 + n / 4096, 0x80 + n / 64 % 64, 0x80 + n % 64]
  else [0xF0 + n / 262144, 0x80 + n / 4096 % 64, 0x80 + n / 64 % 64, 0x80 + n % 64]

def encode (cs : List Char) : List Nat := cs.flatMap fun c => encodeNat c.toNat

/-! ## Decoding -/

/-- A character under way: its bits so far, how many bytes are still to come, and between which
bounds the next one must be. -/
structure Pending where
  bits : Nat
  more : Nat
  low : Nat := 0x80
  high : Nat := 0xBF

structure Decoder where
  out : List Char := []
  pending : Option Pending := none

def Decoder.emit (d : Decoder) (c : Char) : Decoder := ⟨d.out ++ [c], none⟩

/-- A byte that begins a character. -/
def Decoder.first (d : Decoder) (b : Nat) : Decoder :=
  if b < 0x80 then d.emit (Char.ofNat b)
  else if 0xC2 ≤ b ∧ b ≤ 0xDF then { d with pending := some { bits := b - 0xC0, more := 1 } }
  else if 0xE0 ≤ b ∧ b ≤ 0xEF then
    { d with
      pending := some {
        bits := b - 0xE0, more := 2
        low := if b = 0xE0 then 0xA0 else 0x80
        high := if b = 0xED then 0x9F else 0xBF } }
  else if 0xF0 ≤ b ∧ b ≤ 0xF4 then
    { d with
      pending := some {
        bits := b - 0xF0, more := 3
        low := if b = 0xF0 then 0x90 else 0x80
        high := if b = 0xF4 then 0x8F else 0xBF } }
  else d.emit '\ufffd'

def Decoder.feed (d : Decoder) (b : Nat) : Decoder :=
  match d.pending with
  | none => d.first b
  | some pending =>
      if pending.low ≤ b ∧ b ≤ pending.high then
        let bits := pending.bits * 64 + (b - 0x80)
        if pending.more = 1 then d.emit (Char.ofNat bits)
        else { d with pending := some { bits, more := pending.more - 1 } }
      else (d.emit '\ufffd').first b

def Decoder.finish (d : Decoder) : List Char :=
  match d.pending with
  | none => d.out
  | some _ => d.out ++ ['\ufffd']

def decode (bytes : List Nat) : List Char := (bytes.foldl Decoder.feed {}).finish

example : decode [0xE4, 0xB8, 0x41, 0xC0, 0xED, 0xA0] = "\ufffdA\ufffd\ufffd\ufffd".toList := by
  decide

variable {c : Char} {out : List Char}

/-! ## The round trip -/

theorem toNat_valid (c : Char) :
    c.toNat < 0xD800 ∨ (0xDFFF < c.toNat ∧ c.toNat < 0x110000) := c.valid

theorem feed_next {p : Pending} {b : Nat} (hbounds : p.low ≤ b ∧ b ≤ p.high) (hmore : p.more ≠ 1) :
    Decoder.feed ⟨out, some p⟩ b =
      ⟨out, some { bits := p.bits * 64 + (b - 0x80), more := p.more - 1 }⟩ := by
  simp only [Decoder.feed, if_pos hbounds, if_neg hmore]

theorem feed_last {p : Pending} {b n : Nat} (hbounds : p.low ≤ b ∧ b ≤ p.high) (hmore : p.more = 1)
    (hbits : p.bits * 64 + (b - 0x80) = n) :
    Decoder.feed ⟨out, some p⟩ b = ⟨out ++ [Char.ofNat n], none⟩ := by
  simp only [Decoder.feed, if_pos hbounds, if_pos hmore, hbits, Decoder.emit]

section

variable {n : Nat}

theorem first_of_two (hlow : 0x80 ≤ n) (hhigh : n < 0x800) :
    Decoder.feed ⟨out, none⟩ (0xC0 + n / 64) = ⟨out, some { bits := n / 64, more := 1 }⟩ := by
  have hbits : 0xC0 + n / 64 - 0xC0 = n / 64 := by omega
  simp only [Decoder.feed, Decoder.first]
  rw [if_neg (by omega), if_pos (by omega), hbits]

theorem first_of_three (hhigh : n < 0x10000) :
    Decoder.feed ⟨out, none⟩ (0xE0 + n / 4096) =
      ⟨out, some {
        bits := n / 4096, more := 2
        low := if n / 4096 = 0 then 0xA0 else 0x80
        high := if n / 4096 = 0xD then 0x9F else 0xBF }⟩ := by
  have hbits : 0xE0 + n / 4096 - 0xE0 = n / 4096 := by omega
  have hlow : (0xE0 + n / 4096 = 0xE0) = (n / 4096 = 0) := propext (by omega)
  have htop : (0xE0 + n / 4096 = 0xED) = (n / 4096 = 0xD) := propext (by omega)
  simp only [Decoder.feed, Decoder.first, hbits, hlow, htop]
  rw [if_neg (by omega), if_neg (by omega), if_pos (by omega)]

theorem first_of_four (hhigh : n < 0x110000) :
    Decoder.feed ⟨out, none⟩ (0xF0 + n / 262144) =
      ⟨out, some {
        bits := n / 262144, more := 3
        low := if n / 262144 = 0 then 0x90 else 0x80
        high := if n / 262144 = 4 then 0x8F else 0xBF }⟩ := by
  have hbits : 0xF0 + n / 262144 - 0xF0 = n / 262144 := by omega
  have hlow : (0xF0 + n / 262144 = 0xF0) = (n / 262144 = 0) := propext (by omega)
  have htop : (0xF0 + n / 262144 = 0xF4) = (n / 262144 = 4) := propext (by omega)
  simp only [Decoder.feed, Decoder.first, hbits, hlow, htop]
  rw [if_neg (by omega), if_neg (by omega), if_neg (by omega), if_pos (by omega)]

end

/-- The second byte is within the bounds that the first one sets: no shorter sequence would do,
and the character is none of the surrogates. -/
theorem feed_encodeNat (c : Char) (out : List Char) :
    (encodeNat c.toNat).foldl Decoder.feed ⟨out, none⟩ = ⟨out ++ [c], none⟩ := by
  have hvalid := toNat_valid c
  have hchar : Char.ofNat c.toNat = c := Char.ofNat_toNat c
  generalize c.toNat = n at hvalid hchar
  subst hchar
  unfold encodeNat
  split
  case isTrue hone => simp [Decoder.feed, Decoder.first, Decoder.emit, hone]
  case isFalse hone =>
    split
    case isTrue htwo =>
      rw [List.foldl_cons, first_of_two (by omega) htwo, List.foldl_cons, List.foldl_nil]
      exact feed_last ⟨by simp, by simp; omega⟩ rfl (by simp; omega)
    case isFalse htwo =>
      split
      case isTrue hthree =>
        rw [List.foldl_cons, first_of_three hthree, List.foldl_cons, feed_next ⟨?_, ?_⟩ (by simp),
          List.foldl_cons, List.foldl_nil]
        · exact feed_last ⟨by simp, by simp; omega⟩ rfl (by simp; omega)
        · simp only []
          split <;> omega
        · simp only []
          split <;> omega
      case isFalse hthree =>
        rw [List.foldl_cons, first_of_four (by omega), List.foldl_cons,
          feed_next ⟨?_, ?_⟩ (by simp),
          List.foldl_cons, feed_next ⟨by simp, by simp; omega⟩ (by simp), List.foldl_cons,
          List.foldl_nil]
        · exact feed_last ⟨by simp, by simp; omega⟩ rfl (by simp; omega)
        · simp only []
          split <;> omega
        · simp only []
          split <;> omega

/-- **What was encoded is decoded to itself.** -/
theorem decode_encode (cs : List Char) : decode (encode cs) = cs := by
  have hrun : ∀ (cs out : List Char),
      (encode cs).foldl Decoder.feed ⟨out, none⟩ = ⟨out ++ cs, none⟩ := by
    intro cs
    induction cs with
    | nil => exact fun out => by rw [List.append_nil]; rfl
    | cons c cs ih =>
        intro out
        rw [encode, List.flatMap_cons, List.foldl_append, feed_encodeNat]
        exact (ih (out ++ [c])).trans (by rw [List.append_assoc]; rfl)
  rw [decode]
  exact congrArg Decoder.finish (hrun cs [])

theorem encodeNat_lt (c : Char) : ∀ b ∈ encodeNat c.toNat, b < 256 := by
  have hvalid := toNat_valid c
  generalize c.toNat = n at hvalid
  unfold encodeNat
  intro b hb
  split at hb
  case isTrue => simp at hb; omega
  case isFalse =>
    split at hb
    case isTrue => simp at hb; omega
    case isFalse => split at hb <;> simp at hb <;> omega

end Lib.Utf8
