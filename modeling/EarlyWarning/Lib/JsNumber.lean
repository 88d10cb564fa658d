/-
# `Lib.JsNumber` — `Number` of JavaScript, on decimal digits

The digits of a natural number become the nearest number of 53 bits, the even one of two, and
`Infinity` where that is too large.  Up to 2^53 the number is exact.
-/
import Mathlib.Algebra.Group.Nat.Defs

namespace Lib

inductive JsNumber
  | nat (n : Nat)
  | infinity
deriving DecidableEq, Repr

namespace JsNumber

/-- `n` with 53 bits and zeros after them. -/
def roundBits (n : Nat) : Nat :=
  if n < 2 ^ 53 then n
  else
    let unit := 2 ^ (n.log2 - 52)
    let below := n / unit
    if 2 * (n % unit) < unit ∨ 2 * (n % unit) = unit ∧ below % 2 = 0 then unit * below
    else unit * (below + 1)

def ofNat (n : Nat) : JsNumber :=
  if (roundBits n).log2 < 1024 then .nat (roundBits n) else .infinity

/-- `Number(digits)` -/
def ofDigits (digits : List Char) : JsNumber := ofNat (Nat.ofDigitChars 10 digits 0)

example : ofDigits "9007199254740993".toList = .nat 9007199254740992 := by decide

/-- `n <= number` -/
def atLeast (n : Nat) : JsNumber → Bool
  | .nat m => n ≤ m
  | .infinity => true

/-- The number as one from `minimum` to `maximum`, if it is one of them. -/
def inRange? (minimum maximum : Nat) : JsNumber → Option Nat
  | .nat n => if minimum ≤ n ∧ n ≤ maximum then some n else none
  | .infinity => none

/-- The number divides `m`. -/
def Divides (m : Nat) : JsNumber → Prop
  | .nat n => n ∣ m
  | .infinity => m = 0

variable {n m minimum maximum : Nat}

theorem roundBits_of_lt (h : n < 2 ^ 53) : roundBits n = n := if_pos h

theorem le_roundBits (h : 2 ^ 53 ≤ n) : 2 ^ 53 ≤ roundBits n := by
  have hne : n ≠ 0 := by
    rintro rfl
    exact absurd h (by decide)
  have hlog : 53 ≤ n.log2 := (Nat.le_log2 hne).mpr h
  have hself : 2 ^ n.log2 ≤ n := Nat.log2_self_le hne
  have hunit : 2 ^ (n.log2 - 52) * 2 ^ 52 ≤ n := by
    rw [← Nat.pow_add, Nat.sub_add_cancel (by omega)]
    exact hself
  have hbelow : 2 ^ 52 ≤ n / 2 ^ (n.log2 - 52) :=
    (Nat.le_div_iff_mul_le (Nat.two_pow_pos _)).mpr (Nat.mul_comm _ _ ▸ hunit)
  have htwo : 2 ^ 1 ≤ 2 ^ (n.log2 - 52) := Nat.pow_le_pow_right (by decide) (by omega)
  have hproduct : 2 ^ 53 ≤ 2 ^ (n.log2 - 52) * (n / 2 ^ (n.log2 - 52)) := by
    calc 2 ^ 53 = 2 ^ 1 * 2 ^ 52 := by decide
      _ ≤ 2 ^ (n.log2 - 52) * (n / 2 ^ (n.log2 - 52)) := Nat.mul_le_mul htwo hbelow
  simp only [roundBits, if_neg (Nat.not_lt.mpr h)]
  split
  case isTrue => exact hproduct
  case isFalse => exact Nat.le_trans hproduct (Nat.mul_le_mul_left _ (Nat.le_succ _))

/-- A number is exact, or it has more than 53 bits before it is rounded and after. -/
theorem ofNat_cases (n : Nat) :
    n < 2 ^ 53 ∧ ofNat n = .nat n ∨
      2 ^ 53 ≤ n ∧ (ofNat n = .infinity ∨ ∃ m, ofNat n = .nat m ∧ 2 ^ 53 ≤ m) := by
  rcases Nat.lt_or_ge n (2 ^ 53) with hlt | hle
  · left
    refine ⟨hlt, ?_⟩
    have hlog : n.log2 < 1024 := by
      cases n with
      | zero => decide
      | succ n =>
          have hlog : (n + 1).log2 < 53 := (Nat.log2_lt n.succ_ne_zero).mpr hlt
          omega
    rw [ofNat, roundBits_of_lt hlt, if_pos hlog]
  · right
    refine ⟨hle, ?_⟩
    rw [ofNat]
    split
    case isTrue => exact .inr ⟨roundBits n, rfl, le_roundBits hle⟩
    case isFalse => exact .inl rfl

theorem atLeast_one_ofNat : atLeast 1 (ofNat n) = decide (1 ≤ n) := by
  obtain ⟨-, hn⟩ | ⟨hle, hinf | ⟨m, hm, hlarge⟩⟩ := ofNat_cases n
  · rw [hn]
    rfl
  · rw [hinf]
    have hpos : 1 ≤ n := Nat.le_trans (by decide) hle
    simp [atLeast, hpos]
  · rw [hm]
    have hpos : 1 ≤ n := Nat.le_trans (by decide) hle
    have hmpos : 1 ≤ m := Nat.le_trans (by decide) hlarge
    simp [atLeast, hpos, hmpos]

theorem inRange?_ofNat (hmax : maximum < 2 ^ 53) :
    inRange? minimum maximum (ofNat n) =
      if minimum ≤ n ∧ n ≤ maximum then some n else none := by
  obtain ⟨-, hn⟩ | ⟨hle, hinf | ⟨m, hm, hlarge⟩⟩ := ofNat_cases n
  · rw [hn]
    rfl
  · rw [hinf, if_neg fun h => absurd (Nat.le_trans hle h.2) (Nat.not_le.mpr hmax)]
    rfl
  · rw [hm, if_neg fun h => absurd (Nat.le_trans hle h.2) (Nat.not_le.mpr hmax)]
    exact if_neg fun h => absurd (Nat.le_trans hlarge h.2) (Nat.not_le.mpr hmax)

theorem divides_ofNat (hm : m < 2 ^ 53) : (ofNat n).Divides m ↔ n ∣ m := by
  have hzero : ∀ k, 2 ^ 53 ≤ k → (k ∣ m ↔ m = 0) := by
    intro k hk
    constructor
    · exact fun hdvd => Nat.eq_zero_of_dvd_of_lt hdvd (Nat.lt_of_lt_of_le hm hk)
    · rintro rfl
      exact Nat.dvd_zero k
  obtain ⟨-, h⟩ | ⟨hle, hinf | ⟨k, hk, hlarge⟩⟩ := ofNat_cases n
  · rw [h]
    rfl
  · rw [hinf, hzero n hle]
    rfl
  · rw [hk, hzero n hle]
    exact hzero k hlarge

end JsNumber

end Lib
