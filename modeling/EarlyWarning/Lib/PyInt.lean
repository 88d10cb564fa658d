/-
# `Lib.PyInt` — `int` of Python, on strings

`int(s)` drops the blanks around the number, allows a sign, and reads decimal digits of any
script, with single underscores between them; it refuses more than 4,300 digits.  The blanks
are those of `str.isspace` but for the four information separators.

What `str` writes of a number that short is read back (`int?_toString`).
-/
import EarlyWarning.Lib.PyStr
import Mathlib.Algebra.Group.Int.Defs
import Mathlib.Algebra.Group.Nat.Defs

namespace Lib.PyInt

/-- The zeros of the scripts that have decimal digits. -/
def zeros : List Nat :=
  [0x30, 0x660, 0x6f0, 0x7c0, 0x966, 0x9e6, 0xa66, 0xae6, 0xb66, 0xbe6, 0xc66, 0xce6, 0xd66,
    0xde6, 0xe50, 0xed0, 0xf20, 0x1040, 0x1090, 0x17e0, 0x1810, 0x1946, 0x19d0, 0x1a80, 0x1a90,
    0x1b50, 0x1bb0, 0x1c40, 0x1c50, 0xa620, 0xa8d0, 0xa900, 0xa9d0, 0xa9f0, 0xaa50, 0xabf0,
    0xff10, 0x104a0, 0x10d30, 0x11066, 0x110f0, 0x11136, 0x111d0, 0x112f0, 0x11450, 0x114d0,
    0x11650, 0x116c0, 0x11730, 0x118e0, 0x11950, 0x11c50, 0x11d50, 0x11da0, 0x16a60, 0x16ac0,
    0x16b50, 0x1d7ce, 0x1d7d8, 0x1d7e2, 0x1d7ec, 0x1d7f6, 0x1e140, 0x1e2f0, 0x1e950, 0x1fbf0]

/-- `unicodedata.decimal` -/
def digit? (c : Char) : Option Nat :=
  (zeros.find? fun z => z ≤ c.toNat ∧ c.toNat < z + 10).map fun z => c.toNat - z

def isBlank (c : Char) : Bool :=
  PyStr.isSpace c && (c.toNat < 0x1c || 0x1f < c.toNat)

def strip (cs : List Char) : List Char :=
  ((cs.dropWhile isBlank).reverse.dropWhile isBlank).reverse

/-- The digits of a number, with single underscores between them. -/
def digits? : List Char → Option (List Nat)
  | [] => none
  | [c] => (digit? c).map fun d => [d]
  | c :: next :: rest =>
      (digit? c).bind fun d =>
        (if next = '_' then digits? rest else digits? (next :: rest)).map fun ds => d :: ds

/-- `sys.int_info.default_max_str_digits` -/
def maxStrDigits : Nat := 4300

def ofDigits (ds : List Nat) : Nat := ds.foldl (fun value d => 10 * value + d) 0

/-- A number without its sign. -/
def nat? (cs : List Char) : Option Nat :=
  (digits? cs).bind fun ds => if ds.length ≤ maxStrDigits then some (ofDigits ds) else none

/-- `int(s)`; `none` when it raises `ValueError`. -/
def int? (s : String) : Option Int :=
  match strip s.toList with
  | '-' :: cs => (nat? cs).map Int.negOfNat
  | '+' :: cs => (nat? cs).map Int.ofNat
  | cs => (nat? cs).map Int.ofNat

example : int? " 1_0\n" = some 10 := by decide

example : int? "\x1c5" = none := by decide

/-! ## Reading back what `str` writes -/

section

variable {c : Char} {cs : List Char} {n : Nat}

theorem digit?_of_isDigit (h : c.isDigit) : digit? c = some (c.toNat - '0'.toNat) := by
  have hrange : 0x30 ≤ c.toNat ∧ c.toNat < 0x30 + 10 := by
    simp only [Char.isDigit, Bool.and_eq_true, decide_eq_true_eq, UInt32.le_iff_toNat_le] at h
    exact ⟨h.1, Nat.lt_succ_of_le h.2⟩
  have hfind : zeros.find? (fun z => z ≤ c.toNat ∧ c.toNat < z + 10) = some 0x30 :=
    List.find?_cons_of_pos (decide_eq_true hrange)
  rw [digit?, hfind]
  rfl

theorem isBlank_of_isDigit (h : c.isDigit) : isBlank c = false := by
  have hspace : (['\t', '\n', '\x0b', '\x0c', '\r', '\x1c', '\x1d', '\x1e', '\x1f', ' ',
      '\u0085', '\u00a0', '\u1680', '\u2028', '\u2029', '\u202f', '\u205f', '\u3000'].all
      fun c' => !c'.isDigit) = true := by decide
  have hlow : ¬ '\u2000' ≤ c := by
    simp only [Char.isDigit, Bool.and_eq_true, decide_eq_true_eq, UInt32.le_iff_toNat_le] at h
    intro hle
    exact absurd (Nat.le_trans (UInt32.le_iff_toNat_le.mp hle) h.2) (by decide)
  have hmem : c ∉ ['\t', '\n', '\x0b', '\x0c', '\r', '\x1c', '\x1d', '\x1e', '\x1f', ' ',
      '\u0085', '\u00a0', '\u1680', '\u2028', '\u2029', '\u202f', '\u205f', '\u3000'] := by
    intro hmem
    have hnot := List.all_eq_true.mp hspace c hmem
    rw [h] at hnot
    cases hnot
  simp only [isBlank, PyStr.isSpace, hmem, hlow, decide_false, Bool.false_and, Bool.or_false]

theorem strip_of_ends (init : List Char) {last : Char} (hfirst : ∀ c ∈ cs.head?, isBlank c = false)
    (hcs : cs = init ++ [last]) (hlast : isBlank last = false) : strip cs = cs := by
  have hdrop : cs.dropWhile isBlank = cs := by
    cases cs with
    | nil => rfl
    | cons c rest => exact List.dropWhile_cons_of_neg (by simp [hfirst c rfl])
  rw [strip, hdrop, hcs, List.reverse_append, List.reverse_singleton, List.singleton_append,
    List.dropWhile_cons_of_neg (by simp [hlast])]
  simp

theorem digits?_of_isDigit (hne : cs ≠ []) (h : ∀ c ∈ cs, c.isDigit) :
    digits? cs = some (cs.map fun c => c.toNat - '0'.toNat) := by
  induction cs with
  | nil => exact absurd rfl hne
  | cons c rest ih =>
      have hc := digit?_of_isDigit (h c List.mem_cons_self)
      cases rest with
      | nil => simp [digits?, hc]
      | cons next rest =>
          have hnext : next ≠ '_' := by
            rintro rfl
            exact absurd (h '_' (by simp)) (by decide)
          have hrest := ih (by simp) fun c hc => h c (List.mem_cons_of_mem _ hc)
          simp [digits?, hc, hnext, hrest]

theorem ofDigits_map (cs : List Char) :
    ofDigits (cs.map fun c => c.toNat - '0'.toNat) = Nat.ofDigitChars 10 cs 0 := by
  rw [ofDigits, List.foldl_map, Nat.ofDigitChars_eq_foldl]

theorem nat?_toDigits (hlength : (Nat.toDigits 10 n).length ≤ maxStrDigits) :
    nat? (Nat.toDigits 10 n) = some n := by
  have hdigits := digits?_of_isDigit Nat.toDigits_ne_nil (fun c hc =>
    Nat.isDigit_of_mem_toDigits (b := 10) (n := n) (by decide) (by decide) hc)
  rw [nat?, hdigits, Option.bind_some, List.length_map, if_pos hlength, ofDigits_map,
    Nat.ofDigitChars_ten_toDigits]

/-- The last character of a number, and its first one. -/
theorem strip_toDigits (sign : List Char) (hsign : ∀ c ∈ sign.head?, isBlank c = false) :
    strip (sign ++ Nat.toDigits 10 n) = sign ++ Nat.toDigits 10 n := by
  have hdigit : ∀ c ∈ Nat.toDigits 10 n, isBlank c = false := fun c hc =>
    isBlank_of_isDigit (Nat.isDigit_of_mem_toDigits (by decide) (by decide) hc)
  have hsplit := List.dropLast_append_getLast (Nat.toDigits_ne_nil (n := n) (b := 10))
  refine strip_of_ends (sign ++ (Nat.toDigits 10 n).dropLast) ?_ ?_
    (hdigit _ (List.getLast_mem Nat.toDigits_ne_nil))
  · intro c hc
    cases sign with
    | nil => exact hdigit c (List.mem_of_mem_head? hc)
    | cons first rest => exact hsign c hc
  · rw [List.append_assoc, hsplit]

theorem toList_ofNat : (toString (Int.ofNat n)).toList = Nat.toDigits 10 n := Nat.toList_repr

theorem toList_negSucc : (toString (Int.negSucc n)).toList = '-' :: Nat.toDigits 10 (n + 1) := by
  rw [← Nat.toList_repr]
  exact String.toList_append

/-- A number does not start with a sign. -/
theorem toDigits_ne_cons (hc : c.isDigit = false) : Nat.toDigits 10 n ≠ c :: cs := by
  intro heq
  have hmem : c ∈ Nat.toDigits 10 n := heq ▸ List.mem_cons_self
  rw [Nat.isDigit_of_mem_toDigits (by decide) (by decide) hmem] at hc
  cases hc

theorem toDigits_injective {m : Nat} (h : Nat.toDigits 10 m = Nat.toDigits 10 n) : m = n := by
  rw [← Nat.ofDigitChars_ten_toDigits (n := m), h, Nat.ofDigitChars_ten_toDigits]

theorem toString_injective {m n : Int} (h : toString m = toString n) : m = n := by
  have hlist := congrArg String.toList h
  cases m with
  | ofNat m =>
      cases n with
      | ofNat n =>
          rw [toList_ofNat, toList_ofNat] at hlist
          rw [toDigits_injective hlist]
      | negSucc n =>
          rw [toList_ofNat, toList_negSucc] at hlist
          exact absurd hlist (toDigits_ne_cons rfl)
  | negSucc m =>
      cases n with
      | ofNat n =>
          rw [toList_ofNat, toList_negSucc] at hlist
          exact absurd hlist.symm (toDigits_ne_cons rfl)
      | negSucc n =>
          rw [toList_negSucc, toList_negSucc] at hlist
          have hsucc : m + 1 = n + 1 := toDigits_injective (List.cons.inj hlist).2
          rw [Nat.succ.inj hsucc]

/-- `int(str(n)) == n` -/
theorem int?_toString {n : Int} (hlength : n.natAbs < 10 ^ maxStrDigits) :
    int? (toString n) = some n := by
  have hdigits : ∀ m : Nat, m < 10 ^ maxStrDigits → nat? (Nat.toDigits 10 m) = some m :=
    fun m hm => nat?_toDigits ((Nat.length_toDigits_le_iff (by decide) (by decide)).mpr hm)
  cases n with
  | ofNat m =>
      rw [int?, toList_ofNat, show strip (Nat.toDigits 10 m) = Nat.toDigits 10 m from
        strip_toDigits [] fun c hc => by cases hc]
      split
      case h_1 cs heq => exact absurd heq (toDigits_ne_cons rfl)
      case h_2 cs heq => exact absurd heq (toDigits_ne_cons rfl)
      case h_3 =>
        rw [hdigits m hlength]
        rfl
  | negSucc m =>
      rw [int?, toList_negSucc, show strip ('-' :: Nat.toDigits 10 (m + 1)) =
        '-' :: Nat.toDigits 10 (m + 1) from strip_toDigits ['-'] (by rintro c ⟨⟩; rfl)]
      show (nat? (Nat.toDigits 10 (m + 1))).map Int.negOfNat = _
      rw [hdigits (m + 1) hlength]
      rfl

end

end Lib.PyInt
