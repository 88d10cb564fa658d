/-
# `Lib.PyStr` — the string methods of Python the program leans on

`str.strip()` removes the characters `str.isspace` accepts, not only the ASCII blanks,
and `re.split` on a character class keeps the empty pieces.  Both are stated on the
characters of the string.
-/
import Mathlib.Data.List.Basic
import Mathlib.Tactic.TypeStar

namespace Lib.PyStr

/-- `str.isspace` on one character. -/
def isSpace (c : Char) : Bool :=
  c ∈ ['\t', '\n', '\x0b', '\x0c', '\r', '\x1c', '\x1d', '\x1e', '\x1f', ' ', '\u0085',
    '\u00a0', '\u1680', '\u2028', '\u2029', '\u202f', '\u205f', '\u3000'] ||
  ('\u2000' ≤ c && c ≤ '\u200a')

/-- Drop the blanks at both ends. -/
def stripChars (cs : List Char) : List Char :=
  ((cs.dropWhile isSpace).reverse.dropWhile isSpace).reverse

/-- `s.strip()` -/
def strip (s : String) : String := String.ofList (stripChars s.toList)

/-- `re.split(r"[...]", s)` for a character class, given as a predicate. -/
def splitClass (p : Char → Bool) (s : String) : List String :=
  (s.toList.splitOnP p).map String.ofList

/-- `sep.join(parts)` -/
def join (sep : String) (parts : List String) : String := sep.intercalate parts

example : strip " \u3000a b\n" = "a b" := by decide

example : splitClass (fun c => c == ',' || c == ';') "a,;b" = ["a", "", "b"] := by decide

end Lib.PyStr
