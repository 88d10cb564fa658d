/-
# `Lib.UrlQuery` — query strings

`urlencode` and `parse_qsl` of `urllib.parse`, the one with `quote_plus` and the other with
`keep_blank_values`.  A text is quoted byte by byte in UTF-8 and a blank becomes a plus; to read it,
the pluses are blanks again before the escapes are decoded, so an escaped plus stays one.

`parseQsl_urlencode`: any names and values are read back.
-/
import EarlyWarning.Lib.Utf8
import Mathlib.Data.List.SplitBy

namespace Lib.UrlQuery

/-! ## Quoting -/

/-- The bytes of `_ALWAYS_SAFE`. -/
def alwaysSafe (b : Nat) : Bool :=
  (0x41 ≤ b && b ≤ 0x5A) || (0x61 ≤ b && b ≤ 0x7A) || (0x30 ≤ b && b ≤ 0x39) ||
    b == 0x5F || b == 0x2E || b == 0x2D || b == 0x7E

def hexDigit (n : Nat) : Char := Char.ofNat (if n < 10 then 0x30 + n else 0x37 + n)

def quoteByte (b : Nat) : List Char :=
  if alwaysSafe b then [Char.ofNat b] else ['%', hexDigit (b / 16), hexDigit (b % 16)]

def quotePlus (cs : List Char) : List Char :=
  cs.flatMap fun c => if c = ' ' then ['+'] else (Utf8.encodeNat c.toNat).flatMap quoteByte

abbrev Pair := List Char × List Char

def urlencode (pairs : List Pair) : List Char :=
  ['&'].intercalate (pairs.map fun pair => quotePlus pair.1 ++ '=' :: quotePlus pair.2)

/-! ## Reading -/

def hexValue (c : Char) : Option Nat :=
  let n := c.toNat
  if 0x30 ≤ n ∧ n ≤ 0x39 then some (n - 0x30)
  else if 0x41 ≤ n ∧ n ≤ 0x46 then some (n - 0x37)
  else if 0x61 ≤ n ∧ n ≤ 0x66 then some (n - 0x57)
  else none

/-- `unquote_to_bytes`, of ASCII characters; a percent sign that begins no escape stays. -/
def unquoteToBytes : List Char → List Nat
  | '%' :: a :: b :: rest =>
      match hexValue a, hexValue b with
      | some high, some low => (16 * high + low) :: unquoteToBytes rest
      | _, _ => 0x25 :: unquoteToBytes (a :: b :: rest)
  | c :: rest => c.toNat :: unquoteToBytes rest
  | [] => []

def isAscii (c : Char) : Bool := c.toNat < 0x80

/-- `unquote`: the runs of ASCII characters are decoded, and the others stay. -/
def unquote (cs : List Char) : List Char :=
  if '%' ∉ cs then cs
  else (cs.splitBy fun a b => isAscii a == isAscii b).flatMap fun run =>
    if run.all isAscii then Utf8.decode (unquoteToBytes run) else run

def plusToSpace (c : Char) : Char := if c = '+' then ' ' else c

def unquotePlus (cs : List Char) : List Char := unquote (cs.map plusToSpace)

/-- `parse_qsl(qs, keep_blank_values=True)` -/
def parseQsl (qs : List Char) : List Pair :=
  ((qs.splitOn '&').filter fun nameValue => nameValue ≠ []).map fun nameValue =>
    (unquotePlus (nameValue.takeWhile (· ≠ '=')),
      unquotePlus ((nameValue.dropWhile (· ≠ '=')).drop 1))

example : parseQsl "a=1+%2b&&b&%zz=%E4".toList =
    [("a".toList, "1 +".toList), ("b".toList, []), ("%zz".toList, "\ufffd".toList)] := by decide

variable {b n : Nat} {c : Char} {cs rest : List Char}

/-! ## One byte -/

theorem toNat_ofNat (h : n < 0x80) : (Char.ofNat n).toNat = n := by
  have hvalid : n.isValidChar := .inl (by omega)
  rw [Char.ofNat, dif_pos hvalid]
  rfl

theorem unquoteToBytes_cons (h : c ≠ '%') :
    unquoteToBytes (c :: rest) = c.toNat :: unquoteToBytes rest := by
  rw [unquoteToBytes]
  rintro a b rest' rfl
  exact absurd rfl h

theorem alwaysSafe_spec (h : alwaysSafe b = true) :
    b < 0x80 ∧ b ≠ 0x25 ∧ b ≠ 0x2B ∧ b ≠ 0x26 ∧ b ≠ 0x3D := by
  simp only [alwaysSafe, Bool.or_eq_true, Bool.and_eq_true, decide_eq_true_eq, beq_iff_eq] at h
  omega

theorem hexDigit_spec (h : n < 16) :
    hexValue (hexDigit n) = some n ∧ (hexDigit n).toNat < 0x80 ∧ (hexDigit n).toNat ≠ 0x2B ∧
      (hexDigit n).toNat ≠ 0x26 ∧ (hexDigit n).toNat ≠ 0x3D := by
  have htoNat : (hexDigit n).toNat = if n < 10 then 0x30 + n else 0x37 + n := by
    rw [hexDigit, toNat_ofNat]
    split <;> omega
  refine ⟨?_, ?_⟩
  · simp only [hexValue, htoNat]
    by_cases hten : n < 10
    · rw [if_pos hten, if_pos (by omega)]
      simp
    · rw [if_neg hten, if_neg (by omega), if_pos (by omega)]
      congr 1
      omega
  · rw [htoNat]
    split <;> omega

/-- What the characters of a quoted text are not. -/
def Plain (c : Char) : Prop := c.toNat < 0x80 ∧ c ≠ '+' ∧ c ≠ '&' ∧ c ≠ '='

theorem plain_of_toNat (h : c.toNat < 0x80 ∧ c.toNat ≠ 0x2B ∧ c.toNat ≠ 0x26 ∧ c.toNat ≠ 0x3D) :
    Plain c := by
  obtain ⟨hascii, hplus, hand, heq⟩ := h
  refine ⟨hascii, ?_, ?_, ?_⟩
  · rintro rfl
    exact hplus rfl
  · rintro rfl
    exact hand rfl
  · rintro rfl
    exact heq rfl

theorem quoteByte_plain (hb : b < 256) : ∀ c ∈ quoteByte b, Plain c := by
  intro c hc
  unfold quoteByte at hc
  split at hc
  case isTrue hsafe =>
    obtain rfl := List.mem_singleton.mp hc
    obtain ⟨hascii, -, hplus, hand, heq⟩ := alwaysSafe_spec hsafe
    refine plain_of_toNat ?_
    rw [toNat_ofNat hascii]
    exact ⟨hascii, hplus, hand, heq⟩
  case isFalse =>
    simp only [List.mem_cons, List.not_mem_nil, or_false] at hc
    rcases hc with rfl | rfl | rfl
    · exact plain_of_toNat (by decide)
    · exact plain_of_toNat (hexDigit_spec (by omega)).2
    · exact plain_of_toNat (hexDigit_spec (by omega)).2

theorem unquoteToBytes_quoteByte (hb : b < 256) :
    unquoteToBytes (quoteByte b ++ rest) = b :: unquoteToBytes rest := by
  unfold quoteByte
  split
  case isTrue hsafe =>
    obtain ⟨hascii, hpercent, -⟩ := alwaysSafe_spec hsafe
    have hne : Char.ofNat b ≠ '%' := by
      intro heq
      have hcode := congrArg Char.toNat heq
      rw [toNat_ofNat hascii] at hcode
      exact hpercent hcode
    rw [List.singleton_append, unquoteToBytes_cons hne, toNat_ofNat hascii]
  case isFalse =>
    have hhigh := (hexDigit_spec (n := b / 16) (by omega)).1
    have hlow := (hexDigit_spec (n := b % 16) (by omega)).1
    have hbyte : 16 * (b / 16) + b % 16 = b := by omega
    simp only [List.cons_append, List.nil_append, unquoteToBytes, hhigh, hlow, hbyte]

/-! ## A text -/

/-- What a quoted text consists of, the pluses for the blanks apart. -/
theorem mem_quotePlus (hc : c ∈ quotePlus cs) : c = '+' ∨ Plain c := by
  obtain ⟨x, -, hx⟩ := List.mem_flatMap.mp hc
  split at hx
  case isTrue => exact .inl (List.mem_singleton.mp hx)
  case isFalse =>
    obtain ⟨b, hb, hquote⟩ := List.mem_flatMap.mp hx
    exact .inr (quoteByte_plain (Utf8.encodeNat_lt x b hb) c hquote)

theorem not_mem_quotePlus (hplus : c ≠ '+') (hplain : ¬ Plain c) : c ∉ quotePlus cs := by
  intro hc
  rcases mem_quotePlus hc with heq | h
  · exact hplus heq
  · exact hplain h

theorem map_plusToSpace_quoteByte (hb : b < 256) :
    (quoteByte b).map plusToSpace = quoteByte b := by
  refine (List.map_congr_left fun c hc => ?_).trans (List.map_id _)
  exact if_neg (quoteByte_plain hb c hc).2.1

theorem unquoteToBytes_flatMap {bytes : List Nat} (hbytes : ∀ b ∈ bytes, b < 256) :
    unquoteToBytes ((bytes.flatMap quoteByte).map plusToSpace ++ rest) =
      bytes ++ unquoteToBytes rest := by
  induction bytes with
  | nil => rfl
  | cons b bytes ih =>
      have hb := hbytes b List.mem_cons_self
      rw [List.flatMap_cons, List.map_append, List.append_assoc, map_plusToSpace_quoteByte hb,
        unquoteToBytes_quoteByte hb, ih fun b hb => hbytes b (List.mem_cons_of_mem _ hb)]
      rfl

theorem unquoteToBytes_quotePlus (cs : List Char) :
    unquoteToBytes ((quotePlus cs).map plusToSpace) = Utf8.encode cs := by
  induction cs with
  | nil => rfl
  | cons c cs ih =>
      have hrest : quotePlus (c :: cs) =
          (if c = ' ' then ['+'] else (Utf8.encodeNat c.toNat).flatMap quoteByte) ++
            quotePlus cs := List.flatMap_cons
      rw [hrest, List.map_append, Utf8.encode, List.flatMap_cons]
      split
      case isTrue hblank =>
        subst hblank
        have hspace : unquoteToBytes (' ' :: (quotePlus cs).map plusToSpace) = _ :=
          unquoteToBytes_cons (by decide)
        refine hspace.trans ?_
        rw [ih]
        rfl
      case isFalse =>
        rw [unquoteToBytes_flatMap (Utf8.encodeNat_lt c), ih]
        rfl

/-- ASCII texts are one run. -/
theorem unquote_of_ascii (h : ∀ c ∈ cs, isAscii c = true) :
    unquote cs = if '%' ∉ cs then cs else Utf8.decode (unquoteToBytes cs) := by
  unfold unquote
  split
  case isTrue => rfl
  case isFalse hpercent =>
    have hne : cs ≠ [] := by
      rintro rfl
      exact hpercent List.not_mem_nil
    have hchain : cs.IsChain fun a b => isAscii a == isAscii b := by
      refine (List.pairwise_iff_forall_sublist.mpr fun {a b} hab => ?_).isChain
      rw [h a (hab.subset List.mem_cons_self), h b (hab.subset (by simp))]
      rfl
    have hall : cs.all isAscii = true := List.all_eq_true.mpr h
    rw [List.splitBy_of_isChain hne hchain]
    simp only [List.flatMap_cons, List.flatMap_nil, List.append_nil, hall, if_true]

theorem unquoteToBytes_of_not_mem (h : '%' ∉ cs) : unquoteToBytes cs = cs.map Char.toNat := by
  induction cs with
  | nil => rfl
  | cons c cs ih =>
      have hne : c ≠ '%' := fun heq => h (heq ▸ List.mem_cons_self)
      rw [unquoteToBytes_cons hne, ih fun hmem => h (List.mem_cons_of_mem _ hmem), List.map_cons]

/-- ASCII characters are bytes. -/
theorem encode_of_ascii (h : ∀ c ∈ cs, isAscii c = true) : Utf8.encode cs = cs.map Char.toNat := by
  induction cs with
  | nil => rfl
  | cons c cs ih =>
      have hc : c.toNat < 0x80 := of_decide_eq_true (h c List.mem_cons_self)
      rw [Utf8.encode, List.flatMap_cons, Utf8.encodeNat, if_pos hc, List.map_cons,
        ← ih fun c hc => h c (List.mem_cons_of_mem _ hc)]
      rfl

theorem unquotePlus_quotePlus (cs : List Char) : unquotePlus (quotePlus cs) = cs := by
  have hascii : ∀ c ∈ (quotePlus cs).map plusToSpace, isAscii c = true := by
    intro c hc
    obtain ⟨x, hx, rfl⟩ := List.mem_map.mp hc
    rcases mem_quotePlus hx with rfl | hplain
    · rfl
    · rw [plusToSpace, if_neg hplain.2.1]
      exact decide_eq_true hplain.1
  have hbytes := unquoteToBytes_quotePlus cs
  rw [unquotePlus, unquote_of_ascii hascii]
  split
  case isTrue hpercent =>
    rw [unquoteToBytes_of_not_mem hpercent, ← encode_of_ascii hascii] at hbytes
    rw [← Utf8.decode_encode ((quotePlus cs).map plusToSpace), hbytes, Utf8.decode_encode]
  case isFalse => rw [hbytes, Utf8.decode_encode]

/-! ## A query string -/

theorem span_quotePlus (name value : List Char) :
    (quotePlus name ++ '=' :: value).takeWhile (· ≠ '=') = quotePlus name ∧
      ((quotePlus name ++ '=' :: value).dropWhile (· ≠ '=')).drop 1 = value := by
  have hne : ∀ c ∈ quotePlus name, decide (c ≠ '=') = true := by
    intro c hc
    refine decide_eq_true fun heq => ?_
    exact not_mem_quotePlus (by decide) (fun h => h.2.2.2 rfl) (heq ▸ hc)
  constructor
  · rw [List.takeWhile_append_of_pos hne]
    simp
  · rw [List.dropWhile_append_of_pos hne]
    simp

theorem parseQsl_urlencode (pairs : List Pair) : parseQsl (urlencode pairs) = pairs := by
  cases pairs with
  | nil => decide
  | cons pair pairs =>
      have hand : ∀ part ∈ (pair :: pairs).map fun pair =>
          quotePlus pair.1 ++ '=' :: quotePlus pair.2, '&' ∉ part := by
        intro part hpart hmem
        obtain ⟨pair, -, rfl⟩ := List.mem_map.mp hpart
        have hnot : ∀ {cs}, '&' ∉ quotePlus cs :=
          not_mem_quotePlus (by decide) fun h => h.2.2.1 rfl
        rcases List.mem_append.mp hmem with hmem | hmem
        · exact hnot hmem
        · rcases List.mem_cons.mp hmem with heq | hmem
          · cases heq
          · exact hnot hmem
      rw [parseQsl, urlencode, List.splitOn_intercalate _ hand (List.cons_ne_nil _ _),
        List.filter_eq_self.mpr ?_, List.map_map]
      · refine List.map_id'' (fun pair => ?_) _
        obtain ⟨htake, hdrop⟩ := span_quotePlus pair.1 (quotePlus pair.2)
        simp only [Function.comp_apply, htake, hdrop, unquotePlus_quotePlus]
      · intro part hpart
        obtain ⟨pair, -, rfl⟩ := List.mem_map.mp hpart
        exact decide_eq_true (List.append_ne_nil_of_right_ne_nil _ (List.cons_ne_nil _ _))

end Lib.UrlQuery
