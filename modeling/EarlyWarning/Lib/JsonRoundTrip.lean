/-
# `Lib.JsonRoundTrip` — `loads` reads what `dumps` writes

For values without floating point numbers whose integers are short enough to be read, whose
objects have distinct keys and which are nested no deeper than the stack allows (`Plain`).  The
induction is on the value, with whatever follows it in the text: a comma, a bracket or a brace,
which no value goes on with.
-/
import EarlyWarning.Lib.Json

namespace Lib.Json

variable {φ : Type} {floats : Floats φ} {c : PyChar} {t rest : PyText} {n : Nat} {depth : Nat}
  {value : Json φ}

/-! ## Strings -/

theorem joinPieces_unit {pieces : List Piece} (h : n < 0xd800) :
    joinPieces (.unit n :: pieces) = codeUnit n :: joinPieces pieces := by
  cases pieces with
  | nil => rfl
  | cons piece pieces =>
      cases piece with
      | char c => rfl
      | unit low =>
          have hnone : join? n low = none := if_neg fun hhalf => absurd h (Nat.not_lt.mpr hhalf.1)
          simp only [joinPieces, hnone]

/-- The escapes of the control characters. -/
theorem hex?_hex : ∀ n < 0x20, ∃ a b c d, PyText.hex 4 n = [a, b, c, d] ∧
    hex? (.char a) (.char b) (.char c) (.char d) = some n := by
  intro n hn
  refine ⟨_, _, _, _, rfl, ?_⟩
  revert n
  decide

theorem scanPieces_raw (hquote : c ≠ .char '"') (hback : c ≠ .char '\\') (h : isControl c = false) :
    scanPieces (c :: rest) = push (.char c) (scanPieces rest) := by
  rw [scanPieces.eq_def]
  split
  case h_1 heq => cases heq
  case h_2 heq => exact absurd (List.cons.inj heq).1 hquote
  case h_3 heq => exact absurd (List.cons.inj heq).1 hback
  case h_4 heq => exact absurd (List.cons.inj heq).1 hback
  case h_5 heq =>
    obtain ⟨rfl, rfl⟩ := List.cons.inj heq
    rw [h]
    rfl

/-- A character is written as one piece. -/
theorem scanPieces_dumpChar (c : PyChar) (rest : PyText) :
    ∃ piece, scanPieces (dumpChar c ++ rest) = push piece (scanPieces rest) ∧
      ∀ pieces, joinPieces (piece :: pieces) = c :: joinPieces pieces := by
  have hsimple : ∀ e : Char, e ≠ 'u' → unescape? (.char e) = some c →
      dumpChar c = [.char '\\', .char e] →
      ∃ piece, scanPieces (dumpChar c ++ rest) = push piece (scanPieces rest) ∧
        ∀ pieces, joinPieces (piece :: pieces) = c :: joinPieces pieces := by
    intro e hne hunescape hdump
    refine ⟨.char c, ?_, fun _ => rfl⟩
    rw [hdump]
    show scanPieces (.char '\\' :: .char e :: rest) = _
    rw [scanPieces.eq_def]
    split
    case h_1 heq => cases heq
    case h_2 heq => cases heq
    case h_3 heq =>
      cases heq
      exact absurd rfl hne
    case h_4 heq =>
      cases heq
      simp only [hunescape]
    case h_5 hback heq =>
      cases heq
      exact absurd rfl (hback _ _ rfl)
  have hraw : c ≠ .char '"' → c ≠ .char '\\' → isControl c = false → dumpChar c = [c] →
      ∃ piece, scanPieces (dumpChar c ++ rest) = push piece (scanPieces rest) ∧
        ∀ pieces, joinPieces (piece :: pieces) = c :: joinPieces pieces := by
    intro hquote hback hcontrol hdump
    refine ⟨.char c, ?_, fun _ => rfl⟩
    rw [hdump]
    exact scanPieces_raw hquote hback hcontrol
  cases c with
  | surrogate n => exact hraw (by simp) (by simp) rfl rfl
  | char c =>
      by_cases hspecial : c ∈ ['"', '\\', '\n', '\r', '\t', '\x0c', '\x08']
      · simp only [List.mem_cons, List.not_mem_nil, or_false] at hspecial
        rcases hspecial with rfl | rfl | rfl | rfl | rfl | rfl | rfl
        · exact hsimple '"' (by decide) rfl rfl
        · exact hsimple '\\' (by decide) rfl rfl
        · exact hsimple 'n' (by decide) rfl rfl
        · exact hsimple 'r' (by decide) rfl rfl
        · exact hsimple 't' (by decide) rfl rfl
        · exact hsimple 'f' (by decide) rfl rfl
        · exact hsimple 'b' (by decide) rfl rfl
      · have hescape : escapeChar (.char c) =
            if c.toNat < 0x20 then '\\' :: 'u' :: PyText.hex 4 c.toNat else [] := by
          simp only [List.mem_cons, List.not_mem_nil, or_false, not_or] at hspecial
          obtain ⟨h₁, h₂, h₃, h₄, h₅, h₆, h₇⟩ := hspecial
          simp only [escapeChar]
        by_cases hcontrol : c.toNat < 0x20
        · rw [if_pos hcontrol] at hescape
          obtain ⟨a, b, d, e, hhex, hread⟩ := hex?_hex c.toNat hcontrol
          refine ⟨.unit c.toNat, ?_, fun pieces => ?_⟩
          · rw [dumpChar, hescape, hhex]
            show scanPieces (.char '\\' :: .char 'u' :: .char a :: .char b :: .char d :: .char e ::
              rest) = _
            simp only [scanPieces, hread]
          · rw [joinPieces_unit (Nat.lt_trans hcontrol (by decide))]
            have hunit : ¬ (0xd800 ≤ c.toNat ∧ c.toNat < 0xe000) := by omega
            rw [codeUnit, dif_neg hunit, Char.ofNat_toNat]
        · rw [if_neg hcontrol] at hescape
          refine hraw ?_ ?_ ?_ ?_
          · rintro ⟨⟩
            simp at hspecial
          · rintro ⟨⟩
            simp at hspecial
          · simp [isControl, hcontrol]
          · rw [dumpChar, hescape]

/-- A string is read up to its quote. -/
theorem scanString_dumpString (t rest : PyText) :
    scanString (t.flatMap dumpChar ++ .char '"' :: rest) = .ok (t, rest) := by
  have hpieces : ∃ pieces, scanPieces (t.flatMap dumpChar ++ .char '"' :: rest) =
      .ok (pieces, rest) ∧ joinPieces pieces = t := by
    induction t with
    | nil => exact ⟨[], by simp [scanPieces], rfl⟩
    | cons c t ih =>
        obtain ⟨pieces, hscan, hjoin⟩ := ih
        obtain ⟨piece, hpiece, hpush⟩ :=
          scanPieces_dumpChar c (t.flatMap dumpChar ++ .char '"' :: rest)
        refine ⟨piece :: pieces, ?_, ?_⟩
        · rw [List.flatMap_cons, List.append_assoc, hpiece, hscan]
          rfl
        · rw [hpush, hjoin]
  obtain ⟨pieces, hscan, rfl⟩ := hpieces
  rw [scanString, hscan]
  rfl

/-! ## Numbers -/

/-- What stands after a value. -/
def Stops (rest : PyText) : Prop :=
  ∀ c ∈ rest.head?, c ∈ [PyChar.char ',', PyChar.char ']', PyChar.char '}']

theorem takeDigits_append {ds : List Char} (hds : ∀ d ∈ ds, d.isDigit) (h : Stops rest) :
    takeDigits (ds.map .char ++ rest) = (ds, rest) := by
  induction ds with
  | nil =>
      rw [List.map_nil, List.nil_append, takeDigits.eq_def]
      split
      case h_1 c rest =>
        have hc := h (.char c) rfl
        simp only [List.mem_cons, PyChar.char.injEq, List.not_mem_nil, or_false] at hc
        have hnot : c.isDigit = false := by
          rcases hc with rfl | rfl | rfl <;> rfl
        rw [hnot]
        rfl
      case h_2 => rfl
  | cons d ds ih =>
      have hrest := ih fun d hd => hds d (List.mem_cons_of_mem _ hd)
      rw [List.map_cons, List.cons_append, takeDigits, if_pos (hds d List.mem_cons_self), hrest]

/-- Only zero is written with a zero in front. -/
theorem toDigits_head (hn : 0 < n) : ∀ ds, Nat.toDigits 10 n ≠ '0' :: ds := by
  induction n using Nat.strongRecOn with
  | ind n ih =>
      intro ds heq
      by_cases hlt : n < 10
      · rw [Nat.toDigits_of_lt_base hlt] at heq
        have hzero : ∀ m < 10, 0 < m → Nat.digitChar m ≠ '0' := by decide
        exact hzero n hlt hn (List.cons.inj heq).1
      · have hle : 10 ≤ n := Nat.le_of_not_lt hlt
        rw [Nat.toDigits_of_base_le (by decide) hle] at heq
        cases hfirst : Nat.toDigits 10 (n / 10) with
        | nil => exact Nat.toDigits_ne_nil hfirst
        | cons d ds' =>
            rw [hfirst, List.cons_append] at heq
            obtain ⟨rfl, -⟩ := List.cons.inj heq
            exact ih (n / 10) (Nat.div_lt_self hn (by decide)) (Nat.div_pos hle (by decide)) ds'
              hfirst

theorem scanInteger_toDigits (h : Stops rest) :
    scanInteger ((Nat.toDigits 10 n).map .char ++ rest) = .ok (Nat.toDigits 10 n, rest) := by
  have hdigits : ∀ d ∈ Nat.toDigits 10 n, d.isDigit := fun d hd =>
    Nat.isDigit_of_mem_toDigits (by decide) (by decide) hd
  rcases Nat.eq_zero_or_pos n with rfl | hn
  · rfl
  · have htake := takeDigits_append hdigits h
    rw [scanInteger.eq_def]
    split
    case h_1 heq =>
      cases hds : Nat.toDigits 10 n with
      | nil => exact absurd hds Nat.toDigits_ne_nil
      | cons d ds =>
          rw [hds] at heq
          cases heq
          exact absurd hds (toDigits_head hn ds)
    case h_2 =>
      rw [htake]
      split
      case h_1 heq => exact absurd (Prod.mk.inj heq).1 Nat.toDigits_ne_nil
      case h_2 heq =>
        cases heq
        rfl

theorem scanFraction_stops (h : Stops rest) : scanFraction rest = ([], rest) := by
  rw [scanFraction.eq_def]
  split
  case h_1 => simpa using h (.char '.') rfl
  case h_2 => rfl

theorem scanExponent_stops (h : Stops rest) : scanExponent rest = ([], rest) := by
  rw [scanExponent.eq_def]
  split
  case h_1 c rest =>
    have hc := h (.char c) rfl
    have hnot : ¬ (c = 'e' ∨ c = 'E') := by
      rintro (rfl | rfl)
      · simp at hc
      · simp at hc
    rw [if_neg hnot]
  case h_2 => rfl

theorem scanUnsigned_toDigits (floats : Floats φ) (negative : Bool)
    (hn : n < 10 ^ PyInt.maxStrDigits) (h : Stops rest) :
    scanUnsigned floats negative ((Nat.toDigits 10 n).map .char ++ rest) =
      .ok (.int (if negative then -n else n), rest) := by
  have hlength : (Nat.toDigits 10 n).length ≤ PyInt.maxStrDigits :=
    (Nat.length_toDigits_le_iff (by decide) (by decide)).mpr hn
  simp only [scanUnsigned, scanInteger_toDigits h, scanFraction_stops h, scanExponent_stops h,
    PyInt.nat?_toDigits hlength, and_self, if_true]

/-- A number is its sign and its digits. -/
theorem dumpInt_eq (n : Int) : ∃ negative : Bool,
    dumpInt n = (if negative then [.char '-'] else []) ++ (Nat.toDigits 10 n.natAbs).map .char ∧
      n = if negative then -(n.natAbs : Int) else n.natAbs := by
  cases n with
  | ofNat m =>
      refine ⟨false, ?_, rfl⟩
      rw [dumpInt, PyText.ofString, PyInt.toList_ofNat]
      rfl
  | negSucc m =>
      refine ⟨true, ?_, rfl⟩
      rw [dumpInt, PyText.ofString, PyInt.toList_negSucc]
      rfl

/-- No word starts with a digit, or with a sign and a digit. -/
theorem find?_words (floats : Floats φ) (rest : PyText) (negative : Bool) {d : Char}
    (hd : d.isDigit) :
    ((words floats).find? fun (word, _) => (PyText.ofString word).isPrefixOf
      ((if negative then [.char '-'] else []) ++ .char d :: rest)) = none := by
  have hletter : d ≠ 'n' ∧ d ≠ 't' ∧ d ≠ 'f' ∧ d ≠ 'N' ∧ d ≠ 'I' ∧ d ≠ '-' := by
    refine ⟨?_, ?_, ?_, ?_, ?_, ?_⟩ <;> (rintro rfl; revert hd; decide)
  obtain ⟨hn, ht, hf, hN, hI, hminus⟩ := hletter
  rw [List.find?_eq_none]
  intro entry hentry
  simp only [words, List.mem_cons, List.not_mem_nil, or_false] at hentry
  cases negative <;> rcases hentry with rfl | rfl | rfl | rfl | rfl | rfl <;>
    simp [PyText.ofString, List.isPrefixOf, hn.symm, ht.symm, hf.symm, hN.symm, hI.symm, hminus.symm]

theorem scanAtom_dumpInt (n : Int) (hn : n.natAbs < 10 ^ PyInt.maxStrDigits) (h : Stops rest) :
    scanAtom floats (dumpInt n ++ rest) = .ok (.int n, rest) := by
  obtain ⟨negative, hdump, hsign⟩ := dumpInt_eq n
  obtain ⟨d, ds, hds⟩ := List.exists_cons_of_ne_nil (Nat.toDigits_ne_nil (n := n.natAbs) (b := 10))
  have hd : d.isDigit := Nat.isDigit_of_mem_toDigits (b := 10) (n := n.natAbs) (by decide)
    (by decide) (hds ▸ List.mem_cons_self)
  have hwords := find?_words floats (ds.map .char ++ rest) negative hd
  have hscan := scanUnsigned_toDigits floats negative hn h
  rw [hdump, List.append_assoc, scanAtom, hds, List.map_cons, List.cons_append, hwords]
  rw [hds, List.map_cons, List.cons_append, ← hsign] at hscan
  cases negative with
  | true => exact hscan
  | false =>
      show scanNumber floats (.char d :: (ds.map .char ++ rest)) = _
      rw [scanNumber.eq_def]
      split
      case h_1 heq =>
        cases heq
        exact absurd hd (by decide)
      case h_2 => exact hscan

/-! ## Values -/

/-- The values that are read back, with `depth` levels left. -/
inductive Plain : Nat → Json φ → Prop
  | null {depth : Nat} : Plain depth .null
  | bool {depth : Nat} (b : Bool) : Plain depth (.bool b)
  | int {depth : Nat} {n : Int} (h : n.natAbs < 10 ^ PyInt.maxStrDigits) : Plain depth (.int n)
  | str {depth : Nat} (t : PyText) : Plain depth (.str t)
  | list {depth : Nat} {items : List (Json φ)} (h : ∀ item ∈ items, Plain depth item) :
      Plain (depth + 1) (.list items)
  | dict {depth : Nat} {fields : List (PyText × Json φ)} (hkeys : (fields.map Prod.fst).Nodup)
      (h : ∀ field ∈ fields, Plain depth field.2) : Plain (depth + 1) (.dict fields)

/-- How a value starts: not as a blank, nor as the end of a list or of an object. -/
structure Starts (cs : PyText) : Prop where
  ne_nil : cs ≠ []
  first : ∀ c ∈ cs.head?, isBlank c = false ∧ c ∉ [PyChar.char ']', .char '}', .char '\ufeff']

theorem dumpInt_head (n : Int) : ∃ d tail, dumpInt n = .char d :: tail ∧ (d = '-' ∨ d.isDigit) := by
  obtain ⟨negative, hdump, -⟩ := dumpInt_eq n
  cases negative with
  | true => exact ⟨'-', _, hdump, .inl rfl⟩
  | false =>
      obtain ⟨d, ds, hds⟩ :=
        List.exists_cons_of_ne_nil (Nat.toDigits_ne_nil (n := n.natAbs) (b := 10))
      rw [hds] at hdump
      refine ⟨d, _, hdump, .inr ?_⟩
      exact Nat.isDigit_of_mem_toDigits (b := 10) (n := n.natAbs) (by decide) (by decide)
        (hds ▸ List.mem_cons_self)

/-- What a number does not start with. -/
theorem dumpInt_head_ne {n : Int} {d e : Char} {tail : PyText} (h : dumpInt n = .char d :: tail)
    (hminus : e ≠ '-') (he : e.isDigit = false) : d ≠ e := by
  obtain ⟨d', tail', hdump, hd⟩ := dumpInt_head n
  rw [h] at hdump
  cases hdump
  rintro rfl
  rcases hd with rfl | hdigit
  · exact hminus rfl
  · rw [hdigit] at he
    cases he

theorem starts_dumpInt (n : Int) : Starts (dumpInt n) := by
  obtain ⟨d, tail, hdump, -⟩ := dumpInt_head n
  have hne := fun e : Char => dumpInt_head_ne (e := e) hdump
  rw [hdump]
  refine ⟨by simp, ?_⟩
  rintro c ⟨⟩
  simp [isBlank, hne ' ' (by decide) rfl, hne '\t' (by decide) rfl, hne '\n' (by decide) rfl,
    hne '\r' (by decide) rfl, hne ']' (by decide) rfl, hne '}' (by decide) rfl,
    hne '\ufeff' (by decide) rfl]

theorem starts_dumps (floats : Floats φ) (h : Plain depth value) : Starts (dumps floats value) := by
  have hfirst : ∀ (c : PyChar) (tail : PyText), isBlank c = false →
      c ∉ [PyChar.char ']', .char '}', .char '\ufeff'] → Starts (c :: tail) := by
    intro c tail hblank hend
    refine ⟨by simp, ?_⟩
    rintro _ ⟨⟩
    exact ⟨hblank, hend⟩
  cases h with
  | null => exact hfirst _ _ (by decide) (by decide)
  | bool b =>
      cases b with
      | true => exact hfirst _ _ (by decide) (by decide)
      | false => exact hfirst _ _ (by decide) (by decide)
  | int => exact starts_dumpInt _
  | str t => exact hfirst _ _ (by decide) (by decide)
  | @list depth items =>
      cases items with
      | nil => exact hfirst _ _ (by decide) (by decide)
      | cons item items =>
          rw [dumps]
          exact hfirst _ _ (by decide) (by decide)
  | @dict depth fields =>
      cases fields with
      | nil => exact hfirst _ _ (by decide) (by decide)
      | cons field fields =>
          rw [dumps]
          exact hfirst _ _ (by decide) (by decide)

theorem Starts.append {cs : PyText} (h : Starts cs) (rest : PyText) : Starts (cs ++ rest) := by
  cases cs with
  | nil => exact absurd rfl h.ne_nil
  | cons c cs => exact ⟨by simp, h.first⟩

theorem Starts.skipBlanks {cs : PyText} (h : Starts cs) : skipBlanks cs = cs := by
  cases cs with
  | nil => rfl
  | cons c cs => exact List.dropWhile_cons_of_neg (by simp [(h.first c rfl).1])

theorem scanOnce_atom {cs : PyText} (hne : cs ≠ [])
    (h : ∀ c ∈ cs.head?, c ∉ [PyChar.char '"', .char '[', .char '{']) :
    scanOnce floats depth cs = scanAtom floats cs := by
  rw [scanOnce.eq_def]
  split
  case h_1 => exact absurd rfl hne
  case h_2 => exact absurd (by simp) (h (.char '"') rfl)
  case h_3 => exact absurd (by simp) (h (.char '[') rfl)
  case h_4 => exact absurd (by simp) (h (.char '{') rfl)
  case h_5 => exact absurd (by simp) (h (.char '[') rfl)
  case h_6 => exact absurd (by simp) (h (.char '{') rfl)
  case h_7 => rfl

/-- `value` is read back, whatever follows it. -/
def ReadBack (floats : Floats φ) (scan : PyText → Scan (Json φ)) (value : Json φ) : Prop :=
  Starts (dumps floats value) ∧
    ∀ rest, Stops rest → scan (dumps floats value ++ rest) = .ok (value, rest)

variable {scan : PyText → Scan (Json φ)}

theorem stops_cons {c : PyChar} (h : c ∈ [PyChar.char ',', .char ']', .char '}']) :
    Stops (c :: rest) := by
  rintro _ ⟨⟩
  exact h

theorem scanItems_dumpItems (rest : PyText) {items : List (Json φ)} : ∀ (item : Json φ) (fuel : Nat),
    items.length < fuel → (∀ i ∈ item :: items, ReadBack floats scan i) →
    scanItems scan fuel (dumps floats item ++ (dumpItems floats items ++ rest)) =
      .ok (item :: items, rest) := by
  induction items with
  | nil =>
      intro item fuel hfuel h
      obtain ⟨fuel, rfl⟩ := Nat.exists_eq_add_one_of_ne_zero (Nat.ne_zero_of_lt hfuel)
      have hitem := (h item List.mem_cons_self).2 (.char ']' :: rest) (stops_cons (by simp))
      rw [dumpItems, List.singleton_append, scanItems, hitem]
      rfl
  | cons next items ih =>
      intro item fuel hfuel h
      obtain ⟨fuel, rfl⟩ := Nat.exists_eq_add_one_of_ne_zero (Nat.ne_zero_of_lt hfuel)
      have hnext := h next (by simp)
      have hitem := (h item List.mem_cons_self).2
        (.char ',' :: (dumps floats next ++ (dumpItems floats items ++ rest)))
        (stops_cons (by simp))
      have hrest := ih next fuel (Nat.lt_of_succ_lt_succ hfuel)
        fun i hi => h i (List.mem_cons_of_mem _ hi)
      rw [dumpItems, List.cons_append, List.append_assoc, scanItems, hitem]
      show Except.map _ (scanItems scan fuel (skipBlanks _)) = _
      rw [(hnext.1.append _).skipBlanks, hrest]
      rfl

theorem scanField_dumps (key rest : PyText) (h : ReadBack floats scan value) (hstops : Stops rest) :
    scanField scan (dumpString key ++ .char ':' :: (dumps floats value ++ rest)) =
      .ok ((key, value), rest) := by
  rw [dumpString, List.cons_append, List.append_assoc, List.singleton_append]
  simp only [scanField, scanString_dumpString]
  show Except.map _ (scan (skipBlanks _)) = _
  rw [(h.1.append _).skipBlanks, h.2 rest hstops]
  rfl

theorem scanFields_dumpFields (rest : PyText) {fields : List (PyText × Json φ)} :
    ∀ (key : PyText) (value : Json φ) (fuel : Nat), fields.length < fuel →
    (∀ field ∈ (key, value) :: fields, ReadBack floats scan field.2) →
    scanFields scan fuel (dumpString key ++ .char ':' ::
      (dumps floats value ++ (dumpFields floats fields ++ rest))) =
      .ok ((key, value) :: fields, rest) := by
  induction fields with
  | nil =>
      intro key value fuel hfuel h
      obtain ⟨fuel, rfl⟩ := Nat.exists_eq_add_one_of_ne_zero (Nat.ne_zero_of_lt hfuel)
      have hfield := scanField_dumps key (.char '}' :: rest)
        (h (key, value) List.mem_cons_self) (stops_cons (by simp))
      rw [dumpFields, List.singleton_append, scanFields, hfield]
      rfl
  | cons next fields ih =>
      intro key value fuel hfuel h
      obtain ⟨next, nextValue⟩ := next
      obtain ⟨fuel, rfl⟩ := Nat.exists_eq_add_one_of_ne_zero (Nat.ne_zero_of_lt hfuel)
      have hfield := scanField_dumps key
        (.char ',' :: (dumpString next ++ .char ':' ::
          (dumps floats nextValue ++ (dumpFields floats fields ++ rest))))
        (h (key, value) List.mem_cons_self) (stops_cons (by simp))
      have hrest := ih next nextValue fuel
        (Nat.lt_of_succ_lt_succ hfuel) fun f hf => h f (List.mem_cons_of_mem _ hf)
      rw [dumpFields, List.cons_append, List.append_assoc, List.cons_append, List.append_assoc,
        scanFields, hfield]
      show Except.map _ (scanFields scan fuel (skipBlanks _)) = _
      have hquote : skipBlanks (dumpString next ++ .char ':' ::
          (dumps floats nextValue ++ (dumpFields floats fields ++ rest))) =
          dumpString next ++ .char ':' ::
            (dumps floats nextValue ++ (dumpFields floats fields ++ rest)) := rfl
      rw [hquote, hrest]
      rfl

/-- Distinct keys are all kept. -/
theorem ofPairs_of_nodup {fields : List (PyText × Json φ)} (h : (fields.map Prod.fst).Nodup) :
    ofPairs fields = .dict fields := by
  have hentries : (OrderedDict.collect (fun field : PyText × Json φ => some field.1) Prod.snd
      fields).entries = fields := by
    induction fields using List.reverseRecOn with
    | nil => rfl
    | append_singleton fields field ih =>
        rw [List.map_append, List.nodup_append] at h
        obtain ⟨hold, -, hnew⟩ := h
        have hcollect : OrderedDict.collect (fun field : PyText × Json φ => some field.1) Prod.snd
            (fields ++ [field]) = (OrderedDict.collect (fun field => some field.1) Prod.snd
              fields).set field.1 field.2 := by
          simp only [OrderedDict.collect, List.foldl_concat]
        have hkey : field.1 ∉ (OrderedDict.collect (fun field : PyText × Json φ => some field.1)
            Prod.snd fields).keys := by
          rw [OrderedDict.keys, ih hold]
          intro hmem
          exact hnew _ hmem _ (by simp) rfl
        rw [hcollect, OrderedDict.set, dif_neg hkey]
        exact congrArg (· ++ [field]) (ih hold)
  rw [ofPairs, hentries]

theorem length_lt_dumpItems (floats : Floats φ) (items : List (Json φ)) :
    items.length < (dumpItems floats items).length := by
  induction items with
  | nil => exact Nat.zero_lt_one
  | cons item items ih =>
      rw [dumpItems, List.length_cons, List.length_cons, List.length_append]
      omega

theorem length_lt_dumpFields (floats : Floats φ) (fields : List (PyText × Json φ)) :
    fields.length < (dumpFields floats fields).length := by
  induction fields with
  | nil => exact Nat.zero_lt_one
  | cons field fields ih =>
      simp only [dumpFields, List.length_cons, List.length_append]
      omega

/-- **One value.**  Whatever follows it stays. -/
theorem scanOnce_dumps (floats : Floats φ) (h : Plain depth value) : ∀ rest, Stops rest →
    scanOnce floats depth (dumps floats value ++ rest) = .ok (value, rest) := by
  induction h with
  | null =>
      intro rest _
      rw [scanOnce_atom (by simp [dumps, PyText.ofString]) (by rintro c ⟨⟩; decide)]
      rfl
  | bool b =>
      intro rest _
      cases b with
      | true =>
          rw [scanOnce_atom (by simp [dumps, PyText.ofString]) (by rintro c ⟨⟩; decide)]
          rfl
      | false =>
          rw [scanOnce_atom (by simp [dumps, PyText.ofString]) (by rintro c ⟨⟩; decide)]
          rfl
  | @int _ n hn =>
      intro rest hstops
      obtain ⟨d, tail, hdump, -⟩ := dumpInt_head n
      rw [dumps, scanOnce_atom]
      · exact scanAtom_dumpInt n hn hstops
      · exact ((starts_dumpInt n).append rest).ne_nil
      · rw [hdump]
        rintro c ⟨⟩
        simp [dumpInt_head_ne (e := '"') hdump (by decide) rfl,
          dumpInt_head_ne (e := '[') hdump (by decide) rfl,
          dumpInt_head_ne (e := '{') hdump (by decide) rfl]
  | str t =>
      intro rest _
      rw [dumps, dumpString, List.cons_append, List.append_assoc, List.singleton_append]
      simp only [scanOnce, scanString_dumpString]
      rfl
  | @list depth items h ih =>
      intro rest hstops
      cases items with
      | nil => rfl
      | cons item items =>
          have hread : ∀ i ∈ item :: items, ReadBack floats (scanOnce floats depth) i :=
            fun i hi => ⟨starts_dumps floats (h i hi), ih i hi⟩
          have hlength := length_lt_dumpItems floats items
          have hitems := scanItems_dumpItems rest item
            (dumps floats item ++ (dumpItems floats items ++ rest)).length
            (by simp only [List.length_append]; omega) hread
          have hstart := (starts_dumps floats (h item List.mem_cons_self)).append
            (dumpItems floats items ++ rest)
          rw [dumps, List.cons_append, List.append_assoc]
          simp only [scanOnce, hstart.skipBlanks]
          split
          case h_1 heq => exact absurd (by simp) (hstart.first (.char ']') (by rw [heq]; rfl)).2
          case h_2 =>
            rw [hitems]
            rfl
  | @dict depth fields hkeys h ih =>
      intro rest hstops
      cases fields with
      | nil => rfl
      | cons field fields =>
          obtain ⟨key, value⟩ := field
          have hread : ∀ f ∈ (key, value) :: fields, ReadBack floats (scanOnce floats depth) f.2 :=
            fun f hf => ⟨starts_dumps floats (h f hf), ih f hf⟩
          have hlength := length_lt_dumpFields floats fields
          have hfields := scanFields_dumpFields rest key value
            (dumpString key ++ .char ':' ::
              (dumps floats value ++ (dumpFields floats fields ++ rest))).length
            (by simp only [List.length_append, List.length_cons]; omega) hread
          rw [dumps, List.cons_append, List.append_assoc, List.cons_append, List.append_assoc]
          have hskip : ∀ tail, skipBlanks (dumpString key ++ tail) = dumpString key ++ tail :=
            fun tail => rfl
          simp only [scanOnce, hskip]
          split
          case h_1 heq =>
            rw [dumpString] at heq
            cases heq
          case h_2 =>
            rw [hfields]
            show Except.ok (ofPairs _, rest) = _
            rw [ofPairs_of_nodup hkeys]

/-- **The round trip.** -/
theorem loads_dumps (h : Plain depth value) :
    loads floats depth (dumps floats value) = .ok value := by
  have hstart := starts_dumps floats h
  have hbom : (dumps floats value).head? ≠ some (.char '\ufeff') := fun heq =>
    absurd (by simp) (hstart.first _ heq).2
  have hscan := scanOnce_dumps floats h [] (by rintro c ⟨⟩)
  rw [List.append_nil] at hscan
  rw [loads, if_neg hbom, hstart.skipBlanks, hscan]
  rfl

/-! ## The text of a value

`dumps` writes the halves of surrogate pairs as they are; without them it writes text. -/

/-- No lone half of a surrogate pair stands in the text. -/
def IsText (t : PyText) : Prop := ∀ c ∈ t, ∃ ch, c = .char ch

theorem isText_map (cs : List Char) : IsText (cs.map .char) := by
  intro c hc
  obtain ⟨ch, -, rfl⟩ := List.mem_map.mp hc
  exact ⟨ch, rfl⟩

theorem isText_ofString (s : String) : IsText (.ofString s) := isText_map s.toList

theorem IsText.append {t' : PyText} (h : IsText t) (h' : IsText t') : IsText (t ++ t') :=
  List.forall_mem_append.mpr ⟨h, h'⟩

theorem IsText.cons (h : IsText t) (ch : Char) : IsText (.char ch :: t) :=
  List.forall_mem_cons.mpr ⟨⟨ch, rfl⟩, h⟩

/-- It is encoded. -/
theorem IsText.eq_ofString (h : IsText t) : ∃ s, t = .ofString s := by
  have hmap : ∃ cs : List Char, t = cs.map .char := by
    induction t with
    | nil => exact ⟨[], rfl⟩
    | cons c t ih =>
        obtain ⟨⟨ch, rfl⟩, hrest⟩ := List.forall_mem_cons.mp h
        obtain ⟨cs, rfl⟩ := ih hrest
        exact ⟨ch :: cs, rfl⟩
  obtain ⟨cs, rfl⟩ := hmap
  exact ⟨String.ofList cs, by rw [PyText.ofString, String.toList_ofList]⟩

theorem isText_dumpString (h : IsText t) : IsText (dumpString t) := by
  have hchar : ∀ c ∈ t, IsText (dumpChar c) := by
    intro c hc
    obtain ⟨ch, rfl⟩ := h c hc
    simp only [dumpChar]
    split
    case h_1 => exact IsText.cons (by rintro c ⟨⟩) ch
    case h_2 => exact isText_map _
  refine IsText.cons (IsText.append ?_ (IsText.cons (by rintro c ⟨⟩) '"')) '"'
  intro c hc
  obtain ⟨c', hc', hmem⟩ := List.mem_flatMap.mp hc
  exact hchar c' hc' c hmem

/-- The values whose strings are text. -/
inductive Textual : Json φ → Prop
  | null : Textual .null
  | bool (b : Bool) : Textual (.bool b)
  | int (n : Int) : Textual (.int n)
  | float (x : φ) : Textual (.float x)
  | str (s : String) : Textual (.str (.ofString s))
  | list {items : List (Json φ)} (h : ∀ item ∈ items, Textual item) : Textual (.list items)
  | dict {fields : List (PyText × Json φ)} (hkeys : ∀ field ∈ fields, IsText field.1)
      (h : ∀ field ∈ fields, Textual field.2) : Textual (.dict fields)

theorem isText_dumpItems {items : List (Json φ)} (h : ∀ item ∈ items, IsText (dumps floats item)) :
    IsText (dumpItems floats items) := by
  induction items with
  | nil => exact IsText.cons (by rintro c ⟨⟩) ']'
  | cons item items ih =>
      obtain ⟨hitem, hrest⟩ := List.forall_mem_cons.mp h
      rw [dumpItems]
      exact IsText.cons (IsText.append hitem (ih hrest)) ','

theorem isText_dumpFields {fields : List (PyText × Json φ)}
    (h : ∀ field ∈ fields, IsText field.1 ∧ IsText (dumps floats field.2)) :
    IsText (dumpFields floats fields) := by
  induction fields with
  | nil => exact IsText.cons (by rintro c ⟨⟩) '}'
  | cons field fields ih =>
      obtain ⟨⟨hkey, hvalue⟩, hrest⟩ := List.forall_mem_cons.mp h
      rw [dumpFields]
      exact IsText.cons (IsText.append (isText_dumpString hkey)
        (IsText.cons (IsText.append hvalue (ih hrest)) ':')) ','

theorem isText_dumps (floats : Floats φ) (h : Textual value) : IsText (dumps floats value) := by
  induction h with
  | null => exact isText_ofString _
  | bool b =>
      cases b with
      | true => exact isText_ofString _
      | false => exact isText_ofString _
  | int n => exact isText_ofString _
  | float x =>
      rw [dumps]
      exact isText_map _
  | str s =>
      rw [dumps]
      exact isText_dumpString (isText_ofString s)
  | @list items h ih =>
      cases items with
      | nil => exact isText_ofString _
      | cons item items =>
          obtain ⟨hitem, hrest⟩ := List.forall_mem_cons.mp ih
          rw [dumps]
          exact IsText.cons (IsText.append hitem (isText_dumpItems hrest)) '['
  | @dict fields hkeys h ih =>
      cases fields with
      | nil => exact isText_ofString _
      | cons field fields =>
          obtain ⟨hkey, hotherKeys⟩ := List.forall_mem_cons.mp hkeys
          obtain ⟨hvalue, hrest⟩ := List.forall_mem_cons.mp ih
          rw [dumps]
          exact IsText.cons (IsText.append (isText_dumpString hkey) (IsText.cons
            (IsText.append hvalue (isText_dumpFields fun f hf => ⟨hotherKeys f hf, hrest f hf⟩))
            ':')) '{'

end Lib.Json
