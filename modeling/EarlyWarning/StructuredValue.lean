/-
# `StructuredValue` — where the scan takes a rendered value to end

`structuredValueEnd` ends a value that opens with a bracket or a quote where the rendering ends it,
whatever stands in its strings, and any other value that has no delimiter inside
(`structuredValueEnd_eq`); or it gives the end of the text, when the value is nested too deep or
is not all in the window.  Of the values that JSON has, none is of another kind
(`structuredValueEnd_json`).
-/
import EarlyWarning.RenderedData

namespace EarlyWarning.ErrorReporting

open Lib

variable {text w ws rest : PyText} {start stop : Nat} {c e quote : PyChar}

/-! ## The window -/

theorem charBefore_eq : charBefore text start stop = if start < stop then text[start]? else none :=
  List.getElem?_take

theorem window_eq : (text.take stop).drop start = (text.drop start).take (stop - start) :=
  List.drop_take ..

theorem getElem?_of_drop (h : text.drop start = w ++ c :: rest) :
    text[start + w.length]? = some c := by
  rw [← List.getElem?_drop, h, List.getElem?_append_right (Nat.le_refl _), Nat.sub_self]
  rfl

/-- The characters of a class that stand there are skipped, as far as the window goes. -/
theorem skip_eq {p : PyChar → Bool} (h : text.drop start = w ++ rest) (hw : ∀ c ∈ w, p c = true)
    (hrest : ∀ c ∈ rest.head?, p c = false) :
    skip p text start stop =
      if start + w.length ≤ stop then start + w.length else max start stop := by
  rw [skip, window_eq, h]
  by_cases hstop : start + w.length ≤ stop
  · have hw' : (w ++ rest).take (stop - start) = w ++ rest.take (stop - start - w.length) := by
      rw [List.take_append, List.take_of_length_le (by omega)]
    have hnone : (rest.take (stop - start - w.length)).takeWhile p = [] := by
      cases rest with
      | nil => rw [List.take_nil, List.takeWhile_nil]
      | cons d rest =>
          cases stop - start - w.length with
          | zero => rfl
          | succ n =>
              rw [List.take_succ_cons, List.takeWhile_cons_of_neg]
              simp [hrest d rfl]
    rw [if_pos hstop, hw', List.takeWhile_append_of_pos hw, hnone, List.append_nil]
  · have hw' : (w ++ rest).take (stop - start) = w.take (stop - start) :=
      List.take_append_of_le_length (by omega)
    have hall : ∀ c ∈ w.take (stop - start), p c = true := fun c hc => hw c (List.mem_of_mem_take hc)
    rw [if_neg hstop, hw', List.takeWhile_eq_self_iff.mpr hall, List.length_take]
    omega

theorem skip_of_le {p : PyChar → Bool} (h : stop ≤ start) : skip p text start stop = start := by
  rw [skip, window_eq, Nat.sub_eq_zero_of_le h]
  rfl

theorem not_whitespace_of_isDelimiter (h : isDelimiter c = true) :
    isMappingWhitespace c = false := by
  have hall : ∀ c ∈ [',', '}', ']'].map PyChar.char, isMappingWhitespace c = false := by decide
  exact hall c (of_decide_eq_true h)

theorem not_isDelimiter_of_whitespace (h : isMappingWhitespace c = true) :
    isDelimiter c = false := by
  have hall : ∀ c ∈ [' ', '\t', '\r', '\n'].map PyChar.char, isDelimiter c = false := by decide
  exact hall c (of_decide_eq_true h)

/-- After a value come blanks and a delimiter. -/
theorem consumeTrailingFragment_eq (h : text.drop start = ws ++ e :: rest)
    (hws : ∀ c ∈ ws, isMappingWhitespace c = true) (he : isDelimiter e = true) :
    consumeTrailingFragment text start stop = start + ws.length ∨
      consumeTrailingFragment text start stop = text.length := by
  have hskip : skip isMappingWhitespace text start stop =
      if start + ws.length ≤ stop then start + ws.length else max start stop :=
    skip_eq h hws fun c hc => by
      cases hc
      exact not_whitespace_of_isDelimiter he
  by_cases hstop : start + ws.length < stop
  · left
    rw [if_pos (Nat.le_of_lt hstop)] at hskip
    have hchar : charBefore text (start + ws.length) stop = some e := by
      rw [charBefore_eq, if_pos hstop, getElem?_of_drop h]
    simp [consumeTrailingFragment, hskip, hchar, he]
  · right
    have hle : stop ≤ skip isMappingWhitespace text start stop := by
      rw [hskip]
      split
      case isTrue => omega
      case isFalse => exact Nat.le_max_right _ _
    have hnone : charBefore text (skip isMappingWhitespace text start stop) stop = none := by
      rw [charBefore_eq, if_neg (Nat.not_lt.mpr hle)]
    simp [consumeTrailingFragment, hnone, skip_of_le hle]

/-! ## Strings -/

theorem quoteEnd_take : ∀ {w : PyText} {escaped : Bool} {k n : Nat},
    quoteEnd quote escaped (w.take k) = some n → quoteEnd quote escaped w = some n
  | [], escaped, k, n, h => by rwa [List.take_nil] at h
  | c :: w, escaped, 0, n, h => by cases h
  | c :: w, escaped, k + 1, n, h => by
      have hmap : ∀ escaped', (quoteEnd quote escaped' (w.take k)).map (· + 1) = some n →
          (quoteEnd quote escaped' w).map (· + 1) = some n := by
        intro escaped' hsome
        obtain ⟨m, hm, rfl⟩ := Option.map_eq_some_iff.mp hsome
        rw [quoteEnd_take hm]
        rfl
      rw [List.take_succ_cons, quoteEnd] at h
      rw [quoteEnd]
      split at h
      case isTrue => cases h
      case isFalse hline =>
        rw [if_neg hline]
        split at h
        case isTrue hesc => rw [if_pos hesc]; exact hmap _ h
        case isFalse hesc =>
          rw [if_neg hesc]
          split at h
          case isTrue hb => rw [if_pos hb]; exact hmap _ h
          case isFalse hb =>
            rw [if_neg hb]
            split at h
            case isTrue hq => rw [if_pos hq]; exact h
            case isFalse hq => rw [if_neg hq]; exact hmap _ h

theorem quote_ne (h : isOneOf ['\'', '"'] quote = true) :
    quote ≠ .char '\\' ∧ isLineEnd quote = false ∧ isMappingWhitespace quote = false ∧
      isDelimiter quote = false ∧ quote ≠ .char ':' ∧ quote ≠ .char '=' ∧ closingFor quote = none ∧
      isNameChar quote = false := by
  have hall : ∀ q ∈ ['\'', '"'].map PyChar.char, q ≠ .char '\\' ∧ isLineEnd q = false ∧
      isMappingWhitespace q = false ∧ isDelimiter q = false ∧ q ≠ .char ':' ∧ q ≠ .char '=' ∧
      closingFor q = none ∧ isNameChar q = false := by decide
  exact hall quote (of_decide_eq_true h)

/-- A string ends at its closing quote. -/
theorem quoteEnd_literal (hquote : isOneOf ['\'', '"'] quote = true) (h : Literal quote w) :
    quoteEnd quote false (w ++ quote :: rest) = some (w.length + 1) := by
  obtain ⟨hslash, hline, -⟩ := quote_ne hquote
  induction h with
  | nil => simp [quoteEnd, hline, hslash]
  | char hq hb hl _ ih => simp [quoteEnd, hq, hb, hl, ih]
  | escape hl _ ih =>
      have hbackslash : isLineEnd (.char '\\') = false := by decide
      simp [quoteEnd, hbackslash, hl, ih]

/-! ## Brackets -/

theorem bracketEnd_take : ∀ {w : PyText} {stack : List PyChar} {quote : Option PyChar}
    {escaped : Bool} {k n : Nat}, bracketEnd stack quote escaped (w.take k) = some n →
      bracketEnd stack quote escaped w = some n
  | [], stack, quote, escaped, k, n, h => by rwa [List.take_nil] at h
  | c :: w, stack, quote, escaped, 0, n, h => by
      rw [List.take_zero, bracketEnd] at h
      cases h
  | c :: w, stack, quote, escaped, k + 1, n, h => by
      have hmap : ∀ stack' quote' escaped',
          (bracketEnd stack' quote' escaped' (w.take k)).map (· + 1) = some n →
            (bracketEnd stack' quote' escaped' w).map (· + 1) = some n := by
        intro stack' quote' escaped' hsome
        obtain ⟨m, hm, rfl⟩ := Option.map_eq_some_iff.mp hsome
        rw [bracketEnd_take hm]
        rfl
      rw [List.take_succ_cons] at h
      cases quote with
      | some q =>
          rw [bracketEnd] at h ⊢
          split at h
          case isTrue => cases h
          case isFalse hline =>
            rw [if_neg hline]
            split at h
            case isTrue hesc => rw [if_pos hesc]; exact hmap _ _ _ h
            case isFalse hesc =>
              rw [if_neg hesc]
              split at h
              case isTrue hb => rw [if_pos hb]; exact hmap _ _ _ h
              case isFalse hb =>
                rw [if_neg hb]
                split at h
                case isTrue hq => rw [if_pos hq]; exact hmap _ _ _ h
                case isFalse hq => rw [if_neg hq]; exact hmap _ _ _ h
      | none =>
          rw [bracketEnd] at h ⊢
          split at h
          case isTrue hq => rw [if_pos hq]; exact hmap _ _ _ h
          case isFalse hq =>
            rw [if_neg hq]
            cases hc : closingFor c with
            | some closing =>
                simp only [hc] at h ⊢
                split at h
                case isTrue => cases h
                case isFalse hdepth => rw [if_neg hdepth]; exact hmap _ _ _ h
            | none =>
                simp only [hc] at h ⊢
                split at h
                case isTrue hclosing =>
                  rw [if_pos hclosing]
                  split at h
                  case isTrue => cases h
                  case isFalse htop =>
                    rw [if_neg htop]
                    split at h
                    case isTrue hlast => rw [if_pos hlast]; exact h
                    case isFalse hlast => rw [if_neg hlast]; exact hmap _ _ _ h
                case isFalse hclosing => rw [if_neg hclosing]; exact hmap _ _ _ h

/-- Inside brackets the scan comes through `w` as it went in, or gives up. -/
def Passes (w : PyText) : Prop :=
  ∀ (stack : List PyChar) (rest : PyText), stack ≠ [] →
    bracketEnd stack none false (w ++ rest) = none ∨
      bracketEnd stack none false (w ++ rest) =
        (bracketEnd stack none false rest).map (· + w.length)

theorem passes_nil : Passes [] := fun stack rest _ => by
  right
  cases h : bracketEnd stack none false rest with
  | none => rw [List.nil_append, h]; rfl
  | some n => rw [List.nil_append, h]; rfl

theorem map_add_map (o : Option Nat) (m n : Nat) :
    (o.map (· + m)).map (· + n) = o.map (· + (m + n)) := by
  cases o with
  | none => rfl
  | some k => exact congrArg some (Nat.add_assoc k m n)

theorem Passes.append {w' : PyText} (h : Passes w) (h' : Passes w') : Passes (w ++ w') := by
  intro stack rest hstack
  rw [List.append_assoc, List.length_append]
  rcases h stack (w' ++ rest) hstack with hnone | heq
  · exact .inl hnone
  · rw [heq]
    rcases h' stack rest hstack with hnone | heq'
    · exact .inl (by rw [hnone]; rfl)
    · right
      rw [heq', map_add_map, Nat.add_comm w'.length]

/-- No quote and no bracket. -/
def isInert (c : PyChar) : Bool := !isOneOf ['\'', '"', '[', ']', '{', '}'] c

theorem passes_inert (h : isInert c = true) : Passes [c] := by
  intro stack rest _
  right
  have hquote : isOneOf ['\'', '"'] c = false := by
    simp [isInert, isOneOf] at h ⊢
    exact ⟨h.1, h.2.1⟩
  have hclosing : isOneOf [']', '}'] c = false := by
    simp [isInert, isOneOf] at h ⊢
    exact ⟨h.2.2.2.1, h.2.2.2.2.2⟩
  have hopening : closingFor c = none := by
    simp only [isInert, isOneOf, List.map_cons, List.map_nil, List.mem_cons, List.not_mem_nil,
      or_false, Bool.not_eq_true', decide_eq_false_iff_not, not_or] at h
    rw [closingFor]
    · exact fun heq => absurd heq h.2.2.1
    · exact fun heq => absurd heq h.2.2.2.2.1
  rw [List.singleton_append, bracketEnd]
  simp [hquote, hclosing, hopening]

theorem passes_of_forall : ∀ {w : PyText}, (∀ c ∈ w, isInert c = true) → Passes w
  | [], _ => passes_nil
  | c :: _, h =>
      (passes_inert (h c List.mem_cons_self)).append
        (passes_of_forall fun c' hc' => h c' (List.mem_cons_of_mem c hc'))

/-- The scan of a string ends at its closing quote. -/
theorem bracketEnd_literal (hquote : isOneOf ['\'', '"'] quote = true) (stack : List PyChar)
    (rest : PyText) (h : Literal quote w) :
    bracketEnd stack (some quote) false (w ++ quote :: rest) =
      (bracketEnd stack none false rest).map (· + (w.length + 1)) := by
  obtain ⟨hslash, hline, -⟩ := quote_ne hquote
  induction h with
  | nil => simp [bracketEnd, hline, hslash]
  | char hq hb hl _ ih =>
      rw [List.cons_append, bracketEnd]
      simp only [hl, hq, hb, if_false, Bool.false_eq_true, ih, map_add_map, List.length_cons]
  | escape hl _ ih =>
      have hbackslash : isLineEnd (.char '\\') = false := by decide
      rw [List.cons_append, List.cons_append, bracketEnd]
      simp only [hbackslash, if_false, if_true, Bool.false_eq_true]
      rw [bracketEnd]
      simp only [hl, if_false, if_true, Bool.false_eq_true, ih, map_add_map, List.length_cons]

theorem passes_quoted (h : Quoted w) : Passes w := by
  obtain ⟨quote, body, hquote, hbody, rfl⟩ := h
  intro stack rest _
  right
  have hq : ∀ rest, bracketEnd stack none false (quote :: rest) =
      (bracketEnd stack (some quote) false rest).map (· + 1) := by
    intro rest
    rw [bracketEnd, if_pos hquote]
  rw [List.cons_append, hq, List.append_assoc, List.singleton_append,
    bracketEnd_literal hquote stack rest hbody, map_add_map]
  simp

/-- Brackets around what is passed. -/
theorem passes_bracket {opening closing : PyChar} (hopen : closingFor opening = some closing)
    (h : Passes w) : Passes (opening :: (w ++ [closing])) := by
  have hchars : isOneOf ['\'', '"'] opening = false ∧ isOneOf ['\'', '"'] closing = false ∧
      closingFor closing = none ∧ isOneOf [']', '}'] closing = true := by
    unfold closingFor at hopen
    split at hopen
    case h_1 =>
      cases hopen
      decide
    case h_2 =>
      cases hopen
      decide
    case h_3 => cases hopen
  obtain ⟨hq, hq', hc, hclosing⟩ := hchars
  intro stack rest hstack
  rw [List.cons_append, bracketEnd, hq]
  simp only [Bool.false_eq_true, if_false, hopen]
  split
  case isTrue => exact .inl rfl
  case isFalse =>
    rw [List.append_assoc]
    rcases h (closing :: stack) ([closing] ++ rest) (List.cons_ne_nil _ _) with hnone | heq
    · exact .inl (by rw [hnone]; rfl)
    · right
      have hlast : bracketEnd (closing :: stack) none false ([closing] ++ rest) =
          (bracketEnd stack none false rest).map (· + 1) := by
        rw [List.singleton_append, bracketEnd, hq']
        simp [hc, hclosing, hstack]
      rw [heq, hlast, map_add_map, map_add_map]
      simp [Nat.add_comm, Nat.add_left_comm]

/-! ## Rendered data -/

section Rendered

variable (s : Style)

theorem isInert_of_whitespace (h : isMappingWhitespace c = true) : isInert c = true := by
  have hall : ∀ c ∈ [' ', '\t', '\r', '\n'].map PyChar.char, isInert c = true := by decide
  exact hall c (of_decide_eq_true h)

theorem passes_blank (b : Blank) : Passes b.val :=
  passes_of_forall fun c hc => isInert_of_whitespace (b.property c hc)

theorem passes_colon : Passes (colon s) :=
  (passes_blank _).append ((passes_inert (c := .char ':') (by decide)).append (passes_blank _))

theorem passes_comma : Passes (comma s) :=
  (passes_blank _).append (passes_inert (by decide))

theorem isInert_atom (a : Atom) : ∀ c ∈ a.text, isInert c = true := by
  intro c hc
  obtain ⟨c', rfl, hplain⟩ := a.plain c hc
  rcases hplain with h | rfl | rfl | rfl
  · have hne := alphanum_ne h
    simp only [List.mem_cons, List.not_mem_nil, or_false, not_or] at hne
    simp [isInert, isOneOf, hne]
  · decide
  · decide
  · decide

theorem passes_bytes (b : List UInt8) : Passes (s.bytes b) := by
  obtain ⟨t, ht, heq⟩ := s.bytes_quoted b
  rw [heq]
  exact (passes_inert (c := .char 'b') (by decide)).append (passes_quoted ht)

theorem passes_tupleComma (items : List Data) : Passes (tupleComma s items) := by
  rw [tupleComma]
  split
  case isTrue => exact passes_inert (by decide)
  case isFalse => exact passes_nil

/-- The brackets of a tuple, which may be those of a list. -/
theorem passes_tuple {w : PyText} (h : Passes w) :
    Passes (tupleOpening s :: (w ++ [tupleClosing s])) := by
  rw [tupleOpening, tupleClosing]
  cases s.tuples with
  | true => exact (passes_inert (by decide)).append (h.append (passes_inert (by decide)))
  | false => exact passes_bracket rfl h

theorem passes_closing (depth : Nat) (bracket : PyChar) :
    ∃ inner, closing s depth bracket = inner ++ [bracket] ∧ Passes inner :=
  ⟨_, rfl, passes_blank _⟩

mutual

theorem passes_render : ∀ (depth : Nat) (data : Data), Passes (render s depth data)
  | _, .atom a => by
      rw [render]
      exact passes_of_forall (isInert_atom a)
  | _, .str t => by
      rw [render]
      exact passes_quoted (s.string_quoted t)
  | _, .bytes b => by
      rw [render]
      exact passes_bytes s b
  | _, .list [] => by
      rw [render]
      exact passes_bracket (show closingFor (.char '[') = some _ from rfl) passes_nil
  | depth, .list (item :: items) => by
      obtain ⟨inner, heq, hinner⟩ := passes_renderItems depth (.char ']') items
      rw [render, heq, ← List.append_assoc, ← List.append_assoc]
      exact passes_bracket rfl
        (((passes_blank _).append (passes_render (depth + 1) item)).append hinner)
  | _, .tuple [] => by
      rw [render]
      exact passes_tuple s passes_nil
  | depth, .tuple (item :: items) => by
      obtain ⟨inner, heq, hinner⟩ := passes_renderItems depth (tupleClosing s) items
      rw [render, heq, ← List.append_assoc, ← List.append_assoc, ← List.append_assoc]
      exact passes_tuple s ((((passes_blank _).append (passes_render (depth + 1) item)).append
        (passes_tupleComma s items)).append hinner)
  | _, .dict [] => by
      rw [render]
      exact passes_bracket (show closingFor (.char '{') = some _ from rfl) passes_nil
  | depth, .dict ((key, value) :: entries) => by
      obtain ⟨inner, heq, hinner⟩ := passes_renderEntries depth entries
      rw [render, heq, ← List.append_assoc, ← List.append_assoc, ← List.append_assoc,
        ← List.append_assoc]
      exact passes_bracket rfl (((((passes_blank _).append (passes_render (depth + 1) key)).append
        (passes_colon s)).append (passes_render (depth + 1) value)).append hinner)

theorem passes_renderItems : ∀ (depth : Nat) (bracket : PyChar) (items : List Data),
    ∃ inner, renderItems s depth bracket items = inner ++ [bracket] ∧ Passes inner
  | depth, bracket, [] => by
      rw [renderItems]
      exact passes_closing s depth bracket
  | depth, bracket, item :: items => by
      obtain ⟨inner, heq, hinner⟩ := passes_renderItems depth bracket items
      rw [renderItems, heq, ← List.append_assoc, ← List.append_assoc, ← List.append_assoc]
      exact ⟨_, rfl, (((passes_comma s).append (passes_blank _)).append
        (passes_render (depth + 1) item)).append hinner⟩

theorem passes_renderEntries : ∀ (depth : Nat) (entries : List (Data × Data)),
    ∃ inner, renderEntries s depth entries = inner ++ [.char '}'] ∧ Passes inner
  | depth, [] => by
      rw [renderEntries]
      exact passes_closing s depth _
  | depth, (key, value) :: entries => by
      obtain ⟨inner, heq, hinner⟩ := passes_renderEntries depth entries
      rw [renderEntries, heq, ← List.append_assoc, ← List.append_assoc, ← List.append_assoc,
        ← List.append_assoc, ← List.append_assoc]
      exact ⟨_, rfl, (((((passes_comma s).append (passes_blank _)).append
        (passes_render (depth + 1) key)).append (passes_colon s)).append
          (passes_render (depth + 1) value)).append hinner⟩

end

end Rendered

/-! ## The end of a value -/

/-- A value that the scan can tell from what follows. -/
inductive ValueText : PyText → Prop
  | quoted {w : PyText} (h : Quoted w) : ValueText w
  | bracketed {opening closing : PyChar} {w : PyText} (hopen : closingFor opening = some closing)
      (h : Passes w) : ValueText (opening :: (w ++ [closing]))
  | plain {c : PyChar} {w : PyText} (hblank : isMappingWhitespace c = false)
      (hquote : isOneOf ['\'', '"'] c = false) (hopen : closingFor c = none)
      (h : ∀ d ∈ c :: w, isDelimiter d = false) : ValueText (c :: w)

theorem ValueText.head (h : ValueText w) :
    ∃ c rest, w = c :: rest ∧ isMappingWhitespace c = false := by
  cases h with
  | quoted h =>
      obtain ⟨quote, body, hquote, -, rfl⟩ := h
      exact ⟨quote, _, rfl, (quote_ne hquote).2.2.1⟩
  | bracketed hopen h =>
      refine ⟨_, _, rfl, ?_⟩
      unfold closingFor at hopen
      split at hopen
      case h_1 => decide
      case h_2 => decide
      case h_3 => cases hopen
  | plain hblank => exact ⟨_, _, rfl, hblank⟩

theorem isDelimited_cons (h : isDelimited (c :: w) = true)
    (hopen : closingFor c = none) (hquote : isOneOf ['\'', '"'] c = false) :
    ∀ d ∈ c :: w, isDelimiter d = false := by
  rw [isDelimited] at h
  have hall : ((c :: w).all fun d => !isDelimiter d) = true := by
    simpa [hopen, hquote] using h
  intro d hd
  simpa using List.all_eq_true.mp hall d hd

theorem alphanum_opens {c : Char} (h : c.isAlphanum ∨ c = '+' ∨ c = '-' ∨ c = '.') :
    isMappingWhitespace (.char c) = false ∧ isOneOf ['\'', '"'] (.char c) = false ∧
      closingFor (.char c) = none := by
  rcases h with h | rfl | rfl | rfl
  · have hne := alphanum_ne h
    simp only [List.mem_cons, List.not_mem_nil, or_false, not_or] at hne
    refine ⟨by simp [isMappingWhitespace, isOneOf, hne], by simp [isOneOf, hne], ?_⟩
    rw [closingFor]
    · exact fun heq => absurd (PyChar.char.inj heq) hne.2.2.2.2.2.1
    · exact fun heq => absurd (PyChar.char.inj heq) hne.2.2.2.2.2.2.2.1
  · decide
  · decide
  · decide

theorem valueText_tuple (s : Style) (hw : Passes w)
    (h : isDelimited (tupleOpening s :: (w ++ [tupleClosing s])) = true) :
    ValueText (tupleOpening s :: (w ++ [tupleClosing s])) := by
  rw [tupleOpening, tupleClosing] at h ⊢
  cases htuples : s.tuples with
  | true =>
      rw [htuples] at h
      exact .plain (by decide) (by decide) (by decide)
        (isDelimited_cons h (by decide) (by decide))
  | false => exact .bracketed rfl hw

/-- What is rendered can be told from what follows, when nothing in it looks like its end. -/
theorem valueText_render (s : Style) : ∀ (depth : Nat) (data : Data),
    isDelimited (render s depth data) = true → ValueText (render s depth data)
  | _, .atom a, h => by
      rw [render] at h ⊢
      obtain ⟨c, rest, heq⟩ := List.exists_cons_of_ne_nil a.ne_nil
      obtain ⟨c', rfl, hplain⟩ := a.plain c (heq ▸ List.mem_cons_self)
      obtain ⟨hblank, hquote, hopen⟩ := alphanum_opens hplain
      rw [heq] at h ⊢
      exact .plain hblank hquote hopen (isDelimited_cons h hopen hquote)
  | _, .str t, _ => by
      rw [render]
      exact .quoted (s.string_quoted t)
  | _, .bytes b, h => by
      rw [render] at h ⊢
      obtain ⟨t, -, heq⟩ := s.bytes_quoted b
      rw [heq] at h ⊢
      exact .plain (by decide) (by decide) (by decide) (isDelimited_cons h (by decide) (by decide))
  | _, .list [], _ => by
      rw [render]
      exact .bracketed (show closingFor (.char '[') = some _ from rfl) passes_nil
  | depth, .list (item :: items), _ => by
      obtain ⟨inner, heq, hinner⟩ := passes_renderItems s depth (.char ']') items
      rw [render, heq, ← List.append_assoc, ← List.append_assoc]
      exact .bracketed rfl
        (((passes_blank _).append (passes_render s (depth + 1) item)).append hinner)
  | _, .tuple [], h => by
      rw [render] at h ⊢
      exact valueText_tuple s passes_nil h
  | depth, .tuple (item :: items), h => by
      obtain ⟨inner, heq, hinner⟩ := passes_renderItems s depth (tupleClosing s) items
      rw [render, heq, ← List.append_assoc, ← List.append_assoc, ← List.append_assoc] at h ⊢
      exact valueText_tuple s ((((passes_blank _).append (passes_render s (depth + 1) item)).append
        (passes_tupleComma s items)).append hinner) h
  | _, .dict [], _ => by
      rw [render]
      exact .bracketed (show closingFor (.char '{') = some _ from rfl) passes_nil
  | depth, .dict ((key, value) :: entries), _ => by
      obtain ⟨inner, heq, hinner⟩ := passes_renderEntries s depth entries
      rw [render, heq, ← List.append_assoc, ← List.append_assoc, ← List.append_assoc,
        ← List.append_assoc]
      exact .bracketed rfl (((((passes_blank _).append (passes_render s (depth + 1) key)).append
        (passes_colon s)).append (passes_render s (depth + 1) value)).append hinner)

theorem structuredValueEnd_of_le (h : stop ≤ start) :
    structuredValueEnd text start stop = text.length := by
  rw [structuredValueEnd, window_eq, Nat.sub_eq_zero_of_le h]
  rfl

/-- **The end of a value** is where its text ends, after which the scan goes on to the delimiter;
or the scan gives up, and nothing of the text is left. -/
theorem structuredValueEnd_eq (hw : ValueText w) (h : text.drop start = w ++ (ws ++ e :: rest))
    (hws : ∀ c ∈ ws, isMappingWhitespace c = true) (he : isDelimiter e = true) :
    structuredValueEnd text start stop = start + w.length + ws.length ∨
      structuredValueEnd text start stop = text.length := by
  rcases Nat.lt_or_ge start stop with hlt | hle
  case inr => exact .inr (structuredValueEnd_of_le hle)
  obtain ⟨k, hk⟩ : ∃ k, stop - start = k + 1 := ⟨stop - start - 1, by omega⟩
  have hafter : text.drop (start + w.length) = ws ++ e :: rest := by
    rw [← List.drop_drop, h, List.drop_append_of_le_length (Nat.le_refl _), List.drop_length,
      List.nil_append]
  rw [structuredValueEnd, window_eq, h, hk]
  cases hw with
  | quoted hquoted =>
      obtain ⟨quote, body, hquote, hbody, rfl⟩ := hquoted
      obtain ⟨-, -, -, -, -, -, hopen, -⟩ := quote_ne hquote
      simp only [List.cons_append, List.take_succ_cons, hopen, hquote, if_true]
      cases hend : quoteEnd quote false ((body ++ [quote] ++ (ws ++ e :: rest)).take k) with
      | none => exact .inr rfl
      | some n =>
          have hfull := quoteEnd_take hend
          rw [List.append_assoc, List.singleton_append, quoteEnd_literal hquote hbody] at hfull
          cases hfull
          have hlength : start + 1 + (body.length + 1) =
              start + (quote :: (body ++ [quote])).length := by
            simp only [List.length_cons, List.length_append, List.length_nil]
            omega
          simp only [hlength]
          exact consumeTrailingFragment_eq hafter hws he
  | @bracketed opening closing inner hopen hinner =>
      simp only [List.cons_append, List.take_succ_cons, hopen]
      cases hend : bracketEnd [closing] none false
          ((inner ++ [closing] ++ (ws ++ e :: rest)).take k) with
      | none => exact .inr rfl
      | some n =>
          have hfull := bracketEnd_take hend
          have hclosing : isOneOf ['\'', '"'] closing = false ∧ closingFor closing = none ∧
              isOneOf [']', '}'] closing = true := by
            unfold closingFor at hopen
            split at hopen
            case h_1 =>
              cases hopen
              decide
            case h_2 =>
              cases hopen
              decide
            case h_3 => cases hopen
          obtain ⟨hq, hc, hb⟩ := hclosing
          have hlast : bracketEnd [closing] none false (closing :: (ws ++ e :: rest)) = some 1 := by
            rw [bracketEnd, hq]
            simp [hc, hb]
          rw [List.append_assoc, List.singleton_append] at hfull
          rcases hinner [closing] (closing :: (ws ++ e :: rest)) (List.cons_ne_nil _ _) with
            hnone | hsome
          · rw [hnone] at hfull
            cases hfull
          · rw [hsome, hlast] at hfull
            cases hfull
            have hlength : start + 1 + (1 + inner.length) =
                start + (opening :: (inner ++ [closing])).length := by
              simp only [List.length_cons, List.length_append, List.length_nil]
              omega
            simp only [hlength]
            exact consumeTrailingFragment_eq hafter hws he
  | @plain c inner hblank hquote hopen hplain =>
      have hbefore : text.drop start = (c :: inner ++ ws) ++ e :: rest := by
        rw [h, List.append_assoc]
      have hskipped : ∀ d ∈ c :: inner ++ ws, (!isDelimiter d) = true := by
        intro d hd
        rcases List.mem_append.mp hd with hd | hd
        · simp [hplain d hd]
        · simp [not_isDelimiter_of_whitespace (hws d hd)]
      have hstops : ∀ d ∈ (e :: rest).head?, (!isDelimiter d) = false := by
        intro d hd
        cases hd
        simp [he]
      have hskip : skip (fun d => !isDelimiter d) text start stop =
          if start + (c :: inner ++ ws).length ≤ stop then start + (c :: inner ++ ws).length
          else max start stop := skip_eq hbefore hskipped hstops
      simp only [List.cons_append, List.take_succ_cons, hopen, hquote, Bool.false_eq_true,
        if_false, hskip, List.length_cons, List.length_append]
      by_cases hall : start + (inner.length + ws.length + 1) ≤ stop
      · rw [if_pos hall]
        by_cases hbefore : start + (inner.length + ws.length + 1) < stop
        · rw [if_pos hbefore]
          exact .inl (by omega)
        · exact .inr (if_neg hbefore)
      · rw [if_neg hall]
        exact .inr (if_neg (by omega))

/-! ## JSON -/

mutual

/-- What `json.dumps` writes: no bytes, and the keys are strings. -/
def Data.isJson : Data → Bool
  | .atom _ | .str _ => true
  | .bytes _ => false
  | .list items | .tuple items => itemsJson items
  | .dict entries => entriesJson entries

def itemsJson : List Data → Bool
  | [] => true
  | item :: items => item.isJson && itemsJson items

def entriesJson : List (Data × Data) → Bool
  | [] => true
  | (.str _, value) :: entries => value.isJson && entriesJson entries
  | _ :: _ => false

end

/-- A JSON value has a bracket or a quote at its start, or no delimiter. -/
theorem isDelimited_json (ensureAscii : Bool) (layout : Layout) (depth : Nat) {value : Data}
    (hjson : value.isJson = true) :
    isDelimited (render (jsonStyle ensureAscii layout) depth value) = true := by
  cases value with
  | atom a =>
      have hall : ∀ c ∈ a.text, isDelimiter c = false := by
        intro c hc
        obtain ⟨c', rfl, hplain⟩ := a.plain c hc
        rcases hplain with h | rfl | rfl | rfl
        · have hne := alphanum_ne h
          simp only [List.mem_cons, List.not_mem_nil, or_false, not_or] at hne
          simp [isDelimiter, isOneOf, hne]
        · decide
        · decide
        · decide
      rw [render, isDelimited, Bool.or_eq_true]
      right
      simpa using hall
  | str t =>
      obtain ⟨quote, body, hquote, -, heq⟩ := (jsonStyle ensureAscii layout).string_quoted t
      rw [render, heq]
      simp [isDelimited, hquote]
  | bytes b => cases hjson
  | list items =>
      cases items with
      | nil => rfl
      | cons item items => rfl
  | tuple items =>
      cases items with
      | nil => rfl
      | cons item items => rfl
  | dict entries =>
      cases entries with
      | nil => rfl
      | cons entry entries => rfl

/-- **The scan stops at the delimiter after a JSON value, or at the end of the text**, wherever
the value is in the text and wherever the scan has to end. -/
theorem structuredValueEnd_json (ensureAscii : Bool) (layout : Layout) (depth : Nat) (value : Data)
    (before rest : PyText) (blanks : Blank) (delimiter : PyChar) (scanEnd : Nat)
    (hjson : value.isJson = true) (hdelimiter : isDelimiter delimiter = true) :
    let written := render (jsonStyle ensureAscii layout) depth value
    let text := before ++ (written ++ (blanks.val ++ delimiter :: rest))
    structuredValueEnd text before.length scanEnd =
        before.length + written.length + blanks.val.length ∨
      structuredValueEnd text before.length scanEnd = text.length :=
  structuredValueEnd_eq
    (valueText_render _ depth value (isDelimited_json ensureAscii layout depth hjson))
    List.drop_left blanks.property hdelimiter

/-- A list with a bracket in a string, and an object with a quote in one. -/
def sampleJson : Data :=
  .list [.str (PyText.ofString "]"), .dict [(.str (PyText.ofString "a"), .str [.char '"'])]]

theorem sampleJson_end : sampleJson.isJson = true ∧ isDelimiter (.char '}') = true ∧
    let written := render (jsonStyle true .oneLine) 1 sampleJson
    let text := PyText.ofString "\x7b\"p\": " ++
      (written ++ (Blank.space.val ++ .char '}' :: PyText.ofString "]"))
    structuredValueEnd text 6 40 = 6 + written.length + 1 ∨
      structuredValueEnd text 6 40 = text.length :=
  ⟨by decide, by decide, structuredValueEnd_json true .oneLine 1 sampleJson
    (PyText.ofString "\x7b\"p\": ") (PyText.ofString "]") .space (.char '}') 40
    (by decide) (by decide)⟩

end EarlyWarning.ErrorReporting
