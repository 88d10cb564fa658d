/-
# `Lib.JsonObject` — a flat dictionary, with the separators of `dumps`

`dumps(obj, ensure_ascii=False)` writes a blank after each comma and each colon.  Here `obj` is a
dictionary that has no list and no dictionary in it; its values are written as `Json.dumps` writes
them.

`loads_dumpObject`: what is written is read back.
-/
import EarlyWarning.Lib.JsonRoundTrip

namespace Lib.Json

variable {φ : Type}

/-- A key, its colon and its value. -/
def dumpEntry (floats : Floats φ) (field : PyText × Json φ) : PyText :=
  dumpString field.1 ++ .char ':' :: .char ' ' :: dumps floats field.2

/-- The other fields of the dictionary. -/
def dumpEntries (floats : Floats φ) : List (PyText × Json φ) → PyText
  | [] => [.char '}']
  | field :: fields =>
      .char ',' :: .char ' ' :: (dumpEntry floats field ++ dumpEntries floats fields)

def dumpObject (floats : Floats φ) : List (PyText × Json φ) → PyText
  | [] => PyText.ofString "\x7b\x7d"
  | field :: fields => .char '{' :: (dumpEntry floats field ++ dumpEntries floats fields)

variable {floats : Floats φ} {depth : Nat} {scan : PyText → Scan (Json φ)}
  {field : PyText × Json φ} {fields : List (PyText × Json φ)}

theorem skipBlanks_blank (cs : PyText) : skipBlanks (.char ' ' :: cs) = skipBlanks cs := rfl

theorem skipBlanks_dumpEntry (floats : Floats φ) (field : PyText × Json φ) (rest : PyText) :
    skipBlanks (dumpEntry floats field ++ rest) = dumpEntry floats field ++ rest := rfl

theorem scanField_dumpEntry (h : ReadBack floats scan field.2) {rest : PyText}
    (hstops : Stops rest) :
    scanField scan (dumpEntry floats field ++ rest) = .ok (field, rest) := by
  have htext : dumpEntry floats field ++ rest = .char '"' :: (field.1.flatMap dumpChar ++
      .char '"' :: .char ':' :: .char ' ' :: (dumps floats field.2 ++ rest)) := by
    simp only [dumpEntry, dumpString, List.cons_append, List.append_assoc, List.nil_append]
  rw [htext]
  simp only [scanField, scanString_dumpString]
  show Except.map _ (scan (skipBlanks _)) = _
  rw [skipBlanks_blank, (h.1.append _).skipBlanks, h.2 rest hstops]
  rfl

theorem scanFields_dumpEntries (rest : PyText) : ∀ (field : PyText × Json φ) (fuel : Nat),
    fields.length < fuel → (∀ f ∈ field :: fields, ReadBack floats scan f.2) →
    scanFields scan fuel (dumpEntry floats field ++ (dumpEntries floats fields ++ rest)) =
      .ok (field :: fields, rest) := by
  induction fields with
  | nil =>
      intro field fuel hfuel h
      obtain ⟨fuel, rfl⟩ := Nat.exists_eq_add_one_of_ne_zero (Nat.ne_zero_of_lt hfuel)
      have hfield := scanField_dumpEntry (h field List.mem_cons_self)
        (stops_cons (by simp) : Stops (.char '}' :: rest))
      rw [dumpEntries, List.singleton_append, scanFields, hfield]
      rfl
  | cons next fields ih =>
      intro field fuel hfuel h
      obtain ⟨fuel, rfl⟩ := Nat.exists_eq_add_one_of_ne_zero (Nat.ne_zero_of_lt hfuel)
      have hfield := scanField_dumpEntry (h field List.mem_cons_self)
        (stops_cons (by simp) : Stops (.char ',' :: .char ' ' ::
          (dumpEntry floats next ++ (dumpEntries floats fields ++ rest))))
      have hrest := ih next fuel (Nat.lt_of_succ_lt_succ hfuel) fun f hf =>
        h f (List.mem_cons_of_mem _ hf)
      rw [dumpEntries, List.cons_append, List.cons_append, List.append_assoc, scanFields, hfield]
      show Except.map _ (scanFields scan fuel (skipBlanks _)) = _
      rw [skipBlanks_blank, skipBlanks_dumpEntry, hrest]
      rfl

theorem length_lt_dumpEntries (floats : Floats φ) (fields : List (PyText × Json φ)) :
    fields.length < (dumpEntries floats fields).length := by
  induction fields with
  | nil => exact Nat.zero_lt_one
  | cons field fields ih =>
      simp only [dumpEntries, List.length_cons, List.length_append]
      omega

theorem scanOnce_dumpObject (hkeys : (fields.map Prod.fst).Nodup)
    (h : ∀ field ∈ fields, Plain depth field.2) (rest : PyText) :
    scanOnce floats (depth + 1) (dumpObject floats fields ++ rest) = .ok (.dict fields, rest) := by
  cases fields with
  | nil => rfl
  | cons field fields =>
      have hread : ∀ f ∈ field :: fields, ReadBack floats (scanOnce floats depth) f.2 :=
        fun f hf => ⟨starts_dumps floats (h f hf), scanOnce_dumps floats (h f hf)⟩
      have hlength := length_lt_dumpEntries floats fields
      have hfields := scanFields_dumpEntries rest field
        (dumpEntry floats field ++ (dumpEntries floats fields ++ rest)).length
        (by simp only [List.length_append]; omega) hread
      rw [dumpObject, List.cons_append, List.append_assoc]
      simp only [scanOnce, skipBlanks_dumpEntry]
      split
      case h_1 heq => cases heq
      case h_2 =>
        rw [hfields]
        show Except.ok (ofPairs _, rest) = _
        rw [ofPairs_of_nodup hkeys]

/-- **The round trip.** -/
theorem loads_dumpObject (floats : Floats φ) (hkeys : (fields.map Prod.fst).Nodup)
    (h : ∀ field ∈ fields, Plain depth field.2) :
    loads floats (depth + 1) (dumpObject floats fields) = .ok (.dict fields) := by
  have hhead : (dumpObject floats fields).head? = some (.char '{') := by cases fields <;> rfl
  have hskip : skipBlanks (dumpObject floats fields) = dumpObject floats fields := by
    cases fields <;> rfl
  have hscan : scanOnce floats (depth + 1) (dumpObject floats fields ++ []) =
    .ok (.dict fields, []) := scanOnce_dumpObject hkeys h []
  rw [List.append_nil] at hscan
  rw [loads, hhead, if_neg (by simp), hskip, hscan]
  rfl

/-! ## The text of a dictionary -/

theorem isText_dumpEntry (h : IsText field.1 ∧ Textual field.2) :
    IsText (dumpEntry floats field) :=
  IsText.append (isText_dumpString h.1)
    (IsText.cons (IsText.cons (isText_dumps floats h.2) ' ') ':')

theorem isText_dumpEntries (h : ∀ field ∈ fields, IsText field.1 ∧ Textual field.2) :
    IsText (dumpEntries floats fields) := by
  induction fields with
  | nil => exact IsText.cons (by rintro c ⟨⟩) '}'
  | cons field fields ih =>
      obtain ⟨hfield, hrest⟩ := List.forall_mem_cons.mp h
      exact IsText.cons (IsText.cons (IsText.append (isText_dumpEntry hfield) (ih hrest)) ' ') ','

theorem isText_dumpObject (floats : Floats φ)
    (h : ∀ field ∈ fields, IsText field.1 ∧ Textual field.2) :
    IsText (dumpObject floats fields) := by
  cases fields with
  | nil => exact isText_ofString _
  | cons field fields =>
      obtain ⟨hfield, hrest⟩ := List.forall_mem_cons.mp h
      exact IsText.cons (IsText.append (isText_dumpEntry hfield) (isText_dumpEntries hrest)) '{'

end Lib.Json
