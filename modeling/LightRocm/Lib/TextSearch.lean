import Mathlib.Tactic

/-!
# Searching words in a text

The first occurrence of a word, with rules for words in quotation marks: a search passes over text
without quotation marks and over every other quoted word. Decimal numerals and how they are read.
-/

namespace TextSearch

abbrev Text : Type := List Char

/-- White space, as `std::isspace` has it. -/
def isSpace (c : Char) : Bool := c.isWhitespace || c = '\x0b' || c = '\x0c'

/-- What is before the first occurrence of a word, and the text from there on. -/
def find (word : Text) : Text → Option (Text × Text)
  | [] => if word = [] then some ([], []) else none
  | c :: text =>
    if word.isPrefixOf (c :: text) then some ([], c :: text)
    else (find word text).map fun found => (c :: found.1, found.2)

/-- The word between quotation marks. -/
def quoted (word : Text) : Text := '"' :: (word ++ ['"'])

/-- A result of a search with more text before it. -/
def behind (before : Text) (found : Text × Text) : Text × Text := (before ++ found.1, found.2)

variable {word other plain text : Text} {c : Char}

theorem find_self (text : Text) (h : word ≠ []) :
    find word (word ++ text) = some ([], word ++ text) := by
  obtain ⟨w, word, rfl⟩ := List.exists_cons_of_ne_nil h
  rw [List.cons_append]
  unfold find
  rw [if_pos]
  exact List.isPrefixOf_iff_prefix.mpr ⟨text, rfl⟩

/-- A search goes on where the word does not start. -/
theorem find_cons (h : ¬ word <+: c :: text) :
    find word (c :: text) = (find word text).map (behind [c]) := by
  conv_lhs => unfold find
  rw [if_neg fun hprefix => h (List.isPrefixOf_iff_prefix.mp hprefix)]
  rfl

theorem behind_append (before before' : Text) :
    behind before ∘ behind before' = behind (before ++ before') := by
  funext found
  exact Prod.ext (List.append_assoc ..).symm rfl

/-- Nothing is found in text without the first character of the word. -/
theorem find_append (w : Char) (hplain : w ∉ plain) :
    find (w :: word) (plain ++ text) = (find (w :: word) text).map (behind plain) := by
  induction plain with
  | nil =>
    have hid : behind [] = id := rfl
    rw [hid, Option.map_id]
    rfl
  | cons c plain ih =>
    rw [List.mem_cons, not_or] at hplain
    have hstart : ¬ w :: word <+: c :: (plain ++ text) := fun h =>
      hplain.1 (List.cons_prefix_cons.mp h).1
    rw [List.cons_append, find_cons hstart, ih hplain.2, Option.map_map, behind_append]
    rfl

/-- The first occurrence of a character. -/
theorem find_char (c : Char) (hplain : c ∉ plain) (text : Text) :
    find [c] (plain ++ c :: text) = some (plain, c :: text) := by
  rw [find_append c hplain]
  have hhere : find [c] (c :: text) = some ([], c :: text) := find_self text (List.cons_ne_nil c [])
  rw [hhere]
  simp [behind]

/-- A search for a quoted word passes over text without quotation marks. -/
theorem find_plain (hplain : '"' ∉ plain) :
    find (quoted word) (plain ++ text) = (find (quoted word) text).map (behind plain) :=
  find_append '"' hplain

/-- It passes over a quotation mark before another character than the word's first. -/
theorem find_quote (hword : word.head? ≠ some c) (hne : word ≠ []) :
    find (quoted word) ('"' :: c :: text) = (find (quoted word) (c :: text)).map (behind ['"']) :=
      by
  obtain ⟨w, word, rfl⟩ := List.exists_cons_of_ne_nil hne
  refine find_cons fun h => hword ?_
  rw [(List.cons_prefix_cons.mp (List.cons_prefix_cons.mp h).2).1]
  rfl

/-- The first quotation mark ends a word. -/
theorem eq_of_quote {text' : Text} (hword : '"' ∉ word) (hother : '"' ∉ other)
    (h : word ++ '"' :: text = other ++ '"' :: text') : word = other := by
  have hwhile : ∀ plain rest : Text, '"' ∉ plain →
      (plain ++ '"' :: rest).takeWhile (· ≠ '"') = plain := by
    intro plain rest hplain
    rw [List.takeWhile_append_of_pos, List.takeWhile_cons_of_neg (by simp), List.append_nil]
    intro c hc
    exact decide_eq_true fun heq => hplain (heq ▸ hc)
  rw [← hwhile word text hword, h, hwhile other text' hother]

/-- It passes over another word up to the quotation mark that ends it. -/
theorem find_other (hne : word ≠ other) (hword : '"' ∉ word) (hother : '"' ∉ other) :
    find (quoted word) ('"' :: (other ++ '"' :: text)) =
      (find (quoted word) ('"' :: text)).map (behind ('"' :: other)) := by
  have hstart : ¬ quoted word <+: '"' :: (other ++ '"' :: text) := by
    intro h
    obtain ⟨rest, hrest⟩ := (List.cons_prefix_cons.mp h).2
    rw [List.append_assoc] at hrest
    exact hne (eq_of_quote hword hother hrest)
  rw [find_cons hstart, find_plain hother, Option.map_map, behind_append]
  rfl

/-- A search for the quoted word passes over a piece of text. -/
def Skips (word piece : Text) : Prop :=
  ∀ text, find (quoted word) (piece ++ text) = (find (quoted word) text).map (behind piece)

namespace Skips

variable {piece piece' : Text}

theorem append (h : Skips word piece) (h' : Skips word piece') : Skips word (piece ++ piece') := by
  intro text
  rw [List.append_assoc, h, h', Option.map_map, behind_append]

theorem unquoted (h : '"' ∉ piece) : Skips word piece := fun _ => find_plain h

/-- Another quoted word and the character behind it. -/
theorem quoted_append (hother : '"' ∉ other) (hword : '"' ∉ word) (hne : word ≠ other)
    (hnil : word ≠ []) (hstart : word.head? ≠ some c) (hc : c ≠ '"') :
    Skips word (quoted other ++ [c]) := by
  intro text
  have hplain : '"' ∉ [c] := by
    rw [List.mem_singleton]
    exact hc.symm
  have hsplit : quoted other ++ [c] ++ text = '"' :: (other ++ '"' :: (c :: text)) := by
    simp [quoted]
  rw [hsplit, find_other hne hword hother, find_quote hstart hnil, show c :: text = [c] ++ text from
    rfl, find_plain hplain, Option.map_map, Option.map_map, behind_append, behind_append]
  simp [quoted]

theorem flatMap {α : Type} {pieces : List α} {f : α → Text}
    (h : ∀ piece ∈ pieces, Skips word (f piece)) : Skips word (pieces.flatMap f) := by
  induction pieces with
  | nil => exact unquoted (by simp)
  | cons a pieces ih =>
    rw [List.flatMap_cons]
    exact (h a List.mem_cons_self).append (ih fun b hb => h b (List.mem_cons_of_mem _ hb))

/-- The word behind what is passed over. -/
theorem find_quoted (h : Skips word piece) (text : Text) :
    find (quoted word) (piece ++ (quoted word ++ text)) = some (piece, quoted word ++ text) := by
  have hne : quoted word ≠ [] := List.cons_ne_nil _ _
  rw [h, find_self text hne]
  simp [behind]

end Skips

/-! ## Numerals -/

/-- The decimal digits of a number. -/
def digits (n : ℕ) : Text := Nat.toDigits 10 n

/-- Reads digits up to the first other character; nothing if the number exceeds the limit. -/
def scanDigits (limit value : ℕ) : Text → Option ℕ
  | [] => some value
  | c :: text =>
    if c.isDigit then
      let next := value * 10 + (c.toNat - '0'.toNat)
      if limit < next then none else scanDigits limit next text
    else some value

theorem le_ofDigitChars (text : Text) : ∀ value, value ≤ Nat.ofDigitChars 10 text value := by
  induction text with
  | nil => exact fun value => le_rfl
  | cons c text ih =>
    intro value
    rw [Nat.ofDigitChars_cons]
    exact le_trans (by omega) (ih _)

theorem scanDigits_append {limit : ℕ} {numeral rest : Text}
    (hrest : ∀ c ∈ rest.head?, c.isDigit = false) :
    ∀ {value : ℕ}, (∀ d ∈ numeral, d.isDigit = true) → Nat.ofDigitChars 10 numeral value ≤ limit →
      scanDigits limit value (numeral ++ rest) = some (Nat.ofDigitChars 10 numeral value) := by
  induction numeral with
  | nil =>
    intro value _ _
    rw [List.nil_append]
    unfold scanDigits
    cases rest with
    | nil => rfl
    | cons c rest =>
      dsimp only
      rw [if_neg (Bool.eq_false_iff.mp (hrest c rfl))]
      rfl
  | cons d numeral ih =>
    intro value hdigits hlimit
    rw [Nat.ofDigitChars_cons, Nat.mul_comm] at hlimit ⊢
    have hle := (le_ofDigitChars numeral _).trans hlimit
    rw [List.cons_append]
    unfold scanDigits
    rw [if_pos (hdigits d List.mem_cons_self)]
    dsimp only
    rw [if_neg (Nat.not_lt.mpr hle)]
    exact ih (fun other hmem => hdigits other (List.mem_cons_of_mem _ hmem)) hlimit

theorem isDigit_of_mem_digits {n : ℕ} (h : c ∈ digits n) : c.isDigit = true :=
  Nat.isDigit_of_mem_toDigits (by decide) le_rfl h

/-- A printed number is read back. -/
theorem scanDigits_digits {limit n : ℕ} {rest : Text} (hn : n ≤ limit)
    (hrest : ∀ c ∈ rest.head?, c.isDigit = false) :
    scanDigits limit 0 (digits n ++ rest) = some n := by
  have hvalue : Nat.ofDigitChars 10 (digits n) 0 = n := Nat.ofDigitChars_toDigits (by decide) le_rfl
  rw [scanDigits_append hrest (fun d => isDigit_of_mem_digits) (hvalue.trans_le hn), hvalue]

/-- A printed number starts with a digit. -/
theorem digits_eq_cons (n : ℕ) : ∃ d rest, digits n = d :: rest ∧ d.isDigit = true := by
  obtain ⟨d, rest, h⟩ := List.exists_cons_of_ne_nil (@Nat.toDigits_ne_nil n 10)
  exact ⟨d, rest, h, isDigit_of_mem_digits (h ▸ List.mem_cons_self)⟩

theorem quote_notMem_digits (n : ℕ) : '"' ∉ digits n := fun h =>
  absurd (isDigit_of_mem_digits h) (by decide)

end TextSearch
