import LightRocm.Qwen.ManifestFields

/-!
# Weight bundles are read back

The manifest that the writer prints is a header and the entries of the tensors, whose offsets are
the sizes of the data before them. The loader finds each tensor's entry and no other one, reads
its offset and count, and copies the bytes that were written.
-/

namespace LightRocm.Qwen

open TextSearch

/-! ## Entries -/

/-- An entry of the manifest. -/
structure Entry where
  tensor : Tensor
  offset : ℕ
  count : ℕ

namespace Entry

/-- The text of the entry. -/
def text (entry : Entry) : Text := entryText entry.tensor.name entry.offset entry.count

/-- What follows the word `name` in it, up to the closing brace. -/
def rest (entry : Entry) : Text :=
  ':' :: (quoted entry.tensor.name.toList ++ (',' :: (quoted "offset".toList ++
    (':' :: (digits entry.offset ++ (',' :: (quoted "count".toList ++
      (':' :: digits entry.count))))))))

theorem text_eq (entry : Entry) :
    entry.text = "    \x7b".toList ++ (quoted "name".toList ++ (entry.rest ++ ['\x7d'])) := by
  simp [text, rest, entryText]

end Entry

/-- The names of tensors are plain words, and none of the words that are searched for. -/
theorem Tensor.name_plain (tensor : Tensor) :
    '"' ∉ tensor.name.toList ∧ '\x7d' ∉ tensor.name.toList ∧
      ∀ word ∈ ["name", "offset", "count"], word.toList ≠ tensor.name.toList := by
  cases tensor <;> decide

theorem isWord_of_mem : ∀ word ∈ ["name", "offset", "count"], IsWord word.toList := by decide

/-- A search for a word of an entry passes over the name of its tensor. -/
theorem skips_name (tensor : Tensor) {word : String} (hword : word ∈ ["name", "offset", "count"]) :
    Skips word.toList (quoted tensor.name.toList ++ [',']) :=
  (isWord_of_mem word hword).skips tensor.name_plain.1 (tensor.name_plain.2.2 word hword) (.inr rfl)

/-- A search for the next entry passes over the rest of an entry. -/
theorem Entry.skips_rest (entry : Entry) : Skips "name".toList (entry.rest ++ ['\x7d']) := by
  have hsplit : entry.rest ++ ['\x7d'] = [':'] ++ (quoted entry.tensor.name.toList ++ [','] ++
      (quoted "offset".toList ++ [':'] ++ (digits entry.offset ++ [','] ++
        (quoted "count".toList ++ [':'] ++ (digits entry.count ++ ['\x7d']))))) := by
    simp [rest]
  have hword : IsWord "name".toList := by decide
  have hdigits (n : ℕ) (c : Char) (hc : '"' ≠ c) : Skips "name".toList (digits n ++ [c]) := by
    refine .unquoted ?_
    simp [quote_notMem_digits, hc]
  rw [hsplit]
  refine .append (.unquoted (by decide)) (.append (skips_name _ (by decide)) (.append ?_
    (.append (hdigits _ _ (by decide)) (.append ?_ (hdigits _ _ (by decide))))))
  · exact hword.skips (by decide) (by decide) (.inl rfl)
  · exact hword.skips (by decide) (by decide) (.inl rfl)

/-- The name behind an occurrence of the word `name` in an entry. -/
theorem tensorNameAt_rest (entry : Entry) (text : Text) (name : String) :
    tensorNameAt (entry.rest ++ text) name = decide (entry.tensor.name = name) := by
  have hrest : entry.rest ++ text = [] ++ ':' :: ('"' :: (entry.tensor.name.toList ++ '"' :: (',' ::
      (quoted "offset".toList ++ (':' :: (digits entry.offset ++ (',' :: (quoted "count".toList ++
        (':' :: (digits entry.count ++ text)))))))))) := by
    simp [Entry.rest, quoted]
  unfold tensorNameAt
  rw [hrest, find_char ':' List.not_mem_nil]
  simp only [List.drop_one, List.tail_cons]
  rw [skipWs, List.dropWhile_cons_of_neg (by decide)]
  simp only
  rw [find_char '"' entry.tensor.name_plain.1]
  simp [String.toList_inj]

/-! ## Occurrences of a word -/

section Occurrences

variable {word skip : Text}

theorem occurrences_skips (h : Skips word skip) (fuel : ℕ) (before text : Text) :
    occurrences (quoted word) fuel before (skip ++ text) =
      occurrences (quoted word) fuel (before ++ skip) text := by
  cases fuel with
  | zero => rfl
  | succ fuel =>
    unfold occurrences
    rw [h]
    cases find (quoted word) text with
    | none => rfl
    | some found => simp [behind]

theorem occurrences_found (h : Skips word skip) (fuel : ℕ) (before text : Text) :
    occurrences (quoted word) (fuel + 1) before (skip ++ (quoted word ++ text)) =
      (before ++ skip, quoted word ++ text) ::
        occurrences (quoted word) fuel (before ++ (skip ++ quoted word)) text := by
  conv_lhs => unfold occurrences
  rw [h.find_quoted]
  simp only [List.drop_left]

end Occurrences

/-- The occurrences of the word `name` that `tensor_bounds` counts. -/
def candidates (name : String) (fuel : ℕ) (before text : Text) : List (Text × Text) :=
  (occurrences (quoted "name".toList) fuel before text).filter
    fun occurrence => tensorNameAt (occurrence.2.drop 6) name

theorem candidates_skips {skip : Text} (h : Skips "name".toList skip) (name : String) (fuel : ℕ)
    (before text : Text) :
    candidates name fuel before (skip ++ text) = candidates name fuel (before ++ skip) text := by
  unfold candidates
  rw [occurrences_skips h]

/-- An entry gives its own tensor. -/
theorem candidates_entry {skip : Text} (hskip : '"' ∉ skip) (entry : Entry) (name : String)
    (fuel : ℕ) (before text : Text) :
    candidates name (fuel + 1) before (skip ++ (entry.text ++ text)) =
      (if entry.tensor.name = name then [(before ++ (skip ++ "    \x7b".toList),
        quoted "name".toList ++ (entry.rest ++ '\x7d' :: text))] else []) ++
      candidates name fuel (before ++ (skip ++ entry.text)) text := by
  have hsplit : skip ++ (entry.text ++ text) = (skip ++ "    \x7b".toList) ++
      (quoted "name".toList ++ (entry.rest ++ ['\x7d'] ++ text)) := by
    simp [Entry.text_eq]
  have hskips : Skips "name".toList (skip ++ "    \x7b".toList) :=
    .append (.unquoted hskip) (.unquoted (by decide))
  have hdrop : (quoted "name".toList ++ (entry.rest ++ ['\x7d'] ++ text)).drop 6 =
      entry.rest ++ ['\x7d'] ++ text := rfl
  unfold candidates
  rw [hsplit, occurrences_found hskips, List.filter_cons]
  simp only
  rw [hdrop, List.append_assoc, tensorNameAt_rest, ← List.append_assoc entry.rest,
    occurrences_skips entry.skips_rest]
  by_cases heq : entry.tensor.name = name <;> simp [heq, Entry.text_eq]

/-- The entries of a manifest, with what separates them. -/
def entriesText : Bool → List Entry → Text
  | _, [] => []
  | first, entry :: entries =>
    (if first then [] else [',', '\n']) ++ (entry.text ++ entriesText false entries)

theorem entriesText_cons (first : Bool) (entry : Entry) (entries : List Entry) :
    entriesText first (entry :: entries) =
      (if first then [] else [',', '\n']) ++ (entry.text ++ entriesText false entries) := rfl

theorem entriesText_append (first : Bool) (entries entries' : List Entry) :
    entriesText first (entries ++ entries') =
      entriesText first entries ++ entriesText (first && entries.isEmpty) entries' := by
  induction entries generalizing first with
  | nil => simp [entriesText]
  | cons entry entries ih => simp [entriesText, ih]

theorem quote_notMem_separator (first : Bool) :
    '"' ∉ (if first then [] else [',', '\n'] : Text) := by
  cases first <;> decide

/-- Entries of other tensors are passed over. -/
theorem candidates_entries {name : String} {entries : List Entry}
    (hother : ∀ entry ∈ entries, entry.tensor.name ≠ name) (first : Bool) (fuel : ℕ)
    (before text : Text) :
    candidates name (fuel + entries.length) before (entriesText first entries ++ text) =
      candidates name fuel (before ++ entriesText first entries) text := by
  induction entries generalizing first before with
  | nil => simp [entriesText]
  | cons entry entries ih =>
    have hhead := hother entry List.mem_cons_self
    have htail := ih fun entry' hmem => hother entry' (List.mem_cons_of_mem _ hmem)
    rw [entriesText_cons, List.append_assoc, List.append_assoc, List.length_cons, ← Nat.add_assoc,
      candidates_entry (quote_notMem_separator first), if_neg hhead, List.nil_append, htail]
    simp only [List.append_assoc]

/-- Nothing is found behind the entries. -/
theorem candidates_plain {text : Text} (h : '"' ∉ text) (name : String) (fuel : ℕ) (before : Text) :
    candidates name fuel before text = [] := by
  have hnone : find (quoted "name".toList) [] = none := rfl
  have hfind : find (quoted "name".toList) text = none := by
    rw [← List.append_nil text, find_plain h, hnone]
    rfl
  unfold candidates
  cases fuel with
  | zero => rfl
  | succ fuel =>
    unfold occurrences
    rw [hfind]
    rfl

/-! ## The entry of a tensor -/

section Header

variable {shape : DecoderLayerShape} {dataFileName rope : Text}

/-- A search for the word `name` passes over fields that do not hold it. -/
theorem skips_fields (hname : '"' ∉ dataFileName) (hrope : '"' ∉ rope)
    {some : List (String × Text)} (hsome : some ⊆ fields shape dataFileName rope)
    (hdata : "data" ∈ some.map Prod.fst → "name".toList ≠ dataFileName) :
    Skips "name".toList (some.flatMap line) := by
  refine .flatMap fun field hmem => Passed.skips ?_ (by decide)
  have hnames : ∀ name ∈ fieldNames, "name".toList ≠ name.toList := by decide
  refine passed_of_mem hname hrope (by decide) (by decide) (hsome hmem) ?_ ?_
  · exact fun heq => hdata (heq ▸ List.mem_map_of_mem hmem)
  · exact hnames _ (map_fst_fields ▸ List.mem_map_of_mem (hsome hmem))

theorem skips_tensors : Skips "name".toList
    ("  ".toList ++ (quoted "tensors".toList ++ [':'] ++ " [\n".toList)) := by
  have hword : IsWord "name".toList := by decide
  refine .append (.unquoted (by decide)) (.append ?_ (.unquoted (by decide)))
  exact hword.skips (by decide) (by decide) (.inl rfl)

/-- The field that follows the name of the data file is no name of a tensor. -/
theorem tensorNameAt_keys (n : ℕ) (rest : Text) (name : String) :
    tensorNameAt (",\n  ".toList ++ quoted "keys".toList ++ ':' :: (' ' :: (digits n ++ rest)))
      name =
      false := by
  obtain ⟨d, tail, hdigits, hd⟩ := digits_eq_cons n
  have hne : d ≠ '"' := by
    rintro rfl
    cases hd
  unfold tensorNameAt
  rw [find_char ':' (by decide)]
  simp only [List.drop_one, List.tail_cons]
  rw [skipWs_blank_digits, hdigits]
  split
  · next heq => exact absurd (List.cons.inj heq).1 hne
  · rfl

/-- The header gives no tensor, even if the data file is called `name`. -/
theorem candidates_header (hname : '"' ∉ dataFileName) (hrope : '"' ∉ rope) (name : String)
    (fuel : ℕ) (text : Text) : ∃ fuel', fuel ≤ fuel' ∧
      candidates name (fuel + 1) [] (header shape dataFileName rope ++ text) =
        candidates name fuel' (header shape dataFileName rope) text := by
  by_cases heq : "name".toList = dataFileName
  · subst heq
    refine ⟨fuel, le_refl fuel, ?_⟩
    -- The header up to the name of the data file, and from there on.
    let before : Text := "\x7b\n".toList ++ 
      (((fields shape "name".toList rope).take 3).flatMap line ++
      ("  ".toList ++ (quoted "data".toList ++ [':'] ++ [' '])))
    let after : Text := ",\n".toList ++ (((fields shape "name".toList rope).drop 4).flatMap line ++
      ("  ".toList ++ (quoted "tensors".toList ++ [':'] ++ " [\n".toList)))
    have hbefore : Skips "name".toList before := by
      have hword : IsWord "name".toList := by decide
      have hnot : "data" ∉ ["format", "version", "dtype"] := by decide
      refine .append (.unquoted (by decide)) (.append ?_ (.append (.unquoted (by decide))
        (.append (hword.skips (by decide) (by decide) (.inl rfl)) (.unquoted (by decide)))))
      exact skips_fields hname hrope (List.take_subset _ _) fun h => absurd h hnot
    have hafter : Skips "name".toList after := by
      have hnot : "data" ∉ fieldNames.drop 4 := by decide
      refine .append (.unquoted (by decide)) (.append ?_ skips_tensors)
      exact skips_fields hname hrope (List.drop_subset _ _) fun h => absurd h hnot
    have hsplit : header shape "name".toList rope = before ++ (quoted "name".toList ++ after) := by
      simp [before, after, header, fields, line]
    have hkeys : ∃ rest, after ++ text = ",\n  ".toList ++ quoted "keys".toList ++
        ':' :: (' ' :: (digits shape.keys.toNat ++ rest)) :=
      ⟨_, by simp [after, fields, line]; rfl⟩
    have hat : tensorNameAt (after ++ text) name = false := by
      obtain ⟨rest, hrest⟩ := hkeys
      rw [hrest, tensorNameAt_keys]
    have hdrop : (quoted "name".toList ++ (after ++ text)).drop 6 = after ++ text := rfl
    clear_value before after
    rw [hsplit, List.append_assoc, List.append_assoc]
    unfold candidates
    rw [occurrences_found hbefore, List.filter_cons, hdrop, hat, if_neg Bool.false_ne_true,
      occurrences_skips hafter]
    simp only [List.nil_append, List.append_assoc]
  · refine ⟨fuel + 1, Nat.le_succ fuel, ?_⟩
    have hbrace : Skips "name".toList "\x7b\n".toList := .unquoted (by decide)
    have hfields := skips_fields hname hrope
      (List.Subset.refl (fields shape dataFileName rope)) fun _ => heq
    have hheader := hbrace.append (hfields.append skips_tensors)
    exact candidates_skips hheader name (fuel + 1) [] text

/-- The manifest with these entries. -/
def manifestText (shape : DecoderLayerShape) (dataFileName rope : Text) (entries : List Entry) :
    Text :=
  header shape dataFileName rope ++ (entriesText true entries ++ "\n  ]\n\x7d\n".toList)

theorem length_le_entriesText (first : Bool) (entries : List Entry) :
    entries.length ≤ (entriesText first entries).length := by
  induction entries generalizing first with
  | nil => exact Nat.zero_le _
  | cons entry entries ih =>
    have htail := ih false
    have htext : 0 < entry.text.length := by
      rw [Entry.text_eq, List.length_append]
      exact Nat.add_pos_left (by decide) _
    simp only [entriesText, List.length_append, List.length_cons]
    omega

/-- A tensor with one entry has one candidate, which starts its object. -/
theorem candidates_manifest (hname : '"' ∉ dataFileName) (hrope : '"' ∉ rope)
    {entries entries' : List Entry} {entry : Entry} {fuel : ℕ}
    (hother : ∀ entry' ∈ entries ++ entries', entry'.tensor.name ≠ entry.tensor.name)
    (hfuel : entries.length + entries'.length + 1 ≤ fuel) :
    ∃ before text, candidates entry.tensor.name (fuel + 1) []
        (manifestText shape dataFileName rope (entries ++ entry :: entries')) =
      [(before ++ ['\x7b'], quoted "name".toList ++ (entry.rest ++ '\x7d' :: text))] := by
  have hbefore := fun entry' hmem => hother entry' (List.mem_append_left entries' hmem)
  have hbehind := fun entry' hmem => hother entry' (List.mem_append_right entries hmem)
  have hclose : '"' ∉ "\n  ]\n\x7d\n".toList := by decide
  unfold manifestText
  obtain ⟨fuel', hle, hheader⟩ := @candidates_header shape dataFileName rope hname hrope
    entry.tensor.name fuel
    (entriesText true (entries ++ entry :: entries') ++ "\n  ]\n\x7d\n".toList)
  obtain ⟨k, rfl⟩ : ∃ k, fuel' = k + entries'.length + 1 + entries.length :=
    ⟨fuel' - (entries.length + entries'.length + 1), by omega⟩
  rw [hheader, entriesText_append, List.append_assoc, candidates_entries hbefore, entriesText_cons,
    List.append_assoc, List.append_assoc, candidates_entry (quote_notMem_separator _), if_pos rfl,
    candidates_entries hbehind, candidates_plain hclose, List.append_nil]
  have hspaces : "    \x7b".toList = "    ".toList ++ ['\x7b'] := rfl
  refine ⟨header shape dataFileName rope ++ entriesText true entries ++
    ((if (true && entries.isEmpty) = true then [] else [',', '\n']) ++ "    ".toList),
    entriesText false entries' ++ "\n  ]\n\x7d\n".toList, ?_⟩
  simp only [hspaces, List.append_assoc]

/-- The object of a tensor. -/
theorem tensorBounds_eq (hname : '"' ∉ dataFileName) (hrope : '"' ∉ rope)
    {entries entries' : List Entry} {entry : Entry}
    (hother : ∀ entry' ∈ entries ++ entries', entry'.tensor.name ≠ entry.tensor.name) :
    ∃ text, tensorBounds (manifestText shape dataFileName rope (entries ++ entry :: entries'))
        entry.tensor.name =
      .ok ('\x7b' :: (quoted "name".toList ++ (entry.rest ++ '\x7d' :: text)),
        1 + (quoted "name".toList ++ entry.rest).length) := by
  obtain ⟨fuel, hfuel, hlength⟩ : ∃ fuel, entries.length + entries'.length + 1 ≤ fuel ∧
      (manifestText shape dataFileName rope (entries ++ entry :: entries')).length = fuel + 1 := by
    have hentries := length_le_entriesText true (entries ++ entry :: entries')
    have hclose : ("\n  ]\n\x7d\n".toList).length = 7 := by decide
    simp only [List.length_append, List.length_cons] at hentries
    unfold manifestText
    simp only [List.length_append, hclose]
    exact ⟨(header shape dataFileName rope).length +
      ((entriesText true (entries ++ entry :: entries')).length + 6), by omega, by omega⟩
  obtain ⟨before, text, hcandidates⟩ :=
    @candidates_manifest shape _ _ hname hrope _ _ _ _ hother hfuel
  have hbrace : '\x7d' ∉ quoted "name".toList ++ entry.rest := by
    have hdigits (n : ℕ) : '\x7d' ∉ digits n := fun h =>
      absurd (isDigit_of_mem_digits h) (by decide)
    have htensor := entry.tensor.name_plain.2.1
    simp [Entry.rest, quoted, hdigits, htensor]
  unfold candidates at hcandidates
  unfold tensorBounds
  rw [hlength, hcandidates]
  simp only
  rw [← List.append_assoc, find_char '\x7d' hbrace]
  refine ⟨text, ?_⟩
  simp

end Header

/-! ## Numbers of an entry -/

/-- The number of a field of an object is read, if it ends before the object does. -/
theorem readU64Field_of_skips {field tensorName : String} {before rest : Text} {n stop : ℕ}
    {c : Char}
    (hskips : Skips field.toList before) (hn : n ≤ sizeMax) (hc : c.isDigit = false)
    (hstop : (before ++ (quoted field.toList ++ (':' :: digits n))).length ≤ stop) :
    readU64Field (before ++ (quoted field.toList ++ (':' :: (digits n ++ c :: rest)))) stop field
      tensorName = .ok n := by
  simp only [List.length_append, List.length_cons] at hstop
  have hdrop (text : Text) :
      (before ++ (quoted field.toList ++ text)).drop (before.length + (quoted field.toList).length) =
        text := by
    rw [← List.append_assoc, ← List.length_append, List.drop_left]
  have hcolon (text : Text) : find [':'] (':' :: text) = some ([], ':' :: text) :=
    find_char ':' List.not_mem_nil text
  obtain ⟨d, tail, hdigits, hd⟩ := digits_eq_cons n
  unfold readU64Field
  rw [hskips.find_quoted]
  simp only
  rw [if_neg (by omega), hdrop, hcolon]
  simp only [List.length_nil, Nat.add_zero, List.drop_one, List.tail_cons]
  rw [if_neg (by omega), skipWs_digits]
  have hinside : ∃ rest', (digits n ++ c :: rest).take (stop -
      ((before ++ (quoted field.toList ++ ':' :: (digits n ++ c :: rest))).length -
        (digits n ++ c :: rest).length)) = digits n ++ rest' ∧
      ∀ c ∈ rest'.head?, c.isDigit = false := by
    have hle : (digits n).length ≤ stop -
        ((before ++ (quoted field.toList ++ ':' :: (digits n ++ c :: rest))).length -
          (digits n ++ c :: rest).length) := by
      simp only [List.length_append, List.length_cons]
      omega
    rw [List.take_append, List.take_of_length_le hle]
    refine ⟨_, rfl, fun c' hc' => ?_⟩
    rw [List.head?_take] at hc'
    split_ifs at hc'
    · cases hc'
    · cases hc'
      exact hc
  obtain ⟨rest', hinside, hrest⟩ := hinside
  rw [hinside, scanDigits_digits hn hrest]
  simp only
  rw [if_pos (by rw [hdigits]; exact hd)]

section Object

variable (entry : Entry) (text : Text) (tensorName : String)

/-- The offset in the object of an entry. -/
theorem readU64Field_offset (hoffset : entry.offset ≤ sizeMax) :
    readU64Field ('\x7b' :: (quoted "name".toList ++ (entry.rest ++ '\x7d' :: text)))
      (1 + (quoted "name".toList ++ entry.rest).length) "offset" tensorName = .ok entry.offset := by
  have hword : IsWord "offset".toList := by decide
  have hskips : Skips "offset".toList
      (['\x7b'] ++ (quoted "name".toList ++ [':'] ++ (quoted entry.tensor.name.toList ++ [',']))) :=
    .append (.unquoted (by decide)) (.append (hword.skips (by decide) (by decide) (.inl rfl))
      (skips_name entry.tensor (by decide)))
  have hsplit : '\x7b' :: (quoted "name".toList ++ (entry.rest ++ '\x7d' :: text)) =
      (['\x7b'] ++ (quoted "name".toList ++ [':'] ++ (quoted entry.tensor.name.toList ++ [',']))) ++
        (quoted "offset".toList ++ (':' :: (digits entry.offset ++ (',' ::
          (quoted "count".toList ++ (':' :: (digits entry.count ++ '\x7d' :: text))))))) := by
    simp [Entry.rest]
  rw [hsplit]
  refine readU64Field_of_skips hskips hoffset (by decide) ?_
  simp only [Entry.rest, List.length_append, List.length_cons, List.length_nil]
  omega

/-- The count in the object of an entry. -/
theorem readU64Field_count (hcount : entry.count ≤ sizeMax) :
    readU64Field ('\x7b' :: (quoted "name".toList ++ (entry.rest ++ '\x7d' :: text)))
      (1 + (quoted "name".toList ++ entry.rest).length) "count" tensorName = .ok entry.count := by
  have hword : IsWord "count".toList := by decide
  have hdigits : '"' ∉ digits entry.offset ++ [','] := by
    simp [quote_notMem_digits]
  have hskips : Skips "count".toList
      (['\x7b'] ++ (quoted "name".toList ++ [':'] ++ (quoted entry.tensor.name.toList ++ [','] ++
        (quoted "offset".toList ++ [':'] ++ (digits entry.offset ++ [',']))))) := by
    refine .append (.unquoted (by decide)) (.append ?_
      (.append (skips_name entry.tensor (by decide))
      (.append ?_ (.unquoted hdigits))))
    · exact hword.skips (by decide) (by decide) (.inl rfl)
    · exact hword.skips (by decide) (by decide) (.inl rfl)
  have hsplit : '\x7b' :: (quoted "name".toList ++ (entry.rest ++ '\x7d' :: text)) =
      (['\x7b'] ++ (quoted "name".toList ++ [':'] ++ (quoted entry.tensor.name.toList ++ [','] ++
        (quoted "offset".toList ++ [':'] ++ (digits entry.offset ++ [',']))))) ++
          (quoted "count".toList ++ (':' :: (digits entry.count ++ '\x7d' :: text))) := by
    simp [Entry.rest]
  rw [hsplit]
  refine readU64Field_of_skips hskips hcount (by decide) ?_
  simp only [Entry.rest, List.length_append, List.length_cons, List.length_nil]
  omega

end Object

/-! ## The data -/

theorem length_toBytes (values : List F32) : (toBytes values).length = values.length * 4 := by
  induction values with
  | nil => rfl
  | cons value values ih =>
    have hcons : toBytes (value :: values) = value.bytes ++ toBytes values := rfl
    rw [hcons, List.length_append, ih, List.length_cons, Nat.succ_mul, Nat.add_comm]
    rfl

/-- The bytes of a vector give the vector. -/
theorem fromBytes_toBytes (values : List F32) (rest : List UInt8) :
    fromBytes values.length (toBytes values ++ rest) = values := by
  induction values with
  | nil => rfl
  | cons value values ih =>
    have hcons : fromBytes (value :: values).length (toBytes (value :: values) ++ rest) =
        value :: fromBytes values.length (toBytes values ++ rest) := rfl
    rw [hcons, ih]

theorem checkedMultiply_of_le {left right : ℕ} (h : left * right ≤ sizeMax) (context : String) :
    checkedMultiply left right context = .ok (left * right) := by
  refine if_neg fun ⟨hne, hlt⟩ => ?_
  have hover := (Nat.div_lt_iff_lt_mul (Nat.pos_of_ne_zero hne)).mp hlt
  rw [Nat.mul_comm] at hover
  omega

theorem le_of_checkedMultiply {left right bytes : ℕ} {context : String}
    (h : checkedMultiply left right context = .ok bytes) :
    bytes = left * right ∧ bytes ≤ sizeMax := by
  unfold checkedMultiply at h
  split_ifs at h with hover
  cases h
  refine ⟨rfl, ?_⟩
  obtain rfl | hne := Nat.eq_zero_or_pos left
  · rw [Nat.zero_mul]
    exact Nat.zero_le _
  · rw [Nat.mul_comm]
    exact Nat.mul_le_of_le_div _ _ _ (Nat.not_lt.mp fun hlt => hover ⟨hne.ne', hlt⟩)

section Layout

variable (values : Tensor → List F32)

/-- The data of tensors. -/
def contents (tensors : List Tensor) : List UInt8 :=
  tensors.flatMap fun tensor => toBytes (values tensor)

/-- The entries of tensors whose data start at an offset. -/
def layout : ℕ → List Tensor → List Entry
  | _, [] => []
  | offset, tensor :: tensors =>
    ⟨tensor, offset, (values tensor).length⟩ ::
      layout (offset + (toBytes (values tensor)).length) tensors

theorem layout_append (offset : ℕ) (tensors tensors' : List Tensor) :
    layout values offset (tensors ++ tensors') =
      layout values offset tensors ++
        layout values (offset + (contents values tensors).length) tensors' := by
  induction tensors generalizing offset with
  | nil => rfl
  | cons tensor tensors ih =>
    have hcontents : (contents values (tensor :: tensors)).length =
        (toBytes (values tensor)).length + (contents values tensors).length := List.length_append
    rw [List.cons_append, layout, ih, hcontents, Nat.add_assoc]
    rfl

theorem tensor_mem_of_layout {offset : ℕ} {tensors : List Tensor} {entry : Entry}
    (h : entry ∈ layout values offset tensors) : entry.tensor ∈ tensors := by
  induction tensors generalizing offset with
  | nil => cases h
  | cons tensor tensors ih =>
    obtain rfl | hmem := List.mem_cons.mp h
    · exact List.mem_cons_self
    · exact List.mem_cons_of_mem _ (ih hmem)

end Layout

/-! ## The writer -/

/-- One tensor is written. -/
theorem appendTensor_eq_ok {name : String} {values : List F32} {out out' : Output}
    (h : appendTensor name values out = .ok out') :
    out.offset + values.length * 4 ≤ sizeMax ∧
      out' = { data := out.data ++ toBytes values
               manifest := out.manifest ++ ((if out.first then [] else [',', '\n']) ++
                 entryText name out.offset values.length)
               offset := out.offset + values.length * 4
               first := false } := by
  obtain ⟨bytes, hbytes, hrest⟩ := Checked.bind_eq_ok.mp h
  obtain ⟨rfl, hle⟩ := le_of_checkedMultiply hbytes
  by_cases hover : sizeMax - values.length * 4 < out.offset
  · rw [if_pos hover] at hrest
    cases hrest
  · rw [if_neg hover] at hrest
    cases hrest
    exact ⟨by omega, rfl⟩

/-- Tensors are written one behind the other. -/
theorem written (values : Tensor → List F32) {tensors : List Tensor} {out out' : Output}
    (h : tensors.foldlM (fun out tensor => appendTensor tensor.name (values tensor) out) out =
      .ok out')
    (hout : out.offset ≤ sizeMax) :
    out'.data = out.data ++ contents values tensors ∧
      out'.manifest = out.manifest ++ entriesText out.first (layout values out.offset tensors) ∧
      out.offset + (contents values tensors).length ≤ sizeMax := by
  induction tensors generalizing out with
  | nil =>
    cases h
    simpa [contents, layout, entriesText] using hout
  | cons tensor tensors ih =>
    rw [List.foldlM_cons] at h
    obtain ⟨next, hnext, hrest⟩ := Checked.bind_eq_ok.mp h
    obtain ⟨hle, rfl⟩ := appendTensor_eq_ok hnext
    obtain ⟨hdata, hmanifest, hsize⟩ := ih hrest hle
    have hcons : contents values (tensor :: tensors) =
        toBytes (values tensor) ++ contents values tensors := rfl
    refine ⟨?_, ?_, ?_⟩
    · rw [hdata, hcons, List.append_assoc]
    · rw [hmanifest, layout, entriesText_cons, length_toBytes, List.append_assoc, List.append_assoc]
      rfl
    · rw [hcons, List.length_append, length_toBytes, ← Nat.add_assoc]
      exact hsize

/-! ## The loader -/

section Loader

variable {shape : DecoderLayerShape} {dataFileName rope : Text} {values : Tensor → List F32}

/-- One tensor is loaded. -/
theorem loadTensor_eq (hname : '"' ∉ dataFileName) (hrope : '"' ∉ rope)
    {before behind : List Tensor}
    {tensor : Tensor} (hnodup : ((before ++ tensor :: behind).map Tensor.name).Nodup)
    (hsize : (contents values (before ++ tensor :: behind)).length ≤ sizeMax) {loaded : Loaded}
    (hexpected : loaded.expectedSize = (contents values before).length)
    (hseen : tensor.name ∉ loaded.seen) :
    loadTensor (manifestText shape dataFileName rope (layout values 0 (before ++ tensor :: behind)))
      (contents values (before ++ tensor :: behind)) loaded (tensor, (values tensor).length) =
    .ok { expectedSize := (contents values (before ++ [tensor])).length
          seen := tensor.name :: loaded.seen
          values := Function.update loaded.values tensor (values tensor) } := by
  have hsplit : layout values 0 (before ++ tensor :: behind) = layout values 0 before ++
      ⟨tensor, (contents values before).length, (values tensor).length⟩ ::
        layout values ((contents values before).length + (toBytes (values tensor)).length)
          behind := by
    rw [layout_append, Nat.zero_add]
    rfl
  have hcontents : contents values (before ++ tensor :: behind) =
      contents values before ++ (toBytes (values tensor) ++ contents values behind) := by
    simp [contents]
  have hother : ∀ entry ∈ layout values 0 before ++
      layout values ((contents values before).length + (toBytes (values tensor)).length) behind,
      entry.tensor.name ≠ tensor.name := by
    rw [List.map_append, List.map_cons, List.nodup_middle, ← List.map_append,
      List.nodup_cons] at hnodup
    intro entry hmem heq
    refine hnodup.1 (heq ▸ List.mem_map_of_mem ?_)
    obtain hmem | hmem := List.mem_append.mp hmem
    · exact List.mem_append_left _ (tensor_mem_of_layout values hmem)
    · exact List.mem_append_right _ (tensor_mem_of_layout values hmem)
  rw [hcontents] at hsize ⊢
  simp only [List.length_append, length_toBytes] at hsize
  obtain ⟨text, hbounds⟩ := @tensorBounds_eq shape dataFileName rope hname hrope _ _
    ⟨tensor, (contents values before).length, (values tensor).length⟩ hother
  have hbytes : checkedMultiply (values tensor).length 4 tensor.name =
      .ok ((values tensor).length * 4) :=
    checkedMultiply_of_le (by omega) _
  have hcopy : copyTensor
      (contents values before ++ (toBytes (values tensor) ++ contents values behind))
      (contents values before).length (values tensor).length tensor.name = .ok (values tensor) := by
    unfold copyTensor
    rw [hbytes, Checked.ok_bind, if_neg, List.drop_left, fromBytes_toBytes]
    simp only [List.length_append, length_toBytes]
    omega
  unfold loadTensor
  dsimp only
  rw [hsplit, hbounds, Checked.ok_bind, readU64Field_offset _ _ _ (by dsimp only; omega),
    Checked.ok_bind, readU64Field_count _ _ _ (by dsimp only; omega), Checked.ok_bind]
  refine Checked.after_refuse_eq_ok.mpr ⟨fun hne => hne rfl, ?_⟩
  rw [hbytes, Checked.ok_bind]
  refine Checked.after_refuse_eq_ok.mpr ⟨by dsimp only; omega, ?_⟩
  refine Checked.after_refuse_eq_ok.mpr ⟨hseen, ?_⟩
  dsimp only
  rw [hcopy, Checked.ok_bind, hexpected]
  have hlast : (contents values (before ++ [tensor])).length =
      (contents values before).length + (values tensor).length * 4 := by
    simp [contents, length_toBytes]
  rw [hlast, Nat.max_eq_right (by omega)]

/-- All tensors are loaded. -/
theorem loaded_eq (hname : '"' ∉ dataFileName) (hrope : '"' ∉ rope) {before tensors : List Tensor}
    (hnodup : ((before ++ tensors).map Tensor.name).Nodup)
    (hsize : (contents values (before ++ tensors)).length ≤ sizeMax) {loaded : Loaded}
    (hexpected : loaded.expectedSize = (contents values before).length)
    (hseen : loaded.seen ⊆ before.map Tensor.name)
    (hvalues : ∀ tensor ∈ before, loaded.values tensor = values tensor) :
    ∃ loaded' : Loaded, (tensors.map fun tensor => (tensor, (values tensor).length)).foldlM
        (loadTensor (manifestText shape dataFileName rope (layout values 0 (before ++ tensors)))
          (contents values (before ++ tensors))) loaded = .ok loaded' ∧
      loaded'.expectedSize = (contents values (before ++ tensors)).length ∧
      ∀ tensor ∈ before ++ tensors, loaded'.values tensor = values tensor := by
  induction tensors generalizing before loaded with
  | nil =>
    rw [List.append_nil]
    exact ⟨loaded, rfl, hexpected, hvalues⟩
  | cons tensor tensors ih =>
    have hnew : tensor.name ∉ before.map Tensor.name := by
      rw [List.map_append, List.map_cons] at hnodup
      intro hmem
      exact (List.nodup_append.mp hnodup).2.2 _ hmem _ List.mem_cons_self rfl
    have hload := @loadTensor_eq shape _ _ _ hname hrope _ _ _ hnodup hsize _ hexpected
      fun hmem => hnew (hseen hmem)
    have hassoc : before ++ tensor :: tensors = before ++ [tensor] ++ tensors := by simp
    rw [List.map_cons, List.foldlM_cons, hload, Checked.ok_bind]
    rw [hassoc] at hnodup hsize ⊢
    refine ih hnodup hsize rfl ?_ ?_
    · intro name hmem
      simp only [List.map_append, List.map_cons, List.map_nil, List.mem_append, List.mem_singleton]
      obtain rfl | hold := List.mem_cons.mp hmem
      · exact .inr rfl
      · exact .inl (hseen hold)
    · intro other hmem
      dsimp only
      by_cases heq : other = tensor
      · rw [heq, Function.update_self]
      · rw [Function.update_of_ne heq]
        simp only [List.mem_append, List.mem_singleton] at hmem
        exact hvalues other (hmem.resolve_right heq)

end Loader

/-- The counts of `tensor_specs` are those that the writer asks for. -/
theorem specCount_eq (shape : DecoderLayerShape) (tensor : Tensor) :
    tensor.specCount shape = .ok (tensor.count shape) := by
  have hproduct (rows columns : UInt32) (context : String) :
      checkedMultiply rows.toNat columns.toNat context = .ok (rows.toNat * columns.toNat) := by
    refine checkedMultiply_of_le ?_ context
    have hle : rows.toNat * columns.toNat ≤ (2 ^ 32 - 1) * (2 ^ 32 - 1) :=
      Nat.mul_le_mul (Nat.le_pred_of_lt rows.toNat_lt) (Nat.le_pred_of_lt columns.toNat_lt)
    exact hle.trans (by decide)
  cases tensor <;>
    simp [Tensor.specCount, Tensor.count, Tensor.dimensions, hproduct]

theorem specs_eq (shape : DecoderLayerShape) (tensors : List Tensor) :
    (tensors.mapM fun tensor => do
      let count ← tensor.specCount shape
      .ok (tensor, count)) = (.ok (tensors.map fun tensor => (tensor, tensor.count shape)) :
        Except String (List (Tensor × ℕ))) := by
  simp only [specCount_eq, Checked.ok_bind]
  exact List.mapM_pure

/-- What the loader reads before the tensors. -/
theorem readStrings_header {shape : DecoderLayerShape} {dataFileName rope : Text}
    (hname : '"' ∉ dataFileName) (hrope : '"' ∉ rope) (text : Text) :
    readU32Field (header shape dataFileName rope ++ text) "version" = .ok 2 ∧
      readStringField (header shape dataFileName rope ++ text) "format" =
        .ok "lrrt.mini_decoder_weights".toList ∧
      readStringField (header shape dataFileName rope ++ text) "dtype" = .ok "f32".toList ∧
      readStringField (header shape dataFileName rope ++ text) "data" = .ok dataFileName := by
  have hversion : Searched dataFileName 1 "version" := .of_early (by decide)
  have hformat : Searched dataFileName 0 "format" := .of_early (by decide)
  have hdtype : Searched dataFileName 2 "dtype" := .of_early (by decide)
  have hdata : Searched dataFileName 3 "data" := .of_early (by decide)
  rw [header_append]
  refine ⟨?_, ?_, ?_, ?_⟩
  · exact readU32Field_eq hversion.isWord rfl (hversion.passed hname hrope)
  · exact readStringField_eq hformat.isWord rfl (by decide) (hformat.passed hname hrope)
  · exact readStringField_eq hdtype.isWord rfl (by decide) (hdtype.passed hname hrope)
  · exact readStringField_eq hdata.isWord rfl hname (hdata.passed hname hrope)

/-- The data of a layer are not empty. -/
theorem contents_ne_nil {weights : DecoderLayerWeights}
    (hvalid : validateShape weights.shape = .ok ())
    (hcount : (weights.values .attentionNormWeight).length =
      Tensor.attentionNormWeight.count weights.shape) :
    contents weights.values Tensor.all ≠ [] := by
  have hhidden : weights.shape.hidden.toNat ≠ 0 := by
    have hshape := (Checked.after_refuse_eq_ok.mp hvalid).1
    exact fun hzero => hshape (.inr (.inl (UInt32.toNat_inj.mp hzero)))
  have hhead : contents weights.values Tensor.all = toBytes (weights.values .attentionNormWeight) ++
      contents weights.values Tensor.all.tail := rfl
  have hone : Tensor.attentionNormWeight.count weights.shape = weights.shape.hidden.toNat :=
    Nat.mul_one _
  intro hnil
  have hlength := congrArg List.length hnil
  rw [hhead, List.length_append, length_toBytes, hcount, hone, List.length_nil] at hlength
  omega

section Files

variable {Id : Type} {resolve : Text → Id} {files : Files Id} {manifestPath dataPath : Text}
  {dataFileName rope : Text} {weights : DecoderLayerWeights}

/-- The manifest is read as it was written. -/
theorem readTextFile_eq (hmanifest : files (resolve manifestPath) = some (.text
      (manifestText weights.shape dataFileName rope (layout weights.values 0 Tensor.all)))) :
    readTextFile resolve files manifestPath = .ok (header weights.shape dataFileName rope ++
      (entriesText true (layout weights.values 0 Tensor.all) ++ "\n  ]\n\x7d\n".toList)) := by
  unfold readTextFile
  rw [hmanifest]
  exact if_neg (List.cons_ne_nil _ _)

/-- A manifest and data that lay out the weights are loaded, if the shape is read as it is. -/
theorem load_eq (hrope : '"' ∉ rope) (hquote : '"' ∉ dataFileName)
    (hread : shapeRead weights.shape dataFileName = weights.shape)
    (hmanifestPath : manifestPath ≠ []) (hvalid : validateShape weights.shape = .ok ())
    (hcounts : ∀ tensor, (weights.values tensor).length = tensor.count weights.shape)
    (hpath : relativePath manifestPath dataFileName = .ok dataPath)
    (hmanifest : files (resolve manifestPath) = some (.text
      (manifestText weights.shape dataFileName rope (layout weights.values 0 Tensor.all))))
    (hdata : files (resolve dataPath) = some (.data (contents weights.values Tensor.all)))
    (hsize : (contents weights.values Tensor.all).length ≤ sizeMax) :
    loadDecoderLayerWeights resolve files manifestPath = .ok weights := by
  obtain ⟨hversion, hformat, hdtype, hname⟩ := @readStrings_header weights.shape _ _
    hquote hrope
    (entriesText true (layout weights.values 0 Tensor.all) ++ "\n  ]\n\x7d\n".toList)
  have hshape := @readShape_header weights.shape _ _ hquote hrope
    (entriesText true (layout weights.values 0 Tensor.all) ++ "\n  ]\n\x7d\n".toList)
  rw [hread] at hshape
  have hbytes : readFile resolve files dataPath = .ok (contents weights.values Tensor.all) := by
    unfold readFile
    rw [hdata]
    exact if_neg (contents_ne_nil hvalid (hcounts _))
  have hnodup : ((([] : List Tensor) ++ Tensor.all).map Tensor.name).Nodup := by decide
  obtain ⟨loaded, hloaded, hexpected, hvalues⟩ := @loaded_eq weights.shape _ _ _
    hquote hrope _ _ hnodup hsize {} rfl (List.nil_subset _) (by simp)
  have hspecs : (Tensor.all.map fun tensor => (tensor, tensor.count weights.shape)) =
      Tensor.all.map fun tensor => (tensor, (weights.values tensor).length) :=
    List.map_congr_left fun tensor _ => by rw [hcounts]
  have heq : loaded.values = weights.values := by
    funext tensor
    exact hvalues tensor (by cases tensor <;> decide)
  unfold loadDecoderLayerWeights
  refine Checked.after_refuse_eq_ok.mpr ⟨hmanifestPath, ?_⟩
  rw [readTextFile_eq hmanifest, Checked.ok_bind, hversion, Checked.ok_bind]
  refine Checked.after_refuse_eq_ok.mpr ⟨fun hne => hne rfl, ?_⟩
  rw [hformat, Checked.ok_bind]
  refine Checked.after_refuse_eq_ok.mpr ⟨fun hne => hne rfl, ?_⟩
  rw [hdtype, Checked.ok_bind]
  refine Checked.after_refuse_eq_ok.mpr ⟨fun hne => hne rfl, ?_⟩
  rw [hshape, Checked.ok_bind, hvalid, Checked.ok_bind, hname, Checked.ok_bind, hpath,
    Checked.ok_bind, hbytes, Checked.ok_bind, specs_eq, Checked.ok_bind, hspecs]
  refine Checked.bind_eq_ok.mpr ⟨loaded, hloaded, ?_⟩
  refine Checked.after_refuse_eq_ok.mpr ⟨fun hne => hne hexpected, ?_⟩
  rw [heq]

/-- What is loaded has the shape that is read. -/
theorem shape_of_load {loaded : DecoderLayerWeights} {manifest : Text}
    (hmanifest : readTextFile resolve files manifestPath = .ok manifest)
    (h : loadDecoderLayerWeights resolve files manifestPath = .ok loaded) :
    readShape manifest = .ok loaded.shape := by
  obtain ⟨-, h⟩ := Checked.after_refuse_eq_ok.mp h
  obtain ⟨_, htext, h⟩ := Checked.bind_eq_ok.mp h
  obtain rfl := Except.ok.inj (hmanifest.symm.trans htext)
  obtain ⟨version, -, h⟩ := Checked.bind_eq_ok.mp h
  obtain ⟨-, h⟩ := Checked.after_refuse_eq_ok.mp h
  obtain ⟨format, -, h⟩ := Checked.bind_eq_ok.mp h
  obtain ⟨-, h⟩ := Checked.after_refuse_eq_ok.mp h
  obtain ⟨dtype, -, h⟩ := Checked.bind_eq_ok.mp h
  obtain ⟨-, h⟩ := Checked.after_refuse_eq_ok.mp h
  obtain ⟨shape, hshape, h⟩ := Checked.bind_eq_ok.mp h
  obtain ⟨_, -, h⟩ := Checked.bind_eq_ok.mp h
  obtain ⟨dataFile, -, h⟩ := Checked.bind_eq_ok.mp h
  obtain ⟨dataPath, -, h⟩ := Checked.bind_eq_ok.mp h
  obtain ⟨data, -, h⟩ := Checked.bind_eq_ok.mp h
  obtain ⟨specs, -, h⟩ := Checked.bind_eq_ok.mp h
  obtain ⟨values, -, h⟩ := Checked.bind_eq_ok.mp h
  obtain ⟨-, h⟩ := Checked.after_refuse_eq_ok.mp h
  obtain rfl := Except.ok.inj h
  exact hshape

end Files

/-- The fields of the shape that come after the number of keys. -/
def DecoderLayerShape.fields (shape : DecoderLayerShape) : List (String × UInt32) :=
  [("hidden", shape.hidden), ("heads", shape.heads), ("kv_heads", shape.kvHeads),
    ("head_dim", shape.headDim), ("intermediate", shape.intermediate)]

/-- The shape is read as it is unless the data file has the name of a field that is not equal to the
number of keys. -/
theorem shapeRead_eq_iff (shape : DecoderLayerShape) (dataFileName : Text) :
    shapeRead shape dataFileName = shape ↔
      ∀ field ∈ shape.fields, field.1.toList = dataFileName → field.2 = shape.keys := by
  have hread : ∀ (name : String) (value : UInt32),
      (if name.toList = dataFileName then shape.keys else value) = value ↔
        (name.toList = dataFileName → value = shape.keys) := fun name value => by
    rw [ite_eq_right_iff]
    exact imp_congr_right fun _ => eq_comm
  obtain ⟨keys, hidden, heads, kvHeads, headDim, intermediate⟩ := shape
  simp only [shapeRead, DecoderLayerShape.mk.injEq, hread, DecoderLayerShape.fields,
    List.forall_mem_cons, true_and, List.not_mem_nil, false_imp_iff, implies_true, and_true]

/-- Weights that are written to two files, with a name of the data file without a quotation mark,
are read back with their shape and all their bytes exactly if the data file is not called like a
field of the shape, or that field is equal to the number of keys. -/
theorem decoder_layer_weights_read_back {Id : Type} [DecidableEq Id] {resolve : Text → Id}
    {mixed : List UInt8 → Text → File} {files files' : Files Id}
    {manifestPath dataFileName rope : Text} {weights : DecoderLayerWeights}
    (hrope : '"' ∉ rope) (hquote : '"' ∉ dataFileName)
    (hother : ∀ dataPath, relativePath manifestPath dataFileName = .ok dataPath →
      resolve dataPath ≠ resolve manifestPath)
    (hwrite : writeDecoderLayerWeights resolve mixed files manifestPath dataFileName rope weights =
      .ok files') :
    loadDecoderLayerWeights resolve files' manifestPath = .ok weights ↔
      ∀ field ∈ weights.shape.fields, field.1.toList = dataFileName →
        field.2 = weights.shape.keys := by
  obtain ⟨hpaths, hwrite⟩ := Checked.after_refuse_eq_ok.mp hwrite
  obtain ⟨_, hvalid, hwrite⟩ := Checked.bind_eq_ok.mp hwrite
  obtain ⟨hcounts, hwrite⟩ := Checked.after_refuse_eq_ok.mp hwrite
  obtain ⟨dataPath, hpath, hwrite⟩ := Checked.bind_eq_ok.mp hwrite
  obtain ⟨out, hout, hwrite⟩ := Checked.bind_eq_ok.mp hwrite
  obtain ⟨hdata, hmanifest, hsize⟩ := written weights.values hout (Nat.zero_le _)
  have hne := hother dataPath hpath
  dsimp only at hwrite
  rw [if_neg hne] at hwrite
  obtain rfl := Except.ok.inj hwrite
  have hlengths (tensor : Tensor) :
      (weights.values tensor).length = tensor.count weights.shape := by
    by_contra hcount
    exact hcounts ⟨tensor, by cases tensor <;> decide, hcount⟩
  have htext : Function.update (Function.update files (resolve dataPath) (some (.data out.data)))
      (resolve manifestPath) (some (.text (out.manifest ++ "\n  ]\n\x7d\n".toList)))
        (resolve manifestPath) = some (.text (manifestText weights.shape dataFileName rope
          (layout weights.values 0 Tensor.all))) := by
    rw [Function.update_self, hmanifest, List.append_assoc]
    rfl
  rw [← shapeRead_eq_iff]
  constructor
  · intro hload
    have hshape := shape_of_load (readTextFile_eq htext) hload
    rw [readShape_header hquote hrope] at hshape
    exact Except.ok.inj hshape
  · intro hread
    refine load_eq hrope hquote hread (fun hnil => hpaths (.inl hnil)) hvalid hlengths hpath
      htext ?_ ?_
    · rw [Function.update_of_ne hne, Function.update_self, hdata]
      rfl
    · rw [Nat.zero_add] at hsize
      exact hsize

/-- A layer with so many keys, whose other dimensions are as small as they can be. -/
def smallLayer (keys : UInt32) : DecoderLayerWeights where
  shape := { keys, hidden := 1, heads := 1, kvHeads := 1, headDim := 2, intermediate := 1 }
  values tensor := List.replicate (tensor.count
    { keys, hidden := 1, heads := 1, kvHeads := 1, headDim := 2, intermediate := 1 })
      ⟨0, 0, 128, 63⟩

/-- The file that a path leads to, with `./` left out. -/
def withoutDot (path : Text) : Text := if ['.', '/'].isPrefixOf path then path.drop 2 else path

/-- The small layer in the data file of a given name, beside the manifest `m`. -/
def writeSmall (keys : UInt32) (dataFileName : String) : Except String (Files Text) :=
  writeDecoderLayerWeights withoutDot (fun data _ => .data data) (fun _ => none) "m".toList
    dataFileName.toList "1".toList (smallLayer keys)

/-- With one key and one hidden dimension the data file may be called `hidden`. -/
theorem smallLayer_read_back : ∃ files', writeSmall 1 "hidden" = .ok files' ∧
    loadDecoderLayerWeights withoutDot files' "m".toList = .ok (smallLayer 1) := by
  have hok : (writeSmall 1 "hidden").isOk = true := by decide +kernel
  cases hwrite : writeSmall 1 "hidden" with
  | error e =>
    rw [hwrite] at hok
    cases hok
  | ok files' =>
    refine ⟨files', rfl, (decoder_layer_weights_read_back (by decide) (by decide) ?_ hwrite).mpr
      (by decide)⟩
    intro dataPath hpath
    obtain rfl := Except.ok.inj hpath
    decide

/-- The loader takes a data file called `hidden` for the field of that name. -/
theorem data_file_read_as_field :
    (writeSmall 3 "hidden").isOk = true ∧
    ((writeSmall 3 "hidden").bind fun files =>
      (loadDecoderLayerWeights withoutDot files "m".toList).map fun _ => ()) =
      .error "mini decoder weight tensor 'attention_norm_weight' has unexpected count" := by
  decide +kernel

end LightRocm.Qwen
