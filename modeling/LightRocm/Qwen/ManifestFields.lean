import LightRocm.Qwen.WeightBundle

/-!
# Fields of a weight manifest

A search for a quoted field name passes over all other fields, names and numbers of a manifest, so
the loader finds each field where the writer has put it. The name of the data file is the one word
in a manifest that the writer does not choose.
-/

namespace LightRocm.Qwen

open TextSearch

/-! ## Fields of the header -/

/-- A search for the word passes over the field. -/
structure Passed (word : Text) (field : String × Text) : Prop where
  name : '"' ∉ field.1.toList
  other : word ≠ field.1.toList
  value : '"' ∉ field.2 ∨ ∃ string, field.2 = quoted string ∧ '"' ∉ string ∧ word ≠ string

/-- A word that can be searched for. -/
structure IsWord (word : Text) : Prop where
  ne_nil : word ≠ []
  quote : '"' ∉ word
  colon : word.head? ≠ some ':'
  comma : word.head? ≠ some ','

instance (word : Text) : Decidable (IsWord word) :=
  decidable_of_iff (word ≠ [] ∧ '"' ∉ word ∧ word.head? ≠ some ':' ∧ word.head? ≠ some ',')
    ⟨fun ⟨h₁, h₂, h₃, h₄⟩ => ⟨h₁, h₂, h₃, h₄⟩, fun ⟨h₁, h₂, h₃, h₄⟩ => ⟨h₁, h₂, h₃, h₄⟩⟩

variable {word : Text}

theorem IsWord.skips {other : Text} {c : Char} (h : IsWord word) (hother : '"' ∉ other)
    (hne : word ≠ other) (hc : c = ':' ∨ c = ',') : Skips word (quoted other ++ [c]) := by
  obtain rfl | rfl := hc
  · exact .quoted_append hother h.quote hne h.ne_nil h.colon (by decide)
  · exact .quoted_append hother h.quote hne h.ne_nil h.comma (by decide)

theorem Passed.skips {field : String × Text} (h : Passed word field) (hword : IsWord word) :
    Skips word (line field) := by
  have hname := hword.skips h.name h.other (.inl rfl)
  obtain hvalue | ⟨string, hstring, hquote, hne⟩ := h.value
  · have hline : line field =
        "  ".toList ++ (quoted field.1.toList ++ [':'] ++
          ([' '] ++ (field.2 ++ ",\n".toList))) := by
      simp [line]
    rw [hline]
    refine .append (.unquoted (by decide)) (hname.append (.unquoted ?_))
    simp [hvalue]
  · have hline : line field = "  ".toList ++ (quoted field.1.toList ++ [':'] ++
        ([' '] ++ (quoted string ++ [','] ++ ['\n']))) := by
      simp [line, hstring]
    rw [hline]
    refine .append (.unquoted (by decide)) (hname.append (.append (.unquoted (by decide)) ?_))
    exact .append (hword.skips hquote hne (.inr rfl)) (.unquoted (by decide))

/-- A field is found at its name, or at a word that is only followed by it. -/
theorem fieldPosition_of_skips {name : String} {before gap rest : Text}
    (hskips : Skips name.toList before) (hgap : ':' ∉ gap) :
    fieldPosition (before ++ (quoted name.toList ++ (gap ++ ':' :: rest))) name =
      .ok (skipWs rest) := by
  unfold fieldPosition
  rw [hskips.find_quoted]
  dsimp only
  rw [List.drop_left, find_char ':' hgap]
  rfl

/-- A field is found if a search passes over those before it. -/
theorem fieldPosition_eq {fields : List (String × Text)} {k : ℕ} {name : String} {value text : Text}
    (hword : IsWord name.toList) (hk : fields[k]? = some (name, value))
    (hpassed : ∀ field ∈ fields.take k, Passed name.toList field) :
    ∃ rest, fieldPosition ("\x7b\n".toList ++ (fields.flatMap line ++ text)) name =
      .ok (skipWs (' ' :: (value ++ ',' :: rest))) := by
  obtain ⟨hlt, hget⟩ := List.getElem?_eq_some_iff.mp hk
  have hsplit : "\x7b\n".toList ++ (fields.flatMap line ++ text) =
      ("\x7b\n".toList ++ ((fields.take k).flatMap line ++ "  ".toList)) ++ (quoted name.toList ++
        ([] ++ ':' ::
          (' ' :: (value ++ ',' :: ('\n' :: ((fields.drop (k + 1)).flatMap line ++ text)))))) := by
    conv_lhs => rw [← List.take_append_drop k fields, List.drop_eq_getElem_cons hlt, hget]
    simp [line]
  have hskips : Skips name.toList
      ("\x7b\n".toList ++ ((fields.take k).flatMap line ++ "  ".toList)) :=
    .append (.unquoted (by decide)) (.append
      (.flatMap fun field hmem => (hpassed field hmem).skips hword) (.unquoted (by decide)))
  rw [hsplit, fieldPosition_of_skips hskips List.not_mem_nil]
  exact ⟨_, rfl⟩

theorem skipWs_digits (n : ℕ) (rest : Text) : skipWs (digits n ++ rest) = digits n ++ rest := by
  obtain ⟨d, tail, hdigits, hd⟩ := digits_eq_cons n
  rw [hdigits]
  have hne (c : Char) (hc : c.isDigit = false) : d ≠ c := by
    rintro rfl
    rw [hd] at hc
    cases hc
  simp [skipWs, isSpace, Char.isWhitespace, hne ' ' rfl, hne '\t' rfl, hne '\r' rfl, hne '\n' rfl,
    hne '\x0b' rfl, hne '\x0c' rfl]

/-- The blank before a number is passed over, and no more. -/
theorem skipWs_blank_digits (n : ℕ) (rest : Text) :
    skipWs (' ' :: (digits n ++ rest)) = digits n ++ rest := by
  have hblank : skipWs (' ' :: (digits n ++ rest)) = skipWs (digits n ++ rest) := rfl
  rw [hblank, skipWs_digits]

variable {name : String}

/-- The number at a position is read. -/
theorem readU32Field_of_position {text rest : Text} {n : UInt32}
    (hposition : fieldPosition text name = .ok (skipWs (' ' :: (digits n.toNat ++ ',' :: rest)))) :
    readU32Field text name = .ok n := by
  obtain ⟨d, tail, hdigits, hd⟩ := digits_eq_cons n.toNat
  have hn : n.toNat ≤ 2 ^ 32 - 1 := Nat.le_pred_of_lt n.toNat_lt
  unfold readU32Field
  rw [hposition, skipWs_blank_digits, Checked.ok_bind, scanDigits_digits hn (by simp)]
  dsimp only
  rw [if_pos (by rw [hdigits]; exact hd), UInt32.ofNat_toNat]

variable {k : ℕ}

/-- The number of a field is read. -/
theorem readU32Field_eq {fields : List (String × Text)} {text : Text} {n : UInt32}
    (hword : IsWord name.toList) (hk : fields[k]? = some (name, digits n.toNat))
    (hpassed : ∀ field ∈ fields.take k, Passed name.toList field) :
    readU32Field ("\x7b\n".toList ++ (fields.flatMap line ++ text)) name = .ok n := by
  obtain ⟨rest, hposition⟩ := @fieldPosition_eq fields k name _ text hword hk hpassed
  exact readU32Field_of_position hposition

/-- A field that is read is in the text. -/
theorem find_isSome_of_read {text : Text} {n : UInt32} (h : readU32Field text name = .ok n) :
    (find (quoted name.toList) text).isSome := by
  obtain ⟨position, hposition, -⟩ := Checked.bind_eq_ok.mp h
  unfold fieldPosition at hposition
  split at hposition
  · cases hposition
  · next found hfound => rw [hfound]; rfl

/-- The string of a field is read. -/
theorem readStringField_eq {fields : List (String × Text)} {string text : Text}
    (hword : IsWord name.toList) (hk : fields[k]? = some (name, quoted string))
    (hstring : '"' ∉ string) (hpassed : ∀ field ∈ fields.take k, Passed name.toList field) :
    readStringField ("\x7b\n".toList ++ (fields.flatMap line ++ text)) name = .ok string := by
  obtain ⟨rest, hposition⟩ := @fieldPosition_eq fields k name _ text hword hk hpassed
  have hskip : skipWs (' ' :: (quoted string ++ ',' :: rest)) =
      '"' :: (string ++ '"' :: (',' :: rest)) := by
    simp [skipWs, isSpace, quoted]
  unfold readStringField
  rw [hposition, hskip, Checked.ok_bind]
  simp only
  rw [find_char '"' hstring]

section Header

variable {shape : DecoderLayerShape} {dataFileName rope : Text}

/-- The names of the fields of a header. -/
def fieldNames : List String :=
  ["format", "version", "dtype", "data", "keys", "hidden", "heads", "kv_heads", "head_dim",
    "intermediate", "rope_theta"]

theorem map_fst_fields : (fields shape dataFileName rope).map Prod.fst = fieldNames := rfl

/-- A search passes over the fields of a header, except the one it is for. -/
theorem passed_of_mem (hname : '"' ∉ dataFileName) (hrope : '"' ∉ rope)
    (hformat : word ≠ "lrrt.mini_decoder_weights".toList) (hdtype : word ≠ "f32".toList)
    {field : String × Text} (hmem : field ∈ fields shape dataFileName rope)
    (hdata : field.1 = "data" → word ≠ dataFileName) (hne : word ≠ field.1.toList) :
    Passed word field := by
  have hplain : ∀ name ∈ fieldNames, '"' ∉ name.toList := by decide
  refine ⟨hplain _ (map_fst_fields ▸ List.mem_map_of_mem hmem), hne, ?_⟩
  have hdigits := quote_notMem_digits
  unfold fields at hmem
  simp only [List.mem_cons, List.not_mem_nil, or_false] at hmem
  rcases hmem with rfl | rfl | rfl | rfl | rfl | rfl | rfl | rfl | rfl | rfl | rfl
  · exact .inr ⟨_, rfl, by decide, hformat⟩
  · exact .inl (by decide)
  · exact .inr ⟨_, rfl, by decide, hdtype⟩
  · exact .inr ⟨_, rfl, hname, hdata rfl⟩
  all_goals first | exact .inl (hdigits _) | exact .inl hrope

/-- The loader can search for the field with this number: it is no other word of the header, and
it is not the name of the data file if that name is before it. -/
structure Searched (dataFileName : Text) (k : ℕ) (name : String) : Prop where
  isWord : IsWord name.toList
  notMem : name ∉ fieldNames.take k
  format : name.toList ≠ "lrrt.mini_decoder_weights".toList
  dtype : name.toList ≠ "f32".toList
  data : "data" ∈ fieldNames.take k → name.toList ≠ dataFileName

theorem Searched.passed (h : Searched dataFileName k name) (hname : '"' ∉ dataFileName)
    (hrope : '"' ∉ rope) :
    ∀ field ∈ (fields shape dataFileName rope).take k, Passed name.toList field := by
  intro field hmem
  have hfield : field.1 ∈ fieldNames.take k := by
    have hnames := @map_fst_fields shape dataFileName rope
    rw [← hnames, ← List.map_take]
    exact List.mem_map_of_mem hmem
  refine passed_of_mem hname hrope h.format h.dtype (List.mem_of_mem_take hmem) ?_ ?_
  · exact fun hdata => h.data (hdata ▸ hfield)
  · exact fun heq => h.notMem (String.toList_injective heq ▸ hfield)

/-- The fields before the name of the data file, and the name itself. -/
theorem Searched.of_early
    (hmem : (k, name) ∈ [(0, "format"), (1, "version"), (2, "dtype"), (3, "data")]) :
    Searched dataFileName k name := by
  have hfixed : ∀ field ∈ [(0, "format"), (1, "version"), (2, "dtype"), (3, "data")],
      IsWord field.2.toList ∧ field.2 ∉ fieldNames.take field.1 ∧
        field.2.toList ≠ "lrrt.mini_decoder_weights".toList ∧ field.2.toList ≠ "f32".toList ∧
        "data" ∉ fieldNames.take field.1 := by decide
  obtain ⟨hword, hfirst, hformat, hdtype, hdata⟩ := hfixed _ hmem
  exact ⟨hword, hfirst, hformat, hdtype, fun h => absurd h hdata⟩

/-- The places of the fields of the shape. -/
def shapeFields : List (ℕ × String) :=
  [(4, "keys"), (5, "hidden"), (6, "heads"), (7, "kv_heads"), (8, "head_dim"), (9, "intermediate")]

/-- The fields of the shape, unless the data file has the name. -/
theorem Searched.of_shape (hmem : (k, name) ∈ shapeFields) (hne : name.toList ≠ dataFileName) :
    Searched dataFileName k name := by
  have hfixed : ∀ field ∈ shapeFields, IsWord field.2.toList ∧
      field.2 ∉ fieldNames.take field.1 ∧
        field.2.toList ≠ "lrrt.mini_decoder_weights".toList ∧ field.2.toList ≠ "f32".toList := by
    decide
  obtain ⟨hword, hfirst, hformat, hdtype⟩ := hfixed _ hmem
  exact ⟨hword, hfirst, hformat, hdtype, fun _ => hne⟩

/-- A search for a field of the shape passes over what is before the name of the data file. -/
theorem Searched.of_before {k : ℕ} {name : String} (hmem : (k, name) ∈ shapeFields) :
    Searched dataFileName 3 name ∧ name.toList ≠ "data".toList := by
  have hfixed : ∀ field ∈ shapeFields, IsWord field.2.toList ∧ field.2 ∉ fieldNames.take 3 ∧
      field.2.toList ≠ "lrrt.mini_decoder_weights".toList ∧ field.2.toList ≠ "f32".toList ∧
        field.2.toList ≠ "data".toList := by decide
  obtain ⟨hword, hfirst, hformat, hdtype, hdata⟩ := hfixed _ hmem
  exact ⟨⟨hword, hfirst, hformat, hdtype, fun h => absurd h (by decide)⟩, hdata⟩

theorem header_append (text : Text) : header shape dataFileName rope ++ text =
    "\x7b\n".toList ++ ((fields shape dataFileName rope).flatMap line ++
      ("  ".toList ++ (quoted "tensors".toList ++ (": [\n".toList ++ text)))) := by
  simp [header]

/-- A field whose name the data file has is read as the number of keys: the search stops at the
name of the data file, and the next colon is the one behind `keys`. -/
theorem readU32Field_shadowed (hmem : (k, name) ∈ shapeFields) (hquote : '"' ∉ name.toList)
    (hrope : '"' ∉ rope) (text : Text) :
    readU32Field (header shape name.toList rope ++ text) name = .ok shape.keys := by
  obtain ⟨hsearched, hdata⟩ := @Searched.of_before name.toList k name hmem
  have hskips : Skips name.toList ("\x7b\n".toList ++
      (((fields shape name.toList rope).take 3).flatMap line ++
        ("  ".toList ++ (quoted "data".toList ++ [':'] ++ [' '])))) := by
    refine .append (.unquoted (by decide)) (.append (.flatMap fun field hfield => ?_)
      (.append (.unquoted (by decide)) (.append ?_ (.unquoted (by decide)))))
    · exact (hsearched.passed hquote hrope field hfield).skips hsearched.isWord
    · exact hsearched.isWord.skips (by decide) hdata (.inl rfl)
  have hposition := fun rest => @fieldPosition_of_skips name _
    (",\n  ".toList ++ quoted "keys".toList)
    (' ' :: (digits shape.keys.toNat ++ ',' :: rest)) hskips (by decide)
  have hsplit : ∃ rest, header shape name.toList rope ++ text = "\x7b\n".toList ++
      (((fields shape name.toList rope).take 3).flatMap line ++
        ("  ".toList ++ (quoted "data".toList ++ [':'] ++ [' ']))) ++ (quoted name.toList ++
      (",\n  ".toList ++ quoted "keys".toList ++
        ':' :: ' ' :: (digits shape.keys.toNat ++ ',' :: rest))) := by
    rw [header_append, ← List.take_append_drop 3 (fields shape name.toList rope)]
    exact ⟨_, by simp [fields, line]; rfl⟩
  obtain ⟨rest, hsplit⟩ := hsplit
  rw [hsplit]
  exact readU32Field_of_position (hposition rest)

/-- The shape that the loader reads. -/
def shapeRead (shape : DecoderLayerShape) (dataFileName : Text) : DecoderLayerShape :=
  let read (name : String) (value : UInt32) : UInt32 :=
    if name.toList = dataFileName then shape.keys else value
  { keys := shape.keys
    hidden := read "hidden" shape.hidden
    heads := read "heads" shape.heads
    kvHeads := read "kv_heads" shape.kvHeads
    headDim := read "head_dim" shape.headDim
    intermediate := read "intermediate" shape.intermediate }

theorem readShape_header (hquote : '"' ∉ dataFileName) (hrope : '"' ∉ rope) (text : Text) :
    readShape (header shape dataFileName rope ++ text) = .ok (shapeRead shape dataFileName) := by
  have hfield {k : ℕ} {name : String} {n : UInt32} (hmem : (k, name) ∈ shapeFields)
      (hk : (fields shape dataFileName rope)[k]? = some (name, digits n.toNat)) :
      readU32Field (header shape dataFileName rope ++ text) name =
        .ok (if name.toList = dataFileName then shape.keys else n) := by
    by_cases heq : name.toList = dataFileName
    · rw [if_pos heq]
      subst heq
      exact readU32Field_shadowed hmem hquote hrope text
    · have hsearched := Searched.of_shape hmem heq
      rw [if_neg heq, header_append]
      exact readU32Field_eq hsearched.isWord hk (hsearched.passed hquote hrope)
  have hkvHeads := @hfield 7 "kv_heads" shape.kvHeads (by decide) rfl
  unfold readShape shapeRead
  rw [@hfield 4 "keys" shape.keys (by decide) rfl, @hfield 5 "hidden" shape.hidden (by decide) rfl,
    @hfield 6 "heads" shape.heads (by decide) rfl,
    @hfield 8 "head_dim" shape.headDim (by decide) rfl,
    @hfield 9 "intermediate" shape.intermediate (by decide) rfl]
  simp only [Checked.ok_bind, find_isSome_of_read hkvHeads, if_true, hkvHeads, ite_self]

end Header

end LightRocm.Qwen
