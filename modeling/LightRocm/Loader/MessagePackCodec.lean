import LightRocm.Loader.MessagePack
import LightRocm.Lib.MessagePackFormat

/-!
# The MessagePack reader and the format

Every encoding of a value is read as that value, and the cursor moves by its length;
and whatever the reader accepts is an encoding of the value it gives.
-/

namespace LightRocm.Loader

open ByteReader MessagePackFormat

/-! ## What a value that has been read means -/

/-- The bytes of a string. -/
def bytesOfString (string : String) : List UInt8 :=
  string.toList.map fun c => UInt8.ofNat c.toNat

theorem bytesOfString_stringOfBytes (bytes : List UInt8) :
    bytesOfString (stringOfBytes bytes) = bytes := by
  unfold bytesOfString stringOfBytes
  rw [String.toList_ofList, List.map_map]
  conv_rhs => rw [← List.map_id bytes]
  apply List.map_congr_left
  intro byte _
  have hchar : (Char.ofNat byte.toNat).toNat = byte.toNat := by
    have hlt := byte.toNat_lt
    have hvalid : byte.toNat.isValidChar := .inl (by omega)
    rw [Char.ofNat, dif_pos hvalid]
    rfl
  rw [Function.comp_apply, hchar, UInt8.ofNat_toNat, id_eq]

mutual

/-- The value of the format; signed and unsigned integers are the same there. -/
def meaning : MessagePackValue → Value
  | .nil _ => .nil
  | .boolean _ boolean => .boolean boolean
  | .unsigned _ integer => .integer integer
  | .signed _ integer => .integer integer
  | .string _ string => .string (bytesOfString string)
  | .array _ array => .array (meanings array)
  | .map _ map => .map (entryMeanings map)

/-- The elements of an array. -/
def meanings : List MessagePackValue → List Value
  | [] => []
  | value :: rest => meaning value :: meanings rest

/-- The entries of a map. -/
def entryMeanings : List (String × MessagePackValue) → List (List UInt8 × Value)
  | [] => []
  | (key, value) :: rest => (bytesOfString key, meaning value) :: entryMeanings rest

end

theorem meanings_eq (array : List MessagePackValue) : meanings array = array.map meaning := by
  induction array with
  | nil => rfl
  | cons value rest ih => rw [meanings, ih, List.map_cons]

theorem entryMeanings_eq (map : List (String × MessagePackValue)) :
    entryMeanings map = map.map fun entry => (bytesOfString entry.1, meaning entry.2) := by
  induction map with
  | nil => rfl
  | cons entry rest ih => rw [entryMeanings, ih, List.map_cons]

/-! ## The bytes that are left -/

/-- The bytes of the metadata from the cursor on. -/
structure Remaining (input : Input) (bytes : MetadataBytes) (cursor : ℕ) (rest : List UInt8) :
    Prop where
  inside : bytes.fileOffset + bytes.size ≤ input.bytes.length
  size : cursor + rest.length = bytes.size
  rest : ∃ tail, input.bytes.drop (bytes.fileOffset + cursor) = rest ++ tail

variable {input : Input} {bytes : MetadataBytes} {cursor : ℕ} {start rest : List UInt8}

theorem Remaining.advance (h : Remaining input bytes cursor (start ++ rest)) :
    Remaining input bytes (cursor + start.length) rest := by
  obtain ⟨tail, htail⟩ := h.rest
  have hsize := h.size
  rw [List.length_append] at hsize
  refine ⟨h.inside, by omega, tail, ?_⟩
  rw [← Nat.add_assoc, ← List.drop_drop, htail, List.append_assoc, List.drop_left]

theorem Remaining.tail {byte : UInt8} (h : Remaining input bytes cursor (byte :: rest)) :
    Remaining input bytes (cursor + 1) rest := by
  have hfirst : Remaining input bytes cursor ([byte] ++ rest) := h
  exact hfirst.advance

/-- The bytes that are left are counted without wrapping around. -/
theorem Remaining.u64Sub (h : Remaining input bytes cursor rest) :
    u64Sub bytes.size cursor = rest.length := by
  have hsize := h.size
  rw [Loader.u64Sub, if_pos (by omega)]
  omega

/-- Enough bytes are left. -/
theorem take_of_remaining (h : Remaining input bytes cursor (start ++ rest)) :
    take input bytes start.length cursor = .ok (some (start, cursor + start.length)) := by
  obtain ⟨tail, htail⟩ := h.rest
  have hleft : ¬ Loader.u64Sub bytes.size cursor < start.length := by
    rw [h.u64Sub, List.length_append]
    omega
  have hinside : bytes.fileOffset + cursor + start.length ≤ input.bytes.length := by
    have hsize := h.size
    have hinside := h.inside
    rw [List.length_append] at hsize
    omega
  have hentries : entries (ε := ParseError) input.bytes (bytes.fileOffset + cursor) start.length =
      .ok start := by
    rw [entries_eq hinside, htail, List.append_assoc, List.take_left]
  rw [take, if_neg hleft, hentries]
  rfl

/-- What has been taken are the next bytes. -/
theorem take_spec {count : ℕ} (h : Remaining input bytes cursor rest) :
    (rest.length < count ∧ take input bytes count cursor = .ok none) ∨
    ∃ start more, rest = start ++ more ∧ start.length = count ∧
      take input bytes count cursor = .ok (some (start, cursor + count)) := by
  by_cases hcount : rest.length < count
  · left
    refine ⟨hcount, ?_⟩
    rw [take, h.u64Sub, if_pos hcount]
    rfl
  · right
    have hlength : (rest.take count).length = count := by
      rw [List.length_take]
      omega
    refine ⟨rest.take count, rest.drop count, (List.take_append_drop count rest).symm, hlength, ?_⟩
    have hsplit : Remaining input bytes cursor (rest.take count ++ rest.drop count) := by
      rwa [List.take_append_drop]
    have htake := take_of_remaining hsplit
    rwa [hlength] at htake

/-! ## Markers -/

section Markers

variable {nested : ℕ → Parse (MessagePackValue × ℕ)} {marker markerOffset count : ℕ}

theorem parseMarked_positive (h : marker < 0x80) :
    parseMarked input bytes nested marker markerOffset cursor =
      .ok (.unsigned (bytes.fileOffset + markerOffset) marker, cursor) := by
  rw [parseMarked, if_pos (by omega)]
  rfl

theorem parseMarked_negative (h : 0xe0 ≤ marker) :
    parseMarked input bytes nested marker markerOffset cursor =
      .ok (.signed (bytes.fileOffset + markerOffset) (signExtend 1 marker), cursor) := by
  rw [parseMarked, if_neg (by omega), if_pos h]
  rfl

theorem parseMarked_shortString (h : count < 32) :
    parseMarked input bytes nested (0xa0 + count) markerOffset cursor =
      parseString input bytes count markerOffset cursor := by
  have hbits : ∀ n < 32, (0xa0 + n) &&& 0xe0 = 0xa0 ∧ (0xa0 + n) &&& 0x1f = n := by decide
  obtain ⟨hstring, hcount⟩ := hbits count h
  rw [parseMarked, if_neg (by omega), if_neg (by omega), if_pos hstring, hcount]

theorem parseMarked_shortArray (h : count < 16) :
    parseMarked input bytes nested (0x90 + count) markerOffset cursor =
      parseArray bytes nested count markerOffset cursor := by
  have hbits : ∀ n < 16, (0x90 + n) &&& 0xe0 ≠ 0xa0 ∧ (0x90 + n) &&& 0xf0 = 0x90 ∧
      (0x90 + n) &&& 0x0f = n := by decide
  obtain ⟨hstring, harray, hcount⟩ := hbits count h
  rw [parseMarked, if_neg (by omega), if_neg (by omega), if_neg hstring, if_pos harray, hcount]

theorem parseMarked_shortMap (h : count < 16) :
    parseMarked input bytes nested (0x80 + count) markerOffset cursor =
      parseMap bytes nested count markerOffset cursor := by
  have hbits : ∀ n < 16, (0x80 + n) &&& 0xe0 ≠ 0xa0 ∧ (0x80 + n) &&& 0xf0 ≠ 0x90 ∧
      (0x80 + n) &&& 0xf0 = 0x80 ∧ (0x80 + n) &&& 0x0f = n := by decide
  obtain ⟨hstring, harray, hmap, hcount⟩ := hbits count h
  rw [parseMarked, if_neg (by omega), if_neg (by omega), if_neg hstring, if_neg harray, if_pos hmap,
    hcount]

/-- The other markers are told apart by their value. -/
theorem parseMarked_other (hlow : 0xc0 ≤ marker) (hhigh : marker < 0xe0) :
    parseMarked input bytes nested marker markerOffset cursor =
      if marker = 0xc0 then .ok (.nil (bytes.fileOffset + markerOffset), cursor)
      else if marker = 0xc2 ∨ marker = 0xc3 then
        .ok (.boolean (bytes.fileOffset + markerOffset) (marker = 0xc3), cursor)
      else parseSwitch input bytes nested marker markerOffset cursor := by
  have hbits : ∀ m < 0xe0, 0xc0 ≤ m → m &&& 0xe0 ≠ 0xa0 ∧ m &&& 0xf0 ≠ 0x90 ∧ m &&& 0xf0 ≠ 0x80 := by
    decide +kernel
  obtain ⟨hstring, harray, hmap⟩ := hbits marker hhigh hlow
  rw [parseMarked, if_neg (by omega), if_neg (by omega), if_neg hstring, if_neg harray, if_neg hmap]
  rfl

theorem parseMarked_switch (hlow : 0xc4 ≤ marker) (hhigh : marker < 0xe0) :
    parseMarked input bytes nested marker markerOffset cursor =
      parseSwitch input bytes nested marker markerOffset cursor := by
  rw [parseMarked_other (by omega) hhigh, if_neg (by omega), if_neg (by omega)]

/-- The next bytes as a number. -/
theorem readBigEndian_of_remaining (h : Remaining input bytes cursor (start ++ rest)) :
    readBigEndian input bytes start.length cursor =
      .ok (some (number start, cursor + start.length)) := by
  rw [readBigEndian, take_of_remaining h, ← bigEndian_eq_number]
  rfl

theorem readLength_of_remaining (h : Remaining input bytes cursor (start ++ rest)) :
    readLength input bytes start.length markerOffset cursor =
      .ok (number start, cursor + start.length) := by
  rw [readLength, readBigEndian_of_remaining h]
  rfl

end Markers

/-- A value is read from its marker on. -/
theorem parseValue_of_remaining {levels : ℕ} {byte : UInt8}
    (h : Remaining input bytes cursor (byte :: rest)) :
    parseValue input bytes (levels + 1) cursor =
      parseMarked input bytes (parseValue input bytes levels) byte.toNat cursor (cursor + 1) := by
  have hfirst : Remaining input bytes cursor ([byte] ++ rest) := h
  have htake : take input bytes 1 cursor = .ok (some ([byte], cursor + 1)) :=
    take_of_remaining hfirst
  rw [parseValue, htake]
  rfl

theorem parseValue_of_marker {levels marker : ℕ} (hmarker : marker < 256)
    (h : Remaining input bytes cursor (UInt8.ofNat marker :: rest)) :
    parseValue input bytes (levels + 1) cursor =
      parseMarked input bytes (parseValue input bytes levels) marker cursor (cursor + 1) := by
  rw [parseValue_of_remaining h, UInt8.toNat_ofNat_of_lt' hmarker]

/-- How the values with a count go on behind their marker and the count. -/
structure CountedBy (input : Input) (bytes : MetadataBytes)
    (nested : ℕ → Parse (MessagePackValue × ℕ)) (base limit : ℕ) (wide : List (ℕ × ℕ))
    (parse : ℕ → ℕ → ℕ → Parse (MessagePackValue × ℕ)) : Prop where
  short : ∀ count < limit, base + count < 256 ∧ ∀ markerOffset cursor,
    parseMarked input bytes nested (base + count) markerOffset cursor = parse count markerOffset cursor
  wide : ∀ entry ∈ wide, entry.1 < 256 ∧ ∀ markerOffset cursor,
    parseMarked input bytes nested entry.1 markerOffset cursor = (do
      let (length, cursor) ← readLength input bytes entry.2 markerOffset cursor
      parse length markerOffset cursor)

theorem countedBy_string (nested : ℕ → Parse (MessagePackValue × ℕ)) :
    CountedBy input bytes nested 0xa0 32 [(0xd9, 1), (0xda, 2), (0xdb, 4)]
      (parseString input bytes) where
  short := fun count h => ⟨by omega, fun _ _ => parseMarked_shortString h⟩
  wide := by
    simp only [List.forall_mem_cons, List.not_mem_nil, false_imp_iff, implies_true, and_true]
    refine ⟨⟨by decide, ?_⟩, ⟨by decide, ?_⟩, by decide, ?_⟩
    all_goals
      intro markerOffset cursor
      rw [parseMarked_switch (by decide) (by decide)]
      rfl

theorem countedBy_array (nested : ℕ → Parse (MessagePackValue × ℕ)) :
    CountedBy input bytes nested 0x90 16 [(0xdc, 2), (0xdd, 4)] (parseArray bytes nested) where
  short := fun count h => ⟨by omega, fun _ _ => parseMarked_shortArray h⟩
  wide := by
    simp only [List.forall_mem_cons, List.not_mem_nil, false_imp_iff, implies_true, and_true]
    refine ⟨⟨by decide, ?_⟩, by decide, ?_⟩
    all_goals
      intro markerOffset cursor
      rw [parseMarked_switch (by decide) (by decide)]
      rfl

theorem countedBy_map (nested : ℕ → Parse (MessagePackValue × ℕ)) :
    CountedBy input bytes nested 0x80 16 [(0xde, 2), (0xdf, 4)] (parseMap bytes nested) where
  short := fun count h => ⟨by omega, fun _ _ => parseMarked_shortMap h⟩
  wide := by
    simp only [List.forall_mem_cons, List.not_mem_nil, false_imp_iff, implies_true, and_true]
    refine ⟨⟨by decide, ?_⟩, by decide, ?_⟩
    all_goals
      intro markerOffset cursor
      rw [parseMarked_switch (by decide) (by decide)]
      rfl

/-- Marker and count are read, whatever width the count has. -/
theorem CountedBy.parseValue {levels base limit count : ℕ} {wide : List (ℕ × ℕ)}
    {parse : ℕ → ℕ → ℕ → Parse (MessagePackValue × ℕ)} {header : List UInt8}
    (h : CountedBy input bytes (parseValue input bytes levels) base limit wide parse)
    (hheader : Header base limit wide count header)
    (hremaining : Remaining input bytes cursor (header ++ rest)) :
    parseValue input bytes (levels + 1) cursor = parse count cursor (cursor + header.length) := by
  cases hheader with
  | short hlt =>
    obtain ⟨hbyte, hparse⟩ := h.short count hlt
    rw [parseValue_of_marker hbyte hremaining, hparse]
    rfl
  | @wide marker width counted hmem hwidth hcount =>
    obtain ⟨hbyte, hparse⟩ := h.wide _ hmem
    rw [List.cons_append] at hremaining
    subst hwidth hcount
    rw [parseValue_of_marker hbyte hremaining, hparse,
      readLength_of_remaining hremaining.tail, List.length_cons, Nat.add_comm counted.length,
      ← Nat.add_assoc]
    rfl

/-! ## Every encoding is read -/

/-- An encoding is read at the cursor as its value. -/
def ReadsAs (input : Input) (bytes : MetadataBytes) (parse : ℕ → Parse (MessagePackValue × ℕ))
    (value : Value) (text : List UInt8) : Prop :=
  ∀ cursor rest, Remaining input bytes cursor (text ++ rest) →
    ∃ found, parse cursor = .ok (found, cursor + text.length) ∧ meaning found = value

variable {parse : ℕ → Parse (MessagePackValue × ℕ)}

/-- The loop over the elements of an array. -/
theorem parseElements_complete {items : List (Value × List UInt8)}
    (h : ∀ item ∈ items, ReadsAs input bytes parse item.1 item.2)
    (hremaining : Remaining input bytes cursor ((items.map (·.2)).flatten ++ rest)) :
    ∃ found, parseElements parse items.length cursor =
        .ok (found, cursor + (items.map (·.2)).flatten.length) ∧
      found.map meaning = items.map (·.1) := by
  induction items generalizing cursor with
  | nil => exact ⟨[], rfl, rfl⟩
  | cons item items ih =>
    rw [List.forall_mem_cons] at h
    rw [List.map_cons, List.flatten_cons, List.append_assoc] at hremaining
    obtain ⟨value, hvalue, hmeaning⟩ := h.1 cursor _ hremaining
    obtain ⟨found, hfound, hmeanings⟩ := ih h.2 hremaining.advance
    refine ⟨value :: found, ?_, by rw [List.map_cons, List.map_cons, hmeaning, hmeanings]⟩
    rw [List.length_cons, parseElements, hvalue, List.map_cons, List.flatten_cons, List.length_append,
      ← Nat.add_assoc]
    change (parseElements parse items.length _ >>= _) = _
    rw [hfound]
    rfl

theorem eq_string_of_meaning {value : MessagePackValue} {raw : List UInt8}
    (h : meaning value = .string raw) :
    ∃ offset string, value = .string offset string ∧ bytesOfString string = raw := by
  cases value with
  | string offset string =>
    rw [meaning] at h
    exact ⟨offset, string, rfl, Value.string.inj h⟩
  | nil | boolean | unsigned | signed | array | map =>
    rw [meaning] at h
    cases h

/-- The loop over the entries of a map: no key is found among those before it. -/
theorem parseEntries_complete {items : List Entry} {map : List (String × MessagePackValue)}
    (hkeys : ∀ item ∈ items, ReadsAs input bytes parse (.string item.key) item.keyText)
    (hvalues : ∀ item ∈ items, ReadsAs input bytes parse item.value item.text)
    (hnodup : (map.map (fun entry => bytesOfString entry.1) ++ items.map (·.key)).Nodup)
    (hremaining : Remaining input bytes cursor
      ((items.map fun item => item.keyText ++ item.text).flatten ++ rest)) :
    ∃ found, parseEntries bytes parse items.length cursor map =
        .ok (map ++ found, cursor +
          (items.map fun item => item.keyText ++ item.text).flatten.length) ∧
      found.map (fun entry => (bytesOfString entry.1, meaning entry.2)) =
        items.map fun item => (item.key, item.value) := by
  induction items generalizing cursor map with
  | nil => exact ⟨[], by rw [List.append_nil]; rfl, rfl⟩
  | cons item items ih =>
    rw [List.forall_mem_cons] at hkeys hvalues
    rw [List.map_cons, List.flatten_cons, List.append_assoc, List.append_assoc] at hremaining
    obtain ⟨key, hkey, hstring⟩ := hkeys.1 cursor _ hremaining
    obtain ⟨offset, name, rfl, hname⟩ := eq_string_of_meaning hstring
    obtain ⟨mapped, hmapped, hmeaning⟩ := hvalues.1 _ _ hremaining.advance
    have hfresh : (map.any fun entry => entry.1 = name) = false := by
      rw [List.any_eq_false]
      intro entry hentry heq
      rw [List.map_cons, List.nodup_append] at hnodup
      refine hnodup.2.2 (bytesOfString entry.1) (List.mem_map_of_mem hentry) item.key
        List.mem_cons_self ?_
      rw [← hname, of_decide_eq_true heq]
    have hnodup' : ((map ++ [(name, mapped)]).map (fun entry => bytesOfString entry.1) ++
        items.map (·.key)).Nodup := by
      simpa [hname] using hnodup
    obtain ⟨found, hfound, hmeanings⟩ :=
      ih hkeys.2 hvalues.2 hnodup' hremaining.advance.advance
    refine ⟨(name, mapped) :: found, ?_, by simp [hname, hmeaning, hmeanings]⟩
    rw [List.length_cons, parseEntries, hkey]
    change (if _ then _ else _) = _
    rw [hfresh, if_neg Bool.false_ne_true, hmapped]
    change parseEntries bytes parse items.length _ _ = _
    rw [hfound, List.append_assoc, List.map_cons, List.flatten_cons, List.length_append,
      List.length_append, ← Nat.add_assoc, ← Nat.add_assoc]
    rfl


variable {markerOffset : ℕ}

theorem parseString_of_remaining (h : Remaining input bytes cursor (start ++ rest)) :
    parseString input bytes start.length markerOffset cursor =
      .ok (.string (bytes.fileOffset + markerOffset) (stringOfBytes start),
        cursor + start.length) := by
  rw [parseString, take_of_remaining h]
  rfl

theorem parseArray_complete {items : List (Value × List UInt8)}
    (hitems : ∀ item ∈ items, Encodes item.1 item.2)
    (h : ∀ item ∈ items, ReadsAs input bytes parse item.1 item.2)
    (hremaining : Remaining input bytes cursor ((items.map (·.2)).flatten ++ rest)) :
    ∃ found, parseArray bytes parse items.length markerOffset cursor =
        .ok (found, cursor + (items.map (·.2)).flatten.length) ∧
      meaning found = .array (items.map (·.1)) := by
  have hcount := length_le_flatten hitems
  obtain ⟨found, hfound, hmeanings⟩ := parseElements_complete h hremaining
  refine ⟨.array (bytes.fileOffset + markerOffset) found, ?_, ?_⟩
  · rw [parseArray, hremaining.u64Sub, List.length_append, if_neg (by omega), hfound]
    rfl
  · rw [meaning, meanings_eq, hmeanings]

theorem parseMap_complete {items : List Entry}
    (hkeyTexts : ∀ item ∈ items, Encodes (.string item.key) item.keyText)
    (htexts : ∀ item ∈ items, Encodes item.value item.text)
    (hkeys : ∀ item ∈ items, ReadsAs input bytes parse (.string item.key) item.keyText)
    (hvalues : ∀ item ∈ items, ReadsAs input bytes parse item.value item.text)
    (hnodup : (items.map (·.key)).Nodup)
    (hremaining : Remaining input bytes cursor ((items.map fun item => item.keyText ++
      item.text).flatten ++ rest)) :
    ∃ found, parseMap bytes parse items.length markerOffset cursor =
        .ok (found, cursor + (items.map fun item => item.keyText ++ item.text).flatten.length) ∧
      meaning found = .map (items.map fun item => (item.key, item.value)) := by
  have hcount := two_mul_length_le_flatten hkeyTexts htexts
  obtain ⟨found, hfound, hmeanings⟩ :=
    @parseEntries_complete input bytes cursor rest parse items [] hkeys hvalues hnodup hremaining
  refine ⟨.map (bytes.fileOffset + markerOffset) found, ?_, ?_⟩
  · rw [parseMap, hremaining.u64Sub, List.length_append, if_neg (by omega), hfound]
    rfl
  · rw [meaning, entryMeanings_eq, hmeanings]

theorem signExtend_eq_twosComplement (raw : List UInt8) :
    signExtend raw.length (number raw) = twosComplement raw := by
  rw [signExtend, twosComplement_eq]

theorem parseSwitch_unsigned {nested : ℕ → Parse (MessagePackValue × ℕ)} {markerOffset exponent : ℕ}
    (hexponent : exponent < 4) (hlength : start.length = 2 ^ exponent)
    (h : Remaining input bytes cursor (start ++ rest)) :
    parseSwitch input bytes nested (0xcc + exponent) markerOffset cursor =
      .ok (.unsigned (bytes.fileOffset + markerOffset) (number start),
        cursor + start.length) := by
  rw [parseSwitch, if_pos (by omega), Nat.add_sub_cancel_left, ← hlength,
    readBigEndian_of_remaining h]
  rfl

theorem parseSwitch_signed {nested : ℕ → Parse (MessagePackValue × ℕ)} {markerOffset exponent : ℕ}
    (hexponent : exponent < 4) (hlength : start.length = 2 ^ exponent)
    (h : Remaining input bytes cursor (start ++ rest)) :
    parseSwitch input bytes nested (0xd0 + exponent) markerOffset cursor =
      .ok (.signed (bytes.fileOffset + markerOffset) (twosComplement start),
        cursor + start.length) := by
  rw [parseSwitch, if_neg (by omega), if_pos (by omega), Nat.add_sub_cancel_left, ← hlength,
    readBigEndian_of_remaining h, ← signExtend_eq_twosComplement]
  rfl

/-- The reader with a number of levels left reads every encoding of a value that is nested
less deep, and moves the cursor behind it. -/
theorem parseValue_complete {value : Value} {text : List UInt8} (h : Encodes value text) :
    ∀ {depth levels : ℕ}, Nested depth value → depth < levels →
      ReadsAs input bytes (parseValue input bytes levels) value text := by
  intro depth levels hnested hlevels cursor rest hremaining
  obtain ⟨levels, rfl⟩ : ∃ below, levels = below + 1 := ⟨levels - 1, by omega⟩
  induction h generalizing depth levels cursor rest with
  | nil =>
    rw [parseValue_of_remaining hremaining, parseMarked_other (by decide) (by decide)]
    exact ⟨_, rfl, by rw [meaning]⟩
  | false =>
    rw [parseValue_of_remaining hremaining, parseMarked_other (by decide) (by decide)]
    exact ⟨_, rfl, by rw [meaning]; rfl⟩
  | true =>
    rw [parseValue_of_remaining hremaining, parseMarked_other (by decide) (by decide)]
    exact ⟨_, rfl, by rw [meaning]; rfl⟩
  | positive hbyte =>
    rw [parseValue_of_remaining hremaining, parseMarked_positive hbyte]
    exact ⟨_, rfl, by rw [meaning]⟩
  | @negative byte hbyte =>
    rw [parseValue_of_remaining hremaining, parseMarked_negative hbyte]
    refine ⟨_, rfl, ?_⟩
    rw [meaning, signExtend, if_neg (by omega)]
    rfl
  | @unsigned exponent raw hexponent hlength =>
    rw [List.cons_append] at hremaining
    rw [parseValue_of_marker (by omega) hremaining, parseMarked_switch (by omega) (by omega),
      parseSwitch_unsigned hexponent hlength hremaining.tail]
    rw [List.length_cons, Nat.add_comm raw.length, ← Nat.add_assoc]
    exact ⟨_, rfl, by rw [meaning]⟩
  | @signed exponent raw hexponent hlength =>
    rw [List.cons_append] at hremaining
    rw [parseValue_of_marker (by omega) hremaining, parseMarked_switch (by omega) (by omega),
      parseSwitch_signed hexponent hlength hremaining.tail]
    rw [List.length_cons, Nat.add_comm raw.length, ← Nat.add_assoc]
    exact ⟨_, rfl, by rw [meaning]⟩
  | string hheader =>
    rw [List.append_assoc] at hremaining
    rw [(countedBy_string _).parseValue hheader hremaining,
      parseString_of_remaining hremaining.advance, List.length_append, ← Nat.add_assoc]
    exact ⟨_, rfl, by rw [meaning, bytesOfString_stringOfBytes]⟩
  | @array items header hheader hitems ih =>
    cases hnested with
    | array hpositive hvalues =>
      rw [List.append_assoc] at hremaining
      have hreads : ∀ item ∈ items,
          ReadsAs input bytes (parseValue input bytes levels) item.1 item.2 := by
        intro item hitem cursor rest hremaining
        have hmem : item.1 ∈ items.map (·.1) := List.mem_map_of_mem hitem
        have hdepth := hpositive _ hmem
        obtain ⟨below, rfl⟩ : ∃ below, levels = below + 1 := ⟨levels - 1, by omega⟩
        exact ih item hitem (hvalues _ hmem) cursor rest hremaining below (by omega)
      rw [(countedBy_array _).parseValue hheader hremaining, List.length_append, ← Nat.add_assoc]
      exact parseArray_complete hitems hreads hremaining.advance
  | @map items header hheader hkeys hvalues hnodup ihkeys ihvalues =>
    cases hnested with
    | map hpositive hnested =>
      rw [List.append_assoc] at hremaining
      have hdepth : ∀ item ∈ items, 0 < depth ∧ Nested (depth - 1) item.value := by
        intro item hitem
        have hmem := List.mem_map_of_mem (f := fun item : Entry => (item.key, item.value)) hitem
        exact ⟨hpositive _ hmem, hnested _ hmem⟩
      have hreadKeys : ∀ item ∈ items,
          ReadsAs input bytes (parseValue input bytes levels) (.string item.key) item.keyText := by
        intro item hitem cursor rest hremaining
        have hpositive := (hdepth item hitem).1
        obtain ⟨below, rfl⟩ : ∃ below, levels = below + 1 := ⟨levels - 1, by omega⟩
        exact ihkeys item hitem (@Nested.string 0 item.key) cursor rest hremaining below (by omega)
      have hreadValues : ∀ item ∈ items,
          ReadsAs input bytes (parseValue input bytes levels) item.value item.text := by
        intro item hitem cursor rest hremaining
        have hpositive := (hdepth item hitem).1
        obtain ⟨below, rfl⟩ : ∃ below, levels = below + 1 := ⟨levels - 1, by omega⟩
        exact ihvalues item hitem (hdepth item hitem).2 cursor rest hremaining below (by omega)
      rw [(countedBy_map _).parseValue hheader hremaining, List.length_append, ← Nat.add_assoc]
      exact parseMap_complete hkeys hvalues hreadKeys hreadValues hnodup hremaining.advance

end LightRocm.Loader
