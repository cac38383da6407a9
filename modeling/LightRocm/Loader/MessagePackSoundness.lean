import LightRocm.Loader.MessagePackCodec

/-!
# What the MessagePack reader accepts

Each part of the reader takes a text from the bytes that are left and ensures something
about it. The parts are composed along the source, up to the value of the whole metadata.
-/

namespace LightRocm.Loader

open ByteReader MessagePackFormat

variable {input : Input} {bytes : MetadataBytes} {α β : Type}

/-- The bytes from the cursor on begin with a text of which `P` holds, and the reader goes
behind it. -/
def Takes (cursor : ℕ) (rest : List UInt8) (x : Parse (α × ℕ)) (P : α → List UInt8 → Prop) : Prop :=
  Ensures x fun result =>
    ∃ text more, rest = text ++ more ∧ result.2 = cursor + text.length ∧ P result.1 text

/-- The reader does so wherever it starts inside the metadata. -/
def AlwaysTakes (input : Input) (bytes : MetadataBytes) (read : ℕ → Parse (α × ℕ))
    (P : α → List UInt8 → Prop) : Prop :=
  ∀ cursor rest, Remaining input bytes cursor rest → Takes cursor rest (read cursor) P

variable {cursor : ℕ} {rest : List UInt8} {x : Parse (α × ℕ)} {P P' : α → List UInt8 → Prop}
  {Q : β → List UInt8 → Prop}

theorem Takes.mono (h : Takes cursor rest x P) (himp : ∀ a text, P a text → P' a text) :
    Takes cursor rest x P' := by
  apply Ensures.mono h
  rintro result ⟨text, more, hrest, hcursor, hP⟩
  exact ⟨text, more, hrest, hcursor, himp _ _ hP⟩

theorem takes_pure {a : α} (h : P a []) : Takes cursor rest (pure (a, cursor)) P :=
  ensures_pure ⟨[], rest, rfl, rfl, h⟩

theorem Takes.guard {condition : Prop} [Decidable condition] {error : ParseError}
    (h : ¬ condition → Takes cursor rest x P) :
    Takes cursor rest (if condition then reject error else x) P :=
  Ensures.guard h

/-- A text that has been taken is followed by another one. -/
theorem Takes.append {first more : List UInt8}
    (h : Takes (cursor + first.length) more x fun a second => P a (first ++ second)) :
    Takes cursor (first ++ more) x P := by
  apply Ensures.mono h
  rintro ⟨a, cursor'⟩ ⟨second, more, rfl, rfl, hP⟩
  refine ⟨first ++ second, more, ?_, ?_, hP⟩
  · rw [List.append_assoc]
  · rw [List.length_append, Nat.add_assoc]

/-- One reader after the other. -/
theorem Takes.bind {f : α × ℕ → Parse (β × ℕ)} (h : Takes cursor rest x P)
    (hremaining : Remaining input bytes cursor rest)
    (hf : ∀ a first more, P a first → Remaining input bytes (cursor + first.length) more →
      Takes (cursor + first.length) more (f (a, cursor + first.length))
        fun b second => Q b (first ++ second)) :
    Takes cursor rest (x >>= f) Q := by
  apply Ensures.bind h
  rintro ⟨a, cursor'⟩ ⟨first, more, rfl, rfl, hP⟩
  exact (hf a first more hP hremaining.advance).append

/-- A result is rewritten behind the reader. -/
theorem Takes.map {f : α × ℕ → Parse (β × ℕ)} {g : α → β} (h : Takes cursor rest x P)
    (hf : ∀ a cursor, f (a, cursor) = pure (g a, cursor))
    (hQ : ∀ a text, P a text → Q (g a) text) : Takes cursor rest (x >>= f) Q := by
  apply Ensures.bind h
  rintro ⟨a, cursor'⟩ ⟨text, more, hrest, hcursor, hP⟩
  rw [hf]
  exact ensures_pure ⟨text, more, hrest, hcursor, hQ a text hP⟩

/-! ## The parts of the reader -/

/-- What the reader ensures of a value: its text is an encoding of it, and a string has been
made of bytes. -/
structure Denotes (value : MessagePackValue) (text : List UInt8) : Prop where
  encodes : Encodes (meaning value) text
  string : ∀ offset string, value = .string offset string → ∃ raw, string = stringOfBytes raw

variable {markerOffset count width : ℕ}

/-- The bytes of a string. -/
theorem takes_parseString (hremaining : Remaining input bytes cursor rest) :
    Takes cursor rest (parseString input bytes count markerOffset cursor) fun value text =>
      ∀ header, StringHeader count header → Denotes value (header ++ text) := by
  rw [parseString]
  rcases @take_spec input bytes cursor rest count hremaining with
    ⟨-, htake⟩ | ⟨start, more, hrest, rfl, htake⟩
  · rw [htake]
    exact ensures_reject _
  · rw [htake]
    refine ensures_pure ⟨start, more, hrest, rfl, ?_⟩
    intro header hheader
    refine ⟨?_, by rintro offset string ⟨⟩; exact ⟨start, rfl⟩⟩
    rw [meaning, bytesOfString_stringOfBytes]
    exact .string hheader

/-- The bytes of a number. -/
theorem takes_readBigEndian {f : Option (ℕ × ℕ) → Parse (α × ℕ)}
    (hremaining : Remaining input bytes cursor rest)
    (hnone : Ensures (f none) fun _ => False)
    (hsome : ∀ start more, start.length = count →
      Remaining input bytes (cursor + start.length) more →
      Takes (cursor + start.length) more (f (some (number start, cursor + start.length)))
        fun a text => P a (start ++ text)) :
    Takes cursor rest (readBigEndian input bytes count cursor >>= f) P := by
  rw [readBigEndian]
  rcases @take_spec input bytes cursor rest count hremaining with
    ⟨-, htake⟩ | ⟨start, more, rfl, rfl, htake⟩
  · rw [htake]
    exact hnone.mono fun _ h => h.elim
  · rw [htake]
    have htakes := hsome start more rfl hremaining.advance
    rw [← bigEndian_eq_number] at htakes
    exact htakes.append

theorem takes_readLength (hremaining : Remaining input bytes cursor rest) :
    Takes cursor rest (readLength input bytes width markerOffset cursor) fun length text =>
      text.length = width ∧ number text = length := by
  refine takes_readBigEndian hremaining (ensures_reject _) ?_
  intro start more hlength _
  apply takes_pure
  rw [List.append_nil]
  exact ⟨hlength, rfl⟩

variable {nested : ℕ → Parse (MessagePackValue × ℕ)}

/-- The elements of an array. -/
theorem takes_parseElements (h : AlwaysTakes input bytes nested Denotes)
    (hremaining : Remaining input bytes cursor rest) :
    Takes cursor rest (parseElements nested count cursor) fun found text =>
      ∃ items : List (Value × List UInt8), items.length = count ∧
        text = (items.map (·.2)).flatten ∧ found.map meaning = items.map (·.1) ∧
        ∀ item ∈ items, Encodes item.1 item.2 := by
  induction count generalizing cursor rest with
  | zero => exact takes_pure ⟨[], rfl, rfl, rfl, by simp⟩
  | succ count ih =>
    refine (h cursor rest hremaining).bind hremaining ?_
    intro value first more hvalue hremaining
    refine (ih hremaining).map (fun _ _ => rfl) ?_
    rintro found text ⟨items, hlength, rfl, hmeanings, hitems⟩
    refine ⟨(meaning value, first) :: items, ?_, rfl, ?_, ?_⟩
    · rw [List.length_cons, hlength]
    · rw [List.map_cons, List.map_cons, hmeanings]
    · rw [List.forall_mem_cons]
      exact ⟨hvalue.encodes, hitems⟩

theorem takes_parseArray (h : AlwaysTakes input bytes nested Denotes)
    (hremaining : Remaining input bytes cursor rest) :
    Takes cursor rest (parseArray bytes nested count markerOffset cursor) fun value text =>
      ∀ header, ArrayHeader count header → Denotes value (header ++ text) := by
  apply Takes.guard
  intro _
  refine (takes_parseElements h hremaining).map (fun _ _ => rfl) ?_
  rintro found text ⟨items, rfl, rfl, hmeanings, hitems⟩ header hheader
  refine ⟨?_, by rintro offset string ⟨⟩⟩
  rw [meaning, meanings_eq, hmeanings]
  exact .array hheader hitems

/-- The names of a map as `parse_map` keeps them: strings made of bytes, each once. -/
structure Names (map : List (String × MessagePackValue)) : Prop where
  raw : ∀ entry ∈ map, ∃ raw, entry.1 = stringOfBytes raw
  nodup : (map.map (·.1)).Nodup

theorem Names.append {map : List (String × MessagePackValue)} (h : Names map) {name : String}
    {value : MessagePackValue} (hraw : ∃ raw, name = stringOfBytes raw)
    (hfresh : ¬ (map.any fun entry => entry.1 = name) = true) : Names (map ++ [(name, value)]) where
  raw := by
    rw [List.forall_mem_append, List.forall_mem_singleton]
    exact ⟨h.raw, hraw⟩
  nodup := by
    rw [List.map_append, List.map_cons, List.map_nil, List.nodup_append]
    refine ⟨h.nodup, List.nodup_singleton _, ?_⟩
    intro first hfirst second hsecond heq
    obtain ⟨entry, hentry, rfl⟩ := List.mem_map.mp hfirst
    rw [List.mem_singleton.mp hsecond] at heq
    exact hfresh (List.any_eq_true.mpr ⟨entry, hentry, decide_eq_true heq⟩)

variable {map : List (String × MessagePackValue)}

/-- Different names have different bytes. -/
theorem Names.nodup_bytes (h : Names map) :
    (map.map fun entry => bytesOfString entry.1).Nodup := by
  rw [show (fun entry : String × MessagePackValue => bytesOfString entry.1) =
    bytesOfString ∘ (·.1) from rfl, ← List.map_map]
  refine List.Nodup.map_on ?_ h.nodup
  intro first hfirst second hsecond heq
  obtain ⟨entry, hentry, rfl⟩ := List.mem_map.mp hfirst
  obtain ⟨entry', hentry', rfl⟩ := List.mem_map.mp hsecond
  obtain ⟨raw, hraw⟩ := h.raw entry hentry
  obtain ⟨raw', hraw'⟩ := h.raw entry' hentry'
  rw [hraw, hraw', bytesOfString_stringOfBytes, bytesOfString_stringOfBytes] at heq
  rw [hraw, hraw', heq]

/-- The entries of a map, behind those that are there already. -/
theorem takes_parseEntries (h : AlwaysTakes input bytes nested Denotes) (hnames : Names map)
    (hremaining : Remaining input bytes cursor rest) :
    Takes cursor rest (parseEntries bytes nested count cursor map) fun found text =>
      Names found ∧ ∃ (items : List Entry) (new : List (String × MessagePackValue)),
        found = map ++ new ∧ items.length = count ∧
        text = (items.map fun item => item.keyText ++ item.text).flatten ∧
        new.map (fun entry => (bytesOfString entry.1, meaning entry.2)) =
          items.map (fun item => (item.key, item.value)) ∧
        (∀ item ∈ items, Encodes (.string item.key) item.keyText) ∧
        ∀ item ∈ items, Encodes item.value item.text := by
  induction count generalizing cursor rest map with
  | zero => exact takes_pure ⟨hnames, [], [], by simp, rfl, rfl, rfl, by simp, by simp⟩
  | succ count ih =>
    refine (h cursor rest hremaining).bind hremaining ?_
    intro key first more hkey hremaining
    cases key with
    | string offset name =>
      apply Takes.guard
      intro hfresh
      refine (h _ more hremaining).bind hremaining ?_
      intro value second more hvalue hremaining
      refine (ih (hnames.append (hkey.string _ _ rfl) hfresh) hremaining).mono ?_
      rintro found text ⟨hfound, items, new, rfl, rfl, rfl, hnew, hkeys, hvalues⟩
      have hencodes := hkey.encodes
      rw [meaning] at hencodes
      refine ⟨hfound, ⟨bytesOfString name, first, meaning value, second⟩ :: items,
        (name, value) :: new, ?_, rfl, ?_, ?_, ?_, ?_⟩
      · rw [List.append_assoc, List.singleton_append]
      · rw [List.map_cons, List.flatten_cons, List.append_assoc]
      · rw [List.map_cons, List.map_cons, hnew]
      · rw [List.forall_mem_cons]
        exact ⟨hencodes, hkeys⟩
      · rw [List.forall_mem_cons]
        exact ⟨hvalue.encodes, hvalues⟩
    | nil | boolean | unsigned | signed | array | map => exact ensures_reject _

theorem takes_parseMap (h : AlwaysTakes input bytes nested Denotes)
    (hremaining : Remaining input bytes cursor rest) :
    Takes cursor rest (parseMap bytes nested count markerOffset cursor) fun value text =>
      ∀ header, MapHeader count header → Denotes value (header ++ text) := by
  apply Takes.guard
  intro _
  refine (takes_parseEntries h ⟨by simp, by simp⟩ hremaining).map (fun _ _ => rfl) ?_
  rintro found text ⟨hnames, items, new, rfl, rfl, rfl, hnew, hkeys, hvalues⟩ header hheader
  refine ⟨?_, by rintro offset string ⟨⟩⟩
  have hnodup : (items.map (·.key)).Nodup := by
    have hbytes := hnames.nodup_bytes
    have hmap := congrArg (List.map (·.1)) hnew
    simp only [List.map_map, Function.comp_def] at hmap
    rwa [hmap] at hbytes
  rw [meaning, entryMeanings_eq, hnew]
  exact .map hheader hkeys hvalues hnodup

/-! ## Values -/

section Counted

variable {base limit : ℕ} {wide : List (ℕ × ℕ)} {parse : ℕ → ℕ → ℕ → Parse (MessagePackValue × ℕ)}

/-- A marker that holds a count. -/
theorem CountedBy.takes_short (h : CountedBy input bytes nested base limit wide parse)
    (hcount : count < limit)
    (hparse : Takes cursor rest (parse count markerOffset cursor) fun value text =>
      ∀ header, Header base limit wide count header → Denotes value (header ++ text)) :
    Takes cursor rest (parseMarked input bytes nested (base + count) markerOffset cursor)
      fun value text => Denotes value (UInt8.ofNat (base + count) :: text) := by
  rw [(h.short count hcount).2]
  apply hparse.mono
  intro value text hvalue
  exact hvalue _ (.short hcount)

/-- A marker with a count behind it. -/
theorem CountedBy.takes_wide {marker : ℕ} (h : CountedBy input bytes nested base limit wide parse)
    (hmarker : (marker, width) ∈ wide) (hremaining : Remaining input bytes cursor rest)
    (hparse : ∀ {count cursor rest}, Remaining input bytes cursor rest →
      Takes cursor rest (parse count markerOffset cursor) fun value text =>
        ∀ header, Header base limit wide count header → Denotes value (header ++ text)) :
    Takes cursor rest (parseMarked input bytes nested marker markerOffset cursor)
      fun value text => Denotes value (UInt8.ofNat marker :: text) := by
  rw [(h.wide _ hmarker).2]
  refine (takes_readLength hremaining).bind hremaining ?_
  rintro length counted more ⟨hwidth, hlength⟩ hremaining
  apply (hparse hremaining).mono
  intro value text hvalue
  exact hvalue _ (.wide hmarker hwidth hlength)

end Counted

theorem takes_unsigned {exponent : ℕ} (hexponent : exponent < 4)
    (hremaining : Remaining input bytes cursor rest) :
    Takes cursor rest (parseMarked input bytes nested (0xcc + exponent) markerOffset cursor)
      fun value text => Denotes value (UInt8.ofNat (0xcc + exponent) :: text) := by
  rw [parseMarked_switch (by omega) (by omega), parseSwitch, if_pos (by omega),
    Nat.add_sub_cancel_left]
  refine takes_readBigEndian hremaining (ensures_reject _) ?_
  intro start more hlength _
  apply takes_pure
  refine ⟨?_, by rintro offset string ⟨⟩⟩
  rw [meaning, List.append_nil]
  exact .unsigned hexponent hlength

theorem takes_signed {exponent : ℕ} (hexponent : exponent < 4)
    (hremaining : Remaining input bytes cursor rest) :
    Takes cursor rest (parseMarked input bytes nested (0xd0 + exponent) markerOffset cursor)
      fun value text => Denotes value (UInt8.ofNat (0xd0 + exponent) :: text) := by
  rw [parseMarked_switch (by omega) (by omega), parseSwitch, if_neg (by omega), if_pos (by omega),
    Nat.add_sub_cancel_left]
  refine takes_readBigEndian hremaining (ensures_reject _) ?_
  intro start more hlength _
  apply takes_pure
  refine ⟨?_, by rintro offset string ⟨⟩⟩
  rw [meaning, List.append_nil, ← hlength, signExtend_eq_twosComplement]
  exact .signed hexponent hlength

/-- A marker that the format does not have, or that the reader does not support. -/
theorem takes_unsupported {marker : ℕ} (hmarker : marker = 0xc1 ∨
      (0xc4 ≤ marker ∧ marker < 0xcc) ∨ (0xd4 ≤ marker ∧ marker < 0xd9)) :
    Takes cursor rest (parseMarked input bytes nested marker markerOffset cursor)
      fun value text => Denotes value (UInt8.ofNat marker :: text) := by
  rw [parseMarked_other (by omega) (by omega), if_neg (by omega), if_neg (by omega), parseSwitch,
    if_neg (by omega), if_neg (by omega), if_neg (by omega), if_neg (by omega), if_neg (by omega)]
  exact ensures_reject _

/-- A value of a single byte. -/
theorem takes_single {marker : ℕ} {value : MessagePackValue} {byte : UInt8}
    (hparse : parseMarked input bytes nested marker markerOffset cursor = .ok (value, cursor))
    (hvalue : Denotes value [byte]) :
    Takes cursor rest (parseMarked input bytes nested marker markerOffset cursor)
      fun value text => Denotes value (byte :: text) := by
  rw [hparse]
  exact takes_pure hvalue

/-- The markers of nothing and of the booleans. -/
theorem takes_parseMarked_constant {marker : ℕ} (hmarker : 0xc0 ≤ marker) (hmarker' : marker < 0xc4) :
    Takes cursor rest (parseMarked input bytes nested marker markerOffset cursor)
      fun value text => Denotes value (UInt8.ofNat marker :: text) := by
  have hcases : marker = 0xc0 ∨ marker = 0xc1 ∨ marker = 0xc2 ∨ marker = 0xc3 := by omega
  rcases hcases with rfl | rfl | rfl | rfl
  · refine takes_single (parseMarked_other (by decide) (by decide)) ⟨?_, by rintro offset string ⟨⟩⟩
    rw [meaning]
    exact .nil
  · exact takes_unsupported (.inl rfl)
  · refine takes_single (parseMarked_other (by decide) (by decide)) ⟨?_, by rintro offset string ⟨⟩⟩
    rw [meaning]
    exact .false
  · refine takes_single (parseMarked_other (by decide) (by decide)) ⟨?_, by rintro offset string ⟨⟩⟩
    rw [meaning]
    exact .true

/-- The markers that hold a number themselves. -/
theorem takes_parseMarked_low {marker : ℕ} (h : AlwaysTakes input bytes nested Denotes)
    (hremaining : Remaining input bytes cursor rest) (hmarker : marker < 0xc0) :
    Takes cursor rest (parseMarked input bytes nested marker markerOffset cursor)
      fun value text => Denotes value (UInt8.ofNat marker :: text) := by
  rcases Nat.lt_or_ge marker 0x80 with h80 | h80
  · have hbyte : (UInt8.ofNat marker).toNat = marker :=
      UInt8.toNat_ofNat_of_lt' (hmarker.trans (by decide))
    refine takes_single (parseMarked_positive h80) ⟨?_, by rintro offset string ⟨⟩⟩
    rw [meaning]
    nth_rewrite 1 [← hbyte]
    exact .positive (by omega)
  rcases Nat.lt_or_ge marker 0x90 with h90 | h90
  · obtain ⟨count, rfl⟩ := Nat.exists_eq_add_of_le h80
    exact (countedBy_map nested).takes_short (by omega) (takes_parseMap h hremaining)
  rcases Nat.lt_or_ge marker 0xa0 with ha0 | ha0
  · obtain ⟨count, rfl⟩ := Nat.exists_eq_add_of_le h90
    exact (countedBy_array nested).takes_short (by omega) (takes_parseArray h hremaining)
  · obtain ⟨count, rfl⟩ := Nat.exists_eq_add_of_le ha0
    exact (countedBy_string nested).takes_short (by omega) (takes_parseString hremaining)

/-- The markers with a count behind them. -/
theorem takes_parseMarked_wide {marker : ℕ} (h : AlwaysTakes input bytes nested Denotes)
    (hremaining : Remaining input bytes cursor rest) (hmarker : 0xd9 ≤ marker)
    (hmarker' : marker < 0xe0) :
    Takes cursor rest (parseMarked input bytes nested marker markerOffset cursor)
      fun value text => Denotes value (UInt8.ofNat marker :: text) := by
  have hfamily : (∃ width, (marker, width) ∈ [(0xd9, 1), (0xda, 2), (0xdb, 4)]) ∨
      (∃ width, (marker, width) ∈ [(0xdc, 2), (0xdd, 4)]) ∨
      ∃ width, (marker, width) ∈ [(0xde, 2), (0xdf, 4)] := by
    simp only [List.mem_cons, Prod.mk.injEq, List.not_mem_nil, or_false, exists_or, exists_and_left,
      exists_eq, and_true]
    omega
  rcases hfamily with ⟨width, hmem⟩ | ⟨width, hmem⟩ | ⟨width, hmem⟩
  · exact (countedBy_string nested).takes_wide hmem hremaining takes_parseString
  · exact (countedBy_array nested).takes_wide hmem hremaining (takes_parseArray h)
  · exact (countedBy_map nested).takes_wide hmem hremaining (takes_parseMap h)

/-- Everything `parse_value` does behind the marker. -/
theorem takes_parseMarked {marker : ℕ} (h : AlwaysTakes input bytes nested Denotes)
    (hremaining : Remaining input bytes cursor rest) (hmarker : marker < 256) :
    Takes cursor rest (parseMarked input bytes nested marker markerOffset cursor)
      fun value text => Denotes value (UInt8.ofNat marker :: text) := by
  rcases Nat.lt_or_ge marker 0xc0 with hlow | hc0
  · exact takes_parseMarked_low h hremaining hlow
  rcases Nat.lt_or_ge marker 0xc4 with hc4 | hc4
  · exact takes_parseMarked_constant hc0 hc4
  rcases Nat.lt_or_ge marker 0xcc with hcc | hcc
  · exact takes_unsupported (by omega)
  rcases Nat.lt_or_ge marker 0xd0 with hd0 | hd0
  · obtain ⟨exponent, rfl⟩ := Nat.exists_eq_add_of_le hcc
    exact takes_unsigned (by omega) hremaining
  rcases Nat.lt_or_ge marker 0xd4 with hd4 | hd4
  · obtain ⟨exponent, rfl⟩ := Nat.exists_eq_add_of_le hd0
    exact takes_signed (by omega) hremaining
  rcases Nat.lt_or_ge marker 0xd9 with hd9 | hd9
  · exact takes_unsupported (by omega)
  rcases Nat.lt_or_ge marker 0xe0 with he0 | he0
  · exact takes_parseMarked_wide h hremaining hd9 he0
  · have hbyte : (UInt8.ofNat marker).toNat = marker := UInt8.toNat_ofNat_of_lt' hmarker
    refine takes_single (parseMarked_negative he0) ⟨?_, by rintro offset string ⟨⟩⟩
    rw [meaning, signExtend, if_neg (by omega)]
    nth_rewrite 1 [← hbyte]
    exact .negative (by omega)

/-- The reader takes encodings of the values it gives, however many levels are left. -/
theorem takes_parseValue (levels : ℕ) :
    AlwaysTakes input bytes (parseValue input bytes levels) Denotes := by
  induction levels with
  | zero =>
    intro cursor rest _
    exact ensures_reject _
  | succ levels ih =>
    intro cursor rest hremaining
    cases rest with
    | nil =>
      rcases @take_spec input bytes cursor [] 1 hremaining with
        ⟨-, htake⟩ | ⟨start, more, hrest, hlength, -⟩
      · rw [parseValue, htake]
        exact ensures_reject _
      · rw [List.nil_eq, List.append_eq_nil_iff] at hrest
        rw [hrest.1] at hlength
        exact absurd hlength (by decide)
    | cons byte rest =>
      rw [parseValue_of_remaining hremaining]
      have htakes := @takes_parseMarked input bytes _ _ cursor _ _ ih hremaining.tail byte.toNat_lt
      rw [UInt8.ofNat_toNat] at htakes
      exact @Takes.append _ cursor _ Denotes [byte] rest htakes

/-! ## The whole metadata -/

/-- Metadata that is a part of the file. -/
theorem remaining_of_eq {front text back start rest : List UInt8}
    (hinput : input.bytes = front ++ text ++ back) (htext : text = start ++ rest) :
    Remaining input ⟨front.length, text.length⟩ start.length rest where
  inside := by
    rw [hinput, List.length_append, List.length_append]
    exact Nat.le_add_right _ _
  size := by rw [htext, List.length_append]
  rest := by
    refine ⟨back, ?_⟩
    rw [hinput, htext, ← List.drop_drop, List.append_assoc, List.drop_left, List.append_assoc,
      List.drop_left]

/-- The metadata has one value, which ends where the metadata ends. -/
theorem parseMetadata_eq_ok_iff {found : MessagePackValue} :
    parseMetadata input bytes = .ok found ↔
      parseValue input bytes (kMaximumMetadataDepth + 1) 0 = .ok (found, bytes.size) := by
  rw [parseMetadata]
  rcases parseValue input bytes (kMaximumMetadataDepth + 1) 0 with stop | ⟨value, cursor⟩
  · constructor
    · rintro ⟨⟩
    · rintro ⟨⟩
  · change (if cursor ≠ bytes.size then _ else pure value) = _ ↔ _
    split
    · next hcursor =>
      constructor
      · rintro ⟨⟩
      · rintro ⟨⟩
        exact absurd rfl hcursor
    · next hcursor =>
      rw [not_not.mp hcursor]
      constructor
      · rintro ⟨⟩
        rfl
      · rintro ⟨⟩
        rfl

/-- The reader and the format: wherever an encoding of a value that is nested at most 64 deep
stands in the metadata, the reader takes exactly its bytes and gives the value; metadata that
is such an encoding is read as the value; and metadata that is read at all is an encoding of
what has been read. -/
theorem metadata_codec (input : Input) (front text back : List UInt8)
    (hinput : input.bytes = front ++ text ++ back) :
    (∀ value start first more, text = start ++ (first ++ more) → Encodes value first →
      Nested kMaximumMetadataDepth value →
      ∃ found, parseValue input ⟨front.length, text.length⟩ (kMaximumMetadataDepth + 1)
          start.length = .ok (found, start.length + first.length) ∧ meaning found = value) ∧
    (∀ value, Encodes value text → Nested kMaximumMetadataDepth value →
      ∃ found, parseMetadata input ⟨front.length, text.length⟩ = .ok found ∧
        meaning found = value) ∧
    ∀ found, parseMetadata input ⟨front.length, text.length⟩ = .ok found →
      Encodes (meaning found) text := by
  refine ⟨?_, ?_, ?_⟩
  · intro value start first more htext hencodes hnested
    exact parseValue_complete hencodes hnested (Nat.lt_succ_self _) _ _
      (remaining_of_eq hinput htext)
  · intro value hencodes hnested
    have hremaining : Remaining input ⟨front.length, text.length⟩ 0 (text ++ []) :=
      @remaining_of_eq input front text back [] _ hinput (by rw [List.append_nil]; rfl)
    obtain ⟨found, hparse, hmeaning⟩ :=
      parseValue_complete hencodes hnested (Nat.lt_succ_self _) 0 [] hremaining
    refine ⟨found, parseMetadata_eq_ok_iff.mpr ?_, hmeaning⟩
    rw [hparse, Nat.zero_add]
  · intro found hparse
    have hremaining : Remaining input ⟨front.length, text.length⟩ 0 text :=
      @remaining_of_eq input front text back [] _ hinput rfl
    obtain ⟨consumed, more, htext, hsize, hdenotes⟩ :=
      (takes_parseValue _ 0 text hremaining).of_ok (parseMetadata_eq_ok_iff.mp hparse)
    have hmore : more = [] := by
      rw [← List.length_eq_zero_iff]
      have hlength := congrArg List.length htext
      rw [List.length_append] at hlength
      dsimp only at hsize
      omega
    rw [hmore, List.append_nil] at htext
    rw [htext]
    exact hdenotes.encodes

/-- The map from `a` to the array of 258 and -2, each in two bytes. -/
def twoIntegers : List UInt8 := [0x81, 0xa1, 0x61, 0x92, 0xcd, 0x01, 0x02, 0xd1, 0xff, 0xfe]

theorem metadata_codec_entry : ∃ found,
    parseMetadata ⟨twoIntegers, by decide⟩ ⟨0, 10⟩ = .ok found ∧
      meaning found = .map [([0x61], .array [.integer 258, .integer (-2)])] := by
  have hunsigned : Encodes (.integer 258) [0xcd, 0x01, 0x02] :=
    @Encodes.unsigned 1 [0x01, 0x02] (by decide) rfl
  have hsigned : Encodes (.integer (-2)) [0xd1, 0xff, 0xfe] := by
    have hvalue : twosComplement [0xff, 0xfe] = -2 := by decide
    rw [← hvalue]
    exact @Encodes.signed 1 [0xff, 0xfe] (by decide) rfl
  have harray : Encodes (.array [.integer 258, .integer (-2)])
      [0x92, 0xcd, 0x01, 0x02, 0xd1, 0xff, 0xfe] := by
    refine @Encodes.array [(_, [0xcd, 0x01, 0x02]), (_, [0xd1, 0xff, 0xfe])] [0x92]
      (.short (by decide)) ?_
    rw [List.forall_mem_cons, List.forall_mem_singleton]
    exact ⟨hunsigned, hsigned⟩
  have hencodes : Encodes (.map [([0x61], .array [.integer 258, .integer (-2)])]) twoIntegers := by
    refine @Encodes.map [⟨[0x61], [0xa1, 0x61], _, [0x92, 0xcd, 0x01, 0x02, 0xd1, 0xff, 0xfe]⟩]
      [0x81] (.short (by decide)) ?_ ?_ (by decide)
    · rw [List.forall_mem_singleton]
      exact @Encodes.string [0x61] [0xa1] (.short (by decide))
    · rw [List.forall_mem_singleton]
      exact harray
  refine (metadata_codec ⟨twoIntegers, by decide⟩ [] _ [] (List.append_nil _).symm).2.1
    _ hencodes (.map (by decide) ?_)
  rw [List.forall_mem_singleton]
  refine .array (by decide) ?_
  rw [List.forall_mem_cons, List.forall_mem_singleton]
  exact ⟨.integer, .integer⟩

end LightRocm.Loader
