import LightRocm.Loader.CodeObject

/-!
# The MessagePack reader

`MessagePackReader` of `metadata_reader.cpp`. The nesting is bounded, so the
recursion is on the number of levels that are left.
-/

namespace LightRocm.Loader

open ByteReader

/-- `MetadataBytes`: a part of the file. -/
structure MetadataBytes where
  fileOffset : ℕ
  size : ℕ

/-- `MessagePackValue`, with the offset of its marker. -/
inductive MessagePackValue where
  | nil (offset : ℕ)
  | boolean (offset : ℕ) (boolean : Bool)
  | unsigned (offset : ℕ) (unsignedInteger : ℕ)
  | signed (offset : ℕ) (signedInteger : ℤ)
  | string (offset : ℕ) (string : String)
  | array (offset : ℕ) (array : List MessagePackValue)
  | map (offset : ℕ) (map : List (String × MessagePackValue))

/-- The offset of a value. -/
def MessagePackValue.offset : MessagePackValue → ℕ
  | .nil offset | .boolean offset _ | .unsigned offset _ | .signed offset _ | .string offset _
  | .array offset _ | .map offset _ => offset

/-- A `std::string` with the given bytes. -/
def stringOfBytes (bytes : List UInt8) : String :=
  String.ofList (bytes.map fun byte => Char.ofNat byte.toNat)

/-- `kMaximumMetadataDepth`. -/
def kMaximumMetadataDepth : ℕ := 64

variable {α : Type}

variable (bytes : MetadataBytes)

/-- `MessagePackReader::fail`. -/
def MetadataBytes.fail (code : ParseErrorCode) (relativeOffset : ℕ) (message : String) : Parse α :=
  failure code (bytes.fileOffset + relativeOffset) message

/-- `MessagePackReader::take`: the bytes, unless there are not enough of them. -/
def take (input : Input) (bytes : MetadataBytes) (count cursor : ℕ) :
    Parse (Option (List UInt8 × ℕ)) :=
  if u64Sub bytes.size cursor < count then return none
  else do
    let start ← entries input.bytes (bytes.fileOffset + cursor) count
    return some (start, cursor + count)

/-- `MessagePackReader::read_big_endian`. -/
def readBigEndian (input : Input) (bytes : MetadataBytes) (count cursor : ℕ) :
    Parse (Option (ℕ × ℕ)) := do
  return (← take input bytes count cursor).map fun (start, cursor) => (bigEndian start, cursor)

/-- `MessagePackReader::read_length`; a length of at most four bytes is a `size_t`. -/
def readLength (input : Input) (bytes : MetadataBytes) (width markerOffset cursor : ℕ) :
    Parse (ℕ × ℕ) := do
  match ← readBigEndian input bytes width cursor with
  | none => bytes.fail .invalidMetadata markerOffset "MessagePack length is truncated"
  | some result => return result

/-- `MessagePackReader::parse_string`. -/
def parseString (input : Input) (bytes : MetadataBytes) (length markerOffset cursor : ℕ) :
    Parse (MessagePackValue × ℕ) := do
  match ← take input bytes length cursor with
  | none => bytes.fail .invalidMetadata markerOffset "MessagePack string is truncated"
  | some (start, cursor) =>
    return (.string (bytes.fileOffset + markerOffset) (stringOfBytes start), cursor)

/-- The loop of `MessagePackReader::parse_array`; `parse` reads an element. -/
def parseElements (parse : ℕ → Parse (MessagePackValue × ℕ)) :
    ℕ → ℕ → Parse (List MessagePackValue × ℕ)
  | 0, cursor => return ([], cursor)
  | count + 1, cursor => do
    let (first, cursor) ← parse cursor
    let (rest, cursor) ← parseElements parse count cursor
    return (first :: rest, cursor)

/-- `MessagePackReader::parse_array`. -/
def parseArray (parse : ℕ → Parse (MessagePackValue × ℕ)) (count markerOffset cursor : ℕ) :
    Parse (MessagePackValue × ℕ) :=
  if u64Sub bytes.size cursor < count then
    bytes.fail .invalidMetadata markerOffset "MessagePack array count exceeds remaining bytes"
  else do
    let (array, cursor) ← parseElements parse count cursor
    return (.array (bytes.fileOffset + markerOffset) array, cursor)

/-- The loop of `MessagePackReader::parse_map`; `map` are the entries so far. -/
def parseEntries (bytes : MetadataBytes) (parse : ℕ → Parse (MessagePackValue × ℕ)) :
    ℕ → ℕ → List (String × MessagePackValue) → Parse (List (String × MessagePackValue) × ℕ)
  | 0, cursor, map => return (map, cursor)
  | count + 1, cursor, map => do
    let (key, cursor) ← parse cursor
    match key with
    | .string offset name =>
      if map.any fun entry => entry.1 = name then
        bytes.fail .invalidMetadata (offset - bytes.fileOffset)
          "AMDHSA metadata map contains a duplicate key"
      else
        let (mapped, cursor) ← parse cursor
        parseEntries bytes parse count cursor (map ++ [(name, mapped)])
    | key =>
      bytes.fail .invalidMetadata (key.offset - bytes.fileOffset)
        "AMDHSA metadata map key is not a string"

/-- `MessagePackReader::parse_map`. -/
def parseMap (parse : ℕ → Parse (MessagePackValue × ℕ)) (count markerOffset cursor : ℕ) :
    Parse (MessagePackValue × ℕ) :=
  if u64Sub bytes.size cursor / 2 < count then
    bytes.fail .invalidMetadata markerOffset "MessagePack map count exceeds remaining bytes"
  else do
    let (map, cursor) ← parseEntries bytes parse count cursor []
    return (.map (bytes.fileOffset + markerOffset) map, cursor)

/-- The integer with the given bits, of `width` bytes. -/
def signExtend (width bits : ℕ) : ℤ :=
  if bits < 2 ^ (8 * width - 1) then bits else bits - 2 ^ (8 * width)

/-- The `switch` of `MessagePackReader::parse_value`; `nested` reads the values inside this one. -/
def parseSwitch (input : Input) (bytes : MetadataBytes) (nested : ℕ → Parse (MessagePackValue × ℕ))
    (marker markerOffset cursor : ℕ) : Parse (MessagePackValue × ℕ) :=
  let offset := bytes.fileOffset + markerOffset
  if 0xcc ≤ marker ∧ marker ≤ 0xcf then do
    match ← readBigEndian input bytes (2 ^ (marker - 0xcc)) cursor with
    | none => bytes.fail .invalidMetadata markerOffset "MessagePack unsigned integer is truncated"
    | some (integer, cursor) => return (.unsigned offset integer, cursor)
  else if 0xd0 ≤ marker ∧ marker ≤ 0xd3 then do
    match ← readBigEndian input bytes (2 ^ (marker - 0xd0)) cursor with
    | none => bytes.fail .invalidMetadata markerOffset "MessagePack signed integer is truncated"
    | some (bits, cursor) =>
      return (.signed offset (signExtend (2 ^ (marker - 0xd0)) bits), cursor)
  else if 0xd9 ≤ marker ∧ marker ≤ 0xdb then do
    let (length, cursor) ← readLength input bytes (2 ^ (marker - 0xd9)) markerOffset cursor
    parseString input bytes length markerOffset cursor
  else if marker = 0xdc ∨ marker = 0xdd then do
    let (length, cursor) ←
      readLength input bytes (if marker = 0xdc then 2 else 4) markerOffset cursor
    parseArray bytes nested length markerOffset cursor
  else if marker = 0xde ∨ marker = 0xdf then do
    let (length, cursor) ←
      readLength input bytes (if marker = 0xde then 2 else 4) markerOffset cursor
    parseMap bytes nested length markerOffset cursor
  else
    bytes.fail .unsupportedMetadataEncoding markerOffset
      "AMDHSA metadata uses an unsupported MessagePack type"

/-- `MessagePackReader::parse_value` behind the marker. -/
def parseMarked (input : Input) (bytes : MetadataBytes) (nested : ℕ → Parse (MessagePackValue × ℕ))
    (marker markerOffset cursor : ℕ) : Parse (MessagePackValue × ℕ) :=
  let offset := bytes.fileOffset + markerOffset
  if marker ≤ 0x7f then return (.unsigned offset marker, cursor)
  else if 0xe0 ≤ marker then return (.signed offset (signExtend 1 marker), cursor)
  else if marker &&& 0xe0 = 0xa0 then
    parseString input bytes (marker &&& 0x1f) markerOffset cursor
  else if marker &&& 0xf0 = 0x90 then
    parseArray bytes nested (marker &&& 0x0f) markerOffset cursor
  else if marker &&& 0xf0 = 0x80 then
    parseMap bytes nested (marker &&& 0x0f) markerOffset cursor
  else if marker = 0xc0 then return (.nil offset, cursor)
  else if marker = 0xc2 ∨ marker = 0xc3 then return (.boolean offset (marker = 0xc3), cursor)
  else parseSwitch input bytes nested marker markerOffset cursor

/-- `MessagePackReader::parse_value` with `levels` levels of nesting left; it gives the value and
the cursor behind it. -/
def parseValue (input : Input) (bytes : MetadataBytes) : ℕ → ℕ → Parse (MessagePackValue × ℕ)
  | 0, cursor =>
    bytes.fail .invalidMetadata cursor "MessagePack nesting exceeds the loader limit"
  | levels + 1, markerOffset => do
    match ← take input bytes 1 markerOffset with
    | some ([byte], cursor) =>
      parseMarked input bytes (parseValue input bytes levels) byte.toNat markerOffset cursor
    | _ => bytes.fail .invalidMetadata markerOffset "MessagePack value is truncated"

/-- `MessagePackReader::parse`. -/
def parseMetadata (input : Input) (bytes : MetadataBytes) : Parse MessagePackValue := do
  let (value, cursor) ← parseValue input bytes (kMaximumMetadataDepth + 1) 0
  if cursor ≠ bytes.size then
    bytes.fail .invalidMetadata cursor "metadata has trailing MessagePack values"
  else return value

end LightRocm.Loader
