import LightRocm.Lib.Checked
import LightRocm.Lib.TextSearch
import LightRocm.Status

/-!
# Weight bundles of the decoder

`weight_bundle.hpp`: the writer prints a manifest and packs the tensors of a decoder layer into a
data file; the loader finds the fields of the manifest by searching for their names anywhere in its
text. The rotary parameter is printed, but its value is not read here. Files can always be written
and read; two paths may lead to one file.
-/

namespace LightRocm.Qwen

open TextSearch

/-- `checked_multiply`. -/
def checkedMultiply (left right : ℕ) (context : String) : Except String ℕ :=
  if left ≠ 0 ∧ sizeMax / left < right then .error (context ++ " overflows size_t")
  else .ok (left * right)

/-- `DecoderLayerShape`. -/
structure DecoderLayerShape where
  keys : UInt32
  hidden : UInt32
  heads : UInt32
  kvHeads : UInt32
  headDim : UInt32
  intermediate : UInt32

variable (shape : DecoderLayerShape)

/-- `q_dim`. -/
def DecoderLayerShape.qDim : UInt32 := shape.heads * shape.headDim

/-- `kv_dim`. -/
def DecoderLayerShape.kvDim : UInt32 := shape.kvHeads * shape.headDim

/-- `validate_shape`. -/
def validateShape : Except String Unit := do
  Checked.refuse (shape.keys = 0 ∨ shape.hidden = 0 ∨ shape.heads = 0 ∨ shape.kvHeads = 0 ∨
      shape.headDim = 0 ∨ shape.headDim % 2 ≠ 0 ∨ shape.intermediate = 0)
    "mini decoder weight manifest has invalid shape"
  Checked.refuse (shape.heads < shape.kvHeads ∨ shape.heads % shape.kvHeads ≠ 0)
    "mini decoder weight manifest has invalid GQA shape"
  Checked.refuse (kUint32Max / shape.headDim < shape.heads)
    "mini decoder q dimension overflows uint32"
  Checked.refuse (kUint32Max / shape.headDim < shape.kvHeads)
    "mini decoder kv dimension overflows uint32"

/-- The tensors of a layer, the members of `DecoderLayerWeights`. -/
inductive Tensor where
  | attentionNormWeight | mlpNormWeight | qWeight | kWeight | vWeight | qBias | kBias | vBias
  | outWeight | gateWeight | upWeight | downWeight
  deriving DecidableEq

/-- The order in which tensors are written and read. -/
def Tensor.all : List Tensor :=
  [.attentionNormWeight, .mlpNormWeight, .qWeight, .kWeight, .vWeight, .qBias, .kBias, .vBias,
    .outWeight, .gateWeight, .upWeight, .downWeight]

/-- The name of a tensor in the manifest. -/
def Tensor.name : Tensor → String
  | .attentionNormWeight => "attention_norm_weight"
  | .mlpNormWeight => "mlp_norm_weight"
  | .qWeight => "q_weight"
  | .kWeight => "k_weight"
  | .vWeight => "v_weight"
  | .qBias => "q_bias"
  | .kBias => "k_bias"
  | .vBias => "v_bias"
  | .outWeight => "out_weight"
  | .gateWeight => "gate_weight"
  | .upWeight => "up_weight"
  | .downWeight => "down_weight"

/-- The two dimensions of a tensor; a vector has one only. -/
def Tensor.dimensions : Tensor → ℕ × Option ℕ
  | .attentionNormWeight => (shape.hidden.toNat, none)
  | .mlpNormWeight => (shape.hidden.toNat, none)
  | .qWeight => (shape.qDim.toNat, some shape.hidden.toNat)
  | .kWeight => (shape.kvDim.toNat, some shape.hidden.toNat)
  | .vWeight => (shape.kvDim.toNat, some shape.hidden.toNat)
  | .qBias => (shape.qDim.toNat, none)
  | .kBias => (shape.kvDim.toNat, none)
  | .vBias => (shape.kvDim.toNat, none)
  | .outWeight => (shape.hidden.toNat, some shape.qDim.toNat)
  | .gateWeight => (shape.intermediate.toNat, some shape.hidden.toNat)
  | .upWeight => (shape.intermediate.toNat, some shape.hidden.toNat)
  | .downWeight => (shape.hidden.toNat, some shape.intermediate.toNat)

/-- The count of a tensor that the writer asks for. -/
def Tensor.count (tensor : Tensor) : ℕ :=
  (tensor.dimensions shape).1 * (tensor.dimensions shape).2.getD 1

/-- The count of a tensor in `tensor_specs`. -/
def Tensor.specCount (tensor : Tensor) : Except String ℕ :=
  match tensor.dimensions shape with
  | (rows, none) => .ok rows
  | (rows, some columns) => checkedMultiply rows columns tensor.name

/-- A `float` as the four bytes it has in memory. -/
structure F32 where
  b₀ : UInt8
  b₁ : UInt8
  b₂ : UInt8
  b₃ : UInt8

def F32.bytes (value : F32) : List UInt8 := [value.b₀, value.b₁, value.b₂, value.b₃]

/-- The memory of a vector. -/
def toBytes (values : List F32) : List UInt8 := values.flatMap F32.bytes

/-- The vector of so many values that a memory holds. -/
def fromBytes : ℕ → List UInt8 → List F32
  | count + 1, b₀ :: b₁ :: b₂ :: b₃ :: rest => ⟨b₀, b₁, b₂, b₃⟩ :: fromBytes count rest
  | _, _ => []

/-- `DecoderLayerWeights`, without the rotary parameter. -/
structure DecoderLayerWeights where
  shape : DecoderLayerShape
  values : Tensor → List F32

/-! ## Files -/

/-- A file that is written or read as text or as bytes. -/
inductive File where
  | text (contents : Text)
  | data (bytes : List UInt8)

/-- What the files hold. -/
abbrev Files (Id : Type) : Type := Id → Option File

section Paths

variable {Id : Type} [DecidableEq Id] (resolve : Text → Id)

/-- `read_text_file`; `resolve` says which file a path leads to. -/
def readTextFile (files : Files Id) (path : Text) : Except String Text :=
  match files (resolve path) with
  | some (.text contents) =>
    if contents = [] then .error "mini decoder weight file is empty" else .ok contents
  | _ => .error "failed to open mini decoder weight file"

/-- `read_file`. -/
def readFile (files : Files Id) (path : Text) : Except String (List UInt8) :=
  match files (resolve path) with
  | some (.data bytes) =>
    if bytes = [] then .error "mini decoder weight file is empty" else .ok bytes
  | _ => .error "failed to open mini decoder weight file"

end Paths

/-- `has_parent_component`. -/
def hasParentComponent (path : Text) : Bool := (path.splitOn '/').any (· = ['.', '.'])

/-- `relative_path`. -/
def relativePath (manifestPath fileName : Text) : Except String Text :=
  if fileName = [] ∨ fileName.head? = some '/' ∨ hasParentComponent fileName then
    .error "invalid mini decoder weight data path"
  else .ok ((manifestPath.reverse.dropWhile (· ≠ '/')).reverse ++ fileName)

/-! ## The writer -/

/-- What the writer has written. -/
structure Output where
  data : List UInt8 := []
  manifest : Text
  offset : ℕ := 0
  first : Bool := true

/-- The entry of a tensor in the manifest. -/
def entryText (name : String) (offset count : ℕ) : Text :=
  "    \x7b".toList ++ (quoted "name".toList ++ (':' :: (quoted name.toList ++ (',' ::
    (quoted "offset".toList ++ (':' :: (digits offset ++ (',' :: (quoted "count".toList ++
      (':' :: (digits count ++ ['}'])))))))))))

/-- `append_tensor`. -/
def appendTensor (name : String) (values : List F32) (out : Output) : Except String Output := do
  let bytes ← checkedMultiply values.length 4 name
  if sizeMax - bytes < out.offset then .error "mini decoder weight data offset overflows"
  else
    .ok { data := out.data ++ toBytes values
          manifest := out.manifest ++ ((if out.first then [] else [',', '\n']) ++
            entryText name out.offset values.length)
          offset := out.offset + bytes
          first := false }

/-- A line of the manifest. -/
def line (field : String × Text) : Text :=
  "  ".toList ++ (quoted field.1.toList ++ (": ".toList ++ (field.2 ++ ",\n".toList)))

/-- The fields before the tensors; `rope` is the text of the rotary parameter. -/
def fields (dataFileName rope : Text) : List (String × Text) :=
  [("format", quoted "lrrt.mini_decoder_weights".toList), ("version", "2".toList),
    ("dtype", quoted "f32".toList), ("data", quoted dataFileName),
    ("keys", digits shape.keys.toNat), ("hidden", digits shape.hidden.toNat),
    ("heads", digits shape.heads.toNat), ("kv_heads", digits shape.kvHeads.toNat),
    ("head_dim", digits shape.headDim.toNat), ("intermediate", digits shape.intermediate.toNat),
    ("rope_theta", rope)]

/-- The manifest up to the tensors. -/
def header (dataFileName rope : Text) : Text :=
  "\x7b\n".toList ++ ((fields shape dataFileName rope).flatMap line ++
    ("  ".toList ++ (quoted "tensors".toList ++ ": [\n".toList)))

/-- `write_decoder_layer_weights`. Two streams write the files at once; `mixed` is what they leave
if both paths lead to one file. -/
def writeDecoderLayerWeights {Id : Type} [DecidableEq Id] (resolve : Text → Id)
    (mixed : List UInt8 → Text → File) (files : Files Id) (manifestPath dataFileName rope : Text)
    (weights : DecoderLayerWeights) : Except String (Files Id) := do
  Checked.refuse (manifestPath = [] ∨ dataFileName = []) "mini decoder weight output path is empty"
  validateShape weights.shape
  Checked.refuse (∃ tensor ∈ Tensor.all,
      (weights.values tensor).length ≠ tensor.count weights.shape)
    "mini decoder weights have invalid tensor sizes"
  let dataPath ← relativePath manifestPath dataFileName
  let out ← Tensor.all.foldlM
    (fun out tensor => appendTensor tensor.name (weights.values tensor) out)
    { manifest := header weights.shape dataFileName rope }
  let manifest := out.manifest ++ "\n  ]\n\x7d\n".toList
  if resolve dataPath = resolve manifestPath then
    .ok (Function.update files (resolve manifestPath) (some (mixed out.data manifest)))
  else
    .ok (Function.update (Function.update files (resolve dataPath) (some (.data out.data)))
      (resolve manifestPath) (some (.text manifest)))

/-! ## The loader -/

variable (text : Text)

/-- `skip_ws`. -/
def skipWs : Text :=
  text.dropWhile isSpace

/-- `field_position`: the text from there on. -/
def fieldPosition (field : String) : Except String Text :=
  match find (quoted field.toList) text with
  | none => .error ("missing mini decoder weight manifest field: " ++ field)
  | some found =>
    match find [':'] (found.2.drop (quoted field.toList).length) with
    | none => .error ("invalid mini decoder weight manifest field: " ++ field)
    | some colon => .ok (skipWs (colon.2.drop 1))

/-- `read_string_field`. -/
def readStringField (field : String) : Except String Text := do
  match ← fieldPosition text field with
  | '"' :: rest =>
    match find ['"'] rest with
    | none => .error ("unterminated mini decoder weight manifest string: " ++ field)
    | some found => .ok found.1
  | _ => .error ("mini decoder weight manifest field is not a string: " ++ field)

/-- `read_u32_field`. -/
def readU32Field (field : String) : Except String UInt32 := do
  let position ← fieldPosition text field
  match scanDigits (2 ^ 32 - 1) 0 position with
  | none => .error ("mini decoder weight manifest integer is too large: " ++ field)
  | some value =>
    if (position.head?.any Char.isDigit) then .ok (UInt32.ofNat value)
    else .error ("mini decoder weight manifest field is not an integer: " ++ field)

/-- `read_u64_field`, for the text from the start of the object on and the length of the object. -/
def readU64Field (stop : ℕ) (field tensorName : String) : Except String ℕ :=
  match find (quoted field.toList) text with
  | none =>
    .error ("mini decoder weight tensor '" ++ tensorName ++ "' is missing field: " ++ field)
  | some found =>
    if stop ≤ found.1.length then
      .error ("mini decoder weight tensor '" ++ tensorName ++ "' is missing field: " ++ field)
    else
      let behind := found.1.length + (quoted field.toList).length
      match find [':'] (text.drop behind) with
      | none =>
        .error ("invalid mini decoder weight tensor '" ++ tensorName ++ "' field: " ++ field)
      | some colon =>
        if stop ≤ behind + colon.1.length then
          .error ("invalid mini decoder weight tensor '" ++ tensorName ++ "' field: " ++ field)
        else
          let number := skipWs (colon.2.drop 1)
          let inside := number.take (stop - (text.length - number.length))
          match scanDigits sizeMax 0 inside with
          | none => .error ("mini decoder weight tensor '" ++ tensorName ++
              "' field is too large: " ++ field)
          | some value =>
            if inside.head?.any Char.isDigit then .ok value
            else .error ("mini decoder weight tensor '" ++ tensorName ++
              "' field is not an integer: " ++ field)

/-- `tensor_name_at`. -/
def tensorNameAt (expected : String) : Bool :=
  match find [':'] text with
  | none => false
  | some colon =>
    match skipWs (colon.2.drop 1) with
    | '"' :: rest =>
      match find ['"'] rest with
      | none => false
      | some found => found.1 = expected.toList
    | _ => false

/-- The occurrences of a word, with the text before each and from it on. -/
def occurrences (word : Text) : (fuel : ℕ) → (before text : Text) → List (Text × Text)
  | 0, _, _ => []
  | fuel + 1, before, text =>
    match find word text with
    | none => []
    | some found =>
      (before ++ found.1, found.2) ::
        occurrences word fuel (before ++ (found.1 ++ word)) (found.2.drop word.length)

/-- `tensor_bounds`: the text from the start of the object on, and the length of the object. -/
def tensorBounds (name : String) : Except String (Text × ℕ) :=
  match (occurrences (quoted "name".toList) text.length [] text).filter
      (fun occurrence => tensorNameAt (occurrence.2.drop 6) name) with
  | [] => .error ("missing mini decoder weight tensor: " ++ name)
  | [(before, text)] =>
    match find ['}'] text with
    | none => .error ("invalid mini decoder weight tensor object: " ++ name)
    | some stop =>
      if '{' ∉ before then .error ("invalid mini decoder weight tensor object: " ++ name)
      else
        let start := (before.reverse.takeWhile (· ≠ '{')).reverse
        .ok ('{' :: (start ++ text), 1 + start.length + stop.1.length)
  | _ => .error ("duplicate mini decoder weight tensor: " ++ name)

/-- `copy_tensor`. -/
def copyTensor (data : List UInt8) (offset count : ℕ) (name : String) :
    Except String (List F32) := do
  let bytes ← checkedMultiply count 4 name
  if sizeMax < offset ∨ sizeMax - offset < bytes ∨ data.length < offset + bytes then
    .error ("mini decoder weight tensor '" ++ name ++ "' is out of range")
  else .ok (fromBytes count (data.drop offset))

/-- What the loop of the loader has read. -/
structure Loaded where
  expectedSize : ℕ := 0
  seen : List String := []
  values : Tensor → List F32 := fun _ => []

/-- One round of the loop over the tensors. -/
def loadTensor (manifest : Text) (data : List UInt8) (loaded : Loaded) (spec : Tensor × ℕ) :
    Except String Loaded := do
  let name := spec.1.name
  let bounds ← tensorBounds manifest name
  let offset ← readU64Field bounds.1 bounds.2 "offset" name
  let count ← readU64Field bounds.1 bounds.2 "count" name
  Checked.refuse (count ≠ spec.2)
    ("mini decoder weight tensor '" ++ name ++ "' has unexpected count")
  let bytes ← checkedMultiply spec.2 4 name
  Checked.refuse (sizeMax - bytes < offset)
    ("mini decoder weight tensor '" ++ name ++ "' overflows offset")
  Checked.refuse (name ∈ loaded.seen) "duplicate mini decoder weight tensor spec"
  let values ← copyTensor data offset spec.2 name
  .ok { expectedSize := max loaded.expectedSize (offset + bytes)
        seen := name :: loaded.seen
        values := Function.update loaded.values spec.1 values }

/-- The shape in a manifest. -/
def readShape (manifest : Text) : Except String DecoderLayerShape := do
  let keys ← readU32Field manifest "keys"
  let hidden ← readU32Field manifest "hidden"
  let heads ← readU32Field manifest "heads"
  let headDim ← readU32Field manifest "head_dim"
  let intermediate ← readU32Field manifest "intermediate"
  let kvHeads ← if (find (quoted "kv_heads".toList) manifest).isSome then
    readU32Field manifest "kv_heads" else .ok heads
  .ok { keys, hidden, heads, kvHeads, headDim, intermediate }

/-- `load_decoder_layer_weights`. -/
def loadDecoderLayerWeights {Id : Type} (resolve : Text → Id) (files : Files Id)
    (manifestPath : Text) : Except String DecoderLayerWeights := do
  Checked.refuse (manifestPath = []) "mini decoder weight manifest path is empty"
  let manifest ← readTextFile resolve files manifestPath
  let version ← readU32Field manifest "version"
  Checked.refuse (version ≠ 2) "unsupported mini decoder weight manifest version"
  let format ← readStringField manifest "format"
  Checked.refuse (format ≠ "lrrt.mini_decoder_weights".toList)
    "unsupported mini decoder weight manifest format"
  let dtype ← readStringField manifest "dtype"
  Checked.refuse (dtype ≠ "f32".toList) "unsupported mini decoder weight dtype"
  let shape ← readShape manifest
  validateShape shape
  let dataFile ← readStringField manifest "data"
  let dataPath ← relativePath manifestPath dataFile
  let data ← readFile resolve files dataPath
  let specs ← Tensor.all.mapM fun tensor => do
    let count ← tensor.specCount shape
    .ok (tensor, count)
  let loaded ← specs.foldlM (loadTensor manifest data) {}
  Checked.refuse (loaded.expectedSize ≠ data.length) "mini decoder weight data size mismatch"
  .ok { shape, values := loaded.values }

end LightRocm.Qwen
