import LightRocm.Lib.Checked
import LightRocm.Lib.TextSearch
import LightRocm.Runtime.Launch
import Mathlib.Data.List.DropRight

/-!
# The bundle manifest reader

`ManifestParser` never builds a tree. It finds the members it knows by scanning the
text of an object, and a value is read where its member has been found. A position
of the source is a position in the list of the characters here, and every reader
takes the limit the source gives it. Every character stands for a byte.
-/

namespace LightRocm.Bundle

open Checked
open TextSearch (Text quoted)

/-- The reader throws its message. -/
abbrev Parse := Except String

/-- `lrrt::KernelArgument`. -/
structure KernelArgument where
  name : Text
  type : Text
  offset : UInt64
  size : UInt64
  optional : Bool
  deriving DecidableEq

/-- `lrrt::KernelManifest`. -/
structure KernelManifest where
  manifestVersion : UInt32
  target : Text
  name : Text
  symbol : Text
  codeObject : Text
  block : Dim3
  gridDivisor : UInt32
  gridMultiplier : UInt32
  kernargSize : UInt64
  sharedMemoryBytes : UInt32
  workspaceBytes : UInt64
  args : List KernelArgument
  argOffsets : List UInt64
  deriving DecidableEq

/-- The only version that is read. -/
def kSupportedBundleManifestVersion : UInt32 := 1

/-! ## Scanning -/

/-- The characters from a position up to a limit. -/
def window (text : Text) (position limit : ℕ) : Text := (text.take limit).drop position

variable (text : Text)

variable (position limit : ℕ)

/-- `text_[position]`, if the position is below the limit. -/
def charAt : Option Char := (window text position limit).head?

/-- The first position that holds no white space. -/
def skipSpace : ℕ :=
  position + ((window text position limit).takeWhile Char.isWhitespace).length

/-- The first position that holds no digit. -/
def skipDigits : ℕ :=
  position + ((window text position limit).takeWhile Char.isDigit).length

/-- The loop of `matching_brace` from position `i` on. -/
def matchingBraceFrom : Text → ℕ → ℕ → Bool → Bool → Parse ℕ
  | [], _, _, _, _ => throw "unterminated kernel manifest object"
  | value :: rest, i, depth, true, escaped =>
    if escaped then matchingBraceFrom rest (i + 1) depth true false
    else if value = '\\' then matchingBraceFrom rest (i + 1) depth true true
    else if value = '"' then matchingBraceFrom rest (i + 1) depth false false
    else matchingBraceFrom rest (i + 1) depth true false
  | value :: rest, i, depth, false, escaped =>
    if value = '"' then matchingBraceFrom rest (i + 1) depth true escaped
    else if value = '{' then matchingBraceFrom rest (i + 1) (depth + 1) false escaped
    else if value = '}' then
      if depth = 1 then return i + 1 else matchingBraceFrom rest (i + 1) (depth - 1) false escaped
    else matchingBraceFrom rest (i + 1) depth false escaped

/-- The position after the object that begins at a brace. -/
def matchingBrace (start : ℕ) : Parse ℕ :=
  matchingBraceFrom (text.drop start) start 0 false false

/-- The value of a member whose name ends before the position. A string without a colon is not a
name. -/
def valueAfterName (position objectEnd : ℕ) : Option ℕ :=
  let colon := skipSpace text position objectEnd
  if charAt text colon objectEnd = some ':' then some (skipSpace text (colon + 1) objectEnd)
  else none

/-- The two loops of `find_field_value`: inside a string the state is the position where the string
begins and whether the last character was a backslash. -/
def findFieldValueFrom (text : Text) (field : String) (objectEnd : ℕ) :
    Text → ℕ → ℕ → Option (ℕ × Bool) → Parse (Option ℕ)
  | [], _, _, none => return none
  | [], _, _, some _ => throw "unterminated manifest string"
  | character :: rest, position, nestedDepth, some (stringBegin, escaped) =>
    if escaped then
      findFieldValueFrom text field objectEnd rest (position + 1) nestedDepth (some (stringBegin, false))
    else if character = '\\' then
      findFieldValueFrom text field objectEnd rest (position + 1) nestedDepth (some (stringBegin, true))
    else if character = '"' then
      match (if nestedDepth = 0 ∧ window text stringBegin position = field.toList then
        valueAfterName text (position + 1) objectEnd else none) with
      | some value => return some value
      | none => findFieldValueFrom text field objectEnd rest (position + 1) nestedDepth none
    else
      findFieldValueFrom text field objectEnd rest (position + 1) nestedDepth (some (stringBegin, false))
  | value :: rest, position, nestedDepth, none =>
    if value = '"' then
      findFieldValueFrom text field objectEnd rest (position + 1) nestedDepth
        (some (position + 1, false))
    else if value = '{' ∨ value = '[' then
      findFieldValueFrom text field objectEnd rest (position + 1) (nestedDepth + 1) none
    else if value = '}' ∨ value = ']' then
      if nestedDepth = 0 then return none
      else findFieldValueFrom text field objectEnd rest (position + 1) (nestedDepth - 1) none
    else findFieldValueFrom text field objectEnd rest (position + 1) nestedDepth none

variable (field : String)

/-- The position of the value of a member of an object. -/
def findFieldValue (objectBegin objectEnd : ℕ) :
    Parse (Option ℕ) :=
  if charAt text objectBegin objectEnd ≠ some '{' then
    throw "manifest field container is not object"
  else findFieldValueFrom text field objectEnd (window text (objectBegin + 1) objectEnd)
    (objectBegin + 1) 0 none

/-- A member that has to be there. -/
def fieldValue (objectBegin objectEnd : ℕ) : Parse ℕ := do
  match ← findFieldValue text field objectBegin objectEnd with
  | some position => return position
  | none => throw ("missing manifest token \"" ++ field ++ "\"")

/-- The next character has to be the one given. -/
def expect (c : Char) (message : String) : Parse Unit :=
  refuse (charAt text position limit ≠ some c) message

/-! ## Reading values -/

/-- The characters up to the closing quote. -/
def stringCharacters (field : String) : Text → Parse Text
  | [] => throw ("unterminated manifest string: " ++ field)
  | c :: rest =>
    if c = '"' then return []
    else if c = '\\' then throw "escaped manifest strings are unsupported"
    else do return c :: (← stringCharacters field rest)

/-- The text of a member that is a string. -/
def readString (start limit : ℕ) : Parse Text := do
  let position ← fieldValue text field start limit
  expect text position limit '"' ("manifest field is not string: " ++ field)
  stringCharacters field (window text (position + 1) limit)

/-- What may follow an integer. -/
def endsInteger (c : Char) : Bool := c.isWhitespace || c = ',' || c = ']' || c = '}'

/-- `std::stoull` on a string of digits. -/
def stoull (digits : Text) : Parse UInt64 :=
  let value := Nat.ofDigitChars 10 digits 0
  if 2 ^ 64 ≤ value then throw "stoull" else return UInt64.ofNat value

/-- The integer at a position. -/
def readSizeAt : Parse UInt64 := do
  let digits := (window text position limit).takeWhile Char.isDigit
  refuse (digits = []) ("manifest field is not integer: " ++ field)
  refuse ((charAt text (position + digits.length) limit).any fun c => !endsInteger c)
    ("invalid manifest integer: " ++ field)
  stoull digits

/-- An integer member. -/
def readSize (start limit : ℕ) : Parse UInt64 := do
  readSizeAt text (← fieldValue text field start limit) limit field

/-- An integer member that may be missing. -/
def readOptionalSize (start limit : ℕ) (defaultValue : UInt64) :
    Parse UInt64 := do
  match ← findFieldValue text field start limit with
  | none => return defaultValue
  | some position => readSizeAt text position limit field

/-- A boolean member that may be missing; the comparison does not know the limit. -/
def readOptionalBool (start limit : ℕ) (defaultValue : Bool) :
    Parse Bool := do
  match ← findFieldValue text field start limit with
  | none => return defaultValue
  | some position =>
    if window text position (position + 4) = "true".toList then return true
    else if window text position (position + 5) = "false".toList then return false
    else throw ("manifest field is not boolean: " ++ field)

/-- The integer at a position, of 32 bits. -/
def readU32At : Parse UInt32 := do
  let value ← readSizeAt text position limit field
  refuse (2 ^ 32 ≤ value.toNat) ("manifest field is too large: " ++ field)
  return value.toUInt32

/-- An integer of an array, and the position after it and the white space that follows. -/
def readU32Entry : Parse (UInt32 × ℕ) := do
  let position := skipSpace text position limit
  let value ← readU32At text position limit field
  return (value, skipSpace text (skipDigits text position limit) limit)

/-- A member that is an array of three integers. -/
def readU32Array (start limit : ℕ) : Parse Dim3 := do
  let position ← fieldValue text field start limit
  expect text position limit '[' ("manifest field is not array: " ++ field)
  let (x, position) ← readU32Entry text (position + 1) limit field
  expect text position limit ',' ("invalid manifest array: " ++ field)
  let (y, position) ← readU32Entry text (position + 1) limit field
  expect text position limit ',' ("invalid manifest array: " ++ field)
  let (z, position) ← readU32Entry text (position + 1) limit field
  expect text position limit ']' ("invalid manifest array: " ++ field)
  return ⟨x, y, z⟩

/-- The entries behind the expression of the member `grid`; both have to be one. -/
def readGridRest : Parse Unit := do
  expect text position limit ',' "invalid manifest grid array"
  let (y, position) ← readU32Entry text (position + 1) limit "grid"
  refuse (y ≠ 1) "bundle grid y dimension must be 1"
  expect text position limit ',' "invalid manifest grid array"
  let (z, position) ← readU32Entry text (position + 1) limit "grid"
  refuse (z ≠ 1) "bundle grid z dimension must be 1"
  expect text position limit ']' "invalid manifest grid array"

/-- The expression of the member `grid`. Its closing quote is searched without regard to
backslashes. -/
def readGridString (start limit : ℕ) : Parse Text := do
  let position ← fieldValue text "grid" start limit
  expect text position limit '[' "manifest grid is not array"
  let position := skipSpace text (position + 1) limit
  expect text position limit '"' "manifest grid[0] is not expression string"
  let position := position + 1
  let quote := position + (text.drop position).findIdx (· = '"')
  refuse (limit ≤ quote) "unterminated manifest grid expression"
  readGridRest text (skipSpace text (quote + 1) limit) limit
  return window text position quote

/-- The digits of an integer of a grid expression, read one after the other. -/
def gridDigits : ℕ → Text → Parse ℕ
  | value, [] => return value
  | value, c :: rest =>
    if !c.isDigit then throw "unsupported bundle grid expression"
    else if 2 ^ 32 ≤ value * 10 + (c.toNat - '0'.toNat) then
      throw "bundle grid expression is too large"
    else gridDigits (value * 10 + (c.toNat - '0'.toNat)) rest

/-- An integer of a grid expression, with blanks around it. -/
def parseGridInteger (chars : Text) : Parse UInt32 := do
  let digits := (chars.dropWhile (· = ' ')).rdropWhile (· = ' ')
  refuse (digits = []) "unsupported bundle grid expression"
  return UInt32.ofNat (← gridDigits 0 digits)

/-- The divisor and the multiplier of a grid expression. -/
def parseGridExpr (expr : Text) : Parse (UInt32 × UInt32) := do
  let start := "ceil_div(n, ".toList
  refuse (¬ start.isPrefixOf expr) "unsupported bundle grid expression"
  let rest := expr.drop start.length
  let divisor := rest.takeWhile (· ≠ ')')
  refuse (divisor.length = rest.length) "unsupported bundle grid expression"
  let rest := (rest.drop (divisor.length + 1)).dropWhile (· = ' ')
  refuse (rest.head? ≠ some '*') "unsupported bundle grid expression"
  let multiplier := rest.tail.dropWhile (· = ' ')
  return (← parseGridInteger divisor, ← parseGridInteger multiplier)

/-- The member `grid`. -/
def readGridExpr (start limit : ℕ) : Parse (UInt32 × UInt32) := do
  parseGridExpr (← readGridString text start limit)

/-! ## Arguments -/

/-- One object of the array `args`. -/
def readArgument (position argEnd : ℕ) : Parse KernelArgument := do
  let name ← readString text "name" position argEnd
  let type ← readString text "type" position argEnd
  let offset ← readSize text "offset" position argEnd
  let size ← readSize text "size" position argEnd
  let optional ← readOptionalBool text "optional" position argEnd false
  return { name, type, offset, size, optional }

/-- Behind an entry of an array follows a comma and another entry, or the end of the array. -/
def nextEntry (message : String) : Parse ℕ :=
  let position := skipSpace text position limit
  if charAt text position limit = some ',' then
    let position := skipSpace text (position + 1) limit
    if charAt text position limit = none ∨ charAt text position limit = some ']' then throw message
    else return position
  else if charAt text position limit = some ']' then return position
  else throw message

/-- The loop of `read_args`. Every round takes a character at least, so it ends when as many rounds
have been made as there were characters before the limit. -/
def readArgsFrom (text : Text) (limit : ℕ) : ℕ → ℕ → ℕ → Parse (List KernelArgument)
  | 0, _, _ => return []
  | remaining + 1, position, argIndex =>
    if charAt text position limit = none ∨ charAt text position limit = some ']' then return []
    else do
      expect text position limit '{' "invalid manifest args array"
      let argEnd ← matchingBrace text position
      let arg ← (readArgument text position argEnd).mapError fun error =>
        "args[" ++ toString argIndex ++ "]: " ++ error
      let position ← nextEntry text argEnd limit "invalid manifest args array"
      return arg :: (← readArgsFrom text limit remaining position (argIndex + 1))

/-- The member `args`. -/
def readArgs (start limit : ℕ) : Parse (List KernelArgument) := do
  let args ← fieldValue text "args" start limit
  expect text args limit '[' "manifest args is not array"
  let position := skipSpace text (args + 1) limit
  let args ← readArgsFrom text limit (limit - position) position 0
  refuse (args = []) "bundle manifest has no arguments"
  return args

/-- How an argument is named in a message. -/
def argContext (index : ℕ) (arg : KernelArgument) : String :=
  "args[" ++ toString index ++ "]" ++
    if arg.name = [] then "" else " '" ++ String.ofList arg.name ++ "'"

/-- The loop of `validate_args`; the arguments before the current one are in `earlier`. -/
def validateArgsFrom (kernargSize : UInt64) :
    List KernelArgument → UInt64 → List KernelArgument → Parse Unit
  | _, _, [] => return ()
  | earlier, previous, arg :: rest => do
    let context := argContext earlier.length arg
    refuse (arg.name = [] ∨ arg.type = [] ∨ arg.size = 0)
      (context ++ ": invalid bundle argument manifest")
    refuse (kernargSize ≤ arg.offset ∨ kernargSize < arg.size ∨
      kernargSize < arg.offset + arg.size) (context ++ ": argument range exceeds kernarg_size")
    refuse (0 < earlier.length ∧ arg.offset ≤ previous)
      (context ++ ": argument offsets must be strictly increasing")
    refuse (∃ other ∈ earlier, other.name = arg.name) (context ++ ": duplicate argument name")
    validateArgsFrom kernargSize (earlier ++ [arg]) arg.offset rest

/-- The checks of the arguments against each other and the size of the buffer. -/
def validateArgs (args : List KernelArgument) (kernargSize : UInt64) : Parse Unit :=
  validateArgsFrom kernargSize [] 0 args

/-! ## Kernels -/

/-- A component of the path is `..`. -/
def hasParentComponent (path : Text) : Bool := (path.splitOn '/').contains ['.', '.']

/-- The path of a code object does not stay in the bundle. -/
def leavesBundle (path : Text) : Bool :=
  path = [] || path.head? = some '/' || hasParentComponent path

/-- One object of the array `kernels`; version and target are those of the whole manifest. -/
def parseKernel (version : UInt32) (target : Text) (kernelBegin kernelEnd : ℕ) :
    Parse KernelManifest := do
  let name ← readString text "name" kernelBegin kernelEnd
  let symbol ← readString text "symbol" kernelBegin kernelEnd
  let codeObject ← readString text "code_object" kernelBegin kernelEnd
  refuse (leavesBundle codeObject) "bundle code object path must stay in bundle"
  let kernargSize ← readSize text "kernarg_size" kernelBegin kernelEnd
  let sharedMemoryBytes ← readOptionalSize text "shared_memory_bytes" kernelBegin kernelEnd 0
  refuse (2 ^ 32 ≤ sharedMemoryBytes.toNat) "bundle shared memory requirement is too large"
  let workspaceBytes ← readOptionalSize text "workspace_bytes" kernelBegin kernelEnd 0
  let block ← readU32Array text "block" kernelBegin kernelEnd
  let (gridDivisor, gridMultiplier) ← readGridExpr text kernelBegin kernelEnd
  let args ← readArgs text kernelBegin kernelEnd
  validateArgs args kernargSize
  refuse (name = [] ∨ symbol = [] ∨ kernargSize = 0 ∨ block.x = 0 ∨ block.y = 0 ∨
    block.z = 0 ∨ gridDivisor = 0 ∨ gridMultiplier = 0) "invalid bundle manifest"
  return { manifestVersion := version, target, name, symbol, codeObject, block, gridDivisor,
           gridMultiplier, kernargSize, sharedMemoryBytes := sharedMemoryBytes.toUInt32,
           workspaceBytes, args, argOffsets := args.map (·.offset) }

/-- How a kernel is named in a message; its name is left out where it cannot be read. -/
def kernelContext (index kernelBegin kernelEnd : ℕ) : String :=
  "bundle manifest kernels[" ++ toString index ++ "]" ++
    match readString text "name" kernelBegin kernelEnd with
    | .ok name => if name = [] then "" else " '" ++ String.ofList name ++ "'"
    | .error _ => ""

/-- The loop of `parse_kernels`, with the kernels read so far. The limit is the end of the text. -/
def parseKernelsFrom (text : Text) (version : UInt32) (target : Text) :
    ℕ → ℕ → List KernelManifest → Parse (ℕ × List KernelManifest)
  | 0, position, manifests => return (position, manifests)
  | remaining + 1, position, manifests =>
    if charAt text position text.length = none ∨ charAt text position text.length = some ']' then
      return (position, manifests)
    else do
      expect text position text.length '{' "invalid kernel manifest array"
      let kernelEnd ← matchingBrace text position
      let manifest ← (parseKernel text version target position kernelEnd).mapError fun error =>
        kernelContext text manifests.length position kernelEnd ++ ": " ++ error
      refuse (∃ other ∈ manifests, other.name = manifest.name)
        ("duplicate kernel name in bundle manifest: " ++ String.ofList manifest.name)
      let position ← nextEntry text kernelEnd text.length "invalid kernel manifest array"
      parseKernelsFrom text version target remaining position (manifests ++ [manifest])

/-- The kernels of a manifest. -/
def parseKernels : Parse (List KernelManifest) := do
  let rootBegin := skipSpace text 0 text.length
  expect text rootBegin text.length '{' "bundle manifest root is not object"
  let rootEnd ← matchingBrace text rootBegin
  let position ← fieldValue text "manifest_version" rootBegin rootEnd
  let version ← readU32At text position rootEnd "manifest_version"
  refuse (version ≠ kSupportedBundleManifestVersion)
    ("unsupported bundle manifest_version: " ++ toString version)
  let target ← readString text "target" rootBegin rootEnd
  refuse (target = []) "bundle manifest target is empty"
  let position ← fieldValue text "kernels" rootBegin rootEnd
  expect text position rootEnd '[' "manifest kernels is not array"
  let position := skipSpace text (position + 1) rootEnd
  let (position, manifests) ←
    parseKernelsFrom text version target (text.length - position) position []
  refuse (text.length ≤ position ∨ manifests = []) "bundle manifest has no kernels"
  return manifests

/-- `parse_bundle_manifests`. -/
def parseBundleManifests : Parse (List KernelManifest) :=
  if text = [] then throw "bundle manifest is empty" else parseKernels text

/-! ## Success of a reader -/

variable {α : Type}

theorem mapError_eq_ok {x : Parse α} {f : String → String} {a : α} :
    x.mapError f = .ok a ↔ x = .ok a := by
  cases x with
  | error message => exact ⟨nofun, nofun⟩
  | ok b => exact Iff.rfl

/-! ## Writing manifests -/

/-- An array of texts. -/
def arrayText (entries : List Text) : Text := '[' :: [','].intercalate entries ++ [']']

/-- An object whose members have the texts given. -/
def objectText (members : List (String × Text)) : Text :=
  '{' :: [','].intercalate
    (members.map fun (name, value) => quoted name.toList ++ ':' :: value) ++ ['}']

/-- A manifest of one kernel. -/
def oneKernelText (args : List Text) (kernargSize : Text) (block : List Text) (grid : String) :
    Text :=
  objectText [("manifest_version", ['1']), ("target", quoted ['g']),
    ("kernels", arrayText [objectText
      [("name", quoted ['k']), ("symbol", quoted ['s']), ("code_object", quoted ['c']),
        ("args", arrayText args), ("kernarg_size", kernargSize), ("block", arrayText block),
        ("grid", arrayText [quoted grid.toList, ['1'], ['1']])]])]

/-- An argument of a manifest. -/
def argumentText (name : String) (offset size : Text) : Text :=
  objectText [("name", quoted name.toList), ("type", quoted ['i']), ("offset", offset),
    ("size", size)]

end LightRocm.Bundle
