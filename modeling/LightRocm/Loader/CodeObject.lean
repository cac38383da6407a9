import LightRocm.Lib.ByteReader
import LightRocm.Status

/-!
# Code objects

The errors of the loader and what it tells of a kernel, from `code_object.hpp`.
Offsets and sizes come from the file as 64-bit words; sums that the source does not
check wrap around.
-/

namespace LightRocm.Loader

open ByteReader

/-- `ParseErrorCode`; a parse without an error gives a code object. -/
inductive ParseErrorCode where
  | truncatedElfHeader
  | invalidElfMagic
  | unsupportedElfClass
  | unsupportedEndianness
  | unsupportedElfVersion
  | unsupportedOsAbi
  | unsupportedAbiVersion
  | unsupportedObjectType
  | unsupportedMachine
  | unsupportedTarget
  | invalidElfHeaderSize
  | missingProgramHeaders
  | unsupportedExtendedProgramHeaderCount
  | invalidProgramHeaderEntrySize
  | programHeaderTableOutOfBounds
  | invalidSegmentFlags
  | segmentFileSizeExceedsMemorySize
  | segmentFileRangeOutOfBounds
  | segmentVirtualRangeOverflow
  | invalidSegmentAlignment
  | incongruentSegmentAlignment
  | overlappingSegmentFileRanges
  | overlappingSegmentVirtualRanges
  | missingLoadSegments
  | malformedNote
  | duplicateMetadataNote
  | unsupportedMetadataEncoding
  | invalidMetadata
  | unsupportedMetadataVersion
  | metadataTargetMismatch
  | missingDynamicSegment
  | duplicateDynamicSegment
  | invalidDynamicTable
  | missingDynamicEntry
  | invalidSymbolTable
  | invalidStringTable
  | missingKernelSymbol
  | invalidKernelSymbol
  | kernelDescriptorOutOfBounds
  | invalidKernelDescriptor
  | kernelMetadataMismatch
  | kernelEntryOutOfBounds
  | invalidRelocationTable
  | unsupportedRelocationFormat
  | unsupportedRelocationType
  | relocationSymbolOutOfBounds
  | relocationTargetOutOfBounds
  deriving DecidableEq, Repr

/-- `ParseError`. -/
structure ParseError where
  code : ParseErrorCode
  /-- Where in the file the error is. -/
  offset : ℕ
  message : String
  deriving DecidableEq

/-- The bytes of a code object; their number is a `size_t`. -/
structure Input where
  bytes : List UInt8
  size_lt : bytes.length < 2 ^ 64

/-- A pass of the loader. -/
abbrev Parse (α : Type) := Reader ParseError α

variable {α : Type}

/-- `failure`. -/
def failure (code : ParseErrorCode) (offset : ℕ) (message : String) : Parse α :=
  reject ⟨code, offset, message⟩

/-- `KernelArgumentKind`. -/
inductive KernelArgumentKind where
  | byValue
  | globalBuffer
  | dynamicSharedPointer
  | sampler
  | image
  | pipe
  | queue
  | hiddenBlockCountX
  | hiddenBlockCountY
  | hiddenBlockCountZ
  | hiddenGroupSizeX
  | hiddenGroupSizeY
  | hiddenGroupSizeZ
  | hiddenRemainderX
  | hiddenRemainderY
  | hiddenRemainderZ
  | hiddenGlobalOffsetX
  | hiddenGlobalOffsetY
  | hiddenGlobalOffsetZ
  | hiddenGridDims
  | hiddenNone
  | hiddenPrintfBuffer
  | hiddenHostcallBuffer
  | hiddenHeapV1
  | hiddenDefaultQueue
  | hiddenCompletionAction
  | hiddenMultiGridSyncArg
  | hiddenDynamicLdsSize
  | hiddenPrivateBase
  | hiddenSharedBase
  | hiddenQueuePtr
  deriving DecidableEq

/-- `KernelArgumentInfo`. -/
structure KernelArgumentInfo where
  offset : ℕ
  size : ℕ
  kind : KernelArgumentKind
  deriving DecidableEq

/-- `KernelInfo`. -/
structure KernelInfo where
  /-- Source-level name of the kernel. -/
  name : String := ""
  /-- Name of the symbol of its descriptor. -/
  symbolName : String := ""
  descriptorVirtualAddress : ℕ := 0
  codeEntryByteOffset : ℤ := 0
  codeEntryVirtualAddress : ℕ := 0
  kernargSize : ℕ := 0
  metadataKernargAlignment : ℕ := 0
  kernargAlignment : ℕ := 0
  groupSegmentSize : ℕ := 0
  privateSegmentSize : ℕ := 0
  wavefrontSize : ℕ := 0
  usesDynamicStack : Bool := false
  arguments : List KernelArgumentInfo := []
  explicitArgumentSize : ℕ := 0
  computePgmRsrc1 : ℕ := 0
  computePgmRsrc2 : ℕ := 0
  computePgmRsrc3 : ℕ := 0
  kernelCodeProperties : ℕ := 0
  kernargPreload : ℕ := 0
  deriving DecidableEq

/-! ## Words -/

/-- An unsigned 64-bit difference; it wraps around like a sum. -/
def u64Sub (lhs rhs : ℕ) : ℕ := if rhs ≤ lhs then lhs - rhs else u64 (lhs + 2 ^ 64 - rhs)

end LightRocm.Loader
