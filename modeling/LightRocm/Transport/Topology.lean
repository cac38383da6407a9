import LightRocm.Arch.Node
import LightRocm.Lib.BinarySearch
import LightRocm.Lib.Checked
import LightRocm.Lib.Reading
import LightRocm.Lib.TextSearch
import LightRocm.Status

/-!
# The topology of the direct KFD transport

`kfd/topology.cpp`: nodes and memory banks are read from many small files. The generation number is
read before and after, and the snapshot is taken again if it has changed. Every access to a file or
to the directory is a moment of its own, between which the driver may change the files.
-/

namespace LightRocm.Topology

/-- `DiscoveryError`, as far as reading the files can produce it. -/
inductive DiscoveryError where
  | none
  | readGeneration
  | enumerateNodes
  | readNode
  | invalidNode
  | readMemoryBank
  | invalidMemoryBank
  | topologyChanged
  deriving DecidableEq

/-- `Failure`. -/
structure Failure where
  error : DiscoveryError
  systemError : ℤ := 0
  message : String

/-- `std::error_code`: a number and its text. -/
structure SystemError where
  value : ℤ
  message : String

/-- The accesses to the file system. -/
inductive Query where
  | openFile (path : String)
  | readFile (path : String)
  | openDirectory (path : String)
  | entry (path : String) (index : ℕ)
  | isDirectory (path : String)

/-- What an access gives; an entry is the name, or nothing at the end of the directory. The text of
a file is what the copy of the stream has delivered. -/
def Query.Answer : Query → Type
  | .openFile _ => Unit
  | .readFile _ => List Char
  | .openDirectory _ => Unit
  | .entry _ _ => Option String
  | .isDirectory _ => Bool

/-- How an access fails. A read that fails is not seen: it ends the copy of the stream, which marks
only the stream that is written, and `input.bad()` stays false. -/
def Query.Error : Query → Type
  | .readFile _ => Empty
  | _ => SystemError

/-- The files at one moment. -/
abbrev Files : Type := Reader.Environment Query Query.Answer Query.Error

/-- A function of the source that reads files and returns a value or a failure. -/
abbrev Reads : Type → Type := Reader Query Query.Answer Query.Error Failure

/-- `a / b` of two paths. -/
def path (directory name : String) : String :=
  if directory = "" ∨ directory.endsWith "/" then directory ++ name else directory ++ "/" ++ name

/-- `parse_unsigned`. -/
def parseUnsigned (text : List Char) : Option ℕ :=
  if text = [] ∨ text.any (fun c => !c.isDigit) then none
  else
    let value := Nat.ofDigitChars 10 text 0
    if value < 2 ^ 64 then some value else none

/-- `trim`. -/
def trim (text : List Char) : List Char :=
  ((text.dropWhile Char.isWhitespace).reverse.dropWhile Char.isWhitespace).reverse

/-- The failure of an access to a file or a directory. -/
def onError (error : DiscoveryError) (text : String) (system : SystemError) : Failure :=
  ⟨error, system.value, text⟩

/-- `read_text`. Where the read stops early the text so far is taken. -/
def readText (path : String) (readError : DiscoveryError) : Reads (List Char) :=
  .ask (.openFile path) (onError readError ("failed to open " ++ path)) fun _ =>
    .ask (.readFile path) Empty.elim .done

/-- The number that is all of a file. -/
def parseScalar (path : String) (parseError : DiscoveryError) (contents : List Char) :
    Except Failure ℕ :=
  match parseUnsigned (trim contents) with
  | none => .error { error := parseError, message := "invalid unsigned integer in " ++ path }
  | some value => .ok value

/-- `read_scalar`. -/
def readScalar (path : String) (readError parseError : DiscoveryError) : Reads ℕ := do
  let contents ← readText path readError
  .ofExcept (parseScalar path parseError contents)

/-- `Properties`. -/
abbrev Properties : Type := List (String × ℕ)

/-- One line of a property file. -/
def parseProperty (line : List Char) (properties : Properties) : Option Properties :=
  match (line.splitOnP TextSearch.isSpace).filter (· ≠ []) with
  | [name, valueText] =>
    match parseUnsigned valueText, properties.lookup (String.ofList name) with
    | some value, none => some ((String.ofList name, value) :: properties)
    | _, _ => none
  | _ => none

/-- The loop over the lines of a property file. -/
def parseProperties (path : String) (parseError : DiscoveryError) :
    ℕ → List (List Char) → Properties → Except Failure Properties
  | _, [], properties => .ok properties
  | lineNumber, line :: lines, properties =>
    if trim line = [] then parseProperties path parseError (lineNumber + 1) lines properties
    else
      match parseProperty line properties with
      | none => .error { error := parseError,
                         message := "invalid property at " ++ path ++ ":" ++ Nat.repr lineNumber }
      | some properties => parseProperties path parseError (lineNumber + 1) lines properties

/-- `read_properties`. -/
def readProperties (path : String) (readError parseError : DiscoveryError) : Reads Properties := do
  let contents ← readText path readError
  .ofExcept (parseProperties path parseError 1 (contents.splitOnP (· = '\n')) [])

/-- `require_property`. -/
def requireProperty (properties : Properties) (name : String) (maximum : ℕ)
    (error : DiscoveryError) (path : String) : Except Failure ℕ :=
  match properties.lookup name with
  | none => .error { error, message := "missing property " ++ name ++ " in " ++ path }
  | some value =>
    if maximum < value then
      .error { error, message := "property " ++ name ++ " is out of range in " ++ path }
    else .ok value

/-- `optional_property`. -/
def optionalProperty (properties : Properties) (name : String) : ℕ :=
  (properties.lookup name).getD 0

/-- `convert_heap_type`. -/
def convertHeapType : ℕ → MemoryHeapType
  | 0 => .system
  | 1 => .frameBufferPublic
  | 2 => .frameBufferPrivate
  | 3 => .gds
  | 4 => .lds
  | 5 => .scratch
  | _ => .unknown

/-- The properties of a bank, checked in the order of the source. -/
def parseMemoryBank (properties : Properties) (path : String) : Except Failure MemoryBank := do
  let require := fun name maximum =>
    requireProperty properties name maximum .invalidMemoryBank path
  let heapType ← require "heap_type" u32Max
  let size ← require "size_in_bytes" (2 ^ 64 - 1)
  let flags ← require "flags" u32Max
  let width ← require "width" u32Max
  let clock ← require "mem_clk_max" u32Max
  .ok { heapType := convertHeapType heapType, size := .ofNat size, width := .ofNat width,
        maximumClockMhz := .ofNat clock
        hotPluggable := flags.testBit 0, nonVolatile := flags.testBit 1 }

/-- `read_memory_bank`. -/
def readMemoryBank (bankPath : String) : Reads MemoryBank := do
  let propertiesPath := path bankPath "properties"
  let properties ← readProperties propertiesPath .readMemoryBank .invalidMemoryBank
  .ofExcept (parseMemoryBank properties propertiesPath)

/-- `architecture_name`: the three numbers as six hexadecimal digits. -/
def architectureName (architecture : GpuArchitecture) : String :=
  let digits := Nat.toDigits 16
    (architecture.major <<< 16 ||| architecture.minor <<< 8 ||| architecture.stepping).toNat
  "GFX" ++ String.ofList (List.replicate (6 - digits.length) '0' ++ digits)

/-- The properties of a node, checked in the order of the source; the number of memory banks comes
with them. -/
def parseNode (nodeId gpuId : UInt32) (properties : Properties) (path : String) :
    Except Failure (Node × ℕ) := do
  let require := fun name maximum => requireProperty properties name maximum .invalidNode path
  let invalid := fun text => { error := .invalidNode, message := text ++ path : Failure }
  let cpuCoreCount ← require "cpu_cores_count" u32Max
  let simdCount ← require "simd_count" u32Max
  let simdPerComputeUnit ← require "simd_per_cu" u32Max
  let wavefrontSize ← require "wave_front_size" u32Max
  let maximumWavesPerSimd ← require "max_waves_per_simd" u32Max
  let arrayCount ← require "array_count" u32Max
  let arraysPerEngine ← require "simd_arrays_per_engine" u32Max
  let maximumScratchWavesPerComputeUnit ← require "max_slots_scratch_cu" u32Max
  let gfxVersion ← require "gfx_target_version" u32Max
  let vendorId ← require "vendor_id" (2 ^ 16 - 1)
  let deviceId ← require "device_id" (2 ^ 16 - 1)
  let domain ← require "domain" u32Max
  let locationId ← require "location_id" u32Max
  let drmRenderMinor ← require "drm_render_minor" (2 ^ 31 - 1)
  let memoryBankCount ← require "mem_banks_count" u32Max
  Checked.refuse (simdCount ≠ 0 ∧ (arraysPerEngine = 0 ∨ arrayCount % arraysPerEngine ≠ 0))
    (invalid "invalid shader-engine topology in ")
  let architecture : GpuArchitecture :=
    ⟨.ofNat (gfxVersion / 10000 % 100), .ofNat (gfxVersion / 100 % 100), .ofNat (gfxVersion % 100)⟩
  Checked.refuse (simdCount ≠ 0 ∧ architecture.major = 0)
    (invalid "GPU node has no gfx target version in ")
  let ldsSizeKb := optionalProperty properties "lds_size_in_kb"
  let cwsrSize := optionalProperty properties "cwsr_size"
  let controlStackSize := optionalProperty properties "ctl_stack_size"
  Checked.refuse (u32Max < ldsSizeKb ∨ u32Max < cwsrSize ∨ u32Max < controlStackSize)
    (invalid "CWSR topology property is out of range in ")
  let xccCount := optionalProperty properties "num_xcc"
  Checked.refuse (u32Max < xccCount) (invalid "property num_xcc is out of range in ")
  .ok ({ nodeId, gpuId
         cpuCoreCount := .ofNat cpuCoreCount
         simdCount := .ofNat simdCount
         simdPerComputeUnit := .ofNat simdPerComputeUnit
         wavefrontSize := .ofNat wavefrontSize
         maximumWavesPerSimd := .ofNat maximumWavesPerSimd
         ldsSizeKb := .ofNat ldsSizeKb
         cwsrSize := .ofNat cwsrSize
         controlStackSize := .ofNat controlStackSize
         shaderEngineCount :=
           if arraysPerEngine = 0 then 0 else .ofNat (arrayCount / arraysPerEngine)
         maximumScratchWavesPerComputeUnit := .ofNat maximumScratchWavesPerComputeUnit
         xccCount := .ofNat xccCount
         vendorId := .ofNat vendorId
         deviceId := .ofNat deviceId
         domain := .ofNat domain
         locationId := .ofNat locationId
         drmRenderMinor := drmRenderMinor
         localMemorySize := .ofNat (optionalProperty properties "local_mem_size")
         integrated := decide (cpuCoreCount ≠ 0 ∧ simdCount ≠ 0), architecture },
    memoryBankCount)

/-- `read_node`. -/
def readNode (nodeId : UInt32) (nodePath : String) : Reads Node := do
  let propertiesPath := path nodePath "properties"
  let properties ← readProperties propertiesPath .readNode .invalidNode
  let gpuId ← readScalar (path nodePath "gpu_id") .readNode .invalidNode
  if u32Max < gpuId then
    .fail { error := .invalidNode, message := "GPU ID is out of range in " ++ nodePath }
  else
    let (node, memoryBankCount) ←
      .ofExcept (parseNode nodeId (.ofNat gpuId) properties propertiesPath)
    let sysfsName ← readText (path nodePath "name") .readNode
    let memoryBanks ← Reader.each
      (fun bankId => readMemoryBank (path (path nodePath "mem_banks") (Nat.repr bankId)))
      (List.range memoryBankCount)
    .done { node with
      name := if node.isGpu then architectureName node.architecture
              else String.ofList (trim sysfsName)
      memoryBanks }

/-- `parse_node_id`. -/
def parseNodeId (name : String) : Option UInt32 :=
  ((parseUnsigned name.toList).filter (· ≤ u32Max)).map UInt32.ofNat

/-- The failure when the directory does not give its next entry. -/
def enumerateFailure (nodesPath : String) (index : ℕ) (error : SystemError) : Failure :=
  ⟨.enumerateNodes, error.value, (if index = 0 then "failed to enumerate " else
    "failed while enumerating ") ++ nodesPath ++ ": " ++ error.message⟩

/-- The failure when it cannot be told whether an entry is a directory. -/
def inspectFailure (entryPath : String) (error : SystemError) : Failure :=
  ⟨.enumerateNodes, error.value, "failed to inspect " ++ entryPath ++ ": " ++ error.message⟩

/-- What the loop over the directory collects of an entry. -/
def nodeEntry (nodesPath name : String) (isDirectory : Bool) : Option (UInt32 × String) :=
  if isDirectory then (parseNodeId name).map fun nodeId => (nodeId, path nodesPath name) else none

/-- The loop over the directory, from an entry on; `fuel` is how many entries it may see. -/
def nodePaths (nodesPath : String) : (fuel index : ℕ) → Reads (List (UInt32 × String))
  | 0, _ => .unfinished
  | fuel + 1, index =>
    .ask (.entry nodesPath index) (enumerateFailure nodesPath index) fun
      | none => .done []
      | some name =>
        .ask (.isDirectory (path nodesPath name))
          (inspectFailure (path nodesPath name)) fun isDirectory => do
            let rest ← nodePaths nodesPath fuel (index + 1)
            .done ((nodeEntry nodesPath name isDirectory).toList ++ rest)

/-- `std::sort` by node number. -/
abbrev PathSorting : Type := Sorting fun entry : UInt32 × String => entry.1

/-- `read_snapshot`. -/
def readSnapshot (sorting : PathSorting) (topologyPath : String) (fuel : ℕ) : Reads (List Node) :=
  let nodesPath := path topologyPath "nodes"
  .ask (.openDirectory nodesPath) (enumerateFailure nodesPath 0) fun _ => do
    let paths ← nodePaths nodesPath fuel 0
    if paths = [] then
      .fail { error := .enumerateNodes,
              message := "no KFD topology nodes found in " ++ nodesPath }
    else Reader.each (fun entry => readNode entry.1 entry.2) (sorting.sort paths)

/-- `KfdVersion`. -/
structure KfdVersion where
  major : ℕ
  minor : ℕ

/-- `DiscoveryResult`, with the version and the nodes of the topology. -/
structure DiscoveryResult where
  error : DiscoveryError := .none
  systemError : ℤ := 0
  kfdVersion : KfdVersion := ⟨0, 0⟩
  nodes : List Node := []
  message : String := ""

/-- `failure_result`. -/
def failureResult (failure : Failure) : DiscoveryResult :=
  { error := failure.error, systemError := failure.systemError, message := failure.message }

/-- A history of the topology files. -/
abbrev World : Type := Reader.World Query Query.Answer Query.Error

/-- The read of the generation number. -/
def readGeneration (topologyPath : String) : Reads ℕ :=
  readScalar (path topologyPath "generation_id") .readGeneration .readGeneration

/-- The attempts of `read_topology_sysfs`, from a moment on. -/
def snapshotAttempts (sorting : PathSorting) (topologyPath : String) (version : KfdVersion)
    (fuel : ℕ) (world : World) : (attempts moment : ℕ) → Option DiscoveryResult × ℕ
  | 0, moment => (some { error := .topologyChanged,
                         message := "KFD topology changed during all snapshot attempts" }, moment)
  | attempts + 1, moment =>
    match (readGeneration topologyPath).run world moment with
    | (none, moment) => (none, moment)
    | (some (.error failure), moment) => (some (failureResult failure), moment)
    | (some (.ok generationBefore), moment) =>
      match (readSnapshot sorting topologyPath fuel).run world moment with
      | (none, moment) => (none, moment)
      | (some snapshot, moment) =>
        match (readGeneration topologyPath).run world moment with
        | (none, moment) => (none, moment)
        | (some (.error failure), moment) => (some (failureResult failure), moment)
        | (some (.ok generationAfter), moment) =>
          if generationBefore ≠ generationAfter then
            snapshotAttempts sorting topologyPath version fuel world attempts moment
          else
            match snapshot with
            | .error failure => (some (failureResult failure), moment)
            | .ok nodes => (some { kfdVersion := version, nodes }, moment)

/-- `kMaximumSnapshotAttempts`. -/
def kMaximumSnapshotAttempts : ℕ := 3

/-- `read_topology_sysfs`, called at a moment. -/
def readTopologySysfs (sorting : PathSorting) (topologyPath : String) (version : KfdVersion)
    (fuel : ℕ) (world : World) (moment : ℕ) : Option DiscoveryResult × ℕ :=
  snapshotAttempts sorting topologyPath version fuel world kMaximumSnapshotAttempts moment

/-! ## What the files say at one moment -/

/-- The generation number in the files. -/
def generation (files : Files) (topologyPath : String) : Option ℕ :=
  match files (.readFile (path topologyPath "generation_id")) with
  | .ok contents => parseUnsigned (trim contents)

/-- Every change gives the topology a new generation number. -/
def Versioned (world : World) (topologyPath : String) : Prop :=
  ∀ first second number, generation (world.content first) topologyPath = some number →
    generation (world.content second) topologyPath = some number → first = second

/-- The directory lists these names. -/
def Listed (files : Files) (nodesPath : String) : (index : ℕ) → List String → Prop
  | index, [] => files (.entry nodesPath index) = .ok none
  | index, name :: names => files (.entry nodesPath index) = .ok (some name) ∧
      Listed files nodesPath (index + 1) names

/-- The node of a name, if it is one. -/
def nodeOf (files : Files) (nodesPath name : String) : Option (UInt32 × String) :=
  match files (.isDirectory (path nodesPath name)) with
  | .error _ => none
  | .ok isDirectory => nodeEntry nodesPath name isDirectory

/-- The nodes are exactly those of the files, with what their files say. -/
def Present (files : Files) (topologyPath : String) (nodes : List Node) : Prop :=
  let nodesPath := path topologyPath "nodes"
  ∃ names paths, Listed files nodesPath 0 names ∧
    paths.Perm (names.filterMap (nodeOf files nodesPath)) ∧
    paths.Pairwise (fun left right => left.1 ≤ right.1) ∧
    List.Forall₂ (fun entry node => (readNode entry.1 entry.2).eval files = some (.ok node))
      paths nodes

variable {files : Files} {fuel : ℕ}

theorem listed_of_nodePaths {nodesPath : String} :
    ∀ {index : ℕ} {paths : List (UInt32 × String)},
      (nodePaths nodesPath fuel index).eval files = some (.ok paths) →
      ∃ names, Listed files nodesPath index names ∧
        paths = names.filterMap (nodeOf files nodesPath) := by
  induction fuel with
  | zero => rintro _ _ ⟨⟩
  | succ fuel ih =>
    intro index paths h
    unfold nodePaths at h
    obtain ⟨entry, hentry, h⟩ := Reader.eval_ask.mp h
    cases entry with
    | none =>
      obtain rfl : [] = paths := Except.ok.inj (Option.some.inj h)
      exact ⟨[], hentry, rfl⟩
    | some name =>
      obtain ⟨isDirectory, hdirectory, h⟩ := Reader.eval_ask.mp h
      obtain ⟨rest, hrest, h⟩ := Reader.eval_bind.mp h
      obtain ⟨names, hlisted, rfl⟩ := ih hrest
      obtain rfl : _ = paths := Except.ok.inj (Option.some.inj h)
      refine ⟨name :: names, ⟨hentry, hlisted⟩, ?_⟩
      have hnode : nodeOf files nodesPath name = nodeEntry nodesPath name isDirectory := by
        unfold nodeOf
        rw [hdirectory]
      rw [List.filterMap_cons, hnode]
      cases nodeEntry nodesPath name isDirectory <;> rfl

variable {topologyPath : String} {nodes : List Node}

/-- What a snapshot returns in files that do not change. -/
theorem present_of_readSnapshot {sorting : PathSorting}
    (h : (readSnapshot sorting topologyPath fuel).eval files = some (.ok nodes)) :
    Present files topologyPath nodes := by
  obtain ⟨-, -, h⟩ := Reader.eval_ask.mp h
  obtain ⟨paths, hpaths, h⟩ := Reader.eval_bind.mp h
  split_ifs at h with hempty
  · cases h
  obtain ⟨names, hlisted, rfl⟩ := listed_of_nodePaths hpaths
  exact ⟨names, _, hlisted, sorting.perm _, sorting.sorted _, Reader.eval_each.mp h⟩

variable {path : String} {properties : Properties}

theorem nodeId_of_parseNode {nodeId gpuId : UInt32} {count : ℕ} {node : Node}
    (h : parseNode nodeId gpuId properties path = .ok (node, count)) :
    node.nodeId = nodeId := by
  unfold parseNode at h
  iterate 15 obtain ⟨_, -, h⟩ := Checked.bind_eq_ok.mp h
  iterate 4 obtain ⟨-, h⟩ := Checked.after_refuse_eq_ok.mp h
  obtain rfl : _ = node := congrArg Prod.fst (Except.ok.inj h)
  rfl

/-- A node has the number it is read for. -/
theorem nodeId_of_readNode {nodeId : UInt32} {nodePath : String} {node : Node}
    (h : (readNode nodeId nodePath).eval files = some (.ok node)) : node.nodeId = nodeId := by
  obtain ⟨properties, -, h⟩ := Reader.eval_bind.mp h
  obtain ⟨gpuId, -, h⟩ := Reader.eval_bind.mp h
  split_ifs at h with hrange
  · cases h
  obtain ⟨⟨parsed, count⟩, hparse, h⟩ := Reader.eval_bind.mp h
  obtain ⟨name, -, h⟩ := Reader.eval_bind.mp h
  obtain ⟨banks, -, h⟩ := Reader.eval_bind.mp h
  obtain rfl : _ = node := Except.ok.inj (Option.some.inj h)
  cases hresult : parseNode nodeId (.ofNat gpuId) properties (path nodePath "properties") with
  | error failure =>
    rw [hresult] at hparse
    cases hparse
  | ok result =>
    rw [hresult] at hparse
    obtain rfl : result = (parsed, count) := Except.ok.inj (Option.some.inj hparse)
    have hid : parsed.nodeId = nodeId := nodeId_of_parseNode hresult
    exact hid

/-- The nodes are in the order of their numbers. -/
theorem Present.sorted (h : Present files topologyPath nodes) :
    nodes.Pairwise fun left right => left.nodeId ≤ right.nodeId := by
  obtain ⟨names, paths, -, -, hsorted, hnodes⟩ := h
  have hids : nodes.map Node.nodeId = paths.map Prod.fst := by
    clear hsorted
    induction hnodes with
    | nil => rfl
    | cons hnode _ ih => rw [List.map_cons, List.map_cons, ih, nodeId_of_readNode hnode]
  refine List.pairwise_map.mp ?_
  rw [hids]
  exact List.pairwise_map.mpr hsorted

/-! ## Every failure has an error -/

/-- The failure is not taken for success. -/
def Failure.Real (failure : Failure) : Prop := failure.error ≠ .none

theorem readText_real {readError : DiscoveryError} (h : readError ≠ .none) :
    (readText path readError).FailsWith Failure.Real :=
  ⟨fun _ => h, fun _ => ⟨fun error => error.elim, fun _ => trivial⟩⟩

theorem parseScalar_stops {contents : List Char} {parseError : DiscoveryError} :
    Checked.StopsWith (fun failure => failure.error = parseError)
      (parseScalar path parseError contents) := by
  unfold parseScalar
  cases parseUnsigned (trim contents) with
  | none =>
    rintro _ ⟨⟩
    rfl
  | some value => exact .ok _

theorem readScalar_real {readError parseError : DiscoveryError} (h : readError ≠ .none)
    (h' : parseError ≠ .none) :
    (readScalar path readError parseError).FailsWith Failure.Real := by
  refine (readText_real h).bind fun contents => .ofExcept fun failure hfailure => ?_
  unfold Failure.Real
  rw [parseScalar_stops failure hfailure]
  exact h'

theorem parseProperties_real {parseError : DiscoveryError} (h : parseError ≠ .none)
    {lines : List (List Char)} : ∀ {number : ℕ} {properties : Properties},
      Checked.StopsWith Failure.Real (parseProperties path parseError number lines properties) := by
  induction lines with
  | nil => exact .ok _
  | cons line lines ih =>
    intro number properties
    unfold parseProperties
    split_ifs
    · exact ih
    cases parseProperty line properties with
    | none =>
      rintro _ ⟨⟩
      exact h
    | some properties => exact ih

theorem readProperties_real {readError parseError : DiscoveryError} (h : readError ≠ .none)
    (h' : parseError ≠ .none) :
    (readProperties path readError parseError).FailsWith Failure.Real :=
  (readText_real h).bind fun _ => .ofExcept fun failure => parseProperties_real h' failure

theorem requireProperty_real {name path : String} {maximum : ℕ} {error : DiscoveryError}
    (h : error ≠ .none) :
    Checked.StopsWith Failure.Real (requireProperty properties name maximum error path) := by
  unfold requireProperty
  cases properties.lookup name with
  | none =>
    rintro _ ⟨⟩
    exact h
  | some value =>
    dsimp only
    split_ifs
    · rintro _ ⟨⟩
      exact h
    · exact .ok _

theorem parseMemoryBank_real :
    Checked.StopsWith Failure.Real (parseMemoryBank properties path) := by
  unfold parseMemoryBank
  iterate 5 refine (requireProperty_real (by decide)).bind fun _ _ => ?_
  exact .ok _

theorem parseNode_real {nodeId gpuId : UInt32} :
    Checked.StopsWith Failure.Real (parseNode nodeId gpuId properties path) := by
  have hinvalid : DiscoveryError.invalidNode ≠ .none := by decide
  unfold parseNode
  iterate 15 refine (requireProperty_real hinvalid).bind fun _ _ => ?_
  iterate 4 refine Checked.StopsWith.after_refuse hinvalid fun _ => ?_
  exact .ok _

theorem readNode_real {nodeId : UInt32} {nodePath : String} :
    (readNode nodeId nodePath).FailsWith Failure.Real := by
  refine (readProperties_real (by decide) (by decide)).bind fun properties => ?_
  refine (readScalar_real (by decide) (by decide)).bind fun gpuId => ?_
  split_ifs with hrange
  · exact fun h => by cases h
  refine (Reader.FailsWith.ofExcept fun failure => parseNode_real failure).bind fun parsed => ?_
  refine (readText_real (by decide)).bind fun name => ?_
  refine (Reader.FailsWith.each fun bank => ?_).bind fun _ => trivial
  exact (readProperties_real (by decide) (by decide)).bind fun _ =>
    .ofExcept fun failure => parseMemoryBank_real failure

theorem nodePaths_real {nodesPath : String} :
    ∀ {index : ℕ}, (nodePaths nodesPath fuel index).FailsWith Failure.Real := by
  induction fuel with
  | zero => exact trivial
  | succ fuel ih =>
    refine ⟨fun _ => by rintro ⟨⟩, fun entry => ?_⟩
    cases entry with
    | none => exact trivial
    | some name => exact ⟨fun _ => by rintro ⟨⟩, fun _ => ih.bind fun _ => trivial⟩

theorem readSnapshot_real {sorting : PathSorting} :
    (readSnapshot sorting topologyPath fuel).FailsWith Failure.Real := by
  refine ⟨fun _ => by rintro ⟨⟩, fun _ => nodePaths_real.bind fun paths => ?_⟩
  split_ifs with hempty
  · exact fun h => by cases h
  · exact .each fun entry => readNode_real

/-! ## The attempts -/

theorem run_readGeneration {world : World} (hhonest : world.Honest) {moment after value : ℕ}
    (h : (readGeneration topologyPath).run world moment = (some (.ok value), after)) :
    after = moment + 2 ∧
      generation (world.content (world.version (moment + 1))) topologyPath = some value := by
  obtain ⟨opened, -, h⟩ := Reader.run_ask hhonest h
  obtain ⟨contents, hcontents, h⟩ := Reader.run_ask hhonest h
  change (Reader.ofExcept (parseScalar _ _ contents)).run world (moment + 2) = _ at h
  unfold generation
  rw [hcontents]
  unfold parseScalar at h
  dsimp only
  cases hparse : parseUnsigned (trim contents) with
  | none =>
    rw [hparse] at h
    cases h
  | some number =>
    rw [hparse] at h
    cases h
    exact ⟨rfl, rfl⟩

theorem readGeneration_fails :
    (readGeneration topologyPath).FailsWith fun failure => failure.error = .readGeneration := by
  have htext : (readText (path topologyPath "generation_id") .readGeneration).FailsWith
      fun failure => failure.error = .readGeneration :=
    ⟨fun _ => rfl, fun _ => ⟨fun error => error.elim, fun _ => trivial⟩⟩
  exact htext.bind fun contents => .ofExcept fun failure => parseScalar_stops failure

/-- An attempt from `begin` on in which nothing has changed between the two reads of the generation
number; the snapshot is read from the first of them to `middle`. -/
structure Attempt (sorting : PathSorting) (topologyPath : String) (fuel : ℕ) (world : World)
    (begin middle : ℕ) (snapshot : Except Failure (List Node)) : Prop where
  snapshot : (readSnapshot sorting topologyPath fuel).run world (begin + 2) = (some snapshot, middle)
  unchanged : ∀ moment, begin < moment → moment < middle + 2 →
    world.version moment = world.version (begin + 1)

section Attempts

variable {sorting : PathSorting} {topologyPath : String} {version : KfdVersion} {fuel : ℕ}
  {world : World}

/-- The same generation number before and after the snapshot. -/
theorem attempt_of_generation (hworld : Versioned world topologyPath) (hhonest : world.Honest)
    {begin middle after number : ℕ} {snapshot : Except Failure (List Node)}
    (hbefore : generation (world.content (world.version (begin + 1))) topologyPath = some number)
    (hsnapshot : (readSnapshot sorting topologyPath fuel).run world (begin + 2) =
      (some snapshot, middle))
    (hafter : (readGeneration topologyPath).run world middle = (some (.ok number), after)) :
    after = middle + 2 ∧ Attempt sorting topologyPath fuel world begin middle snapshot := by
  obtain ⟨hmoment, hnumber⟩ := run_readGeneration hhonest hafter
  have hsame := hworld _ _ _ hbefore hnumber
  refine ⟨hmoment, hsnapshot, fun moment hbegin hmiddle => ?_⟩
  apply Nat.le_antisymm
  · rw [hsame]
    exact world.ordered (Nat.le_of_lt_succ hmiddle)
  · exact world.ordered hbegin

/-- What the attempts return: the result of one in which nothing has changed, or a failure to read
the generation number, or that it changes all the time. -/
theorem snapshotAttempts_cases (hworld : Versioned world topologyPath) (hhonest : world.Honest)
    {attempts : ℕ} :
    ∀ {start after : ℕ} {result : DiscoveryResult},
      snapshotAttempts sorting topologyPath version fuel world attempts start =
        (some result, after) →
      result.error = .topologyChanged ∨ result.error = .readGeneration ∨
        ∃ begin middle, start ≤ begin ∧ after = middle + 2 ∧
          ((∃ failure, Attempt sorting topologyPath fuel world begin middle (.error failure) ∧
              result = failureResult failure) ∨
            ∃ nodes, Attempt sorting topologyPath fuel world begin middle (.ok nodes) ∧
              result = { kfdVersion := version, nodes }) := by
  induction attempts with
  | zero =>
    rintro start after result ⟨⟩
    exact .inl rfl
  | succ attempts ih =>
    intro start after result h
    unfold snapshotAttempts at h
    split at h
    · cases h
    · rename_i failure moment hgeneration
      cases h
      exact .inr (.inl (readGeneration_fails.run hgeneration))
    rename_i before moment hgeneration
    obtain ⟨rfl, hbefore⟩ := run_readGeneration hhonest hgeneration
    split at h
    · cases h
    rename_i snapshot middle hsnapshot
    split at h
    · cases h
    · rename_i failure moment hgeneration
      cases h
      exact .inr (.inl (readGeneration_fails.run hgeneration))
    rename_i number moment hafter
    split_ifs at h with hchanged
    · have hle := (readSnapshot sorting topologyPath fuel).le_run world (start + 2)
      have hle' := (readGeneration topologyPath).le_run world middle
      rw [hsnapshot] at hle
      rw [hafter] at hle'
      obtain hresult | hresult | ⟨begin, middle, hstart, hrest⟩ := ih h
      · exact .inl hresult
      · exact .inr (.inl hresult)
      · exact .inr (.inr ⟨begin, middle, by omega, hrest⟩)
    obtain rfl : before = number := not_not.mp hchanged
    obtain ⟨rfl, hattempt⟩ := attempt_of_generation hworld hhonest hbefore hsnapshot hafter
    cases snapshot with
    | error failure =>
      cases h
      exact .inr (.inr ⟨start, middle, le_rfl, rfl, .inl ⟨failure, hattempt, rfl⟩⟩)
    | ok nodes =>
      cases h
      exact .inr (.inr ⟨start, middle, le_rfl, rfl, .inr ⟨nodes, hattempt, rfl⟩⟩)

/-- The snapshot of an attempt in which nothing has changed. -/
theorem Attempt.present (hhonest : world.Honest) {begin middle : ℕ}
    (h : Attempt sorting topologyPath fuel world begin middle (.ok nodes)) :
    Present (world.content (world.version (begin + 1))) topologyPath nodes :=
  present_of_readSnapshot (Reader.eval_of_run hhonest h.snapshot fun moment hbegin hmiddle =>
    h.unchanged moment (by omega) (by omega))

/-- Where no read of a file stops early, a discovery that succeeds returns the nodes and memory
banks of one moment, in the order of their numbers. A failure other than one to read the generation
number is returned only if nothing has changed between the two reads of that number. -/
theorem topology_of_one_moment (hworld : Versioned world topologyPath) (hhonest : world.Honest)
    {start after : ℕ} {result : DiscoveryResult}
    (h : readTopologySysfs sorting topologyPath version fuel world start = (some result, after)) :
    (result.error = .none → ∃ moment, start ≤ moment ∧ moment < after ∧
      Present (world.content (world.version moment)) topologyPath result.nodes ∧
      (result.nodes.Pairwise fun left right => left.nodeId ≤ right.nodeId) ∧
      result.kfdVersion = version) ∧
    (result.error ≠ .none → result.error ≠ .readGeneration → result.error ≠ .topologyChanged →
      ∃ begin middle failure, start ≤ begin ∧ after = middle + 2 ∧ result = failureResult failure ∧
        Attempt sorting topologyPath fuel world begin middle (.error failure)) := by
  obtain hchanged | hgeneration | ⟨begin, middle, hstart, rfl, hattempt⟩ :=
    snapshotAttempts_cases hworld hhonest h
  · exact ⟨fun hnone => absurd (hchanged.symm.trans hnone) (by decide),
      fun _ _ hne => absurd hchanged hne⟩
  · exact ⟨fun hnone => absurd (hgeneration.symm.trans hnone) (by decide),
      fun _ hne => absurd hgeneration hne⟩
  obtain ⟨failure, hattempt, rfl⟩ | ⟨nodes, hattempt, rfl⟩ := hattempt
  · have hreal := readSnapshot_real.run hattempt.snapshot
    exact ⟨fun hnone => absurd hnone hreal,
      fun _ _ _ => ⟨begin, middle, failure, hstart, rfl, rfl, hattempt⟩⟩
  · have hle := (readSnapshot sorting topologyPath fuel).le_run world (begin + 2)
    rw [hattempt.snapshot] at hle
    have hpresent := hattempt.present hhonest
    exact ⟨fun _ => ⟨begin + 1, by omega, by omega, hpresent, hpresent.sorted, rfl⟩,
      fun hne => absurd rfl hne⟩

end Attempts

/-- The text of a property file. -/
def propertyText (properties : List (String × String)) : List Char :=
  properties.flatMap fun property => property.1.toList ++ ' ' :: property.2.toList ++ ['\n']

/-- Files with one processor and one memory bank, with their generation number; the directory lists
the node or nothing. -/
def oneNode (listed : Bool) (generation : Char) (size : String) : Files
  | .openFile _ => .ok ()
  | .readFile path =>
    if path = "topology/generation_id" then .ok [generation, '\n']
    else if path = "topology/nodes/0/properties" then
      .ok (propertyText [("cpu_cores_count", "16"), ("simd_count", "0"), ("simd_per_cu", "0"),
        ("wave_front_size", "0"), ("max_waves_per_simd", "0"), ("array_count", "0"),
        ("simd_arrays_per_engine", "0"), ("max_slots_scratch_cu", "0"),
        ("gfx_target_version", "0"), ("vendor_id", "0"), ("device_id", "0"), ("domain", "0"),
        ("location_id", "0"), ("drm_render_minor", "0"), ("mem_banks_count", "1")])
    else if path = "topology/nodes/0/mem_banks/0/properties" then
      .ok (propertyText [("heap_type", "0"), ("size_in_bytes", size), ("flags", "0"),
        ("width", "64"), ("mem_clk_max", "2400")])
    else .ok ['0', '\n']
  | .openDirectory _ => .ok ()
  | .entry _ index => .ok (if listed ∧ index = 0 then some "0" else none)
  | .isDirectory _ => .ok true

/-- What disturbed accesses get. -/
abbrev Faults : Type := ℕ → (query : Query) → Option (Except query.Error query.Answer)

/-- One file cannot be opened. -/
def openFails (failing : ℕ) : Faults
  | moment, .openFile _ =>
    if moment = failing then some (.error ⟨5, "Input/output error"⟩) else none
  | _, _ => none

/-- One read fails before it delivers anything. -/
def readStops (stopping : ℕ) : Faults
  | moment, .readFile _ => if moment = stopping then some (.ok []) else none
  | _, _ => none

/-- The bank grows at a moment, and the generation number changes with it. -/
def oneChange (listed : Bool) (change : ℕ) (fault : Faults) : World where
  content version :=
    if version = 0 then oneNode listed '1' "4096"
    else oneNode listed (if version = 1 then '2' else '-') "8192"
  version moment := if moment < change then 0 else 1
  ordered first second hle := by
    dsimp only
    split_ifs <;> omega
  fault := fault

section OneChange

variable {listed : Bool} {change : ℕ} {fault : Faults}

theorem oneChange_versioned : Versioned (oneChange listed change fault) "topology" := by
  have hnumber : ∀ version number,
      generation ((oneChange listed change fault).content version) "topology" = some number →
      number = version + 1 := by
    intro version number h
    by_cases hzero : version = 0
    · subst hzero
      have hone : generation (oneNode listed '1' "4096") "topology" = some 1 := by
        cases listed <;> decide +kernel
      exact Option.some.inj (h.symm.trans hone)
    unfold oneChange at h
    dsimp only at h
    rw [if_neg hzero] at h
    by_cases hone : version = 1
    · have htwo : generation (oneNode listed '2' "8192") "topology" = some 2 := by
        cases listed <;> decide +kernel
      rw [if_pos hone] at h
      rw [hone]
      exact Option.some.inj (h.symm.trans htwo)
    · have hnone : generation (oneNode listed '-' "8192") "topology" = none := by
        cases listed <;> decide +kernel
      rw [if_neg hone] at h
      exact absurd (hnone.symm.trans h) (by simp)
  intro first second number hfirst hsecond
  have := hnumber first number hfirst
  have := hnumber second number hsecond
  omega

theorem oneChange_openFails_honest {failing : ℕ} :
    (oneChange listed change (openFails failing)).Honest := by
  intro moment query answer h
  change openFails failing moment query = _ at h
  unfold openFails at h
  split at h
  · split_ifs at h
    cases h
  · cases h

end OneChange

/-- The file of the bank cannot be opened, but by then the topology has changed: the snapshot is
taken again, and it has the bank after the change. -/
theorem topology_of_one_moment_oneNode : ∃ result after moment,
    readTopologySysfs (.insertion _) "topology" ⟨1, 14⟩ 8 (oneChange true 13 (openFails 12)) 0 =
      (some result, after) ∧ after = 31 ∧
    result.nodes.map (fun node => node.memoryBanks.map MemoryBank.size) = [[8192]] ∧
    Present ((oneChange true 13 (openFails 12)).content moment) "topology" result.nodes := by
  have hrun : (readTopologySysfs (.insertion _) "topology" ⟨1, 14⟩ 8
      (oneChange true 13 (openFails 12)) 0).1.map (fun result => (result.error,
        result.nodes.map fun node => node.memoryBanks.map MemoryBank.size)) =
      some (.none, [[8192]]) := by
    decide +kernel
  obtain ⟨result, hresult, hvalues⟩ := Option.map_eq_some_iff.mp hrun
  have hread : _ = (some result, _) := Prod.ext hresult rfl
  obtain ⟨moment, -, -, hpresent, -⟩ := (topology_of_one_moment oneChange_versioned
    oneChange_openFails_honest hread).1 (congrArg Prod.fst hvalues)
  exact ⟨result, _, _, hread, by decide +kernel, congrArg Prod.snd hvalues, hpresent⟩

/-- The topology has changed during the attempt, and then its generation number cannot be read: that
failure is returned at once. And with no change at all, a failing read of the name of a node is not
noticed: the node is returned without its name. -/
theorem generation_failure_after_change :
    (∃ world result after, Versioned world "topology" ∧ world.Honest ∧
      readTopologySysfs (.insertion _) "topology" ⟨1, 14⟩ 8 world 0 = (some result, after) ∧
      result.error = .readGeneration ∧ after = 5 ∧ world.version 1 ≠ world.version 4) ∧
    ∃ world result after, Versioned world "topology" ∧
      (∀ moment < after, world.version moment = 0) ∧
      (readText "topology/nodes/0/name" .readNode).eval (world.content 0) =
        some (.ok ['0', '\n']) ∧
      readTopologySysfs (.insertion _) "topology" ⟨1, 14⟩ 8 world 0 = (some result, after) ∧
      result.error = .none ∧ result.nodes.map Node.name = [""] := by
  constructor
  · have herror : (readTopologySysfs (.insertion _) "topology" ⟨1, 14⟩ 8
        (oneChange false 3 (openFails 4)) 0).1.map DiscoveryResult.error =
        some .readGeneration := by
      decide +kernel
    obtain ⟨result, hresult, herror⟩ := Option.map_eq_some_iff.mp herror
    exact ⟨_, result, _, oneChange_versioned, oneChange_openFails_honest, Prod.ext hresult rfl,
      herror, by decide +kernel, by decide⟩
  · have hrun : (readTopologySysfs (.insertion _) "topology" ⟨1, 14⟩ 8
        (oneChange true 16 (readStops 11)) 0).1.map (fun result =>
          (result.error, result.nodes.map Node.name)) = some (.none, [""]) := by
      decide +kernel
    obtain ⟨result, hresult, hvalues⟩ := Option.map_eq_some_iff.mp hrun
    exact ⟨_, result, _, oneChange_versioned, by decide +kernel, by rfl, Prod.ext hresult rfl,
      congrArg Prod.fst hvalues, congrArg Prod.snd hvalues⟩

end LightRocm.Topology
