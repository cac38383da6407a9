import LightRocm.Lib.Checked
import LightRocm.Loader.MessagePack
import LightRocm.Runtime.KernargSegment

/-!
# The arguments of a kernel in the metadata

`decode_kernel_arguments` of `metadata_reader.cpp`, and the search for the first hidden argument in
`light_rocr_kernargs.cpp`. The sort of the source may leave arguments with the same offset in any
order, so it is one of the ways to sort a list.
-/

namespace LightRocm.Loader

open Checked ByteReader ByteMemory Launch KernargSegment

/-! ## Fields of the metadata -/

/-- `find_field`. -/
def findField (map : MessagePackValue) (name : String) : Option MessagePackValue :=
  match map with
  | .map _ entries => (entries.find? fun entry => entry.1 = name).map Prod.snd
  | _ => none

/-- The value is not a map. -/
def notMap : MessagePackValue → Bool
  | .map _ _ => false
  | _ => true

/-- The integer in a value, if it has one that is not negative. -/
def nonnegativeInteger : MessagePackValue → Option ℕ
  | .unsigned _ integer => some integer
  | .signed _ integer => if 0 ≤ integer then some integer.toNat else none
  | _ => none

/-- The text in a value. -/
def stringValue : MessagePackValue → Option String
  | .string _ string => some string
  | _ => none

/-- The value of a kind in an optional one; errors are for invalid metadata. -/
def orFail {α : Type} (value : Option α) (offset : ℕ) (message : String) : Parse α :=
  match value with
  | some value => .ok value
  | none => failure .invalidMetadata offset message

/-- Fail for invalid metadata. -/
def rejectIf (bad : Prop) [Decidable bad] (offset : ℕ) (message : String) : Parse Unit :=
  refuse bad (.rejects ⟨.invalidMetadata, offset, message⟩)

/-- `required_field` for a text: its offset and the text. -/
def requiredString (map : MessagePackValue) (name : String) : Parse (ℕ × String) := do
  let value ← orFail (findField map name) map.offset ("AMDHSA metadata is missing " ++ name)
  let string ← orFail (stringValue value) value.offset
    ("AMDHSA metadata field has the wrong type: " ++ name)
  return (value.offset, string)

/-- `metadata_uint32`. -/
def metadataUint32 (map : MessagePackValue) (name : String) : Parse ℕ := do
  let value ← orFail (findField map name) map.offset ("AMDHSA metadata is missing " ++ name)
  let integer ← orFail (nonnegativeInteger value) value.offset
    ("AMDHSA metadata field is not a nonnegative integer: " ++ name)
  rejectIf (2 ^ 32 - 1 < integer) value.offset ("AMDHSA metadata field exceeds uint32: " ++ name)
  return integer

/-- The table of `kernel_argument_kind`. -/
def kernelArgumentKinds : List (String × KernelArgumentKind) :=
  [("by_value", .byValue), ("global_buffer", .globalBuffer),
    ("dynamic_shared_pointer", .dynamicSharedPointer), ("sampler", .sampler), ("image", .image),
    ("pipe", .pipe), ("queue", .queue), ("hidden_block_count_x", .hiddenBlockCountX),
    ("hidden_block_count_y", .hiddenBlockCountY), ("hidden_block_count_z", .hiddenBlockCountZ),
    ("hidden_group_size_x", .hiddenGroupSizeX), ("hidden_group_size_y", .hiddenGroupSizeY),
    ("hidden_group_size_z", .hiddenGroupSizeZ), ("hidden_remainder_x", .hiddenRemainderX),
    ("hidden_remainder_y", .hiddenRemainderY), ("hidden_remainder_z", .hiddenRemainderZ),
    ("hidden_global_offset_x", .hiddenGlobalOffsetX),
    ("hidden_global_offset_y", .hiddenGlobalOffsetY),
    ("hidden_global_offset_z", .hiddenGlobalOffsetZ), ("hidden_grid_dims", .hiddenGridDims),
    ("hidden_none", .hiddenNone), ("hidden_printf_buffer", .hiddenPrintfBuffer),
    ("hidden_hostcall_buffer", .hiddenHostcallBuffer), ("hidden_heap_v1", .hiddenHeapV1),
    ("hidden_default_queue", .hiddenDefaultQueue),
    ("hidden_completion_action", .hiddenCompletionAction),
    ("hidden_multigrid_sync_arg", .hiddenMultiGridSyncArg),
    ("hidden_dynamic_lds_size", .hiddenDynamicLdsSize),
    ("hidden_private_base", .hiddenPrivateBase), ("hidden_shared_base", .hiddenSharedBase),
    ("hidden_queue_ptr", .hiddenQueuePtr)]

/-- `kernel_argument_kind`. -/
def kernelArgumentKind (name : String) : Option KernelArgumentKind :=
  (kernelArgumentKinds.find? fun entry => name = entry.1).map Prod.snd

/-- `is_hidden_argument`: the kinds from `HiddenBlockCountX` on. -/
def isHiddenArgument : KernelArgumentKind → Bool
  | .byValue | .globalBuffer | .dynamicSharedPointer | .sampler | .image | .pipe | .queue => false
  | _ => true

/-- `required_hidden_argument_size`. -/
def requiredHiddenArgumentSize : KernelArgumentKind → ℕ
  | .hiddenBlockCountX | .hiddenBlockCountY | .hiddenBlockCountZ | .hiddenDynamicLdsSize
  | .hiddenPrivateBase | .hiddenSharedBase => 4
  | .hiddenGroupSizeX | .hiddenGroupSizeY | .hiddenGroupSizeZ | .hiddenRemainderX
  | .hiddenRemainderY | .hiddenRemainderZ | .hiddenGridDims => 2
  | .hiddenGlobalOffsetX | .hiddenGlobalOffsetY | .hiddenGlobalOffsetZ | .hiddenPrintfBuffer
  | .hiddenHostcallBuffer | .hiddenHeapV1 | .hiddenDefaultQueue | .hiddenCompletionAction
  | .hiddenMultiGridSyncArg | .hiddenQueuePtr => 8
  | _ => 0

/-! ## Decoding -/

/-- One argument, in the loop of `decode_kernel_arguments`. -/
def decodeArgument (kernargSize : ℕ) (value : MessagePackValue) : Parse KernelArgumentInfo := do
  rejectIf (notMap value = true) value.offset "AMDHSA kernel argument is not a map"
  let offset ← metadataUint32 value ".offset"
  let size ← metadataUint32 value ".size"
  let valueKind ← requiredString value ".value_kind"
  let kind ← orFail (kernelArgumentKind valueKind.2) valueKind.1
    "AMDHSA kernel argument has an unknown value kind"
  rejectIf (size = 0 ∨ kernargSize < offset ∨ kernargSize - offset < size) value.offset
    "AMDHSA kernel argument range exceeds the kernarg segment"
  rejectIf (requiredHiddenArgumentSize kind ≠ 0 ∧ size ≠ requiredHiddenArgumentSize kind) value.offset
    "AMDHSA hidden kernel argument has an invalid size"
  return ⟨offset, size, kind⟩

/-- The lowest offset of a hidden argument, with one more argument. -/
def lowestHidden (firstHiddenOffset : ℕ) (argument : KernelArgumentInfo) : ℕ :=
  if isHiddenArgument argument.kind = true then min firstHiddenOffset argument.offset
  else firstHiddenOffset

/-- The loop of `decode_kernel_arguments`. -/
def decodeArguments (kernargSize : ℕ) : List MessagePackValue → List KernelArgumentInfo → ℕ →
    Parse (List KernelArgumentInfo × ℕ)
  | [], arguments, firstHiddenOffset => return (arguments, firstHiddenOffset)
  | value :: rest, arguments, firstHiddenOffset => do
    let argument ← decodeArgument kernargSize value
    decodeArguments kernargSize rest (arguments ++ [argument])
      (lowestHidden firstHiddenOffset argument)

/-- The loop over the sorted arguments; the sums are words. -/
def checkArguments (offset firstHiddenOffset : ℕ) : List KernelArgumentInfo → ℕ → Parse Unit
  | [], _ => return ()
  | argument :: rest, previousEnd => do
    rejectIf (argument.offset < previousEnd) offset "AMDHSA kernel argument ranges overlap"
    rejectIf (isHiddenArgument argument.kind = false ∧
        firstHiddenOffset < (argument.offset + argument.size) % 2 ^ 32) offset
      "AMDHSA explicit kernel argument follows hidden arguments"
    checkArguments offset firstHiddenOffset rest ((argument.offset + argument.size) % 2 ^ 32)

/-- `std::sort` by the offsets. -/
abbrev ArgumentSorting : Type := Sorting KernelArgumentInfo.offset

/-- `decode_kernel_arguments`. -/
def decodeKernelArguments (sorting : ArgumentSorting) (kernelValue : MessagePackValue)
    (kernel : KernelInfo) : Parse KernelInfo :=
  match findField kernelValue ".args" with
  | none => .ok { kernel with explicitArgumentSize := kernel.kernargSize }
  | some (.array offset array) => do
    let (arguments, firstHiddenOffset) ←
      decodeArguments kernel.kernargSize array kernel.arguments kernel.kernargSize
    checkArguments offset firstHiddenOffset (sorting.sort arguments) 0
    return { kernel with
      arguments := sorting.sort arguments, explicitArgumentSize := firstHiddenOffset }
  | some value => failure .invalidMetadata value.offset "AMDHSA kernel .args is not an array"

/-! ## What is decoded -/

section Decoding

variable {kernargSize offset : ℕ} {value : MessagePackValue} {name : String}
  {argument : KernelArgumentInfo}

theorem orFail_eq_ok {α : Type} {o : Option α} {message : String} {a : α} :
    orFail o offset message = .ok a ↔ o = some a := by
  cases o with
  | none =>
    constructor
    · rintro ⟨⟩
    · rintro ⟨⟩
  | some b =>
    constructor
    · rintro ⟨⟩
      rfl
    · rintro ⟨⟩
      rfl

/-- A word of the metadata. -/
theorem metadataUint32_eq_ok {integer : ℕ} : metadataUint32 value name = .ok integer ↔
    (findField value name).bind nonnegativeInteger = some integer ∧ integer ≤ 2 ^ 32 - 1 := by
  simp only [metadataUint32, bind_eq_ok, orFail_eq_ok, rejectIf, refuse_eq_ok, Option.bind_eq_some_iff]
  constructor
  · rintro ⟨field, hfield, found, hfound, -, hle, heq⟩
    obtain rfl := Except.ok.inj heq
    exact ⟨⟨field, hfield, hfound⟩, not_lt.mp hle⟩
  · rintro ⟨⟨field, hfield, hfound⟩, hle⟩
    exact ⟨field, hfield, integer, hfound, (), not_lt.mpr hle, rfl⟩

/-- A text of the metadata. -/
theorem requiredString_eq_ok {found : ℕ × String} : requiredString value name = .ok found ↔
    ∃ field, findField value name = some field ∧ found.1 = field.offset ∧
      stringValue field = some found.2 := by
  simp only [requiredString, bind_eq_ok, orFail_eq_ok]
  constructor
  · rintro ⟨field, hfield, string, hstring, heq⟩
    obtain rfl := Except.ok.inj heq
    exact ⟨field, hfield, rfl, hstring⟩
  · rintro ⟨field, hfield, hoffset, hstring⟩
    exact ⟨field, hfield, found.2, hstring, by rw [← hoffset]; rfl⟩

/-- The argument that a value describes, wherever the value is in the file. -/
@[mk_iff]
structure Describes (kernargSize : ℕ) (value : MessagePackValue) (argument : KernelArgumentInfo) :
    Prop where
  map : notMap value = false
  offset : (findField value ".offset").bind nonnegativeInteger = some argument.offset
  offset_le : argument.offset ≤ 2 ^ 32 - 1
  size : (findField value ".size").bind nonnegativeInteger = some argument.size
  size_le : argument.size ≤ 2 ^ 32 - 1
  kind : ((findField value ".value_kind").bind stringValue).bind kernelArgumentKind =
    some argument.kind
  size_pos : 0 < argument.size
  end_le : argument.offset + argument.size ≤ kernargSize
  exact_size : requiredHiddenArgumentSize argument.kind = 0 ∨
    argument.size = requiredHiddenArgumentSize argument.kind

/-- What the loop decodes from a value. -/
theorem decodeArgument_eq_ok :
    decodeArgument kernargSize value = .ok argument ↔ Describes kernargSize value argument := by
  simp only [decodeArgument, rejectIf, bind_eq_ok, refuse_eq_ok, metadataUint32_eq_ok, orFail_eq_ok]
  constructor
  · rintro ⟨-, hmap, start, ⟨hstart, hstart_le⟩, size, ⟨hsize, hsize_le⟩, found, hfound, kind, hkind,
      -, hrange, -, hexact, heq⟩
    obtain rfl := Except.ok.inj heq
    push Not at hrange hexact
    refine ⟨Bool.eq_false_of_not_eq_true hmap, hstart, hstart_le, hsize, hsize_le, ?_,
      Nat.pos_of_ne_zero hrange.1, ?_, ?_⟩
    · obtain ⟨field, hfield, -, hstring⟩ := requiredString_eq_ok.mp hfound
      simp only [hfield, Option.bind_some, hstring, hkind]
    · dsimp only
      omega
    · by_cases hzero : requiredHiddenArgumentSize kind = 0
      · exact .inl hzero
      · exact .inr (hexact hzero)
  · intro h
    obtain ⟨string, hstring, hkind⟩ := Option.bind_eq_some_iff.mp h.kind
    obtain ⟨field, hfield, hstring⟩ := Option.bind_eq_some_iff.mp hstring
    have hpos := h.size_pos
    have hend := h.end_le
    refine ⟨(), by rw [h.map]; decide, argument.offset, ⟨h.offset, h.offset_le⟩, argument.size,
      ⟨h.size, h.size_le⟩, (field.offset, string),
      requiredString_eq_ok.mpr ⟨field, hfield, rfl, hstring⟩, argument.kind, hkind, (), by omega, (), ?_, rfl⟩
    rintro ⟨hne, hsize⟩
    exact h.exact_size.elim hne hsize

/-- What the loop gives. -/
theorem decodeArguments_eq_ok {array : List MessagePackValue}
    {arguments decoded : List KernelArgumentInfo} {firstHiddenOffset lowest : ℕ} :
    decodeArguments kernargSize array arguments firstHiddenOffset = .ok (decoded, lowest) ↔
      ∃ found, List.Forall₂ (Describes kernargSize) array found ∧ decoded = arguments ++ found ∧
        lowest = found.foldl lowestHidden firstHiddenOffset := by
  induction array generalizing arguments firstHiddenOffset with
  | nil =>
    constructor
    · intro h
      obtain ⟨rfl, rfl⟩ := Prod.mk.inj (Except.ok.inj h)
      exact ⟨[], .nil, (List.append_nil _).symm, rfl⟩
    · rintro ⟨found, hfound, rfl, rfl⟩
      cases hfound
      rw [List.append_nil]
      rfl
  | cons value rest ih =>
    simp only [decodeArguments, bind_eq_ok, decodeArgument_eq_ok, ih]
    constructor
    · rintro ⟨argument, hargument, found, hfound, rfl, rfl⟩
      exact ⟨argument :: found, .cons hargument hfound, List.append_assoc .., rfl⟩
    · rintro ⟨found, hfound, rfl, rfl⟩
      obtain ⟨argument, found, hargument, hrest, rfl⟩ := List.forall₂_cons_left_iff.mp hfound
      exact ⟨argument, hargument, found, hrest, List.append_cons .., rfl⟩

end Decoding

/-! ## The order of the arguments -/

mutual

/-- The value without the places of its parts in the file. -/
def strip : MessagePackValue → MessagePackValue
  | .nil _ => .nil 0
  | .boolean _ boolean => .boolean 0 boolean
  | .unsigned _ integer => .unsigned 0 integer
  | .signed _ integer => .signed 0 integer
  | .string _ string => .string 0 string
  | .array _ array => .array 0 (stripAll array)
  | .map _ map => .map 0 (stripEntries map)

/-- The values of an array without their places. -/
def stripAll : List MessagePackValue → List MessagePackValue
  | [] => []
  | value :: rest => strip value :: stripAll rest

/-- The entries of a map without the places of their values. -/
def stripEntries : List (String × MessagePackValue) → List (String × MessagePackValue)
  | [] => []
  | (key, value) :: rest => (key, strip value) :: stripEntries rest

end

section Order

variable {kernargSize : ℕ} {value : MessagePackValue} {name : String}
  {argument : KernelArgumentInfo}

theorem stripEntries_eq (entries : List (String × MessagePackValue)) :
    stripEntries entries = entries.map fun entry => (entry.1, strip entry.2) := by
  induction entries with
  | nil => rfl
  | cons entry rest ih => rw [stripEntries, ih, List.map_cons]

/-- Fields are found by their names. -/
theorem findField_strip : findField (strip value) name = (findField value name).map strip := by
  cases value with
  | map offset entries =>
    rw [strip, stripEntries_eq, findField, findField, List.find?_map, Option.map_map, Option.map_map]
    rfl
  | _ => rfl

@[simp]
theorem notMap_strip : notMap (strip value) = notMap value := by cases value <;> rfl

@[simp]
theorem nonnegativeInteger_strip : nonnegativeInteger (strip value) = nonnegativeInteger value := by
  cases value <;> rfl

@[simp]
theorem stringValue_strip : stringValue (strip value) = stringValue value := by cases value <;> rfl

/-- An argument does not depend on where it is described. -/
theorem describes_strip :
    Describes kernargSize (strip value) argument ↔ Describes kernargSize value argument := by
  simp only [describes_iff, findField_strip, notMap_strip, Option.bind_map, Function.comp_def,
    nonnegativeInteger_strip, stringValue_strip]

/-- Descriptions in another order describe the same arguments in another order. -/
theorem exists_perm_described {array array' : List MessagePackValue}
    {found : List KernelArgumentInfo}
    (hperm : (array.map strip).Perm (array'.map strip))
    (h : List.Forall₂ (Describes kernargSize) array found) :
    ∃ found', List.Forall₂ (Describes kernargSize) array' found' ∧ found'.Perm found := by
  have hstripped : List.Forall₂ (Describes kernargSize) (array.map strip) found := by
    simpa only [List.forall₂_map_left_iff, describes_strip] using h
  obtain ⟨found', hfound', hperm'⟩ := List.perm_comp_forall₂ hperm.symm hstripped
  exact ⟨found', by simpa only [List.forall₂_map_left_iff, describes_strip] using hfound', hperm'⟩

/-- The lowest hidden offset does not depend on the order. -/
theorem lowestHidden_comm (lowest : ℕ) (lhs rhs : KernelArgumentInfo) :
    lowestHidden (lowestHidden lowest lhs) rhs = lowestHidden (lowestHidden lowest rhs) lhs := by
  unfold lowestHidden
  split <;> split <;> first | rfl | exact min_right_comm ..

variable {arguments : List KernelArgumentInfo}

/-- No hidden argument is below the lowest hidden offset. -/
theorem foldl_lowestHidden_le {start : ℕ} :
    arguments.foldl lowestHidden start ≤ start ∧ ∀ argument ∈ arguments,
      isHiddenArgument argument.kind = true →
        arguments.foldl lowestHidden start ≤ argument.offset := by
  induction arguments generalizing start with
  | nil => exact ⟨le_rfl, fun _ hmem => by cases hmem⟩
  | cons first rest ih =>
    obtain ⟨hstart, hrest⟩ := @ih (lowestHidden start first)
    rw [List.foldl_cons]
    refine ⟨hstart.trans ?_, fun argument hmem hhidden => ?_⟩
    · unfold lowestHidden
      split
      · exact min_le_left _ _
      · exact le_rfl
    · rcases List.mem_cons.mp hmem with rfl | hmem
      · refine hstart.trans ?_
        rw [lowestHidden, if_pos hhidden]
        exact min_le_right _ _
      · exact hrest argument hmem hhidden

/-- The check of sorted arguments does not depend on where the list is in the file. -/
theorem checkArguments_offset {offset offset' lowest previousEnd : ℕ}
    (h : checkArguments offset lowest arguments previousEnd = .ok ()) :
    checkArguments offset' lowest arguments previousEnd = .ok () := by
  induction arguments generalizing previousEnd with
  | nil => rfl
  | cons first rest ih =>
    obtain ⟨hoverlap, h⟩ := after_refuse_eq_ok.mp h
    obtain ⟨hexplicit, h⟩ := after_refuse_eq_ok.mp h
    exact after_refuse_eq_ok.mpr ⟨hoverlap, after_refuse_eq_ok.mpr ⟨hexplicit, ih h⟩⟩

/-- What the check of sorted arguments ensures. -/
theorem checkArguments_spec {offset lowest previousEnd : ℕ}
    (hwords : ∀ argument ∈ arguments, argument.offset + argument.size < 2 ^ 32)
    (h : checkArguments offset lowest arguments previousEnd = .ok ()) :
    (∀ argument ∈ arguments, previousEnd ≤ argument.offset) ∧
      arguments.Pairwise (fun lhs rhs => lhs.offset + lhs.size ≤ rhs.offset) ∧
      ∀ argument ∈ arguments, isHiddenArgument argument.kind = false →
        argument.offset + argument.size ≤ lowest := by
  induction arguments generalizing previousEnd with
  | nil => exact ⟨by simp, .nil, by simp⟩
  | cons first rest ih =>
    obtain ⟨hoverlap, h⟩ := after_refuse_eq_ok.mp h
    obtain ⟨hexplicit, h⟩ := after_refuse_eq_ok.mp h
    have hfirst := Nat.mod_eq_of_lt (hwords first List.mem_cons_self)
    rw [hfirst] at hexplicit h
    obtain ⟨hlater, hpairs, hrest⟩ := ih (fun a ha => hwords a (List.mem_cons_of_mem _ ha)) h
    refine ⟨?_, List.pairwise_cons.mpr ⟨hlater, hpairs⟩, ?_⟩
    · intro argument hmem
      rcases List.mem_cons.mp hmem with rfl | hmem
      · exact not_lt.mp hoverlap
      · have hend := hlater argument hmem
        omega
    · intro argument hmem hkind
      rcases List.mem_cons.mp hmem with rfl | hmem
      · by_contra hlt
        exact hexplicit ⟨hkind, not_le.mp hlt⟩
      · exact hrest argument hmem hkind

/-- There is only one way to sort arguments that do not overlap. -/
theorem sort_eq (sorting : ArgumentSorting) {arguments sorted : List KernelArgumentInfo}
    (hperm : arguments.Perm sorted) (hpos : ∀ argument ∈ sorted, 0 < argument.size)
    (hsorted : sorted.Pairwise fun lhs rhs => lhs.offset + lhs.size ≤ rhs.offset) :
    sorting.sort arguments = sorted := by
  have hall := (sorting.perm arguments).trans hperm
  have hle : sorted.Pairwise fun lhs rhs => lhs.offset ≤ rhs.offset :=
    hsorted.imp fun h => (Nat.le_add_right _ _).trans h
  have hoffsets : (sorted.map KernelArgumentInfo.offset).Nodup := by
    refine List.pairwise_map.mpr (hsorted.imp_of_mem fun hlhs _ hend => ?_)
    have hsize := hpos _ hlhs
    omega
  exact List.Perm.eq_of_pairwise (fun lhs rhs hlhs hrhs hle hge =>
    List.inj_on_of_nodup_map hoffsets (hall.mem_iff.mp hlhs) hrhs (le_antisymm hle hge))
    (sorting.sorted arguments) hle hall

end Order

/-! ## Filling the hidden arguments -/

section Filling

variable {config : LaunchConfig} {kernarg kernargSize : ℕ} {memory : Memory}

/-- Explicit arguments are not filled in. -/
theorem hiddenValue_explicit {kind : KernelArgumentKind} (h : isHiddenArgument kind = false) :
    hiddenValue config kind = none := by
  cases kind <;> first | rfl | cases h

/-- Explicit arguments in front are passed by. -/
theorem writeHidden_explicit_append {explicit rest : List KernelArgumentInfo}
    (h : ∀ argument ∈ explicit, isHiddenArgument argument.kind = false) :
    writeHidden config kernarg kernargSize (explicit ++ rest) memory =
      writeHidden config kernarg kernargSize rest memory := by
  induction explicit with
  | nil => rfl
  | cons first explicit ih =>
    rw [List.cons_append, writeHidden, hiddenValue_explicit (h first List.mem_cons_self)]
    exact ih fun argument hmem => h argument (List.mem_cons_of_mem _ hmem)

/-- A byte outside of all hidden arguments stays as it is. -/
theorem writeHidden_apart {arguments : List KernelArgumentInfo} {address : ℕ}
    (h : ∀ argument ∈ arguments, isHiddenArgument argument.kind = true →
      ¬ InRange (kernarg + argument.offset) argument.size address) :
    (writeHidden config kernarg kernargSize arguments memory).2 address = memory address := by
  induction arguments generalizing memory with
  | nil => rfl
  | cons first rest ih =>
    have hrest := fun memory => @ih memory fun argument hmem => h argument (List.mem_cons_of_mem _ hmem)
    rw [writeHidden]
    cases hvalue : hiddenValue config first.kind with
    | none => exact hrest memory
    | some value =>
      have hhidden : isHiddenArgument first.kind = true := by
        by_contra hexplicit
        rw [hiddenValue_explicit (Bool.eq_false_of_not_eq_true hexplicit)] at hvalue
        cases hvalue
      dsimp only
      by_cases hrefused : first.size ≠ value.length ∨ kernargSize < first.offset ∨
          kernargSize - first.offset < first.size
      · rw [writeArgument, if_pos hrefused]
      · rw [writeArgument, if_neg hrefused]
        refine (hrest _).trans (write_outside ?_)
        have hapart := h first List.mem_cons_self hhidden
        unfold InRange at hapart ⊢
        omega

/-- A list of arguments as it is decoded: none is empty, they are sorted and do not overlap, and
those that are explicit lie before the end of the explicit ones and the hidden ones after it. -/
structure KernelInfo.Ordered (kernel : KernelInfo) : Prop where
  size_pos : ∀ argument ∈ kernel.arguments, 0 < argument.size
  sorted : kernel.arguments.Pairwise fun lhs rhs => lhs.offset + lhs.size ≤ rhs.offset
  explicit_le : ∀ argument ∈ kernel.arguments, isHiddenArgument argument.kind = false →
    argument.offset + argument.size ≤ kernel.explicitArgumentSize
  le_hidden : ∀ argument ∈ kernel.arguments, isHiddenArgument argument.kind = true →
    kernel.explicitArgumentSize ≤ argument.offset

variable {kernel : KernelInfo}

/-- The arguments that the search passes by are explicit. -/
theorem KernelInfo.Ordered.populateFrom_zero (h : kernel.Ordered) :
    populateFrom 0 kernel config kernarg kernargSize memory =
      populateLightRocrHiddenKernargs kernel config kernarg kernargSize memory := by
  have hsorted : kernel.arguments.Pairwise fun lhs rhs =>
      decide (rhs.offset < kernel.explicitArgumentSize) = true →
        decide (lhs.offset < kernel.explicitArgumentSize) = true := by
    refine h.sorted.imp fun {lhs rhs} hend hrhs => ?_
    rw [decide_eq_true_eq] at hrhs ⊢
    omega
  have hexplicit : ∀ argument ∈ kernel.arguments.takeWhile fun argument =>
      argument.offset < kernel.explicitArgumentSize, isHiddenArgument argument.kind = false := by
    intro argument hmem
    have hbefore := of_decide_eq_true (List.all_eq_true.mp List.all_takeWhile argument hmem)
    by_contra hhidden
    have hle := h.le_hidden argument ((List.takeWhile_prefix _).mem hmem)
      (Bool.eq_true_of_not_eq_false hhidden)
    omega
  unfold populateLightRocrHiddenKernargs populateFrom
  split
  · rfl
  · rw [firstHidden, BinarySearch.drop_lowerBound hsorted, List.drop_zero]
    nth_rewrite 1 [← List.takeWhile_append_dropWhile (p := fun argument =>
      decide (argument.offset < kernel.explicitArgumentSize)) (l := kernel.arguments)]
    exact writeHidden_explicit_append hexplicit

/-- The bytes of explicit arguments stay as they are. -/
theorem KernelInfo.Ordered.explicit_kept (h : kernel.Ordered) {first address : ℕ}
    {argument : KernelArgumentInfo} (hmem : argument ∈ kernel.arguments)
    (hexplicit : isHiddenArgument argument.kind = false)
    (haddress : InRange (kernarg + argument.offset) argument.size address) :
    (populateFrom first kernel config kernarg kernargSize memory).2 address = memory address := by
  unfold populateFrom
  split
  · rfl
  · refine writeHidden_apart fun hidden hdrop hkind => ?_
    have hend := h.explicit_le argument hmem hexplicit
    have hstart := h.le_hidden hidden (List.mem_of_mem_drop hdrop) hkind
    unfold InRange at haddress ⊢
    omega

end Filling

/-- Decoding fails or gives arguments that are in order. -/
theorem ordered_of_decodeKernelArguments {sorting : ArgumentSorting} {kernelValue : MessagePackValue}
    {kernel decoded : KernelInfo} {offset : ℕ} {array : List MessagePackValue}
    (hfresh : kernel.arguments = []) (hsize : kernel.kernargSize < 2 ^ 32)
    (hargs : findField kernelValue ".args" = some (.array offset array))
    (hdecoded : decodeKernelArguments sorting kernelValue kernel = .ok decoded) :
    ∃ found lowest, List.Forall₂ (Describes kernel.kernargSize) array found ∧
      lowest = found.foldl lowestHidden kernel.kernargSize ∧
      checkArguments offset lowest (sorting.sort found) 0 = .ok () ∧
      decoded = { kernel with arguments := sorting.sort found, explicitArgumentSize := lowest } ∧
      decoded.Ordered := by
  simp only [decodeKernelArguments, hargs, bind_eq_ok] at hdecoded
  obtain ⟨⟨arguments, lowest⟩, hfound, _, hcheck, heq⟩ := hdecoded
  obtain ⟨found, hdescribed, rfl, hlowest⟩ := decodeArguments_eq_ok.mp hfound
  rw [hfresh, List.nil_append] at hcheck heq
  obtain rfl := Except.ok.inj heq
  have hmem : ∀ argument ∈ sorting.sort found, argument ∈ found := fun argument h =>
    (sorting.perm found).mem_iff.mp h
  have hvalid : ∀ argument ∈ found, ∃ value, Describes kernel.kernargSize value argument := by
    intro argument h
    obtain ⟨i, hi, rfl⟩ := List.mem_iff_getElem.mp h
    exact ⟨_, hdescribed.get (hdescribed.length_eq ▸ hi) hi⟩
  have hwords : ∀ argument ∈ sorting.sort found, argument.offset + argument.size < 2 ^ 32 := by
    intro argument h
    obtain ⟨value, hvalue⟩ := hvalid argument (hmem argument h)
    have hend := hvalue.end_le
    omega
  obtain ⟨-, hsorted, hexplicit⟩ := checkArguments_spec hwords hcheck
  refine ⟨found, lowest, hdescribed, hlowest, hcheck, rfl, ?_, hsorted, hexplicit, ?_⟩
  · intro argument h
    obtain ⟨value, hvalue⟩ := hvalid argument (hmem argument h)
    exact hvalue.size_pos
  · intro argument h hhidden
    subst hlowest
    exact foldl_lowestHidden_le.2 argument (hmem argument h) hhidden

/-- The decoded arguments do not depend on the order in which the metadata lists them, they are
sorted, do not overlap and the explicit ones come first. Filling the hidden ones after the binary
search is filling them in a scan of the whole list, and no byte of an explicit one changes. -/
theorem kernel_arguments_in_order {sorting sorting' : ArgumentSorting}
    {kernelValue permuted : MessagePackValue} {kernel decoded : KernelInfo} {offset offset' : ℕ} {array array' : List MessagePackValue}
    (hfresh : kernel.arguments = []) (hsize : kernel.kernargSize < 2 ^ 32)
    (hargs : findField kernelValue ".args" = some (.array offset array))
    (hargs' : findField permuted ".args" = some (.array offset' array'))
    (hperm : (array.map strip).Perm (array'.map strip))
    (hdecoded : decodeKernelArguments sorting kernelValue kernel = .ok decoded) :
    decodeKernelArguments sorting' permuted kernel = .ok decoded ∧
      (decoded.arguments.Pairwise fun lhs rhs => lhs.offset + lhs.size ≤ rhs.offset) ∧
      (∀ explicit ∈ decoded.arguments, ∀ hidden ∈ decoded.arguments,
        isHiddenArgument explicit.kind = false → isHiddenArgument hidden.kind = true →
        explicit.offset + explicit.size ≤ hidden.offset) ∧
      ∀ (config : LaunchConfig) (kernarg kernargSize : ℕ) (memory : Memory),
        populateFrom (firstHidden decoded) decoded config kernarg kernargSize memory =
            populateFrom 0 decoded config kernarg kernargSize memory ∧
          ∀ explicit ∈ decoded.arguments, isHiddenArgument explicit.kind = false →
            ∀ address, InRange (kernarg + explicit.offset) explicit.size address →
              (populateFrom (firstHidden decoded) decoded config kernarg kernargSize memory).2
                address = memory address := by
  obtain ⟨found, lowest, hdescribed, hlowest, hcheck, heq, hordered⟩ :=
    ordered_of_decodeKernelArguments hfresh hsize hargs hdecoded
  refine ⟨?_, hordered.sorted, ?_, fun config kernarg kernargSize memory => ⟨?_, ?_⟩⟩
  · obtain ⟨found', hdescribed', hfound'⟩ := exists_perm_described hperm hdescribed
    have hlowest' : lowest = found'.foldl lowestHidden kernel.kernargSize :=
      hlowest.trans (hfound'.symm.foldl_eq'
        (fun lhs _ rhs _ start => lowestHidden_comm start lhs rhs) _)
    have hsort : sorting'.sort found' = sorting.sort found := by
      refine sort_eq sorting' (hfound'.trans (sorting.perm found).symm) ?_ ?_
      · have hpos := hordered.size_pos
        rw [heq] at hpos
        exact hpos
      · have hsorted := hordered.sorted
        rw [heq] at hsorted
        exact hsorted
    simp only [decodeKernelArguments, hargs', bind_eq_ok]
    refine ⟨(found', lowest), decodeArguments_eq_ok.mpr ⟨found', hdescribed', ?_, hlowest'⟩, (), ?_, ?_⟩
    · rw [hfresh, List.nil_append]
    · rw [hsort]
      exact checkArguments_offset hcheck
    · rw [hsort, heq]
      rfl
  · intro explicit hexplicit hidden hhidden hkind hkind'
    exact (hordered.explicit_le explicit hexplicit hkind).trans
      (hordered.le_hidden hidden hhidden hkind')
  · exact hordered.populateFrom_zero.symm
  · intro explicit hmem hkind address haddress
    exact hordered.explicit_kept hmem hkind haddress

/-- The metadata of a kernel with a hidden argument at offset 8 and an explicit one at offset 0, in
this or in the other order. -/
def twoArguments (swapped : Bool) : MessagePackValue :=
  let hidden : MessagePackValue := .map 0 [(".offset", .unsigned 0 8), (".size", .unsigned 0 4),
    (".value_kind", .string 0 "hidden_block_count_x")]
  let explicit : MessagePackValue := .map 0 [(".offset", .unsigned 0 0), (".size", .unsigned 0 8),
    (".value_kind", .string 0 "global_buffer")]
  .map 0 [(".args", .array 0 (if swapped then [explicit, hidden] else [hidden, explicit]))]

/-- The two arguments are decoded in the same order. -/
theorem two_arguments_in_order : ∃ decoded,
    decodeKernelArguments (.insertion _) (twoArguments false) { kernargSize := 12 } = .ok decoded ∧
    decodeKernelArguments (.insertion _) (twoArguments true) { kernargSize := 12 } = .ok decoded ∧
    decoded.arguments.map KernelArgumentInfo.offset = [0, 8] := by
  have hdecoded : ∃ decoded, decodeKernelArguments (.insertion _) (twoArguments false)
      { kernargSize := 12 } = .ok decoded ∧
      decoded.arguments.map KernelArgumentInfo.offset = [0, 8] := ⟨_, rfl, rfl⟩
  obtain ⟨decoded, hdecoded, hoffsets⟩ := hdecoded
  have hargs : findField (twoArguments false) ".args" = some (.array 0 _) := rfl
  have hargs' : findField (twoArguments true) ".args" = some (.array 0 _) := rfl
  exact ⟨decoded, hdecoded, (kernel_arguments_in_order rfl (by decide) hargs hargs'
    (List.Perm.swap _ _ _) hdecoded).1, hoffsets⟩

end LightRocm.Loader
