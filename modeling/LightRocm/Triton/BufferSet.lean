import LightRocm.Lib.ByteMemory
import LightRocm.Lib.Checked
import LightRocm.Lib.Run
import LightRocm.Status

/-!
# The buffers of the Triton executor in one arena

`BufferSet` of `triton_executor.hpp`, made with an arena: allocations are collected, and
`finalize` places them one after the other in one allocation of the device. It computes the
size in one pass and the offsets in a second one, which can run out of host memory.
-/

namespace LightRocm.Triton

open ByteMemory

/-- `kArenaAlignment`. -/
def kArenaAlignment : ℕ := 256

/-- `align_up`. -/
def alignUp (value alignment : ℕ) : Except String ℕ :=
  let remainder := value % alignment
  if remainder = 0 then .ok value
  else
    let padding := alignment - remainder
    if sizeMax - padding < value then .error "Triton executor arena alignment overflows size_t"
    else .ok (value + padding)

/-- `PendingBuffer`. -/
structure PendingBuffer where
  name : String
  bytes : ℕ

/-- `lrrt::DeviceBuffer`: `data()` and `size()`. -/
structure DeviceBuffer where
  data : ℕ
  size : ℕ

/-- `BufferSet` with `arena_enabled_`. -/
structure BufferSet where
  finalized : Bool := false
  arenaSize : ℕ := 0
  pendingBuffers : List PendingBuffer := []
  arena : Option DeviceBuffer := none
  offsets : String → Option ℕ := fun _ => none
  buffers : String → Option DeviceBuffer := fun _ => none

/-- What a call returns or throws, and the set after it. -/
abbrev Outcome : Type := Except String Unit × BufferSet

/-- `allocate_bytes`; `room` says whether host memory can be had. -/
def BufferSet.allocateBytes (name : String) (bytes : ℕ) (room : Bool) (set : BufferSet) : Outcome :=
  if set.finalized then (.error "Triton executor arena buffer set is finalized", set)
  else if !room then (.error "std::bad_alloc", set)
  else (.ok (), { set with pendingBuffers := set.pendingBuffers ++ [⟨name, bytes⟩] })

/-- `allocate<T>`, for elements of a size; `allocate_bytes` is the case of size one. -/
def BufferSet.allocate (name : String) (elementSize count : ℕ) (room : Bool) (set : BufferSet) :
    Outcome :=
  if sizeMax / elementSize < count then
    (.error ("Triton executor buffer allocation overflows size_t for buffer '" ++ name ++ "'"), set)
  else set.allocateBytes name (count * elementSize) room

/-- The first loop of `finalize`. -/
def totalBytes : ℕ → List PendingBuffer → Except String ℕ
  | total, [] => .ok total
  | total, buffer :: rest => do
    let total ← alignUp total kArenaAlignment
    if sizeMax - total < buffer.bytes then
      .error "Triton executor arena allocation overflows size_t"
    else totalBytes (total + buffer.bytes) rest

/-- The second loop of `finalize`; `room` is how many of its allocations on the host succeed. -/
def BufferSet.place (base : ℕ) : ℕ → ℕ → List PendingBuffer → BufferSet → Outcome
  | _, _, [], set => (.ok (), set)
  | room, offset, buffer :: rest, set =>
    match alignUp offset kArenaAlignment with
    | .error message => (.error message, set)
    | .ok offset =>
      let entered := { set with offsets := Function.update set.offsets buffer.name (some offset) }
      match room with
      | 0 => (.error "std::bad_alloc", set)
      | 1 => (.error "std::bad_alloc", entered)
      | room + 2 => BufferSet.place base room (u64 (offset + buffer.bytes)) rest { entered with
          buffers := Function.update set.buffers buffer.name
            (some ⟨base + offset, buffer.bytes⟩) }

/-- The part of `finalize` after the arena has been allocated. -/
def BufferSet.placeAll (base total room : ℕ) (set : BufferSet) : Outcome :=
  match BufferSet.place base room 0 set.pendingBuffers { set with arena := some ⟨base, total⟩ } with
  | (.error message, placed) => (.error message, placed)
  | (.ok (), placed) =>
    (.ok (), { placed with arenaSize := total, pendingBuffers := [], finalized := true })

/-- `finalize`; `data` is the address that `lr_malloc` returns. -/
def BufferSet.finalize (data : Option ℕ) (room : ℕ) (set : BufferSet) : Outcome :=
  if set.finalized then (.ok (), set)
  else
    match totalBytes 0 set.pendingBuffers, data with
    | .error message, _ => (.error message, set)
    | .ok _, none => (.error "lr_malloc", set)
    | .ok total, some base =>
      if total = 0 then (.error "lr_malloc", set) else set.placeAll base total room

variable (set : BufferSet)

/-- `get`. -/
def BufferSet.get (name : String) : Except String DeviceBuffer :=
  if !set.finalized then .error "Triton executor buffer set is not finalized"
  else
    match set.buffers name with
    | none => .error ("unknown Triton executor buffer '" ++ name ++ "'")
    | some buffer => .ok buffer

/-- `byte_offset`. -/
def BufferSet.byteOffset (name : String) : Except String ℕ :=
  if !set.finalized then .error "Triton executor buffer set does not have arena offsets"
  else
    match set.offsets name with
    | none => .error ("unknown Triton executor buffer '" ++ name ++ "'")
    | some offset => .ok offset

/-- `pack`, for contents given by their bytes. -/
def BufferSet.pack (image : List UInt8) (name : String) (bytes : List UInt8) :
    Except String (List UInt8) := do
  let buffer ← set.get name
  if buffer.size < bytes.length then
    .error ("Triton executor packed copy overflows buffer '" ++ name ++ "'")
  else
    let offset ← set.byteOffset name
    if image.length < offset ∨ image.length - offset < bytes.length then
      .error ("Triton executor packed copy is out of range for '" ++ name ++ "'")
    else .ok (image.take offset ++ bytes ++ image.drop (offset + bytes.length))

/-- `copy_arena_to_device`, for the memory of the device. -/
def BufferSet.copyArenaToDevice (image : List UInt8) (memory : Memory) :
    Except String Memory :=
  match set.arena with
  | none => .error "Triton executor arena copy size mismatch"
  | some arena =>
    if image.length ≠ set.arenaSize then .error "Triton executor arena copy size mismatch"
    else .ok (write memory arena.data image)

/-- `copy_to`, for contents given by their bytes. -/
def BufferSet.copyTo (name : String) (bytes : List UInt8) (memory : Memory) :
    Except String Memory := do
  let buffer ← set.get name
  .ok (write memory buffer.data bytes)

/-- Contents packed one after the other. -/
def BufferSet.packAll (image : List UInt8) (contents : List (String × List UInt8)) :
    Except String (List UInt8) :=
  contents.foldlM (fun image content => set.pack image content.1 content.2) image

/-- Contents copied one after the other. -/
def BufferSet.copyAll (contents : List (String × List UInt8)) (memory : Memory) :
    Except String Memory :=
  contents.foldlM (fun memory content => set.copyTo content.1 content.2 memory) memory

/-- The calls that make a set. -/
inductive Label where
  | allocate (name : String) (elementSize count : ℕ) (room : Bool)
  | finalize (data : Option ℕ) (room : ℕ)

/-- One call. -/
def step : Label → BufferSet → Option BufferSet
  | .allocate name elementSize count room, set => some (set.allocate name elementSize count room).2
  | .finalize data room, set => some (set.finalize data room).2

/-- A buffer at its place in the arena. -/
structure Entry where
  name : String
  offset : ℕ
  bytes : ℕ

/-- Two buffers do not overlap. -/
def Entry.Apart (first second : Entry) : Prop :=
  first.offset + first.bytes ≤ second.offset ∨ second.offset + second.bytes ≤ first.offset

instance : Std.Symm Entry.Apart := ⟨fun _ _ => Or.symm⟩

/-- The buffers, placed one after the other from `start` on, end at `stop`. -/
inductive Laid : (start : ℕ) → List PendingBuffer → List Entry → (stop : ℕ) → Prop
  | nil (start : ℕ) : Laid start [] [] start
  | cons {start offset stop : ℕ} {buffer : PendingBuffer} {rest : List PendingBuffer}
      {entries : List Entry} (halign : alignUp start kArenaAlignment = .ok offset)
      (hfit : offset + buffer.bytes ≤ sizeMax)
      (hrest : Laid (offset + buffer.bytes) rest entries stop) :
      Laid start (buffer :: rest) (⟨buffer.name, offset, buffer.bytes⟩ :: entries) stop

theorem alignUp_eq_ok {value aligned : ℕ} (h : alignUp value kArenaAlignment = .ok aligned) :
    value ≤ aligned ∧ kArenaAlignment ∣ aligned ∧ (value ≤ sizeMax → aligned ≤ sizeMax) := by
  unfold alignUp kArenaAlignment at *
  dsimp only at h
  split_ifs at h with hzero hwrap
  · obtain rfl := Except.ok.inj h
    exact ⟨le_rfl, Nat.dvd_of_mod_eq_zero hzero, id⟩
  · obtain rfl := Except.ok.inj h
    exact ⟨Nat.le_add_right _ _, by omega, by omega⟩

/-- The size that the first loop computes is the end of a placement. -/
theorem laid_of_totalBytes {pending : List PendingBuffer} :
    ∀ {start stop : ℕ}, start ≤ sizeMax → totalBytes start pending = .ok stop →
      ∃ entries, Laid start pending entries stop := by
  induction pending with
  | nil =>
    intro start stop _ h
    obtain rfl := Except.ok.inj h
    exact ⟨[], .nil start⟩
  | cons buffer rest ih =>
    intro start stop hstart h
    obtain ⟨offset, halign, h⟩ := Checked.bind_eq_ok.mp h
    split_ifs at h with hwrap
    have hoffset := (alignUp_eq_ok halign).2.2 hstart
    have hfit : offset + buffer.bytes ≤ sizeMax := by omega
    obtain ⟨entries, hrest⟩ := ih hfit h
    exact ⟨_, .cons halign hfit hrest⟩

namespace Laid

variable {start stop : ℕ} {pending : List PendingBuffer} {entries : List Entry}

/-- Every buffer is aligned and lies between the start and the end. -/
theorem inside (h : Laid start pending entries stop) : start ≤ stop ∧ ∀ entry ∈ entries,
    start ≤ entry.offset ∧ kArenaAlignment ∣ entry.offset ∧ entry.offset + entry.bytes ≤ stop := by
  induction h with
  | nil start => exact ⟨le_rfl, by simp⟩
  | cons halign _ _ ih =>
    obtain ⟨hle, hdvd, -⟩ := alignUp_eq_ok halign
    refine ⟨by omega, ?_⟩
    rintro entry (_ | ⟨_, hmem⟩)
    · exact ⟨hle, hdvd, ih.1⟩
    · obtain ⟨hstart, halign, hstop⟩ := ih.2 entry hmem
      exact ⟨by omega, halign, hstop⟩

/-- Every buffer ends before the next ones start. -/
theorem apart (h : Laid start pending entries stop) :
    entries.Pairwise fun first second => first.offset + first.bytes ≤ second.offset := by
  induction h with
  | nil => exact .nil
  | cons _ _ hrest ih => exact .cons (fun entry hmem => (hrest.inside.2 entry hmem).1) ih

theorem names (h : Laid start pending entries stop) :
    entries.map Entry.name = pending.map PendingBuffer.name := by
  induction h with
  | nil => rfl
  | cons _ _ _ ih => rw [List.map_cons, List.map_cons, ih]

end Laid

/-- A buffer is entered in both tables. -/
def BufferSet.enter (base : ℕ) (set : BufferSet) (entry : Entry) : BufferSet :=
  { set with
    offsets := Function.update set.offsets entry.name (some entry.offset)
    buffers := Function.update set.buffers entry.name (some ⟨base + entry.offset, entry.bytes⟩) }

/-- The second loop enters the buffers where the first one has placed them. -/
theorem place_eq_ok {base start stop : ℕ} {pending : List PendingBuffer} {entries : List Entry}
    (h : Laid start pending entries stop) : ∀ {room : ℕ} {set after : BufferSet},
      BufferSet.place base room start pending set = (.ok (), after) →
      after = entries.foldl (BufferSet.enter base) set := by
  induction h with
  | nil =>
    intro room set after hplace
    unfold BufferSet.place at hplace
    exact (congrArg Prod.snd hplace).symm
  | cons halign hfit _ ih =>
    intro room set after hplace
    unfold BufferSet.place at hplace
    rw [halign] at hplace
    have hu64 : ∀ n ≤ sizeMax, u64 n = n := fun n hn =>
      u64_of_lt (Nat.lt_of_le_of_lt hn (by decide))
    rcases room with _ | _ | room
    · cases hplace
    · cases hplace
    · dsimp only at hplace
      rw [hu64 _ hfit] at hplace
      exact ih hplace

/-- The tables have only names that were there before or are pending. -/
theorem place_names {base : ℕ} {names : String → Prop} {pending : List PendingBuffer} :
    ∀ {room offset : ℕ} {set : BufferSet}, (∀ buffer ∈ pending, names buffer.name) →
      (∀ name, (set.offsets name ≠ none ∨ set.buffers name ≠ none) → names name) →
      ∀ name, ((BufferSet.place base room offset pending set).2.offsets name ≠ none ∨
        (BufferSet.place base room offset pending set).2.buffers name ≠ none) → names name := by
  induction pending with
  | nil =>
    intro room offset set _ hset
    unfold BufferSet.place
    exact hset
  | cons buffer rest ih =>
    intro room offset set hpending hset
    have hrest := fun other hmem => hpending other (List.mem_cons_of_mem _ hmem)
    have hname : ∀ {β : Type} {table : String → Option β} {entry : Option β} {name : String},
        (table name ≠ none → names name) → Function.update table buffer.name entry name ≠ none →
        names name := by
      intro β table entry name htable hentry
      by_cases heq : name = buffer.name
      · exact heq ▸ hpending buffer List.mem_cons_self
      · rw [Function.update_of_ne heq] at hentry
        exact htable hentry
    unfold BufferSet.place
    cases alignUp offset kArenaAlignment with
    | error message => exact hset
    | ok offset =>
      rcases room with _ | _ | room
      · exact hset
      · exact fun name h =>
          h.elim (hname fun h => hset name (.inl h)) fun h => hset name (.inr h)
      · exact ih hrest fun name h => h.elim (hname fun h => hset name (.inl h))
          (hname fun h => hset name (.inr h))

/-- What the tables say about a name after buffers have been entered. -/
theorem foldl_enter {base : ℕ} {entries : List Entry} : ∀ (set : BufferSet) (name : String),
    ((∀ entry ∈ entries, entry.name ≠ name) ∧
      (entries.foldl (BufferSet.enter base) set).offsets name = set.offsets name ∧
      (entries.foldl (BufferSet.enter base) set).buffers name = set.buffers name) ∨
    ∃ entry ∈ entries, entry.name = name ∧
      (entries.foldl (BufferSet.enter base) set).offsets name = some entry.offset ∧
      (entries.foldl (BufferSet.enter base) set).buffers name =
        some ⟨base + entry.offset, entry.bytes⟩ := by
  induction entries with
  | nil => exact fun set name => .inl ⟨by simp, rfl, rfl⟩
  | cons entry rest ih =>
    intro set name
    rw [List.foldl_cons]
    obtain ⟨habsent, hoffsets, hbuffers⟩ | ⟨later, hmem, hlater⟩ := ih (set.enter base entry) name
    · by_cases hname : entry.name = name
      · subst hname
        refine .inr ⟨entry, List.mem_cons_self, rfl, hoffsets.trans ?_, hbuffers.trans ?_⟩
        · exact Function.update_self ..
        · exact Function.update_self ..
      · refine .inl ⟨?_, hoffsets.trans ?_, hbuffers.trans ?_⟩
        · rintro other (_ | ⟨_, hmem⟩)
          · exact hname
          · exact habsent other hmem
        · exact Function.update_of_ne (Ne.symm hname) ..
        · exact Function.update_of_ne (Ne.symm hname) ..
    · exact .inr ⟨later, List.mem_cons_of_mem _ hmem, hlater⟩

/-- What a finalized set promises: a name has a buffer and an offset or neither, and the buffers lie
apart in the arena. -/
structure BufferSet.Placed (set : BufferSet) (base : ℕ) : Prop where
  arena : set.arena = some ⟨base, set.arenaSize⟩
  unknown : ∀ name, set.offsets name = none ↔ set.buffers name = none
  inside : ∀ name offset buffer, set.offsets name = some offset → set.buffers name = some buffer →
    buffer.data = base + offset ∧ kArenaAlignment ∣ offset ∧ offset + buffer.size ≤ set.arenaSize
  apart : ∀ name name' buffer buffer', name ≠ name' → set.buffers name = some buffer →
    set.buffers name' = some buffer' →
    buffer.data + buffer.size ≤ buffer'.data ∨ buffer'.data + buffer'.size ≤ buffer.data

/-- The invariant of a set with an arena. -/
structure BufferSet.Inv (set : BufferSet) : Prop where
  pending : set.finalized = false → ∀ name, (set.offsets name ≠ none ∨ set.buffers name ≠ none) →
    name ∈ set.pendingBuffers.map PendingBuffer.name
  placed : set.finalized = true → ∃ base, set.Placed base

/-- The tables of a placement in which every known name occurs. -/
theorem Laid.placed {base stop : ℕ} {pending : List PendingBuffer} {entries : List Entry}
    {set after : BufferSet} (h : Laid 0 pending entries stop)
    (hset : ∀ name, (set.offsets name ≠ none ∨ set.buffers name ≠ none) →
      name ∈ pending.map PendingBuffer.name)
    (harena : after.arena = some ⟨base, stop⟩) (hsize : after.arenaSize = stop)
    (hoffsets : after.offsets = (entries.foldl (BufferSet.enter base) set).offsets)
    (hbuffers : after.buffers = (entries.foldl (BufferSet.enter base) set).buffers) :
    after.Placed base := by
  have hentry : ∀ name, (after.offsets name = none ∧ after.buffers name = none) ∨
      ∃ entry ∈ entries, entry.name = name ∧ after.offsets name = some entry.offset ∧
        after.buffers name = some ⟨base + entry.offset, entry.bytes⟩ := by
    intro name
    rw [hoffsets, hbuffers]
    refine (foldl_enter set name).imp_left fun ⟨habsent, hsame, hsame'⟩ => ?_
    have hname : ¬ (set.offsets name ≠ none ∨ set.buffers name ≠ none) := by
      intro hknown
      have hmem := hset name hknown
      rw [← h.names] at hmem
      obtain ⟨entry, hentry, rfl⟩ := List.mem_map.mp hmem
      exact habsent entry hentry rfl
    rw [hsame, hsame']
    exact not_or.mp hname |>.imp not_not.mp not_not.mp
  subst hsize
  refine ⟨harena, fun name => ?_, fun name offset buffer ho hb => ?_, ?_⟩
  · rcases hentry name with ⟨ho, hb⟩ | ⟨entry, -, -, ho, hb⟩ <;> simp [ho, hb]
  · rcases hentry name with ⟨hnone, -⟩ | ⟨entry, hmem, -, ho', hb'⟩
    · rw [hnone] at ho
      cases ho
    · obtain rfl := Option.some.inj (ho'.symm.trans ho)
      obtain rfl := Option.some.inj (hb'.symm.trans hb)
      obtain ⟨-, halign, hstop⟩ := h.inside.2 entry hmem
      exact ⟨rfl, halign, hstop⟩
  · intro name name' buffer buffer' hne hb hb'
    rcases hentry name with ⟨-, hnone⟩ | ⟨entry, hmem, rfl, -, hbuffer⟩
    · rw [hnone] at hb
      cases hb
    rcases hentry name' with ⟨-, hnone⟩ | ⟨entry', hmem', rfl, -, hbuffer'⟩
    · rw [hnone] at hb'
      cases hb'
    obtain rfl := Option.some.inj (hbuffer.symm.trans hb)
    obtain rfl := Option.some.inj (hbuffer'.symm.trans hb')
    have hpair : entries.Pairwise Entry.Apart := h.apart.imp .inl
    have hapart := hpair.forall hmem hmem' fun heq => hne (heq ▸ rfl)
    unfold Entry.Apart at hapart
    dsimp only
    omega

/-- The second loop changes only the tables. -/
theorem place_frame {base : ℕ} {pending : List PendingBuffer} :
    ∀ {room offset : ℕ} {set : BufferSet},
      (BufferSet.place base room offset pending set).2.pendingBuffers = set.pendingBuffers ∧
      (BufferSet.place base room offset pending set).2.finalized = set.finalized ∧
      (BufferSet.place base room offset pending set).2.arena = set.arena := by
  induction pending with
  | nil =>
    intro room offset set
    unfold BufferSet.place
    exact ⟨rfl, rfl, rfl⟩
  | cons buffer rest ih =>
    intro room offset set
    unfold BufferSet.place
    cases alignUp offset kArenaAlignment with
    | error message => exact ⟨rfl, rfl, rfl⟩
    | ok offset =>
      rcases room with _ | _ | room
      · exact ⟨rfl, rfl, rfl⟩
      · exact ⟨rfl, rfl, rfl⟩
      · exact ih

variable {set : BufferSet}

theorem BufferSet.Inv.placeAll (h : set.Inv) (hopen : set.finalized = false) {total : ℕ}
    (htotal : totalBytes 0 set.pendingBuffers = .ok total) (base room : ℕ) :
    (set.placeAll base total room).2.Inv := by
  unfold BufferSet.placeAll
  obtain ⟨entries, hlaid⟩ := laid_of_totalBytes (Nat.zero_le _) htotal
  cases hplace : BufferSet.place base room 0 set.pendingBuffers
    { set with arena := some ⟨base, total⟩ } with
  | mk result placed =>
    obtain ⟨hpending, hfinal, harena⟩ := hplace ▸ @place_frame base set.pendingBuffers room 0
      { set with arena := some ⟨base, total⟩ }
    cases result with
    | error message =>
      -- The loop has thrown: what it has entered so far is still pending.
      refine ⟨fun _ name hknown => ?_, fun hdone => ?_⟩
      · change name ∈ placed.pendingBuffers.map PendingBuffer.name
        rw [hpending]
        have hnames := @place_names base (· ∈ set.pendingBuffers.map PendingBuffer.name)
          set.pendingBuffers room 0 { set with arena := some ⟨base, total⟩ }
          (fun buffer hmem => List.mem_map_of_mem hmem) (h.pending hopen) name
        rw [hplace] at hnames
        exact hnames hknown
      · rw [show placed.finalized = false from hfinal.trans hopen] at hdone
        cases hdone
    | ok =>
      refine ⟨by rintro ⟨⟩, fun _ => ⟨base, ?_⟩⟩
      obtain rfl := place_eq_ok hlaid hplace
      exact @Laid.placed base total _ entries { set with arena := some ⟨base, total⟩ } _ hlaid
        (h.pending hopen) harena rfl rfl rfl

/-- A call of `finalize` keeps the invariant, whether it throws or not. -/
theorem BufferSet.Inv.finalize (h : set.Inv) (data : Option ℕ) (room : ℕ) :
    (set.finalize data room).2.Inv := by
  unfold BufferSet.finalize
  by_cases hfinal : set.finalized = true
  · rw [if_pos hfinal]
    exact h
  rw [if_neg hfinal]
  cases htotal : totalBytes 0 set.pendingBuffers with
  | error message => exact h
  | ok total =>
    cases data with
    | none => exact h
    | some base =>
      dsimp only
      split_ifs with hzero
      · exact h
      · exact h.placeAll (Bool.not_eq_true _ ▸ hfinal) htotal base room

/-- Every call keeps the invariant. -/
theorem BufferSet.Inv.step {set after : BufferSet} {label : Label} (h : set.Inv)
    (hstep : step label set = some after) : after.Inv := by
  cases label with
  | allocate name elementSize count room =>
    obtain rfl := Option.some.inj hstep
    unfold BufferSet.allocate BufferSet.allocateBytes
    split_ifs with hwrap hfinal hroom
    · exact h
    · exact h
    · exact h
    · refine ⟨fun hopen name hknown => ?_, fun hfinal' => absurd hfinal' hfinal⟩
      rw [List.map_append]
      exact List.mem_append_left _ (h.pending hopen name hknown)
  | finalize data room =>
    obtain rfl := Option.some.inj hstep
    exact h.finalize data room

variable {name : String}

theorem BufferSet.get_eq_ok {buffer : DeviceBuffer} :
    set.get name = .ok buffer ↔ set.finalized = true ∧ set.buffers name = some buffer := by
  unfold BufferSet.get
  cases set.finalized <;> cases set.buffers name <;> simp

theorem BufferSet.byteOffset_eq_ok {offset : ℕ} :
    set.byteOffset name = .ok offset ↔ set.finalized = true ∧ set.offsets name = some offset := by
  unfold BufferSet.byteOffset
  cases set.finalized <;> cases set.offsets name <;> simp

/-- Contents packed into an image and copied with it arrive as contents copied after it. -/
theorem BufferSet.Placed.pack {base : ℕ} (h : set.Placed base) {image packed bytes : List UInt8}
    (hpack : set.pack image name bytes = .ok packed) (memory : Memory) :
    packed.length = image.length ∧
      set.copyTo name bytes (write memory base image) = .ok (write memory base packed) := by
  obtain ⟨buffer, hget, hpack⟩ := Checked.bind_eq_ok.mp hpack
  split_ifs at hpack with hsize
  obtain ⟨offset, hoffset, hpack⟩ := Checked.bind_eq_ok.mp hpack
  split_ifs at hpack with hrange
  obtain rfl := Except.ok.inj hpack
  have hdata := (h.inside name offset buffer (BufferSet.byteOffset_eq_ok.mp hoffset).2
    (BufferSet.get_eq_ok.mp hget).2).1
  have hfit : offset + bytes.length ≤ image.length := by omega
  constructor
  · simp only [List.length_append, List.length_take, List.length_drop]
    omega
  · refine Checked.bind_eq_ok.mpr ⟨buffer, hget, ?_⟩
    rw [write_splice hfit, hdata]

/-- The same for contents packed one after the other. -/
theorem BufferSet.Placed.packAll {base : ℕ} (h : set.Placed base)
    {contents : List (String × List UInt8)} (memory : Memory) :
    ∀ {image packed : List UInt8}, set.packAll image contents = .ok packed →
      packed.length = image.length ∧
        set.copyAll contents (write memory base image) = .ok (write memory base packed) := by
  induction contents with
  | nil =>
    intro image packed hpack
    obtain rfl := Except.ok.inj hpack
    exact ⟨rfl, rfl⟩
  | cons content rest ih =>
    intro image packed hpack
    unfold BufferSet.packAll at hpack
    rw [List.foldlM_cons] at hpack
    obtain ⟨next, hnext, hrest⟩ := Checked.bind_eq_ok.mp hpack
    obtain ⟨hlength, hcopy⟩ := h.pack hnext memory
    obtain ⟨hlength', hcopies⟩ := ih hrest
    refine ⟨hlength'.trans hlength, ?_⟩
    unfold BufferSet.copyAll
    rw [List.foldlM_cons]
    exact Checked.bind_eq_ok.mpr ⟨_, hcopy, hcopies⟩

/-- A byte that one of the contents reaches. -/
def BufferSet.Reached (contents : List (String × List UInt8)) (address : ℕ) :
    Prop :=
  ∃ content ∈ contents, ∃ buffer, set.get content.1 = .ok buffer ∧
    InRange buffer.data content.2.length address

/-- Contents copied over two memories agree wherever they reach. -/
theorem BufferSet.copyAll_agree {contents : List (String × List UInt8)} :
    ∀ {first first' : Memory}, set.copyAll contents first = .ok first' → ∀ second : Memory,
      ∃ second', set.copyAll contents second = .ok second' ∧ ∀ address,
        (first address = second address ∨ set.Reached contents address) →
        first' address = second' address := by
  induction contents with
  | nil =>
    intro first first' hcopy second
    obtain rfl := Except.ok.inj hcopy
    refine ⟨second, rfl, fun address h => h.resolve_right ?_⟩
    rintro ⟨content, ⟨⟩, -⟩
  | cons content rest ih =>
    intro first first' hcopy second
    unfold BufferSet.copyAll at hcopy ⊢
    rw [List.foldlM_cons] at hcopy
    obtain ⟨next, hnext, hrest⟩ := Checked.bind_eq_ok.mp hcopy
    obtain ⟨buffer, hget, hnext⟩ := Checked.bind_eq_ok.mp hnext
    obtain rfl := Except.ok.inj hnext
    obtain ⟨second', hsecond, hagree⟩ := ih hrest (write second buffer.data content.2)
    refine ⟨second', ?_, fun address h => hagree address ?_⟩
    · rw [List.foldlM_cons]
      exact Checked.bind_eq_ok.mpr ⟨_, Checked.bind_eq_ok.mpr ⟨buffer, hget, rfl⟩, hsecond⟩
    by_cases hrange : InRange buffer.data content.2.length address
    · obtain ⟨i, rfl⟩ := Nat.exists_eq_add_of_le hrange.1
      exact .inl (agree_write first second _ _ content.2 i (Nat.lt_of_add_lt_add_left hrange.2))
    rw [write_outside hrange, write_outside hrange]
    refine h.imp_right ?_
    rintro ⟨other, hmem, buffer', hget', hrange'⟩
    obtain rfl | hmem := List.mem_cons.mp hmem
    · obtain rfl := Except.ok.inj (hget.symm.trans hget')
      exact absurd hrange' hrange
    · exact ⟨other, hmem, buffer', hget', hrange'⟩

/-- A call of `finalize` that returns leaves a finalized set. -/
theorem finalized_of_finalize {set after : BufferSet} {data : Option ℕ} {room : ℕ}
    (h : set.finalize data room = (.ok (), after)) : after.finalized = true := by
  unfold BufferSet.finalize at h
  split_ifs at h with hfinal
  · obtain rfl : set = after := congrArg Prod.snd h
    exact hfinal
  cases htotal : totalBytes 0 set.pendingBuffers with
  | error message =>
    rw [htotal] at h
    cases h
  | ok total =>
    rw [htotal] at h
    cases data with
    | none => cases h
    | some base =>
      dsimp only at h
      split_ifs at h with hzero
      · cases h
      unfold BufferSet.placeAll at h
      split at h
      · cases h
      · exact congrArg (fun outcome => outcome.2.finalized) h.symm

/-- After any calls, once `finalize` returns, the buffers of different names lie apart in the arena,
at aligned offsets and where they are reported to be; an image that contents are packed into
arrives like the image with the contents copied after it, so that it agrees with the contents
copied separately wherever they reach. -/
theorem finalized_buffers_apart {labels : List Label} {set after : BufferSet} {data : Option ℕ}
    {room : ℕ} (hrun : Run.Steps step (fun _ _ => True) {} labels set)
    (hfinalize : set.finalize data room = (.ok (), after)) :
    ∃ base, after.arena = some ⟨base, after.arenaSize⟩ ∧
      (∀ name, (∃ offset, after.byteOffset name = .ok offset) ↔
        ∃ buffer, after.get name = .ok buffer) ∧
      (∀ name offset buffer, after.byteOffset name = .ok offset → after.get name = .ok buffer →
        buffer.data = base + offset ∧ kArenaAlignment ∣ offset ∧
          offset + buffer.size ≤ after.arenaSize) ∧
      (∀ name name' buffer buffer', name ≠ name' → after.get name = .ok buffer →
        after.get name' = .ok buffer' →
        buffer.data + buffer.size ≤ buffer'.data ∨ buffer'.data + buffer'.size ≤ buffer.data) ∧
      ∀ image contents packed memory, image.length = after.arenaSize →
        after.packAll image contents = .ok packed →
        ∃ copied, after.copyArenaToDevice packed memory = .ok copied ∧
          after.copyAll contents (write memory base image) = .ok copied ∧
          ∀ other, ∃ separate, after.copyAll contents other = .ok separate ∧
            ∀ address, after.Reached contents address → copied address = separate address := by
  have hinv : set.Inv := hrun.invariant (fun _ _ _ h _ hstep => h.step hstep)
    ⟨fun _ name h => h.elim (absurd rfl) (absurd rfl), by rintro ⟨⟩⟩
  have hfinal := finalized_of_finalize hfinalize
  have hafter : after.Inv := by
    have hset := hinv.finalize data room
    rw [hfinalize] at hset
    exact hset
  obtain ⟨base, hplaced⟩ := hafter.placed hfinal
  refine ⟨base, hplaced.arena, fun name => ?_, fun name offset buffer ho hb => ?_, ?_, ?_⟩
  · simp only [BufferSet.byteOffset_eq_ok, BufferSet.get_eq_ok, hfinal, true_and]
    rw [← Option.ne_none_iff_exists', ← Option.ne_none_iff_exists']
    exact not_congr (hplaced.unknown name)
  · exact hplaced.inside name offset buffer (BufferSet.byteOffset_eq_ok.mp ho).2
      (BufferSet.get_eq_ok.mp hb).2
  · intro name name' buffer buffer' hne hb hb'
    exact hplaced.apart name name' buffer buffer' hne (BufferSet.get_eq_ok.mp hb).2
      (BufferSet.get_eq_ok.mp hb').2
  · intro image contents packed memory hlength hpack
    obtain ⟨hsame, hcopy⟩ := hplaced.packAll memory hpack
    refine ⟨_, ?_, hcopy, fun other => ?_⟩
    · unfold BufferSet.copyArenaToDevice
      rw [hplaced.arena]
      exact if_neg (not_not.mpr (hsame.trans hlength))
    · obtain ⟨separate, hseparate, hagree⟩ := BufferSet.copyAll_agree hcopy other
      exact ⟨separate, hseparate, fun address h => hagree address (.inr h)⟩

/-- Two names, one of them twice, and a `finalize` that throws at the second of them. -/
def twoNames : List Label :=
  [.allocate "weights" 1 2 true, .allocate "bias" 1 1 true, .allocate "weights" 2 1 true,
    .finalize (some 4096) 3]

/-- What is packed into the arena of `twoNames`. -/
def twoContents : List (String × List UInt8) := [("weights", [1, 2]), ("bias", [3])]

/-- The image of the arena with the contents. -/
def twoPacked : List UInt8 := List.replicate 256 0 ++ [3] ++ List.replicate 255 0 ++ [1, 2]

theorem finalized_buffers_apart_twoNames : ∃ set after copied separate,
    Run.Steps step (fun _ _ => True) {} twoNames set ∧
    set.offsets "bias" = some 256 ∧ set.buffers "bias" = none ∧
    set.finalize (some 8192) 6 = (.ok (), after) ∧
    after.get "weights" = .ok ⟨8704, 2⟩ ∧ after.get "bias" = .ok ⟨8448, 1⟩ ∧
    (8704 + 2 ≤ 8448 ∨ 8448 + 1 ≤ 8704) ∧
    after.packAll (List.replicate 514 0) twoContents = .ok twoPacked ∧
    after.copyArenaToDevice twoPacked (fun _ => 7) = .ok copied ∧
    after.copyAll twoContents (fun _ => 7) = .ok separate ∧
    copied 8448 = separate 8448 ∧ copied 8705 = separate 8705 := by
  obtain ⟨set, after, hrun, hoffset, hbuffer, hfinalize, hweights, hbias, hsize, hpack⟩ :
      ∃ set after, Run.Steps step (fun _ _ => True) {} twoNames set ∧
        set.offsets "bias" = some 256 ∧ set.buffers "bias" = none ∧
        set.finalize (some 8192) 6 = (.ok (), after) ∧
        after.get "weights" = .ok ⟨8704, 2⟩ ∧ after.get "bias" = .ok ⟨8448, 1⟩ ∧
        after.arenaSize = 514 ∧
        after.packAll (List.replicate 514 0) twoContents = .ok twoPacked :=
    ⟨_, _, .of_exec rfl, rfl, rfl, rfl, rfl, rfl, rfl, by decide +kernel⟩
  obtain ⟨base, -, -, -, hapart, hpacked⟩ := finalized_buffers_apart hrun hfinalize
  obtain ⟨copied, hcopied, -, hseparate⟩ := hpacked _ _ _ (fun _ => 7)
    (List.length_replicate.trans hsize.symm) hpack
  obtain ⟨separate, hcopy, hagree⟩ := hseparate fun _ => 7
  refine ⟨set, after, copied, separate, hrun, hoffset, hbuffer, hfinalize, hweights, hbias,
    hapart _ _ _ _ (by decide) hweights hbias, hpack, hcopied, hcopy, hagree 8448 ?_,
    hagree 8705 ?_⟩
  · exact ⟨_, List.mem_cons_of_mem _ List.mem_cons_self, _, hbias, by decide⟩
  · exact ⟨_, List.mem_cons_self, _, hweights, by decide⟩

/-- Two bytes under one name, before the arena is made. -/
def twoBytes : BufferSet := (({} : BufferSet).allocate "weights" 1 2 true).2

theorem twoBytes_reached :
    Run.Steps step (fun _ _ => True) {} [.allocate "weights" 1 2 true] twoBytes :=
  .cons trivial rfl (.nil _)

/-- Contents shorter than their buffer: the arena copy puts the image's byte behind them, the
separate copy leaves what the device has there. -/
theorem packed_copy_overwrites_rest : ∃ labels set after copied separate,
    Run.Steps step (fun _ _ => True) {} labels set ∧
    set.finalize (some 4096) 2 = (.ok (), after) ∧
    after.get "weights" = .ok ⟨4096, 2⟩ ∧
    after.packAll [0, 0] [("weights", [1])] = .ok [1, 0] ∧
    after.copyArenaToDevice [1, 0] (fun _ => 7) = .ok copied ∧
    after.copyAll [("weights", [1])] (fun _ => 7) = .ok separate ∧
    copied 4097 = 0 ∧ separate 4097 = 7 :=
  ⟨_, _, _, _, _, twoBytes_reached, rfl, rfl, rfl, rfl, rfl, rfl, rfl⟩

end LightRocm.Triton
