import LightRocm.Aql.Packet
import LightRocm.Lib.Run
import LightRocm.Lib.SlotRing

/-!
# The ring behind a producer

The submission functions of `aql_producer.cpp`, one access at a time: the two
indices are loaded, the packets are reserved, each packet is written to its slot
behind an invalid header and published by its own header, and the doorbell is
rung. The consumer of the ring advances its index between any two accesses.
-/

namespace LightRocm.Aql.Ring

/-- `kAqlPacketTypeInvalid`. -/
def kAqlPacketTypeInvalid : ℕ := 1

variable {Sig : Type}

/-- A packet of either kind. -/
inductive AqlPacket (Sig : Type) where
  | barrierAnd (packet : AqlBarrierAndPacket Sig)
  | kernelDispatch (packet : AqlKernelDispatchPacket Sig)

/-- The header of a packet. -/
def AqlPacket.header : AqlPacket Sig → ℕ
  | .barrierAnd packet => packet.header
  | .kernelDispatch packet => packet.header

/-- A slot: its header, and the packet whose bytes after the header have been copied last. -/
structure Slot (Sig : Type) where
  header : ℕ := kAqlPacketTypeInvalid
  body : Option (AqlPacket Sig) := none

/-- A packet in its slot. -/
def AqlPacket.slot (packet : AqlPacket Sig) : Slot Sig := ⟨packet.header, some packet⟩

/-- A store to the doorbell, and the number of packets that have been published by then. -/
structure Doorbell where
  packetId : ℕ
  published : ℕ
  deriving DecidableEq

/-- What producer and consumer share. -/
structure Memory (Sig : Type) where
  /-- The ring. -/
  slots : ℕ → Slot Sig := fun _ => {}
  readIndex : ℕ := 0
  writeIndex : ℕ := 0
  /-- The stores to the doorbell. -/
  doorbells : List Doorbell := []

variable (queue : AqlQueueProducerOps Sig)

/-- `valid_queue`. -/
def validQueue : Bool :=
  queue.ring.isSome && isPowerOfTwo queue.packetCount

/-- `valid_aql_barrier_and_packet`; the reserved fields of a built packet are zero. -/
def validAqlBarrierAndPacket (packet : AqlBarrierAndPacket Sig) : Bool :=
  packet.header = kAqlBarrierAndHeader

/-- A submission. -/
inductive Request (Sig : Type) where
  /-- `submit_aql_kernel_dispatch`. -/
  | kernelDispatch (parameters : AqlKernelDispatchParameters Sig) (ordering : AqlDispatchOrdering)
      (capacityPrevalidated : Bool)
  /-- `submit_aql_barriers_and`. -/
  | barriersAnd (barriers : List (AqlBarrierAndParameters Sig))
  /-- `submit_aql_barriers_and_kernel_dispatch`. -/
  | barriersAndKernelDispatch (barriers : List (AqlBarrierAndParameters Sig))
      (parameters : AqlKernelDispatchParameters Sig) (ordering : AqlDispatchOrdering)

/-- The packets of a submission: the barriers, then the dispatch. -/
def Request.packets : Request Sig → List (AqlPacket Sig)
  | .kernelDispatch parameters ordering _ =>
    [.kernelDispatch (buildAqlKernelDispatchPacket parameters ordering)]
  | .barriersAnd barriers => barriers.map fun parameters =>
      .barrierAnd (buildAqlBarrierAndPacket parameters)
  | .barriersAndKernelDispatch barriers parameters ordering =>
    (barriers.map fun parameters => .barrierAnd (buildAqlBarrierAndPacket parameters)) ++
      [.kernelDispatch (buildAqlKernelDispatchPacket parameters ordering)]

/-- Number of packets of a submission. -/
def Request.count (request : Request Sig) : ℕ := request.packets.length

/-- The check of a dispatch. -/
def validDispatch (packet : AqlKernelDispatchPacket Sig) : Bool :=
  validAqlKernelDispatchPacket packet && queue.validatePacket packet

/-- The checks of a submission before it looks at the ring. -/
def Request.validate : Request Sig → AqlSubmitError
  | .kernelDispatch parameters ordering _ =>
    if !validQueue queue then .invalidQueue
    else if !validDispatch queue (buildAqlKernelDispatchPacket parameters ordering) then
      .invalidPacket
    else .none
  | .barriersAnd barriers =>
    if !validQueue queue then .invalidQueue
    else if barriers.isEmpty then .invalidPacket
    else if !barriers.all (fun parameters =>
        validAqlBarrierAndPacket (buildAqlBarrierAndPacket parameters)) then .invalidPacket
    else if queue.packetCount < barriers.length then .queueFull
    else .none
  | .barriersAndKernelDispatch barriers parameters ordering =>
    if !validQueue queue then .invalidQueue
    else if barriers.isEmpty || barriers.length = sizeMax then .invalidPacket
    else if !barriers.all (fun parameters =>
        validAqlBarrierAndPacket (buildAqlBarrierAndPacket parameters)) then .invalidPacket
    else if !validDispatch queue (buildAqlKernelDispatchPacket parameters ordering) then
      .invalidPacket
    else if queue.packetCount < barriers.length + 1 then .queueFull
    else .none

/-- The check of the free space with the two indices that have been loaded. -/
def Request.full (request : Request Sig) (packetCount readIndex writeIndex : ℕ) : Bool :=
  writeIndex < readIndex ||
    match request with
    | .kernelDispatch _ _ _ => packetCount ≤ writeIndex - readIndex
    | .barriersAnd _ | .barriersAndKernelDispatch _ _ _ =>
      packetCount - request.count < writeIndex - readIndex

/-- What the producer does next. A packet is written in three parts: the invalid header, the
bytes after the header, and the header. -/
inductive Pc (Sig : Type) where
  | idle
  /-- The caller of a prevalidated dispatch looks for a free slot. -/
  | ensureRead (queue : AqlQueueProducerOps Sig) (request : Request Sig)
  | ensureWrite (queue : AqlQueueProducerOps Sig) (request : Request Sig) (readIndex : ℕ)
  | loadRead (queue : AqlQueueProducerOps Sig) (request : Request Sig)
  | loadWrite (queue : AqlQueueProducerOps Sig) (request : Request Sig) (readIndex : ℕ)
  | reserve (queue : AqlQueueProducerOps Sig) (request : Request Sig)
  | invalidate (request : Request Sig) (first packetId : ℕ) (packet : AqlPacket Sig)
      (rest : List (AqlPacket Sig))
  | copy (request : Request Sig) (first packetId : ℕ) (packet : AqlPacket Sig)
      (rest : List (AqlPacket Sig))
  | publish (request : Request Sig) (first packetId : ℕ) (packet : AqlPacket Sig)
      (rest : List (AqlPacket Sig))
  | ringDoorbell (request : Request Sig) (first : ℕ)
  /-- The submission has returned. -/
  | returned (request : Request Sig) (error : AqlSubmitError) (packetId : ℕ)
  /-- The caller of a prevalidated dispatch has found no free slot and submits nothing. -/
  | abandoned

/-- The ring, its producer and the history of the ring. -/
structure Sys (Sig : Type) where
  /-- The number of slots. -/
  packetCount : ℕ
  memory : Memory Sig
  pc : Pc Sig
  /-- The packets that have been published, in the order of their ids. -/
  log : List (AqlPacket Sig)
  /-- The memory when the current submission began. -/
  start : Memory Sig

/-- The submission is checked; then it looks at the ring, unless its caller has done so. -/
def begin (request : Request Sig) (prevalidated : Bool) : Pc Sig :=
  match request.validate queue with
  | .none => if prevalidated then .reserve queue request else .loadRead queue request
  | error => .returned request error 0

/-- The first access of a submission. The caller of a prevalidated dispatch looks for a free
slot before it submits. -/
def Request.enter (request : Request Sig) : Pc Sig :=
  match request with
  | .kernelDispatch _ _ true => .ensureRead queue request
  | _ => begin queue request false

/-- A slot of the ring gets new contents. -/
def Sys.write (s : Sys Sig) (packetId : ℕ) (f : Slot Sig → Slot Sig) : Memory Sig :=
  let slot := SlotRing.slot s.packetCount packetId
  { s.memory with slots := Function.update s.memory.slots slot (f (s.memory.slots slot)) }

/-- The next access of the producer. Where the source may give up or try again, `again` decides. -/
def produce (again : Bool) (s : Sys Sig) : Option (Sys Sig) :=
  match s.pc with
  | .idle => none
  | .ensureRead queue request =>
    -- `ensure_direct_kfd_queue_capacity_locked` can fail before it looks at the ring.
    if again && 1 ≤ queue.packetCount then
      some { s with pc := .ensureWrite queue request s.memory.readIndex }
    else some { s with pc := .abandoned }
  | .ensureWrite queue request readIndex =>
    if s.memory.writeIndex < readIndex then some { s with pc := .abandoned }
    else if s.memory.writeIndex - readIndex ≤ queue.packetCount - 1 then
      some { s with pc := begin queue request true }
    else some { s with pc := if again then .ensureRead queue request else .abandoned }
  | .loadRead queue request =>
    some { s with pc := .loadWrite queue request s.memory.readIndex }
  | .loadWrite queue request readIndex =>
    if request.full queue.packetCount readIndex s.memory.writeIndex then
      some { s with pc := .returned request .queueFull 0 }
    else some { s with pc := .reserve queue request }
  | .reserve queue request =>
    match request.packets with
    | [] => none
    | packet :: rest =>
      if queue.reservable then
        some { s with
          memory := { s.memory with writeIndex := s.memory.writeIndex + request.count }
          pc := .invalidate request s.memory.writeIndex s.memory.writeIndex packet rest }
      else some { s with pc := .returned request .reserveFailed 0 }
  | .invalidate request first packetId packet rest =>
    some { s with
      memory := s.write packetId fun slot => { slot with header := kAqlPacketTypeInvalid }
      pc := .copy request first packetId packet rest }
  | .copy request first packetId packet rest =>
    some { s with
      memory := s.write packetId fun slot => { slot with body := some packet }
      pc := .publish request first packetId packet rest }
  | .publish request first packetId packet rest =>
    some { s with
      memory := s.write packetId fun slot => { slot with header := packet.header }
      pc := match rest with
        | [] => .ringDoorbell request first
        | next :: rest => .invalidate request first (packetId + 1) next rest
      log := s.log ++ [packet] }
  | .ringDoorbell request first =>
    some { s with
      memory := { s.memory with
        doorbells := s.memory.doorbells ++ [⟨first + request.count - 1, s.log.length⟩] }
      pc := .returned request .none (first + request.count - 1) }
  | .returned _ _ _ | .abandoned => some { s with pc := .idle }

/-- What happens next. -/
inductive Label (Sig : Type) where
  /-- The consumer advances its read index. -/
  | consume (readIndex : ℕ)
  /-- The producer begins a submission. -/
  | submit (queue : AqlQueueProducerOps Sig) (request : Request Sig)
  /-- The producer makes its next access. -/
  | produce (again : Bool)

/-- One step: the consumer moves up to published packets only, and the producer is serialized. -/
def step (label : Label Sig) (s : Sys Sig) : Option (Sys Sig) :=
  match label with
  | .consume readIndex =>
    if s.memory.readIndex ≤ readIndex ∧ readIndex ≤ s.log.length then
      some { s with memory := { s.memory with readIndex := readIndex } }
    else none
  | .submit queue request =>
    match s.pc with
    | .idle =>
      if queue.packetCount = s.packetCount then
        some { s with pc := request.enter queue, start := s.memory }
      else none
    | _ => none
  | .produce again => produce again s

/-- An empty ring. -/
def init (packetCount : ℕ) : Sys Sig where
  packetCount := packetCount
  memory := {}
  pc := .idle
  log := []
  start := {}

end LightRocm.Aql.Ring
