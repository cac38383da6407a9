import LightRocm.Copy.MemcpySemantics
import LightRocm.Hsa.LifetimePins
import LightRocm.Runtime.Lifecycle
import LightRocm.Runtime.EventTime
import LightRocm.Bundle.LaunchConfig
import LightRocm.Bundle.Kernarg
import LightRocm.Loader.MessagePackSoundness
import LightRocm.Memory.Statistics
import LightRocm.Transport.CwsrLayout
import LightRocm.Transport.UserSignal
import LightRocm.Transport.CodeCache
import LightRocm.Hsakmt.ScratchSafety
import LightRocm.Iree.BufferMapping
import LightRocm.Iree.DispatchSizes
import LightRocm.Qwen.RoundTrip
import LightRocm.Runtime.DoubleBuffer
import LightRocm.Runtime.Reaping
import LightRocm.Transport.Reservation
import LightRocm.Transport.Topology
import LightRocm.Triton.BufferSet
import LightRocm.Graph.EndToEnd
import LightRocm.Iree.Timelines
import LightRocm.Runtime.ArgumentsSeen
import LightRocm.Arch.QueueScratch
