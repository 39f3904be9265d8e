import Ockernel.Types
import Ockernel.Paging.Frame
import Ockernel.Paging.PageDir
import Ockernel.Paging.Region
import Ockernel.Task.Queue
import Ockernel.Task.Cpu
import Ockernel.Mm.Manager
import Ockernel.Mm.Kernel
import Ockernel.Mm.CopyOnWrite
import Ockernel.Mm.Consistency
import Ockernel.Mm.Invariant
import Ockernel.Mm.Race
import Ockernel.Mm.MapMemory
import Ockernel.Task.Message
