import Vdsp.Channel
import Vdsp.Server.InFlight
import Vdsp.Server.Session
import Vdsp.Server.Lock
import Vdsp.Server.Failure
import Vdsp.Server.Generation
import Vdsp.Command.Refine
import Vdsp.Command.Neutral
import Vdsp.Descriptors
import Vdsp.Host.Completion
import Vdsp.Host.Destroy
import Vdsp.Host.Drain
import Vdsp.Host.Snapshot
import Vdsp.Host.Order
import Vdsp.Host.Finish
import Vdsp.Group.Refine
import Vdsp.Group.Concurrent
import Vdsp.Mapping
import Vdsp.Command.Nsid
import Vdsp.Command.Table
import Vdsp.Command.Library
import Vdsp.Ion.Balance
import Vdsp.Ion.Owners
import Vdsp.Server.Params
import Vdsp.Server.Checksum
import Vdsp.Server.Allocator
import Vdsp.Server.Refine
import Vdsp.Server.Compat
import Vdsp.Hdr.Nv21
import Vdsp.Depth.SaveImage
