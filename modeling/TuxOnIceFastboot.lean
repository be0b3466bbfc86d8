import TuxOnIceFastboot.Base
import TuxOnIceFastboot.Lib.MachineInt
import TuxOnIceFastboot.Extent.Chain
import TuxOnIceFastboot.Extent.Iterate
import TuxOnIceFastboot.BlockIO.State
import TuxOnIceFastboot.BlockIO.Tape
import TuxOnIceFastboot.BlockIO.Stream
import TuxOnIceFastboot.BlockIO.Layout
import TuxOnIceFastboot.Alloc.Storage
import TuxOnIceFastboot.Alloc.Swap
import TuxOnIceFastboot.BlockIO.Buffer
import TuxOnIceFastboot.Pipeline.Compress
import TuxOnIceFastboot.Async.State
import TuxOnIceFastboot.Async.Cookies
import TuxOnIceFastboot.Io.Worker
import TuxOnIceFastboot.Atomic.Copy
import TuxOnIceFastboot.Lib.Threads
import TuxOnIceFastboot.Io.WriteLoop
import TuxOnIceFastboot.Io.ReadLoop
import TuxOnIceFastboot.Image.Flags
import TuxOnIceFastboot.Image.Prepare
import TuxOnIceFastboot.Image.Ready
import TuxOnIceFastboot.Header.Reserve
import TuxOnIceFastboot.Restore.Lookup
import TuxOnIceFastboot.Extent.Serialise
import TuxOnIceFastboot.Header.Configs
import TuxOnIceFastboot.Io.Checksum
import TuxOnIceFastboot.Snapshot.Blocks
import TuxOnIceFastboot.Restore.LoadAddresses
import TuxOnIceFastboot.Restore.PbeList
import TuxOnIceFastboot.Netlink.Helper
import TuxOnIceFastboot.Sysfs.Store
import TuxOnIceFastboot.Extent.Invariant
import TuxOnIceFastboot.Lib.BitPage
import TuxOnIceFastboot.Snapshot.BlockBitmap
import TuxOnIceFastboot.Snapshot.Refine
import TuxOnIceFastboot.Alloc.Signature
import TuxOnIceFastboot.Header.Write
import TuxOnIceFastboot.Alloc.FileSignature
import TuxOnIceFastboot.Cluster.Node
import TuxOnIceFastboot.Cluster.Membership
import TuxOnIceFastboot.Snapshot.MetaPages
import TuxOnIceFastboot.Highlevel.Anything
import TuxOnIceFastboot.Highlevel.Interleavings
import TuxOnIceFastboot.Highlevel.Launch
