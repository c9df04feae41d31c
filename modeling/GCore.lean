import GCore.Errno
import GCore.Fs.BlockCache
import GCore.Fs.DirectoryTree
import GCore.Fs.Ext4.Bitmap
import GCore.Fs.Ext4.BlockAccounts
import GCore.Fs.Ext4.BlockAlloc
import GCore.Fs.Ext4.Descriptor
import GCore.Fs.Ext4.Extent
import GCore.Fs.Ext4.ExtentInsert
import GCore.Fs.Ext4.ExtentMap
import GCore.Fs.Ext4.InodeAlloc
import GCore.Fs.Ext4.Links
import GCore.Fs.Ext4.Volume
import GCore.Fs.Fat
import GCore.Fs.FatContents
import GCore.Fs.FatDirEnt
import GCore.Fs.FatDrop
import GCore.Fs.FatInode
import GCore.Fs.FatResize
import GCore.Fs.FatVolume
import GCore.Fs.FdTable
import GCore.Fs.PageCache
import GCore.Fs.PageCacheRuns
import GCore.Fs.Pipe
import GCore.Fs.Poll
import GCore.Fs.Sendfile
import GCore.Library.Bisect
import GCore.Library.BitField
import GCore.Library.Bytes
import GCore.Library.Chain
import GCore.Library.Circular
import GCore.Library.Forest
import GCore.Library.Ownership
import GCore.Library.Paged
import GCore.Library.Run
import GCore.Library.Scatter
import GCore.Library.Sharing
import GCore.Library.WriteBack
import GCore.Mm.Bookkeeping
import GCore.Mm.Fault
import GCore.Mm.Fork
import GCore.Mm.FrameAllocator
import GCore.Mm.Isolation
import GCore.Mm.LinearMap
import GCore.Mm.MapArea
import GCore.Mm.MemorySet
import GCore.Mm.Mmap
import GCore.Mm.Mprotect
import GCore.Mm.Munmap
import GCore.Mm.MunmapExact
import GCore.Mm.PageTable
import GCore.Mm.ProgramArea
import GCore.Mm.Protection
import GCore.Mm.Reclaim
import GCore.Mm.Residence
import GCore.Mm.SegmentImage
import GCore.Mm.Slices
import GCore.Mm.SteadyPages
import GCore.Mm.StoreFault
import GCore.Mm.StoreRuns
import GCore.Mm.Stores
import GCore.Mm.Transparency
import GCore.Mm.UserCopy
import GCore.Mm.UserPointers
import GCore.Mm.UserSpace
import GCore.Mm.World
import GCore.Net.SocketIo
import GCore.Net.SocketTable
import GCore.Task.Aging
import GCore.Task.Delivery
import GCore.Task.ElfFile
import GCore.Task.ElfRequirement
import GCore.Task.Family
import GCore.Task.Futex
import GCore.Task.FutexKey
import GCore.Task.Kernel
import GCore.Task.Lifecycle
import GCore.Task.LoadElf
import GCore.Task.MapElf
import GCore.Task.Scheduler
import GCore.Task.SignalFrame
import GCore.Task.SignalMask
import GCore.Task.Signals
import GCore.Task.Sleep
import GCore.Task.UserMemory
import GCore.Task.Wakeups
