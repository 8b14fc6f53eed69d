import FuseBackend.Lib.Store
import FuseBackend.Lib.Path
import FuseBackend.Transport.IoBuffers
import FuseBackend.Transport.Verify.ByteQueue
import FuseBackend.Api.Filesystem
import FuseBackend.Api.PseudoFs
import FuseBackend.Lib.Transition
import FuseBackend.Api.Verify.PseudoFsWalk
import FuseBackend.Api.Verify.PseudoFsPersist
import FuseBackend.Lib.RangeShift
import FuseBackend.Api.Vfs
import FuseBackend.Api.Verify.VfsMount
import FuseBackend.Lib.AList
import FuseBackend.Api.Verify.VfsAttr
import FuseBackend.Lib.ExceptState
import FuseBackend.Api.Abi
import FuseBackend.Api.Server
import FuseBackend.Api.Verify.ServerReply
import FuseBackend.Api.Verify.ServerAsync
import FuseBackend.Api.Verify.VfsIndex
import FuseBackend.Api.Verify.VfsIds
import FuseBackend.Api.Verify.PseudoFsMount
import FuseBackend.Transport.FuseDev
import FuseBackend.Transport.Verify.FuseDevWriter
import FuseBackend.Passthrough.InodeStore
import FuseBackend.Passthrough.Lookup
import FuseBackend.Passthrough.Verify.Lookup
import FuseBackend.Passthrough.Verify.StableInode
import FuseBackend.Passthrough.FileOps
import FuseBackend.Passthrough.Verify.SealSize
import FuseBackend.Lib.Utf8
import FuseBackend.Overlay.Layer
import FuseBackend.Overlay.OverlayFs
import FuseBackend.Overlay.Union
import FuseBackend.Overlay.Verify.InodeNumbers
import FuseBackend.Overlay.Run
import FuseBackend.Lib.ListSplit
import FuseBackend.Api.Verify.ServerCodec
import FuseBackend.Overlay.Verify.Readdir
import FuseBackend.Passthrough.Readdir
import FuseBackend.Passthrough.Verify.Readdir
import FuseBackend.Passthrough.Verify.UniqueInode
import FuseBackend.Api.Verify.PseudoFsReaddir
import FuseBackend.Passthrough.MountFd
import FuseBackend.Passthrough.Verify.MountFd
import FuseBackend.Lib.ByteMemory
import FuseBackend.Lib.CyclicSearch
import FuseBackend.Common.FileBuf
import FuseBackend.Common.Verify.FileBuf
import FuseBackend.Overlay.Create
import FuseBackend.Overlay.Verify.Confined
import FuseBackend.Overlay.Verify.LowerLayers
import FuseBackend.Overlay.Verify.Merge
import FuseBackend.Overlay.Verify.UnionView
