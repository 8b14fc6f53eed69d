import FuseBackend.Api.Abi
import FuseBackend.Transport.IoBuffers

/-!
# The FUSE server

`src/api/server`: `Server::handle_message` reads a request header, remaps the caller's ids,
refuses a request too large for the buffers, and dispatches on the opcode to one handler per
request; `Server::async_handle_message` does the same for an `AsyncFileSystem`, with its own
preamble and its own handlers for ten requests. A handler decodes its arguments from the
request, calls the file system once, and writes the reply.

The transport is seen as the server sees it. The `Reader` is the request bytes not read yet (the
byte-queue view of the `Reader` over `IoBuffers`). The `Writer` is the free space left and the
slices written, in buffer order; a write that does not fit writes nothing and fails, as
`check_available_space` makes every write of `VirtioFsWriter` do. `split_at` leaves the front of
the buffer to the header and hands the rest to a second writer, and `commit` with that writer makes
its bytes part of the reply.

The file system is given by the calls it answers. A `Request` carries the arguments the server
decodes for one `FileSystem` or `AsyncFileSystem` method, and its `Response` is that method's
result; the file system threads its own state through the calls. Two methods take a callback from
the server: `readdir` and `readdirplus` are handed `add_dirent` over the reply cursor, and give
back the cursor. `read` returns the bytes it writes through the zero-copy writer, which the server
then writes; `write` is handed the rest of the request, which it reads through the zero-copy
reader.

Logging, the metrics hook and the `vers` atomics are left out: the version is part of the state.
-/

namespace FuseBackend.Api

/-- `MAX_BUFFER_SIZE` on Linux. -/
def maxBufferSize : Nat := 2 ^ 20
def bufferHeaderSize : Nat := 0x1000
def minReadBuffer : Nat := 8192
def maxReqPages : Nat := 256
/-- The page size of the host, `pagesize()`. -/
def pagesize : Nat := 4096

/-- The crate's `Error`, with the variants the server returns. -/
inductive Error where
  | decodeMessage (e : IoError)
  | encodeMessage (e : IoError)
  | missingParameter
  | invalidCString
  | invalidHeaderLength
  | invalidXattrSize (size len : Nat)
  | invalidMessage (e : IoError)
  | failedToRemapId (uid gid : UInt32)
  deriving DecidableEq, Repr

/-- `encode_io_error_kind`. -/
def encodeIoErrorKind : ErrorKind → Nat
  | .permissionDenied => eperm ||| eacces
  | .notFound => enoent
  | .interrupted => eintr
  | .alreadyExists => eexist
  | .wouldBlock => ewouldblock
  | _ => eio

/-- The errno a reply carries for `err`: its OS error, or the one its kind encodes to. -/
def IoError.errno : IoError → Nat
  | .os errno => errno
  | .custom kind _ => encodeIoErrorKind kind

/-- The error of `read_exact` on a reader that runs out. -/
def failedToFillWholeBuffer : IoError := .custom .unexpectedEof "failed to fill whole buffer"

/-- `usize::checked_sub`. -/
def checkedSub (a b : Nat) : Option Nat := if b ≤ a then some (a - b) else none

/-- `usize::checked_mul`. -/
def checkedMul (a b : Nat) : Option Nat := if a * b ≤ Transport.usizeMax then some (a * b) else none

/-! ## The reply writer -/

structure Writer where
  /-- The bytes still free. -/
  avail : Nat
  /-- What has been written, in buffer order. -/
  written : List Slice
  deriving DecidableEq, Repr

namespace Writer

def availableBytes (w : Writer) : Nat := w.avail

def bytesWritten (w : Writer) : Nat := sizes w.written

/-- The `InvalidData` error of `check_available_space`. -/
def dataOutOfRange (available requested : Nat) : IoError :=
  .custom .invalidData
    ("data out of range, available " ++ toString available ++ " requested " ++ toString requested)

/-- `write_vectored`, and `write_all` of one buffer: all of `ss` if it fits, else nothing. -/
def write (w : Writer) (ss : List Slice) : Except IoError Writer :=
  if sizes ss > w.avail then .error (dataOutOfRange w.avail (sizes ss))
  else .ok ⟨w.avail - sizes ss, w.written ++ ss⟩

/-- `split_at(offset)`: this writer keeps the next `offset` bytes, the returned one the rest;
`none` when `offset` is past the free space. -/
def splitAt (w : Writer) (offset : Nat) : Option (Writer × Writer) :=
  if w.avail < offset then none else some (⟨offset, w.written⟩, ⟨w.avail - offset, []⟩)

/-- `commit(other)`: the reply is this writer's bytes followed by those of `other`. -/
def commit (w : Writer) (other : Option Writer) : Writer :=
  match other with
  | some o => ⟨w.avail, w.written ++ o.written⟩
  | none => w

/-- `write_all` of each slice in turn; what was written before a failure stays. -/
def writeEach (w : Writer) : List Slice → Except IoError Unit × Writer
  | [] => (.ok (), w)
  | s :: ss =>
    match w.write [s] with
    | .ok w => writeEach w ss
    | .error e => (.error e, w)

end Writer

/-- `add_dirent`: one directory entry, after its `EntryOut` for `readdirplus` and padded to a
multiple of 8 bytes, if it fits in what is left of the `max` bytes of the reply; 0 when it does
not. -/
def addDirent (cursor : Writer) (max : Nat) (d : DirEntry) (entry : Option Entry) :
    Except IoError Nat × Writer :=
  let name := d.name.toUTF8.toList
  let direntLen := direntSize + name.length
  let paddedDirentLen := (direntLen + 7) / 8 * 8
  let totalLen := if entry.isSome then paddedDirentLen + 128 else paddedDirentLen
  if max - cursor.bytesWritten < totalLen then (.ok 0, cursor)
  else
    let padding := paddedDirentLen - direntLen
    let slices := (entry.map fun e => Slice.entryOut (.ofEntry e)).toList ++
      [.dirent ⟨d.ino, d.offset, name.length, d.type_⟩, .bytes name] ++
      (if padding > 0 then [.bytes (List.replicate padding 0)] else [])
    match cursor.writeEach slices with
    | (.ok (), cursor) => (.ok totalLen, cursor)
    | (.error e, cursor) => (.error e, cursor)

/-! ## Calls into the file system -/

inductive GetxattrReply where
  | value (v : List UInt8)
  | count (n : Nat)
  deriving DecidableEq, Repr

inductive ListxattrReply where
  | names (v : List UInt8)
  | count (n : Nat)
  deriving DecidableEq, Repr

/-- A call of a `FileSystem` or `AsyncFileSystem` method, with the arguments the server passes.
A name is the bytes of its `CStr`, without the NUL. -/
inductive Request where
  | init (capable : Nat)
  | destroy
  | lookup (ctx : Context) (parent : Nat) (name : List UInt8)
  | forget (ctx : Context) (inode count : Nat)
  | batchForget (ctx : Context) (requests : List (Nat × Nat))
  | getattr (ctx : Context) (inode : Nat) (handle : Option Nat)
  | setattr (ctx : Context) (inode : Nat) (attr : Stat64) (handle : Option Nat) (valid : Nat)
  | readlink (ctx : Context) (inode : Nat)
  | symlink (ctx : Context) (linkname : List UInt8) (parent : Nat) (name : List UInt8)
  | mknod (ctx : Context) (inode : Nat) (name : List UInt8) (mode rdev umask : Nat)
  | mkdir (ctx : Context) (parent : Nat) (name : List UInt8) (mode umask : Nat)
  | unlink (ctx : Context) (parent : Nat) (name : List UInt8)
  | rmdir (ctx : Context) (parent : Nat) (name : List UInt8)
  | rename (ctx : Context) (olddir : Nat) (oldname : List UInt8) (newdir : Nat)
      (newname : List UInt8) (flags : Nat)
  | link (ctx : Context) (inode newparent : Nat) (newname : List UInt8)
  | open_ (ctx : Context) (inode flags fuseFlags : Nat)
  | create (ctx : Context) (parent : Nat) (name : List UInt8) (args : CreateIn)
  | read (ctx : Context) (inode handle size offset : Nat) (lockOwner : Option Nat) (flags : Nat)
  | write (ctx : Context) (inode handle : Nat) (data : List UInt8) (size offset : Nat)
      (lockOwner : Option Nat) (delayedWrite : Bool) (flags fuseFlags : Nat)
  | flush (ctx : Context) (inode handle lockOwner : Nat)
  | fsync (ctx : Context) (inode : Nat) (datasync : Bool) (handle : Nat)
  | fallocate (ctx : Context) (inode handle mode offset length : Nat)
  | release (ctx : Context) (inode flags handle : Nat) (flush flockRelease : Bool)
      (lockOwner : Option Nat)
  | statfs (ctx : Context) (inode : Nat)
  | setxattr (ctx : Context) (inode : Nat) (name value : List UInt8) (flags : Nat)
  | getxattr (ctx : Context) (inode : Nat) (name : List UInt8) (size : Nat)
  | listxattr (ctx : Context) (inode size : Nat)
  | removexattr (ctx : Context) (inode : Nat) (name : List UInt8)
  | opendir (ctx : Context) (inode flags : Nat)
  | readdir (ctx : Context) (inode handle size offset : Nat)
      (addEntry : Writer → DirEntry → Except IoError Nat × Writer) (cursor : Writer)
  | readdirplus (ctx : Context) (inode handle size offset : Nat)
      (addEntry : Writer → DirEntry → Entry → Except IoError Nat × Writer) (cursor : Writer)
  | fsyncdir (ctx : Context) (inode : Nat) (datasync : Bool) (handle : Nat)
  | releasedir (ctx : Context) (inode flags handle : Nat)
  | setupmapping (ctx : Context) (inode handle foffset len flags moffset : Nat)
  | removemapping (ctx : Context) (inode : Nat) (requests : List (Nat × Nat))
  | access (ctx : Context) (inode mask : Nat)
  | lseek (ctx : Context) (inode handle offset whence : Nat)
  | getlk (ctx : Context) (inode handle owner : Nat) (lock : FileLock) (flags : Nat)
  | setlk (ctx : Context) (inode handle owner : Nat) (lock : FileLock) (flags : Nat)
  | ioctl (ctx : Context) (inode handle flags cmd : Nat) (data : Option (List UInt8))
      (outSize : Nat)
  | bmap (ctx : Context) (inode block blocksize : Nat)
  | poll (ctx : Context) (inode handle khandle flags events : Nat)
  | notifyReply
  | asyncLookup (ctx : Context) (parent : Nat) (name : List UInt8)
  | asyncGetattr (ctx : Context) (inode : Nat) (handle : Option Nat)
  | asyncSetattr (ctx : Context) (inode : Nat) (attr : Stat64) (handle : Option Nat) (valid : Nat)
  | asyncOpen (ctx : Context) (inode flags fuseFlags : Nat)
  | asyncCreate (ctx : Context) (parent : Nat) (name : List UInt8) (args : CreateIn)
  | asyncRead (ctx : Context) (inode handle size offset : Nat) (lockOwner : Option Nat)
      (flags : Nat)
  | asyncWrite (ctx : Context) (inode handle : Nat) (data : List UInt8) (size offset : Nat)
      (lockOwner : Option Nat) (delayedWrite : Bool) (flags fuseFlags : Nat)
  | asyncFsync (ctx : Context) (inode : Nat) (datasync : Bool) (handle : Nat)
  | asyncFsyncdir (ctx : Context) (inode : Nat) (datasync : Bool) (handle : Nat)
  | asyncFallocate (ctx : Context) (inode handle mode offset length : Nat)

/-- What each method returns. `open` answers the handle, the `OpenOptions` bits and the
passthrough id; `read` the bytes it writes; `readdir` its result and the cursor. -/
def Request.Response : Request → Type
  | .init _ => Except IoError Nat
  | .destroy | .forget .. | .batchForget .. => Unit
  | .lookup .. | .symlink .. | .mknod .. | .mkdir .. | .link .. | .asyncLookup .. =>
    Except IoError Entry
  | .getattr .. | .setattr .. | .asyncGetattr .. | .asyncSetattr .. =>
    Except IoError (Stat64 × Duration)
  | .readlink .. => Except IoError (List UInt8)
  | .unlink .. | .rmdir .. | .rename .. | .flush .. | .fsync .. | .fallocate .. | .release ..
  | .setxattr .. | .removexattr .. | .fsyncdir .. | .releasedir .. | .setupmapping ..
  | .removemapping .. | .access .. | .setlk .. | .notifyReply | .asyncFsync ..
  | .asyncFsyncdir .. | .asyncFallocate .. => Except IoError Unit
  | .open_ .. => Except IoError (Option Nat × Nat × Option Nat)
  | .asyncOpen .. | .opendir .. => Except IoError (Option Nat × Nat)
  | .create .. => Except IoError (Entry × Option Nat × Nat × Option Nat)
  | .asyncCreate .. => Except IoError (Entry × Option Nat × Nat)
  | .read .. | .asyncRead .. => Except IoError (List UInt8)
  | .write .. | .asyncWrite .. | .lseek .. | .bmap .. | .poll .. => Except IoError Nat
  | .statfs .. => Except IoError Statvfs
  | .getxattr .. => Except IoError GetxattrReply
  | .listxattr .. => Except IoError ListxattrReply
  | .readdir .. | .readdirplus .. => Except IoError Unit × Writer
  | .getlk .. => Except IoError FileLock
  | .ioctl .. => Except IoError (Int × Option (List UInt8))

/-- A file system the server drives, with state `σ`: its answer to every call, and `id_remap`. -/
class FileSystem (σ : Type) where
  call : (q : Request) → σ → q.Response × σ
  idRemap : σ → Context → Except IoError Context

/-- The answers of the trait's default methods: `ENOSYS` for most, `ENOTTY` for `ioctl`, and a
success with nothing in it for `init`, `open`, `opendir` and `statfs` (whose `statvfs64` is the
one libfuse answers). An async method answers as its sync twin. -/
def Request.defaultResponse : (q : Request) → q.Response
  | .init _ => .ok 0
  | .destroy | .forget .. | .batchForget .. => ()
  | .open_ .. => .ok (none, 0, none)
  | .asyncOpen .. | .opendir .. => .ok (none, 0)
  | .statfs .. => .ok ⟨0, 0, 0, 0, 0, 512, 255, 0⟩
  | .ioctl .. => .error (.os enotty)
  | .readdir _ _ _ _ _ _ cursor | .readdirplus _ _ _ _ _ _ cursor => (.error (.os enosys), cursor)
  | .lookup .. | .symlink .. | .mknod .. | .mkdir .. | .link .. | .asyncLookup .. =>
    .error (.os enosys)
  | .getattr .. | .setattr .. | .asyncGetattr .. | .asyncSetattr .. => .error (.os enosys)
  | .readlink .. | .read .. | .asyncRead .. => .error (.os enosys)
  | .unlink .. | .rmdir .. | .rename .. | .flush .. | .fsync .. | .fallocate .. | .release ..
  | .setxattr .. | .removexattr .. | .fsyncdir .. | .releasedir .. | .setupmapping ..
  | .removemapping .. | .access .. | .setlk .. | .notifyReply | .asyncFsync ..
  | .asyncFsyncdir .. | .asyncFallocate .. => .error (.os enosys)
  | .create .. | .asyncCreate .. => .error (.os enosys)
  | .write .. | .asyncWrite .. | .lseek .. | .bmap .. | .poll .. => .error (.os enosys)
  | .getxattr .. | .listxattr .. | .getlk .. => .error (.os enosys)

/-- A file system that keeps every default method of the trait. -/
structure DefaultFs where
  deriving DecidableEq, Repr

instance : FileSystem DefaultFs where
  call q fs := (q.defaultResponse, fs)
  idRemap _ ctx := .ok ctx

/-! ## The server's state -/

structure ServerVersion where
  major : Nat
  minor : Nat
  deriving DecidableEq, Repr

/-- What a request is handled in: the file system's state, the protocol version the kernel
announced, and the request's reader and writer. -/
structure Srv (σ : Type) where
  fs : σ
  vers : ServerVersion
  r : List UInt8
  w : Writer

/-- The part of `SrvContext` a handler never changes: the header and the caller's credentials. -/
structure SrvContext where
  inHeader : InHeader
  context : Context

namespace SrvContext

def new (inHeader : InHeader) : SrvContext := ⟨inHeader, .ofInHeader inHeader⟩

def unique (ctx : SrvContext) : Nat := ctx.inHeader.unique

def nodeid (ctx : SrvContext) : Nat := ctx.inHeader.nodeid

end SrvContext

/-- A step of a handler: it may fail, and the state it reached stays. -/
abbrev SrvM (σ α : Type) := ExceptT Error (StateM (Srv σ)) α

namespace Server

variable {σ : Type} [FileSystem σ]

/-! ## Reading the request -/

/-- `ctx.r.read_obj()` of a struct of `size` bytes, as its bytes; `read_exact` takes what there
is before it fails. -/
def readObj (size : Nat) : SrvM σ (List UInt8) := do
  let s ← get
  if size ≤ s.r.length then
    set { s with r := s.r.drop size }
    pure (s.r.take size)
  else
    set { s with r := [] }
    throw (.decodeMessage failedToFillWholeBuffer)

/-- `ctx.r.read(&mut buf)`: up to `size` bytes. -/
def readSome (size : Nat) : SrvM σ (List UInt8) := do
  let s ← get
  set { s with r := s.r.drop size }
  pure (s.r.take size)

/-- `ServerUtil::get_message_body`: the rest of the request after the header and a sub-header of
`subHdrSz` bytes, as long as the header's `len` says. -/
def getMessageBody (ctx : SrvContext) (subHdrSz : Nat) : SrvM σ (List UInt8) :=
  match (checkedSub ctx.inHeader.len inHeaderSize).bind (checkedSub · subHdrSz) with
  | none => throw .invalidHeaderLength
  | some len => readObj len

/-- `bytes_to_cstr`: the bytes before the first NUL. -/
def bytesToCstr (buf : List UInt8) : Except Error (List UInt8) :=
  match buf.findIdx? (· == 0) with
  | some pos => .ok (buf.take pos)
  | none => .error .invalidCString

/-- `ServerUtil::extract_two_cstrs`: two names, each ending in a NUL. -/
def extractTwoCstrs (buf : List UInt8) : Except Error (List UInt8 × List UInt8) :=
  match buf.findIdx? (· == 0) with
  | some pos =>
    if pos + 1 < buf.length then
      (bytesToCstr (buf.drop (pos + 1))).map fun second => (buf.take pos, second)
    else .error (.decodeMessage (.os einval))
  | none => .error (.decodeMessage (.os einval))

def ofExcept {α : Type} : Except Error α → SrvM σ α
  | .ok a => pure a
  | .error e => throw e

/-- Runs `m` and drops its result and its error, as `let _ = m` does. -/
def ignoreResult {α : Type} (m : SrvM σ α) : SrvM σ Unit :=
  tryCatch (do let _ ← m; pure ()) fun _ => pure ()

/-- Calls the file system. -/
def callFs (q : Request) : SrvM σ q.Response := do
  let s ← get
  let (res, fs) := FileSystem.call q s.fs
  set { s with fs }
  pure res

/-! ## Writing the reply -/

/-- Writes `ss` into the reply. -/
def writeAll (ss : List Slice) : SrvM σ Unit := do
  let s ← get
  match s.w.write ss with
  | .ok w => set { s with w }
  | .error e => throw (.encodeMessage e)

def commit (other : Option Writer) : SrvM σ Unit :=
  modify fun s => { s with w := s.w.commit other }

def bytesWritten : SrvM σ Nat := do
  return (← get).w.bytesWritten

/-- `SrvContext::reply_ok`: the header and the non-empty ones of `out` and `data`. -/
def replyOk (ctx : SrvContext) (out data : Option Slice) : SrvM σ Nat := do
  let data2 := (out.map Slice.size).getD 0
  let data3 := (data.map Slice.size).getD 0
  let header := Slice.outHeader ⟨outHeaderSize + data2 + data3, 0, ctx.unique⟩
  match data2, data3 with
  | 0, 0 => writeAll [header]
  | 0, _ => writeAll (header :: data.toList)
  | _, 0 => writeAll (header :: out.toList)
  | _, _ => writeAll (header :: out.toList ++ data.toList)
  bytesWritten

/-- `SrvContext::do_reply_error`: a header with the negated errno; `explicit` only picks the log
level. -/
def doReplyError (ctx : SrvContext) (err : IoError) (_explicit : Bool) : SrvM σ Nat := do
  writeAll [.outHeader ⟨outHeaderSize, -(err.errno : Int), ctx.unique⟩]
  -- commit the header if it is buffered, otherwise the kernel gets nothing back
  commit none
  bytesWritten

def replyError (ctx : SrvContext) (err : IoError) : SrvM σ Nat := doReplyError ctx err false

def replyErrorExplicit (ctx : SrvContext) (err : IoError) : SrvM σ Nat :=
  doReplyError ctx err true

def handleAttrResult (ctx : SrvContext) (result : Except IoError (Stat64 × Duration)) :
    SrvM σ Nat :=
  match result with
  | .ok (st, timeout) => replyOk ctx (some (.attrOut ⟨timeout.secs, timeout.nanos, ⟨st, 0⟩⟩)) none
  | .error e => replyError ctx e

/-- The reply of the handlers whose call answers an `Entry`. -/
def replyEntry (ctx : SrvContext) (result : Except IoError Entry) : SrvM σ Nat :=
  match result with
  | .ok entry => replyOk ctx (some (.entryOut (.ofEntry entry))) none
  | .error e => replyError ctx e

/-- The reply of the handlers whose call answers `()`. -/
def replyUnit (ctx : SrvContext) (result : Except IoError Unit) : SrvM σ Nat :=
  match result with
  | .ok () => replyOk ctx none none
  | .error e => replyError ctx e

/-- `bytes_to_cstr(buf)`, replying `EINVAL` before passing its error on. -/
def cstrOrReplyEinval (ctx : SrvContext) (buf : List UInt8) (explicit : Bool) :
    SrvM σ (List UInt8) :=
  match bytesToCstr buf with
  | .ok name => pure name
  | .error e => do
    ignoreResult (doReplyError ctx (.os einval) explicit)
    throw e

/-! ## Handlers

`lookup`, `getattr`, `setattr`, `read`, `fsync`, `fsyncdir` and `fallocate` have async twins that
differ only in the method they call (and in a log level); each pair is one definition taking the
call. -/

def lookupWith (ctx : SrvContext) (explicit : Bool)
    (call : Context → Nat → List UInt8 → SrvM σ (Except IoError Entry)) : SrvM σ Nat := do
  let buf ← getMessageBody ctx 0
  let name ← cstrOrReplyEinval ctx buf explicit
  let version := (← get).vers
  match ← call ctx.context ctx.nodeid name with
  | .ok entry =>
    -- before ABI 7.4 inode 0 was invalid, only ENOENT meant a negative entry
    if version.minor < kernelMinorVersionLookupNegativeEntryZero ∧ entry.inode = 0 then
      replyError ctx (.os enoent)
    else replyOk ctx (some (.entryOut (.ofEntry entry))) none
  | .error e => replyError ctx e

def lookup (ctx : SrvContext) : SrvM σ Nat :=
  lookupWith ctx true fun c p n => callFs (.lookup c p n)

def forget (ctx : SrvContext) : SrvM σ Nat := do
  let b ← readObj forgetInSize
  let _ ← callFs (.forget ctx.context ctx.nodeid (field b 0 8))
  -- there is no reply for forget messages
  pure 0

def getattrWith (ctx : SrvContext)
    (call : Context → Nat → Option Nat → SrvM σ (Except IoError (Stat64 × Duration))) :
    SrvM σ Nat := do
  let b ← readObj getattrInSize
  let handle := if field b 0 4 &&& getattrFh ≠ 0 then some (field b 8 8) else none
  handleAttrResult ctx (← call ctx.context ctx.nodeid handle)

def getattr (ctx : SrvContext) : SrvM σ Nat :=
  getattrWith ctx fun c i h => callFs (.getattr c i h)

def setattrWith (ctx : SrvContext)
    (call : Context → Nat → Stat64 → Option Nat → Nat →
      SrvM σ (Except IoError (Stat64 × Duration))) : SrvM σ Nat := do
  let setattrIn := SetattrIn.ofBytes (← readObj setattrInSize)
  let handle := if setattrIn.valid &&& fattrFh ≠ 0 then some setattrIn.fh else none
  let valid := setattrIn.valid &&& setattrValidAll
  handleAttrResult ctx (← call ctx.context ctx.nodeid setattrIn.toStat64 handle valid)

def setattr (ctx : SrvContext) : SrvM σ Nat :=
  setattrWith ctx fun c i a h v => callFs (.setattr c i a h v)

def readlink (ctx : SrvContext) : SrvM σ Nat := do
  match ← callFs (.readlink ctx.context ctx.nodeid) with
  | .ok linkname => replyOk ctx none (some (.bytes linkname))
  | .error e => replyError ctx e

def symlink (ctx : SrvContext) : SrvM σ Nat := do
  let buf ← getMessageBody ctx 0
  let (name, linkname) ← ofExcept (extractTwoCstrs buf)
  replyEntry ctx (← callFs (.symlink ctx.context linkname ctx.nodeid name))

def mknod (ctx : SrvContext) : SrvM σ Nat := do
  let b ← readObj mknodInSize
  let buf ← getMessageBody ctx mknodInSize
  let name ← cstrOrReplyEinval ctx buf true
  replyEntry ctx
    (← callFs (.mknod ctx.context ctx.nodeid name (field b 0 4) (field b 4 4) (field b 8 4)))

def mkdir (ctx : SrvContext) : SrvM σ Nat := do
  let b ← readObj mkdirInSize
  let buf ← getMessageBody ctx mkdirInSize
  let name ← cstrOrReplyEinval ctx buf true
  replyEntry ctx (← callFs (.mkdir ctx.context ctx.nodeid name (field b 0 4) (field b 4 4)))

def unlink (ctx : SrvContext) : SrvM σ Nat := do
  let buf ← getMessageBody ctx 0
  let name ← cstrOrReplyEinval ctx buf true
  replyUnit ctx (← callFs (.unlink ctx.context ctx.nodeid name))

def rmdir (ctx : SrvContext) : SrvM σ Nat := do
  let buf ← getMessageBody ctx 0
  let name ← cstrOrReplyEinval ctx buf true
  replyUnit ctx (← callFs (.rmdir ctx.context ctx.nodeid name))

def doRename (ctx : SrvContext) (msgSize newdir flags : Nat) : SrvM σ Nat := do
  let buf ← getMessageBody ctx msgSize
  let (oldname, newname) ← ofExcept (extractTwoCstrs buf)
  replyUnit ctx (← callFs (.rename ctx.context ctx.nodeid oldname newdir newname flags))

def rename (ctx : SrvContext) : SrvM σ Nat := do
  let b ← readObj renameInSize
  doRename ctx renameInSize (field b 0 8) 0

def rename2 (ctx : SrvContext) : SrvM σ Nat := do
  let b ← readObj rename2InSize
  doRename ctx rename2InSize (field b 0 8) (field b 8 4 &&& renameFlagsMask)

def link (ctx : SrvContext) : SrvM σ Nat := do
  let b ← readObj linkInSize
  let buf ← getMessageBody ctx linkInSize
  let name ← cstrOrReplyEinval ctx buf true
  replyEntry ctx (← callFs (.link ctx.context (field b 0 8) ctx.nodeid name))

def open_ (ctx : SrvContext) : SrvM σ Nat := do
  let b ← readObj openInSize
  match ← callFs (.open_ ctx.context ctx.nodeid (field b 0 4) (field b 4 4)) with
  | .ok (handle, opts, passthrough) =>
    replyOk ctx (some (.openOut ⟨handle.getD 0, opts, passthrough.getD 0⟩)) none
  | .error e => replyError ctx e

def readWith (ctx : SrvContext) (explicit : Bool)
    (call : Context → Nat → Nat → Nat → Nat → Option Nat → Nat →
      SrvM σ (Except IoError (List UInt8))) : SrvM σ Nat := do
  let b ← readObj readInSize
  let owner := if field b 20 4 &&& readLockowner ≠ 0 then some (field b 24 8) else none
  -- the header goes into the first bytes of the buffer, the data after them
  let some (w, w2) := (← get).w.splitAt outHeaderSize | throw .invalidHeaderLength
  modify fun s => { s with w }
  match ← call ctx.context ctx.nodeid (field b 0 8) (field b 16 4) (field b 8 8) owner
      (field b 32 4) with
  | .ok data =>
    -- the file system writes its data through the zero-copy writer, and passes its error on
    match w2.write [.bytes data] with
    | .ok w2 =>
      let out : OutHeader := ⟨outHeaderSize + data.length, 0, ctx.unique⟩
      writeAll [.outHeader out]
      commit (some w2)
      pure out.len
    | .error e => doReplyError ctx e explicit
  | .error e => doReplyError ctx e explicit

def read (ctx : SrvContext) : SrvM σ Nat :=
  readWith ctx false fun c i h sz off o f => callFs (.read c i h sz off o f)

def write (ctx : SrvContext) : SrvM σ Nat := do
  let b ← readObj writeInSize
  let fuseFlags := field b 20 4
  let owner := if fuseFlags &&& writeLockowner ≠ 0 then some (field b 24 8) else none
  let delayedWrite := fuseFlags &&& writeCache != 0
  -- `take_reader`: the file system reads the data from the rest of the request
  let data := (← get).r
  modify fun s => { s with r := [] }
  match ← callFs (.write ctx.context ctx.nodeid (field b 0 8) data (field b 16 4) (field b 8 8)
      owner delayedWrite (field b 32 4) fuseFlags) with
  | .ok count => replyOk ctx (some (.writeOut count)) none
  | .error e => replyError ctx e

def statfs (ctx : SrvContext) : SrvM σ Nat := do
  match ← callFs (.statfs ctx.context ctx.nodeid) with
  | .ok st => replyOk ctx (some (.kstatfs st)) none
  | .error e => replyError ctx e

def release (ctx : SrvContext) : SrvM σ Nat := do
  let b ← readObj releaseInSize
  let releaseFlags := field b 12 4
  let flush := releaseFlags &&& releaseFlush != 0
  let flockRelease := releaseFlags &&& releaseFlockUnlock != 0
  let lockOwner := if flush || flockRelease then some (field b 16 8) else none
  replyUnit ctx (← callFs (.release ctx.context ctx.nodeid (field b 8 4) (field b 0 8) flush
    flockRelease lockOwner))

/-- The handlers that read an `FsyncIn`, make one call and reply with `()`: `fsync`,
`fsyncdir` and their async twins. -/
def fsyncWith (ctx : SrvContext)
    (call : Context → Nat → Bool → Nat → SrvM σ (Except IoError Unit)) : SrvM σ Nat := do
  let b ← readObj fsyncInSize
  let datasync := field b 8 4 &&& 1 != 0
  replyUnit ctx (← call ctx.context ctx.nodeid datasync (field b 0 8))

def fsync (ctx : SrvContext) : SrvM σ Nat :=
  fsyncWith ctx fun c i d h => callFs (.fsync c i d h)

def setxattr (ctx : SrvContext) : SrvM σ Nat := do
  let b ← readObj setxattrInSize
  let size := field b 0 4
  let buf ← getMessageBody ctx setxattrInSize
  -- the name, with its NUL, and then the value
  let some pos := buf.findIdx? (· == 0) | throw .missingParameter
  let (name, value) := buf.splitAt (pos + 1)
  if size ≠ value.length % 2 ^ 32 then throw (.invalidXattrSize size value.length)
  let name ← cstrOrReplyEinval ctx name true
  replyUnit ctx (← callFs (.setxattr ctx.context ctx.nodeid name value (field b 4 4)))

def getxattr (ctx : SrvContext) : SrvM σ Nat := do
  let b ← readObj getxattrInSize
  let buf ← getMessageBody ctx getxattrInSize
  let name ← cstrOrReplyEinval ctx buf true
  match ← callFs (.getxattr ctx.context ctx.nodeid name (field b 0 4)) with
  | .ok (.value v) => replyOk ctx none (some (.bytes v))
  | .ok (.count c) => replyOk ctx (some (.getxattrOut c)) none
  | .error e => replyError ctx e

def listxattr (ctx : SrvContext) : SrvM σ Nat := do
  let b ← readObj getxattrInSize
  match ← callFs (.listxattr ctx.context ctx.nodeid (field b 0 4)) with
  | .ok (.names v) => replyOk ctx none (some (.bytes v))
  | .ok (.count c) => replyOk ctx (some (.getxattrOut c)) none
  | .error e => replyError ctx e

def removexattr (ctx : SrvContext) : SrvM σ Nat := do
  let buf ← getMessageBody ctx 0
  let name ← cstrOrReplyEinval ctx buf true
  replyUnit ctx (← callFs (.removexattr ctx.context ctx.nodeid name))

def flush (ctx : SrvContext) : SrvM σ Nat := do
  let b ← readObj flushInSize
  replyUnit ctx (← callFs (.flush ctx.context ctx.nodeid (field b 0 8) (field b 16 8)))

/-- The `InitOut` `init` answers a kernel of its own major version with. -/
def initOut (maxReadahead enabled : Nat) : InitOut :=
  let out : InitOut :=
    { major := kernelVersion, minor := kernelMinorVersion, maxReadahead, flags := enabled % 2 ^ 32,
      maxBackground := 2 ^ 16 - 1, congestionThreshold := (2 ^ 16 - 1) / 4 * 3,
      maxWrite := minReadBuffer - bufferHeaderSize, timeGran := 1,
      flags2 := (enabled >>> 32) % 2 ^ 32 }
  let out := if enabled &&& fsOptionsBigWrites ≠ 0 then
    { out with maxWrite := maxReqPages * pagesize } else out
  if enabled &&& fsOptionsMaxPages ≠ 0 then
    { out with maxPages := maxReqPages, maxWrite := maxReqPages * pagesize } else out

def init (ctx : SrvContext) : SrvM σ Nat := do
  let b ← readObj initInSize
  let major := field b 0 4
  let minor := field b 4 4
  if major < kernelVersion then replyErrorExplicit ctx (.os eproto)
  else if major > kernelVersion then
    -- wait for the kernel to come back with a 7.x version
    replyOk ctx (some (.initOut { major := kernelVersion, minor := kernelMinorVersion }
      initOutSize)) none
  else
    let flags := field b 12 4
    let flagsU64 ← if flags &&& fsOptionsInitExt ≠ 0 then do
        let b2 ← readObj initIn2Size
        pure (flags ||| field b2 0 4 <<< 32)
      else pure flags
    let capable := flagsU64 &&& fsOptionsAll
    match ← callFs (.init capable) with
    | .ok want =>
      let out := initOut (field b 8 4) (capable &&& want)
      modify fun s => { s with vers := ⟨major, minor⟩ }
      if minor < kernelMinorVersionInitOutSize then
        replyOk ctx (some (.initOut out fuseCompatInitOutSize)) none
      else if minor < kernelMinorVersionInit22OutSize then
        replyOk ctx (some (.initOut out fuseCompat22InitOutSize)) none
      else replyOk ctx (some (.initOut out initOutSize)) none
    | .error e => replyError ctx e

def opendir (ctx : SrvContext) : SrvM σ Nat := do
  let b ← readObj openInSize
  match ← callFs (.opendir ctx.context ctx.nodeid (field b 0 4)) with
  | .ok (handle, opts) => replyOk ctx (some (.openOut ⟨handle.getD 0, opts, 0⟩)) none
  | .error e => replyError ctx e

def doReaddir (ctx : SrvContext) (plus : Bool) : SrvM σ Nat := do
  let b ← readObj readInSize
  let size := field b 16 4
  if (← get).w.availableBytes < size then replyErrorExplicit ctx (.os enomem)
  else
    -- skip over enough bytes for the header
    let some (w, cursor) := (← get).w.splitAt outHeaderSize | throw .invalidHeaderLength
    modify fun s => { s with w }
    let res : Except IoError Unit × Writer ← if plus then
        callFs (.readdirplus ctx.context ctx.nodeid (field b 0 8) size (field b 8 8)
          (fun c d e => addDirent c size d (some e)) cursor)
      else
        callFs (.readdir ctx.context ctx.nodeid (field b 0 8) size (field b 8 8)
          (fun c d => addDirent c size d none) cursor)
    match res with
    | (.error e, _) => replyErrorExplicit ctx e
    | (.ok (), cursor) =>
      let out : OutHeader := ⟨outHeaderSize + cursor.bytesWritten, 0, ctx.unique⟩
      writeAll [.outHeader out]
      commit (some cursor)
      pure out.len

def readdir (ctx : SrvContext) : SrvM σ Nat := doReaddir ctx false

def readdirplus (ctx : SrvContext) : SrvM σ Nat := doReaddir ctx true

def releasedir (ctx : SrvContext) : SrvM σ Nat := do
  let b ← readObj releaseInSize
  replyUnit ctx (← callFs (.releasedir ctx.context ctx.nodeid (field b 8 4) (field b 0 8)))

def fsyncdir (ctx : SrvContext) : SrvM σ Nat :=
  fsyncWith ctx fun c i d h => callFs (.fsyncdir c i d h)

def getlk (ctx : SrvContext) : SrvM σ Nat := do
  let b ← readObj lkInSize
  match ← callFs (.getlk ctx.context ctx.nodeid (field b 0 8) (field b 8 8)
      (.ofBytes (b.drop 16)) (field b 40 4)) with
  | .ok l => replyOk ctx (some (.lkOut l)) none
  | .error e => replyError ctx e

def setlk (ctx : SrvContext) : SrvM σ Nat := do
  let b ← readObj lkInSize
  replyUnit ctx (← callFs (.setlk ctx.context ctx.nodeid (field b 0 8) (field b 8 8)
    (.ofBytes (b.drop 16)) (field b 40 4)))

/-- `setlkw` has the body of `setlk`: it calls the file system's `setlk`. -/
def setlkw (ctx : SrvContext) : SrvM σ Nat := setlk ctx

def access (ctx : SrvContext) : SrvM σ Nat := do
  let b ← readObj accessInSize
  replyUnit ctx (← callFs (.access ctx.context ctx.nodeid (field b 0 4)))

def create (ctx : SrvContext) : SrvM σ Nat := do
  let args := CreateIn.ofBytes (← readObj createInSize)
  let buf ← getMessageBody ctx createInSize
  let name ← cstrOrReplyEinval ctx buf true
  match ← callFs (.create ctx.context ctx.nodeid name args) with
  | .ok (entry, handle, opts, passthrough) =>
    -- the `EntryOut` is built here with `Attr::from`, which leaves out `attr_flags`
    let entryOut : EntryOut := ⟨entry.inode, entry.generation, entry.entryTimeout.secs,
      entry.attrTimeout.secs, entry.entryTimeout.nanos, entry.attrTimeout.nanos, ⟨entry.attr, 0⟩⟩
    replyOk ctx (some (.entryOut entryOut))
      (some (.openOut ⟨handle.getD 0, opts, passthrough.getD 0⟩))
  | .error e => replyError ctx e

def interrupt (_ctx : SrvContext) : SrvM σ Unit := pure ()

def bmap (ctx : SrvContext) : SrvM σ Nat := do
  let b ← readObj bmapInSize
  match ← callFs (.bmap ctx.context ctx.nodeid (field b 0 8) (field b 8 4)) with
  | .ok block => replyOk ctx (some (.bmapOut block)) none
  | .error e => replyError ctx e

def destroy (ctx : SrvContext) : SrvM σ Unit := do
  let _ ← callFs .destroy
  -- a failed reply is only logged
  ignoreResult (replyOk ctx none none)

def ioctl (ctx : SrvContext) : SrvM σ Nat := do
  let b ← readObj ioctlInSize
  let inSize := field b 24 4
  -- make sure there are enough bytes to read the ioctl's input
  if inSize > (← get).r.length then replyError ctx (.os enotty)
  else
    let data ← if inSize > 0 then do
        let bytes ← readSome inSize
        pure (if bytes.length > 0 then some bytes else none)
      else pure none
    match ← callFs (.ioctl ctx.context ctx.nodeid (field b 0 8) (field b 8 4) (field b 12 4) data
        (field b 28 4)) with
    | .ok (result, out) => replyOk ctx (some (.ioctlOut result)) (out.map .bytes)
    | .error e => replyError ctx e

def poll (ctx : SrvContext) : SrvM σ Nat := do
  let b ← readObj pollInSize
  match ← callFs (.poll ctx.context ctx.nodeid (field b 0 8) (field b 8 8) (field b 16 4)
      (field b 20 4)) with
  | .ok revents => replyOk ctx (some (.pollOut revents)) none
  | .error e => replyError ctx e

def notifyReply (ctx : SrvContext) : SrvM σ Nat := do
  match ← callFs .notifyReply with
  | .error e => replyError ctx e
  | .ok () => pure 0

/-- The `count` sub-records of `size` bytes that follow a batch header, each as its two `u64`s. -/
def readRecords (count size : Nat) : SrvM σ (List (Nat × Nat)) :=
  (List.range count).mapM fun _ => do
    let one ← readObj size
    pure (field one 0 8, field one 8 8)

def batchForget (ctx : SrvContext) : SrvM σ Nat := do
  let b ← readObj batchForgetInSize
  let count := field b 0 4
  match checkedMul count forgetOneSize with
  | some size =>
    if size > maxBufferSize + bufferHeaderSize - batchForgetInSize - inHeaderSize then
      throw (.invalidMessage (.os eoverflow))
  | none => throw (.invalidMessage (.os eoverflow))
  let requests ← readRecords count forgetOneSize
  let _ ← callFs (.batchForget ctx.context requests)
  -- no reply for forget messages
  pure 0

def fallocateWith (ctx : SrvContext)
    (call : Context → Nat → Nat → Nat → Nat → Nat → SrvM σ (Except IoError Unit)) :
    SrvM σ Nat := do
  let b ← readObj fallocateInSize
  replyUnit ctx
    (← call ctx.context ctx.nodeid (field b 0 8) (field b 24 4) (field b 8 8) (field b 16 8))

def fallocate (ctx : SrvContext) : SrvM σ Nat :=
  fallocateWith ctx fun c i h m o l => callFs (.fallocate c i h m o l)

def lseek (ctx : SrvContext) : SrvM σ Nat := do
  let b ← readObj lseekInSize
  match ← callFs (.lseek ctx.context ctx.nodeid (field b 0 8) (field b 8 8) (field b 16 4)) with
  | .ok offset => replyOk ctx (some (.lseekOut offset)) none
  | .error e => replyError ctx e

/-- `vuReq`: whether the transport handed a cache request handler. -/
def setupmapping (ctx : SrvContext) (vuReq : Bool) : SrvM σ Nat :=
  if vuReq then do
    let b ← readObj setupmappingInSize
    replyUnit ctx (← callFs (.setupmapping ctx.context ctx.nodeid (field b 0 8) (field b 8 8)
      (field b 16 8) (field b 24 8) (field b 32 8)))
  else replyErrorExplicit ctx (.os einval)

def removemapping (ctx : SrvContext) (vuReq : Bool) : SrvM σ Nat :=
  if vuReq then do
    let b ← readObj removemappingInSize
    let count := field b 0 4
    match checkedMul count removemappingOneSize with
    | none => replyErrorExplicit ctx (.os eoverflow)
    | some size =>
      if size > maxBufferSize then replyErrorExplicit ctx (.os enomem)
      else do
        let requests ← readRecords count removemappingOneSize
        replyUnit ctx (← callFs (.removemapping ctx.context ctx.nodeid requests))
  else replyErrorExplicit ctx (.os einval)

/-! ## `handle_message` -/

def dispatch (ctx : SrvContext) (vuReq : Bool) : SrvM σ Nat :=
  match Opcode.ofCode ctx.inHeader.opcode with
  | some .lookup => lookup ctx
  | some .forget => forget ctx
  | some .getattr => getattr ctx
  | some .setattr => setattr ctx
  | some .readlink => readlink ctx
  | some .symlink => symlink ctx
  | some .mknod => mknod ctx
  | some .mkdir => mkdir ctx
  | some .unlink => unlink ctx
  | some .rmdir => rmdir ctx
  | some .rename => rename ctx
  | some .link => link ctx
  | some .open_ => open_ ctx
  | some .read => read ctx
  | some .write => write ctx
  | some .statfs => statfs ctx
  | some .release => release ctx
  | some .fsync => fsync ctx
  | some .setxattr => setxattr ctx
  | some .getxattr => getxattr ctx
  | some .listxattr => listxattr ctx
  | some .removexattr => removexattr ctx
  | some .flush => flush ctx
  | some .init => init ctx
  | some .opendir => opendir ctx
  | some .readdir => readdir ctx
  | some .releasedir => releasedir ctx
  | some .fsyncdir => fsyncdir ctx
  | some .getlk => getlk ctx
  | some .setlk => setlk ctx
  | some .setlkw => setlkw ctx
  | some .access => access ctx
  | some .create => create ctx
  | some .bmap => bmap ctx
  | some .ioctl => ioctl ctx
  | some .poll => poll ctx
  | some .notifyReply => notifyReply ctx
  | some .batchForget => batchForget ctx
  | some .fallocate => fallocate ctx
  | some .readdirplus => readdirplus ctx
  | some .rename2 => rename2 ctx
  | some .lseek => lseek ctx
  | some .setupMapping => setupmapping ctx vuReq
  | some .removeMapping => removemapping ctx vuReq
  | some .interrupt => do interrupt ctx; pure 0
  | some .destroy => do destroy ctx; pure 0
  | _ => replyError ctx (.os enosys)

/-- `Server::handle_message`. -/
def handleMessage (vuReq : Bool) : SrvM σ Nat := do
  let inHeader := InHeader.ofBytes (← readObj inHeaderSize)
  let ctx := SrvContext.new inHeader
  let context ← match FileSystem.idRemap (← get).fs ctx.context with
    | .ok context => pure context
    | .error _ => throw (.failedToRemapId ctx.context.uid ctx.context.gid)
  let ctx := { ctx with context }
  if inHeader.len > maxBufferSize + bufferHeaderSize then
    if inHeader.opcode = Opcode.forget.code ∨ inHeader.opcode = Opcode.batchForget.code then
      -- forget and batch-forget take no reply
      throw (.invalidMessage (.os eoverflow))
    else replyErrorExplicit ctx (.os enomem)
  else dispatch ctx vuReq

/-! ## `async_handle_message` -/

def asyncLookup (ctx : SrvContext) : SrvM σ Nat :=
  lookupWith ctx false fun c p n => callFs (.asyncLookup c p n)

def asyncGetattr (ctx : SrvContext) : SrvM σ Nat :=
  getattrWith ctx fun c i h => callFs (.asyncGetattr c i h)

def asyncSetattr (ctx : SrvContext) : SrvM σ Nat :=
  setattrWith ctx fun c i a h v => callFs (.asyncSetattr c i a h v)

def asyncOpen (ctx : SrvContext) : SrvM σ Nat := do
  let b ← readObj openInSize
  match ← callFs (.asyncOpen ctx.context ctx.nodeid (field b 0 4) (field b 4 4)) with
  | .ok (handle, opts) => replyOk ctx (some (.openOut ⟨handle.getD 0, opts, 0⟩)) none
  | .error e => replyError ctx e

def asyncRead (ctx : SrvContext) : SrvM σ Nat :=
  readWith ctx true fun c i h sz off o f => callFs (.asyncRead c i h sz off o f)

def asyncWrite (ctx : SrvContext) : SrvM σ Nat := do
  let b ← readObj writeInSize
  let size := field b 16 4
  if size > maxBufferSize then replyErrorExplicit ctx (.os enomem)
  else
    let fuseFlags := field b 20 4
    let owner := if fuseFlags &&& writeLockowner ≠ 0 then some (field b 24 8) else none
    let delayedWrite := fuseFlags &&& writeCache != 0
    let data := (← get).r
    modify fun s => { s with r := [] }
    match ← callFs (.asyncWrite ctx.context ctx.nodeid (field b 0 8) data size (field b 8 8)
        owner delayedWrite (field b 32 4) fuseFlags) with
    | .ok count => replyOk ctx (some (.writeOut count)) none
    | .error e => replyErrorExplicit ctx e

def asyncFsync (ctx : SrvContext) : SrvM σ Nat :=
  fsyncWith ctx fun c i d h => callFs (.asyncFsync c i d h)

def asyncFsyncdir (ctx : SrvContext) : SrvM σ Nat :=
  fsyncWith ctx fun c i d h => callFs (.asyncFsyncdir c i d h)

def asyncCreate (ctx : SrvContext) : SrvM σ Nat := do
  let args := CreateIn.ofBytes (← readObj createInSize)
  let buf ← getMessageBody ctx createInSize
  let name ← cstrOrReplyEinval ctx buf false
  match ← callFs (.asyncCreate ctx.context ctx.nodeid name args) with
  | .ok (entry, handle, opts) =>
    let entryOut : EntryOut := ⟨entry.inode, entry.generation, entry.entryTimeout.secs,
      entry.attrTimeout.secs, entry.entryTimeout.nanos, entry.attrTimeout.nanos, ⟨entry.attr, 0⟩⟩
    replyOk ctx (some (.entryOut entryOut)) (some (.openOut ⟨handle.getD 0, opts, 0⟩))
  | .error e => replyError ctx e

def asyncFallocate (ctx : SrvContext) : SrvM σ Nat :=
  fallocateWith ctx fun c i h m o l => callFs (.asyncFallocate c i h m o l)

def asyncDispatch (ctx : SrvContext) (vuReq : Bool) : SrvM σ Nat :=
  match Opcode.ofCode ctx.inHeader.opcode with
  | some .lookup => asyncLookup ctx
  | some .forget => forget ctx
  | some .getattr => asyncGetattr ctx
  | some .setattr => asyncSetattr ctx
  | some .readlink => readlink ctx
  | some .symlink => symlink ctx
  | some .mknod => mknod ctx
  | some .mkdir => mkdir ctx
  | some .unlink => unlink ctx
  | some .rmdir => rmdir ctx
  | some .rename => rename ctx
  | some .link => link ctx
  | some .open_ => asyncOpen ctx
  | some .read => asyncRead ctx
  | some .write => asyncWrite ctx
  | some .statfs => statfs ctx
  | some .release => release ctx
  | some .fsync => asyncFsync ctx
  | some .setxattr => setxattr ctx
  | some .getxattr => getxattr ctx
  | some .listxattr => listxattr ctx
  | some .removexattr => removexattr ctx
  | some .flush => flush ctx
  | some .init => init ctx
  | some .opendir => opendir ctx
  | some .readdir => readdir ctx
  | some .releasedir => releasedir ctx
  | some .fsyncdir => asyncFsyncdir ctx
  | some .getlk => getlk ctx
  | some .setlk => setlk ctx
  | some .setlkw => setlkw ctx
  | some .access => access ctx
  | some .create => asyncCreate ctx
  | some .bmap => bmap ctx
  | some .ioctl => ioctl ctx
  | some .poll => poll ctx
  | some .notifyReply => notifyReply ctx
  | some .batchForget => batchForget ctx
  | some .fallocate => asyncFallocate ctx
  | some .readdirplus => readdirplus ctx
  | some .rename2 => rename2 ctx
  | some .lseek => lseek ctx
  | some .setupMapping => setupmapping ctx vuReq
  | some .removeMapping => removemapping ctx vuReq
  | some .interrupt => do interrupt ctx; pure 0
  | some .destroy => do destroy ctx; pure 0
  | _ => replyError ctx (.os enosys)

/-- `Server::async_handle_message`: no `id_remap`, and its own check of the sizes. -/
def asyncHandleMessage (vuReq : Bool) : SrvM σ Nat := do
  let inHeader := InHeader.ofBytes (← readObj inHeaderSize)
  let ctx := SrvContext.new inHeader
  if inHeader.len > maxBufferSize + bufferHeaderSize ∨
      (← get).w.availableBytes < outHeaderSize then
    doReplyError ctx (.os enomem) true
  else asyncDispatch ctx vuReq

end Server

end FuseBackend.Api
