import FuseBackend.Api.Verify.ServerReply

/-!
# The async server

`async_handle_message` has its own preamble: it does not remap the caller's ids, and it answers
`ENOMEM` to a request too large for the buffers or a reply buffer too small for a header,
whatever the opcode. Ten requests go to async handlers that call the `AsyncFileSystem` methods.

The async handlers answer each request with at most one reply, as the sync ones do, and the
whole of `async_handle_message` does. The two preambles part on the forgets: an oversized
`FORGET` gets no reply from `handle_message` and an `ENOMEM` reply from
`async_handle_message`.
-/

namespace FuseBackend.Api.Server

open ExceptState

section Handlers

variable {σ : Type} [FileSystem σ] (ctx : SrvContext)

theorem asyncLookup_replies : Replies ctx.unique (asyncLookup ctx : SrvM σ Nat) :=
  lookupWith_replies ctx false fun _ _ _ => callFs_keeps _

theorem asyncGetattr_replies : Replies ctx.unique (asyncGetattr ctx : SrvM σ Nat) :=
  getattrWith_replies ctx fun _ _ _ => callFs_keeps _

theorem asyncSetattr_replies : Replies ctx.unique (asyncSetattr ctx : SrvM σ Nat) :=
  setattrWith_replies ctx fun _ _ _ _ _ => callFs_keeps _

theorem asyncOpen_replies : Replies ctx.unique (asyncOpen ctx : SrvM σ Nat) := by
  refine (readObj_keeps _).bind_replies fun _ => (callFs_keeps _).bind_replies fun r => ?_
  split
  · exact replyOk_replies ctx _ _
  · exact replyError_replies ctx _

theorem asyncRead_replies : Replies ctx.unique (asyncRead ctx : SrvM σ Nat) :=
  readWith_replies ctx true fun _ _ _ _ _ _ _ => callFs_keeps _

/-- `async_write` refuses a write larger than the buffers with `ENOMEM`. -/
theorem asyncWrite_replies : Replies ctx.unique (asyncWrite ctx : SrvM σ Nat) := by
  refine (readObj_keeps _).bind_replies fun _ => ?_
  refine Triple.ite (fun _ => replyErrorExplicit_replies ctx _) fun _ => ?_
  refine Keeps.get_bind fun _ _ => (Keeps.modify (by intro _ h; exact h)).bind_replies fun _ => ?_
  refine (callFs_keeps _).bind_replies fun r => ?_
  split
  · exact replyOk_replies ctx _ _
  · exact replyErrorExplicit_replies ctx _

theorem asyncFsync_replies : Replies ctx.unique (asyncFsync ctx : SrvM σ Nat) :=
  fsyncWith_replies ctx fun _ _ _ _ => callFs_keeps _

theorem asyncFsyncdir_replies : Replies ctx.unique (asyncFsyncdir ctx : SrvM σ Nat) :=
  fsyncWith_replies ctx fun _ _ _ _ => callFs_keeps _

theorem asyncCreate_replies : Replies ctx.unique (asyncCreate ctx : SrvM σ Nat) := by
  refine (readObj_keeps _).bind_replies fun _ => (getMessageBody_keeps ctx _).bind_replies fun _ => ?_
  refine (cstrOrReplyEinval_checks ctx _ _).bind_replies fun _ => ?_
  refine (callFs_keeps _).bind_replies fun r => ?_
  split
  · exact replyOk_replies ctx _ _
  · exact replyError_replies ctx _

theorem asyncFallocate_replies : Replies ctx.unique (asyncFallocate ctx : SrvM σ Nat) :=
  fallocateWith_replies ctx fun _ _ _ _ _ _ => callFs_keeps _

end Handlers

section Dispatch

variable {σ : Type} [FileSystem σ]

theorem asyncDispatch_replies (ctx : SrvContext) (vuReq : Bool)
    (h : (Opcode.ofCode ctx.inHeader.opcode).all Opcode.answersOnOk) :
    Replies ctx.unique (asyncDispatch ctx vuReq : SrvM σ Nat) := by
  unfold asyncDispatch
  rcases hop : Opcode.ofCode ctx.inHeader.opcode with _ | op
  · exact replyError_replies ctx _
  rw [hop] at h
  simp only [Option.all_some] at h
  cases op
  case lookup => exact asyncLookup_replies ctx
  case forget => cases h
  case getattr => exact asyncGetattr_replies ctx
  case setattr => exact asyncSetattr_replies ctx
  case readlink => exact readlink_replies ctx
  case symlink => exact symlink_replies ctx
  case mknod => exact mknod_replies ctx
  case mkdir => exact mkdir_replies ctx
  case unlink => exact unlink_replies ctx
  case rmdir => exact rmdir_replies ctx
  case rename => exact rename_replies ctx
  case link => exact link_replies ctx
  case open_ => exact asyncOpen_replies ctx
  case read => exact asyncRead_replies ctx
  case write => exact asyncWrite_replies ctx
  case statfs => exact statfs_replies ctx
  case release => exact release_replies ctx
  case fsync => exact asyncFsync_replies ctx
  case setxattr => exact setxattr_replies ctx
  case getxattr => exact getxattr_replies ctx
  case listxattr => exact listxattr_replies ctx
  case removexattr => exact removexattr_replies ctx
  case flush => exact flush_replies ctx
  case init => exact init_replies ctx
  case opendir => exact opendir_replies ctx
  case readdir => exact readdir_replies ctx
  case releasedir => exact releasedir_replies ctx
  case fsyncdir => exact asyncFsyncdir_replies ctx
  case getlk => exact getlk_replies ctx
  case setlk => exact setlk_replies ctx
  case setlkw => exact setlkw_replies ctx
  case access => exact access_replies ctx
  case create => exact asyncCreate_replies ctx
  case interrupt => cases h
  case bmap => exact bmap_replies ctx
  case destroy => cases h
  case ioctl => exact ioctl_replies ctx
  case poll => exact poll_replies ctx
  case notifyReply => cases h
  case batchForget => cases h
  case fallocate => exact asyncFallocate_replies ctx
  case readdirplus => exact readdirplus_replies ctx
  case rename2 => exact rename2_replies ctx
  case lseek => exact lseek_replies ctx
  case copyFileRange => exact replyError_replies ctx _
  case setupMapping => exact setupmapping_replies ctx vuReq
  case removeMapping => exact removemapping_replies ctx vuReq

theorem asyncDispatch_at_most_one_reply (ctx : SrvContext) (vuReq : Bool) :
    AtMostOnce ctx.unique (asyncDispatch ctx vuReq : SrvM σ Nat) := by
  by_cases h : (Opcode.ofCode ctx.inHeader.opcode).all Opcode.answersOnOk
  · exact (asyncDispatch_replies ctx vuReq h).atMostOnce
  -- the opcodes that may return without a reply have the sync handlers
  rcases hop : Opcode.ofCode ctx.inHeader.opcode with _ | op
  · simp [hop] at h
  rw [hop] at h
  unfold asyncDispatch
  rw [hop]
  cases op <;> simp [Opcode.answersOnOk] at h
  · exact Keeps.atMostOnce (forget_keeps ctx)
  · exact Keeps.atMostOnce (Keeps.bind (interrupt_keeps ctx) fun _ => Keeps.pure _)
  · exact Triple.bind (destroy_atMostOnce ctx) fun _ _ hs => hs
  · exact Triple.conseq (fun _ h => h) (notifyReply_spec ctx) (fun _ _ h => h.1) fun _ _ h => h
  · exact Keeps.atMostOnce (batchForget_keeps ctx)

/-- What `async_handle_message` does around the dispatch: it reads the header and answers
`ENOMEM` to a request too large or a buffer too small for the reply's header. -/
theorem asyncHandleMessage_triple (vuReq : Bool) (h : InHeader) {Q : Nat → Srv σ → Prop}
    {E : Error → Srv σ → Prop} (hE : ∀ e s, Fresh s → E e s)
    (hbig : ∀ ctx : SrvContext, ctx.inHeader = h →
      Triple Fresh (doReplyError ctx (.os enomem) true) Q E)
    (hd : ∀ ctx : SrvContext, ctx.inHeader = h → Triple Fresh (asyncDispatch ctx vuReq) Q E) :
    Triple (fun s => Fresh s ∧ InHeader.ofBytes (s.r.take inHeaderSize) = h)
      (asyncHandleMessage vuReq : SrvM σ Nat) Q E := by
  unfold asyncHandleMessage
  refine (readObj_reads inHeaderSize (P := fun b _ => InHeader.ofBytes b = h)).bind_of_error hE
    fun b => Triple.pure_pre fun hb => ?_
  subst hb
  refine Keeps.get_bind fun _ _ => ?_
  exact Triple.ite (fun _ => hbig _ rfl) fun _ => hd _ rfl

/-- `async_handle_message` gives every request at most one reply, which carries its `unique`. -/
theorem asyncHandleMessage_at_most_one_reply (vuReq : Bool) (h : InHeader) :
    Triple (fun s => Fresh s ∧ InHeader.ofBytes (s.r.take inHeaderSize) = h)
      (asyncHandleMessage vuReq : SrvM σ Nat) (fun _ => AtMostOne h.unique)
      (fun _ => AtMostOne h.unique) := by
  refine asyncHandleMessage_triple vuReq h (fun _ _ hs => hs.atMostOne) ?_ ?_
  · rintro ctx rfl
    exact Replies.atMostOnce (doReplyError_replies ctx _ true)
  · rintro ctx rfl
    exact asyncDispatch_at_most_one_reply ctx vuReq

/-- When `async_handle_message` returns `Ok n` for a request that takes a reply, the reply is
written and `n` is its length. -/
theorem asyncHandleMessage_answers (vuReq : Bool) (h : InHeader)
    (hop : (Opcode.ofCode h.opcode).all Opcode.answersOnOk) :
    Triple (fun s => Fresh s ∧ InHeader.ofBytes (s.r.take inHeaderSize) = h)
      (asyncHandleMessage vuReq : SrvM σ Nat) (Answered h.unique) (fun _ => AtMostOne h.unique) := by
  refine asyncHandleMessage_triple vuReq h (fun _ _ hs => hs.atMostOne) ?_ ?_
  · rintro ctx rfl
    exact doReplyError_replies ctx _ true
  · rintro ctx rfl
    exact asyncDispatch_replies ctx vuReq hop

theorem async_lookup_answered_on_default_fs :
    (Opcode.ofCode Opcode.lookup.code).all Opcode.answersOnOk = true ∧
      Triple (fun s : Srv DefaultFs =>
          Fresh s ∧ InHeader.ofBytes (s.r.take inHeaderSize) = ⟨48, Opcode.lookup.code, 5, 1, 0, 0, 0⟩)
        (asyncHandleMessage false) (Answered 5) (fun _ => AtMostOne 5) :=
  ⟨by decide, asyncHandleMessage_answers false ⟨48, Opcode.lookup.code, 5, 1, 0, 0, 0⟩ (by decide)⟩

/-- A `FORGET` whose header claims more bytes than the buffers hold. -/
def oversizedForget : List UInt8 :=
  InHeader.toBytes ⟨maxBufferSize + bufferHeaderSize + 1, Opcode.forget.code, 7, 1, 0, 0, 0⟩

/-- On the oversized `FORGET`, whatever the file system, `handle_message` fails with nothing
written, while `async_handle_message` writes an `ENOMEM` reply and returns its length. -/
theorem oversized_forget_replied_only_async (fs : σ) (vers : ServerVersion) (vuReq : Bool) :
    (∃ e s, run (handleMessage vuReq) ⟨fs, vers, oversizedForget, ⟨4096, []⟩⟩ = (.error e, s) ∧
      s.w.written = []) ∧
    run (asyncHandleMessage vuReq) ⟨fs, vers, oversizedForget, ⟨4096, []⟩⟩ =
      (.ok outHeaderSize, ⟨fs, vers, [], ⟨4096 - outHeaderSize,
        [.outHeader ⟨outHeaderSize, -(enomem : Int), 7⟩]⟩⟩) := by
  refine ⟨?_, rfl⟩
  have h := handleMessage_triple vuReq
    ⟨maxBufferSize + bufferHeaderSize + 1, Opcode.forget.code, 7, 1, 0, 0, 0⟩
    (R := fun _ => True) (Q := fun _ _ => False) (E := fun _ => Fresh) (fun _ _ hs => hs)
    (fun _ hne => absurd rfl hne) (fun hle => absurd hle (by decide))
    ⟨fs, vers, oversizedForget, ⟨4096, []⟩⟩ ⟨rfl, by dsimp only; decide, trivial⟩
  rcases hr : run (handleMessage vuReq) ⟨fs, vers, oversizedForget, ⟨4096, []⟩⟩ with
    ⟨_ | n, s⟩ <;> rw [hr] at h
  · exact ⟨_, s, rfl, h⟩
  · exact h.elim

end Dispatch

end FuseBackend.Api.Server
