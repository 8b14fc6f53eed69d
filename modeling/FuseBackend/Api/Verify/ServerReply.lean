import FuseBackend.Api.Server
import FuseBackend.Lib.ExceptState

/-!
# One reply to each request

The kernel waits for one reply to a request: an `OutHeader` that carries the request's `unique`,
whose `len` counts every byte of the reply and whose `error` is 0 or a negated errno, followed by
the payload. `FORGET`, `BATCH_FORGET` and `INTERRUPT` take none.

Every handler is given a triple over the server's state (`Lib/ExceptState`), from a state where
nothing has been written yet:
* `Keeps`: it writes nothing;
* `Checks`: it writes nothing when it goes on, and when it stops it may have written the reply
  (`cstr_or_reply_einval` replies `EINVAL` and then fails);
* `Replies`: when it returns `n`, the reply is written and `n` is its length; when it fails, it
  wrote at most the reply.
`dispatch` and `handle_message` are assembled from the handlers' triples: at most one well-formed
reply to every request, the reply whenever a request that takes one returns `Ok`, and none to a
forget.
-/

namespace FuseBackend.Api

/-- The requests that `handle_message` answers whenever it returns `Ok`: all but the forgets and
`INTERRUPT`, which take no reply, `NOTIFY_REPLY`, the kernel's answer to a notification, and
`DESTROY`, which returns 0 whether its reply was written or not. -/
def Opcode.answersOnOk : Opcode → Bool
  | .forget | .batchForget | .interrupt | .notifyReply | .destroy => false
  | _ => true

namespace Server

open ExceptState

section Discipline

variable {σ α β : Type}

/-- `ws` is one reply to the request `u`. -/
def Replied (u : Nat) (ws : List Slice) : Prop :=
  ∃ h rest, ws = .outHeader h :: rest ∧ h.unique = u ∧ h.error ≤ 0 ∧ h.len = sizes ws

/-- Nothing has been written. -/
def Fresh (s : Srv σ) : Prop := s.w.written = []

def AtMostOne (u : Nat) (s : Srv σ) : Prop := Fresh s ∨ Replied u s.w.written

/-- The reply to `u` is written, and it is `n` bytes long. -/
def Answered (u n : Nat) (s : Srv σ) : Prop := Replied u s.w.written ∧ n = s.w.bytesWritten

def Keeps (m : SrvM σ α) : Prop := Triple Fresh m (fun _ => Fresh) (fun _ => Fresh)

def Checks (u : Nat) (m : SrvM σ α) : Prop :=
  Triple Fresh m (fun _ => Fresh) (fun _ => AtMostOne u)

def Replies (u : Nat) (m : SrvM σ Nat) : Prop :=
  Triple Fresh m (Answered u) (fun _ => AtMostOne u)

def AtMostOnce (u : Nat) (m : SrvM σ α) : Prop :=
  Triple Fresh m (fun _ => AtMostOne u) (fun _ => AtMostOne u)

variable {u : Nat} {m : SrvM σ α} {f : α → SrvM σ β}

theorem Fresh.atMostOne {s : Srv σ} (h : Fresh s) : AtMostOne u s := .inl h

theorem Answered.atMostOne {n : Nat} {s : Srv σ} (h : Answered u n s) : AtMostOne u s := .inr h.1

theorem replied_cons {h : OutHeader} {rest : List Slice} (hu : h.unique = u) (he : h.error ≤ 0)
    (hl : h.len = outHeaderSize + sizes rest) : Replied u (.outHeader h :: rest) :=
  ⟨h, rest, rfl, hu, he, by rw [hl, sizes_cons]; rfl⟩

theorem Keeps.checks (h : Keeps m) : Checks u m :=
  h.conseq (fun _ h => h) (fun _ _ h => h) fun _ _ h => h.atMostOne

theorem Checks.atMostOnce (h : Checks u m) : AtMostOnce u m :=
  h.conseq (fun _ h => h) (fun _ _ h => h.atMostOne) fun _ _ h => h

theorem Keeps.atMostOnce (h : Keeps m) : AtMostOnce u m := h.checks.atMostOnce

theorem Replies.atMostOnce {m : SrvM σ Nat} (h : Replies u m) : AtMostOnce u m :=
  h.conseq (fun _ h => h) (fun _ _ h => h.atMostOne) fun _ _ h => h

theorem Keeps.pure (a : α) : Keeps (Pure.pure a : SrvM σ α) := fun _ h => h

theorem Checks.throw (e : Error) : Checks u (throw e : SrvM σ α) := fun _ h => h.atMostOne

theorem Keeps.throw (e : Error) : Keeps (throw e : SrvM σ α) := fun _ h => h

theorem Replies.throw (e : Error) : Replies u (throw e : SrvM σ Nat) := fun _ h => h.atMostOne

/-- A change of the state that leaves the reply alone. -/
theorem Keeps.modify {g : Srv σ → Srv σ} (hg : ∀ s, Fresh s → Fresh (g s)) :
    Keeps (modify g : SrvM σ PUnit) := fun s hs => hg s hs

theorem Keeps.bind (hm : Keeps m) (hf : ∀ a, Keeps (f a)) : Keeps (m >>= f) := Triple.bind hm hf

theorem Checks.bind (hm : Checks u m) (hf : ∀ a, Checks u (f a)) : Checks u (m >>= f) :=
  Triple.bind hm hf

theorem Checks.bind_replies {f : α → SrvM σ Nat} (hm : Checks u m) (hf : ∀ a, Replies u (f a)) :
    Replies u (m >>= f) :=
  Triple.bind hm hf

theorem Keeps.bind_replies {f : α → SrvM σ Nat} (hm : Keeps m) (hf : ∀ a, Replies u (f a)) :
    Replies u (m >>= f) :=
  hm.checks.bind_replies hf

theorem Checks.bind_atMostOnce (hm : Checks u m) (hf : ∀ a, AtMostOnce u (f a)) :
    AtMostOnce u (m >>= f) :=
  Triple.bind hm hf

/-- Reading the state and going on from what was read. -/
theorem Keeps.get_bind {f : Srv σ → SrvM σ β} {Q : β → Srv σ → Prop} {E : Error → Srv σ → Prop}
    (h : ∀ s₀, Fresh s₀ → Triple Fresh (f s₀) Q E) : Triple Fresh (MonadState.get >>= f) Q E :=
  Triple.get_bind fun s₀ s hs => by
    obtain ⟨hs, rfl⟩ := hs
    exact h s hs s hs

/-- `ignoreResult m` goes on in what `m` leaves, whether `m` failed or not. -/
theorem ignoreResult_spec {P R : Srv σ → Prop} {E : Error → Srv σ → Prop}
    (hm : Triple P m (fun _ => R) (fun _ => R)) : Triple P (ignoreResult m) (fun _ => R) E :=
  Triple.tryCatch (hm.bind fun _ _ h => h) fun _ _ h => h

end Discipline

section Primitives

variable {σ : Type}

theorem readObj_spec (n : Nat) (s₀ : Srv σ) :
    Triple (· = s₀) (readObj n)
      (fun b s => n ≤ s₀.r.length ∧ b = s₀.r.take n ∧ s = { s₀ with r := s₀.r.drop n })
      (fun e s => e = .decodeMessage failedToFillWholeBuffer ∧ s = { s₀ with r := [] }) := by
  rintro s rfl
  by_cases h : n ≤ s.r.length
  · simp [readObj, run_bind, run_map, h]
  · simp [readObj, run_bind, h]

/-- `readObj` writes nothing, and hands over the next `n` bytes of the request and leaves the
rest. -/
theorem readObj_reads (n : Nat) {P : List UInt8 → List UInt8 → Prop} :
    Triple (fun s => Fresh s ∧ P (s.r.take n) (s.r.drop n)) (readObj n : SrvM σ _)
      (fun b s => Fresh s ∧ P b s.r) (fun _ => Fresh) := by
  rintro s ⟨hs, hp⟩
  have h := readObj_spec n s s rfl
  rcases hr : run (readObj n) s with ⟨_ | b, s'⟩ <;> rw [hr] at h
  · exact h.2 ▸ hs
  · obtain ⟨-, rfl, rfl⟩ := h
    exact ⟨hs, hp⟩

/-- `readObj` fails, with nothing written, when the request is shorter than the struct. -/
theorem readObj_short (n : Nat) :
    Triple (fun s => Fresh s ∧ s.r.length < n) (readObj n : SrvM σ _) (fun _ _ => False)
      (fun _ => Fresh) := by
  rintro s ⟨hs, hlen⟩
  have h := readObj_spec n s s rfl
  rcases hr : run (readObj n) s with ⟨_ | b, s'⟩ <;> rw [hr] at h
  · exact h.2 ▸ hs
  · exact absurd h.1 (Nat.not_le_of_lt hlen)

theorem readObj_keeps (n : Nat) : Keeps (readObj n : SrvM σ _) :=
  (readObj_reads n (P := fun _ _ => True)).conseq (fun _ h => ⟨h, trivial⟩) (fun _ _ h => h.1)
    fun _ _ h => h

theorem readSome_keeps (n : Nat) : Keeps (readSome n : SrvM σ _) := by
  intro s hs
  simp [readSome, run_bind, Fresh] at hs ⊢
  exact hs

theorem getMessageBody_keeps (ctx : SrvContext) (n : Nat) :
    Keeps (getMessageBody ctx n : SrvM σ (List UInt8)) := by
  unfold getMessageBody
  split
  · exact fun _ h => h
  · exact readObj_keeps _

/-- `get_message_body` fails, with nothing written, when the request is shorter than its
header says. -/
theorem getMessageBody_short (ctx : SrvContext) (n : Nat) {len : Nat}
    (hlen : (checkedSub ctx.inHeader.len inHeaderSize).bind (checkedSub · n) = some len) :
    Triple (fun s => Fresh s ∧ s.r.length < len) (getMessageBody ctx n : SrvM σ (List UInt8))
      (fun _ _ => False) (fun _ => Fresh) := by
  unfold getMessageBody
  rw [hlen]
  exact readObj_short len

theorem callFs_keeps [FileSystem σ] (q : Request) : Keeps (callFs q : SrvM σ _) := by
  intro s hs
  simp [callFs, run_bind, Fresh] at hs ⊢
  exact hs

theorem ofExcept_keeps {α : Type} (x : Except Error α) : Keeps (ofExcept x : SrvM σ α) := by
  cases x <;> exact fun _ h => h

theorem readRecords_keeps (count size : Nat) : Keeps (readRecords count size : SrvM σ _) :=
  Triple.mapM_inv (fun _ => (readObj_keeps size).bind fun _ => Keeps.pure _) _

theorem writeAll_spec (ss : List Slice) :
    Triple Fresh (writeAll ss : SrvM σ Unit) (fun _ s => s.w.written = ss) (fun _ => Fresh) := by
  intro s hs
  unfold writeAll Writer.write
  by_cases h : sizes ss > s.w.avail
  · simp [run_bind, h, Fresh] at hs ⊢
    exact hs
  · simp [run_bind, h, Fresh] at hs ⊢
    simp [hs]

theorem commit_spec (ws : List Slice) (o : Option Writer) {E : Error → Srv σ → Prop} :
    Triple (fun s => s.w.written = ws) (commit o : SrvM σ Unit)
      (fun _ s => s.w.written = ws ++ (o.map Writer.written).getD []) E := by
  intro s hs
  cases o <;> simp [commit, Writer.commit, hs]

theorem Writer.splitAt_written {w a b : Writer} {n : Nat} (h : w.splitAt n = some (a, b)) :
    a.written = w.written ∧ b.written = [] := by
  unfold Writer.splitAt at h
  split at h
  · cases h
  · cases h
    exact ⟨rfl, rfl⟩

theorem Writer.write_written {w w' : Writer} {ss : List Slice} (h : w.write ss = .ok w') :
    w'.written = w.written ++ ss := by
  unfold Writer.write at h
  split at h
  · cases h
  · cases h
    rfl

theorem sizes_toList (o : Option Slice) : sizes o.toList = (o.map Slice.size).getD 0 := by
  cases o <;> simp

end Primitives

section Replies

variable {σ : Type}

/-- Writing a reply in one piece, then returning its length. -/
theorem writeReply_replies {u : Nat} {ss : List Slice} (hr : Replied u ss) :
    Replies u (writeAll ss >>= fun _ => bytesWritten : SrvM σ Nat) :=
  (writeAll_spec ss).bind_of_error (fun _ _ h => h.atMostOne) fun _ _ hs => ⟨hs ▸ hr, rfl⟩

theorem replyOk_replies (ctx : SrvContext) (out data : Option Slice) :
    Replies ctx.unique (replyOk ctx out data : SrvM σ Nat) := by
  unfold replyOk
  simp only
  split <;> refine writeReply_replies (replied_cons rfl (Int.le_refl 0) ?_) <;>
    simp [sizes_toList, Nat.add_assoc, *]

theorem doReplyError_replies (ctx : SrvContext) (err : IoError) (explicit : Bool) :
    Replies ctx.unique (doReplyError ctx err explicit : SrvM σ Nat) := by
  have hr : Replied ctx.unique [.outHeader ⟨outHeaderSize, -(err.errno : Int), ctx.unique⟩] :=
    replied_cons rfl (by simp) rfl
  refine (writeAll_spec _).bind_of_error (fun _ _ h => h.atMostOne) fun _ => ?_
  refine (commit_spec _ none).bind fun _ s hs => ?_
  exact ⟨by simpa using hs ▸ hr, rfl⟩

theorem replyError_replies (ctx : SrvContext) (err : IoError) :
    Replies ctx.unique (replyError ctx err : SrvM σ Nat) :=
  doReplyError_replies ctx err false

theorem replyErrorExplicit_replies (ctx : SrvContext) (err : IoError) :
    Replies ctx.unique (replyErrorExplicit ctx err : SrvM σ Nat) :=
  doReplyError_replies ctx err true

/-- The header written in front of what a second writer holds, then committed with it: the
reply of `read` and `readdir`. -/
theorem headerCommit_replies (ctx : SrvContext) (cursor : Writer) (len : Nat)
    (hlen : len = outHeaderSize + sizes cursor.written) :
    Replies ctx.unique (do
      writeAll [.outHeader ⟨len, 0, ctx.unique⟩]
      commit (some cursor)
      Pure.pure len : SrvM σ Nat) := by
  refine (writeAll_spec _).bind_of_error (fun _ _ h => h.atMostOne) fun _ => ?_
  refine (commit_spec _ (some cursor)).bind fun _ s hs => ?_
  simp only [Option.map_some, Option.getD_some, List.cons_append, List.nil_append] at hs
  refine ⟨hs ▸ replied_cons rfl (Int.le_refl 0) hlen, ?_⟩
  simp [Writer.bytesWritten, hs, hlen, Slice.size]

theorem handleAttrResult_replies (ctx : SrvContext) (r : Except IoError (Stat64 × Duration)) :
    Replies ctx.unique (handleAttrResult ctx r : SrvM σ Nat) := by
  rcases r with e | ⟨st, timeout⟩
  · exact replyError_replies ctx e
  · exact replyOk_replies ctx (some (.attrOut ⟨timeout.secs, timeout.nanos, ⟨st, 0⟩⟩)) none

theorem replyEntry_replies (ctx : SrvContext) (r : Except IoError Entry) :
    Replies ctx.unique (replyEntry ctx r : SrvM σ Nat) := by
  cases r with
  | ok entry => exact replyOk_replies ctx (some (.entryOut (.ofEntry entry))) none
  | error e => exact replyError_replies ctx e

theorem replyUnit_replies (ctx : SrvContext) (r : Except IoError Unit) :
    Replies ctx.unique (replyUnit ctx r : SrvM σ Nat) := by
  cases r with
  | ok _ => exact replyOk_replies ctx none none
  | error e => exact replyError_replies ctx e

theorem cstrOrReplyEinval_checks (ctx : SrvContext) (buf : List UInt8) (explicit : Bool) :
    Checks ctx.unique (cstrOrReplyEinval ctx buf explicit : SrvM σ (List UInt8)) := by
  unfold cstrOrReplyEinval
  split
  · exact fun _ h => h
  · -- the `EINVAL` reply is written, or its write failed and nothing is
    have hreply := (doReplyError_replies ctx (.os einval) explicit (σ := σ)).atMostOnce
    exact (ignoreResult_spec hreply).bind fun _ _ h => h

end Replies

section Shared

/-! ## Handlers shared by the sync and async servers

They take the file system's call as an argument and are proved for every call that writes
nothing. -/

variable {σ : Type} (ctx : SrvContext)

theorem interrupt_keeps : Keeps (interrupt ctx : SrvM σ Unit) := Keeps.pure _

theorem lookupWith_replies (explicit : Bool)
    {call : Context → Nat → List UInt8 → SrvM σ (Except IoError Entry)}
    (hcall : ∀ c p n, Keeps (call c p n)) : Replies ctx.unique (lookupWith ctx explicit call) := by
  unfold lookupWith
  refine (getMessageBody_keeps ctx 0).bind_replies fun buf => ?_
  refine (cstrOrReplyEinval_checks ctx buf explicit).bind_replies fun name => ?_
  refine Keeps.get_bind fun s₀ _ => ?_
  refine (hcall _ _ _).bind_replies fun r => ?_
  split
  · -- before ABI 7.4 a zero inode is answered as `ENOENT`
    exact Triple.ite (fun _ => replyError_replies ctx _) fun _ => replyOk_replies ctx _ _
  · exact replyError_replies ctx _

/-- A `LOOKUP` whose name is shorter than its header says fails before anything is written. -/
theorem lookupWith_short (explicit : Bool)
    (call : Context → Nat → List UInt8 → SrvM σ (Except IoError Entry)) {len : Nat}
    (hlen : (checkedSub ctx.inHeader.len inHeaderSize).bind (checkedSub · 0) = some len) :
    Triple (fun s => Fresh s ∧ s.r.length < len) (lookupWith ctx explicit call) (fun _ _ => False)
      (fun _ => Fresh) :=
  (getMessageBody_short ctx 0 hlen).bind fun _ _ h => h.elim

theorem getattrWith_replies
    {call : Context → Nat → Option Nat → SrvM σ (Except IoError (Stat64 × Duration))}
    (hcall : ∀ c i h, Keeps (call c i h)) : Replies ctx.unique (getattrWith ctx call) :=
  (readObj_keeps _).bind_replies fun _ =>
    (hcall _ _ _).bind_replies fun r => handleAttrResult_replies ctx r

theorem setattrWith_replies
    {call : Context → Nat → Stat64 → Option Nat → Nat →
      SrvM σ (Except IoError (Stat64 × Duration))}
    (hcall : ∀ c i a h v, Keeps (call c i a h v)) : Replies ctx.unique (setattrWith ctx call) :=
  (readObj_keeps _).bind_replies fun _ =>
    (hcall _ _ _ _ _).bind_replies fun r => handleAttrResult_replies ctx r

/-- The header goes into the front of the buffer that `split_at` keeps, the data into the rest,
and `commit` makes them one reply. -/
theorem readWith_replies (explicit : Bool)
    {call : Context → Nat → Nat → Nat → Nat → Option Nat → Nat →
      SrvM σ (Except IoError (List UInt8))}
    (hcall : ∀ c i h sz off o f, Keeps (call c i h sz off o f)) :
    Replies ctx.unique (readWith ctx explicit call) := by
  unfold readWith
  refine (readObj_keeps _).bind_replies fun b => ?_
  refine Keeps.get_bind fun s₀ hs₀ => ?_
  split
  · next w w2 hsplit =>
    obtain ⟨hw, hw2⟩ := Writer.splitAt_written hsplit
    refine (Keeps.modify (by intro _ _; exact hw.trans hs₀)).bind_replies fun _ => ?_
    refine (hcall _ _ _ _ _ _ _).bind_replies fun r => ?_
    split
    · split
      · next w2' hwrite =>
        refine headerCommit_replies ctx w2' _ ?_
        simp [Writer.write_written hwrite, hw2, Slice.size]
      · exact doReplyError_replies ctx _ explicit
    · exact doReplyError_replies ctx _ explicit
  · exact Replies.throw _

theorem fsyncWith_replies {call : Context → Nat → Bool → Nat → SrvM σ (Except IoError Unit)}
    (hcall : ∀ c i d h, Keeps (call c i d h)) : Replies ctx.unique (fsyncWith ctx call) :=
  (readObj_keeps _).bind_replies fun _ =>
    (hcall _ _ _ _).bind_replies fun r => replyUnit_replies ctx r

theorem fallocateWith_replies
    {call : Context → Nat → Nat → Nat → Nat → Nat → SrvM σ (Except IoError Unit)}
    (hcall : ∀ c i h m o l, Keeps (call c i h m o l)) :
    Replies ctx.unique (fallocateWith ctx call) :=
  (readObj_keeps _).bind_replies fun _ =>
    (hcall _ _ _ _ _ _).bind_replies fun r => replyUnit_replies ctx r

end Shared

section Handlers

/-! ## The handlers of `handle_message` -/

variable {σ : Type} [FileSystem σ] (ctx : SrvContext)

theorem lookup_replies : Replies ctx.unique (lookup ctx : SrvM σ Nat) :=
  lookupWith_replies ctx true fun _ _ _ => callFs_keeps _

theorem forget_keeps : Keeps (forget ctx : SrvM σ Nat) :=
  (readObj_keeps _).bind fun _ => (callFs_keeps _).bind fun _ => Keeps.pure _

theorem getattr_replies : Replies ctx.unique (getattr ctx : SrvM σ Nat) :=
  getattrWith_replies ctx fun _ _ _ => callFs_keeps _

theorem setattr_replies : Replies ctx.unique (setattr ctx : SrvM σ Nat) :=
  setattrWith_replies ctx fun _ _ _ _ _ => callFs_keeps _

theorem readlink_replies : Replies ctx.unique (readlink ctx : SrvM σ Nat) := by
  refine (callFs_keeps _).bind_replies fun r => ?_
  split
  · exact replyOk_replies ctx _ _
  · exact replyError_replies ctx _

theorem symlink_replies : Replies ctx.unique (symlink ctx : SrvM σ Nat) := by
  refine (getMessageBody_keeps ctx 0).bind_replies fun buf => ?_
  refine (ofExcept_keeps _).bind_replies fun ⟨name, linkname⟩ => ?_
  exact (callFs_keeps _).bind_replies fun r => replyEntry_replies ctx r

theorem mknod_replies : Replies ctx.unique (mknod ctx : SrvM σ Nat) :=
  (readObj_keeps _).bind_replies fun _ => (getMessageBody_keeps ctx _).bind_replies fun _ =>
    (cstrOrReplyEinval_checks ctx _ _).bind_replies fun _ =>
      (callFs_keeps _).bind_replies fun r => replyEntry_replies ctx r

theorem mkdir_replies : Replies ctx.unique (mkdir ctx : SrvM σ Nat) :=
  (readObj_keeps _).bind_replies fun _ => (getMessageBody_keeps ctx _).bind_replies fun _ =>
    (cstrOrReplyEinval_checks ctx _ _).bind_replies fun _ =>
      (callFs_keeps _).bind_replies fun r => replyEntry_replies ctx r

theorem unlink_replies : Replies ctx.unique (unlink ctx : SrvM σ Nat) :=
  (getMessageBody_keeps ctx _).bind_replies fun _ =>
    (cstrOrReplyEinval_checks ctx _ _).bind_replies fun _ =>
      (callFs_keeps _).bind_replies fun r => replyUnit_replies ctx r

theorem rmdir_replies : Replies ctx.unique (rmdir ctx : SrvM σ Nat) :=
  (getMessageBody_keeps ctx _).bind_replies fun _ =>
    (cstrOrReplyEinval_checks ctx _ _).bind_replies fun _ =>
      (callFs_keeps _).bind_replies fun r => replyUnit_replies ctx r

theorem doRename_replies (msgSize newdir flags : Nat) :
    Replies ctx.unique (doRename ctx msgSize newdir flags : SrvM σ Nat) := by
  refine (getMessageBody_keeps ctx _).bind_replies fun buf => ?_
  refine (ofExcept_keeps _).bind_replies fun ⟨oldname, newname⟩ => ?_
  exact (callFs_keeps _).bind_replies fun r => replyUnit_replies ctx r

theorem rename_replies : Replies ctx.unique (rename ctx : SrvM σ Nat) :=
  (readObj_keeps _).bind_replies fun _ => doRename_replies ctx _ _ _

theorem rename2_replies : Replies ctx.unique (rename2 ctx : SrvM σ Nat) :=
  (readObj_keeps _).bind_replies fun _ => doRename_replies ctx _ _ _

theorem link_replies : Replies ctx.unique (link ctx : SrvM σ Nat) :=
  (readObj_keeps _).bind_replies fun _ => (getMessageBody_keeps ctx _).bind_replies fun _ =>
    (cstrOrReplyEinval_checks ctx _ _).bind_replies fun _ =>
      (callFs_keeps _).bind_replies fun r => replyEntry_replies ctx r

theorem open_replies : Replies ctx.unique (open_ ctx : SrvM σ Nat) := by
  refine (readObj_keeps _).bind_replies fun _ => (callFs_keeps _).bind_replies fun r => ?_
  split
  · exact replyOk_replies ctx _ _
  · exact replyError_replies ctx _

theorem read_replies : Replies ctx.unique (read ctx : SrvM σ Nat) :=
  readWith_replies ctx false fun _ _ _ _ _ _ _ => callFs_keeps _

theorem write_replies : Replies ctx.unique (write ctx : SrvM σ Nat) := by
  refine (readObj_keeps _).bind_replies fun _ => Keeps.get_bind fun _ _ => ?_
  -- the file system is handed the rest of the request
  refine (Keeps.modify (by intro _ h; exact h)).bind_replies fun _ => ?_
  refine (callFs_keeps _).bind_replies fun r => ?_
  split
  · exact replyOk_replies ctx _ _
  · exact replyError_replies ctx _

theorem statfs_replies : Replies ctx.unique (statfs ctx : SrvM σ Nat) := by
  refine (callFs_keeps _).bind_replies fun r => ?_
  split
  · exact replyOk_replies ctx _ _
  · exact replyError_replies ctx _

theorem release_replies : Replies ctx.unique (release ctx : SrvM σ Nat) :=
  (readObj_keeps _).bind_replies fun _ =>
    (callFs_keeps _).bind_replies fun r => replyUnit_replies ctx r

theorem fsync_replies : Replies ctx.unique (fsync ctx : SrvM σ Nat) :=
  fsyncWith_replies ctx fun _ _ _ _ => callFs_keeps _

/-- `setxattr` fails with nothing written when the value's length disagrees with its size
field, or when the name has no NUL. -/
theorem setxattr_replies : Replies ctx.unique (setxattr ctx : SrvM σ Nat) := by
  refine (readObj_keeps _).bind_replies fun _ => ?_
  refine (getMessageBody_keeps ctx _).bind_replies fun buf => ?_
  split
  · refine Triple.ite (fun _ => Triple.throw_bind fun _ h => h.atMostOne) fun _ => ?_
    refine (cstrOrReplyEinval_checks ctx _ _).bind_replies fun _ => ?_
    exact (callFs_keeps _).bind_replies fun r => replyUnit_replies ctx r
  · exact Replies.throw _

theorem getxattr_replies : Replies ctx.unique (getxattr ctx : SrvM σ Nat) := by
  refine (readObj_keeps _).bind_replies fun _ => (getMessageBody_keeps ctx _).bind_replies fun _ => ?_
  refine (cstrOrReplyEinval_checks ctx _ _).bind_replies fun _ => ?_
  refine (callFs_keeps _).bind_replies fun r => ?_
  split
  · exact replyOk_replies ctx _ _
  · exact replyOk_replies ctx _ _
  · exact replyError_replies ctx _

theorem listxattr_replies : Replies ctx.unique (listxattr ctx : SrvM σ Nat) := by
  refine (readObj_keeps _).bind_replies fun _ => (callFs_keeps _).bind_replies fun r => ?_
  split
  · exact replyOk_replies ctx _ _
  · exact replyOk_replies ctx _ _
  · exact replyError_replies ctx _

theorem removexattr_replies : Replies ctx.unique (removexattr ctx : SrvM σ Nat) :=
  (getMessageBody_keeps ctx _).bind_replies fun _ =>
    (cstrOrReplyEinval_checks ctx _ _).bind_replies fun _ =>
      (callFs_keeps _).bind_replies fun r => replyUnit_replies ctx r

theorem flush_replies : Replies ctx.unique (flush ctx : SrvM σ Nat) :=
  (readObj_keeps _).bind_replies fun _ =>
    (callFs_keeps _).bind_replies fun r => replyUnit_replies ctx r

/-- `init` answers an older major version with `EPROTO`, a newer one with its own version, and
its own with the options both sides have; the reply's length follows the kernel's minor
version. -/
theorem init_replies : Replies ctx.unique (init ctx : SrvM σ Nat) := by
  refine (readObj_keeps _).bind_replies fun _ => ?_
  refine Triple.ite (fun _ => replyErrorExplicit_replies ctx _) fun _ => ?_
  refine Triple.ite (fun _ => replyOk_replies ctx _ _) fun _ => ?_
  -- the flags come from the first struct, or from both when the kernel sends the second; both
  -- go on with the same join point
  refine Triple.ite
    (fun _ => (readObj_keeps _).bind_replies fun _ => (Keeps.pure _).bind_replies ?_)
    fun _ => (Keeps.pure _).bind_replies ?_
  all_goals
    intro flagsU64
    refine (callFs_keeps _).bind_replies fun r => ?_
    split
    · refine (Keeps.modify (by intro _ h; exact h)).bind_replies fun _ => ?_
      exact Triple.ite (fun _ => replyOk_replies ctx _ _) fun _ =>
        Triple.ite (fun _ => replyOk_replies ctx _ _) fun _ => replyOk_replies ctx _ _
    · exact replyError_replies ctx _

theorem opendir_replies : Replies ctx.unique (opendir ctx : SrvM σ Nat) := by
  refine (readObj_keeps _).bind_replies fun _ => (callFs_keeps _).bind_replies fun r => ?_
  split
  · exact replyOk_replies ctx _ _
  · exact replyError_replies ctx _

/-- The file system fills the cursor that `split_at` hands out; the header in front counts
whatever it wrote. -/
theorem doReaddir_replies (plus : Bool) : Replies ctx.unique (doReaddir ctx plus : SrvM σ Nat) := by
  refine (readObj_keeps _).bind_replies fun _ => Keeps.get_bind fun _ _ => ?_
  refine Triple.ite (fun _ => replyErrorExplicit_replies ctx _) fun _ => ?_
  refine Keeps.get_bind fun s₀ hs₀ => ?_
  split
  · next w cursor hsplit =>
    have hw := (Writer.splitAt_written hsplit).1
    refine (Keeps.modify (by intro _ _; exact hw.trans hs₀)).bind_replies fun _ => ?_
    -- `readdir` and `readdirplus` go on with the same join point
    refine Triple.ite (fun _ => (callFs_keeps _).bind_replies ?_)
      fun _ => (callFs_keeps _).bind_replies ?_
    all_goals
      intro res
      beta_reduce
      split
      · exact replyErrorExplicit_replies ctx _
      · exact headerCommit_replies ctx _ _ rfl
  · exact Replies.throw _

theorem readdir_replies : Replies ctx.unique (readdir ctx : SrvM σ Nat) := doReaddir_replies ctx false

theorem readdirplus_replies : Replies ctx.unique (readdirplus ctx : SrvM σ Nat) :=
  doReaddir_replies ctx true

theorem releasedir_replies : Replies ctx.unique (releasedir ctx : SrvM σ Nat) :=
  (readObj_keeps _).bind_replies fun _ =>
    (callFs_keeps _).bind_replies fun r => replyUnit_replies ctx r

theorem fsyncdir_replies : Replies ctx.unique (fsyncdir ctx : SrvM σ Nat) :=
  fsyncWith_replies ctx fun _ _ _ _ => callFs_keeps _

theorem getlk_replies : Replies ctx.unique (getlk ctx : SrvM σ Nat) := by
  refine (readObj_keeps _).bind_replies fun _ => (callFs_keeps _).bind_replies fun r => ?_
  split
  · exact replyOk_replies ctx _ _
  · exact replyError_replies ctx _

theorem setlk_replies : Replies ctx.unique (setlk ctx : SrvM σ Nat) :=
  (readObj_keeps _).bind_replies fun _ =>
    (callFs_keeps _).bind_replies fun r => replyUnit_replies ctx r

theorem setlkw_replies : Replies ctx.unique (setlkw ctx : SrvM σ Nat) := setlk_replies ctx

theorem access_replies : Replies ctx.unique (access ctx : SrvM σ Nat) :=
  (readObj_keeps _).bind_replies fun _ =>
    (callFs_keeps _).bind_replies fun r => replyUnit_replies ctx r

theorem create_replies : Replies ctx.unique (create ctx : SrvM σ Nat) := by
  refine (readObj_keeps _).bind_replies fun _ => (getMessageBody_keeps ctx _).bind_replies fun _ => ?_
  refine (cstrOrReplyEinval_checks ctx _ _).bind_replies fun _ => ?_
  refine (callFs_keeps _).bind_replies fun r => ?_
  split
  · exact replyOk_replies ctx _ _
  · exact replyError_replies ctx _

theorem bmap_replies : Replies ctx.unique (bmap ctx : SrvM σ Nat) := by
  refine (readObj_keeps _).bind_replies fun _ => (callFs_keeps _).bind_replies fun r => ?_
  split
  · exact replyOk_replies ctx _ _
  · exact replyError_replies ctx _

/-- `destroy` replies if the write goes through, and returns 0 either way. -/
theorem destroy_atMostOnce : AtMostOnce ctx.unique (destroy ctx : SrvM σ Unit) :=
  (callFs_keeps _).checks.bind_atMostOnce fun _ =>
    ignoreResult_spec (replyOk_replies ctx none none).atMostOnce

theorem ioctl_replies : Replies ctx.unique (ioctl ctx : SrvM σ Nat) := by
  refine (readObj_keeps _).bind_replies fun _ => Keeps.get_bind fun _ _ => ?_
  -- `ENOTTY` when the request holds fewer bytes than the ioctl's input
  refine Triple.ite (fun _ => replyError_replies ctx _) fun _ => ?_
  -- the input, if any, is read before the call; both ways go on with the same join point
  refine Triple.ite
    (fun _ => (readSome_keeps _).bind_replies fun _ => (Keeps.pure _).bind_replies ?_)
    fun _ => (Keeps.pure _).bind_replies ?_
  all_goals
    intro data
    refine (callFs_keeps _).bind_replies fun r => ?_
    split
    · exact replyOk_replies ctx _ _
    · exact replyError_replies ctx _

theorem poll_replies : Replies ctx.unique (poll ctx : SrvM σ Nat) := by
  refine (readObj_keeps _).bind_replies fun _ => (callFs_keeps _).bind_replies fun r => ?_
  split
  · exact replyOk_replies ctx _ _
  · exact replyError_replies ctx _

/-- `notify_reply` replies the file system's error, and returns 0 with nothing written when the
call succeeds. -/
theorem notifyReply_spec :
    Triple Fresh (notifyReply ctx : SrvM σ Nat) (fun n s => AtMostOne ctx.unique s ∧
      n = s.w.bytesWritten) (fun _ => AtMostOne ctx.unique) := by
  refine Triple.bind ((callFs_keeps (σ := σ) _).checks (u := ctx.unique)) fun r => ?_
  split
  · exact (replyError_replies ctx _).conseq (fun _ h => h) (fun _ _ h => ⟨h.atMostOne, h.2⟩)
      fun _ _ h => h
  · intro s hs
    exact ⟨hs.atMostOne, by simp [Writer.bytesWritten, show s.w.written = [] from hs]⟩

theorem batchForget_keeps : Keeps (batchForget ctx : SrvM σ Nat) := by
  refine (readObj_keeps _).bind fun _ => ?_
  dsimp only
  split
  · -- the count fits: the records are read and handed to the file system
    refine Triple.ite (fun _ => Triple.throw_bind fun _ h => h) fun _ => ?_
    exact (readRecords_keeps _ _).bind fun _ => (callFs_keeps _).bind fun _ => Keeps.pure _
  · exact Triple.throw_bind fun _ h => h

theorem fallocate_replies : Replies ctx.unique (fallocate ctx : SrvM σ Nat) :=
  fallocateWith_replies ctx fun _ _ _ _ _ _ => callFs_keeps _

theorem lseek_replies : Replies ctx.unique (lseek ctx : SrvM σ Nat) := by
  refine (readObj_keeps _).bind_replies fun _ => (callFs_keeps _).bind_replies fun r => ?_
  split
  · exact replyOk_replies ctx _ _
  · exact replyError_replies ctx _

theorem setupmapping_replies (vuReq : Bool) :
    Replies ctx.unique (setupmapping ctx vuReq : SrvM σ Nat) := by
  refine Triple.ite (fun _ => ?_) fun _ => replyErrorExplicit_replies ctx _
  exact (readObj_keeps _).bind_replies fun _ =>
    (callFs_keeps _).bind_replies fun r => replyUnit_replies ctx r

theorem removemapping_replies (vuReq : Bool) :
    Replies ctx.unique (removemapping ctx vuReq : SrvM σ Nat) := by
  refine Triple.ite (fun _ => ?_) fun _ => replyErrorExplicit_replies ctx _
  refine (readObj_keeps _).bind_replies fun _ => ?_
  dsimp only
  split
  · exact replyErrorExplicit_replies ctx _
  · refine Triple.ite (fun _ => replyErrorExplicit_replies ctx _) fun _ => ?_
    exact (readRecords_keeps _ _).bind_replies fun _ =>
      (callFs_keeps _).bind_replies fun r => replyUnit_replies ctx r

end Handlers

section Dispatch

/-! ## `dispatch` and `handle_message` -/

variable {σ : Type} [FileSystem σ]

/-- Every request that takes a reply gets it whenever its handler returns: an unknown opcode
gets `ENOSYS`. -/
theorem dispatch_replies (ctx : SrvContext) (vuReq : Bool)
    (h : (Opcode.ofCode ctx.inHeader.opcode).all Opcode.answersOnOk) :
    Replies ctx.unique (dispatch ctx vuReq : SrvM σ Nat) := by
  unfold dispatch
  rcases hop : Opcode.ofCode ctx.inHeader.opcode with _ | op
  · exact replyError_replies ctx _
  rw [hop] at h
  simp only [Option.all_some] at h
  cases op
  case lookup => exact lookup_replies ctx
  case forget => cases h
  case getattr => exact getattr_replies ctx
  case setattr => exact setattr_replies ctx
  case readlink => exact readlink_replies ctx
  case symlink => exact symlink_replies ctx
  case mknod => exact mknod_replies ctx
  case mkdir => exact mkdir_replies ctx
  case unlink => exact unlink_replies ctx
  case rmdir => exact rmdir_replies ctx
  case rename => exact rename_replies ctx
  case link => exact link_replies ctx
  case open_ => exact open_replies ctx
  case read => exact read_replies ctx
  case write => exact write_replies ctx
  case statfs => exact statfs_replies ctx
  case release => exact release_replies ctx
  case fsync => exact fsync_replies ctx
  case setxattr => exact setxattr_replies ctx
  case getxattr => exact getxattr_replies ctx
  case listxattr => exact listxattr_replies ctx
  case removexattr => exact removexattr_replies ctx
  case flush => exact flush_replies ctx
  case init => exact init_replies ctx
  case opendir => exact opendir_replies ctx
  case readdir => exact readdir_replies ctx
  case releasedir => exact releasedir_replies ctx
  case fsyncdir => exact fsyncdir_replies ctx
  case getlk => exact getlk_replies ctx
  case setlk => exact setlk_replies ctx
  case setlkw => exact setlkw_replies ctx
  case access => exact access_replies ctx
  case create => exact create_replies ctx
  case interrupt => cases h
  case bmap => exact bmap_replies ctx
  case destroy => cases h
  case ioctl => exact ioctl_replies ctx
  case poll => exact poll_replies ctx
  case notifyReply => cases h
  case batchForget => cases h
  case fallocate => exact fallocate_replies ctx
  case readdirplus => exact readdirplus_replies ctx
  case rename2 => exact rename2_replies ctx
  case lseek => exact lseek_replies ctx
  case copyFileRange => exact replyError_replies ctx _
  case setupMapping => exact setupmapping_replies ctx vuReq
  case removeMapping => exact removemapping_replies ctx vuReq

/-- The forgets and `INTERRUPT` write nothing. -/
theorem dispatch_keeps (ctx : SrvContext) (vuReq : Bool)
    (h : Opcode.ofCode ctx.inHeader.opcode ∈ [some .forget, some .batchForget, some .interrupt]) :
    Keeps (dispatch ctx vuReq : SrvM σ Nat) := by
  unfold dispatch
  simp only [List.mem_cons, List.not_mem_nil, or_false] at h
  rcases h with h | h | h <;> rw [h]
  · exact forget_keeps ctx
  · exact batchForget_keeps ctx
  · exact (interrupt_keeps ctx).bind fun _ => Keeps.pure _

theorem dispatch_at_most_one_reply (ctx : SrvContext) (vuReq : Bool) :
    AtMostOnce ctx.unique (dispatch ctx vuReq : SrvM σ Nat) := by
  by_cases h : (Opcode.ofCode ctx.inHeader.opcode).all Opcode.answersOnOk
  · exact (dispatch_replies ctx vuReq h).atMostOnce
  -- the opcodes that may return without a reply
  rcases hop : Opcode.ofCode ctx.inHeader.opcode with _ | op
  · simp [hop] at h
  rw [hop] at h
  unfold dispatch
  rw [hop]
  cases op <;> simp [Opcode.answersOnOk] at h
  · exact Keeps.atMostOnce (forget_keeps ctx)
  · exact Keeps.atMostOnce (Keeps.bind (interrupt_keeps ctx) fun _ => Keeps.pure _)
  · exact Triple.bind (destroy_atMostOnce ctx) fun _ _ hs => hs
  · exact Triple.conseq (fun _ h => h) (notifyReply_spec ctx) (fun _ _ h => h.1) fun _ _ h => h
  · exact Keeps.atMostOnce (batchForget_keeps ctx)

/-- What `handle_message` does around the dispatch: it reads the header, remaps the ids (and fails
with nothing written when that fails), and refuses a request too large for the buffers. `R` is
what is known of the rest of the request. -/
theorem handleMessage_triple (vuReq : Bool) (h : InHeader) {R : List UInt8 → Prop}
    {Q : Nat → Srv σ → Prop} {E : Error → Srv σ → Prop} (hE : ∀ e s, Fresh s → E e s)
    (hbig : maxBufferSize + bufferHeaderSize < h.len → h.opcode ≠ Opcode.forget.code →
      h.opcode ≠ Opcode.batchForget.code →
      ∀ ctx : SrvContext, ctx.inHeader = h → Triple Fresh (replyErrorExplicit ctx (.os enomem)) Q E)
    (hd : h.len ≤ maxBufferSize + bufferHeaderSize → ∀ ctx : SrvContext, ctx.inHeader = h →
      Triple (fun s => Fresh s ∧ R s.r) (dispatch ctx vuReq) Q E) :
    Triple (fun s => Fresh s ∧ InHeader.ofBytes (s.r.take inHeaderSize) = h ∧
        R (s.r.drop inHeaderSize))
      (handleMessage vuReq : SrvM σ Nat) Q E := by
  unfold handleMessage
  refine (readObj_reads inHeaderSize (P := fun b r => InHeader.ofBytes b = h ∧ R r)).bind_of_error
    hE fun b => ?_
  refine Triple.conseq (P := fun s => (Fresh s ∧ R s.r) ∧ InHeader.ofBytes b = h)
    (fun _ hs => ⟨⟨hs.1, hs.2.2⟩, hs.2.1⟩) (Triple.pure_pre fun hb => ?_) (fun _ _ h => h)
    fun _ _ h => h
  subst hb
  refine Triple.get_bind fun s₀ => Triple.conseq (fun s hs => hs.1) ?_ (fun _ _ h => h)
    fun _ _ h => h
  dsimp only
  split
  · refine Triple.bind_of_error (Triple.pure (Q := fun _ s => Fresh s ∧ R s.r) _)
      (fun e s (hs : Fresh s ∧ R s.r) => hE e s hs.1) fun context => ?_
    refine Triple.ite (fun hlen => ?_) fun hlen => hd (Nat.le_of_not_lt hlen) _ rfl
    refine Triple.ite (fun _ s hs => hE _ s hs.1) fun hop => ?_
    -- the forgets are refused without a reply, everything else with `ENOMEM`
    rw [not_or] at hop
    exact (hbig hlen hop.1 hop.2 _ rfl).conseq (fun _ hs => hs.1) (fun _ _ h => h) fun _ _ h => h
  · -- `FailedToRemapId`, with nothing written
    exact Triple.throw_bind fun s hs => hE _ s hs.1

/-- Every request gets at most one reply, and it is well formed: it carries the request's
`unique`, and its `len` counts what is written. -/
theorem handleMessage_at_most_one_reply (vuReq : Bool) (h : InHeader) :
    Triple (fun s => Fresh s ∧ InHeader.ofBytes (s.r.take inHeaderSize) = h)
      (handleMessage vuReq : SrvM σ Nat) (fun _ => AtMostOne h.unique)
      (fun _ => AtMostOne h.unique) := by
  refine (handleMessage_triple vuReq h (R := fun _ => True) (fun _ _ hs => hs.atMostOne) ?_ ?_).conseq
    (fun _ ⟨hs, hh⟩ => ⟨hs, hh, trivial⟩) (fun _ _ h => h) fun _ _ h => h
  · rintro - - - ctx rfl
    exact Replies.atMostOnce (replyErrorExplicit_replies ctx _)
  · rintro - ctx rfl
    exact (dispatch_at_most_one_reply ctx vuReq).conseq (fun _ hs => hs.1) (fun _ _ h => h)
      fun _ _ h => h

/-- When `handle_message` returns `Ok n` for a request that takes a reply, the reply is written
and `n` is its length. -/
theorem handleMessage_answers (vuReq : Bool) (h : InHeader)
    (hop : (Opcode.ofCode h.opcode).all Opcode.answersOnOk) :
    Triple (fun s => Fresh s ∧ InHeader.ofBytes (s.r.take inHeaderSize) = h)
      (handleMessage vuReq : SrvM σ Nat) (Answered h.unique) (fun _ => AtMostOne h.unique) := by
  refine (handleMessage_triple vuReq h (R := fun _ => True) (fun _ _ hs => hs.atMostOne) ?_ ?_).conseq
    (fun _ ⟨hs, hh⟩ => ⟨hs, hh, trivial⟩) (fun _ _ h => h) fun _ _ h => h
  · rintro - - - ctx rfl
    exact replyErrorExplicit_replies ctx _
  · rintro - ctx rfl
    exact (dispatch_replies ctx vuReq hop).conseq (fun _ hs => hs.1) (fun _ _ h => h)
      fun _ _ h => h

theorem lookup_answered_on_default_fs :
    (Opcode.ofCode Opcode.lookup.code).all Opcode.answersOnOk = true ∧
      Triple (fun s : Srv DefaultFs =>
          Fresh s ∧ InHeader.ofBytes (s.r.take inHeaderSize) = ⟨48, Opcode.lookup.code, 5, 1, 0, 0, 0⟩)
        (handleMessage false) (Answered 5) (fun _ => AtMostOne 5) :=
  ⟨by decide, handleMessage_answers false ⟨48, Opcode.lookup.code, 5, 1, 0, 0, 0⟩ (by decide)⟩

/-- A `LOOKUP` whose header announces a name of 8 bytes, followed by 4. -/
def truncatedLookup : List UInt8 :=
  InHeader.toBytes ⟨48, Opcode.lookup.code, 5, 1, 0, 0, 0⟩ ++ [97, 0, 0, 0]

/-- Whatever the file system, the truncated `LOOKUP` fails in `get_message_body` and gets no
reply, though the kernel waits for one. -/
theorem truncated_lookup_gets_no_reply (fs : σ) (vers : ServerVersion) (avail : Nat)
    (vuReq : Bool) :
    ∃ e s, run (handleMessage vuReq) ⟨fs, vers, truncatedLookup, ⟨avail, []⟩⟩ = (.error e, s) ∧
      s.w.written = [] := by
  have h := handleMessage_triple vuReq ⟨48, Opcode.lookup.code, 5, 1, 0, 0, 0⟩
    (R := fun r => r.length < 8) (Q := fun _ _ => False) (E := fun _ => Fresh)
    (fun _ _ hs => hs) (fun hbig => absurd hbig (by decide)) (fun _ ctx hctx => ?_)
    ⟨fs, vers, truncatedLookup, ⟨avail, []⟩⟩ ⟨rfl, by dsimp only; decide, by dsimp only; decide⟩
  · rcases hr : run (handleMessage vuReq) ⟨fs, vers, truncatedLookup, ⟨avail, []⟩⟩ with
      ⟨_ | n, s⟩ <;> rw [hr] at h
    · exact ⟨_, s, rfl, h⟩
    · exact h.elim
  · -- the opcode dispatches to `lookup`, whose body is 8 bytes by the header
    unfold dispatch
    rw [hctx, Opcode.ofCode_code]
    exact lookupWith_short ctx true _ (by rw [hctx]; rfl)

/-- A forget gets no reply, whatever the message and the file system. -/
theorem handleMessage_forget_silent (vuReq : Bool) (h : InHeader)
    (hop : h.opcode = Opcode.forget.code ∨ h.opcode = Opcode.batchForget.code) :
    Triple (fun s => Fresh s ∧ InHeader.ofBytes (s.r.take inHeaderSize) = h)
      (handleMessage vuReq : SrvM σ Nat) (fun _ => Fresh) (fun _ => Fresh) := by
  refine (handleMessage_triple vuReq h (R := fun _ => True) (fun _ _ hs => hs) ?_ ?_).conseq
    (fun _ ⟨hs, hh⟩ => ⟨hs, hh, trivial⟩) (fun _ _ h => h) fun _ _ h => h
  · intro _ hforget hbatch
    exact absurd hop (not_or.mpr ⟨hforget, hbatch⟩)
  · rintro - ctx rfl
    refine (dispatch_keeps ctx vuReq ?_).conseq (fun _ hs => hs.1) (fun _ _ h => h) fun _ _ h => h
    rcases hop with hop | hop <;> simp [hop, Opcode.ofCode_code]

theorem forget_silent_on_default_fs :
    (Opcode.forget.code = Opcode.forget.code ∨ Opcode.forget.code = Opcode.batchForget.code) ∧
      Triple (fun s : Srv DefaultFs =>
          Fresh s ∧ InHeader.ofBytes (s.r.take inHeaderSize) = ⟨40, Opcode.forget.code, 6, 2, 0, 0, 0⟩)
        (handleMessage false) (fun _ => Fresh) (fun _ => Fresh) :=
  ⟨.inl rfl, handleMessage_forget_silent false ⟨40, Opcode.forget.code, 6, 2, 0, 0, 0⟩ (.inl rfl)⟩

end Dispatch

end Server

end FuseBackend.Api
