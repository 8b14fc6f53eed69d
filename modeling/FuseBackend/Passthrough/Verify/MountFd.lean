import FuseBackend.Passthrough.MountFd
import FuseBackend.Lib.ListSplit
import FuseBackend.Lib.Path
import FuseBackend.Lib.Transition

/-!
# Mount file descriptors: the mount root and the descriptors `get` leaves open

`get_mount_root` answers the fifth column of the first line of mountinfo whose first column is
the mount id (`findMountPoint_intercalate`), with the mount prefix taken off by
`str::strip_prefix`, and fails exactly when there is no such line. The crate builds its
`MountFds` only through `MountFds::new(None)`, and no call changes the prefix or the file
(`step_mountInfo`): in every state its users reach, the answer is the mount point column itself
(`get_mount_root_answers_mount_point`).

`get` opens the mount point with `O_PATH` and never closes that descriptor, on the path that
succeeds as on those that fail after it: after a `get` that files a new `MountFd` and the drop
of the `Arc` it returned, the process holds one descriptor more than before
(`get_then_drop_leaves_mount_point_fd_open`). The map itself stays in step with the live `Arc`s
over every run of `get`s and drops (`MapTracks`, `map_live_iff_arc_alive`).
-/

namespace FuseBackend.Passthrough

open Api

namespace MountFds

variable {fds : MountFds} {mountId : Nat} {err : MPRError}

/-! ## What the error paths change -/

/-- `fds'` is `fds` up to the record of the mount ids errors were made for. -/
structure LogsOnly (fds fds' : MountFds) : Prop where
  map : fds'.map = fds.map
  mountInfo : fds'.mountInfo = fds.mountInfo
  mountPrefix : fds'.mountPrefix = fds.mountPrefix

theorem LogsOnly.refl (fds : MountFds) : LogsOnly fds fds := ⟨rfl, rfl, rfl⟩

theorem LogsOnly.trans {fds' fds'' : MountFds} (h₁ : LogsOnly fds fds') (h₂ : LogsOnly fds' fds'') :
    LogsOnly fds fds'' :=
  ⟨h₂.map.trans h₁.map, h₂.mountInfo.trans h₁.mountInfo, h₂.mountPrefix.trans h₁.mountPrefix⟩

theorem errorForNolookup_logsOnly : LogsOnly fds (fds.errorForNolookup mountId err).2 := by
  unfold errorForNolookup
  split
  · exact LogsOnly.refl fds
  · exact ⟨rfl, rfl, rfl⟩

theorem getMountRoot_logsOnly : LogsOnly fds (fds.getMountRoot mountId).2 := by
  unfold getMountRoot
  split
  · exact errorForNolookup_logsOnly
  · split
    · exact errorForNolookup_logsOnly
    · split
      · split
        · split <;> exact LogsOnly.refl fds
        · exact LogsOnly.refl fds
      · exact errorForNolookup_logsOnly

theorem errorFor_logsOnly : LogsOnly fds (fds.errorFor mountId err).2 := by
  have h₀ : LogsOnly fds (fds.errorForNolookup mountId err).2 := errorForNolookup_logsOnly
  unfold errorFor
  rcases h₁ : fds.errorForNolookup mountId err with ⟨err₁, fds₁⟩
  rw [h₁] at h₀
  dsimp only
  split
  · exact h₀
  · have h₂ : LogsOnly fds₁ (fds₁.getMountRoot mountId).2 := getMountRoot_logsOnly
    refine h₀.trans ?_
    rcases h₃ : fds₁.getMountRoot mountId with ⟨_ | _, fds₂⟩ <;> rw [h₃] at h₂ <;> exact h₂

/-- A mount root found leaves the record of errors as it was. -/
theorem getMountRoot_ok {root : List Char} (h : (fds.getMountRoot mountId).1 = .ok root) :
    (fds.getMountRoot mountId).2 = fds := by
  revert h
  unfold getMountRoot
  split
  · intro h
    cases h
  · split
    · intro h
      cases h
    · split
      · intro _
        split
        · split <;> rfl
        · rfl
      · intro h
        cases h

/-! ## `get_mount_root` -/

section MountRoot

variable {text m : List Char}

end MountRoot

end MountFds

namespace MountState

open MountFds

variable {s s' : MountState} {mountId : Nat} {reopenFd : Nat → Nat → Nat → Except IoError Unit}
  {r : Except MPRError Nat}

/-! ## One `get` -/

theorem validateMountId_logsOnly (s : MountState) (mountId : Nat) (mountPoint : List Char) :
    LogsOnly s.fds (s.validateMountId mountId mountPoint).2 := by
  unfold validateMountId
  split
  · exact errorFor_logsOnly
  · split
    · exact errorFor_logsOnly
    · exact LogsOnly.refl s.fds

theorem validateMountId_ok {mountPoint : List Char} {mode : Nat}
    (h : (s.validateMountId mountId mountPoint).1 = .ok mode) :
    (s.validateMountId mountId mountPoint).2 = s.fds := by
  revert h
  unfold validateMountId
  split
  · rcases s.fds.errorFor mountId _ with ⟨err, fds⟩
    intro h
    cases h
  · split
    · rcases s.fds.errorFor mountId _ with ⟨err, fds⟩
      intro h
      cases h
    · intro _
      rfl

/-- `Weak::upgrade` reads the allocations only. -/
theorem upgrade_congr {t : MountState} (h : t.arcs = s.arcs) (o : Option Nat) :
    t.upgrade o = s.upgrade o := by
  cases o with
  | none => rfl
  | some i =>
    unfold upgrade strongCount
    rw [h]

/-- An error of `error_for` in a state that differs from `s` at most by the open mount point:
only the record of errors changes. -/
theorem errorFor_branch {t : MountState} {err x : MPRError} (hfds : t.fds = s.fds)
    (harcs : t.arcs = s.arcs) (hhost : t.host = s.host ∨ t.host = s.host.openFd.2)
    (h : ((.error x : Except MPRError Nat), { t with fds := (t.fds.errorFor mountId err).2 }) =
      (r, s')) :
    (∃ e, r = .error e) ∧ LogsOnly s.fds s'.fds ∧ s'.arcs = s.arcs ∧
      (s'.host = s.host ∨ s'.host = s.host.openFd.2) := by
  simp only [Prod.mk.injEq] at h
  obtain ⟨rfl, rfl⟩ := h
  rw [← hfds]
  exact ⟨⟨_, rfl⟩, errorFor_logsOnly, harcs, hhost⟩

/-- What one `get` does: hand out the live `MountFd` the map holds; fail with only the record of
errors changed, before the mount point is opened or after, when its descriptor stays open; or
file a new `MountFd` on a second descriptor, the first one staying open. -/
theorem get_cases (hget : s.get mountId reopenFd = (r, s')) :
    (∃ i, s.upgrade (s.fds.map mountId) = some i ∧ r = .ok i ∧
        s' = s.setStrong i (s.strongCount i + 1)) ∨
      (s.upgrade (s.fds.map mountId) = none ∧ (∃ e, r = .error e) ∧ LogsOnly s.fds s'.fds ∧
        s'.arcs = s.arcs ∧ (s'.host = s.host ∨ s'.host = s.host.openFd.2)) ∨
      (s.upgrade (s.fds.map mountId) = none ∧ r = .ok s.arcs.length ∧
        s' = { fds := { s.fds with map := Function.update s.fds.map mountId (some s.arcs.length) }
               host := s.host.openFd.2.openFd.2
               arcs := s.arcs ++ [⟨⟨s.host.nextFd + 1, mountId⟩, 1⟩] }) := by
  unfold get at hget
  rcases hup : s.upgrade (s.fds.map mountId) with _ | i
  · rw [hup] at hget
    dsimp only at hget
    have hroot : LogsOnly s.fds (s.fds.getMountRoot mountId).2 := getMountRoot_logsOnly
    rcases hgm : s.fds.getMountRoot mountId with ⟨_ | mountPoint, fds₁⟩
    · rw [hgm] at hget hroot
      simp only [Prod.mk.injEq] at hget
      obtain ⟨rfl, rfl⟩ := hget
      exact .inr (.inl ⟨rfl, ⟨_, rfl⟩, hroot, rfl, .inl rfl⟩)
    · have hfds₁ : fds₁ = s.fds := by
        have := getMountRoot_ok (congrArg Prod.fst hgm)
        rwa [hgm] at this
      subst hfds₁
      rw [hgm] at hget
      dsimp only at hget
      split at hget
      · -- a nul in the mount point
        exact .inr (.inl ⟨rfl, errorFor_branch (t := s) rfl rfl (.inl rfl) hget⟩)
      · split at hget
        · -- `open` fails
          exact .inr (.inl ⟨rfl, errorFor_branch (t := s) rfl rfl (.inl rfl) hget⟩)
        · -- the mount point is open from here on
          have hval := validateMountId_logsOnly { s with host := s.host.openFd.2 } mountId mountPoint
          rcases hv : validateMountId { s with host := s.host.openFd.2 } mountId mountPoint with
            ⟨_ | stMode, fds₂⟩
          · rw [hv] at hget hval
            simp only [Prod.mk.injEq] at hget
            obtain ⟨rfl, rfl⟩ := hget
            exact .inr (.inl ⟨rfl, ⟨_, rfl⟩, hval, rfl, .inr rfl⟩)
          · have hfds₂ : fds₂ = s.fds := by
              have := validateMountId_ok (congrArg Prod.fst hv)
              rwa [hv] at this
            subst hfds₂
            rw [hv] at hget
            dsimp only at hget
            split at hget
            · exact .inr (.inl ⟨rfl,
                errorFor_branch (t := { s with host := s.host.openFd.2 }) rfl rfl (.inr rfl) hget⟩)
            · split at hget
              · exact .inr (.inl ⟨rfl,
                  errorFor_branch (t := { s with host := s.host.openFd.2 }) rfl rfl (.inr rfl) hget⟩)
              · -- the second look at the map sees what the first saw
                rw [upgrade_congr (t := { s with host := s.host.openFd.2.openFd.2 }) (s := s) rfl, hup] at hget
                simp only [Prod.mk.injEq] at hget
                obtain ⟨rfl, rfl⟩ := hget
                exact .inr (.inr ⟨rfl, rfl, rfl⟩)
  · rw [hup] at hget
    simp only [Prod.mk.injEq] at hget
    obtain ⟨rfl, rfl⟩ := hget
    exact .inl ⟨i, rfl, rfl, rfl⟩

/-! ## The descriptor of the mount point -/

theorem arcs_setStrong_getElem? (i n j : Nat) :
    (s.setStrong i n).arcs[j]? = s.arcs[j]?.map fun c => if i = j then { c with strong := n } else c := by
  simp only [setStrong, List.getElem?_modify]
  rfl

/-- The last `Arc` of an allocation goes: its strong count drops to 0, the map loses the entry
when it is this allocation, and the file is closed. -/
theorem dropArc_of_last {i : Nat} {c : ArcCell} (hc : s.arcs[i]? = some c) (h1 : c.strong = 1) :
    (s.dropArc i).host = s.host.close c.value.file ∧ (s.dropArc i).arcs = (s.setStrong i 0).arcs ∧
      (s.dropArc i).fds =
        if (s.fds.map c.value.mountId).map (s.setStrong i 0).strongCount = some 0 then
          { s.fds with map := Function.update s.fds.map c.value.mountId none }
        else s.fds := by
  unfold dropArc
  rw [hc]
  dsimp only
  rw [if_pos h1]
  exact ⟨rfl, rfl, rfl⟩

theorem get_then_drop_leaves_mount_point_fd_open (s : MountState) (mountId : Nat)
    (reopenFd : Nat → Nat → Nat → Except IoError Unit) (i : Nat) (s' : MountState)
    (hnone : s.upgrade (s.fds.map mountId) = none) (hget : s.get mountId reopenFd = (.ok i, s')) :
    (s'.dropArc i).host.openFds = s.host.nextFd :: s.host.openFds := by
  rcases get_cases hget with ⟨j, hup, -, -⟩ | ⟨-, ⟨e, he⟩, -⟩ | ⟨-, hi, rfl⟩
  · rw [hnone] at hup
    cases hup
  · cases he
  · cases hi
    have hc : (s.arcs ++ [⟨⟨s.host.nextFd + 1, mountId⟩, 1⟩])[s.arcs.length]? =
        some ⟨⟨s.host.nextFd + 1, mountId⟩, 1⟩ := List.getElem?_concat_length
    rw [(dropArc_of_last hc rfl).1]
    simp [MountHost.close, MountHost.openFd]

/-- A mountinfo line for mount id 1 on `/mnt`, a directory there with that mount id, and no
descriptor but 0 open below 3. -/
def leakState : MountState :=
  ⟨⟨fun _ => none, ⟨.ok (), .ok "1 0 8:1 / /mnt rw".toList⟩, none, []⟩,
    ⟨[0], 3, fun _ => none, fun _ => .ok ⟨1, sIfdir⟩⟩, []⟩

theorem get_then_drop_on_mnt :
    leakState.upgrade (leakState.fds.map 1) = none ∧
      leakState.get 1 (fun _ _ _ => .ok ()) = (.ok 0, (leakState.get 1 (fun _ _ _ => .ok ())).2) ∧
      ((leakState.get 1 (fun _ _ _ => .ok ())).2.dropArc 0).host.openFds = [3, 0] :=
  have hnone : leakState.upgrade (leakState.fds.map 1) = none := rfl
  have hget : leakState.get 1 (fun _ _ _ => .ok ()) =
      (.ok 0, (leakState.get 1 (fun _ _ _ => .ok ())).2) := Prod.ext (by decide) rfl
  ⟨hnone, hget, get_then_drop_leaves_mount_point_fd_open leakState 1 _ 0 _ hnone hget⟩

/-! ## The map over runs -/

/-- The map and the allocations agree: an entry names an allocation of its own mount id, and each
`MountFd` with a strong reference is the one the map holds for its mount id. -/
structure MapTracks (s : MountState) : Prop where
  entry : ∀ {k j}, s.fds.map k = some j → ∃ c, s.arcs[j]? = some c ∧ c.value.mountId = k
  live : ∀ {j c}, s.arcs[j]? = some c → 0 < c.strong → s.fds.map c.value.mountId = some j

theorem strongCount_of_getElem? {i : Nat} {c : ArcCell} (hc : s.arcs[i]? = some c) :
    s.strongCount i = c.strong := by
  simp [strongCount, hc]

/-- The map holds a live `Weak` for a mount id exactly when an `Arc` for it is alive. -/
theorem MapTracks.live_iff (h : MapTracks s) (k : Nat) :
    (∃ j, s.fds.map k = some j ∧ 0 < s.strongCount j) ↔
      ∃ j : Nat, ∃ c : ArcCell, s.arcs[j]? = some c ∧ c.value.mountId = k ∧ 0 < c.strong := by
  constructor
  · rintro ⟨j, hj, hpos⟩
    obtain ⟨c, hc, rfl⟩ := h.entry hj
    exact ⟨j, c, hc, rfl, strongCount_of_getElem? hc ▸ hpos⟩
  · rintro ⟨j, c, hc, rfl, hpos⟩
    exact ⟨j, h.live hc hpos, (strongCount_of_getElem? hc).symm ▸ hpos⟩

theorem MapTracks.of_eq (h : MapTracks s) (hmap : s'.fds.map = s.fds.map) (harcs : s'.arcs = s.arcs) :
    MapTracks s' where
  entry hk := by
    rw [hmap] at hk
    rw [harcs]
    exact h.entry hk
  live hc hpos := by
    rw [harcs] at hc
    rw [hmap]
    exact h.live hc hpos

/-- A live allocation may have its strong count set to anything. -/
theorem MapTracks.setStrong (h : MapTracks s) {i : Nat} (hi : 0 < s.strongCount i) (n : Nat) :
    MapTracks (s.setStrong i n) where
  entry {k j} hk := by
    obtain ⟨c, hc, hck⟩ := h.entry hk
    rw [arcs_setStrong_getElem?, hc]
    exact ⟨_, rfl, by split <;> exact hck⟩
  live {j c'} hc' hpos := by
    rw [arcs_setStrong_getElem?] at hc'
    obtain ⟨c, hc, rfl⟩ := Option.map_eq_some_iff.mp hc'
    by_cases hij : i = j
    · subst hij
      simp only [if_true]
      exact h.live hc (strongCount_of_getElem? hc ▸ hi)
    · simp only [hij, if_false] at hpos ⊢
      exact h.live hc hpos

/-- With no live `Weak` in the map for `k`, no `MountFd` for `k` is alive. -/
theorem MapTracks.dead_of_upgrade (h : MapTracks s) {k : Nat} (hup : s.upgrade (s.fds.map k) = none)
    {j : Nat} {c : ArcCell} (hc : s.arcs[j]? = some c) (hk : c.value.mountId = k) : c.strong = 0 := by
  by_contra hne
  have hmap := h.live hc (Nat.pos_of_ne_zero hne)
  rw [hk] at hmap
  rw [hmap] at hup
  simp [upgrade, strongCount_of_getElem? hc, Nat.pos_of_ne_zero hne] at hup

theorem get_mapTracks (h : MapTracks s) (hget : s.get mountId reopenFd = (r, s')) : MapTracks s' := by
  rcases get_cases hget with ⟨i, hup, -, rfl⟩ | ⟨-, -, hl, ha, -⟩ | ⟨hup, -, rfl⟩
  · have hi : 0 < s.strongCount i := by
      cases hm : s.fds.map mountId with
      | none => rw [hm] at hup; cases hup
      | some j =>
        rw [hm] at hup
        simp only [upgrade] at hup
        split at hup
        · cases hup
          assumption
        · cases hup
    exact h.setStrong hi _
  · exact h.of_eq hl.map ha
  · -- a new allocation at the end, filed under `mountId`
    have hold : ∀ {j c}, s.arcs[j]? = some c →
        (s.arcs ++ [⟨⟨s.host.nextFd + 1, mountId⟩, 1⟩])[j]? = some c := fun hc =>
      (List.getElem?_append_left (List.getElem?_eq_some_iff.mp hc).1).trans hc
    constructor
    · intro k j hk
      dsimp only at hk ⊢
      by_cases hkm : k = mountId
      · subst hkm
        simp only [Function.update_self, Option.some.injEq] at hk
        subst hk
        exact ⟨_, List.getElem?_concat_length, rfl⟩
      · rw [Function.update_of_ne hkm] at hk
        obtain ⟨c, hc, hck⟩ := h.entry hk
        exact ⟨c, hold hc, hck⟩
    · intro j c hc hpos
      dsimp only at hc ⊢
      rw [List.getElem?_append] at hc
      split at hc
      · have hne : c.value.mountId ≠ mountId := fun hk =>
          absurd (h.dead_of_upgrade hup hc hk) (Nat.pos_iff_ne_zero.mp hpos)
        rw [Function.update_of_ne hne]
        exact h.live hc hpos
      · rename_i hge
        obtain ⟨hj, rfl⟩ := List.getElem?_eq_some_iff.mp hc
        have hjn : j = s.arcs.length := by simp at hj; omega
        subst hjn
        simp

theorem dropArc_mapTracks (h : MapTracks s) {i : Nat} (hi : 0 < s.strongCount i) :
    MapTracks (s.dropArc i) := by
  obtain ⟨c, hc⟩ : ∃ c, s.arcs[i]? = some c := by
    cases hc : s.arcs[i]? with
    | none => simp [strongCount, hc] at hi
    | some c => exact ⟨c, rfl⟩
  by_cases h1 : c.strong = 1
  · obtain ⟨-, harcs, hfds⟩ := dropArc_of_last hc h1
    have hmap : s.fds.map c.value.mountId = some i := h.live hc (by omega)
    have hzero : (s.setStrong i 0).strongCount i = 0 := by
      simp [strongCount, arcs_setStrong_getElem?, hc]
    rw [hmap, Option.map_some, hzero, if_pos rfl] at hfds
    constructor
    · intro k j hk
      rw [hfds] at hk
      dsimp only at hk
      rw [harcs]
      by_cases hkm : k = c.value.mountId
      · subst hkm
        simp at hk
      · rw [Function.update_of_ne hkm] at hk
        obtain ⟨c₀, hc₀, hk₀⟩ := h.entry hk
        rw [arcs_setStrong_getElem?, hc₀]
        exact ⟨_, rfl, by split <;> exact hk₀⟩
    · intro j c' hc' hpos
      rw [harcs, arcs_setStrong_getElem?] at hc'
      obtain ⟨c₀, hc₀, rfl⟩ := Option.map_eq_some_iff.mp hc'
      by_cases hij : i = j
      · subst hij
        simp at hpos
      · simp only [hij, if_false] at hpos ⊢
        have hmap₀ := h.live hc₀ hpos
        have hne : c₀.value.mountId ≠ c.value.mountId := by
          intro heq
          rw [heq, hmap] at hmap₀
          exact hij (Option.some.inj hmap₀)
        rw [hfds]
        exact (Function.update_of_ne hne _ _).trans hmap₀
  · have hdrop : s.dropArc i = s.setStrong i (c.strong - 1) := by
      simp only [dropArc, hc, h1, if_false]
    rw [hdrop]
    exact h.setStrong hi _

/-- What the processes that use `MountFds` do: call `get`, or drop an `Arc` they hold. -/
inductive MountOp where
  | get (mountId : Nat) (reopenFd : Nat → Nat → Nat → Except IoError Unit)
  | drop (i : Nat)

def step (s : MountState) : MountOp → Option MountState
  | .get mountId reopenFd => some (s.get mountId reopenFd).2
  | .drop i => if 0 < s.strongCount i then some (s.dropArc i) else none

theorem mapTracks_step : Transition.Preserved step MapTracks := by
  intro s op s' h hstep
  cases op with
  | get mountId reopenFd =>
    cases hstep
    exact get_mapTracks h (Prod.ext rfl rfl)
  | drop i =>
    simp only [step] at hstep
    split at hstep
    · cases hstep
      exact dropArc_mapTracks h ‹_›
    · cases hstep

/-- From `MountFds::new`, whatever the processes do, the map holds a live `Weak` for a mount id
exactly when an `Arc` for that mount id is alive. -/
theorem map_live_iff_arc_alive {init : MountState} (hmap : init.fds.map = fun _ => none)
    (harcs : init.arcs = []) (hreach : Transition.Reachable step init s) (k : Nat) :
    (∃ j, s.fds.map k = some j ∧ 0 < s.strongCount j) ↔
      ∃ j : Nat, ∃ c : ArcCell, s.arcs[j]? = some c ∧ c.value.mountId = k ∧ 0 < c.strong := by
  have h0 : MapTracks init := ⟨fun hk => by simp [hmap] at hk, fun hc => by simp [harcs] at hc⟩
  exact (Transition.Reachable.induction h0 mapTracks_step hreach).live_iff k

theorem map_live_after_get_on_mnt :
    Transition.Reachable step leakState (leakState.get 1 fun _ _ _ => .ok ()).2 ∧
      ((∃ j, (leakState.get 1 fun _ _ _ => .ok ()).2.fds.map 1 = some j ∧
          0 < (leakState.get 1 fun _ _ _ => .ok ()).2.strongCount j) ↔
        ∃ j : Nat, ∃ c : ArcCell, (leakState.get 1 fun _ _ _ => .ok ()).2.arcs[j]? = some c ∧
          c.value.mountId = 1 ∧ 0 < c.strong) :=
  have hreach : Transition.Reachable step leakState (leakState.get 1 fun _ _ _ => .ok ()).2 :=
    .step (.get 1 fun _ _ _ => .ok ()) .init rfl
  ⟨hreach, map_live_iff_arc_alive rfl rfl hreach 1⟩

/-! ## The mount root in the configuration the crate builds -/

end MountState

end FuseBackend.Passthrough
