import Mathlib.Order.Interval.Finset.Nat
import FuseBackend.Passthrough.Verify.StableInode

/-!
# The numbers the unique-inode generator hands out

`get_unique_inode` packs a small id of the `(dev, mnt_id)` pair into bits 47 to 54 and, below
them, the host inode number, or for a host number above `MAX_HOST_INO` a virtual number with bit
55 set. Over every sequence of calls from `new` (`issue`), the run invariant `Issued` holds
(`Issued.step`, `Issued.issue`): every number it handed out lies in its format, within
`VFS_MAX_INO`, host numbers are one-to-one with their ids and apart from the virtual ones, and the
virtual ones are pairwise distinct. The two counters stop, with an error, before a field spills
into its neighbour.
-/

namespace FuseBackend.Passthrough

open Api

namespace UniqueInodeGenerator

variable {g g' : UniqueInodeGenerator} {id : InodeId} {r : Except IoError Nat}

/-- `get_unique_inode` called on each id of `ids` in turn: the numbers it handed out, with their
ids, and the generator. -/
def issue (g : UniqueInodeGenerator) : List InodeId → List (InodeId × Nat) × UniqueInodeGenerator
  | [] => ([], g)
  | id :: ids =>
    match g.getUniqueInode id with
    | (.ok k, g) => let (log, g) := issue g ids; ((id, k) :: log, g)
    | (.error _, g) => issue g ids

/-- Every small id from 1 below the next one belongs to a pair. -/
def IdsOnto (g : UniqueInodeGenerator) : Prop :=
  ∀ v, 1 ≤ v → v < g.nextUniqueId → ∃ p, g.devMntidMap p = some v

/-- What the generator has handed out: the small ids are exactly those below the next one, and
every number in `log` is built from its pair's small id and, for a host number up to
`MAX_HOST_INO`, the host number, or else a virtual number below the next one, each once. -/
structure Issued (g : UniqueInodeGenerator) (log : List (InodeId × Nat)) : Prop where
  wf : g.Wf
  ids_onto : g.IdsOnto
  host : ∀ x ∈ log, x.1.ino ≤ maxHostIno →
    ∃ u, g.devMntidMap (x.1.dev, x.1.mnt) = some u ∧ x.2 = u <<< 47 ||| x.1.ino
  virtual : ∀ x ∈ log, maxHostIno < x.1.ino →
    ∃ u v, 1 ≤ u ∧ u < 255 ∧ v < g.nextVirtualInode ∧ x.2 = u <<< 47 ||| (v ||| virtualInodeFlag)
  virtual_nodup : ((log.filter fun x => maxHostIno < x.1.ino).map Prod.snd).Nodup
  virtual_count : (log.filter fun x => maxHostIno < x.1.ino).length + (rootId + 1) ≤ g.nextVirtualInode

theorem issued_new : Issued new [] where
  wf := wf_new
  ids_onto _ h h' := absurd h' (by simp [new]; omega)
  host _ h := by cases h
  virtual _ h := by cases h
  virtual_nodup := List.nodup_nil
  virtual_count := le_refl _

/-- A pair without a small id gets the next one. -/
theorem uniqueIdOf_idsOnto {p : Nat × Nat} {v : Nat} {g₁ : UniqueInodeGenerator} (hon : g.IdsOnto)
    (hu : g.uniqueIdOf p = .ok (v, g₁)) : g₁.IdsOnto := by
  simp only [uniqueIdOf] at hu
  split at hu
  · cases hu
    exact hon
  · rename_i hnone
    split at hu
    · cases hu
    · cases hu
      intro w h1 hw
      by_cases hlast : w = g.nextUniqueId
      · exact ⟨p, by simp [hlast]⟩
      · obtain ⟨q, hq⟩ := hon w h1 (by simp only at hw; omega)
        have hne : q ≠ p := by
          rintro rfl
          rw [hnone] at hq
          cases hq
        exact ⟨q, by simpa [Function.update_of_ne hne] using hq⟩

theorem getUniqueInode_idsOnto (hon : g.IdsOnto) (hg : g.getUniqueInode id = (r, g')) :
    g'.IdsOnto := by
  rcases getUniqueInode_cases hg with ⟨rfl, -⟩ | ⟨v, g₁, hu, hcase⟩
  · exact hon
  · have hon₁ := uniqueIdOf_idsOnto hon hu
    rcases hcase with ⟨-, rfl, -⟩ | ⟨-, -, rfl, -⟩ | ⟨-, -, rfl, -⟩
    · exact hon₁
    · exact hon₁
    · exact hon₁

/-- The virtual number a number is built from is its low 47 bits. -/
theorem virtual_mod {u v : Nat} (hu : u < 256) (hv : v < 2 ^ 47) :
    (u <<< 47 ||| (v ||| virtualInodeFlag)) % 2 ^ 47 = v := by
  rw [virtual_eq hu hv, Nat.mul_add_mod_self_right, Nat.mod_eq_of_lt hv]

/-- A virtual number handed out before the counter's value is not the one built from it. -/
theorem virtual_not_mem {log : List (InodeId × Nat)} {u : Nat} (hu : u < 255)
    (hnext : g.nextVirtualInode ≤ maxHostIno)
    (hvirt : ∀ x ∈ log, maxHostIno < x.1.ino →
      ∃ u v, 1 ≤ u ∧ u < 255 ∧ v < g.nextVirtualInode ∧ x.2 = u <<< 47 ||| (v ||| virtualInodeFlag)) :
    u <<< 47 ||| (g.nextVirtualInode ||| virtualInodeFlag) ∉
      (log.filter fun x => maxHostIno < x.1.ino).map Prod.snd := by
  intro hmem
  obtain ⟨x, hx, hk⟩ := List.mem_map.mp hmem
  obtain ⟨hxl, hxi⟩ := List.mem_filter.mp hx
  obtain ⟨u', v', -, hu', hv', hx2⟩ := hvirt x hxl (of_decide_eq_true hxi)
  have hlt : g.nextVirtualInode < 2 ^ 47 := by rw [maxHostIno_eq] at hnext; omega
  have hmod := congrArg (· % 2 ^ 47) (hx2.symm.trans hk)
  rw [virtual_mod (by omega) (by omega), virtual_mod (by omega) hlt] at hmod
  omega

section Step

variable {log : List (InodeId × Nat)}

/-- A call keeps every number handed out before it in the format of the generator after it. -/
theorem Issued.grow (hs : Issued g log) (hg : g.getUniqueInode id = (r, g')) : Issued g' log := by
  obtain ⟨hmap, hvirt, hwf⟩ := getUniqueInode_grows hg
  refine ⟨hwf hs.wf, getUniqueInode_idsOnto hs.ids_onto hg, fun x hx hi => ?_, fun x hx hi => ?_,
    hs.virtual_nodup, by have := hs.virtual_count; omega⟩
  · obtain ⟨u, hu, hk⟩ := hs.host x hx hi
    exact ⟨u, hmap hu, hk⟩
  · obtain ⟨u, v, h1, h255, hv, hk⟩ := hs.virtual x hx hi
    exact ⟨u, v, h1, h255, by omega, hk⟩

/-- A host number joins the log and leaves the virtual ones as they were. -/
theorem Issued.snoc_host {u : Nat} (hs : Issued g log) (hi : id.ino ≤ maxHostIno)
    (hu : g.devMntidMap (id.dev, id.mnt) = some u) : Issued g (log ++ [(id, u <<< 47 ||| id.ino)]) := by
  have hnot : ¬maxHostIno < id.ino := Nat.not_lt.mpr hi
  have hfilter : (log ++ [(id, u <<< 47 ||| id.ino)]).filter (fun x => maxHostIno < x.1.ino) =
      log.filter fun x => maxHostIno < x.1.ino := by
    simp only [List.filter_append, List.filter_singleton, hnot, decide_false, cond_false,
      List.append_nil]
  refine ⟨hs.wf, hs.ids_onto, fun x hx hxi => ?_, fun x hx hxi => ?_, ?_, ?_⟩
  · rcases List.mem_append.mp hx with hx | hx
    · exact hs.host x hx hxi
    · rw [List.mem_singleton.mp hx]
      exact ⟨u, hu, rfl⟩
  · rcases List.mem_append.mp hx with hx | hx
    · exact hs.virtual x hx hxi
    · rw [List.mem_singleton.mp hx] at hxi
      exact absurd hxi hnot
  · rw [hfilter]
    exact hs.virtual_nodup
  · rw [hfilter]
    exact hs.virtual_count

/-- A virtual number built from the old counter joins the log of a generator whose counter has
moved past it. -/
theorem Issued.snoc_virtual {u : Nat} (hs : Issued g log) (hs' : Issued g' log)
    (hgt : maxHostIno < id.ino) (hu : g'.devMntidMap (id.dev, id.mnt) = some u)
    (hle : g.nextVirtualInode ≤ maxHostIno) (hnext : g'.nextVirtualInode = g.nextVirtualInode + 1) :
    Issued g' (log ++ [(id, u <<< 47 ||| (g.nextVirtualInode ||| virtualInodeFlag))]) := by
  have hfilter : (log ++ [(id, u <<< 47 ||| (g.nextVirtualInode ||| virtualInodeFlag))]).filter
      (fun x => maxHostIno < x.1.ino) =
      log.filter (fun x => maxHostIno < x.1.ino) ++
        [(id, u <<< 47 ||| (g.nextVirtualInode ||| virtualInodeFlag))] := by
    simp only [List.filter_append, List.filter_singleton, hgt, decide_true, cond_true]
  refine ⟨hs'.wf, hs'.ids_onto, fun x hx hxi => ?_, fun x hx hxi => ?_, ?_, ?_⟩
  · rcases List.mem_append.mp hx with hx | hx
    · exact hs'.host x hx hxi
    · rw [List.mem_singleton.mp hx] at hxi
      exact absurd hgt (Nat.not_lt.mpr hxi)
  · rcases List.mem_append.mp hx with hx | hx
    · exact hs'.virtual x hx hxi
    · rw [List.mem_singleton.mp hx]
      exact ⟨u, g.nextVirtualInode, hs'.wf.map_pos hu, hs'.wf.map_lt_255 hu, by omega, rfl⟩
  · rw [hfilter, List.map_append, List.map_singleton]
    refine List.nodup_append.mpr ⟨hs.virtual_nodup, List.nodup_singleton _, fun a ha b hb => ?_⟩
    rw [List.mem_singleton.mp hb]
    rintro rfl
    exact virtual_not_mem (hs'.wf.map_lt_255 hu) hle hs.virtual ha
  · have := hs.virtual_count
    rw [hfilter, List.length_append, List.length_singleton]
    omega

/-- One call keeps what the generator has handed out, with the number it hands out now. -/
theorem Issued.step (hs : Issued g log) (hg : g.getUniqueInode id = (r, g')) :
    Issued g' (log ++ match r with | .ok k => [(id, k)] | .error _ => []) := by
  have hs' := hs.grow hg
  cases r with
  | error e => simpa only [List.append_nil] using hs'
  | ok k =>
    by_cases hi : id.ino ≤ maxHostIno
    · obtain ⟨u, hu, rfl⟩ := getUniqueInode_of_le hg hi
      exact hs'.snoc_host hi hu
    · obtain ⟨u, hu, hle, hnext, rfl⟩ := getUniqueInode_of_gt hg (by omega)
      exact hs.snoc_virtual hs' (by omega) hu hle hnext

end Step

/-- The run: what the generator has handed out over a sequence of calls. -/
theorem Issued.issue {log : List (InodeId × Nat)} (hs : Issued g log) (ids : List InodeId) :
    Issued (issue g ids).2 (log ++ (issue g ids).1) := by
  induction ids generalizing g log with
  | nil => simpa [UniqueInodeGenerator.issue] using hs
  | cons id ids ih =>
    rcases hg : g.getUniqueInode id with ⟨_ | k, g₁⟩
    · have h₁ := hs.step hg
      simp only [List.append_nil] at h₁
      simpa [UniqueInodeGenerator.issue, hg] using ih h₁
    · simpa [UniqueInodeGenerator.issue, hg] using ih (hs.step hg)

/-! ## What a run hands out -/

section Issued

variable {log : List (InodeId × Nat)} {x y : InodeId × Nat}

theorem Issued.host_eq (hs : Issued g log) (hx : x ∈ log) (hi : x.1.ino ≤ maxHostIno) :
    ∃ u, g.devMntidMap (x.1.dev, x.1.mnt) = some u ∧ 1 ≤ u ∧ u < 255 ∧ x.1.ino < 2 ^ 47 ∧
      x.2 = u * 2 ^ 47 + x.1.ino := by
  obtain ⟨u, hu, hk⟩ := hs.host x hx hi
  have hlt : x.1.ino < 2 ^ 47 := by rw [maxHostIno_eq] at hi; omega
  exact ⟨u, hu, hs.wf.map_pos hu, hs.wf.map_lt_255 hu, hlt, hk.trans (pack_eq hlt)⟩

/-- A host number has its small id from 1 up in bits 47 to 54 and nothing at bit 55. -/
theorem Issued.host_range (hs : Issued g log) (hx : x ∈ log) (hi : x.1.ino ≤ maxHostIno) :
    2 ^ 47 ≤ x.2 ∧ x.2 < 255 * 2 ^ 47 := by
  obtain ⟨u, -, h1, h255, hlt, hk⟩ := hs.host_eq hx hi
  omega

/-- A virtual number has bit 55 set and stays within 56 bits. -/
theorem Issued.virtual_range (hs : Issued g log) (hx : x ∈ log) (hi : maxHostIno < x.1.ino) :
    256 * 2 ^ 47 ≤ x.2 ∧ x.2 ≤ vfsMaxIno := by
  obtain ⟨u, v, -, h255, hv, hk⟩ := hs.virtual x hx hi
  have hvlt : v < 2 ^ 47 := by have := hs.wf.virtual_le; rw [maxHostIno_eq] at this; omega
  rw [hk, virtual_eq (by omega) hvlt, vfsMaxIno]
  omega

/-- Host numbers of one id are one number, and of two ids two numbers. -/
theorem Issued.host_eq_iff (hs : Issued g log) (hx : x ∈ log) (hy : y ∈ log)
    (hxi : x.1.ino ≤ maxHostIno) (hyi : y.1.ino ≤ maxHostIno) : x.2 = y.2 ↔ x.1 = y.1 := by
  obtain ⟨u, hu, -, -, hxlt, hxk⟩ := hs.host_eq hx hxi
  obtain ⟨w, hw, -, -, hylt, hyk⟩ := hs.host_eq hy hyi
  constructor
  · intro hk
    have huw : u = w := by omega
    have hino : x.1.ino = y.1.ino := by omega
    subst huw
    have hpair := hs.wf.map_inj hu hw
    obtain ⟨⟨xi, xd, xm⟩, xk⟩ := x
    obtain ⟨⟨yi, yd, ym⟩, yk⟩ := y
    simp only [Prod.mk.injEq] at hpair hino
    rw [hino, hpair.1, hpair.2]
  · intro hid
    rw [hid, hw] at hu
    rw [hxk, hyk, Option.some.inj hu, hid]

end Issued

/-- With every small id below 255 taken, at most 254 pairs have one. -/
theorem Wf.card_le (hw : g.Wf) (S : Finset (Nat × Nat)) (hS : ∀ p ∈ S, g.devMntidMap p ≠ none) :
    S.card ≤ g.nextUniqueId - 1 := by
  have hmaps : ∀ p ∈ S, (g.devMntidMap p).getD 0 ∈ Finset.Ico 1 g.nextUniqueId := by
    intro p hp
    obtain ⟨v, hv⟩ := Option.ne_none_iff_exists'.mp (hS p hp)
    rw [hv, Option.getD_some, Finset.mem_Ico]
    exact ⟨hw.map_pos hv, hw.map_lt hv⟩
  have hinj : Set.InjOn (fun p => (g.devMntidMap p).getD 0) S := by
    intro p hp q hq hpq
    obtain ⟨v, hv⟩ := Option.ne_none_iff_exists'.mp (hS p hp)
    obtain ⟨w, hw'⟩ := Option.ne_none_iff_exists'.mp (hS q hq)
    simp only [hv, hw', Option.getD_some] at hpq
    subst hpq
    exact hw.map_inj hv hw'
  calc S.card ≤ (Finset.Ico 1 g.nextUniqueId).card := Finset.card_le_card_of_injOn _ hmaps hinj
    _ = g.nextUniqueId - 1 := Nat.card_Ico _ _

/-- With the small ids used up, a new pair fails and leaves the generator. -/
theorem getUniqueInode_of_full (hn : g.nextUniqueId = 255) (hp : g.devMntidMap (id.dev, id.mnt) = none) :
    g.getUniqueInode id =
      (.error (.custom .other "the number of combinations of dev and mntid exceeds 255"), g) := by
  simp [getUniqueInode, uniqueIdOf, hp, hn]

/-- With the virtual numbers used up, a host number above `MAX_HOST_INO` fails. -/
theorem getUniqueInode_error_of_virtual_full (hv : maxHostIno < g.nextVirtualInode)
    (hi : maxHostIno < id.ino) : ∃ e, (g.getUniqueInode id).1 = .error e := by
  rcases hg : g.getUniqueInode id with ⟨_ | k, g'⟩
  · exact ⟨_, rfl⟩
  · obtain ⟨-, -, hle, -⟩ := getUniqueInode_of_gt hg hi
    omega

theorem get_unique_inode_never_collides (ids : List InodeId) :
    let log := (issue new ids).1
    let g := (issue new ids).2
    (∀ x ∈ log, 2 ^ 47 ≤ x.2 ∧ x.2 ≤ vfsMaxIno) ∧
    (∀ x ∈ log, ∀ y ∈ log, x.1.ino ≤ maxHostIno → y.1.ino ≤ maxHostIno → (x.2 = y.2 ↔ x.1 = y.1)) ∧
    (∀ x ∈ log, x.1.ino ≤ maxHostIno → g.getUniqueInode x.1 = (.ok x.2, g)) ∧
    (∀ x ∈ log, ∀ y ∈ log, x.1.ino ≤ maxHostIno → maxHostIno < y.1.ino → x.2 ≠ y.2) ∧
    ((log.filter fun x => maxHostIno < x.1.ino).map Prod.snd).Nodup ∧
    (∀ S : Finset (Nat × Nat), (∀ p ∈ S, g.devMntidMap p ≠ none) → S.card ≤ 254) ∧
    (∀ S : Finset (Nat × Nat), (∀ p ∈ S, g.devMntidMap p ≠ none) → S.card = 254 →
      ∀ id, g.devMntidMap (id.dev, id.mnt) = none →
        g.getUniqueInode id =
          (.error (.custom .other "the number of combinations of dev and mntid exceeds 255"), g)) ∧
    (log.filter fun x => maxHostIno < x.1.ino).length ≤ maxHostIno - 1 ∧
    ((log.filter fun x => maxHostIno < x.1.ino).length = maxHostIno - 1 →
      ∀ id, maxHostIno < id.ino → ∃ e, (g.getUniqueInode id).1 = .error e) := by
  intro log g
  have hs : Issued g log := by simpa using issued_new.issue ids
  have hcount := hs.virtual_count
  have hvle := hs.wf.virtual_le
  refine ⟨fun x hx => ?_, fun x hx y hy => hs.host_eq_iff hx hy, fun x hx hi => ?_,
    fun x hx y hy hxi hyi => ?_,
    hs.virtual_nodup, fun S hS => ?_, fun S hS hcard id hp => ?_, by simp only [rootId] at hcount; omega,
    fun hfull id hi => getUniqueInode_error_of_virtual_full (by simp only [rootId] at hcount; omega) hi⟩
  · by_cases hi : x.1.ino ≤ maxHostIno
    · have := hs.host_range hx hi
      exact ⟨this.1, by rw [vfsMaxIno]; omega⟩
    · have := hs.virtual_range hx (by omega)
      exact ⟨by omega, this.2⟩
  · -- a host number asked for again comes back from its pair's small id, unchanged
    obtain ⟨u, hu, hk⟩ := hs.host x hx hi
    rw [hk]
    exact getUniqueInode_of_map hu hi
  · have := hs.host_range hx hxi
    have := hs.virtual_range hy hyi
    omega
  · have := hs.wf.card_le S hS
    have := hs.wf.next_le
    omega
  · have := hs.wf.card_le S hS
    have := hs.wf.next_le
    exact getUniqueInode_of_full (by omega) hp

end UniqueInodeGenerator

end FuseBackend.Passthrough
