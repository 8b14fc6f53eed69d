import FuseBackend.Api.Vfs

/-!
# The id mapping of `Vfs` on `u32` ids

The model computes `remap_attr_id`, `convert_entry` and `id_remap` with wrapping `u32`
arithmetic, as a release build does; `remapAttrIdChecked` and `idRemapChecked` are the same code
in a debug build, where an overflow panics. With wrapping arithmetic, mapping an internal id out and back
restores it as long as neither interval wraps (`remapAttrId_back`). Without wrapping, the
mapping cannot be used in both directions: the offset `external - internal` or its opposite
underflows as soon as an id of the interval it moves is mapped (`id_mapping_overflows`).
-/

namespace FuseBackend.Api

namespace Vfs

open RangeShift

variable {β : Type}

/-! ## One id -/

/-- The first id of an interval that moves down overflows: `dst - src` underflows, or
`src + range` already did. -/
theorem remapIdChecked_self_of_lt {s d r : UInt32} (hr : 0 < r) (hds : d < s) :
    remapIdChecked s d r s = none := by
  rw [UInt32.lt_iff_toNat_lt] at hr hds
  simp only [remapIdChecked, Option.map_eq_none_iff, shiftChecked_eq_none_iff]
  omega

/-- With wrapping arithmetic, the shift back undoes the shift of an id of the interval when
neither `src + range` nor `dst + range` wraps. -/
theorem shift_back_of_bounds {s d r x : UInt32} (hs : s.toNat + r.toNat < 2 ^ 32)
    (hd : d.toNat + r.toNat < 2 ^ 32) (hx : InRange s r x) : shift d s r (shift s d r x) = x := by
  apply shift_shift_back hx
  have hxlt := x.toNat_lt
  unfold InRange at hx ⊢
  simp only [UInt32.le_iff_toNat_le, UInt32.lt_iff_toNat_lt, UInt32.toNat_add,
    UInt32.toNat_sub] at hx ⊢
  omega

/-! ## The three functions -/

/-- Out and back restores every id of `[internal, internal + range)`, with wrapping arithmetic
and intervals that do not wrap. -/
theorem remapAttrId_back {v : Vfs β} {i e r : UInt32} (hm : v.idMapping = some (i, e, r))
    (hi : i.toNat + r.toNat < 2 ^ 32) (he : e.toNat + r.toNat < 2 ^ 32) (attr : Stat64) :
    (InRange i r attr.stUid → (v.remapAttrId false (v.remapAttrId true attr)).stUid = attr.stUid) ∧
      (InRange i r attr.stGid →
        (v.remapAttrId false (v.remapAttrId true attr)).stGid = attr.stGid) := by
  simp only [remapAttrId, hm, if_true, Bool.false_eq_true, if_false]
  exact ⟨shift_back_of_bounds hi he, shift_back_of_bounds hi he⟩

theorem documented_mapping_restores_owner :
    ((Vfs.new ⟨0, (0, 1, 65536)⟩ : Vfs Unit).remapAttrId false
        ((Vfs.new ⟨0, (0, 1, 65536)⟩ : Vfs Unit).remapAttrId true { stUid := 5, stGid := 7 })).stUid = 5 ∧
      ((Vfs.new ⟨0, (0, 1, 65536)⟩ : Vfs Unit).remapAttrId false
        ((Vfs.new ⟨0, (0, 1, 65536)⟩ : Vfs Unit).remapAttrId true { stUid := 5, stGid := 7 })).stGid = 7 :=
  have h := remapAttrId_back (v := (Vfs.new ⟨0, (0, 1, 65536)⟩ : Vfs Unit)) rfl (by decide) (by decide)
    { stUid := 5, stGid := 7 }
  ⟨h.1 (by decide), h.2 (by decide)⟩

/-- A mapping that moves anything, used in both directions, overflows in one of them: on the
external id `e` in `id_remap` when it maps down, on the internal id `i` in `remap_attr_id(true)`
(and so in `convert_entry`) when it maps up. -/
theorem id_mapping_overflows {v : Vfs β} {i e r : UInt32} (hm : v.idMapping = some (i, e, r))
    (hr : 0 < r) (hie : i ≠ e) (ctx : Context) (attr : Stat64) :
    v.idRemapChecked { ctx with uid := e } = none ∨
      v.remapAttrIdChecked true { attr with stUid := i } = none := by
  have hne : i.toNat ≠ e.toNat := fun h => hie (UInt32.toNat_inj.mp h)
  rcases Nat.lt_or_gt_of_ne hne with hlt | hgt
  · left
    simp [idRemapChecked, hm, remapIdChecked_self_of_lt hr (UInt32.lt_iff_toNat_lt.mpr hlt)]
  · right
    simp [remapAttrIdChecked, hm, remapIdChecked_self_of_lt hr (UInt32.lt_iff_toNat_lt.mpr hgt)]

/-- The documented mapping `(0, 1, 65536)` and a caller of uid 1: the debug build panics in
`id_remap`, and the release build reaches uid 0 only because the wrapped offset wraps back. -/
theorem documented_id_mapping_overflows :
    (Vfs.new ⟨0, (0, 1, 65536)⟩ : Vfs Unit).idRemapChecked ⟨1, 1, 0⟩ = none ∧
      (Vfs.new ⟨0, (0, 1, 65536)⟩ : Vfs Unit).idRemap ⟨1, 1, 0⟩ = .ok ⟨0, 0, 0⟩ := by
  refine ⟨?_, by decide⟩
  have h := id_mapping_overflows (v := (Vfs.new ⟨0, (0, 1, 65536)⟩ : Vfs Unit)) rfl (by decide)
    (by decide) ⟨1, 1, 0⟩ {}
  rcases h with h | h
  · exact h
  · exact absurd h (by decide)

end Vfs

end FuseBackend.Api
