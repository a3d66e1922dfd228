import UefiBoot.Lib.ByteRange

/-!
# `Lib.Fields` — records laid out in bytes

A field is a little-endian number of a given width at a given address, and a record is written one field after
the other. When no two fields share a byte (`Scattered`), each can be read back whatever was written after it
(`Scattered.load`), in whatever order they come (`Scattered.perm`); nothing outside them changes
(`storeFields_outside`). Fields that come in the order of their addresses, each ending before the next starts
(`Ascending`), are scattered.
-/

namespace Lib

/-- A number of `size` bytes at address `start`. -/
structure Field where
  start : UInt64
  size  : Nat
  value : Nat

namespace Field

def range (f : Field) : ByteRange := ⟨f.start, f.size⟩

/-- The field ends before the next one starts, and the address space after that. -/
def Before (f g : Field) : Prop := f.start.toNat + f.size ≤ g.start.toNat

instance (f g : Field) : Decidable (f.Before g) := inferInstanceAs (Decidable (_ ≤ _))

end Field

namespace Bytes

variable {m : Bytes} {fs : List Field} {f : Field} {a : UInt64}

/-- The fields are written in order. -/
def storeFields (m : Bytes) (fs : List Field) : Bytes := fs.foldl (fun m f => m.store f.start f.value f.size) m

/-- The fields lie one behind the other and end in the address space. -/
structure Ascending (fs : List Field) : Prop where
  fits  : ∀ f ∈ fs, f.range.Fits
  order : fs.Pairwise Field.Before

theorem Ascending.tail (h : Ascending (f :: fs)) : Ascending fs :=
  ⟨fun g hg => h.fits g (List.mem_cons_of_mem f hg), h.order.of_cons⟩

theorem storeFields_outside (hfits : ∀ f ∈ fs, f.range.Fits) (ha : ∀ f ∈ fs, a ∉ f.range) :
    m.storeFields fs a = m a := by
  induction fs generalizing m with
  | nil => rfl
  | cons f fs ih =>
      have hfit : f.start.toNat + f.size ≤ 2 ^ 64 := hfits f List.mem_cons_self
      have hrest := @ih (m.store f.start f.value f.size) (fun g hg => hfits g (List.mem_cons_of_mem f hg))
        (fun g hg => ha g (List.mem_cons_of_mem f hg))
      have hfirst : m.store f.start f.value f.size a = m a :=
        store_outside (by omega) (ha f List.mem_cons_self)
      exact hrest.trans hfirst

/-- No two fields share a byte, and each ends in the address space. -/
structure Scattered (fs : List Field) : Prop where
  fits  : ∀ f ∈ fs, f.range.Fits
  apart : fs.Pairwise fun f g => f.range.Apart g.range

theorem Scattered.tail (h : Scattered (f :: fs)) : Scattered fs :=
  ⟨fun g hg => h.fits g (List.mem_cons_of_mem f hg), h.apart.of_cons⟩

/-- The order of the fields does not matter. -/
theorem Scattered.perm {gs : List Field} (h : Scattered fs) (hperm : fs.Perm gs) : Scattered gs where
  fits  := fun f hf => h.fits f (hperm.mem_iff.mpr hf)
  apart := (hperm.pairwise_iff fun hfg => ByteRange.Apart.symm hfg).mp h.apart

theorem Ascending.scattered (h : Ascending fs) : Scattered fs where
  fits  := h.fits
  apart := h.order.imp_of_mem fun hf hg hbefore => ByteRange.apart_of_le (h.fits _ hf) (h.fits _ hg) hbefore

/-- **Every field can be read back.** -/
theorem Scattered.load (h : Scattered fs) (hf : f ∈ fs) :
    (m.storeFields fs).load f.start f.size = f.value % 256 ^ f.size := by
  induction fs generalizing m with
  | nil => exact absurd hf List.not_mem_nil
  | cons g fs ih =>
      rcases List.mem_cons.mp hf with rfl | hf
      · have hfit : f.range.Fits := h.fits f List.mem_cons_self
        have hsize : f.start.toNat + f.size ≤ 2 ^ 64 := hfit
        -- the fields behind `f` are written elsewhere
        have hlater : ∀ b ∈ ByteRange.mk f.start f.size,
            storeFields (m.store f.start f.value f.size) fs b = m.store f.start f.value f.size b := by
          intro b hb
          refine storeFields_outside h.tail.fits fun g hg hbg => ?_
          exact List.rel_of_pairwise_cons h.apart hg b hb hbg
        calc (storeFields (m.store f.start f.value f.size) fs).load f.start f.size
            = (m.store f.start f.value f.size).load f.start f.size := load_congr (by omega) hlater
          _ = f.value % 256 ^ f.size := load_store (by omega)
      · exact ih h.tail hf

theorem load_storeFields (h : Ascending fs) (hf : f ∈ fs) :
    (m.storeFields fs).load f.start f.size = f.value % 256 ^ f.size := h.scattered.load hf

end Bytes
end Lib
