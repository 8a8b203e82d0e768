import Mathlib.Algebra.GroupWithZero.Nat
import SerialAdapter.SlotRing

/-! Bus addresses of descriptors and the slots they belong to. The table may start at any address,
also so near the end of the address space that it goes on at zero; only its length is bounded, by
the address space. Under this bound the slots and the addresses of their descriptors stand for one
another, and every other address finishes nothing. -/
namespace SerialAdapter

namespace SlotRing

variable {n size : Nat} {r r' : SlotRing n size} {a : UInt32}

theorem addressMod (r : SlotRing n size) (i : Nat) : r.address (i % n) = r.address i := by
  simp only [address, Nat.mod_mod]

theorem addressCongr (r : SlotRing n size) {i j : Nat} (same : i % n = j % n) :
    r.address i = r.address j := by
  rw [← addressMod, same, addressMod]

theorem addressBase (base : r'.base = r.base) (i : Nat) : r'.address i = r.address i := by
  simp only [address, base]

theorem addressNat (r : SlotRing n size) (i : Nat) :
    (r.address i).toNat = (r.base.toNat + i % n * Limits.descriptorSize) % 2 ^ 32 := by
  rw [address, UInt32.toNat_add, UInt32.toNat_ofNat', Nat.add_mod_mod]

theorem addressAligned (r : SlotRing n size) (i : Nat) :
    (r.address i).toNat % Limits.descriptorSize = r.base.toNat % Limits.descriptorSize := by
  rw [addressNat, Limits.descriptorSize]
  omega

theorem addressOffset (fits : 16 * n ≤ 2 ^ 32) (filled : 0 < n) (r : SlotRing n size) (i : Nat) :
    (r.address i - r.base).toNat = i % n * Limits.descriptorSize := by
  have low := Nat.mod_lt i filled
  have small : i % n * 16 < 2 ^ 32 := by omega
  have undo : r.address i - r.base = UInt32.ofNat (i % n * 16) := by
    rw [address, Limits.descriptorSize, UInt32.add_comm, UInt32.add_sub_cancel]
  rw [undo, UInt32.toNat_ofNat', Nat.mod_eq_of_lt small]
  rfl

theorem slotAtBase (base : r'.base = r.base) (a : UInt32) : r'.slotAt? a = r.slotAt? a := by
  simp only [slotAt?, base]

theorem slotAtSome {k : Nat} :
    r.slotAt? a = some k ↔ k < n ∧ (a - r.base).toNat = k * Limits.descriptorSize := by
  simp only [slotAt?, Option.ite_none_right_eq_some, Option.some.injEq]
  constructor
  · rintro ⟨⟨whole, low⟩, rfl⟩
    exact ⟨low, (Nat.div_mul_cancel (Nat.dvd_of_mod_eq_zero whole)).symm⟩
  · rintro ⟨low, offset⟩
    rw [offset, Nat.mul_mod_left, Nat.mul_div_cancel k (by decide : 0 < Limits.descriptorSize)]
    exact ⟨⟨rfl, low⟩, rfl⟩

theorem slotAtLow {k : Nat} (found : r.slotAt? a = some k) : k < n := (slotAtSome.mp found).1

-- no bound on the table is needed: the distance is that of an address, hence of 32 bits
theorem addressOfSlot {k : Nat} (found : r.slotAt? a = some k) : r.address k = a := by
  obtain ⟨low, offset⟩ := slotAtSome.mp found
  have distance : UInt32.ofNat (k % n * Limits.descriptorSize) = a - r.base := by
    rw [Nat.mod_eq_of_lt low, ← offset, UInt32.ofNat_toNat]
  rw [address, distance, UInt32.add_comm, UInt32.sub_add_cancel]

theorem misalignedForeign
    (skewed : a.toNat % Limits.descriptorSize ≠ r.base.toNat % Limits.descriptorSize) :
    r.slotAt? a = none := by
  rw [Option.eq_none_iff_forall_ne_some]
  intro k found
  rw [← addressOfSlot found] at skewed
  exact skewed (addressAligned r k)

theorem completedAway (base : r'.base = r.base) (away : r.slotAt? a = none) :
    r'.completed a = 0 := by
  simp only [completed, slotAtBase base, away]

section Bounded

variable (fits : 16 * n ≤ 2 ^ 32) (filled : 0 < n)
include fits filled

theorem slotAtAddress (r : SlotRing n size) (i : Nat) :
    r.slotAt? (r.address i) = some (i % n) :=
  slotAtSome.mpr ⟨Nat.mod_lt i filled, addressOffset fits filled r i⟩

theorem slotAtIff {k : Nat} : r.slotAt? a = some k ↔ k < n ∧ r.address k = a := by
  constructor
  · intro found
    exact ⟨slotAtLow found, addressOfSlot found⟩
  · rintro ⟨low, rfl⟩
    rw [slotAtAddress fits filled, Nat.mod_eq_of_lt low]

theorem slotAtNone : r.slotAt? a = none ↔ ∀ k < n, r.address k ≠ a := by
  rw [Option.eq_none_iff_forall_ne_some]
  constructor
  · intro none k low same
    exact none k ((slotAtIff fits filled).mpr ⟨low, same⟩)
  · intro foreign k found
    exact foreign k (slotAtLow found) (addressOfSlot found)

end Bounded

end SlotRing

/-- Slots and addresses convert back and forth, wherever the table lies: the address of a slot
leads back to it, a slot lies at the address it was found by, and the addresses that find none are
those of no descriptor. None of these, and so no address aligned otherwise than the table, counts as
a completion. -/
theorem addressesRoundTrip {n size : Nat} (filled : 1 ≤ n) (fits : 16 * n ≤ 2 ^ 32)
    (r : SlotRing n size) :
    (∀ i, r.slotAt? (r.address i) = some (i % n)) ∧
    (∀ a j, r.slotAt? a = some j → j < n ∧ r.address j = a) ∧
    (∀ a, r.slotAt? a = none ↔ ∀ k < n, r.address k ≠ a) ∧
    (∀ a, (∀ k < n, r.address k ≠ a) → r.completed a = 0) ∧
    ∀ a, a.toNat % Limits.descriptorSize ≠ r.base.toNat % Limits.descriptorSize →
      r.slotAt? a = none ∧ r.completed a = 0 := by
  refine ⟨SlotRing.slotAtAddress fits filled r, fun a j found => ?_,
    fun a => SlotRing.slotAtNone fits filled, fun a foreign => ?_, fun a skewed => ?_⟩
  · exact (SlotRing.slotAtIff fits filled).mp found
  · exact SlotRing.completedAway rfl ((SlotRing.slotAtNone fits filled).mpr foreign)
  · have none := SlotRing.misalignedForeign skewed
    exact ⟨none, SlotRing.completedAway rfl none⟩

theorem tableAcrossEnd :
    let r := (({} : SlotRing 4 8).layout ⟨0xffffffe8, fun _ => 0⟩).fill
    r.inFlight = 3 ∧ r.address 2 = 8 ∧ r.slotAt? 8 = some 2 ∧
      r.slotAt? 0x28 = none ∧ r.completed 0x28 = 0 ∧ r.slotAt? 9 = none ∧ r.completed 9 = 0 := by
  intro r
  obtain ⟨found, -, foreign, away, skewed⟩ := @addressesRoundTrip 4 8 (by decide) (by decide) r
  have third : r.address 2 = 8 := by decide +kernel
  have behind : ∀ k < 4, r.address k ≠ 0x28 := by decide +kernel
  have back : r.slotAt? 8 = some 2 := third ▸ found 2
  exact ⟨by decide +kernel, third, back, (foreign _).mpr behind, away _ behind,
    skewed 9 (by decide +kernel)⟩

end SerialAdapter
