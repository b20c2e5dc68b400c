import SpikeDevices.Virtio.Invariants

/-!
# Publication in the used ring

`virtio_consume_desc` writes the used index at `used_addr + 2` and one 8-byte entry at
`used_addr + 4 + 8 (index & (num - 1))`. With a power-of-two `num` both writes stay inside
the used ring, the `2 + 8 num` bytes from `used_addr + 2` (`virtioConsumeDesc_frame`), and
the entry read back is the head and the length just published (`virtioConsumeDesc_publish`).
-/

namespace SpikeDevices.Virtio

open GuestMemory VirtioDevice

/-- The part of the used ring the device writes: `idx` and the `num` entries. -/
def InUsedRing (qs : QueueState) (a : U64) : Prop :=
  InRegion (qs.usedAddr + 2) (2 + 8 * qs.num.toNat) a

instance (qs : QueueState) (a : U64) : Decidable (InUsedRing qs a) :=
  inferInstanceAs (Decidable (InRegion _ _ _))

/-- The entry of used index `index` starts `2 + o` bytes into the ring, with room for its 8
bytes before the ring ends (the `uint32_t` product `(index & (num - 1)) * 8` may wrap, but
only once `8 num` exceeds `2^32`). -/
theorem usedEntryAddr_offset {qs : QueueState} (hnum : qs.num.toNat.isPowerOfTwo) (index : U32) :
    ∃ o, (usedEntryAddr qs index - (qs.usedAddr + 2)).toNat = 2 + o ∧ o + 8 ≤ 8 * qs.num.toNat := by
  have hslot := and_num_sub_one_toNat hnum index
  have hpos := Nat.pos_of_isPowerOfTwo hnum
  have hmod := Nat.mod_lt index.toNat hpos
  have hlt := qs.num.isLt
  refine ⟨(index.toNat % qs.num.toNat * 8) % 2 ^ 32, ?_, by omega⟩
  simp only [usedEntryAddr]
  have : (((index &&& (qs.num - 1)) * 8).setWidth 64).toNat =
      (index.toNat % qs.num.toNat * 8) % 2 ^ 32 := by
    rw [BitVec.toNat_setWidth, BitVec.toNat_mul, hslot, show (8 : U32).toNat = 8 from rfl,
      Nat.mod_eq_of_lt (by omega : (index.toNat % qs.num.toNat * 8) % 2 ^ 32 < 2 ^ 64)]
  bv_omega

/-- The 8 bytes of an entry lie in the used ring. -/
theorem inUsedRing_of_entry {qs : QueueState} (hnum : qs.num.toNat.isPowerOfTwo) (index : U32)
    {a : U64} (ha : InRegion (usedEntryAddr qs index) 8 a) : InUsedRing qs a := by
  obtain ⟨o, ho, hle⟩ := usedEntryAddr_offset hnum index
  exact inRegion_of_sub ho (by omega) ha

/-- `virtio_consume_desc` writes only the used index and the entry it indexes. -/
theorem virtioConsumeDesc_apart {F : Type} (m : Machine F) (q : Fin maxQueue) (d : U16) (len : Int)
    {a : U64} (hidx : ¬ InRegion ((m.core.queue q).usedAddr + 2) 2 a)
    (hent : ¬ InRegion (usedEntryAddr (m.core.queue q)
      ((m.mem.load16 ((m.core.queue q).usedAddr + 2)).setWidth 32)) 8 a) :
    (virtioConsumeDesc m q d len).mem a = m.mem a := by
  simp only [virtioConsumeDesc, store32, store16]
  rw [storeBytes_outside, storeBytes_outside, storeBytes_outside _ _ _ _ (by simpa using hidx)]
  · simp only [length_encodeLE]
    exact fun h => hent (inRegion_of_le (by omega) h)
  · simp only [length_encodeLE]
    exact fun h => hent (inRegion_of_sub (by bv_omega) (Nat.le_refl 8) h)

/-- `virtio_consume_desc` writes nothing outside the used ring of its queue. -/
theorem virtioConsumeDesc_frame {F : Type} (m : Machine F) (q : Fin maxQueue) (d : U16)
    (len : Int) (hnum : (m.core.queue q).num.toNat.isPowerOfTwo) {a : U64}
    (ha : ¬ InUsedRing (m.core.queue q) a) : (virtioConsumeDesc m q d len).mem a = m.mem a :=
  virtioConsumeDesc_apart m q d len (fun h => ha (inRegion_of_le (by omega) h))
    fun h => ha (inUsedRing_of_entry hnum _ h)

/-- `virtio_consume_desc` publishes one entry: the used index read at `used_addr + 2` goes up
by one, and the entry it indexed holds the head and the length. -/
theorem virtioConsumeDesc_publish {F : Type} (m : Machine F) (q : Fin maxQueue) (d : U16)
    (len : Int) (hnum : (m.core.queue q).num.toNat.isPowerOfTwo) :
    (virtioConsumeDesc m q d len).mem.load16 ((m.core.queue q).usedAddr + 2) =
        m.mem.load16 ((m.core.queue q).usedAddr + 2) + 1 ∧
      (virtioConsumeDesc m q d len).mem.load32 (usedEntryAddr (m.core.queue q)
        ((m.mem.load16 ((m.core.queue q).usedAddr + 2)).setWidth 32)) = d.setWidth 32 ∧
      (virtioConsumeDesc m q d len).mem.load32 (usedEntryAddr (m.core.queue q)
        ((m.mem.load16 ((m.core.queue q).usedAddr + 2)).setWidth 32) + 4) = toUInt32 len := by
  obtain ⟨o, ho, hle⟩ := usedEntryAddr_offset hnum ((m.mem.load16 ((m.core.queue q).usedAddr + 2)).setWidth 32)
  have hlt := (m.core.queue q).num.isLt
  simp only [virtioConsumeDesc]
  generalize usedEntryAddr (m.core.queue q) ((m.mem.load16 ((m.core.queue q).usedAddr + 2)).setWidth 32) = e at ho ⊢
  generalize (m.core.queue q).usedAddr = u at ho ⊢
  -- the index field and the two words of the entry are three disjoint regions
  have hidx1 : ∀ a, InRegion (u + 2) 2 a → ¬ InRegion e 4 a := by
    simp only [InRegion]; bv_omega
  have hidx2 : ∀ a, InRegion (u + 2) 2 a → ¬ InRegion (e + 4) 4 a := by
    simp only [InRegion]; bv_omega
  have hword : ∀ a, InRegion e 4 a → ¬ InRegion (e + 4) 4 a := by
    simp only [InRegion]; bv_omega
  refine ⟨?_, ?_, load32_store32 _ _ _⟩
  · simp only [load16, store32]
    rw [bytesAt_storeBytes_of_disjoint _ (by simpa using hidx2),
      bytesAt_storeBytes_of_disjoint _ (by simpa using hidx1)]
    have := load16_store16 m.mem (u + 2) ((((m.mem.load16 (u + 2)).setWidth 32) + 1).setWidth 16)
    simp only [load16] at this
    rw [this]
    bv_omega
  · simp only [load32, store32]
    rw [bytesAt_storeBytes_of_disjoint _ (by simpa using hword)]
    exact load32_store32 _ _ _

/-! ## The entries of successive publications -/

/-- The used ring's entry of index `index` holds the head `d` and the length `len`. -/
def UsedEntry (mem : GuestMemory) (qs : QueueState) (index d : U16) (len : Int) : Prop :=
  mem.load32 (usedEntryAddr qs (index.setWidth 32)) = d.setWidth 32 ∧
    mem.load32 (usedEntryAddr qs (index.setWidth 32) + 4) = toUInt32 len

/-- The entry `virtio_consume_desc` has just published. -/
theorem virtioConsumeDesc_usedEntry {F : Type} (m : Machine F) (q : Fin maxQueue) (d : U16)
    (len : Int) (hnum : (m.core.queue q).num.toNat.isPowerOfTwo) :
    UsedEntry (virtioConsumeDesc m q d len).mem (m.core.queue q)
      (m.mem.load16 ((m.core.queue q).usedAddr + 2)) d len :=
  (virtioConsumeDesc_publish m q d len hnum).2

/-- An entry is read from its own 8 bytes. -/
theorem UsedEntry.congr {mem mem' : GuestMemory} {qs : QueueState} {index d : U16} {len : Int}
    (h : UsedEntry mem qs index d len)
    (hagree : ∀ a, InRegion (usedEntryAddr qs (index.setWidth 32)) 8 a → mem' a = mem a) :
    UsedEntry mem' qs index d len := by
  refine ⟨?_, ?_⟩
  · rw [load32, bytesAt_congr fun a ha => hagree a (inRegion_of_le (by omega) ha)]
    exact h.1
  · rw [load32, bytesAt_congr fun a ha => hagree a (inRegion_of_sub (by bv_omega) (Nat.le_refl 8) ha)]
    exact h.2

/-- With a power-of-two `num`, the entry of a 16-bit used index `index` sits at slot
`index % num`. -/
theorem usedEntryAddr_slot {qs : QueueState} (hnum : qs.num.toNat.isPowerOfTwo) (index : U16) :
    usedEntryAddr qs (index.setWidth 32) =
      qs.usedAddr + 4 + BitVec.ofNat 64 (8 * (index.toNat % qs.num.toNat)) := by
  have hslot := and_num_sub_one_toNat hnum (index.setWidth 32)
  have hlt := index.isLt
  have hmod := Nat.mod_le index.toNat qs.num.toNat
  rw [BitVec.toNat_setWidth, Nat.mod_eq_of_lt (by omega : index.toNat < 2 ^ 32)] at hslot
  simp only [usedEntryAddr]
  congr 1
  apply BitVec.eq_of_toNat_eq
  rw [BitVec.toNat_setWidth, BitVec.toNat_mul, hslot, show (8 : U32).toNat = 8 from rfl,
    BitVec.toNat_ofNat]
  omega

/-- The entries of indices in different slots are apart from each other and from the used
index. -/
theorem usedEntry_apart {qs : QueueState} (hnum : qs.num.toNat.isPowerOfTwo) {i j : U16}
    (hij : i.toNat % qs.num.toNat ≠ j.toNat % qs.num.toNat) {a : U64}
    (ha : InRegion (usedEntryAddr qs (j.setWidth 32)) 8 a) :
    ¬ InRegion (qs.usedAddr + 2) 2 a ∧ ¬ InRegion (usedEntryAddr qs (i.setWidth 32)) 8 a := by
  have hpos := Nat.pos_of_isPowerOfTwo hnum
  have hi := Nat.mod_lt i.toNat hpos
  have hj := Nat.mod_lt j.toNat hpos
  have hlt := qs.num.isLt
  rw [usedEntryAddr_slot hnum] at ha ⊢
  generalize i.toNat % qs.num.toNat = si at *
  generalize j.toNat % qs.num.toNat = sj at *
  simp only [InRegion] at *
  constructor <;> bv_omega

/-- Two points less than `M` apart are in different residues modulo `M`. -/
theorem add_mod_ne {a i j M : Nat} (hji : j < i) (hM : i - j < M) : (a + i) % M ≠ (a + j) % M := by
  have hsum := Nat.add_mod (a + j) (i - j) M
  rw [Nat.mod_eq_of_lt hM, show a + j + (i - j) = a + i by omega] at hsum
  have hr := Nat.mod_lt (a + j) (by omega : 0 < M)
  rw [hsum]
  by_cases hlt : (a + j) % M + (i - j) < M
  · rw [Nat.mod_eq_of_lt hlt]; omega
  · rw [Nat.mod_eq_sub_mod (by omega), Nat.mod_eq_of_lt (by omega)]; omega

/-- The `i`-th and `j`-th indices from `index`, both short of `num` and of `2^16`, are in
different slots. -/
theorem slot_ne {num : U32} (hnum : num.toNat.isPowerOfTwo) (index : U16) {i j : Nat}
    (hji : j < i) (hi : i < num.toNat) (hi16 : i < 2 ^ 16) :
    (index + BitVec.ofNat 16 i).toNat % num.toNat ≠ (index + BitVec.ofNat 16 j).toNat % num.toNat := by
  obtain ⟨k, hk⟩ := hnum
  simp only [BitVec.toNat_add, BitVec.toNat_ofNat, hk, Nat.mod_eq_of_lt hi16,
    Nat.mod_eq_of_lt (Nat.lt_trans hji hi16)]
  by_cases hk16 : k ≤ 16
  · rw [Nat.mod_mod_of_dvd _ (Nat.pow_dvd_pow 2 hk16), Nat.mod_mod_of_dvd _ (Nat.pow_dvd_pow 2 hk16)]
    exact add_mod_ne hji (by omega)
  · have h16 : 2 ^ 16 ≤ 2 ^ k := Nat.pow_le_pow_right (by decide) (by omega)
    rw [Nat.mod_eq_of_lt (Nat.lt_of_lt_of_le (Nat.mod_lt (index.toNat + i) (by decide)) h16),
      Nat.mod_eq_of_lt (Nat.lt_of_lt_of_le (Nat.mod_lt (index.toNat + j) (by decide)) h16)]
    exact add_mod_ne hji (by omega)

end SpikeDevices.Virtio
