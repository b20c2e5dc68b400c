import SpikeDevices.Block.Notify
import SpikeDevices.Virtio.Registers

/-!
# The bus side of the block device

`virtioblk_t::load` and `virtioblk_t::store` carry 4-byte accesses to `virtio_mmio_read` and
`virtio_mmio_write` and split an 8-byte one into two, low word first. The round trips
through them:

* a ring address of the selected queue stored with two 4-byte stores (in either order) or
  with one 8-byte store reads back whole and in halves (`queueAddr_store_load`);
* the queue the driver selects, sizes and makes ready reads back as set, and the values the
  device refuses leave it unchanged (`queueSetup_store_load`);
* the sector count `virtio_block_init` puts into the config space reads back whole and in
  halves for as long as the guest writes no config register (`sectorCount_config`), and the
  guest can overwrite it, since the front end sets no `config_write` (`config_store_load`).
-/

namespace SpikeDevices.Block

open Virtio VirtioDevice

/-! ## Stores and loads of 4 and 8 bytes -/

/-- The 32-bit value of `n` read as a little-endian word. -/
theorem ofNat_decodeLE_encodeLE_four (n : Nat) : BitVec.ofNat 32 (decodeLE (encodeLE 4 n)) = BitVec.ofNat 32 n := by
  rw [decodeLE_encodeLE]
  apply BitVec.eq_of_toNat_eq
  simp only [BitVec.toNat_ofNat]
  omega

section Fuel

variable (fuel : Nat)

/-- A 4-byte store of the word `n` writes `n` into the 32-bit register at the offset. -/
theorem virtioblkStore_four (m : BlockMachine) (addr : U64) (n : Nat) :
    virtioblkStore fuel m addr 4 (encodeLE 4 n) =
      blockMmioWrite fuel m (addr.setWidth 32) (BitVec.ofNat 32 n) >>= fun m => .done (true, m) := by
  simp only [virtioblkStore, if_neg (by decide : ¬ (4 : Nat) > 8), if_neg (by decide : ¬ ((4 : Nat) = 1 ∨ 4 = 2)),
    if_pos rfl]
  rw [show (encodeLE 4 n).take 4 = encodeLE 4 n from List.take_of_length_le (by simp),
    ofNat_decodeLE_encodeLE_four]
  rfl

/-- An 8-byte store of `v` writes its low word at the offset, then its high word 4 bytes on. -/
theorem virtioblkStore_eight (m : BlockMachine) (addr v : U64) :
    virtioblkStore fuel m addr 8 (encodeLE 8 v.toNat) =
      (blockMmioWrite fuel m (addr.setWidth 32) (v.setWidth 32) >>= fun m =>
        blockMmioWrite fuel m ((addr + 4).setWidth 32) ((v >>> 32).setWidth 32)) >>= fun m =>
          .done (true, m) := by
  have hv : decodeLE ((encodeLE 8 v.toNat).take 8) = v.toNat := by
    rw [List.take_of_length_le (by simp), decodeLE_encodeLE]
    exact Nat.mod_eq_of_lt (Nat.lt_of_lt_of_eq v.isLt rfl)
  have hlo : BitVec.ofNat 32 v.toNat = v.setWidth 32 := BitVec.ofNat_toNat 32 v
  have hhi : BitVec.ofNat 32 (v.toNat / 2 ^ 32) = (v >>> 32).setWidth 32 := by
    rw [← BitVec.ofNat_toNat, BitVec.toNat_ushiftRight, Nat.shiftRight_eq_div_pow]
  simp only [virtioblkStore, if_neg (by decide : ¬ (8 : Nat) > 8), if_neg (by decide : ¬ ((8 : Nat) = 1 ∨ 8 = 2)),
    if_neg (by decide : (8 : Nat) ≠ 4), if_pos rfl, hv, hlo, hhi, Outcome.bind_assoc]
  rfl

end Fuel

/-- A 4-byte load returns the 32-bit register at the offset as a little-endian word. -/
theorem virtioblkLoad_four (m : BlockMachine) (addr : U64) :
    virtioblkLoad m addr 4 =
      virtioMmioRead m.core (addr.setWidth 32) 2 >>= fun val => .done (some (encodeLE 4 val.toNat)) :=
  rfl

/-- An 8-byte load returns the register at the offset and the one 4 bytes on as one
little-endian doubleword. -/
theorem virtioblkLoad_eight (m : BlockMachine) (addr : U64) :
    virtioblkLoad m addr 8 =
      virtioMmioRead m.core (addr.setWidth 32) 2 >>= fun low =>
        virtioMmioRead m.core ((addr + 4).setWidth 32) 2 >>= fun high =>
          .done (some (encodeLE 8 (low.toNat + high.toNat * 2 ^ 32))) :=
  rfl

/-- The high word of a 64-bit value. -/
theorem toNat_highWord (v : U64) : ((v >>> 32).setWidth 32).toNat = v.toNat / 2 ^ 32 := by
  rw [BitVec.toNat_setWidth, BitVec.toNat_ushiftRight, Nat.shiftRight_eq_div_pow,
    Nat.mod_eq_of_lt (Nat.div_lt_of_lt_mul (by have := v.isLt; omega))]

/-- The two words of a 64-bit value make it back. -/
theorem words_toNat (v : U64) : (v.setWidth 32).toNat + ((v >>> 32).setWidth 32).toNat * 2 ^ 32 = v.toNat := by
  rw [BitVec.toNat_setWidth, toNat_highWord]
  omega

/-! ## Ring addresses -/

/-- In every reachable state, for each ring address of the selected queue and every 64-bit
value `v`: storing the low word of `v` at the `_LOW` offset and the high word at the `_HIGH`
offset, in either order, or storing `v` with one 8-byte store at the `_LOW` offset, all give
the same state, where that address of the selected queue is `v` and nothing else has changed.
There, an 8-byte load at the `_LOW` offset returns `v`, and 4-byte loads at the two offsets
return its low and high words. -/
theorem queueAddr_store_load (fuel : Nat) {m : BlockMachine} (hm : Reachable m) (r : QueueAddr) (v : U64) :
    ∃ i m', m.core.selectedQueue = .done i ∧
      m' = { m with core := m.core.setQueue i (r.set (m.core.queue i) v) } ∧
      (virtioblkStore fuel m (r.low.setWidth 64) 4 (encodeLE 4 v.toNat) >>= fun res =>
        virtioblkStore fuel res.2 (r.high.setWidth 64) 4 (encodeLE 4 (v.toNat / 2 ^ 32))) =
        .done (true, m') ∧
      (virtioblkStore fuel m (r.high.setWidth 64) 4 (encodeLE 4 (v.toNat / 2 ^ 32)) >>= fun res =>
        virtioblkStore fuel res.2 (r.low.setWidth 64) 4 (encodeLE 4 v.toNat)) =
        .done (true, m') ∧
      virtioblkStore fuel m (r.low.setWidth 64) 8 (encodeLE 8 v.toNat) = .done (true, m') ∧
      r.get (m'.core.queue i) = v ∧
      virtioblkLoad m' (r.low.setWidth 64) 8 = .done (some (encodeLE 8 v.toNat)) ∧
      virtioblkLoad m' (r.low.setWidth 64) 4 = .done (some (encodeLE 4 (v.toNat % 2 ^ 32))) ∧
      virtioblkLoad m' (r.high.setWidth 64) 4 = .done (some (encodeLE 4 (v.toNat / 2 ^ 32))) := by
  have hi := selectedQueue_of_invariant hm.queueInvariant
  obtain ⟨hlh, hhl⟩ := writeRegister_halves hi r v
  obtain ⟨s1, hl1, hl2⟩ := Outcome.bind_eq_done.mp hlh
  obtain ⟨s2, hh1, hh2⟩ := Outcome.bind_eq_done.mp hhl
  have hlo : BitVec.ofNat 32 v.toNat = v.setWidth 32 := BitVec.ofNat_toNat 32 v
  have hhi : BitVec.ofNat 32 (v.toNat / 2 ^ 32) = (v >>> 32).setWidth 32 := by
    rw [← BitVec.ofNat_toNat, BitVec.toNat_ushiftRight, Nat.shiftRight_eq_div_pow]
  have hlow : (r.low.setWidth 64).setWidth 32 = r.low := by cases r <;> rfl
  have hhigh : (r.high.setWidth 64).setWidth 32 = r.high := by cases r <;> rfl
  have hstep : (r.low.setWidth 64 + 4).setWidth 32 = r.high := by cases r <;> rfl
  -- the register writes of the two words, on the machine
  have hwr : ∀ (m : BlockMachine) (o : U32) (val : U32), o < virtioMmioConfig → o ≠ virtioMmioQueueNotify →
      blockMmioWrite fuel m o val = writeRegister m.core o val >>= fun core => .done { m with core } :=
    fun m o val hc hn => virtioMmioWrite_register fuel _ m val hc hn
  -- the reads of the two words, from the state the writes leave
  have hsel : (m.core.setQueue ⟨m.core.queueSel.toNat, hm.queueInvariant.queueSel_lt⟩
      (r.set (m.core.queue ⟨m.core.queueSel.toNat, hm.queueInvariant.queueSel_lt⟩) v)).selectedQueue =
      .done ⟨m.core.queueSel.toNat, hm.queueInvariant.queueSel_lt⟩ := hi
  refine ⟨_, _, hi, rfl, ?_, ?_, ?_, by simp, ?_, ?_, ?_⟩
  · simp only [virtioblkStore_four, hlow, hhigh, hlo, hhi, hwr _ _ _ r.low_lt r.low_ne,
      hwr _ _ _ r.high_lt r.high_ne, Outcome.bind_assoc, Outcome.done_bind, hl1, hl2]
  · simp only [virtioblkStore_four, hlow, hhigh, hlo, hhi, hwr _ _ _ r.low_lt r.low_ne,
      hwr _ _ _ r.high_lt r.high_ne, Outcome.bind_assoc, Outcome.done_bind, hh1, hh2]
  · simp only [virtioblkStore_eight, hlow, hstep, hwr _ _ _ r.low_lt r.low_ne,
      hwr _ _ _ r.high_lt r.high_ne, Outcome.bind_assoc, Outcome.done_bind, hl1, hl2]
  · simp only [virtioblkLoad_eight, hlow, hstep, virtioMmioRead_register _ r.low_lt,
      virtioMmioRead_register _ r.high_lt, readRegister_low, readRegister_high, hsel, Outcome.done_bind,
      Outcome.pure_def, setQueue_queue_self, QueueAddr.get_set, words_toNat]
  · simp only [virtioblkLoad_four, hlow, virtioMmioRead_register _ r.low_lt, readRegister_low, hsel,
      Outcome.done_bind, Outcome.pure_def, setQueue_queue_self, QueueAddr.get_set, BitVec.toNat_setWidth]
  · simp only [virtioblkLoad_four, hhigh, virtioMmioRead_register _ r.high_lt, readRegister_high, hsel,
      Outcome.done_bind, Outcome.pure_def, setQueue_queue_self, QueueAddr.get_set, toNat_highWord]

theorem queueAddr_store_load_used :
    Reachable ringsApartMachine ∧
      ∃ i m', ringsApartMachine.core.selectedQueue = .done i ∧
        m' = { ringsApartMachine with core := (ringsApartMachine.core.setQueue i
          (QueueAddr.used.set (ringsApartMachine.core.queue i) 0x123456789abcdef0)) } ∧
        (virtioblkStore 0 ringsApartMachine (QueueAddr.used.low.setWidth 64) 4
            (encodeLE 4 (0x123456789abcdef0 : U64).toNat) >>= fun res =>
          virtioblkStore 0 res.2 (QueueAddr.used.high.setWidth 64) 4
            (encodeLE 4 ((0x123456789abcdef0 : U64).toNat / 2 ^ 32))) = .done (true, m') ∧
        (virtioblkStore 0 ringsApartMachine (QueueAddr.used.high.setWidth 64) 4
            (encodeLE 4 ((0x123456789abcdef0 : U64).toNat / 2 ^ 32)) >>= fun res =>
          virtioblkStore 0 res.2 (QueueAddr.used.low.setWidth 64) 4
            (encodeLE 4 (0x123456789abcdef0 : U64).toNat)) = .done (true, m') ∧
        virtioblkStore 0 ringsApartMachine (QueueAddr.used.low.setWidth 64) 8
          (encodeLE 8 (0x123456789abcdef0 : U64).toNat) = .done (true, m') ∧
        QueueAddr.used.get (m'.core.queue i) = 0x123456789abcdef0 ∧
        virtioblkLoad m' (QueueAddr.used.low.setWidth 64) 8 =
          .done (some (encodeLE 8 (0x123456789abcdef0 : U64).toNat)) ∧
        virtioblkLoad m' (QueueAddr.used.low.setWidth 64) 4 =
          .done (some (encodeLE 4 ((0x123456789abcdef0 : U64).toNat % 2 ^ 32))) ∧
        virtioblkLoad m' (QueueAddr.used.high.setWidth 64) 4 =
          .done (some (encodeLE 4 ((0x123456789abcdef0 : U64).toNat / 2 ^ 32))) :=
  ⟨ringsApartMachine_reachable, queueAddr_store_load 0 ringsApartMachine_reachable .used 0x123456789abcdef0⟩

/-! ## Queue selection and setup -/

/-- A 4-byte store of a word at a register offset is that register's write. -/
theorem virtioblkStore_register (fuel : Nat) (m : BlockMachine) {offset : U32}
    (hc : offset < virtioMmioConfig) (hn : offset ≠ virtioMmioQueueNotify) (val : U32) :
    virtioblkStore fuel m (offset.setWidth 64) 4 (encodeLE 4 val.toNat) =
      writeRegister m.core offset val >>= fun core => .done (true, { m with core }) := by
  have hw : (offset.setWidth 64).setWidth 32 = offset := by bv_omega
  rw [virtioblkStore_four, hw, BitVec.ofNat_toNat, BitVec.setWidth_eq, blockMmioWrite,
    virtioMmioWrite_register _ _ _ _ hc hn, Outcome.bind_assoc]
  rfl

/-- A 4-byte load at a register offset returns that register as a little-endian word. -/
theorem virtioblkLoad_register (m : BlockMachine) {offset : U32} (hc : offset < virtioMmioConfig) :
    virtioblkLoad m (offset.setWidth 64) 4 =
      readRegister m.core offset >>= fun val => .done (some (encodeLE 4 val.toNat)) := by
  have hw : (offset.setWidth 64).setWidth 32 = offset := by bv_omega
  rw [virtioblkLoad_four, hw, virtioMmioRead_register _ hc]

/-- The driver's queue setup through the bus, from any state: a 4-byte store of `q` at
QUEUE_SEL, of `n` at QUEUE_NUM and of `v` at QUEUE_READY selects queue `q` when
`q < MAX_QUEUE`, sets its size to `n` when `n` is a nonzero power of two and its ready flag
to `v & 1`, and changes nothing else; the three registers then read back `q`, `n` and
`v & 1`. A QUEUE_SEL store of `MAX_QUEUE` or more and a QUEUE_NUM store of anything else are
accepted on the bus and ignored. -/
theorem queueSetup_store_load (fuel : Nat) (m : BlockMachine) {q n : U32} (hq : q.toNat < maxQueue)
    (hn : n &&& (n - 1) = 0 ∧ 0 < n) (v : U32) :
    (∃ m', (virtioblkStore fuel m (virtioMmioQueueSel.setWidth 64) 4 (encodeLE 4 q.toNat) >>= fun r =>
        virtioblkStore fuel r.2 (virtioMmioQueueNum.setWidth 64) 4 (encodeLE 4 n.toNat) >>= fun r =>
          virtioblkStore fuel r.2 (virtioMmioQueueReady.setWidth 64) 4 (encodeLE 4 v.toNat)) =
        .done (true, m') ∧
      m' = { m with core := (VirtioDevice.setQueue { m.core with queueSel := q } ⟨q.toNat, hq⟩
        { m.core.queue ⟨q.toNat, hq⟩ with num := n, ready := v &&& 1 }) } ∧
      virtioblkLoad m' (virtioMmioQueueSel.setWidth 64) 4 = .done (some (encodeLE 4 q.toNat)) ∧
      virtioblkLoad m' (virtioMmioQueueNum.setWidth 64) 4 = .done (some (encodeLE 4 n.toNat)) ∧
      virtioblkLoad m' (virtioMmioQueueReady.setWidth 64) 4 =
        .done (some (encodeLE 4 (v &&& 1).toNat))) ∧
    (∀ q' : U32, maxQueue ≤ q'.toNat →
      virtioblkStore fuel m (virtioMmioQueueSel.setWidth 64) 4 (encodeLE 4 q'.toNat) = .done (true, m)) ∧
    (∀ n' : U32, ¬(n' &&& (n' - 1) = 0 ∧ 0 < n') →
      virtioblkStore fuel m (virtioMmioQueueNum.setWidth 64) 4 (encodeLE 4 n'.toNat) = .done (true, m)) := by
  have hsel : ({ m.core with queueSel := q } : VirtioDevice).selectedQueue = .done ⟨q.toNat, hq⟩ :=
    (selectedQueue_eq_done _).mpr rfl
  refine ⟨⟨_, ?_, rfl, ?_⟩, fun q' hq' => ?_, fun n' hn' => ?_⟩
  · simp only [@virtioblkStore_register fuel _ virtioMmioQueueSel (by decide) (by decide),
      @virtioblkStore_register fuel _ virtioMmioQueueNum (by decide) (by decide),
      @virtioblkStore_register fuel _ virtioMmioQueueReady (by decide) (by decide),
      writeRegister_queueSel, writeRegister_queueNum, writeRegister_queueReady, if_pos hq, if_pos hn,
      Outcome.done_bind, modifySelectedQueue, hsel, selectedQueue_setQueue, setQueue_queue_self,
      setQueue_setQueue, Outcome.pure_def]
  · simp only [@virtioblkLoad_register _ virtioMmioQueueSel (by decide),
      @virtioblkLoad_register _ virtioMmioQueueNum (by decide),
      @virtioblkLoad_register _ virtioMmioQueueReady (by decide),
      readRegister_queueSel, readRegister_queueNum, readRegister_queueReady, selectedQueue_setQueue,
      hsel, Outcome.done_bind, Outcome.pure_def, setQueue_queue_self, setQueue_queueSel, and_self]
  · rw [virtioblkStore_register _ _ (by decide) (by decide), writeRegister_queueSel,
      if_neg (Nat.not_lt.mpr hq')]
    rfl
  · rw [virtioblkStore_register _ _ (by decide) (by decide), writeRegister_queueNum, if_neg hn']
    rfl

/-- Queue 0 of a fresh device set up with 16 entries and made ready. -/
theorem queueSetup_store_load_zero :
    (0 : U32).toNat < maxQueue ∧ ((16 : U32) &&& (16 - 1) = 0 ∧ 0 < (16 : U32)) ∧
    ((∃ m', (virtioblkStore 0 (initialMachine 1024 (fun _ => 0) .rw fun _ => 0) (virtioMmioQueueSel.setWidth 64) 4 (encodeLE 4 (0 : U32).toNat) >>=
          fun r => virtioblkStore 0 r.2 (virtioMmioQueueNum.setWidth 64) 4 (encodeLE 4 (16 : U32).toNat) >>=
            fun r => virtioblkStore 0 r.2 (virtioMmioQueueReady.setWidth 64) 4 (encodeLE 4 (1 : U32).toNat)) =
          .done (true, m') ∧
        m' = { (initialMachine 1024 (fun _ => 0) .rw fun _ => 0) with core := (VirtioDevice.setQueue { (initialMachine 1024 (fun _ => 0) .rw fun _ => 0).core with queueSel := 0 }
          ⟨(0 : U32).toNat, by decide⟩
          { (initialMachine 1024 (fun _ => 0) .rw fun _ => 0).core.queue ⟨(0 : U32).toNat, by decide⟩ with num := 16, ready := 1 &&& 1 }) } ∧
        virtioblkLoad m' (virtioMmioQueueSel.setWidth 64) 4 = .done (some (encodeLE 4 (0 : U32).toNat)) ∧
        virtioblkLoad m' (virtioMmioQueueNum.setWidth 64) 4 = .done (some (encodeLE 4 (16 : U32).toNat)) ∧
        virtioblkLoad m' (virtioMmioQueueReady.setWidth 64) 4 =
          .done (some (encodeLE 4 ((1 : U32) &&& 1).toNat))) ∧
      (∀ q' : U32, maxQueue ≤ q'.toNat →
        virtioblkStore 0 (initialMachine 1024 (fun _ => 0) .rw fun _ => 0) (virtioMmioQueueSel.setWidth 64) 4 (encodeLE 4 q'.toNat) =
          .done (true, (initialMachine 1024 (fun _ => 0) .rw fun _ => 0))) ∧
      (∀ n' : U32, ¬(n' &&& (n' - 1) = 0 ∧ 0 < n') →
        virtioblkStore 0 (initialMachine 1024 (fun _ => 0) .rw fun _ => 0) (virtioMmioQueueNum.setWidth 64) 4 (encodeLE 4 n'.toNat) =
          .done (true, (initialMachine 1024 (fun _ => 0) .rw fun _ => 0)))) :=
  ⟨by decide, by decide, queueSetup_store_load 0 _ (by decide) (by decide) 1⟩

/-! ## The sector count in the config space -/

/-- `virtio_block_init` declares 8 bytes of config space and puts the sector count's low word
at offset 0 and its high word at offset 4, both little-endian. -/
theorem initialMachine_config (size : Nat) (bytes : Nat → U8) (mode : BlockDeviceMode) (mem : GuestMemory) :
    (initialMachine size bytes mode mem).core.configSpaceSize = 8 ∧
      (List.range 4).map (fun i => (initialMachine size bytes mode mem).core.configSpace (0 + i)) =
        encodeLE 4 (BitVec.ofInt 64 (size / 512 : Nat)).toNat ∧
      (List.range 4).map (fun i => (initialMachine size bytes mode mem).core.configSpace (4 + i)) =
        encodeLE 4 (BitVec.ofInt 64 (size / 512 : Nat) >>> 32).toNat :=
  ⟨rfl, rfl, rfl⟩

/-- A 4-byte config read at offset 0 or 4 of an 8-byte config space returns that word. -/
theorem configRead_word {s : VirtioDevice} (h8 : s.configSpaceSize = 8) {k : Nat} (hk : k = 0 ∨ k = 4) :
    virtioConfigRead s (BitVec.ofNat 32 k) 2 =
      .done (BitVec.ofNat 32 (decodeLE ((List.range 4).map fun i => s.configSpace (k + i)))) := by
  have h8' : s.configSpaceSize.toNat = 8 := by rw [h8]; rfl
  rw [virtioConfigRead_eq (by rw [h8']; decide) (by omega) (.inr (.inr rfl)), if_pos (by rcases hk with rfl | rfl <;> rw [h8'] <;> decide)]
  rcases hk with rfl | rfl <;> rfl

/-- For every backing file of `size < 2^63` bytes (a non-negative `int64`), with
`N = size / 512` sectors, in every state a run reaches from the freshly initialised device
without writing a config register: an 8-byte load at `0x100` returns `N`, and 4-byte loads at
`0x100` and `0x104` return `N mod 2^32` and `N / 2^32`. -/
theorem sectorCount_config {size : Nat} (hsize : size < 2 ^ 63) (bytes : Nat → U8) (mode : BlockDeviceMode)
    (mem : GuestMemory) (fuel : Nat) {ops : List Op} (hops : ∀ op ∈ ops, ¬ op.WritesConfig)
    {m : BlockMachine}
    (hrun : run fuel (virtioBlockRecvRequest fuel) ops (initialMachine size bytes mode mem) = .done m) :
    virtioblkLoad m 0x100 8 = .done (some (encodeLE 8 (size / 512))) ∧
      virtioblkLoad m 0x100 4 = .done (some (encodeLE 4 (size / 512 % 2 ^ 32))) ∧
      virtioblkLoad m 0x104 4 = .done (some (encodeLE 4 (size / 512 / 2 ^ 32))) := by
  obtain ⟨hcs, hsz⟩ := run_configSpace fuel _ (virtioBlockRecvRequest_raisesUsedOnly fuel) ops _ _ hops hrun
  obtain ⟨h8, hlow, hhigh⟩ := initialMachine_config size bytes mode mem
  have hN : (BitVec.ofInt 64 (size / 512 : Nat)).toNat = size / 512 := by
    rw [BitVec.toNat_ofInt]
    omega
  have hlo : virtioMmioRead m.core 0x100 2 = .done (BitVec.ofNat 32 (size / 512)) := by
    rw [virtioMmioRead_config _ (by decide), show (0x100 : U32) - virtioMmioConfig = BitVec.ofNat 32 0 from rfl,
      configRead_word (hsz.trans h8) (.inl rfl), hcs, hlow, hN, ofNat_decodeLE_encodeLE_four]
  have hhi : virtioMmioRead m.core 0x104 2 = .done (BitVec.ofNat 32 (size / 512 / 2 ^ 32)) := by
    rw [virtioMmioRead_config _ (by decide), show (0x104 : U32) - virtioMmioConfig = BitVec.ofNat 32 4 from rfl,
      configRead_word (hsz.trans h8) (.inr rfl), hcs, hhigh, ofNat_decodeLE_encodeLE_four,
      BitVec.toNat_ushiftRight, Nat.shiftRight_eq_div_pow, hN]
  refine ⟨?_, ?_, ?_⟩
  · rw [virtioblkLoad_eight, show (0x100 : U64).setWidth 32 = 0x100 from rfl,
      show ((0x100 : U64) + 4).setWidth 32 = 0x104 from rfl, hlo, hhi]
    simp only [Outcome.done_bind, BitVec.toNat_ofNat]
    congr 3
    omega
  · rw [virtioblkLoad_four, show (0x100 : U64).setWidth 32 = 0x100 from rfl, hlo]
    simp only [Outcome.done_bind, BitVec.toNat_ofNat]
  · rw [virtioblkLoad_four, show (0x104 : U64).setWidth 32 = 0x104 from rfl, hhi]
    simp only [Outcome.done_bind, BitVec.toNat_ofNat]
    congr 3
    omega

/-- A 4 TiB file, whose sector count `2^33` has a high word of 2, read back after the driver
has placed the rings and reset the device. -/
theorem sectorCount_config_fourTiB :
    (2 ^ 42 : Nat) < 2 ^ 63 ∧
      (∀ op ∈ ringsApartOps ++ [.mmioWrite virtioMmioStatus 0 2], ¬ op.WritesConfig) ∧
      ∃ m, run 0 (virtioBlockRecvRequest 0) (ringsApartOps ++ [.mmioWrite virtioMmioStatus 0 2])
          (initialMachine (2 ^ 42) (fun _ => 0) .rw (fun _ => 0)) = .done m ∧
        virtioblkLoad m 0x100 8 = .done (some (encodeLE 8 (2 ^ 42 / 512))) ∧
        virtioblkLoad m 0x100 4 = .done (some (encodeLE 4 (2 ^ 42 / 512 % 2 ^ 32))) ∧
        virtioblkLoad m 0x104 4 = .done (some (encodeLE 4 (2 ^ 42 / 512 / 2 ^ 32))) :=
  have hops : ∀ op ∈ ringsApartOps ++ [.mmioWrite virtioMmioStatus 0 2], ¬ op.WritesConfig := by decide
  ⟨by decide, hops, _, rfl, sectorCount_config (by decide) _ _ _ 0 hops rfl⟩

/-! ## The config space is written by the guest -/

/-- Every reachable state keeps the 8-byte config space `virtio_block_init` declares. -/
theorem Reachable.configSpaceSize {m : BlockMachine} (hm : Reachable m) :
    m.core.configSpaceSize = 8 :=
  hm.core_invariant (fun s => s.configSpaceSize = 8) (fun _ _ _ _ => rfl)
    fun fuel _ _ _ hs h =>
      (step_configSpaceSize fuel _ (virtioBlockRecvRequest_raisesUsedOnly fuel) h).trans hs

/-- A window offset `0x100 + o` below the end of the window is past `VIRTIO_MMIO_CONFIG`, at
offset `o` of the config space. -/
theorem configOffset {o : Nat} (ho : o < 0xf00) :
    virtioMmioConfig ≤ (BitVec.ofNat 64 (0x100 + o)).setWidth 32 ∧
      ((BitVec.ofNat 64 (0x100 + o)).setWidth 32 - virtioMmioConfig).toNat = o := by
  simp only [virtioMmioConfig]
  constructor <;> bv_omega

/-- With an 8-byte config space, a 4-byte store of `bs` at `0x100 + o` puts `bs` at offset
`o` when the 4 bytes fit, and is dropped otherwise. -/
theorem virtioblkStore_config (fuel : Nat) {m : BlockMachine} (hsz : m.core.configSpaceSize = 8)
    {o : Nat} (ho : o < 0xf00) {bs : List U8} (hbs : bs.length = 4) :
    virtioblkStore fuel m (BitVec.ofNat 64 (0x100 + o)) 4 bs =
      .done (true, { m with core := if o + 4 ≤ 8 then m.core.storeConfig o 4 (decodeLE bs) else m.core }) := by
  have h8 : m.core.configSpaceSize.toNat = 8 := by rw [hsz]; rfl
  have hval : (BitVec.ofNat 32 (decodeLE bs)).toNat = decodeLE bs := by
    have := decodeLE_lt bs
    rw [hbs] at this
    rw [BitVec.toNat_ofNat, Nat.mod_eq_of_lt (this.trans_eq (by norm_num))]
  have henc : encodeLE 4 (decodeLE bs) = bs := encodeLE_decodeLE_of_length hbs
  obtain ⟨hge, hsub⟩ := configOffset ho
  rw [← henc, virtioblkStore_four, henc, blockMmioWrite, virtioMmioWrite, if_pos hge,
    virtioConfigWrite_eq (by rw [h8]; decide) (by rw [h8]; decide) (.inr (.inr rfl)), hsub, h8, hval]
  rfl

/-- With an 8-byte config space, a 4-byte load at `0x100 + o` returns the 4 bytes at offset
`o` when they fit, and zeros otherwise. -/
theorem virtioblkLoad_config {m : BlockMachine} (hsz : m.core.configSpaceSize = 8) {o : Nat}
    (ho : o < 0xf00) :
    virtioblkLoad m (BitVec.ofNat 64 (0x100 + o)) 4 =
      .done (some (encodeLE 4 (if o + 4 ≤ 8 then
        decodeLE ((List.range 4).map fun i => m.core.configSpace (o + i)) else 0))) := by
  have h8 : m.core.configSpaceSize.toNat = 8 := by rw [hsz]; rfl
  obtain ⟨hge, hsub⟩ := configOffset ho
  rw [virtioblkLoad_four, virtioMmioRead_config _ hge,
    virtioConfigRead_eq (by rw [h8]; decide) (by rw [h8]; decide) (.inr (.inr rfl)), hsub, h8,
    show (2 : Nat) ^ (2 : Int).toNat = 4 from rfl]
  split_ifs
  · have := decodeLE_lt ((List.range 4).map fun i => m.core.configSpace (o + i))
    rw [List.length_map, List.length_range] at this
    rw [Outcome.done_bind, BitVec.toNat_ofNat, Nat.mod_eq_of_lt (this.trans_eq (by norm_num))]
  · rfl

/-- In every reachable state the config space is 8 bytes the guest can overwrite, the sector
count included: a 4-byte store at `0x100 + o` with `o ≤ 4` puts its bytes at offset `o` and
changes nothing else, and a 4-byte load there then returns them; a store further into the
window is dropped, and a load there returns zeros. -/
theorem config_store_load (fuel : Nat) {m : BlockMachine} (hm : Reachable m) (o : Nat)
    (bs : List U8) (hbs : bs.length = 4) :
    (o ≤ 4 → ∃ m', virtioblkStore fuel m (BitVec.ofNat 64 (0x100 + o)) 4 bs = .done (true, m') ∧
      m' = { m with core := m.core.storeConfig o 4 (decodeLE bs) } ∧
      virtioblkLoad m' (BitVec.ofNat 64 (0x100 + o)) 4 = .done (some bs)) ∧
    (4 < o → o < 0xf00 →
      virtioblkStore fuel m (BitVec.ofNat 64 (0x100 + o)) 4 bs = .done (true, m) ∧
      virtioblkLoad m (BitVec.ofNat 64 (0x100 + o)) 4 = .done (some [0, 0, 0, 0])) := by
  have hsz := hm.configSpaceSize
  have henc : encodeLE 4 (decodeLE bs) = bs := encodeLE_decodeLE_of_length hbs
  refine ⟨fun ho => ⟨_, by rw [virtioblkStore_config fuel hsz (by omega) hbs, if_pos (by omega)], rfl, ?_⟩,
    fun ho ho' => ⟨by rw [virtioblkStore_config fuel hsz ho' hbs, if_neg (by omega)],
      by rw [virtioblkLoad_config hsz ho', if_neg (by omega)]; rfl⟩⟩
  rw [@virtioblkLoad_config { m with core := m.core.storeConfig o 4 (decodeLE bs) } hsz o (by omega),
    if_pos (by omega), storeConfig_range, henc, henc]

/-- The sector count of a fresh 1024-byte image, overwritten with 1 by the guest. -/
theorem config_store_load_capacity :
    Reachable (initialMachine 1024 (fun _ => 0) .rw fun _ => 0) ∧ [1, 0, 0, 0].length = 4 ∧
    ((0 ≤ 4 → ∃ m', virtioblkStore 0 (initialMachine 1024 (fun _ => 0) .rw fun _ => 0)
          (BitVec.ofNat 64 (0x100 + 0)) 4 [1, 0, 0, 0] = .done (true, m') ∧
        m' = { initialMachine 1024 (fun _ => 0) .rw (fun _ => 0) with
          core := (initialMachine 1024 (fun _ => 0) .rw fun _ => 0).core.storeConfig 0 4
            (decodeLE [1, 0, 0, 0]) } ∧
        virtioblkLoad m' (BitVec.ofNat 64 (0x100 + 0)) 4 = .done (some [1, 0, 0, 0])) ∧
      (4 < 0 → 0 < 0xf00 →
        virtioblkStore 0 (initialMachine 1024 (fun _ => 0) .rw fun _ => 0)
            (BitVec.ofNat 64 (0x100 + 0)) 4 [1, 0, 0, 0] =
          .done (true, initialMachine 1024 (fun _ => 0) .rw fun _ => 0) ∧
        virtioblkLoad (initialMachine 1024 (fun _ => 0) .rw fun _ => 0)
            (BitVec.ofNat 64 (0x100 + 0)) 4 = .done (some [0, 0, 0, 0]))) :=
  have hr : Reachable (initialMachine 1024 (fun _ => 0) .rw fun _ => 0) :=
    ⟨1024, fun _ => 0, .rw, fun _ => 0, 0, [], rfl⟩
  ⟨hr, rfl, config_store_load 0 hr 0 [1, 0, 0, 0] rfl⟩

end SpikeDevices.Block
