import SpikeDevices.Virtio.Invariants

/-!
# The register file: reset, ring addresses and the config space

Three groups of registers of `virtio_mmio_write` and `virtio_mmio_read`, each stated once for
every front end:

* `STATUS`: a write of 0 gives back the transport `virtio_init` builds, keeping what
  identifies the device (`statusWrite_zero_resets`);
* the six `QUEUE_{DESC,AVAIL,USED}_{LOW,HIGH}` registers, one family `QueueAddr` with the
  offsets of its two halves: `set_low32` and `set_high32` each keep the other half, so the
  two writes of a 64-bit address in either order set it (`writeRegister_halves`), and the
  reads give its halves back (`readRegister_low`, `readRegister_high`);
* the config space: with 3 to 256 bytes, a read or write of width 1, 2 or 4 touches exactly
  the bytes `[offset, offset + w)` when they lie below `config_space_size`
  (`virtioConfigRead_eq`, `virtioConfigWrite_eq`). Below 3 bytes the unsigned guards
  `config_space_size - 1` and `config_space_size - 3` wrap (`emptyConfig_guard_wraps`).

Every operation but a write into the config space keeps it (`run_configSpace`).
-/

namespace SpikeDevices.Virtio

open VirtioDevice

/-! ## Register writes and reads below the config space -/

section Mmio

variable {F : Type} (fuel : Nat) (recv : DeviceRecvFunc F)

/-- A 32-bit write below the config space, other than `QUEUE_NOTIFY`, is a register write. -/
theorem virtioMmioWrite_register (m : Machine F) {offset : U32} (val : U32)
    (hc : offset < virtioMmioConfig) (hn : offset ≠ virtioMmioQueueNotify) :
    virtioMmioWrite fuel recv m offset val 2 =
      writeRegister m.core offset val >>= fun core => .done { m with core } := by
  rw [virtioMmioWrite, if_neg (BitVec.not_le.mpr hc), if_pos rfl, if_neg hn]
  rfl

/-- A 32-bit read below the config space is a register read. -/
theorem virtioMmioRead_register (s : VirtioDevice) {offset : U32} (hc : offset < virtioMmioConfig) :
    virtioMmioRead s offset 2 = readRegister s offset := by
  rw [virtioMmioRead, if_neg (BitVec.not_le.mpr hc), if_pos rfl]

/-- A read at or past `VIRTIO_MMIO_CONFIG` is a config-space read. -/
theorem virtioMmioRead_config (s : VirtioDevice) {offset : U32} (hc : virtioMmioConfig ≤ offset)
    (sizeLog2 : Int) :
    virtioMmioRead s offset sizeLog2 = virtioConfigRead s (offset - virtioMmioConfig) sizeLog2 := by
  rw [virtioMmioRead, if_pos hc]

end Mmio

/-! ## Reset -/

/-- Writing 0 to `STATUS` lowers the line and leaves the transport as `virtio_init` builds it:
the registers `virtio_reset` clears are 0 and every queue is back to `MAX_QUEUE_NUM` entries,
not ready, with no rings; the identity of the device, its config space and each queue's
`manual_recv` are kept, and so are guest memory and the front end. -/
theorem statusWrite_zero_resets {F : Type} (fuel : Nat) (recv : DeviceRecvFunc F) (m : Machine F) :
    ∃ core, virtioMmioWrite fuel recv m virtioMmioStatus 0 2 = .done { m with core } ∧
      core.status = 0 ∧ core.queueSel = 0 ∧ core.deviceFeaturesSel = 0 ∧ core.intStatus = 0 ∧
      core.irqLevel = false ∧
      (∀ i, (core.queue i).ready = 0 ∧ (core.queue i).num = maxQueueNum ∧
        (core.queue i).lastAvailIdx = 0 ∧ (core.queue i).descAddr = 0 ∧
        (core.queue i).availAddr = 0 ∧ (core.queue i).usedAddr = 0 ∧
        (core.queue i).manualRecv = (m.core.queue i).manualRecv) ∧
      core.deviceId = m.core.deviceId ∧ core.vendorId = m.core.vendorId ∧
      core.deviceFeatures = m.core.deviceFeatures ∧ core.configSpaceSize = m.core.configSpaceSize ∧
      core.configSpace = m.core.configSpace ∧
      ∀ deviceId configSpaceSize,
        { core with
          deviceId := deviceId
          vendorId := 0xffff
          deviceFeatures := 0
          configSpaceSize := toUInt32 configSpaceSize
          configSpace := fun _ => 0
          queue := fun i => { core.queue i with manualRecv := false } } =
          virtioInit deviceId configSpaceSize :=
  ⟨_, rfl, rfl, rfl, rfl, rfl, rfl, fun _ => ⟨rfl, rfl, rfl, rfl, rfl, rfl, rfl⟩, rfl, rfl, rfl, rfl,
    rfl, fun _ _ => rfl⟩

/-! ## Queue selection, size and readiness -/

/-- A QUEUE_SEL write selects a queue below `MAX_QUEUE` and is ignored otherwise. -/
theorem writeRegister_queueSel (s : VirtioDevice) (val : U32) :
    writeRegister s virtioMmioQueueSel val =
      .done (if val.toNat < maxQueue then { s with queueSel := val } else s) := rfl

/-- A QUEUE_NUM write sizes the selected queue with a nonzero power of two and is ignored
otherwise. -/
theorem writeRegister_queueNum (s : VirtioDevice) (val : U32) :
    writeRegister s virtioMmioQueueNum val =
      if val &&& (val - 1) = 0 ∧ 0 < val then s.modifySelectedQueue fun qs => { qs with num := val }
      else .done s := rfl

/-- A QUEUE_READY write keeps the low bit of the value as the selected queue's flag. -/
theorem writeRegister_queueReady (s : VirtioDevice) (val : U32) :
    writeRegister s virtioMmioQueueReady val =
      s.modifySelectedQueue fun qs => { qs with ready := val &&& 1 } := rfl

theorem readRegister_queueSel (s : VirtioDevice) : readRegister s virtioMmioQueueSel = .done s.queueSel :=
  rfl

theorem readRegister_queueNum (s : VirtioDevice) :
    readRegister s virtioMmioQueueNum = s.selectedQueue >>= fun i => pure (s.queue i).num := rfl

theorem readRegister_queueReady (s : VirtioDevice) :
    readRegister s virtioMmioQueueReady = s.selectedQueue >>= fun i => pure (s.queue i).ready := rfl

/-! ## Queue addresses -/

/-- The three ring addresses of a queue, each written through a `_LOW` and a `_HIGH` register
and read back through the same two. -/
inductive QueueAddr where
  | desc
  | avail
  | used
deriving DecidableEq, Repr

namespace QueueAddr

/-- The offset of the register of the low half. -/
def low : QueueAddr → U32
  | desc => virtioMmioQueueDescLow
  | avail => virtioMmioQueueAvailLow
  | used => virtioMmioQueueUsedLow

/-- The offset of the register of the high half. -/
def high : QueueAddr → U32
  | desc => virtioMmioQueueDescHigh
  | avail => virtioMmioQueueAvailHigh
  | used => virtioMmioQueueUsedHigh

/-- The address in a queue. -/
def get : QueueAddr → QueueState → U64
  | desc, qs => qs.descAddr
  | avail, qs => qs.availAddr
  | used, qs => qs.usedAddr

/-- The queue with the address replaced. -/
def set : QueueAddr → QueueState → U64 → QueueState
  | desc, qs, v => { qs with descAddr := v }
  | avail, qs, v => { qs with availAddr := v }
  | used, qs, v => { qs with usedAddr := v }

@[simp] theorem get_set (r : QueueAddr) (qs : QueueState) (v : U64) : r.get (r.set qs v) = v := by
  cases r <;> rfl

@[simp] theorem set_set (r : QueueAddr) (qs : QueueState) (v w : U64) :
    r.set (r.set qs v) w = r.set qs w := by
  cases r <;> rfl

theorem low_lt (r : QueueAddr) : r.low < virtioMmioConfig := by cases r <;> decide

theorem high_lt (r : QueueAddr) : r.high < virtioMmioConfig := by cases r <;> decide

theorem low_ne (r : QueueAddr) : r.low ≠ virtioMmioQueueNotify := by cases r <;> decide

theorem high_ne (r : QueueAddr) : r.high ≠ virtioMmioQueueNotify := by cases r <;> decide

end QueueAddr

/-- The mask of the low half of an address. -/
theorem getLsbD_lowMask (i : Nat) : (0xffffffff : U64).getLsbD i = decide (i < 32) := by
  rw [show (0xffffffff : U64) = BitVec.ofNat 64 (2 ^ 32 - 1) from rfl, BitVec.getLsbD_ofNat,
    Nat.testBit_two_pow_sub_one]
  by_cases h : i < 32 <;> simp [h, show i < 32 → i < 64 by omega]

theorem getLsbD_lowMask_cast (i : Nat) : ((0xffffffff : Nat) : U64).getLsbD i = decide (i < 32) :=
  getLsbD_lowMask i

/-- `set_high32` after `set_low32` with the two halves of `v` gives `v`, whatever the address
held before. -/
theorem setHigh32_setLow32 (a v : U64) :
    setHigh32 (setLow32 a (v.setWidth 32)) ((v >>> 32).setWidth 32) = v := by
  apply BitVec.eq_of_getLsbD_eq
  intro ⟨i, hi⟩
  simp only [setHigh32, setLow32, BitVec.getLsbD_or, BitVec.getLsbD_and, BitVec.getLsbD_setWidth,
    BitVec.getLsbD_shiftLeft, BitVec.getLsbD_ushiftRight, BitVec.getLsbD_not, getLsbD_lowMask,
    getLsbD_lowMask_cast]
  by_cases h : i < 32
  · simp [h, hi]
  · simp [h, hi, show i - 32 < 32 by omega, show i - 32 < 64 by omega, show 32 + (i - 32) = i by omega]

/-- So does `set_low32` after `set_high32`. -/
theorem setLow32_setHigh32 (a v : U64) :
    setLow32 (setHigh32 a ((v >>> 32).setWidth 32)) (v.setWidth 32) = v := by
  apply BitVec.eq_of_getLsbD_eq
  intro ⟨i, hi⟩
  simp only [setHigh32, setLow32, BitVec.getLsbD_or, BitVec.getLsbD_and, BitVec.getLsbD_setWidth,
    BitVec.getLsbD_shiftLeft, BitVec.getLsbD_ushiftRight, BitVec.getLsbD_not, getLsbD_lowMask,
    getLsbD_lowMask_cast]
  by_cases h : i < 32
  · simp [h, hi]
  · simp [h, hi, show i - 32 < 32 by omega, show i - 32 < 64 by omega, show 32 + (i - 32) = i by omega]

/-- The `_LOW` write is `set_low32` on the address of the selected queue. -/
theorem writeRegister_low (s : VirtioDevice) (r : QueueAddr) (val : U32) :
    writeRegister s r.low val = s.modifySelectedQueue fun qs => r.set qs (setLow32 (r.get qs) val) := by
  cases r <;> rfl

/-- The `_HIGH` write is `set_high32` on the address of the selected queue. -/
theorem writeRegister_high (s : VirtioDevice) (r : QueueAddr) (val : U32) :
    writeRegister s r.high val = s.modifySelectedQueue fun qs => r.set qs (setHigh32 (r.get qs) val) := by
  cases r <;> rfl

/-- The `_LOW` read is the low half of the address of the selected queue. -/
theorem readRegister_low (s : VirtioDevice) (r : QueueAddr) :
    readRegister s r.low = s.selectedQueue >>= fun i => pure ((r.get (s.queue i)).setWidth 32) := by
  cases r <;> rfl

/-- The `_HIGH` read is the high half of the address of the selected queue. -/
theorem readRegister_high (s : VirtioDevice) (r : QueueAddr) :
    readRegister s r.high = s.selectedQueue >>= fun i => pure ((r.get (s.queue i) >>> 32).setWidth 32) := by
  cases r <;> rfl

theorem selectedQueue_setQueue (s : VirtioDevice) (i : Fin maxQueue) (qs : QueueState) :
    (s.setQueue i qs).selectedQueue = s.selectedQueue := rfl

theorem setQueue_setQueue (s : VirtioDevice) (i : Fin maxQueue) (qs qs' : QueueState) :
    (s.setQueue i qs).setQueue i qs' = s.setQueue i qs' := by
  simp only [setQueue]
  congr
  funext j
  split <;> rfl

/-- Two updates of the selected queue make one. -/
theorem modifySelectedQueue_twice {s : VirtioDevice} {i : Fin maxQueue} (hi : s.selectedQueue = .done i)
    (f g : QueueState → QueueState) :
    (s.modifySelectedQueue f >>= fun s => s.modifySelectedQueue g) =
      .done (s.setQueue i (g (f (s.queue i)))) := by
  simp only [modifySelectedQueue, hi, Outcome.done_bind, Outcome.pure_def, selectedQueue_setQueue,
    setQueue_queue_self, setQueue_setQueue]

/-- Writing the two halves of `v` into the registers of an address, in either order, sets that
address of the selected queue to `v` and changes nothing else. -/
theorem writeRegister_halves {s : VirtioDevice} {i : Fin maxQueue} (hi : s.selectedQueue = .done i)
    (r : QueueAddr) (v : U64) :
    (writeRegister s r.low (v.setWidth 32) >>= fun s => writeRegister s r.high ((v >>> 32).setWidth 32)) =
        .done (s.setQueue i (r.set (s.queue i) v)) ∧
      (writeRegister s r.high ((v >>> 32).setWidth 32) >>= fun s => writeRegister s r.low (v.setWidth 32)) =
        .done (s.setQueue i (r.set (s.queue i) v)) := by
  simp only [writeRegister_low, writeRegister_high, modifySelectedQueue_twice hi, QueueAddr.get_set,
    QueueAddr.set_set, setHigh32_setLow32, setLow32_setHigh32, and_self]

/-! ## The config space -/

/-- The `n` bytes from `pos` of a config space that holds them. -/
theorem configBytes_of_le (s : VirtioDevice) {pos n : Nat} (h : pos + n ≤ maxConfigSpaceSize) :
    configBytes s pos n = .done ((List.range n).map fun i => s.configSpace (pos + i)) :=
  if_pos h

/-- The config space with the `n`-byte encoding of `val` stored from `pos`. -/
def VirtioDevice.storeConfig (s : VirtioDevice) (pos n val : Nat) : VirtioDevice :=
  { s with configSpace := fun i =>
      if pos ≤ i ∧ i < pos + n then (encodeLE n val).getD (i - pos) 0 else s.configSpace i }

theorem setConfigBytes_of_le (s : VirtioDevice) {pos n : Nat} (val : Nat) (h : pos + n ≤ maxConfigSpaceSize) :
    setConfigBytes s pos (encodeLE n val) = .done (s.storeConfig pos n val) := by
  rw [setConfigBytes, length_encodeLE, if_pos h]
  rfl

/-- The `n` bytes from `pos` of the stored config space are the encoding. -/
theorem storeConfig_range (s : VirtioDevice) (pos n v : Nat) :
    (List.range n).map (fun i => (s.storeConfig pos n v).configSpace (pos + i)) = encodeLE n v := by
  apply List.ext_getElem (by simp)
  intro i h1 h2
  simp only [List.getElem_map, List.getElem_range, VirtioDevice.storeConfig]
  rw [if_pos (by simp at h1; omega), Nat.add_sub_cancel_left, List.getD_eq_getElem]

section Config

variable {s : VirtioDevice} (h256 : s.configSpaceSize.toNat ≤ maxConfigSpaceSize)
include h256

/-- One width of `virtio_config_read`, under a guard that holds exactly when the `w` bytes lie
below `config_space_size`. -/
theorem configRead_branch {offset : U32} {w : Nat} {g : Prop} [Decidable g]
    (hg : g ↔ offset.toNat + w ≤ s.configSpaceSize.toNat) :
    (if g then configBytes s offset.toNat w >>= fun bs => pure (BitVec.ofNat 32 (decodeLE bs))
      else .done 0) =
      .done (if offset.toNat + w ≤ s.configSpaceSize.toNat then
          BitVec.ofNat 32 (decodeLE ((List.range w).map fun i => s.configSpace (offset.toNat + i)))
        else 0) := by
  by_cases hin : offset.toNat + w ≤ s.configSpaceSize.toNat
  · rw [if_pos (hg.mpr hin), configBytes_of_le s (by omega), if_pos hin]
    rfl
  · rw [if_neg (mt hg.mp hin), if_neg hin]

/-- One width of `virtio_config_write`, under such a guard. -/
theorem configWrite_branch {offset : U32} {w : Nat} (val : Nat) {g : Prop} [Decidable g]
    (hg : g ↔ offset.toNat + w ≤ s.configSpaceSize.toNat) :
    (if g then setConfigBytes s offset.toNat (encodeLE w val) else .done s) =
      .done (if offset.toNat + w ≤ s.configSpaceSize.toNat then s.storeConfig offset.toNat w val
        else s) := by
  by_cases hin : offset.toNat + w ≤ s.configSpaceSize.toNat
  · rw [if_pos (hg.mpr hin), setConfigBytes_of_le s _ (by omega), if_pos hin]
  · rw [if_neg (mt hg.mp hin), if_neg hin]

variable (h3 : 3 ≤ s.configSpaceSize.toNat)
include h3

/-- With 3 to 256 bytes of config space, a read of width `w = 2^size_log2` of 1, 2 or 4 bytes
returns the little-endian value of the bytes at `[offset, offset + w)` when they lie below
`config_space_size`, and 0 without reading any otherwise. -/
theorem virtioConfigRead_eq {sizeLog2 : Int} (hw : sizeLog2 = 0 ∨ sizeLog2 = 1 ∨ sizeLog2 = 2)
    (offset : U32) :
    virtioConfigRead s offset sizeLog2 =
      .done (if offset.toNat + 2 ^ sizeLog2.toNat ≤ s.configSpaceSize.toNat then
          BitVec.ofNat 32 (decodeLE ((List.range (2 ^ sizeLog2.toNat)).map fun i =>
            s.configSpace (offset.toNat + i)))
        else 0) := by
  rcases hw with rfl | rfl | rfl
  · exact configRead_branch h256 (by bv_omega)
  · exact configRead_branch h256 (by bv_omega)
  · exact configRead_branch h256 (by bv_omega)

/-- With 3 to 256 bytes of config space, a write of width `w = 2^size_log2` of 1, 2 or 4 bytes
stores the `w` little-endian bytes of the value at `[offset, offset + w)` when they lie below
`config_space_size`, and changes nothing otherwise. -/
theorem virtioConfigWrite_eq {sizeLog2 : Int} (hw : sizeLog2 = 0 ∨ sizeLog2 = 1 ∨ sizeLog2 = 2)
    (offset val : U32) :
    virtioConfigWrite s offset val sizeLog2 =
      .done (if offset.toNat + 2 ^ sizeLog2.toNat ≤ s.configSpaceSize.toNat then
          s.storeConfig offset.toNat (2 ^ sizeLog2.toNat) val.toNat
        else s) := by
  rcases hw with rfl | rfl | rfl
  · exact configWrite_branch h256 _ (by bv_omega)
  · exact configWrite_branch h256 _ (by bv_omega)
  · exact configWrite_branch h256 _ (by bv_omega)

end Config

/-- The operation is a register write at or past `VIRTIO_MMIO_CONFIG`. -/
def Op.WritesConfig : Op → Prop
  | .mmioWrite offset _ _ => virtioMmioConfig ≤ offset
  | _ => False

instance : DecidablePred Op.WritesConfig := fun op =>
  match op with
  | .mmioWrite offset _ _ => inferInstanceAs (Decidable (virtioMmioConfig ≤ offset))
  | .mmioRead _ _ => isFalse id
  | .notify _ => isFalse id
  | .consumeDesc _ _ _ => isFalse id
  | .configChangeNotify => isFalse id
  | .guestWrite _ => isFalse id

/-- A register write keeps the config space and its size. -/
theorem writeRegister_configSpace {s s' : VirtioDevice} {offset val : U32}
    (h : writeRegister s offset val = .done s') :
    s'.configSpace = s.configSpace ∧ s'.configSpaceSize = s.configSpaceSize := by
  rcases writeRegister_cases h with rfl | rfl | ⟨-, rfl⟩ | ⟨f, hm, -⟩ | ⟨-, rfl⟩ | ⟨-, rfl⟩
  · exact ⟨rfl, rfl⟩
  · exact ⟨rfl, rfl⟩
  · exact ⟨rfl, rfl⟩
  · obtain ⟨i, -, rfl⟩ := (modifySelectedQueue_eq_done s).mp hm
    exact ⟨rfl, rfl⟩
  · unfold statusWrite
    split <;> exact ⟨rfl, rfl⟩
  · unfold interruptAck
    dsimp only
    split <;> exact ⟨rfl, rfl⟩

section Run

variable {F : Type} (fuel : Nat) (recv : DeviceRecvFunc F)

/-- Every operation but a write into the config space keeps the config space and its size,
when the handler raises the used interrupt at most. -/
theorem step_configSpace (hrecv : RaisesUsedOnly recv) {op : Op} {m m' : Machine F}
    (hop : ¬ op.WritesConfig) (h : step fuel recv op m = .done m') :
    m'.core.configSpace = m.core.configSpace ∧ m'.core.configSpaceSize = m.core.configSpaceSize := by
  have hnotify : ∀ q, queueNotify fuel recv q m = .done m' →
      m'.core.configSpace = m.core.configSpace ∧ m'.core.configSpaceSize = m.core.configSpaceSize :=
    fun q hq => by
      obtain ⟨v, raised, e⟩ := queueNotify_frame fuel recv q hrecv hq
      rw [e]
      cases raised <;> exact ⟨rfl, rfl⟩
  cases op with
  | mmioWrite offset val sizeLog2 =>
    simp only [step, virtioMmioWrite] at h
    rw [if_neg (show ¬ offset ≥ virtioMmioConfig from hop)] at h
    split at h
    · split at h
      · split at h
        · exact hnotify _ h
        · cases h; exact ⟨rfl, rfl⟩
      · obtain ⟨core, hc, e⟩ := Outcome.bind_eq_done.mp h
        cases e
        exact writeRegister_configSpace hc
    · cases h; exact ⟨rfl, rfl⟩
  | mmioRead offset sizeLog2 =>
    obtain ⟨_, -, e⟩ := Outcome.bind_eq_done.mp h
    cases e; exact ⟨rfl, rfl⟩
  | notify q => exact hnotify q h
  | consumeDesc q d len => cases h; exact ⟨rfl, rfl⟩
  | configChangeNotify => cases h; exact ⟨rfl, rfl⟩
  | guestWrite mem => cases h; exact ⟨rfl, rfl⟩

/-- A run with no write into the config space keeps it and its size. -/
theorem run_configSpace (hrecv : RaisesUsedOnly recv) :
    ∀ (ops : List Op) (m m' : Machine F), (∀ op ∈ ops, ¬ op.WritesConfig) →
      run fuel recv ops m = .done m' →
      m'.core.configSpace = m.core.configSpace ∧ m'.core.configSpaceSize = m.core.configSpaceSize
  | [], _, _, _, h => by cases h; exact ⟨rfl, rfl⟩
  | op :: ops, m, m', hops, h => by
    obtain ⟨m1, h1, h2⟩ := Outcome.bind_eq_done.mp h
    obtain ⟨c1, s1⟩ := step_configSpace fuel recv hrecv (hops op (List.mem_cons_self _ _)) h1
    obtain ⟨c2, s2⟩ := run_configSpace hrecv ops m1 m' (fun o ho => hops o (List.mem_cons_of_mem _ ho)) h2
    exact ⟨c2.trans c1, s2.trans s1⟩

/-- No operation changes the size of the config space, when the handler raises the used
interrupt at most. -/
theorem step_configSpaceSize (hrecv : RaisesUsedOnly recv) {op : Op} {m m' : Machine F}
    (h : step fuel recv op m = .done m') : m'.core.configSpaceSize = m.core.configSpaceSize := by
  rcases step_core fuel recv h with e | ⟨cs, e⟩ | ⟨q, hq⟩ | ⟨_, _, -, hw⟩ | e | ⟨-, e⟩
  · rw [e]
  · rw [e]
  · obtain ⟨v, raised, e⟩ := queueNotify_frame fuel recv q hrecv hq
    rw [e]
    cases raised <;> rfl
  · exact (writeRegister_configSpace hw).2
  · rw [e]; rfl
  · rw [e]; rfl

end Run

end SpikeDevices.Virtio
