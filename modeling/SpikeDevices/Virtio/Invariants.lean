import SpikeDevices.Virtio.DeviceLemmas

/-!
# Invariants of the transport

Two invariants of the `VIRTIODevice` registers, each shown to hold after `virtio_init` and
to survive every operation of a run whose handler at most raises the used interrupt:

* `QueueInvariant`: `queue_sel < MAX_QUEUE`, every `ready` is 0 or 1 and every `num` is a
  power of two, so that `s->queue[s->queue_sel]` is in bounds (`selectedQueue_of_invariant`)
  and `idx & (num - 1)` is `idx % num` (`and_num_sub_one_toNat`);
* `IrqInvariant`: the line is high exactly when `int_status ≠ 0`, and `int_status` has no
  bit beyond bit 0 (used ring) and bit 1 (config change).

`step_clears_intStatus` says which operations can clear a bit of `int_status`.
-/

namespace SpikeDevices.Virtio

open VirtioDevice

/-! ## Powers of two -/

/-- A positive number with no bit in common with its predecessor is a power of two. -/
theorem isPowerOfTwo_of_and_pred_eq_zero {n : Nat} (hpos : 0 < n) (h : n &&& (n - 1) = 0) :
    n.isPowerOfTwo := by
  have hle := Nat.log2_self_le (Nat.pos_iff_ne_zero.mp hpos)
  have hlt : n < 2 ^ n.log2 * 2 := Nat.pow_succ .. ▸ Nat.lt_log2_self
  refine ⟨n.log2, Classical.byContradiction fun hne => ?_⟩
  -- otherwise bit `log2 n` is set in both `n` and `n - 1`
  have hbit : ∀ r, r < 2 ^ n.log2 → (2 ^ n.log2 + r).testBit n.log2 = true := fun r hr => by
    rw [Nat.testBit_two_pow_add_eq, Nat.testBit_lt_two_pow hr]; rfl
  have h1 := hbit (n - 2 ^ n.log2) (by omega)
  have h2 := hbit (n - 1 - 2 ^ n.log2) (by omega)
  rw [show 2 ^ n.log2 + (n - 2 ^ n.log2) = n by omega] at h1
  rw [show 2 ^ n.log2 + (n - 1 - 2 ^ n.log2) = n - 1 by omega] at h2
  have := congrArg (Nat.testBit · n.log2) h
  simp [h1, h2] at this

/-- The values `VIRTIO_MMIO_QUEUE_NUM` accepts are powers of two. -/
theorem isPowerOfTwo_of_queueNum_accepted {v : U32} (h : v &&& (v - 1) = 0 ∧ 0 < v) :
    v.toNat.isPowerOfTwo := by
  have hpos : 0 < v.toNat := h.2
  refine isPowerOfTwo_of_and_pred_eq_zero hpos ?_
  have := congrArg BitVec.toNat h.1
  rwa [BitVec.toNat_and, BitVec.toNat_sub_of_le (by simpa using h.2)] at this

/-- With a power-of-two ring size, masking with `num - 1` is reduction modulo `num`. -/
theorem and_num_sub_one_toNat {num : U32} (hnum : num.toNat.isPowerOfTwo) (idx : U32) :
    (idx &&& (num - 1)).toNat = idx.toNat % num.toNat := by
  obtain ⟨k, hk⟩ := hnum
  have hpos : 1 ≤ num := by rw [BitVec.le_def]; simp [hk, Nat.one_le_two_pow]
  rw [BitVec.toNat_and, BitVec.toNat_sub_of_le hpos, hk]
  exact Nat.and_pow_two_sub_one_eq_mod _ _

/-! ## Queue registers -/

/-- `queue_sel` indexes the queue array, and every queue has a 0/1 `ready` and a
power-of-two `num`. -/
structure QueueInvariant (s : VirtioDevice) : Prop where
  queueSel_lt : s.queueSel.toNat < maxQueue
  ready_le_one : ∀ i, (s.queue i).ready = 0 ∨ (s.queue i).ready = 1
  num_isPowerOfTwo : ∀ i, (s.queue i).num.toNat.isPowerOfTwo

/-- Under the invariant `s->queue[s->queue_sel]` is in bounds. -/
theorem selectedQueue_of_invariant {s : VirtioDevice} (hs : QueueInvariant s) :
    s.selectedQueue = .done ⟨s.queueSel.toNat, hs.queueSel_lt⟩ := by
  simp [selectedQueue, hs.queueSel_lt]

theorem queueInvariant_virtioReset (s : VirtioDevice) : QueueInvariant (virtioReset s) where
  queueSel_lt := by simp [maxQueue]
  ready_le_one _ := .inl rfl
  num_isPowerOfTwo _ := ⟨4, rfl⟩

theorem queueInvariant_virtioInit (deviceId : U32) (configSpaceSize : Int) :
    QueueInvariant (virtioInit deviceId configSpaceSize) :=
  queueInvariant_virtioReset _

/-- Changing one queue keeps the invariant when the new queue keeps its two fields. -/
theorem QueueInvariant.setQueue {s : VirtioDevice} (hs : QueueInvariant s) (i : Fin maxQueue)
    {qs : QueueState} (hready : qs.ready = 0 ∨ qs.ready = 1) (hnum : qs.num.toNat.isPowerOfTwo) :
    QueueInvariant (s.setQueue i qs) where
  queueSel_lt := hs.queueSel_lt
  ready_le_one := setQueue_queue_of_forall s (P := fun qs => qs.ready = 0 ∨ qs.ready = 1)
    hready hs.ready_le_one
  num_isPowerOfTwo := setQueue_queue_of_forall s (P := fun qs => qs.num.toNat.isPowerOfTwo)
    hnum hs.num_isPowerOfTwo

theorem QueueInvariant.modifySelectedQueue {s s' : VirtioDevice} (hs : QueueInvariant s)
    {f : QueueState → QueueState} (h : s.modifySelectedQueue f = .done s')
    (hf : ∀ qs, (qs.ready = 0 ∨ qs.ready = 1) → qs.num.toNat.isPowerOfTwo →
      ((f qs).ready = 0 ∨ (f qs).ready = 1) ∧ (f qs).num.toNat.isPowerOfTwo) :
    QueueInvariant s' := by
  obtain ⟨i, -, rfl⟩ := (modifySelectedQueue_eq_done s).mp h
  obtain ⟨h1, h2⟩ := hf _ (hs.ready_le_one i) (hs.num_isPowerOfTwo i)
  exact hs.setQueue i h1 h2

/-- The invariant reads only `queue_sel` and the queues. -/
theorem QueueInvariant.of_eq {s s' : VirtioDevice} (hs : QueueInvariant s)
    (hsel : s'.queueSel = s.queueSel) (hqueue : s'.queue = s.queue) : QueueInvariant s' where
  queueSel_lt := hsel ▸ hs.queueSel_lt
  ready_le_one := hqueue ▸ hs.ready_le_one
  num_isPowerOfTwo := hqueue ▸ hs.num_isPowerOfTwo

theorem QueueInvariant.setLastAvail {s : VirtioDevice} (hs : QueueInvariant s)
    (q : Fin maxQueue) (v : U16) : QueueInvariant (s.setLastAvail q v) :=
  hs.setQueue q (hs.ready_le_one q) (hs.num_isPowerOfTwo q)

/-- `val & 1` is 0 or 1. -/
theorem and_one_eq_zero_or_one (val : U32) : val &&& 1 = 0 ∨ val &&& 1 = 1 := by
  have : (val &&& 1).toNat = val.toNat % 2 := by
    rw [BitVec.toNat_and, show (1 : U32).toNat = 2 ^ 1 - 1 from rfl,
      Nat.and_pow_two_sub_one_eq_mod]
  rcases Nat.mod_two_eq_zero_or_one val.toNat with h | h
  · exact .inl (BitVec.eq_of_toNat_eq (by rw [this, h]; rfl))
  · exact .inr (BitVec.eq_of_toNat_eq (by rw [this, h]; rfl))

/-- The change a register write with value `val` makes to the selected queue: it keeps
`last_avail_idx`, sets `ready` to `val & 1` or keeps it, sets `num` to `val` when `val` is an
accepted size or keeps it, and keeps `manual_recv`. -/
def QueueRegisterUpdate (val : U32) (f : QueueState → QueueState) : Prop :=
  ∀ qs, (f qs).lastAvailIdx = qs.lastAvailIdx ∧ ((f qs).ready = qs.ready ∨ (f qs).ready = val &&& 1) ∧
    ((f qs).num = qs.num ∨ ((val &&& (val - 1) = 0 ∧ 0 < val) ∧ (f qs).num = val)) ∧
    (f qs).manualRecv = qs.manualRecv

/-- What a register write can do: nothing, set `device_features_sel`, select a queue in
range, update a field of the selected queue other than `last_avail_idx`, write `STATUS`, or
acknowledge interrupts. -/
theorem writeRegister_cases {s s' : VirtioDevice} {offset val : U32}
    (h : writeRegister s offset val = .done s') :
    s' = s ∨ s' = { s with deviceFeaturesSel := val } ∨
    (val.toNat < maxQueue ∧ s' = { s with queueSel := val }) ∨
    (∃ f, s.modifySelectedQueue f = .done s' ∧ QueueRegisterUpdate val f) ∨
    (offset = virtioMmioStatus ∧ s' = statusWrite s val) ∨
    (offset = virtioMmioInterruptAck ∧ s' = interruptAck s val) := by
  unfold Virtio.writeRegister at h
  by_cases h1 : offset = virtioMmioDeviceFeaturesSel
  · rw [if_pos h1] at h; cases h; exact .inr (.inl rfl)
  rw [if_neg h1] at h
  by_cases h2 : offset = virtioMmioQueueSel
  · rw [if_pos h2] at h; cases h
    split
    · exact .inr (.inr (.inl ⟨‹_›, rfl⟩))
    · exact .inl rfl
  rw [if_neg h2] at h
  by_cases h3 : offset = virtioMmioQueueNum
  · rw [if_pos h3] at h
    split at h
    · exact .inr (.inr (.inr (.inl ⟨_, h, fun _ => ⟨rfl, .inl rfl, .inr ⟨‹_›, rfl⟩, rfl⟩⟩)))
    · cases h; exact .inl rfl
  rw [if_neg h3] at h
  by_cases h4 : offset = virtioMmioQueueDescLow
  · rw [if_pos h4] at h; exact .inr (.inr (.inr (.inl ⟨_, h, fun _ => ⟨rfl, .inl rfl, .inl rfl, rfl⟩⟩)))
  rw [if_neg h4] at h
  by_cases h5 : offset = virtioMmioQueueAvailLow
  · rw [if_pos h5] at h; exact .inr (.inr (.inr (.inl ⟨_, h, fun _ => ⟨rfl, .inl rfl, .inl rfl, rfl⟩⟩)))
  rw [if_neg h5] at h
  by_cases h6 : offset = virtioMmioQueueUsedLow
  · rw [if_pos h6] at h; exact .inr (.inr (.inr (.inl ⟨_, h, fun _ => ⟨rfl, .inl rfl, .inl rfl, rfl⟩⟩)))
  rw [if_neg h6] at h
  by_cases h7 : offset = virtioMmioQueueDescHigh
  · rw [if_pos h7] at h; exact .inr (.inr (.inr (.inl ⟨_, h, fun _ => ⟨rfl, .inl rfl, .inl rfl, rfl⟩⟩)))
  rw [if_neg h7] at h
  by_cases h8 : offset = virtioMmioQueueAvailHigh
  · rw [if_pos h8] at h; exact .inr (.inr (.inr (.inl ⟨_, h, fun _ => ⟨rfl, .inl rfl, .inl rfl, rfl⟩⟩)))
  rw [if_neg h8] at h
  by_cases h9 : offset = virtioMmioQueueUsedHigh
  · rw [if_pos h9] at h; exact .inr (.inr (.inr (.inl ⟨_, h, fun _ => ⟨rfl, .inl rfl, .inl rfl, rfl⟩⟩)))
  rw [if_neg h9] at h
  by_cases h10 : offset = virtioMmioStatus
  · rw [if_pos h10] at h; cases h; exact .inr (.inr (.inr (.inr (.inl ⟨h10, rfl⟩))))
  rw [if_neg h10] at h
  by_cases h11 : offset = virtioMmioQueueReady
  · rw [if_pos h11] at h; exact .inr (.inr (.inr (.inl ⟨_, h, fun _ => ⟨rfl, .inr rfl, .inl rfl, rfl⟩⟩)))
  rw [if_neg h11] at h
  by_cases h12 : offset = virtioMmioInterruptAck
  · rw [if_pos h12] at h; cases h; exact .inr (.inr (.inr (.inr (.inr ⟨h12, rfl⟩))))
  rw [if_neg h12] at h
  cases h; exact .inl rfl

/-! ## The interrupt line -/

/-- The line is high exactly when `int_status ≠ 0`, and `int_status` holds no bit but bit 0
(used ring) and bit 1 (config change): it is below 4. -/
structure IrqInvariant (s : VirtioDevice) : Prop where
  irqLevel_eq : s.irqLevel = decide (s.intStatus ≠ 0)
  intStatus_lt : s.intStatus.toNat < 4

/-- The invariant reads only the line and `int_status`. -/
theorem IrqInvariant.of_eq {s s' : VirtioDevice} (hs : IrqInvariant s)
    (hirq : s'.irqLevel = s.irqLevel) (hint : s'.intStatus = s.intStatus) : IrqInvariant s' where
  irqLevel_eq := hirq ▸ hint ▸ hs.irqLevel_eq
  intStatus_lt := hint ▸ hs.intStatus_lt

theorem irqInvariant_virtioInit (deviceId : U32) (configSpaceSize : Int) :
    IrqInvariant (virtioInit deviceId configSpaceSize) := ⟨rfl, (by decide : (0 : U32).toNat < 4)⟩

/-- Setting bit 0 or bit 1 and raising the line keeps the invariant. -/
theorem IrqInvariant.raise {s : VirtioDevice} (hs : IrqInvariant s) {b : U32} (hb : b = 1 ∨ b = 2) :
    IrqInvariant ({ s with intStatus := s.intStatus ||| b }.setIrq true) := by
  have key : ∀ x : U32, x.toNat < 4 → x ||| b ≠ 0 ∧ (x ||| b).toNat < 4 := by
    intro x hx
    rcases (show x = 0 ∨ x = 1 ∨ x = 2 ∨ x = 3 by bv_omega) with rfl | rfl | rfl | rfl <;>
      rcases hb with rfl | rfl <;> decide
  obtain ⟨hne, hlt⟩ := key _ hs.intStatus_lt
  exact ⟨(decide_eq_true hne).symm, hlt⟩

theorem IrqInvariant.interruptAck {s : VirtioDevice} (hs : IrqInvariant s) (val : U32) :
    IrqInvariant (interruptAck s val) := by
  have hlt : (s.intStatus &&& ~~~val).toNat < 4 := by
    rw [BitVec.toNat_and]; exact Nat.lt_of_le_of_lt Nat.and_le_left hs.intStatus_lt
  dsimp only [Virtio.interruptAck]
  split
  · next h0 => exact ⟨by simp [h0], hlt⟩
  · next h0 =>
    -- a nonzero `int_status & ~val` needs a nonzero `int_status`, so the line was high
    have hx : s.intStatus ≠ 0 := fun hx => h0 (by simp [hx])
    exact ⟨hs.irqLevel_eq.trans ((decide_eq_true hx).trans (decide_eq_true h0).symm), hlt⟩

theorem IrqInvariant.statusWrite {s : VirtioDevice} (hs : IrqInvariant s) (val : U32) :
    IrqInvariant (statusWrite s val) := by
  unfold Virtio.statusWrite
  split
  · exact ⟨rfl, (by decide : (0 : U32).toNat < 4)⟩
  · exact hs.of_eq rfl rfl

theorem IrqInvariant.writeRegister {s s' : VirtioDevice} (hs : IrqInvariant s)
    {offset val : U32} (h : writeRegister s offset val = .done s') : IrqInvariant s' := by
  rcases writeRegister_cases h with rfl | rfl | ⟨-, rfl⟩ | ⟨f, hm, -⟩ | ⟨-, rfl⟩ | ⟨-, rfl⟩
  · exact hs
  · exact hs.of_eq rfl rfl
  · exact hs.of_eq rfl rfl
  · obtain ⟨i, -, rfl⟩ := (modifySelectedQueue_eq_done s).mp hm
    exact hs.of_eq rfl rfl
  · exact hs.statusWrite val
  · exact hs.interruptAck val

/-! ## Invariants of whole runs -/

section Run

variable {F : Type} (fuel : Nat) (recv : DeviceRecvFunc F)

/-- A property of the transport that config-space writes, index moves, used and config
interrupts and register writes keep holds after every operation, when the handler raises
the used interrupt at most. -/
theorem step_core_invariant (P : VirtioDevice → Prop) (hrecv : RaisesUsedOnly recv)
    (hcfg : ∀ s cs, P s → P { s with configSpace := cs })
    (hlast : ∀ s q v, P s → P (s.setLastAvail q v))
    (hraise : ∀ s, P s → P s.raiseUsed)
    (hreg : ∀ s s' offset val, P s → writeRegister s offset val = .done s' → P s')
    (hcc : ∀ s, P s → P (virtioConfigChangeNotify s))
    {op : Op} {m m' : Machine F} (hm : P m.core) (h : step fuel recv op m = .done m') :
    P m'.core := by
  rcases step_core fuel recv h with e | ⟨cs, e⟩ | ⟨q, hq⟩ | ⟨o, v, -, hw⟩ | e | ⟨-, e⟩
  · exact e ▸ hm
  · exact e ▸ hcfg _ cs hm
  · obtain ⟨v, raised, e⟩ := queueNotify_frame fuel recv q hrecv hq
    rw [e]
    cases raised
    · exact hlast _ q v hm
    · exact hraise _ (hlast _ q v hm)
  · exact hreg _ _ o v hm hw
  · exact e ▸ hraise _ hm
  · exact e ▸ hcc _ hm

theorem QueueInvariant.writeRegister {s s' : VirtioDevice} (hs : QueueInvariant s)
    {offset val : U32} (h : writeRegister s offset val = .done s') : QueueInvariant s' := by
  rcases writeRegister_cases h with rfl | rfl | ⟨hv, rfl⟩ | ⟨f, hm, hf⟩ | ⟨-, rfl⟩ | ⟨-, rfl⟩
  · exact hs
  · exact hs.of_eq rfl rfl
  · exact ⟨hv, hs.2, hs.3⟩
  · refine hs.modifySelectedQueue hm fun qs hr hn => ⟨?_, ?_⟩
    · rcases (hf qs).2.1 with e | e <;> rw [e]
      · exact hr
      · exact and_one_eq_zero_or_one val
    · rcases (hf qs).2.2.1 with e | ⟨hacc, e⟩ <;> rw [e]
      · exact hn
      · exact isPowerOfTwo_of_queueNum_accepted hacc
  · unfold statusWrite
    split
    · exact queueInvariant_virtioReset _
    · exact hs.of_eq rfl rfl
  · exact hs.of_eq (interruptAck_queueSel s val) (interruptAck_queue s val)

/-- Every operation keeps `QueueInvariant`. -/
theorem QueueInvariant.step (hrecv : RaisesUsedOnly recv) {op : Op} {m m' : Machine F}
    (hm : QueueInvariant m.core) (h : step fuel recv op m = .done m') : QueueInvariant m'.core :=
  step_core_invariant fuel recv QueueInvariant hrecv (fun _ _ hs => hs.of_eq rfl rfl)
    (fun _ q v hs => hs.setLastAvail q v) (fun _ hs => hs.of_eq rfl rfl)
    (fun _ _ _ _ hs hw => hs.writeRegister hw) (fun _ hs => hs.of_eq rfl rfl) hm h

/-- Every operation keeps `IrqInvariant`. -/
theorem IrqInvariant.step (hrecv : RaisesUsedOnly recv) {op : Op} {m m' : Machine F}
    (hm : IrqInvariant m.core) (h : step fuel recv op m = .done m') : IrqInvariant m'.core :=
  step_core_invariant fuel recv IrqInvariant hrecv (fun _ _ hs => hs.of_eq rfl rfl)
    (fun _ _ _ hs => hs.of_eq rfl rfl) (fun _ hs => hs.raise (.inl rfl))
    (fun _ _ _ _ hs hw => hs.writeRegister hw) (fun _ hs => hs.raise (.inr rfl)) hm h

/-- No operation sets `manual_recv`. -/
theorem step_manualRecv (hrecv : RaisesUsedOnly recv) {op : Op} {m m' : Machine F}
    (hm : ∀ i, (m.core.queue i).manualRecv = false) (h : step fuel recv op m = .done m') :
    ∀ i, (m'.core.queue i).manualRecv = false := by
  refine step_core_invariant fuel recv (fun s => ∀ i, (s.queue i).manualRecv = false) hrecv
    (fun _ _ hs => hs)
    (fun s q _ hs => setQueue_queue_of_forall s (P := fun qs => qs.manualRecv = false) (hs q) hs)
    (fun _ hs => hs)
    (fun s s' _ val hs hw => ?_) (fun _ hs => hs) hm h
  rcases writeRegister_cases hw with rfl | rfl | ⟨-, rfl⟩ | ⟨f, hmod, hf⟩ | ⟨-, rfl⟩ | ⟨-, rfl⟩
  · exact hs
  · exact hs
  · exact hs
  · obtain ⟨i, -, rfl⟩ := (modifySelectedQueue_eq_done s).mp hmod
    exact setQueue_queue_of_forall s (P := fun qs => qs.manualRecv = false)
      ((hf _).2.2.2.trans (hs i)) hs
  · unfold statusWrite
    split
    · exact hs
    · exact hs
  · rw [interruptAck_queue]
    exact hs

/-- An operation clears a bit of `int_status` only as an `INTERRUPT_ACK` write whose value has
that bit set, or as a `STATUS` write of 0. -/
theorem step_clears_intStatus (hrecv : RaisesUsedOnly recv) {op : Op} {m m' : Machine F}
    (h : step fuel recv op m = .done m') {i : Nat} (hi : m.core.intStatus.getLsbD i = true)
    (hi' : m'.core.intStatus.getLsbD i = false) :
    (∃ val, op = .mmioWrite virtioMmioInterruptAck val 2 ∧ val.getLsbD i = true) ∨
      op = .mmioWrite virtioMmioStatus 0 2 := by
  -- every other operation keeps or sets bits
  have same : m'.core.intStatus = m.core.intStatus → False := fun e => by
    rw [e, hi] at hi'; cases hi'
  have grow : ∀ b, m'.core.intStatus = m.core.intStatus ||| b → False := fun b e => by
    simp [e, hi, BitVec.getLsbD_or] at hi'
  rcases step_core fuel recv h with e | ⟨cs, e⟩ | ⟨q, hq⟩ | ⟨o, val, rfl, hw⟩ | e | ⟨-, e⟩
  · exact (same (by rw [e])).elim
  · exact (same (by rw [e])).elim
  · obtain ⟨v, raised, e⟩ := queueNotify_frame fuel recv q hrecv hq
    cases raised
    · exact (same (by rw [e]; rfl)).elim
    · exact (grow 1 (by rw [e]; rfl)).elim
  · rcases writeRegister_cases hw with e | e | ⟨-, e⟩ | ⟨f, hm, -⟩ | ⟨ho, e⟩ | ⟨ho, e⟩
    · exact (same (by rw [e])).elim
    · exact (same (by rw [e])).elim
    · exact (same (by rw [e])).elim
    · obtain ⟨j, -, e⟩ := (modifySelectedQueue_eq_done _).mp hm
      exact (same (by simp [e])).elim
    · subst ho
      by_cases hv : val = 0
      · exact .inr (hv ▸ rfl)
      · exact (same (by rw [e]; unfold Virtio.statusWrite; rw [if_neg hv])).elim
    · subst ho
      refine .inl ⟨val, rfl, ?_⟩
      have hlt : i < 32 := BitVec.lt_of_getLsbD hi
      rw [e, interruptAck_intStatus] at hi'
      simpa [BitVec.getLsbD_and, BitVec.getLsbD_not, hi, hlt] using hi'
  · exact (grow 1 (by rw [e]; rfl)).elim
  · exact (grow 2 (by rw [e]; rfl)).elim

end Run

end SpikeDevices.Virtio
