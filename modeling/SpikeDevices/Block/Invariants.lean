import SpikeDevices.Block.DeviceLemmas
import SpikeDevices.Virtio.Used

/-!
# Register invariants of the block device

The transport invariants of `Virtio/Invariants.lean` hold in every reachable state of the
block device: its handler raises the used interrupt at most
(`virtioBlockRecvRequest_raisesUsedOnly`), and `virtio_block_init` starts from
`virtio_init`. So in every reachable state a used-ring publication lands in the slot
`used.idx mod num` (`reachable_consumeDesc`).
-/

namespace SpikeDevices.Block

open Virtio VirtioDevice GuestMemory

theorem initialMachine_queueInvariant (size : Nat) (bytes : Nat → U8) (mode : BlockDeviceMode)
    (mem : GuestMemory) : QueueInvariant (initialMachine size bytes mode mem).core :=
  (queueInvariant_virtioInit 2 8).of_eq rfl rfl

theorem initialMachine_irqInvariant (size : Nat) (bytes : Nat → U8) (mode : BlockDeviceMode)
    (mem : GuestMemory) : IrqInvariant (initialMachine size bytes mode mem).core :=
  (irqInvariant_virtioInit 2 8).of_eq rfl rfl

/-- A property that holds initially and that every operation keeps holds in every reachable
state. -/
theorem Reachable.invariant (P : BlockMachine → Prop)
    (hinit : ∀ size bytes mode mem, P (initialMachine size bytes mode mem))
    (hstep : ∀ fuel op (m m' : BlockMachine), P m →
      step fuel (virtioBlockRecvRequest fuel) op m = .done m' → P m')
    {m : BlockMachine} (hm : Reachable m) : P m := by
  obtain ⟨size, bytes, mode, mem, fuel, ops, h⟩ := hm
  exact run_invariant fuel _ P (fun op _ _ => hstep fuel op _ _) ops _ _ (hinit size bytes mode mem) h

/-- The same for a property of the transport alone. -/
theorem Reachable.core_invariant (P : VirtioDevice → Prop)
    (hinit : ∀ size bytes mode mem, P (initialMachine size bytes mode mem).core)
    (hstep : ∀ fuel op (m m' : BlockMachine), P m.core →
      step fuel (virtioBlockRecvRequest fuel) op m = .done m' → P m'.core)
    {m : BlockMachine} (hm : Reachable m) : P m.core :=
  hm.invariant (fun m => P m.core) hinit hstep

theorem Reachable.queueInvariant {m : BlockMachine} (hm : Reachable m) : QueueInvariant m.core :=
  hm.core_invariant QueueInvariant initialMachine_queueInvariant
    fun fuel _ _ _ hs h => hs.step fuel _ (virtioBlockRecvRequest_raisesUsedOnly fuel) h

/-- Nothing sets `manual_recv` on the block device: every notify of a reachable state polls. -/
theorem Reachable.manualRecv {m : BlockMachine} (hm : Reachable m) (i : Fin maxQueue) :
    (m.core.queue i).manualRecv = false :=
  hm.core_invariant (fun s => ∀ i, (s.queue i).manualRecv = false) (fun _ _ _ _ _ => rfl)
    (fun fuel _ _ _ hs h => step_manualRecv fuel _ (virtioBlockRecvRequest_raisesUsedOnly fuel) hs h) i

/-- The file backend answers at once, so no reachable state has a request in progress. -/
theorem Reachable.not_reqInProgress {m : BlockMachine} (hm : Reachable m) :
    m.front.reqInProgress = false := by
  refine hm.invariant (fun m => m.front.reqInProgress = false) (fun _ _ _ _ => rfl) ?_
  intro fuel op m m' hm' h
  rcases step_front fuel _ h with e | ⟨q, hq⟩
  · rw [e]; exact hm'
  · have := queueNotify_rel fuel (virtioBlockRecvRequest fuel) q
      (fun m m' => m'.front.reqInProgress = m.front.reqInProgress) (fun _ => rfl)
      (fun _ _ _ hab hbc => hbc.trans hab)
      (fun _ _ _ _ _ _ hr => virtioBlockRecvRequest_reqInProgress fuel hr) (fun _ => rfl) hq
    rw [this]; exact hm'

/-! ## A driver's session -/

/-- The driver places the rings of queue 0 apart: descriptors at `0x100`, the available ring
at `0x200`, the used ring at `0x300`. -/
def ringsApartOps : List Op :=
  [.mmioWrite virtioMmioQueueDescLow 0x100 2, .mmioWrite virtioMmioQueueAvailLow 0x200 2,
   .mmioWrite virtioMmioQueueUsedLow 0x300 2]

/-- The state those writes leave over zeroed memory and an empty read-write file. -/
def ringsApartMachine : BlockMachine :=
  match run 0 (virtioBlockRecvRequest 0) ringsApartOps (initialMachine 0 (fun _ => 0) .rw (fun _ => 0)) with
  | .done m => m
  | _ => initialMachine 0 (fun _ => 0) .rw (fun _ => 0)

theorem ringsApartMachine_reachable : Reachable ringsApartMachine :=
  ⟨0, fun _ => 0, .rw, fun _ => 0, 0, ringsApartOps, rfl⟩

/-- A descriptor table for an IN request of no sectors: the 16-byte header at `0x1000`, then
one writable status byte at `0x2000`. -/
def statusOnlyTable : List U8 :=
  encodeLE 8 0x1000 ++ encodeLE 4 16 ++ encodeLE 2 1 ++ encodeLE 2 1 ++
  encodeLE 8 0x2000 ++ encodeLE 4 1 ++ encodeLE 2 2 ++ encodeLE 2 0

/-- Guest memory with that table at `0x100` and head 0 posted (`avail.idx = 1` at `0x202`);
the zero header is an IN request from sector 0. -/
def statusOnlyMem : GuestMemory := fun a =>
  if a = 0x202 then 1 else if 0x100 ≤ a ∧ a < 0x120 then statusOnlyTable.getD (a - 0x100).toNat 0 else 0

/-- The driver places the rings and notifies queue 0, where the device publishes `(0, 1)` and
raises bit 0 of `int_status`; the device signals a config change (bit 1); the driver
acknowledges bit 0 alone, selects queue 1, sets its size to 8, and then asks for the size 5,
which is refused. -/
def sessionOps : List Op :=
  ringsApartOps ++ [.mmioWrite virtioMmioQueueNotify 0 2, .configChangeNotify,
    .mmioWrite virtioMmioInterruptAck 1 2, .mmioWrite virtioMmioQueueSel 1 2,
    .mmioWrite virtioMmioQueueNum 8 2, .mmioWrite virtioMmioQueueNum 5 2]

/-- The state that session leaves over `statusOnlyMem` and a one-sector read-write file. -/
def sessionMachine : BlockMachine :=
  match run 16 (virtioBlockRecvRequest 16) sessionOps (initialMachine 512 (fun _ => 0x5A) .rw statusOnlyMem) with
  | .done m => m
  | _ => initialMachine 512 (fun _ => 0x5A) .rw statusOnlyMem

set_option maxRecDepth 8000 in
theorem sessionMachine_reachable : Reachable sessionMachine :=
  ⟨512, fun _ => 0x5A, .rw, statusOnlyMem, 16, sessionOps, rfl⟩

/-- In every reachable state `queue_sel < MAX_QUEUE`, every queue has `ready ∈ {0, 1}` and a
power-of-two `num`; so `s->queue[s->queue_sel]` is in bounds, and every ring slot
`idx & (num - 1)` is `idx % num`. -/
theorem reachable_queueInvariant {m : BlockMachine} (hm : Reachable m) :
    QueueInvariant m.core ∧ (∃ i, m.core.selectedQueue = .done i) ∧
      ∀ i (idx : U32), (idx &&& ((m.core.queue i).num - 1)).toNat =
        idx.toNat % (m.core.queue i).num.toNat := by
  have hq := hm.queueInvariant
  exact ⟨hq, ⟨_, selectedQueue_of_invariant hq⟩,
    fun i idx => and_num_sub_one_toNat (hq.num_isPowerOfTwo i) idx⟩

set_option maxRecDepth 8000 in
/-- After the session queue 1 is selected and keeps the size 8: the size 5 was refused. -/
theorem reachable_queueInvariant_session :
    (QueueInvariant sessionMachine.core ∧ (∃ i, sessionMachine.core.selectedQueue = .done i) ∧
      ∀ i (idx : U32), (idx &&& ((sessionMachine.core.queue i).num - 1)).toNat =
        idx.toNat % (sessionMachine.core.queue i).num.toNat) ∧
    sessionMachine.core.queueSel = 1 ∧ (sessionMachine.core.queue 1).num = 8 :=
  ⟨reachable_queueInvariant sessionMachine_reachable, rfl, rfl⟩

/-- In every reachable state the IRQ line is high exactly when `int_status ≠ 0` and
`int_status` has no bit but bits 0 and 1; and an operation from there clears a bit of
`int_status` only as an `INTERRUPT_ACK` write whose value has that bit, or a `STATUS` write
of 0. -/
theorem reachable_irqInvariant {m : BlockMachine} (hm : Reachable m) :
    IrqInvariant m.core ∧
      ∀ fuel op (m' : BlockMachine) i, step fuel (virtioBlockRecvRequest fuel) op m = .done m' →
        m.core.intStatus.getLsbD i = true → m'.core.intStatus.getLsbD i = false →
        (∃ val, op = .mmioWrite virtioMmioInterruptAck val 2 ∧ val.getLsbD i = true) ∨
          op = .mmioWrite virtioMmioStatus 0 2 :=
  ⟨hm.core_invariant IrqInvariant initialMachine_irqInvariant
      fun fuel _ _ _ hs h => hs.step fuel _ (virtioBlockRecvRequest_raisesUsedOnly fuel) h,
    fun fuel _ _ _ h => step_clears_intStatus fuel _ (virtioBlockRecvRequest_raisesUsedOnly fuel) h⟩

set_option maxRecDepth 8000 in
/-- After the session the partial acknowledgement has left bit 1 (config change) set, and the
line high; the used index at `0x302` is 1. -/
theorem reachable_irqInvariant_session :
    (IrqInvariant sessionMachine.core ∧
      ∀ fuel op (m' : BlockMachine) i, step fuel (virtioBlockRecvRequest fuel) op sessionMachine = .done m' →
        sessionMachine.core.intStatus.getLsbD i = true → m'.core.intStatus.getLsbD i = false →
        (∃ val, op = .mmioWrite virtioMmioInterruptAck val 2 ∧ val.getLsbD i = true) ∨
          op = .mmioWrite virtioMmioStatus 0 2) ∧
    sessionMachine.core.intStatus = 2 ∧ sessionMachine.core.irqLevel = true ∧
    sessionMachine.mem.load16 0x302 = 1 :=
  ⟨reachable_irqInvariant sessionMachine_reachable, rfl, rfl, rfl⟩

/-- In every reachable state (where `num` is a power of two) and over any guest memory,
`virtio_consume_desc` moves the used index at `used_addr + 2` from `old` to `old + 1` modulo
`2^16`, writes the head and the length as two little-endian words into the 8 bytes at
`used_addr + 4 + 8 (old mod num)`, changes no other guest byte, and sets bit 0 of
`int_status` with the line high. -/
theorem reachable_consumeDesc {m : BlockMachine} (hm : Reachable m) (mem : GuestMemory)
    (q : Fin maxQueue) (d : U16) (len : Int) :
    ∃ m', virtioConsumeDesc { m with mem } q d len = m' ∧
      m'.mem.load16 ((m.core.queue q).usedAddr + 2) = mem.load16 ((m.core.queue q).usedAddr + 2) + 1 ∧
      m'.mem.load32 ((m.core.queue q).usedAddr + 4 + BitVec.ofNat 64
          (8 * ((mem.load16 ((m.core.queue q).usedAddr + 2)).toNat % (m.core.queue q).num.toNat))) =
        d.setWidth 32 ∧
      m'.mem.load32 ((m.core.queue q).usedAddr + 4 + BitVec.ofNat 64
          (8 * ((mem.load16 ((m.core.queue q).usedAddr + 2)).toNat % (m.core.queue q).num.toNat)) + 4) =
        toUInt32 len ∧
      (∀ a, ¬ InRegion ((m.core.queue q).usedAddr + 2) 2 a →
        ¬ InRegion ((m.core.queue q).usedAddr + 4 + BitVec.ofNat 64
          (8 * ((mem.load16 ((m.core.queue q).usedAddr + 2)).toNat % (m.core.queue q).num.toNat))) 8 a →
        m'.mem a = mem a) ∧
      m'.core.intStatus.getLsbD 0 = true ∧ m'.core.irqLevel = true := by
  have hnum := hm.queueInvariant.num_isPowerOfTwo q
  have hslot := usedEntryAddr_slot hnum (mem.load16 ((m.core.queue q).usedAddr + 2))
  obtain ⟨hidx, hhead, hlen⟩ := virtioConsumeDesc_publish { m with mem } q d len hnum
  refine ⟨_, rfl, hidx, hslot ▸ hhead, hslot ▸ hlen, fun a h1 h2 =>
    virtioConsumeDesc_apart { m with mem } q d len h1 (hslot ▸ h2), ?_, rfl⟩
  simp [virtioConsumeDesc, BitVec.getLsbD_or]

/-- Over a memory of `0xff` bytes the used index is `0xffff` and wraps to 0. -/
theorem reachable_consumeDesc_wrap :
    Reachable (initialMachine 0 (fun _ => 0) .ro (fun _ => 0)) ∧
      ∃ m', virtioConsumeDesc { initialMachine 0 (fun _ => 0) .ro (fun _ => 0) with mem := fun _ => 0xff }
          0 5 16 = m' ∧
        m'.mem.load16 (((initialMachine 0 (fun _ => 0) .ro (fun _ => 0)).core.queue 0).usedAddr + 2) =
          load16 (fun _ => 0xff)
            (((initialMachine 0 (fun _ => 0) .ro (fun _ => 0)).core.queue 0).usedAddr + 2) + 1 ∧
        m'.mem.load32 (((initialMachine 0 (fun _ => 0) .ro (fun _ => 0)).core.queue 0).usedAddr + 4 +
            BitVec.ofNat 64 (8 * ((load16 (fun _ => 0xff)
              (((initialMachine 0 (fun _ => 0) .ro (fun _ => 0)).core.queue 0).usedAddr + 2)).toNat %
              ((initialMachine 0 (fun _ => 0) .ro (fun _ => 0)).core.queue 0).num.toNat))) = (5 : U16).setWidth 32 ∧
        m'.mem.load32 (((initialMachine 0 (fun _ => 0) .ro (fun _ => 0)).core.queue 0).usedAddr + 4 +
            BitVec.ofNat 64 (8 * ((load16 (fun _ => 0xff)
              (((initialMachine 0 (fun _ => 0) .ro (fun _ => 0)).core.queue 0).usedAddr + 2)).toNat %
              ((initialMachine 0 (fun _ => 0) .ro (fun _ => 0)).core.queue 0).num.toNat)) + 4) = toUInt32 16 ∧
        (∀ a, ¬ InRegion (((initialMachine 0 (fun _ => 0) .ro (fun _ => 0)).core.queue 0).usedAddr + 2) 2 a →
          ¬ InRegion (((initialMachine 0 (fun _ => 0) .ro (fun _ => 0)).core.queue 0).usedAddr + 4 +
            BitVec.ofNat 64 (8 * ((load16 (fun _ => 0xff)
              (((initialMachine 0 (fun _ => 0) .ro (fun _ => 0)).core.queue 0).usedAddr + 2)).toNat %
              ((initialMachine 0 (fun _ => 0) .ro (fun _ => 0)).core.queue 0).num.toNat))) 8 a →
          m'.mem a = (fun _ => 0xff : GuestMemory) a) ∧
        m'.core.intStatus.getLsbD 0 = true ∧ m'.core.irqLevel = true :=
  ⟨⟨0, fun _ => 0, .ro, fun _ => 0, 0, [], rfl⟩,
    reachable_consumeDesc ⟨0, fun _ => 0, .ro, fun _ => 0, 0, [], rfl⟩ (fun _ => 0xff) 0 5 16⟩

end SpikeDevices.Block
