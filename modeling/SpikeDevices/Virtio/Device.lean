import SpikeDevices.Virtio.Queue

/-!
# The VirtIO MMIO transport

`VIRTIODevice` of virtio.c and the functions that act on it: reset and initialisation, the
MMIO register file (`virtio_mmio_read`, `virtio_mmio_write`, the config space), used-ring
publication (`virtio_consume_desc`) and the available-ring poll (`queue_notify`). The front
end's `device_recv` is a parameter, so the transport is modelled once for every front end.

A `Machine` is the device together with its front end's own state and the guest memory.
-/

namespace SpikeDevices.Virtio

open GuestMemory

/-- `MAX_CONFIG_SPACE_SIZE`. -/
def maxConfigSpaceSize : Nat := 256

/-! ## Register offsets -/

/-- `VIRTIO_MMIO_MAGIC_VALUE`. -/
def virtioMmioMagicValue : U32 := 0x000
/-- `VIRTIO_MMIO_VERSION`. -/
def virtioMmioVersion : U32 := 0x004
/-- `VIRTIO_MMIO_DEVICE_ID`. -/
def virtioMmioDeviceId : U32 := 0x008
/-- `VIRTIO_MMIO_VENDOR_ID`. -/
def virtioMmioVendorId : U32 := 0x00c
/-- `VIRTIO_MMIO_DEVICE_FEATURES`. -/
def virtioMmioDeviceFeatures : U32 := 0x010
/-- `VIRTIO_MMIO_DEVICE_FEATURES_SEL`. -/
def virtioMmioDeviceFeaturesSel : U32 := 0x014
/-- `VIRTIO_MMIO_QUEUE_SEL`. -/
def virtioMmioQueueSel : U32 := 0x030
/-- `VIRTIO_MMIO_QUEUE_NUM_MAX`. -/
def virtioMmioQueueNumMax : U32 := 0x034
/-- `VIRTIO_MMIO_QUEUE_NUM`. -/
def virtioMmioQueueNum : U32 := 0x038
/-- `VIRTIO_MMIO_QUEUE_READY`. -/
def virtioMmioQueueReady : U32 := 0x044
/-- `VIRTIO_MMIO_QUEUE_NOTIFY`. -/
def virtioMmioQueueNotify : U32 := 0x050
/-- `VIRTIO_MMIO_INTERRUPT_STATUS`. -/
def virtioMmioInterruptStatus : U32 := 0x060
/-- `VIRTIO_MMIO_INTERRUPT_ACK`. -/
def virtioMmioInterruptAck : U32 := 0x064
/-- `VIRTIO_MMIO_STATUS`. -/
def virtioMmioStatus : U32 := 0x070
/-- `VIRTIO_MMIO_QUEUE_DESC_LOW`. -/
def virtioMmioQueueDescLow : U32 := 0x080
/-- `VIRTIO_MMIO_QUEUE_DESC_HIGH`. -/
def virtioMmioQueueDescHigh : U32 := 0x084
/-- `VIRTIO_MMIO_QUEUE_AVAIL_LOW`. -/
def virtioMmioQueueAvailLow : U32 := 0x090
/-- `VIRTIO_MMIO_QUEUE_AVAIL_HIGH`. -/
def virtioMmioQueueAvailHigh : U32 := 0x094
/-- `VIRTIO_MMIO_QUEUE_USED_LOW`. -/
def virtioMmioQueueUsedLow : U32 := 0x0a0
/-- `VIRTIO_MMIO_QUEUE_USED_HIGH`. -/
def virtioMmioQueueUsedHigh : U32 := 0x0a4
/-- `VIRTIO_MMIO_CONFIG_GENERATION`. -/
def virtioMmioConfigGeneration : U32 := 0x0fc
/-- `VIRTIO_MMIO_CONFIG`. -/
def virtioMmioConfig : U32 := 0x100

/-! ## Device state -/

/-- `VIRTIODevice`. The `irq` pointer is represented by `irqLevel`, the level last driven
on the line; `config_write` is never set by a front end of the sources and is left out. -/
structure VirtioDevice where
  irqLevel : Bool
  intStatus : U32
  status : U32
  deviceFeaturesSel : U32
  queueSel : U32
  queue : Fin maxQueue → QueueState
  deviceId : U32
  vendorId : U32
  deviceFeatures : U32
  configSpaceSize : U32
  configSpace : Nat → U8

/-- A device together with its front end's own state and the guest memory. -/
structure Machine (F : Type) where
  core : VirtioDevice
  front : F
  mem : GuestMemory

/-- `VIRTIODeviceRecvFunc`: the front end's handler of one available head, with the queue,
the head, and the sizes `get_desc_rw_size` found. A result below 0 stops the notification. -/
abbrev DeviceRecvFunc (F : Type) := Machine F → Fin maxQueue → U16 → Int → Int → Outcome (Int × Machine F)

namespace VirtioDevice

/-- `set_irq(s->irq, level)`. -/
def setIrq (s : VirtioDevice) (level : Bool) : VirtioDevice := { s with irqLevel := level }

/-- `s->queue[i] = qs`. -/
def setQueue (s : VirtioDevice) (i : Fin maxQueue) (qs : QueueState) : VirtioDevice :=
  { s with queue := fun j => if j = i then qs else s.queue j }

/-- `s->queue[s->queue_sel]`: the selected queue, or undefined behaviour when `queue_sel` is
past the array. -/
def selectedQueue (s : VirtioDevice) : Outcome (Fin maxQueue) :=
  if h : s.queueSel.toNat < maxQueue then .done ⟨s.queueSel.toNat, h⟩ else .fault

/-- An update of the selected queue. -/
def modifySelectedQueue (s : VirtioDevice) (f : QueueState → QueueState) :
    Outcome VirtioDevice := do
  let i ← s.selectedQueue
  pure (s.setQueue i (f (s.queue i)))

@[simp] theorem setQueue_queue_self (s : VirtioDevice) (i : Fin maxQueue) (qs : QueueState) :
    (s.setQueue i qs).queue i = qs := by simp [setQueue]

theorem setQueue_queue_of_ne (s : VirtioDevice) {i j : Fin maxQueue} (qs : QueueState)
    (h : j ≠ i) : (s.setQueue i qs).queue j = s.queue j := by simp [setQueue, h]

end VirtioDevice

open VirtioDevice

/-- `virtio_reset`. -/
def virtioReset (s : VirtioDevice) : VirtioDevice :=
  { s with
    status := 0
    queueSel := 0
    deviceFeaturesSel := 0
    intStatus := 0
    queue := fun i =>
      { s.queue i with
        ready := 0
        num := maxQueueNum
        descAddr := 0
        availAddr := 0
        usedAddr := 0
        lastAvailIdx := 0 } }

/-- `virtio_init` after `memset(s, 0, sizeof(*s))`. The line starts low. -/
def virtioInit (deviceId : U32) (configSpaceSize : Int) : VirtioDevice :=
  virtioReset
    { irqLevel := false
      intStatus := 0
      status := 0
      deviceFeaturesSel := 0
      queueSel := 0
      queue := fun _ => ⟨0, 0, 0, 0, 0, 0, false⟩
      deviceId
      vendorId := 0xffff
      deviceFeatures := 0
      configSpaceSize := toUInt32 configSpaceSize
      configSpace := fun _ => 0 }

/-! ## Used-ring publication -/

/-- The address of the used-ring entry for used index `index`:
`used_addr + 4 + (index & (num - 1)) * 8`. -/
def usedEntryAddr (qs : QueueState) (index : U32) : U64 :=
  qs.usedAddr + 4 + ((index &&& (qs.num - 1)) * 8).setWidth 64

/-- `s->int_status |= 1; set_irq(s->irq, 1)`: the used-ring interrupt. -/
def VirtioDevice.raiseUsed (s : VirtioDevice) : VirtioDevice :=
  { s with intStatus := s.intStatus ||| 1 }.setIrq true

/-- `virtio_consume_desc`: publish `(desc_idx, desc_len)` in the used ring, then set bit 0 of
`int_status` and raise the line. -/
def virtioConsumeDesc {F : Type} (m : Machine F) (queueIdx : Fin maxQueue) (descIdx : U16)
    (descLen : Int) : Machine F :=
  let qs := m.core.queue queueIdx
  let index : U32 := (m.mem.load16 (qs.usedAddr + 2)).setWidth 32
  let mem := m.mem.store16 (qs.usedAddr + 2) ((index + 1).setWidth 16)
  let mem := mem.store32 (usedEntryAddr qs index) (descIdx.setWidth 32)
  let mem := mem.store32 (usedEntryAddr qs index + 4) (toUInt32 descLen)
  { m with core := m.core.raiseUsed, mem }

/-- `virtio_config_change_notify`: set bit 1 of `int_status` and raise the line. -/
def virtioConfigChangeNotify (s : VirtioDevice) : VirtioDevice :=
  { s with intStatus := s.intStatus ||| 2 }.setIrq true

/-! ## The available-ring poll -/

/-- The address of the available-ring slot of `last_avail_idx`:
`avail_addr + 4 + (last_avail_idx & (num - 1)) * 2`. -/
def availEntryAddr (qs : QueueState) : U64 :=
  qs.availAddr + 4 + ((qs.lastAvailIdx.setWidth 32 &&& (qs.num - 1)) * 2).setWidth 64

/-- `qs->last_avail_idx++`. -/
def incLastAvail {F : Type} (m : Machine F) (queueIdx : Fin maxQueue) : Machine F :=
  let qs := m.core.queue queueIdx
  { m with core := m.core.setQueue queueIdx { qs with lastAvailIdx := qs.lastAvailIdx + 1 } }

section Notify

variable {F : Type} (fuel : Nat) (recv : DeviceRecvFunc F) (queueIdx : Fin maxQueue)

/-- The `while (qs->last_avail_idx != avail_idx)` loop of `queue_notify`, for at most
`fuelLeft` more iterations. -/
def notifyLoop (availIdx : U16) : Nat → Machine F → Outcome (Machine F)
  | 0, m => if (m.core.queue queueIdx).lastAvailIdx = availIdx then .done m else .diverge
  | fuelLeft + 1, m =>
    let qs := m.core.queue queueIdx
    if qs.lastAvailIdx = availIdx then .done m
    else do
      let descIdx := m.mem.load16 (availEntryAddr qs)
      let sizes ← getDescRwSize fuel m.mem qs descIdx
      match sizes with
      | none => notifyLoop availIdx fuelLeft (incLastAvail m queueIdx)
      | some (readSize, writeSize) => do
        let (ret, m) ← recv m queueIdx descIdx readSize writeSize
        if ret < 0 then .done m
        else notifyLoop availIdx fuelLeft (incLastAvail m queueIdx)

/-- `queue_notify`: hand every head the driver made available since `last_avail_idx` to the
front end. -/
def queueNotify (m : Machine F) : Outcome (Machine F) :=
  let qs := m.core.queue queueIdx
  if qs.manualRecv then .done m
  else notifyLoop fuel recv queueIdx (m.mem.load16 (qs.availAddr + 2)) fuel m

end Notify

/-! ## The config space -/

/-- `n` bytes of `config_space` from `pos` on; an index past the array is undefined. -/
def configBytes (s : VirtioDevice) (pos n : Nat) : Outcome (List U8) :=
  if pos + n ≤ maxConfigSpaceSize then .done ((List.range n).map fun i => s.configSpace (pos + i))
  else .fault

/-- Bytes stored into `config_space` from `pos` on; an index past the array is undefined. -/
def setConfigBytes (s : VirtioDevice) (pos : Nat) (bs : List U8) : Outcome VirtioDevice :=
  if pos + bs.length ≤ maxConfigSpaceSize then
    .done { s with configSpace := fun i =>
      if pos ≤ i ∧ i < pos + bs.length then bs.getD (i - pos) 0 else s.configSpace i }
  else .fault

/-- `virtio_config_read`: a byte, a `get_le16` or a `get_le32` of the config space when it
lies below `config_space_size`, else 0; other widths `abort()`. -/
def virtioConfigRead (s : VirtioDevice) (offset : U32) (sizeLog2 : Int) : Outcome U32 :=
  if sizeLog2 = 0 then
    if offset < s.configSpaceSize then do
      let bs ← configBytes s offset.toNat 1
      pure (BitVec.ofNat 32 (decodeLE bs))
    else .done 0
  else if sizeLog2 = 1 then
    if offset < s.configSpaceSize - 1 then do
      let bs ← configBytes s offset.toNat 2
      pure (BitVec.ofNat 32 (decodeLE bs))
    else .done 0
  else if sizeLog2 = 2 then
    if offset < s.configSpaceSize - 3 then do
      let bs ← configBytes s offset.toNat 4
      pure (BitVec.ofNat 32 (decodeLE bs))
    else .done 0
  else .fault

/-- `virtio_config_write`: a byte, a `put_le16` or a `put_le32` into the config space when it
lies below `config_space_size`; other widths are ignored. -/
def virtioConfigWrite (s : VirtioDevice) (offset : U32) (val : U32) (sizeLog2 : Int) :
    Outcome VirtioDevice :=
  if sizeLog2 = 0 then
    if offset < s.configSpaceSize then setConfigBytes s offset.toNat (encodeLE 1 val.toNat)
    else .done s
  else if sizeLog2 = 1 then
    if offset < s.configSpaceSize - 1 then setConfigBytes s offset.toNat (encodeLE 2 val.toNat)
    else .done s
  else if sizeLog2 = 2 then
    if offset < s.configSpaceSize - 3 then setConfigBytes s offset.toNat (encodeLE 4 val.toNat)
    else .done s
  else .done s

/-! ## The register file -/

/-- `set_low32`: replace the low half of a 64-bit address. -/
def setLow32 (addr : U64) (val : U32) : U64 := (addr &&& ~~~0xffffffff) ||| val.setWidth 64

/-- `set_high32`: replace the high half of a 64-bit address. -/
def setHigh32 (addr : U64) (val : U32) : U64 := (addr &&& 0xffffffff) ||| (val.setWidth 64 <<< 32)

/-- The 32-bit register reads of `virtio_mmio_read` below the config space. -/
def readRegister (s : VirtioDevice) (offset : U32) : Outcome U32 :=
  if offset = virtioMmioMagicValue then .done 0x74726976
  else if offset = virtioMmioVersion then .done 2
  else if offset = virtioMmioDeviceId then .done s.deviceId
  else if offset = virtioMmioVendorId then .done s.vendorId
  else if offset = virtioMmioDeviceFeatures then
    .done (if s.deviceFeaturesSel = 0 then s.deviceFeatures
           else if s.deviceFeaturesSel = 1 then 1 else 0)
  else if offset = virtioMmioDeviceFeaturesSel then .done s.deviceFeaturesSel
  else if offset = virtioMmioQueueSel then .done s.queueSel
  else if offset = virtioMmioQueueNumMax then .done maxQueueNum
  else if offset = virtioMmioQueueNum then do
    let i ← s.selectedQueue; pure (s.queue i).num
  else if offset = virtioMmioQueueDescLow then do
    let i ← s.selectedQueue; pure ((s.queue i).descAddr.setWidth 32)
  else if offset = virtioMmioQueueAvailLow then do
    let i ← s.selectedQueue; pure ((s.queue i).availAddr.setWidth 32)
  else if offset = virtioMmioQueueUsedLow then do
    let i ← s.selectedQueue; pure ((s.queue i).usedAddr.setWidth 32)
  else if offset = virtioMmioQueueDescHigh then do
    let i ← s.selectedQueue; pure (((s.queue i).descAddr >>> 32).setWidth 32)
  else if offset = virtioMmioQueueAvailHigh then do
    let i ← s.selectedQueue; pure (((s.queue i).availAddr >>> 32).setWidth 32)
  else if offset = virtioMmioQueueUsedHigh then do
    let i ← s.selectedQueue; pure (((s.queue i).usedAddr >>> 32).setWidth 32)
  else if offset = virtioMmioQueueReady then do
    let i ← s.selectedQueue; pure (s.queue i).ready
  else if offset = virtioMmioInterruptStatus then .done s.intStatus
  else if offset = virtioMmioStatus then .done s.status
  else .done 0

/-- `virtio_mmio_read`. -/
def virtioMmioRead (s : VirtioDevice) (offset : U32) (sizeLog2 : Int) : Outcome U32 :=
  if offset ≥ virtioMmioConfig then virtioConfigRead s (offset - virtioMmioConfig) sizeLog2
  else if sizeLog2 = 2 then readRegister s offset
  else .done 0

/-- The `INTERRUPT_ACK` write: `int_status &= ~val`, and the line lowered once it is 0. -/
def interruptAck (s : VirtioDevice) (val : U32) : VirtioDevice :=
  let s := { s with intStatus := s.intStatus &&& ~~~val }
  if s.intStatus = 0 then s.setIrq false else s

/-- The `STATUS` write: 0 lowers the line and resets the device. -/
def statusWrite (s : VirtioDevice) (val : U32) : VirtioDevice :=
  let s := { s with status := val }
  if val = 0 then virtioReset (s.setIrq false) else s

/-- The 32-bit register writes of `virtio_mmio_write` below the config space, except
`QUEUE_NOTIFY`, which also runs the front end. -/
def writeRegister (s : VirtioDevice) (offset val : U32) : Outcome VirtioDevice :=
  if offset = virtioMmioDeviceFeaturesSel then .done { s with deviceFeaturesSel := val }
  else if offset = virtioMmioQueueSel then
    .done (if val.toNat < maxQueue then { s with queueSel := val } else s)
  else if offset = virtioMmioQueueNum then
    if val &&& (val - 1) = 0 ∧ 0 < val then s.modifySelectedQueue fun qs => { qs with num := val }
    else .done s
  else if offset = virtioMmioQueueDescLow then
    s.modifySelectedQueue fun qs => { qs with descAddr := setLow32 qs.descAddr val }
  else if offset = virtioMmioQueueAvailLow then
    s.modifySelectedQueue fun qs => { qs with availAddr := setLow32 qs.availAddr val }
  else if offset = virtioMmioQueueUsedLow then
    s.modifySelectedQueue fun qs => { qs with usedAddr := setLow32 qs.usedAddr val }
  else if offset = virtioMmioQueueDescHigh then
    s.modifySelectedQueue fun qs => { qs with descAddr := setHigh32 qs.descAddr val }
  else if offset = virtioMmioQueueAvailHigh then
    s.modifySelectedQueue fun qs => { qs with availAddr := setHigh32 qs.availAddr val }
  else if offset = virtioMmioQueueUsedHigh then
    s.modifySelectedQueue fun qs => { qs with usedAddr := setHigh32 qs.usedAddr val }
  else if offset = virtioMmioStatus then .done (statusWrite s val)
  else if offset = virtioMmioQueueReady then
    s.modifySelectedQueue fun qs => { qs with ready := val &&& 1 }
  else if offset = virtioMmioInterruptAck then .done (interruptAck s val)
  else .done s

/-- `virtio_mmio_write`. -/
def virtioMmioWrite {F : Type} (fuel : Nat) (recv : DeviceRecvFunc F) (m : Machine F)
    (offset val : U32) (sizeLog2 : Int) : Outcome (Machine F) :=
  if offset ≥ virtioMmioConfig then do
    let core ← virtioConfigWrite m.core (offset - virtioMmioConfig) val sizeLog2
    pure { m with core }
  else if sizeLog2 = 2 then
    if offset = virtioMmioQueueNotify then
      if h : val.toNat < maxQueue then queueNotify fuel recv ⟨val.toNat, h⟩ m else .done m
    else do
      let core ← writeRegister m.core offset val
      pure { m with core }
  else .done m

/-! ## Runs -/

/-- One thing that can happen to a device: a register access of any offset, value and width,
a `queue_notify` run, a `virtio_consume_desc` or `virtio_config_change_notify` call, or a
change of guest memory by the CPU. -/
inductive Op where
  | mmioWrite (offset val : U32) (sizeLog2 : Int)
  | mmioRead (offset : U32) (sizeLog2 : Int)
  | notify (queueIdx : Fin maxQueue)
  | consumeDesc (queueIdx : Fin maxQueue) (descIdx : U16) (descLen : Int)
  | configChangeNotify
  | guestWrite (mem : GuestMemory)

section Run

variable {F : Type} (fuel : Nat) (recv : DeviceRecvFunc F)

/-- The effect of one operation. A read changes nothing but may fault. -/
def step : Op → Machine F → Outcome (Machine F)
  | .mmioWrite offset val sizeLog2, m => virtioMmioWrite fuel recv m offset val sizeLog2
  | .mmioRead offset sizeLog2, m => do
    let _ ← virtioMmioRead m.core offset sizeLog2
    pure m
  | .notify queueIdx, m => queueNotify fuel recv queueIdx m
  | .consumeDesc queueIdx descIdx descLen, m => .done (virtioConsumeDesc m queueIdx descIdx descLen)
  | .configChangeNotify, m => .done { m with core := virtioConfigChangeNotify m.core }
  | .guestWrite mem, m => .done { m with mem }

/-- The operations one after the other. -/
def run : List Op → Machine F → Outcome (Machine F)
  | [], m => .done m
  | op :: ops, m => step fuel recv op m >>= run ops

end Run

end SpikeDevices.Virtio
