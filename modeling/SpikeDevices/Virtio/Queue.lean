import SpikeDevices.Machine.GuestMemory

/-!
# Split virtqueues: descriptors, chain walks and scatter-gather copies

The per-queue state of the VirtIO MMIO transport and the three routines of virtio.c that
walk a descriptor chain in guest memory: `get_desc`, `get_desc_rw_size` and
`memcpy_to_from_queue`. A chain is followed through `next` links the guest writes, and the
source bounds none of these walks, so each loop takes `fuel`: a loop that would run more
iterations than its fuel ends in `diverge`. Each loop of the source is one definition here,
written with the source's `int` and `uint32_t` conversions.
-/

namespace SpikeDevices.Virtio

open GuestMemory

/-- `MAX_QUEUE`. -/
def maxQueue : Nat := 8

instance : NeZero maxQueue := ⟨by decide⟩

/-- `MAX_QUEUE_NUM`. -/
def maxQueueNum : U32 := 16

/-- `QueueState`: one virtqueue as the transport sees it. -/
structure QueueState where
  ready : U32
  num : U32
  lastAvailIdx : U16
  descAddr : U64
  availAddr : U64
  usedAddr : U64
  manualRecv : Bool
deriving DecidableEq, Repr

/-- `VRING_DESC_F_NEXT`. -/
def vringDescFNext : U16 := 1

/-- `VRING_DESC_F_WRITE`. -/
def vringDescFWrite : U16 := 2

/-- `VIRTIODesc`: one 16-byte entry of the descriptor table. -/
structure VirtioDesc where
  addr : U64
  len : U32
  flags : U16
  next : U16
deriving DecidableEq, Repr

namespace VirtioDesc

/-- `desc.flags & VRING_DESC_F_WRITE`: the buffer is device-writable. -/
def isWrite (desc : VirtioDesc) : Bool := desc.flags &&& vringDescFWrite != 0

/-- `desc.flags & VRING_DESC_F_NEXT`: the chain goes on at `desc.next`. -/
def hasNext (desc : VirtioDesc) : Bool := desc.flags &&& vringDescFNext != 0

/-- The descriptor decoded from its 16 bytes in the host's little-endian layout. -/
def decode (bs : List U8) : VirtioDesc where
  addr := BitVec.ofNat 64 (decodeLE (bs.take 8))
  len := BitVec.ofNat 32 (decodeLE ((bs.drop 8).take 4))
  flags := BitVec.ofNat 16 (decodeLE ((bs.drop 12).take 2))
  next := BitVec.ofNat 16 (decodeLE ((bs.drop 14).take 2))

end VirtioDesc

/-- The guest address of descriptor `descIdx`: `desc_addr + desc_idx * sizeof(VIRTIODesc)`. -/
def descEntryAddr (qs : QueueState) (descIdx : U16) : U64 :=
  qs.descAddr + BitVec.ofNat 64 (descIdx.toNat * 16)

/-- `get_desc`: the 16 bytes of descriptor `descIdx`, copied into a `VIRTIODesc`.
(`desc_idx` is an `int` that only ever holds a `uint16_t` read from the ring or a `next`.) -/
def getDesc (mem : GuestMemory) (qs : QueueState) (descIdx : U16) : VirtioDesc :=
  VirtioDesc.decode (mem.bytesAt (descEntryAddr qs descIdx) 16)

/-- `get_desc` copies with `virtio_memcpy_from_ram` into the 16-byte struct; the copy
succeeds and holds exactly the bytes `getDesc` decodes. -/
theorem getDesc_eq_memcpy (mem : GuestMemory) (qs : QueueState) (descIdx : U16) :
    (virtioMemcpyFromRam mem (HostBuffer.malloc 16) 0 (descEntryAddr qs descIdx) 16 >>= fun buf =>
      .done (VirtioDesc.decode (buf.slice 0 16))) = .done (getDesc mem qs descIdx) := by
  have h := HostBuffer.slice_overwrite (HostBuffer.malloc 16) 0 (mem.bytesAt (descEntryAddr qs descIdx) 16)
  rw [length_bytesAt] at h
  rw [virtioMemcpyFromRam_eq, HostBuffer.writeList_eq, if_pos (.inr (by simp [HostBuffer.malloc]))]
  simp only [Outcome.done_bind, Int.toNat_zero, h]
  rfl

/-! ## `get_desc_rw_size` -/

/-- `size += desc.len` with `int size`: the sum is taken in `unsigned int` and converted back. -/
def addLen (size : Int) (len : U32) : Int := (toUInt32 size + len).toInt

/-- The second loop of `get_desc_rw_size`: sum the device-writable descriptors; a
device-readable one after them is an error. -/
def writeSizeLoop (mem : GuestMemory) (qs : QueueState) :
    Nat → VirtioDesc → Int → Outcome (Option Int)
  | 0, _, _ => .diverge
  | fuel + 1, desc, writeSize =>
    if !desc.isWrite then .done none
    else
      let writeSize := addLen writeSize desc.len
      if !desc.hasNext then .done (some writeSize)
      else writeSizeLoop mem qs fuel (getDesc mem qs desc.next) writeSize

/-- The first loop of `get_desc_rw_size`: sum the device-readable descriptors, then hand
the first device-writable one to the second loop. -/
def readSizeLoop (mem : GuestMemory) (qs : QueueState) :
    Nat → VirtioDesc → Int → Outcome (Option (Int × Int))
  | 0, _, _ => .diverge
  | fuel + 1, desc, readSize =>
    if desc.isWrite then do
      let writeSize ← writeSizeLoop mem qs (fuel + 1) desc 0
      pure (writeSize.map fun writeSize => (readSize, writeSize))
    else
      let readSize := addLen readSize desc.len
      if !desc.hasNext then .done (some (readSize, 0))
      else readSizeLoop mem qs fuel (getDesc mem qs desc.next) readSize

/-- `get_desc_rw_size`: `some (read_size, write_size)` where the source returns 0, `none`
where it returns -1. -/
def getDescRwSize (fuel : Nat) (mem : GuestMemory) (qs : QueueState) (descIdx : U16) :
    Outcome (Option (Int × Int)) :=
  readSizeLoop mem qs fuel (getDesc mem qs descIdx) 0

/-! ## `memcpy_to_from_queue` -/

/-- `f_write_flag`: `VRING_DESC_F_WRITE` when copying to the queue, 0 when copying from it. -/
def fWriteFlag (toQueue : Bool) : U16 := if toQueue then vringDescFWrite else 0

/-- One piece of the copy: `virtio_memcpy_to_ram` from the buffer into the guest when
`to_queue`, `virtio_memcpy_from_ram` the other way otherwise. -/
def transfer (toQueue : Bool) (mem : GuestMemory) (buf : HostBuffer) (cursor : Int)
    (addr : U64) (l : Int) : Outcome (GuestMemory × HostBuffer) :=
  if toQueue then do
    let mem ← virtioMemcpyToRam mem addr buf cursor l
    pure (mem, buf)
  else do
    let buf ← virtioMemcpyFromRam mem buf cursor addr l
    pure (mem, buf)

/-- The first loop of `memcpy_to_from_queue` (only when `to_queue`): find the first
device-writable descriptor. -/
def findWriteLoop (mem : GuestMemory) (qs : QueueState) :
    Nat → VirtioDesc → Outcome (Option VirtioDesc)
  | 0, _ => .diverge
  | fuel + 1, desc =>
    if desc.flags &&& vringDescFWrite = fWriteFlag true then .done (some desc)
    else if !desc.hasNext then .done none
    else findWriteLoop mem qs fuel (getDesc mem qs desc.next)

/-- The second loop: skip whole descriptors of the direction until the one that holds byte
`offset`. -/
def seekLoop (mem : GuestMemory) (qs : QueueState) (flag : U16) :
    Nat → VirtioDesc → Int → Outcome (Option (VirtioDesc × Int))
  | 0, _, _ => .diverge
  | fuel + 1, desc, offset =>
    if desc.flags &&& vringDescFWrite ≠ flag then .done none
    else if toUInt32 offset < desc.len then .done (some (desc, offset))
    else if !desc.hasNext then .done none
    else seekLoop mem qs flag fuel (getDesc mem qs desc.next) (toUInt32 offset - desc.len).toInt

/-- The third loop: move `l = min_int(count, desc.len - offset)` bytes at a time, following
`next` whenever a descriptor is used up. The result is the return value (0 or -1) with the
guest memory and the buffer. -/
def copyLoop (toQueue : Bool) (qs : QueueState) (flag : U16) :
    Nat → GuestMemory → HostBuffer → VirtioDesc → Int → Int → Int →
      Outcome (Int × GuestMemory × HostBuffer)
  | 0, _, _, _, _, _, _ => .diverge
  | fuel + 1, mem, buf, desc, offset, count, cursor => do
    let l := min count (desc.len - toUInt32 offset).toInt
    let (mem, buf) ← transfer toQueue mem buf cursor (desc.addr + BitVec.ofInt 64 offset) l
    let count ← cSub count l
    if count = 0 then .done (0, mem, buf)
    else do
      let offset ← cAdd offset l
      let cursor := cursor + l
      if toUInt32 offset = desc.len then
        if !desc.hasNext then .done (-1, mem, buf)
        else
          let desc := getDesc mem qs desc.next
          if desc.flags &&& vringDescFWrite ≠ flag then .done (-1, mem, buf)
          else copyLoop toQueue qs flag fuel mem buf desc 0 count cursor
      else copyLoop toQueue qs flag fuel mem buf desc offset count cursor

/-- `memcpy_to_from_queue`: copy `count` bytes between the buffer and the chain at `descIdx`,
skipping the first `offset` bytes of the chain's part of the direction. -/
def memcpyToFromQueue (fuel : Nat) (mem : GuestMemory) (buf : HostBuffer) (qs : QueueState)
    (descIdx : U16) (offset count : Int) (toQueue : Bool) :
    Outcome (Int × GuestMemory × HostBuffer) :=
  if count = 0 then .done (0, mem, buf)
  else do
    let desc := getDesc mem qs descIdx
    let first ← if toQueue then findWriteLoop mem qs fuel desc else pure (some desc)
    match first with
    | none => .done (-1, mem, buf)
    | some desc => do
      let found ← seekLoop mem qs (fWriteFlag toQueue) fuel desc offset
      match found with
      | none => .done (-1, mem, buf)
      | some (desc, offset) => copyLoop toQueue qs (fWriteFlag toQueue) fuel mem buf desc offset count 0

/-- `memcpy_from_queue`: from the chain into the buffer. -/
def memcpyFromQueue (fuel : Nat) (mem : GuestMemory) (buf : HostBuffer) (qs : QueueState)
    (descIdx : U16) (offset count : Int) : Outcome (Int × GuestMemory × HostBuffer) :=
  memcpyToFromQueue fuel mem buf qs descIdx offset count false

/-- `memcpy_to_queue`: from the buffer into the chain. -/
def memcpyToQueue (fuel : Nat) (mem : GuestMemory) (qs : QueueState) (descIdx : U16)
    (offset : Int) (buf : HostBuffer) (count : Int) : Outcome (Int × GuestMemory × HostBuffer) :=
  memcpyToFromQueue fuel mem buf qs descIdx offset count true

end SpikeDevices.Virtio
