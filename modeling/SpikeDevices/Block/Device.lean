import SpikeDevices.Virtio.Device
import SpikeDevices.Block.Backend

/-!
# The VirtIO block device

The front end of virtio.c that serves queue 0 of a block device: `virtio_block_recv_request`
reads the request header, starts the backend's read or write and, when the backend answers
at once (as the file backend always does), ends the request with `virtio_block_req_end`,
which writes the status byte and publishes the used entry. `virtioblk_t::load` and
`virtioblk_t::store` are the bus side: they split 8-byte accesses and drop 1- and 2-byte
ones.

`Reachable` names the states the transport's runs (`Virtio.run`) reach from a freshly
initialised block device; the invariant modules quantify over them.
-/

namespace SpikeDevices.Block

open Virtio GuestMemory

/-- `VIRTIO_BLK_T_IN`. -/
def virtioBlkTIn : U32 := 0
/-- `VIRTIO_BLK_T_OUT`. -/
def virtioBlkTOut : U32 := 1
/-- `VIRTIO_BLK_T_FLUSH`. It is defined and never used. -/
def virtioBlkTFlush : U32 := 4
/-- `VIRTIO_BLK_S_OK`. -/
def virtioBlkSOk : U8 := 0
/-- `VIRTIO_BLK_S_IOERR`. -/
def virtioBlkSIoerr : U8 := 1
/-- `VIRTIO_BLK_S_UNSUPP`. It is defined and never used. -/
def virtioBlkSUnsupp : U8 := 2

/-- `BlockRequest`: the request in progress. `queue_idx` and `desc_idx` are `int`s holding
a queue index and a ring entry. -/
structure BlockRequest where
  type : U32
  buf : HostBuffer
  writeSize : Int
  queueIdx : Fin maxQueue
  descIdx : U16

/-- The fields `VIRTIOBlockDevice` adds to `VIRTIODevice`. -/
structure BlockFront where
  bs : BlockDeviceFile
  reqInProgress : Bool
  req : BlockRequest

/-- A block device with its guest memory. -/
abbrev BlockMachine := Machine BlockFront

/-- `BlockRequestHeader`. -/
structure BlockRequestHeader where
  type : U32
  ioprio : U32
  sectorNum : U64

/-- The header decoded from its 16 bytes in the host's little-endian layout. -/
def BlockRequestHeader.decode (bs : List U8) : BlockRequestHeader where
  type := BitVec.ofNat 32 (decodeLE (bs.take 4))
  ioprio := BitVec.ofNat 32 (decodeLE ((bs.drop 4).take 4))
  sectorNum := BitVec.ofNat 64 (decodeLE ((bs.drop 8).take 8))

/-- The status byte for a backend result. -/
def statusOf (ret : Int) : U8 := if ret < 0 then virtioBlkSIoerr else virtioBlkSOk

section Fuel

variable (fuel : Nat)

/-- `virtio_block_req_end`: copy the data and the status byte (IN) or the status byte alone
(OUT) to the chain, and publish the used entry. Another type `abort()`s. -/
def virtioBlockReqEnd (m : BlockMachine) (ret : Int) : Outcome BlockMachine :=
  let req := m.front.req
  let qs := m.core.queue req.queueIdx
  if req.type = virtioBlkTIn then do
    let buf ← req.buf.write (req.writeSize - 1) (statusOf ret)
    let (_, mem, _) ← memcpyToQueue fuel m.mem qs req.descIdx 0 buf req.writeSize
    pure (virtioConsumeDesc { m with mem } req.queueIdx req.descIdx req.writeSize)
  else if req.type = virtioBlkTOut then do
    let buf1 := HostBuffer.ofList [statusOf ret]
    let (_, mem, _) ← memcpyToQueue fuel m.mem qs req.descIdx 0 buf1 1
    pure (virtioConsumeDesc { m with mem } req.queueIdx req.descIdx 1)
  else .fault

/-- The front-end state once the request fields are recorded. -/
def BlockFront.setReq (front : BlockFront) (req : BlockRequest) : BlockFront := { front with req }

/-- `virtio_block_recv_request`. -/
def virtioBlockRecvRequest : DeviceRecvFunc BlockFront := fun m queueIdx descIdx readSize writeSize =>
  if m.front.reqInProgress then .done (-1, m)
  else do
    let qs := m.core.queue queueIdx
    let (r, _, h) ← memcpyFromQueue fuel m.mem (HostBuffer.malloc 16) qs descIdx 0 16
    if r < 0 then .done (0, m)
    else
      let hdr := BlockRequestHeader.decode (h.slice 0 16)
      let req := { m.front.req with type := hdr.type, queueIdx, descIdx }
      if hdr.type = virtioBlkTIn then do
        let req := { req with buf := HostBuffer.malloc writeSize, writeSize }
        let n ← cSub writeSize 1
        let (ret, bs, buf) ← bfReadAsync m.front.bs hdr.sectorNum req.buf (n.tdiv sectorSize)
        let m := { m with front := { m.front with bs, req := { req with buf } } }
        if ret > 0 then .done (0, { m with front := { m.front with reqInProgress := true } })
        else do
          let m ← virtioBlockReqEnd fuel m ret
          pure (0, m)
      else if hdr.type = virtioBlkTOut then do
        Outcome.require (1 ≤ writeSize)
        let len := toInt32 (readSize - 16)
        let (_, _, buf) ← memcpyFromQueue fuel m.mem (HostBuffer.malloc len) qs descIdx 16 len
        let (ret, bs) ← bfWriteAsync m.front.bs hdr.sectorNum buf (len.tdiv sectorSize)
        let m := { m with front := { m.front with bs, req } }
        if ret > 0 then .done (0, { m with front := { m.front with reqInProgress := true } })
        else do
          let m ← virtioBlockReqEnd fuel m ret
          pure (0, m)
      else .done (0, { m with front := { m.front with req } })

/-- `virtio_block_req_cb`: the completion of an asynchronous request. The file backend never
calls it. -/
def virtioBlockReqCb (m : BlockMachine) (ret : Int) : Outcome BlockMachine := do
  let m ← virtioBlockReqEnd fuel m ret
  let m := { m with front := { m.front with reqInProgress := false } }
  queueNotify fuel (virtioBlockRecvRequest fuel) m.front.req.queueIdx m

/-- `virtio_mmio_write` on the block device. -/
def blockMmioWrite (m : BlockMachine) (offset val : U32) : Outcome BlockMachine :=
  virtioMmioWrite fuel (virtioBlockRecvRequest fuel) m offset val 2

/-- `virtioblk_t::store`: the `len` bytes written at offset `addr` of the window. It returns
`false` for widths other than 1, 2, 4 and 8; 1- and 2-byte writes are dropped. -/
def virtioblkStore (m : BlockMachine) (addr : U64) (len : Nat) (bytes : List U8) :
    Outcome (Bool × BlockMachine) :=
  if len > 8 then .done (false, m)
  else if len = 1 ∨ len = 2 then .done (true, m)
  else if len = 4 then do
    let m ← blockMmioWrite fuel m (addr.setWidth 32) (BitVec.ofNat 32 (decodeLE (bytes.take 4)))
    pure (true, m)
  else if len = 8 then do
    let val := decodeLE (bytes.take 8)
    let m ← blockMmioWrite fuel m (addr.setWidth 32) (BitVec.ofNat 32 val)
    let m ← blockMmioWrite fuel m ((addr + 4).setWidth 32) (BitVec.ofNat 32 (val / 2 ^ 32))
    pure (true, m)
  else .done (false, m)

end Fuel

/-- `virtioblk_t::load`: the `len` bytes read at offset `addr` of the window, or `none` where
it returns `false`. 1- and 2-byte reads return zeros. -/
def virtioblkLoad (m : BlockMachine) (addr : U64) (len : Nat) : Outcome (Option (List U8)) :=
  if len > 8 then .done none
  else if len = 1 ∨ len = 2 then .done (some (encodeLE len 0))
  else if len = 4 then do
    let val ← virtioMmioRead m.core (addr.setWidth 32) 2
    pure (some (encodeLE 4 val.toNat))
  else if len = 8 then do
    let low ← virtioMmioRead m.core (addr.setWidth 32) 2
    let high ← virtioMmioRead m.core ((addr + 4).setWidth 32) 2
    pure (some (encodeLE 8 (low.toNat + high.toNat * 2 ^ 32)))
  else .done none

/-- `virtio_block_init` over a backend: device type 2, an 8-byte config space holding the
sector count as two little-endian words, and a zeroed request record. -/
def virtioBlockInit (bs : BlockDeviceFile) : VirtioDevice × BlockFront :=
  let nbSectors : U64 := BitVec.ofInt 64 (bfGetSectorCount bs)
  let core := virtioInit 2 8
  let config := encodeLE 4 nbSectors.toNat ++ encodeLE 4 (nbSectors >>> 32).toNat
  ({ core with configSpace := fun i => if i < 8 then config.getD i 0 else core.configSpace i },
   { bs, reqInProgress := false, req := ⟨0, HostBuffer.malloc 0, 0, 0, 0⟩ })

/-- The block device a simulator starts with: `virtio_block_init` over `block_device_init`,
next to the guest memory. -/
def initialMachine (size : Nat) (bytes : Nat → U8) (mode : BlockDeviceMode) (mem : GuestMemory) :
    BlockMachine :=
  let (core, front) := virtioBlockInit (blockDeviceInit size bytes mode)
  { core, front, mem }

/-! ## Reachable states -/

/-- A state some run reaches from a freshly initialised device. -/
def Reachable (m : BlockMachine) : Prop :=
  ∃ size bytes mode mem fuel ops,
    run fuel (virtioBlockRecvRequest fuel) ops (initialMachine size bytes mode mem) = .done m

end SpikeDevices.Block
