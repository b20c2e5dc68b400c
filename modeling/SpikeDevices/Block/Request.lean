import SpikeDevices.Block.Invariants
import SpikeDevices.Block.Disk
import SpikeDevices.Virtio.Copy

/-!
# Serving one well-formed request

The abstract device: a request reads sectors of the disk (IN) or writes them (OUT); it
changes the disk as `BlockReq.apply` says, the driver finds `BlockReq.reply` in the request's
writable region, and the used entry carries `BlockReq.usedLen`. `RequestChain` says when a
descriptor chain in guest memory carries a request. On such a chain, for sectors inside the
disk, `virtio_block_recv_request` is the abstract request (`virtioBlockRecvRequest_request`):
it answers at once, stores exactly the reply along the writable addresses, publishes the
entry, and leaves the backend's disk as `apply` makes it. Every reachable backend keeps its
disk inside its file (`Reachable.valid`).
-/

namespace SpikeDevices.Block

open Virtio GuestMemory

/-- A block request as the driver means it. -/
inductive BlockReq where
  /-- `VIRTIO_BLK_T_IN`: read `count` sectors from `sector`. -/
  | blkIn (sector count : Nat)
  /-- `VIRTIO_BLK_T_OUT`: write `data`, `count` sectors long, from `sector`. -/
  | blkOut (sector count : Nat) (data : List U8)
deriving DecidableEq, Repr

namespace BlockReq

/-- The first sector. -/
def sector : BlockReq → Nat
  | blkIn sector _ => sector
  | blkOut sector _ _ => sector

/-- The number of sectors. -/
def count : BlockReq → Nat
  | blkIn _ count => count
  | blkOut _ count _ => count

/-- The `type` field of the header. -/
def typeCode : BlockReq → U32
  | blkIn .. => virtioBlkTIn
  | blkOut .. => virtioBlkTOut

/-- The bytes the driver sends after the header. -/
def data : BlockReq → List U8
  | blkIn .. => []
  | blkOut _ _ data => data

/-- The length of the data after the header: the sectors of an OUT request. -/
def dataLen : BlockReq → Nat
  | blkIn .. => 0
  | blkOut _ count _ => sectorSize * count

/-- What the request does to the disk of a backend in mode `mode`: a write changes it unless
the disk is read-only. -/
def apply (mode : BlockDeviceMode) : BlockReq → Disk → Disk
  | blkIn .., D => D
  | blkOut sector _ data, D => if mode = .ro then D else D.write (sectorSize * sector) data

/-- The bytes the driver finds in the writable region: the sectors and status 0 for IN; the
status alone for OUT, `VIRTIO_BLK_S_IOERR` on a read-only disk. -/
def reply (mode : BlockDeviceMode) : BlockReq → Disk → List U8
  | blkIn sector count, D => D.read (sectorSize * sector) (sectorSize * count) ++ [virtioBlkSOk]
  | blkOut .., _ => [if mode = .ro then virtioBlkSIoerr else virtioBlkSOk]

/-- The length the used entry carries. -/
def usedLen : BlockReq → Nat
  | blkIn _ count => sectorSize * count + 1
  | blkOut .. => 1

@[simp] theorem length_reply (mode : BlockDeviceMode) (req : BlockReq) (D : Disk) :
    (req.reply mode D).length = req.usedLen := by
  cases req <;> simp [reply, usedLen]

end BlockReq

/-- The chain from `d`, `p` of whose `n` descriptors are device-readable, carries `req`: the
readable part is a 16-byte header naming the request's type and first sector, then the
request's data; the writable part is as long as the reply and its buffers do not overlap one
another; each part is shorter than `2^31` bytes. -/
structure RequestChain (mem : GuestMemory) (qs : QueueState) (d : U16) (p n : Nat) (req : BlockReq) :
    Prop where
  shape : ChainShape mem qs d p n
  readLen : (readAddrs mem qs d p).length = 16 + req.dataLen
  readLt : (readAddrs mem qs d p).length < 2 ^ 31
  writeLen : (writeAddrs mem qs d p n).length = req.usedLen
  writeLt : (writeAddrs mem qs d p n).length < 2 ^ 31
  nodup : (writeAddrs mem qs d p n).Nodup
  type : (BlockRequestHeader.decode (loadAt mem ((readAddrs mem qs d p).take 16))).type = req.typeCode
  sector : (BlockRequestHeader.decode (loadAt mem ((readAddrs mem qs d p).take 16))).sectorNum.toNat =
    req.sector
  data : loadAt mem ((readAddrs mem qs d p).drop 16) = req.data

namespace RequestChain

variable {mem : GuestMemory} {qs : QueueState} {d : U16} {p n : Nat} {req : BlockReq}

/-- A memory that agrees on the chain's entries and on its readable bytes carries the same
request. -/
theorem congr {mem' : GuestMemory} (hreq : RequestChain mem qs d p n req)
    (hent : ∀ a, ChainEntry mem qs d a → mem' a = mem a)
    (hread : ∀ a ∈ readAddrs mem qs d p, mem' a = mem a) : RequestChain mem' qs d p n req := by
  have hr := hreq.shape.readAddrs_congr hent
  have hw := hreq.shape.writeAddrs_congr hent
  have hload : ∀ as : List U64, (∀ a ∈ as, a ∈ readAddrs mem qs d p) → loadAt mem' as = loadAt mem as :=
    fun _ has => List.map_congr_left fun a ha => hread a (has a ha)
  refine ⟨hreq.shape.congr hent, hr ▸ hreq.readLen, hr ▸ hreq.readLt, hw ▸ hreq.writeLen,
    hw ▸ hreq.writeLt, hw ▸ hreq.nodup, ?_, ?_, ?_⟩ <;> rw [hr]
  · rw [hload _ fun _ => List.mem_of_mem_take]; exact hreq.type
  · rw [hload _ fun _ => List.mem_of_mem_take]; exact hreq.sector
  · rw [hload _ fun _ => List.mem_of_mem_drop]; exact hreq.data

/-- The request is read through `desc_addr` of the queue alone. -/
theorem queue {qs' : QueueState} (hreq : RequestChain mem qs d p n req)
    (hq : qs'.descAddr = qs.descAddr) : RequestChain mem qs' d p n req := by
  have hr : readAddrs mem qs' d p = readAddrs mem qs d p := spanAddrs_queue hq 0 p
  have hw : writeAddrs mem qs' d p n = writeAddrs mem qs d p n := spanAddrs_queue hq p (n - p)
  exact ⟨hreq.shape.queue hq, hr ▸ hreq.readLen, hr ▸ hreq.readLt, hw ▸ hreq.writeLen,
    hw ▸ hreq.writeLt, hw ▸ hreq.nodup, hr ▸ hreq.type, hr ▸ hreq.sector, hr ▸ hreq.data⟩

end RequestChain

/-- A whole number of sectors divided by the sector size, as C's signed division does it. -/
theorem tdiv_sectorSize (c : Nat) : ((sectorSize * c : Nat) : Int).tdiv (sectorSize : Nat) = c := by
  rw [← Int.ofNat_tdiv, Nat.mul_div_cancel_left _ (by decide : 0 < sectorSize)]

/-- The status byte of a write: the write fails only on a read-only disk. -/
theorem statusOf_ite (mode : BlockDeviceMode) :
    statusOf (if mode = .ro then -1 else 0) = if mode = .ro then virtioBlkSIoerr else virtioBlkSOk := by
  split <;> rfl

section Handler

variable {fuel : Nat} {mem : GuestMemory} {qs : QueueState} {d : U16} {p n : Nat} {req : BlockReq}

/-- The header copy of `virtio_block_recv_request` returns the header the chain carries. -/
theorem RequestChain.header (hreq : RequestChain mem qs d p n req) (hfuel : n ≤ fuel) :
    ∃ hbuf : HostBuffer,
      memcpyFromQueue fuel mem (HostBuffer.malloc 16) qs d 0 16 = .done (0, mem, hbuf) ∧
      (BlockRequestHeader.decode (hbuf.slice 0 16)).type = req.typeCode ∧
      (BlockRequestHeader.decode (hbuf.slice 0 16)).sectorNum.toNat = req.sector := by
  have hlen := hreq.readLen
  have h := memcpyFromQueue_shape hreq.shape hfuel (HostBuffer.malloc 16) (Nat.succ_pos 15)
    (show 0 + 16 ≤ (readAddrs mem qs d p).length by omega) hreq.readLt (Nat.le_refl 16)
  rw [List.drop_zero] at h
  have hslice := HostBuffer.slice_overwrite (HostBuffer.malloc 16) 0
    (loadAt mem ((readAddrs mem qs d p).take 16))
  rw [length_loadAt, List.length_take, Nat.min_eq_left (by omega)] at hslice
  exact ⟨_, h, by rw [hslice]; exact hreq.type, by rw [hslice]; exact hreq.sector⟩

/-- The data copy of an OUT request returns the data the chain carries. -/
theorem RequestChain.outLen {sector count : Nat} {data : List U8}
    (hreq : RequestChain mem qs d p n (.blkOut sector count data)) :
    toInt32 ((readAddrs mem qs d p).length - 16) = (sectorSize * count : Nat) := by
  have hlen := hreq.readLen
  have hlt := hreq.readLt
  simp only [BlockReq.dataLen] at hlen
  rw [toInt32_eq (by unfold IsInt32; omega)]
  omega

/-- The data of an OUT request, copied from the readable buffers after the header. -/
theorem RequestChain.outData {sector count : Nat} {data : List U8}
    (hreq : RequestChain mem qs d p n (.blkOut sector count data)) (hfuel : n ≤ fuel) :
    ∃ buf : HostBuffer, memcpyFromQueue fuel mem
        (HostBuffer.malloc (toInt32 ((readAddrs mem qs d p).length - 16))) qs d 16
        (toInt32 ((readAddrs mem qs d p).length - 16)) = .done (0, mem, buf) ∧
      buf.size = sectorSize * count ∧ buf.slice 0 (sectorSize * count) = data := by
  have hlen := hreq.readLen
  have hlt := hreq.readLt
  have hdata := hreq.data
  simp only [BlockReq.dataLen, BlockReq.data] at hlen hdata
  rw [hreq.outLen]
  by_cases hc : sectorSize * count = 0
  · refine ⟨HostBuffer.malloc (sectorSize * count : Nat), ?_, rfl, ?_⟩
    · rw [memcpyFromQueue, memcpyToFromQueue, if_pos (by omega)]
    · rw [hc, ← hdata, List.drop_eq_nil_of_le (by omega)]
      rfl
  · have h := memcpyFromQueue_shape hreq.shape hfuel (HostBuffer.malloc (sectorSize * count : Nat))
      (Nat.pos_of_ne_zero hc) (show 16 + sectorSize * count ≤ (readAddrs mem qs d p).length by omega)
      hlt (Nat.le_refl _)
    rw [List.take_of_length_le (by simp only [List.length_drop]; omega), hdata] at h
    refine ⟨_, h, by rw [HostBuffer.size_overwrite]; rfl, ?_⟩
    have hslice := HostBuffer.slice_overwrite (HostBuffer.malloc (sectorSize * count : Nat)) 0 data
    rw [← hdata, length_loadAt, List.length_drop, show (readAddrs mem qs d p).length - 16 =
      sectorSize * count by omega, hdata] at hslice
    exact hslice


/-- Ending an IN request: the status byte goes after the sectors in the buffer, the buffer is
stored along the writable addresses, and the entry is published. -/
theorem virtioBlockReqEnd_in {m : BlockMachine} {sector count : Nat}
    (hreq : RequestChain m.mem (m.core.queue m.front.req.queueIdx) m.front.req.descIdx p n
      (.blkIn sector count)) (hfuel : n ≤ fuel)
    (hsep : ∀ a ∈ writeAddrs m.mem (m.core.queue m.front.req.queueIdx) m.front.req.descIdx p n,
      ¬ ChainEntry m.mem (m.core.queue m.front.req.queueIdx) m.front.req.descIdx a)
    (htype : m.front.req.type = virtioBlkTIn)
    (hws : m.front.req.writeSize = (sectorSize * count + 1 : Nat))
    (hsize : m.front.req.buf.size = sectorSize * count + 1) :
    virtioBlockReqEnd fuel m 0 = .done (virtioConsumeDesc { m with
      mem := (storeAt m.mem (writeAddrs m.mem (m.core.queue m.front.req.queueIdx) m.front.req.descIdx p n)
        (m.front.req.buf.slice 0 (sectorSize * count) ++ [virtioBlkSOk])) } m.front.req.queueIdx
      m.front.req.descIdx (sectorSize * count + 1 : Nat)) := by
  have hw := hreq.writeLen
  simp only [BlockReq.usedLen] at hw
  have h := memcpyToQueue_shape hreq.shape hfuel hsep
    (m.front.req.buf.setByte (sectorSize * count) (statusOf 0)) (show 0 < sectorSize * count + 1 by omega)
    (Nat.le_of_eq hw.symm) hreq.writeLt (Nat.le_of_eq (by rw [HostBuffer.size_setByte, hsize]))
  have hst : (m.front.req.buf.setByte (sectorSize * count) (statusOf 0)).slice (sectorSize * count) 1 =
      [virtioBlkSOk] := by
    simp only [HostBuffer.slice, HostBuffer.setByte, if_pos]
    rfl
  rw [List.take_of_length_le (Nat.le_of_eq hw), HostBuffer.slice_add,
    HostBuffer.slice_setByte_of_le _ _ (by omega : 0 + sectorSize * count ≤ sectorSize * count),
    Nat.zero_add, hst] at h
  dsimp only [virtioBlockReqEnd]
  rw [if_pos htype, hws, HostBuffer.write, if_pos ⟨by omega, by rw [hsize]; omega⟩, Outcome.done_bind,
    show (((sectorSize * count + 1 : Nat) : Int) - 1).toNat = sectorSize * count by omega, h,
    Outcome.done_bind]
  rfl

/-- Ending an OUT request: the status byte is stored in the writable byte, and the entry is
published. -/
theorem virtioBlockReqEnd_out {m : BlockMachine} {sector count : Nat} {data : List U8} {ret : Int}
    (hreq : RequestChain m.mem (m.core.queue m.front.req.queueIdx) m.front.req.descIdx p n
      (.blkOut sector count data)) (hfuel : n ≤ fuel)
    (hsep : ∀ a ∈ writeAddrs m.mem (m.core.queue m.front.req.queueIdx) m.front.req.descIdx p n,
      ¬ ChainEntry m.mem (m.core.queue m.front.req.queueIdx) m.front.req.descIdx a)
    (htype : m.front.req.type = virtioBlkTOut) :
    virtioBlockReqEnd fuel m ret = .done (virtioConsumeDesc { m with
      mem := (storeAt m.mem (writeAddrs m.mem (m.core.queue m.front.req.queueIdx) m.front.req.descIdx p n)
        [statusOf ret]) } m.front.req.queueIdx m.front.req.descIdx 1) := by
  have hw := hreq.writeLen
  simp only [BlockReq.usedLen] at hw
  have h := memcpyToQueue_shape hreq.shape hfuel hsep (HostBuffer.ofList [statusOf ret]) (Nat.succ_pos 0)
    (Nat.le_of_eq hw.symm) hreq.writeLt (Nat.le_refl 1)
  rw [List.take_of_length_le (Nat.le_of_eq hw)] at h
  dsimp only [virtioBlockReqEnd]
  rw [if_neg (by rw [htype]; decide), if_pos htype]
  erw [h]
  rfl

/-- On a chain that carries a request for sectors inside the disk, `virtio_block_recv_request`
answers at once: it stores the reply along the writable addresses, publishes the entry
`(d, usedLen)`, and leaves the backend's disk as the request makes it. -/
theorem virtioBlockRecvRequest_request {m : BlockMachine} {q : Fin maxQueue}
    (hnip : m.front.reqInProgress = false) (hv : m.front.bs.Valid)
    (hsz : sectorSize * m.front.bs.nbSectors.toNat < 2 ^ 63)
    (hreq : RequestChain m.mem (m.core.queue q) d p n req)
    (hrange : req.sector + req.count ≤ m.front.bs.nbSectors.toNat) (hfuel : n ≤ fuel)
    (hsep : ∀ a ∈ writeAddrs m.mem (m.core.queue q) d p n, ¬ ChainEntry m.mem (m.core.queue q) d a) :
    ∃ front : BlockFront, front.reqInProgress = false ∧ m.front.bs.Keeps front.bs ∧
      front.bs.disk = req.apply m.front.bs.mode m.front.bs.disk ∧
      virtioBlockRecvRequest fuel m q d (readAddrs m.mem (m.core.queue q) d p).length
        (writeAddrs m.mem (m.core.queue q) d p n).length =
      .done (0, virtioConsumeDesc { m with front := front, mem := (storeAt m.mem
        (writeAddrs m.mem (m.core.queue q) d p n) (req.reply m.front.bs.mode m.front.bs.disk)) }
        q d req.usedLen) := by
  obtain ⟨hbuf, hhdr, htype, hsector⟩ := hreq.header hfuel
  have hwl := hreq.writeLen
  have hwlt := hreq.writeLt
  have hrl := hreq.readLen
  have hrlt := hreq.readLt
  dsimp only [virtioBlockRecvRequest]
  rw [hnip, if_neg Bool.false_ne_true, hhdr, Outcome.done_bind]
  dsimp only
  rw [if_neg (Int.lt_irrefl 0)]
  cases req with
  | blkIn sector count =>
    simp only [BlockReq.usedLen, BlockReq.typeCode, BlockReq.sector, BlockReq.count,
      BlockReq.apply, BlockReq.reply] at hwl hwlt htype hsector hrange ⊢
    have htdiv : (((sectorSize * count + 1 : Nat) : Int) - 1).tdiv (sectorSize : Nat) = (count : Nat) := by
      rw [show ((sectorSize * count + 1 : Nat) : Int) - 1 = ((sectorSize * count : Nat) : Int) by omega,
        tdiv_sectorSize]
    have hbs : sectorSize * count ≤ (HostBuffer.malloc ((sectorSize * count + 1 : Nat) : Int)).size :=
      Nat.le_succ _
    have hk32 : sectorSize * count < 2 ^ 31 := by omega
    obtain ⟨pos, hread⟩ := bfReadAsync_disk hv hsz
      (s := (BlockRequestHeader.decode (hbuf.slice 0 16)).sectorNum) (by rw [hsector]; exact hrange)
      hk32 hbs
    have hslice := HostBuffer.slice_overwrite (HostBuffer.malloc ((sectorSize * count + 1 : Nat) : Int)) 0
      (m.front.bs.disk.read (sectorSize * sector) (sectorSize * count))
    rw [Disk.length_read, ← hsector] at hslice
    rw [if_pos htype, hwl, cSub, if_pos (by unfold IsInt32; omega),
      Outcome.done_bind, htdiv, hread, Outcome.done_bind]
    dsimp only
    rw [if_neg (Int.lt_irrefl 0), virtioBlockReqEnd_in hreq hfuel hsep htype rfl
      (by rw [HostBuffer.size_overwrite]; rfl), hslice, hsector]
    simp only [Outcome.done_bind, Outcome.pure_def]
    refine ⟨_, ?_, ?_, ?_, rfl⟩
    · rfl
    · exact ⟨rfl, rfl, Nat.le_refl _⟩
    · rfl
  | blkOut sector count data =>
    simp only [BlockReq.usedLen, BlockReq.typeCode, BlockReq.sector, BlockReq.count,
      BlockReq.apply, BlockReq.reply] at hwl htype hsector hrange ⊢
    obtain ⟨buf, hdata, hsize, hslice⟩ := hreq.outData hfuel
    have hk32 : sectorSize * count < 2 ^ 31 := by simp only [BlockReq.dataLen] at hrl; omega
    obtain ⟨bf', hwrite, hkeeps, hdisk⟩ := bfWriteAsync_disk hv hsz
      (s := (BlockRequestHeader.decode (hbuf.slice 0 16)).sectorNum) (by rw [hsector]; exact hrange)
      hk32 (Nat.le_of_eq hsize.symm)
    rw [hsector, hslice] at hdisk
    have hne : (BlockRequestHeader.decode (hbuf.slice 0 16)).type ≠ virtioBlkTIn := by
      rw [htype]; decide
    have hret : ¬ ((if m.front.bs.mode = .ro then -1 else 0 : Int) > 0) := by split <;> decide
    rw [if_neg hne, if_pos htype, hwl, Outcome.require_pos (by decide), Outcome.done_bind, hdata,
      Outcome.done_bind, hreq.outLen, tdiv_sectorSize, hwrite, Outcome.done_bind]
    dsimp only
    rw [if_neg hret, virtioBlockReqEnd_out hreq hfuel hsep htype, statusOf_ite]
    simp only [Outcome.done_bind, Outcome.pure_def]
    exact ⟨_, rfl, hkeeps, hdisk, rfl⟩

end Handler

end SpikeDevices.Block
