import SpikeDevices.Block.Device
import SpikeDevices.Virtio.DeviceLemmas

/-!
# What the block front end does

`virtioBlockRecvRequest_cases` lists what handling one head can do, and
`virtioBlockReqEnd_cases` what ending a request does; the later modules cite these two and
never unfold the handler. Since the file backend answers at once, a request never stays in
progress. The handler touches the transport only through `virtio_consume_desc`, so a
handled head leaves the registers alone or raises the used interrupt (`RaisesUsedOnly`).
-/

namespace SpikeDevices.Block

open Virtio GuestMemory VirtioDevice

/-! ## The file backend answers at once -/

/-- `bf_read_async` always returns 0. -/
theorem bfReadAsync_ret {bf : BlockDeviceFile} {sectorNum : U64} {buf : HostBuffer} {n : Int}
    {res : Int × BlockDeviceFile × HostBuffer} (h : bfReadAsync bf sectorNum buf n = .done res) :
    res.1 = 0 := by
  unfold bfReadAsync at h
  split at h
  · obtain ⟨_, -, h⟩ := Outcome.bind_eq_done.mp h
    cases h; rfl
  · obtain ⟨_, -, h⟩ := Outcome.bind_eq_done.mp h
    obtain ⟨_, -, h⟩ := Outcome.bind_eq_done.mp h
    cases h; rfl

/-- `bf_write_async` returns 0 or -1. -/
theorem bfWriteAsync_ret {bf : BlockDeviceFile} {sectorNum : U64} {buf : HostBuffer} {n : Int}
    {res : Int × BlockDeviceFile} (h : bfWriteAsync bf sectorNum buf n = .done res) :
    res.1 ≤ 0 := by
  unfold bfWriteAsync at h
  split at h
  · cases h; exact (by decide : (-1 : Int) ≤ 0)
  · obtain ⟨_, -, h⟩ := Outcome.bind_eq_done.mp h
    obtain ⟨_, -, h⟩ := Outcome.bind_eq_done.mp h
    cases h; exact Int.le_refl 0
  · split at h
    · cases h; exact (by decide : (-1 : Int) ≤ 0)
    · obtain ⟨_, -, h⟩ := Outcome.bind_eq_done.mp h
      cases h; exact Int.le_refl 0

variable (fuel : Nat)

/-! ## Ending a request and handling a head -/

/-- What ending a request can do: for IN, put the status byte last in the buffer and copy the
buffer to the chain; for OUT, copy the status byte alone; then publish the used entry. -/
theorem virtioBlockReqEnd_cases {m m' : BlockMachine} {ret : Int}
    (h : virtioBlockReqEnd fuel m ret = .done m') :
    (m.front.req.type = virtioBlkTIn ∧ ∃ buf r mem b,
      m.front.req.buf.write (m.front.req.writeSize - 1) (statusOf ret) = .done buf ∧
      memcpyToQueue fuel m.mem (m.core.queue m.front.req.queueIdx) m.front.req.descIdx 0 buf
        m.front.req.writeSize = .done (r, mem, b) ∧
      m' = virtioConsumeDesc { m with mem } m.front.req.queueIdx m.front.req.descIdx
        m.front.req.writeSize) ∨
    (m.front.req.type = virtioBlkTOut ∧ ∃ r mem b,
      memcpyToQueue fuel m.mem (m.core.queue m.front.req.queueIdx) m.front.req.descIdx 0
        (HostBuffer.ofList [statusOf ret]) 1 = .done (r, mem, b) ∧
      m' = virtioConsumeDesc { m with mem } m.front.req.queueIdx m.front.req.descIdx 1) := by
  dsimp only [virtioBlockReqEnd] at h
  split at h
  · next hin =>
    obtain ⟨buf, hb, h⟩ := Outcome.bind_eq_done.mp h
    obtain ⟨⟨r, mem, b⟩, hc, h⟩ := Outcome.bind_eq_done.mp h
    cases h
    exact .inl ⟨hin, buf, r, mem, b, hb, hc, rfl⟩
  split at h
  · next hout =>
    obtain ⟨⟨r, mem, b⟩, hc, h⟩ := Outcome.bind_eq_done.mp h
    cases h
    exact .inr ⟨hout, r, mem, b, hc, rfl⟩
  · cases h

/-- What handling one head can do. With a request in progress the handler pushes back.
Otherwise it reads the 16-byte header; when that copy fails it does nothing more; an IN
request reads its sectors into a fresh buffer and ends at once; an OUT request copies its
data out of the chain, writes it and ends; another type is only recorded. -/
theorem virtioBlockRecvRequest_cases {m m' : BlockMachine} {q : Fin maxQueue} {d : U16}
    {rs ws r : Int} (h : virtioBlockRecvRequest fuel m q d rs ws = .done (r, m')) :
    (m.front.reqInProgress = true ∧ r = -1 ∧ m' = m) ∨
    (m.front.reqInProgress = false ∧ r = 0 ∧ ∃ r0 mem0 hbuf,
      memcpyFromQueue fuel m.mem (HostBuffer.malloc 16) (m.core.queue q) d 0 16 =
        .done (r0, mem0, hbuf) ∧
      ((r0 < 0 ∧ m' = m) ∨
       ∃ hdr : BlockRequestHeader, BlockRequestHeader.decode (hbuf.slice 0 16) = hdr ∧ ¬ r0 < 0 ∧
       ((hdr.type = virtioBlkTIn ∧ ∃ n bs buf, cSub ws 1 = .done n ∧
          bfReadAsync m.front.bs hdr.sectorNum (HostBuffer.malloc ws) (n.tdiv sectorSize) =
            .done (0, bs, buf) ∧
          virtioBlockReqEnd fuel
            { m with front := { m.front with bs := bs, req := ⟨hdr.type, buf, ws, q, d⟩ } } 0 =
            .done m') ∨
        (hdr.type = virtioBlkTOut ∧ 1 ≤ ws ∧ ∃ x mem1 buf ret bs,
          memcpyFromQueue fuel m.mem (HostBuffer.malloc (toInt32 (rs - 16))) (m.core.queue q) d
            16 (toInt32 (rs - 16)) = .done (x, mem1, buf) ∧
          bfWriteAsync m.front.bs hdr.sectorNum buf ((toInt32 (rs - 16)).tdiv sectorSize) =
            .done (ret, bs) ∧ ret ≤ 0 ∧
          virtioBlockReqEnd fuel
            { m with front := { m.front with bs := bs, req := { m.front.req with
              type := hdr.type, queueIdx := q, descIdx := d } } } ret = .done m') ∨
        (hdr.type ≠ virtioBlkTIn ∧ hdr.type ≠ virtioBlkTOut ∧
          m' = { m with front := { m.front with
            req := { m.front.req with type := hdr.type, queueIdx := q, descIdx := d } } })))) := by
  dsimp only [virtioBlockRecvRequest] at h
  split at h
  · next hp => cases h; exact .inl ⟨hp, rfl, rfl⟩
  next hp =>
  refine .inr ⟨by simpa using hp, ?_⟩
  obtain ⟨⟨r0, mem0, hbuf⟩, hhdr, h⟩ := Outcome.bind_eq_done.mp h
  dsimp only at h
  split at h
  · next hr0 => cases h; exact ⟨rfl, r0, mem0, hbuf, hhdr, .inl ⟨hr0, rfl⟩⟩
  next hr0 =>
  split at h
  · next hin =>
    obtain ⟨n, hn, h⟩ := Outcome.bind_eq_done.mp h
    obtain ⟨⟨ret, bs, buf⟩, hread, h⟩ := Outcome.bind_eq_done.mp h
    have hret : ret = 0 := bfReadAsync_ret hread
    subst hret
    dsimp only at h
    rw [if_neg (Int.lt_irrefl 0)] at h
    obtain ⟨m1, h1, h⟩ := Outcome.bind_eq_done.mp h
    cases h
    exact ⟨rfl, r0, mem0, hbuf, hhdr, .inr ⟨_, rfl, hr0, .inl ⟨hin, n, bs, buf, hn, hread, h1⟩⟩⟩
  split at h
  · next hnin hout =>
    obtain ⟨_, hws, h⟩ := Outcome.bind_eq_done.mp h
    obtain ⟨⟨x, mem1, buf⟩, hcopy, h⟩ := Outcome.bind_eq_done.mp h
    obtain ⟨⟨ret, bs⟩, hwrite, h⟩ := Outcome.bind_eq_done.mp h
    have hret : ret ≤ 0 := bfWriteAsync_ret hwrite
    dsimp only at h
    rw [if_neg (by omega)] at h
    obtain ⟨m1, h1, h⟩ := Outcome.bind_eq_done.mp h
    cases h
    have hws : 1 ≤ ws := by
      unfold Outcome.require at hws; split at hws
      · assumption
      · cases hws
    exact ⟨rfl, r0, mem0, hbuf, hhdr,
      .inr ⟨_, rfl, hr0, .inr (.inl ⟨hout, hws, x, mem1, buf, ret, bs, hcopy, hwrite, hret, h1⟩)⟩⟩
  · next hnin hnout =>
    cases h
    exact ⟨rfl, r0, mem0, hbuf, hhdr, .inr ⟨_, rfl, hr0, .inr (.inr ⟨hnin, hnout, rfl⟩)⟩⟩

/-- Ending a request publishes it: the transport only gets the used interrupt raised, and
the front end is left as it was. -/
theorem virtioBlockReqEnd_core_front {m m' : BlockMachine} {ret : Int}
    (h : virtioBlockReqEnd fuel m ret = .done m') :
    m'.core = m.core.raiseUsed ∧ m'.front = m.front := by
  rcases virtioBlockReqEnd_cases fuel h with ⟨-, _, _, _, _, -, -, rfl⟩ | ⟨-, _, _, _, -, rfl⟩ <;>
    exact ⟨rfl, rfl⟩

theorem virtioBlockRecvRequest_raisesUsedOnly : RaisesUsedOnly (virtioBlockRecvRequest fuel) := by
  intro m q d rs ws r m' h
  rcases virtioBlockRecvRequest_cases fuel h with ⟨-, -, rfl⟩ | ⟨-, -, r0, mem0, hbuf, -, ⟨-, rfl⟩ |
    ⟨hdr, -, -, ⟨-, n, bs, buf, -, -, hend⟩ | ⟨-, -, x, mem1, buf, ret, bs, -, -, -, hend⟩ |
      ⟨-, -, rfl⟩⟩⟩
  · exact ⟨false, rfl⟩
  · exact ⟨false, rfl⟩
  · exact ⟨true, (virtioBlockReqEnd_core_front fuel hend).1⟩
  · exact ⟨true, (virtioBlockReqEnd_core_front fuel hend).1⟩
  · exact ⟨false, rfl⟩

/-- Handling a head never leaves a request in progress behind: `req_in_progress` keeps its
value, since the file backend never answers later. -/
theorem virtioBlockRecvRequest_reqInProgress {m m' : BlockMachine} {q : Fin maxQueue}
    {d : U16} {rs ws r : Int} (h : virtioBlockRecvRequest fuel m q d rs ws = .done (r, m')) :
    m'.front.reqInProgress = m.front.reqInProgress := by
  rcases virtioBlockRecvRequest_cases fuel h with ⟨-, -, rfl⟩ | ⟨-, -, r0, mem0, hbuf, -, ⟨-, rfl⟩ |
    ⟨hdr, -, -, ⟨-, n, bs, buf, -, -, hend⟩ | ⟨-, -, x, mem1, buf, ret, bs, -, -, -, hend⟩ |
      ⟨-, -, rfl⟩⟩⟩
  · rfl
  · rfl
  · rw [(virtioBlockReqEnd_core_front fuel hend).2]
  · rw [(virtioBlockReqEnd_core_front fuel hend).2]
  · rfl

end SpikeDevices.Block
