import SpikeDevices.Block.Notify
import SpikeDevices.Virtio.Gather

/-!
# How block requests complete

`virtioBlockRecvRequest_completion` says what the handler does with every head whose chain
`get_desc_rw_size` accepts, from any reachable state: it returns 0 at once. With fewer than 16
readable bytes nothing happens. An IN request stores the sectors and then the status byte
into its writable region and publishes one used entry. An OUT request writes its data at the
header's sector and publishes one entry with the status byte. Any other type publishes
nothing.

The rest of the module pins down behaviours of the code on concrete inputs: a head whose
chain `get_desc_rw_size` rejects is consumed without a used entry; `queue_notify` and
`virtio_consume_desc` act on a queue whose `ready` bit is 0; the read path of the backend has
no range check; and a chain with no writable byte makes the handler fault.
-/

namespace SpikeDevices.Block

open Virtio GuestMemory VirtioDevice

/-! ## The `ready` bit is not consulted -/

/-- Guest memory in which the rings a reset leaves at address 0 announce one head: `avail.idx`
(at address 2) is 1, and head 0 is an empty device-readable descriptor. -/
def oneHeadAtZero : GuestMemory := fun a => if a = 2 then 1 else 0

/-- A freshly initialised block device, every queue with `ready = 0`, over that memory. -/
def unreadyMachine : BlockMachine := initialMachine 0 (fun _ => 0) .ro oneHeadAtZero

/-- On a reachable state whose queue 0 has `ready = 0`, `QUEUE_NOTIFY` still consumes the
announced head (`last_avail_idx` goes from 0 to 1), and `virtio_consume_desc` still writes the
used ring (the used index at address 2 goes from 1 to 2). -/
theorem unready_queue_is_served :
    Reachable unreadyMachine ∧ (unreadyMachine.core.queue 0).ready = 0 ∧
    (match step 16 (virtioBlockRecvRequest 16) (.notify 0) unreadyMachine with
      | .done m => some ((m.core.queue 0).lastAvailIdx, m.mem 2)
      | _ => none) = some (1, 1) ∧
    (unreadyMachine.mem 2, (virtioConsumeDesc unreadyMachine 0 0 0).mem 2) = (1, 2) :=
  ⟨⟨0, fun _ => 0, .ro, oneHeadAtZero, 0, [], rfl⟩, by decide, by decide, by decide⟩

/-! ## Rejected chains -/

/-- Two descriptors at `0x100`: head 0 is device-writable and links to descriptor 1, which is
device-readable, so `get_desc_rw_size` rejects the chain; the available ring at `0x200`
announces head 0 once. -/
def rejectedChainMem : GuestMemory :=
  (GuestMemory.storeBytes (fun _ => 0) 0x100
      (encodeLE 8 0x400 ++ encodeLE 4 1 ++ encodeLE 2 3 ++ encodeLE 2 1 ++
       encodeLE 8 0x500 ++ encodeLE 4 16 ++ encodeLE 2 0 ++ encodeLE 2 0)).storeBytes 0x200
    (encodeLE 2 0 ++ encodeLE 2 1 ++ encodeLE 2 0)

/-- The driver places the rings of queue 0 and notifies it. -/
def rejectedChainOps : List Op :=
  [.mmioWrite virtioMmioQueueDescLow 0x100 2, .mmioWrite virtioMmioQueueAvailLow 0x200 2,
   .mmioWrite virtioMmioQueueUsedLow 0x300 2, .mmioWrite virtioMmioQueueNotify 0 2]

/-- The head is consumed (`last_avail_idx` becomes 1) but no used entry is published
(`used.idx` at `0x302` stays 0). -/
theorem rejected_chain_not_completed :
    (match run 16 (virtioBlockRecvRequest 16) rejectedChainOps
        (initialMachine 0 (fun _ => 0) .ro rejectedChainMem) with
      | .done m => some ((m.core.queue 0).lastAvailIdx, m.mem.load16 0x302)
      | _ => none) = some (1, 0) := by
  decide

/-! ## What a handled head publishes -/

/-- The request header that the first 16 readable bytes of the chain from `d` encode. -/
def chainHeader (mem : GuestMemory) (qs : QueueState) (d : U16) (p : Nat) : BlockRequestHeader :=
  BlockRequestHeader.decode (loadAt mem ((readAddrs mem qs d p).take 16))

/-- The first `c` bytes of a buffer overwritten from 0 with at least `c` bytes. -/
theorem HostBuffer.slice_overwrite_of_le (buf : HostBuffer) (bs : List U8) {c : Nat}
    (hc : c ≤ bs.length) : (buf.overwrite 0 bs).slice 0 c = bs.take c := by
  calc (buf.overwrite 0 bs).slice 0 c
      = ((buf.overwrite 0 bs).slice 0 c ++ (buf.overwrite 0 bs).slice (0 + c) (bs.length - c)).take c :=
        (List.take_left' (HostBuffer.length_slice _ _ _)).symm
    _ = bs.take c := by rw [← HostBuffer.slice_add, Nat.add_sub_cancel' hc, HostBuffer.slice_overwrite]

/-- The last of the first `L` bytes of a buffer whose byte `L - 1` was just set. -/
theorem HostBuffer.getLast?_slice_setByte (buf : HostBuffer) {L : Nat} (hL : 0 < L) (v : U8) :
    ((buf.setByte (L - 1) v).slice 0 L).getLast? = some v := by
  obtain ⟨L, rfl⟩ : ∃ L', L = L' + 1 := ⟨L - 1, by omega⟩
  rw [Nat.add_sub_cancel, HostBuffer.slice_add, List.getLast?_append]
  simp [HostBuffer.slice, HostBuffer.setByte]

/-- `(x - 1) / 512` as C's signed division computes it, for `x ≥ 1`. -/
theorem tdiv_sectorSize_pred {x : Nat} (hx : 0 < x) :
    ((x : Int) - 1).tdiv (sectorSize : Nat) = ((x - 1) / sectorSize : Nat) := by
  rw [show (x : Int) - 1 = ((x - 1 : Nat) : Int) by omega, ← Int.ofNat_tdiv]

section Handle

variable {fuel : Nat} {m : BlockMachine} {q : Fin maxQueue} {d : U16} {p n : Nat}
  (hs : ChainShape m.mem (m.core.queue q) d p n) (hfuel : n ≤ fuel)
  (hr : (readAddrs m.mem (m.core.queue q) d p).length < 2 ^ 31)
include hs hfuel hr

/-- With fewer than 16 readable bytes the header copy fails, and the handler returns 0 with
nothing changed. -/
theorem virtioBlockRecvRequest_short (hidle : m.front.reqInProgress = false)
    (h16 : (readAddrs m.mem (m.core.queue q) d p).length < 16) (ws : Int) :
    virtioBlockRecvRequest fuel m q d (readAddrs m.mem (m.core.queue q) d p).length ws = .done (0, m) := by
  obtain ⟨r, buf', hcopy, hiff, hr01, -⟩ := memcpyFromQueue_split (ChainLength.of_shape hs) hs.rwSplit hfuel
    (HostBuffer.malloc 16) (o := 0) (c := 16) (by decide) (by decide) (Nat.le_refl 16)
    (by rw [← length_spanAddrs]; exact hr)
  have hr' : r = -1 := hr01.resolve_left fun h0 => by
    rcases hiff.mp h0 with h | h
    · cases h
    · rw [← length_spanAddrs] at h; exact absurd h (by rw [readAddrs] at h16; omega)
  subst hr'
  have hcopy : memcpyFromQueue fuel m.mem (HostBuffer.malloc 16) (m.core.queue q) d 0 16 =
      .done (-1, m.mem, buf') := hcopy
  dsimp only [virtioBlockRecvRequest]
  rw [hidle, if_neg Bool.false_ne_true, hcopy, Outcome.done_bind]
  rfl

/-- With 16 readable bytes or more the header copy returns the chain's header. -/
theorem headerCopy (h16 : 16 ≤ (readAddrs m.mem (m.core.queue q) d p).length) :
    ∃ hbuf : HostBuffer, memcpyFromQueue fuel m.mem (HostBuffer.malloc 16) (m.core.queue q) d 0 16 =
        .done (0, m.mem, hbuf) ∧
      BlockRequestHeader.decode (hbuf.slice 0 16) = chainHeader m.mem (m.core.queue q) d p := by
  have h := memcpyFromQueue_shape hs hfuel (HostBuffer.malloc 16) (Nat.succ_pos 15)
    (show 0 + 16 ≤ (readAddrs m.mem (m.core.queue q) d p).length by omega) hr (Nat.le_refl 16)
  rw [List.drop_zero] at h
  refine ⟨_, h, ?_⟩
  rw [HostBuffer.slice_overwrite_of_le _ _ (by rw [length_loadAt, List.length_take]; omega),
    List.take_of_length_le (by rw [length_loadAt, List.length_take]; omega)]
  rfl

/-- A header of another type (`FLUSH` or an unsupported one) is recorded and dropped: the
handler returns 0 with the backend and memory as they were and nothing published. -/
theorem virtioBlockRecvRequest_other (hidle : m.front.reqInProgress = false)
    (h16 : 16 ≤ (readAddrs m.mem (m.core.queue q) d p).length)
    (hin : (chainHeader m.mem (m.core.queue q) d p).type ≠ virtioBlkTIn)
    (hout : (chainHeader m.mem (m.core.queue q) d p).type ≠ virtioBlkTOut) (ws : Int) :
    ∃ front : BlockFront, front.bs = m.front.bs ∧ front.reqInProgress = false ∧
      virtioBlockRecvRequest fuel m q d (readAddrs m.mem (m.core.queue q) d p).length ws =
        .done (0, { m with front }) := by
  obtain ⟨hbuf, hhdr, hdec⟩ := headerCopy hs hfuel hr h16
  dsimp only [virtioBlockRecvRequest]
  rw [hidle, if_neg Bool.false_ne_true, hhdr, Outcome.done_bind]
  dsimp only
  rw [if_neg (Int.lt_irrefl 0), hdec, if_neg hin, if_neg hout]
  refine ⟨_, ?_, rfl, rfl⟩
  rfl

variable (hw : (writeAddrs m.mem (m.core.queue q) d p n).length < 2 ^ 31)
  (hws : 0 < (writeAddrs m.mem (m.core.queue q) d p n).length)
  (hsep : ∀ a ∈ writeAddrs m.mem (m.core.queue q) d p n, ¬ ChainEntry m.mem (m.core.queue q) d a)
include hw hws hsep

/-- An IN request for sectors inside the disk: the handler reads the `(write_size - 1) / 512`
sectors from the header's sector into a buffer of `write_size` bytes, sets its last byte to
`VIRTIO_BLK_S_OK`, stores the buffer along the writable addresses and publishes
`(d, write_size)`; the disk is unchanged. -/
theorem virtioBlockRecvRequest_in (hidle : m.front.reqInProgress = false) (hv : m.front.bs.Valid)
    (hsz : sectorSize * m.front.bs.nbSectors.toNat < 2 ^ 63)
    (h16 : 16 ≤ (readAddrs m.mem (m.core.queue q) d p).length)
    (htype : (chainHeader m.mem (m.core.queue q) d p).type = virtioBlkTIn)
    (hrange : (chainHeader m.mem (m.core.queue q) d p).sectorNum.toNat +
      ((writeAddrs m.mem (m.core.queue q) d p n).length - 1) / sectorSize ≤ m.front.bs.nbSectors.toNat) :
    ∃ (front : BlockFront) (reply : List U8), front.reqInProgress = false ∧ m.front.bs.Keeps front.bs ∧
      front.bs.disk = m.front.bs.disk ∧ reply.length = (writeAddrs m.mem (m.core.queue q) d p n).length ∧
      reply.take (sectorSize * (((writeAddrs m.mem (m.core.queue q) d p n).length - 1) / sectorSize)) =
        m.front.bs.disk.read (sectorSize * (chainHeader m.mem (m.core.queue q) d p).sectorNum.toNat)
          (sectorSize * (((writeAddrs m.mem (m.core.queue q) d p n).length - 1) / sectorSize)) ∧
      reply.getLast? = some virtioBlkSOk ∧
      virtioBlockRecvRequest fuel m q d (readAddrs m.mem (m.core.queue q) d p).length
          (writeAddrs m.mem (m.core.queue q) d p n).length =
        .done (0, virtioConsumeDesc { m with front, mem := (storeAt m.mem
          (writeAddrs m.mem (m.core.queue q) d p n) reply) } q d (writeAddrs m.mem (m.core.queue q) d p n).length) := by
  obtain ⟨hbuf, hhdr, hdec⟩ := headerCopy hs hfuel hr h16
  generalize hW : writeAddrs m.mem (m.core.queue q) d p n = W at *
  generalize chainHeader m.mem (m.core.queue q) d p = hdr at *
  generalize hk : (W.length - 1) / sectorSize = k at *
  have hkw : sectorSize * k ≤ W.length - 1 := hk ▸ Nat.mul_div_le _ _
  obtain ⟨pos, hread⟩ := bfReadAsync_disk hv hsz (s := hdr.sectorNum) hrange (by omega)
    (show sectorSize * k ≤ (HostBuffer.malloc W.length).size by
      simp only [HostBuffer.malloc, Int.toNat_ofNat]; omega)
  -- the buffer the read leaves, with the status byte last
  generalize hD : m.front.bs.disk.read (sectorSize * hdr.sectorNum.toNat) (sectorSize * k) = D at hread
  have hsize : ((HostBuffer.malloc W.length).overwrite 0 D).size = W.length := by
    rw [HostBuffer.size_overwrite]; rfl
  have hcopy := memcpyToQueue_shape hs hfuel (by rw [hW]; exact hsep)
    (((HostBuffer.malloc W.length).overwrite 0 D).setByte (W.length - 1) (statusOf 0)) (c := W.length)
    hws (by rw [hW]) (by rw [hW]; exact hw) (by rw [HostBuffer.size_setByte, hsize])
  rw [hW, List.take_of_length_le (Nat.le_refl _)] at hcopy
  have hlen : (D.length : Nat) = sectorSize * k := by rw [← hD, Disk.length_read]
  dsimp only [virtioBlockRecvRequest]
  rw [hidle, if_neg Bool.false_ne_true, hhdr, Outcome.done_bind]
  dsimp only
  rw [if_neg (Int.lt_irrefl 0), hdec, if_pos htype, cSub, if_pos (by unfold IsInt32; omega), Outcome.done_bind,
    tdiv_sectorSize_pred hws, hk, hread, Outcome.done_bind]
  dsimp only
  rw [if_neg (Int.lt_irrefl 0)]
  dsimp only [virtioBlockReqEnd]
  rw [if_pos htype, HostBuffer.write, if_pos ⟨by omega, by rw [hsize]; omega⟩, Outcome.done_bind,
    show ((W.length : Int) - 1).toNat = W.length - 1 by omega, hcopy]
  simp only [Outcome.done_bind, Outcome.pure_def]
  refine ⟨_, _, ?_, ?_, ?_, HostBuffer.length_slice _ _ _, ?_, ?_, rfl⟩
  · rfl
  · exact ⟨rfl, rfl, Nat.le_refl _⟩
  · rfl
  · rw [← Nat.add_sub_cancel' (Nat.le_trans hkw (Nat.sub_le _ 1)), HostBuffer.slice_add,
      List.take_left' (HostBuffer.length_slice _ _ _),
      HostBuffer.slice_setByte_of_le _ _ (by omega), ← hlen, HostBuffer.slice_overwrite]
  · exact HostBuffer.getLast?_slice_setByte _ hws _

/-- An OUT request for sectors inside the disk: the handler copies the `read_size - 16` data
bytes, writes the first `(read_size - 16) / 512` sectors of them at the header's sector
(unless the disk is read-only), stores the status byte into the first writable byte and
publishes `(d, 1)`. -/
theorem virtioBlockRecvRequest_out (hidle : m.front.reqInProgress = false) (hv : m.front.bs.Valid)
    (hsz : sectorSize * m.front.bs.nbSectors.toNat < 2 ^ 63)
    (h16 : 16 ≤ (readAddrs m.mem (m.core.queue q) d p).length)
    (htype : (chainHeader m.mem (m.core.queue q) d p).type = virtioBlkTOut)
    (hrange : (chainHeader m.mem (m.core.queue q) d p).sectorNum.toNat +
      ((readAddrs m.mem (m.core.queue q) d p).length - 16) / sectorSize ≤ m.front.bs.nbSectors.toNat) :
    ∃ front : BlockFront, front.reqInProgress = false ∧ m.front.bs.Keeps front.bs ∧
      front.bs.disk = (if m.front.bs.mode = .ro then m.front.bs.disk else
        m.front.bs.disk.write (sectorSize * (chainHeader m.mem (m.core.queue q) d p).sectorNum.toNat)
          ((loadAt m.mem ((readAddrs m.mem (m.core.queue q) d p).drop 16)).take
            (sectorSize * (((readAddrs m.mem (m.core.queue q) d p).length - 16) / sectorSize)))) ∧
      virtioBlockRecvRequest fuel m q d (readAddrs m.mem (m.core.queue q) d p).length
          (writeAddrs m.mem (m.core.queue q) d p n).length =
        .done (0, virtioConsumeDesc { m with front, mem := (storeAt m.mem
          ((writeAddrs m.mem (m.core.queue q) d p n).take 1)
          [if m.front.bs.mode = .ro then virtioBlkSIoerr else virtioBlkSOk]) } q d 1) := by
  obtain ⟨hbuf, hhdr, hdec⟩ := headerCopy hs hfuel hr h16
  have hlen32 : toInt32 ((readAddrs m.mem (m.core.queue q) d p).length - 16) =
      (((readAddrs m.mem (m.core.queue q) d p).length - 16 : Nat) : Int) := by
    rw [toInt32_eq (by unfold IsInt32; omega)]; omega
  -- the data copy
  obtain ⟨r, buf, hdata, hiff, -, hbuf'⟩ := memcpyFromQueue_split (ChainLength.of_shape hs) hs.rwSplit hfuel
    (HostBuffer.malloc (((readAddrs m.mem (m.core.queue q) d p).length - 16 : Nat) : Int)) (o := 16)
    (c := (readAddrs m.mem (m.core.queue q) d p).length - 16) (by decide) (by omega)
    (by simp only [HostBuffer.malloc, Int.toNat_ofNat, Nat.le_refl]) (by rw [← length_spanAddrs]; exact hr)
  have hRl : spanLen m.mem (m.core.queue q) d 0 p = (readAddrs m.mem (m.core.queue q) d p).length :=
    (length_spanAddrs 0 p).symm
  obtain rfl : r = 0 := hiff.mpr (.inr (by omega))
  obtain rfl := hbuf' rfl
  generalize hR : readAddrs m.mem (m.core.queue q) d p = R at *
  generalize chainHeader m.mem (m.core.queue q) d p = hdr at *
  generalize hk : (R.length - 16) / sectorSize = k at *
  have hkr : sectorSize * k ≤ R.length - 16 := hk ▸ Nat.mul_div_le _ _
  have hdl : (loadAt m.mem ((R.drop 16).take (R.length - 16))).length = R.length - 16 := by
    rw [length_loadAt, List.length_take, List.length_drop, Nat.min_self]
  obtain ⟨bf', hwrite, hkeeps, hdisk⟩ := bfWriteAsync_disk hv hsz (s := hdr.sectorNum) hrange (by omega)
    (show sectorSize * k ≤ ((HostBuffer.malloc ((R.length - 16 : Nat) : Int)).overwrite 0
        (loadAt m.mem ((R.drop 16).take (R.length - 16)))).size by
      rw [HostBuffer.size_overwrite]; simp only [HostBuffer.malloc, Int.toNat_ofNat]; exact hkr)
  rw [HostBuffer.slice_overwrite_of_le _ _ (by omega),
    List.take_of_length_le (show (R.drop 16).length ≤ R.length - 16 by rw [List.length_drop])] at hdisk
  have hcopy := memcpyToQueue_shape hs hfuel hsep (HostBuffer.ofList [statusOf (if m.front.bs.mode = .ro then -1 else 0)])
    (c := 1) (Nat.succ_pos 0) hws hw (Nat.le_refl 1)
  have hret : ¬ ((if m.front.bs.mode = .ro then -1 else 0 : Int) > 0) := by split <;> decide
  have hnin : hdr.type ≠ virtioBlkTIn := by rw [htype]; decide
  dsimp only [virtioBlockRecvRequest]
  rw [hidle, if_neg Bool.false_ne_true, hhdr, Outcome.done_bind]
  dsimp only
  rw [if_neg (Int.lt_irrefl 0), hdec, if_neg hnin, if_pos htype,
    Outcome.require_pos (by omega), Outcome.done_bind, hlen32]
  have hdata' : memcpyFromQueue fuel m.mem (HostBuffer.malloc ((R.length - 16 : Nat) : Int)) (m.core.queue q) d
      16 ((R.length - 16 : Nat) : Int) = .done (0, m.mem, (HostBuffer.malloc ((R.length - 16 : Nat) : Int)).overwrite 0
        (loadAt m.mem ((R.drop 16).take (R.length - 16)))) := hdata
  have hcopy' : memcpyToQueue fuel m.mem (m.core.queue q) d 0
      (HostBuffer.ofList [statusOf (if m.front.bs.mode = .ro then -1 else 0)]) 1 = _ := hcopy
  rw [hdata', Outcome.done_bind]
  dsimp only
  rw [← Int.ofNat_tdiv, hk, hwrite, Outcome.done_bind]
  dsimp only
  rw [if_neg hret]
  dsimp only [virtioBlockReqEnd]
  rw [if_neg hnin, if_pos htype, hcopy']
  simp only [Outcome.done_bind, Outcome.pure_def, ← statusOf_ite]
  exact ⟨_, rfl, hkeeps, hdisk, rfl⟩

end Handle

/-- In a reachable state, for a head `d` of queue `q` whose chain `get_desc_rw_size` accepts
(a readable prefix of `read_size` bytes and a writable rest of `write_size ≥ 1` bytes apart
from the chain's entries, each shorter than `2^31` bytes), `virtio_block_recv_request`
returns 0 at once, and:
* with fewer than 16 readable bytes it changes nothing and publishes nothing;
* for an IN request inside the disk it stores the `(write_size - 1) / 512` sectors from the
  header's sector, then `VIRTIO_BLK_S_OK` as the last byte, along the writable addresses, and
  publishes exactly one used entry `(d, write_size)`; the disk is unchanged;
* for an OUT request inside the disk it writes the first `(read_size - 16) / 512` sectors of
  the data after the header at the header's sector, unless the disk is read-only, stores the
  status byte (`VIRTIO_BLK_S_OK`, or `VIRTIO_BLK_S_IOERR` on a read-only disk) into the first
  writable byte, and publishes exactly one entry `(d, 1)`;
* for any other type (`FLUSH` or unsupported) it publishes nothing and leaves the backend
  and memory alone. -/
theorem virtioBlockRecvRequest_completion (fuel : Nat) {m : BlockMachine} (hm : Reachable m)
    (hsz : sectorSize * m.front.bs.nbSectors.toNat < 2 ^ 63) {q : Fin maxQueue} {d : U16} {p n : Nat}
    (hs : ChainShape m.mem (m.core.queue q) d p n) (hfuel : n ≤ fuel)
    (hr : (readAddrs m.mem (m.core.queue q) d p).length < 2 ^ 31)
    (hw : (writeAddrs m.mem (m.core.queue q) d p n).length < 2 ^ 31)
    (hws : 0 < (writeAddrs m.mem (m.core.queue q) d p n).length)
    (hsep : ∀ a ∈ writeAddrs m.mem (m.core.queue q) d p n, ¬ ChainEntry m.mem (m.core.queue q) d a) :
    ((readAddrs m.mem (m.core.queue q) d p).length < 16 →
      virtioBlockRecvRequest fuel m q d (readAddrs m.mem (m.core.queue q) d p).length
        (writeAddrs m.mem (m.core.queue q) d p n).length = .done (0, m)) ∧
    (16 ≤ (readAddrs m.mem (m.core.queue q) d p).length →
      (chainHeader m.mem (m.core.queue q) d p).type = virtioBlkTIn →
      (chainHeader m.mem (m.core.queue q) d p).sectorNum.toNat +
        ((writeAddrs m.mem (m.core.queue q) d p n).length - 1) / sectorSize ≤ m.front.bs.nbSectors.toNat →
      ∃ (front : BlockFront) (reply : List U8), front.reqInProgress = false ∧ m.front.bs.Keeps front.bs ∧
        front.bs.disk = m.front.bs.disk ∧ reply.length = (writeAddrs m.mem (m.core.queue q) d p n).length ∧
        reply.take (sectorSize * (((writeAddrs m.mem (m.core.queue q) d p n).length - 1) / sectorSize)) =
          m.front.bs.disk.read (sectorSize * (chainHeader m.mem (m.core.queue q) d p).sectorNum.toNat)
            (sectorSize * (((writeAddrs m.mem (m.core.queue q) d p n).length - 1) / sectorSize)) ∧
        reply.getLast? = some virtioBlkSOk ∧
        virtioBlockRecvRequest fuel m q d (readAddrs m.mem (m.core.queue q) d p).length
            (writeAddrs m.mem (m.core.queue q) d p n).length =
          .done (0, virtioConsumeDesc { m with front, mem := (storeAt m.mem
            (writeAddrs m.mem (m.core.queue q) d p n) reply) } q d
            (writeAddrs m.mem (m.core.queue q) d p n).length)) ∧
    (16 ≤ (readAddrs m.mem (m.core.queue q) d p).length →
      (chainHeader m.mem (m.core.queue q) d p).type = virtioBlkTOut →
      (chainHeader m.mem (m.core.queue q) d p).sectorNum.toNat +
        ((readAddrs m.mem (m.core.queue q) d p).length - 16) / sectorSize ≤ m.front.bs.nbSectors.toNat →
      ∃ front : BlockFront, front.reqInProgress = false ∧ m.front.bs.Keeps front.bs ∧
        front.bs.disk = (if m.front.bs.mode = .ro then m.front.bs.disk else
          m.front.bs.disk.write (sectorSize * (chainHeader m.mem (m.core.queue q) d p).sectorNum.toNat)
            ((loadAt m.mem ((readAddrs m.mem (m.core.queue q) d p).drop 16)).take
              (sectorSize * (((readAddrs m.mem (m.core.queue q) d p).length - 16) / sectorSize)))) ∧
        virtioBlockRecvRequest fuel m q d (readAddrs m.mem (m.core.queue q) d p).length
            (writeAddrs m.mem (m.core.queue q) d p n).length =
          .done (0, virtioConsumeDesc { m with front, mem := (storeAt m.mem
            ((writeAddrs m.mem (m.core.queue q) d p n).take 1)
            [if m.front.bs.mode = .ro then virtioBlkSIoerr else virtioBlkSOk]) } q d 1)) ∧
    (16 ≤ (readAddrs m.mem (m.core.queue q) d p).length →
      (chainHeader m.mem (m.core.queue q) d p).type ≠ virtioBlkTIn →
      (chainHeader m.mem (m.core.queue q) d p).type ≠ virtioBlkTOut →
      ∃ front : BlockFront, front.bs = m.front.bs ∧ front.reqInProgress = false ∧
        virtioBlockRecvRequest fuel m q d (readAddrs m.mem (m.core.queue q) d p).length
          (writeAddrs m.mem (m.core.queue q) d p n).length = .done (0, { m with front })) :=
  ⟨fun h16 => virtioBlockRecvRequest_short hs hfuel hr hm.not_reqInProgress h16 _,
    fun h16 htype hrange => virtioBlockRecvRequest_in hs hfuel hr hw hws hsep hm.not_reqInProgress hm.valid hsz
      h16 htype hrange,
    fun h16 htype hrange => virtioBlockRecvRequest_out hs hfuel hr hw hws hsep hm.not_reqInProgress hm.valid hsz
      h16 htype hrange,
    fun h16 hin hout => virtioBlockRecvRequest_other hs hfuel hr hm.not_reqInProgress h16 hin hout _⟩

/-- The OUT request at head 0 of the two-request layout: its header asks for sector 0, and
the handler writes the 512 bytes `0xC3` there and publishes `(0, 1)` with status 0. -/
theorem virtioBlockRecvRequest_completion_out :
    (chainHeader twoReqMachine.mem (twoReqMachine.core.queue 0) 0 2).type = virtioBlkTOut ∧
    (chainHeader twoReqMachine.mem (twoReqMachine.core.queue 0) 0 2).sectorNum = 0 ∧
    ((readAddrs twoReqMachine.mem (twoReqMachine.core.queue 0) 0 2).length < 16 →
      virtioBlockRecvRequest 16 twoReqMachine 0 0 (readAddrs twoReqMachine.mem (twoReqMachine.core.queue 0) 0 2).length
        (writeAddrs twoReqMachine.mem (twoReqMachine.core.queue 0) 0 2 3).length = .done (0, twoReqMachine)) ∧
    (16 ≤ (readAddrs twoReqMachine.mem (twoReqMachine.core.queue 0) 0 2).length →
      (chainHeader twoReqMachine.mem (twoReqMachine.core.queue 0) 0 2).type = virtioBlkTIn →
      (chainHeader twoReqMachine.mem (twoReqMachine.core.queue 0) 0 2).sectorNum.toNat +
        ((writeAddrs twoReqMachine.mem (twoReqMachine.core.queue 0) 0 2 3).length - 1) / sectorSize ≤
          twoReqMachine.front.bs.nbSectors.toNat →
      ∃ (front : BlockFront) (reply : List U8), front.reqInProgress = false ∧
        twoReqMachine.front.bs.Keeps front.bs ∧ front.bs.disk = twoReqMachine.front.bs.disk ∧
        reply.length = (writeAddrs twoReqMachine.mem (twoReqMachine.core.queue 0) 0 2 3).length ∧
        reply.take (sectorSize * (((writeAddrs twoReqMachine.mem (twoReqMachine.core.queue 0) 0 2 3).length - 1) /
          sectorSize)) =
          twoReqMachine.front.bs.disk.read
            (sectorSize * (chainHeader twoReqMachine.mem (twoReqMachine.core.queue 0) 0 2).sectorNum.toNat)
            (sectorSize * (((writeAddrs twoReqMachine.mem (twoReqMachine.core.queue 0) 0 2 3).length - 1) /
              sectorSize)) ∧
        reply.getLast? = some virtioBlkSOk ∧
        virtioBlockRecvRequest 16 twoReqMachine 0 0
            (readAddrs twoReqMachine.mem (twoReqMachine.core.queue 0) 0 2).length
            (writeAddrs twoReqMachine.mem (twoReqMachine.core.queue 0) 0 2 3).length =
          .done (0, virtioConsumeDesc { twoReqMachine with front, mem := (storeAt twoReqMachine.mem
            (writeAddrs twoReqMachine.mem (twoReqMachine.core.queue 0) 0 2 3) reply) } 0 0
            (writeAddrs twoReqMachine.mem (twoReqMachine.core.queue 0) 0 2 3).length)) ∧
    (16 ≤ (readAddrs twoReqMachine.mem (twoReqMachine.core.queue 0) 0 2).length →
      (chainHeader twoReqMachine.mem (twoReqMachine.core.queue 0) 0 2).type = virtioBlkTOut →
      (chainHeader twoReqMachine.mem (twoReqMachine.core.queue 0) 0 2).sectorNum.toNat +
        ((readAddrs twoReqMachine.mem (twoReqMachine.core.queue 0) 0 2).length - 16) / sectorSize ≤
          twoReqMachine.front.bs.nbSectors.toNat →
      ∃ front : BlockFront, front.reqInProgress = false ∧ twoReqMachine.front.bs.Keeps front.bs ∧
        front.bs.disk = (if twoReqMachine.front.bs.mode = .ro then twoReqMachine.front.bs.disk else
          twoReqMachine.front.bs.disk.write
            (sectorSize * (chainHeader twoReqMachine.mem (twoReqMachine.core.queue 0) 0 2).sectorNum.toNat)
            ((loadAt twoReqMachine.mem ((readAddrs twoReqMachine.mem (twoReqMachine.core.queue 0) 0 2).drop 16)).take
              (sectorSize * (((readAddrs twoReqMachine.mem (twoReqMachine.core.queue 0) 0 2).length - 16) /
                sectorSize)))) ∧
        virtioBlockRecvRequest 16 twoReqMachine 0 0
            (readAddrs twoReqMachine.mem (twoReqMachine.core.queue 0) 0 2).length
            (writeAddrs twoReqMachine.mem (twoReqMachine.core.queue 0) 0 2 3).length =
          .done (0, virtioConsumeDesc { twoReqMachine with front, mem := (storeAt twoReqMachine.mem
            ((writeAddrs twoReqMachine.mem (twoReqMachine.core.queue 0) 0 2 3).take 1)
            [if twoReqMachine.front.bs.mode = .ro then virtioBlkSIoerr else virtioBlkSOk]) } 0 0 1)) ∧
    (16 ≤ (readAddrs twoReqMachine.mem (twoReqMachine.core.queue 0) 0 2).length →
      (chainHeader twoReqMachine.mem (twoReqMachine.core.queue 0) 0 2).type ≠ virtioBlkTIn →
      (chainHeader twoReqMachine.mem (twoReqMachine.core.queue 0) 0 2).type ≠ virtioBlkTOut →
      ∃ front : BlockFront, front.bs = twoReqMachine.front.bs ∧ front.reqInProgress = false ∧
        virtioBlockRecvRequest 16 twoReqMachine 0 0
          (readAddrs twoReqMachine.mem (twoReqMachine.core.queue 0) 0 2).length
          (writeAddrs twoReqMachine.mem (twoReqMachine.core.queue 0) 0 2 3).length =
            .done (0, { twoReqMachine with front })) ∧
    ∃ front : BlockFront, front.bs.disk = twoReqMachine.front.bs.disk.write 0 (List.replicate 512 0xC3) ∧
      virtioBlockRecvRequest 16 twoReqMachine 0 0 528 1 = .done (0, virtioConsumeDesc
        { twoReqMachine with front, mem := (storeAt twoReqMachine.mem [0x2000] [virtioBlkSOk]) } 0 0 1) := by
  have hc := twoReq_chainOut
  have hh : chainHeader twoReqMachine.mem (twoReqMachine.core.queue 0) 0 2 =
      BlockRequestHeader.decode (loadAt twoReqMem (addrsFrom 0x1000 16)) := by
    rw [chainHeader, twoReq_addrs.1, List.take_left' (length_addrsFrom _ _)]; rfl
  have hsep : ∀ a ∈ writeAddrs twoReqMachine.mem (twoReqMachine.core.queue 0) 0 2 3,
      ¬ ChainEntry twoReqMachine.mem (twoReqMachine.core.queue 0) 0 a := fun a ha he =>
    have h0 : postedHead twoReqMachine 0 0 = 0 := by decide
    twoReq_requestBatch.apart a (.inr ⟨0, by decide, h0 ▸ (hc.shape.chainBuf_write_iff a).mpr ha⟩)
      (.inr ⟨0, by decide, h0 ▸ he⟩)
  have hC := virtioBlockRecvRequest_completion 16 twoReqMachine_reachable (by decide) hc.shape (by decide)
    hc.readLt hc.writeLt (by rw [hc.writeLen]; decide) hsep
  have hrl : (readAddrs twoReqMachine.mem (twoReqMachine.core.queue 0) 0 2).length = 528 := hc.readLen
  have hsector : (chainHeader twoReqMachine.mem (twoReqMachine.core.queue 0) 0 2).sectorNum.toNat = 0 := hc.sector
  have hrw : twoReqMachine.front.bs.mode ≠ .ro := by decide
  obtain ⟨front, -, -, hdisk, hrecv⟩ := hC.2.2.1 (by omega) hc.type (by rw [hsector, hrl]; decide)
  rw [if_neg hrw, hsector, hrl, hc.data, show (twoReqs 0).data = List.replicate 512 0xC3 from rfl,
    List.take_replicate] at hdisk
  rw [if_neg hrw, hrl, hc.writeLen, twoReq_addrs.2.1] at hrecv
  exact ⟨by rw [hh]; decide, by rw [hh]; decide, hC.1, hC.2.1, hC.2.2.1, hC.2.2.2, front, hdisk, hrecv⟩

/-! ## The backend's range checks -/

set_option maxRecDepth 4000 in
/-- `bf_read_async` never reports an error, so an IN request whose read returns ends with
`VIRTIO_BLK_S_OK` whatever its sectors. On a 1024-byte file (two sectors): in read-write mode
a read of sector 2 returns 0 and copies nothing, and a write of sector 2 returns 0 and grows
the file to 1536 bytes; in snapshot mode a read of sector 2 indexes `sector_table` past its
two entries. -/
theorem bfReadAsync_no_range_check :
    (∀ bf sectorNum buf n res, bfReadAsync bf sectorNum buf n = .done res →
      statusOf res.1 = virtioBlkSOk) ∧
    (match bfReadAsync (blockDeviceInit 1024 (fun _ => 0) .rw) 2 (HostBuffer.malloc 513) 1 with
      | .done (ret, _, buf) => some (ret, buf.size, buf.bytes 0)
      | _ => none) = some (0, 513, 0) ∧
    (match bfWriteAsync (blockDeviceInit 1024 (fun _ => 0) .rw) 2 (HostBuffer.malloc 513) 1 with
      | .done (ret, bf) => some (ret, bf.f.size)
      | _ => none) = some (0, 1536) ∧
    (match bfReadAsync (blockDeviceInit 1024 (fun _ => 0) .snapshot) 2 (HostBuffer.malloc 513) 1 with
      | .fault => true
      | _ => false) = true :=
  ⟨fun _ _ _ _ _ h => by rw [bfReadAsync_ret h]; rfl, by decide, by decide, by decide⟩

/-! ## Requests without a writable region -/

theorem FileStream.fread_zero (f : FileStream) (buf : HostBuffer) (cursor : Int) :
    f.fread buf cursor 0 = .done (buf, f) := by
  simp [FileStream.fread, FileStream.readAt, HostBuffer.writeList]

/-- `bf_read_async` of no sectors returns 0 and leaves the buffer. -/
theorem bfReadAsync_zero (bf : BlockDeviceFile) (sectorNum : U64) (buf : HostBuffer) :
    ∃ bf', bfReadAsync bf sectorNum buf 0 = .done (0, bf', buf) := by
  unfold bfReadAsync
  split
  · exact ⟨bf, rfl⟩
  · refine ⟨{ bf with f := bf.f.fseek (seekOffset sectorNum) }, ?_⟩
    dsimp only
    rw [show sectorBytes 0 = .done 0 from rfl, Outcome.done_bind, show toSizeT 0 = 0 from rfl,
      FileStream.fread_zero, Outcome.done_bind]
    rfl

/-- A request whose chain has no writable region (`write_size = 0`) and whose header reads
as IN or OUT is not completed: an IN request reads `(0 - 1) / 512 = 0` sectors into a buffer
of `malloc(0)` and then stores its status byte at `buf[-1]`, and an OUT request fails
`assert(write_size >= 1)`. Both are a fault. -/
theorem virtioBlockRecvRequest_noWritable (fuel : Nat) {m : BlockMachine} {q : Fin maxQueue}
    {d : U16} {rs r : Int} {mem' : GuestMemory} {h : HostBuffer} (hidle : m.front.reqInProgress = false)
    (hhdr : memcpyFromQueue fuel m.mem (HostBuffer.malloc 16) (m.core.queue q) d 0 16 = .done (r, mem', h))
    (hr : ¬ r < 0)
    (htype : (BlockRequestHeader.decode (h.slice 0 16)).type = virtioBlkTIn ∨
      (BlockRequestHeader.decode (h.slice 0 16)).type = virtioBlkTOut) :
    virtioBlockRecvRequest fuel m q d rs 0 = .fault := by
  unfold virtioBlockRecvRequest
  rw [if_neg (by simp [hidle])]
  dsimp only
  rw [hhdr, Outcome.done_bind]
  dsimp only
  rw [if_neg hr]
  rcases htype with hin | hout
  · obtain ⟨bf', hread⟩ := bfReadAsync_zero m.front.bs (BlockRequestHeader.decode (h.slice 0 16)).sectorNum
      (HostBuffer.malloc 0)
    rw [if_pos hin, show cSub 0 1 = .done (-1) from rfl, Outcome.done_bind,
      show (-1 : Int).tdiv sectorSize = 0 from rfl, hread, Outcome.done_bind]
    dsimp only
    rw [if_neg (by decide), virtioBlockReqEnd, if_pos hin]
    rfl
  · rw [if_neg (by rw [hout]; decide), if_pos hout, Outcome.require_neg (by decide), Outcome.fault_bind]

/-- One device-readable descriptor of 16 bytes at `0x1000`, without NEXT: a request header
and no writable region. -/
def headerOnlyTable : List U8 := encodeLE 8 0x1000 ++ encodeLE 4 16 ++ encodeLE 2 0 ++ encodeLE 2 0

/-- That table at address 0, where a reset leaves queue 0's descriptor table, and a header of
type `t` at `0x1000`. -/
def headerOnlyMem (t : U8) : GuestMemory := fun a =>
  if a = 0x1000 then t else headerOnlyTable.getD a.toNat 0

/-- The chain of head 0 is accepted with `read_size = 16` and `write_size = 0`, and
`virtio_block_recv_request` called with those sizes faults for an IN header (type 0) and for
an OUT header (type 1), instead of completing the request with an error. -/
theorem headerOnly_request_faults :
    getDescRwSize 16 (headerOnlyMem 0) ((initialMachine 512 (fun _ => 0) .rw (headerOnlyMem 0)).core.queue 0) 0 =
      .done (some (16, 0)) ∧
    virtioBlockRecvRequest 16 (initialMachine 512 (fun _ => 0) .rw (headerOnlyMem 0)) 0 0 16 0 = .fault ∧
    virtioBlockRecvRequest 16 (initialMachine 512 (fun _ => 0) .rw (headerOnlyMem 1)) 0 0 16 0 = .fault :=
  ⟨by decide, rfl, rfl⟩

end SpikeDevices.Block
