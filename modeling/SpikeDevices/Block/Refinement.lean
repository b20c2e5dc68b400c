import SpikeDevices.Block.Request
import SpikeDevices.Virtio.Poll

/-!
# The block device serves an array of sectors

To the driver, the block device is an array of 512-byte sectors (`Disk`) that requests read
and write (`BlockReq.apply`, `BlockReq.reply`). The abstraction of a device state is the
disk its backend presents, `m.front.bs.disk`, which `block_device_init` starts from the
file's bytes (`disk_blockDeviceInit`) and which only a poll of a queue can change
(`step_front`).

The main theorem, `queueNotify_serves`, is the step of that refinement: from any reachable
state, a `QUEUE_NOTIFY` write over a batch of chains that carry well-formed requests
(`RequestBatch`) serves the requests in ring order. The disk becomes the array after all of
them, each writable region holds its reply to the array as the requests before it left it,
and the used ring holds one entry per request, in order. The batch conditions are the
driver's: every chain has the layout the request needs, each part is shorter than `2^31`
bytes (the source adds lengths in `int`), the sectors are inside the disk, and the buffers
the device stores into are apart from everything it reads and from one another.

The proof follows the poll one request at a time (`Served`, `Served.next`): each step is
`virtioBlockRecvRequest_request` on the current state, which agrees with the posted one on
everything the request is read from.
-/

namespace SpikeDevices.Block

open Virtio GuestMemory VirtioDevice

/-! ## The backend stays valid -/

/-- Handling a head changes the backend only as a read or a write does. -/
theorem virtioBlockRecvRequest_keeps (fuel : Nat) {m m' : BlockMachine} {q : Fin maxQueue} {d : U16}
    {rs ws r : Int} (h : virtioBlockRecvRequest fuel m q d rs ws = .done (r, m')) :
    m.front.bs.Keeps m'.front.bs := by
  rcases virtioBlockRecvRequest_cases fuel h with ⟨-, -, rfl⟩ | ⟨-, -, _, _, _, -, ⟨-, rfl⟩ |
    ⟨_, -, -, ⟨-, _, _, _, -, hread, hend⟩ | ⟨-, -, _, _, _, _, _, -, hwrite, -, hend⟩ | ⟨-, -, rfl⟩⟩⟩
  · exact .refl _
  · exact .refl _
  · rw [(virtioBlockReqEnd_core_front fuel hend).2]; exact bfReadAsync_keeps hread
  · rw [(virtioBlockReqEnd_core_front fuel hend).2]; exact bfWriteAsync_keeps hwrite
  · exact .refl _

/-- Every reachable state's backend is valid: its sectors lie inside its file. -/
theorem Reachable.valid {m : BlockMachine} (hm : Reachable m) : m.front.bs.Valid := by
  refine hm.invariant (fun m => m.front.bs.Valid) (fun _ _ _ _ => valid_blockDeviceInit _ _ _) ?_
  intro fuel op m m' hv h
  rcases step_front fuel _ h with e | ⟨q, hq⟩
  · rw [e]; exact hv
  · exact (queueNotify_rel fuel (virtioBlockRecvRequest fuel) q
      (fun m m' => m.front.bs.Keeps m'.front.bs) (fun _ => .refl _) (fun _ _ _ => .trans)
      (fun _ _ _ _ _ _ hr => virtioBlockRecvRequest_keeps fuel hr) (fun _ => .refl _) hq).valid hv

/-! ## The array after a sequence of requests -/

/-- The disk after the first `i` requests of `req`, from `D`, on a backend in mode `mode`. -/
def diskAfter (mode : BlockDeviceMode) (req : Nat → BlockReq) (D : Disk) : Nat → Disk
  | 0 => D
  | i + 1 => (req i).apply mode (diskAfter mode req D i)

/-! ## A batch of well-formed requests -/

section Batch

variable (m : BlockMachine) (q : Fin maxQueue) (p n : Nat → Nat)

/-- The device-readable addresses of the `i`-th posted chain, whose first `p i` descriptors
are readable. -/
def postedReads (i : Nat) : List U64 := readAddrs m.mem (m.core.queue q) (postedHead m q i) (p i)

/-- The device-writable addresses of the `i`-th posted chain, of `n i` descriptors. -/
def postedWrites (i : Nat) : List U64 :=
  writeAddrs m.mem (m.core.queue q) (postedHead m q i) (p i) (n i)

/-- The chains posted on `q` in `m` carry the requests `req`, the `i`-th one on a chain of
`n i` descriptors of which the first `p i` are readable; the posted heads fit in the ring;
the sectors are inside the disk; and the bytes the poll may store into (the used ring and
the writable buffers) are apart from the bytes it reads (the available ring, the chains'
entries and their readable buffers), the writable buffers of different requests are apart,
and none is in the used ring. -/
structure RequestBatch (req : Nat → BlockReq) : Prop where
  fits : posted m q ≤ (m.core.queue q).num.toNat
  chain : ∀ i < posted m q, RequestChain m.mem (m.core.queue q) (postedHead m q i) (p i) (n i) (req i)
  range : ∀ i < posted m q, (req i).sector + (req i).count ≤ m.front.bs.nbSectors.toNat
  apart : ∀ a, PollWrites m q a → ¬ PollReads m q a
  readApart : ∀ i < posted m q, ∀ a ∈ postedReads m q p i, ¬ PollWrites m q a
  writeApart : ∀ i < posted m q, ∀ j < i, ∀ a ∈ postedWrites m q p n i, a ∉ postedWrites m q p n j
  usedApart : ∀ i < posted m q, ∀ a ∈ postedWrites m q p n i, ¬ InUsedRing (m.core.queue q) a

end Batch

/-! ## The states of a notify that serves a batch -/

/-- A state of the poll of `q` from `m0` that has served the first `i` requests: no request
is in progress, the backend's disk is the array after those requests, each served request's
reply is in its writable buffers, the used index has gone up by `i`, and the used ring holds
the served requests' entries. -/
structure Served (m0 m : BlockMachine) (q : Fin maxQueue) (p n : Nat → Nat) (req : Nat → BlockReq)
    (i : Nat) : Prop where
  poll : PollState m0 m q i
  idle : m.front.reqInProgress = false
  keeps : m0.front.bs.Keeps m.front.bs
  disk : m.front.bs.disk = diskAfter m0.front.bs.mode req m0.front.bs.disk i
  replies : ∀ j < i, loadAt m.mem (postedWrites m0 q p n j) =
    (req j).reply m0.front.bs.mode (diskAfter m0.front.bs.mode req m0.front.bs.disk j)
  usedIdx : m.mem.load16 ((m0.core.queue q).usedAddr + 2) =
    m0.mem.load16 ((m0.core.queue q).usedAddr + 2) + BitVec.ofNat 16 i
  entries : ∀ j < i, UsedEntry m.mem (m0.core.queue q)
    (m0.mem.load16 ((m0.core.queue q).usedAddr + 2) + BitVec.ofNat 16 j) (postedHead m0 q j)
    (req j).usedLen

theorem Served.start {m0 : BlockMachine} {q : Fin maxQueue} {p n : Nat → Nat} {req : Nat → BlockReq}
    (hidle : m0.front.reqInProgress = false) : Served m0 m0 q p n req 0 where
  poll := .start
  idle := hidle
  keeps := .refl _
  disk := rfl
  replies _ h := absurd h (Nat.not_lt_zero _)
  usedIdx := (BitVec.add_zero _).symm
  entries _ h := absurd h (Nat.not_lt_zero _)

section Serve

variable {fuel : Nat} {m0 m : BlockMachine} {q : Fin maxQueue} {p n : Nat → Nat}
  {req : Nat → BlockReq} {i : Nat} (hb : RequestBatch m0 q p n req)
  (hnum : (m0.core.queue q).num.toNat.isPowerOfTwo)

include hb hnum

/-- Serving the `i`-th request: storing its reply along its writable addresses and publishing
its entry, with the backend changed as the request says, leaves a state that has served
`i + 1` requests. -/
theorem Served.publish (hs : Served m0 m q p n req i) (hi : i < posted m0 q) {front : BlockFront}
    (hidle : front.reqInProgress = false) (hk : m.front.bs.Keeps front.bs)
    (hdisk : front.bs.disk = (req i).apply m.front.bs.mode m.front.bs.disk) :
    Served m0 (incLastAvail (virtioConsumeDesc { m with front := front, mem := (storeAt m.mem
      (postedWrites m0 q p n i) ((req i).reply m.front.bs.mode m.front.bs.disk)) } q
      (postedHead m0 q i) (req i).usedLen) q) q p n req (i + 1) := by
  have hc := hb.chain i hi
  have hqs := hs.poll.queue_eq
  have hnum' : (m.core.queue q).num.toNat.isPowerOfTwo := hs.poll.num_isPowerOfTwo hnum
  have hu0 : (m.core.queue q).usedAddr = (m0.core.queue q).usedAddr := by rw [hqs]
  have hused : ∀ a, InUsedRing (m.core.queue q) a → InUsedRing (m0.core.queue q) a := by
    rw [hqs]; exact fun _ h => h
  have hmode : m.front.bs.mode = m0.front.bs.mode := hs.keeps.1
  have hpost : posted m0 q < 2 ^ 16 := BitVec.isLt _
  -- what the two stores leave in memory
  generalize hW : postedWrites m0 q p n i = W at *
  generalize hR : (req i).reply m.front.bs.mode m.front.bs.disk = R
  have hWpoll : ∀ a ∈ W, PollWrites m0 q a := fun a ha =>
    .inr ⟨i, hi, (hc.shape.chainBuf_write_iff a).mpr (by rw [← hW] at ha; exact ha)⟩
  have hmem1 : ∀ a, ¬ InUsedRing (m0.core.queue q) a →
      (virtioConsumeDesc { m with front := front, mem := storeAt m.mem W R } q (postedHead m0 q i)
        (req i).usedLen).mem a = storeAt m.mem W R a := fun a ha =>
    virtioConsumeDesc_frame { m with front := front, mem := storeAt m.mem W R } q _ _ hnum'
      fun h => ha (hused a h)
  have hframe : ∀ a, a ∉ W → ¬ InUsedRing (m0.core.queue q) a →
      (virtioConsumeDesc { m with front := front, mem := storeAt m.mem W R } q (postedHead m0 q i)
        (req i).usedLen).mem a = m.mem a := fun a hw hu =>
    (hmem1 a hu).trans (storeAt_outside _ _ _ hw)
  have hWused : ∀ a, InUsedRing (m0.core.queue q) a → a ∉ W := fun a hu hw =>
    hb.usedApart i hi a (hW ▸ hw) hu
  have hidx : (storeAt m.mem W R).load16 ((m0.core.queue q).usedAddr + 2) =
      m0.mem.load16 ((m0.core.queue q).usedAddr + 2) + BitVec.ofNat 16 i := by
    rw [← hs.usedIdx]
    simp only [load16]
    rw [bytesAt_congr fun a ha => storeAt_outside _ _ _ (hWused a (inRegion_of_le (by omega) ha))]
  have hpub := virtioConsumeDesc_publish { m with front := front, mem := storeAt m.mem W R } q
    (postedHead m0 q i) (req i).usedLen hnum'
  have hent := virtioConsumeDesc_usedEntry { m with front := front, mem := storeAt m.mem W R } q
    (postedHead m0 q i) (req i).usedLen hnum'
  dsimp only at hpub hent
  rw [hu0, hidx] at hpub hent
  have hpoll : PollState m0 (virtioConsumeDesc { m with front := front, mem := storeAt m.mem W R } q
      (postedHead m0 q i) (req i).usedLen) q i :=
    ⟨hqs, hs.poll.le_posted, fun a ha =>
      (hframe a (fun hw => ha (hWpoll a hw)) fun hu => ha (.inl hu)).trans (hs.poll.mem_eq a ha)⟩
  refine ⟨hpoll.incLastAvail hi, hidle, hs.keeps.trans hk, ?_, ?_, ?_, ?_⟩
  · show front.bs.disk = _
    rw [hdisk, hmode, hs.disk]
    rfl
  · intro j hj
    rcases Nat.lt_succ_iff_lt_or_eq.mp hj with hj | rfl
    · rw [← hs.replies j hj]
      refine List.map_congr_left fun a ha => hframe a (fun hw => hb.writeApart i hi j hj a (hW ▸ hw) ha)
        (fun hu => hb.usedApart j (by omega) a ha hu)
    · rw [hW]
      refine ((List.map_congr_left fun a ha => hmem1 a fun hu => hWused a hu ha).trans
        (loadAt_storeAt _ (hW ▸ hc.nodup) ?_)).trans ?_
      · rw [← hR, BlockReq.length_reply, ← hW]; exact hc.writeLen
      · rw [← hR, hmode, hs.disk]
  · show (virtioConsumeDesc _ _ _ _).mem.load16 _ = _
    rw [hpub.1]
    bv_omega
  · intro j hj
    rcases Nat.lt_succ_iff_lt_or_eq.mp hj with hj | rfl
    · have h1 := (hs.entries j hj).congr fun a ha =>
        storeAt_outside m.mem W R (hWused a (inUsedRing_of_entry hnum _ ha))
      refine h1.congr fun a ha => ?_
      obtain ⟨hnidx, hnent⟩ := usedEntry_apart hnum
        (slot_ne hnum (m0.mem.load16 ((m0.core.queue q).usedAddr + 2)) hj
          (Nat.lt_of_lt_of_le hi hb.fits) (by omega)) ha
      refine virtioConsumeDesc_apart _ q _ _ ?_ ?_
      · dsimp only; rw [hu0]; exact hnidx
      · dsimp only; rw [hu0, hidx, hqs]; exact hnent
    · rw [hqs] at hent
      exact hent

omit hnum in
/-- In a state that has served `i` requests, the `i`-th posted chain still carries its
request, at the addresses it was posted with. -/
theorem Served.request (hs : Served m0 m q p n req i) (hi : i < posted m0 q) :
    RequestChain m.mem (m.core.queue q) (postedHead m0 q i) (p i) (n i) (req i) ∧
      readAddrs m.mem (m.core.queue q) (postedHead m0 q i) (p i) = postedReads m0 q p i ∧
      writeAddrs m.mem (m.core.queue q) (postedHead m0 q i) (p i) (n i) = postedWrites m0 q p n i := by
  have hc := hb.chain i hi
  have hq := hs.poll.descAddr_eq
  have hent := hs.poll.chain_agree hb.apart hi
  refine ⟨(hc.congr hent fun a ha => hs.poll.mem_eq a (hb.readApart i hi a ha)).queue hq, ?_, ?_⟩
  · exact (spanAddrs_queue hq 0 (p i)).trans (hc.shape.readAddrs_congr hent)
  · exact (spanAddrs_queue hq (p i) (n i - p i)).trans (hc.shape.writeAddrs_congr hent)

/-- One iteration of the poll in a state that has served `i` requests: `get_desc_rw_size`
returns the sizes of the `i`-th request's chain, and the handler serves it. -/
theorem Served.next (hs : Served m0 m q p n req i) (hi : i < posted m0 q) (hv : m0.front.bs.Valid)
    (hsz : sectorSize * m0.front.bs.nbSectors.toNat < 2 ^ 63) (hfuel : n i ≤ fuel) :
    getDescRwSize fuel m.mem (m.core.queue q) (postedHead m0 q i) =
        .done (some ((postedReads m0 q p i).length, (postedWrites m0 q p n i).length)) ∧
      ∃ m1, virtioBlockRecvRequest fuel m q (postedHead m0 q i) (postedReads m0 q p i).length
          (postedWrites m0 q p n i).length = .done (0, m1) ∧
        Served m0 (incLastAvail m1 q) q p n req (i + 1) := by
  obtain ⟨hc, hr, hw⟩ := hs.request hb hi
  have hnb := hs.keeps.2.1
  obtain ⟨front, hidle, hk, hdisk, hrecv⟩ := virtioBlockRecvRequest_request hs.idle
    (hs.keeps.valid hv) (by rw [hnb]; exact hsz) hc (by rw [hnb]; exact hb.range i hi) hfuel
    fun a ha => hs.poll.chain_sep hb.apart hi a ((hc.shape.chainBuf_write_iff a).mpr ha)
  rw [hr, hw] at hrecv
  exact ⟨by rw [← hr, ← hw]; exact getDescRwSize_shape hc.shape hfuel hc.readLt hc.writeLt,
    _, hrecv, hs.publish hb hnum hi hidle hk hdisk⟩

/-- The loop of `queue_notify` from a state that has served `i` requests, with iterations
left for the rest, serves them all. -/
theorem notifyLoop_served (hv : m0.front.bs.Valid)
    (hsz : sectorSize * m0.front.bs.nbSectors.toNat < 2 ^ 63) (hn : ∀ i < posted m0 q, n i ≤ fuel) :
    ∀ k i (m : BlockMachine), Served m0 m q p n req i → posted m0 q ≤ i + k →
      ∃ m', notifyLoop fuel (virtioBlockRecvRequest fuel) q
        (m0.mem.load16 ((m0.core.queue q).availAddr + 2)) k m = .done m' ∧
        Served m0 m' q p n req (posted m0 q)
  | 0, i, m, hs, hle => by
    obtain rfl : i = posted m0 q := Nat.le_antisymm hs.poll.le_posted (by omega)
    exact ⟨m, by rw [notifyLoop, if_pos hs.poll.lastAvail_of_posted], hs⟩
  | k + 1, i, m, hs, hle => by
    rw [notifyLoop_succ_eq]
    by_cases hi : i < posted m0 q
    · obtain ⟨hsize, m1, hrecv, hs1⟩ := hs.next hb hnum hi hv hsz (hn i hi)
      rw [if_neg (hs.poll.lastAvail_ne hi), hs.poll.head_eq hnum hb.apart, hsize, Outcome.done_bind]
      dsimp only
      rw [hrecv, Outcome.done_bind]
      dsimp only
      rw [if_neg (Int.lt_irrefl 0)]
      exact notifyLoop_served hv hsz hn k (i + 1) _ hs1 (by omega)
    · obtain rfl : i = posted m0 q := Nat.le_antisymm hs.poll.le_posted (by omega)
      exact ⟨m, by rw [if_pos hs.poll.lastAvail_of_posted], hs⟩

end Serve

/-! ## A notify serves the batch -/

/-- What a notify of `q` needs of the state it starts from, and leaves in the state it ends
in: no request in progress, a valid backend, and the queue polled, with a power-of-two size. -/
structure NotifyReady (m : BlockMachine) (q : Fin maxQueue) : Prop where
  idle : m.front.reqInProgress = false
  valid : m.front.bs.Valid
  manualRecv : (m.core.queue q).manualRecv = false
  num : (m.core.queue q).num.toNat.isPowerOfTwo

theorem Reachable.notifyReady {m : BlockMachine} (hm : Reachable m) (q : Fin maxQueue) :
    NotifyReady m q :=
  ⟨hm.not_reqInProgress, hm.valid, hm.manualRecv q, hm.queueInvariant.num_isPowerOfTwo q⟩

theorem Served.notifyReady {m0 m : BlockMachine} {q : Fin maxQueue} {p n : Nat → Nat}
    {req : Nat → BlockReq} {i : Nat} (hs : Served m0 m q p n req i) (hr : NotifyReady m0 q) :
    NotifyReady m q :=
  ⟨hs.idle, hs.keeps.valid hr.valid, by rw [hs.poll.queue_eq]; exact hr.manualRecv,
    hs.poll.num_isPowerOfTwo hr.num⟩

/-- A `QUEUE_NOTIFY` write of `q` over a batch of well-formed requests returns in a state that
has served them all. -/
theorem queueNotify_served {m : BlockMachine} {q : Fin maxQueue} {p n : Nat → Nat}
    {req : Nat → BlockReq} (hr : NotifyReady m q) (hb : RequestBatch m q p n req)
    (hsz : sectorSize * m.front.bs.nbSectors.toNat < 2 ^ 63) (fuel : Nat) (hfuel : 2 ^ 16 ≤ fuel)
    (hn : ∀ i < posted m q, n i ≤ fuel) :
    ∃ m', step fuel (virtioBlockRecvRequest fuel)
        (.mmioWrite virtioMmioQueueNotify (BitVec.ofNat 32 q) 2) m = .done m' ∧
      Served m m' q p n req (posted m q) := by
  have hpost : posted m q < 2 ^ 16 := BitVec.isLt _
  rw [step_queueNotify_queue]
  dsimp only [queueNotify]
  rw [hr.manualRecv, if_neg Bool.false_ne_true]
  exact notifyLoop_served hb hr.num hr.valid hsz hn fuel 0 m (.start hr.idle) (by omega)

/-! ## An OUT request, then an IN request of the same sector -/

/-- A descriptor table of two chains. Head 0 is an OUT request: the header at `0x1000`, 512
bytes of data at `0x1100`, and the status byte at `0x2000`. Head 3 is an IN request: the
header at `0x1010`, then a writable region of 513 bytes at `0x3000`. -/
def twoReqTable : List U8 :=
  encodeLE 8 0x1000 ++ encodeLE 4 16 ++ encodeLE 2 1 ++ encodeLE 2 1 ++
  encodeLE 8 0x1100 ++ encodeLE 4 512 ++ encodeLE 2 1 ++ encodeLE 2 2 ++
  encodeLE 8 0x2000 ++ encodeLE 4 1 ++ encodeLE 2 2 ++ encodeLE 2 0 ++
  encodeLE 8 0x1010 ++ encodeLE 4 16 ++ encodeLE 2 1 ++ encodeLE 2 4 ++
  encodeLE 8 0x3000 ++ encodeLE 4 513 ++ encodeLE 2 2 ++ encodeLE 2 0

/-- Guest memory with that table at `0x100` and heads 0 and 3 posted in that order
(`avail.idx = 2`): an OUT header for sector 0 at `0x1000` (type 1), an IN header for sector 0
at `0x1010` (all zero), and the data, `0xC3` repeated, at `0x1100`. -/
def twoReqMem : GuestMemory := fun a =>
  if a = 0x202 then 2 else if a = 0x206 then 3 else if a = 0x1000 then 1
  else if 0x1100 ≤ a ∧ a < 0x1300 then 0xC3
  else if 0x100 ≤ a ∧ a < 0x150 then twoReqTable.getD (a - 0x100).toNat 0 else 0

/-- The rings of queue 0 placed apart over that memory and a one-sector read-write file of
`0x5A` bytes. -/
def twoReqMachine : BlockMachine :=
  match run 0 (virtioBlockRecvRequest 0) ringsApartOps (initialMachine 512 (fun _ => 0x5A) .rw twoReqMem) with
  | .done m => m
  | _ => initialMachine 512 (fun _ => 0x5A) .rw twoReqMem

theorem twoReqMachine_reachable : Reachable twoReqMachine :=
  ⟨512, fun _ => 0x5A, .rw, twoReqMem, 0, ringsApartOps, rfl⟩

/-- The requests the two chains carry: write sector 0 with `0xC3`, then read it back. -/
def twoReqs (i : Nat) : BlockReq :=
  if i = 0 then .blkOut 0 1 (List.replicate 512 0xC3) else .blkIn 0 1

/-- The number of readable descriptors of each chain. -/
def twoReqP (i : Nat) : Nat := if i = 0 then 2 else 1

/-- The number of descriptors of each chain. -/
def twoReqN (i : Nat) : Nat := if i = 0 then 3 else 2

theorem loadAt_eq_replicate {mem : GuestMemory} {as : List U64} {c : U8} (h : ∀ a ∈ as, mem a = c) :
    loadAt mem as = List.replicate as.length c :=
  List.eq_replicate_iff.mpr ⟨length_loadAt mem as, fun b hb => by
    obtain ⟨a, ha, rfl⟩ := List.mem_map.mp hb
    exact h a ha⟩

theorem twoReqMachine_queue : twoReqMachine.core.queue 0 = ⟨0, 16, 0, 0x100, 0x200, 0x300, false⟩ := by
  decide

theorem twoReqMachine_mem : twoReqMachine.mem = twoReqMem := rfl

/-- The descriptors of the two chains. -/
theorem twoReq_descs :
    chainDesc twoReqMachine.mem (twoReqMachine.core.queue 0) 0 0 = ⟨0x1000, 16, 1, 1⟩ ∧
    chainDesc twoReqMachine.mem (twoReqMachine.core.queue 0) 0 1 = ⟨0x1100, 512, 1, 2⟩ ∧
    chainDesc twoReqMachine.mem (twoReqMachine.core.queue 0) 0 2 = ⟨0x2000, 1, 2, 0⟩ ∧
    chainDesc twoReqMachine.mem (twoReqMachine.core.queue 0) 3 0 = ⟨0x1010, 16, 1, 4⟩ ∧
    chainDesc twoReqMachine.mem (twoReqMachine.core.queue 0) 3 1 = ⟨0x3000, 513, 2, 0⟩ := by
  decide

/-- The readable and writable addresses of the two chains. -/
theorem twoReq_addrs :
    readAddrs twoReqMachine.mem (twoReqMachine.core.queue 0) 0 2 =
      addrsFrom 0x1000 16 ++ addrsFrom 0x1100 512 ∧
    writeAddrs twoReqMachine.mem (twoReqMachine.core.queue 0) 0 2 3 = addrsFrom 0x2000 1 ∧
    readAddrs twoReqMachine.mem (twoReqMachine.core.queue 0) 3 1 = addrsFrom 0x1010 16 ∧
    writeAddrs twoReqMachine.mem (twoReqMachine.core.queue 0) 3 1 2 = addrsFrom 0x3000 513 := by
  obtain ⟨h00, h01, h02, h30, h31⟩ := twoReq_descs
  simp only [readAddrs, writeAddrs, spanAddrs, Nat.zero_add, show 3 - 2 = 1 from rfl,
    show 2 - 1 = 1 from rfl, h00, h01, h02, h30, h31, List.append_nil]
  exact ⟨rfl, rfl, rfl, rfl⟩

/-- The first chain carries the OUT request. -/
theorem twoReq_chainOut :
    RequestChain twoReqMachine.mem (twoReqMachine.core.queue 0) 0 2 3 (twoReqs 0) := by
  obtain ⟨hr, hw, -, -⟩ := twoReq_addrs
  have hdata : ∀ a ∈ addrsFrom 0x1100 512, twoReqMachine.mem a = 0xC3 := fun a ha => by
    rw [mem_addrsFrom, InRegion] at ha
    rw [twoReqMachine_mem, twoReqMem, if_neg (by bv_omega), if_neg (by bv_omega), if_neg (by bv_omega),
      if_pos (by bv_omega)]
  have htake : (addrsFrom 0x1000 16 ++ addrsFrom 0x1100 512).take 16 = addrsFrom 0x1000 16 :=
    List.take_left' (length_addrsFrom _ _)
  have hdrop : (addrsFrom 0x1000 16 ++ addrsFrom 0x1100 512).drop 16 = addrsFrom 0x1100 512 :=
    List.drop_left' (length_addrsFrom _ _)
  have hlen : (addrsFrom 0x1000 16 ++ addrsFrom 0x1100 512).length = 16 + 512 := by
    rw [List.length_append, length_addrsFrom, length_addrsFrom]
  refine ⟨⟨by decide, by unfold Linked; decide, by decide, by decide, by decide⟩, ?_, ?_, ?_, ?_,
    ?_, ?_, ?_, ?_⟩ <;> simp only [hr, hw, twoReqs, if_pos, hlen, htake, hdrop, length_addrsFrom]
  · rfl
  · decide
  · rfl
  · decide
  · exact nodup_addrsFrom _ (by decide)
  · decide
  · decide
  · rw [loadAt_eq_replicate hdata, length_addrsFrom]; rfl

/-- The second chain carries the IN request. -/
theorem twoReq_chainIn :
    RequestChain twoReqMachine.mem (twoReqMachine.core.queue 0) 3 1 2 (twoReqs 1) := by
  obtain ⟨-, -, hr, hw⟩ := twoReq_addrs
  refine ⟨⟨by decide, by unfold Linked; decide, by decide, by decide, by decide⟩, ?_, ?_, ?_, ?_,
    ?_, ?_, ?_, ?_⟩ <;> simp only [hr, hw, twoReqs, if_neg (show 1 ≠ 0 by decide), length_addrsFrom]
  · rfl
  · decide
  · rfl
  · decide
  · exact nodup_addrsFrom _ (by decide)
  · decide
  · decide
  · decide

/-- The two posted chains carry the requests, apart from the rings and the table: the
entries fill `[0x100, 0x150)`, the readable buffers are at `0x1000`, `0x1010` and `0x1100`, the
writable ones at `0x2000` and `0x3000`. -/
theorem twoReq_requestBatch : RequestBatch twoReqMachine 0 twoReqP twoReqN twoReqs := by
  have hp : posted twoReqMachine 0 = 2 := by decide
  have hh : postedHead twoReqMachine 0 0 = 0 ∧ postedHead twoReqMachine 0 1 = 3 := by decide
  have hq := twoReqMachine_queue
  have hout := twoReq_chainOut
  have hin := twoReq_chainIn
  obtain ⟨hr0, hw0, hr1, hw1⟩ := twoReq_addrs
  have he0 : ∀ k < 3, descEntryAddr (twoReqMachine.core.queue 0)
      (chainIdx twoReqMachine.mem (twoReqMachine.core.queue 0) 0 k) = 0x100 + BitVec.ofNat 64 (16 * k) := by
    decide
  have he1 : ∀ k < 2, descEntryAddr (twoReqMachine.core.queue 0)
      (chainIdx twoReqMachine.mem (twoReqMachine.core.queue 0) 3 k) = 0x130 + BitVec.ofNat 64 (16 * k) := by
    decide
  -- where the bytes the poll stores into and reads from lie
  have hpw : ∀ a, PollWrites twoReqMachine 0 a →
      InRegion 0x302 130 a ∨ InRegion 0x2000 1 a ∨ InRegion 0x3000 513 a := by
    rintro a (hu | ⟨i, hi, hb⟩)
    · rw [InUsedRing, hq] at hu; exact .inl hu
    · rw [hp] at hi
      rcases (show i = 0 ∨ i = 1 by omega) with rfl | rfl
      · rw [hh.1, hout.shape.chainBuf_write_iff, hw0, mem_addrsFrom] at hb; exact .inr (.inl hb)
      · rw [hh.2, hin.shape.chainBuf_write_iff, hw1, mem_addrsFrom] at hb; exact .inr (.inr hb)
  have hpr : ∀ a, PollReads twoReqMachine 0 a → InRegion 0x200 36 a ∨ InRegion 0x100 0x50 a := by
    rintro a (ha | ⟨i, hi, he⟩)
    · rw [InAvailRing, hq] at ha; exact .inl ha
    · rw [hp] at hi
      refine .inr ?_
      rcases (show i = 0 ∨ i = 1 by omega) with rfl | rfl
      · obtain ⟨k, hk, ha⟩ := (hout.shape.chainEntry_iff a).mp (hh.1 ▸ he)
        rw [he0 k hk] at ha
        simp only [InRegion] at ha ⊢
        bv_omega
      · obtain ⟨k, hk, ha⟩ := (hin.shape.chainEntry_iff a).mp (hh.2 ▸ he)
        rw [he1 k hk] at ha
        simp only [InRegion] at ha ⊢
        bv_omega
  have hreads : ∀ i < posted twoReqMachine 0, ∀ a ∈ postedReads twoReqMachine 0 twoReqP i,
      InRegion 0x1000 16 a ∨ InRegion 0x1100 512 a ∨ InRegion 0x1010 16 a := by
    intro i hi a ha
    rw [hp] at hi
    rcases (show i = 0 ∨ i = 1 by omega) with rfl | rfl
    · rw [postedReads, hh.1, show twoReqP 0 = 2 from rfl, hr0, List.mem_append, mem_addrsFrom,
        mem_addrsFrom] at ha
      exact ha.imp_right .inl
    · rw [postedReads, hh.2, show twoReqP 1 = 1 from rfl, hr1, mem_addrsFrom] at ha
      exact .inr (.inr ha)
  have hwrites : ∀ i < posted twoReqMachine 0, ∀ a ∈ postedWrites twoReqMachine 0 twoReqP twoReqN i,
      (i = 0 ∧ InRegion 0x2000 1 a) ∨ (i = 1 ∧ InRegion 0x3000 513 a) := by
    intro i hi a ha
    rw [hp] at hi
    rcases (show i = 0 ∨ i = 1 by omega) with rfl | rfl
    · rw [postedWrites, hh.1, show twoReqP 0 = 2 from rfl, show twoReqN 0 = 3 from rfl, hw0,
        mem_addrsFrom] at ha
      exact .inl ⟨rfl, ha⟩
    · rw [postedWrites, hh.2, show twoReqP 1 = 1 from rfl, show twoReqN 1 = 2 from rfl, hw1,
        mem_addrsFrom] at ha
      exact .inr ⟨rfl, ha⟩
  refine ⟨by rw [hp, hq]; decide, fun i hi => ?_, fun i hi => ?_, fun a hwa hra => ?_,
    fun i hi a ha hwa => ?_, fun i hi j hj a ha hb => ?_, fun i hi a ha hu => ?_⟩
  · rw [hp] at hi
    rcases (show i = 0 ∨ i = 1 by omega) with rfl | rfl
    · rw [hh.1]; exact hout
    · rw [hh.2]; exact hin
  · rw [hp] at hi
    rcases (show i = 0 ∨ i = 1 by omega) with rfl | rfl <;> decide
  · rcases hpw a hwa with h1 | h1 | h1 <;> rcases hpr a hra with h2 | h2 <;>
      simp only [InRegion] at h1 h2 <;> bv_omega
  · rcases hpw a hwa with h1 | h1 | h1 <;> rcases hreads i hi a ha with h2 | h2 | h2 <;>
      simp only [InRegion] at h1 h2 <;> bv_omega
  · rcases hwrites i hi a ha with ⟨rfl, h1⟩ | ⟨rfl, h1⟩ <;>
      rcases hwrites j (by omega) a hb with ⟨rfl, h2⟩ | ⟨rfl, h2⟩ <;>
      first | omega | (simp only [InRegion] at h1 h2; bv_omega)
  · rw [InUsedRing, hq] at hu
    rcases hwrites i hi a ha with ⟨-, h1⟩ | ⟨-, h1⟩ <;> simp only [InRegion] at h1 hu <;> bv_omega

/-- From any reachable state, a `QUEUE_NOTIFY` write of queue `q` over chains that carry a
batch of well-formed requests serves them in ring order, once the fuel covers the `2^16`
positions of the poll and every chain: the backend's disk becomes the array after all the
requests, the writable buffers of each request hold its reply to the array as the requests
before it left it, the used ring holds `(head, usedLen)` for each request at the used index
it found plus its position, the used index has gone up by the number of requests, and
`last_avail_idx` has caught up with `avail.idx`. -/
theorem queueNotify_serves {fuel : Nat} {m : BlockMachine} (hm : Reachable m) {q : Fin maxQueue}
    {p n : Nat → Nat} {req : Nat → BlockReq} (hb : RequestBatch m q p n req)
    (hsz : sectorSize * m.front.bs.nbSectors.toNat < 2 ^ 63) (hfuel : 2 ^ 16 ≤ fuel)
    (hn : ∀ i < posted m q, n i ≤ fuel) :
    ∃ m', step fuel (virtioBlockRecvRequest fuel)
        (.mmioWrite virtioMmioQueueNotify (BitVec.ofNat 32 q) 2) m = .done m' ∧
      m'.front.bs.disk = diskAfter m.front.bs.mode req m.front.bs.disk (posted m q) ∧
      (∀ i < posted m q, loadAt m'.mem (postedWrites m q p n i) =
        (req i).reply m.front.bs.mode (diskAfter m.front.bs.mode req m.front.bs.disk i)) ∧
      (∀ i < posted m q, UsedEntry m'.mem (m.core.queue q)
        (m.mem.load16 ((m.core.queue q).usedAddr + 2) + BitVec.ofNat 16 i) (postedHead m q i)
        (req i).usedLen) ∧
      m'.mem.load16 ((m.core.queue q).usedAddr + 2) =
        m.mem.load16 ((m.core.queue q).usedAddr + 2) + BitVec.ofNat 16 (posted m q) ∧
      (m'.core.queue q).lastAvailIdx = m.mem.load16 ((m.core.queue q).availAddr + 2) := by
  obtain ⟨m', h, hs⟩ := queueNotify_served (hm.notifyReady q) hb hsz fuel hfuel hn
  exact ⟨m', h, hs.disk, hs.replies, hs.entries, hs.usedIdx, hs.poll.lastAvail_of_posted⟩


/-- The driver writes sector 0 and then reads it back: the read returns the written data. -/
theorem queueNotify_serves_outThenIn :
    Reachable twoReqMachine ∧ RequestBatch twoReqMachine 0 twoReqP twoReqN twoReqs ∧
      sectorSize * twoReqMachine.front.bs.nbSectors.toNat < 2 ^ 63 ∧
      (∃ m', step (2 ^ 16) (virtioBlockRecvRequest (2 ^ 16))
          (.mmioWrite virtioMmioQueueNotify (BitVec.ofNat 32 (0 : Fin maxQueue)) 2) twoReqMachine = .done m' ∧
        m'.front.bs.disk = diskAfter twoReqMachine.front.bs.mode twoReqs twoReqMachine.front.bs.disk
          (posted twoReqMachine 0) ∧
        (∀ i < posted twoReqMachine 0, loadAt m'.mem (postedWrites twoReqMachine 0 twoReqP twoReqN i) =
          (twoReqs i).reply twoReqMachine.front.bs.mode
            (diskAfter twoReqMachine.front.bs.mode twoReqs twoReqMachine.front.bs.disk i)) ∧
        (∀ i < posted twoReqMachine 0, UsedEntry m'.mem (twoReqMachine.core.queue 0)
          (twoReqMachine.mem.load16 ((twoReqMachine.core.queue 0).usedAddr + 2) + BitVec.ofNat 16 i)
          (postedHead twoReqMachine 0 i) (twoReqs i).usedLen) ∧
        m'.mem.load16 ((twoReqMachine.core.queue 0).usedAddr + 2) =
          twoReqMachine.mem.load16 ((twoReqMachine.core.queue 0).usedAddr + 2) +
            BitVec.ofNat 16 (posted twoReqMachine 0) ∧
        (m'.core.queue 0).lastAvailIdx =
          twoReqMachine.mem.load16 ((twoReqMachine.core.queue 0).availAddr + 2)) ∧
      (twoReqs 1).reply twoReqMachine.front.bs.mode
          (diskAfter twoReqMachine.front.bs.mode twoReqs twoReqMachine.front.bs.disk 1) =
        List.replicate 512 0xC3 ++ [virtioBlkSOk] := by
  have hmode : twoReqMachine.front.bs.mode = .rw := rfl
  refine ⟨twoReqMachine_reachable, twoReq_requestBatch, by decide,
    queueNotify_serves twoReqMachine_reachable twoReq_requestBatch (by decide) (Nat.le_refl _)
      fun i _ => by unfold twoReqN; split <;> decide, ?_⟩
  rw [hmode]
  simp only [diskAfter, twoReqs, if_pos, if_neg (show 1 ≠ 0 by decide), BlockReq.apply, BlockReq.reply,
    reduceCtorEq, if_false]
  have hrw := Disk.read_write twoReqMachine.front.bs.disk 0 (List.replicate 512 0xC3)
  rw [List.length_replicate] at hrw
  rw [show sectorSize * 0 = 0 from rfl, show sectorSize * 1 = 512 from rfl, hrw]

/-! ## A writable region of `2^31` bytes or more -/

/-- A descriptor table for one IN request: the header at `0x1000`, then a writable region of
`2^32 + 1` bytes split over three descriptors, each shorter than `2^31` bytes, at
`0x100000000`, `0x200000000` and `0x300000000`. -/
def wrapTable : List U8 :=
  encodeLE 8 0x1000 ++ encodeLE 4 16 ++ encodeLE 2 1 ++ encodeLE 2 1 ++
  encodeLE 8 0x100000000 ++ encodeLE 4 0x7fffffff ++ encodeLE 2 3 ++ encodeLE 2 2 ++
  encodeLE 8 0x200000000 ++ encodeLE 4 0x7fffffff ++ encodeLE 2 3 ++ encodeLE 2 3 ++
  encodeLE 8 0x300000000 ++ encodeLE 4 3 ++ encodeLE 2 2 ++ encodeLE 2 0

/-- Guest memory with that table at `0x100` and head 0 posted (`avail.idx = 1`); the zero
header asks for the sectors from sector 0. -/
def wrapMem : GuestMemory := fun a =>
  if a = 0x202 then 1 else if 0x100 ≤ a ∧ a < 0x140 then wrapTable.getD (a - 0x100).toNat 0 else 0

set_option maxRecDepth 8000 in
/-- Over a file of `2^32` bytes `0xAA`, a disk of `2^23` sectors, that chain is an IN request
for all `2^23` sectors with a writable region of `512 * 2^23 + 1` bytes. But
`get_desc_rw_size` adds the lengths in `int` and gets 1: the device reads no sector, stores
the status byte 0 over the first byte of the region, where the disk's first byte `0xAA`
belongs, and publishes the entry `(0, 1)`. -/
theorem wrapped_writeSize_drops_sectors :
    (initialMachine (2 ^ 32) (fun _ => 0xAA) .rw wrapMem).front.bs.nbSectors = 2 ^ 23 ∧
    (initialMachine (2 ^ 32) (fun _ => 0xAA) .rw wrapMem).front.bs.disk 0 = 0xAA ∧
    (match run 16 (virtioBlockRecvRequest 16) (ringsApartOps ++ [.mmioWrite virtioMmioQueueNotify 0 2])
        (initialMachine (2 ^ 32) (fun _ => 0xAA) .rw wrapMem) with
      | .done m => some (m.mem 0x100000000, m.mem.load16 0x302, m.mem.load32 0x304, m.mem.load32 0x308)
      | _ => none) = some (0, 1, 0, 1) :=
  ⟨rfl, rfl, rfl⟩

/-! ## Rounds of notifies -/

/-- A batch depends on a state only through its memory, the queue's registers and the disk
size. -/
theorem RequestBatch.congr {m m' : BlockMachine} {q : Fin maxQueue} {p n : Nat → Nat}
    {req : Nat → BlockReq} (hb : RequestBatch m q p n req) (hmem : m'.mem = m.mem)
    (hq : m'.core.queue q = m.core.queue q) (hnb : m'.front.bs.nbSectors = m.front.bs.nbSectors) :
    RequestBatch m' q p n req := by
  have hpost : posted m' q = posted m q := by simp only [posted, hmem, hq]
  have hhead : ∀ i, postedHead m' q i = postedHead m q i := fun i => by simp only [postedHead, hmem, hq]
  have hw : ∀ a, PollWrites m' q a ↔ PollWrites m q a := fun a => by
    simp only [PollWrites, hpost, hhead, hmem, hq]
  have hr : ∀ a, PollReads m' q a ↔ PollReads m q a := fun a => by
    simp only [PollReads, hpost, hhead, hmem, hq]
  have hreads : ∀ i, postedReads m' q p i = postedReads m q p i := fun i => by
    simp only [postedReads, hhead, hmem, hq]
  have hwrites : ∀ i, postedWrites m' q p n i = postedWrites m q p n i := fun i => by
    simp only [postedWrites, hhead, hmem, hq]
  refine ⟨by rw [hpost, hq]; exact hb.fits, fun i hi => ?_, fun i hi => ?_, fun a ha hr' => ?_,
    fun i hi a ha hw' => ?_, fun i hi j hj a ha => ?_, fun i hi a ha => ?_⟩ <;> rw [hpost] at *
  · rw [hmem, hq, hhead]; exact hb.chain i hi
  · rw [hnb]; exact hb.range i hi
  · exact hb.apart a ((hw a).mp ha) ((hr a).mp hr')
  · exact hb.readApart i hi a (hreads i ▸ ha) ((hw a).mp hw')
  · rw [hwrites] at *; exact hb.writeApart i hi j hj a ha
  · rw [hq]; exact hb.usedApart i hi a (hwrites i ▸ ha)

/-- The memory `mem` posts on `q`, whose registers are `qs`, a batch of well-formed requests
for a disk of `nb` sectors: every state with that memory, those registers and that disk size
sees the batch. -/
def PostsBatch (q : Fin maxQueue) (qs : QueueState) (nb : Int) (mem : GuestMemory) (p n : Nat → Nat)
    (req : Nat → BlockReq) : Prop :=
  ∀ m : BlockMachine, m.mem = mem → m.core.queue q = qs → m.front.bs.nbSectors = nb →
    RequestBatch m q p n req

theorem RequestBatch.postsBatch {m : BlockMachine} {q : Fin maxQueue} {p n : Nat → Nat}
    {req : Nat → BlockReq} (hb : RequestBatch m q p n req) :
    PostsBatch q (m.core.queue q) m.front.bs.nbSectors m.mem p n req :=
  fun _ hmem hq hnb => hb.congr hmem hq hnb

/-- One round of the driver: it writes guest memory `mem`, in whose available ring it has
posted chains that carry the requests `req` (the `i`-th on a chain of `n i` descriptors, the
first `p i` readable), and then notifies the queue. -/
structure Round where
  mem : GuestMemory
  p : Nat → Nat
  n : Nat → Nat
  req : Nat → BlockReq

/-- The operations of the rounds on queue `q`, one after the other. -/
def roundsOps (q : Fin maxQueue) : List Round → List Op
  | [] => []
  | r :: rs => .guestWrite r.mem :: .mmioWrite virtioMmioQueueNotify (BitVec.ofNat 32 q) 2 :: roundsOps q rs

/-- The number of heads a round over `mem` finds posted on a queue with registers `qs`. -/
def roundPosted (qs : QueueState) (mem : GuestMemory) : Nat :=
  (mem.load16 (qs.availAddr + 2) - qs.lastAvailIdx).toNat

/-- The queue's registers after a round over `mem`: `last_avail_idx` has caught up with
`avail.idx`. -/
def afterRound (qs : QueueState) (mem : GuestMemory) : QueueState :=
  { qs with lastAvailIdx := mem.load16 (qs.availAddr + 2) }

/-- Each round posts a well-formed batch whose chains fit the fuel, counted from where the
round before left `last_avail_idx`. -/
def RoundsPost (fuel : Nat) (q : Fin maxQueue) (nb : Int) : QueueState → List Round → Prop
  | _, [] => True
  | qs, r :: rs => PostsBatch q qs nb r.mem r.p r.n r.req ∧ (∀ i < roundPosted qs r.mem, r.n i ≤ fuel) ∧
    RoundsPost fuel q nb (afterRound qs r.mem) rs

/-- The disk after the rounds, each applying the requests it posted, in ring order. -/
def roundsDisk (mode : BlockDeviceMode) : QueueState → List Round → Disk → Disk
  | _, [], D => D
  | qs, r :: rs, D => roundsDisk mode (afterRound qs r.mem) rs (diskAfter mode r.req D (roundPosted qs r.mem))

/-- Over a run of rounds, each a write of guest memory that posts a batch of well-formed
requests followed by a `QUEUE_NOTIFY` write, the device returns, its disk is the array after
all the rounds' requests in order, and `last_avail_idx` has caught up with each round in turn:
the refinement of one notify (`queueNotify_served`), composed over the run. -/
theorem run_rounds_serve {fuel : Nat} (hfuel : 2 ^ 16 ≤ fuel) {q : Fin maxQueue} :
    ∀ (rs : List Round) (m : BlockMachine), NotifyReady m q →
      sectorSize * m.front.bs.nbSectors.toNat < 2 ^ 63 →
      RoundsPost fuel q m.front.bs.nbSectors (m.core.queue q) rs →
      ∃ m', run fuel (virtioBlockRecvRequest fuel) (roundsOps q rs) m = .done m' ∧
        m'.front.bs.disk = roundsDisk m.front.bs.mode (m.core.queue q) rs m.front.bs.disk ∧
        m'.core.queue q = rs.foldl (fun qs r => afterRound qs r.mem) (m.core.queue q)
  | [], m, _, _, _ => ⟨m, rfl, rfl, rfl⟩
  | r :: rs, m, hr, hsz, ⟨hb, hn, hrest⟩ => by
    -- the round's write, then its notify, served as `queueNotify_served` says
    have hr' : NotifyReady { m with mem := r.mem } q := ⟨hr.idle, hr.valid, hr.manualRecv, hr.num⟩
    obtain ⟨m1, h1, hs⟩ := queueNotify_served hr' (hb _ rfl rfl rfl) hsz fuel hfuel hn
    have hq1 : m1.core.queue q = afterRound (m.core.queue q) r.mem := by
      rw [afterRound, ← hs.poll.lastAvail_of_posted, hs.poll.queue_eq]
    have hnb : m1.front.bs.nbSectors = m.front.bs.nbSectors := hs.keeps.2.1
    obtain ⟨m', h', hd, hq'⟩ := run_rounds_serve hfuel rs m1 (hs.notifyReady hr')
      (by rw [hnb]; exact hsz) (by rw [hq1, hnb]; exact hrest)
    refine ⟨m', ?_, ?_, by rw [hq', hq1]; rfl⟩
    · show (Outcome.done { m with mem := r.mem } >>= fun m => step fuel _ _ m >>= run fuel _ (roundsOps q rs)) = _
      rw [Outcome.done_bind, h1, Outcome.done_bind, h']
    · rw [hd, hq1, hs.disk, hs.keeps.1]
      rfl

end SpikeDevices.Block
