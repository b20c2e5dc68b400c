import SpikeDevices.Block.Refinement

/-!
# What a `QUEUE_NOTIFY` does to guest memory, and whether it returns

The block front end stores into guest memory only through `memcpy_to_queue` and
`virtio_consume_desc`, so a handled head stores only into the device-writable buffers of its
chain and into the used ring (`virtioBlockRecvRequest_storesInChain`). It returns once the
fuel covers the head's chain (`virtioBlockRecvRequest_returnsWithChain`): the file backend
has no loop that the guest controls. With `Virtio/Poll.lean` this gives the frame of a whole
`queue_notify` and its termination on chains that end. A chain whose NEXT link leads back to
itself makes the walk of `get_desc_rw_size` run forever, and nothing in the source bounds it.
-/

namespace SpikeDevices.Block

open Virtio GuestMemory VirtioDevice

/-! ## The backend has no unbounded loop -/

theorem sectorBytes_ne_diverge (n : Int) : sectorBytes n ≠ .diverge := by
  unfold sectorBytes; split <;> exact fun h => nomatch h

theorem tableEntry_ne_diverge (bf : BlockDeviceFile) (sectorNum : U64) :
    bf.tableEntry sectorNum ≠ .diverge := by
  unfold BlockDeviceFile.tableEntry; split <;> exact fun h => nomatch h

theorem fread_ne_diverge (f : FileStream) (buf : HostBuffer) (cursor : Int) (count : Nat) :
    f.fread buf cursor count ≠ .diverge :=
  Outcome.bind_ne_diverge (HostBuffer.writeList_ne_diverge _ _ _) fun _ _ h => nomatch h

theorem snapshotReadLoop_ne_diverge : ∀ n bf sectorNum buf cursor,
    snapshotReadLoop n bf sectorNum buf cursor ≠ .diverge
  | 0, _, _, _, _ => fun h => nomatch h
  | n + 1, bf, sectorNum, buf, cursor => by
    rw [snapshotReadLoop]
    refine Outcome.bind_ne_diverge (tableEntry_ne_diverge _ _) fun entry _ => ?_
    cases entry with
    | none =>
      exact Outcome.bind_ne_diverge (fread_ne_diverge _ _ _ _) fun _ _ =>
        snapshotReadLoop_ne_diverge n _ _ _ _
    | some copy =>
      exact Outcome.bind_ne_diverge (HostBuffer.writeList_ne_diverge _ _ _) fun _ _ =>
        snapshotReadLoop_ne_diverge n _ _ _ _

theorem snapshotWriteLoop_ne_diverge : ∀ n bf sectorNum buf cursor,
    snapshotWriteLoop n bf sectorNum buf cursor ≠ .diverge
  | 0, _, _, _, _ => fun h => nomatch h
  | n + 1, bf, sectorNum, buf, cursor => by
    rw [snapshotWriteLoop]
    exact Outcome.bind_ne_diverge (tableEntry_ne_diverge _ _)
      fun _ _ => Outcome.bind_ne_diverge (HostBuffer.readList_ne_diverge _ _ _)
        fun _ _ => snapshotWriteLoop_ne_diverge n _ _ _ _

theorem bfReadAsync_ne_diverge (bf : BlockDeviceFile) (sectorNum : U64) (buf : HostBuffer) (n : Int) :
    bfReadAsync bf sectorNum buf n ≠ .diverge := by
  unfold bfReadAsync
  split
  · exact Outcome.bind_ne_diverge (snapshotReadLoop_ne_diverge _ _ _ _ _) fun _ _ => fun h => nomatch h
  · exact Outcome.bind_ne_diverge (sectorBytes_ne_diverge _) fun _ _ =>
      Outcome.bind_ne_diverge (fread_ne_diverge _ _ _ _) fun _ _ h => nomatch h

theorem bfWriteAsync_ne_diverge (bf : BlockDeviceFile) (sectorNum : U64) (buf : HostBuffer) (n : Int) :
    bfWriteAsync bf sectorNum buf n ≠ .diverge := by
  unfold bfWriteAsync
  split
  · exact fun h => nomatch h
  · exact Outcome.bind_ne_diverge (sectorBytes_ne_diverge _) fun _ _ =>
      Outcome.bind_ne_diverge (Outcome.bind_ne_diverge (HostBuffer.readList_ne_diverge _ _ _)
        fun _ _ => fun h => nomatch h) fun _ _ => fun h => nomatch h
  · split
    · exact fun h => nomatch h
    · exact Outcome.bind_ne_diverge (snapshotWriteLoop_ne_diverge _ _ _ _ _) fun _ _ => fun h => nomatch h

/-! ## A handled head stores into its chain and the used ring -/

section Handler

variable (fuel : Nat)

/-- `memcpy_to_queue` at offset 0 stores only into the device-writable buffers of its chain,
when those do not overlap the chain's entries. -/
theorem memcpyToQueue_frame {mem mem' : GuestMemory} {qs : QueueState} {d : U16} {buf buf' : HostBuffer}
    {count r : Int} (hsep : ∀ a, ChainBuf mem qs d vringDescFWrite a → ¬ ChainEntry mem qs d a)
    (h : memcpyToQueue fuel mem qs d 0 buf count = .done (r, mem', buf')) (a : U64)
    (ha : ¬ ChainBuf mem qs d vringDescFWrite a) : mem' a = mem a :=
  memcpyToFromQueue_frame (fun _ => hsep) (Int.le_refl 0) (by decide) h a fun _ => ha

/-- Ending a request stores only into the device-writable buffers of its chain and into the
used ring of its queue. -/
theorem virtioBlockReqEnd_frame {m m' : BlockMachine} {ret : Int}
    (h : virtioBlockReqEnd fuel m ret = .done m')
    (hnum : (m.core.queue m.front.req.queueIdx).num.toNat.isPowerOfTwo)
    (hsep : ∀ a, ChainBuf m.mem (m.core.queue m.front.req.queueIdx) m.front.req.descIdx
      vringDescFWrite a → ¬ ChainEntry m.mem (m.core.queue m.front.req.queueIdx) m.front.req.descIdx a)
    (a : U64)
    (hb : ¬ ChainBuf m.mem (m.core.queue m.front.req.queueIdx) m.front.req.descIdx vringDescFWrite a)
    (hu : ¬ InUsedRing (m.core.queue m.front.req.queueIdx) a) : m'.mem a = m.mem a := by
  rcases virtioBlockReqEnd_cases fuel h with ⟨-, buf, x, memw, b, -, hcopy, rfl⟩ |
    ⟨-, x, memw, b, hcopy, rfl⟩ <;>
  · rw [virtioConsumeDesc_frame { m with mem := memw } _ _ _ hnum hu]
    exact memcpyToQueue_frame fuel hsep hcopy a hb

theorem virtioBlockRecvRequest_storesInChain : StoresInChain (virtioBlockRecvRequest fuel) := by
  intro m q d rs ws r m' h hnum hsep a hb hu
  rcases virtioBlockRecvRequest_cases fuel h with ⟨-, -, rfl⟩ | ⟨-, -, _, _, _, -, ⟨-, rfl⟩ |
    ⟨_, -, -, ⟨-, _, _, _, -, -, hend⟩ | ⟨-, -, _, _, _, _, _, -, -, -, hend⟩ | ⟨-, -, rfl⟩⟩⟩
  · rfl
  · rfl
  · exact virtioBlockReqEnd_frame fuel hend hnum hsep a hb hu
  · exact virtioBlockReqEnd_frame fuel hend hnum hsep a hb hu
  · rfl

/-! ## A handled head returns once the fuel covers its chain -/

/-- Ending a request returns once the fuel covers the request's chain. -/
theorem virtioBlockReqEnd_ne_diverge {m : BlockMachine} {ret : Int} {n : Nat}
    (hends : EndsWithin m.mem (m.core.queue m.front.req.queueIdx) m.front.req.descIdx n)
    (hfuel : n ≤ fuel)
    (hsep : ∀ a, ChainBuf m.mem (m.core.queue m.front.req.queueIdx) m.front.req.descIdx
      vringDescFWrite a → ¬ ChainEntry m.mem (m.core.queue m.front.req.queueIdx) m.front.req.descIdx a) :
    virtioBlockReqEnd fuel m ret ≠ .diverge := by
  have hcopy : ∀ buf count, memcpyToQueue fuel m.mem (m.core.queue m.front.req.queueIdx)
      m.front.req.descIdx 0 buf count ≠ .diverge := fun _ _ =>
    memcpyToFromQueue_ne_diverge (fun _ => hsep) (Int.le_refl 0) (by decide) hends hfuel
  dsimp only [virtioBlockReqEnd]
  split
  · exact Outcome.bind_ne_diverge (HostBuffer.write_ne_diverge _ _ _) fun _ _ =>
      Outcome.bind_ne_diverge (hcopy _ _) fun _ _ h => nomatch h
  split
  · exact Outcome.bind_ne_diverge (hcopy _ _) fun _ _ h => nomatch h
  · exact fun h => nomatch h

theorem virtioBlockRecvRequest_returnsWithChain :
    ReturnsWithChain fuel (virtioBlockRecvRequest fuel) := by
  intro m q d rs ws n _ hends hfuel hsep
  have hfrom : ∀ buf offset count, 0 ≤ offset → offset < 2 ^ 31 →
      memcpyFromQueue fuel m.mem buf (m.core.queue q) d offset count ≠ .diverge :=
    fun _ _ _ h0 h1 => memcpyToFromQueue_ne_diverge (fun h => nomatch h) h0 h1 hends hfuel
  dsimp only [virtioBlockRecvRequest]
  split
  · exact fun h => nomatch h
  refine Outcome.bind_ne_diverge (hfrom _ 0 16 (Int.le_refl 0) (by decide)) fun ⟨r0, _, hbuf⟩ _ => ?_
  dsimp only
  split
  · exact fun h => nomatch h
  split
  · refine Outcome.bind_ne_diverge (cSub_ne_diverge _ _) fun _ _ =>
      Outcome.bind_ne_diverge (bfReadAsync_ne_diverge _ _ _ _) fun ⟨ret, _, _⟩ _ => ?_
    dsimp only
    split
    · exact fun h => nomatch h
    · exact Outcome.bind_ne_diverge (virtioBlockReqEnd_ne_diverge fuel hends hfuel hsep)
        fun _ _ h => nomatch h
  split
  · refine Outcome.bind_ne_diverge (by unfold Outcome.require; split <;> exact fun h => nomatch h)
      fun _ _ => Outcome.bind_ne_diverge (hfrom _ 16 _ (by decide) (by decide)) fun _ _ =>
        Outcome.bind_ne_diverge (bfWriteAsync_ne_diverge _ _ _ _) fun ⟨ret, _⟩ _ => ?_
    dsimp only
    split
    · exact fun h => nomatch h
    · exact Outcome.bind_ne_diverge (virtioBlockReqEnd_ne_diverge fuel hends hfuel hsep)
        fun _ _ h => nomatch h
  · exact fun h => nomatch h

end Handler

/-! ## What a `QUEUE_NOTIFY` stores -/

section Batch

variable {m : BlockMachine} {q : Fin maxQueue} {p n : Nat → Nat} {req : Nat → BlockReq}
  (hb : RequestBatch m q p n req)
include hb

/-- Over a batch of well-formed requests the bytes a poll may store into are apart from the
available ring, the posted entries and the readable buffers of the posted chains. -/
theorem RequestBatch.frameSep (a : U64) (hw : PollWrites m q a) :
    ¬ PollReads m q a ∧ ¬ ∃ i < posted m q, ChainBuf m.mem (m.core.queue q) (postedHead m q i) 0 a :=
  ⟨hb.apart a hw, fun ⟨i, hi, hr⟩ =>
    hb.readApart i hi a (((hb.chain i hi).shape.chainBuf_read_iff a).mp hr) hw⟩

/-- Every posted chain of a batch ends within its descriptors. -/
theorem RequestBatch.endsWithin {N : Nat} (hN : ∀ i < posted m q, n i ≤ N) :
    ∀ i < posted m q, EndsWithin m.mem (m.core.queue q) (postedHead m q i) N := fun i hi =>
  have hs := (hb.chain i hi).shape
  ⟨n i - 1, by have := hs.lt; have := hN i hi; omega, hs.linked, hs.last⟩

end Batch

/-- In a reachable state of the block device, over a guest memory where the used ring and the
device-writable buffers of the posted chains are apart from the available ring, from the
entries of the posted descriptors and from the device-readable buffers of the posted chains,
a `QUEUE_NOTIFY` write of queue `q` stores only into that used ring and those writable
buffers: every other byte keeps its value, so no byte of the available ring, of a posted
descriptor or of a readable buffer is written. -/
theorem queueNotify_write_frame {m m' : BlockMachine} (hm : Reachable m) {q : Fin maxQueue}
    {fuel : Nat}
    (hsep : ∀ a, PollWrites m q a → ¬ PollReads m q a ∧
      ¬ ∃ i < posted m q, ChainBuf m.mem (m.core.queue q) (postedHead m q i) 0 a)
    (h : step fuel (virtioBlockRecvRequest fuel) (.mmioWrite virtioMmioQueueNotify (BitVec.ofNat 32 q) 2) m =
      .done m') :
    (∀ a, ¬ PollWrites m q a → m'.mem a = m.mem a) ∧
      ∀ a, (PollReads m q a ∨ ∃ i < posted m q, ChainBuf m.mem (m.core.queue q) (postedHead m q i) 0 a) →
        m'.mem a = m.mem a := by
  rw [step_queueNotify_queue] at h
  have hframe := queueNotify_pollWrites (hm.queueInvariant.num_isPowerOfTwo q)
    (fun a hw => (hsep a hw).1) (virtioBlockRecvRequest_raisesUsedOnly fuel).keepsQueues
    (virtioBlockRecvRequest_storesInChain fuel) h
  refine ⟨hframe, fun a ha => hframe a fun hw => ?_⟩
  rcases ha with hr | hb
  · exact (hsep a hw).1 hr
  · exact (hsep a hw).2 hb

/-- A notify of the OUT request and then the IN request of sector 0 stores only into the used
ring and the two requests' writable buffers. -/
theorem queueNotify_write_frame_outThenIn :
    ∃ m', step (2 ^ 16) (virtioBlockRecvRequest (2 ^ 16))
        (.mmioWrite virtioMmioQueueNotify (BitVec.ofNat 32 (0 : Fin maxQueue)) 2) twoReqMachine = .done m' ∧
      (∀ a, ¬ PollWrites twoReqMachine 0 a → m'.mem a = twoReqMachine.mem a) ∧
      ∀ a, (PollReads twoReqMachine 0 a ∨ ∃ i < posted twoReqMachine 0, ChainBuf twoReqMachine.mem
          (twoReqMachine.core.queue 0) (postedHead twoReqMachine 0 i) 0 a) →
        m'.mem a = twoReqMachine.mem a := by
  obtain ⟨m', h, -⟩ := queueNotify_served (twoReqMachine_reachable.notifyReady 0) twoReq_requestBatch
    (by decide) (2 ^ 16) (Nat.le_refl _) fun i _ => by unfold twoReqN; split <;> decide
  exact ⟨m', h, queueNotify_write_frame twoReqMachine_reachable twoReq_requestBatch.frameSep h⟩

/-! ## When a `QUEUE_NOTIFY` returns -/

/-- Guest memory where the rings a reset leaves at address 0 announce one head, descriptor 0,
which is device-readable, has NEXT set and `next = 0`: a chain that is its own successor
(`avail.idx` at address 2 is 1, and the flags of descriptor 0 are at address 12). -/
def selfLoopMem : GuestMemory := fun a => if a = 2 ∨ a = 12 then 1 else 0

/-- The freshly initialised block device over that memory. -/
def selfLoopMachine : BlockMachine := initialMachine 0 (fun _ => 0) .ro selfLoopMem

/-- This reachable state's `QUEUE_NOTIFY` of queue 0 never returns, whatever the fuel:
`get_desc_rw_size` follows the self-link forever. -/
theorem selfLoop_notify_diverges :
    Reachable selfLoopMachine ∧ ∀ fuel, step fuel (virtioBlockRecvRequest fuel)
      (.mmioWrite virtioMmioQueueNotify 0 2) selfLoopMachine = .diverge := by
  refine ⟨⟨0, fun _ => 0, .ro, selfLoopMem, 0, [], rfl⟩, fun fuel => ?_⟩
  have hloop : ∀ fuel rs, readSizeLoop selfLoopMem (selfLoopMachine.core.queue 0)
      fuel (getDesc selfLoopMem (selfLoopMachine.core.queue 0) 0) rs = .diverge :=
    readSizeLoop_selfLoop (by decide) (by decide) (by decide)
  rw [step_queueNotify, dif_pos (by decide)]
  cases fuel with
  | zero => rfl
  | succ k =>
    simp only [queueNotify]
    rw [if_neg (by decide), notifyLoop_succ_eq, if_neg (by decide)]
    exact congrArg (· >>= _) (hloop (k + 1) 0)

/-- In a reachable state of the block device, over a guest memory where the used ring and the
device-writable buffers of the posted chains are apart from the available ring and from the
entries of the posted descriptors, and where every posted chain ends within its first `N`
descriptors, a `QUEUE_NOTIFY` write of queue `q` ends, returning or faulting on undefined
behaviour, once the fuel covers the `2^16` positions of the ring and the `N` descriptors. -/
theorem queueNotify_write_ends {m : BlockMachine} (hm : Reachable m) {q : Fin maxQueue}
    {N fuel : Nat} (hsep : ∀ a, PollWrites m q a → ¬ PollReads m q a)
    (hends : ∀ i < posted m q, EndsWithin m.mem (m.core.queue q) (postedHead m q i) N)
    (hN : N ≤ fuel) (hfuel : 2 ^ 16 ≤ fuel) :
    step fuel (virtioBlockRecvRequest fuel) (.mmioWrite virtioMmioQueueNotify (BitVec.ofNat 32 q) 2) m ≠
      .diverge := by
  rw [step_queueNotify_queue]
  exact queueNotify_ne_diverge (hm.queueInvariant.num_isPowerOfTwo q) hsep
    (virtioBlockRecvRequest_raisesUsedOnly fuel).keepsQueues (virtioBlockRecvRequest_storesInChain fuel)
    (virtioBlockRecvRequest_returnsWithChain fuel) hends hN hfuel

/-- The notify of the OUT request and then the IN request of sector 0, chains of three and two
descriptors, returns. -/
theorem queueNotify_write_ends_outThenIn :
    step (2 ^ 16) (virtioBlockRecvRequest (2 ^ 16))
      (.mmioWrite virtioMmioQueueNotify (BitVec.ofNat 32 (0 : Fin maxQueue)) 2) twoReqMachine ≠ .diverge :=
  queueNotify_write_ends twoReqMachine_reachable (fun a hw => (twoReq_requestBatch.frameSep a hw).1)
    (twoReq_requestBatch.endsWithin fun i _ => by unfold twoReqN; split <;> decide)
    (by decide : 3 ≤ 2 ^ 16) (Nat.le_refl _)

end SpikeDevices.Block
