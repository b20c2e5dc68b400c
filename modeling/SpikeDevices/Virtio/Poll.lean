import SpikeDevices.Virtio.Chain
import SpikeDevices.Virtio.Notify
import SpikeDevices.Virtio.Used

/-!
# What a poll of the available ring stores, and when it ends

`queue_notify` hands the heads the driver posted past `last_avail_idx` to the front end one
by one. Its own stores are the front end's: this module follows the poll from its first
state `m0` and shows that, when every byte the front end may store into is apart from every
byte the poll reads to find its work (`PollWrites` against `PollReads`), the state after any
number of positions is `m0` with `last_avail_idx` moved and memory changed only where the
front end may store (`PollState`). So the heads and the chains the poll visits are those
`m0` holds, and from that the whole poll stores only into the used ring and the
device-writable buffers of the posted chains (`queueNotify_pollWrites`), and returns once
its fuel covers the posted chains (`queueNotify_ne_diverge`).
-/

namespace SpikeDevices.Virtio

open GuestMemory VirtioDevice

/-- The available ring: `flags`, `idx` and the `num` slots. -/
def InAvailRing (qs : QueueState) (a : U64) : Prop :=
  InRegion qs.availAddr (4 + 2 * qs.num.toNat) a

/-- The two bytes of a slot lie in the available ring. -/
theorem inAvailRing_of_slot {qs : QueueState} (hnum : qs.num.toNat.isPowerOfTwo) (pos : U16)
    {a : U64} (ha : InRegion (availSlotAddr qs pos) 2 a) : InAvailRing qs a := by
  have hpos := Nat.pos_of_isPowerOfTwo hnum
  have hmod := Nat.mod_lt pos.toNat hpos
  have hlt := qs.num.isLt
  refine inRegion_of_sub ?_ (by omega : 4 + 2 * (pos.toNat % qs.num.toNat) + 2 ≤ _) ha
  simp only [availSlotAddr]
  bv_omega

section Posted

variable {F : Type} (m : Machine F) (q : Fin maxQueue)

/-- The positions the driver posted past `last_avail_idx`: `avail.idx - last_avail_idx`,
modulo `2^16`. -/
def posted : Nat :=
  (m.mem.load16 ((m.core.queue q).availAddr + 2) - (m.core.queue q).lastAvailIdx).toNat

/-- The head the driver put at the `i`-th posted position. -/
def postedHead (i : Nat) : U16 :=
  m.mem.load16 (availSlotAddr (m.core.queue q) ((m.core.queue q).lastAvailIdx + BitVec.ofNat 16 i))

/-- A byte a poll of `q` may store into: in the used ring, or in a device-writable buffer of a
posted chain. -/
def PollWrites (a : U64) : Prop :=
  InUsedRing (m.core.queue q) a ∨
    ∃ i < posted m q, ChainBuf m.mem (m.core.queue q) (postedHead m q i) vringDescFWrite a

/-- A byte a poll of `q` reads to find its work: in the available ring, or in the entry of a
descriptor of a posted chain. -/
def PollReads (a : U64) : Prop :=
  InAvailRing (m.core.queue q) a ∨
    ∃ i < posted m q, ChainEntry m.mem (m.core.queue q) (postedHead m q i) a

end Posted

/-! ## What the front end promises -/

section Handler

variable {F : Type} (fuel : Nat) (recv : DeviceRecvFunc F)

/-- The handler stores only into the device-writable buffers of the head's chain and into
the used ring, when those buffers do not overlap the chain's entries. -/
def StoresInChain : Prop :=
  ∀ m q d rs ws r m', recv m q d rs ws = .done (r, m') →
    (m.core.queue q).num.toNat.isPowerOfTwo →
    (∀ a, ChainBuf m.mem (m.core.queue q) d vringDescFWrite a →
      ¬ ChainEntry m.mem (m.core.queue q) d a) →
    ∀ a, ¬ ChainBuf m.mem (m.core.queue q) d vringDescFWrite a →
      ¬ InUsedRing (m.core.queue q) a → m'.mem a = m.mem a

/-- The handler returns once its fuel covers the head's chain, under the same condition. -/
def ReturnsWithChain : Prop :=
  ∀ m q d rs ws n, (m.core.queue q).num.toNat.isPowerOfTwo →
    EndsWithin m.mem (m.core.queue q) d n → n ≤ fuel →
    (∀ a, ChainBuf m.mem (m.core.queue q) d vringDescFWrite a →
      ¬ ChainEntry m.mem (m.core.queue q) d a) →
    recv m q d rs ws ≠ .diverge

theorem RaisesUsedOnly.keepsQueues (h : RaisesUsedOnly recv) : KeepsQueues recv := by
  intro m q d rs ws r m' hr
  obtain ⟨raised, hc⟩ := h m q d rs ws r m' hr
  rw [hc]
  cases raised <;> rfl

end Handler

/-- A 32-bit write of `QUEUE_NOTIFY` runs `queue_notify` on the queue it names, if there is
one. -/
theorem step_queueNotify {F : Type} (fuel : Nat) (recv : DeviceRecvFunc F) (val : U32)
    (m : Machine F) :
    step fuel recv (.mmioWrite virtioMmioQueueNotify val 2) m =
      if h : val.toNat < maxQueue then queueNotify fuel recv ⟨val.toNat, h⟩ m else .done m := by
  simp only [step, virtioMmioWrite]
  rw [if_neg (by decide), if_pos trivial, if_pos trivial]

/-- The write of a queue's own index. -/
theorem step_queueNotify_queue {F : Type} (fuel : Nat) (recv : DeviceRecvFunc F) (q : Fin maxQueue)
    (m : Machine F) :
    step fuel recv (.mmioWrite virtioMmioQueueNotify (BitVec.ofNat 32 q) 2) m =
      queueNotify fuel recv q m := by
  have hq : (BitVec.ofNat 32 q.val).toNat = q.val := by
    rw [BitVec.toNat_ofNat]; exact Nat.mod_eq_of_lt (Nat.lt_trans q.isLt (by decide))
  rw [step_queueNotify, dif_pos (by rw [hq]; exact q.isLt)]
  simp only [hq]

/-! ## The states of a poll -/

/-- A state of the poll of queue `q` started from `m0`, `i` positions in: the queue is `m0`'s
with `last_avail_idx` moved `i` places, and memory differs from `m0`'s only where the poll
may store. -/
structure PollState {F : Type} (m0 m : Machine F) (q : Fin maxQueue) (i : Nat) : Prop where
  queue_eq : m.core.queue q =
    { m0.core.queue q with lastAvailIdx := (m0.core.queue q).lastAvailIdx + BitVec.ofNat 16 i }
  le_posted : i ≤ posted m0 q
  mem_eq : ∀ a, ¬ PollWrites m0 q a → m.mem a = m0.mem a

section Poll

variable {F : Type} {fuel : Nat} {recv : DeviceRecvFunc F} {q : Fin maxQueue} {m0 : Machine F}
  (hnum : (m0.core.queue q).num.toNat.isPowerOfTwo)
  (hsep : ∀ a, PollWrites m0 q a → ¬ PollReads m0 q a)

theorem PollState.start : PollState m0 m0 q 0 :=
  ⟨by simp, Nat.zero_le _, fun _ _ => rfl⟩

/-- The poll has reached `avail.idx` once it has moved past every posted position. -/
theorem PollState.lastAvail_of_posted {m : Machine F} (hs : PollState m0 m q (posted m0 q)) :
    (m.core.queue q).lastAvailIdx = m0.mem.load16 ((m0.core.queue q).availAddr + 2) := by
  rw [hs.queue_eq]
  simp only [posted]
  bv_omega

/-- Not yet at `avail.idx`, the poll is short of the last posted position. -/
theorem PollState.lt_posted {m : Machine F} {i : Nat} (hs : PollState m0 m q i)
    (hne : ¬ (m.core.queue q).lastAvailIdx = m0.mem.load16 ((m0.core.queue q).availAddr + 2)) :
    i < posted m0 q :=
  Nat.lt_of_le_of_ne hs.le_posted fun e => hne (by subst e; exact hs.lastAvail_of_posted)

/-- Short of the last posted position, the poll is not yet at `avail.idx`. -/
theorem PollState.lastAvail_ne {m : Machine F} {i : Nat} (hs : PollState m0 m q i)
    (hi : i < posted m0 q) :
    ¬ (m.core.queue q).lastAvailIdx = m0.mem.load16 ((m0.core.queue q).availAddr + 2) := by
  rw [hs.queue_eq]
  simp only [posted] at hi
  bv_omega

theorem PollState.incLastAvail {m : Machine F} {i : Nat} (hs : PollState m0 m q i)
    (hi : i < posted m0 q) : PollState m0 (incLastAvail m q) q (i + 1) := by
  refine ⟨?_, hi, hs.mem_eq⟩
  rw [incLastAvail_queue_self, hs.queue_eq]
  simp only [QueueState.mk.injEq, true_and, and_true]
  bv_omega

theorem PollState.descAddr_eq {m : Machine F} {i : Nat} (hs : PollState m0 m q i) :
    (m.core.queue q).descAddr = (m0.core.queue q).descAddr := by
  rw [hs.queue_eq]

include hnum in
theorem PollState.num_isPowerOfTwo {m : Machine F} {i : Nat} (hs : PollState m0 m q i) :
    (m.core.queue q).num.toNat.isPowerOfTwo := by
  rw [hs.queue_eq]; exact hnum

section Reads

include hsep

/-- Bytes the poll reads still hold what `m0` holds. -/
theorem PollState.reads_eq {m : Machine F} {i : Nat} (hs : PollState m0 m q i) {a : U64}
    (ha : PollReads m0 q a) : m.mem a = m0.mem a :=
  hs.mem_eq a fun hw => hsep a hw ha

theorem PollState.chain_agree {m : Machine F} {i : Nat} (hs : PollState m0 m q i)
    (hi : i < posted m0 q) (a : U64) (ha : ChainEntry m0.mem (m0.core.queue q) (postedHead m0 q i) a) :
    m.mem a = m0.mem a :=
  hs.reads_eq hsep (.inr ⟨i, hi, ha⟩)

/-- So the `i`-th posted chain, walked in the current state, has `m0`'s buffers, entries and
end. -/
theorem PollState.chainBuf_iff {m : Machine F} {i : Nat} (hs : PollState m0 m q i)
    (hi : i < posted m0 q) (flag : U16) (a : U64) :
    ChainBuf m.mem (m.core.queue q) (postedHead m0 q i) flag a ↔
      ChainBuf m0.mem (m0.core.queue q) (postedHead m0 q i) flag a :=
  (chainBuf_queue hs.descAddr_eq flag a).trans (chainBuf_congr (hs.chain_agree hsep hi) flag a)

theorem PollState.chainEntry_iff {m : Machine F} {i : Nat} (hs : PollState m0 m q i)
    (hi : i < posted m0 q) (a : U64) :
    ChainEntry m.mem (m.core.queue q) (postedHead m0 q i) a ↔
      ChainEntry m0.mem (m0.core.queue q) (postedHead m0 q i) a :=
  (chainEntry_queue hs.descAddr_eq a).trans (chainEntry_congr (hs.chain_agree hsep hi) a)

/-- The front end's condition holds for the chain it is handed. -/
theorem PollState.chain_sep {m : Machine F} {i : Nat} (hs : PollState m0 m q i)
    (hi : i < posted m0 q) (a : U64)
    (hb : ChainBuf m.mem (m.core.queue q) (postedHead m0 q i) vringDescFWrite a) :
    ¬ ChainEntry m.mem (m.core.queue q) (postedHead m0 q i) a := fun he =>
  hsep a (.inr ⟨i, hi, (hs.chainBuf_iff hsep hi _ a).mp hb⟩)
    (.inr ⟨i, hi, (hs.chainEntry_iff hsep hi a).mp he⟩)

include hnum

/-- The head the poll reads at its `i`-th step is the `i`-th head `m0` posted. -/
theorem PollState.head_eq {m : Machine F} {i : Nat} (hs : PollState m0 m q i) :
    m.mem.load16 (availEntryAddr (m.core.queue q)) = postedHead m0 q i := by
  have haddr : availSlotAddr (m.core.queue q) (m.core.queue q).lastAvailIdx =
      availSlotAddr (m0.core.queue q) ((m0.core.queue q).lastAvailIdx + BitVec.ofNat 16 i) := by
    rw [hs.queue_eq]; rfl
  rw [availEntryAddr_eq_availSlotAddr (hs.num_isPowerOfTwo hnum), haddr]
  simp only [GuestMemory.load16, postedHead]
  rw [bytesAt_congr fun a ha => hs.reads_eq hsep (.inl (inAvailRing_of_slot hnum _ ha))]

/-- A handler call on the `i`-th posted head leaves a state of the poll, `i` positions in. -/
theorem PollState.handled (hkeep : KeepsQueues recv) (hstore : StoresInChain recv) {m m1 : Machine F}
    {i : Nat} (hs : PollState m0 m q i) (hi : i < posted m0 q) {rs ws r : Int}
    (h : recv m q (postedHead m0 q i) rs ws = .done (r, m1)) : PollState m0 m1 q i := by
  have hframe := hstore m q _ rs ws r m1 h (hs.num_isPowerOfTwo hnum) (hs.chain_sep hsep hi)
  refine ⟨by rw [hkeep _ _ _ _ _ _ _ h]; exact hs.queue_eq, hs.le_posted, fun a ha => ?_⟩
  have hused : ¬ InUsedRing (m.core.queue q) a := by
    rw [hs.queue_eq]; exact fun hu => ha (.inl hu)
  rw [hframe a (fun hb => ha (.inr ⟨i, hi, (hs.chainBuf_iff hsep hi _ a).mp hb⟩)) hused,
    hs.mem_eq a ha]

variable (hkeep : KeepsQueues recv) (hstore : StoresInChain recv)
include hkeep hstore

/-- Every state the loop of `queue_notify` returns is a state of the poll. -/
theorem notifyLoop_pollState : ∀ fuelLeft i (m m' : Machine F), PollState m0 m q i →
    notifyLoop fuel recv q (m0.mem.load16 ((m0.core.queue q).availAddr + 2)) fuelLeft m =
      .done m' → ∃ j, PollState m0 m' q j
  | 0, i, m, m', hs, h => by
    simp only [notifyLoop] at h
    split at h
    · cases h; exact ⟨i, hs⟩
    · cases h
  | fuelLeft + 1, i, m, m', hs, h => by
    rw [notifyLoop_succ_eq] at h
    split at h
    · cases h; exact ⟨i, hs⟩
    next hne =>
    have hi := hs.lt_posted hne
    rw [hs.head_eq hnum hsep] at h
    obtain ⟨sizes, -, h⟩ := Outcome.bind_eq_done.mp h
    rcases sizes with _ | ⟨rs, ws⟩
    · exact notifyLoop_pollState fuelLeft (i + 1) _ m' (hs.incLastAvail hi) h
    · obtain ⟨⟨r, m1⟩, hr, h⟩ := Outcome.bind_eq_done.mp h
      have hs1 := hs.handled hnum hsep hkeep hstore hi hr
      split at h
      · cases h; exact ⟨i, hs1⟩
      · exact notifyLoop_pollState fuelLeft (i + 1) _ m' (hs1.incLastAvail hi) h

/-- A poll of `q` stores only into the used ring and into device-writable buffers of the
posted chains, when those bytes are apart from the available ring and the entries of the
posted chains. -/
theorem queueNotify_pollWrites {m' : Machine F} (h : queueNotify fuel recv q m0 = .done m') :
    ∀ a, ¬ PollWrites m0 q a → m'.mem a = m0.mem a := by
  dsimp only [queueNotify] at h
  split at h
  · cases h; exact fun _ _ => rfl
  · obtain ⟨j, hs⟩ := notifyLoop_pollState hnum hsep hkeep hstore fuel 0 m0 m' PollState.start h
    exact hs.mem_eq

variable (hret : ReturnsWithChain fuel recv) {N : Nat}
  (hends : ∀ i < posted m0 q, EndsWithin m0.mem (m0.core.queue q) (postedHead m0 q i) N)
  (hN : N ≤ fuel)
include hret hends hN

/-- The loop of `queue_notify` returns when its iterations cover the posted positions and
the fuel covers every posted chain. -/
theorem notifyLoop_ne_diverge : ∀ fuelLeft i (m : Machine F), PollState m0 m q i →
    posted m0 q ≤ i + fuelLeft →
    notifyLoop fuel recv q (m0.mem.load16 ((m0.core.queue q).availAddr + 2)) fuelLeft m ≠ .diverge
  | 0, i, m, hs, hle => by
    obtain rfl : i = posted m0 q := Nat.le_antisymm hs.le_posted (by omega)
    simp only [notifyLoop, if_pos hs.lastAvail_of_posted]
    exact fun h => nomatch h
  | fuelLeft + 1, i, m, hs, hle => by
    rw [notifyLoop_succ_eq]
    split
    · exact fun h => nomatch h
    next hne =>
    have hi := hs.lt_posted hne
    rw [hs.head_eq hnum hsep]
    have hends' : EndsWithin m.mem (m.core.queue q) (postedHead m0 q i) N :=
      (endsWithin_queue hs.descAddr_eq N).mpr (endsWithin_congr (hs.chain_agree hsep hi) (hends i hi))
    obtain ⟨sizes, hsz⟩ := getDescRwSize_done hends' hN
    rw [hsz, Outcome.done_bind]
    rcases sizes with _ | ⟨rs, ws⟩
    · exact notifyLoop_ne_diverge fuelLeft (i + 1) _ (hs.incLastAvail hi) (by omega)
    · refine Outcome.bind_ne_diverge (hret m q _ rs ws N (hs.num_isPowerOfTwo hnum) hends' hN
        (hs.chain_sep hsep hi)) fun ⟨r, m1⟩ hr => ?_
      have hs1 := hs.handled hnum hsep hkeep hstore hi hr
      dsimp only
      split
      · exact fun h => nomatch h
      · exact notifyLoop_ne_diverge fuelLeft (i + 1) _ (hs1.incLastAvail hi) (by omega)

/-- `queue_notify` returns when its fuel covers `2^16` positions and every posted chain. -/
theorem queueNotify_ne_diverge (hfuel : 2 ^ 16 ≤ fuel) : queueNotify fuel recv q m0 ≠ .diverge := by
  dsimp only [queueNotify]
  split
  · exact fun h => nomatch h
  · have hlt : posted m0 q < 2 ^ 16 := BitVec.isLt _
    exact notifyLoop_ne_diverge hnum hsep hkeep hstore hret hends hN fuel 0 m0 PollState.start (by omega)

end Reads

end Poll

end SpikeDevices.Virtio
