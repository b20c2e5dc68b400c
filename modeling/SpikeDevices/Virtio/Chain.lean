import SpikeDevices.Virtio.Queue

/-!
# Descriptor chains: where the walks go and what the copies store

A chain is what the device reaches from a head by following `next` while the NEXT flag is
set: `chainDesc mem qs d k` is the descriptor `k` links down from `d`. Its byte regions are
the 16-byte entries the walks read (`ChainEntry`) and the buffers of its descriptors of one
direction (`ChainBuf`).

The source bounds none of the walks of `get_desc_rw_size` and `memcpy_to_from_queue`: each
ends when the chain ends, so the fuel it needs is the chain's length (`EndsWithin`), and a
chain whose links form a cycle makes it run forever. A pass of the copy loop either stops or
moves on to the next descriptor (`copyLoop_succ_eq`), so the copy ends with the chain too.
`memcpy_to_queue` stores only into the device-writable buffers of its chain, as long as they
do not overlap the chain's own entries, which the copy rereads as it goes.
-/

namespace SpikeDevices.Virtio

open GuestMemory

section Chain

variable (mem : GuestMemory) (qs : QueueState) (d : U16)

/-- The index `k` links down the chain from `d`: `next` followed `k` times. -/
def chainIdx : Nat → U16
  | 0 => d
  | k + 1 => (getDesc mem qs (chainIdx k)).next

/-- The descriptor `k` links down the chain from `d`. -/
def chainDesc (k : Nat) : VirtioDesc := getDesc mem qs (chainIdx mem qs d k)

/-- The first `k` descriptors from `d` carry NEXT, so a walk from `d` reaches descriptor `k`. -/
def Linked (k : Nat) : Prop := ∀ j < k, (chainDesc mem qs d j).hasNext = true

/-- `a` is a byte of the entry of a descriptor on the chain from `d`. -/
def ChainEntry (a : U64) : Prop :=
  ∃ k, Linked mem qs d k ∧ InRegion (descEntryAddr qs (chainIdx mem qs d k)) 16 a

/-- `a` is a byte of the buffer `[addr, addr + len)` of a descriptor on the chain from `d`
whose `flags & VRING_DESC_F_WRITE` is `flag`. -/
def ChainBuf (flag : U16) (a : U64) : Prop :=
  ∃ k, Linked mem qs d k ∧ (chainDesc mem qs d k).flags &&& vringDescFWrite = flag ∧
    InRegion (chainDesc mem qs d k).addr (chainDesc mem qs d k).len.toNat a

/-- The chain from `d` ends, at a descriptor without NEXT, among its first `n` descriptors. -/
def EndsWithin (n : Nat) : Prop :=
  ∃ k < n, Linked mem qs d k ∧ (chainDesc mem qs d k).hasNext = false

end Chain

variable {mem : GuestMemory} {qs : QueueState} {d : U16}

@[simp] theorem chainDesc_zero : chainDesc mem qs d 0 = getDesc mem qs d := rfl

theorem chainDesc_succ (k : Nat) :
    chainDesc mem qs d (k + 1) = getDesc mem qs (chainDesc mem qs d k).next := rfl

theorem Linked.zero : Linked mem qs d 0 := fun _ h => absurd h (Nat.not_lt_zero _)

theorem Linked.succ {k : Nat} (hk : Linked mem qs d k) (hn : (chainDesc mem qs d k).hasNext = true) :
    Linked mem qs d (k + 1) := fun j hj =>
  if h : j < k then hk j h else by rw [show j = k by omega]; exact hn

theorem Linked.mono {j k : Nat} (hk : Linked mem qs d k) (hj : j ≤ k) : Linked mem qs d j :=
  fun i hi => hk i (by omega)

/-- A descriptor read from memory that agrees on its entry is the same. -/
theorem getDesc_congr {mem' : GuestMemory} {i : U16}
    (h : ∀ a, InRegion (descEntryAddr qs i) 16 a → mem' a = mem a) :
    getDesc mem' qs i = getDesc mem qs i := by
  simp only [getDesc, bytesAt_congr h]

/-- The next descriptor the walk reads, in a memory that agrees with `mem` on the chain's
entries, is the next one of the chain. -/
theorem getDesc_next_of_agree {mem' : GuestMemory} {k : Nat}
    (hent : ∀ a, ChainEntry mem qs d a → mem' a = mem a) (hk : Linked mem qs d k)
    (hn : (chainDesc mem qs d k).hasNext = true) :
    getDesc mem' qs (chainDesc mem qs d k).next = chainDesc mem qs d (k + 1) :=
  getDesc_congr fun a ha => hent a ⟨k + 1, hk.succ hn, ha⟩

section Congr

variable {mem' : GuestMemory} (hent : ∀ a, ChainEntry mem qs d a → mem' a = mem a)
include hent

/-- Memories that agree on the entries of the chain from `d` walk it alike. -/
theorem chainIdx_congr : ∀ k, Linked mem qs d k → chainIdx mem' qs d k = chainIdx mem qs d k
  | 0, _ => rfl
  | k + 1, hk => by
    have hk' := hk.mono (Nat.le_succ k)
    show (getDesc mem' qs (chainIdx mem' qs d k)).next = (getDesc mem qs (chainIdx mem qs d k)).next
    rw [chainIdx_congr k hk', getDesc_congr fun a ha => hent a ⟨k, hk', ha⟩]

theorem chainDesc_congr {k : Nat} (hk : Linked mem qs d k) :
    chainDesc mem' qs d k = chainDesc mem qs d k := by
  rw [chainDesc, chainIdx_congr hent k hk]
  exact getDesc_congr fun a ha => hent a ⟨k, hk, ha⟩

theorem linked_congr : ∀ k, Linked mem' qs d k ↔ Linked mem qs d k
  | 0 => ⟨fun _ => Linked.zero, fun _ => Linked.zero⟩
  | k + 1 => by
    constructor
    · intro hk
      have ih := (linked_congr k).mp (hk.mono (Nat.le_succ k))
      exact ih.succ (chainDesc_congr hent ih ▸ hk k (Nat.lt_succ_self k))
    · intro hk
      have hk' := hk.mono (Nat.le_succ k)
      exact ((linked_congr k).mpr hk').succ ((chainDesc_congr hent hk').symm ▸ hk k (Nat.lt_succ_self k))

/-- Memories that agree on the entries of the chain from `d` give it the same entries,
buffers and end. -/
theorem chainEntry_congr (a : U64) : ChainEntry mem' qs d a ↔ ChainEntry mem qs d a := by
  constructor
  · rintro ⟨k, hk, ha⟩
    have hk' := (linked_congr hent k).mp hk
    exact ⟨k, hk', chainIdx_congr hent k hk' ▸ ha⟩
  · rintro ⟨k, hk, ha⟩
    exact ⟨k, (linked_congr hent k).mpr hk, (chainIdx_congr hent k hk).symm ▸ ha⟩

theorem chainBuf_congr (flag : U16) (a : U64) : ChainBuf mem' qs d flag a ↔ ChainBuf mem qs d flag a := by
  constructor
  · rintro ⟨k, hk, hf, ha⟩
    have hk' := (linked_congr hent k).mp hk
    rw [chainDesc_congr hent hk'] at hf ha
    exact ⟨k, hk', hf, ha⟩
  · rintro ⟨k, hk, hf, ha⟩
    rw [← chainDesc_congr hent hk] at hf ha
    exact ⟨k, (linked_congr hent k).mpr hk, hf, ha⟩

theorem endsWithin_congr {n : Nat} (h : EndsWithin mem qs d n) : EndsWithin mem' qs d n := by
  obtain ⟨k, hk, hl, hend⟩ := h
  exact ⟨k, hk, (linked_congr hent k).mpr hl, by rw [chainDesc_congr hent hl]; exact hend⟩

end Congr

/-! ## The walks read `desc_addr` of the queue and nothing else of it -/

section Queue

variable {qs' : QueueState} (hq : qs'.descAddr = qs.descAddr)
include hq

theorem getDesc_queue (i : U16) : getDesc mem qs' i = getDesc mem qs i := by
  simp only [getDesc, descEntryAddr, hq]

theorem chainIdx_queue : ∀ k, chainIdx mem qs' d k = chainIdx mem qs d k
  | 0 => rfl
  | k + 1 => by simp only [chainIdx, chainIdx_queue k, getDesc_queue hq]

theorem chainDesc_queue (k : Nat) : chainDesc mem qs' d k = chainDesc mem qs d k := by
  simp only [chainDesc, chainIdx_queue hq, getDesc_queue hq]

theorem linked_queue (k : Nat) : Linked mem qs' d k ↔ Linked mem qs d k := by
  simp only [Linked, chainDesc_queue hq]

theorem chainEntry_queue (a : U64) : ChainEntry mem qs' d a ↔ ChainEntry mem qs d a := by
  simp only [ChainEntry, linked_queue hq, chainIdx_queue hq, descEntryAddr, hq]

theorem chainBuf_queue (flag : U16) (a : U64) : ChainBuf mem qs' d flag a ↔ ChainBuf mem qs d flag a := by
  simp only [ChainBuf, linked_queue hq, chainDesc_queue hq]

theorem endsWithin_queue (n : Nat) : EndsWithin mem qs' d n ↔ EndsWithin mem qs d n := by
  simp only [EndsWithin, linked_queue hq, chainDesc_queue hq]

end Queue

/-! ## The walks end with the chain -/

section Walks

variable {k : Nat} (hend : (chainDesc mem qs d k).hasNext = false)
include hend

theorem writeSizeLoop_done : ∀ fuel j, j ≤ k → k < j + fuel → ∀ ws,
    ∃ r, writeSizeLoop mem qs fuel (chainDesc mem qs d j) ws = .done r
  | 0, _, _, hk, _ => absurd hk (by omega)
  | fuel + 1, j, hj, hk, ws => by
    rw [writeSizeLoop]
    split
    · exact ⟨_, rfl⟩
    split
    · exact ⟨_, rfl⟩
    next hn =>
      have : j ≠ k := fun e => by subst e; simp [hend] at hn
      exact writeSizeLoop_done fuel (j + 1) (by omega) (by omega) _

theorem readSizeLoop_done : ∀ fuel j, j ≤ k → k < j + fuel → ∀ rs,
    ∃ r, readSizeLoop mem qs fuel (chainDesc mem qs d j) rs = .done r
  | 0, _, _, hk, _ => absurd hk (by omega)
  | fuel + 1, j, hj, hk, rs => by
    rw [readSizeLoop]
    split
    · obtain ⟨r, hr⟩ := writeSizeLoop_done hend (fuel + 1) j hj hk 0
      exact ⟨_, by rw [hr]; rfl⟩
    split
    · exact ⟨_, rfl⟩
    next hn =>
      have : j ≠ k := fun e => by subst e; simp [hend] at hn
      exact readSizeLoop_done fuel (j + 1) (by omega) (by omega) _

theorem findWriteLoop_done : ∀ fuel j, j ≤ k → k < j + fuel →
    ∃ r, findWriteLoop mem qs fuel (chainDesc mem qs d j) = .done r
  | 0, _, _, hk => absurd hk (by omega)
  | fuel + 1, j, hj, hk => by
    rw [findWriteLoop]
    split
    · exact ⟨_, rfl⟩
    split
    · exact ⟨_, rfl⟩
    next hn =>
      have : j ≠ k := fun e => by subst e; simp [hend] at hn
      exact findWriteLoop_done fuel (j + 1) (by omega) (by omega)

theorem seekLoop_done (flag : U16) : ∀ fuel j, j ≤ k → k < j + fuel → ∀ offset,
    ∃ r, seekLoop mem qs flag fuel (chainDesc mem qs d j) offset = .done r
  | 0, _, _, hk, _ => absurd hk (by omega)
  | fuel + 1, j, hj, hk, offset => by
    rw [seekLoop]
    split
    · exact ⟨_, rfl⟩
    split
    · exact ⟨_, rfl⟩
    split
    · exact ⟨_, rfl⟩
    next hn =>
      have : j ≠ k := fun e => by subst e; simp [hend] at hn
      exact seekLoop_done flag fuel (j + 1) (by omega) (by omega) _

end Walks

/-- `get_desc_rw_size` returns once its fuel covers the chain. -/
theorem getDescRwSize_done {n fuel : Nat} (h : EndsWithin mem qs d n) (hfuel : n ≤ fuel) :
    ∃ r, getDescRwSize fuel mem qs d = .done r := by
  obtain ⟨k, hk, -, hend⟩ := h
  exact readSizeLoop_done hend fuel 0 (Nat.zero_le k) (by omega) 0

/-- On a device-readable descriptor whose NEXT link leads back to itself, the first loop of
`get_desc_rw_size` runs forever: no fuel is enough. -/
theorem readSizeLoop_selfLoop {desc : VirtioDesc} (hself : getDesc mem qs desc.next = desc)
    (hw : desc.isWrite = false) (hn : desc.hasNext = true) :
    ∀ fuel rs, readSizeLoop mem qs fuel desc rs = .diverge
  | 0, _ => rfl
  | fuel + 1, rs => by
    rw [readSizeLoop, if_neg (by simp [hw]), if_neg (by simp [hn]), hself]
    exact readSizeLoop_selfLoop hself hw hn fuel _

/-! ## Where the walks of the copy stop -/

/-- The first loop of `memcpy_to_queue` stops on a device-writable descriptor of the chain. -/
theorem findWriteLoop_some : ∀ fuel j desc, Linked mem qs d j →
    findWriteLoop mem qs fuel (chainDesc mem qs d j) = .done (some desc) →
    ∃ k, Linked mem qs d k ∧ desc = chainDesc mem qs d k ∧
      desc.flags &&& vringDescFWrite = fWriteFlag true
  | 0, _, _, _, h => by cases h
  | fuel + 1, j, desc, hj, h => by
    rw [findWriteLoop] at h
    split at h
    · next hf =>
      obtain rfl := Option.some.inj (Outcome.done.inj h)
      exact ⟨j, hj, rfl, hf⟩
    split at h
    · cases h
    next hn => exact findWriteLoop_some fuel (j + 1) desc (hj.succ (by simpa using hn)) h

/-- The seek of an offset in `[0, 2^31)` skips whole descriptors and stops on a descriptor of
the chain with the direction's flag, at an offset inside it. -/
theorem seekLoop_some {flag : U16} : ∀ fuel j offset desc off, Linked mem qs d j →
    0 ≤ offset → offset < 2 ^ 31 →
    seekLoop mem qs flag fuel (chainDesc mem qs d j) offset = .done (some (desc, off)) →
    ∃ k, Linked mem qs d k ∧ desc = chainDesc mem qs d k ∧
      desc.flags &&& vringDescFWrite = flag ∧ 0 ≤ off ∧ off < desc.len.toNat
  | 0, _, _, _, _, _, _, _, h => by cases h
  | fuel + 1, j, offset, desc, off, hj, h0, h1, h => by
    have hu := toNat_toUInt32 h0 (by omega)
    rw [seekLoop] at h
    split at h
    · cases h
    next hf =>
    split at h
    · next hlt =>
      obtain ⟨rfl, rfl⟩ := Prod.mk.inj (Option.some.inj (Outcome.done.inj h))
      rw [BitVec.lt_def, hu] at hlt
      exact ⟨j, hj, rfl, Classical.not_not.mp hf, h0, by omega⟩
    next hge =>
    split at h
    · cases h
    next hn =>
      rw [BitVec.lt_def, hu] at hge
      have hlen := (chainDesc mem qs d j).len.isLt
      have hsub : ((toUInt32 offset - (chainDesc mem qs d j).len).toInt) =
          offset - (chainDesc mem qs d j).len.toNat := by
        rw [BitVec.toInt_eq_toNat_cond, BitVec.toNat_sub, hu]
        split <;> omega
      refine seekLoop_some fuel (j + 1) _ desc off (hj.succ (by simpa using hn)) ?_ ?_ h <;>
        rw [hsub] <;> omega

/-! ## One pass of the copy loop -/

/-- A piece of the copy stores into guest memory only when copying to the queue, and then
only the `l` bytes from `addr`. -/
theorem transfer_frame {toQueue : Bool} {mem mem' : GuestMemory} {buf buf' : HostBuffer}
    {cursor l : Int} {addr : U64} (h : transfer toQueue mem buf cursor addr l = .done (mem', buf'))
    (a : U64) (ha : toQueue = true → ¬ InRegion addr l.toNat a) : mem' a = mem a := by
  cases toQueue with
  | false =>
    simp only [transfer, if_neg Bool.false_ne_true] at h
    obtain ⟨_, -, h⟩ := Outcome.bind_eq_done.mp h
    cases h; rfl
  | true =>
    simp only [transfer, if_pos rfl] at h
    obtain ⟨mem1, h1, h⟩ := Outcome.bind_eq_done.mp h
    cases h
    rw [virtioMemcpyToRam_eq, HostBuffer.readList_eq] at h1
    split at h1
    · cases h1
      exact storeBytes_outside _ _ _ _ (by simpa using ha rfl)
    · cases h1

/-- When bytes remain after a pass, the offset has reached the end of the descriptor: the
pass moved `desc.len - offset` bytes, or all that was left. -/
theorem copy_offset_end {offset count : Int} {len : U32}
    (h : count - min count (len - toUInt32 offset).toInt ≠ 0) :
    toUInt32 (offset + min count (len - toUInt32 offset).toInt) = len := by
  rw [Int.min_def] at *
  split at h
  · exact absurd (Int.sub_self count) h
  · rw [if_neg ‹_›]
    apply BitVec.eq_of_toNat_eq
    simp only [toUInt32, BitVec.toNat_ofInt, BitVec.toInt_eq_toNat_cond, BitVec.toNat_sub]
    have := len.isLt
    split <;> omega

/-- A pass of the copy loop stops, or moves on to the next descriptor at offset 0: it never
stays on the same descriptor. -/
theorem copyLoop_succ_eq (toQueue : Bool) (flag : U16) (fuel : Nat) (mem : GuestMemory)
    (buf : HostBuffer) (desc : VirtioDesc) (offset count cursor : Int) :
    copyLoop toQueue qs flag (fuel + 1) mem buf desc offset count cursor =
      transfer toQueue mem buf cursor (desc.addr + BitVec.ofInt 64 offset)
          (min count (desc.len - toUInt32 offset).toInt) >>= fun mb =>
        cSub count (min count (desc.len - toUInt32 offset).toInt) >>= fun count' =>
          if count' = 0 then .done (0, mb.1, mb.2)
          else cAdd offset (min count (desc.len - toUInt32 offset).toInt) >>= fun _ =>
            if !desc.hasNext then .done (-1, mb.1, mb.2)
            else if (getDesc mb.1 qs desc.next).flags &&& vringDescFWrite ≠ flag then
              .done (-1, mb.1, mb.2)
            else copyLoop toQueue qs flag fuel mb.1 mb.2 (getDesc mb.1 qs desc.next) 0 count'
              (cursor + min count (desc.len - toUInt32 offset).toInt) := by
  rw [copyLoop]
  refine Outcome.bind_congr fun ⟨mem1, buf1⟩ _ => Outcome.bind_congr fun count' hc => ?_
  split
  · rfl
  next h0 =>
  refine Outcome.bind_congr fun offset' ho => ?_
  obtain ⟨-, rfl⟩ := cSub_eq_done.mp hc
  obtain ⟨-, rfl⟩ := cAdd_eq_done.mp ho
  rw [if_pos (copy_offset_end h0)]

/-- A piece of the copy never runs forever. -/
theorem transfer_ne_diverge (toQueue : Bool) (mem : GuestMemory) (buf : HostBuffer)
    (cursor : Int) (addr : U64) (l : Int) : transfer toQueue mem buf cursor addr l ≠ .diverge := by
  cases toQueue <;>
    simp only [transfer, Bool.false_eq_true, ↓reduceIte, virtioMemcpyFromRam_eq,
      virtioMemcpyToRam_eq, HostBuffer.writeList_eq, HostBuffer.readList_eq] <;>
    split <;> simp

/-- The bytes a pass moves lie in the descriptor, when its offset does. -/
theorem copy_piece_le {offset count : Int} {len : U32} (h0 : 0 ≤ offset) (hle : offset ≤ len.toNat) :
    offset.toNat + (min count (len - toUInt32 offset).toInt).toNat ≤ len.toNat := by
  have hsub : (len - toUInt32 offset).toNat = len.toNat - offset.toNat := by
    rw [BitVec.toNat_sub, toNat_toUInt32 h0 (by have := len.isLt; omega)]
    have := len.isLt
    omega
  rw [BitVec.toInt_eq_toNat_cond, hsub]
  split <;> omega

theorem inRegion_of_piece {addr a : U64} {offset count : Int} {len : U32} (h0 : 0 ≤ offset)
    (hle : offset ≤ len.toNat)
    (ha : InRegion (addr + BitVec.ofInt 64 offset) (min count (len - toUInt32 offset).toInt).toNat a) :
    InRegion addr len.toNat a := by
  have hlt := len.isLt
  refine inRegion_of_sub ?_ (copy_piece_le h0 hle) ha
  bv_omega

/-! ## What the copy stores, and that it ends -/

section Copy

variable {toQueue : Bool} {flag : U16}
  (hsep : toQueue = true → ∀ a, ChainBuf mem qs d flag a → ¬ ChainEntry mem qs d a)
include hsep

/-- The copy loop, on descriptor `k` of the chain from `d` at an offset inside it, over a
memory `cur` that agrees with `mem` on the chain's entries, stores only into the chain's
buffers of its direction, and only when copying to the queue. -/
theorem copyLoop_frame : ∀ fuel k (cur : GuestMemory) (buf : HostBuffer) (offset count cursor : Int) res,
    Linked mem qs d k → (chainDesc mem qs d k).flags &&& vringDescFWrite = flag →
    0 ≤ offset → offset ≤ (chainDesc mem qs d k).len.toNat →
    (∀ a, ChainEntry mem qs d a → cur a = mem a) →
    copyLoop toQueue qs flag fuel cur buf (chainDesc mem qs d k) offset count cursor = .done res →
    ∀ a, (toQueue = true → ¬ ChainBuf mem qs d flag a) → res.2.1 a = cur a
  | 0, _, _, _, _, _, _, _, _, _, _, _, _, h => by rw [copyLoop] at h; cases h
  | fuel + 1, k, cur, buf, offset, count, cursor, res, hk, hf, h0, hle, hent, h => by
    rw [copyLoop_succ_eq] at h
    obtain ⟨⟨cur1, buf1⟩, ht, h⟩ := Outcome.bind_eq_done.mp h
    have hpiece : ∀ a, (toQueue = true → ¬ ChainBuf mem qs d flag a) → cur1 a = cur a :=
      fun a ha => transfer_frame ht a fun hq hin => ha hq ⟨k, hk, hf, inRegion_of_piece h0 hle hin⟩
    obtain ⟨count', -, h⟩ := Outcome.bind_eq_done.mp h
    split at h
    · cases h; exact hpiece
    obtain ⟨_, -, h⟩ := Outcome.bind_eq_done.mp h
    split at h
    · cases h; exact hpiece
    next hn =>
    have hent1 : ∀ a, ChainEntry mem qs d a → cur1 a = mem a := fun a ha =>
      (hpiece a fun hq hb => hsep hq a hb ha).trans (hent a ha)
    rw [getDesc_next_of_agree hent1 hk (by simpa using hn)] at h
    split at h
    · cases h; exact hpiece
    next hf1 =>
    intro a ha
    rw [copyLoop_frame fuel (k + 1) cur1 buf1 0 count' _ res (hk.succ (by simpa using hn))
      (Classical.not_not.mp hf1) (Int.le_refl 0) (Int.ofNat_nonneg _) hent1 h a ha, hpiece a ha]

/-- The copy loop ends once its fuel covers the rest of the chain. -/
theorem copyLoop_ne_diverge {kend : Nat} (hend : (chainDesc mem qs d kend).hasNext = false) :
    ∀ fuel k (cur : GuestMemory) (buf : HostBuffer) (offset count cursor : Int),
    Linked mem qs d k → (chainDesc mem qs d k).flags &&& vringDescFWrite = flag →
    0 ≤ offset → offset ≤ (chainDesc mem qs d k).len.toNat →
    (∀ a, ChainEntry mem qs d a → cur a = mem a) → k ≤ kend → kend < k + fuel →
    copyLoop toQueue qs flag fuel cur buf (chainDesc mem qs d k) offset count cursor ≠ .diverge
  | 0, _, _, _, _, _, _, _, _, _, _, _, _, hfuel => absurd hfuel (by omega)
  | fuel + 1, k, cur, buf, offset, count, cursor, hk, hf, h0, hle, hent, hkend, hfuel => by
    rw [copyLoop_succ_eq]
    refine Outcome.bind_ne_diverge (transfer_ne_diverge _ _ _ _ _ _) fun ⟨cur1, buf1⟩ ht =>
      Outcome.bind_ne_diverge (cSub_ne_diverge _ _) fun count' _ => ?_
    have hpiece : ∀ a, (toQueue = true → ¬ ChainBuf mem qs d flag a) → cur1 a = cur a :=
      fun a ha => transfer_frame ht a fun hq hin => ha hq ⟨k, hk, hf, inRegion_of_piece h0 hle hin⟩
    split
    · exact fun h => nomatch h
    refine Outcome.bind_ne_diverge (cAdd_ne_diverge _ _) fun _ _ => ?_
    split
    · exact fun h => nomatch h
    next hn =>
    have hent1 : ∀ a, ChainEntry mem qs d a → cur1 a = mem a := fun a ha =>
      (hpiece a fun hq hb => hsep hq a hb ha).trans (hent a ha)
    have hne : k ≠ kend := fun e => by subst e; simp [hend] at hn
    dsimp only
    rw [getDesc_next_of_agree hent1 hk (by simpa using hn)]
    split
    · exact fun h => nomatch h
    next hf1 =>
    exact copyLoop_ne_diverge hend fuel (k + 1) cur1 buf1 0 count' _ (hk.succ (by simpa using hn))
      (Classical.not_not.mp hf1) (Int.le_refl 0) (Int.ofNat_nonneg _) hent1 (by omega) (by omega)

end Copy

/-- A descriptor the walk reaches comes no later than the end of the chain. -/
theorem Linked.le_of_end {k kend : Nat} (hk : Linked mem qs d k)
    (hend : (chainDesc mem qs d kend).hasNext = false) : k ≤ kend :=
  Nat.le_of_not_lt fun h => by simp [hk kend h] at hend

/-! ## `memcpy_to_from_queue` -/

/-- `memcpy_to_from_queue` of a nonzero count: find the first descriptor, seek the offset,
copy. -/
theorem memcpyToFromQueue_eq (fuel : Nat) (mem : GuestMemory) (buf : HostBuffer) (qs : QueueState)
    (descIdx : U16) (offset count : Int) (toQueue : Bool) (hc : count ≠ 0) :
    memcpyToFromQueue fuel mem buf qs descIdx offset count toQueue =
      ((if toQueue then findWriteLoop mem qs fuel (getDesc mem qs descIdx)
        else pure (some (getDesc mem qs descIdx))) >>= fun first =>
        match first with
        | none => .done (-1, mem, buf)
        | some desc => seekLoop mem qs (fWriteFlag toQueue) fuel desc offset >>= fun found =>
          match found with
          | none => .done (-1, mem, buf)
          | some (desc, offset) =>
            copyLoop toQueue qs (fWriteFlag toQueue) fuel mem buf desc offset count 0) := by
  unfold memcpyToFromQueue
  rw [if_neg hc]
  cases toQueue <;> rfl

section Memcpy

variable {fuel : Nat} {buf : HostBuffer} {offset count : Int} {toQueue : Bool}
  (hsep : toQueue = true → ∀ a, ChainBuf mem qs d (fWriteFlag toQueue) a → ¬ ChainEntry mem qs d a)
  (h0 : 0 ≤ offset) (h1 : offset < 2 ^ 31)
include hsep h0 h1

omit h0 h1 in
/-- The descriptor the copy starts from, found by the first loop when copying to the queue,
is one of the chain. -/
theorem memcpy_first {desc : VirtioDesc}
    (hfirst : (if toQueue then findWriteLoop mem qs fuel (getDesc mem qs d)
      else pure (some (getDesc mem qs d))) = Outcome.done (some desc)) :
    ∃ k, Linked mem qs d k ∧ desc = chainDesc mem qs d k := by
  cases toQueue with
  | false => exact ⟨0, Linked.zero, (Option.some.inj (Outcome.done.inj hfirst)).symm⟩
  | true =>
    obtain ⟨k, hk, rfl, -⟩ := findWriteLoop_some fuel 0 desc Linked.zero hfirst
    exact ⟨k, hk, rfl⟩

/-- `memcpy_to_from_queue` from an offset in `[0, 2^31)` stores into guest memory only when
copying to the queue, and then only into the device-writable buffers of the chain, provided
these do not overlap the chain's entries. -/
theorem memcpyToFromQueue_frame {r : Int} {mem' : GuestMemory} {buf' : HostBuffer}
    (h : memcpyToFromQueue fuel mem buf qs d offset count toQueue = .done (r, mem', buf'))
    (a : U64) (ha : toQueue = true → ¬ ChainBuf mem qs d (fWriteFlag toQueue) a) : mem' a = mem a := by
  by_cases hc : count = 0
  · rw [memcpyToFromQueue, if_pos hc] at h
    cases h; rfl
  rw [memcpyToFromQueue_eq _ _ _ _ _ _ _ _ hc] at h
  obtain ⟨first, hfirst, h⟩ := Outcome.bind_eq_done.mp h
  split at h
  · cases h; rfl
  next desc =>
  obtain ⟨k, hk, rfl⟩ := memcpy_first hsep hfirst
  obtain ⟨found, hfound, h⟩ := Outcome.bind_eq_done.mp h
  split at h
  · cases h; rfl
  next _ desc' off =>
  obtain ⟨k', hk', rfl, hf, ho0, hol⟩ := seekLoop_some fuel k offset desc' off hk h0 h1 hfound
  exact copyLoop_frame hsep fuel k' mem buf off count 0 _ hk' hf ho0 (by omega) (fun _ _ => rfl) h a ha

/-- `memcpy_to_from_queue` ends once its fuel covers the chain. -/
theorem memcpyToFromQueue_ne_diverge {n : Nat} (hends : EndsWithin mem qs d n) (hfuel : n ≤ fuel) :
    memcpyToFromQueue fuel mem buf qs d offset count toQueue ≠ .diverge := by
  obtain ⟨kend, hkn, -, hend⟩ := hends
  by_cases hc : count = 0
  · rw [memcpyToFromQueue, if_pos hc]
    exact fun h => nomatch h
  rw [memcpyToFromQueue_eq _ _ _ _ _ _ _ _ hc]
  have hfirst : (if toQueue then findWriteLoop mem qs fuel (getDesc mem qs d)
      else pure (some (getDesc mem qs d))) ≠ Outcome.diverge := by
    cases toQueue with
    | false => exact fun h => nomatch h
    | true =>
      obtain ⟨r, hr⟩ := findWriteLoop_done hend fuel 0 (Nat.zero_le _) (by omega)
      simp only [↓reduceIte]
      exact hr ▸ fun h => nomatch h
  refine Outcome.bind_ne_diverge hfirst fun first hf => ?_
  split
  · exact fun h => nomatch h
  next desc =>
  obtain ⟨k, hk, rfl⟩ := memcpy_first hsep hf
  have hkle := hk.le_of_end hend
  obtain ⟨found, hfound⟩ := seekLoop_done hend (fWriteFlag toQueue) fuel k hkle (by omega) offset
  refine Outcome.bind_ne_diverge (hfound ▸ fun h => nomatch h) fun found' hf' => ?_
  split
  · exact fun h => nomatch h
  next _ desc' off =>
  obtain ⟨k', hk', rfl, hfl, ho0, hol⟩ := seekLoop_some fuel k offset desc' off hk h0 h1 hf'
  exact copyLoop_ne_diverge hsep hend fuel k' mem buf off count 0 hk' hfl ho0 (by omega)
    (fun _ _ => rfl) (hk'.le_of_end hend) (by omega)

end Memcpy

end SpikeDevices.Virtio
