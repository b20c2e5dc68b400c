import SpikeDevices.Virtio.Chain

/-!
# Scatter-gather copies along a chain of the usual shape

A driver lays a request out as device-readable descriptors followed by device-writable ones
(`ChainShape`). The buffers of a stretch of the chain make one list of guest addresses
(`spanAddrs`), whatever the split into descriptors. On such a chain `get_desc_rw_size`
returns the lengths of the readable and the writable address lists
(`getDescRwSize_shape`), and `memcpy_to_from_queue` loads the readable bytes into the host
buffer (`memcpyFromQueue_shape`) or stores the buffer along the writable addresses
(`memcpyToQueue_shape`). Both need each list shorter than `2^31`, where the source's `int`
sizes and offsets are exact, and a store needs the writable buffers apart from the chain's
own descriptor entries, which the copy reads as it goes.
-/

namespace SpikeDevices.Virtio

open GuestMemory

/-- The guest addresses of a descriptor's buffer, in order. -/
def VirtioDesc.addrs (desc : VirtioDesc) : List U64 := addrsFrom desc.addr desc.len.toNat

@[simp] theorem VirtioDesc.length_addrs (desc : VirtioDesc) : desc.addrs.length = desc.len.toNat :=
  length_addrsFrom _ _

section Span

variable (mem : GuestMemory) (qs : QueueState) (d : U16)

/-- The buffer addresses of the `m` descriptors of the chain from `d` that start at the
`j`-th, in chain order. -/
def spanAddrs (j : Nat) : Nat → List U64
  | 0 => []
  | m + 1 => (chainDesc mem qs d j).addrs ++ spanAddrs (j + 1) m

/-- The chain from `d` has `n` descriptors, the first `p` device-readable and the others
device-writable. -/
structure ChainShape (p n : Nat) : Prop where
  lt : p < n
  linked : Linked mem qs d (n - 1)
  last : (chainDesc mem qs d (n - 1)).hasNext = false
  read : ∀ k < p, (chainDesc mem qs d k).flags &&& vringDescFWrite = 0
  write : ∀ k, p ≤ k → k < n → (chainDesc mem qs d k).flags &&& vringDescFWrite = vringDescFWrite

/-- The device-readable addresses of a chain whose first `p` descriptors are readable. -/
def readAddrs (p : Nat) : List U64 := spanAddrs mem qs d 0 p

/-- The device-writable addresses of a chain of `n` descriptors, the first `p` readable. -/
def writeAddrs (p n : Nat) : List U64 := spanAddrs mem qs d p (n - p)

end Span

variable {mem : GuestMemory} {qs : QueueState} {d : U16}

theorem spanAddrs_of_lt {j e : Nat} (h : j < e) :
    spanAddrs mem qs d j (e - j) =
      (chainDesc mem qs d j).addrs ++ spanAddrs mem qs d (j + 1) (e - (j + 1)) := by
  obtain ⟨m, hm⟩ : ∃ m, e - j = m + 1 := ⟨e - j - 1, by omega⟩
  rw [hm, spanAddrs, show e - (j + 1) = m by omega]

theorem mem_spanAddrs {a : U64} : ∀ {j m : Nat}, a ∈ spanAddrs mem qs d j m ↔
    ∃ k, j ≤ k ∧ k < j + m ∧
      InRegion (chainDesc mem qs d k).addr (chainDesc mem qs d k).len.toNat a
  | j, 0 => by
    simp only [spanAddrs, List.not_mem_nil, false_iff, not_exists, not_and]
    intro k h1 h2
    omega
  | j, m + 1 => by
    rw [spanAddrs, List.mem_append, VirtioDesc.addrs, mem_addrsFrom, mem_spanAddrs]
    constructor
    · rintro (h | ⟨k, h1, h2, h⟩)
      · exact ⟨j, Nat.le_refl j, by omega, h⟩
      · exact ⟨k, by omega, by omega, h⟩
    · rintro ⟨k, h1, h2, h⟩
      by_cases hk : k = j
      · subst hk
        exact .inl h
      · exact .inr ⟨k, by omega, by omega, h⟩

namespace ChainShape

variable {p n : Nat} (hs : ChainShape mem qs d p n)
include hs

theorem hasNext_of_lt {k : Nat} (hk : k + 1 < n) : (chainDesc mem qs d k).hasNext = true :=
  hs.linked k (by omega)

theorem linked_of_lt {k : Nat} (hk : k < n) : Linked mem qs d k := hs.linked.mono (by omega)

/-- The walk never gets past the last descriptor. -/
theorem not_linked {k : Nat} (hk : n ≤ k) : ¬ Linked mem qs d k := fun h => by
  have hl := hs.last
  rw [h (n - 1) (by have := hs.lt; omega)] at hl
  cases hl

theorem isWrite_of_lt {k : Nat} (hk : k < p) : (chainDesc mem qs d k).isWrite = false := by
  rw [VirtioDesc.isWrite, hs.read k hk]
  rfl

theorem isWrite_of_le {k : Nat} (h1 : p ≤ k) (h2 : k < n) : (chainDesc mem qs d k).isWrite = true := by
  rw [VirtioDesc.isWrite, hs.write k h1 h2]
  rfl

/-- The chain's entries are those of its `n` descriptors. -/
theorem chainEntry_iff (a : U64) :
    ChainEntry mem qs d a ↔ ∃ k < n, InRegion (descEntryAddr qs (chainIdx mem qs d k)) 16 a :=
  ⟨fun ⟨k, hk, ha⟩ => ⟨k, Nat.lt_of_not_le fun h => hs.not_linked h hk, ha⟩,
    fun ⟨k, hk, ha⟩ => ⟨k, hs.linked_of_lt hk, ha⟩⟩

/-- The chain's device-readable buffers are its readable addresses. -/
theorem chainBuf_read_iff (a : U64) : ChainBuf mem qs d 0 a ↔ a ∈ readAddrs mem qs d p := by
  rw [readAddrs, mem_spanAddrs]
  constructor
  · rintro ⟨k, hk, hf, ha⟩
    have hkn : k < n := Nat.lt_of_not_le fun h => hs.not_linked h hk
    have hkp : k < p := Nat.lt_of_not_le fun h => by
      rw [hs.write k h hkn] at hf
      cases hf
    exact ⟨k, Nat.zero_le k, by omega, ha⟩
  · rintro ⟨k, -, hk, ha⟩
    exact ⟨k, hs.linked_of_lt (by have := hs.lt; omega), hs.read k (by omega), ha⟩

/-- The chain's device-writable buffers are its writable addresses. -/
theorem chainBuf_write_iff (a : U64) :
    ChainBuf mem qs d vringDescFWrite a ↔ a ∈ writeAddrs mem qs d p n := by
  rw [writeAddrs, mem_spanAddrs]
  constructor
  · rintro ⟨k, hk, hf, ha⟩
    have hkn : k < n := Nat.lt_of_not_le fun h => hs.not_linked h hk
    have hpk : p ≤ k := Nat.le_of_not_lt fun h => by
      rw [hs.read k h] at hf
      cases hf
    exact ⟨k, hpk, by omega, ha⟩
  · rintro ⟨k, h1, h2, ha⟩
    exact ⟨k, hs.linked_of_lt (by omega), hs.write k h1 (by omega), ha⟩

end ChainShape

/-! ## Memories that agree on the chain -/

/-- The addresses of a stretch of linked descriptors depend only on the chain's entries. -/
theorem spanAddrs_congr {mem' : GuestMemory} (hent : ∀ a, ChainEntry mem qs d a → mem' a = mem a) :
    ∀ {j m : Nat}, (∀ k, j ≤ k → k < j + m → Linked mem qs d k) →
      spanAddrs mem' qs d j m = spanAddrs mem qs d j m
  | _, 0, _ => rfl
  | j, m + 1, hl => by
    rw [spanAddrs, spanAddrs, chainDesc_congr hent (hl j (Nat.le_refl j) (by omega)),
      spanAddrs_congr hent fun k h1 h2 => hl k (by omega) (by omega)]

/-- They read `desc_addr` of the queue and nothing else of it. -/
theorem spanAddrs_queue {qs' : QueueState} (hq : qs'.descAddr = qs.descAddr) (j m : Nat) :
    spanAddrs mem qs' d j m = spanAddrs mem qs d j m := by
  induction m generalizing j with
  | zero => rfl
  | succ m ih => rw [spanAddrs, spanAddrs, chainDesc_queue hq, ih]

namespace ChainShape

variable {p n : Nat} (hs : ChainShape mem qs d p n)
include hs

theorem congr {mem' : GuestMemory} (hent : ∀ a, ChainEntry mem qs d a → mem' a = mem a) :
    ChainShape mem' qs d p n where
  lt := hs.lt
  linked := (linked_congr hent _).mpr hs.linked
  last := by rw [chainDesc_congr hent hs.linked]; exact hs.last
  read k hk := by
    rw [chainDesc_congr hent (hs.linked_of_lt (Nat.lt_trans hk hs.lt))]; exact hs.read k hk
  write k h1 h2 := by rw [chainDesc_congr hent (hs.linked_of_lt h2)]; exact hs.write k h1 h2

theorem queue {qs' : QueueState} (hq : qs'.descAddr = qs.descAddr) : ChainShape mem qs' d p n where
  lt := hs.lt
  linked := (linked_queue hq _).mpr hs.linked
  last := by rw [chainDesc_queue hq]; exact hs.last
  read k hk := by rw [chainDesc_queue hq]; exact hs.read k hk
  write k h1 h2 := by rw [chainDesc_queue hq]; exact hs.write k h1 h2

theorem readAddrs_congr {mem' : GuestMemory} (hent : ∀ a, ChainEntry mem qs d a → mem' a = mem a) :
    readAddrs mem' qs d p = readAddrs mem qs d p :=
  spanAddrs_congr hent fun _ _ hk => hs.linked_of_lt (by have := hs.lt; omega)

theorem writeAddrs_congr {mem' : GuestMemory} (hent : ∀ a, ChainEntry mem qs d a → mem' a = mem a) :
    writeAddrs mem' qs d p n = writeAddrs mem qs d p n :=
  spanAddrs_congr hent fun _ _ hk => hs.linked_of_lt (by have := hs.lt; omega)

end ChainShape

/-! ## `get_desc_rw_size` -/

/-- `size += desc.len` is exact while the sum stays below `2^31`. -/
theorem addLen_eq {size : Int} {len : U32} (h0 : 0 ≤ size) (h : size + len.toNat < 2 ^ 31) :
    addLen size len = size + len.toNat := by
  rw [addLen, BitVec.toInt_eq_toNat_cond, BitVec.toNat_add, toNat_toUInt32 h0 (by omega)]
  split <;> omega

section Sizes

variable {p n : Nat} (hs : ChainShape mem qs d p n)
include hs

theorem writeSizeLoop_shape : ∀ fuel j (ws : Int), p ≤ j → j < n → n ≤ j + fuel → 0 ≤ ws →
    ws + (spanAddrs mem qs d j (n - j)).length < 2 ^ 31 →
    writeSizeLoop mem qs fuel (chainDesc mem qs d j) ws =
      .done (some (ws + (spanAddrs mem qs d j (n - j)).length)) := by
  intro fuel
  induction fuel with
  | zero => intro j _ _ hj hfuel; omega
  | succ fuel ih =>
    intro j ws hpj hj hfuel h0 hlt
    rw [spanAddrs_of_lt hj, List.length_append, VirtioDesc.length_addrs] at hlt ⊢
    rw [writeSizeLoop, if_neg (by simp [hs.isWrite_of_le hpj hj])]
    dsimp only
    rw [addLen_eq h0 (by omega)]
    by_cases hlast : j + 1 = n
    · subst hlast
      have hl := hs.last
      rw [Nat.add_sub_cancel] at hl
      rw [if_pos (by simp [hl]), Nat.sub_self, spanAddrs, List.length_nil, Nat.add_zero]
    · rw [if_neg (by simp [hs.hasNext_of_lt (show j + 1 < n by omega)]), ← chainDesc_succ,
        ih (j + 1) _ (by omega) (by omega) (by omega) (by omega) (by omega)]
      congr 2
      omega

theorem readSizeLoop_shape (hw : (writeAddrs mem qs d p n).length < 2 ^ 31) :
    ∀ fuel j (rs : Int), j ≤ p → n ≤ j + fuel → 0 ≤ rs →
    rs + (spanAddrs mem qs d j (p - j)).length < 2 ^ 31 →
    readSizeLoop mem qs fuel (chainDesc mem qs d j) rs =
      .done (some (rs + (spanAddrs mem qs d j (p - j)).length, (writeAddrs mem qs d p n).length)) := by
  intro fuel
  induction fuel with
  | zero => intro j _ hj hfuel; have := hs.lt; omega
  | succ fuel ih =>
    intro j rs hj hfuel h0 hlt
    by_cases hjp : j = p
    · subst hjp
      rw [readSizeLoop, if_pos (hs.isWrite_of_le (Nat.le_refl j) hs.lt),
        writeSizeLoop_shape hs (fuel + 1) j 0 (Nat.le_refl j) hs.lt hfuel (Int.le_refl 0)
          (by rw [Int.zero_add]; exact Int.ofNat_lt.mpr hw)]
      simp [Nat.sub_self, spanAddrs, writeAddrs]
    · have hjp : j < p := by omega
      rw [spanAddrs_of_lt hjp, List.length_append, VirtioDesc.length_addrs] at hlt ⊢
      rw [readSizeLoop, if_neg (by simp [hs.isWrite_of_lt hjp])]
      dsimp only
      rw [addLen_eq h0 (by omega), if_neg (by simp [hs.hasNext_of_lt (show j + 1 < n by
          have := hs.lt; omega)]), ← chainDesc_succ,
        ih (j + 1) _ (by omega) (by omega) (by omega) (by omega)]
      congr 3
      omega

/-- On a chain of the usual shape whose readable and writable parts are each shorter than
`2^31` bytes, `get_desc_rw_size` returns their sizes once its fuel covers the chain. -/
theorem getDescRwSize_shape {fuel : Nat} (hfuel : n ≤ fuel)
    (hr : (readAddrs mem qs d p).length < 2 ^ 31) (hw : (writeAddrs mem qs d p n).length < 2 ^ 31) :
    getDescRwSize fuel mem qs d =
      .done (some ((readAddrs mem qs d p).length, (writeAddrs mem qs d p n).length)) := by
  have h := readSizeLoop_shape hs hw fuel 0 0 (Nat.zero_le p) (by omega) (Int.le_refl 0)
    (by rw [Int.zero_add, Nat.sub_zero]; exact Int.ofNat_lt.mpr hr)
  rw [chainDesc_zero, Nat.sub_zero, Int.zero_add] at h
  exact h

end Sizes

/-! ## One pass of the copy -/

/-- What a copy along the guest addresses `as` does: to the queue, the buffer's bytes from
`cursor` on are stored at `as`; from the queue, the bytes at `as` are written into the buffer
from `cursor` on. -/
def xfer (toQueue : Bool) (mem : GuestMemory) (buf : HostBuffer) (cursor : Nat) (as : List U64) :
    GuestMemory × HostBuffer :=
  if toQueue then (storeAt mem as (buf.slice cursor as.length), buf)
  else (mem, buf.overwrite cursor (loadAt mem as))

/-- A copy along two address lists is the copy along the first, then along the second. -/
theorem xfer_append (toQueue : Bool) (mem : GuestMemory) (buf : HostBuffer) (cursor : Nat)
    (as bs : List U64) :
    xfer toQueue mem buf cursor (as ++ bs) =
      xfer toQueue (xfer toQueue mem buf cursor as).1 (xfer toQueue mem buf cursor as).2
        (cursor + as.length) bs := by
  cases toQueue
  · simp only [xfer, Bool.false_eq_true, ↓reduceIte, loadAt, List.map_append,
      HostBuffer.overwrite_append, List.length_map]
  · simp only [xfer, ↓reduceIte, List.length_append, HostBuffer.slice_add]
    rw [storeAt_append _ _ _ _ _ (HostBuffer.length_slice _ _ _).symm]

@[simp] theorem size_xfer (toQueue : Bool) (mem : GuestMemory) (buf : HostBuffer) (cursor : Nat)
    (as : List U64) : (xfer toQueue mem buf cursor as).2.size = buf.size := by
  cases toQueue <;> simp [xfer]

/-- A piece of the copy that stays inside the buffer moves the `l` bytes from `addr`. -/
theorem transfer_eq (toQueue : Bool) (mem : GuestMemory) (buf : HostBuffer) {cursor l : Nat}
    (addr : U64) (hb : cursor + l ≤ buf.size) :
    transfer toQueue mem buf cursor addr l = .done (xfer toQueue mem buf cursor (addrsFrom addr l)) := by
  have hin : 0 ≤ (cursor : Int) ∧ (cursor : Int) + l ≤ buf.size := ⟨Int.ofNat_nonneg _, by omega⟩
  cases toQueue
  · rw [transfer, if_neg Bool.false_ne_true, virtioMemcpyFromRam_eq, HostBuffer.writeList_eq,
      if_pos (.inr (by simpa using hin))]
    simp [xfer, bytesAt_eq_loadAt]
  · rw [transfer, if_pos rfl, virtioMemcpyToRam_eq, HostBuffer.readList_eq, if_pos (.inr hin)]
    simp [xfer, storeBytes_eq_storeAt]

/-- The length of a pass, `min_int(count, desc.len - offset)`, for an offset inside a
descriptor shorter than `2^31`. -/
theorem piece_eq (c : Nat) {o : Nat} {len : U32} (hle : o ≤ len.toNat) (hlen : len.toNat < 2 ^ 31) :
    min (c : Int) (len - toUInt32 o).toInt = (min c (len.toNat - o) : Nat) := by
  have hsub : (len - toUInt32 o).toNat = len.toNat - o := by
    rw [BitVec.toNat_sub, toNat_toUInt32 (Int.ofNat_nonneg o) (by omega)]
    simp only [Int.toNat_ofNat]
    omega
  rw [BitVec.toInt_eq_toNat_cond, hsub, if_pos (by omega)]
  omega

/-- A pass that copies from the queue leaves guest memory alone, and one that copies to it
stores only along its addresses. -/
theorem xfer_fst_apply {toQueue : Bool} {mem : GuestMemory} {buf : HostBuffer} {cursor : Nat}
    {as : List U64} {a : U64} (h : toQueue = true → a ∉ as) : (xfer toQueue mem buf cursor as).1 a = mem a := by
  cases toQueue
  · rfl
  · exact storeAt_outside _ _ _ (h rfl)

/-! ## The walks of the copy -/

section Copy

variable {toQueue : Bool} {flag : U16}
  (hsep : toQueue = true → ∀ a, ChainBuf mem qs d flag a → ¬ ChainEntry mem qs d a)
  {e : Nat} (hlink : Linked mem qs d (e - 1))
include hsep hlink

/-- The copy loop from offset `o` of the `j`-th descriptor, over descriptors of its direction
up to the `e`-th and a memory that agrees with `mem` on the chain's entries, moves the `c`
bytes of the stretch's addresses from `o` on. -/
theorem copyLoop_shape : ∀ fuel j (cur : GuestMemory) (buf : HostBuffer) (o c cursor : Nat),
    (∀ k, j ≤ k → k < e → (chainDesc mem qs d k).flags &&& vringDescFWrite = flag) →
    (∀ a, ChainEntry mem qs d a → cur a = mem a) →
    j < e → e ≤ j + fuel → o ≤ (chainDesc mem qs d j).len.toNat → 0 < c →
    o + c ≤ (spanAddrs mem qs d j (e - j)).length →
    (spanAddrs mem qs d j (e - j)).length < 2 ^ 31 → cursor + c ≤ buf.size →
    copyLoop toQueue qs flag fuel cur buf (chainDesc mem qs d j) o c cursor =
      .done (0, xfer toQueue cur buf cursor (((spanAddrs mem qs d j (e - j)).drop o).take c)) := by
  intro fuel
  induction fuel with
  | zero => intro j _ _ _ _ _ _ _ hj hfuel; omega
  | succ fuel ih =>
    intro j cur buf o c cursor hflag hent hj hfuel hle hc hoc hspan hbuf
    rw [spanAddrs_of_lt hj] at hoc hspan ⊢
    rw [List.length_append, VirtioDesc.length_addrs] at hoc hspan
    have hpiece : addrsFrom ((chainDesc mem qs d j).addr + BitVec.ofInt 64 (o : Int))
        (min c ((chainDesc mem qs d j).len.toNat - o)) =
        ((chainDesc mem qs d j).addrs.drop o).take (min c ((chainDesc mem qs d j).len.toNat - o)) := by
      rw [VirtioDesc.addrs, drop_addrsFrom _ hle, take_addrsFrom _ (Nat.min_le_right _ _),
        BitVec.ofInt_natCast]
    rw [copyLoop_succ_eq, piece_eq c hle (by omega), transfer_eq _ _ _ _ (by omega), hpiece,
      Outcome.done_bind, List.drop_append_of_le_length (by simp only [VirtioDesc.length_addrs]; omega)]
    have hlen : ((chainDesc mem qs d j).addrs.drop o).length = (chainDesc mem qs d j).len.toNat - o := by
      simp
    by_cases hfit : c ≤ (chainDesc mem qs d j).len.toNat - o
    · rw [Nat.min_eq_left hfit, cSub, if_pos (by unfold IsInt32; omega), Outcome.done_bind,
        if_pos (by omega), List.take_append_of_le_length (by omega)]
    · have hmin := Nat.min_eq_right (Nat.le_of_not_le hfit)
      have hrest : 0 < (spanAddrs mem qs d (j + 1) (e - (j + 1))).length := by omega
      have hje : j + 1 < e := Nat.lt_of_not_le fun h => by
        rw [Nat.sub_eq_zero_of_le h, spanAddrs] at hrest
        exact Nat.lt_irrefl 0 hrest
      have hn := hlink j (by omega)
      have hent1 : ∀ a, ChainEntry mem qs d a →
          (xfer toQueue cur buf cursor ((chainDesc mem qs d j).addrs.drop o)).1 a = mem a :=
        fun a ha => (xfer_fst_apply fun hq hin => hsep hq a ⟨j, hlink.mono (by omega),
          hflag j (Nat.le_refl j) hj, by
            rw [← mem_addrsFrom]; exact List.mem_of_mem_drop hin⟩ ha).trans (hent a ha)
      have ih := ih (j + 1)
        (xfer toQueue cur buf cursor ((chainDesc mem qs d j).addrs.drop o)).1
        (xfer toQueue cur buf cursor ((chainDesc mem qs d j).addrs.drop o)).2 0
        (c - ((chainDesc mem qs d j).len.toNat - o)) (cursor + ((chainDesc mem qs d j).len.toNat - o))
        (fun k hk hk' => hflag k (by omega) hk') hent1 hje (by omega) (Nat.zero_le _) (by omega)
        (by omega) (by omega) (by rw [size_xfer]; omega)
      rw [Int.ofNat_zero, List.drop_zero] at ih
      have htake : ((chainDesc mem qs d j).addrs.drop o ++
          spanAddrs mem qs d (j + 1) (e - (j + 1))).take c = (chainDesc mem qs d j).addrs.drop o ++
          (spanAddrs mem qs d (j + 1) (e - (j + 1))).take (c - ((chainDesc mem qs d j).len.toNat - o)) := by
        rw [List.take_append_eq_append_take, List.take_of_length_le (by omega), hlen]
      have hcount : (c : Int) - ((chainDesc mem qs d j).len.toNat - o : Nat) =
          ((c - ((chainDesc mem qs d j).len.toNat - o) : Nat) : Int) := by omega
      have hcursor : (cursor : Int) + ((chainDesc mem qs d j).len.toNat - o : Nat) =
          ((cursor + ((chainDesc mem qs d j).len.toNat - o) : Nat) : Int) := by omega
      rw [hmin, List.take_of_length_le (Nat.le_of_eq hlen), cSub, if_pos (by unfold IsInt32; omega),
        Outcome.done_bind, if_neg (by omega), cAdd, if_pos (by unfold IsInt32; omega),
        Outcome.done_bind, if_neg (by simp [hn]), getDesc_next_of_agree hent1 (hlink.mono (by omega)) hn,
        if_neg (not_not_intro (hflag (j + 1) (by omega) hje)), hcount, hcursor, ih, htake, xfer_append,
        hlen]

end Copy

/-- The seek of an offset inside a stretch of descriptors of its direction stops on the
descriptor that holds it, at the offset of the same byte there. -/
theorem seekLoop_shape {flag : U16} {e : Nat} (hlink : Linked mem qs d (e - 1)) :
    ∀ fuel j (o : Nat), (∀ k, j ≤ k → k < e → (chainDesc mem qs d k).flags &&& vringDescFWrite = flag) →
    j < e → e ≤ j + fuel → o < (spanAddrs mem qs d j (e - j)).length →
    (spanAddrs mem qs d j (e - j)).length < 2 ^ 31 →
    ∃ j' o', j ≤ j' ∧ j' < e ∧ o' ≤ o ∧ o' < (chainDesc mem qs d j').len.toNat ∧
      (spanAddrs mem qs d j (e - j)).drop o = (spanAddrs mem qs d j' (e - j')).drop o' ∧
      seekLoop mem qs flag fuel (chainDesc mem qs d j) o =
        .done (some (chainDesc mem qs d j', (o' : Int))) := by
  intro fuel
  induction fuel with
  | zero => intro j _ _ hj hfuel; omega
  | succ fuel ih =>
    intro j o hflag hj hfuel ho hspan
    have hsplit : spanAddrs mem qs d j (e - j) =
        (chainDesc mem qs d j).addrs ++ spanAddrs mem qs d (j + 1) (e - (j + 1)) := spanAddrs_of_lt hj
    rw [hsplit, List.length_append, VirtioDesc.length_addrs] at ho hspan
    have hu := toNat_toUInt32 (Int.ofNat_nonneg o) (show (o : Int) < 2 ^ 32 by omega)
    rw [seekLoop, if_neg (not_not_intro (hflag j (Nat.le_refl j) hj))]
    by_cases hlt : o < (chainDesc mem qs d j).len.toNat
    · rw [if_pos (by rw [BitVec.lt_def, hu]; exact hlt)]
      exact ⟨j, o, Nat.le_refl j, hj, Nat.le_refl o, hlt, rfl, rfl⟩
    · have hje : j + 1 < e := Nat.lt_of_not_le fun h => by
        rw [Nat.sub_eq_zero_of_le h, spanAddrs] at ho
        simp at ho
        omega
      have hsub : (toUInt32 o - (chainDesc mem qs d j).len).toInt =
          ((o - (chainDesc mem qs d j).len.toNat : Nat) : Int) := by
        rw [BitVec.toInt_eq_toNat_cond, BitVec.toNat_sub, hu]
        split <;> omega
      rw [if_neg (by rw [BitVec.lt_def, hu]; simpa using hlt), if_neg (by simp [hlink j (by omega)]),
        hsub, ← chainDesc_succ]
      obtain ⟨j', o', h1, h2, h3, h4, h5, h6⟩ := ih (j + 1)
        (o - (chainDesc mem qs d j).len.toNat) (fun k hk hk' => hflag k (by omega) hk') hje
        (by omega) (by omega) (by omega)
      refine ⟨j', o', by omega, h2, by omega, h4, ?_, h6⟩
      rw [hsplit, List.drop_append_eq_append_drop,
        List.drop_eq_nil_of_le (by simp only [VirtioDesc.length_addrs]; omega), List.nil_append,
        VirtioDesc.length_addrs, h5]

/-- The first loop of `memcpy_to_queue` finds the first device-writable descriptor. -/
theorem findWriteLoop_shape {p n : Nat} (hs : ChainShape mem qs d p n) :
    ∀ fuel j, j ≤ p → p < j + fuel →
    findWriteLoop mem qs fuel (chainDesc mem qs d j) = .done (some (chainDesc mem qs d p))
  | 0, _, _, h => absurd h (by omega)
  | fuel + 1, j, hj, hfuel => by
    rw [findWriteLoop]
    by_cases hjp : j = p
    · subst hjp
      rw [if_pos (show (chainDesc mem qs d j).flags &&& vringDescFWrite = fWriteFlag true from
        hs.write j (Nat.le_refl j) hs.lt)]
    · rw [if_neg (by rw [hs.read j (by omega)]; decide),
        if_neg (by simp [hs.hasNext_of_lt (show j + 1 < n by have := hs.lt; omega)]), ← chainDesc_succ]
      exact findWriteLoop_shape hs fuel (j + 1) (by omega) (by omega)

/-! ## `memcpy_to_from_queue` -/

@[simp] theorem fWriteFlag_false : fWriteFlag false = 0 := rfl

@[simp] theorem fWriteFlag_true : fWriteFlag true = vringDescFWrite := rfl

/-- `memcpy_from_queue` of `c > 0` bytes from offset `o` of the readable part, into a buffer
that holds them, loads those bytes of the readable addresses into it. -/
theorem memcpyFromQueue_shape {p n fuel : Nat} (hs : ChainShape mem qs d p n) (hfuel : n ≤ fuel)
    (buf : HostBuffer) {o c : Nat} (hc : 0 < c) (hoc : o + c ≤ (readAddrs mem qs d p).length)
    (hr : (readAddrs mem qs d p).length < 2 ^ 31) (hbuf : c ≤ buf.size) :
    memcpyFromQueue fuel mem buf qs d o c =
      .done (0, mem, buf.overwrite 0 (loadAt mem (((readAddrs mem qs d p).drop o).take c))) := by
  have hpn := hs.lt
  have hoc' : o + c ≤ (spanAddrs mem qs d 0 (p - 0)).length := hoc
  have hr' : (spanAddrs mem qs d 0 (p - 0)).length < 2 ^ 31 := hr
  have hp : 0 < p := Nat.pos_of_ne_zero fun h => by
    subst h
    simp only [spanAddrs, List.length_nil] at hoc'
    omega
  have hlink : Linked mem qs d (p - 1) := hs.linked.mono (by omega)
  obtain ⟨j', o', -, hj', ho', hol, hdrop, hseek⟩ := seekLoop_shape hlink fuel 0 o
    (fun k _ hk => hs.read k hk) hp (by omega) (by omega) hr'
  have hlen := congrArg List.length hdrop
  simp only [List.length_drop] at hlen
  have h := copyLoop_shape (fun h => absurd h Bool.false_ne_true) hlink fuel j' mem buf o' c 0
    (fun k _ hk => hs.read k hk) (fun _ _ => rfl) hj' (by omega) (Nat.le_of_lt hol) hc (by omega)
    (by omega) (by omega)
  rw [Int.ofNat_zero] at h
  rw [memcpyFromQueue, memcpyToFromQueue_eq _ _ _ _ _ _ _ _ (by omega), if_neg Bool.false_ne_true,
    Outcome.pure_def, Outcome.done_bind, ← chainDesc_zero, fWriteFlag_false]
  dsimp only
  rw [hseek, Outcome.done_bind]
  dsimp only
  rw [h, ← hdrop]
  rfl

/-- `memcpy_to_queue` of `c > 0` bytes of a buffer that holds them stores them along the
first `c` writable addresses, provided the writable buffers are not the chain's entries. -/
theorem memcpyToQueue_shape {p n fuel : Nat} (hs : ChainShape mem qs d p n) (hfuel : n ≤ fuel)
    (hsep : ∀ a ∈ writeAddrs mem qs d p n, ¬ ChainEntry mem qs d a)
    (buf : HostBuffer) {c : Nat} (hc : 0 < c) (hcw : c ≤ (writeAddrs mem qs d p n).length)
    (hw : (writeAddrs mem qs d p n).length < 2 ^ 31) (hbuf : c ≤ buf.size) :
    memcpyToQueue fuel mem qs d 0 buf c =
      .done (0, storeAt mem ((writeAddrs mem qs d p n).take c) (buf.slice 0 c), buf) := by
  have hpn := hs.lt
  have hcw' : c ≤ (spanAddrs mem qs d p (n - p)).length := hcw
  have hw' : (spanAddrs mem qs d p (n - p)).length < 2 ^ 31 := hw
  obtain ⟨j', o', hpj, hj', ho', hol, hdrop, hseek⟩ := seekLoop_shape hs.linked fuel p 0
    (fun k h1 h2 => hs.write k h1 h2) hpn (by omega) (by omega) hw'
  obtain rfl : o' = 0 := Nat.eq_zero_of_le_zero ho'
  have hlen := congrArg List.length hdrop
  simp only [List.length_drop] at hlen
  have h := copyLoop_shape (fun (_ : true = true) a hb => hsep a ((hs.chainBuf_write_iff a).mp hb))
    hs.linked fuel j'
    mem buf 0 c 0 (fun k h1 h2 => hs.write k (by omega) h2) (fun _ _ => rfl) hj' (by omega)
    (Nat.zero_le _) hc (by omega) (by omega) (by omega)
  rw [Int.ofNat_zero] at h hseek
  rw [memcpyToQueue, memcpyToFromQueue_eq _ _ _ _ _ _ _ _ (by omega), if_pos rfl, ← chainDesc_zero,
    fWriteFlag_true,
    findWriteLoop_shape hs fuel 0 (Nat.zero_le p) (by have := hs.lt; omega), Outcome.done_bind]
  dsimp only
  rw [hseek, Outcome.done_bind]
  dsimp only
  rw [h, ← hdrop, List.drop_zero]
  simp only [xfer, ↓reduceIte, List.length_take, Nat.min_eq_left hcw']
  rfl

end SpikeDevices.Virtio
