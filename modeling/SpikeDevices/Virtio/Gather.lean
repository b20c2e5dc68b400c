import SpikeDevices.Virtio.Sizes

/-!
# `memcpy_to_from_queue` on every split chain

On a chain of `n` descriptors that splits into a device-readable prefix of `p` and a
device-writable rest (`RwSplit`), with both summed lengths below `2^31`, `memcpy_from_queue`
of `count` bytes from `offset` returns 0 exactly when `count = 0` or the bytes lie within the
readable prefix, and then loads bytes `[offset, offset + count)` of the readable buffers'
concatenation into the host buffer (`memcpyFromQueue_split`); `memcpy_to_queue` does the
same for the writable rest, storing the buffer there (`memcpyToQueue_split`). The
descriptors may cut the bytes in any way, zero-length descriptors included.

A copy that asks for more than its part of the chain holds returns -1 at one of three
places: the first loop finds no writable descriptor (`findWriteLoop_none`), the seek finds
no descriptor that holds the offset (`seekLoop_past`), or the copy loop uses up the part
before the count (`copyLoop_short`). A copy that fits is the one of `Copy.lean`.
-/

namespace SpikeDevices.Virtio

open GuestMemory

variable {mem : GuestMemory} {qs : QueueState} {d : U16}

theorem spanAddrs_add (j a b : Nat) :
    spanAddrs mem qs d j (a + b) = spanAddrs mem qs d j a ++ spanAddrs mem qs d (j + a) b := by
  induction a generalizing j with
  | zero => simp [spanAddrs]
  | succ a ih =>
    rw [Nat.add_right_comm, spanAddrs, spanAddrs, ih, List.append_assoc,
      show j + 1 + a = j + (a + 1) by omega]

theorem spanLen_of_lt {j e : Nat} (h : j < e) :
    spanLen mem qs d j (e - j) = (chainDesc mem qs d j).len.toNat + spanLen mem qs d (j + 1) (e - (j + 1)) := by
  obtain ⟨m, hm⟩ : ∃ m, e - j = m + 1 := ⟨e - j - 1, by omega⟩
  rw [hm, spanLen, show e - (j + 1) = m by omega]

namespace ChainLength

variable {n : Nat} (hn : ChainLength mem qs d n)
include hn

/-- The walk never gets past the last descriptor. -/
theorem not_linked {k : Nat} (hk : n ≤ k) : ¬ Linked mem qs d k := fun h => by
  have hl := hn.last
  rw [h (n - 1) (by have := hn.pos; omega)] at hl
  cases hl

/-- A descriptor of the chain with NEXT is not its last. -/
theorem succ_lt_of_hasNext {k : Nat} (hk : k < n) (h : (chainDesc mem qs d k).hasNext = true) :
    k + 1 < n := by
  refine Nat.lt_of_le_of_ne hk fun he => ?_
  rw [show k = n - 1 by omega, hn.last] at h
  cases h

/-- The chain's entries are those of its `n` descriptors. -/
theorem chainEntry_iff (a : U64) :
    ChainEntry mem qs d a ↔ ∃ k < n, InRegion (descEntryAddr qs (chainIdx mem qs d k)) 16 a :=
  ⟨fun ⟨k, hk, ha⟩ => ⟨k, Nat.lt_of_not_le fun h => hn.not_linked h hk, ha⟩,
    fun ⟨k, hk, ha⟩ => ⟨k, hn.linked_of_lt hk, ha⟩⟩

end ChainLength

namespace RwSplit

variable {p n : Nat} (hs : RwSplit mem qs d p n)
include hs

theorem flags_read {k : Nat} (hk : k < p) : (chainDesc mem qs d k).flags &&& vringDescFWrite = 0 :=
  VirtioDesc.isWrite_eq_false.mp (hs.read k hk)

theorem flags_write {k : Nat} (h1 : p ≤ k) (h2 : k < n) :
    (chainDesc mem qs d k).flags &&& vringDescFWrite = vringDescFWrite :=
  VirtioDesc.isWrite_eq_true.mp (hs.write k h1 h2)

/-- The chain's device-writable buffers lie among its writable addresses. -/
theorem mem_writeAddrs (hn : ChainLength mem qs d n) {a : U64} (h : ChainBuf mem qs d vringDescFWrite a) :
    a ∈ writeAddrs mem qs d p n := by
  obtain ⟨k, hk, hf, ha⟩ := h
  have hkn : k < n := Nat.lt_of_not_le fun h => hn.not_linked h hk
  have hpk : p ≤ k := Nat.le_of_not_lt fun h => by
    rw [hs.flags_read h] at hf
    cases hf
  exact mem_spanAddrs.mpr ⟨k, hpk, by omega, ha⟩

end RwSplit

/-! ## The walks that find nothing -/

section Walks

variable {n : Nat} (hn : ChainLength mem qs d n)
include hn

/-- The first loop of `memcpy_to_queue` finds the first device-writable descriptor. -/
theorem findWriteLoop_split {p : Nat} (hs : RwSplit mem qs d p n) (hp : p < n) :
    ∀ fuel j, j ≤ p → p < j + fuel →
    findWriteLoop mem qs fuel (chainDesc mem qs d j) = .done (some (chainDesc mem qs d p))
  | 0, _, _, h => absurd h (by omega)
  | fuel + 1, j, hj, hfuel => by
    rw [findWriteLoop]
    by_cases hjp : j = p
    · subst hjp
      rw [if_pos (show (chainDesc mem qs d j).flags &&& vringDescFWrite = fWriteFlag true from
        hs.flags_write (Nat.le_refl j) hp)]
    · rw [if_neg (by rw [hs.flags_read (by omega)]; decide),
        if_neg (by simp [hn.hasNext_of_lt (show j + 1 < n by omega)]), ← chainDesc_succ]
      exact findWriteLoop_split hs hp fuel (j + 1) (by omega) (by omega)

/-- On a chain with no device-writable descriptor, the first loop of `memcpy_to_queue` walks
to the end and finds none. -/
theorem findWriteLoop_none (hs : RwSplit mem qs d n n) :
    ∀ fuel j, j < n → n ≤ j + fuel → findWriteLoop mem qs fuel (chainDesc mem qs d j) = .done none
  | 0, _, _, h => absurd h (by omega)
  | fuel + 1, j, hj, hfuel => by
    rw [findWriteLoop, if_neg (by rw [hs.flags_read hj]; decide)]
    by_cases hjn : j + 1 < n
    · rw [if_neg (by simp [hn.hasNext_of_lt hjn]), ← chainDesc_succ]
      exact findWriteLoop_none hs fuel (j + 1) hjn (by omega)
    · rw [if_pos (by simp [show j = n - 1 by omega, hn.last])]

/-- The seek of an offset at or past the end of a stretch of descriptors of its direction
finds nothing, when the stretch ends the chain or is followed by a descriptor of the other
direction. -/
theorem seekLoop_past {flag : U16} {e : Nat} (he : e ≤ n)
    (hend : e < n → (chainDesc mem qs d e).flags &&& vringDescFWrite ≠ flag) :
    ∀ fuel j (o : Nat), (∀ k, j ≤ k → k < e → (chainDesc mem qs d k).flags &&& vringDescFWrite = flag) →
    j < n → j ≤ e → n ≤ j + fuel → spanLen mem qs d j (e - j) ≤ o → o < 2 ^ 31 →
    seekLoop mem qs flag fuel (chainDesc mem qs d j) o = .done none := by
  intro fuel
  induction fuel with
  | zero => intro j _ _ hj _ hfuel; omega
  | succ fuel ih =>
    intro j o hflag hj hje hfuel ho ho31
    rw [seekLoop]
    by_cases hje' : j = e
    · subst hje'
      rw [if_pos (hend hj)]
    have hlt : j < e := by omega
    rw [spanLen_of_lt hlt] at ho
    have hu := toNat_toUInt32 (Int.ofNat_nonneg o) (show (o : Int) < 2 ^ 32 by omega)
    have hsub : (toUInt32 o - (chainDesc mem qs d j).len).toInt =
        ((o - (chainDesc mem qs d j).len.toNat : Nat) : Int) := by
      rw [BitVec.toInt_eq_toNat_cond, BitVec.toNat_sub, hu]
      split <;> omega
    rw [if_neg (not_not_intro (hflag j (Nat.le_refl j) hlt)),
      if_neg (by rw [BitVec.lt_def, hu]; simp only [Int.toNat_ofNat]; omega)]
    cases hnext : (chainDesc mem qs d j).hasNext
    · rfl
    · rw [if_neg (by simp), hsub, ← chainDesc_succ]
      exact ih (j + 1) _ (fun k hk hk' => hflag k (by omega) hk')
        (hn.succ_lt_of_hasNext hj hnext) hlt (by omega) (by omega) (by omega)

end Walks

/-! ## A copy that outruns its part of the chain -/

section Short

variable {toQueue : Bool} {flag : U16} {n : Nat} (hn : ChainLength mem qs d n)
  (hsep : toQueue = true → ∀ a, ChainBuf mem qs d flag a → ¬ ChainEntry mem qs d a)
  {e : Nat} (he : e ≤ n) (hend : e < n → (chainDesc mem qs d e).flags &&& vringDescFWrite ≠ flag)
include hn hsep he hend

/-- The copy loop from offset `o` of the `j`-th descriptor, asked for more bytes than the
stretch of its direction holds from there, moves the rest of the stretch and returns -1,
when the stretch ends the chain or is followed by a descriptor of the other direction. -/
theorem copyLoop_short : ∀ fuel j (cur : GuestMemory) (buf : HostBuffer) (o c cursor : Nat),
    (∀ k, j ≤ k → k < e → (chainDesc mem qs d k).flags &&& vringDescFWrite = flag) →
    (∀ a, ChainEntry mem qs d a → cur a = mem a) →
    j < e → n ≤ j + fuel → o ≤ (chainDesc mem qs d j).len.toNat →
    spanLen mem qs d j (e - j) < o + c → spanLen mem qs d j (e - j) < 2 ^ 31 → c < 2 ^ 31 →
    cursor + c ≤ buf.size →
    ∃ res, copyLoop toQueue qs flag fuel cur buf (chainDesc mem qs d j) o c cursor = .done (-1, res) := by
  intro fuel
  induction fuel with
  | zero => intro j _ _ _ _ _ _ _ hj hfuel; omega
  | succ fuel ih =>
    intro j cur buf o c cursor hflag hent hj hfuel hle hoc hspan hc hbuf
    rw [spanLen_of_lt hj] at hoc hspan
    have hpiece : addrsFrom ((chainDesc mem qs d j).addr + BitVec.ofInt 64 (o : Int))
        ((chainDesc mem qs d j).len.toNat - o) = (chainDesc mem qs d j).addrs.drop o := by
      rw [VirtioDesc.addrs, drop_addrsFrom _ hle, BitVec.ofInt_natCast]
    have hlink : Linked mem qs d j := hn.linked_of_lt (by omega)
    have hent1 : ∀ a, ChainEntry mem qs d a →
        (xfer toQueue cur buf cursor ((chainDesc mem qs d j).addrs.drop o)).1 a = mem a :=
      fun a ha => (xfer_fst_apply fun hq hin => hsep hq a ⟨j, hlink, hflag j (Nat.le_refl j) hj, by
        rw [← mem_addrsFrom]; exact List.mem_of_mem_drop hin⟩ ha).trans (hent a ha)
    have hcount : (c : Int) - ((chainDesc mem qs d j).len.toNat - o : Nat) =
        ((c - ((chainDesc mem qs d j).len.toNat - o) : Nat) : Int) := by omega
    have hcursor : (cursor : Int) + ((chainDesc mem qs d j).len.toNat - o : Nat) =
        ((cursor + ((chainDesc mem qs d j).len.toNat - o) : Nat) : Int) := by omega
    rw [copyLoop_succ_eq, piece_eq c hle (by omega), Nat.min_eq_right (by omega),
      transfer_eq _ _ _ _ (by omega), hpiece, Outcome.done_bind, cSub, if_pos (by unfold IsInt32; omega),
      Outcome.done_bind, if_neg (by omega), cAdd, if_pos (by unfold IsInt32; omega), Outcome.done_bind]
    cases hnext : (chainDesc mem qs d j).hasNext
    · exact ⟨_, rfl⟩
    rw [if_neg (by simp), getDesc_next_of_agree hent1 hlink hnext]
    by_cases hje : j + 1 < e
    · rw [if_neg (not_not_intro (hflag (j + 1) (by omega) hje)), hcount, hcursor]
      exact ih (j + 1) _ _ 0 _ _ (fun k hk hk' => hflag k (by omega) hk') hent1 hje
        (by omega) (Nat.zero_le _) (by omega) (by omega) (by omega) (by rw [size_xfer]; omega)
    · have hlast := hn.succ_lt_of_hasNext (by omega) hnext
      rw [show j + 1 = e by omega] at hlast ⊢
      rw [if_pos (hend hlast)]
      exact ⟨_, rfl⟩

end Short

/-! ## The seek and the copy over a stretch of one direction -/

/-- Once the first loop has found the `b`-th descriptor, which begins a stretch `[b, e)` of
descriptors of the copy's direction that ends the chain or is followed by one of the other
direction, `memcpy_to_from_queue` of `c > 0` bytes from offset `o` moves bytes
`[o, o + c)` of the stretch's addresses and returns 0 when they lie in the stretch, and
returns -1 otherwise. -/
theorem memcpyToFromQueue_stretch {toQueue : Bool} {n b e fuel : Nat} (hn : ChainLength mem qs d n)
    (hsep : toQueue = true → ∀ a, ChainBuf mem qs d (fWriteFlag toQueue) a → ¬ ChainEntry mem qs d a)
    (hbe : b ≤ e) (he : e ≤ n) (hb : b < n)
    (hflag : ∀ k, b ≤ k → k < e → (chainDesc mem qs d k).flags &&& vringDescFWrite = fWriteFlag toQueue)
    (hend : e < n → (chainDesc mem qs d e).flags &&& vringDescFWrite ≠ fWriteFlag toQueue)
    (hfuel : n ≤ fuel) (hspan : spanLen mem qs d b (e - b) < 2 ^ 31)
    (hfirst : (if toQueue then findWriteLoop mem qs fuel (getDesc mem qs d)
      else pure (some (getDesc mem qs d))) = .done (some (chainDesc mem qs d b)))
    (buf : HostBuffer) {o c : Nat} (hc0 : 0 < c) (ho : o < 2 ^ 31) (hc : c < 2 ^ 31) (hbuf : c ≤ buf.size) :
    (o + c ≤ spanLen mem qs d b (e - b) → memcpyToFromQueue fuel mem buf qs d o c toQueue =
      .done (0, xfer toQueue mem buf 0 (((spanAddrs mem qs d b (e - b)).drop o).take c))) ∧
    (spanLen mem qs d b (e - b) < o + c → ∃ res, memcpyToFromQueue fuel mem buf qs d o c toQueue = .done (-1, res)) := by
  have hlen := @length_spanAddrs mem qs d b (e - b)
  rw [memcpyToFromQueue_eq _ _ _ _ _ _ _ _ (by omega), hfirst, Outcome.done_bind]
  dsimp only
  by_cases hpast : spanLen mem qs d b (e - b) ≤ o
  · refine ⟨fun h => absurd h (by omega), fun _ => ?_⟩
    rw [seekLoop_past hn he hend fuel b o hflag hb hbe (by omega) hpast ho, Outcome.done_bind]
    exact ⟨_, rfl⟩
  -- the offset lies in the stretch: the seek stops on the descriptor that holds it
  have hbe' : b < e := Nat.lt_of_le_of_ne hbe fun h => by
    subst h
    rw [Nat.sub_self, spanLen] at hpast
    omega
  have hlink : Linked mem qs d (e - 1) := hn.linked_of_lt (by omega)
  obtain ⟨j', o', hbj, hj', hoo, hol, hdrop, hseek⟩ := seekLoop_shape hlink fuel b o hflag hbe'
    (by omega) (by omega) (by omega)
  have hl := congrArg List.length hdrop
  simp only [List.length_drop, length_spanAddrs] at hl
  have hsj := @spanLen_of_lt mem qs d _ _ hj'
  rw [hseek, Outcome.done_bind]
  dsimp only
  refine ⟨fun hfit => ?_, fun hshort => ?_⟩
  · have h := copyLoop_shape hsep hlink fuel j' mem buf o' c 0 (fun k h1 h2 => hflag k (by omega) h2)
      (fun _ _ => rfl) hj' (by omega) (Nat.le_of_lt hol) hc0 (by rw [length_spanAddrs]; omega)
      (by rw [length_spanAddrs]; omega) (by omega)
    rw [Int.ofNat_zero] at h
    rw [h, ← hdrop]
  · obtain ⟨res, h⟩ := copyLoop_short hn hsep he hend fuel j' mem buf o' c 0
      (fun k h1 h2 => hflag k (by omega) h2) (fun _ _ => rfl) hj' (by omega) (Nat.le_of_lt hol)
      (by omega) (by omega) hc (by omega)
    rw [Int.ofNat_zero] at h
    exact ⟨res, h⟩

/-! ## `memcpy_from_queue` and `memcpy_to_queue` -/

section Memcpy

variable {n p fuel : Nat} (hn : ChainLength mem qs d n) (hs : RwSplit mem qs d p n) (hfuel : n ≤ fuel)
  (buf : HostBuffer) {o c : Nat} (ho : o < 2 ^ 31) (hc : c < 2 ^ 31) (hbuf : c ≤ buf.size)
include hn hs hfuel ho hc hbuf

/-- `memcpy_from_queue` of `c` bytes from offset `o` returns 0 exactly when `c = 0` or the
bytes lie in the readable prefix, and then has loaded them into the buffer; it returns -1
otherwise, and never writes guest memory. -/
theorem memcpyFromQueue_split (hR : spanLen mem qs d 0 p < 2 ^ 31) :
    ∃ r buf', memcpyFromQueue fuel mem buf qs d o c = .done (r, mem, buf') ∧
      (r = 0 ↔ c = 0 ∨ o + c ≤ spanLen mem qs d 0 p) ∧ (r = 0 ∨ r = -1) ∧
      (r = 0 → buf' = buf.overwrite 0 (loadAt mem (((readAddrs mem qs d p).drop o).take c))) := by
  rcases Nat.eq_zero_or_pos c with rfl | hc0
  · exact ⟨0, buf, rfl, by simp, .inl rfl, fun _ => rfl⟩
  have hst := @memcpyToFromQueue_stretch mem qs d false n 0 p fuel hn (fun h => absurd h Bool.false_ne_true)
    (Nat.zero_le p) hs.le hn.pos (fun k _ hk => hs.flags_read hk)
    (fun hp => by rw [hs.flags_write (Nat.le_refl p) hp]; decide) hfuel hR rfl buf o c hc0 ho hc hbuf
  simp only [Nat.sub_zero] at hst
  by_cases hfit : o + c ≤ spanLen mem qs d 0 p
  · exact ⟨0, _, hst.1 hfit, ⟨fun _ => .inr hfit, fun _ => rfl⟩, .inl rfl, fun _ => rfl⟩
  obtain ⟨⟨mem', buf'⟩, h⟩ := hst.2 (by omega)
  obtain rfl : mem' = mem := funext fun a => memcpyToFromQueue_frame (fun h => absurd h Bool.false_ne_true)
    (Int.ofNat_nonneg o) (by omega) h a (fun h => absurd h Bool.false_ne_true)
  exact ⟨-1, buf', h, ⟨fun h => absurd h (by decide), fun h => by omega⟩, .inr rfl,
    fun h => absurd h (by decide)⟩

/-- `memcpy_to_queue` of `c` bytes to offset `o` returns 0 exactly when `c = 0` or the bytes
lie in the writable rest, and then has stored the buffer's first `c` bytes along them, where
they read back when the writable buffers are pairwise disjoint; it returns -1 otherwise. -/
theorem memcpyToQueue_split (hW : spanLen mem qs d p (n - p) < 2 ^ 31)
    (hsep : ∀ a ∈ writeAddrs mem qs d p n, ¬ ChainEntry mem qs d a) (hnd : (writeAddrs mem qs d p n).Nodup) :
    ∃ r mem' buf', memcpyToQueue fuel mem qs d o buf c = .done (r, mem', buf') ∧
      (r = 0 ↔ c = 0 ∨ o + c ≤ spanLen mem qs d p (n - p)) ∧ (r = 0 ∨ r = -1) ∧
      (r = 0 → mem' = storeAt mem (((writeAddrs mem qs d p n).drop o).take c) (buf.slice 0 c) ∧
        loadAt mem' (((writeAddrs mem qs d p n).drop o).take c) = buf.slice 0 c ∧ buf' = buf) := by
  rcases Nat.eq_zero_or_pos c with rfl | hc0
  · exact ⟨0, mem, buf, rfl, by simp, .inl rfl, fun _ => ⟨rfl, rfl, rfl⟩⟩
  rcases Nat.lt_or_ge p n with hp | hp
  · have hst := @memcpyToFromQueue_stretch mem qs d true n p n fuel hn (fun _ a hb => hsep a (hs.mem_writeAddrs hn hb))
      hs.le (Nat.le_refl n) hp (fun k h1 h2 => hs.flags_write h1 h2) (fun h => absurd h (Nat.lt_irrefl n))
      hfuel hW (by rw [if_pos rfl, ← chainDesc_zero]; exact findWriteLoop_split hn hs hp fuel 0 (Nat.zero_le p) (by omega))
      buf o c hc0 ho hc hbuf
    by_cases hfit : o + c ≤ spanLen mem qs d p (n - p)
    · have hlen : (((spanAddrs mem qs d p (n - p)).drop o).take c).length = c := by
        rw [List.length_take, List.length_drop, length_spanAddrs]
        omega
      refine ⟨0, _, _, hst.1 hfit, ⟨fun _ => .inr hfit, fun _ => rfl⟩, .inl rfl, fun _ => ?_⟩
      simp only [xfer, ↓reduceIte, writeAddrs, hlen, and_true, true_and]
      exact loadAt_storeAt _ (hnd.sublist ((List.take_sublist _ _).trans (List.drop_sublist _ _)))
        (by rw [hlen, HostBuffer.length_slice])
    · obtain ⟨⟨mem', buf'⟩, h⟩ := hst.2 (by omega)
      exact ⟨-1, mem', buf', h, ⟨fun h => absurd h (by decide), fun h => by omega⟩, .inr rfl,
        fun h => absurd h (by decide)⟩
  -- no writable descriptor: the first loop finds none
  obtain rfl : p = n := Nat.le_antisymm hs.le hp
  refine ⟨-1, mem, buf, ?_, ⟨fun h => absurd h (by decide), fun h => ?_⟩, .inr rfl, fun h => absurd h (by decide)⟩
  · rw [memcpyToQueue, memcpyToFromQueue_eq _ _ _ _ _ _ _ _ (by omega), if_pos rfl, ← chainDesc_zero,
      findWriteLoop_none hn hs fuel 0 hn.pos (by omega)]
    rfl
  · rw [Nat.sub_self, spanLen] at h
    omega

end Memcpy

/-! ## Every split chain -/

/-- On a chain of `n` descriptors split into a device-readable prefix of `p` and a
device-writable rest, whose summed lengths `R` and `W` are below `2^31` and whose buffers are
pairwise disjoint and apart from the chain's own entries: `get_desc_rw_size` returns
`(R, W)`; for every offset and count in `[0, 2^31)` and a host buffer of `count` bytes,
`memcpy_from_queue` returns 0 exactly when `count = 0` or `offset + count ≤ R`, and then the
buffer's first `count` bytes are bytes `[offset, offset + count)` of the readable buffers'
concatenation; `memcpy_to_queue` returns 0 exactly when `count = 0` or
`offset + count ≤ W`, and then those bytes of the writable buffers' concatenation are the
buffer's first `count`. Both return -1 otherwise. -/
theorem memcpy_splitChain {n p fuel : Nat} (hn : ChainLength mem qs d n) (hs : RwSplit mem qs d p n)
    (hfuel : n ≤ fuel) (hR : spanLen mem qs d 0 p < 2 ^ 31) (hW : spanLen mem qs d p (n - p) < 2 ^ 31)
    (hdisj : (spanAddrs mem qs d 0 n).Nodup)
    (happart : ∀ a ∈ spanAddrs mem qs d 0 n, ∀ k < n,
      ¬ InRegion (descEntryAddr qs (chainIdx mem qs d k)) 16 a) :
    getDescRwSize fuel mem qs d = .done (some (spanLen mem qs d 0 p, spanLen mem qs d p (n - p))) ∧
    (∀ (buf : HostBuffer) (o c : Nat), o < 2 ^ 31 → c < 2 ^ 31 → c ≤ buf.size →
      ∃ r buf', memcpyFromQueue fuel mem buf qs d o c = .done (r, mem, buf') ∧
        (r = 0 ↔ c = 0 ∨ o + c ≤ spanLen mem qs d 0 p) ∧ (r = 0 ∨ r = -1) ∧
        (r = 0 → buf'.slice 0 c = loadAt mem (((readAddrs mem qs d p).drop o).take c))) ∧
    (∀ (buf : HostBuffer) (o c : Nat), o < 2 ^ 31 → c < 2 ^ 31 → c ≤ buf.size →
      ∃ r mem' buf', memcpyToQueue fuel mem qs d o buf c = .done (r, mem', buf') ∧
        (r = 0 ↔ c = 0 ∨ o + c ≤ spanLen mem qs d p (n - p)) ∧ (r = 0 ∨ r = -1) ∧
        (r = 0 → loadAt mem' (((writeAddrs mem qs d p n).drop o).take c) = buf.slice 0 c)) := by
  -- the writable buffers are the second part of all the chain's buffers
  have hsplit : spanAddrs mem qs d 0 n = readAddrs mem qs d p ++ writeAddrs mem qs d p n := by
    have h := @spanAddrs_add mem qs d 0 p (n - p)
    rwa [Nat.add_sub_cancel' hs.le, Nat.zero_add] at h
  have hwrite : ∀ a ∈ writeAddrs mem qs d p n, a ∈ spanAddrs mem qs d 0 n := fun a ha => by
    rw [hsplit]; exact List.mem_append_right _ ha
  refine ⟨?_, fun buf o c ho hc hbuf => ?_, fun buf o c ho hc hbuf => ?_⟩
  · rw [getDescRwSize_split hn hs hfuel, toInt32_eq (by unfold IsInt32; omega),
      toInt32_eq (by unfold IsInt32; omega)]
  · obtain ⟨r, buf', h, hiff, hr, hbuf'⟩ := memcpyFromQueue_split hn hs hfuel buf ho hc hbuf hR
    refine ⟨r, buf', h, hiff, hr, fun h0 => ?_⟩
    have hlen : (((readAddrs mem qs d p).drop o).take c).length = c := by
      rw [List.length_take, List.length_drop, readAddrs, length_spanAddrs]
      have := hiff.mp h0
      omega
    have h := HostBuffer.slice_overwrite buf 0 (loadAt mem (((readAddrs mem qs d p).drop o).take c))
    rwa [length_loadAt, hlen, ← hbuf' h0] at h
  · obtain ⟨r, mem', buf', h, hiff, hr, hto⟩ := memcpyToQueue_split hn hs hfuel buf ho hc hbuf hW
      (fun a ha he => happart a (hwrite a ha) |> fun hk => by
        obtain ⟨k, hk', hin⟩ := (hn.chainEntry_iff a).mp he
        exact hk k hk' hin)
      (hdisj.sublist (hsplit ▸ List.sublist_append_right _ _))
    exact ⟨r, mem', buf', h, hiff, hr, fun h0 => (hto h0).2.1⟩

/-- A header of 2 readable bytes at `0x1000`, then a zero-length writable descriptor at
`0x3000` and one writable byte at `0x2000`. -/
def gatherTable : List U8 :=
  encodeLE 8 0x1000 ++ encodeLE 4 2 ++ encodeLE 2 1 ++ encodeLE 2 1 ++
  encodeLE 8 0x3000 ++ encodeLE 4 0 ++ encodeLE 2 3 ++ encodeLE 2 2 ++
  encodeLE 8 0x2000 ++ encodeLE 4 1 ++ encodeLE 2 2 ++ encodeLE 2 0

/-- Guest memory with that table at `0x100`. -/
def gatherMem : GuestMemory := tableMem gatherTable

theorem memcpy_splitChain_gather :
    ChainLength gatherMem tableQueue 0 3 ∧ RwSplit gatherMem tableQueue 0 1 3 ∧ 3 ≤ 3 ∧
    spanLen gatherMem tableQueue 0 0 1 < 2 ^ 31 ∧ spanLen gatherMem tableQueue 0 1 (3 - 1) < 2 ^ 31 ∧
    (spanAddrs gatherMem tableQueue 0 0 3).Nodup ∧
    (∀ a ∈ spanAddrs gatherMem tableQueue 0 0 3, ∀ k < 3,
      ¬ InRegion (descEntryAddr tableQueue (chainIdx gatherMem tableQueue 0 k)) 16 a) ∧
    (getDescRwSize 3 gatherMem tableQueue 0 =
      .done (some (spanLen gatherMem tableQueue 0 0 1, spanLen gatherMem tableQueue 0 1 (3 - 1))) ∧
    (∀ (buf : HostBuffer) (o c : Nat), o < 2 ^ 31 → c < 2 ^ 31 → c ≤ buf.size →
      ∃ r buf', memcpyFromQueue 3 gatherMem buf tableQueue 0 o c = .done (r, gatherMem, buf') ∧
        (r = 0 ↔ c = 0 ∨ o + c ≤ spanLen gatherMem tableQueue 0 0 1) ∧ (r = 0 ∨ r = -1) ∧
        (r = 0 → buf'.slice 0 c = loadAt gatherMem (((readAddrs gatherMem tableQueue 0 1).drop o).take c))) ∧
    (∀ (buf : HostBuffer) (o c : Nat), o < 2 ^ 31 → c < 2 ^ 31 → c ≤ buf.size →
      ∃ r mem' buf', memcpyToQueue 3 gatherMem tableQueue 0 o buf c = .done (r, mem', buf') ∧
        (r = 0 ↔ c = 0 ∨ o + c ≤ spanLen gatherMem tableQueue 0 1 (3 - 1)) ∧ (r = 0 ∨ r = -1) ∧
        (r = 0 → loadAt mem' (((writeAddrs gatherMem tableQueue 0 1 3).drop o).take c) = buf.slice 0 c))) := by
  have hn : ChainLength gatherMem tableQueue 0 3 := ⟨by decide, by unfold Linked; decide, by decide⟩
  have hs : RwSplit gatherMem tableQueue 0 1 3 := ⟨by decide, by decide, fun k h1 h2 => by
    obtain rfl | rfl : k = 1 ∨ k = 2 := by omega
    all_goals decide⟩
  have hR : spanLen gatherMem tableQueue 0 0 1 < 2 ^ 31 := by decide
  have hW : spanLen gatherMem tableQueue 0 1 (3 - 1) < 2 ^ 31 := by decide
  have hsp : spanAddrs gatherMem tableQueue 0 0 3 = [0x1000, 0x1001, 0x2000] := by decide
  have hdisj : (spanAddrs gatherMem tableQueue 0 0 3).Nodup := by rw [hsp]; decide
  have happart : ∀ a ∈ spanAddrs gatherMem tableQueue 0 0 3, ∀ k < 3,
      ¬ InRegion (descEntryAddr tableQueue (chainIdx gatherMem tableQueue 0 k)) 16 a := by
    rw [hsp]
    intro a ha k hk
    simp only [List.mem_cons, List.not_mem_nil, or_false] at ha
    obtain rfl | rfl | rfl : k = 0 ∨ k = 1 ∨ k = 2 := by omega
    all_goals obtain rfl | rfl | rfl := ha
    all_goals decide
  exact ⟨hn, hs, Nat.le_refl 3, hR, hW, hdisj, happart,
    memcpy_splitChain hn hs (Nat.le_refl 3) hR hW hdisj happart⟩

/-! ## A descriptor of `2^32 - 1` bytes -/

/-- Two chains: head 0 is a readable descriptor of `0xffffffff` bytes at `0x1000` linked to a
readable one of 32 bytes at `0x2000`; head 2 is the same with both descriptors writable. -/
def hugeDescTable : List U8 :=
  encodeLE 8 0x1000 ++ encodeLE 4 0xffffffff ++ encodeLE 2 1 ++ encodeLE 2 1 ++
  encodeLE 8 0x2000 ++ encodeLE 4 32 ++ encodeLE 2 0 ++ encodeLE 2 0 ++
  encodeLE 8 0x3000 ++ encodeLE 4 0xffffffff ++ encodeLE 2 3 ++ encodeLE 2 3 ++
  encodeLE 8 0x4000 ++ encodeLE 4 32 ++ encodeLE 2 2 ++ encodeLE 2 0

/-- On the first descriptor `desc.len - offset` is `0xffffffff`, which `min_int` takes as -1:
the first pass of a copy of 16 bytes moves -1 bytes and goes on to the next descriptor with
the count at 17 and the cursor into the buffer at -1. The next pass then copies 17 bytes
from and to `buf[-1]`, outside a buffer of 16 bytes: both `memcpy_from_queue` and
`memcpy_to_queue` fault. -/
theorem hugeDesc_cursor_underflow :
    min (16 : Int) ((chainDesc (tableMem hugeDescTable) tableQueue 0 0).len - toUInt32 0).toInt = -1 ∧
    copyLoop false tableQueue 0 2 (tableMem hugeDescTable) (HostBuffer.malloc 16)
        (chainDesc (tableMem hugeDescTable) tableQueue 0 0) 0 16 0 =
      copyLoop false tableQueue 0 1 (tableMem hugeDescTable) (HostBuffer.malloc 16)
        (chainDesc (tableMem hugeDescTable) tableQueue 0 1) 0 17 (-1) ∧
    memcpyFromQueue 2 (tableMem hugeDescTable) (HostBuffer.malloc 16) tableQueue 0 0 16 = .fault ∧
    memcpyToQueue 2 (tableMem hugeDescTable) tableQueue 2 0 (HostBuffer.malloc 16) 16 = .fault :=
  ⟨by decide, by rw [copyLoop_succ_eq]; rfl, rfl, rfl⟩

end SpikeDevices.Virtio
