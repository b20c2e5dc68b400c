import SpikeDevices.Virtio.Copy

/-!
# `get_desc_rw_size` on every finite chain

A chain of `n` descriptors (`ChainLength`) either splits into a device-readable prefix of `p`
descriptors and a device-writable rest (`RwSplit`), or has a readable descriptor after a
writable one (`rwSplit_or_disorder`). `get_desc_rw_size` tells the two apart, and in the first
case returns the summed `len` fields of the two parts (`spanLen`), each added up in `int`:
the sums taken modulo `2^32` into the `int` range (`getDescRwSize_chain`), which are the exact
sums only below `2^31` (`longDesc_readSize_wraps`).

The first loop adds the lengths of a readable stretch and moves on (`readSizeLoop_read`), the
second those of a writable stretch (`writeSizeLoop_write`); each case is assembled from these
two lemmas and the step at the descriptor that ends the stretch.
-/

namespace SpikeDevices.Virtio

open GuestMemory

/-! ## The direction of a descriptor -/

/-- `flags & VRING_DESC_F_WRITE` is 0 or `VRING_DESC_F_WRITE`. -/
theorem and_write_cases (f : U16) : f &&& vringDescFWrite = 0 ∨ f &&& vringDescFWrite = vringDescFWrite := by
  rw [show vringDescFWrite = BitVec.twoPow 16 1 by decide, BitVec.and_twoPow]
  split <;> simp

theorem VirtioDesc.isWrite_eq_false {desc : VirtioDesc} :
    desc.isWrite = false ↔ desc.flags &&& vringDescFWrite = 0 := by
  simp [VirtioDesc.isWrite]

theorem VirtioDesc.isWrite_eq_true {desc : VirtioDesc} :
    desc.isWrite = true ↔ desc.flags &&& vringDescFWrite = vringDescFWrite := by
  rcases and_write_cases desc.flags with h | h <;> simp [VirtioDesc.isWrite, h] <;> decide

/-! ## Sums in `int` -/

theorem toInt32_def (i : Int) :
    toInt32 i = if i % 2 ^ 32 < 2 ^ 31 then i % 2 ^ 32 else i % 2 ^ 32 - 2 ^ 32 := by
  rw [toInt32, BitVec.toInt_eq_toNat_cond, BitVec.toNat_ofInt]
  split <;> split <;> omega

theorem toInt32_add_toInt32 (a b : Int) : toInt32 (toInt32 a + b) = toInt32 (a + b) := by
  rw [toInt32_def, toInt32_def (a + b), toInt32_def a]
  split <;> split <;> split <;> omega

theorem isInt32_toInt32 (i : Int) : IsInt32 (toInt32 i) := by
  rw [toInt32_def]
  unfold IsInt32
  split <;> omega

/-- `size += desc.len` in `int` is the sum reduced into the `int` range. -/
theorem addLen_eq_toInt32 (s : Int) (len : U32) : addLen s len = toInt32 (s + len.toNat) := by
  rw [addLen, toInt32, toUInt32]
  congr 1
  apply BitVec.eq_of_toNat_eq
  simp only [BitVec.toNat_add, BitVec.toNat_ofInt]
  omega

/-! ## Chains of a given length -/

section Defs

variable (mem : GuestMemory) (qs : QueueState) (d : U16)

/-- The chain from `d` has `n` descriptors: the walk reaches the `(n-1)`-th, which has no NEXT. -/
structure ChainLength (n : Nat) : Prop where
  pos : 0 < n
  linked : Linked mem qs d (n - 1)
  last : (chainDesc mem qs d (n - 1)).hasNext = false

/-- The first `p` of the chain's `n` descriptors are device-readable, the others
device-writable. -/
structure RwSplit (p n : Nat) : Prop where
  le : p ≤ n
  read : ∀ k < p, (chainDesc mem qs d k).isWrite = false
  write : ∀ k, p ≤ k → k < n → (chainDesc mem qs d k).isWrite = true

/-- The summed `len` fields of the `m` descriptors of the chain from its `j`-th. -/
def spanLen (j : Nat) : Nat → Nat
  | 0 => 0
  | m + 1 => (chainDesc mem qs d j).len.toNat + spanLen (j + 1) m

end Defs

variable {mem : GuestMemory} {qs : QueueState} {d : U16}

/-- The addresses of a stretch are as many as its lengths add up to. -/
theorem length_spanAddrs (j m : Nat) : (spanAddrs mem qs d j m).length = spanLen mem qs d j m := by
  induction m generalizing j with
  | zero => rfl
  | succ m ih => rw [spanAddrs, spanLen, List.length_append, VirtioDesc.length_addrs, ih]

theorem spanLen_add (j a b : Nat) : spanLen mem qs d j (a + b) = spanLen mem qs d j a + spanLen mem qs d (j + a) b := by
  induction a generalizing j with
  | zero => simp [spanLen]
  | succ a ih =>
    rw [Nat.add_right_comm, spanLen, spanLen, ih, show j + 1 + a = j + (a + 1) by omega, Nat.add_assoc]

namespace ChainLength

variable {n : Nat} (hn : ChainLength mem qs d n)
include hn

theorem linked_of_lt {k : Nat} (hk : k < n) : Linked mem qs d k := hn.linked.mono (by omega)

theorem hasNext_of_lt {k : Nat} (hk : k + 1 < n) : (chainDesc mem qs d k).hasNext = true :=
  hn.linked k (by omega)

omit hn in
/-- A chain of the usual shape has its length. -/
theorem of_shape {p : Nat} (hs : ChainShape mem qs d p n) : ChainLength mem qs d n :=
  ⟨by have := hs.lt; omega, hs.linked, hs.last⟩

end ChainLength

/-- A chain of the usual shape splits where it says. -/
theorem ChainShape.rwSplit {p n : Nat} (hs : ChainShape mem qs d p n) : RwSplit mem qs d p n :=
  ⟨Nat.le_of_lt hs.lt, fun k hk => VirtioDesc.isWrite_eq_false.mpr (hs.read k hk),
    fun k h1 h2 => VirtioDesc.isWrite_eq_true.mpr (hs.write k h1 h2)⟩

/-- Every chain splits into a readable prefix and a writable rest, or has a readable
descriptor right after a writable stretch that follows its readable prefix. -/
theorem rwSplit_or_disorder : ∀ n, (∃ p, RwSplit mem qs d p n) ∨
    ∃ p q, p < q ∧ q < n ∧ (∀ k < p, (chainDesc mem qs d k).isWrite = false) ∧
      (∀ k, p ≤ k → k < q → (chainDesc mem qs d k).isWrite = true) ∧
      (chainDesc mem qs d q).isWrite = false
  | 0 => .inl ⟨0, Nat.le_refl 0, fun _ h => absurd h (Nat.not_lt_zero _), fun _ _ h => absurd h (Nat.not_lt_zero _)⟩
  | n + 1 => by
    rcases rwSplit_or_disorder n with ⟨p, hs⟩ | ⟨p, q, hpq, hq, hr, hw, hqr⟩
    · cases hlast : (chainDesc mem qs d n).isWrite with
      | true =>
        refine .inl ⟨p, by have := hs.le; omega, hs.read, fun k h1 h2 => ?_⟩
        by_cases hk : k < n
        · exact hs.write k h1 hk
        · rw [show k = n by omega]; exact hlast
      | false =>
        by_cases hpn : p = n
        · subst hpn
          refine .inl ⟨p + 1, Nat.le_refl _, fun k hk => ?_, fun k h1 h2 => absurd h2 (by omega)⟩
          by_cases hkp : k < p
          · exact hs.read k hkp
          · rw [show k = p by omega]; exact hlast
        · exact .inr ⟨p, n, by have := hs.le; omega, Nat.lt_succ_self n, hs.read, hs.write, hlast⟩
    · exact .inr ⟨p, q, hpq, by omega, hr, hw, hqr⟩

/-! ## The two loops of `get_desc_rw_size` -/

section Loops

variable {n : Nat} (hn : ChainLength mem qs d n)
include hn

/-- Over the device-readable descriptors before the `e`-th, the first loop adds their lengths
in `int` and goes on at the `e`-th. -/
theorem readSizeLoop_read {e : Nat} (he : e < n) (hread : ∀ k < e, (chainDesc mem qs d k).isWrite = false)
    (fuel j : Nat) (rs : Int) (hj : j ≤ e) (hfuel : e ≤ j + fuel) (hrs : IsInt32 rs) :
    readSizeLoop mem qs fuel (chainDesc mem qs d j) rs =
      readSizeLoop mem qs (fuel - (e - j)) (chainDesc mem qs d e) (toInt32 (rs + spanLen mem qs d j (e - j))) := by
  induction fuel generalizing j rs with
  | zero =>
    obtain rfl : j = e := by omega
    rw [Nat.sub_self, Nat.sub_zero, spanLen, Int.natCast_zero, Int.add_zero, toInt32_eq hrs]
  | succ f ih =>
    by_cases hje : j = e
    · subst hje
      rw [Nat.sub_self, Nat.sub_zero, spanLen, Int.natCast_zero, Int.add_zero, toInt32_eq hrs]
    rw [readSizeLoop, if_neg (by simp [hread j (by omega)]), addLen_eq_toInt32,
      if_neg (by simp [hn.hasNext_of_lt (show j + 1 < n by omega)]), ← chainDesc_succ,
      ih (j + 1) _ (by omega) (by omega) (isInt32_toInt32 _),
      toInt32_add_toInt32, show e - j = (e - (j + 1)) + 1 by omega, spanLen, Int.add_assoc,
      Int.natCast_add, show f + 1 - (e - (j + 1) + 1) = f - (e - (j + 1)) by omega]

/-- Over the device-writable descriptors from the `b`-th to before the `e`-th, the second loop
adds their lengths in `int` and goes on at the `e`-th. -/
theorem writeSizeLoop_write {b e : Nat} (he : e < n)
    (hwrite : ∀ k, b ≤ k → k < e → (chainDesc mem qs d k).isWrite = true)
    (fuel j : Nat) (ws : Int) (hbj : b ≤ j) (hj : j ≤ e) (hfuel : e ≤ j + fuel) (hws : IsInt32 ws) :
    writeSizeLoop mem qs fuel (chainDesc mem qs d j) ws =
      writeSizeLoop mem qs (fuel - (e - j)) (chainDesc mem qs d e) (toInt32 (ws + spanLen mem qs d j (e - j))) := by
  induction fuel generalizing j ws with
  | zero =>
    obtain rfl : j = e := by omega
    rw [Nat.sub_self, Nat.sub_zero, spanLen, Int.natCast_zero, Int.add_zero, toInt32_eq hws]
  | succ f ih =>
    by_cases hje : j = e
    · subst hje
      rw [Nat.sub_self, Nat.sub_zero, spanLen, Int.natCast_zero, Int.add_zero, toInt32_eq hws]
    rw [writeSizeLoop, if_neg (by simp [hwrite j hbj (by omega)]), addLen_eq_toInt32,
      if_neg (by simp [hn.hasNext_of_lt (show j + 1 < n by omega)]), ← chainDesc_succ,
      ih (j + 1) _ (by omega) (by omega) (by omega) (isInt32_toInt32 _),
      toInt32_add_toInt32, show e - j = (e - (j + 1)) + 1 by omega, spanLen, Int.add_assoc,
      Int.natCast_add, show f + 1 - (e - (j + 1) + 1) = f - (e - (j + 1)) by omega]

/-- The second loop from the `p`-th descriptor over a writable rest: the rest's summed lengths. -/
theorem writeSizeLoop_rest {p fuel : Nat} (hp : p < n)
    (hwrite : ∀ k, p ≤ k → k < n → (chainDesc mem qs d k).isWrite = true) (hfuel : n ≤ p + fuel) :
    writeSizeLoop mem qs fuel (chainDesc mem qs d p) 0 =
      .done (some (toInt32 (spanLen mem qs d p (n - p)))) := by
  have hlast := hn.last
  rw [writeSizeLoop_write hn (by omega : n - 1 < n) (fun k h1 h2 => hwrite k h1 (by omega)) fuel p 0
    (Nat.le_refl p) (by omega) (by omega) (by unfold IsInt32; omega)]
  obtain ⟨f, hf⟩ : ∃ f, fuel - (n - 1 - p) = f + 1 := ⟨fuel - (n - 1 - p) - 1, by omega⟩
  rw [hf, writeSizeLoop, if_neg (by simp [hwrite (n - 1) (by omega) (by omega)]), if_pos (by simp [hlast]),
    addLen_eq_toInt32, toInt32_add_toInt32, Int.zero_add, ← Int.natCast_add,
    show n - p = (n - 1 - p) + 1 by omega, spanLen_add, spanLen, spanLen,
    show p + (n - 1 - p) = n - 1 by omega, Nat.add_zero]

/-- On a chain split into a readable prefix of `p` descriptors and a writable rest,
`get_desc_rw_size` returns the two summed lengths, each reduced into the `int` range. -/
theorem getDescRwSize_split {p fuel : Nat} (hs : RwSplit mem qs d p n) (hfuel : n ≤ fuel) :
    getDescRwSize fuel mem qs d =
      .done (some (toInt32 (spanLen mem qs d 0 p), toInt32 (spanLen mem qs d p (n - p)))) := by
  have hlast := hn.last
  have hpos := hn.pos
  unfold getDescRwSize
  by_cases hpn : p < n
  · rw [← chainDesc_zero, readSizeLoop_read hn hpn hs.read fuel 0 0 (Nat.zero_le p) (by omega)
      (by unfold IsInt32; omega)]
    obtain ⟨f, hf⟩ : ∃ f, fuel - (p - 0) = f + 1 := ⟨fuel - p - 1, by omega⟩
    rw [hf, readSizeLoop, if_pos (hs.write p (Nat.le_refl p) hpn),
      writeSizeLoop_rest hn hpn hs.write (by omega), Int.zero_add, Nat.sub_zero, Outcome.done_bind,
      Outcome.pure_def, Option.map_some']
  · obtain rfl : p = n := Nat.le_antisymm hs.le (Nat.le_of_not_lt hpn)
    obtain ⟨m, rfl⟩ : ∃ m, p = m + 1 := ⟨p - 1, by omega⟩
    rw [Nat.add_sub_cancel] at hlast
    rw [← chainDesc_zero, readSizeLoop_read hn (Nat.lt_succ_self m) (fun k hk => hs.read k (by omega))
      fuel 0 0 (Nat.zero_le _) (by omega) (by unfold IsInt32; omega)]
    obtain ⟨f, hf⟩ : ∃ f, fuel - (m - 0) = f + 1 := ⟨fuel - m - 1, by omega⟩
    rw [hf, readSizeLoop, if_neg (by simp [hs.read m (by omega)]), if_pos (by simp [hlast]),
      addLen_eq_toInt32, toInt32_add_toInt32, Int.zero_add, Nat.sub_zero, Nat.sub_self, spanLen_add,
      spanLen, spanLen, spanLen, Nat.zero_add, Nat.add_zero, Int.natCast_add, Int.natCast_zero,
      toInt32_eq (by decide : IsInt32 0)]

/-- On a chain with a readable descriptor (the `q`-th) right after a writable stretch that
follows the readable prefix, `get_desc_rw_size` returns -1. -/
theorem getDescRwSize_disorder {p q fuel : Nat} (hpq : p < q) (hq : q < n)
    (hread : ∀ k < p, (chainDesc mem qs d k).isWrite = false)
    (hwrite : ∀ k, p ≤ k → k < q → (chainDesc mem qs d k).isWrite = true)
    (hqr : (chainDesc mem qs d q).isWrite = false) (hfuel : n ≤ fuel) :
    getDescRwSize fuel mem qs d = .done none := by
  unfold getDescRwSize
  rw [← chainDesc_zero, readSizeLoop_read hn (by omega : p < n) hread fuel 0 0 (Nat.zero_le p) (by omega)
    (by unfold IsInt32; omega)]
  obtain ⟨f, hf⟩ : ∃ f, fuel - (p - 0) = f + 1 := ⟨fuel - p - 1, by omega⟩
  rw [hf, readSizeLoop, if_pos (hwrite p (Nat.le_refl p) hpq),
    writeSizeLoop_write hn hq hwrite (f + 1) p 0 (Nat.le_refl p) (by omega) (by omega)
      (by unfold IsInt32; omega)]
  obtain ⟨g, hg⟩ : ∃ g, f + 1 - (q - p) = g + 1 := ⟨f + 1 - (q - p) - 1, by omega⟩
  rw [hg, writeSizeLoop, if_pos (by simp [hqr])]
  rfl

end Loops

/-! ## The sizes of every finite chain -/

/-- On a chain of `n` descriptors, with fuel for its `n` steps, `get_desc_rw_size` returns; it
returns 0 exactly when the chain splits into a device-readable prefix of some `p` descriptors
and a device-writable rest, and then with the summed `len` fields of the two parts, each
reduced modulo `2^32` into the `int` range; it returns -1 exactly when a device-readable
descriptor follows a device-writable one. -/
theorem getDescRwSize_chain {n fuel : Nat} (hn : ChainLength mem qs d n) (hfuel : n ≤ fuel) :
    (∃ r, getDescRwSize fuel mem qs d = .done r) ∧
      (∀ rs ws, getDescRwSize fuel mem qs d = .done (some (rs, ws)) ↔
        ∃ p, RwSplit mem qs d p n ∧ rs = toInt32 (spanLen mem qs d 0 p) ∧
          ws = toInt32 (spanLen mem qs d p (n - p))) ∧
      (getDescRwSize fuel mem qs d = .done none ↔
        ∃ j k, j < k ∧ k < n ∧ (chainDesc mem qs d j).isWrite = true ∧
          (chainDesc mem qs d k).isWrite = false) := by
  -- a split chain has no readable descriptor after a writable one
  have hno : ∀ p, RwSplit mem qs d p n → ¬ ∃ j k, j < k ∧ k < n ∧ (chainDesc mem qs d j).isWrite = true ∧
      (chainDesc mem qs d k).isWrite = false := by
    rintro p hs ⟨j, k, hjk, hk, hj, hk'⟩
    by_cases hjp : j < p
    · rw [hs.read j hjp] at hj; cases hj
    · rw [hs.write k (by omega) hk] at hk'; cases hk'
  rcases @rwSplit_or_disorder mem qs d n with ⟨p, hs⟩ | ⟨p, q, hpq, hq, hr, hw, hqr⟩
  · have h := getDescRwSize_split hn hs hfuel
    refine ⟨⟨_, h⟩, fun rs ws => ⟨fun h' => ?_, ?_⟩, ?_⟩
    · rw [h] at h'
      obtain ⟨rfl, rfl⟩ := Prod.mk.inj (Option.some.inj (Outcome.done.inj h'))
      exact ⟨p, hs, rfl, rfl⟩
    · rintro ⟨p', hs', rfl, rfl⟩
      exact getDescRwSize_split hn hs' hfuel
    · rw [h]
      exact ⟨fun h' => (by cases h'), fun h' => absurd h' (hno p hs)⟩
  · have h := getDescRwSize_disorder hn hpq hq hr hw hqr hfuel
    refine ⟨⟨_, h⟩, fun rs ws => ⟨fun h' => ?_, ?_⟩, ?_⟩
    · rw [h] at h'; cases h'
    · rintro ⟨p', hs', -, -⟩
      exact absurd ⟨p, q, hpq, hq, hw p (Nat.le_refl p) hpq, hqr⟩ (hno p' hs')
    · exact ⟨fun _ => ⟨p, q, hpq, hq, hw p (Nat.le_refl p) hpq, hqr⟩, fun _ => h⟩

/-! ## A readable descriptor of `2^31` bytes -/

/-- Guest memory holding the descriptor table `table` at `0x100`, zero elsewhere. -/
def tableMem (table : List U8) : GuestMemory := fun a => table.getD (a - 0x100).toNat 0

/-- A queue of 16 descriptors whose table is at `0x100`. -/
def tableQueue : QueueState := ⟨0, 16, 0, 0x100, 0, 0, false⟩

/-- One device-readable descriptor of `0x80000000` bytes at `0x1000`, with no NEXT. -/
def longDescTable : List U8 :=
  encodeLE 8 0x1000 ++ encodeLE 4 0x80000000 ++ encodeLE 2 0 ++ encodeLE 2 0

/-- Guest memory with that table at `0x100`. -/
def longDescMem : GuestMemory := tableMem longDescTable

theorem longDesc_chainLength : ChainLength longDescMem tableQueue 0 1 :=
  ⟨Nat.one_pos, fun _ h => absurd h (Nat.not_lt_zero _), by decide⟩

/-- The chain of one descriptor satisfies the hypotheses of `getDescRwSize_chain`. -/
theorem getDescRwSize_chain_longDesc :
    ChainLength longDescMem tableQueue 0 1 ∧ 1 ≤ 1 ∧
      ((∃ r, getDescRwSize 1 longDescMem tableQueue 0 = .done r) ∧
      (∀ rs ws, getDescRwSize 1 longDescMem tableQueue 0 = .done (some (rs, ws)) ↔
        ∃ p, RwSplit longDescMem tableQueue 0 p 1 ∧ rs = toInt32 (spanLen longDescMem tableQueue 0 0 p) ∧
          ws = toInt32 (spanLen longDescMem tableQueue 0 p (1 - p))) ∧
      (getDescRwSize 1 longDescMem tableQueue 0 = .done none ↔
        ∃ j k, j < k ∧ k < 1 ∧ (chainDesc longDescMem tableQueue 0 j).isWrite = true ∧
          (chainDesc longDescMem tableQueue 0 k).isWrite = false)) :=
  ⟨longDesc_chainLength, Nat.le_refl 1, getDescRwSize_chain longDesc_chainLength (Nat.le_refl 1)⟩

/-- The readable prefix adds up to `2^31` bytes, but `get_desc_rw_size` returns
`read_size = -2^31`. -/
theorem longDesc_readSize_wraps :
    spanLen longDescMem tableQueue 0 0 1 = 2 ^ 31 ∧
      getDescRwSize 1 longDescMem tableQueue 0 = .done (some (-2 ^ 31, 0)) :=
  ⟨by decide, by decide⟩

end SpikeDevices.Virtio
