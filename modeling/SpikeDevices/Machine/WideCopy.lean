import SpikeDevices.Machine.PageCopy

/-!
# The `OPT_MEMCPY_RAM` page-local copies

With `OPT_MEMCPY_RAM` defined, `memcpy_from_ram_intrapage` and `memcpy_to_ram_intrapage`
move 1, 2, 4 or 8 bytes a pass, the widest access that `addr` is aligned for and the remaining
`count` covers (`accessWidth`). The build does not define the macro: the byte loops
`memcpyFromRamIntrapage` and `memcpyToRamIntrapage` are what runs.

A `w`-byte access to guest memory is the little-endian composition of `w` byte accesses
(`load16`, `load32`, `load64`, `store16`, `store32`, `store64`), and the host is
little-endian, so `*(uint16_t*)(buf+l) = v` writes the bytes of `v` lowest first; host
accesses of any alignment behave as on x86.

`wideAccesses addr count` lists the guest accesses the loops issue, and
`memcpyFromRamIntrapageOpt_eq` and `memcpyToRamIntrapageOpt_eq` show that the loops are
exactly the copies of those accesses (`loadAccesses`, `storeAccesses`). Every access is
aligned to its width (`wideAccesses_aligned`), and they follow each other over the `count`
bytes from `addr` (`wideAccesses_tiles`), so together they copy exactly those bytes, as the
byte loops do (`loadAccesses_of_tiles`, `storeAccesses_of_tiles`).
-/

namespace SpikeDevices

namespace GuestMemory

/-! ## The fast loops -/

/-- `memcpy_from_ram_intrapage` with `OPT_MEMCPY_RAM`: while `count > 0`, a 1-, 2-, 4- or
8-byte load at `addr` written to `buf + l`. Each pass moves one byte or more, so `count`
passes are enough. It returns `l`. -/
def memcpyFromRamIntrapageOpt (mem : GuestMemory) (buf : HostBuffer) (cursor : Int)
    (addr : U64) (count : Int) : Outcome (HostBuffer × Int) :=
  loop count.toNat 0 buf addr count
where
  /-- The loop at byte `l`, with at most `passes` passes left. -/
  loop : Nat → Nat → HostBuffer → U64 → Int → Outcome (HostBuffer × Int)
    | 0, l, buf, _, count => if 0 < count then .diverge else .done (buf, l)
    | passes + 1, l, buf, addr, count =>
      if 0 < count then
        if addr &&& 1 ≠ 0 ∨ count < 2 then do
          let buf ← buf.write (cursor + l) (mem addr)
          loop passes (l + 1) buf (addr + 1) (count - 1)
        else if addr &&& 2 ≠ 0 ∨ count < 4 then do
          let buf ← buf.writeList (cursor + l) (encodeLE 2 (mem.load16 addr).toNat)
          loop passes (l + 2) buf (addr + 2) (count - 2)
        else if addr &&& 4 ≠ 0 ∨ count < 8 then do
          let buf ← buf.writeList (cursor + l) (encodeLE 4 (mem.load32 addr).toNat)
          loop passes (l + 4) buf (addr + 4) (count - 4)
        else do
          let buf ← buf.writeList (cursor + l) (encodeLE 8 (mem.load64 addr).toNat)
          loop passes (l + 8) buf (addr + 8) (count - 8)
      else .done (buf, l)

/-- `memcpy_to_ram_intrapage` with `OPT_MEMCPY_RAM`: while `count > 0`, a 1-, 2-, 4- or
8-byte store at `addr` of the value read at `buf + l`. It returns `l`. -/
def memcpyToRamIntrapageOpt (mem : GuestMemory) (addr : U64) (buf : HostBuffer) (cursor : Int)
    (count : Int) : Outcome (GuestMemory × Int) :=
  loop count.toNat 0 mem addr count
where
  /-- The loop at byte `l`, with at most `passes` passes left. -/
  loop : Nat → Nat → GuestMemory → U64 → Int → Outcome (GuestMemory × Int)
    | 0, l, mem, _, count => if 0 < count then .diverge else .done (mem, l)
    | passes + 1, l, mem, addr, count =>
      if 0 < count then
        if addr &&& 1 ≠ 0 ∨ count < 2 then do
          let b ← buf.read (cursor + l)
          loop passes (l + 1) (mem.store8 addr b) (addr + 1) (count - 1)
        else if addr &&& 2 ≠ 0 ∨ count < 4 then do
          let bs ← buf.readList (cursor + l) 2
          loop passes (l + 2) (mem.store16 addr (BitVec.ofNat 16 (decodeLE bs))) (addr + 2)
            (count - 2)
        else if addr &&& 4 ≠ 0 ∨ count < 8 then do
          let bs ← buf.readList (cursor + l) 4
          loop passes (l + 4) (mem.store32 addr (BitVec.ofNat 32 (decodeLE bs))) (addr + 4)
            (count - 4)
        else do
          let bs ← buf.readList (cursor + l) 8
          loop passes (l + 8) (mem.store64 addr (BitVec.ofNat 64 (decodeLE bs))) (addr + 8)
            (count - 8)
      else .done (mem, l)

/-! ## The accesses they issue -/

/-- The width the `OPT_MEMCPY_RAM` cascade picks at `addr` with `count` bytes to go. -/
def accessWidth (addr : U64) (count : Int) : Nat :=
  if addr &&& 1 ≠ 0 ∨ count < 2 then 1
  else if addr &&& 2 ≠ 0 ∨ count < 4 then 2
  else if addr &&& 4 ≠ 0 ∨ count < 8 then 4
  else 8

/-- The guest accesses `(address, width)` of the `OPT_MEMCPY_RAM` loops, in order, over the
`count` passes the model gives them. -/
def wideAccesses (addr : U64) (count : Int) : List (U64 × Nat) :=
  go count.toNat addr count
where
  /-- The accesses of at most `passes` passes. -/
  go : Nat → U64 → Int → List (U64 × Nat)
    | 0, _, _ => []
    | passes + 1, addr, count =>
      if 0 < count then
        (addr, accessWidth addr count) ::
          go passes (addr + BitVec.ofNat 64 (accessWidth addr count)) (count - accessWidth addr count)
      else []

/-- The loads `acs` carried out into the buffer from position `pos` on: the `w`-byte load at
`a` puts the `w` bytes there into the buffer. -/
def loadAccesses (mem : GuestMemory) : List (U64 × Nat) → HostBuffer → Int → Outcome HostBuffer
  | [], buf, _ => .done buf
  | (a, w) :: acs, buf, pos => do
    let buf ← buf.writeList pos (mem.bytesAt a w)
    loadAccesses mem acs buf (pos + w)

/-- The stores `acs` carried out from buffer position `pos` on: the `w`-byte store at `a` puts
there the next `w` bytes of the buffer. -/
def storeAccesses (buf : HostBuffer) :
    List (U64 × Nat) → GuestMemory → Int → Outcome GuestMemory
  | [], mem, _ => .done mem
  | (a, w) :: acs, mem, pos => do
    let bs ← buf.readList pos w
    storeAccesses buf acs (mem.storeBytes a bs) (pos + w)

/-- An access of 1, 2, 4 or 8 bytes at an address that is a multiple of its width. -/
def Aligned (acc : U64 × Nat) : Prop :=
  (acc.2 = 1 ∨ acc.2 = 2 ∨ acc.2 = 4 ∨ acc.2 = 8) ∧ acc.1.toNat % acc.2 = 0

/-! ## The width cascade -/

/-- An address whose bit `i` is masked to zero has that bit clear. -/
theorem toNat_div_mod_two_of_and_twoPow {addr : U64} {i : Nat} (hi : i < 64)
    (h : addr &&& BitVec.twoPow 64 i = 0) : addr.toNat / 2 ^ i % 2 = 0 := by
  rw [BitVec.and_twoPow] at h
  split at h
  · have h' := congrArg BitVec.toNat h
    rw [BitVec.toNat_twoPow, Nat.mod_eq_of_lt (Nat.pow_lt_pow_of_lt (by decide) hi)] at h'
    exact absurd h' (Nat.pos_iff_ne_zero.mp (Nat.two_pow_pos i))
  · next hb =>
    rw [← BitVec.testBit_toNat, Nat.testBit_to_div_mod, decide_eq_true_eq] at hb
    omega

/-- The cascade picks an aligned access of 1, 2, 4 or 8 bytes. -/
theorem accessWidth_aligned (addr : U64) (count : Int) : Aligned (addr, accessWidth addr count) := by
  have b0 : addr &&& 1 = 0 → addr.toNat % 2 = 0 := fun h => by
    simpa using toNat_div_mod_two_of_and_twoPow (i := 0) (by decide) h
  have b1 : addr &&& 2 = 0 → addr.toNat / 2 % 2 = 0 :=
    toNat_div_mod_two_of_and_twoPow (i := 1) (by decide)
  have b2 : addr &&& 4 = 0 → addr.toNat / 4 % 2 = 0 :=
    toNat_div_mod_two_of_and_twoPow (i := 2) (by decide)
  unfold Aligned accessWidth
  dsimp only
  by_cases c1 : addr &&& 1 ≠ 0 ∨ count < 2
  · rw [if_pos c1]
    exact ⟨.inl rfl, Nat.mod_one _⟩
  rw [if_neg c1]
  have e0 := b0 (Decidable.of_not_not (not_or.mp c1).1)
  by_cases c2 : addr &&& 2 ≠ 0 ∨ count < 4
  · rw [if_pos c2]
    exact ⟨.inr (.inl rfl), e0⟩
  rw [if_neg c2]
  have e1 := b1 (Decidable.of_not_not (not_or.mp c2).1)
  by_cases c4 : addr &&& 4 ≠ 0 ∨ count < 8
  · rw [if_pos c4]
    exact ⟨.inr (.inr (.inl rfl)), by omega⟩
  rw [if_neg c4]
  have e2 := b2 (Decidable.of_not_not (not_or.mp c4).1)
  exact ⟨.inr (.inr (.inr rfl)), by omega⟩

/-- The cascade moves one byte or more, and no more than `count` holds. -/
theorem accessWidth_pos_le {addr : U64} {count : Int} (hpos : 0 < count) :
    0 < accessWidth addr count ∧ (accessWidth addr count : Int) ≤ count := by
  unfold accessWidth
  split
  · exact ⟨by decide, by omega⟩
  split
  · exact ⟨by decide, by omega⟩
  split <;> exact ⟨by decide, by omega⟩

/-! ## One pass -/

/-- A `w`-byte little-endian load of `w` bytes, written back little-endian, is those bytes. -/
theorem encodeLE_ofNat_decodeLE {n w : Nat} {bs : List U8} (hw : bs.length = w)
    (hn : 256 ^ w ≤ 2 ^ n) : encodeLE w (BitVec.ofNat n (decodeLE bs)).toNat = bs := by
  subst hw
  rw [BitVec.toNat_ofNat, Nat.mod_eq_of_lt (Nat.lt_of_lt_of_le (decodeLE_lt bs) hn),
    encodeLE_decodeLE]

theorem writeList_singleton (buf : HostBuffer) (pos : Int) (b : U8) :
    buf.writeList pos [b] = buf.write pos b :=
  Outcome.bind_done_right _

theorem readList_one (buf : HostBuffer) (pos : Int) :
    buf.readList pos 1 = buf.read pos >>= fun b => .done [b] := by
  simp only [HostBuffer.readList, Outcome.done_bind, Outcome.pure_def]

/-- A read of `n` buffer bytes returns `n` bytes. -/
theorem length_of_readList {buf : HostBuffer} {pos : Int} {n : Nat} {bs : List U8}
    (h : buf.readList pos n = .done bs) : bs.length = n := by
  rw [HostBuffer.readList_eq] at h
  split at h
  · cases h
    exact HostBuffer.length_slice _ _ _
  · cases h

/-- A pass of the fast load loop: the `accessWidth`-byte load at `addr`, written to the
buffer, and the loop on from there. -/
theorem memcpyFromRamIntrapageOpt.loop_succ (mem : GuestMemory) (cursor : Int) (passes l : Nat)
    (buf : HostBuffer) (addr : U64) {count : Int} (hpos : 0 < count) :
    memcpyFromRamIntrapageOpt.loop mem cursor (passes + 1) l buf addr count =
      buf.writeList (cursor + l) (mem.bytesAt addr (accessWidth addr count)) >>= fun buf =>
        memcpyFromRamIntrapageOpt.loop mem cursor passes (l + accessWidth addr count) buf
          (addr + BitVec.ofNat 64 (accessWidth addr count)) (count - accessWidth addr count) := by
  rw [memcpyFromRamIntrapageOpt.loop, if_pos hpos, accessWidth]
  by_cases c1 : addr &&& 1 ≠ 0 ∨ count < 2
  · rw [if_pos c1, if_pos c1, bytesAt, bytesAt, writeList_singleton]
    rfl
  rw [if_neg c1, if_neg c1]
  by_cases c2 : addr &&& 2 ≠ 0 ∨ count < 4
  · rw [if_pos c2, if_pos c2, load16, encodeLE_ofNat_decodeLE (length_bytesAt _ _ _) (by decide)]
    rfl
  rw [if_neg c2, if_neg c2]
  by_cases c4 : addr &&& 4 ≠ 0 ∨ count < 8
  · rw [if_pos c4, if_pos c4, load32, encodeLE_ofNat_decodeLE (length_bytesAt _ _ _) (by decide)]
    rfl
  rw [if_neg c4, if_neg c4, load64, encodeLE_ofNat_decodeLE (length_bytesAt _ _ _) (by decide)]
  rfl

/-- A pass of the fast store loop: `accessWidth` buffer bytes read, stored at `addr`, and the
loop on from there. -/
theorem memcpyToRamIntrapageOpt.loop_succ (buf : HostBuffer) (cursor : Int) (passes l : Nat)
    (mem : GuestMemory) (addr : U64) {count : Int} (hpos : 0 < count) :
    memcpyToRamIntrapageOpt.loop buf cursor (passes + 1) l mem addr count =
      buf.readList (cursor + l) (accessWidth addr count) >>= fun bs =>
        memcpyToRamIntrapageOpt.loop buf cursor passes (l + accessWidth addr count)
          (mem.storeBytes addr bs) (addr + BitVec.ofNat 64 (accessWidth addr count))
          (count - accessWidth addr count) := by
  rw [memcpyToRamIntrapageOpt.loop, if_pos hpos, accessWidth]
  by_cases c1 : addr &&& 1 ≠ 0 ∨ count < 2
  · rw [if_pos c1, if_pos c1, readList_one, Outcome.bind_assoc]
    rfl
  rw [if_neg c1, if_neg c1]
  by_cases c2 : addr &&& 2 ≠ 0 ∨ count < 4
  · rw [if_pos c2, if_pos c2]
    refine Outcome.bind_congr fun bs hbs => ?_
    rw [store16, encodeLE_ofNat_decodeLE (length_of_readList hbs) (by decide)]
    rfl
  rw [if_neg c2, if_neg c2]
  by_cases c4 : addr &&& 4 ≠ 0 ∨ count < 8
  · rw [if_pos c4, if_pos c4]
    refine Outcome.bind_congr fun bs hbs => ?_
    rw [store32, encodeLE_ofNat_decodeLE (length_of_readList hbs) (by decide)]
    rfl
  rw [if_neg c4, if_neg c4]
  refine Outcome.bind_congr fun bs hbs => ?_
  rw [store64, encodeLE_ofNat_decodeLE (length_of_readList hbs) (by decide)]
  rfl

/-! ## The loops are the copies of their accesses -/

theorem memcpyFromRamIntrapageOpt_loop_accesses (mem : GuestMemory) (cursor : Int) :
    ∀ (passes l : Nat) (buf : HostBuffer) (addr : U64) (count : Int), count.toNat ≤ passes →
      memcpyFromRamIntrapageOpt.loop mem cursor passes l buf addr count =
        loadAccesses mem (wideAccesses.go passes addr count) buf (cursor + l) >>= fun buf =>
          .done (buf, ((l + count.toNat : Nat) : Int)) := by
  intro passes
  induction passes with
  | zero =>
    intro l buf addr count h
    rw [memcpyFromRamIntrapageOpt.loop, if_neg (by omega), show count.toNat = 0 by omega]
    rfl
  | succ passes ih =>
    intro l buf addr count h
    rw [wideAccesses.go]
    by_cases hpos : 0 < count
    · have hw := @accessWidth_pos_le addr count hpos
      rw [memcpyFromRamIntrapageOpt.loop_succ _ _ _ _ _ _ hpos, if_pos hpos, loadAccesses,
        Outcome.bind_assoc]
      refine Outcome.bind_congr fun b _ => ?_
      rw [ih _ _ _ _ (by omega),
        show l + accessWidth addr count + (count - accessWidth addr count).toNat = l + count.toNat
          by omega,
        show cursor + ((l + accessWidth addr count : Nat) : Int) = cursor + l + accessWidth addr count
          by omega]
    · rw [memcpyFromRamIntrapageOpt.loop, if_neg hpos, if_neg hpos, show count.toNat = 0 by omega]
      rfl

theorem memcpyToRamIntrapageOpt_loop_accesses (buf : HostBuffer) (cursor : Int) :
    ∀ (passes l : Nat) (mem : GuestMemory) (addr : U64) (count : Int), count.toNat ≤ passes →
      memcpyToRamIntrapageOpt.loop buf cursor passes l mem addr count =
        storeAccesses buf (wideAccesses.go passes addr count) mem (cursor + l) >>= fun mem =>
          .done (mem, ((l + count.toNat : Nat) : Int)) := by
  intro passes
  induction passes with
  | zero =>
    intro l mem addr count h
    rw [memcpyToRamIntrapageOpt.loop, if_neg (by omega), show count.toNat = 0 by omega]
    rfl
  | succ passes ih =>
    intro l mem addr count h
    rw [wideAccesses.go]
    by_cases hpos : 0 < count
    · have hw := @accessWidth_pos_le addr count hpos
      rw [memcpyToRamIntrapageOpt.loop_succ _ _ _ _ _ _ hpos, if_pos hpos, storeAccesses,
        Outcome.bind_assoc]
      refine Outcome.bind_congr fun bs _ => ?_
      rw [ih _ _ _ _ (by omega),
        show l + accessWidth addr count + (count - accessWidth addr count).toNat = l + count.toNat
          by omega,
        show cursor + ((l + accessWidth addr count : Nat) : Int) = cursor + l + accessWidth addr count
          by omega]
    · rw [memcpyToRamIntrapageOpt.loop, if_neg hpos, if_neg hpos, show count.toNat = 0 by omega]
      rfl

/-- The fast load loop is the copy of its accesses, and returns `count`. -/
theorem memcpyFromRamIntrapageOpt_eq (mem : GuestMemory) (buf : HostBuffer) (cursor : Int)
    (addr : U64) (count : Int) :
    memcpyFromRamIntrapageOpt mem buf cursor addr count =
      loadAccesses mem (wideAccesses addr count) buf cursor >>= fun buf =>
        .done (buf, (count.toNat : Int)) := by
  have h := memcpyFromRamIntrapageOpt_loop_accesses mem cursor _ 0 buf addr count (Nat.le_refl _)
  rwa [Int.ofNat_zero, Int.add_zero, Nat.zero_add] at h

/-- The fast store loop is the copy of its accesses, and returns `count`. -/
theorem memcpyToRamIntrapageOpt_eq (mem : GuestMemory) (addr : U64) (buf : HostBuffer)
    (cursor : Int) (count : Int) :
    memcpyToRamIntrapageOpt mem addr buf cursor count =
      storeAccesses buf (wideAccesses addr count) mem cursor >>= fun mem =>
        .done (mem, (count.toNat : Int)) := by
  have h := memcpyToRamIntrapageOpt_loop_accesses buf cursor _ 0 mem addr count (Nat.le_refl _)
  rwa [Int.ofNat_zero, Int.add_zero, Nat.zero_add] at h

/-! ## The accesses are aligned and cover the copy -/

theorem wideAccesses_go_aligned :
    ∀ (passes : Nat) (addr : U64) (count : Int), ∀ acc ∈ wideAccesses.go passes addr count,
      Aligned acc := by
  intro passes
  induction passes with
  | zero => intro _ _ _ h; cases h
  | succ passes ih =>
    intro addr count acc h
    rw [wideAccesses.go] at h
    split at h
    · rcases h with _ | ⟨_, h⟩
      · exact accessWidth_aligned addr count
      · exact ih _ _ _ h
    · cases h

theorem wideAccesses_go_tiles :
    ∀ (passes : Nat) (addr : U64) (count : Int), count.toNat ≤ passes →
      Tiles addr count.toNat (wideAccesses.go passes addr count) := by
  intro passes
  induction passes with
  | zero =>
    intro addr count h
    rw [show count.toNat = 0 by omega]
    exact .nil addr
  | succ passes ih =>
    intro addr count h
    rw [wideAccesses.go]
    by_cases hpos : 0 < count
    · have hw := @accessWidth_pos_le addr count hpos
      rw [if_pos hpos,
        show count.toNat = accessWidth addr count + (count - accessWidth addr count).toNat by omega]
      exact .cons (ih _ _ (by omega))
    · rw [if_neg hpos, show count.toNat = 0 by omega]
      exact .nil addr

/-- Every access of the fast loops is of 1, 2, 4 or 8 bytes, aligned to its width. -/
theorem wideAccesses_aligned (addr : U64) (count : Int) :
    ∀ acc ∈ wideAccesses addr count, Aligned acc :=
  wideAccesses_go_aligned _ _ _

/-- The accesses of the fast loops follow each other over the `count` bytes from `addr`. -/
theorem wideAccesses_tiles (addr : U64) (count : Int) :
    Tiles addr count.toNat (wideAccesses addr count) :=
  wideAccesses_go_tiles _ _ _ (Nat.le_refl _)

example : wideAccesses 3 13 = [(3, 1), (4, 4), (8, 8)] := by decide

/-- Loads that follow each other over `n` bytes put those bytes into the buffer. -/
theorem loadAccesses_of_tiles (mem : GuestMemory) {addr : U64} {n : Nat}
    {acs : List (U64 × Nat)} (h : Tiles addr n acs) :
    ∀ (buf : HostBuffer) (pos : Int),
      loadAccesses mem acs buf pos = buf.writeList pos (mem.bytesAt addr n) := by
  induction h with
  | nil => intro buf pos; rfl
  | cons _ ih =>
    intro buf pos
    rw [loadAccesses, bytesAt_add, HostBuffer.writeList_append, length_bytesAt]
    exact Outcome.bind_congr fun b _ => ih b _

/-- Stores that follow each other over `n` bytes store the `n` buffer bytes there. -/
theorem storeAccesses_of_tiles (buf : HostBuffer) {addr : U64} {n : Nat}
    {acs : List (U64 × Nat)} (h : Tiles addr n acs) :
    ∀ (mem : GuestMemory) (pos : Int),
      storeAccesses buf acs mem pos =
        buf.readList pos n >>= fun bs => .done (mem.storeBytes addr bs) := by
  induction h with
  | nil => intro mem pos; rfl
  | cons _ ih =>
    intro mem pos
    rw [storeAccesses, HostBuffer.readList_add, Outcome.bind_assoc]
    refine Outcome.bind_congr fun xs hxs => ?_
    rw [ih, Outcome.bind_assoc]
    refine Outcome.bind_congr fun ys _ => ?_
    rw [Outcome.done_bind, storeBytes_append, length_of_readList hxs]

/-! ## The fast loops refine the byte loops -/

/-- For every guest memory, buffer, address and `count`, the `OPT_MEMCPY_RAM` loops give the
same buffer, guest memory and return value as the byte loops, and fault exactly where they do.
They are the copies of the accesses `wideAccesses addr count`, each of 1, 2, 4 or 8 bytes at an
address aligned to its width, which follow each other over the `count` bytes from `addr`, so
none reaches past `addr + count`. -/
theorem memcpyRamIntrapageOpt_refines (mem : GuestMemory) (buf : HostBuffer) (cursor : Int)
    (addr : U64) (count : Int) :
    memcpyFromRamIntrapageOpt mem buf cursor addr count =
      memcpyFromRamIntrapage mem buf cursor addr count ∧
    memcpyToRamIntrapageOpt mem addr buf cursor count =
      memcpyToRamIntrapage mem addr buf cursor count ∧
    memcpyFromRamIntrapageOpt mem buf cursor addr count =
      (loadAccesses mem (wideAccesses addr count) buf cursor >>= fun buf =>
        .done (buf, (count.toNat : Int))) ∧
    memcpyToRamIntrapageOpt mem addr buf cursor count =
      (storeAccesses buf (wideAccesses addr count) mem cursor >>= fun mem =>
        .done (mem, (count.toNat : Int))) ∧
    (∀ acc ∈ wideAccesses addr count, Aligned acc) ∧
    Tiles addr count.toNat (wideAccesses addr count) := by
  have ht := wideAccesses_tiles addr count
  refine ⟨?_, ?_, memcpyFromRamIntrapageOpt_eq .., memcpyToRamIntrapageOpt_eq ..,
    wideAccesses_aligned addr count, ht⟩
  · rw [memcpyFromRamIntrapageOpt_eq, loadAccesses_of_tiles mem ht, memcpyFromRamIntrapage,
      memcpyFromRamIntrapage_loop]
    simp only [Int.ofNat_zero, Int.add_zero, Nat.zero_add, BitVec.add_zero]
  · rw [memcpyToRamIntrapageOpt_eq, storeAccesses_of_tiles buf ht, memcpyToRamIntrapage,
      memcpyToRamIntrapage_loop]
    simp only [Int.ofNat_zero, Int.add_zero, Nat.zero_add, BitVec.add_zero, Outcome.bind_assoc,
      Outcome.done_bind]

end GuestMemory

end SpikeDevices
