import SpikeDevices.Machine.GuestMemory

/-!
# The page split of the RAM copies

While `count > 0`, `virtio_memcpy_from_ram` and `virtio_memcpy_to_ram` hand the page-local
loop the piece `(addr, l)` with `l = min_int(count, VIRTIO_PAGE_SIZE - (addr &
(VIRTIO_PAGE_SIZE - 1)))`, then move `addr`, the buffer pointer and `count` on by `l`.
`pageChunks` lists those pieces, and `virtioMemcpyFromRam_chunks` and
`virtioMemcpyToRam_chunks` show that the two loops are exactly the page-local copies of them,
in order. `pageChunks_split` says that the pieces are non-empty, each inside one page, and
that they follow each other over the copy's bytes (`Tiles`), from every address, the top of
the address space included.

`virtioMemcpyToRam_bytes` and `virtioMemcpyFromRam_bytes` state the effect byte by byte:
byte `i` of the copy lands at `addr + i` (at buffer position `cursor + i`), and nothing else
changes; a copy the buffer does not hold is undefined behaviour.
-/

namespace SpikeDevices

namespace HostBuffer

/-- The block holds the positions `[cursor, cursor + count)`; none are needed when
`count ≤ 0`. -/
def Holds (buf : HostBuffer) (cursor count : Int) : Prop :=
  count ≤ 0 ∨ (0 ≤ cursor ∧ cursor + count ≤ buf.size)

instance (buf : HostBuffer) (cursor count : Int) : Decidable (buf.Holds cursor count) :=
  inferInstanceAs (Decidable (_ ∨ _))

/-- Byte `i` of a slice is the byte `i` positions on. -/
theorem getD_slice (buf : HostBuffer) (pos : Nat) {n i : Nat} (h : i < n) :
    (buf.slice pos n).getD i 0 = buf.bytes (pos + i) := by
  induction n generalizing pos i with
  | zero => omega
  | succ n ih =>
    cases i with
    | zero => rfl
    | succ i => rw [slice, List.getD_cons_succ, ih _ (by omega), Nat.add_right_comm, Nat.add_assoc]

end HostBuffer

namespace GuestMemory

/-! ## Pieces that follow each other -/

/-- The pieces `(a, w)` follow each other from `addr` on and together cover `n` bytes: the
first starts at `addr`, and each next one where the one before it ended. -/
inductive Tiles : U64 → Nat → List (U64 × Nat) → Prop
  | nil (addr : U64) : Tiles addr 0 []
  | cons {addr : U64} {w n : Nat} {ps : List (U64 × Nat)} :
      Tiles (addr + BitVec.ofNat 64 w) n ps → Tiles addr (w + n) ((addr, w) :: ps)

/-- The addresses of tiling pieces, in order, are the `n` addresses from `addr` on. -/
theorem Tiles.addrs {addr : U64} {n : Nat} {ps : List (U64 × Nat)} (h : Tiles addr n ps) :
    (ps.map fun p => addrsFrom p.1 p.2).flatten = addrsFrom addr n := by
  induction h with
  | nil => rfl
  | cons _ ih => rw [List.map_cons, List.flatten_cons, ih, addrsFrom_add]

/-- Byte `i` of the `n` bytes at `addr` is the byte at `addr + i`. -/
theorem getD_bytesAt (mem : GuestMemory) (addr : U64) {n i : Nat} (h : i < n) :
    (bytesAt mem addr n).getD i 0 = mem (addr + BitVec.ofNat 64 i) := by
  induction n generalizing addr i with
  | zero => omega
  | succ n ih =>
    cases i with
    | zero => simp [bytesAt]
    | succ i =>
      rw [bytesAt, List.getD_cons_succ, ih _ (by omega)]
      congr 1
      bv_omega

/-! ## The pieces of a copy -/

/-- The pieces `(addr, l)` that the `while (count > 0)` loop of `virtio_memcpy_from_ram` and
`virtio_memcpy_to_ram` hands to the page-local loop, in order, over the `count` passes the
model gives the loop. -/
def pageChunks (addr : U64) (count : Int) : List (U64 × Int) :=
  go count.toNat addr count
where
  /-- The pieces of at most `passes` passes. -/
  go : Nat → U64 → Int → List (U64 × Int)
    | 0, _, _ => []
    | passes + 1, addr, count =>
      if 0 < count then
        let l := min count (pageRemaining addr)
        (addr, l) :: go passes (addr + BitVec.ofInt 64 l) (count - l)
      else []

/-- The page-local copies of `virtio_memcpy_from_ram` over the pieces `chunks`, the buffer
position moving on by each piece's length. -/
def copyChunksFromRam (mem : GuestMemory) :
    List (U64 × Int) → HostBuffer → Int → Outcome HostBuffer
  | [], buf, _ => .done buf
  | (addr, l) :: chunks, buf, cursor => do
    let (buf, _) ← memcpyFromRamIntrapage mem buf cursor addr l
    copyChunksFromRam mem chunks buf (cursor + l)

/-- The page-local copies of `virtio_memcpy_to_ram` over the pieces `chunks`. -/
def copyChunksToRam (buf : HostBuffer) :
    List (U64 × Int) → GuestMemory → Int → Outcome GuestMemory
  | [], mem, _ => .done mem
  | (addr, l) :: chunks, mem, cursor => do
    let (mem, _) ← memcpyToRamIntrapage mem addr buf cursor l
    copyChunksToRam buf chunks mem (cursor + l)

theorem virtioMemcpyFromRam_loop_chunks (mem : GuestMemory) :
    ∀ (passes : Nat) (buf : HostBuffer) (cursor : Int) (addr : U64) (count : Int),
      count.toNat ≤ passes →
      virtioMemcpyFromRam.loop mem passes buf cursor addr count =
        copyChunksFromRam mem (pageChunks.go passes addr count) buf cursor := by
  intro passes
  induction passes with
  | zero =>
    intro buf cursor addr count h
    rw [virtioMemcpyFromRam.loop, if_neg (by omega)]
    rfl
  | succ passes ih =>
    intro buf cursor addr count h
    have hl := pageRemaining_pos addr
    rw [virtioMemcpyFromRam.loop, pageChunks.go]
    by_cases hpos : 0 < count
    · rw [if_pos hpos, if_pos hpos, copyChunksFromRam]
      dsimp only
      congr 1
      funext ⟨b, k⟩
      exact ih _ _ _ _ (by omega)
    · rw [if_neg hpos, if_neg hpos]
      rfl

theorem virtioMemcpyToRam_loop_chunks (buf : HostBuffer) :
    ∀ (passes : Nat) (mem : GuestMemory) (addr : U64) (cursor : Int) (count : Int),
      count.toNat ≤ passes →
      virtioMemcpyToRam.loop buf passes mem addr cursor count =
        copyChunksToRam buf (pageChunks.go passes addr count) mem cursor := by
  intro passes
  induction passes with
  | zero =>
    intro mem addr cursor count h
    rw [virtioMemcpyToRam.loop, if_neg (by omega)]
    rfl
  | succ passes ih =>
    intro mem addr cursor count h
    have hl := pageRemaining_pos addr
    rw [virtioMemcpyToRam.loop, pageChunks.go]
    by_cases hpos : 0 < count
    · rw [if_pos hpos, if_pos hpos, copyChunksToRam]
      dsimp only
      congr 1
      funext ⟨b, k⟩
      exact ih _ _ _ _ (by omega)
    · rw [if_neg hpos, if_neg hpos]
      rfl

/-- `virtio_memcpy_from_ram` is the page-local copies of its pieces, in order. -/
theorem virtioMemcpyFromRam_chunks (mem : GuestMemory) (buf : HostBuffer) (cursor : Int)
    (addr : U64) (count : Int) :
    virtioMemcpyFromRam mem buf cursor addr count =
      copyChunksFromRam mem (pageChunks addr count) buf cursor :=
  virtioMemcpyFromRam_loop_chunks mem _ _ _ _ _ (Nat.le_refl _)

/-- `virtio_memcpy_to_ram` is the page-local copies of its pieces, in order. -/
theorem virtioMemcpyToRam_chunks (mem : GuestMemory) (addr : U64) (buf : HostBuffer)
    (cursor : Int) (count : Int) :
    virtioMemcpyToRam mem addr buf cursor count =
      copyChunksToRam buf (pageChunks addr count) mem cursor :=
  virtioMemcpyToRam_loop_chunks buf _ _ _ _ _ (Nat.le_refl _)

/-! ## Every piece lies in one page -/

/-- What is left of `addr`'s page is `VIRTIO_PAGE_SIZE` less `addr`'s offset in it. -/
theorem pageRemaining_eq (addr : U64) :
    pageRemaining addr = ((virtioPageSize - addr.toNat % virtioPageSize : Nat) : Int) := by
  rw [pageRemaining, BitVec.toNat_and,
    show (BitVec.ofNat 64 (virtioPageSize - 1)).toNat = 2 ^ 12 - 1 from rfl,
    Nat.and_pow_two_sub_one_eq_mod]
  rfl

/-- A piece no longer than what is left of its page stays in the page: each of its bytes
has the page number of the first. -/
theorem page_eq_of_le_pageRemaining {a : U64} {l : Int} (hl : l ≤ pageRemaining a) {i : Nat}
    (hi : i < l.toNat) :
    (a + BitVec.ofNat 64 i).toNat / virtioPageSize = a.toNat / virtioPageSize := by
  rw [pageRemaining_eq] at hl
  have ha := a.isLt
  rw [BitVec.toNat_add, BitVec.toNat_ofNat]
  simp only [virtioPageSize] at hl ⊢
  omega

/-- `chunks` cut the copy of `count` bytes from `addr` at page boundaries: each piece is
non-empty and lies in one `VIRTIO_PAGE_SIZE`-aligned page (each of its bytes has the page
number of its first), and the pieces follow each other over the copy's bytes. -/
structure PageSplit (addr : U64) (count : Int) (chunks : List (U64 × Int)) : Prop where
  pos : ∀ c ∈ chunks, 0 < c.2
  onePage : ∀ c ∈ chunks, ∀ i < c.2.toNat,
    (c.1 + BitVec.ofNat 64 i).toNat / virtioPageSize = c.1.toNat / virtioPageSize
  tiles : Tiles addr count.toNat (chunks.map fun c => (c.1, c.2.toNat))

theorem PageSplit.nil {addr : U64} {count : Int} (h : count ≤ 0) : PageSplit addr count [] :=
  ⟨nofun, nofun, by rw [show count.toNat = 0 by omega]; exact .nil addr⟩

/-- A first piece of `l` bytes, inside `addr`'s page and the copy, before a split of the
rest. -/
theorem PageSplit.cons {addr : U64} {count l : Int} {chunks : List (U64 × Int)} (hl : 0 < l)
    (hle : l ≤ count) (hpage : l ≤ pageRemaining addr)
    (h : PageSplit (addr + BitVec.ofInt 64 l) (count - l) chunks) :
    PageSplit addr count ((addr, l) :: chunks) where
  pos := by
    rintro c (_ | ⟨_, hc⟩)
    · exact hl
    · exact h.pos c hc
  onePage := by
    rintro c (_ | ⟨_, hc⟩)
    · exact fun i hi => page_eq_of_le_pageRemaining hpage hi
    · exact h.onePage c hc
  tiles := by
    have ht := Tiles.cons (w := l.toNat) (by rw [← ofInt_eq_ofNat_toNat (Int.le_of_lt hl)]; exact h.tiles)
    rwa [show l.toNat + (count - l).toNat = count.toNat by omega] at ht

theorem pageChunks_go_split :
    ∀ (passes : Nat) (addr : U64) (count : Int), count.toNat ≤ passes →
      PageSplit addr count (pageChunks.go passes addr count) := by
  intro passes
  induction passes with
  | zero => intro addr count h; exact .nil (by omega)
  | succ passes ih =>
    intro addr count h
    rw [pageChunks.go]
    by_cases hpos : 0 < count
    · have hl := pageRemaining_pos addr
      rw [if_pos hpos]
      exact .cons (by omega) (Int.min_le_left _ _) (Int.min_le_right _ _) (ih _ _ (by omega))
    · rw [if_neg hpos]
      exact .nil (by omega)

/-- The pieces of every copy cut it at page boundaries and cover it in order. -/
theorem pageChunks_split (addr : U64) (count : Int) : PageSplit addr count (pageChunks addr count) :=
  pageChunks_go_split _ _ _ (Nat.le_refl _)

example : pageChunks 0xfffffffffffffffe 4 = [(0xfffffffffffffffe, 2), (0, 2)] := by decide

/-! ## What the copies do, byte by byte -/

/-- `virtio_memcpy_from_ram` puts the guest byte at `addr + i` at buffer position
`cursor + i`, for every `i < count`, and touches no other position; a copy the buffer does not
hold is undefined behaviour. -/
theorem virtioMemcpyFromRam_bytes (mem : GuestMemory) (buf : HostBuffer) (cursor : Int)
    (addr : U64) (count : Int) :
    (buf.Holds cursor count → ∃ buf', virtioMemcpyFromRam mem buf cursor addr count = .done buf' ∧
      buf'.size = buf.size ∧
      (∀ i < count.toNat, buf'.bytes (cursor.toNat + i) = mem (addr + BitVec.ofNat 64 i)) ∧
      ∀ j, j < cursor.toNat ∨ cursor.toNat + count.toNat ≤ j → buf'.bytes j = buf.bytes j) ∧
    (¬ buf.Holds cursor count → virtioMemcpyFromRam mem buf cursor addr count = .fault) := by
  have hiff : (bytesAt mem addr count.toNat = [] ∨
      (0 ≤ cursor ∧ cursor + (bytesAt mem addr count.toNat).length ≤ buf.size)) ↔
      buf.Holds cursor count := by
    rw [← List.length_eq_zero, length_bytesAt, HostBuffer.Holds]
    omega
  rw [virtioMemcpyFromRam_eq, HostBuffer.writeList_eq]
  refine ⟨fun h => ⟨_, if_pos (hiff.mpr h), HostBuffer.size_overwrite _ _ _, fun i hi => ?_,
    fun j hj => ?_⟩, fun h => if_neg (mt hiff.mp h)⟩
  · rw [HostBuffer.overwrite_bytes, if_pos (by rw [length_bytesAt]; omega), Nat.add_sub_cancel_left,
      getD_bytesAt _ _ hi]
  · rw [HostBuffer.overwrite_bytes, if_neg (by rw [length_bytesAt]; omega)]

/-- For every `count` up to `2^64` (every `int` count), `virtio_memcpy_to_ram` puts buffer
byte `cursor + i` at `addr + i`, for every `i < count`, and changes no other guest byte; a copy
the buffer does not hold is undefined behaviour. -/
theorem virtioMemcpyToRam_bytes (mem : GuestMemory) (addr : U64) (buf : HostBuffer)
    (cursor : Int) {count : Int} (hcount : count ≤ 2 ^ 64) :
    (buf.Holds cursor count → ∃ mem', virtioMemcpyToRam mem addr buf cursor count = .done mem' ∧
      (∀ i < count.toNat, mem' (addr + BitVec.ofNat 64 i) = buf.bytes (cursor.toNat + i)) ∧
      ∀ a, (∀ i < count.toNat, a ≠ addr + BitVec.ofNat 64 i) → mem' a = mem a) ∧
    (¬ buf.Holds cursor count → virtioMemcpyToRam mem addr buf cursor count = .fault) := by
  have hiff : (count.toNat = 0 ∨ (0 ≤ cursor ∧ cursor + (count.toNat : Int) ≤ buf.size)) ↔
      buf.Holds cursor count := by
    rw [HostBuffer.Holds]
    omega
  have hlen : (buf.slice cursor.toNat count.toNat).length ≤ 2 ^ 64 := by
    rw [HostBuffer.length_slice]
    omega
  rw [virtioMemcpyToRam_eq, HostBuffer.readList_eq]
  refine ⟨fun h => ⟨_, by rw [if_pos (hiff.mpr h)]; rfl, fun i hi => ?_, fun a ha => ?_⟩,
    fun h => by rw [if_neg (mt hiff.mp h)]; rfl⟩
  · have hoff : ((addr + BitVec.ofNat 64 i) - addr).toNat = i := by bv_omega
    rw [storeBytes_apply _ _ _ _ hlen, if_pos (by rw [InRegion, hoff, HostBuffer.length_slice]; exact hi),
      hoff, HostBuffer.getD_slice _ _ hi]
  · refine storeBytes_outside _ _ _ _ fun hin => ?_
    rw [InRegion, HostBuffer.length_slice] at hin
    exact ha _ hin (by bv_omega)

/-! ## The RAM copies as a whole -/

/-- For every guest address and every `count` up to `2^64` (every `int` count): both copies
are the page-local copies of the pieces `pageChunks addr count`, in order, which cut the copy at
page boundaries and follow each other over it, and both loops end. When the buffer holds the
`count` bytes from `cursor`, `virtio_memcpy_to_ram` puts buffer byte `cursor + i` at
`addr + i` for every `i < count` and changes no other guest byte, and
`virtio_memcpy_from_ram` puts the guest byte at `addr + i` at buffer position `cursor + i` and
touches no other position; otherwise both are undefined behaviour. -/
theorem virtioMemcpyRam_pageSplit (mem : GuestMemory) (buf : HostBuffer) (cursor : Int)
    (addr : U64) {count : Int} (hcount : count ≤ 2 ^ 64) :
    virtioMemcpyFromRam mem buf cursor addr count =
      copyChunksFromRam mem (pageChunks addr count) buf cursor ∧
    virtioMemcpyToRam mem addr buf cursor count =
      copyChunksToRam buf (pageChunks addr count) mem cursor ∧
    PageSplit addr count (pageChunks addr count) ∧
    virtioMemcpyFromRam mem buf cursor addr count ≠ .diverge ∧
    virtioMemcpyToRam mem addr buf cursor count ≠ .diverge ∧
    (buf.Holds cursor count →
      (∃ mem', virtioMemcpyToRam mem addr buf cursor count = .done mem' ∧
        (∀ i < count.toNat, mem' (addr + BitVec.ofNat 64 i) = buf.bytes (cursor.toNat + i)) ∧
        ∀ a, (∀ i < count.toNat, a ≠ addr + BitVec.ofNat 64 i) → mem' a = mem a) ∧
      ∃ buf', virtioMemcpyFromRam mem buf cursor addr count = .done buf' ∧
        buf'.size = buf.size ∧
        (∀ i < count.toNat, buf'.bytes (cursor.toNat + i) = mem (addr + BitVec.ofNat 64 i)) ∧
        ∀ j, j < cursor.toNat ∨ cursor.toNat + count.toNat ≤ j → buf'.bytes j = buf.bytes j) ∧
    (¬ buf.Holds cursor count →
      virtioMemcpyToRam mem addr buf cursor count = .fault ∧
        virtioMemcpyFromRam mem buf cursor addr count = .fault) := by
  have hto := virtioMemcpyToRam_bytes mem addr buf cursor hcount
  have hfrom := virtioMemcpyFromRam_bytes mem buf cursor addr count
  refine ⟨virtioMemcpyFromRam_chunks .., virtioMemcpyToRam_chunks .., pageChunks_split addr count,
    ?_, ?_, fun h => ⟨hto.1 h, hfrom.1 h⟩, fun h => ⟨hto.2 h, hfrom.2 h⟩⟩
  · rw [virtioMemcpyFromRam_eq]
    exact HostBuffer.writeList_ne_diverge _ _ _
  · rw [virtioMemcpyToRam_eq]
    exact Outcome.bind_ne_diverge (HostBuffer.readList_ne_diverge _ _ _) fun _ _ h => nomatch h

/-- Four bytes copied across the top of the address space, two on its last page and two on
its first. -/
theorem virtioMemcpyRam_pageSplit_top :
    (4 : Int) ≤ 2 ^ 64 ∧
    virtioMemcpyFromRam (fun _ => 0) (HostBuffer.ofList [1, 2, 3, 4]) 0 0xfffffffffffffffe 4 =
      copyChunksFromRam (fun _ => 0) (pageChunks 0xfffffffffffffffe 4)
        (HostBuffer.ofList [1, 2, 3, 4]) 0 ∧
    virtioMemcpyToRam (fun _ => 0) 0xfffffffffffffffe (HostBuffer.ofList [1, 2, 3, 4]) 0 4 =
      copyChunksToRam (HostBuffer.ofList [1, 2, 3, 4]) (pageChunks 0xfffffffffffffffe 4)
        (fun _ => 0) 0 ∧
    PageSplit 0xfffffffffffffffe 4 (pageChunks 0xfffffffffffffffe 4) ∧
    virtioMemcpyFromRam (fun _ => 0) (HostBuffer.ofList [1, 2, 3, 4]) 0 0xfffffffffffffffe 4 ≠
      .diverge ∧
    virtioMemcpyToRam (fun _ => 0) 0xfffffffffffffffe (HostBuffer.ofList [1, 2, 3, 4]) 0 4 ≠
      .diverge ∧
    ((HostBuffer.ofList [1, 2, 3, 4]).Holds 0 4 →
      (∃ mem', virtioMemcpyToRam (fun _ => 0) 0xfffffffffffffffe
          (HostBuffer.ofList [1, 2, 3, 4]) 0 4 = .done mem' ∧
        (∀ i < (4 : Int).toNat, mem' (0xfffffffffffffffe + BitVec.ofNat 64 i) =
          (HostBuffer.ofList [1, 2, 3, 4]).bytes ((0 : Int).toNat + i)) ∧
        ∀ a, (∀ i < (4 : Int).toNat, a ≠ 0xfffffffffffffffe + BitVec.ofNat 64 i) →
          mem' a = (fun _ => 0) a) ∧
      ∃ buf', virtioMemcpyFromRam (fun _ => 0) (HostBuffer.ofList [1, 2, 3, 4]) 0
          0xfffffffffffffffe 4 = .done buf' ∧
        buf'.size = (HostBuffer.ofList [1, 2, 3, 4]).size ∧
        (∀ i < (4 : Int).toNat, buf'.bytes ((0 : Int).toNat + i) =
          (fun _ => 0) (0xfffffffffffffffe + BitVec.ofNat 64 i)) ∧
        ∀ j, j < (0 : Int).toNat ∨ (0 : Int).toNat + (4 : Int).toNat ≤ j →
          buf'.bytes j = (HostBuffer.ofList [1, 2, 3, 4]).bytes j) ∧
    (¬ (HostBuffer.ofList [1, 2, 3, 4]).Holds 0 4 →
      virtioMemcpyToRam (fun _ => 0) 0xfffffffffffffffe (HostBuffer.ofList [1, 2, 3, 4]) 0 4 =
        .fault ∧
      virtioMemcpyFromRam (fun _ => 0) (HostBuffer.ofList [1, 2, 3, 4]) 0 0xfffffffffffffffe 4 =
        .fault) :=
  ⟨by decide, virtioMemcpyRam_pageSplit _ _ _ _ (by decide)⟩

/-- What `virtio_memcpy_to_ram` writes, `virtio_memcpy_from_ram` reads back: `count` bytes of
a buffer copied to guest memory at `addr` and then from `addr` into a second buffer arrive
there in order, across page boundaries and the top of the address space. -/
theorem virtioMemcpyRam_roundTrip (mem : GuestMemory) (addr : U64) (src dst : HostBuffer)
    (srcCursor dstCursor : Int) {count : Int} (hcount : count ≤ 2 ^ 64)
    (hsrc : src.Holds srcCursor count) (hdst : dst.Holds dstCursor count) :
    ∃ mem' dst', virtioMemcpyToRam mem addr src srcCursor count = .done mem' ∧
      virtioMemcpyFromRam mem' dst dstCursor addr count = .done dst' ∧
      ∀ i < count.toNat, dst'.bytes (dstCursor.toNat + i) = src.bytes (srcCursor.toNat + i) := by
  obtain ⟨mem', hto, hmem, -⟩ := (virtioMemcpyToRam_bytes mem addr src srcCursor hcount).1 hsrc
  obtain ⟨dst', hfrom, -, hdst', -⟩ := (virtioMemcpyFromRam_bytes mem' dst dstCursor addr count).1 hdst
  exact ⟨mem', dst', hto, hfrom, fun i hi => (hdst' i hi).trans (hmem i hi)⟩

theorem virtioMemcpyRam_roundTrip_top :
    (4 : Int) ≤ 2 ^ 64 ∧ (HostBuffer.ofList [1, 2, 3, 4]).Holds 0 4 ∧
    (HostBuffer.malloc 4).Holds 0 4 ∧
    ∃ mem' dst', virtioMemcpyToRam (fun _ => 0) 0xfffffffffffffffe (HostBuffer.ofList [1, 2, 3, 4])
        0 4 = .done mem' ∧
      virtioMemcpyFromRam mem' (HostBuffer.malloc 4) 0 0xfffffffffffffffe 4 = .done dst' ∧
      ∀ i < (4 : Int).toNat, dst'.bytes ((0 : Int).toNat + i) =
        (HostBuffer.ofList [1, 2, 3, 4]).bytes ((0 : Int).toNat + i) :=
  ⟨by decide, by decide, by decide,
    virtioMemcpyRam_roundTrip _ _ _ _ _ _ (by decide) (by decide) (by decide)⟩

end GuestMemory

end SpikeDevices
