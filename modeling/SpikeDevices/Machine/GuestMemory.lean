import SpikeDevices.Machine.Basic

/-!
# Guest memory, host buffers and the RAM copy loops

Guest memory is what the simulator's `debug_mmu` shows the device: one byte at every 64-bit
address, with wrapping address arithmetic, and multi-byte accesses composed little-endian
(`virtio_read16`, `virtio_write16`, `virtio_write32`). A host buffer is a `malloc`ed block;
the device code addresses it through a moving pointer, which is a position `cursor : Int`
here, and any access outside the block is undefined behaviour (`fault`).

`virtio_memcpy_from_ram` and `virtio_memcpy_to_ram` split a copy at page boundaries and hand
each piece to a byte loop. `virtioMemcpyFromRam_eq` and `virtioMemcpyToRam_eq` say what the
two loops do as a whole: copy `count` consecutive bytes.
-/

namespace SpikeDevices

/-- Guest physical memory: a byte at every 64-bit address. -/
abbrev GuestMemory := U64 → U8

namespace GuestMemory

/-- `mmu_t::store<uint8_t>`. -/
def store8 (mem : GuestMemory) (addr : U64) (val : U8) : GuestMemory :=
  fun a => if a = addr then val else mem a

/-- The `n` bytes at `addr`, `addr + 1`, … . -/
def bytesAt (mem : GuestMemory) (addr : U64) : Nat → List U8
  | 0 => []
  | n + 1 => mem addr :: bytesAt mem (addr + 1) n

/-- A byte string stored from `addr` on, one byte after the other. -/
def storeBytes (mem : GuestMemory) (addr : U64) : List U8 → GuestMemory
  | [] => mem
  | b :: bs => storeBytes (store8 mem addr b) (addr + 1) bs

/-- `virtio_read16`: `mmu_t::load<uint16_t>`, little-endian. -/
def load16 (mem : GuestMemory) (addr : U64) : U16 := BitVec.ofNat 16 (decodeLE (bytesAt mem addr 2))

/-- `mmu_t::load<uint32_t>`, little-endian. -/
def load32 (mem : GuestMemory) (addr : U64) : U32 := BitVec.ofNat 32 (decodeLE (bytesAt mem addr 4))

/-- `mmu_t::load<uint64_t>`, little-endian. -/
def load64 (mem : GuestMemory) (addr : U64) : U64 := BitVec.ofNat 64 (decodeLE (bytesAt mem addr 8))

/-- `virtio_write16`: `mmu_t::store<uint16_t>`, little-endian. -/
def store16 (mem : GuestMemory) (addr : U64) (val : U16) : GuestMemory :=
  storeBytes mem addr (encodeLE 2 val.toNat)

/-- `virtio_write32`: `mmu_t::store<uint32_t>`, little-endian. -/
def store32 (mem : GuestMemory) (addr : U64) (val : U32) : GuestMemory :=
  storeBytes mem addr (encodeLE 4 val.toNat)

/-- `mmu_t::store<uint64_t>`, little-endian. -/
def store64 (mem : GuestMemory) (addr : U64) (val : U64) : GuestMemory :=
  storeBytes mem addr (encodeLE 8 val.toNat)

/-! ## Regions -/

/-- `a` lies in the `len` bytes from `base` on, counted modulo `2^64`. -/
def InRegion (base : U64) (len : Nat) (a : U64) : Prop := (a - base).toNat < len

instance (base : U64) (len : Nat) (a : U64) : Decidable (InRegion base len a) :=
  inferInstanceAs (Decidable (_ < _))

theorem inRegion_base {base : U64} {len : Nat} (h : 0 < len) : InRegion base len base := by
  simp [InRegion, h]

/-- The region from `base` of length `len + 1` is `base` and the region from `base + 1`. -/
theorem inRegion_succ {base a : U64} {len : Nat} :
    InRegion base (len + 1) a ↔ a = base ∨ InRegion (base + 1) len a := by
  simp only [InRegion]
  bv_omega

/-- A region that starts `k` bytes into another and ends before it is part of it. -/
theorem inRegion_of_sub {base e a : U64} {k n len : Nat} (hk : (e - base).toNat = k)
    (hle : k + n ≤ len) (ha : InRegion e n a) : InRegion base len a := by
  simp only [InRegion] at *
  bv_omega

theorem inRegion_of_le {base a : U64} {n len : Nat} (hle : n ≤ len) (ha : InRegion base n a) :
    InRegion base len a :=
  Nat.lt_of_lt_of_le ha hle

/-! ## What a store changes -/

@[simp] theorem store8_apply (mem : GuestMemory) (addr a : U64) (val : U8) :
    store8 mem addr val a = if a = addr then val else mem a := rfl

@[simp] theorem length_bytesAt (mem : GuestMemory) (addr : U64) (n : Nat) :
    (bytesAt mem addr n).length = n := by
  induction n generalizing addr with
  | zero => rfl
  | succ n ih => simp [bytesAt, ih]

/-- A byte outside the written region keeps its value. -/
theorem storeBytes_outside (mem : GuestMemory) (addr a : U64) (bs : List U8)
    (h : ¬ InRegion addr bs.length a) : storeBytes mem addr bs a = mem a := by
  induction bs generalizing mem addr with
  | nil => rfl
  | cons b bs ih =>
    simp only [List.length_cons, inRegion_succ, not_or] at h
    rw [storeBytes, ih _ _ h.2, store8_apply, if_neg h.1]

/-- The value of every byte after a store of at most `2^64` bytes. -/
theorem storeBytes_apply (mem : GuestMemory) (addr a : U64) (bs : List U8)
    (hlen : bs.length ≤ 2 ^ 64) :
    storeBytes mem addr bs a =
      if InRegion addr bs.length a then bs.getD (a - addr).toNat 0 else mem a := by
  induction bs generalizing mem addr with
  | nil => simp [storeBytes, InRegion]
  | cons b bs ih =>
    simp only [List.length_cons] at hlen
    rw [storeBytes, ih _ _ (by omega)]
    by_cases hab : a = addr
    · subst hab
      have : ¬ InRegion (a + 1) bs.length a := by simp only [InRegion]; bv_omega
      rw [if_neg this]
      simp [InRegion]
    · have hpos : (a - addr).toNat = (a - (addr + 1)).toNat + 1 := by bv_omega
      simp only [List.length_cons, inRegion_succ, hab, false_or, store8_apply, if_false, hpos,
        List.getD_cons_succ]

/-- Reading back the bytes just stored. -/
theorem bytesAt_storeBytes (mem : GuestMemory) (addr : U64) (bs : List U8)
    (hlen : bs.length ≤ 2 ^ 64) : bytesAt (storeBytes mem addr bs) addr bs.length = bs := by
  induction bs generalizing mem addr with
  | nil => rfl
  | cons b bs ih =>
    simp only [List.length_cons] at hlen
    simp only [storeBytes, List.length_cons, bytesAt, ih _ _ (by omega), List.cons.injEq,
      and_true]
    rw [storeBytes_outside _ _ _ _ (by simp only [InRegion]; bv_omega)]
    simp

/-- A read sees only the bytes of its own region. -/
theorem bytesAt_congr {mem mem' : GuestMemory} {addr : U64} {n : Nat}
    (h : ∀ a, InRegion addr n a → mem a = mem' a) : bytesAt mem addr n = bytesAt mem' addr n := by
  induction n generalizing addr with
  | zero => rfl
  | succ n ih =>
    simp only [bytesAt, h addr (inRegion_base (Nat.succ_pos n)),
      ih fun a ha => h a (inRegion_succ.mpr (.inr ha))]

theorem bytesAt_add (mem : GuestMemory) (addr : U64) (m n : Nat) :
    bytesAt mem addr (m + n) = bytesAt mem addr m ++ bytesAt mem (addr + BitVec.ofNat 64 m) n := by
  induction m generalizing addr with
  | zero => simp [bytesAt]
  | succ m ih =>
    rw [Nat.succ_add, bytesAt, ih, bytesAt, List.cons_append]
    congr 3
    bv_omega

theorem storeBytes_append (mem : GuestMemory) (addr : U64) (xs ys : List U8) :
    storeBytes mem addr (xs ++ ys) =
      storeBytes (storeBytes mem addr xs) (addr + BitVec.ofNat 64 xs.length) ys := by
  induction xs generalizing mem addr with
  | nil => simp [storeBytes]
  | cons x xs ih =>
    have haddr : addr + 1 + BitVec.ofNat 64 xs.length =
        addr + BitVec.ofNat 64 (x :: xs).length := by
      simp only [List.length_cons]; bv_omega
    rw [List.cons_append, storeBytes, ih, storeBytes, haddr]

/-- A read of a region a store does not touch. -/
theorem bytesAt_storeBytes_of_disjoint (mem : GuestMemory) {addr addr' : U64} {n : Nat}
    {bs : List U8} (h : ∀ a, InRegion addr n a → ¬ InRegion addr' bs.length a) :
    bytesAt (storeBytes mem addr' bs) addr n = bytesAt mem addr n :=
  bytesAt_congr fun a ha => storeBytes_outside mem addr' a bs (h a ha)

theorem load32_store32 (mem : GuestMemory) (addr : U64) (val : U32) :
    load32 (store32 mem addr val) addr = val := by
  have h := bytesAt_storeBytes mem addr (encodeLE 4 val.toNat) (by simp)
  simp only [length_encodeLE] at h
  simp only [load32, store32, h, decodeLE_encodeLE]
  apply BitVec.eq_of_toNat_eq
  simp [Nat.mod_eq_of_lt val.isLt]

theorem load16_store16 (mem : GuestMemory) (addr : U64) (val : U16) :
    load16 (store16 mem addr val) addr = val := by
  have h := bytesAt_storeBytes mem addr (encodeLE 2 val.toNat) (by simp)
  simp only [length_encodeLE] at h
  simp only [load16, store16, h, decodeLE_encodeLE]
  apply BitVec.eq_of_toNat_eq
  simp [Nat.mod_eq_of_lt val.isLt]

/-! ## Stores along a list of addresses -/

/-- The addresses `addr, addr + 1, …, addr + n - 1`. -/
def addrsFrom (addr : U64) : Nat → List U64
  | 0 => []
  | n + 1 => addr :: addrsFrom (addr + 1) n

/-- The bytes `bs` stored one after the other at the addresses `as`, as far as both go. -/
def storeAt (mem : GuestMemory) : List U64 → List U8 → GuestMemory
  | a :: as, b :: bs => storeAt (mem.store8 a b) as bs
  | _, _ => mem

/-- The bytes at the addresses `as`. -/
def loadAt (mem : GuestMemory) (as : List U64) : List U8 := as.map mem

@[simp] theorem length_addrsFrom (addr : U64) (n : Nat) : (addrsFrom addr n).length = n := by
  induction n generalizing addr with
  | zero => rfl
  | succ n ih => simp [addrsFrom, ih]

@[simp] theorem length_loadAt (mem : GuestMemory) (as : List U64) : (loadAt mem as).length = as.length :=
  List.length_map _ _

theorem mem_addrsFrom {addr a : U64} {n : Nat} : a ∈ addrsFrom addr n ↔ InRegion addr n a := by
  induction n generalizing addr with
  | zero => simp [addrsFrom, InRegion]
  | succ n ih => simp only [addrsFrom, List.mem_cons, ih, inRegion_succ]

/-- A run of at most `2^64` addresses does not wrap onto itself. -/
theorem nodup_addrsFrom : ∀ (addr : U64) {n : Nat}, n ≤ 2 ^ 64 → (addrsFrom addr n).Nodup
  | _, 0, _ => List.nodup_nil
  | addr, n + 1, h => List.nodup_cons.mpr ⟨fun ha => by
      rw [mem_addrsFrom, InRegion] at ha
      bv_omega, nodup_addrsFrom (addr + 1) (by omega)⟩

theorem addrsFrom_add (addr : U64) (m n : Nat) :
    addrsFrom addr (m + n) = addrsFrom addr m ++ addrsFrom (addr + BitVec.ofNat 64 m) n := by
  induction m generalizing addr with
  | zero => simp [addrsFrom]
  | succ m ih =>
    rw [Nat.succ_add, addrsFrom, ih, addrsFrom, List.cons_append]
    congr 3
    bv_omega

theorem drop_addrsFrom (addr : U64) {o n : Nat} (h : o ≤ n) :
    (addrsFrom addr n).drop o = addrsFrom (addr + BitVec.ofNat 64 o) (n - o) := by
  obtain ⟨k, rfl⟩ := Nat.exists_eq_add_of_le h
  rw [addrsFrom_add, List.drop_left' (length_addrsFrom _ _), Nat.add_sub_cancel_left]

theorem take_addrsFrom (addr : U64) {c n : Nat} (h : c ≤ n) :
    (addrsFrom addr n).take c = addrsFrom addr c := by
  obtain ⟨k, rfl⟩ := Nat.exists_eq_add_of_le h
  rw [addrsFrom_add, List.take_left' (length_addrsFrom _ _)]

theorem storeBytes_eq_storeAt (mem : GuestMemory) (addr : U64) (bs : List U8) :
    storeBytes mem addr bs = storeAt mem (addrsFrom addr bs.length) bs := by
  induction bs generalizing mem addr with
  | nil => rfl
  | cons b bs ih => exact ih _ _

theorem bytesAt_eq_loadAt (mem : GuestMemory) (addr : U64) (n : Nat) :
    bytesAt mem addr n = loadAt mem (addrsFrom addr n) := by
  induction n generalizing addr with
  | zero => rfl
  | succ n ih => simp only [bytesAt, addrsFrom, loadAt, List.map_cons, ih]

theorem storeAt_outside (mem : GuestMemory) (as : List U64) (bs : List U8) {a : U64}
    (h : a ∉ as) : storeAt mem as bs a = mem a := by
  induction as generalizing mem bs with
  | nil => cases bs <;> rfl
  | cons x as ih =>
    cases bs with
    | nil => rfl
    | cons b bs =>
      simp only [List.mem_cons, not_or] at h
      rw [storeAt, ih _ _ h.2, store8_apply, if_neg h.1]

/-- Stored at distinct addresses, the bytes read back in order. -/
theorem loadAt_storeAt (mem : GuestMemory) {as : List U64} {bs : List U8} (hnd : as.Nodup)
    (hlen : as.length = bs.length) : loadAt (storeAt mem as bs) as = bs := by
  induction as generalizing mem bs with
  | nil => cases bs <;> simp_all [loadAt]
  | cons a as ih =>
    cases bs with
    | nil => simp at hlen
    | cons b bs =>
      rw [List.nodup_cons] at hnd
      simp only [List.length_cons, Nat.add_right_cancel_iff] at hlen
      simp only [storeAt, loadAt, List.map_cons] at ih ⊢
      rw [storeAt_outside _ _ _ hnd.1, store8_apply, if_pos rfl, ih _ hnd.2 hlen]

theorem storeAt_append (mem : GuestMemory) (as as' : List U64) (bs bs' : List U8)
    (h : as.length = bs.length) : storeAt mem (as ++ as') (bs ++ bs') = storeAt (storeAt mem as bs) as' bs' := by
  induction as generalizing mem bs with
  | nil =>
    cases bs with
    | nil => rfl
    | cons b bs => simp at h
  | cons a as ih =>
    cases bs with
    | nil => simp at h
    | cons b bs => exact ih _ _ (by simpa using h)

/-- Bytes that end within the first addresses are stored there alone. -/
theorem storeAt_append_of_le (mem : GuestMemory) (as as' : List U64) (bs : List U8)
    (h : bs.length ≤ as.length) : storeAt mem (as ++ as') bs = storeAt mem as bs := by
  induction as generalizing mem bs with
  | nil =>
    cases bs with
    | nil => cases as' <;> rfl
    | cons b bs => simp at h
  | cons a as ih =>
    cases bs with
    | nil => cases as' <;> rfl
    | cons b bs => exact ih _ _ (by simpa using h)

end GuestMemory

/-! ## Host buffers -/

/-- A host allocation of `size` bytes. Positions are relative to the pointer `malloc`
returned; an access outside `[0, size)` is undefined behaviour. -/
structure HostBuffer where
  size : Nat
  bytes : Nat → U8

namespace HostBuffer

/-- `malloc(n)` for a C `int` `n`. A negative `n` converts to a huge `size_t`, so the
allocation fails and any access through the null pointer faults. The contents of a fresh
block are indeterminate; the model fixes them to zero. -/
def malloc (n : Int) : HostBuffer := ⟨n.toNat, fun _ => 0⟩

/-- A block holding the given bytes, such as a stack array. -/
def ofList (bs : List U8) : HostBuffer := ⟨bs.length, fun i => bs.getD i 0⟩

/-- `buf[pos]`. -/
def read (buf : HostBuffer) (pos : Int) : Outcome U8 :=
  if 0 ≤ pos ∧ pos < buf.size then .done (buf.bytes pos.toNat) else .fault

/-- The byte at `pos` replaced, with no bounds check. -/
def setByte (buf : HostBuffer) (pos : Nat) (val : U8) : HostBuffer :=
  { buf with bytes := fun i => if i = pos then val else buf.bytes i }

/-- The bytes from `pos` on replaced by `bs`, with no bounds check. -/
def overwrite (buf : HostBuffer) (pos : Nat) : List U8 → HostBuffer
  | [] => buf
  | b :: bs => (buf.setByte pos b).overwrite (pos + 1) bs

/-- `buf[pos] = val`. -/
def write (buf : HostBuffer) (pos : Int) (val : U8) : Outcome HostBuffer :=
  if 0 ≤ pos ∧ pos < buf.size then .done (buf.setByte pos.toNat val) else .fault

/-- `n` bytes read from `pos` on. -/
def readList (buf : HostBuffer) (pos : Int) : Nat → Outcome (List U8)
  | 0 => .done []
  | n + 1 => do
    let b ← buf.read pos
    let bs ← buf.readList (pos + 1) n
    pure (b :: bs)

/-- `bs` written from `pos` on. -/
def writeList (buf : HostBuffer) (pos : Int) : List U8 → Outcome HostBuffer
  | [] => .done buf
  | b :: bs => do
    let buf ← buf.write pos b
    buf.writeList (pos + 1) bs

/-- The `n` bytes from `pos` on. -/
def slice (buf : HostBuffer) (pos : Nat) : Nat → List U8
  | 0 => []
  | n + 1 => buf.bytes pos :: buf.slice (pos + 1) n

@[simp] theorem size_setByte (buf : HostBuffer) (pos : Nat) (val : U8) :
    (buf.setByte pos val).size = buf.size := rfl

@[simp] theorem size_overwrite (buf : HostBuffer) (pos : Nat) (bs : List U8) :
    (buf.overwrite pos bs).size = buf.size := by
  induction bs generalizing buf pos with
  | nil => rfl
  | cons b bs ih => simp [overwrite, ih]

@[simp] theorem length_slice (buf : HostBuffer) (pos n : Nat) : (buf.slice pos n).length = n := by
  induction n generalizing pos with
  | zero => rfl
  | succ n ih => simp [slice, ih]

/-- The value of every byte after an overwrite. -/
theorem overwrite_bytes (buf : HostBuffer) (pos : Nat) (bs : List U8) (i : Nat) :
    (buf.overwrite pos bs).bytes i =
      if pos ≤ i ∧ i < pos + bs.length then bs.getD (i - pos) 0 else buf.bytes i := by
  induction bs generalizing buf pos with
  | nil => simp only [overwrite, List.length_nil, Nat.add_zero]; rw [if_neg (by omega)]
  | cons b bs ih =>
    rw [overwrite, ih]
    simp only [setByte, List.length_cons]
    by_cases h : i = pos
    · subst h
      rw [if_neg (by omega), if_pos rfl, if_pos (by omega), Nat.sub_self]
      rfl
    · by_cases h' : pos + 1 ≤ i ∧ i < pos + 1 + bs.length
      · rw [if_pos h', if_pos (by omega), show i - pos = (i - (pos + 1)) + 1 by omega,
          List.getD_cons_succ]
      · rw [if_neg h', if_neg h, if_neg (by omega)]

/-- A byte written is read back. -/
theorem read_of_write {buf buf' : HostBuffer} {pos : Int} {val : U8}
    (h : buf.write pos val = .done buf') : buf'.read pos = .done val := by
  unfold write at h
  split at h
  · next hp => cases h; simp only [read, size_setByte, setByte, if_pos hp]; rfl
  · cases h

/-- A read inside the block returns its bytes; one that leaves it faults. -/
theorem readList_eq (buf : HostBuffer) (pos : Int) (n : Nat) :
    buf.readList pos n =
      if n = 0 ∨ (0 ≤ pos ∧ pos + n ≤ buf.size) then .done (buf.slice pos.toNat n) else .fault := by
  induction n generalizing pos with
  | zero => simp [readList, slice]
  | succ n ih =>
    rw [readList, ih]
    by_cases hp : 0 ≤ pos ∧ pos < buf.size
    · rw [read, if_pos hp, Outcome.done_bind]
      by_cases hin : 0 ≤ pos ∧ pos + (n + 1 : Nat) ≤ buf.size
      · have h1 : n = 0 ∨ (0 ≤ pos + 1 ∧ pos + 1 + n ≤ buf.size) := .inr (by omega)
        have h2 : n + 1 = 0 ∨ (0 ≤ pos ∧ pos + (n + 1 : Nat) ≤ buf.size) := .inr hin
        rw [if_pos h1, if_pos h2, Outcome.done_bind, slice, show (pos + 1).toNat = pos.toNat + 1
          by omega]
        rfl
      · have h1 : ¬ (n = 0 ∨ (0 ≤ pos + 1 ∧ pos + 1 + n ≤ buf.size)) := by omega
        have h2 : ¬ (n + 1 = 0 ∨ (0 ≤ pos ∧ pos + (n + 1 : Nat) ≤ buf.size)) := by omega
        rw [if_neg h1, if_neg h2, Outcome.fault_bind]
    · have h2 : ¬ (n + 1 = 0 ∨ (0 ≤ pos ∧ pos + (n + 1 : Nat) ≤ buf.size)) := by omega
      rw [read, if_neg hp, Outcome.fault_bind, if_neg h2]

/-- A write inside the block updates it; one that leaves it faults. -/
theorem writeList_eq (buf : HostBuffer) (pos : Int) (bs : List U8) :
    buf.writeList pos bs =
      if bs = [] ∨ (0 ≤ pos ∧ pos + bs.length ≤ buf.size) then .done (buf.overwrite pos.toNat bs)
      else .fault := by
  induction bs generalizing buf pos with
  | nil => simp [writeList, overwrite]
  | cons b bs ih =>
    rw [writeList]
    by_cases hp : 0 ≤ pos ∧ pos < buf.size
    · rw [write, if_pos hp, Outcome.done_bind, ih, size_setByte]
      by_cases hin : 0 ≤ pos ∧ pos + (b :: bs).length ≤ buf.size
      · have h1 : bs = [] ∨ (0 ≤ pos + 1 ∧ pos + 1 + bs.length ≤ buf.size) :=
          .inr (by simp only [List.length_cons] at hin; omega)
        rw [if_pos h1, if_pos (.inr hin), overwrite, show (pos + 1).toNat = pos.toNat + 1 by omega]
      · have h1 : ¬ (bs = [] ∨ (0 ≤ pos + 1 ∧ pos + 1 + bs.length ≤ buf.size)) := by
          rintro (rfl | h)
          · simp at hin; omega
          · simp only [List.length_cons] at hin; omega
        have h2 : ¬ (b :: bs = [] ∨ (0 ≤ pos ∧ pos + (b :: bs).length ≤ buf.size)) := by
          simp only [List.cons_ne_nil, false_or]; exact hin
        rw [if_neg h1, if_neg h2]
    · have h2 : ¬ (b :: bs = [] ∨ (0 ≤ pos ∧ pos + (b :: bs).length ≤ buf.size)) := by
        simp only [List.cons_ne_nil, false_or, List.length_cons]; omega
      rw [write, if_neg hp, Outcome.fault_bind, if_neg h2]

/-- Reading back the bytes just written. -/
theorem slice_overwrite (buf : HostBuffer) (pos : Nat) (bs : List U8) :
    (buf.overwrite pos bs).slice pos bs.length = bs := by
  induction bs generalizing buf pos with
  | nil => rfl
  | cons b bs ih =>
    rw [List.length_cons, slice, overwrite, ih, overwrite_bytes, if_neg (by omega)]
    simp [setByte]

theorem writeList_append (buf : HostBuffer) (pos : Int) (xs ys : List U8) :
    buf.writeList pos (xs ++ ys) = buf.writeList pos xs >>= fun b => b.writeList (pos + xs.length) ys := by
  induction xs generalizing buf pos with
  | nil => simp [writeList]
  | cons x xs ih =>
    have e : pos + 1 + (xs.length : Int) = pos + ((xs.length + 1 : Nat) : Int) := by omega
    rw [List.cons_append, writeList, writeList, Outcome.bind_assoc]
    congr 1
    funext b
    rw [ih, List.length_cons, e]

theorem readList_add (buf : HostBuffer) (pos : Int) (m n : Nat) :
    buf.readList pos (m + n) =
      buf.readList pos m >>= fun xs => buf.readList (pos + m) n >>= fun ys => .done (xs ++ ys) := by
  induction m generalizing pos with
  | zero => simp [readList]
  | succ m ih =>
    rw [Nat.succ_add, readList, readList]
    simp only [Outcome.bind_assoc, ih, Outcome.pure_def, Outcome.done_bind]
    congr; funext b; congr; funext xs; congr 2
    omega

theorem slice_add (buf : HostBuffer) (pos m n : Nat) :
    buf.slice pos (m + n) = buf.slice pos m ++ buf.slice (pos + m) n := by
  induction m generalizing pos with
  | zero => simp [slice]
  | succ m ih => rw [Nat.succ_add, slice, slice, ih, List.cons_append, Nat.add_assoc, Nat.add_comm 1 m]

theorem slice_congr {buf buf' : HostBuffer} {pos n : Nat}
    (h : ∀ i, pos ≤ i → i < pos + n → buf.bytes i = buf'.bytes i) : buf.slice pos n = buf'.slice pos n := by
  induction n generalizing pos with
  | zero => rfl
  | succ n ih =>
    rw [slice, slice, h pos (Nat.le_refl _) (by omega), ih fun i h1 h2 => h i (by omega) (by omega)]

/-- A byte set past a slice leaves it alone. -/
theorem slice_setByte_of_le (buf : HostBuffer) {pos n p : Nat} (val : U8) (h : pos + n ≤ p) :
    (buf.setByte p val).slice pos n = buf.slice pos n :=
  slice_congr fun i _ hi => by simp only [setByte]; rw [if_neg (by omega)]

theorem overwrite_append (buf : HostBuffer) (pos : Nat) (xs ys : List U8) :
    buf.overwrite pos (xs ++ ys) = (buf.overwrite pos xs).overwrite (pos + xs.length) ys := by
  induction xs generalizing buf pos with
  | nil => rfl
  | cons x xs ih => rw [List.cons_append, overwrite, overwrite, ih, List.length_cons, Nat.add_assoc, Nat.add_comm 1]

theorem write_ne_diverge (buf : HostBuffer) (pos : Int) (val : U8) :
    buf.write pos val ≠ .diverge := by
  unfold write; split <;> exact fun h => nomatch h

theorem writeList_ne_diverge (buf : HostBuffer) (pos : Int) (bs : List U8) :
    buf.writeList pos bs ≠ .diverge := by
  rw [writeList_eq]; split <;> exact fun h => nomatch h

theorem readList_ne_diverge (buf : HostBuffer) (pos : Int) (n : Nat) :
    buf.readList pos n ≠ .diverge := by
  rw [readList_eq]; split <;> exact fun h => nomatch h

end HostBuffer

namespace GuestMemory

/-! ## The RAM copy loops -/

/-- `memcpy_from_ram_intrapage` as built (`OPT_MEMCPY_RAM` is not defined): the byte loop
`buf[l] = load<uint8_t>(addr + l)` while `count > 0`. It returns `l`. -/
def memcpyFromRamIntrapage (mem : GuestMemory) (buf : HostBuffer) (cursor : Int) (addr : U64)
    (count : Int) : Outcome (HostBuffer × Int) :=
  loop 0 count.toNat buf
where
  /-- The loop at byte `l`, with `n` bytes to go. -/
  loop (l : Nat) : Nat → HostBuffer → Outcome (HostBuffer × Int)
    | 0, buf => .done (buf, l)
    | n + 1, buf => do
      let buf ← buf.write (cursor + l) (mem (addr + BitVec.ofNat 64 l))
      loop (l + 1) n buf

/-- `memcpy_to_ram_intrapage` as built: `store<uint8_t>(addr + l, buf[l])` while `count > 0`. -/
def memcpyToRamIntrapage (mem : GuestMemory) (addr : U64) (buf : HostBuffer) (cursor : Int)
    (count : Int) : Outcome (GuestMemory × Int) :=
  loop 0 count.toNat mem
where
  /-- The loop at byte `l`, with `n` bytes to go. -/
  loop (l : Nat) : Nat → GuestMemory → Outcome (GuestMemory × Int)
    | 0, mem => .done (mem, l)
    | n + 1, mem => do
      let b ← buf.read (cursor + l)
      loop (l + 1) n (mem.store8 (addr + BitVec.ofNat 64 l) b)

/-- `VIRTIO_PAGE_SIZE`. It is defined in virtio.h, which is not among the sources; the spec
gives 4 KiB. -/
def virtioPageSize : Nat := 4096

/-- `VIRTIO_PAGE_SIZE - (addr & (VIRTIO_PAGE_SIZE - 1))`: the bytes left in `addr`'s page. -/
def pageRemaining (addr : U64) : Int :=
  ((virtioPageSize - (addr &&& BitVec.ofNat 64 (virtioPageSize - 1)).toNat : Nat) : Int)

theorem pageRemaining_pos (addr : U64) : 0 < pageRemaining addr := by
  have h : (addr &&& BitVec.ofNat 64 (virtioPageSize - 1)).toNat < virtioPageSize := by
    rw [BitVec.toNat_and]
    exact Nat.lt_of_le_of_lt Nat.and_le_right (by simp [virtioPageSize])
  unfold pageRemaining
  omega

/-- `virtio_memcpy_from_ram`: the copy cut at page boundaries. Every pass of the
`while (count > 0)` loop copies at least one byte, so `count` passes are enough. -/
def virtioMemcpyFromRam (mem : GuestMemory) (buf : HostBuffer) (cursor : Int) (addr : U64)
    (count : Int) : Outcome HostBuffer :=
  loop count.toNat buf cursor addr count
where
  /-- The loop with at most `passes` passes left. -/
  loop : Nat → HostBuffer → Int → U64 → Int → Outcome HostBuffer
    | 0, buf, _, _, count => if 0 < count then .diverge else .done buf
    | passes + 1, buf, cursor, addr, count =>
      if 0 < count then do
        let l := min count (pageRemaining addr)
        let (buf, _) ← memcpyFromRamIntrapage mem buf cursor addr l
        loop passes buf (cursor + l) (addr + BitVec.ofInt 64 l) (count - l)
      else .done buf

/-- `virtio_memcpy_to_ram`: the copy cut at page boundaries, `count` passes at most. -/
def virtioMemcpyToRam (mem : GuestMemory) (addr : U64) (buf : HostBuffer) (cursor : Int)
    (count : Int) : Outcome GuestMemory :=
  loop count.toNat mem addr cursor count
where
  /-- The loop with at most `passes` passes left. -/
  loop : Nat → GuestMemory → U64 → Int → Int → Outcome GuestMemory
    | 0, mem, _, _, count => if 0 < count then .diverge else .done mem
    | passes + 1, mem, addr, cursor, count =>
      if 0 < count then do
        let l := min count (pageRemaining addr)
        let (mem, _) ← memcpyToRamIntrapage mem addr buf cursor l
        loop passes mem (addr + BitVec.ofInt 64 l) (cursor + l) (count - l)
      else .done mem

/-! ## What the copy loops do -/

theorem memcpyFromRamIntrapage_loop (mem : GuestMemory) (cursor : Int) (addr : U64) (l n : Nat)
    (buf : HostBuffer) :
    memcpyFromRamIntrapage.loop mem cursor addr l n buf =
      buf.writeList (cursor + l) (mem.bytesAt (addr + BitVec.ofNat 64 l) n) >>= fun b =>
        .done (b, ((l + n : Nat) : Int)) := by
  induction n generalizing l buf with
  | zero => simp [memcpyFromRamIntrapage.loop, bytesAt, HostBuffer.writeList]
  | succ n ih =>
    rw [memcpyFromRamIntrapage.loop, bytesAt, HostBuffer.writeList, Outcome.bind_assoc]
    congr 1
    funext b
    have hpos : cursor + ((l + 1 : Nat) : Int) = cursor + l + 1 := by omega
    have haddr : addr + BitVec.ofNat 64 (l + 1) = addr + BitVec.ofNat 64 l + 1 := by bv_omega
    rw [ih, hpos, haddr, Nat.add_right_comm l 1 n]
    rfl

theorem memcpyToRamIntrapage_loop (addr : U64) (buf : HostBuffer) (cursor : Int) (l n : Nat)
    (mem : GuestMemory) :
    memcpyToRamIntrapage.loop addr buf cursor l n mem =
      buf.readList (cursor + l) n >>= fun bs =>
        .done (mem.storeBytes (addr + BitVec.ofNat 64 l) bs, ((l + n : Nat) : Int)) := by
  induction n generalizing l mem with
  | zero => simp [memcpyToRamIntrapage.loop, storeBytes, HostBuffer.readList]
  | succ n ih =>
    rw [memcpyToRamIntrapage.loop, HostBuffer.readList, Outcome.bind_assoc]
    congr 1
    funext b
    have hpos : cursor + ((l + 1 : Nat) : Int) = cursor + l + 1 := by omega
    have haddr : addr + BitVec.ofNat 64 (l + 1) = addr + BitVec.ofNat 64 l + 1 := by bv_omega
    rw [ih, hpos, haddr, Outcome.bind_assoc]
    congr 1
    funext bs
    simp only [Outcome.pure_def, Outcome.done_bind, storeBytes, Outcome.done.injEq,
      Prod.mk.injEq, true_and]
    omega

theorem ofInt_eq_ofNat_toNat {i : Int} (h : 0 ≤ i) : BitVec.ofInt 64 i = BitVec.ofNat 64 i.toNat := by
  apply BitVec.eq_of_toNat_eq
  simp only [BitVec.toNat_ofInt, BitVec.toNat_ofNat]
  omega

/-- With enough passes, the loop of `virtio_memcpy_from_ram` copies the `count` bytes at
`addr` into the buffer at `cursor`. -/
theorem virtioMemcpyFromRam_loop (mem : GuestMemory) :
    ∀ (passes : Nat) (buf : HostBuffer) (cursor : Int) (addr : U64) (count : Int),
      count.toNat ≤ passes →
      virtioMemcpyFromRam.loop mem passes buf cursor addr count =
        buf.writeList cursor (mem.bytesAt addr count.toNat) := by
  intro passes
  induction passes with
  | zero =>
    intro buf cursor addr count h
    rw [virtioMemcpyFromRam.loop, if_neg (by omega), show count.toNat = 0 by omega]
    rfl
  | succ passes ih =>
    intro buf cursor addr count h
    rw [virtioMemcpyFromRam.loop]
    split
    · next hpos =>
      have hl := pageRemaining_pos addr
      have hsplit : count.toNat = (min count (pageRemaining addr)).toNat +
          (count - min count (pageRemaining addr)).toNat := by omega
      rw [hsplit, bytesAt_add, HostBuffer.writeList_append]
      simp only [memcpyFromRamIntrapage, memcpyFromRamIntrapage_loop, Outcome.bind_assoc,
        Outcome.done_bind, Int.ofNat_zero, Int.add_zero, Nat.zero_add, BitVec.add_zero]
      congr 1
      funext b
      rw [ih _ _ _ _ (by omega), length_bytesAt, ofInt_eq_ofNat_toNat (by omega),
        show ((min count (pageRemaining addr)).toNat : Int) = min count (pageRemaining addr) by omega]
    · next hpos =>
      rw [show count.toNat = 0 by omega]
      rfl

/-- `virtio_memcpy_from_ram` copies the `count` bytes at `addr` into the buffer at `cursor`. -/
theorem virtioMemcpyFromRam_eq (mem : GuestMemory) (buf : HostBuffer) (cursor : Int)
    (addr : U64) (count : Int) :
    virtioMemcpyFromRam mem buf cursor addr count =
      buf.writeList cursor (mem.bytesAt addr count.toNat) :=
  virtioMemcpyFromRam_loop mem _ _ _ _ _ (Nat.le_refl _)

/-- With enough passes, the loop of `virtio_memcpy_to_ram` stores the `count` bytes at
`cursor` of the buffer at `addr`. -/
theorem virtioMemcpyToRam_loop (buf : HostBuffer) :
    ∀ (passes : Nat) (mem : GuestMemory) (addr : U64) (cursor : Int) (count : Int),
      count.toNat ≤ passes →
      virtioMemcpyToRam.loop buf passes mem addr cursor count =
        buf.readList cursor count.toNat >>= fun bs => .done (mem.storeBytes addr bs) := by
  intro passes
  induction passes with
  | zero =>
    intro mem addr cursor count h
    rw [virtioMemcpyToRam.loop, if_neg (by omega), show count.toNat = 0 by omega]
    rfl
  | succ passes ih =>
    intro mem addr cursor count h
    rw [virtioMemcpyToRam.loop]
    split
    · next hpos =>
      have hl := pageRemaining_pos addr
      have hsplit : count.toNat = (min count (pageRemaining addr)).toNat +
          (count - min count (pageRemaining addr)).toNat := by omega
      rw [hsplit, HostBuffer.readList_add]
      simp only [memcpyToRamIntrapage, memcpyToRamIntrapage_loop, Outcome.bind_assoc,
        Outcome.done_bind, Int.ofNat_zero, Int.add_zero, Nat.zero_add, BitVec.add_zero]
      rw [HostBuffer.readList_eq buf cursor]
      split
      · simp only [Outcome.done_bind]
        rw [ih _ _ _ _ (by omega), show cursor + ((min count (pageRemaining addr)).toNat : Int) =
          cursor + min count (pageRemaining addr) by omega]
        congr 1
        funext ys
        rw [storeBytes_append, HostBuffer.length_slice, ofInt_eq_ofNat_toNat (by omega)]
      · rfl
    · next hpos =>
      rw [show count.toNat = 0 by omega]
      rfl

/-- `virtio_memcpy_to_ram` stores the `count` bytes at `cursor` of the buffer at `addr`. -/
theorem virtioMemcpyToRam_eq (mem : GuestMemory) (addr : U64) (buf : HostBuffer) (cursor : Int)
    (count : Int) :
    virtioMemcpyToRam mem addr buf cursor count =
      buf.readList cursor count.toNat >>= fun bs => .done (mem.storeBytes addr bs) :=
  virtioMemcpyToRam_loop buf _ _ _ _ _ (Nat.le_refl _)

end GuestMemory

end SpikeDevices
