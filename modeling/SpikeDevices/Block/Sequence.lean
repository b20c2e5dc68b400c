import SpikeDevices.Block.Disk

/-!
# The file backend against a sector array

The front end calls `bf_read_async` and `bf_write_async` one after another (`backendRun`).
What it may expect of them is a disk of `nb_sectors` sectors (`diskRun`): a read returns the
bytes its sectors hold, which are those the most recent write to each sector left there or
the file's original bytes, and a write replaces them, except in read-only mode, where it
returns -1 and changes nothing.

For each mode and every sequence of calls inside the disk (`BackendCall.Fits`: byte counts
in `int` range and buffers that hold them), the backend `block_device_init` builds gives the
replies of the sector array and ends with its disk (`backendRun_refines`). Outside read-write
mode the file's bytes are never written; in read-write mode the file holds the sector array.
The proof carries an invariant of the backend (`BackendInv`) through one call at a time
(`backendCall_refines`).
-/

namespace SpikeDevices.Block

open Disk

/-- A call of the front end on the backend: `bf_read_async` or `bf_write_async` of `n`
sectors from `sector_num`, with the buffer `buf`. -/
inductive BackendCall where
  | read (sectorNum : U64) (buf : HostBuffer) (n : Nat)
  | write (sectorNum : U64) (buf : HostBuffer) (n : Nat)

namespace BackendCall

/-- The call stays inside a disk of `nb` sectors, its byte count `512 * n` is an `int`, and
its buffer holds that many bytes. -/
def Fits (nb : Nat) : BackendCall → Prop
  | read sectorNum buf n | write sectorNum buf n =>
    sectorNum.toNat + n ≤ nb ∧ sectorSize * n < 2 ^ 31 ∧ sectorSize * n ≤ buf.size

instance (nb : Nat) : DecidablePred (Fits nb) := fun call =>
  match call with
  | read .. | write .. => inferInstanceAs (Decidable (_ ∧ _ ∧ _))

end BackendCall

/-- One call on the backend: the return value and the buffer, and the backend it leaves. -/
def backendCall (bf : BlockDeviceFile) : BackendCall → Outcome ((Int × HostBuffer) × BlockDeviceFile)
  | .read sectorNum buf n => do
    let (ret, bf, buf) ← bfReadAsync bf sectorNum buf n
    pure ((ret, buf), bf)
  | .write sectorNum buf n => do
    let (ret, bf) ← bfWriteAsync bf sectorNum buf n
    pure ((ret, buf), bf)

/-- The calls one after another: their replies and the backend they leave. -/
def backendRun : List BackendCall → BlockDeviceFile → Outcome (List (Int × HostBuffer) × BlockDeviceFile)
  | [], bf => .done ([], bf)
  | call :: calls, bf => do
    let (reply, bf) ← backendCall bf call
    let (replies, bf) ← backendRun calls bf
    pure (reply :: replies, bf)

/-! ## The sector array -/

/-- One call on a sector array in mode `mode`: a read of `n` sectors from `s` fills the buffer
with their `512 * n` bytes; a write puts the buffer's first `512 * n` bytes there and returns
0, except in read-only mode, where it returns -1 and leaves the array. -/
def diskCall (mode : BlockDeviceMode) (D : Disk) : BackendCall → (Int × HostBuffer) × Disk
  | .read s buf n => ((0, buf.overwrite 0 (D.read (sectorSize * s.toNat) (sectorSize * n))), D)
  | .write s buf n =>
    if mode = .ro then ((-1, buf), D)
    else ((0, buf), D.write (sectorSize * s.toNat) (buf.slice 0 (sectorSize * n)))

/-- The calls one after another on the sector array. -/
def diskRun (mode : BlockDeviceMode) : List BackendCall → Disk → List (Int × HostBuffer) × Disk
  | [], D => ([], D)
  | call :: calls, D =>
    ((diskCall mode D call).1 :: (diskRun mode calls (diskCall mode D call).2).1,
      (diskRun mode calls (diskCall mode D call).2).2)

/-! ## What a call keeps of the file -/

theorem snapshotWriteLoop_file : ∀ n (bf : BlockDeviceFile) s buf cursor bf',
    snapshotWriteLoop n bf s buf cursor = .done bf' → bf'.f = bf.f
  | 0, _, _, _, _, _, h => by cases h; rfl
  | n + 1, bf, s, buf, cursor, bf', h => by
    rw [snapshotWriteLoop_succ] at h
    obtain ⟨_, -, h⟩ := Outcome.bind_eq_done.mp h
    obtain ⟨_, -, h⟩ := Outcome.bind_eq_done.mp h
    have := snapshotWriteLoop_file n _ _ buf _ bf' h
    exact this

/-- Outside read-write mode `bf_write_async` never touches the file. -/
theorem bfWriteAsync_file {bf : BlockDeviceFile} {s : U64} {buf : HostBuffer} {n : Int}
    {res : Int × BlockDeviceFile} (hm : bf.mode ≠ .rw) (h : bfWriteAsync bf s buf n = .done res) :
    res.2.f = bf.f := by
  unfold bfWriteAsync at h
  split at h
  · cases h; rfl
  · exact absurd ‹_› hm
  · split at h
    · cases h; rfl
    · obtain ⟨bf1, h1, h⟩ := Outcome.bind_eq_done.mp h
      cases h
      exact snapshotWriteLoop_file _ _ _ _ _ _ h1

theorem fread_byte {f f' : FileStream} {buf buf' : HostBuffer} {cursor : Int} {count : Nat}
    (h : f.fread buf cursor count = .done (buf', f')) : f'.byte = f.byte := by
  obtain ⟨_, -, h⟩ := Outcome.bind_eq_done.mp h
  cases h
  rfl

theorem fseek_byte (f : FileStream) (offset : Int) : (f.fseek offset).byte = f.byte := by
  unfold FileStream.fseek
  split <;> rfl

theorem snapshotReadLoop_file : ∀ n (bf : BlockDeviceFile) s buf cursor res,
    snapshotReadLoop n bf s buf cursor = .done res →
      res.1.f.size = bf.f.size ∧ res.1.f.byte = bf.f.byte
  | 0, _, _, _, _, _, h => by cases h; exact ⟨rfl, rfl⟩
  | n + 1, bf, s, buf, cursor, res, h => by
    rw [snapshotReadLoop_succ] at h
    obtain ⟨entry, -, h⟩ := Outcome.bind_eq_done.mp h
    cases entry with
    | none =>
      obtain ⟨⟨buf1, f1⟩, h1, h⟩ := Outcome.bind_eq_done.mp h
      obtain ⟨hs, hb⟩ := snapshotReadLoop_file n _ _ _ _ res h
      exact ⟨hs.trans ((fread_size h1).trans (fseek_size _ _)),
        hb.trans ((fread_byte h1).trans (fseek_byte _ _))⟩
    | some copy =>
      obtain ⟨buf1, -, h⟩ := Outcome.bind_eq_done.mp h
      exact snapshotReadLoop_file n bf _ _ _ res h

/-- `bf_read_async` moves the stream and never changes the file's size or bytes. -/
theorem bfReadAsync_file {bf : BlockDeviceFile} {s : U64} {buf : HostBuffer} {n : Int}
    {res : Int × BlockDeviceFile × HostBuffer} (h : bfReadAsync bf s buf n = .done res) :
    res.2.1.f.size = bf.f.size ∧ res.2.1.f.byte = bf.f.byte := by
  unfold bfReadAsync at h
  split at h
  · obtain ⟨⟨bf1, buf1⟩, h1, h⟩ := Outcome.bind_eq_done.mp h
    cases h
    exact snapshotReadLoop_file _ _ _ _ _ _ h1
  · obtain ⟨_, -, h⟩ := Outcome.bind_eq_done.mp h
    obtain ⟨⟨buf1, f1⟩, h1, h⟩ := Outcome.bind_eq_done.mp h
    cases h
    exact ⟨(fread_size h1).trans (fseek_size _ _), (fread_byte h1).trans (fseek_byte _ _)⟩

/-! ## One call, then every sequence -/

/-- The backend as the calls leave it: the disk of `nb` sectors inside the file and below
`2^63` bytes, the mode `mode`, and outside read-write mode the file of `size` bytes `bytes`
it was opened on. -/
structure BackendInv (mode : BlockDeviceMode) (nb size : Nat) (bytes : Nat → U8)
    (bf : BlockDeviceFile) : Prop where
  valid : bf.Valid
  mode_eq : bf.mode = mode
  nbSectors_eq : bf.nbSectors = nb
  small : sectorSize * nb < 2 ^ 63
  file : mode ≠ .rw → bf.f.size = size ∧ bf.f.byte = bytes

section Refinement

variable {mode : BlockDeviceMode} {nb size : Nat} {bytes : Nat → U8}

/-- A call inside the disk gives the sector array's reply and leaves its disk, and the
backend keeps its invariant. -/
theorem backendCall_refines {bf : BlockDeviceFile} (hinv : BackendInv mode nb size bytes bf)
    {call : BackendCall} (hfits : call.Fits nb) :
    ∃ bf', backendCall bf call = .done ((diskCall mode bf.disk call).1, bf') ∧
      bf'.disk = (diskCall mode bf.disk call).2 ∧ BackendInv mode nb size bytes bf' := by
  have hnb : bf.nbSectors.toNat = nb := by rw [hinv.nbSectors_eq, Int.toNat_ofNat]
  have hsz : sectorSize * bf.nbSectors.toNat < 2 ^ 63 := hnb ▸ hinv.small
  cases call with
  | read s buf n =>
    obtain ⟨hk, hk32, hbuf⟩ := hfits
    obtain ⟨pos, h⟩ := bfReadAsync_disk hinv.valid hsz (hnb ▸ hk) hk32 hbuf
    exact ⟨{ bf with f := { bf.f with pos } }, by rw [backendCall, h]; rfl, rfl,
      ⟨⟨hinv.valid.1, hinv.valid.2⟩, hinv.mode_eq, hinv.nbSectors_eq, hinv.small, hinv.file⟩⟩
  | write s buf n =>
    obtain ⟨hk, hk32, hbuf⟩ := hfits
    obtain ⟨bf', h, hkeep, hdisk⟩ := bfWriteAsync_disk hinv.valid hsz (hnb ▸ hk) hk32 hbuf
    refine ⟨bf', by rw [backendCall, h]; simp only [diskCall, hinv.mode_eq]; split <;> rfl, ?_,
      ⟨hkeep.valid hinv.valid, hkeep.1.trans hinv.mode_eq, hkeep.2.1.trans hinv.nbSectors_eq,
        hinv.small, fun hm => ?_⟩⟩
    · rw [hdisk, diskCall, hinv.mode_eq]
      split <;> rfl
    · rw [bfWriteAsync_file (hinv.mode_eq ▸ hm) h]
      exact hinv.file hm

/-- Every sequence of calls inside the disk gives the sector array's replies and leaves its
disk, and the backend keeps its invariant. -/
theorem backendRun_refines_of_inv : ∀ (calls : List BackendCall) (bf : BlockDeviceFile),
    BackendInv mode nb size bytes bf → (∀ call ∈ calls, call.Fits nb) →
    ∃ bf', backendRun calls bf = .done ((diskRun mode calls bf.disk).1, bf') ∧
      bf'.disk = (diskRun mode calls bf.disk).2 ∧ BackendInv mode nb size bytes bf'
  | [], bf, hinv, _ => ⟨bf, rfl, rfl, hinv⟩
  | call :: calls, bf, hinv, hfits => by
    obtain ⟨bf1, h1, hd1, hinv1⟩ := backendCall_refines hinv (hfits call (List.mem_cons_self _ _))
    obtain ⟨bf2, h2, hd2, hinv2⟩ := backendRun_refines_of_inv calls bf1 hinv1
      fun c hc => hfits c (List.mem_cons_of_mem _ hc)
    rw [hd1] at h2 hd2
    exact ⟨bf2, by rw [backendRun, h1, Outcome.done_bind]; dsimp only; rw [h2]; rfl, hd2, hinv2⟩

end Refinement

/-- For each mode, over a file of `size < 2^63` bytes `bytes`, every sequence of reads and
writes inside the disk of `size / 512` sectors gives the replies of the sector array that
starts with the file's first sectors, and the backend ends with that array's disk. Outside
read-write mode the file's bytes and size are never changed; in read-write mode the file
holds the array over the disk. -/
theorem backendRun_refines (size : Nat) (bytes : Nat → U8) (mode : BlockDeviceMode)
    (hsize : size < 2 ^ 63) (calls : List BackendCall) (hfits : ∀ call ∈ calls, call.Fits (size / 512)) :
    ∃ bf', backendRun calls (blockDeviceInit size bytes mode) =
        .done ((diskRun mode calls fun i => if i < sectorSize * (size / 512) then bytes i else 0).1, bf') ∧
      bf'.disk = (diskRun mode calls fun i => if i < sectorSize * (size / 512) then bytes i else 0).2 ∧
      (mode ≠ .rw → bf'.f.size = size ∧ ∀ i, bf'.f.byte i = bytes i) ∧
      (mode = .rw → ∀ i < sectorSize * (size / 512),
        bf'.f.byte i = (diskRun mode calls fun i => if i < sectorSize * (size / 512) then bytes i else 0).2 i) := by
  have hinv : BackendInv mode (size / 512) size bytes (blockDeviceInit size bytes mode) :=
    ⟨valid_blockDeviceInit size bytes mode, rfl, rfl, by simp only [sectorSize]; omega, fun _ => ⟨rfl, rfl⟩⟩
  obtain ⟨bf', h, hd, hinv'⟩ := backendRun_refines_of_inv calls _ hinv hfits
  rw [disk_blockDeviceInit] at h hd
  refine ⟨bf', h, hd, fun hm => ⟨(hinv'.file hm).1, fun i => by rw [(hinv'.file hm).2]⟩, fun hm i hi => ?_⟩
  have hnb : bf'.nbSectors.toNat = size / 512 := by rw [hinv'.nbSectors_eq, Int.toNat_ofNat]
  rw [← hd, BlockDeviceFile.disk, if_pos (by rw [hnb]; exact hi), if_neg (by rw [hinv'.mode_eq, hm]; decide)]

/-- A write of one sector of `0xAB` bytes at sector 1, then a read of sectors 0 and 1. -/
def writeThenRead : List BackendCall :=
  [.write 1 ⟨512, fun _ => 0xAB⟩ 1, .read 0 (HostBuffer.malloc 1024) 2]

theorem backendRun_refines_writeThenRead :
    1024 < 2 ^ 63 ∧ (∀ call ∈ writeThenRead, call.Fits (1024 / 512)) ∧
    ∃ bf', backendRun writeThenRead (blockDeviceInit 1024 (fun _ => 0) .snapshot) =
        .done ((diskRun .snapshot writeThenRead fun i => if i < sectorSize * (1024 / 512) then 0 else 0).1, bf') ∧
      bf'.disk = (diskRun .snapshot writeThenRead fun i => if i < sectorSize * (1024 / 512) then 0 else 0).2 ∧
      (BlockDeviceMode.snapshot ≠ .rw → bf'.f.size = 1024 ∧ ∀ i, bf'.f.byte i = 0) ∧
      (BlockDeviceMode.snapshot = .rw → ∀ i < sectorSize * (1024 / 512),
        bf'.f.byte i = (diskRun .snapshot writeThenRead fun i => if i < sectorSize * (1024 / 512) then 0 else 0).2 i) :=
  ⟨by decide, by decide, backendRun_refines 1024 (fun _ => 0) .snapshot (by decide) writeThenRead (by decide)⟩

end SpikeDevices.Block
