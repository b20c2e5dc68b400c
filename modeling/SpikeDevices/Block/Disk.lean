import SpikeDevices.Block.Backend

/-!
# The disk the file backend presents

The front end sees the backend as an array of `nb_sectors` sectors of 512 bytes
(`BlockDeviceFile.disk`): the file's bytes, or in snapshot mode a sector's copy in
`sector_table` where it has one. On sectors inside the disk, `bf_read_async` returns their
bytes (`bfReadAsync_disk`), and `bf_write_async` writes the buffer over them except in
read-only mode, where it returns -1 and changes nothing (`bfWriteAsync_disk`). Both need the
disk inside the file (`BlockDeviceFile.Valid`, which every call keeps) and below `2^63`
bytes, the range of the `long` offset the backend seeks to.
-/

namespace SpikeDevices.Block

/-- A disk: the byte at each offset. -/
abbrev Disk := Nat → U8

namespace Disk

/-- The `n` bytes from `pos` on. -/
def read (D : Disk) (pos n : Nat) : List U8 := (List.range' pos n).map D

/-- The disk with `data` written from `pos` on. -/
def write (D : Disk) (pos : Nat) (data : List U8) : Disk := fun i =>
  if pos ≤ i ∧ i < pos + data.length then data.getD (i - pos) 0 else D i

@[simp] theorem length_read (D : Disk) (pos n : Nat) : (D.read pos n).length = n := by
  simp [read]

theorem read_add (D : Disk) (pos m n : Nat) :
    D.read pos (m + n) = D.read pos m ++ D.read (pos + m) n := by
  rw [read, read, read, ← List.map_append, List.range'_append_1, Nat.add_comm]

theorem read_congr {D D' : Disk} {pos n : Nat} (h : ∀ i, pos ≤ i → i < pos + n → D i = D' i) :
    D.read pos n = D'.read pos n :=
  List.map_congr_left fun i hi => h i (List.mem_range'_1.mp hi).1 (List.mem_range'_1.mp hi).2

theorem getD_append_of_lt {xs ys : List U8} {i : Nat} (h : i < xs.length) :
    (xs ++ ys).getD i 0 = xs.getD i 0 := by
  simp only [List.getD_eq_getElem?_getD, List.getElem?_append_left h]

theorem getD_append_of_le {xs ys : List U8} {i : Nat} (h : xs.length ≤ i) :
    (xs ++ ys).getD i 0 = ys.getD (i - xs.length) 0 := by
  simp only [List.getD_eq_getElem?_getD, List.getElem?_append_right h]

theorem write_append (D : Disk) (pos : Nat) (xs ys : List U8) :
    D.write pos (xs ++ ys) = (D.write pos xs).write (pos + xs.length) ys := by
  funext i
  simp only [write, List.length_append]
  by_cases h1 : pos + xs.length ≤ i ∧ i < pos + xs.length + ys.length
  · rw [if_pos (by omega), if_pos h1, getD_append_of_le (by omega), Nat.sub_sub]
  · rw [if_neg h1]
    by_cases h2 : pos ≤ i ∧ i < pos + xs.length
    · rw [if_pos (by omega), if_pos h2, getD_append_of_lt (by omega)]
    · rw [if_neg (by omega), if_neg h2]

/-- What is written reads back. -/
theorem read_write (D : Disk) (pos : Nat) (data : List U8) :
    (D.write pos data).read pos data.length = data := by
  apply List.ext_getElem (by simp)
  intro i h1 h2
  simp only [read, write, List.getElem_map, List.getElem_range', Nat.one_mul]
  rw [if_pos (by omega), Nat.add_sub_cancel_left, List.getD_eq_getElem?_getD,
    List.getElem?_eq_getElem h2]
  rfl

end Disk

open Disk

/-- The byte at offset `i` of the disk the backend presents: one of the `nb_sectors`
sectors, from the file or, in snapshot mode, from the sector's copy in `sector_table` where
it has one; zero past the last sector. -/
def BlockDeviceFile.disk (bf : BlockDeviceFile) : Disk := fun i =>
  if i < sectorSize * bf.nbSectors.toNat then
    if bf.mode = .snapshot then
      match bf.sectorTable (i / sectorSize) with
      | some copy => copy (i % sectorSize)
      | none => bf.f.byte i
    else bf.f.byte i
  else 0

/-- The disk lies inside the file. -/
structure BlockDeviceFile.Valid (bf : BlockDeviceFile) : Prop where
  nonneg : 0 ≤ bf.nbSectors
  fits : sectorSize * bf.nbSectors.toNat ≤ bf.f.size

/-- The backend `block_device_init` builds presents the file's first `nb_sectors` sectors. -/
theorem disk_blockDeviceInit (size : Nat) (bytes : Nat → U8) (mode : BlockDeviceMode) :
    (blockDeviceInit size bytes mode).disk = fun i => if i < sectorSize * (size / 512) then bytes i else 0 := by
  funext i
  simp only [BlockDeviceFile.disk, blockDeviceInit, Int.toNat_ofNat]
  by_cases h : i < sectorSize * (size / 512)
  · rw [if_pos h, if_pos h]
    split <;> rfl
  · rw [if_neg h, if_neg h]

theorem valid_blockDeviceInit (size : Nat) (bytes : Nat → U8) (mode : BlockDeviceMode) :
    (blockDeviceInit size bytes mode).Valid :=
  ⟨Int.ofNat_nonneg _, by simp only [blockDeviceInit, Int.toNat_ofNat, sectorSize]; omega⟩

/-! ## The backend's arithmetic on sectors inside the disk -/

theorem fseek_ofNat (f : FileStream) (pos : Nat) : f.fseek pos = { f with pos } := by
  rw [FileStream.fseek, if_pos (Int.ofNat_nonneg pos), Int.toNat_ofNat]

/-- The `long` offset of a sector of a disk below `2^63` bytes is its byte offset. -/
theorem seekOffset_eq {s : U64} (h : sectorSize * s.toNat < 2 ^ 63) :
    seekOffset s = (sectorSize * s.toNat : Nat) := by
  rw [seekOffset, BitVec.toInt_eq_toNat_cond, BitVec.toNat_mul, BitVec.toNat_ofNat]
  simp only [sectorSize] at h ⊢
  rw [if_pos (by omega)]
  omega

theorem sectorBytes_eq {k : Nat} (h : sectorSize * k < 2 ^ 31) :
    sectorBytes k = .done (sectorSize * k : Nat) := by
  rw [sectorBytes]
  simp only [sectorSize] at h ⊢
  rw [if_pos ⟨by omega, by omega⟩]
  congr 1
  omega

theorem toSizeT_ofNat {n : Nat} (h : n < 2 ^ 64) : toSizeT n = n := by
  rw [toSizeT, Int.emod_eq_of_lt (Int.ofNat_nonneg n) (by omega), Int.toNat_ofNat]

/-- A read inside the file returns its bytes. -/
theorem readAt_eq (f : FileStream) {pos count : Nat} (h : pos + count ≤ f.size) :
    f.readAt pos count = (List.range' pos count).map f.byte := by
  rw [FileStream.readAt, Nat.min_eq_left (by omega), List.range'_eq_map_range, List.map_map]
  rfl

theorem tableEntry_eq {bf : BlockDeviceFile} (hv : bf.Valid) {s : U64} (h : s.toNat < bf.nbSectors.toNat) :
    bf.tableEntry s = .done (bf.sectorTable s.toNat) := by
  rw [BlockDeviceFile.tableEntry, if_pos (by have := hv.nonneg; omega)]

/-! ## What a call keeps -/

/-- A call of the backend keeps its mode and its sector count, and the file only grows. -/
def BlockDeviceFile.Keeps (bf bf' : BlockDeviceFile) : Prop :=
  bf'.mode = bf.mode ∧ bf'.nbSectors = bf.nbSectors ∧ bf.f.size ≤ bf'.f.size

theorem BlockDeviceFile.Keeps.refl (bf : BlockDeviceFile) : bf.Keeps bf :=
  ⟨rfl, rfl, Nat.le_refl _⟩

theorem BlockDeviceFile.Keeps.trans {bf bf' bf'' : BlockDeviceFile} (h : bf.Keeps bf')
    (h' : bf'.Keeps bf'') : bf.Keeps bf'' :=
  ⟨h'.1.trans h.1, h'.2.1.trans h.2.1, Nat.le_trans h.2.2 h'.2.2⟩

theorem BlockDeviceFile.Keeps.valid {bf bf' : BlockDeviceFile} (h : bf.Keeps bf') (hv : bf.Valid) :
    bf'.Valid :=
  ⟨h.2.1 ▸ hv.nonneg, by rw [h.2.1]; exact Nat.le_trans hv.fits h.2.2⟩

theorem fread_size {f f' : FileStream} {buf buf' : HostBuffer} {cursor : Int} {count : Nat}
    (h : f.fread buf cursor count = .done (buf', f')) : f'.size = f.size := by
  obtain ⟨_, -, h⟩ := Outcome.bind_eq_done.mp h
  cases h
  rfl

theorem fseek_size (f : FileStream) (offset : Int) : (f.fseek offset).size = f.size := by
  unfold FileStream.fseek
  split <;> rfl

/-- One pass of the snapshot read loop: the sector from its copy or from the file. -/
theorem snapshotReadLoop_succ (n : Nat) (bf : BlockDeviceFile) (s : U64) (buf : HostBuffer)
    (cursor : Int) :
    snapshotReadLoop (n + 1) bf s buf cursor =
      bf.tableEntry s >>= fun entry => match entry with
        | none => (bf.f.fseek (seekOffset s)).fread buf cursor sectorSize >>= fun r =>
          snapshotReadLoop n { bf with f := r.2 } (s + 1) r.1 (cursor + sectorSize)
        | some copy => buf.writeList cursor ((List.range sectorSize).map copy) >>= fun buf =>
          snapshotReadLoop n bf (s + 1) buf (cursor + sectorSize) := by
  rw [snapshotReadLoop]
  refine Outcome.bind_congr fun entry _ => ?_
  cases entry with
  | none => exact Outcome.bind_congr fun _ _ => rfl
  | some copy => exact Outcome.bind_congr fun _ _ => rfl

/-- One pass of the snapshot write loop: the sector's copy replaced. -/
theorem snapshotWriteLoop_succ (n : Nat) (bf : BlockDeviceFile) (s : U64) (buf : HostBuffer)
    (cursor : Int) :
    snapshotWriteLoop (n + 1) bf s buf cursor =
      bf.tableEntry s >>= fun _ => buf.readList cursor sectorSize >>= fun bs =>
        snapshotWriteLoop n { bf with
          sectorTable := fun i => if i = s.toNat then some (fun j => bs.getD j 0) else bf.sectorTable i }
          (s + 1) buf (cursor + sectorSize) := rfl

theorem snapshotReadLoop_keeps : ∀ n (bf : BlockDeviceFile) s buf cursor res,
    snapshotReadLoop n bf s buf cursor = .done res → bf.Keeps res.1
  | 0, bf, _, _, _, _, h => by cases h; exact .refl bf
  | n + 1, bf, s, buf, cursor, res, h => by
    rw [snapshotReadLoop_succ] at h
    obtain ⟨entry, -, h⟩ := Outcome.bind_eq_done.mp h
    cases entry with
    | none =>
      obtain ⟨⟨buf1, f1⟩, h1, h⟩ := Outcome.bind_eq_done.mp h
      have h2 := snapshotReadLoop_keeps n _ _ _ _ res h
      exact ⟨h2.1, h2.2.1, by have := h2.2.2; rw [fread_size h1, fseek_size] at this; exact this⟩
    | some copy =>
      obtain ⟨buf1, -, h⟩ := Outcome.bind_eq_done.mp h
      exact snapshotReadLoop_keeps n bf _ _ _ res h

theorem bfReadAsync_keeps {bf : BlockDeviceFile} {s : U64} {buf : HostBuffer} {n : Int}
    {res : Int × BlockDeviceFile × HostBuffer} (h : bfReadAsync bf s buf n = .done res) :
    bf.Keeps res.2.1 := by
  unfold bfReadAsync at h
  split at h
  · obtain ⟨⟨bf1, buf1⟩, h1, h⟩ := Outcome.bind_eq_done.mp h
    cases h
    exact snapshotReadLoop_keeps _ _ _ _ _ _ h1
  · obtain ⟨_, -, h⟩ := Outcome.bind_eq_done.mp h
    obtain ⟨⟨buf1, f1⟩, h1, h⟩ := Outcome.bind_eq_done.mp h
    cases h
    exact ⟨rfl, rfl, Nat.le_of_eq (by rw [fread_size h1, fseek_size])⟩

theorem snapshotWriteLoop_keeps : ∀ n (bf : BlockDeviceFile) s buf cursor bf',
    snapshotWriteLoop n bf s buf cursor = .done bf' → bf.Keeps bf'
  | 0, bf, _, _, _, _, h => by cases h; exact .refl bf
  | n + 1, bf, s, buf, cursor, bf', h => by
    rw [snapshotWriteLoop_succ] at h
    obtain ⟨_, -, h⟩ := Outcome.bind_eq_done.mp h
    obtain ⟨_, -, h⟩ := Outcome.bind_eq_done.mp h
    have h2 := snapshotWriteLoop_keeps n _ _ buf _ bf' h
    exact h2

theorem bfWriteAsync_keeps {bf : BlockDeviceFile} {s : U64} {buf : HostBuffer} {n : Int}
    {res : Int × BlockDeviceFile} (h : bfWriteAsync bf s buf n = .done res) : bf.Keeps res.2 := by
  unfold bfWriteAsync at h
  split at h
  · cases h; exact .refl bf
  · obtain ⟨_, -, h⟩ := Outcome.bind_eq_done.mp h
    obtain ⟨f1, h1, h⟩ := Outcome.bind_eq_done.mp h
    cases h
    obtain ⟨_, -, h1⟩ := Outcome.bind_eq_done.mp h1
    cases h1
    exact ⟨rfl, rfl, by rw [fseek_size]; exact Nat.le_max_left _ _⟩
  · split at h
    · cases h; exact .refl bf
    · obtain ⟨bf1, h1, h⟩ := Outcome.bind_eq_done.mp h
      cases h
      exact snapshotWriteLoop_keeps _ _ _ _ _ _ h1

/-! ## Reads and writes of sectors inside the disk -/

/-- Outside snapshot mode the disk is the file. -/
theorem disk_read_file {bf : BlockDeviceFile} (hm : bf.mode ≠ .snapshot) {pos n : Nat}
    (h : pos + n ≤ sectorSize * bf.nbSectors.toNat) :
    bf.disk.read pos n = (List.range' pos n).map bf.f.byte :=
  read_congr fun i _ hi => by rw [BlockDeviceFile.disk, if_pos (by omega), if_neg hm]

/-- In snapshot mode a sector without a copy is read from the file. -/
theorem disk_read_sector_none {bf : BlockDeviceFile} (hm : bf.mode = .snapshot) {s : Nat}
    (hs : s < bf.nbSectors.toNat) (hnone : bf.sectorTable s = none) :
    bf.disk.read (sectorSize * s) sectorSize = (List.range' (sectorSize * s) sectorSize).map bf.f.byte :=
  read_congr fun i h1 h2 => by
    simp only [sectorSize] at h1 h2 hs ⊢
    rw [BlockDeviceFile.disk, if_pos (by simp only [sectorSize]; omega), if_pos hm,
      show i / sectorSize = s by simp only [sectorSize]; omega, hnone]

/-- In snapshot mode a sector with a copy is read from the copy. -/
theorem disk_read_sector_some {bf : BlockDeviceFile} (hm : bf.mode = .snapshot) {s : Nat}
    (hs : s < bf.nbSectors.toNat) {copy : Nat → U8} (hsome : bf.sectorTable s = some copy) :
    bf.disk.read (sectorSize * s) sectorSize = (List.range sectorSize).map copy := by
  rw [Disk.read, List.range'_eq_map_range, List.map_map]
  refine List.map_congr_left fun j hj => ?_
  rw [List.mem_range] at hj
  simp only [Function.comp, sectorSize] at hj hs ⊢
  rw [BlockDeviceFile.disk, if_pos (by simp only [sectorSize]; omega), if_pos hm,
    show (512 * s + j) / sectorSize = s by simp only [sectorSize]; omega, hsome]
  simp only [sectorSize]
  congr 1
  omega

theorem ofNat_toNat_of_lt {s : Nat} (h : s < 2 ^ 64) : (BitVec.ofNat 64 s).toNat = s := by
  rw [BitVec.toNat_ofNat, Nat.mod_eq_of_lt h]

/-- The snapshot read loop over sectors inside the disk puts their bytes into the buffer and
only moves the stream. -/
theorem snapshotReadLoop_disk {bf : BlockDeviceFile} (hv : bf.Valid) (hm : bf.mode = .snapshot)
    (hsz : sectorSize * bf.nbSectors.toNat < 2 ^ 63) :
    ∀ k (s cursor pos0 : Nat) (buf : HostBuffer), s + k ≤ bf.nbSectors.toNat →
    cursor + sectorSize * k ≤ buf.size →
    ∃ pos, snapshotReadLoop k { bf with f := { bf.f with pos := pos0 } } (BitVec.ofNat 64 s) buf cursor =
      .done ({ bf with f := { bf.f with pos } },
        buf.overwrite cursor (bf.disk.read (sectorSize * s) (sectorSize * k)))
  | 0, _, _, pos0, buf, _, _ => ⟨pos0, by simp [snapshotReadLoop, Disk.read, HostBuffer.overwrite]⟩
  | k + 1, s, cursor, pos0, buf, hk, hbuf => by
    have hfits := hv.fits
    simp only [sectorSize] at hsz hbuf hfits
    have hs : (BitVec.ofNat 64 s).toNat = s := ofNat_toNat_of_lt (by omega)
    have hv0 : ({ bf with f := { bf.f with pos := pos0 } } : BlockDeviceFile).Valid :=
      ⟨hv.nonneg, hv.fits⟩
    -- after the first sector, the loop reads the others into the rest of the buffer
    have hrest : ∀ pos1, ∃ pos, snapshotReadLoop k { bf with f := { bf.f with pos := pos1 } }
        (BitVec.ofNat 64 s + 1) (buf.overwrite cursor (bf.disk.read (sectorSize * s) sectorSize))
        (cursor + sectorSize) = .done ({ bf with f := { bf.f with pos } },
          buf.overwrite cursor (bf.disk.read (sectorSize * s) (sectorSize * (k + 1)))) := fun pos1 => by
      obtain ⟨pos, h⟩ := snapshotReadLoop_disk hv hm (by simp only [sectorSize]; omega) k (s + 1)
        (cursor + sectorSize) pos1 (buf.overwrite cursor (bf.disk.read (sectorSize * s) sectorSize))
        (by omega) (by simp only [HostBuffer.size_overwrite, sectorSize]; omega)
      refine ⟨pos, ?_⟩
      rw [show BitVec.ofNat 64 s + 1 = BitVec.ofNat 64 (s + 1) by bv_omega,
        show (cursor : Int) + (sectorSize : Nat) = ((cursor + sectorSize : Nat) : Int) by omega, h,
        show cursor + sectorSize = cursor + (bf.disk.read (sectorSize * s) sectorSize).length by
          rw [Disk.length_read],
        ← HostBuffer.overwrite_append, Nat.mul_succ, ← Disk.read_add, Nat.mul_succ, Nat.add_comm _ sectorSize]
    rw [snapshotReadLoop_succ, tableEntry_eq hv0
      (by show (BitVec.ofNat 64 s).toNat < bf.nbSectors.toNat; rw [hs]; omega), Outcome.done_bind, hs]
    have hin : 0 ≤ (cursor : Int) ∧ (cursor : Int) + (sectorSize : Nat) ≤ buf.size :=
      ⟨Int.ofNat_nonneg _, by simp only [sectorSize]; omega⟩
    cases hent : bf.sectorTable s with
    | none =>
      obtain ⟨pos, h⟩ := hrest (sectorSize * s + sectorSize)
      refine ⟨pos, ?_⟩
      dsimp only
      rw [seekOffset_eq (by rw [hs]; simp only [sectorSize]; omega), hs, fseek_ofNat, FileStream.fread,
        readAt_eq _ (by simp only [sectorSize]; omega), HostBuffer.writeList_eq,
        if_pos (.inr (by simpa using hin))]
      simp only [Outcome.done_bind, Outcome.pure_def, Int.toNat_ofNat, List.length_map,
        List.length_range']
      rw [disk_read_sector_none hm (by omega) hent] at h
      exact h
    | some copy =>
      obtain ⟨pos, h⟩ := hrest pos0
      refine ⟨pos, ?_⟩
      dsimp only
      rw [HostBuffer.writeList_eq, if_pos (.inr (by simpa using hin)), Outcome.done_bind,
        Int.toNat_ofNat]
      rw [disk_read_sector_some hm (by omega) hent] at h
      exact h

/-- `bf_read_async` of `k` sectors inside a disk below `2^63` bytes, into a buffer that holds
them, puts their bytes at its start and only moves the stream. -/
theorem bfReadAsync_disk {bf : BlockDeviceFile} (hv : bf.Valid)
    (hsz : sectorSize * bf.nbSectors.toNat < 2 ^ 63) {s : U64} {k : Nat}
    (hk : s.toNat + k ≤ bf.nbSectors.toNat) (hk32 : sectorSize * k < 2 ^ 31) {buf : HostBuffer}
    (hbuf : sectorSize * k ≤ buf.size) :
    ∃ pos, bfReadAsync bf s buf k = .done (0, { bf with f := { bf.f with pos } },
      buf.overwrite 0 (bf.disk.read (sectorSize * s.toNat) (sectorSize * k))) := by
  have hfits := hv.fits
  unfold bfReadAsync
  by_cases hm : bf.mode = .snapshot
  · obtain ⟨pos, h⟩ := snapshotReadLoop_disk hv hm hsz k s.toNat 0 bf.f.pos buf hk (by omega)
    refine ⟨pos, ?_⟩
    rw [if_pos hm, Int.toNat_ofNat]
    rw [BitVec.ofNat_toNat, BitVec.setWidth_eq] at h
    rw [show (0 : Int) = ((0 : Nat) : Int) from rfl, h]
    rfl
  · refine ⟨sectorSize * s.toNat + sectorSize * k, ?_⟩
    rw [if_neg hm, seekOffset_eq (by simp only [sectorSize] at hsz hk ⊢; omega), fseek_ofNat,
      sectorBytes_eq hk32, Outcome.done_bind, toSizeT_ofNat (by omega)]
    simp only [FileStream.fread]
    rw [readAt_eq _ (by simp only [sectorSize] at hfits hk ⊢; omega), HostBuffer.writeList_eq,
      if_pos (.inr ⟨Int.le_refl 0, by simp only [List.length_map, List.length_range']; omega⟩),
      disk_read_file hm (by simp only [sectorSize] at hk ⊢; omega)]
    simp only [Outcome.done_bind, Outcome.pure_def, List.length_map, List.length_range']
    rfl

/-- Replacing the copy of one sector in snapshot mode writes the sector. -/
theorem disk_setSector {bf : BlockDeviceFile} (hm : bf.mode = .snapshot) {s : Nat}
    (hs : s < bf.nbSectors.toNat) {bs : List U8} (hlen : bs.length = sectorSize) :
    ({ bf with sectorTable := fun i => if i = s then some (fun j => bs.getD j 0) else bf.sectorTable i } :
      BlockDeviceFile).disk = bf.disk.write (sectorSize * s) bs := by
  funext i
  simp only [BlockDeviceFile.disk, Disk.write, hm, if_true, hlen]
  simp only [sectorSize] at hs ⊢
  by_cases hi : i < 512 * bf.nbSectors.toNat
  · rw [if_pos hi, if_pos hi]
    by_cases hin : i / 512 = s
    · rw [if_pos hin, if_pos (by omega)]
      simp only [sectorSize]
      rw [show i % 512 = i - 512 * s by omega]
    · rw [if_neg hin, if_neg (by omega)]
  · rw [if_neg hi, if_neg hi, if_neg (by omega)]

/-- The snapshot write loop over sectors inside the disk writes the buffer over them and
changes only the table. -/
theorem snapshotWriteLoop_disk :
    ∀ k (bf : BlockDeviceFile) (s cursor : Nat) (buf : HostBuffer), bf.Valid → bf.mode = .snapshot →
    sectorSize * bf.nbSectors.toNat < 2 ^ 63 → s + k ≤ bf.nbSectors.toNat →
    cursor + sectorSize * k ≤ buf.size →
    ∃ table, snapshotWriteLoop k bf (BitVec.ofNat 64 s) buf cursor = .done { bf with sectorTable := table } ∧
      ({ bf with sectorTable := table } : BlockDeviceFile).disk =
        bf.disk.write (sectorSize * s) (buf.slice cursor (sectorSize * k))
  | 0, bf, _, _, _, _, _, _, _, _ => ⟨bf.sectorTable, rfl, by
      funext i; simp only [Disk.write, HostBuffer.slice, Nat.mul_zero]; rw [if_neg (by simp)]⟩
  | k + 1, bf, s, cursor, buf, hv, hm, hsz, hk, hbuf => by
    simp only [sectorSize] at hsz hbuf
    have hs : (BitVec.ofNat 64 s).toNat = s := ofNat_toNat_of_lt (by omega)
    have hin : (sectorSize : Nat) = 0 ∨ 0 ≤ (cursor : Int) ∧ (cursor : Int) + (sectorSize : Nat) ≤ buf.size :=
      .inr ⟨Int.ofNat_nonneg _, by simp only [sectorSize]; omega⟩
    obtain ⟨table, h, hd⟩ := snapshotWriteLoop_disk k
      { bf with sectorTable := fun i => if i = s then some (fun j => (buf.slice cursor sectorSize).getD j 0)
        else bf.sectorTable i } (s + 1) (cursor + sectorSize) buf ⟨hv.nonneg, hv.fits⟩ hm
      (by simp only [sectorSize]; omega) (by dsimp only; omega) (by simp only [sectorSize]; omega)
    refine ⟨table, ?_, ?_⟩
    · rw [snapshotWriteLoop_succ, tableEntry_eq hv (by rw [hs]; omega), Outcome.done_bind,
        HostBuffer.readList_eq, if_pos hin, Outcome.done_bind, hs, Int.toNat_ofNat,
        show BitVec.ofNat 64 s + 1 = BitVec.ofNat 64 (s + 1) by bv_omega,
        show (cursor : Int) + (sectorSize : Nat) = ((cursor + sectorSize : Nat) : Int) by omega, h]
    · rw [hd, disk_setSector hm (by omega) (HostBuffer.length_slice _ _ _)]
      rw [show sectorSize * (s + 1) = sectorSize * s + (buf.slice cursor sectorSize).length by
          rw [HostBuffer.length_slice, Nat.mul_succ],
        ← Disk.write_append, ← HostBuffer.slice_add, Nat.mul_succ, Nat.add_comm _ sectorSize]

/-- `bf_write_async` of `k` sectors inside a disk below `2^63` bytes, from a buffer that holds
them: in read-only mode it returns -1 and changes nothing; otherwise it returns 0 and the
disk holds the buffer's bytes over the sectors. -/
theorem bfWriteAsync_disk {bf : BlockDeviceFile} (hv : bf.Valid)
    (hsz : sectorSize * bf.nbSectors.toNat < 2 ^ 63) {s : U64} {k : Nat}
    (hk : s.toNat + k ≤ bf.nbSectors.toNat) (hk32 : sectorSize * k < 2 ^ 31) {buf : HostBuffer}
    (hbuf : sectorSize * k ≤ buf.size) :
    ∃ bf', bfWriteAsync bf s buf k = .done ((if bf.mode = .ro then -1 else 0), bf') ∧ bf.Keeps bf' ∧
      bf'.disk = if bf.mode = .ro then bf.disk
        else bf.disk.write (sectorSize * s.toNat) (buf.slice 0 (sectorSize * k)) := by
  have hfits := hv.fits
  have hnn := hv.nonneg
  unfold bfWriteAsync
  cases hm : bf.mode with
  | ro => exact ⟨bf, rfl, .refl bf, rfl⟩
  | rw =>
    rw [seekOffset_eq (by simp only [sectorSize] at hsz hk ⊢; omega), fseek_ofNat, sectorBytes_eq hk32,
      Outcome.done_bind, toSizeT_ofNat (by simp only [sectorSize] at hk32 ⊢; omega)]
    simp only [FileStream.fwrite]
    rw [HostBuffer.readList_eq, if_pos (.inr ⟨Int.le_refl 0, by simp only [sectorSize] at hbuf ⊢; omega⟩)]
    simp only [Outcome.done_bind, Outcome.pure_def, Int.toNat_ofNat]
    refine ⟨_, rfl, ⟨hm.symm, rfl, Nat.le_max_left _ _⟩, ?_⟩
    rw [if_neg (by decide)]
    funext i
    simp only [BlockDeviceFile.disk, Disk.write, hm, HostBuffer.length_slice]
    simp only [sectorSize] at hfits hk ⊢
    by_cases hi : i < 512 * bf.nbSectors.toNat
    · by_cases hr : 512 * s.toNat ≤ i ∧ i < 512 * s.toNat + 512 * k
      · simp only [hi, hr, and_self, if_true, if_false, reduceCtorEq, Int.toNat_zero]
      · simp only [hi, hr, if_true, if_false, reduceCtorEq]
        rw [if_neg (by omega)]
    · simp only [hi, if_false]
      rw [if_neg (by omega)]
  | snapshot =>
    have hnb : (BitVec.ofInt 64 bf.nbSectors).toNat = bf.nbSectors.toNat := by
      rw [BitVec.toNat_ofInt]; simp only [sectorSize] at hsz; omega
    rw [if_neg (by rw [hnb, BitVec.toNat_add, BitVec.toNat_ofInt]; simp only [sectorSize] at hsz hk32; omega)]
    obtain ⟨table, h, hd⟩ := snapshotWriteLoop_disk k bf s.toNat 0 buf hv hm hsz hk (by omega)
    rw [BitVec.ofNat_toNat, BitVec.setWidth_eq] at h
    refine ⟨{ bf with sectorTable := table }, ?_, ⟨rfl, rfl, Nat.le_refl _⟩, ?_⟩
    · dsimp only
      rw [Int.toNat_ofNat, show (0 : Int) = ((0 : Nat) : Int) from rfl, h]
      rfl
    · rw [if_neg (by decide), hd]

end SpikeDevices.Block
