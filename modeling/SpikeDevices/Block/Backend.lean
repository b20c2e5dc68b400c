import SpikeDevices.Machine.GuestMemory

/-!
# The file backend of the block device

`block_device_init`, `bf_read_async` and `bf_write_async` of virtio.c over a host file. The
file is a `FILE *` stream: its bytes and its position, which `fseek`, `fread` and `fwrite`
use and move. In `BF_MODE_SNAPSHOT` the backend keeps `sector_table`, an array of
`nb_sectors` pointers to 512-byte copies of written sectors, in front of a file it never
writes.

Both operations are synchronous: they return 0 or -1 and never call the completion callback.
-/

namespace SpikeDevices.Block

/-- `SECTOR_SIZE`. -/
def sectorSize : Nat := 512

/-- A host file opened as a stream: `size` bytes and the stream position. -/
structure FileStream where
  size : Nat
  byte : Nat → U8
  pos : Nat

namespace FileStream

/-- `fseek(f, offset, SEEK_SET)`. A negative `long` offset fails and leaves the position. -/
def fseek (f : FileStream) (offset : Int) : FileStream :=
  if 0 ≤ offset then { f with pos := offset.toNat } else f

/-- The bytes of the file from `pos` on, at most `count` and never past the end. -/
def readAt (f : FileStream) (pos count : Nat) : List U8 :=
  (List.range (min count (f.size - pos))).map fun i => f.byte (pos + i)

/-- `fread(buf, 1, count, f)`: the bytes from the position to at most `count` are copied into
the buffer and the position moves past them. -/
def fread (f : FileStream) (buf : HostBuffer) (cursor : Int) (count : Nat) :
    Outcome (HostBuffer × FileStream) := do
  let bs := f.readAt f.pos count
  let buf ← buf.writeList cursor bs
  pure (buf, { f with pos := f.pos + bs.length })

/-- `fwrite(buf, 1, count, f)`: `count` bytes of the buffer are written at the position,
which moves past them; a write past the end extends the file, and a gap reads as zeros. -/
def fwrite (f : FileStream) (buf : HostBuffer) (cursor : Int) (count : Nat) :
    Outcome FileStream := do
  let bs ← buf.readList cursor count
  pure
    { size := max f.size (f.pos + count)
      byte := fun i =>
        if f.pos ≤ i ∧ i < f.pos + count then bs.getD (i - f.pos) 0
        else if f.size ≤ i then 0 else f.byte i
      pos := f.pos + count }

end FileStream

/-- `BlockDeviceModeEnum`. -/
inductive BlockDeviceMode where
  | ro
  | rw
  | snapshot
deriving DecidableEq, Repr

/-- `BlockDeviceFile`. `sector_table` is only allocated in snapshot mode; an entry is the
512-byte copy of a written sector or `none` for a null pointer. -/
structure BlockDeviceFile where
  f : FileStream
  mode : BlockDeviceMode
  nbSectors : Int
  sectorTable : Nat → Option (Nat → U8)

/-- The `long` offset `sector_num * SECTOR_SIZE` passed to `fseek`: the product is taken in
`uint64_t` and converted to a signed 64-bit `long`. -/
def seekOffset (sectorNum : U64) : Int := (sectorNum * BitVec.ofNat 64 sectorSize).toInt

/-- The `size_t` value of an `int` argument. -/
def toSizeT (i : Int) : Nat := (i % 2 ^ 64).toNat

/-- `n * SECTOR_SIZE` on `int`s: undefined when the product leaves the range. -/
def sectorBytes (n : Int) : Outcome Int :=
  if IsInt32 (n * sectorSize) then .done (n * sectorSize) else .fault

/-- `bf->sector_table[sector_num]`: an index past the `nb_sectors` entries is undefined. -/
def BlockDeviceFile.tableEntry (bf : BlockDeviceFile) (sectorNum : U64) :
    Outcome (Option (Nat → U8)) :=
  if (sectorNum.toNat : Int) < bf.nbSectors then .done (bf.sectorTable sectorNum.toNat)
  else .fault

/-- `bf_get_sector_count`. -/
def bfGetSectorCount (bf : BlockDeviceFile) : Int := bf.nbSectors

/-- The snapshot loop of `bf_read_async`: each of `n` sectors comes from its copy in the
table, or from the file when it has none. -/
def snapshotReadLoop : Nat → BlockDeviceFile → U64 → HostBuffer → Int →
    Outcome (BlockDeviceFile × HostBuffer)
  | 0, bf, _, buf, _ => .done (bf, buf)
  | n + 1, bf, sectorNum, buf, cursor => do
    let entry ← bf.tableEntry sectorNum
    let (bf, buf) ← match entry with
      | none => do
        let f := bf.f.fseek (seekOffset sectorNum)
        let (buf, f) ← f.fread buf cursor sectorSize
        pure ({ bf with f }, buf)
      | some copy => do
        let buf ← buf.writeList cursor ((List.range sectorSize).map copy)
        pure (bf, buf)
    snapshotReadLoop n bf (sectorNum + 1) buf (cursor + sectorSize)

/-- `bf_read_async`: read `n` sectors from `sector_num` into the buffer. It returns 0. -/
def bfReadAsync (bf : BlockDeviceFile) (sectorNum : U64) (buf : HostBuffer) (n : Int) :
    Outcome (Int × BlockDeviceFile × HostBuffer) :=
  if bf.mode = .snapshot then do
    let (bf, buf) ← snapshotReadLoop n.toNat bf sectorNum buf 0
    pure (0, bf, buf)
  else do
    let f := bf.f.fseek (seekOffset sectorNum)
    let count ← sectorBytes n
    let (buf, f) ← f.fread buf 0 (toSizeT count)
    pure (0, { bf with f }, buf)

/-- The snapshot loop of `bf_write_async`: each of `n` sectors is copied into the table. -/
def snapshotWriteLoop : Nat → BlockDeviceFile → U64 → HostBuffer → Int →
    Outcome BlockDeviceFile
  | 0, bf, _, _, _ => .done bf
  | n + 1, bf, sectorNum, buf, cursor => do
    let _ ← bf.tableEntry sectorNum
    let bs ← buf.readList cursor sectorSize
    let bf := { bf with sectorTable := fun i =>
      if i = sectorNum.toNat then some fun j => bs.getD j 0 else bf.sectorTable i }
    snapshotWriteLoop n bf (sectorNum + 1) buf (cursor + sectorSize)

/-- `bf_write_async`: write `n` sectors from the buffer at `sector_num`. It returns -1 in
read-only mode, and in snapshot mode when `sector_num + n`, computed in `uint64_t`, exceeds
`nb_sectors`; otherwise 0. -/
def bfWriteAsync (bf : BlockDeviceFile) (sectorNum : U64) (buf : HostBuffer) (n : Int) :
    Outcome (Int × BlockDeviceFile) :=
  match bf.mode with
  | .ro => .done (-1, bf)
  | .rw => do
    let f := bf.f.fseek (seekOffset sectorNum)
    let count ← sectorBytes n
    let f ← f.fwrite buf 0 (toSizeT count)
    pure (0, { bf with f })
  | .snapshot =>
    if (sectorNum + BitVec.ofInt 64 n).toNat > (BitVec.ofInt 64 bf.nbSectors).toNat then
      .done (-1, bf)
    else do
      let bf ← snapshotWriteLoop n.toNat bf sectorNum buf 0
      pure (0, bf)

/-- `block_device_init` over a file of `size` bytes that opens: the stream is left at the
end, `nb_sectors = file_size / 512`, and the snapshot table starts empty. -/
def blockDeviceInit (size : Nat) (bytes : Nat → U8) (mode : BlockDeviceMode) : BlockDeviceFile where
  f := { size, byte := bytes, pos := size }
  mode := mode
  nbSectors := (size / 512 : Nat)
  sectorTable := fun _ => none

end SpikeDevices.Block
