import SpikeDevices.Plugin.Args
import SpikeDevices.Block.DeviceLemmas
import SpikeDevices.Block.Sequence
import SpikeDevices.Block.Refinement

/-!
# The `virtioblk` device plugin

`virtioblk_t::virtioblk_t` reads the `img` and `mode` arguments, opens the image with
`block_device_init` and builds the device with `virtio_block_init`. Without an `img`
argument it prints a message and exits; an image that `fopen` refuses ends the simulator
through `perror` and `exit(1)`. A `mode` of `ro` or `snapshot` selects that mode and opens
the image with `"rb"`; any other value, or no `mode`, selects read-write mode and `"r+b"`.

`virtioblkT_ok` says which arguments build a device and which device they build: the
initial state of `Reachable`, so every invariant proved over reachable states holds of it.
`virtioblkT_image_kept` is what the read-only and snapshot modes promise over whole runs:
whatever the guest does, the image file keeps the size and the bytes it was opened with.
-/

namespace SpikeDevices.Plugin

open Block Virtio

/-- `fopen(filename, mode)` on the host: the size and the bytes of the file it opens, or
`none` where it returns `NULL`. -/
abbrev HostFopen := List Char → List Char → Option (Nat × (Nat → U8))

/-- The `fopen` mode of `block_device_init`: `"r+b"` in read-write mode, `"rb"` otherwise. -/
def modeStr (mode : BlockDeviceMode) : List Char :=
  if mode = .rw then "r+b".toList else "rb".toList

/-- `block_device_init` with its `fopen`: an image that does not open ends the simulator
with `perror(filename)`, which prints the file name, and `exit(1)`. -/
def blockDeviceInitFopen (fopen : HostFopen) (filename : List Char) (mode : BlockDeviceMode) :
    Except String BlockDeviceFile :=
  match fopen filename (modeStr mode) with
  | none => .error (String.mk filename)
  | some (size, bytes) => .ok (blockDeviceInit size bytes mode)

/-- The message `virtioblk_t` prints before `exit(1)` when no `img` argument is given. -/
def imgMissingMessage : String :=
  "Virtio block device plugin INIT ERROR: `img` argument not specified.\nPlease use spike option --device=virtioblk,img=file to use an exist block device file.\n"

/-- The mode a `mode` argument selects: `ro` and `snapshot` by name, anything else
read-write. -/
def blockDeviceModeOf (value : List Char) : BlockDeviceMode :=
  if value = "ro".toList then .ro else if value = "snapshot".toList then .snapshot else .rw

/-- `virtioblk_t::virtioblk_t`: the block device the arguments describe, next to the guest
memory, or the message printed before `exit(1)`. -/
def virtioblkT (fopen : HostFopen) (sargs : List (List Char)) (mem : GuestMemory) :
    Except String BlockMachine := do
  let argmap := parseArgmap sargs
  let fname ← match argmap.lookup "img".toList with
    | none => .error imgMissingMessage
    | some fname => pure fname
  let blockDeviceMode := ((argmap.lookup "mode".toList).map blockDeviceModeOf).getD .rw
  let bs ← blockDeviceInitFopen fopen fname blockDeviceMode
  let (core, front) := virtioBlockInit bs
  pure { core, front, mem }

/-! ## Which arguments build which device -/

/-- The mode the arguments select: by the first `mode` argument, read-write without one. -/
def argMode (sargs : List (List Char)) : BlockDeviceMode :=
  ((argValue "mode".toList sargs).map blockDeviceModeOf).getD .rw

theorem virtioblkT_eq (fopen : HostFopen) (sargs : List (List Char)) (mem : GuestMemory) :
    virtioblkT fopen sargs mem =
      match argValue "img".toList sargs with
      | none => .error imgMissingMessage
      | some fname =>
        match fopen fname (modeStr (argMode sargs)) with
        | none => .error (String.mk fname)
        | some (size, bytes) => .ok (initialMachine size bytes (argMode sargs) mem) := by
  dsimp only [virtioblkT, argMode]
  rw [lookup_parseArgmap, lookup_parseArgmap]
  cases argValue "img".toList sargs with
  | none => rfl
  | some fname =>
    simp only [pure_bind, blockDeviceInitFopen]
    cases fopen fname (modeStr (((argValue "mode".toList sargs).map blockDeviceModeOf).getD .rw)) <;>
      rfl

/-- The constructor builds a device exactly when an `img` argument names an image that opens
with the `fopen` mode of the selected mode, and the device is the one `Reachable` starts
from, over that image in that mode. -/
theorem virtioblkT_ok {fopen : HostFopen} {sargs : List (List Char)} {mem : GuestMemory}
    {m : BlockMachine} :
    virtioblkT fopen sargs mem = .ok m ↔
      ∃ fname size bytes, argValue "img".toList sargs = some fname ∧
        fopen fname (modeStr (argMode sargs)) = some (size, bytes) ∧
        m = initialMachine size bytes (argMode sargs) mem := by
  rw [virtioblkT_eq]
  constructor
  · intro h
    split at h
    · cases h
    · next fname hf =>
      split at h
      · cases h
      · next size bytes ho =>
        cases h
        exact ⟨fname, size, bytes, hf, ho, rfl⟩
  · rintro ⟨fname, size, bytes, hf, ho, rfl⟩
    rw [hf]
    simp only [ho]

theorem virtioblkT_reachable {fopen : HostFopen} {sargs : List (List Char)} {mem : GuestMemory}
    {m : BlockMachine} (h : virtioblkT fopen sargs mem = .ok m) : Reachable m := by
  obtain ⟨_, size, bytes, -, -, rfl⟩ := virtioblkT_ok.mp h
  exact ⟨size, bytes, _, mem, 0, [], rfl⟩

/-! ## The image file along a run -/

/-- A later backend keeps the mode and, outside read-write mode, the image file's size and
bytes. -/
def ImageKept (bf bf' : BlockDeviceFile) : Prop :=
  bf'.mode = bf.mode ∧ (bf.mode ≠ .rw → bf'.f.size = bf.f.size ∧ bf'.f.byte = bf.f.byte)

theorem ImageKept.refl (bf : BlockDeviceFile) : ImageKept bf bf := ⟨rfl, fun _ => ⟨rfl, rfl⟩⟩

theorem ImageKept.trans {bf bf' bf'' : BlockDeviceFile} (h : ImageKept bf bf')
    (h' : ImageKept bf' bf'') : ImageKept bf bf'' := by
  refine ⟨h'.1.trans h.1, fun hm => ?_⟩
  obtain ⟨hs, hb⟩ := h.2 hm
  obtain ⟨hs', hb'⟩ := h'.2 (h.1 ▸ hm)
  exact ⟨hs'.trans hs, hb'.trans hb⟩

section Fuel

variable (fuel : Nat)

/-- Handling a head reads or writes through the backend, and outside read-write mode neither
changes the image file. -/
theorem virtioBlockRecvRequest_imageKept {m m' : BlockMachine} {q : Fin maxQueue} {d : U16}
    {rs ws r : Int} (h : virtioBlockRecvRequest fuel m q d rs ws = .done (r, m')) :
    ImageKept m.front.bs m'.front.bs := by
  rcases virtioBlockRecvRequest_cases fuel h with ⟨-, -, rfl⟩ | ⟨-, -, _, _, _, -, ⟨-, rfl⟩ |
    ⟨_, -, -, ⟨-, _, _, _, -, hread, hend⟩ | ⟨-, -, _, _, _, _, _, -, hwrite, -, hend⟩ | ⟨-, -, rfl⟩⟩⟩
  · exact .refl _
  · exact .refl _
  · rw [(virtioBlockReqEnd_core_front fuel hend).2]
    exact ⟨(bfReadAsync_keeps hread).1, fun _ => bfReadAsync_file hread⟩
  · rw [(virtioBlockReqEnd_core_front fuel hend).2]
    refine ⟨(bfWriteAsync_keeps hwrite).1, fun hm => ?_⟩
    have e := bfWriteAsync_file hm hwrite
    exact ⟨congrArg FileStream.size e, congrArg FileStream.byte e⟩
  · exact .refl _

theorem step_imageKept {op : Op} {m m' : BlockMachine}
    (h : step fuel (virtioBlockRecvRequest fuel) op m = .done m') :
    ImageKept m.front.bs m'.front.bs := by
  rcases step_front fuel _ h with e | ⟨q, hq⟩
  · rw [e]; exact .refl _
  · exact queueNotify_rel fuel _ q (fun m m' => ImageKept m.front.bs m'.front.bs)
      (fun _ => .refl _) (fun _ _ _ => .trans)
      (fun _ _ _ _ _ _ hr => virtioBlockRecvRequest_imageKept fuel hr) (fun _ => .refl _) hq

theorem run_imageKept (ops : List Op) {m m' : BlockMachine}
    (h : run fuel (virtioBlockRecvRequest fuel) ops m = .done m') :
    ImageKept m.front.bs m'.front.bs :=
  run_invariant fuel _ (fun m' => ImageKept m.front.bs m'.front.bs)
    (fun _ _ _ hi hs => hi.trans (step_imageKept fuel hs)) ops m m' (.refl _) h

end Fuel

/-- A device built with a first `mode` argument of `ro` or `snapshot` opened its image with
`"rb"`, and after every run of guest operations the image file still has the size and the
bytes `fopen` gave. -/
theorem virtioblkT_image_kept {fopen : HostFopen} {sargs : List (List Char)} {mem : GuestMemory}
    {m0 m : BlockMachine}
    (hmode : argValue "mode".toList sargs = some "ro".toList ∨
      argValue "mode".toList sargs = some "snapshot".toList)
    (hc : virtioblkT fopen sargs mem = .ok m0) (fuel : Nat) (ops : List Op)
    (h : run fuel (virtioBlockRecvRequest fuel) ops m0 = .done m) :
    ∃ fname size bytes, argValue "img".toList sargs = some fname ∧
      fopen fname "rb".toList = some (size, bytes) ∧
      m.front.bs.f.size = size ∧ m.front.bs.f.byte = bytes := by
  obtain ⟨fname, size, bytes, hf, ho, rfl⟩ := virtioblkT_ok.mp hc
  have hro : argMode sargs ≠ .rw := by
    rcases hmode with e | e <;> rw [argMode, e] <;> decide
  rw [modeStr, if_neg hro] at ho
  exact ⟨fname, size, bytes, hf, ho, (run_imageKept fuel ops h).2 hro⟩

/-- Guest memory with only the OUT request of `twoReqMem` posted: a header for sector 0 and
512 data bytes `0xC3`. -/
def oneOutMem : GuestMemory := fun a => if a = 0x202 then 1 else twoReqMem a

/-- The arguments of a read-only device over a two-sector image of zeros. -/
def roArgs : List (List Char) := ["img=disk".toList, "mode=ro".toList]

/-- The driver places the rings of queue 0 and notifies it. -/
def outNotifyOps : List Op := ringsApartOps ++ [.mmioWrite virtioMmioQueueNotify 0 2]

/-- The state that notify leaves on the read-only device. -/
def roOutMachine : BlockMachine :=
  match run 16 (virtioBlockRecvRequest 16) outNotifyOps (initialMachine 1024 (fun _ => 0) .ro oneOutMem) with
  | .done m => m
  | _ => initialMachine 1024 (fun _ => 0) .ro oneOutMem

set_option maxRecDepth 8000 in
/-- The read-only device answers the OUT request with `VIRTIO_BLK_S_IOERR` and publishes it,
and its image keeps the size and the zeros `fopen` gave. -/
theorem virtioblkT_image_kept_ro :
    (argValue "mode".toList roArgs = some "ro".toList ∨ argValue "mode".toList roArgs = some "snapshot".toList) ∧
    virtioblkT (fun _ _ => some (1024, fun _ => 0)) roArgs oneOutMem =
      .ok (initialMachine 1024 (fun _ => 0) .ro oneOutMem) ∧
    run 16 (virtioBlockRecvRequest 16) outNotifyOps (initialMachine 1024 (fun _ => 0) .ro oneOutMem) =
      .done roOutMachine ∧
    roOutMachine.mem 0x2000 = virtioBlkSIoerr ∧ roOutMachine.mem.load16 0x302 = 1 ∧
    ∃ fname size bytes, argValue "img".toList roArgs = some fname ∧
      (fun _ _ => some (1024, fun _ => 0) : HostFopen) fname "rb".toList = some (size, bytes) ∧
      roOutMachine.front.bs.f.size = size ∧ roOutMachine.front.bs.f.byte = bytes := by
  have hrun : run 16 (virtioBlockRecvRequest 16) outNotifyOps (initialMachine 1024 (fun _ => 0) .ro oneOutMem) =
      .done roOutMachine := by
    rfl
  exact ⟨.inl (by decide), rfl, hrun, rfl, rfl,
    @virtioblkT_image_kept (fun _ _ => some (1024, fun _ => 0)) roArgs oneOutMem _ _ (.inl (by decide)) rfl 16
      outNotifyOps hrun⟩

end SpikeDevices.Plugin
