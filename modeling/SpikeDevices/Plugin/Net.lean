import SpikeDevices.Plugin.Args

/-!
# The `virtionet` device plugin

`virtionet_t::virtionet_t` reads the `driver` argument and, for the `user` driver, the
`hostfwd` argument, then opens libslirp's user-mode network with `slirp_open`. The process
holds one slirp instance in the global `slirp_state`, and `slirp_open` refuses a second one.
Every refusal ends the simulator with a message and `exit(1)`. The `EthernetDevice *net`
is only assigned for the `user` driver, and `net->opaque` is read right after, so any other
driver reads an uninitialised pointer.

`virtionetT_eq` resolves the argument lookups: the device is built only for the `user`
driver with a `hostfwd` argument in a process without a slirp instance, which it then holds;
a `driver` other than `user` is undefined behaviour, and every other construction exits.
-/

namespace SpikeDevices.Plugin

/-- `EthernetDevice` as `slirp_open` fills it: its MAC address. The packet callbacks and the
`Slirp` state behind `opaque` are libslirp's. -/
structure EthernetDevice where
  macAddr : List U8
deriving DecidableEq, Repr

/-- What `slirp_open` prints on `stderr` when a slirp instance exists. -/
def singleSlirpMessage : String := "Only a single slirp instance is allowed\n"

/-- `slirp_open` from `slirp_state` (whether an instance exists): `NULL` with a message while
one exists, else the device over a new instance with MAC address 02:00:00:00:00:01. The
second component is the new `slirp_state`. -/
def slirpOpen (slirpState : Bool) : Except String EthernetDevice × Bool :=
  if slirpState then (.error singleSlirpMessage, slirpState)
  else (.ok { macAddr := [0x02, 0x00, 0x00, 0x00, 0x00, 0x01] }, true)

/-- The message `virtionet_t` prints before `exit(1)` when no `driver` argument is given. -/
def driverMissingMessage : String :=
  "Virtio net  device plugin INIT ERROR: `path` argument not specified.\nPlease use spike option --device=virtio9p,path=/path/to/folder to use an exist host filesystem folder path.\n"

/-- The message `virtionet_t` prints before `exit(1)` when the `user` driver has no
`hostfwd` argument. -/
def hostfwdMissingMessage : String :=
  "Virtio net  device plugin INIT ERROR: `ifname` argument not specified.\nPlease use spike option --device=virtio9p,path=/path/to/folder to use an exist host filesystem folder path.\n"

/-- The message `virtionet_t` prints before `exit(1)` when `slirp_open` fails; the driver is
the `%s`. -/
def slirpFailedMessage (driver : List Char) : String :=
  "Virtio net disk fs device plugin INIT ERROR: `path` " ++ String.mk driver ++ " must be a directory\n"

/-- What a completed `virtionet_t` constructor hands on: the device it gives `virtio_net_init`
and the rule it gives `slirp_hostfwd`. -/
structure VirtionetDevice where
  net : EthernetDevice
  hostfwd : List Char
deriving DecidableEq, Repr

/-- `virtionet_t::virtionet_t` in a process whose `slirp_state` is `slirpState`: the device
and the new `slirp_state`, or the message printed before `exit(1)`; a fault where `net` is
read without having been assigned. The two `driver == "user"` tests of the source are one
here: nothing between them reads the arguments. -/
def virtionetT (slirpState : Bool) (sargs : List (List Char)) :
    Outcome (Except String (VirtionetDevice × Bool)) :=
  let argmap := parseArgmap sargs
  match argmap.lookup "driver".toList with
  | none => .done (.error driverMissingMessage)
  | some driver =>
    if driver = "user".toList then
      match argmap.lookup "hostfwd".toList with
      | none => .done (.error hostfwdMissingMessage)
      | some hostfwd =>
        match slirpOpen slirpState with
        | (.error _, _) => .done (.error (slirpFailedMessage driver))
        | (.ok net, slirpState) => .done (.ok ({ net, hostfwd }, slirpState))
    else .fault

/-- `virtionet_t` with the argument lookups resolved (`lookup_parseArgmap`) and `slirp_open`
unfolded. -/
theorem virtionetT_eq (slirpState : Bool) (sargs : List (List Char)) :
    virtionetT slirpState sargs =
      match argValue "driver".toList sargs with
      | none => .done (.error driverMissingMessage)
      | some driver =>
        if driver = "user".toList then
          match argValue "hostfwd".toList sargs with
          | none => .done (.error hostfwdMissingMessage)
          | some hostfwd =>
            if slirpState then .done (.error (slirpFailedMessage driver))
            else .done (.ok ({ net := ⟨[0x02, 0x00, 0x00, 0x00, 0x00, 0x01]⟩, hostfwd }, true))
        else .fault := by
  dsimp only [virtionetT]
  rw [lookup_parseArgmap, lookup_parseArgmap]
  cases slirpState <;> rfl

end SpikeDevices.Plugin
