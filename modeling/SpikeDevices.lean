import SpikeDevices.Machine.Basic
import SpikeDevices.Machine.GuestMemory
import SpikeDevices.Machine.PageCopy
import SpikeDevices.Machine.WideCopy
import SpikeDevices.Virtio.Queue
import SpikeDevices.Virtio.Device
import SpikeDevices.Virtio.DeviceLemmas
import SpikeDevices.Virtio.Invariants
import SpikeDevices.Virtio.Notify
import SpikeDevices.Virtio.Used
import SpikeDevices.Virtio.Chain
import SpikeDevices.Virtio.Copy
import SpikeDevices.Virtio.Sizes
import SpikeDevices.Virtio.Gather
import SpikeDevices.Virtio.Poll
import SpikeDevices.Virtio.Registers
import SpikeDevices.Block.Backend
import SpikeDevices.Block.Disk
import SpikeDevices.Block.Sequence
import SpikeDevices.Block.Device
import SpikeDevices.Block.DeviceLemmas
import SpikeDevices.Block.Invariants
import SpikeDevices.Block.Request
import SpikeDevices.Block.Refinement
import SpikeDevices.Block.Notify
import SpikeDevices.Block.Completion
import SpikeDevices.Block.Bus
import SpikeDevices.Plugin.Args
import SpikeDevices.Plugin.Block
import SpikeDevices.Plugin.Net
import SpikeDevices.Uart
