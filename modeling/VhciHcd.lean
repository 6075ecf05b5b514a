import VhciHcd.Basic
import VhciHcd.Port.Basic
import VhciHcd.Urb.Basic
import VhciHcd.State
import VhciHcd.Sysfs
import VhciHcd.Hub.Control
import VhciHcd.Hub.Descriptor
import VhciHcd.Hub.Status
import VhciHcd.Port.Invariant
import VhciHcd.Hub.Invariant
import VhciHcd.Urb.Core
import VhciHcd.Ioctl.FetchWork
import VhciHcd.Ioctl.Transfer
import VhciHcd.System
import VhciHcd.Run.Ports
import VhciHcd.Run.Registry
import VhciHcd.Run.Remove
import VhciHcd.Run.Lifecycle
import VhciHcd.Run.Order
import VhciHcd.Run.Dispatch
import VhciHcd.Hub.Update
import VhciHcd.Run.PortUpdate
import VhciHcd.Run.Priority
import VhciHcd.Run.Completion
import VhciHcd.Run.Wakeup
import VhciHcd.Host.Basic
import VhciHcd.Host.Invariant
import VhciHcd.Run.Progress
import VhciHcd.Port.State
import VhciHcd.Run.PortState
import VhciHcd.Run.Power
import VhciHcd.Host.Ioctl
