import VhciHcd.Basic

/-!
# USB request blocks

The fields of `struct urb` that the driver reads or writes, and the driver's private record
`struct vhci_urb_priv`. Pointers are addresses (`Nat`, `0` is `NULL`); the setup packet, the
only structure the driver reads through a pointer, is an `Option` whose `none` is a `NULL`
`setup_packet`. The pipe is kept decoded (`usb_pipetype`, `usb_pipein`, `usb_pipeendpoint`,
`usb_pipedevice`): the driver reads it only through these macros.

Three fields belong to the usb core rather than to the request: whether the urb is linked to
its endpoint (`usb_hcd_link_urb_to_ep`), the status of an accepted unlink (`urb->unlinked`,
`0` while none was accepted), and `hcpriv`, the address of the driver's `vhci_urb_priv`.
-/

namespace VhciHcd

/-- `PIPE_ISOCHRONOUS`, `PIPE_INTERRUPT`, `PIPE_CONTROL`, `PIPE_BULK`. -/
inductive PipeType
  | isochronous
  | interrupt
  | control
  | bulk
deriving DecidableEq, Repr

/-- An urb's `pipe`, read through the usb core's pipe macros. -/
structure Pipe where
  type : PipeType
  dirIn : Bool
  endpoint : Nat
  device : Nat
deriving DecidableEq, Repr

def usbPipein (p : Pipe) : Bool := p.dirIn
def usbPipecontrol (p : Pipe) : Bool := p.type == .control
def usbPipeisoc (p : Pipe) : Bool := p.type == .isochronous

/-- `struct usb_ctrlrequest`, with its little-endian words already converted. -/
structure UsbCtrlRequest where
  bRequestType : Nat
  bRequest : Nat
  wValue : Nat
  wIndex : Nat
  wLength : Nat
deriving DecidableEq, Repr

/-- `struct usb_iso_packet_descriptor`. -/
structure UsbIsoPacketDescriptor where
  offset : Nat
  length : Nat
  actualLength : Nat
  status : Int
deriving DecidableEq, Repr

/-- `struct urb`, as far as the driver and the usb core's bookkeeping for it go. -/
structure Urb where
  pipe : Pipe
  transferFlags : Nat
  transferBuffer : Nat
  transferBufferLength : Nat
  setupPacket : Option UsbCtrlRequest
  interval : Int
  numberOfPackets : Int
  isoFrameDesc : List UsbIsoPacketDescriptor
  actualLength : Nat
  errorCount : Int
  hcpriv : Option Nat
  linked : Bool
  unlinked : Int
deriving DecidableEq, Repr

/-- A fresh urb of `usb_alloc_urb`: zeroed, on no endpoint. -/
instance : Inhabited Urb :=
  ⟨⟨⟨.control, false, 0, 0⟩, 0, 0, 0, none, 0, 0, [], 0, 0, none, false, 0⟩⟩

/-- `struct vhci_urb_priv`: the urb it tracks (also the worker's handle for it), where
`kzalloc` placed it (the value `urb->hcpriv` takes), and its `atomic_t status`. -/
structure VhciUrbPriv where
  urb : Nat
  addr : Nat
  status : Int
deriving DecidableEq, Repr

end VhciHcd
