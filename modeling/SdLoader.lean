import SdLoader.Modchip.Effect
import SdLoader.Modchip.FwUpdate
import SdLoader.Modchip.Writers
import SdLoader.Modchip.FileUpdate
import SdLoader.Modchip.Atomicity
import SdLoader.Modchip.Law
import SdLoader.Lib.Machine
import SdLoader.Lib.Scan
import SdLoader.Lib.Links
import SdLoader.Lib.Signal
import SdLoader.Lib.Packing
import SdLoader.Lib.Cbc
import SdLoader.Toolbox.Tui
import SdLoader.Toolbox.Navigation
import SdLoader.Toolbox.Defs
import SdLoader.Toolbox.WellFormed
import SdLoader.Toolbox.Staged
import SdLoader.Toolbox.MainMenu
import SdLoader.Toolbox.Settings
import SdLoader.Storage.Defs
import SdLoader.Storage.Effect
import SdLoader.Storage.Partition
import SdLoader.Storage.Sd
import SdLoader.Storage.Recovery
import SdLoader.Storage.Transfer
import SdLoader.Disk.Defs
import SdLoader.Disk.Isolation
import SdLoader.Disk.Integrity
import SdLoader.Disk.Read
import SdLoader.Disk.Exact
import SdLoader.Payload.Defs
import SdLoader.Payload.Launch
import SdLoader.Payload.Reloc
import SdLoader.Usb.Defs
import SdLoader.Usb.Endpoint
import SdLoader.Usb.Scsi
import SdLoader.Usb.Session
import SdLoader.Usb.Effect
import SdLoader.Usb.Commands
import SdLoader.Usb.Steps
import SdLoader.Usb.Access
import SdLoader.Usb.ActiveLun
import SdLoader.Usb.Isolation
import SdLoader.Usb.Bounds
import SdLoader.Usb.WriteLoop
import SdLoader.Usb.Answer
import SdLoader.Usb.OutPhase
import SdLoader.Usb.Idle
import SdLoader.Usb.InPhase
import SdLoader.Usb.Chunks
import SdLoader.Usb.Medium
import SdLoader.Usb.ReadData
import SdLoader.Usb.WriteData
import SdLoader.Volumes.Defs
import SdLoader.Volumes.Windows
import SdLoader.Volumes.Decode
import SdLoader.Volumes.Selector
import SdLoader.Toolbox.Buttons
import SdLoader.Volumes.Reopen
import SdLoader.Usb.Context
import SdLoader.Usb.Account
import SdLoader.Usb.Wire
import SdLoader.Usb.Reset
import SdLoader.Usb.Residue
import SdLoader.Usb.Sense
import SdLoader.Usb.InFlight
import SdLoader.Usb.Queue
import SdLoader.Files.Defs
import SdLoader.Files.Access
import SdLoader.Files.Outcomes
import SdLoader.Files.Menus
import SdLoader.Files.Mount
import SdLoader.Files.Law
import SdLoader.Lib.Bytes
import SdLoader.Gfx.Defs
import SdLoader.Gfx.Rotation
import SdLoader.Gfx.Converter
import SdLoader.Image.Defs
import SdLoader.Image.Package
import SdLoader.Image.Entry
import SdLoader.Image.Stub
import SdLoader.Lib.Blocks
import SdLoader.Heap.Defs
import SdLoader.Heap.Chain
import SdLoader.Heap.Refine
import SdLoader.Heap.Law
import SdLoader.Lib.Ring
import SdLoader.Xusb.Defs
import SdLoader.Xusb.TransferRing
import SdLoader.Xusb.System
import SdLoader.Xusb.Requests
import SdLoader.Xusb.Events
import SdLoader.Xusb.Law
import SdLoader.Fat.Defs
import SdLoader.Fat.Mount
import SdLoader.Fat.Chain
import SdLoader.Fat.Read
import SdLoader.Fat.Asks
import SdLoader.Fat.Pieces
import SdLoader.Fat.Law
