import Usb2T1L.Lib.Lts
import Usb2T1L.Adin2111.Rewrite
import Usb2T1L.Bridge.Coherence
import Usb2T1L.Bridge.Recovery
import Usb2T1L.Bridge.Directory
import Usb2T1L.Bridge.Aging
import Usb2T1L.Lib.Packets
import Usb2T1L.Ecm.Class
import Usb2T1L.Ecm.Downlink
import Usb2T1L.Ecm.Uplink
import Usb2T1L.Ecm.Notify
import Usb2T1L.Ecm.System
import Usb2T1L.Ecm.Ownership
import Usb2T1L.Ecm.Handle
import Usb2T1L.Ecm.Convergence
import Usb2T1L.Ecm.Completion
import Usb2T1L.Ecm.Framing
import Usb2T1L.Ecm.Busy
import Usb2T1L.Lib.Crc
import Usb2T1L.Lib.Layout
import Usb2T1L.Production.Record
import Usb2T1L.Production.MacAddress
import Usb2T1L.Adin2111.Chip
import Usb2T1L.Adin2111.Init
import Usb2T1L.Adin2111.Writes
import Usb2T1L.Bridge.StartUp
import Usb2T1L.Adin2111.Receive
import Usb2T1L.Bridge.RxTask
import Usb2T1L.Bridge.Drain
import Usb2T1L.Bridge.Progress
import Usb2T1L.Bridge.TxTask
import Usb2T1L.Bridge.TxWire
import Usb2T1L.Ecm.Contents
import Usb2T1L.Bridge.TxOrder
import Usb2T1L.Lib.Reassembly
import Usb2T1L.Ecm.Reassembly
import Usb2T1L.Production.Struct
import Usb2T1L.Production.RoundTrip
import Usb2T1L.Production.Keep
import Usb2T1L.Bridge.Eviction
import Usb2T1L.Bridge.ExactAge
import Usb2T1L.Adin2111.Protocol
import Usb2T1L.Adin2111.Transmit
import Usb2T1L.Adin2111.Buffered
import Usb2T1L.Adin2111.ReadFrame
import Usb2T1L.Lib.Detection
import Usb2T1L.Adin2111.Corruption
import Usb2T1L.Lib.Division
import Usb2T1L.Adin2111.Crc8
import Usb2T1L.Production.Damage
import Usb2T1L.Ecm.Setup
import Usb2T1L.Adin2111.Bursts
import Usb2T1L.Adin2111.SpiDma
import Usb2T1L.Bridge.Switching
import Usb2T1L.Chain.Rest
import Usb2T1L.Bridge.HostToWire
import Usb2T1L.Bridge.Locking
import Usb2T1L.Bridge.WireToHost
import Usb2T1L.Bridge.Requests
import Usb2T1L.Bridge.Running
import Usb2T1L.Production.Identity
