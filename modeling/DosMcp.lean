import DosMcp.Client.Api
import DosMcp.Client.DownloadProofs
import DosMcp.Client.Methods
import DosMcp.Client.Udp
import DosMcp.Client.UdpProofs
import DosMcp.Dos.Agent
import DosMcp.Dos.AgentProofs
import DosMcp.Dos.Credential
import DosMcp.Dos.Deferral
import DosMcp.Dos.Disk
import DosMcp.Dos.Download
import DosMcp.Dos.Driver
import DosMcp.Dos.Expiry
import DosMcp.Dos.Framing
import DosMcp.Dos.HookNotes
import DosMcp.Dos.HookProofs
import DosMcp.Dos.Hooks
import DosMcp.Dos.Install
import DosMcp.Dos.Isolation
import DosMcp.Dos.Loader
import DosMcp.Dos.Machine
import DosMcp.Dos.MtcpConfig
import DosMcp.Dos.MtcpProofs
import DosMcp.Dos.Net
import DosMcp.Dos.Number
import DosMcp.Dos.Ownership
import DosMcp.Dos.Proto
import DosMcp.Dos.ProtoProofs
import DosMcp.Dos.Reassembly
import DosMcp.Dos.Receive
import DosMcp.Dos.Resident
import DosMcp.Dos.Sandbox
import DosMcp.Dos.Sha
import DosMcp.Dos.Station
import DosMcp.Dos.Temporary
import DosMcp.Dos.Transfer
import DosMcp.Dos.TransferProofs
import DosMcp.Dos.Transparency
import DosMcp.Dos.Upload
import DosMcp.Dos.Worker
import DosMcp.Dos.WorkerProofs
import DosMcp.Dos.Workspace
import DosMcp.Dos.WorkspaceProofs
import DosMcp.Lib.Access
import DosMcp.Lib.Block
import DosMcp.Lib.Bytes
import DosMcp.Lib.Cbc
import DosMcp.Lib.Codec
import DosMcp.Lib.Crc
import DosMcp.Lib.Crc32
import DosMcp.Lib.Dict
import DosMcp.Lib.Fallible
import DosMcp.Lib.Files
import DosMcp.Lib.Handoff
import DosMcp.Lib.Holding
import DosMcp.Lib.Inert
import DosMcp.Lib.Lines
import DosMcp.Lib.Memory
import DosMcp.Lib.Nest
import DosMcp.Lib.OnesComplement
import DosMcp.Lib.Reading
import DosMcp.Lib.Ring
import DosMcp.Lib.Serial
import DosMcp.Lib.Sha256
import DosMcp.Lib.Traverse
import DosMcp.Lib.Utf8
import DosMcp.Protocol.Codecs
import DosMcp.Protocol.Constants
import DosMcp.Protocol.Cp437
import DosMcp.Protocol.Crypto
import DosMcp.Protocol.CryptoProofs
import DosMcp.Protocol.Damage
import DosMcp.Protocol.FragmentProofs
import DosMcp.Protocol.Fragmentation
import DosMcp.Protocol.MacProofs
import DosMcp.Protocol.MessageProofs
import DosMcp.Protocol.Messages
import DosMcp.Protocol.Packet
import DosMcp.Protocol.PacketProofs
import DosMcp.Runtime.Backends
import DosMcp.Runtime.Configuration
import DosMcp.Runtime.Credential
import DosMcp.Runtime.Discovery
import DosMcp.Runtime.Registry
import DosMcp.Runtime.Selection
import DosMcp.Server.Agent
import DosMcp.Server.AgentProofs
import DosMcp.Server.Backend
import DosMcp.Server.Bounds
import DosMcp.Server.Layout
import DosMcp.Server.Linux
import DosMcp.Server.ReplyProofs
import DosMcp.Server.Stream
import DosMcp.Server.Terminal
import DosMcp.Server.TerminalProofs
import DosMcp.Server.TransferProofs
import DosMcp.System.AtMostOnce
import DosMcp.System.Capture
import DosMcp.System.Credentials
import DosMcp.System.Delivery
import DosMcp.System.Discovery
import DosMcp.System.DosAtMostOnce
import DosMcp.System.DosIntegrity
import DosMcp.System.DosStatus
import DosMcp.System.ErrorReplies
import DosMcp.System.FileTransfer
import DosMcp.System.Graphics
import DosMcp.System.Handshake
import DosMcp.System.Inert
import DosMcp.System.Install
import DosMcp.System.Integrity
import DosMcp.System.Keyboard
import DosMcp.System.Keys
import DosMcp.System.Layouts
import DosMcp.System.Link
import DosMcp.System.Release
import DosMcp.System.Remote
import DosMcp.System.Response
import DosMcp.System.Retransmission
import DosMcp.System.RollingCrc
import DosMcp.System.Screens
import DosMcp.System.Segment
import DosMcp.System.SentPath
import DosMcp.System.Shell
import DosMcp.System.Unload
import DosMcp.System.Wire
