import Asolaria.Library.Run
import Asolaria.Library.HashChain
import Asolaria.Library.Guard
import Asolaria.Library.MachineInt
import Asolaria.Library.Sha256
import Asolaria.Library.Copy
import Asolaria.Library.Mailbox
import Asolaria.Library.Interleaving
import Asolaria.ReflectionRoom.Writer
import Asolaria.ReflectionRoom.WriterSteps
import Asolaria.ReflectionRoom.RoomRun
import Asolaria.ReflectionRoom.SequentialClient
import Asolaria.ReflectionRoom.CommittedChain
import Asolaria.ReflectionRoom.CommitOutcomes
import Asolaria.ReflectionRoom.GulpSeals
import Asolaria.ReflectionRoom.IdempotencyKeys
import Asolaria.ReflectionRoom.ForeignCommit
import Asolaria.Envelope.Slot
import Asolaria.Envelope.Callers
import Asolaria.Envelope.BusPhase
import Asolaria.Envelope.SoloCall
import Asolaria.Envelope.BusRun
import Asolaria.Vfs.FdTable
import Asolaria.Syscall.Services
import Asolaria.Syscall.Kernel
import Asolaria.Syscall.KernelRun
import Asolaria.Syscall.EnvelopeBus
import Asolaria.Syscall.EnvelopeSizes
import Asolaria.Crypto.Signing
import Asolaria.Library.Delimited
import Asolaria.Crypto.SignedFields
import Asolaria.Library.Text
import Asolaria.LinkAuth.Link
import Asolaria.Cosign.Chain
import Asolaria.LinkAuth.VerbBinding
import Asolaria.Cosign.ChainRun
import Asolaria.Cosign.Tampering
import Asolaria.Cosign.CanonicalText
import Asolaria.Init.Shell
import Asolaria.Init.Dispatch
import Asolaria.Init.Replies
import Asolaria.Init.VerdictRows
import Asolaria.Init.InitRun
import Asolaria.Init.OwnEnvelopes
import Asolaria.Init.WedgedBus
import Asolaria.LevelTag.Levels
import Asolaria.Library.Ownership
import Asolaria.LinkAuth.Grants
import Asolaria.Vfs.OpenFiles
import Asolaria.Vfs.FdCallers
import Asolaria.Library.Watermark
import Asolaria.Syscall.FrameCallers
import Asolaria.Boot.BumpAllocator
import Asolaria.Library.Search
import Asolaria.Pid.Format
import Asolaria.Pid.RoundTrip
import Asolaria.Envelope.Fedenv
import Asolaria.Library.Rules
import Asolaria.Envelope.FedenvRules
import Asolaria.Envelope.FedenvRowHash
import Asolaria.AgentRuntime.Registry
import Asolaria.AgentRuntime.RegistryRun
import Asolaria.CycleOrch.PeerStateMachine
import Asolaria.CycleOrch.PeerRun
import Asolaria.CycleOrch.RejectedCalls
import Asolaria.Boot.HwInventory
import Asolaria.Boot.DevicePid
import Asolaria.Boot.PciScan
import Asolaria.Library.Hmac
import Asolaria.LinkAuth.Hmac
import Asolaria.LinkAuth.LinkVerdicts
import Asolaria.Init.ExecReply
import Asolaria.Vfs.AccessModes
import Asolaria.Syscall.ForkCallers
import Asolaria.Library.FnvGap
import Asolaria.AgentRuntime.MintedHash
import Asolaria.AgentRuntime.PidCollisions
import Asolaria.LevelTag.Scanning
import Asolaria.LevelTag.Embedding
import Asolaria.Tier.Classify
import Asolaria.Library.Checked
import Asolaria.Library.Decimal
import Asolaria.BootLines.Writer
import Asolaria.BootLines.StatusLine
import Asolaria.BootLines.IdentityLine
import Asolaria.Boot.FixedBufferSha256
import Asolaria.Boot.Projection
import Asolaria.Boot.Rows
import Asolaria.Boot.Framebuffer
import Asolaria.Library.Fnv1a
import Asolaria.BusFabric.PortLabels
import Asolaria.Boot.TitleLayout
import Asolaria.Gnn.Ranking
import Asolaria.Library.TrailingRun
import Asolaria.Library.TornRead
import Asolaria.ReflectionRoom.NoveltyGate
import Asolaria.ReflectionRoom.Preimages
import Asolaria.Library.Utf8
import Asolaria.Library.Patterns
import Asolaria.SignGate.Gate
import Asolaria.SignGate.AllowRule
import Asolaria.SpawnGate.Verdict
import Asolaria.CycleOrch.HaltVerbs
import Asolaria.Pid.Slicing
import Asolaria.Surface.Stream
import Asolaria.Surface.StreamRun
import Asolaria.Library.Base64
import Asolaria.Surface.Base64
import Asolaria.Library.Lossy
import Asolaria.Library.EventStream
import Asolaria.Surface.Framing
import Asolaria.Surface.FramingRun
import Asolaria.Boot.Rtc
import Asolaria.Library.Find
import Asolaria.Library.Numerals
import Asolaria.Library.Lines
import Asolaria.Boot.RtcReading
import Asolaria.Boot.BootReceipts
import Asolaria.Library.Tickets
import Asolaria.Library.Parts
import Asolaria.Library.RustTokens
import Asolaria.Library.Template
import Asolaria.Library.PrefixCode
import Asolaria.Surface.Http
import Asolaria.Surface.HttpRoundTrip
import Asolaria.Surface.HttpRequests
import Asolaria.Surface.Sessions
import Asolaria.Surface.SessionsRun
import Asolaria.Surface.LiveStatus
import Asolaria.Surface.LiveFields
import Asolaria.Tier.Gate
import Asolaria.Tier.Transit
import Asolaria.Syscall.Components
import Asolaria.Syscall.Counters
import Asolaria.Codegen.Atlas
import Asolaria.Codegen.AtlasMeaning
import Asolaria.Codegen.SeatConfig
import Asolaria.Glyph.Genesis
import Asolaria.Surface.Handle
import Asolaria.Library.Uppercase
import Asolaria.BusAndKick.Verbs
import Asolaria.Library.Bands
import Asolaria.Atlas.Tables
import Asolaria.Codegen.AtlasDrift
import Asolaria.SpawnGate.SealRow
import Asolaria.Boot.ScanRows
import Asolaria.Boot.EfiMain
import Asolaria.Boot.SerialTrace
