import FrameIndex.Arguments
import FrameIndex.Bytes
import FrameIndex.Capture.Block
import FrameIndex.Capture.Classic
import FrameIndex.Capture.Error
import FrameIndex.Capture.Feed
import FrameIndex.Capture.Reader
import FrameIndex.Capture.Source
import FrameIndex.Capture.Ticks
import FrameIndex.Chain
import FrameIndex.CommandLine
import FrameIndex.Descriptor
import FrameIndex.Frame
import FrameIndex.HeaderId
import FrameIndex.HeaderId.Known
import FrameIndex.HeaderIndex
import FrameIndex.IndexedFrame
import FrameIndex.Inspection
import FrameIndex.Layout
import FrameIndex.Main
import FrameIndex.Packet
import FrameIndex.PlainLayouts
import FrameIndex.ProtocolHeaders
import FrameIndex.Record
import FrameIndex.Record.Search
import FrameIndex.Report
import FrameIndex.Report.Json
import FrameIndex.Report.Row
import FrameIndex.Report.Table
import FrameIndex.Report.Width
import FrameIndex.Report.Width.CharClass
import FrameIndex.Timestamp
import FrameIndex.Traversal
import FrameIndex.Type2
import FrameIndex.Type2.Draft
import FrameIndex.Type2.Memo
import FrameIndex.Type2.Reads
import FrameIndex.View
import FrameIndex.View.Guarded
import FrameIndex.ViewCache
import FrameIndex.Proofs.HeaderIndex.Bounds
import FrameIndex.Proofs.Packet.Confinement
import FrameIndex.Proofs.Fields
import FrameIndex.Proofs.Type2.Drafting
import FrameIndex.Proofs.Type2.RoundTrip
import FrameIndex.Proofs.Traversal.Noting
import FrameIndex.Proofs.OptionSpan.Parsing
import FrameIndex.Proofs.Record.Tiling
import FrameIndex.Proofs.Traversal.Tidiness
import FrameIndex.Proofs.IndexedFrame.Binding
import FrameIndex.Proofs.IndexedFrame.Payload
import FrameIndex.Proofs.IndexedFrame.Records
import FrameIndex.Proofs.IndexedFrame.Figures
import FrameIndex.Proofs.ViewCache.Slots
import FrameIndex.Proofs.ViewCache.Requests
import FrameIndex.Proofs.ViewCache.Ledger
import FrameIndex.Proofs.ViewCache.HandOvers
import FrameIndex.Proofs.Chain.Edits
import FrameIndex.Proofs.Packet.Requests
import FrameIndex.Proofs.Packet.Uniform
import FrameIndex.Proofs.Packet.Twins
import FrameIndex.Proofs.Packet.Rebinding
import FrameIndex.Proofs.Packet.CachedViews
import FrameIndex.Proofs.Packet.Access
import FrameIndex.Proofs.Inspection.Acceptance
import FrameIndex.Proofs.Capture.Layout
import FrameIndex.Proofs.Capture.Unread
import FrameIndex.Proofs.Capture.StoredPacket
import FrameIndex.Proofs.Capture.Position
import FrameIndex.Proofs.Capture.PacketData
import FrameIndex.Proofs.ProtocolHeaders.Trailing
import FrameIndex.Proofs.Traversal.Readings
import FrameIndex.Proofs.Traversal.Truncation
import FrameIndex.Proofs.IndexedFrame.Truncation
import FrameIndex.Proofs.Capture.Settled
import FrameIndex.Proofs.Capture.Trailing
import FrameIndex.Proofs.Capture.Splitting
import FrameIndex.Proofs.Capture.ClassicFile
import FrameIndex.Proofs.Capture.ReadingBack
import FrameIndex.Proofs.Capture.Sequence
import FrameIndex.Proofs.Capture.Interfaces
import FrameIndex.Proofs.Capture.Sections
import FrameIndex.Proofs.Inspection.History
import FrameIndex.Proofs.HeaderIndex.Occurrences
import FrameIndex.Proofs.Traversal.Labels
import FrameIndex.Proofs.Inspection.Filtering
import FrameIndex.Proofs.Packet.Depths
import FrameIndex.Proofs.IndexedFrame.Presence
import FrameIndex.Proofs.Type2.Rebuilding
import FrameIndex.Proofs.CommandLine.Formats
import FrameIndex.Proofs.HeaderIndex.Extensions
import FrameIndex.Proofs.Packet.Ownership
import FrameIndex.Proofs.Packet.Faults
import FrameIndex.Proofs.Type2.Refusals
import FrameIndex.Proofs.Traversal.OptionAreas
import FrameIndex.Proofs.Traversal.Fragments
import FrameIndex.Proofs.IndexedFrame.Fragments
import FrameIndex.Proofs.Type2.Remembering
import FrameIndex.Proofs.Packet.Marks
import FrameIndex.Proofs.Packet.Cloning
import FrameIndex.Proofs.Traversal.Limits
import FrameIndex.Proofs.IndexedFrame.LinkFraming
import FrameIndex.Proofs.Capture.SimplePackets
import FrameIndex.Proofs.Capture.Conversion
import FrameIndex.Proofs.Report.Json
import FrameIndex.Proofs.Report.Lines
import FrameIndex.Proofs.Traversal.Nesting
