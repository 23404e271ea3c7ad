import Sluice.Buffer.Builder
import Sluice.Buffer.CharBuffer
import Sluice.Buffer.TextView
import Sluice.Connection.Account
import Sluice.Connection.Arrivals
import Sluice.Connection.Conduct
import Sluice.Connection.Config
import Sluice.Connection.Engine
import Sluice.Connection.Exchange
import Sluice.Connection.Measure
import Sluice.Connection.Pipe
import Sluice.Connection.Progress
import Sluice.Connection.Schedule
import Sluice.Fixture
import Sluice.Http.Body
import Sluice.Http.Chunked
import Sluice.Http.Error
import Sluice.Http.Framing
import Sluice.Http.Head
import Sluice.Http.Headers
import Sluice.Http.Line
import Sluice.Http.Message
import Sluice.Http.Method
import Sluice.Http.Reply
import Sluice.Http.Status
import Sluice.Http.Storage
import Sluice.Pool.Basic
import Sluice.Pool.Geometry
import Sluice.Pool.Policy
import Sluice.Pool.Table
import Sluice.Proofs.Announcement
import Sluice.Proofs.Bodies
import Sluice.Proofs.Chunked.Grammar
import Sluice.Proofs.Chunked.Language
import Sluice.Proofs.Chunked.Pieces
import Sluice.Proofs.Chunked.Scan
import Sluice.Proofs.Chunked.Turns
import Sluice.Proofs.Connection.Backlog
import Sluice.Proofs.Connection.Limited
import Sluice.Proofs.Connection.Owing
import Sluice.Proofs.Connection.Passage
import Sluice.Proofs.Connection.Prospect
import Sluice.Proofs.Connection.Refinement
import Sluice.Proofs.Connection.Requests
import Sluice.Proofs.Connection.Steps
import Sluice.Proofs.Connection.Telling
import Sluice.Proofs.Connection.Waiting
import Sluice.Proofs.Encoding
import Sluice.Proofs.Extent
import Sluice.Proofs.Feeding
import Sluice.Proofs.Framing
import Sluice.Proofs.Head.Checked
import Sluice.Proofs.Head.Grammar
import Sluice.Proofs.Head.Lines
import Sluice.Proofs.Head.Lookup
import Sluice.Proofs.Head.Ranges
import Sluice.Proofs.Head.Reading
import Sluice.Proofs.Head.Rendering
import Sluice.Proofs.Head.Responses
import Sluice.Proofs.Head.StatusLine
import Sluice.Proofs.Head.Table
import Sluice.Proofs.Head.Vocabulary
import Sluice.Proofs.Head.Words
import Sluice.Proofs.Line
import Sluice.Proofs.Pipelining
import Sluice.Proofs.Pool.Chain
import Sluice.Proofs.Pool.Erasure
import Sluice.Proofs.Pool.Geometry
import Sluice.Proofs.Pool.Idle
import Sluice.Proofs.Pool.Ledger
import Sluice.Proofs.Pool.Pile
import Sluice.Proofs.Pool.Probing
import Sluice.Proofs.Pool.Renewal
import Sluice.Proofs.Pool.Sizing
import Sluice.Proofs.Pool.Versions
import Sluice.Proofs.Replies
import Sluice.Proofs.Segments
import Sluice.Proofs.Selector.Readiness
import Sluice.Proofs.Selector.Steps
import Sluice.Proofs.Selector.Suspended
import Sluice.Proofs.Socket.Closing
import Sluice.Proofs.Socket.Ending
import Sluice.Proofs.Socket.Polling
import Sluice.Proofs.Socket.Steps
import Sluice.Proofs.Socket.Writing
import Sluice.Proofs.Streams
import Sluice.Proofs.Text.Buffer
import Sluice.Proofs.Text.Builders
import Sluice.Proofs.Text.Digits
import Sluice.Proofs.Text.Numerals
import Sluice.Proofs.Text.Trie
import Sluice.Proofs.Text.Utf8
import Sluice.Proofs.Text.Views
import Sluice.Selector.Error
import Sluice.Selector.Interest
import Sluice.Selector.Poller
import Sluice.Selector.Reactor
import Sluice.Selector.Selectable
import Sluice.Server.Plan
import Sluice.Socket.Address
import Sluice.Socket.Channel
import Sluice.Socket.Dialogue
import Sluice.Socket.Network
import Sluice.Socket.Options
import Sluice.Socket.Session
import Sluice.Socket.Stream
import Sluice.Socket.Writing
import Sluice.Text.Escape
import Sluice.Text.Fold
import Sluice.Text.Printable
import Sluice.Text.Radix
import Sluice.Text.Utf8
import Sluice.Text.WordTrie
import Sluice.Wire.ByteQueue
import Sluice.Wire.Failure
import Sluice.Wire.Feeder
import Sluice.Wire.Sink
import Sluice.Wire.Source
