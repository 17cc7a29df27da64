import OpenBadge.Lib.Proc
import OpenBadge.Lib.Simulation
import OpenBadge.Lib.Program
import OpenBadge.Lib.Bytes
import OpenBadge.RetCode
import OpenBadge.Storage1.Flash
import OpenBadge.Storage1.Model
import OpenBadge.Storage1.Convert
import OpenBadge.Storage1.Erase
import OpenBadge.Storage1.Store
import OpenBadge.Storage1.Words
import OpenBadge.Tinybuf.Codec
import OpenBadge.Tinybuf.Format
import OpenBadge.Tinybuf.Encode
import OpenBadge.Tinybuf.Decode
import OpenBadge.Tinybuf.RoundTrip
import OpenBadge.Filesystem.Model
import OpenBadge.Filesystem.Headers
import OpenBadge.Filesystem.Reads
import OpenBadge.Filesystem.Writes
import OpenBadge.Filesystem.Store
import OpenBadge.Filesystem.Refused
import OpenBadge.Filesystem.Effect
import OpenBadge.Filesystem.Register
import OpenBadge.Filesystem.Layout
import OpenBadge.Filesystem.Linked
import OpenBadge.Filesystem.Persist
import OpenBadge.Filesystem.Room
import OpenBadge.Filesystem.Reboot
import OpenBadge.Filesystem.Backup
import OpenBadge.Filesystem.Walk
import OpenBadge.Filesystem.Ring
import OpenBadge.Filesystem.Back
import OpenBadge.Filesystem.Confined
import OpenBadge.Filesystem.Isolation
import OpenBadge.Filesystem.Untrusted
import OpenBadge.Filesystem.Rank
import OpenBadge.Filesystem.Used
import OpenBadge.Filesystem.Wrap
import OpenBadge.Filesystem.Recent
import OpenBadge.Filesystem.Cleared
import OpenBadge.Filesystem.Guarded
import OpenBadge.Filesystem.Single
import OpenBadge.Lib.Faults
import OpenBadge.Filesystem.Failing
import OpenBadge.Filesystem.Retry
import OpenBadge.Filesystem.Variables
import OpenBadge.Filesystem.Retried
import OpenBadge.Filesystem.Worn
import OpenBadge.Filesystem.Cursor
import OpenBadge.Filesystem.Damage
import OpenBadge.Lib.Run
import OpenBadge.Lib.Sorted
import OpenBadge.RequestHandler.Messages
import OpenBadge.RequestHandler.Model
import OpenBadge.RequestHandler.Effects
import OpenBadge.RequestHandler.Release
import OpenBadge.RequestHandler.Ownership
import OpenBadge.RequestHandler.Streaming
import OpenBadge.RequestHandler.StartCalls
import OpenBadge.Lib.Crc
import OpenBadge.Filesystem.Checksum
import OpenBadge.Lib.PrefixCode
import OpenBadge.RequestHandler.Framing
import OpenBadge.RequestHandler.Timing
import OpenBadge.RequestHandler.Isolation
import OpenBadge.RequestHandler.Order
import OpenBadge.RequestHandler.Progress
import OpenBadge.RequestHandler.DataResponses
import OpenBadge.Storage1.Faults
import OpenBadge.Fifo.ChunkFifo
import OpenBadge.Fifo.ChunkQueue
import OpenBadge.Fifo.CircularFifo
import OpenBadge.Fifo.Records
import OpenBadge.Fifo.Newest
import OpenBadge.Storage1.Selftest
import OpenBadge.Sampling.Accel
import OpenBadge.Sampling.Parameters
import OpenBadge.Sampling.Driver
import OpenBadge.Sampling.Model
import OpenBadge.Sampling.Frame
import OpenBadge.Sampling.Begin
import OpenBadge.Sampling.Timers
import OpenBadge.Sampling.Usage
import OpenBadge.Sampling.Power
import OpenBadge.Sampling.Threshold
import OpenBadge.Sampling.Reports
import OpenBadge.Sampling.OpenChunk
import OpenBadge.Sampling.Counted
import OpenBadge.Sampling.Aggregation
import OpenBadge.Sampling.Scan
import OpenBadge.Sampling.Interleaving
import OpenBadge.Sampling.Rearm
import OpenBadge.Sampling.Interrupted
import OpenBadge.Sampling.Callbacks
import OpenBadge.Sampling.Lanes
import OpenBadge.Sampling.Tasks
import OpenBadge.Sampling.CallbackRules
import OpenBadge.Sampling.OpenSamples
import OpenBadge.Sampling.Microphone
import OpenBadge.Sampling.Acceleration
import OpenBadge.Storage.Split
import OpenBadge.Storage.Flat
import OpenBadge.Tinybuf.Longest
import OpenBadge.Tinybuf.MaxLen
import OpenBadge.Tinybuf.Full
import OpenBadge.Timeout.Model
import OpenBadge.Timeout.Early
import OpenBadge.Timeout.Armed
import OpenBadge.Sender.AppFifo
import OpenBadge.Sender.Transmit
import OpenBadge.Flash.Completion
import OpenBadge.Lib.Parse
import OpenBadge.Tinybuf.Schema
import OpenBadge.Tinybuf.Python
import OpenBadge.Tinybuf.Table
import OpenBadge.Tinybuf.Loop
import OpenBadge.Tinybuf.Members
import OpenBadge.Tinybuf.WalkEncode
import OpenBadge.Tinybuf.WalkDecode
import OpenBadge.Tinybuf.Interop
import OpenBadge.Processing.Model
import OpenBadge.Processing.Delivery
import OpenBadge.Processing.Truncation
import OpenBadge.Storer.Model
import OpenBadge.Storer.Search
import OpenBadge.Storer.Messages
import OpenBadge.Storer.Partitions
import OpenBadge.Storer.ChunksFit
import OpenBadge.Storer.Retrieval
import OpenBadge.Storer.Serving
import OpenBadge.RequestHandler.Storer
import OpenBadge.Storer.Assignement
import OpenBadge.Advertiser.Assignement
import OpenBadge.Systick.Model
import OpenBadge.Systick.Ticks
import OpenBadge.Scanner.Model
import OpenBadge.Scanner.Ends
import OpenBadge.Scanner.Exact
import OpenBadge.Uart.Transmit
import OpenBadge.Tinybuf.Generator
import OpenBadge.Tinybuf.Sweep
import OpenBadge.Tinybuf.Declarations
import OpenBadge.Tinybuf.ParseBlocks
import OpenBadge.Tinybuf.ParseFile
import OpenBadge.Storage2.Eeprom
import OpenBadge.Lib.Covers
import OpenBadge.Storage2.Pages
import OpenBadge.Storage2.Chip
import OpenBadge.Storage2.RoundTrip
import OpenBadge.Storage.Modules
import OpenBadge.Storage.OutOfRange
import OpenBadge.Lib.Dialogue
import OpenBadge.RequestHandler.Wire
import OpenBadge.Framework.Connection
import OpenBadge.Framework.Protocol
import OpenBadge.Framework.Badge
import OpenBadge.Framework.Demultiplex
import OpenBadge.Framework.Calls
import OpenBadge.Framework.Responses
import OpenBadge.Framework.Requests
import OpenBadge.Framework.Session
import OpenBadge.Framework.Kinds
import OpenBadge.Framework.Coupled
import OpenBadge.Framework.Download
import OpenBadge.BadgeLegacy.Calls
