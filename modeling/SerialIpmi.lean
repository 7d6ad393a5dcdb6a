import SerialIpmi.Library.Decoding
import SerialIpmi.Library.Framing
import SerialIpmi.Library.Outcome
import SerialIpmi.Library.Refinement
import SerialIpmi.Library.Related
import SerialIpmi.Library.Numbered
import SerialIpmi.Library.Mailbox
import SerialIpmi.Library.MaxCell
import SerialIpmi.Library.ByteSum
import SerialIpmi.Library.BitField
import SerialIpmi.Library.Runs
import SerialIpmi.Library.WireCode
import SerialIpmi.Library.Damage
import SerialIpmi.Library.Truncation
import SerialIpmi.Library.AssocList
import SerialIpmi.Message
import SerialIpmi.Basic.Checksum
import SerialIpmi.Basic.Parser
import SerialIpmi.Terminal.Parser
import SerialIpmi.MessageParsers
import SerialIpmi.Basic.Stream
import SerialIpmi.Basic.Recovery
import SerialIpmi.Basic.Canonical
import SerialIpmi.Basic.Accounting
import SerialIpmi.Terminal.Hex
import SerialIpmi.Terminal.Grammar
import SerialIpmi.Terminal.Stream
import SerialIpmi.Terminal.Digits
import SerialIpmi.Terminal.RoundTrip
import SerialIpmi.Terminal.Recovery
import SerialIpmi.Terminal.Truncation
import SerialIpmi.WireFormat
import SerialIpmi.ParserStream
import SerialIpmi.ParserApi
import SerialIpmi.CommandTable
import SerialIpmi.Channel
import SerialIpmi.Bus
import SerialIpmi.MessageHandler
import SerialIpmi.Dispatch
import SerialIpmi.EventLoop
import SerialIpmi.Server
import SerialIpmi.StoredResponse
import SerialIpmi.Corruption
import SerialIpmi.LineWrites
import SerialIpmi.Responses
import SerialIpmi.Modes
import SerialIpmi.Exchange
import SerialIpmi.Replies
import SerialIpmi.LostReplies
import SerialIpmi.Routing
import SerialIpmi.Line
import SerialIpmi.Failures
import SerialIpmi.ShortWrites
import SerialIpmi.Forwarding
import SerialIpmi.HandlerApi
import SerialIpmi.Lockstep
import SerialIpmi.Transparency
import SerialIpmi.ServiceRecovery
import SerialIpmi.Uart
import SerialIpmi.Main
import SerialIpmi.Debug.Statistics
import SerialIpmi.Session.Manager
import SerialIpmi.Session.Runs
import SerialIpmi.Session.Timeouts
import SerialIpmi.Session.Slot
