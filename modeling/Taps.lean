import Taps.Lib.System
import Taps.Lib.Wire
import Taps.Error
import Taps.Transport.ConstBufferSequence
import Taps.Framer.Lemmas.Length
import Taps.Framer.Lemmas.Cursor
import Taps.Tcp.Session
import Taps.Tcp.Lemmas.Turn
import Taps.Tcp.Lemmas.Session
import Taps.Tcp.Lemmas.Stream
import Taps.Tcp.Theorems
import Taps.Tcp.Scan
import Taps.Tcp.Transfer
import Taps.Tcp.Lemmas.Framed
import Taps.Tcp.Lemmas.Transfer
import Taps.Tcp.Lemmas.Records
import Taps.Tcp.Overlap
import Taps.Tcp.Lemmas.Overlap
import Taps.Lib.LinkedMap
import Taps.Lib.Ring
import Taps.Lib.RefCounts
import Taps.Buffer.DataBlock
import Taps.Buffer.ChainStorage
import Taps.Buffer.Buffers
import Taps.Buffer.Lemmas.ChainStorage
import Taps.Buffer.Lemmas.ChainRefinement
import Taps.Buffer.ByteLists
import Taps.Buffer.Lemmas.Buffers
import Taps.Buffer.Lemmas.Accounts
import Taps.Buffer.Lemmas.ChainAccounts
import Taps.Buffer.Lemmas.Accounting
import Taps.Buffer.Theorems
import Taps.Tcp.Delivery
import Taps.Tcp.Lemmas.Delivery
import Taps.Udp.Mailbox
import Taps.Udp.Lemmas.Mailbox
import Taps.Udp.Demux
import Taps.Udp.Loops
import Taps.Udp.Lemmas.Peer
import Taps.Udp.Lemmas.Demux
import Taps.Udp.Lemmas.Handlers
import Taps.Udp.Lemmas.Loops
import Taps.Udp.Lemmas.Releases
import Taps.Udp.Lemmas.ShutDown
import Taps.Udp.Lemmas.Refused
import Taps.Udp.Timed
import Taps.Udp.Lemmas.Timed
import Taps.Udp.Alloc
import Taps.Udp.Lemmas.Alloc
import Taps.Udp.Theorems
import Taps.Lib.Operation
import Taps.Lib.Channel
import Taps.Listener.SecureAcceptor
import Taps.Listener.Theorems
import Taps.Listener.Lemmas.SecureAcceptor
import Taps.Udp.Lemmas.Posted
import Taps.Udp.Lemmas.Stop
import Taps.Tcp.Link
import Taps.Tcp.Lemmas.Verdict
import Taps.Tcp.Lemmas.Link
import Taps.Tcp.Lemmas.Ending
import Taps.Tcp.LinkTheorems
import Taps.Tcp.Pair
import Taps.Tcp.Lemmas.Pair
import Taps.Tcp.PairTheorems
import Taps.Udp.Active
import Taps.Udp.Lemmas.Active
import Taps.Udp.Lemmas.Exchange
import Taps.Udp.Lemmas.Silent
import Taps.Connection.Send
import Taps.Connection.Theorems
import Taps.Listener.Calls
import Taps.Listener.UDPListener
import Taps.Listener.TCPListener
import Taps.Listener.Lemmas.Strand
import Taps.Listener.Lemmas.UDPListener
import Taps.Listener.Lemmas.TCPListener
import Taps.Listener.Lemmas.Sequential
import Taps.Listener.Lemmas.Serves
import Taps.Listener.Secured
import Taps.Listener.Lemmas.Secured
import Taps.Preconnection.Lemmas.Preconnection
import Taps.Preconnection.Theorems
import Taps.Preconnection.Parameters
import Taps.Preconnection.Preconnection
import Taps.Tcp.Lemmas.Reads
import Taps.Tcp.Lemmas.Await
import Taps.Tcp.MemoryTheorems
import Taps.Tcp.Lemmas.Modes
import Taps.Lib.Machine
import Taps.Lib.DropOldest
import Taps.Udp.Receivers
import Taps.Udp.Lemmas.Receivers
import Taps.Udp.MailboxTheorems
import Taps.Udp.Lemmas.Recency
import Taps.Framer.Theorems
import Taps.Lib.Iterators
import Taps.Message.Calls
import Taps.Message.Theorems
import Taps.Lib.Deframer
import Taps.Tcp.Deframing
import Taps.Tcp.Lemmas.Deframing
import Taps.Tcp.DeframingTheorems
import Taps.Tcp.Lemmas.Gathered
import Taps.Tcp.Transmission
import Taps.Tcp.Lemmas.Transmission
import Taps.Lib.Prefixed
import Taps.Security.TlsProvider
import Taps.Security.Lemmas.TlsProvider
import Taps.Security.Initiate
import Taps.Security.Lemmas.Initiate
import Taps.Security.Theorems
import Taps.Udp.Config
import Taps.Udp.Footprint
import Taps.Udp.Lemmas.Footprint
import Taps.Udp.Lemmas.Pool
import Taps.Udp.FootprintTheorems
import Taps.Udp.FlowTheorems
import Taps.Udp.Network
import Taps.Udp.Lemmas.Network
import Taps.Udp.NetworkTheorems
import Taps.Lib.Lru
import Taps.Udp.Flows
import Taps.Udp.Lemmas.Flows
import Taps.Listener.Handover
import Taps.Listener.Lemmas.Handover
