import KSock.BufferCalls
import KSock.Encoders
import KSock.SendAll
import KSock.Reassembly
import KSock.Objects
import KSock.Lib.Heap
import KSock.Ledger
import KSock.ClosedDescriptors
import KSock.Datagrams
import KSock.AddressLists
import KSock.Temporaries
import KSock.ConvertedLists
import KSock.Fields
import KSock.HexDump
import KSock.PeerAddress
import KSock.Transfers
import KSock.Retries
import KSock.Initialize
import KSock.Protobuf.PackToBuffer
import KSock.Protobuf.Client
