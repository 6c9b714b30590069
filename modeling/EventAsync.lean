import EventAsync.ChannelRuns
import EventAsync.Lifetime
import EventAsync.MySQL.BinlogTermination
import EventAsync.MySQL.ClientResponses
import EventAsync.MySQL.QueryResults
import EventAsync.MySQL.ClientAuthentication
import EventAsync.HTTP.WebsocketReassembly
import EventAsync.HTTP.WebsocketWrites
import EventAsync.ChannelItems
import EventAsync.FutureRuns
import EventAsync.DeferredFuture
import EventAsync.FdAwaiters
import EventAsync.Memcache.Responses
import EventAsync.AllLimit
import EventAsync.Any
import EventAsync.Gather
import EventAsync.BufferReads
import EventAsync.HTTP.WebsocketRoundTrip
import EventAsync.MySQL.BinlogState
import EventAsync.MySQL.BinlogStream
import EventAsync.MySQL.BinlogMetadata
import EventAsync.MySQL.BinlogLayout
import EventAsync.MySQL.BinlogTruncation
import EventAsync.Lib.Agreement
import EventAsync.MySQL.QueryModes
import EventAsync.MySQL.ErrorPackets
import EventAsync.MySQL.Terminators
import EventAsync.Memcache.ConditionalWrites
import EventAsync.BaseTransfers
import EventAsync.HTTP.Request
import EventAsync.HTTP.UrlDecoding
import EventAsync.HTTP.UrlEncoding
import EventAsync.MySQL.TemporalCells
import EventAsync.MySQL.TemporalTexts
import EventAsync.MySQL.Handshake
import EventAsync.MySQL.FieldCodec
import EventAsync.MySQL.TableMapEvents
import EventAsync.MySQL.LogEvents
import EventAsync.MySQL.BinlogReader
import EventAsync.MySQL.BinlogSessions
import EventAsync.Lib.Machine
import EventAsync.Memcache.RemoteStore
import EventAsync.Memcache.ItemStore
import EventAsync.HTTP.WebsocketServer
import EventAsync.EchoServer
import EventAsync.Lib.SharedMachine
import EventAsync.Memcache.ConcurrentClients
import EventAsync.MySQL.BinlogStats
import EventAsync.MySQL.StatsSessions
