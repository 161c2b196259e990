import Twister.Outcome
import Twister.Run
import Twister.Exchange
import Twister.LinkedHeap
import Twister.LinkedRemove
import Twister.LinkedQueue
import Twister.FirstWins
import Twister.RootSweep
import Twister.OnesComplement
import Twister.NarrowSum
import Twister.JsonText
import Twister.ByteBuffer
import Twister.Mbuf
import Twister.Ipv4
import Twister.Checksum
import Twister.FrameBytes
import Twister.TimerFuncs
import Twister.BusyWait
import Twister.PortConf
import Twister.CJson
import Twister.CJsonScan
import Twister.CJsonRead
import Twister.CJsonResult
import Twister.CJsonSafe
import Twister.IpString
import Twister.IpReject
import Twister.StrToInt
import Twister.PortJson
import Twister.ConfigFile
import Twister.PortMask
import Twister.InitFuncs
import Twister.LcoreConf
import Twister.LcoreInit
import Twister.Startup
import Twister.Tx
import Twister.TxRefinement
import Twister.TxRun
import Twister.MbufOwner
import Twister.ArpTable
import Twister.ArpLogic
import Twister.ArpHistory
import Twister.ArpNetwork
import Twister.ArpHandshake
import Twister.QueuedPkts
import Twister.QueuePass
import Twister.QueueRun
import Twister.EthPkt
import Twister.Receive
import Twister.ReceiveRun
import Twister.AppStart
import Twister.EthDemux
import Twister.FrameLocality
import Twister.EventLoop
import Twister.HandleQueues
import Twister.HandleRun
import Twister.CallbackPhase
import Twister.TimerRun
import Twister.LoopSchedule
import Twister.RttFilter
import Twister.Gateway
import Twister.GatewayReply
import Twister.GatewayRoutes
import Twister.GatewaySelect
import Twister.GatewayLoad
import Twister.GatewayRun
import Twister.GatewayQueue
import Twister.GatewayArp
import Twister.Echo
import Twister.IcmpEcho
import Twister.IperfStats
import Twister.UdpEcho
import Twister.EchoRun
import Twister.UdpSend
import Twister.AppFiles
import Twister.UdpSendRun
import Twister.Ping
import Twister.ArpTools
import Twister.PingRun
import Twister.PingNetwork
import Twister.IperfAverages
import Twister.Iperf
import Twister.IperfConnect
import Twister.IperfRun
