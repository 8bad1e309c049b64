import SwiftSRT.Framework.Run
import SwiftSRT.Framework.SerialQueue
import SwiftSRT.SRT.Error
import SwiftSRT.CSRT.Epoll
import SwiftSRT.Server.Channel
import SwiftSRT.Server.AcceptWakeUp
import SwiftSRT.Client.Outbound
import SwiftSRT.Client.WriteStream
import SwiftSRT.CSRT.DataSocket
import SwiftSRT.Client.Inbound
import SwiftSRT.Client.PollQueue
import SwiftSRT.Client.ReadStream
import SwiftSRT.Client.ReadWakeUp
import SwiftSRT.Client.Failure
import SwiftSRT.Client.Channel
import SwiftSRT.Client.WriteTrigger
import SwiftSRT.Client.WriteAnswer
import SwiftSRT.Client.SetUp
import SwiftSRT.Client.SetUpOrder
import SwiftSRT.Client.EventOrder
import SwiftSRT.Client.Lifecycle
import SwiftSRT.CSRT.EpollWait
import SwiftSRT.EventLoop.Group
import SwiftSRT.EventLoop.Registry
import SwiftSRT.EventLoop.Dispatch
import SwiftSRT.EventLoop.Close
import SwiftSRT.CSRT.LiveCC
import SwiftSRT.Client.PayloadSize
import SwiftSRT.CSRT.Options
import SwiftSRT.Client.IOLoops
import SwiftSRT.Framework.KeyedStore
import SwiftSRT.SRT.ChannelOptions
import SwiftSRT.SRT.OptionLaw
import SwiftSRT.Framework.Future
import SwiftSRT.Bootstrap.Client
import SwiftSRT.Bootstrap.Server
import SwiftSRT.Server.AcceptedChannel
import SwiftSRT.CSRT.LossExchange
import SwiftSRT.CSRT.RcvBuffer
import SwiftSRT.CSRT.RcvWindow
import SwiftSRT.CSRT.SndQueue
