import Mqttrust.Foundation.Execution
import Mqttrust.Foundation.Table
import Mqttrust.Pubsub.ReadGrants
import Mqttrust.Pubsub.Broadcast
import Mqttrust.Pubsub.Accounting
import Mqttrust.Reader.Progress
import Mqttrust.Reader.Assembly
import Mqttrust.Reader.Framing
import Mqttrust.Reader.Cancellation
import Mqttrust.Reader.Recovery
import Mqttrust.System.Delivery
import Mqttrust.System.Redelivery
import Mqttrust.System.Retry
import Mqttrust.System.Handshake
import Mqttrust.System.FreshConnection
import Mqttrust.System.Independence
import Mqttrust.System.CleanSessions
import Mqttrust.System.OutboundStream
import Mqttrust.Encoding.PropertyBlock
import Mqttrust.Encoding.PacketSize
import Mqttrust.System.Resumption
import Mqttrust.System.PidReuse
import Mqttrust.System.PubAcks
import Mqttrust.Pubsub.Abandonment
import Mqttrust.Pubsub.FreeSpace
import Mqttrust.Pubsub.Drain
import Mqttrust.Pubsub.ReaderWakeups
import Mqttrust.Pubsub.PublisherWakeups
import Mqttrust.System.AckSlots
import Mqttrust.System.FailedSend
import Mqttrust.System.KeepAlive
import Mqttrust.Pubsub.Republish
import Mqttrust.Encoding.LackOfSpace
import Mqttrust.Encoding.Unencodable
import Mqttrust.Encoding.Forwarding
import Mqttrust.Encoding.HeaderFraming
import Mqttrust.Encoding.RequestRoundTrip
import Mqttrust.Encoding.ResponseGrammar
import Mqttrust.Encoding.ShortForms
import Mqttrust.System.AckedFrames
import Mqttrust.Foundation.Splitting
import Mqttrust.System.TopicLevels
import Mqttrust.System.PidCycle
import Mqttrust.Encoding.VarintCodecs
import Mqttrust.Encoding.PropertyIteration
import Mqttrust.System.ServerLimits
import Mqttrust.System.Reconnection
import Mqttrust.System.Responses
import Mqttrust.System.SubscribeCalls
import Mqttrust.System.WireDelivery
import Mqttrust.System.Conversations
import Mqttrust.Transport.Buffers
import Mqttrust.System.Draining
