import Umqtt.Theorems.Framing
import Umqtt.Theorems.Hostile
import Umqtt.Theorems.Connected
import Umqtt.Theorems.Options
import Umqtt.Theorems.Isolation
import Umqtt.Theorems.Reconnect
import Umqtt.Theorems.Acknowledge
import Umqtt.Theorems.RoundTrip
import Umqtt.Theorems.Encoding
import Umqtt.Theorems.FixedHeader
import Umqtt.Theorems.Sticky
import Umqtt.Theorems.Rejected
import Umqtt.Theorems.Bounds
import Umqtt.Theorems.KeepAlive
import Umqtt.Theorems.AfterError
import Umqtt.Theorems.DisconnectEvent
import Umqtt.Theorems.DisconnectedCallback
import Umqtt.Theorems.AfterDisconnect
import Umqtt.Theorems.ConnPayload
import Umqtt.Theorems.ConnectPacket
import Umqtt.Theorems.TopicLists
import Umqtt.Theorems.MessageClone
import Umqtt.Theorems.FailedConnect
import Umqtt.Theorems.BufferLedger
import Umqtt.Theorems.PublishBody
import Umqtt.Theorems.SubackCodes
import Umqtt.Theorems.OpenComplete
import Umqtt.Theorems.SendTruth
import Umqtt.Theorems.Decoding
import Umqtt.Theorems.Speech
import Umqtt.Theorems.Outbox
import Umqtt.Theorems.Relay
import Umqtt.Theorems.Granted
import Umqtt.Theorems.Delivery
import Umqtt.Lemmas.Stored
import Umqtt.Lib.Packets
import Umqtt.Theorems.Peer
