import Loco2Mqtt.Foundations.BoundedQueue
import Loco2Mqtt.Foundations.ChangeLog
import Loco2Mqtt.Foundations.Correlation
import Loco2Mqtt.Foundations.Decimal
import Loco2Mqtt.Foundations.DelayLine
import Loco2Mqtt.Foundations.Escaping
import Loco2Mqtt.Foundations.Lines
import Loco2Mqtt.Foundations.Occasions
import Loco2Mqtt.Foundations.Provenance
import Loco2Mqtt.Foundations.RetryTimer
import Loco2Mqtt.Foundations.Runs
import Loco2Mqtt.Foundations.Simulations
import Loco2Mqtt.Foundations.StdString
import Loco2Mqtt.Foundations.Transcripts
import Loco2Mqtt.Foundations.Words
import Loco2Mqtt.Foundations.WrappingClock
import Loco2Mqtt.Foundations.XorSums
import Loco2Mqtt.Domain.Commissioning
import Loco2Mqtt.Domain.LineAssembler
import Loco2Mqtt.Domain.LineFraming
import Loco2Mqtt.Domain.LocoNetMessage
import Loco2Mqtt.Domain.SetupForm
import Loco2Mqtt.Domain.Turnout
import Loco2Mqtt.Turnout.LocoNetDecoder
import Loco2Mqtt.Turnout.LocoNetEncoder
import Loco2Mqtt.Turnout.Mqtt
import Loco2Mqtt.Turnout.ReportHistory
import Loco2Mqtt.Application.ActivityLed
import Loco2Mqtt.Application.ButtonSetupModeTrigger
import Loco2Mqtt.Application.CommandRouter
import Loco2Mqtt.Application.CommissioningSession
import Loco2Mqtt.Application.JmriConnectionStatusPublisher
import Loco2Mqtt.Application.MessageRouter
import Loco2Mqtt.Application.SchedulerLoop
import Loco2Mqtt.Application.SendScheduler
import Loco2Mqtt.Application.StartupQuery
import Loco2Mqtt.Adapters.ChecksumGate
import Loco2Mqtt.Adapters.Commissioning
import Loco2Mqtt.Adapters.LineGrammar
import Loco2Mqtt.Adapters.LocoNetEsp32Port
import Loco2Mqtt.Adapters.LocoNetOverTcp
import Loco2Mqtt.Adapters.Reconnection
import Loco2Mqtt.Bridge.AckAttribution
import Loco2Mqtt.Bridge.CommandLoop
import Loco2Mqtt.Bridge.CommandPath
import Loco2Mqtt.Bridge.CommandQueue
import Loco2Mqtt.Bridge.CommandsPrevail
import Loco2Mqtt.Bridge.Connectivity
import Loco2Mqtt.Bridge.CutLines
import Loco2Mqtt.Bridge.DelayedSends
import Loco2Mqtt.Bridge.Device
import Loco2Mqtt.Bridge.DeviceLoop
import Loco2Mqtt.Bridge.GenuineFrames
import Loco2Mqtt.Bridge.InboundTransport
import Loco2Mqtt.Bridge.JmriStatus
import Loco2Mqtt.Bridge.OutboundTransport
import Loco2Mqtt.Bridge.PendingBound
import Loco2Mqtt.Bridge.PulseEchoes
import Loco2Mqtt.Bridge.QueryTrigger
import Loco2Mqtt.Bridge.Seams
import Loco2Mqtt.Bridge.ServerToBroker
import Loco2Mqtt.Bridge.Sessions
import Loco2Mqtt.Bridge.StateMirror
import Loco2Mqtt.Bridge.TableLearnt
import Loco2Mqtt.Bridge.Vocabulary
import Loco2Mqtt.Bridge.WireOrder
import Loco2Mqtt.Commissioning.BenchSerial
import Loco2Mqtt.Commissioning.ButtonReleases
import Loco2Mqtt.Commissioning.ConsoleLines
import Loco2Mqtt.Commissioning.Firmware
import Loco2Mqtt.Commissioning.FrontDoors
import Loco2Mqtt.Commissioning.Lifecycle
import Loco2Mqtt.Commissioning.LongPress
import Loco2Mqtt.Commissioning.PasswordSecrecy
import Loco2Mqtt.Commissioning.PortNumbers
import Loco2Mqtt.Commissioning.Restarts
import Loco2Mqtt.Commissioning.SecretPassword
import Loco2Mqtt.Commissioning.SetupButton
import Loco2Mqtt.Commissioning.SetupPage
