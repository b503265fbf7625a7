import Gpf.Controller.RegistryStep
import Gpf.Controller.RegistryInvariant
import Gpf.Controller.RegistrationOnce
import Gpf.Controller.Departure
import Gpf.Controller.NameReuse
import Gpf.Controller.TaskStep
import Gpf.Controller.StrandedTasks
import Gpf.Controller.PendingRecords
import Gpf.Controller.TaskBookkeeping
import Gpf.Controller.FetchResults
import Gpf.Controller.HeartMonitor
import Gpf.Controller.HeartbeatRounds
import Gpf.Controller.PingWindow
import Gpf.Library.PriorityQueue
import Gpf.Reactor.Dispatch
import Gpf.Reactor.Effects
import Gpf.Controller.HubHeartbeat
import Gpf.Controller.PurgeRequests
import Gpf.Controller.QueryReplies
import Gpf.Controller.TaskLocality
import Gpf.Controller.UnassignedTasks
import Gpf.Controller.WaitingTimers
import Gpf.Controller.RegistryUnique
import Gpf.Engine.Registration
import Gpf.Engine.Agreement
import Gpf.Library.BinaryHeap
import Gpf.Reactor.FireDue
import Gpf.Reactor.Starvation
import Gpf.Util.IsoTime
import Gpf.Controller.BeatTimer
import Gpf.Controller.LoopFrame
import Gpf.Controller.HubReactor
import Gpf.Controller.WaitingCoherent
import Gpf.Controller.BadMessages
import Gpf.Controller.QueueStatus
import Gpf.Controller.LoadReports
import Gpf.Reactor.Registrations
import Gpf.Reactor.PollTimeout
import Gpf.Library.Ranges
import Gpf.Util.Url
import Gpf.Util.UrlSplit
import Gpf.Util.UrlRoundTrip
import Gpf.Controller.Notifications
import Gpf.Engine.HeartNetwork
import Gpf.Engine.FailureDetection
import Gpf.Engine.HeartAnswers
import Gpf.Controller.TimerCauses
import Gpf.Controller.RegistrationDeadline
import Gpf.Engine.Accounting
import Gpf.Controller.TaskProvenance
import Gpf.Controller.EngineLookup
import Gpf.Controller.HubFactory
import Gpf.Controller.ControllerTimers
import Gpf.Engine.Membership
import Gpf.Engine.TimelyRegistration
import Gpf.Engine.Cluster
import Gpf.Engine.Presence
