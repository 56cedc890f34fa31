import ManagedAgents.Lib.Pool
import ManagedAgents.Controller.Conform
import ManagedAgents.Controller.Effects
import ManagedAgents.Controller.Admission
import ManagedAgents.Controller.Queue
import ManagedAgents.Controller.Dispatch
import ManagedAgents.Controller.Consent
import ManagedAgents.Controller.Settle
import ManagedAgents.Controller.Wakeup
import ManagedAgents.Controller.Orphans
import ManagedAgents.Slack.Fencing
import ManagedAgents.Web.Agreement
import ManagedAgents.Web.Bracketed
import ManagedAgents.Controller.Watch
import ManagedAgents.OpenAppa.Exchange
import ManagedAgents.Slack.InOrder
import ManagedAgents.Preview.Shown
import ManagedAgents.Slack.Preview
import ManagedAgents.Slack.Settled
import ManagedAgents.Controller.Discipline
import ManagedAgents.Controller.Viewable
import ManagedAgents.Controller.Pages
import ManagedAgents.Web.RoundTrip
import ManagedAgents.Operations.Migrate
import ManagedAgents.CmaPreview.Agreement
import ManagedAgents.Threads.Owned
import ManagedAgents.Threads.Acknowledged
import ManagedAgents.Push.Posts
import ManagedAgents.Push.Wakeups
import ManagedAgents.Threads.EventSink
import ManagedAgents.Controller.LocalTrigger
import ManagedAgents.Threads.Handled
import ManagedAgents.Controller.Answers
import ManagedAgents.Controller.Sweep
