import Yaade.Runtime.Events
import Yaade.Runtime.Exits
import Yaade.Runtime.Failures
import Yaade.Runtime.Coherence
import Yaade.Connection.MailboxRuns
import Yaade.Connection.Reconnect
import Yaade.Terminal.Queries
import Yaade.History.FailedWrites
import Yaade.Workers.Progress
import Yaade.Mux.Reconcile
import Yaade.Access.Paths
import Yaade.Access.Sessions
import Yaade.Mux.Routing
import Yaade.Mux.Updates
import Yaade.Mux.Selection
import Yaade.Mux.EventOrder
import Yaade.Mux.IndexRuns
import Yaade.Connection.Delivery
import Yaade.Workers.Recovery
import Yaade.Mux.TilingObjects
import Yaade.Mux.ForeignLayout
import Yaade.Workers.Surface
import Yaade.Desktop.Stream
import Yaade.Store.Host
import Yaade.Access.Bounds
import Yaade.Access.Pairing
import Yaade.Terminal.Disposal
import Yaade.Connection.Streams
import Yaade.History.Paging
import Yaade.History.Isolation
import Yaade.HostClient.Resync
import Yaade.Workers.Runtimes
import Yaade.Store.Positions
import Yaade.Terminal.Capacity
import Yaade.Workers.Writes
import Yaade.Workers.RenderLeases
import Yaade.Panels.InputWriter
import Yaade.Panels.OutputRuns
import Yaade.Render.Updates
import Yaade.Workers.GestureRuns
import Yaade.Keymap.Soundness
import Yaade.Keymap.Canonical
import Yaade.Workers.ViewportActivity
import Yaade.Render.RetainedScene
import Yaade.Mux.FocusHistory
import Yaade.Lister.TreeState
import Yaade.Panels.Links
