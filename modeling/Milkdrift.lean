import Milkdrift.Safety.Completion
import Milkdrift.Safety.Authoring
import Milkdrift.Safety.Admissions
import Milkdrift.Safety.Halting
import Milkdrift.Safety.Occupancy
import Milkdrift.Progress.Cancellation
import Milkdrift.Progress.Lease
import Milkdrift.Progress.Recovery
import Milkdrift.Progress.Reports
import Milkdrift.Registry.Permits
import Milkdrift.Authority.Deciding
import Milkdrift.Serving.Catalogs
import Milkdrift.Serving.Observations
import Milkdrift.Managed.Entries
import Milkdrift.ModelLoop.Turns
import Milkdrift.Remote.Connecting
import Milkdrift.Remote.Importing
import Milkdrift.Remote.Limits
import Milkdrift.Provider.Stream
import Milkdrift.Process.Redaction
import Milkdrift.Process.Streams
import Milkdrift.Daemon.Feeds
