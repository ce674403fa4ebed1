import Conduit.Notifier.Report
import Conduit.Scenario.Machine
import Conduit.Scenario.Script.Reading
import Conduit.Schema.Strict
import Conduit.Logging.Start
import Conduit.Settings.Load
import Conduit.Proofs.Scenario.Registration
import Conduit.Proofs.Scenario.Rosters
import Conduit.Proofs.Scenario.Closing
import Conduit.Proofs.Scenario.Delivery
import Conduit.Proofs.Scenario.Draining
import Conduit.Proofs.Scenario.Slots
import Conduit.Proofs.Scenario.Lifetime
import Conduit.Proofs.Scenario.Destruction
import Conduit.Proofs.Scenario.Twins
import Conduit.Proofs.Scenario.Isolation
import Conduit.Proofs.Scenario.Panics
import Conduit.Proofs.Scenario.Confinement
import Conduit.Proofs.Scenario.Subscribing
import Conduit.Proofs.Scenario.Keeping
import Conduit.Proofs.Notifier.Ticks
import Conduit.Proofs.Notifier.Silence
import Conduit.Proofs.Notifier.Schedules
import Conduit.Proofs.Notifier.Deadlines
import Conduit.Proofs.Locking.Handlers
import Conduit.Proofs.Locking.Released
import Conduit.Proofs.Locking.Quiet
import Conduit.Proofs.Settings.Overlay
import Conduit.Proofs.Settings.Reading
import Conduit.Proofs.Settings.Setting
import Conduit.Proofs.Settings.Layering
import Conduit.Proofs.Settings.Precedence
import Conduit.Proofs.Numeral
import Conduit.Proofs.Binary64.Rounding
import Conduit.Proofs.Binary64.Shortest
import Conduit.Proofs.Binary64.Text
import Conduit.Proofs.Settings.Verbatim
