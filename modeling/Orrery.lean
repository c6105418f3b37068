import Orrery.Description
import Orrery.Document.Snapshot
import Orrery.Scenario.Report
import Orrery.Simulation
import Orrery.Proofs.Conservation
import Orrery.Proofs.Credits
import Orrery.Proofs.Marks
import Orrery.Proofs.Restore
import Orrery.Proofs.Json
import Orrery.Proofs.Ticks
import Orrery.Proofs.Document
import Orrery.Proofs.Upkeep
import Orrery.Proofs.Mirror
import Orrery.Proofs.SilentRound
import Orrery.Proofs.SilentWorld
import Orrery.Proofs.Request
import Orrery.Proofs.Resume
import Orrery.Proofs.Maneuver
import Orrery.Proofs.Stops
import Orrery.Proofs.Handover
import Orrery.Proofs.Finite
import Orrery.Proofs.Odometers
import Orrery.Proofs.Removal
import Orrery.Proofs.Combat
import Orrery.Proofs.Career
import Orrery.Proofs.Commute
import Orrery.Proofs.Delivery
import Orrery.Proofs.Notices
import Orrery.Proofs.Loot
import Orrery.Proofs.Orientation
import Orrery.Proofs.Lifecycle
import Orrery.Proofs.Throttle
import Orrery.Proofs.Extraction
import Orrery.Proofs.Siege
import Orrery.Proofs.Barrage
import Orrery.Proofs.Bag
import Orrery.Proofs.Rollback
import Orrery.Proofs.Stalls
import Orrery.Proofs.Anchor
import Orrery.Proofs.Crossing
import Orrery.Proofs.Exact
import Orrery.Proofs.Turning
import Orrery.Proofs.Ellipse
import Orrery.Proofs.Approach
import Orrery.Proofs.Subscriptions
import Orrery.Proofs.Rewind
import Orrery.Proofs.Compensation
import Orrery.Proofs.Obstacle
import Orrery.Proofs.Direction
import Orrery.Proofs.Anomaly
