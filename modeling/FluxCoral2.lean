import FluxCoral2.Slingshot.VniIsolation
import FluxCoral2.Slingshot.CxiService
import FluxCoral2.Slingshot.Reservation
import FluxCoral2.CrayPmi.Exclusive
import FluxCoral2.Rabbit.AllocMark
import FluxCoral2.Rabbit.SystemStatus
import FluxCoral2.Rabbit.Breakdown
import FluxCoral2.Dws.Cleanup
import FluxCoral2.Dws.EpilogRelease
import FluxCoral2.Dws.DesiredState
import FluxCoral2.Dws.NodeFailure
import FluxCoral2.Dws.Prolog
import FluxCoral2.Dws.Abort
import FluxCoral2.Dws.StaleTimer
import FluxCoral2.Dws.LostTimer
import FluxCoral2.Dws.Proposal
import FluxCoral2.Rabbit.Chassis
import FluxCoral2.Rabbit.Placement
import FluxCoral2.Dws.SetupTimeout
import FluxCoral2.Slingshot.Housekeeping
import FluxCoral2.Library.Preorder
import FluxCoral2.Rabbit.Graph
import FluxCoral2.Rabbit.Machine
import FluxCoral2.Library.Paths
import FluxCoral2.Rabbit.HostPlacement
import FluxCoral2.Rabbit.ResourcePaths
import FluxCoral2.CrayPals.Apinfo
import FluxCoral2.CrayPmi.Returned
import FluxCoral2.Library.Deal
import FluxCoral2.Rabbit.Limits
import FluxCoral2.Rabbit.Reapplied
import FluxCoral2.Rabbit.Shares
import FluxCoral2.Slingshot.Refusals
import FluxCoral2.Library.IntString
import FluxCoral2.Rabbit.BadRabbit
import FluxCoral2.Rabbit.RankStrings
import FluxCoral2.Rabbit.UnknownRabbits
import FluxCoral2.CrayPals.Taskmap
import FluxCoral2.Dws.Blame
import FluxCoral2.Dws.Constraints
import FluxCoral2.Dws.DataMovements
import FluxCoral2.Dws.Directives
import FluxCoral2.Dws.EpilogTimeout
import FluxCoral2.Dws.StaleCopy
import FluxCoral2.Dws.TransientCondition
import FluxCoral2.Library.ChangeLog
import FluxCoral2.Rabbit.Mapping
import FluxCoral2.Rabbit.WatchVersions
import FluxCoral2.CrayPals.Hostnames
import FluxCoral2.CrayPals.LibraryPath
import FluxCoral2.Eventlog.Deadline
import FluxCoral2.Library.Grouping
import FluxCoral2.Slingshot.Clean
import FluxCoral2.Slingshot.Listing
import FluxCoral2.Slingshot.NodeServices
import FluxCoral2.CrayPals.JobFile
import FluxCoral2.CrayPmi.ControlPorts
import FluxCoral2.Dws.Admission
import FluxCoral2.Dws.JobEnvironment
import FluxCoral2.Dws.Computes
import FluxCoral2.Rabbit.Getrabbit
