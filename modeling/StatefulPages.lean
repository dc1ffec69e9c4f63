import StatefulPages.Cycle.Process
import StatefulPages.Main
import StatefulPages.Routing.Site
import StatefulPages.Scripted.Format
import StatefulPages.Scripted.Script
import StatefulPages.Storage.DiskStore
import StatefulPages.Storage.MemoryStore
import StatefulPages.Proofs.Storage.Consistency
import StatefulPages.Proofs.Storage.CanonicalLayout
import StatefulPages.Proofs.Disk.Places
import StatefulPages.Proofs.Disk.Route
import StatefulPages.Proofs.Disk.Calls
import StatefulPages.Proofs.Disk.Changes
import StatefulPages.Proofs.Disk.LedFiles
import StatefulPages.Proofs.Storage.AgedStore
import StatefulPages.Proofs.Storage.PoolFiles
import StatefulPages.Proofs.Storage.PoolUse
import StatefulPages.Proofs.Storage.IdleFiles
import StatefulPages.Proofs.Storage.SessionFiles
import StatefulPages.Proofs.Storage.StoreSessions
import StatefulPages.Proofs.Storage.DiskRefinement
import StatefulPages.Proofs.Storage.IndexCodec
import StatefulPages.Proofs.Storage.IndexBytes
import StatefulPages.Proofs.Storage.LayoutCheck
import StatefulPages.Proofs.Storage.NewWindows
import StatefulPages.Proofs.Storage.FailedWrites
import StatefulPages.Proofs.Storage.AcceptedLayouts
import StatefulPages.Proofs.Storage.Restart
import StatefulPages.Proofs.Routing.AddressGrammar
import StatefulPages.Proofs.Routing.AddressText
import StatefulPages.Proofs.Routing.UrlText
import StatefulPages.Proofs.Routing.SameParameters
import StatefulPages.Proofs.Routing.ParameterEncoders
import StatefulPages.Proofs.Routing.AddressSlot
import StatefulPages.Proofs.Routing.Placeholders
import StatefulPages.Proofs.Routing.Instances
import StatefulPages.Proofs.Routing.MountedPages
import StatefulPages.Proofs.Routing.MountedInstances
import StatefulPages.Proofs.Routing.SiteUrls
import StatefulPages.Proofs.Routing.SitePages
import StatefulPages.Proofs.Routing.PathSegments
import StatefulPages.Proofs.Routing.AddressedPages
import StatefulPages.Proofs.Routing.Precedence
import StatefulPages.Proofs.Routing.SeveralMappers
import StatefulPages.Proofs.Routing.ReplayedResponses
import StatefulPages.Proofs.Routing.FrameworkUrls
import StatefulPages.Proofs.Routing.LongestMount
import StatefulPages.Proofs.Routing.Redirects
import StatefulPages.Proofs.Routing.ResourceUrls
import StatefulPages.Proofs.Storage.Growth
import StatefulPages.Proofs.Cycle.Programs
import StatefulPages.Proofs.Cycle.Turns
import StatefulPages.Proofs.Cycle.ListenerUrls
import StatefulPages.Proofs.Cycle.Steps
import StatefulPages.Proofs.Cycle.Targets
import StatefulPages.Proofs.Cycle.TurnEvents
import StatefulPages.Proofs.Cycle.RequestTurns
import StatefulPages.Proofs.Cycle.GuardedCalls
import StatefulPages.Proofs.Cycle.Scheduling
import StatefulPages.Proofs.Cycle.PageObjects
import StatefulPages.Proofs.Cycle.Freezing
import StatefulPages.Proofs.Storage.RecentPages
import StatefulPages.Proofs.Cycle.SavedPages
import StatefulPages.Proofs.Storage.StoreHistory
import StatefulPages.Proofs.Storage.EndedSessions
import StatefulPages.Proofs.Storage.Lifetimes
import StatefulPages.Proofs.Inspect.DumpedPages
import StatefulPages.Proofs.Storage.IndexPlace
import StatefulPages.Proofs.Storage.MemorySessions
import StatefulPages.Proofs.Storage.OpenFiles
import StatefulPages.Proofs.Storage.ReadPages
import StatefulPages.Proofs.Cycle.TouchedPages
import StatefulPages.Proofs.Cycle.FailedRequests
import StatefulPages.Proofs.Cycle.SharedPages
