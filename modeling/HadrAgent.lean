import HadrAgent.Agent.Caesar
import HadrAgent.Agent.Calc
import HadrAgent.Agent.Think
import HadrAgent.Agent.ToyTools
import HadrAgent.Dispatch.CloseReasons
import HadrAgent.Intake.ExtractReport
import HadrAgent.Runner.AbortedRuns
import HadrAgent.Runner.CacheTransparency
import HadrAgent.Runner.ConnectedRuns
import HadrAgent.Runner.EngineErrors
import HadrAgent.Runner.EpisodeInvariants
import HadrAgent.Runner.MissingArguments
import HadrAgent.Runner.PlumbingCheck
import HadrAgent.Runner.Routing
import HadrAgent.Runner.TickProtocol
import HadrAgent.Runner.TokenTotals
import HadrAgent.Runner.TypedCalls
import HadrAgent.Stores.DebugLog
import HadrAgent.Stores.EvidenceLinks
import HadrAgent.Stores.FindReports
import HadrAgent.Stores.LogReadable
import HadrAgent.Stores.NearestFirst
import HadrAgent.Stores.ObjectRuns
import HadrAgent.Stores.OpenFailures
import HadrAgent.Stores.Reports
import HadrAgent.Stores.StatusQueries
import HadrAgent.Stores.UnorderedDistances
import HadrAgent.Stores.Update
