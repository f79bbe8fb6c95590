import Concourse.Db.VersionsDB
import Concourse.Db.PaginatedBuilds
import Concourse.Db.BuildFactory
import Concourse.Lib.UndoLog
import Concourse.Lib.LastMatch
import Concourse.Lib.Keyset
import Concourse.Lib.TopOrder
import Concourse.Db.ResourceConfigScope
import Concourse.Db.UnusedBuilds
import Concourse.Db.JobBuilds
import Concourse.Algorithm.GroupResolver
import Concourse.Algorithm.GroupResolverSound
import Concourse.Algorithm.GroupResolverRestore
import Concourse.Algorithm.Resolver
import Concourse.Creds.Secrets
import Concourse.Creds.CachedSecrets
import Concourse.Lib.GoText
import Concourse.Lib.GoJson
import Concourse.Atc.Steps
import Concourse.Lib.GoSlice
import Concourse.Vars.Reference
import Concourse.Vars.StaticVars
import Concourse.Atc.Pipeline
import Concourse.Fly.Flags
import Concourse.Worker.Placement
import Concourse.Worker.Pool
import Concourse.Lib.Renumber
import Concourse.Atc.PlanId
import Concourse.Atc.Plan
import Concourse.Atc.ResourceTypes
import Concourse.Builds.Planner
import Concourse.Builds.PlanVisitor
import Concourse.Builds.PlanIds
import Concourse.Engine.AcrossSubsteps
import Concourse.Engine.SubstepIds
import Concourse.Lib.ElmParser
import Concourse.Lib.ElmUrl
import Concourse.Api.ListBuilds
import Concourse.Web.Pagination
import Concourse.Web.DotNotation
import Concourse.Web.RouteBuilder
import Concourse.Web.Routes
import Concourse.Atc.StepConfig
import Concourse.Atc.StepValidator
import Concourse.Builds.ValidatedPlans
import Concourse.Algorithm.GroupResolverPruning
import Concourse.Vars.Template
import Concourse.Lib.LexProduct
import Concourse.Exec.AcrossStep
import Concourse.Lib.StableSort
import Concourse.Worker.PlacementOrder
import Concourse.Exec.InParallel
import Concourse.Lib.ListMove
import Concourse.Web.DashboardDrag
import Concourse.Creds.IdTokenSubject
import Concourse.Baggageclaim.LimitedReader
import Concourse.Gc.BuildLogCollector
import Concourse.Lib.DepOrder
import Concourse.Atc.VarSources
import Concourse.Web.DashboardFilter
import Concourse.Lib.ExceptFold
import Concourse.Atc.CycleCheck
import Concourse.Lib.RowUpdate
import Concourse.Db.SerialGroups
import Concourse.Db.ScheduleBuild
import Concourse.Scheduler.BuildStarter
import Concourse.Lib.GoContext
import Concourse.Exec.StepRun
import Concourse.Engine.Builder
import Concourse.Lib.AdvisoryLock
import Concourse.Lib.Interleaving
import Concourse.Db.Lock
import Concourse.Scheduler.Runner
import Concourse.Scheduler.SchedulingLock
