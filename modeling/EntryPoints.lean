import EntryPoints.Main
import EntryPoints.ScriptedGraph
import EntryPoints.Proofs.PureAnswers
import EntryPoints.Proofs.SessionTransparency
import EntryPoints.Proofs.LapseAccounting
import EntryPoints.Proofs.WalkCoverage
import EntryPoints.Proofs.OverrideDispatch
import EntryPoints.Proofs.TargetCallers
import EntryPoints.Proofs.MethodKeys
import EntryPoints.Proofs.ScopeConfinement
import EntryPoints.Proofs.TestIndependence
import EntryPoints.Proofs.DocumentationMentions
import EntryPoints.Proofs.EnclosingDeclarations
import EntryPoints.Proofs.FileOrder
import EntryPoints.Proofs.InstalledSnapshot
import EntryPoints.Proofs.CutOffMethods
import EntryPoints.Proofs.FailedLookups
import EntryPoints.Proofs.FailedReindex
import EntryPoints.Proofs.BuildAttempts
import EntryPoints.Proofs.NamedMethods
import EntryPoints.Proofs.EndingWalks
import EntryPoints.Proofs.LocalTypes
import EntryPoints.Proofs.EndingSearches
import EntryPoints.Proofs.DiscoveredCallers
import EntryPoints.Proofs.HiddenMembers
import EntryPoints.Proofs.OverloadChoice
import EntryPoints.Proofs.TopmostMethods
import EntryPoints.Proofs.UndecidedLambdas
import EntryPoints.Proofs.TypeArguments
import EntryPoints.Proofs.BoundedReceivers
import EntryPoints.Proofs.OutwardCreators
import EntryPoints.Proofs.SubtypeOrder
import EntryPoints.Proofs.RecordedCalls
import EntryPoints.Proofs.VariableScopes
import EntryPoints.Proofs.WrittenSpecs
import EntryPoints.Proofs.TraversalAccounting
import EntryPoints.Proofs.StatementUnion
import EntryPoints.Proofs.CacheGrowth
import EntryPoints.Proofs.FoundFiles
import EntryPoints.Proofs.RelocatedProjects
import EntryPoints.Proofs.ReportedFailures
import EntryPoints.Proofs.ReadableDrawings
