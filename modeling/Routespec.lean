import Routespec.Interface.Resolution
import Routespec.Json.Printer
import Routespec.Json.Reader
import Routespec.Main
import Routespec.Proofs.Agreement
import Routespec.Proofs.AliasDefinitions
import Routespec.Proofs.AliasExpansion
import Routespec.Proofs.AliasParts
import Routespec.Proofs.ArgumentSpacing
import Routespec.Proofs.BareClauses
import Routespec.Proofs.BodyAgreement
import Routespec.Proofs.BodyManipulations
import Routespec.Proofs.Citations
import Routespec.Proofs.CommentPartition
import Routespec.Proofs.CompositeOptions
import Routespec.Proofs.ContinuedLines
import Routespec.Proofs.Contributions
import Routespec.Proofs.Coverage
import Routespec.Proofs.Diagnostics
import Routespec.Proofs.DirectiveOrder
import Routespec.Proofs.DirectivePlacement
import Routespec.Proofs.ExplicitPlaces
import Routespec.Proofs.FailedRuns
import Routespec.Proofs.InferredDefaults
import Routespec.Proofs.LineBreaks
import Routespec.Proofs.OperationNames
import Routespec.Proofs.PathCompleteness
import Routespec.Proofs.PatternGrammar
import Routespec.Proofs.QueryDefault
import Routespec.Proofs.ReadBack
import Routespec.Proofs.ReadingFaults
import Routespec.Proofs.Relabelling
import Routespec.Proofs.RepeatedFlag
import Routespec.Proofs.RouteOrder
import Routespec.Proofs.Separators
import Routespec.Proofs.SharedParameters
import Routespec.Proofs.SuccessResponses
import Routespec.Proofs.SuccessfulRuns
import Routespec.Proofs.UnquotedParts
import Routespec.Proofs.VariableReaders
import Routespec.Proofs.VoidSuccess
import Routespec.Proofs.WireKeys
import Routespec.Proofs.WrittenDirectives
import Routespec.Proofs.WrittenOptions
import Routespec.ResolveOptions.Json
import Routespec.Session
import Routespec.Specification.Json
