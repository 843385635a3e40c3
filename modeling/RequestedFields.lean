import RequestedFields.Collection
import RequestedFields.CollectOptions.OfJson
import RequestedFields.Document
import RequestedFields.Json.Reading
import RequestedFields.Json.Writing
import RequestedFields.Proofs.CycleGuard
import RequestedFields.Query.Printing
import RequestedFields.Tagging
import RequestedFields.Proofs.SpreadInlining
import RequestedFields.Proofs.Insertions
import RequestedFields.Proofs.Merging
import RequestedFields.Proofs.PathExtension
import RequestedFields.Proofs.Expansion
import RequestedFields.Proofs.Occurrences
import RequestedFields.Proofs.PathMeaning
import RequestedFields.Proofs.SpreadNames
import RequestedFields.Proofs.ValidDocument
import RequestedFields.Proofs.DocumentContent
import RequestedFields.Proofs.Exchange
import RequestedFields.Proofs.Renaming
import RequestedFields.Proofs.Lexing
import RequestedFields.Proofs.Parsing
import RequestedFields.Proofs.RoundTrip
import RequestedFields.Proofs.History
import RequestedFields.Proofs.LastNode
import RequestedFields.Proofs.MapContent
import RequestedFields.Proofs.Relevance
import RequestedFields.Proofs.Places
import RequestedFields.Proofs.FieldsBefore
import RequestedFields.Proofs.FaultPlace
import RequestedFields.Proofs.Retrying
import RequestedFields.Proofs.InlineFragments
import RequestedFields.Proofs.FieldBodies
import RequestedFields.Proofs.Reports
import RequestedFields.Proofs.PathReports
import RequestedFields.Proofs.PathPrefixes
import RequestedFields.Proofs.InlineForm
import RequestedFields.Proofs.Sameness
import RequestedFields.Proofs.TaggedValues
import RequestedFields.Proofs.ContextCalls
import RequestedFields.Proofs.OptionsLanguage
import RequestedFields.Proofs.FragmentStack
