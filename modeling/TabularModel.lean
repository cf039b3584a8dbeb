import TabularModel.Main
import TabularModel.Interchange.Filter
import TabularModel.Interchange.Options
import TabularModel.Interchange.Prior
import TabularModel.Interchange.Settings
import TabularModel.Json.Writer
import TabularModel.Proofs.Regeneration
import TabularModel.Sql.Validation
import TabularModel.Proofs.Filter.Conditions
import TabularModel.Proofs.Filter.Links
import TabularModel.Proofs.Filter.Mentions
import TabularModel.Proofs.Filter.Outline
import TabularModel.Proofs.Plan.RowSource
import TabularModel.Proofs.Prior.Measures
import TabularModel.Proofs.Prior.KeptRelationships
import TabularModel.Proofs.Prior.Unchanged
import TabularModel.Proofs.Prior.Warnings
import TabularModel.Proofs.Change.Comparison
import TabularModel.Proofs.Change.NothingLost
import TabularModel.Proofs.Sql.Logic
import TabularModel.Proofs.Sql.Balance
import TabularModel.Proofs.Sql.Precedence
import TabularModel.Proofs.Filter.Structure
import TabularModel.Proofs.Prior.Readback
import TabularModel.Proofs.Generation.Readback
import TabularModel.Proofs.CommandLine.Places
import TabularModel.Proofs.CommandLine.Files
import TabularModel.Proofs.CommandLine.Run
import TabularModel.Proofs.Prior.UserBlocks
import TabularModel.Proofs.Prior.Unedited
import TabularModel.Proofs.Renewal
import TabularModel.Proofs.Generation.Edges
import TabularModel.Proofs.History
import TabularModel.Proofs.Endpoints
import TabularModel.Proofs.Renaming
import TabularModel.Proofs.Definition.Rendering
import TabularModel.Proofs.Filter.Visits
import TabularModel.Proofs.Filter.Scopes
import TabularModel.Proofs.Change.Paths
import TabularModel.Proofs.Generation.References
import TabularModel.Proofs.Generation.Projection
import TabularModel.Proofs.Generation.Paths
import TabularModel.Proofs.Generation.Keys
import TabularModel.Proofs.Generation.VirtualColumns
import TabularModel.Proofs.Generation.JoinColumns
import TabularModel.Proofs.Change.Relationships
import TabularModel.Proofs.Filter.MissingUser
import TabularModel.Proofs.Change.KeptMeasures
import TabularModel.Proofs.FactTable
import TabularModel.Proofs.Generation.LocalDay
import TabularModel.Proofs.Settings.Expansion
import TabularModel.Proofs.Filter.RelativeDates
import TabularModel.Proofs.Plan.CarriedQuery
import TabularModel.Proofs.Filter.Writing
import TabularModel.Proofs.Definition.PrefixCode
import TabularModel.Proofs.Definition.WellNested
