import SchemaAudit.Lint.Session
import SchemaAudit.Main
import SchemaAudit.Proofs.Results
import SchemaAudit.Proofs.Keyed
import SchemaAudit.Proofs.Text.Spacing
import SchemaAudit.Proofs.Text.Folding
import SchemaAudit.Proofs.Schema.DataType
import SchemaAudit.Proofs.Schema.ColumnSet
import SchemaAudit.Proofs.Snapshot.Linking
import SchemaAudit.Proofs.Snapshot.WellFormed
import SchemaAudit.Proofs.Snapshot.Relationships
import SchemaAudit.Proofs.Snapshot.Rearranging
import SchemaAudit.Proofs.Snapshot.RepeatedNames
import SchemaAudit.Proofs.Graph.Cycles
import SchemaAudit.Proofs.Graph.Extension
import SchemaAudit.Proofs.Graph.Enumeration
import SchemaAudit.Proofs.Lint.Cursor
import SchemaAudit.Proofs.Lint.Schedule
import SchemaAudit.Proofs.Lint.Shown
import SchemaAudit.Proofs.Lint.RelationshipCycles
import SchemaAudit.Proofs.Lint.RedundantIndexes
import SchemaAudit.Proofs.Lint.Locality
import SchemaAudit.Proofs.Dbml.References
import SchemaAudit.Proofs.Doc.Occurrence
import SchemaAudit.Proofs.Snapshot.Failures
import SchemaAudit.Proofs.Snapshot.Loading
import SchemaAudit.Proofs.Yaml.Faults
import SchemaAudit.Proofs.Yaml.Library
import SchemaAudit.Proofs.Dbml.Writing
import SchemaAudit.Proofs.Lint.Selection
import SchemaAudit.Proofs.Settings.Rules
import SchemaAudit.Proofs.Lint.Messages
import SchemaAudit.Proofs.Snapshot.PartNames
import SchemaAudit.Proofs.Lint.Independence
import SchemaAudit.Proofs.Lint.OrphanedTables
import SchemaAudit.Proofs.Lint.TypeMismatches
import SchemaAudit.Proofs.Settings.Building
import SchemaAudit.Proofs.CommandLine.Gate
import SchemaAudit.Proofs.Lint.RedundantPairs
import SchemaAudit.Proofs.Snapshot.Directions
import SchemaAudit.Proofs.Snapshot.ColumnReferences
import SchemaAudit.Proofs.Schema.Lookups
import SchemaAudit.Proofs.Lint.ImpliedRelationships
import SchemaAudit.Proofs.Dbml.Layout
import SchemaAudit.Proofs.Dbml.FurtherTables
import SchemaAudit.Proofs.Schema.TypeParameters
import SchemaAudit.Proofs.Schema.QualifiedNames
import SchemaAudit.Proofs.Dbml.Cardinality
import SchemaAudit.Proofs.Lint.NullDefaults
import SchemaAudit.Proofs.Dbml.Defaults
import SchemaAudit.Proofs.Dbml.Blocks
import SchemaAudit.Proofs.Settings.Precedence
import SchemaAudit.Proofs.Doc.Numbers
import SchemaAudit.Proofs.Snapshot.UnknownFields
