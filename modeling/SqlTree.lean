import SqlTree.Dialect.Document
import SqlTree.Draft
import SqlTree.Guard.AccessPolicy
import SqlTree.Guard.SoftDelete
import SqlTree.Guard.TenantScope
import SqlTree.Node.Equality
import SqlTree.Policy.Document
import SqlTree.Proofs.Noninterference
import SqlTree.Proofs.Placeholders
import SqlTree.Proofs.WhereClause
import SqlTree.Statement.Build
import SqlTree.Proofs.Masking
import SqlTree.Proofs.GuardStack
import SqlTree.Proofs.Substitution
import SqlTree.Proofs.Literals
import SqlTree.Proofs.Nesting
import SqlTree.Proofs.Enclosure
import SqlTree.Proofs.Within
import SqlTree.Proofs.Conjuncts
import SqlTree.Proofs.ConditionTruth
import SqlTree.Proofs.FilteredTables
import SqlTree.Proofs.Formatting
import SqlTree.Proofs.AttributedRuns
import SqlTree.Proofs.Histories
import SqlTree.Proofs.Refusals
import SqlTree.Proofs.Scripts
import SqlTree.Proofs.Drawings
import SqlTree.Proofs.Sketches
import SqlTree.Proofs.SketchDrawing
import SqlTree.Proofs.Census
import SqlTree.Proofs.Clusters
import SqlTree.Proofs.MissingTenant
import SqlTree.Proofs.Confinement
import SqlTree.Proofs.FirstMatch
import SqlTree.Proofs.JsonText
import SqlTree.Proofs.PolicyDocuments
import SqlTree.Proofs.BareQueries
import SqlTree.Proofs.Stamping
import SqlTree.Proofs.ArithmeticText
import SqlTree.Proofs.TypeNames
import SqlTree.Proofs.Comments
import SqlTree.Proofs.Quotation
import SqlTree.Proofs.Patterns
import SqlTree.Proofs.NestedComments
import SqlTree.Proofs.TypedColumns
import SqlTree.Proofs.DigraphText
import SqlTree.Proofs.FloatText
import SqlTree.Proofs.ValueDocuments
