import SqlTemplate.Condition.Printer
import SqlTemplate.Engine.TreeRendering
import SqlTemplate.Literal.Reading
import SqlTemplate.Proofs.Condition.Completeness
import SqlTemplate.Proofs.Condition.Division
import SqlTemplate.Proofs.Condition.Equality
import SqlTemplate.Proofs.Condition.NumeralOperands
import SqlTemplate.Proofs.Condition.OwnText
import SqlTemplate.Proofs.Condition.Printed
import SqlTemplate.Proofs.Condition.Recency
import SqlTemplate.Proofs.Condition.Segmentation
import SqlTemplate.Proofs.Condition.Simple
import SqlTemplate.Proofs.Engine.Agreement
import SqlTemplate.Proofs.Engine.Containment
import SqlTemplate.Proofs.Engine.Exact
import SqlTemplate.Proofs.Engine.Order
import SqlTemplate.Proofs.Engine.Reads
import SqlTemplate.Proofs.Engine.SinglePass
import SqlTemplate.Proofs.Engine.Termination
import SqlTemplate.Proofs.Engine.Torn
import SqlTemplate.Proofs.Engine.Totality
import SqlTemplate.Proofs.Engine.Trimmed
import SqlTemplate.Proofs.Environment
import SqlTemplate.Proofs.Literal.Conversion
import SqlTemplate.Proofs.Literal.Marking
import SqlTemplate.Proofs.Literal.Numerals
import SqlTemplate.Proofs.Literal.Pattern
import SqlTemplate.Proofs.Literal.Shape
import SqlTemplate.Proofs.Session.History
import SqlTemplate.Proofs.Session.Size
import SqlTemplate.Proofs.Template.Attribution
import SqlTemplate.Proofs.Template.Dividing
import SqlTemplate.Proofs.Template.Matching
import SqlTemplate.Proofs.Template.Parameters
import SqlTemplate.Proofs.Template.Tiling
import SqlTemplate.Session
import SqlTemplate.Settings.File
