import ExerciseDoc.Text.Blank
import ExerciseDoc.Text.Lines
import ExerciseDoc.Text.Reader
import ExerciseDoc.Text.Ranges
import ExerciseDoc.Text.Word
import ExerciseDoc.Text.Quoted
import ExerciseDoc.Number.Binary64
import ExerciseDoc.Number.Decimal
import ExerciseDoc.Value.Basic
import ExerciseDoc.Value.Merge
import ExerciseDoc.Value.Literal
import ExerciseDoc.Json.Number
import ExerciseDoc.Json.Reader
import ExerciseDoc.Json.Printer
import ExerciseDoc.Key
import ExerciseDoc.Path
import ExerciseDoc.Source.Basic
import ExerciseDoc.Source.Store
import ExerciseDoc.Source.Disk
import ExerciseDoc.Component
import ExerciseDoc.Document
import ExerciseDoc.Line.Directive
import ExerciseDoc.Line.Classify
import ExerciseDoc.Parse.Error
import ExerciseDoc.Parse.Run
import ExerciseDoc.Parse.Basic
import ExerciseDoc.Registry.Plugin
import ExerciseDoc.Registry.Basic
import ExerciseDoc.CommandLine.Arguments
import ExerciseDoc.CommandLine.Answer
import ExerciseDoc.Main
import ExerciseDoc.Proofs.Json.Strings
import ExerciseDoc.Proofs.Json.Progress
import ExerciseDoc.Proofs.Value.Nesting
import ExerciseDoc.Proofs.Parse.Lines
import ExerciseDoc.Proofs.Parse.Opened
import ExerciseDoc.Proofs.Inheritance.Chain
import ExerciseDoc.Proofs.Parse.Agreement
import ExerciseDoc.Proofs.Inheritance.Independence
import ExerciseDoc.Proofs.Inheritance.Limit
import ExerciseDoc.Proofs.Document.Order
import ExerciseDoc.Proofs.Inheritance.Inclusion
import ExerciseDoc.Proofs.Parse.Mandatory
import ExerciseDoc.Proofs.Parse.Position
import ExerciseDoc.Proofs.Inheritance.Recount
import ExerciseDoc.Proofs.Path.Normal
import ExerciseDoc.Proofs.Path.Directory
import ExerciseDoc.Proofs.Inheritance.Spelling
import ExerciseDoc.Proofs.Inheritance.Repository
import ExerciseDoc.Proofs.Parse.Block
import ExerciseDoc.Proofs.Line.Parts
import ExerciseDoc.Proofs.Line.Grammar
import ExerciseDoc.Proofs.Line.Keyed
import ExerciseDoc.Proofs.Parse.Forms
import ExerciseDoc.Proofs.Path.Extension
import ExerciseDoc.Proofs.Registry.Selection
import ExerciseDoc.Proofs.Document.Nesting
import ExerciseDoc.Proofs.Text.Endings
import ExerciseDoc.Proofs.Json.Endings
import ExerciseDoc.Proofs.Parse.Endings
import ExerciseDoc.Proofs.Json.Whole
import ExerciseDoc.Proofs.Key.Assign
import ExerciseDoc.Proofs.Key.Failure
import ExerciseDoc.Proofs.Key.Commute
import ExerciseDoc.Proofs.Key.Join
import ExerciseDoc.Proofs.Json.Notation
import ExerciseDoc.Proofs.Parse.Carried
import ExerciseDoc.Proofs.CommandLine.Agreement
import ExerciseDoc.Proofs.Inheritance.Folder
import ExerciseDoc.Proofs.Literal.Grammar
import ExerciseDoc.Proofs.Json.Literals
import ExerciseDoc.Proofs.Parse.Notations
import ExerciseDoc.Proofs.Value.InOrder
import ExerciseDoc.Proofs.Value.Overlay
import ExerciseDoc.Proofs.Document.InOrder
import ExerciseDoc.Proofs.Inheritance.Repeated
import ExerciseDoc.Proofs.Parse.Growth
import ExerciseDoc.Proofs.Line.Exclusive
import ExerciseDoc.Proofs.Path.Form
import ExerciseDoc.Proofs.Inheritance.Recognition
import ExerciseDoc.Proofs.Line.Dependency
import ExerciseDoc.Proofs.Line.Padded
import ExerciseDoc.Proofs.Line.Trailing
import ExerciseDoc.Proofs.Path.Name
import ExerciseDoc.Proofs.Registry.Sharing
import ExerciseDoc.Proofs.Source.Registration
import ExerciseDoc.Proofs.Literal.Integers
