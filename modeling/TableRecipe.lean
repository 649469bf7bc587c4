import TableRecipe.Recipe.Run
import TableRecipe.Proofs.Outcome
import TableRecipe.Proofs.Table.Columns
import TableRecipe.Proofs.Recipe.Merge
import TableRecipe.Proofs.Step.Labels
import TableRecipe.Proofs.Recipe.ConditionalStep
import TableRecipe.Proofs.Recipe.FilteredStep
import TableRecipe.Proofs.Placeholder.Pieces
import TableRecipe.Proofs.Placeholder.Places
import TableRecipe.Proofs.Recipe.Reached
import TableRecipe.Proofs.Recipe.Tasks
import TableRecipe.Proofs.Recipe.RuntimeNames
import TableRecipe.Proofs.Placeholder.Consults
import TableRecipe.Proofs.Recipe.NestedScope
import TableRecipe.Proofs.Placeholder.ResolvedTwice
import TableRecipe.Proofs.Recipe.MissingCells
import TableRecipe.Proofs.Selector.Expansion
import TableRecipe.Proofs.Selector.Meanings
import TableRecipe.Proofs.Selector.StarTexts
import TableRecipe.Proofs.Selector.CheckedSums
import TableRecipe.Proofs.Selector.Progressions
import TableRecipe.Proofs.Number.Whole
import TableRecipe.Proofs.Number.Rounding
import TableRecipe.Proofs.Number.Shortest
import TableRecipe.Proofs.Number.Texts
import TableRecipe.Proofs.Number.Apart
import TableRecipe.Proofs.Step.IntegerTexts
import TableRecipe.Proofs.Selector.OptionalMark
import TableRecipe.Proofs.Condition.Words
import TableRecipe.Proofs.Condition.ReadBack
import TableRecipe.Proofs.Condition.NumberTexts
import TableRecipe.Proofs.Condition.Integers
import TableRecipe.Proofs.Condition.ThreeValued
import TableRecipe.Proofs.Condition.Comparisons
import TableRecipe.Proofs.Condition.EnclosedWords
import TableRecipe.Proofs.Condition.Joined
import TableRecipe.Proofs.Condition.RowByRow
import TableRecipe.Proofs.Condition.Like
import TableRecipe.Proofs.Placeholder.Cycles
import TableRecipe.Proofs.Placeholder.Tolerance
import TableRecipe.Proofs.Json.PlainText
import TableRecipe.Proofs.Table.Union
import TableRecipe.Proofs.Table.Join
import TableRecipe.Proofs.Remote.Answers
import TableRecipe.Proofs.Remote.Attempts
import TableRecipe.Proofs.Remote.Widths
import TableRecipe.Proofs.Remote.Chunks
import TableRecipe.Proofs.Step.BatchRows
import TableRecipe.Proofs.Table.Changes
import TableRecipe.Proofs.Table.AllOrNothing
import TableRecipe.Proofs.Matrix.Bindings
import TableRecipe.Proofs.Table.Shape
import TableRecipe.Proofs.Table.Marks
import TableRecipe.Proofs.Table.Names
import TableRecipe.Proofs.Effects
import TableRecipe.Proofs.Recipe.Course
import TableRecipe.Proofs.Recipe.Relayed
import TableRecipe.Proofs.Recipe.FailurePlaces
import TableRecipe.Proofs.Recipe.Depth
import TableRecipe.Proofs.Recipe.Inlining
import TableRecipe.Proofs.Placeholder.Influence
import TableRecipe.Proofs.Placeholder.StepsByName
import TableRecipe.Proofs.Matrix.Workers
import TableRecipe.Proofs.FileSystem
import TableRecipe.Proofs.Json.Scalars
import TableRecipe.Proofs.Json.Apart
import TableRecipe.Proofs.Table.Keys
import TableRecipe.Proofs.Json.WrittenValues
import TableRecipe.Proofs.Connector.SavedTables
import TableRecipe.Proofs.Table.Writes
import TableRecipe.Proofs.Recipe.PutBack
import TableRecipe.Proofs.Recipe.TakenOver
import TableRecipe.Proofs.Step.Pairs
import TableRecipe.Proofs.Csv
import TableRecipe.Proofs.Connector.SavedRecords
import TableRecipe.Proofs.Step.Renaming
import TableRecipe.Proofs.CustomFunction.RowCalls
import TableRecipe.Proofs.CustomFunction.Keywords
import TableRecipe.Proofs.Recipe.FailureActions
import TableRecipe.Proofs.Pattern.Spans
import TableRecipe.Proofs.Pattern.Explored
import TableRecipe.Proofs.Pattern.Local
import TableRecipe.Proofs.Pattern.LocalParts
import TableRecipe.Proofs.Pattern.LocalClasses
import TableRecipe.Proofs.Pattern.LocalSequences
import TableRecipe.Proofs.Pattern.ReadingSteps
import TableRecipe.Proofs.Pattern.Anchored
import TableRecipe.Proofs.Selector.Patterns
import TableRecipe.Proofs.Number.Hundredths
import TableRecipe.Proofs.Connector.SampleTemplates
import TableRecipe.Proofs.Connector.SampleCells
