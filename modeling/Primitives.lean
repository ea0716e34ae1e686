import Primitives.Codec.Base64
import Primitives.Codec.Charset
import Primitives.Codec.StandardCharset
import Primitives.Codec.Utf8
import Primitives.Console.Basic
import Primitives.Console.Reader
import Primitives.Console.Terminal
import Primitives.Console.Trace
import Primitives.Datum
import Primitives.Elementary.Exponential
import Primitives.Elementary.Logarithm
import Primitives.Elementary.Roots
import Primitives.Elementary.Series
import Primitives.Elementary.Trigonometry
import Primitives.Error
import Primitives.Fault
import Primitives.Files.Calls
import Primitives.Files.FileSystem
import Primitives.Files.Host
import Primitives.Files.PathText
import Primitives.Files.Request
import Primitives.Files.Resolution
import Primitives.Files.Tree
import Primitives.Format.Cache
import Primitives.Format.Directive
import Primitives.Format.Floating
import Primitives.Format.Placeholder
import Primitives.Format.Rendering
import Primitives.Format.Template
import Primitives.Library.Basic
import Primitives.Library.ConsoleOperations
import Primitives.Library.FileOperations
import Primitives.Library.NumberOperations
import Primitives.Library.Operation
import Primitives.Library.TextOperations
import Primitives.Number.Basic
import Primitives.Number.Decimal
import Primitives.Number.Double
import Primitives.Number.Double.Arithmetic
import Primitives.Number.Double.Order
import Primitives.Number.Functions
import Primitives.Number.Integer
import Primitives.Number.Literal
import Primitives.Number.Numeral
import Primitives.Number.Power
import Primitives.Number.Rounding
import Primitives.Number.Shortest
import Primitives.Proofs.Codec.StandardCharset
import Primitives.Proofs.Codec.Utf8
import Primitives.Proofs.Console.Cursor
import Primitives.Proofs.Console.FailedWrites
import Primitives.Proofs.Console.InputCalls
import Primitives.Proofs.Console.LinesToTheEnd
import Primitives.Proofs.Files.CompleteWrites
import Primitives.Proofs.Files.CopiedSources
import Primitives.Proofs.Files.CopiedTrees
import Primitives.Proofs.Files.Copies
import Primitives.Proofs.Files.FailureValues
import Primitives.Proofs.Files.FileSystem
import Primitives.Proofs.Files.Invariant
import Primitives.Proofs.Files.LineFiles
import Primitives.Proofs.Files.ListedTrees
import Primitives.Proofs.Files.Listings
import Primitives.Proofs.Files.MadeDirectories
import Primitives.Proofs.Files.MoveFallback
import Primitives.Proofs.Files.MoveTargets
import Primitives.Proofs.Files.Moves
import Primitives.Proofs.Files.MovesByCopying
import Primitives.Proofs.Files.NamedEncodings
import Primitives.Proofs.Files.NewDirectories
import Primitives.Proofs.Files.NormalPaths
import Primitives.Proofs.Files.Outlines
import Primitives.Proofs.Files.PathParts
import Primitives.Proofs.Files.PathTexts
import Primitives.Proofs.Files.Places
import Primitives.Proofs.Files.PlainPaths
import Primitives.Proofs.Files.Removals
import Primitives.Proofs.Files.RemovedLinks
import Primitives.Proofs.Files.RemovedTrees
import Primitives.Proofs.Files.Renames
import Primitives.Proofs.Files.RepeatedCopies
import Primitives.Proofs.Files.Runs
import Primitives.Proofs.Files.SecondCopies
import Primitives.Proofs.Files.SeparateTargets
import Primitives.Proofs.Files.SuccessfulCopies
import Primitives.Proofs.Files.Trees
import Primitives.Proofs.Files.Walks
import Primitives.Proofs.Files.WholeFiles
import Primitives.Proofs.Format.Concatenation
import Primitives.Proofs.Format.IntegerFields
import Primitives.Proofs.Format.LongNumerals
import Primitives.Proofs.Format.PlaceholderTexts
import Primitives.Proofs.Format.Printing
import Primitives.Proofs.Format.RoundTrip
import Primitives.Proofs.Format.Segments
import Primitives.Proofs.Format.TextFields
import Primitives.Proofs.Format.UnprintableValues
import Primitives.Proofs.Library.FileOperations
import Primitives.Proofs.Library.Names
import Primitives.Proofs.Library.NumberOperations
import Primitives.Proofs.Library.NumericTexts
import Primitives.Proofs.Library.QuietOperations
import Primitives.Proofs.Number.BaseNumerals
import Primitives.Proofs.Number.DecimalTexts
import Primitives.Proofs.Number.Decimals
import Primitives.Proofs.Number.Divisibility
import Primitives.Proofs.Number.DoubleTexts
import Primitives.Proofs.Number.GrowthBounds
import Primitives.Proofs.Number.GuardedFunctions
import Primitives.Proofs.Number.IntegerTexts
import Primitives.Proofs.Number.IntegralDoubles
import Primitives.Proofs.Number.MachineNumbers
import Primitives.Proofs.Number.Misspellings
import Primitives.Proofs.Number.Nearest
import Primitives.Proofs.Number.Neighbours
import Primitives.Proofs.Number.Numerals
import Primitives.Proofs.Number.ParsedDoubles
import Primitives.Proofs.Number.ParsedIntegers
import Primitives.Proofs.Number.Rounding
import Primitives.Proofs.Number.Sequences
import Primitives.Proofs.Number.StrictFunctions
import Primitives.Proofs.Number.Values
import Primitives.Proofs.Outcomes
import Primitives.Proofs.Random.Attempts
import Primitives.Proofs.Random.Fractions
import Primitives.Proofs.Random.HalfOpen
import Primitives.Proofs.Random.Readings
import Primitives.Proofs.Random.Recurrence
import Primitives.Proofs.Random.SeedsOnDemand
import Primitives.Proofs.Random.Streams
import Primitives.Proofs.Random.Uniform
import Primitives.Proofs.Session.FailedSteps
import Primitives.Proofs.Session.FirstUse
import Primitives.Proofs.Session.FormatErrors
import Primitives.Proofs.Session.Formatting
import Primitives.Proofs.Session.KeptTemplates
import Primitives.Proofs.Session.LifeCycle
import Primitives.Proofs.Session.Loading
import Primitives.Proofs.Session.ProgramSteps
import Primitives.Proofs.Session.Returns
import Primitives.Proofs.Session.Runs
import Primitives.Proofs.Session.SettingsInForce
import Primitives.Proofs.Settings.Normalization
import Primitives.Proofs.Text.Ascii
import Primitives.Proofs.Text.Occurrences
import Primitives.Proofs.Text.Parts
import Primitives.Proofs.Text.Replacements
import Primitives.Proofs.Text.Searches
import Primitives.Proofs.Text.Slices
import Primitives.Proofs.Text.Trimming
import Primitives.Random.Draw
import Primitives.Random.Stream
import Primitives.Random.Twister
import Primitives.Record
import Primitives.Session.Basic
import Primitives.Session.Draws
import Primitives.Session.Output
import Primitives.Session.Settings
import Primitives.Settings.Basic
import Primitives.Settings.Field
import Primitives.Settings.Issue
import Primitives.Surroundings
import Primitives.Surroundings.Standard
import Primitives.Text.Ascii
import Primitives.Text.Basic
import Primitives.Text.Builder
import Primitives.Text.Cells
import Primitives.Text.Padding
import Primitives.Text.Parts
import Primitives.Text.Printable
import Primitives.Text.Quoted
import Primitives.Text.Search
import Primitives.Value
import Primitives.Yaml.Calendar
import Primitives.Yaml.Cursor
import Primitives.Yaml.Document
import Primitives.Yaml.Fault
import Primitives.Yaml.Grammar
import Primitives.Yaml.Node
import Primitives.Yaml.Numeral
import Primitives.Yaml.Property
import Primitives.Yaml.Reading
import Primitives.Yaml.Scalar
import Primitives.Yaml.Tag
import Primitives.Yaml.Token
