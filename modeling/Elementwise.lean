import Elementwise.Anchor
import Elementwise.CodePoint
import Elementwise.CommandLine.Disk
import Elementwise.CommandLine.Help
import Elementwise.CommandLine.Options
import Elementwise.CommandLine.Run
import Elementwise.Compiler
import Elementwise.Config
import Elementwise.Config.File
import Elementwise.Data.Base64
import Elementwise.Data.Binary64
import Elementwise.Data.Calendar
import Elementwise.Data.Conversion
import Elementwise.Data.Numeral
import Elementwise.Data.Quoted
import Elementwise.Data.Utf8
import Elementwise.Data.Value
import Elementwise.Edit
import Elementwise.Failure
import Elementwise.Grammar.Binding
import Elementwise.Grammar.Class
import Elementwise.Grammar.Expression
import Elementwise.Grammar.Function
import Elementwise.Grammar.Script
import Elementwise.Grammar.State
import Elementwise.Grammar.Statement
import Elementwise.Main
import Elementwise.Naming
import Elementwise.ParseError
import Elementwise.Place
import Elementwise.Proofs.Flattening
import Elementwise.Proofs.GeneratedName
import Elementwise.Proofs.Occurrence
import Elementwise.Proofs.Replacement
import Elementwise.Proofs.SharedSequence
import Elementwise.Proofs.Splice
import Elementwise.Proofs.WordBoundary
import Elementwise.Report.Json
import Elementwise.Report.Routine
import Elementwise.Rewrite
import Elementwise.Sequence
import Elementwise.Session
import Elementwise.Site
import Elementwise.Syntax.Node
import Elementwise.Syntax.Pattern
import Elementwise.Token
import Elementwise.Token.Escape
import Elementwise.Token.Keyword
import Elementwise.Token.Lexer
import Elementwise.Token.Name
import Elementwise.Token.Number
import Elementwise.Token.Punctuator
import Elementwise.Token.Regex
import Elementwise.Token.Regex.Atom
import Elementwise.Token.Regex.Pattern
import Elementwise.Token.Separator
import Elementwise.Token.StringLiteral
import Elementwise.Token.Template
import Elementwise.Unicode.Blank
import Elementwise.Unicode.Digit
import Elementwise.Unicode.Identifier
import Elementwise.Unicode.Printable
import Elementwise.Unicode.Ranges
import Elementwise.Usage
import Elementwise.Yaml.Document
import Elementwise.Yaml.Fault
import Elementwise.Yaml.Graph
import Elementwise.Yaml.Printer
import Elementwise.Yaml.Scalar
import Elementwise.Yaml.Scan
import Elementwise.Yaml.Style
import Elementwise.Yaml.Tag
import Elementwise.Yaml.Token
import Elementwise.Proofs.Rejection
import Elementwise.Proofs.Layout
import Elementwise.Proofs.Reading
import Elementwise.Proofs.WrittenParameter
import Elementwise.Proofs.Contract
import Elementwise.Proofs.Grammar.Binding
import Elementwise.Proofs.Grammar.Function
import Elementwise.Proofs.Grammar.Class
import Elementwise.Proofs.Grammar.Script
import Elementwise.Proofs.Overlap
import Elementwise.Proofs.Grammar.Called
import Elementwise.Proofs.FreshCompiler
import Elementwise.Proofs.ListedNames
import Elementwise.Proofs.ParameterUsage
import Elementwise.Proofs.SingleFunction
import Elementwise.Proofs.CompiledBody
import Elementwise.Proofs.PrefixExchange
import Elementwise.Proofs.Concatenation
import Elementwise.Proofs.WrittenString
import Elementwise.Proofs.NameSet
import Elementwise.Proofs.AllOrNothing
import Elementwise.Proofs.CommentedSuffix
import Elementwise.Proofs.SourceFile
import Elementwise.Proofs.ConfigFile.Written
import Elementwise.Proofs.ConfigFile.Tokens
import Elementwise.Proofs.ConfigFile.Nodes
import Elementwise.Proofs.ConfigFile.RoundTrip
import Elementwise.Proofs.ConfiguredName
import Elementwise.Proofs.TokenEnd
import Elementwise.Proofs.ConfigurationFault
import Elementwise.Proofs.NamePlace
import Elementwise.Proofs.BodyTrace
import Elementwise.Proofs.CountedPlace
import Elementwise.Proofs.EscapedString
import Elementwise.Proofs.ConsultedName
import Elementwise.Proofs.Relabelling
import Elementwise.Proofs.MovedRoutine
import Elementwise.Proofs.RespelledParameter
import Elementwise.Proofs.FaultPlace.Reading
import Elementwise.Proofs.FaultPlace.Contract
import Elementwise.Proofs.FaultPlace.Function
import Elementwise.Proofs.FaultPlace.Expression
import Elementwise.Proofs.FaultPlace.Statement
import Elementwise.Proofs.FaultPlace.Report
import Elementwise.Proofs.RecordingOrder
import Elementwise.Proofs.UndoneEdit
import Elementwise.Proofs.ReturnedExpression
import Elementwise.Proofs.StrictBody
import Elementwise.Proofs.PrototypeKey
