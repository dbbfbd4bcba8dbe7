import ServiceLang.Codec.Diagnostic
import ServiceLang.Codec.Semantic
import ServiceLang.Codec.Syntax
import ServiceLang.Diagnostic
import ServiceLang.Json.Document
import ServiceLang.Json.Number
import ServiceLang.Json.Reader
import ServiceLang.Json.Record
import ServiceLang.Json.Token
import ServiceLang.Json.Value
import ServiceLang.Limits
import ServiceLang.Log
import ServiceLang.Lowering.Error
import ServiceLang.Lowering.Expression
import ServiceLang.Lowering.Outcome
import ServiceLang.Lowering.Service
import ServiceLang.Lowering.Statement
import ServiceLang.Lowering.Tree
import ServiceLang.Number.Binary64
import ServiceLang.Number.Digits
import ServiceLang.Number.Shortest
import ServiceLang.Proofs.Values.Contract
import ServiceLang.Proofs.Values.History
import ServiceLang.Semantic.Literal
import ServiceLang.Semantic.Operator
import ServiceLang.Semantic.Tree
import ServiceLang.Semantic.TypeRef
import ServiceLang.Span
import ServiceLang.Syntax.Kind
import ServiceLang.Syntax.Tree
import ServiceLang.Text
import ServiceLang.Values.Bounds
import ServiceLang.Values.GrowableArray
import ServiceLang.Values.Storage
import ServiceLang.Proofs.Values.Map
import ServiceLang.Proofs.Lowering.Equations
import ServiceLang.Proofs.Lowering.Transport
import ServiceLang.Proofs.Lowering.Skeleton
import ServiceLang.Proofs.Lowering.Grammar
import ServiceLang.Proofs.Lowering.Reading
import ServiceLang.Proofs.Lowering.Completeness
import ServiceLang.Proofs.Semantic.Literal
import ServiceLang.Proofs.Semantic.Proper
import ServiceLang.Proofs.Lowering.Soundness
import ServiceLang.Proofs.Lowering.Printing.Expression
import ServiceLang.Proofs.Lowering.Printing.Service
import ServiceLang.Proofs.Values.Capacity
import ServiceLang.Proofs.Values.Failure
import ServiceLang.Proofs.Syntax.DocumentOrder
import ServiceLang.Proofs.Lowering.Blame
import ServiceLang.Proofs.Lowering.SyntaxErrors
import ServiceLang.Proofs.Json.Lexing
import ServiceLang.Proofs.Json.Documents
import ServiceLang.Proofs.Json.Records
import ServiceLang.Proofs.Codec.Syntax
import ServiceLang.Proofs.Syntax.Relocation
import ServiceLang.Proofs.Lowering.Naturality
import ServiceLang.Proofs.Values.Robustness
import ServiceLang.Proofs.Lowering.Assertion
import ServiceLang.Proofs.Lowering.Silence
import ServiceLang.Proofs.Lowering.EventLog
import ServiceLang.Proofs.Lowering.Parentheses
import ServiceLang.Proofs.Values.Equality
import ServiceLang.Proofs.Codec.Semantic
import ServiceLang.Proofs.Json.Spelling
import ServiceLang.Proofs.Json.Texts
import ServiceLang.Proofs.Codec.Layout
import ServiceLang.Proofs.Semantic.Nesting
import ServiceLang.Proofs.Lowering.Nesting
import ServiceLang.Proofs.Lowering.Sequence
import ServiceLang.Proofs.Lowering.Resources
import ServiceLang.Proofs.Lowering.Looks
import ServiceLang.Proofs.Lowering.Contents
import ServiceLang.Proofs.Lowering.Overlooked
import ServiceLang.Proofs.Values.Access
import ServiceLang.Proofs.Number.Numeral
import ServiceLang.Proofs.Semantic.LiteralGrammar
import ServiceLang.Proofs.Number.Rounding
import ServiceLang.Proofs.Semantic.FloatGrammar
import ServiceLang.Proofs.Json.Number
import ServiceLang.Proofs.Lowering.Literals
import ServiceLang.Proofs.Semantic.TypeRef
import ServiceLang.Proofs.Values.Growth
import ServiceLang.Proofs.Lowering.Declarations
import ServiceLang.Proofs.Json.Continuation
import ServiceLang.Proofs.Codec.Continuation
import ServiceLang.Proofs.Values.Usage
