import SchemaBaseline.Baseline.Store
import SchemaBaseline.Breakdown
import SchemaBaseline.CommandLine.Flags
import SchemaBaseline.CommandLine.Invocation
import SchemaBaseline.CommandLine.Run
import SchemaBaseline.Compat.Compare
import SchemaBaseline.Compat.Findings
import SchemaBaseline.Decimal.Binary64
import SchemaBaseline.Decimal.Layout
import SchemaBaseline.Decimal.Reader
import SchemaBaseline.Decimal.Shortest
import SchemaBaseline.Files.Path
import SchemaBaseline.Files.Tree
import SchemaBaseline.Gate.Basic
import SchemaBaseline.Gate.State
import SchemaBaseline.Gate.Step
import SchemaBaseline.Gate.Views
import SchemaBaseline.Gate.Visit
import SchemaBaseline.Introspection.Acquire
import SchemaBaseline.Introspection.Address
import SchemaBaseline.Introspection.Exchange
import SchemaBaseline.Introspection.Query
import SchemaBaseline.Introspection.Status
import SchemaBaseline.Introspection.Truncation
import SchemaBaseline.Json.Problem
import SchemaBaseline.Json.Reader
import SchemaBaseline.Json.Writer
import SchemaBaseline.Log
import SchemaBaseline.Main
import SchemaBaseline.Schema.Basic
import SchemaBaseline.Schema.Dump
import SchemaBaseline.Schema.Load
import SchemaBaseline.Schema.Spelling
import SchemaBaseline.Schema.TypeRef
import SchemaBaseline.Sdl.Render
import SchemaBaseline.Settings.Basic
import SchemaBaseline.Settings.Numbers
import SchemaBaseline.Text.Blank
import SchemaBaseline.Text.Digits
import SchemaBaseline.Text.Pattern
import SchemaBaseline.Text.Printable
import SchemaBaseline.Text.Quoted
import SchemaBaseline.Text.Split
import SchemaBaseline.Text.Utf8
import SchemaBaseline.Text.Wide
import SchemaBaseline.Time.Calendar
import SchemaBaseline.Time.Reader
import SchemaBaseline.Time.Stamp
import SchemaBaseline.Value.Basic
import SchemaBaseline.Value.Display
import SchemaBaseline.Value.Issue
import SchemaBaseline.Value.Load
import SchemaBaseline.Value.Walk
import SchemaBaseline.Yaml.Cursor
import SchemaBaseline.Yaml.Fault
import SchemaBaseline.Yaml.Node
import SchemaBaseline.Yaml.Node.OfTokens
import SchemaBaseline.Yaml.Node.Value
import SchemaBaseline.Yaml.Reader
import SchemaBaseline.Yaml.Scalar
import SchemaBaseline.Yaml.Style
import SchemaBaseline.Yaml.Tag
import SchemaBaseline.Yaml.Token
import SchemaBaseline.Yaml.Token.Name
import SchemaBaseline.Yaml.Token.Scalar
import SchemaBaseline.Yaml.Token.Stream
import SchemaBaseline.Yaml.Writer
import SchemaBaseline.Proofs.Schema.Loaded
import SchemaBaseline.Proofs.Schema.RoundTrip
import SchemaBaseline.Proofs.Compat.Compatible
import SchemaBaseline.Proofs.Compat.Verdict
import SchemaBaseline.Proofs.Text.Utf8
import SchemaBaseline.Proofs.Text.Pattern
import SchemaBaseline.Proofs.Baseline.RoundTrip
import SchemaBaseline.Proofs.Introspection.Acquire
import SchemaBaseline.Proofs.Introspection.Assembly
import SchemaBaseline.Proofs.Introspection.Ceiling
import SchemaBaseline.Proofs.Introspection.Description
import SchemaBaseline.Proofs.Introspection.Ends
import SchemaBaseline.Proofs.Introspection.Hollow
import SchemaBaseline.Proofs.Introspection.Requests
import SchemaBaseline.Proofs.Introspection.Rounds
import SchemaBaseline.Proofs.Introspection.Snag
import SchemaBaseline.Proofs.Introspection.Version
import SchemaBaseline.Proofs.Gate.Agreement
import SchemaBaseline.Proofs.Gate.Callers
import SchemaBaseline.Proofs.Gate.Confinement
import SchemaBaseline.Proofs.Gate.Core
import SchemaBaseline.Proofs.Gate.Once
import SchemaBaseline.Proofs.Gate.Opening
import SchemaBaseline.Proofs.Gate.Origin
import SchemaBaseline.Proofs.Gate.Status
import SchemaBaseline.Proofs.Compat.Edits
import SchemaBaseline.Proofs.Compat.Order
import SchemaBaseline.Proofs.Yaml.Cursor
import SchemaBaseline.Proofs.Yaml.Quoted
import SchemaBaseline.Proofs.Yaml.Style
import SchemaBaseline.Proofs.Yaml.Plain
import SchemaBaseline.Proofs.Yaml.Lexer
import SchemaBaseline.Proofs.Yaml.Rounds
import SchemaBaseline.Proofs.Yaml.Tokens
import SchemaBaseline.Proofs.Yaml.Nodes
import SchemaBaseline.Proofs.Yaml.RoundTrip
import SchemaBaseline.Proofs.Schema.Faithful
import SchemaBaseline.Proofs.Baseline.Yaml
import SchemaBaseline.Proofs.Json.Digits
import SchemaBaseline.Proofs.Yaml.Stops
import SchemaBaseline.Proofs.Yaml.Misfits
import SchemaBaseline.Proofs.Baseline.Escapes
import SchemaBaseline.Proofs.Compat.Itself
import SchemaBaseline.Proofs.Gate.Reaction
import SchemaBaseline.Proofs.Gate.Shutdown
import SchemaBaseline.Proofs.Gate.Bootstrap
import SchemaBaseline.Proofs.Gate.Modes
import SchemaBaseline.Proofs.Gate.Interrupted
import SchemaBaseline.Proofs.Schema.Spelling
import SchemaBaseline.Proofs.Sdl.Text
import SchemaBaseline.Proofs.Sdl.Shown
import SchemaBaseline.Proofs.Text.Legible
import SchemaBaseline.Proofs.Sdl.Legible
import SchemaBaseline.Proofs.Schema.Usable
import SchemaBaseline.Proofs.Text.Trimmed
import SchemaBaseline.Proofs.Schema.Reading
import SchemaBaseline.Proofs.Compat.Portions
import SchemaBaseline.Proofs.Compat.Accounts
import SchemaBaseline.Proofs.Schema.Offence
import SchemaBaseline.Proofs.Sdl.Strings
import SchemaBaseline.Proofs.Sdl.Unprintable
import SchemaBaseline.Proofs.Compat.Report
import SchemaBaseline.Proofs.Files.Target
import SchemaBaseline.Proofs.Files.Obstacles
import SchemaBaseline.Proofs.Baseline.Saves
import SchemaBaseline.Proofs.Introspection.Times
import SchemaBaseline.Proofs.Gate.Validates
import SchemaBaseline.Proofs.CommandLine.Steps
import SchemaBaseline.Proofs.CommandLine.Introspect
import SchemaBaseline.Proofs.CommandLine.Check
import SchemaBaseline.Proofs.Introspection.Holders
