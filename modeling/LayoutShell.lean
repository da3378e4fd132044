import LayoutShell.Binary64
import LayoutShell.CommandLine.Options
import LayoutShell.CommandLine.Run
import LayoutShell.Dict
import LayoutShell.Files.Access
import LayoutShell.Files.Path
import LayoutShell.Files.Tree
import LayoutShell.Host.Arithmetic
import LayoutShell.Host.Builtin
import LayoutShell.Host.ByteString
import LayoutShell.Host.Change
import LayoutShell.Host.Condition
import LayoutShell.Host.Expand
import LayoutShell.Host.Fork
import LayoutShell.Host.Launch
import LayoutShell.Host.Machine
import LayoutShell.Host.Pattern
import LayoutShell.Host.Printing
import LayoutShell.Host.Program
import LayoutShell.Host.Program.Columns
import LayoutShell.Host.Program.Compare
import LayoutShell.Host.Program.Edit
import LayoutShell.Host.Program.Encode
import LayoutShell.Host.Program.Entries
import LayoutShell.Host.Program.Filters
import LayoutShell.Host.Program.Find
import LayoutShell.Host.Program.Launchers
import LayoutShell.Host.Program.Listing
import LayoutShell.Host.Program.Numbers
import LayoutShell.Host.Program.Options
import LayoutShell.Host.Program.Quoting
import LayoutShell.Host.Program.Search
import LayoutShell.Host.Program.Sort
import LayoutShell.Host.Program.Transfer
import LayoutShell.Host.Programs
import LayoutShell.Host.Reader
import LayoutShell.Host.Redirection
import LayoutShell.Host.Regex
import LayoutShell.Host.Regex.Reading
import LayoutShell.Host.Run
import LayoutShell.Host.Script
import LayoutShell.Host.Sed.Command
import LayoutShell.Host.Sed.Reading
import LayoutShell.Host.Sed.Run
import LayoutShell.Json.Number
import LayoutShell.Json.Read
import LayoutShell.Json.Scan
import LayoutShell.Json.Value
import LayoutShell.Layout.Collection
import LayoutShell.Layout.Database
import LayoutShell.Layout.Discovery
import LayoutShell.Layout.References
import LayoutShell.Layout.Summary
import LayoutShell.Main
import LayoutShell.Markup.Attribute
import LayoutShell.Markup.Entity
import LayoutShell.Markup.Event
import LayoutShell.Markup.Lexeme
import LayoutShell.Markup.Scope
import LayoutShell.NameSet
import LayoutShell.Proofs.Bytes.Attributes
import LayoutShell.Proofs.Bytes.Events
import LayoutShell.Proofs.Bytes.Layouts
import LayoutShell.Proofs.Bytes.Lexemes
import LayoutShell.Proofs.CommandLine.Parameters
import LayoutShell.Proofs.Dictionaries
import LayoutShell.Proofs.Files.Directories
import LayoutShell.Proofs.Files.Following
import LayoutShell.Proofs.Files.Paths
import LayoutShell.Proofs.Files.Rewriting
import LayoutShell.Proofs.Files.Writing
import LayoutShell.Proofs.Json.Spelling
import LayoutShell.Proofs.Json.Strings
import LayoutShell.Proofs.Json.Syntax
import LayoutShell.Proofs.Json.Truncation
import LayoutShell.Proofs.Json.Values
import LayoutShell.Proofs.Layout.CollectedNames
import LayoutShell.Proofs.Layout.Collections
import LayoutShell.Proofs.Layout.DatabaseParts
import LayoutShell.Proofs.Layout.Databases
import LayoutShell.Proofs.Layout.Discoveries
import LayoutShell.Proofs.Layout.Documents
import LayoutShell.Proofs.Layout.Elements
import LayoutShell.Proofs.Layout.ExactDecoding
import LayoutShell.Proofs.Layout.InertItems
import LayoutShell.Proofs.Layout.OpenElements
import LayoutShell.Proofs.Layout.Outcomes
import LayoutShell.Proofs.Layout.OutsideData
import LayoutShell.Proofs.Layout.RecordedNames
import LayoutShell.Proofs.Layout.Rediscoveries
import LayoutShell.Proofs.Layout.Renamings
import LayoutShell.Proofs.Layout.Rendering
import LayoutShell.Proofs.Layout.ReorderedItems
import LayoutShell.Proofs.Layout.Replacements
import LayoutShell.Proofs.Layout.Sequences
import LayoutShell.Proofs.Layout.Sources
import LayoutShell.Proofs.Layout.SpelledDatabases
import LayoutShell.Proofs.Layout.SpelledHandlers
import LayoutShell.Proofs.Layout.Trees
import LayoutShell.Proofs.Layout.TruncatedDatabases
import LayoutShell.Proofs.Layout.TruncatedDocuments
import LayoutShell.Proofs.Markup.Attributes
import LayoutShell.Proofs.Markup.Bindings
import LayoutShell.Proofs.Markup.Escape
import LayoutShell.Proofs.Markup.Events
import LayoutShell.Proofs.Markup.Places
import LayoutShell.Proofs.Markup.Scopes
import LayoutShell.Proofs.Markup.Substrings
import LayoutShell.Proofs.Markup.Tree
import LayoutShell.Proofs.Markup.Truncation
import LayoutShell.Proofs.Results
import LayoutShell.Proofs.Session.Commands
import LayoutShell.Proofs.Session.Endings
import LayoutShell.Proofs.Session.Frames
import LayoutShell.Proofs.Session.HelpTopics
import LayoutShell.Proofs.Session.LayoutCommand
import LayoutShell.Proofs.Session.LayoutEffects
import LayoutShell.Proofs.Session.Lines
import LayoutShell.Proofs.Session.Noninterference
import LayoutShell.Proofs.Session.Printouts
import LayoutShell.Proofs.Session.Reruns
import LayoutShell.Proofs.Session.Runs
import LayoutShell.Proofs.Session.TypedExtras
import LayoutShell.Proofs.Settings.Fallback
import LayoutShell.Proofs.Settings.QuotedNames
import LayoutShell.Proofs.Settings.StatementTokens
import LayoutShell.Proofs.Settings.YamlRoots
import LayoutShell.Proofs.Text.ByteOrder
import LayoutShell.Proofs.Text.Bytewise
import LayoutShell.Proofs.Text.Cutting
import LayoutShell.Proofs.Text.LossyDecoding
import LayoutShell.Proofs.Text.Utf8
import LayoutShell.Proofs.Text.Words
import LayoutShell.Proofs.Toml.Statements
import LayoutShell.Proofs.Yaml.Cursors
import LayoutShell.Proofs.Yaml.FirstTokens
import LayoutShell.Proofs.Yaml.Openings
import LayoutShell.Proofs.Yaml.PlainScalars
import LayoutShell.Session.Dialogue
import LayoutShell.Session.Environment
import LayoutShell.Session.History
import LayoutShell.Session.LayoutTool
import LayoutShell.Session.Line
import LayoutShell.Session.Shell
import LayoutShell.Session.Tool
import LayoutShell.Settings.Basic
import LayoutShell.Settings.Load
import LayoutShell.Settings.Toml
import LayoutShell.Settings.Yaml
import LayoutShell.Text.Cluster
import LayoutShell.Text.Extending
import LayoutShell.Text.Joining
import LayoutShell.Text.Printable
import LayoutShell.Text.Quoted
import LayoutShell.Text.Ranges
import LayoutShell.Text.Space
import LayoutShell.Text.Utf8
import LayoutShell.Toml.Document
import LayoutShell.Toml.Moment
import LayoutShell.Toml.Number
import LayoutShell.Toml.Text
import LayoutShell.Toml.Value
import LayoutShell.Yaml.Cursor
import LayoutShell.Yaml.Node
import LayoutShell.Yaml.Scalar
import LayoutShell.Yaml.Tag
import LayoutShell.Yaml.Token
