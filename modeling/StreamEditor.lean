import StreamEditor.CommandLine.Options
import StreamEditor.CommandLine.Run
import StreamEditor.Dialect
import StreamEditor.Editor.Run
import StreamEditor.Editor.State
import StreamEditor.Editor.Step
import StreamEditor.Failure
import StreamEditor.Fingerprint.Bench
import StreamEditor.Fingerprint.Digest
import StreamEditor.Fingerprint.Value
import StreamEditor.Json.Parser
import StreamEditor.Json.Value
import StreamEditor.Main
import StreamEditor.Measure.Coverage
import StreamEditor.Measure.RepoTime
import StreamEditor.Measure.Round
import StreamEditor.Measure.SelfCheck
import StreamEditor.Numeral.Binary
import StreamEditor.Numeral.Printing
import StreamEditor.Outline.Parser
import StreamEditor.Outline.Samples
import StreamEditor.Package.Manifest
import StreamEditor.Package.Version
import StreamEditor.Proofs.Dialect.Bracket
import StreamEditor.Proofs.Dialect.Caret
import StreamEditor.Proofs.Dialect.Confined
import StreamEditor.Proofs.Dialect.Denotation
import StreamEditor.Proofs.Dialect.Escaped
import StreamEditor.Proofs.Dialect.Flip
import StreamEditor.Proofs.Dialect.Spelling
import StreamEditor.Proofs.Dialect.Translation
import StreamEditor.Proofs.Editor.Cycle
import StreamEditor.Proofs.Editor.CycleEnd
import StreamEditor.Proofs.Editor.Flow
import StreamEditor.Proofs.Editor.LastRegexp
import StreamEditor.Proofs.Editor.Numbered
import StreamEditor.Proofs.Editor.Safety
import StreamEditor.Proofs.Editor.Substituted
import StreamEditor.Proofs.Editor.Termination
import StreamEditor.Proofs.Editor.Work
import StreamEditor.Proofs.Ere.Lexemes
import StreamEditor.Proofs.Ere.Meaning
import StreamEditor.Proofs.Ere.Read
import StreamEditor.Proofs.Ere.Translate
import StreamEditor.Proofs.Ere.Tree
import StreamEditor.Proofs.Fingerprint.Lexemes
import StreamEditor.Proofs.Input.LastLine
import StreamEditor.Proofs.Input.LookAhead
import StreamEditor.Proofs.Measure.Stops
import StreamEditor.Proofs.Outline.Groups
import StreamEditor.Proofs.Outline.Lexemes
import StreamEditor.Proofs.Outline.Printed
import StreamEditor.Proofs.Output.Copy
import StreamEditor.Proofs.Output.File
import StreamEditor.Proofs.Output.Folding
import StreamEditor.Proofs.Output.Laps
import StreamEditor.Proofs.Output.Listing
import StreamEditor.Proofs.Output.Queue
import StreamEditor.Proofs.Output.Shown
import StreamEditor.Proofs.Output.Window
import StreamEditor.Proofs.Output.Written
import StreamEditor.Proofs.Quoting
import StreamEditor.Proofs.Range.Numeric
import StreamEditor.Proofs.Range.Segments
import StreamEditor.Proofs.Range.Selection
import StreamEditor.Proofs.Regex.Enumeration
import StreamEditor.Proofs.Regex.Replaced
import StreamEditor.Proofs.Regex.Tokens
import StreamEditor.Proofs.Runs.Agree
import StreamEditor.Proofs.Runs.Autoprint
import StreamEditor.Proofs.Runs.Coupling
import StreamEditor.Proofs.Runs.LineLocal
import StreamEditor.Proofs.Runs.Lockstep
import StreamEditor.Proofs.Runs.Outside
import StreamEditor.Proofs.Runs.Repeat
import StreamEditor.Proofs.Script.Balance
import StreamEditor.Proofs.Script.Blocks
import StreamEditor.Proofs.Script.Delimiter
import StreamEditor.Proofs.Script.Extension
import StreamEditor.Proofs.Script.Forward
import StreamEditor.Proofs.Script.Links
import StreamEditor.Proofs.Script.Numbering
import StreamEditor.Proofs.Script.Progress
import StreamEditor.Proofs.Script.Ready
import StreamEditor.Proofs.Script.Separators
import StreamEditor.Proofs.Script.TextBlock
import StreamEditor.Proofs.Script.Transliteration
import StreamEditor.Proofs.Script.Unaddressed
import StreamEditor.Proofs.Store
import StreamEditor.Proofs.Text.Encoding
import StreamEditor.Proofs.Text.Number
import StreamEditor.Regex.Basic
import StreamEditor.Regex.Matcher
import StreamEditor.Regex.Parser
import StreamEditor.Regex.Search
import StreamEditor.Regex.Template
import StreamEditor.Regexp
import StreamEditor.Script.Arguments
import StreamEditor.Script.Command
import StreamEditor.Script.Link
import StreamEditor.Script.Listing
import StreamEditor.Script.Parse
import StreamEditor.Script.Prepare
import StreamEditor.Script.Scan
import StreamEditor.Session
import StreamEditor.Store
import StreamEditor.Text.Basic
import StreamEditor.Text.Case
import StreamEditor.Text.Encoding
import StreamEditor.Workload.Basic
import StreamEditor.Workload.Reading
import StreamEditor.Workload.Shell
