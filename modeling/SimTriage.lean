import SimTriage.Text.Caseless
import SimTriage.Text.Integer
import SimTriage.Text.Encoding
import SimTriage.Gzip.Archive
import SimTriage.Json.Reader
import SimTriage.Event.KindName
import SimTriage.Filter
import SimTriage.Summary
import SimTriage.Schema.Validate
import SimTriage.Schema.Describe
import SimTriage.Schema.Published
import SimTriage.Query
import SimTriage.File.Access
import SimTriage.Resource
import SimTriage.Prompt
import SimTriage.LogLevel
import SimTriage.Session
import SimTriage.Command.Options
import SimTriage.Command.Run
import SimTriage.Main
import SimTriage.Proofs.Event.Grammar
import SimTriage.Proofs.Event.Line
import SimTriage.Proofs.File.Confined
import SimTriage.Proofs.Message.Printed
import SimTriage.Proofs.Message.Collect
import SimTriage.Proofs.Message.Log
import SimTriage.Proofs.HostError
import SimTriage.Proofs.File.Nesting
import SimTriage.Proofs.Message.Overlong
import SimTriage.Proofs.Event.KindName
import SimTriage.Proofs.Filter
import SimTriage.Proofs.Schema.Conforms
import SimTriage.Proofs.Schema.Published
import SimTriage.Proofs.Published
import SimTriage.Proofs.Command.Options
import SimTriage.Proofs.Command.Run
import SimTriage.Proofs.Text.Encoding
import SimTriage.Proofs.File.Content
import SimTriage.Proofs.File.Damage
import SimTriage.Proofs.Command.Arguments
import SimTriage.Proofs.Command.Routes
import SimTriage.Proofs.Command.Queries
import SimTriage.Proofs.Session
import SimTriage.Command.Writing
import SimTriage.Proofs.Command.Writing
import SimTriage.Proofs.File.Clear
import SimTriage.Proofs.File.Loop
import SimTriage.Proofs.File.Agreement
import SimTriage.Proofs.File.Secrecy
import SimTriage.Proofs.Event.Segments
import SimTriage.Proofs.Command.Topics
import SimTriage.Proofs.HostError.First
import SimTriage.Proofs.Command.Json
import SimTriage.Proofs.Summary.Joined
import SimTriage.Proofs.Event.Spelling
import SimTriage.Proofs.File.LineEnds
import SimTriage.Proofs.Command.Lines
import SimTriage.Proofs.File.Suffix
import SimTriage.Proofs.Schema.Faults
