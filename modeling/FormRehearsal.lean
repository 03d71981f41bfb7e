import FormRehearsal.Channel.Hub
import FormRehearsal.Main
import FormRehearsal.Session.Hand
import FormRehearsal.Session.Runs
import FormRehearsal.Proofs.Run.Account
import FormRehearsal.Proofs.Runner.History
import FormRehearsal.Proofs.Run.Ending
import FormRehearsal.Proofs.Run.Protocol
import FormRehearsal.Proofs.Runner.Exclusion
import FormRehearsal.Proofs.Runner.Said
import FormRehearsal.Proofs.Runner.Clock
import FormRehearsal.Proofs.Runner.Protocol
import FormRehearsal.Proofs.Run.Stopping
import FormRehearsal.Proofs.Runner.Stopping
import FormRehearsal.Proofs.Runner.Passing
import FormRehearsal.Proofs.Runner.Course
import FormRehearsal.Proofs.Runner.InVain
import FormRehearsal.Proofs.Dataset.Line
import FormRehearsal.Proofs.Program.Filling
import FormRehearsal.Proofs.Program.Layout
import FormRehearsal.Proofs.Dataset.NormalForm
import FormRehearsal.Proofs.Dataset.RoundTrip
import FormRehearsal.Proofs.Dataset.Segment
import FormRehearsal.Proofs.Dataset.LineByLine
import FormRehearsal.Proofs.Dataset.Handwriting
import FormRehearsal.Proofs.Page.Polling
import FormRehearsal.Proofs.Page.Schedule
import FormRehearsal.Proofs.Runner.Concatenation
import FormRehearsal.Proofs.Runner.Abandonment
import FormRehearsal.Proofs.Runner.Undeclared
import FormRehearsal.Proofs.Runner.Aloud
import FormRehearsal.Proofs.Channel.Conservation
import FormRehearsal.Proofs.Program.Stream
import FormRehearsal.Proofs.Page.Handles
import FormRehearsal.Proofs.Page.Course
import FormRehearsal.Proofs.Runner.Stretches
import FormRehearsal.Proofs.Action.Decoding
import FormRehearsal.Proofs.Page.Operations
import FormRehearsal.Proofs.Page.Replay
import FormRehearsal.Proofs.Page.Keys
import FormRehearsal.Proofs.Runner.Keys
import FormRehearsal.Proofs.Settings.LocalFile
import FormRehearsal.Proofs.Settings.Escapes
import FormRehearsal.Proofs.Page.Selectors
import FormRehearsal.Proofs.Page.Writing
import FormRehearsal.Proofs.Runner.Writing
import FormRehearsal.Proofs.Action.Milliseconds
import FormRehearsal.Proofs.Program.Repeats
