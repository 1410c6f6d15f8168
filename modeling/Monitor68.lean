import Monitor68.Text.Line
import Monitor68.Text.Quoted
import Monitor68.SRecord.Parser
import Monitor68.SRecord.Writer
import Monitor68.Listing.Basic
import Monitor68.Target.Simulator
import Monitor68.Target.Restricted
import Monitor68.Target.Control
import Monitor68.Files.Tree
import Monitor68.Inspect.Dump
import Monitor68.Inspect.WatchList
import Monitor68.Screen.Display
import Monitor68.Image
import Monitor68.RepeatingTask
import Monitor68.Json.Lexer
import Monitor68.Json.Record
import Monitor68.Settings.Reader
import Monitor68.Settings.Writer
import Monitor68.Session.Program
import Monitor68.Command.Arguments
import Monitor68.Command.Perform
import Monitor68.Main
import Monitor68.Bytes.Hex.Lemmas
import Monitor68.Proofs.Image.Covering
import Monitor68.Proofs.Image.Load
import Monitor68.Proofs.Session.Request
import Monitor68.Proofs.Session.Residue
import Monitor68.Proofs.Threads.Engine
import Monitor68.Proofs.Threads.Session
import Monitor68.Proofs.Threads.Outline
import Monitor68.Proofs.Threads.Agreement
import Monitor68.Proofs.Threads.Whole.Engine
import Monitor68.Proofs.Threads.Whole.History
import Monitor68.Proofs.Session.Tracking
import Monitor68.Proofs.Session.Refusal
import Monitor68.Proofs.Threads.Course
import Monitor68.Proofs.Threads.Resumption
import Monitor68.Proofs.Threads.Ledger
import Monitor68.Proofs.Threads.Chronicle
import Monitor68.Proofs.SRecord.RoundTrip
import Monitor68.Proofs.Screen.Composition
import Monitor68.Proofs.Inspect.Strings
import Monitor68.Proofs.Inspect.Tearing
import Monitor68.Proofs.Listing.Fields
import Monitor68.Proofs.Text.Lines
import Monitor68.Proofs.Listing.Printed
import Monitor68.Proofs.Threads.Trace
import Monitor68.Proofs.Threads.Stopping
import Monitor68.Proofs.Threads.Client
import Monitor68.Proofs.Screen.Ticks
import Monitor68.Proofs.Screen.Glance
import Monitor68.Proofs.Screen.Studio
import Monitor68.Proofs.Screen.Order
import Monitor68.Proofs.Screen.Switching
import Monitor68.Proofs.Screen.Power
import Monitor68.Proofs.Threads.Guarded
import Monitor68.Proofs.Threads.Bench
import Monitor68.Proofs.Threads.Counting
import Monitor68.Proofs.Session.Highlight
import Monitor68.Proofs.Target.Bytewise
import Monitor68.Proofs.Threads.Complaints
import Monitor68.Proofs.Threads.Likeness
import Monitor68.Proofs.Threads.Conversation
import Monitor68.Proofs.Threads.FreshStart
import Monitor68.Proofs.Inspect.Watching
import Monitor68.Proofs.Inspect.StoredValues
import Monitor68.Proofs.Settings.Overlay
import Monitor68.Proofs.Listing.Entries
import Monitor68.Proofs.Text.RawLines
import Monitor68.Proofs.Listing.Continuing
import Monitor68.Proofs.Listing.Garbled
import Monitor68.Proofs.Session.Attaching
import Monitor68.Proofs.Screen.Fitting
import Monitor68.Proofs.Screen.Cancelling
import Monitor68.Proofs.Screen.PixelMap
import Monitor68.Proofs.Inspect.Marking
import Monitor68.Proofs.Inspect.Rendering
import Monitor68.Proofs.Command.Stepping
import Monitor68.Proofs.Target.Continuous
import Monitor68.Proofs.Threads.Halting
import Monitor68.Proofs.Text.Digits
import Monitor68.Proofs.Text.Hexadecimal
import Monitor68.Proofs.Inspect.Numbers
import Monitor68.Proofs.Inspect.Terminators
import Monitor68.Proofs.Session.Stepping
import Monitor68.Proofs.SRecord.Grammar
import Monitor68.Proofs.SRecord.Cutting
import Monitor68.Proofs.Session.Refreshing
import Monitor68.Proofs.Session.Importing
import Monitor68.Proofs.Inspect.Names
import Monitor68.Proofs.Command.Watching
