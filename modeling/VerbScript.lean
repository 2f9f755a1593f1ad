import VerbScript.Action.Basic
import VerbScript.Action.Index
import VerbScript.Action.Property
import VerbScript.Action.Registry
import VerbScript.Catalog.Basic
import VerbScript.Demo.Hold
import VerbScript.Demo.Kinds
import VerbScript.Demo.Session
import VerbScript.Demo.Startup
import VerbScript.Demo.World
import VerbScript.Json.Basic
import VerbScript.Json.Cursor
import VerbScript.Json.Decoder
import VerbScript.Json.Lexeme
import VerbScript.Json.Mismatch
import VerbScript.Json.Printer
import VerbScript.Json.Reader
import VerbScript.Json.Record
import VerbScript.Log.Directive
import VerbScript.Log.Event
import VerbScript.Log.Filter
import VerbScript.Log.Pattern
import VerbScript.Main
import VerbScript.Number.Decimal
import VerbScript.Number.FloatStyle
import VerbScript.Number.Integer
import VerbScript.Number.Scaled
import VerbScript.Number.Shortest
import VerbScript.Policy
import VerbScript.Proofs.Action.Configured
import VerbScript.Proofs.Action.Property
import VerbScript.Proofs.Action.Registration
import VerbScript.Proofs.Action.Setting
import VerbScript.Proofs.Basic
import VerbScript.Proofs.Catalog.Configured
import VerbScript.Proofs.Catalog.Keyed
import VerbScript.Proofs.Catalog.Loading
import VerbScript.Proofs.Catalog.NormalForm
import VerbScript.Proofs.Catalog.Reached
import VerbScript.Proofs.Catalog.Restoring
import VerbScript.Proofs.Catalog.RuntimeState
import VerbScript.Proofs.Catalog.StateOrder
import VerbScript.Proofs.Demo.Accepted
import VerbScript.Proofs.Demo.Deeds
import VerbScript.Proofs.Demo.Effects
import VerbScript.Proofs.Demo.FailedReload
import VerbScript.Proofs.Demo.Kinds
import VerbScript.Proofs.Demo.Loop
import VerbScript.Proofs.Demo.Outcome
import VerbScript.Proofs.Demo.Progress
import VerbScript.Proofs.Demo.Reload
import VerbScript.Proofs.Demo.Reread
import VerbScript.Proofs.Demo.Save
import VerbScript.Proofs.Demo.Session
import VerbScript.Proofs.Demo.Shape
import VerbScript.Proofs.Demo.Snapshot
import VerbScript.Proofs.Demo.Stall
import VerbScript.Proofs.Demo.Startup
import VerbScript.Proofs.Demo.Ticks
import VerbScript.Proofs.Demo.Timer
import VerbScript.Proofs.Demo.Truncated
import VerbScript.Proofs.Json.Balanced
import VerbScript.Proofs.Json.Brackets
import VerbScript.Proofs.Json.Decoder
import VerbScript.Proofs.Json.Decodes
import VerbScript.Proofs.Json.Extent
import VerbScript.Proofs.Json.Follows
import VerbScript.Proofs.Json.Numeral
import VerbScript.Proofs.Json.Pretty
import VerbScript.Proofs.Json.Reads
import VerbScript.Proofs.Json.Record
import VerbScript.Proofs.Json.Reread
import VerbScript.Proofs.Json.Skip
import VerbScript.Proofs.Json.Tree
import VerbScript.Proofs.Number.Digits
import VerbScript.Proofs.Number.FloatOrder
import VerbScript.Proofs.Number.FloatText
import VerbScript.Proofs.Number.Integer
import VerbScript.Proofs.Save.File
import VerbScript.Proofs.Save.Format
import VerbScript.Proofs.Save.Parts
import VerbScript.Proofs.Save.Reread
import VerbScript.Proofs.Save.Truncated
import VerbScript.Proofs.Storage.Path
import VerbScript.Proofs.Storage.Program
import VerbScript.Proofs.Storage.Replace
import VerbScript.Proofs.Storage.Tree
import VerbScript.Proofs.Table
import VerbScript.Proofs.Text.Blank
import VerbScript.Proofs.Trace.Kinds
import VerbScript.Proofs.Verb.Cancellation
import VerbScript.Proofs.Verb.Coercion
import VerbScript.Proofs.Verb.Definition
import VerbScript.Proofs.Verb.Denotation
import VerbScript.Proofs.Verb.Independence
import VerbScript.Proofs.Verb.KeyOrder
import VerbScript.Proofs.Verb.LifeCycle
import VerbScript.Proofs.Verb.Mirror
import VerbScript.Proofs.Verb.Moved
import VerbScript.Proofs.Verb.Order
import VerbScript.Proofs.Verb.Restoring
import VerbScript.Proofs.Verb.RoundTrip
import VerbScript.Proofs.Verb.RuntimeState
import VerbScript.Proofs.Verb.Suspension
import VerbScript.Save.File
import VerbScript.Save.Format
import VerbScript.Storage.Path
import VerbScript.Storage.Program
import VerbScript.Storage.Replace
import VerbScript.Storage.Tree
import VerbScript.Table
import VerbScript.Text.Alphanumeric
import VerbScript.Text.Blank
import VerbScript.Text.Invisible
import VerbScript.Text.Quoted
import VerbScript.Text.Ranges
import VerbScript.Trace.Kinds
import VerbScript.Verb.Basic
import VerbScript.Verb.Definition
import VerbScript.Verb.Document
import VerbScript.Verb.RuntimeState
import VerbScript.Verb.Standard
