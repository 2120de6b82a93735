import Livecode.Main
import Livecode.Wire.Notice
import Livecode.Wire.Language
import Livecode.Proofs.Text.Occurrence
import Livecode.Proofs.Interpreter.Grammar
import Livecode.Proofs.Interpreter.Reading
import Livecode.Proofs.Text.Encoding
import Livecode.Proofs.PostHistory
import Livecode.Proofs.Interpreter.Printout
import Livecode.Proofs.Interpreter.Partner
import Livecode.Proofs.Interpreter.Dialogue
import Livecode.Proofs.Scope.Flow
import Livecode.Proofs.Interpreter.Embedding
import Livecode.Proofs.Scope.Token
import Livecode.Proofs.Region.Grouping
import Livecode.Proofs.Control.Course
import Livecode.Proofs.Control.Startup
import Livecode.Proofs.Control.Replay
import Livecode.Proofs.Control.Sessions
import Livecode.Proofs.Control.AudioServer
import Livecode.Proofs.Control.Environment
import Livecode.Proofs.Text.Replacement
import Livecode.Proofs.Broadcast.FanOut
import Livecode.Proofs.Statement.Batch
import Livecode.Proofs.Text.Rejoining
import Livecode.Proofs.Text.Trimming
import Livecode.Proofs.Statement.Locality
import Livecode.Proofs.Statement.Marker
import Livecode.Proofs.Statement.Buffer
import Livecode.Proofs.Broadcast.Delivery
import Livecode.Proofs.Broadcast.Intake
import Livecode.Proofs.Control.Publication
import Livecode.Proofs.Control.Evaluation
import Livecode.Proofs.Control.Record
import Livecode.Proofs.Control.Reports
import Livecode.Proofs.Json.Written
import Livecode.Broadcast.Connection
import Livecode.Host.Loop
import Livecode.Proofs.Host.Loop
import Livecode.Proofs.Host.Script
import Livecode.Proofs.Wire.Notice
import Livecode.Proofs.Wire.Command
import Livecode.Proofs.Broadcast.Names
import Livecode.Proofs.Broadcast.Subscriber
import Livecode.Proofs.Broadcast.Service
import Livecode.Proofs.Broadcast.Reception
import Livecode.Proofs.Source.Span
import Livecode.Proofs.Scope.Pointwise
import Livecode.Proofs.Region.Pairing
import Livecode.Proofs.Region.Places
import Livecode.Proofs.Region.Continuation
import Livecode.Proofs.Region.Excerpt
import Livecode.Proofs.Interpreter.Attribution
import Livecode.Proofs.Text.Decoding
import Livecode.Proofs.Interpreter.OutputLines
import Livecode.Proofs.Broadcast.Registry
