import FleetControl.Program
import FleetControl.Main
import FleetControl.Proofs.Dict
import FleetControl.Proofs.Store
import FleetControl.Proofs.Json.Printing
import FleetControl.Proofs.Fleet.Continues
import FleetControl.Proofs.Fleet.Endpoints
import FleetControl.Proofs.Fleet.Interfaces
import FleetControl.Proofs.Fleet.Dismantling
import FleetControl.Proofs.Request.Ask
import FleetControl.Proofs.Request.Answer
import FleetControl.Proofs.Session.Holdings
import FleetControl.Proofs.Session.Sound
import FleetControl.Proofs.Session.Step
import FleetControl.Proofs.Session.Local
import FleetControl.Proofs.Session.Perform
import FleetControl.Proofs.Request.Handle
import FleetControl.Proofs.Session.Invariant
import FleetControl.Proofs.Session.Refusal
import FleetControl.Proofs.Registry
import FleetControl.Proofs.Session.Abstraction
import FleetControl.Proofs.Session.Refinement
import FleetControl.Proofs.Session.Independent
import FleetControl.Proofs.Journal
import FleetControl.Proofs.Session.Journaled
import FleetControl.Proofs.Session.Destruction
import FleetControl.Proofs.Session.Trace
import FleetControl.Proofs.Sweep
import FleetControl.Proofs.Upholds
import FleetControl.Proofs.Fleet.Entries
import FleetControl.Proofs.Fleet.Teardown
import FleetControl.Proofs.Fleet.Cascade
import FleetControl.Proofs.Fleet.Rearranged
import FleetControl.Proofs.Fleet.AnyOrder
import FleetControl.Proofs.Fleet.Lifetime
import FleetControl.Proofs.Session.Ending
import FleetControl.Proofs.Text.Utf8
import FleetControl.Proofs.Json.Reading
import FleetControl.Proofs.Json.Line
import FleetControl.Proofs.Log.Buffer
import FleetControl.Proofs.Parameter
import FleetControl.Proofs.FileTree
import FleetControl.Proofs.Fleet.Legible
import FleetControl.Proofs.Session.Legible
import FleetControl.Proofs.Program.Replay
import FleetControl.Proofs.Program.Run
import FleetControl.Proofs.Text.Digits
import FleetControl.Proofs.Binary64
import FleetControl.Proofs.Decimal
import FleetControl.Proofs.Json.Numbers
import FleetControl.Proofs.Json.Doubles
import FleetControl.Proofs.Json.Strings
import FleetControl.Proofs.Json.RoundTrip
import FleetControl.Proofs.Command
import FleetControl.Proofs.Journal.Calls
import FleetControl.Proofs.Journal.Parameters
import FleetControl.Proofs.Binary64.Value
import FleetControl.Proofs.Binary64.Nearest
import FleetControl.Proofs.Coercion.Integers
import FleetControl.Proofs.Coercion.Texts
import FleetControl.Proofs.Decimal.Range
import FleetControl.Proofs.Parameter.Language
import FleetControl.Proofs.Fleet.Registrations
import FleetControl.Proofs.Fleet.Leaving
import FleetControl.Proofs.Fleet.Course
import FleetControl.Proofs.Text.Fields
import FleetControl.Proofs.Text.Blank
import FleetControl.Proofs.Text.Scalars
import FleetControl.Proofs.Coercion.Numerals
import FleetControl.Proofs.GraphName
import FleetControl.Proofs.Parameter.Written
import FleetControl.Proofs.Parameter.Resubmission
import FleetControl.Proofs.Parameter.Brackets
import FleetControl.Proofs.GraphName.Segments
import FleetControl.Proofs.Settings
import FleetControl.Proofs.Session.Keys
import FleetControl.Proofs.Fleet.Updates
import FleetControl.Proofs.Coercion.Blanks
import FleetControl.Proofs.Fleet.Dropping
import FleetControl.Proofs.Session.Dropping
