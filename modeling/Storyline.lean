import Storyline.Main
import Storyline.Rehearsal
import Storyline.Proofs.Run.Call
import Storyline.Proofs.Act
import Storyline.Proofs.Resources
import Storyline.Proofs.Json.Writer
import Storyline.Proofs.Run.Alike
import Storyline.Proofs.Rehearsal
import Storyline.Proofs.Run.Failure
import Storyline.Proofs.Run.Retry
import Storyline.Proofs.Run.Pick
import Storyline.Proofs.Binary64.Nearest
import Storyline.Proofs.Binary64.Shortest
import Storyline.Proofs.Json.Number
import Storyline.Proofs.Json.RoundTrip
import Storyline.Proofs.Run.Trace
import Storyline.Proofs.Run.Resume
import Storyline.Proofs.Disk.Basic
import Storyline.Proofs.Disk.Path
import Storyline.Proofs.Run.Status
import Storyline.Proofs.Run.Mirror
import Storyline.Proofs.Json.Writable
import Storyline.Proofs.Save.Codec
import Storyline.Proofs.Episode.Grammar
import Storyline.Proofs.Episode.Document
import Storyline.Proofs.Update
import Storyline.Proofs.Run.Ledger
import Storyline.Proofs.Run.Price
import Storyline.Proofs.Save.History
import Storyline.Proofs.Run.Visit
import Storyline.Proofs.Run.Playback
import Storyline.Proofs.Run.Tally
import Storyline.Proofs.Save.Content
import Storyline.Proofs.Catalogue
import Storyline.Proofs.Json.Overlong
import Storyline.Proofs.Run.Acyclic
import Storyline.Proofs.Run.Reach
import Storyline.Proofs.Run.Bounds
import Storyline.Proofs.Console.Menu
import Storyline.Proofs.Catalogue.History
import Storyline.Proofs.Resources.Change
import Storyline.Proofs.Run.Change
import Storyline.Proofs.Resources.Delta
import Storyline.Proofs.Resources.Requirement
import Storyline.Proofs.Resources.Template
import Storyline.Proofs.Save.Payload
import Storyline.Proofs.Disk.Place
import Storyline.Proofs.Save.Errands
import Storyline.Proofs.Catalogue.Listing
import Storyline.Proofs.Text.Fill
import Storyline.Proofs.Console.Answer
import Storyline.Proofs.Settings
import Storyline.Proofs.Console.LastPlayed
import Storyline.Proofs.Disk.Use
import Storyline.Proofs.Save.Keys
