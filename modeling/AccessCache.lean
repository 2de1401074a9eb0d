import AccessCache.Change.Document
import AccessCache.Config.Document
import AccessCache.Config.Variables
import AccessCache.Document
import AccessCache.Session.Step
import AccessCache.Proofs.Json.Text
import AccessCache.Proofs.Json.Object
import AccessCache.Proofs.Json.Number
import AccessCache.Proofs.Document
import AccessCache.Proofs.Disk.LastWriter
import AccessCache.Proofs.Disk.Lockstep
import AccessCache.Proofs.Disk.Unreadable
import AccessCache.Proofs.Memory.LastEdit
import AccessCache.Proofs.Memory.SavedLast
import AccessCache.Proofs.Bounded
import AccessCache.Proofs.Protocol
import AccessCache.Proofs.Session.CutShort
import AccessCache.Proofs.Session.Effect
import AccessCache.Proofs.Session.Outage
import AccessCache.Proofs.Session.Removal
import AccessCache.Proofs.Session.Reorder
import AccessCache.Proofs.Session.Secrecy
import AccessCache.Proofs.Session.Seeding
import AccessCache.Proofs.Session.Warm
import AccessCache.Proofs.Disk.Keys
import AccessCache.Proofs.Session.Statistics
import AccessCache.Proofs.Config.Variables
import AccessCache.Proofs.Json.Reader
import AccessCache.Proofs.Json.Value
import AccessCache.Proofs.Change.Document
