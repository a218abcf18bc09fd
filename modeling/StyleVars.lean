import StyleVars.Main
import StyleVars.Proofs.Scan.LinkLoop
import StyleVars.Proofs.Scan.ReadingOrder
import StyleVars.Proofs.Session.History
import StyleVars.Session.Task
import StyleVars.Settings.Json
import StyleVars.Proofs.Path.Normal
import StyleVars.Proofs.Property.Places
import StyleVars.Proofs.Session.Published
import StyleVars.Proofs.Document.Insertion
import StyleVars.Proofs.Document.Rescan
import StyleVars.Proofs.Document.Selections
import StyleVars.Proofs.Document.Place
import StyleVars.Proofs.Document.Target
import StyleVars.Proofs.Session.Reports
import StyleVars.Proofs.CommandLine.Browse
import StyleVars.Proofs.CommandLine.ScanOutput
import StyleVars.Proofs.Session.Joined
import StyleVars.Proofs.CommandLine.UserPaths
import StyleVars.Proofs.Property.Words
import StyleVars.Proofs.Document.InTurn
import StyleVars.Proofs.Document.Lines
import StyleVars.Proofs.Scan.Pruning
import StyleVars.Proofs.Scan.Blame
import StyleVars.Proofs.Path.Absolute
import StyleVars.Proofs.PropertySet.Search
import StyleVars.Proofs.PropertySet.Typed
import StyleVars.Proofs.PropertySet.Collected
import StyleVars.Proofs.Session.SnapshotJson
import StyleVars.Proofs.Document.PositionText
import StyleVars.Proofs.CommandLine.Insertable
