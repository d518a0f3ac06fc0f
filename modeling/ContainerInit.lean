import ContainerInit.Text.Blank
import ContainerInit.Rehearsal
import ContainerInit.Interleaving.Race
import ContainerInit.Local.Session
import ContainerInit.Wire.Event
import ContainerInit.Wire.Error
import ContainerInit.Main
import ContainerInit.Proofs.Interleaving.Step
import ContainerInit.Proofs.Interleaving.Sound
import ContainerInit.Proofs.Interleaving.Consistency
import ContainerInit.Proofs.Interleaving.Exits
import ContainerInit.Proofs.Interleaving.Lives
import ContainerInit.Proofs.InitProcess.Ends
import ContainerInit.Proofs.Interleaving.Serial
import ContainerInit.Proofs.Interleaving.Linear
import ContainerInit.Proofs.Interleaving.Linearizable
import ContainerInit.Proofs.Interleaving.Calls
import ContainerInit.Proofs.Interleaving.Language
import ContainerInit.Proofs.Interleaving.Changes
import ContainerInit.Proofs.InitProcess.Script
import ContainerInit.Proofs.InitProcess.Table
import ContainerInit.Proofs.Interleaving.Progress
import ContainerInit.Proofs.Host.Evolution
import ContainerInit.Proofs.Local.Step
import ContainerInit.Proofs.Local.Order
import ContainerInit.Proofs.Local.Callers
import ContainerInit.Proofs.Local.Signals
import ContainerInit.Proofs.Local.Joint
import ContainerInit.Proofs.Local.Deletion
import ContainerInit.Proofs.Supervisor.Ending
import ContainerInit.Proofs.Local.Custody
import ContainerInit.Proofs.Local.Observation
import ContainerInit.Proofs.Local.Refusals
import ContainerInit.Proofs.InitProcess.SideBySide
import ContainerInit.Proofs.InitProcess.Journal
import ContainerInit.Proofs.InitProcess.Restore
import ContainerInit.Proofs.InitProcess.Erasure
import ContainerInit.Proofs.InitProcess.Sinks
import ContainerInit.Proofs.InitProcess.Spans
import ContainerInit.Proofs.Interleaving.Words
import ContainerInit.Proofs.Interleaving.Commits
import ContainerInit.Proofs.Interleaving.Frozen
import ContainerInit.Proofs.Interleaving.Failures
import ContainerInit.Proofs.Json.Spacing
import ContainerInit.Proofs.Json.Reading
import ContainerInit.Proofs.Json.Encoding
import ContainerInit.Proofs.Json.Forms
import ContainerInit.Proofs.Time.Rfc3339
import ContainerInit.Proofs.Wire.RoundTrip
import ContainerInit.Proofs.Wire.Presentation
import ContainerInit.Proofs.Config.Loading
import ContainerInit.Proofs.Time.Stamp
import ContainerInit.Proofs.Wire.Completeness
import ContainerInit.Proofs.Wire.Integers
import ContainerInit.Proofs.Wire.ExitTime
