import StationNaming.Main
import StationNaming.SearchBox
import StationNaming.Proofs.Editor.Commit
import StationNaming.Proofs.Editor.History
import StationNaming.Proofs.Station.Acceptance
import StationNaming.Proofs.Station.Reload
import StationNaming.Proofs.Station.Targets
import StationNaming.Proofs.Search.Query
import StationNaming.Proofs.Command.Effects
import StationNaming.Proofs.Station.Reopening
import StationNaming.Proofs.Input.Delivery
import StationNaming.Proofs.Input.Order
import StationNaming.Proofs.Search.Conjunction
import StationNaming.Proofs.Station.Sharing
import StationNaming.Proofs.Search.Quoting
import StationNaming.Proofs.Command.Agreement
import StationNaming.Proofs.Command.Assignment
import StationNaming.Proofs.Command.Depth
import StationNaming.Proofs.Input.Snapshot
import StationNaming.Proofs.Editor.Locality
import StationNaming.Proofs.Editor.Failures
import StationNaming.Proofs.Station.Atomicity
import StationNaming.Proofs.Station.Refusal
import StationNaming.Proofs.Search.Readback
import StationNaming.Proofs.Editor.Display
import StationNaming.Proofs.Input.FixedText
import StationNaming.Proofs.Command.Dialogue
