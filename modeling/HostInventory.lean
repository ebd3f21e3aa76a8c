import HostInventory.Main
import HostInventory.Text.Lines
import HostInventory.Enumeration.Probe
import HostInventory.FileTree.Directory
import HostInventory.FileTree.Scenario
import HostInventory.Proofs.Enumeration.Reconciliation
import HostInventory.Proofs.Enumeration.Refresh
import HostInventory.Proofs.Enumeration.Transition
import HostInventory.Proofs.Enumeration.Release
import HostInventory.Proofs.Enumeration.CleanedUp
import HostInventory.Proofs.Enumeration.Map
import HostInventory.Proofs.Enumeration.Record
import HostInventory.Proofs.Enumeration.Repeat
import HostInventory.Proofs.Enumeration.Origin
import HostInventory.Proofs.Enumeration.Looks
import HostInventory.Proofs.Enumeration.Isolation
import HostInventory.Proofs.FileTree.Components
import HostInventory.Proofs.FileTree.Listing
import HostInventory.Proofs.FileTree.Coherence
import HostInventory.Proofs.FileTree.Directory
import HostInventory.Proofs.FileTree.Snapshot
import HostInventory.Proofs.Text.Numeral
import HostInventory.Proofs.Text.Lines
import HostInventory.Proofs.Kind.Cpu
import HostInventory.Proofs.Kind.Memory
import HostInventory.Proofs.Kind.Regular
import HostInventory.Proofs.Kind.Listing
import HostInventory.Proofs.Kind.Software
import HostInventory.Proofs.Kind.Sound
import HostInventory.Proofs.Kind.Current
import HostInventory.Proofs.Kind.Agreement
import HostInventory.Proofs.Kind.Figures
import HostInventory.Proofs.Kind.Repeat
import HostInventory.Proofs.Kind.Packages
import HostInventory.Proofs.Kind.Mounts
import HostInventory.Proofs.Kind.Presence
import HostInventory.Proofs.Kind.Samples
import HostInventory.Proofs.Kind.Shares
import HostInventory.Proofs.Inventory.Update
import HostInventory.Proofs.Inventory.Overflow
import HostInventory.Proofs.Inventory.Product
import HostInventory.Proofs.Inventory.Idempotence
import HostInventory.Proofs.Format.Stanzas
import HostInventory.Proofs.FileTree.History
import HostInventory.Proofs.Kind.Interfaces
import HostInventory.Proofs.Format.MemInfo
import HostInventory.Proofs.Kind.Available
import HostInventory.Proofs.Text.Utf8
import HostInventory.Proofs.Format.Database
import HostInventory.Proofs.Format.Escapes
import HostInventory.Proofs.Format.Counters
import HostInventory.Proofs.Format.Assignments
import HostInventory.Proofs.Log.Thresholds
import HostInventory.Proofs.Log.Rules
import HostInventory.Proofs.Log.Judgement
import HostInventory.Proofs.Format.Refusals
import HostInventory.Proofs.Kind.Failures
import HostInventory.Proofs.Enumeration.Schedule
import HostInventory.Proofs.Rearranged
import HostInventory.Proofs.Kind.Keys
import HostInventory.Proofs.Kind.Usage
import HostInventory.Proofs.Text.ByteOrder
import HostInventory.Proofs.Log.Directives
