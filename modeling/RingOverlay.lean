import RingOverlay.CommandLine.Process
import RingOverlay.Fleet.Experiment
import RingOverlay.Fleet.Run
import RingOverlay.Link.Accept
import RingOverlay.Link.Exchange
import RingOverlay.Main
import RingOverlay.Node.Session
import RingOverlay.Registry.Session
import RingOverlay.Shutdown
import RingOverlay.Proofs.Text.Numerals
import RingOverlay.Proofs.Text.Columns
import RingOverlay.Proofs.Text.Words
import RingOverlay.Proofs.Address.Spelling
import RingOverlay.Proofs.Address.RoundTrip
import RingOverlay.Proofs.Address.Peers
import RingOverlay.Proofs.Address.Lengths
import RingOverlay.Proofs.Bytes.BigEndian
import RingOverlay.Proofs.Bytes.Reads
import RingOverlay.Proofs.Ring.Draws
import RingOverlay.Proofs.Finger.NextHop
import RingOverlay.Proofs.Finger.Tables
import RingOverlay.Proofs.Finger.Nearest
import RingOverlay.Proofs.Finger.Walk
import RingOverlay.Proofs.Finger.Offsets
import RingOverlay.Proofs.Finger.Strides
import RingOverlay.Proofs.Message.Fields
import RingOverlay.Proofs.Message.RoundTrip
import RingOverlay.Proofs.Message.Frames
import RingOverlay.Proofs.Message.Cuts
import RingOverlay.Proofs.Mesh.State
import RingOverlay.Proofs.Traffic.Counters
import RingOverlay.Proofs.Traffic.Volume
import RingOverlay.Proofs.Traffic.Counting
import RingOverlay.Proofs.Mesh.Conservation
import RingOverlay.Proofs.Link.Cache
import RingOverlay.Proofs.Registry.Quiet
import RingOverlay.Proofs.Registry.Stage
import RingOverlay.Proofs.Registry.History
import RingOverlay.Proofs.Registry.Tally
import RingOverlay.Proofs.Registry.Members
import RingOverlay.Proofs.Registry.Endpoints
import RingOverlay.Proofs.Registry.Consistency
import RingOverlay.Proofs.Registry.Timers
import RingOverlay.Proofs.Registry.Mail
import RingOverlay.Proofs.Registry.Quiescence
import RingOverlay.Proofs.Traffic.Collector
import RingOverlay.Proofs.Traffic.Calls
import RingOverlay.Proofs.Traffic.Table
import RingOverlay.Proofs.Console.Commands
import RingOverlay.Proofs.Registry.Collection
import RingOverlay.Proofs.Registry.Deeds
import RingOverlay.Proofs.Node.Setup
import RingOverlay.Proofs.Node.Account
import RingOverlay.Proofs.Fleet.Lanes
import RingOverlay.Proofs.Fleet.Prospect
import RingOverlay.Proofs.Fleet.Turn
import RingOverlay.Proofs.Fleet.Accord
import RingOverlay.Proofs.Fleet.Passage
import RingOverlay.Proofs.Fleet.Leftovers
import RingOverlay.Proofs.Fleet.Reports
import RingOverlay.Proofs.Fleet.Identities
import RingOverlay.Proofs.Registry.Losses
import RingOverlay.Proofs.Registry.Progress
import RingOverlay.Proofs.Registry.Refusals
import RingOverlay.Proofs.Registry.Turnover
import RingOverlay.Proofs.Registry.Bystanders
import RingOverlay.Proofs.Registry.Rounds
import RingOverlay.Proofs.Node.Reckoning
import RingOverlay.Proofs.Node.Registration
import RingOverlay.Proofs.Node.Unregistered
import RingOverlay.Proofs.Node.Seen
import RingOverlay.Proofs.Node.Fate
import RingOverlay.Proofs.Node.Task
import RingOverlay.Proofs.Node.Dials
import RingOverlay.Proofs.Node.Connections
import RingOverlay.Proofs.Finger.Assignment
import RingOverlay.Proofs.Registry.Manifests
import RingOverlay.Proofs.Registry.Payloads
import RingOverlay.Proofs.Address.Mapped
