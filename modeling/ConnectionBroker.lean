import ConnectionBroker.Json.Document
import ConnectionBroker.Json.Printer
import ConnectionBroker.Config.Codec
import ConnectionBroker.Config.Settings
import ConnectionBroker.Config.SettingsFile
import ConnectionBroker.Selection.Select
import ConnectionBroker.Tasks.Task
import ConnectionBroker.Tasks.Workers
import ConnectionBroker.Tunnel.Lifecycle
import ConnectionBroker.Cache.Entry
import ConnectionBroker.Cache.Step
import ConnectionBroker.Broker.Step
import ConnectionBroker.Service.Probe
import ConnectionBroker.Simulation.Clockwork
import ConnectionBroker.Simulation.CacheScenario
import ConnectionBroker.Simulation.BrokerScenario
import ConnectionBroker.Simulation.EndpointScenario
import ConnectionBroker.Simulation.FileScenario
import ConnectionBroker.Simulation.TunnelScenario
import ConnectionBroker.CommandLine.Run
import ConnectionBroker.Main
import ConnectionBroker.Proofs.Cache.Move
import ConnectionBroker.Proofs.Cache.SingleFlight
import ConnectionBroker.Proofs.Cache.Deeds
import ConnectionBroker.Proofs.Cache.Teardown
import ConnectionBroker.Proofs.Cache.Disposal
import ConnectionBroker.Proofs.Cache.Custody
import ConnectionBroker.Proofs.Cache.Ownership
import ConnectionBroker.Proofs.Cache.Serving
import ConnectionBroker.Proofs.Selection.Identity
import ConnectionBroker.Proofs.Cache.Report
import ConnectionBroker.Proofs.Cache.Orphan
import ConnectionBroker.Proofs.Cache.Faults
import ConnectionBroker.Proofs.Broker.Leaks
import ConnectionBroker.Proofs.Cache.Sharing
import ConnectionBroker.Proofs.Tunnel.Life
import ConnectionBroker.Proofs.Tunnel.Onward
import ConnectionBroker.Proofs.Cache.Sequential
import ConnectionBroker.Proofs.Network.Steady
import ConnectionBroker.Proofs.Cache.Mirror
import ConnectionBroker.Proofs.Cache.Concluding
import ConnectionBroker.Proofs.Cache.Fetching
import ConnectionBroker.Proofs.Cache.Refinement
import ConnectionBroker.Proofs.Cache.Isolation
import ConnectionBroker.Proofs.Broker.Routing
import ConnectionBroker.Proofs.Json.Records
import ConnectionBroker.Proofs.Cache.Rounds
import ConnectionBroker.Proofs.Broker.Stages
import ConnectionBroker.Proofs.Selection.Rows
import ConnectionBroker.Proofs.Files.Places
import ConnectionBroker.Proofs.Files.Removal
import ConnectionBroker.Proofs.Tasks.Clearing
import ConnectionBroker.Proofs.Tasks.Artifacts
import ConnectionBroker.Proofs.Tasks.Bookkeeping
import ConnectionBroker.Proofs.Cache.Lodging
import ConnectionBroker.Proofs.Cache.Overstay
import ConnectionBroker.Proofs.Files.Saving
import ConnectionBroker.Proofs.Json.Tolerance
import ConnectionBroker.Proofs.Json.Positions
import ConnectionBroker.Proofs.Tunnel.Pairs
import ConnectionBroker.Proofs.Cache.Grips
