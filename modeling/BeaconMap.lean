import BeaconMap.Json.Printer
import BeaconMap.Main
import BeaconMap.Proofs.Network.Tables
import BeaconMap.Proofs.Network.Validity
import BeaconMap.Proofs.Network.Indexes
import BeaconMap.Proofs.Network.Calls
import BeaconMap.Proofs.Network.History
import BeaconMap.Proofs.Network.Record
import BeaconMap.Proofs.Network.Runs
import BeaconMap.Proofs.Network.Soundness
import BeaconMap.Proofs.Network.Connected
import BeaconMap.Proofs.Network.Asked
import BeaconMap.Proofs.Network.Replay
import BeaconMap.Proofs.Network.Acceptable
import BeaconMap.Proofs.Network.Described
import BeaconMap.Proofs.Network.Failures
import BeaconMap.Proofs.Number.Nearest
import BeaconMap.Proofs.Number.Shortest
import BeaconMap.Proofs.Number.Text
import BeaconMap.Proofs.Script.Lines
import BeaconMap.Proofs.Script.Block
import BeaconMap.Proofs.Script.Template
import BeaconMap.Proofs.Network.Listing
import BeaconMap.Proofs.Network.Refinement
import BeaconMap.Proofs.Network.Unstarted
import BeaconMap.Proofs.Network.Succeeded
import BeaconMap.Proofs.Network.Determined
import BeaconMap.Proofs.Network.Redescribed
import BeaconMap.Proofs.Script.Settings
import BeaconMap.Proofs.Script.Patches
import BeaconMap.Proofs.Script.Coherence
import BeaconMap.Proofs.Network.Rejected
import BeaconMap.Proofs.Network.Permuted
import BeaconMap.Proofs.Script.Permuted
import BeaconMap.Proofs.Document.Records
import BeaconMap.Proofs.Document.Trees
import BeaconMap.Proofs.Json.Tokens
import BeaconMap.Proofs.Json.Values
import BeaconMap.Proofs.Json.Records
import BeaconMap.Proofs.Json.Descriptions
import BeaconMap.Proofs.Json.Trees
import BeaconMap.Proofs.Toml.Trees
import BeaconMap.Proofs.Document.Agreement
import BeaconMap.Proofs.Network.Renamed
import BeaconMap.Proofs.Network.Reordered
import BeaconMap.Proofs.Files.Places
import BeaconMap.Proofs.Generation.MapFile
import BeaconMap.Proofs.Generation.Run
import BeaconMap.Proofs.Script.Emission
import BeaconMap.Proofs.Network.Completed
import BeaconMap.Proofs.Json.Rearranged
import BeaconMap.Proofs.Files.Ways
import BeaconMap.Proofs.Generation.LogFile
import BeaconMap.Proofs.Generation.CommandLine
import BeaconMap.Proofs.Generation.Source
import BeaconMap.Proofs.Script.Unfailing
import BeaconMap.Proofs.Script.Words
import BeaconMap.Proofs.Script.Brackets
import BeaconMap.Proofs.Script.Procedures
import BeaconMap.Proofs.Toml.Keys
import BeaconMap.Proofs.Document.Parts
import BeaconMap.Proofs.Configuration.Sections
