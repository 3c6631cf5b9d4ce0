import ElasticCore.Cache.Memory
import ElasticCore.Core.Program
import ElasticCore.Core.Report
import ElasticCore.Proofs.Cache.Addresses
import ElasticCore.Proofs.Cache.Contents
import ElasticCore.Proofs.Cache.Phases
import ElasticCore.Proofs.Control.Branches
import ElasticCore.Proofs.Control.Footprint
import ElasticCore.Proofs.Control.Listing
import ElasticCore.Proofs.Control.Selector
import ElasticCore.Proofs.Control.Variants
import ElasticCore.Proofs.Core.Balance
import ElasticCore.Proofs.Core.CacheSize
import ElasticCore.Proofs.Core.DataIndependence
import ElasticCore.Proofs.Core.EventLog
import ElasticCore.Proofs.Core.Liveness
import ElasticCore.Proofs.Core.Memory
import ElasticCore.Proofs.Core.Reads
import ElasticCore.Proofs.Core.Reset
import ElasticCore.Proofs.Core.Retry
import ElasticCore.Proofs.Core.Timing
import ElasticCore.Proofs.Handshake.Capacity
import ElasticCore.Proofs.Handshake.Delay
import ElasticCore.Proofs.Handshake.Drain
import ElasticCore.Proofs.Handshake.Independence
import ElasticCore.Proofs.Handshake.Neighbours
import ElasticCore.Proofs.Handshake.Queue
import ElasticCore.Proofs.Handshake.Series
import ElasticCore.Proofs.Handshake.Stability
import ElasticCore.Proofs.Handshake.Steady
import ElasticCore.Proofs.Instruction.Tiling
import ElasticCore.Proofs.Settings.Documents
import ElasticCore.Proofs.Settings.Validation
import ElasticCore.Proofs.WordChecks
import ElasticCore.Settings.Document
