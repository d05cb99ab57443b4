import ShardedGraph.Client
import ShardedGraph.Cluster
import ShardedGraph.Cluster.Cache
import ShardedGraph.Cluster.Connect
import ShardedGraph.Cluster.Lookup
import ShardedGraph.Cluster.Paths
import ShardedGraph.Cluster.Pools
import ShardedGraph.Cluster.Scan
import ShardedGraph.Config
import ShardedGraph.Config.Read
import ShardedGraph.Conformity
import ShardedGraph.Error
import ShardedGraph.Files
import ShardedGraph.Graph
import ShardedGraph.Graph.Line
import ShardedGraph.Graph.Load
import ShardedGraph.HotNodes
import ShardedGraph.Http
import ShardedGraph.Json.Number
import ShardedGraph.Json.Token
import ShardedGraph.Json.Value
import ShardedGraph.Kernel
import ShardedGraph.Kernel.Alias
import ShardedGraph.Kernel.PrefixSum
import ShardedGraph.Kernel.Unigram
import ShardedGraph.Kernel.Weights
import ShardedGraph.Kind
import ShardedGraph.Main
import ShardedGraph.Message
import ShardedGraph.Message.Dump
import ShardedGraph.Namespace
import ShardedGraph.Negative.Pools
import ShardedGraph.Negative.Sample
import ShardedGraph.Neighbor.Sample
import ShardedGraph.Neighbor.Tables
import ShardedGraph.Node
import ShardedGraph.Number.Binary
import ShardedGraph.Number.Decimal
import ShardedGraph.Number.Format
import ShardedGraph.Number.Power
import ShardedGraph.Number.Shortest
import ShardedGraph.Number.Text
import ShardedGraph.Partition
import ShardedGraph.Random.Attempt
import ShardedGraph.Random.WordStream
import ShardedGraph.Routing
import ShardedGraph.Server
import ShardedGraph.Slices
import ShardedGraph.SocketAddress
import ShardedGraph.Source
import ShardedGraph.Text.Blank
import ShardedGraph.Text.Duration
import ShardedGraph.Text.Hexadecimal
import ShardedGraph.Text.Lines
import ShardedGraph.Text.Quoted
import ShardedGraph.Text.Separated
import ShardedGraph.Text.Utf8
import ShardedGraph.Text.Visible
import ShardedGraph.Transport
import ShardedGraph.Transport.InProcess
import ShardedGraph.Transport.Rehearsed
import ShardedGraph.Walk
import ShardedGraph.Wire.Codec
import ShardedGraph.Wire.Message
import ShardedGraph.Proofs.Acceptance
import ShardedGraph.Proofs.Amounts
import ShardedGraph.Proofs.Agreement
import ShardedGraph.Proofs.Blame
import ShardedGraph.Proofs.Caches
import ShardedGraph.Proofs.Codecs
import ShardedGraph.Proofs.Draws
import ShardedGraph.Proofs.Entries
import ShardedGraph.Proofs.FanOut
import ShardedGraph.Proofs.Hops
import ShardedGraph.Proofs.Lookup
import ShardedGraph.Proofs.Messages
import ShardedGraph.Proofs.Neighborhoods
import ShardedGraph.Proofs.Occurrences
import ShardedGraph.Proofs.Octets
import ShardedGraph.Proofs.Paths
import ShardedGraph.Proofs.Pools
import ShardedGraph.Proofs.Ranges
import ShardedGraph.Proofs.Rounds
import ShardedGraph.Proofs.RoutedDraws
import ShardedGraph.Proofs.Rounding
import ShardedGraph.Proofs.Routing
import ShardedGraph.Proofs.Running
import ShardedGraph.Proofs.Samples
import ShardedGraph.Proofs.Scans
import ShardedGraph.Proofs.Services
import ShardedGraph.Proofs.Shares
import ShardedGraph.Proofs.Splitting
import ShardedGraph.Proofs.Supports
import ShardedGraph.Proofs.Walks
import ShardedGraph.Proofs.Loading
import ShardedGraph.Proofs.Decimals
import ShardedGraph.Proofs.Built
import ShardedGraph.Proofs.Reports
import ShardedGraph.Proofs.Filling
import ShardedGraph.Proofs.Shapes
import ShardedGraph.Proofs.Failures
import ShardedGraph.Proofs.FirstSeen
import ShardedGraph.Proofs.Honest
import ShardedGraph.Proofs.Mirrors
import ShardedGraph.Proofs.Connections
import ShardedGraph.Proofs.Faults
import ShardedGraph.Proofs.RangedDraws
import ShardedGraph.Proofs.Outsiders
import ShardedGraph.Proofs.Features
import ShardedGraph.Proofs.Utf8
import ShardedGraph.Proofs.Relays
import ShardedGraph.Proofs.Posts
import ShardedGraph.Proofs.Reachable
import ShardedGraph.Proofs.Sources
import ShardedGraph.Proofs.Admission
import ShardedGraph.Proofs.NegativeSamples
import ShardedGraph.Proofs.Regimes
import ShardedGraph.Proofs.Representation
import ShardedGraph.Proofs.Continuations
import ShardedGraph.Proofs.Intervals
import ShardedGraph.Proofs.Conservation
import ShardedGraph.Proofs.Chances
import ShardedGraph.Proofs.Widths
import ShardedGraph.Proofs.Attained
import ShardedGraph.Proofs.Gaps
import ShardedGraph.Proofs.Alignment
import ShardedGraph.Proofs.Arrivals
import ShardedGraph.Proofs.Selections
import ShardedGraph.Proofs.Rearrangements
import ShardedGraph.Proofs.Numerals
import ShardedGraph.Proofs.Words
import ShardedGraph.Proofs.NodeLines
import ShardedGraph.Proofs.Configurations
import ShardedGraph.Proofs.Frequencies
import ShardedGraph.Proofs.Landings
