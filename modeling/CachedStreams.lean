import CachedStreams.Bench.KeyedBench
import CachedStreams.Bench.SlotBench
import CachedStreams.Bench.StreamBench
import CachedStreams.Main
import CachedStreams.Proofs.KeyedCache.Effect
import CachedStreams.Proofs.KeyedCache.Ledger
import CachedStreams.Proofs.Stream.Phases
import CachedStreams.Proofs.Stream.Contents
import CachedStreams.Proofs.Stream.Feed
import CachedStreams.Proofs.Stream.Stages
import CachedStreams.Proofs.Stream.Lifecycle
import CachedStreams.Proofs.KeyedCache.Steps
import CachedStreams.Proofs.Stream.Answers
import CachedStreams.Proofs.Stream.Relay
import CachedStreams.Proofs.Stream.Holdings
import CachedStreams.Proofs.Stream.Upkeep
import CachedStreams.Proofs.Stream.References
import CachedStreams.Proofs.KeyedCache.Turns
import CachedStreams.Proofs.KeyedCache.Records
import CachedStreams.Proofs.KeyedCache.SingleFlight
import CachedStreams.Proofs.KeyedCache.TtlMap
import CachedStreams.Proofs.KeyedCache.Flush
import CachedStreams.Proofs.KeyedCache.Refinement
import CachedStreams.Proofs.KeyedCache.Collapse
import CachedStreams.Proofs.KeyedCache.Snapshot
import CachedStreams.Proofs.Stream.Retry
import CachedStreams.Proofs.Stream.Endings
import CachedStreams.Proofs.Stream.Finality
import CachedStreams.Proofs.Settings.Nearest
import CachedStreams.Proofs.Settings.SizeText
import CachedStreams.Proofs.Settings.SizeRounding
import CachedStreams.Proofs.Settings.Lines
import CachedStreams.Proofs.Settings.RoundTrip
import CachedStreams.Proofs.Stream.Handling
import CachedStreams.Proofs.Stream.Following
import CachedStreams.Proofs.Stream.Tail
import CachedStreams.Proofs.Stream.Openings
import CachedStreams.Proofs.Stream.Outcomes
import CachedStreams.Proofs.SlotCache.Collapse
import CachedStreams.Proofs.Stream.Leaks
import CachedStreams.Proofs.Stream.Staleness
import CachedStreams.Proofs.Stream.Awaiting
import CachedStreams.Proofs.Stream.Readiness
import CachedStreams.Proofs.Stream.Room
import CachedStreams.Proofs.Stream.Patience
import CachedStreams.Proofs.Stream.Publishing
import CachedStreams.Proofs.Stream.Pieces
import CachedStreams.Proofs.Stream.Growing
import CachedStreams.Proofs.KeyedCache.Abandoning
import CachedStreams.Proofs.KeyedCache.Sequential
import CachedStreams.Proofs.KeyedCache.Sweeping
