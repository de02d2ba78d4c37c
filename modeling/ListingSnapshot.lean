import ListingSnapshot.Main
import ListingSnapshot.Session
import ListingSnapshot.Proofs.Stream.IllFormed
import ListingSnapshot.Proofs.Identifier.Grammar
import ListingSnapshot.Proofs.Stream.Cutoff
import ListingSnapshot.Proofs.Stream.Breakoff
import ListingSnapshot.Proofs.Json.Documents
import ListingSnapshot.Proofs.Stream.Identity
import ListingSnapshot.Proofs.Stream.Demand
import ListingSnapshot.Proofs.Json.Spelled
import ListingSnapshot.Proofs.Json.Families
import ListingSnapshot.Proofs.Wire.Reports
import ListingSnapshot.Proofs.Stream.RoundTrip
import ListingSnapshot.Proofs.Stream.Log
import ListingSnapshot.Proofs.Stream.Coherence
import ListingSnapshot.Proofs.Stream.Policies
import ListingSnapshot.Proofs.Evolution
import ListingSnapshot.Proofs.Pinning
import ListingSnapshot.Proofs.Freshness
import ListingSnapshot.Proofs.Wire.Blocks
import ListingSnapshot.Proofs.Stream.Padding
import ListingSnapshot.Proofs.Program
import ListingSnapshot.Proofs.Environment
import ListingSnapshot.Proofs.SameListing
import ListingSnapshot.Proofs.Json.Stops
import ListingSnapshot.Proofs.Json.StopsNested
import ListingSnapshot.Proofs.Wire.Identifiers
import ListingSnapshot.Proofs.Wire.Diagnostics
import ListingSnapshot.Proofs.Stream.Diagnostics
