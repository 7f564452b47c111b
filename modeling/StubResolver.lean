import StubResolver.Address.Parse
import StubResolver.Flags.Lemmas
import StubResolver.Item
import StubResolver.Session
import StubResolver.Utf8.Lemmas
import StubResolver.Proofs.FlagSettings
import StubResolver.Proofs.InPlace
import StubResolver.Proofs.Name.Compressed
import StubResolver.Proofs.Name.Cutting
import StubResolver.Proofs.Name.Defects
import StubResolver.Proofs.Name.Dots
import StubResolver.Proofs.Name.Filling
import StubResolver.Proofs.Name.Flattening
import StubResolver.Proofs.Name.Loop
import StubResolver.Proofs.Name.ReadBack
import StubResolver.Proofs.Name.RoundTrip
import StubResolver.Proofs.Name.Splicing
import StubResolver.Proofs.Name.Walk
import StubResolver.Proofs.Name.WrittenBack
import StubResolver.Proofs.Offsets
import StubResolver.Proofs.Response.Behind
import StubResolver.Proofs.Response.Counts
import StubResolver.Proofs.Response.Cut
import StubResolver.Proofs.Response.Enclosed
import StubResolver.Proofs.Response.Expanded
import StubResolver.Proofs.Response.Overrun
import StubResolver.Proofs.Response.RoundTrip
import StubResolver.Proofs.Response.Verdict
import StubResolver.Proofs.Response.WellFormed
import StubResolver.Proofs.Response.WireForm
import StubResolver.Proofs.Resolution.CompressedReply
import StubResolver.Proofs.Resolution.Configured
import StubResolver.Proofs.Resolution.Events
import StubResolver.Proofs.Resolution.Failures
import StubResolver.Proofs.Resolution.LifeCycle
import StubResolver.Proofs.Resolution.Reflected
