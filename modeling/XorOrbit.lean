import XorOrbit.Main
import XorOrbit.Machine.Json
import XorOrbit.Program.Json
import XorOrbit.Proofs.Tape.Unbounded
import XorOrbit.Proofs.Run.Reset
import XorOrbit.Proofs.Program.Soundness
import XorOrbit.Proofs.Program.WellFormed
import XorOrbit.Proofs.Pipeline.Padding
import XorOrbit.Proofs.Pipeline.Log
import XorOrbit.Proofs.CopySeed.Alone
import XorOrbit.Proofs.ScratchWalk.Visitor
import XorOrbit.Proofs.DetectRepeat.Alone
import XorOrbit.Proofs.Generator.Arithmetic
import XorOrbit.Proofs.Generator.Cycle
import XorOrbit.Proofs.CommandLine.Debug
import XorOrbit.Proofs.Run.Bound
import XorOrbit.Proofs.Fragment.Merge
import XorOrbit.Proofs.Subroutine
import XorOrbit.Proofs.StateGraph.EdgeId
import XorOrbit.Proofs.Layout.Readers
import XorOrbit.Proofs.Json.RoundTrip
