import Datapath.Diagnostic.Render
import Datapath.Target.Affine
import Datapath.Target.Families
import Datapath.Builder
import Datapath.Library
import Datapath.Adder.Simulate
import Datapath.Adder.CarrySelect
import Datapath.Tiling.Configuration
import Datapath.Tiling.Chain
import Datapath.Tiling.Anneal
import Datapath.BitHeap.Guard
import Datapath.BitHeap.Compress
import Datapath.Product.Tiled
import Datapath.Multiplier.Basic
import Datapath.Adder.Long
import Datapath.Shifter
import Datapath.Document.Diagnostic
import Datapath.Document.Target
import Datapath.Document.Component
import Datapath.Document.Addition
import Datapath.Document.Tiling
import Datapath.Document.Product
import Datapath.Toml.Parser
import Datapath.Generator
import Datapath.Component.Summary
import Datapath.Json.Reader
import Datapath.Json.Writer
import Datapath.Assembly
import Datapath.Document.Device
import Datapath.Document
import Datapath.Json
import Datapath.Proofs.Adder.Sum
import Datapath.Proofs.Adder.Planning
import Datapath.Proofs.BitHeap.Sum
import Datapath.Proofs.BitHeap.Heights
import Datapath.Proofs.Multiplier.Contribute
import Datapath.Proofs.Multiplier.Faithful
import Datapath.Proofs.Multiplier.Precision
import Datapath.Proofs.Tiling.Leftover
import Datapath.Proofs.Tiling.Correct
import Datapath.Proofs.Floats
import Datapath.Proofs.Tiling.Enumeration
import Datapath.Proofs.Tiling.Visited
import Datapath.Proofs.Tiling.Optimal
import Datapath.Proofs.Tiling.Trace
import Datapath.Proofs.Tiling.Shares
import Datapath.Proofs.Tiling.Quotas
import Datapath.Proofs.Tiling.Incumbent
import Datapath.Proofs.Tiling.MaximalRuns
import Datapath.Proofs.Construction.Elements
import Datapath.Proofs.Construction.Additions
import Datapath.Proofs.Construction.Operators
import Datapath.Proofs.Construction.Alignment
import Datapath.Proofs.Construction.Combinational
import Datapath.Proofs.Adder.Stages
import Datapath.Proofs.Multiplier.Guard
import Datapath.Proofs.Library.Closure
import Datapath.Proofs.Library.Unique
import Datapath.Proofs.Library.History
import Datapath.Proofs.Schedule.History
import Datapath.Proofs.Generator
import Datapath.Proofs.Tiling.Check
import Datapath.Proofs.Shifter
import Datapath.Proofs.Tiling.Piles
import Datapath.Proofs.Multiplier.Parts
import Datapath.Proofs.Multiplier.Widths
import Datapath.Proofs.Product.Rounding
