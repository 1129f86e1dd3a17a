import HeaderSchema.CommandLine.World
import HeaderSchema.Main
import HeaderSchema.Proofs.Accounting
import HeaderSchema.Proofs.Checks
import HeaderSchema.Proofs.Collecting
import HeaderSchema.Proofs.CommandRuns
import HeaderSchema.Proofs.Contribution
import HeaderSchema.Proofs.Conversion
import HeaderSchema.Proofs.Counters
import HeaderSchema.Proofs.DeclarationOrder
import HeaderSchema.Proofs.Decoding
import HeaderSchema.Proofs.Export
import HeaderSchema.Proofs.FileViews
import HeaderSchema.Proofs.Footprint
import HeaderSchema.Proofs.Indistinguishable
import HeaderSchema.Proofs.Interleaving
import HeaderSchema.Proofs.Judging
import HeaderSchema.Proofs.LineEnds
import HeaderSchema.Proofs.Lines
import HeaderSchema.Proofs.Lookahead
import HeaderSchema.Proofs.MarkdownFormat
import HeaderSchema.Proofs.MemberOrder
import HeaderSchema.Proofs.Merge
import HeaderSchema.Proofs.Naming
import HeaderSchema.Proofs.NodeReading
import HeaderSchema.Proofs.NumberLookahead
import HeaderSchema.Proofs.NumberReading
import HeaderSchema.Proofs.PackageSets
import HeaderSchema.Proofs.Passing
import HeaderSchema.Proofs.PathOrder
import HeaderSchema.Proofs.Places
import HeaderSchema.Proofs.Pruning
import HeaderSchema.Proofs.Registry
import HeaderSchema.Proofs.Retouching
import HeaderSchema.Proofs.RoundTrip
import HeaderSchema.Proofs.Routes
import HeaderSchema.Proofs.Session
import HeaderSchema.Proofs.ShapeReading
import HeaderSchema.Proofs.Spelling
import HeaderSchema.Proofs.Tampering
import HeaderSchema.Proofs.TextFormat
import HeaderSchema.Proofs.TextReading
import HeaderSchema.Proofs.Truncation
import HeaderSchema.Proofs.WorldChanges
import HeaderSchema.Proofs.Yields
import HeaderSchema.Text.Utf8.Lemmas
