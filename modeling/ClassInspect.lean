import ClassInspect.Analysis
import ClassInspect.ClassFile.Session
import ClassInspect.Highlight.Terminal
import ClassInspect.Jar
import ClassInspect.Main
import ClassInspect.Report.Dump
import ClassInspect.Proofs.ClassFile.Stepwise
import ClassInspect.Report.Listing
import ClassInspect.Proofs.Scan.Stepwise
import ClassInspect.Proofs.ClassFile.Boundary
import ClassInspect.Proofs.Analysis
import ClassInspect.Proofs.Bytes
import ClassInspect.Proofs.Scan.Grammar
import ClassInspect.Proofs.ClassFile.Description
import ClassInspect.Proofs.Pool.Format
import ClassInspect.Proofs.ClassFile.Format
import ClassInspect.Proofs.ClassFile.Exact
import ClassInspect.Proofs.Instruction.Assemble
import ClassInspect.Proofs.Instruction.Render
import ClassInspect.Proofs.Instruction.Format
import ClassInspect.Proofs.Instruction.RoundTrip
import ClassInspect.Proofs.Descriptor
import ClassInspect.Proofs.Pool.Lookup
import ClassInspect.Proofs.Text.ModifiedUtf8
import ClassInspect.Proofs.Flags
import ClassInspect.Proofs.Report.Dump
import ClassInspect.Proofs.ClassFile.Refusal
import ClassInspect.Proofs.Bytes.Parts
import ClassInspect.Proofs.ClassFile.Placement
import ClassInspect.Proofs.ClassFile.Uninterpreted
import ClassInspect.Proofs.Instruction.Stepwise
import ClassInspect.Proofs.Report.Listing
import ClassInspect.Proofs.Scan.Advance
import ClassInspect.Proofs.ClassFile.Session
import ClassInspect.Proofs.Scan.Located
import ClassInspect.Proofs.ClassFile.Offsets
import ClassInspect.Proofs.Command.Run
import ClassInspect.Proofs.Command.ClassReports
import ClassInspect.Proofs.Command.Jars
import ClassInspect.Proofs.Instruction.Cut
import ClassInspect.Proofs.Instruction.Relocation
import ClassInspect.Proofs.Scan.Relocation
import ClassInspect.Proofs.Text.Utf8
import ClassInspect.Proofs.Text.Newline
import ClassInspect.Proofs.Manifest
import ClassInspect.Proofs.Highlight.Spelling
import ClassInspect.Proofs.Highlight.Lexer
import ClassInspect.Proofs.Highlight.Operand
import ClassInspect.Proofs.Highlight.Listing
import ClassInspect.Proofs.MethodTable
import ClassInspect.Proofs.Text.Boundary
import ClassInspect.Proofs.Signature
import ClassInspect.Proofs.ClassFile.InvalidText
import ClassInspect.Proofs.Instruction.Legible
import ClassInspect.Proofs.HexDump.Pairs
import ClassInspect.Proofs.HexDump.Listing
import ClassInspect.Proofs.HexDump.Canonical
import ClassInspect.Proofs.Pool.Slots
import ClassInspect.Proofs.Command.JarListing
import ClassInspect.Proofs.Manifest.LineEnds
import ClassInspect.Proofs.Manifest.Headers
import ClassInspect.Proofs.Highlight.Keywords
import ClassInspect.Proofs.Highlight.Colouring
import ClassInspect.Proofs.Cursor.Layout
import ClassInspect.Proofs.Pool.References
import ClassInspect.Proofs.Scan.Logs
import ClassInspect.Proofs.Pool.Verbose
import ClassInspect.Proofs.Analysis.Verbose
import ClassInspect.Proofs.Report.Placeholder
import ClassInspect.Proofs.Highlight.Look
