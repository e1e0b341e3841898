import PipelineShell.Main
import PipelineShell.Proofs.Exchange
import PipelineShell.Proofs.Talk
import PipelineShell.Proofs.Processes
import PipelineShell.Proofs.Launching
import PipelineShell.Proofs.Pipeline
import PipelineShell.Proofs.Reaping
import PipelineShell.Proofs.Background
import PipelineShell.Proofs.JobTalk
import PipelineShell.Proofs.Children
import PipelineShell.Proofs.ForegroundResult
import PipelineShell.Proofs.Ledger
import PipelineShell.Proofs.Ownership
import PipelineShell.Proofs.Spelling
import PipelineShell.Proofs.TypedLine
import PipelineShell.Proofs.Outline
import PipelineShell.Proofs.Acceptance
import PipelineShell.Proofs.FileIndependence
import PipelineShell.Proofs.JobHistory
import PipelineShell.Proofs.LineTalk
import PipelineShell.Proofs.Numeral
import PipelineShell.Proofs.SessionEnd
import PipelineShell.Proofs.Cut
import PipelineShell.Proofs.LineBreak
import PipelineShell.Proofs.ShownLine
import PipelineShell.Proofs.AllOrNothing
import PipelineShell.Proofs.Listing
import PipelineShell.Proofs.Bringing
import PipelineShell.Proofs.Boundary
import PipelineShell.Proofs.Encoding
import PipelineShell.Proofs.Globbing
import PipelineShell.Proofs.Openings
import PipelineShell.Proofs.Inheritance
import PipelineShell.Proofs.Claiming
import PipelineShell.Proofs.Diagnostics
import PipelineShell.Proofs.Decoding
import PipelineShell.Proofs.Subparts
import PipelineShell.Proofs.LineByLine
import PipelineShell.Proofs.StatusWord
import PipelineShell.Proofs.PatternSyntax
