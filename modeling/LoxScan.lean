import LoxScan.Element.LongestMatch
import LoxScan.Element.LooseCut
import LoxScan.Main
import LoxScan.Scan.Cursor
import LoxScan.Scan.Log
import LoxScan.Scan.Modes
import LoxScan.Scan.Placement
import LoxScan.Proofs.Boundary
import LoxScan.Proofs.MaximalMunch
import LoxScan.Proofs.Lines
import LoxScan.Proofs.Automaton
import LoxScan.Proofs.Acceptance
import LoxScan.Proofs.RoundTrip
import LoxScan.Proofs.Continuation
import LoxScan.Proofs.Concatenation
import LoxScan.Proofs.Lookahead
import LoxScan.Proofs.SourceLine
import LoxScan.Proofs.Ending
import LoxScan.Proofs.Utf8
import LoxScan.Proofs.FileAndPrompt
import LoxScan.Proofs.LineEndings
import LoxScan.Proofs.Rows
import LoxScan.Proofs.Session
import LoxScan.Proofs.Transcript
import LoxScan.Proofs.Recovery
import LoxScan.Proofs.Trivia
import LoxScan.Proofs.OpenString
import LoxScan.Proofs.Binary64
import LoxScan.Proofs.NearestRank
import LoxScan.Proofs.Rounding
import LoxScan.Proofs.NumberValue
import LoxScan.Proofs.NumberText
import LoxScan.Proofs.Escape
import LoxScan.Proofs.Report
import LoxScan.Proofs.ReportRows
import LoxScan.Proofs.JoinedLines
import LoxScan.Proofs.TokenEquality
import LoxScan.Proofs.ShownCharacter
import LoxScan.Proofs.Offsets
import LoxScan.Proofs.CursorStep
import LoxScan.Proofs.CursorRun
