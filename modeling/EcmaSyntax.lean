import EcmaSyntax.Conformance.Suite
import EcmaSyntax.Main
import EcmaSyntax.Proofs.Attendance
import EcmaSyntax.Proofs.Bracket
import EcmaSyntax.Proofs.Depth.Program
import EcmaSyntax.Proofs.Layout
import EcmaSyntax.Proofs.Location
import EcmaSyntax.Proofs.Markup
import EcmaSyntax.Proofs.Operators
import EcmaSyntax.Proofs.Permitted
import EcmaSyntax.Proofs.Placement
import EcmaSyntax.Proofs.Progress
import EcmaSyntax.Proofs.Refusal
import EcmaSyntax.Proofs.StringLiteral
import EcmaSyntax.Proofs.Subset
import EcmaSyntax.Proofs.Target
import EcmaSyntax.Proofs.Text.LineEnding
import EcmaSyntax.Proofs.Tiling
import EcmaSyntax.Proofs.Text.Terminator
import EcmaSyntax.Proofs.Lexer.Stack
import EcmaSyntax.Proofs.Lexer.Strictness
