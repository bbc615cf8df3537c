import MonkeySyntax.Main
import MonkeySyntax.Parsing.Command
import MonkeySyntax.Proofs.Console.Transcript
import MonkeySyntax.Proofs.Diagnostic.Blame
import MonkeySyntax.Proofs.Diagnostic.Caret
import MonkeySyntax.Proofs.Diagnostic.Dropped
import MonkeySyntax.Proofs.Language.Conformance
import MonkeySyntax.Proofs.Parsing.Bracketing
import MonkeySyntax.Proofs.Parsing.Concatenation
import MonkeySyntax.Proofs.Parsing.Containment
import MonkeySyntax.Proofs.Parsing.Depth
import MonkeySyntax.Proofs.Parsing.Driving
import MonkeySyntax.Proofs.Parsing.Nesting
import MonkeySyntax.Proofs.Parsing.Renaming
import MonkeySyntax.Proofs.Parsing.Semicolons
import MonkeySyntax.Proofs.Parsing.Soundness
import MonkeySyntax.Proofs.Parsing.Tail
import MonkeySyntax.Proofs.Parsing.Tracing
import MonkeySyntax.Proofs.Precedence.Climbing
import MonkeySyntax.Proofs.Scan.Terminals
import MonkeySyntax.Proofs.Scan.Tokenization
import MonkeySyntax.Proofs.Source.Renaming
import MonkeySyntax.Proofs.Source.Rendering
import MonkeySyntax.Token.Session
import MonkeySyntax.Tree.Outline
import MonkeySyntax.Proofs.Precedence.Floor
import MonkeySyntax.Proofs.Source.Formation
import MonkeySyntax.Proofs.Scan.Junction
import MonkeySyntax.Proofs.Scan.Scanner
import MonkeySyntax.Proofs.Text.Places
import MonkeySyntax.Proofs.Parsing.Numerals
import MonkeySyntax.Proofs.Console.Capacity
import MonkeySyntax.Proofs.Shell.Flags
