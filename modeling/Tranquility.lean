import Tranquility.CommandLine
import Tranquility.Editor.Server
import Tranquility.FileTable
import Tranquility.Main
import Tranquility.Proofs.Bounds.Nesting
import Tranquility.Proofs.Checking.Anchored
import Tranquility.Proofs.Checking.Layout
import Tranquility.Proofs.Checking.Printed
import Tranquility.Proofs.Checking.Warnings
import Tranquility.Proofs.Descent.Progress
import Tranquility.Proofs.Diagnostic.History
import Tranquility.Proofs.Editor.Definitions
import Tranquility.Proofs.Editor.Published
import Tranquility.Proofs.Grammar.StringUnits
import Tranquility.Proofs.Reading.Canonical
import Tranquility.Proofs.Resolving.Loops
import Tranquility.Proofs.Resolving.Names
import Tranquility.Proofs.Steps.Extension
import Tranquility.Proofs.Steps.Reachable
import Tranquility.Proofs.Steps.Undeclared
import Tranquility.Proofs.Token.Respaced
import Tranquility.Proofs.Tree.Unambiguous
import Tranquility.Proofs.Typing.Verdict
