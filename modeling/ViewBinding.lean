import ViewBinding.Files.Tree
import ViewBinding.Main
import ViewBinding.Proofs.Companion.Location
import ViewBinding.Proofs.Constants.Folding
import ViewBinding.Proofs.Constants.Selection
import ViewBinding.Proofs.Round.Verdict
import ViewBinding.Proofs.Outline.Members
import ViewBinding.Proofs.Scan.Accounting
import ViewBinding.Proofs.Constants.Moved
import ViewBinding.Proofs.Scan.Insertion
import ViewBinding.Proofs.Cast.LineState
import ViewBinding.Proofs.Cast.TypeText
import ViewBinding.Proofs.Companion.Casts
import ViewBinding.Proofs.Companion.Clashes
import ViewBinding.Proofs.Emission.InTurn
import ViewBinding.Proofs.Grouping.Collisions
import ViewBinding.Proofs.Command.Agreement
import ViewBinding.Proofs.Outline.Imports
import ViewBinding.Proofs.Outline.Types
import ViewBinding.Proofs.Cast.Words
import ViewBinding.Proofs.Cast.Names
import ViewBinding.Proofs.Emission.Filling
import ViewBinding.Proofs.Emission.Stopping
import ViewBinding.Proofs.Manifest.Format
import ViewBinding.Proofs.Companion.Coloring
import ViewBinding.Proofs.Companion.Decoding
import ViewBinding.Proofs.Manifest.Checks
import ViewBinding.Proofs.Companion.Naming
import ViewBinding.Proofs.Scan.Renumbering
import ViewBinding.Proofs.Companion.Reordering
import ViewBinding.Proofs.Constants.Blame
import ViewBinding.Proofs.Scan.Places
import ViewBinding.Proofs.Round.Places
import ViewBinding.Proofs.Text.Matching
import ViewBinding.Proofs.Numbers.Digits
import ViewBinding.Proofs.Numbers.Numerals
import ViewBinding.Proofs.Numbers.Values
import ViewBinding.Proofs.Numbers.Literals
import ViewBinding.Proofs.Numbers.Tokens
import ViewBinding.Proofs.Constants.Histories
import ViewBinding.Proofs.Constants.Arithmetic
import ViewBinding.Proofs.Constants.Shadowing
import ViewBinding.Proofs.Numbers.Operators
import ViewBinding.Proofs.Outline.Fields
import ViewBinding.Proofs.Cast.Qualifiers
import ViewBinding.Proofs.Cast.Whole
import ViewBinding.Proofs.Manifest.TypeNames
import ViewBinding.Proofs.Manifest.Outcomes
import ViewBinding.Proofs.Manifest.OutOfRange
import ViewBinding.Proofs.Cast.OpenNames
import ViewBinding.Proofs.Companion.Imports
import ViewBinding.Proofs.Display.Marks
import ViewBinding.Proofs.Scan.Order
import ViewBinding.Proofs.Files.Loading
import ViewBinding.Proofs.Tree.Faults
import ViewBinding.Proofs.Round.Counts
import ViewBinding.Proofs.Constants.Once
import ViewBinding.Proofs.Cast.Spacing
