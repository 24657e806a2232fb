import Monkey.Program.Equality
import Monkey.Program.Parse.Equations
import Monkey.Console.Highlight
import Monkey.Console.Completion
import Monkey.Main
import Monkey.Proofs.Program.Erase
import Monkey.Proofs.Grammar.Longest
import Monkey.Proofs.Grammar.Soundness
import Monkey.Proofs.Grammar.Completeness
import Monkey.Proofs.Token.Seam
import Monkey.Proofs.Program.Anchors
import Monkey.Proofs.Program.Writable
import Monkey.Proofs.Program.RoundTrip
import Monkey.Proofs.Run
import Monkey.Proofs.Run.Adequacy
import Monkey.Proofs.Run.Wrappers
import Monkey.Proofs.Run.Discipline
import Monkey.Proofs.Run.Visits
import Monkey.Proofs.Run.Bindings
import Monkey.Proofs.Run.Footprint
import Monkey.Proofs.Run.Throwing
import Monkey.Proofs.Run.Raising
import Monkey.Proofs.Run.Leaving
import Monkey.Proofs.Program.Rename
import Monkey.Proofs.Store.Lookup
import Monkey.Proofs.Store.Pairing
import Monkey.Proofs.Run.Parallel
import Monkey.Proofs.Run.Renaming
import Monkey.Proofs.Store.WellFormed
import Monkey.Proofs.Run.WellFormed
import Monkey.Proofs.Store.Twins
import Monkey.Proofs.Run.Purity
import Monkey.Proofs.Run.Isolation
import Monkey.Proofs.Program.Relabel
import Monkey.Proofs.Program.Terminator
import Monkey.Proofs.Program.BlockEnd
import Monkey.Proofs.Program.OwnBrace
import Monkey.Proofs.Token.LongestMatch
import Monkey.Proofs.Token.Segmentation
import Monkey.Proofs.Console.Brackets
import Monkey.Proofs.Run.Tagged
import Monkey.Proofs.Run.Erasure
import Monkey.Proofs.Run.Layout
import Monkey.Proofs.Console.Pieces
import Monkey.Proofs.Console.Dialogue
import Monkey.Proofs.Console.Transcript
import Monkey.Proofs.Run.Arithmetic
import Monkey.Proofs.Store.Shadowing
import Monkey.Proofs.Console.Outcomes
import Monkey.Proofs.Run.Order
import Monkey.Proofs.Run.Origin
import Monkey.Proofs.Run.Memory
import Monkey.Proofs.Run.Sharing
import Monkey.Proofs.Run.History
import Monkey.Proofs.Run.Equality
import Monkey.Proofs.Program.Regroup
import Monkey.Proofs.Run.Source
import Monkey.Proofs.Console.Nesting
import Monkey.Proofs.Console.Colours
import Monkey.Proofs.Console.Words
import Monkey.Proofs.Program.ErrorOrder
import Monkey.Proofs.Program.Labels
import Monkey.Proofs.Program.Inner
import Monkey.Proofs.Cursor.Termination
import Monkey.Proofs.Token.Separators
import Monkey.Proofs.Run.Numerals
import Monkey.Proofs.Store.Links
