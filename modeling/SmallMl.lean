import SmallMl.Compiler
import SmallMl.Main
import SmallMl.Proofs.FirstLiteral
import SmallMl.Proofs.Histories
import SmallMl.Proofs.Repetition
import SmallMl.Proofs.Census
import SmallMl.Proofs.Independence
import SmallMl.Proofs.LogRecords
import SmallMl.Proofs.Tiling
import SmallMl.Proofs.MaximalMunch
import SmallMl.Proofs.LineBreak
import SmallMl.Proofs.BlankedComments
import SmallMl.Proofs.Unambiguous
import SmallMl.Proofs.TableOrder
import SmallMl.Proofs.TokenText
import SmallMl.Proofs.PrintedTokens
import SmallMl.Proofs.CommandRuns
import SmallMl.Proofs.NestedComments
import SmallMl.Proofs.Positions
import SmallMl.Proofs.Refusals
import SmallMl.Proofs.StringWritings
import SmallMl.Proofs.CommentGrammar
import SmallMl.Proofs.StringSpellings
import SmallMl.Proofs.NumeralShapes
import SmallMl.Proofs.PrintedPayloads
import SmallMl.Proofs.Foresight
import SmallMl.Proofs.Exhaustion
import SmallMl.Proofs.CheckedReaders
import SmallMl.Proofs.CheckedStream
import SmallMl.Proofs.LineClosing
import SmallMl.Proofs.Indentation
import SmallMl.Proofs.BytePositions
