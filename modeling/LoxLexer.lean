import LoxLexer.Batch
import LoxLexer.Collector
import LoxLexer.Main
import LoxLexer.Terminal
import LoxLexer.Proofs.Adjacency
import LoxLexer.Proofs.Automaton
import LoxLexer.Proofs.EntryPoints
import LoxLexer.Proofs.LineByLine
import LoxLexer.Proofs.Lines
import LoxLexer.Proofs.Lookahead
import LoxLexer.Proofs.Munch
import LoxLexer.Proofs.Spelling
import LoxLexer.Proofs.Tiling
import LoxLexer.Proofs.Insertion
import LoxLexer.Proofs.Listings
import LoxLexer.Proofs.Persistence
import LoxLexer.Proofs.Workshop
import LoxLexer.Proofs.Screen
import LoxLexer.Proofs.Commands
import LoxLexer.Proofs.Highlighting
import LoxLexer.Proofs.Offers
import LoxLexer.Proofs.Remembered
import LoxLexer.Proofs.ReadBack
import LoxLexer.Proofs.LineEndings
import LoxLexer.Proofs.TornHistory
import LoxLexer.Proofs.Hints
import LoxLexer.Proofs.Uncolored
import LoxLexer.Proofs.Equality
import LoxLexer.Proofs.ScanLog
import LoxLexer.Proofs.ArgumentOrder
