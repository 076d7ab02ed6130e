import LineLexer.Config.File
import LineLexer.Input.CharStream
import LineLexer.Input.Gzip.Members
import LineLexer.Main
import LineLexer.Proofs.Composition
import LineLexer.Proofs.Coupling
import LineLexer.Proofs.Cursor
import LineLexer.Proofs.Decoding
import LineLexer.Proofs.IndexRefinement
import LineLexer.Proofs.MatchSpans
import LineLexer.Proofs.Moves
import LineLexer.Proofs.Pieces
import LineLexer.Proofs.Position
import LineLexer.Proofs.ScanSegmentation
import LineLexer.Proofs.Segmentation
import LineLexer.Proofs.SkipSegmentation
import LineLexer.Proofs.Tiling
import LineLexer.Proofs.TurnBound
import LineLexer.Reader.Characters
import LineLexer.Source
import LineLexer.Proofs.Session
import LineLexer.Proofs.SkipReference
import LineLexer.Proofs.Lexemes
import LineLexer.Proofs.UsualTokens
import LineLexer.Proofs.Delivery
import LineLexer.Proofs.FifoContents
import LineLexer.Proofs.FifoQueue
import LineLexer.Proofs.SourceRefinement
import LineLexer.Proofs.ReadersAgree
import LineLexer.Proofs.Remembering
import LineLexer.Proofs.LifeCycle
import LineLexer.Proofs.Keeping
import LineLexer.Proofs.FailingReads
import LineLexer.Proofs.ReadCount
import LineLexer.Proofs.LineEnds
import LineLexer.Proofs.LocationKeys
import LineLexer.Proofs.SourcePositions
import LineLexer.Proofs.Looking
import LineLexer.Proofs.Endings
import LineLexer.Proofs.FeedFailures
import LineLexer.Proofs.ReadFailures
import LineLexer.Proofs.BlockEnds
import LineLexer.Proofs.MatchTaking
import LineLexer.Proofs.QueueLedger
import LineLexer.Proofs.Listing
import LineLexer.Proofs.ErrorTexts
import LineLexer.Proofs.ScanPlaces
import LineLexer.Proofs.CommandOutput
import LineLexer.Proofs.SingleSteps
import LineLexer.Proofs.LineEdits
import LineLexer.Proofs.CloserInSight
import LineLexer.Proofs.EndPosition
import LineLexer.Proofs.ReadingOn
