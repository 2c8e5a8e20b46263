import FreshNames.Text.Integer
import FreshNames.Text.UpperCase
import FreshNames.Alphabet.Selection
import FreshNames.Eligibility
import FreshNames.Random.Shuffle
import FreshNames.Charset
import FreshNames.Stream.Reader
import FreshNames.Text.Cut
import FreshNames.Text.Percent
import FreshNames.Url
import FreshNames.Files
import FreshNames.Url.Request
import FreshNames.World
import FreshNames.Stream
import FreshNames.Logging.Record
import FreshNames.Extraction
import FreshNames.Source
import FreshNames.NameCache
import FreshNames.Shelf
import FreshNames.Logging
import FreshNames.Session
import FreshNames.Output
import FreshNames.CommandLine
import FreshNames.Proofs.WordNumbers
import FreshNames.Proofs.CachedNames
import FreshNames.Proofs.CacheGrowth
import FreshNames.Proofs.Shelves
import FreshNames.Proofs.Reachable
import FreshNames.Proofs.HandedOut
import FreshNames.Proofs.PieceByPiece
import FreshNames.Proofs.CharByChar
import FreshNames.Proofs.SameAlphabet
import FreshNames.Proofs.Chains
import FreshNames.Proofs.Independence
import FreshNames.Proofs.FailedSteps
import FreshNames.Proofs.IdentifierNames
import FreshNames.Proofs.EncodedTexts
import FreshNames.Proofs.Troubles
import FreshNames.Proofs.DecodingMishaps
import FreshNames.Proofs.NamedSources
import FreshNames.Proofs.Arguments
import FreshNames.Proofs.PrintedNames
import FreshNames.Proofs.WordOrder
import FreshNames.Proofs.WordLengths
import FreshNames.Proofs.CollectedLetters
import FreshNames.Proofs.UnfailingNames
import FreshNames.Proofs.LoggedOnce
import FreshNames.Proofs.ClosedStreams
import FreshNames.Proofs.FileUrls
import FreshNames.Proofs.LevelTexts
import FreshNames.Proofs.EqualValues
import FreshNames.Proofs.LooseValues
import FreshNames.Proofs.NamedSchemes
import FreshNames.Proofs.Verbosity
