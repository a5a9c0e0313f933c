import WordArithmetic.Lambda.InPlace
import WordArithmetic.Main
import WordArithmetic.Proofs.FeatureVector.Product
import WordArithmetic.Proofs.Forest.Best
import WordArithmetic.Proofs.Forest.Enumeration
import WordArithmetic.Proofs.Lambda.Reference
import WordArithmetic.Proofs.Search.Score
import WordArithmetic.Proofs.Number.Places
import WordArithmetic.Proofs.Lambda.Printing
import WordArithmetic.Proofs.Lexicon.Built
import WordArithmetic.Proofs.Search.Replay
import WordArithmetic.Proofs.Search.Execution
import WordArithmetic.Proofs.Search.Best
import WordArithmetic.Proofs.Learning.Record
import WordArithmetic.Proofs.Learning.Split
import WordArithmetic.Proofs.Learning.Margin
import WordArithmetic.Proofs.Learning.HardSplit
import WordArithmetic.Proofs.Learning.Violation
import WordArithmetic.Proofs.Learning.Gain
import WordArithmetic.Proofs.Forest.Expectation
import WordArithmetic.Proofs.Learning.Ascent
import WordArithmetic.Proofs.Learning.Accounts
import WordArithmetic.Proofs.Lambda.Scoping
import WordArithmetic.Proofs.Lambda.Identity
import WordArithmetic.Proofs.Lambda.Preservation
import WordArithmetic.Proofs.Lambda.Oversupply
import WordArithmetic.Proofs.Number.Comparison
import WordArithmetic.Proofs.Value
import WordArithmetic.Proofs.Dealing
import WordArithmetic.Proofs.Forest.Partition
import WordArithmetic.Proofs.FeatureVector.Operations
import WordArithmetic.Proofs.Forest.Selection
import WordArithmetic.Proofs.Lexicon.Question
import WordArithmetic.Proofs.Lexicon.Entries
import WordArithmetic.Proofs.Search.Width
import WordArithmetic.Proofs.Forest.Conservation
import WordArithmetic.Proofs.Learning.Assessment
import WordArithmetic.Proofs.Number.Extended
import WordArithmetic.Proofs.Forest.Saturation
import WordArithmetic.Proofs.Learning.Saturation
import WordArithmetic.Proofs.Search.Rounds
import WordArithmetic.Proofs.Lambda.Interruption
import WordArithmetic.Proofs.Lambda.Spoiled
import WordArithmetic.Proofs.Lambda.Coverage
import WordArithmetic.Proofs.Lambda.Annotation
import WordArithmetic.Proofs.Lambda.Contraction
