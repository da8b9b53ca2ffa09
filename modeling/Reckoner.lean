import Reckoner.Evaluation.Depth
import Reckoner.Grammar.Denotation
import Reckoner.Main
import Reckoner.Proofs.PostOrder
import Reckoner.Rpn.Tree
import Reckoner.Service
import Reckoner.Token.Lexeme
import Reckoner.Proofs.RpnTree
import Reckoner.Proofs.Denotation
import Reckoner.Proofs.Conservation
import Reckoner.Proofs.Lexemes
import Reckoner.Proofs.Placement
import Reckoner.Proofs.StackHeight
import Reckoner.Proofs.Acceptance
import Reckoner.Proofs.Waiting
import Reckoner.Proofs.Enclosure
import Reckoner.Proofs.Substitution
import Reckoner.Proofs.CalculatorRun
import Reckoner.Proofs.SessionRun
import Reckoner.Proofs.Recency
import Reckoner.Proofs.Isolation
import Reckoner.Proofs.RunFailure
import Reckoner.Proofs.Explanation
import Reckoner.Proofs.Parentheses
import Reckoner.Proofs.TokenUse
import Reckoner.Proofs.ServiceReplies
import Reckoner.Proofs.LongestMatch
import Reckoner.Proofs.LexemeBoundary
import Reckoner.Proofs.MentionedNames
import Reckoner.Proofs.RejectedRequest
import Reckoner.Proofs.SessionPaths
import Reckoner.Proofs.SessionLog
import Reckoner.Proofs.OperandGroup
import Reckoner.Proofs.Places
import Reckoner.Proofs.TokenOrder
import Reckoner.Proofs.Assignment
import Reckoner.Proofs.DepthScan
import Reckoner.Proofs.ShadowedCalls
import Reckoner.Proofs.TruthValues
import Reckoner.Proofs.PowerSigns
import Reckoner.Proofs.DialogueRun
import Reckoner.Proofs.BatchRun
import Reckoner.Proofs.ReadBack
import Reckoner.Proofs.NumberLiterals
import Reckoner.Proofs.OperatorStack
import Reckoner.Proofs.FailureLines
