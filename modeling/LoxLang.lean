import LoxLang.Main
import LoxLang.Proofs.Concatenation
import LoxLang.Proofs.Construction
import LoxLang.Proofs.CountingLoop
import LoxLang.Proofs.DeclaredNames
import LoxLang.Proofs.DistanceTable
import LoxLang.Proofs.FullSink
import LoxLang.Proofs.Layout
import LoxLang.Proofs.LexicalScoping
import LoxLang.Proofs.NearestBinding
import LoxLang.Proofs.NodeIdentities
import LoxLang.Proofs.NumberTexts
import LoxLang.Proofs.Precedence
import LoxLang.Proofs.PrintedTree
import LoxLang.Proofs.Printing
import LoxLang.Proofs.Recovery
import LoxLang.Proofs.RejectedSource
import LoxLang.Proofs.ScopeChain
import LoxLang.Proofs.StaticDispatch
import LoxLang.Proofs.StaticRules
import LoxLang.Proofs.Termination
import LoxLang.Proofs.Token.Respacing
import LoxLang.Proofs.Token.Spans
import LoxLang.Proofs.TokenAccess
import LoxLang.Tree.Uses
