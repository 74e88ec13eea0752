import NameDeclension.Text
import NameDeclension.Enumeration
import NameDeclension.Lettercase.Mapping
import NameDeclension.Lettercase.Context
import NameDeclension.Lettercase.Lower
import NameDeclension.Grammar.Case
import NameDeclension.Grammar.RuleSet
import NameDeclension.Word
import NameDeclension.Splice
import NameDeclension.Pattern.Slot
import NameDeclension.Pattern.Basic
import NameDeclension.Guard
import NameDeclension.Rules.Basic
import NameDeclension.Rules.Tables
import NameDeclension.Declension
import NameDeclension.FullName
import NameDeclension.Inflection
import NameDeclension.Json.Value
import NameDeclension.Json.Codec
import NameDeclension.Archive.Bytes
import NameDeclension.Archive.Tag
import NameDeclension.Archive.Forms
import NameDeclension.Proofs.Ends
import NameDeclension.Proofs.Lettercase.Small
import NameDeclension.Proofs.Lettercase.Cyrillic
import NameDeclension.Proofs.Pattern.Row
import NameDeclension.Proofs.Guard.Letters
import NameDeclension.Proofs.Rules.Firing
import NameDeclension.Proofs.Rules.Cuts
import NameDeclension.Proofs.Declension.Lowering
import NameDeclension.Proofs.Rules.Endings
import NameDeclension.Proofs.Rules.FirstNames
import NameDeclension.Proofs.Rules.Surnames
import NameDeclension.Proofs.Lettercase.Sigma
import NameDeclension.Proofs.Declension.Prefixes
import NameDeclension.Proofs.Declension.Fallback
import NameDeclension.Proofs.Declension.Growth
import NameDeclension.Proofs.Lettercase.Signs
import NameDeclension.Proofs.Pattern.Grammar
import NameDeclension.Proofs.Pattern.Repetition
import NameDeclension.Proofs.Pattern.Brackets
import NameDeclension.Proofs.Guard.Length
import NameDeclension.Proofs.Rules.Audit
import NameDeclension.Proofs.Declension.Trace
import NameDeclension.Proofs.Declension.FullNames
import NameDeclension.Proofs.Declension.Syncretism
import NameDeclension.Proofs.Declension.SurnamePairs
import NameDeclension.Proofs.Declension.Settled
import NameDeclension.Proofs.Archive.Layout
import NameDeclension.Proofs.Pattern.Alignment
import NameDeclension.Proofs.Pattern.Literal
import NameDeclension.Proofs.Guard.Lowering
import NameDeclension.Proofs.Guard.Sight
import NameDeclension.Proofs.Pattern.Negation
import NameDeclension.Proofs.Splice.Endings
import NameDeclension.Proofs.Splice.Bytes
import NameDeclension.Proofs.Json.Members
import NameDeclension.Proofs.Json.Projection
import NameDeclension.Proofs.Pattern.Joining
import NameDeclension.Proofs.Pattern.Offsets
