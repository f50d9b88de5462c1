import SavedBasic.Main
import SavedBasic.Proofs.AppendOnly
import SavedBasic.Proofs.Colon
import SavedBasic.Proofs.Conditionals
import SavedBasic.Proofs.Container
import SavedBasic.Proofs.DamagedTail
import SavedBasic.Proofs.DefinitionBlocks
import SavedBasic.Proofs.Framing
import SavedBasic.Proofs.LineIndependence
import SavedBasic.Proofs.MacFraming
import SavedBasic.Proofs.MacRenaming
import SavedBasic.Proofs.Nesting
import SavedBasic.Proofs.Postfix
import SavedBasic.Proofs.Renumbering
import SavedBasic.Proofs.Restamping
import SavedBasic.Proofs.Termination
import SavedBasic.Sample.Names
import SavedBasic.Sample.Survey
import SavedBasic.Proofs.FormRecords
import SavedBasic.Proofs.WrittenNames
import SavedBasic.Proofs.FormLayout
import SavedBasic.Proofs.FormHierarchy
import SavedBasic.Proofs.MacListing
import SavedBasic.Proofs.Placing
import SavedBasic.Proofs.ElseLabel
import SavedBasic.Proofs.Circles
import SavedBasic.Proofs.OutputLists
import SavedBasic.Proofs.DeclarationLists
import SavedBasic.Proofs.TypeFields
import SavedBasic.Proofs.ProcedureHeads
import SavedBasic.Proofs.OptionalArguments
import SavedBasic.Proofs.ItemLists
import SavedBasic.Proofs.LineColumns
import SavedBasic.Proofs.CanonicalNames
import SavedBasic.Proofs.NewNames
import SavedBasic.Proofs.LetterRanges
import SavedBasic.Proofs.CurrencyTexts
import SavedBasic.Proofs.MethodCalls
import SavedBasic.Proofs.CommentRuns
import SavedBasic.Proofs.Rehearsals
import SavedBasic.Proofs.Stretches
import SavedBasic.Proofs.WrittenAgain
import SavedBasic.Proofs.Copies
import SavedBasic.Proofs.ReadBack
