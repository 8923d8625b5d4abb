import QueryDraft.Proofs.ClauseBodies
import QueryDraft.Proofs.ColumnHistory
import QueryDraft.Proofs.FirstTable
import QueryDraft.Proofs.GroupingRepair
import QueryDraft.Proofs.IndependentEdits
import QueryDraft.Proofs.InertParts
import QueryDraft.Proofs.InsertionHistory
import QueryDraft.Proofs.JoinPairing
import QueryDraft.Proofs.JoinSides
import QueryDraft.Proofs.KeywordLanguage
import QueryDraft.Proofs.KnownSources
import QueryDraft.Proofs.LiteralText
import QueryDraft.Proofs.LoneOffset
import QueryDraft.Proofs.Masking
import QueryDraft.Proofs.PartialSnapshots
import QueryDraft.Proofs.PickerNames
import QueryDraft.Proofs.PlanAgreement
import QueryDraft.Proofs.PlanTexts
import QueryDraft.Proofs.Redisplay
import QueryDraft.Proofs.Reopening
import QueryDraft.Proofs.Rounding
import QueryDraft.Proofs.RunInvariants
import QueryDraft.Proofs.ShortNumbers
import QueryDraft.Proofs.SortPicker
import QueryDraft.Proofs.Withdrawal
