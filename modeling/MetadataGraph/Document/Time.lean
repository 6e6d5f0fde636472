import MetadataGraph.Document.Instance
import MetadataGraph.Revision

/-!
# Documents of revisions and reads

The document forms of revisions, windows, points in time and orders of a history.
-/

namespace MetadataGraph.DocumentForm

instance {α : Type} [DocumentForm α] : DocumentForm (Revision α) where
  write revision :=
    .object [
      ("data", write revision.data),
      ("valid_time", write revision.validTime),
      ("transaction_time", write revision.transactionTime),
      ("valid_until", write revision.validUntil)]
  read room json := do
    let parts ← Parts.ofJson? ["data", "valid_time", "transaction_time", "valid_until"] room json
    return ⟨← parts.get "data", ← parts.get "valid_time", ← parts.get "transaction_time",
      ← parts.get "valid_until"⟩

instance : DocumentForm Window where
  write window := .object [("from", write window.start), ("to", write window.finish)]
  read room json := do
    let parts ← Parts.ofJson? ["from", "to"] room json
    return ⟨← parts.get "from", ← parts.get "to"⟩

instance : DocumentForm AsOf where
  write asOf := .object [("valid_time", write asOf.validTime)]
  read room json := do
    let parts ← Parts.ofJson? ["valid_time"] room json
    return ⟨← parts.get "valid_time"⟩

/-- The name of an order of a history in documents. -/
def historyOrderName : HistoryOrder → String
  | .forwards => "Forwards"
  | .backwards => "Backwards"

instance : DocumentForm HistoryOrder where
  write order := .string (historyOrderName order)
  read := readChoice [.forwards, .backwards] historyOrderName

end MetadataGraph.DocumentForm
