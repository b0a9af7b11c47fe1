import TradingDesk.Store
/-!
# Stored documents and their news in JSON
-/

namespace TradingDesk

namespace Document

/-- A body may be nested as deep as the document around it leaves room for. -/
def read? (v : Json) : Option Document := do
  let s ← Slots.of? ["collection", "sequence", "document_id", "body", "committed_at"] v
  pure
    { collection := ← s.required "collection" Source.text?
      sequence := ← s.required "sequence" Source.word?
      id := ← s.required "document_id" Source.text?
      body := ← s.required "body" (Json.plain? (Json.maxDepth - 1))
      committedAt := ← s.required "committed_at" Source.instant? }

def toJson (d : Document) : Json := .obj
  [("collection", .str d.collection),
   ("sequence", .ofNat d.sequence),
   ("document_id", .str d.id),
   ("body", d.body),
   ("committed_at", .ofInstant d.committedAt)]

end Document

namespace ChangeEvent

def read? (v : Json) : Option ChangeEvent := do
  let s ← Slots.of? ["collection_name", "document_id", "commit_sequence"] v
  pure
    { collection := ← s.required "collection_name" Source.text?
      documentId := ← s.required "document_id" Source.text?
      sequence := ← s.required "commit_sequence" Source.word? }

def toJson (e : ChangeEvent) : Json := .obj
  [("collection_name", .str e.collection),
   ("document_id", .str e.documentId),
   ("commit_sequence", .ofNat e.sequence)]

end ChangeEvent

end TradingDesk
