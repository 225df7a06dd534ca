import HeapEngine.SortedMap

/-! The names of tables, pages, records and transactions, their order and their text. -/

namespace HeapEngine

/-- A page: the table it belongs to and its position in that table. -/
structure PageId where
  table : Nat
  number : Nat
deriving DecidableEq, Inhabited

namespace PageId

/-- Pages are ordered by table, then by position. -/
instance : LT PageId where
  lt a b := a.table < b.table ∨ (a.table = b.table ∧ a.number < b.number)

/-- What it means for a page to come before another. -/
theorem lt_iff {a b : PageId} :
    a < b ↔ a.table < b.table ∨ (a.table = b.table ∧ a.number < b.number) := .rfl

instance : DecidableLT PageId := fun a b =>
  inferInstanceAs (Decidable (a.table < b.table ∨ (a.table = b.table ∧ a.number < b.number)))

instance : KeyOrder PageId where
  irrefl a before := by rw [lt_iff] at before; omega
  trans := by
    intro a b c first second
    rw [lt_iff] at first second ⊢
    omega
  connected := by
    intro a b notBefore notAfter
    rw [lt_iff] at notBefore notAfter
    cases a
    cases b
    simp only at notBefore notAfter
    rw [PageId.mk.injEq]
    omega

/-- Which of two pages comes first. -/
def order (a b : PageId) : Ordering := if a < b then .lt else if b < a then .gt else .eq

/-- The short text of a page. -/
def text (id : PageId) : String := s!"t{id.table}:p{id.number}"

/-- The text of a page with its fields named. -/
def describe (id : PageId) : String :=
  s!"PageId \x7b table_id: {id.table}, page_number: {id.number} \x7d"

end PageId

/-- A stored record: its page and its slot there. -/
structure RecordId where
  page : PageId
  slot : Nat
deriving DecidableEq, Inhabited

/-- The text of a record with its fields named. -/
def RecordId.describe (id : RecordId) : String :=
  s!"RecordId \x7b page_id: {id.page.describe}, slot: {id.slot} \x7d"

/-- A transaction, known by its number. -/
structure TransactionId where
  number : Nat
deriving DecidableEq, Inhabited

namespace TransactionId

/-- Transactions are ordered by number. -/
instance : LT TransactionId where
  lt a b := a.number < b.number

/-- What it means for a transaction to come before another. -/
theorem lt_iff {a b : TransactionId} : a < b ↔ a.number < b.number := .rfl

instance : DecidableLT TransactionId := fun a b =>
  inferInstanceAs (Decidable (a.number < b.number))

instance : KeyOrder TransactionId where
  irrefl a before := by rw [lt_iff] at before; omega
  trans := by
    intro a b c first second
    rw [lt_iff] at first second ⊢
    omega
  connected := by
    intro a b notBefore notAfter
    rw [lt_iff] at notBefore notAfter
    cases a
    cases b
    simp only at notBefore notAfter
    rw [TransactionId.mk.injEq]
    omega

/-- The transaction that is begun first. -/
def first : TransactionId := ⟨1⟩

/-- The transaction that is begun next after another. -/
def next (id : TransactionId) : TransactionId := ⟨id.number + 1⟩

/-- The text of a transaction. -/
def text (id : TransactionId) : String := s!"txn#{id.number}"

end TransactionId

end HeapEngine
