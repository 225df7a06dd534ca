import HeapEngine.Page.Image

/-! How large pages are, how many of them stay in memory, and how long a lock is waited for. -/

namespace HeapEngine

/-- The settings of a database. -/
structure Settings where
  /-- Bytes per page, the same for all tables. -/
  pageSize : Nat
  /-- How many pages may be in memory. -/
  capacity : Nat
  /-- How long one request for a page waits for its lock. -/
  patience : Duration
deriving DecidableEq, Inhabited

namespace Settings

/-- The settings where nobody asks for others. -/
def standard : Settings := ⟨Page.defaultSize, 50, Duration.ofMilliseconds 700⟩

/-- A page has room for its header, one directory entry and one byte. -/
def leastPageSize : Nat := Page.headerSize + Page.entrySize + 1

/-- The largest number that an offset in a page can be. -/
def mostPageSize : Nat := Page.wordLimit - 1

/-- Refuses settings that no database can work with. -/
def check (settings : Settings) : Except Failure Unit :=
  if settings.capacity = 0 then .error (.badSettings .noPages)
  else if settings.pageSize < leastPageSize ∨ mostPageSize < settings.pageSize then
    .error (.badSettings (.pageSizeOutOfRange leastPageSize mostPageSize settings.pageSize))
  else if settings.patience = .zero then .error (.badSettings .noPatience)
  else .ok ()

/--
Until when a request that begins now waits for its lock.

A moment is a span since the clock was started. Its whole seconds are a signed word of 64 bits.
-/
def deadline (settings : Settings) (now : Duration) : Outcome Duration :=
  let moment : Duration := ⟨now.nanoseconds + settings.patience.nanoseconds⟩
  if 2 ^ 63 ≤ moment.seconds then trap .overflow else .ok moment

/-- The settings with their names. -/
def describe (settings : Settings) : String :=
  s!"BufferPoolConfig \x7b page_size: {settings.pageSize}, num_pages: {settings.capacity}, "
    ++ s!"lock_timeout: {settings.patience.text} \x7d"

end Settings

end HeapEngine
