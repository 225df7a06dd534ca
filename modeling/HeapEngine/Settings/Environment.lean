import HeapEngine.Settings
import HeapEngine.Text.Number

/-! Settings taken from environment variables. -/

namespace HeapEngine

/-- The bytes of the variables that are set. -/
structure Environment where
  pageSize : Option Bytes
  capacity : Option Bytes
  patience : Option Bytes

namespace Environment

/-- The variable of the page size. -/
def pageSizeKey : String := "LUMBUNG_PAGE_SIZE"

/-- The variable of the number of pages in memory. -/
def capacityKey : String := "LUMBUNG_NUM_PAGES"

/-- The variable of the time that a lock is waited for, in milliseconds. -/
def patienceKey : String := "LUMBUNG_LOCK_TIMEOUT_MS"

/-- The number a variable holds, if it is set. -/
def number (key : String) : Option Bytes → Except Failure (Option Nat)
  | none => .ok none
  | some bytes =>
    match Text.decode bytes with
    | .error _ => .error (.badSettings (.notUnicode key))
    | .ok text =>
      match Text.word64? text with
      | none => .error (.badSettings (.notANumber key text))
      | some value => .ok (some value)

/-- The standard settings with those of the environment over them. -/
def settings (environment : Environment) : Except Failure Settings := do
  -- The first variable that cannot be read decides.
  let pageSize ← number pageSizeKey environment.pageSize
  let capacity ← number capacityKey environment.capacity
  let milliseconds ← number patienceKey environment.patience
  let settings : Settings :=
    { pageSize := pageSize.getD Settings.standard.pageSize
      capacity := capacity.getD Settings.standard.capacity
      patience := (milliseconds.map Duration.ofMilliseconds).getD Settings.standard.patience }
  settings.check
  return settings

end Environment

end HeapEngine
