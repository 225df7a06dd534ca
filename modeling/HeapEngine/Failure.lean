import HeapEngine.Locks
import HeapEngine.Record.Codec
import HeapEngine.Text.Quoted

/-!
What can go wrong, why, and in which words it is reported.

A failure is reported to the caller, who may go on. A trap is arithmetic or an access that has no
meaning; nothing goes on after it.
-/

namespace HeapEngine

/-- What the storage of pages reports. -/
inductive StorageFailure where
  | injectedRead
  | injectedWrite
  /-- The file does not exist, or a directory on the way to it. -/
  | noSuchFile
  /-- A file stands where a directory is needed. -/
  | notADirectory
  /-- A directory stands where a file is needed. -/
  | isADirectory
  | nameTooLong
  /-- A file name has a zero byte in it. -/
  | zeroInName
  | other (text : String)
deriving DecidableEq

/-- A rule between callers and the database that was broken. -/
inductive Misuse where
  /-- A record to take off a page is stored nowhere. -/
  | unplacedOnPage
  /-- A record is stored on another page than the one it should be taken off. -/
  | onOtherPage (place : RecordId) (page : PageId)
  /-- A record to delete is stored nowhere. -/
  | unplaced
  /-- A record is stored in another table than the one it should be deleted from. -/
  | inOtherTable (place : RecordId) (table : Nat)
  /-- A lock was released by somebody who did not hold it. -/
  | releasedUnheld (transaction : TransactionId) (page : PageId)
  /-- A page was changed by somebody who is not its writer. -/
  | changedUnlocked (transaction : TransactionId) (page : PageId)
  | other (text : String)
deriving DecidableEq

/-- Why something could not be written as bytes or read from them. -/
inductive EncodingFailure where
  | emptyCell
  | record (cause : RecordError)
  | other (text : String)
deriving DecidableEq

/-- Why bytes are no page. -/
inductive Corruption where
  | checksum
  | directoryTooLong
  /-- The cells begin within the directory or after the end of the page. -/
  | cellStart (offset : Nat)
  | cellOutside (offset length : Nat)
  | other (text : String)
deriving DecidableEq

/-- Why settings cannot be used. -/
inductive SettingsFailure where
  | noPages
  | pageSizeOutOfRange (least most actual : Nat)
  | noPatience
  | catalogPageSize (catalog pool : Nat)
  | tablePageSize (name : String) (table catalog : Nat)
  /-- An environment variable is no number. -/
  | notANumber (key text : String)
  /-- An environment variable is no text. -/
  | notUnicode (key : String)
  | other (text : String)
deriving DecidableEq

/-- Why an operation could not do what it was asked for. -/
inductive Failure where
  | storage (cause : StorageFailure)
  /-- A lock could not be had in time. -/
  | lockRefused (refusal : Refusal)
  /-- A page is needed, and all that are in memory have changes that are not written. -/
  | poolFull (capacity : Nat)
  | misuse (cause : Misuse)
  /-- A table has not so many pages. -/
  | noPage (page : PageId) (pages : Nat)
  /-- A page has no room for a cell. -/
  | noRoom (page : PageId)
  /-- A page has not so many slots. -/
  | noSlot (index slots : Nat)
  /-- Not even an empty page has room for a record. -/
  | recordTooLarge (size largest : Nat)
  /-- A slot holds nothing. -/
  | noRecord (page : PageId) (slot : Nat)
  | encoding (cause : EncodingFailure)
  | noTable (table : Nat)
  | wrongPageSize (expected actual : Nat)
  | corruptPage (page : PageId) (cause : Corruption)
  | badSettings (cause : SettingsFailure)
deriving DecidableEq

/-- Arithmetic or an access that has no meaning. -/
inductive Trap where
  /-- A part of a buffer was asked for that lies outside of it. -/
  | outOfRange
  /-- A result that does not fit its machine word, or lies below zero. -/
  | overflow
  | divisionByZero
deriving DecidableEq

/-- Why there is no result. -/
inductive Fault where
  | failed (failure : Failure)
  | trapped (trap : Trap)
deriving DecidableEq

/-- The words for a failure of the storage. -/
def StorageFailure.message : StorageFailure → String
  | injectedRead => "injected read failure"
  | injectedWrite => "injected write failure"
  | noSuchFile => "No such file or directory (os error 2)"
  | notADirectory => "Not a directory (os error 20)"
  | isADirectory => "Is a directory (os error 21)"
  | nameTooLong => "File name too long (os error 36)"
  | zeroInName => "file name contained an unexpected NUL byte"
  | other text => text

/-- The words for a broken rule. -/
def Misuse.message : Misuse → String
  | unplacedOnPage => "tuple has no record id"
  | onOtherPage place page => s!"tuple {place.describe} does not live on page {page.text}"
  | unplaced => "cannot delete a tuple without a record id"
  | inOtherTable place table => s!"record {place.describe} does not belong to table {table}"
  | releasedUnheld transaction page =>
    s!"{transaction.text} released page {page.text} without holding a lock on it"
  | changedUnlocked transaction page =>
    s!"{transaction.text} modified page {page.text} without an exclusive lock"
  | other text => text

/-- The words for what cannot be written or read. -/
def EncodingFailure.message : EncodingFailure → String
  | emptyCell => "Cannot store an empty cell"
  | record cause => cause.message
  | other text => text

/-- The words for what is wrong with the bytes of a page. -/
def Corruption.message : Corruption → String
  | checksum => "Checksum mismatch"
  | directoryTooLong => "Slot directory extends beyond page boundary"
  | cellStart offset => s!"Invalid free_space_offset: {offset}"
  | cellOutside offset length =>
    s!"Slot at offset {offset} with length {length} lies outside the cell area"
  | other text => text

/-- The words for what is wrong with settings. -/
def SettingsFailure.message : SettingsFailure → String
  | noPages => "num_pages must be at least 1"
  | pageSizeOutOfRange least most actual =>
    s!"page_size must be between {least} and {most} bytes, got {actual}"
  | noPatience => "lock_timeout must be non-zero"
  | catalogPageSize catalog pool =>
    s!"catalog page size {catalog} does not match pool page size {pool}"
  | tablePageSize name table catalog =>
    s!"table '{name}' uses {table}-byte pages but the catalog uses {catalog}-byte pages"
  | notANumber key text => s!"{key}={Text.quoted text} is not a valid number"
  | notUnicode key => s!"{key} is not valid unicode"
  | other text => text

namespace Failure

/-- The words for a failure. -/
def message : Failure → String
  | storage cause => "I/O error: " ++ cause.message
  | lockRefused refusal => "Transaction aborted: " ++ refusal.message
  | poolFull capacity => s!"Buffer pool exhausted: all {capacity} resident pages are dirty"
  | misuse cause => "Invariant violation: " ++ cause.message
  | noPage page pages => s!"Page {page.text} not found (table has {pages} pages)"
  | noRoom page => s!"Page is full (page_id: {page.text})"
  | noSlot index slots => s!"Invalid slot index {index} (max: {slots})"
  | recordTooLarge size largest =>
    s!"Tuple of {size} bytes does not fit in an empty page ({largest} bytes usable)"
  | noRecord page slot => s!"No tuple at slot {slot} of page {page.text}"
  | encoding cause => "Serialization/deserialization error: " ++ cause.message
  | noTable table => s!"Table {table} not found"
  | wrongPageSize expected actual =>
    s!"Invalid page size: {expected} bytes, got {actual} bytes"
  | corruptPage page cause => s!"Corrupted page: page_id={page.text}, reason={cause.message}"
  | badSettings cause => "Invalid configuration: " ++ cause.message

/-- Whether a lock could not be had in time. -/
def isRefusal : Failure → Bool
  | lockRefused _ => true
  | _ => false

/-- Whether the transaction that met the failure has to be rolled back. -/
def mustRollBack : Failure → Bool
  -- It lacks a lock or a place in memory, and waiting on might be in vain.
  | lockRefused _ => true
  | poolFull _ => true
  -- What it sees of the storage cannot be relied on.
  | storage _ => true
  | noPage _ _ => true
  | corruptPage _ _ => true
  | wrongPageSize _ _ => true
  | _ => false

end Failure

/-- A result, a failure, or a trap. -/
abbrev Outcome (α : Type) := Except Fault α

/-- An operation on a state. What it has changed stays changed when it does not succeed. -/
abbrev Op (σ α : Type) := EStateM Fault σ α

/-- Reports a failure. -/
def fail {α : Type} (failure : Failure) : Outcome α := .error (.failed failure)

/-- Ends everything. -/
def trap {α : Type} (cause : Trap) : Outcome α := .error (.trapped cause)

/-- An outcome that needs no state, as an operation that leaves the state alone. -/
def Op.ofOutcome {σ α : Type} (outcome : Outcome α) : Op σ α := fun state =>
  match outcome with
  | .ok result => .ok result state
  | .error fault => .error fault state

instance {σ : Type} : MonadLift (Except Fault) (EStateM Fault σ) where
  monadLift := Op.ofOutcome

end HeapEngine
