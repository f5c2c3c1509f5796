import BubllioCrm.Companies.Models
import BubllioCrm.Foundations.Execution
import BubllioCrm.Foundations.Locks
import BubllioCrm.Foundations.Savepoints
import Mathlib.Logic.Function.Basic

/-!
Owns the companies of a workspace with its counter of customer codes, and the
transactions on them statement by statement: `Company.save`, deletions, and
atomic blocks that end or raise. Statements wait for the locks of other
transactions and read what is committed and what their own transaction has
written.

The constraints on columns that are not owned here, deadlocks and lost
connections are exceptions that a transaction can raise at any time.
-/

namespace BubllioCrm.Companies.Numbering

open BubllioCrm.Foundations

/-- The message of `int()` for too many digits. -/
def integerStringLimit (digits : List Char) : String :=
  "Exceeds the limit (4300 digits) for integer string conversion: value has " ++
    toString digits.length ++ " digits; use sys.set_int_max_str_digits() to increase the limit"

/-- What a transaction locks: the counter, a row of a company, or an entry of
the unique index on the codes. -/
inductive Row where
  | counter
  | company (id : Nat)
  | code (text : String)
deriving DecidableEq

/-- What a transaction has written and locked, and the codes it has generated. -/
structure Draft where
  counter : Option Nat := none
  changes : List Change := []
  held : List Row := []
  generated : List String := []

/-- A call of `Company.save`. -/
structure Saving where
  company : Company
  updateFields : Option (List Column) := none
  /-- The instance has not been loaded from a row. -/
  adding : Bool := false

/-- The statement of a call that comes next. -/
inductive Phase where
  | idle
  | getOrCreate (saving : Saving)
  | number (saving : Saving)
  | refresh (saving : Saving)
  | store (saving : Saving)
  | stored

structure Session where
  blocks : Blocks Draft := ⟨{}, []⟩
  phase : Phase := .idle

structure Registry where
  companies : List Company := []
  /-- `last_number` of the row of the workspace in `CustomerCodeCounter`. -/
  counter : Option Nat := none
  locks : Locks Row := Locks.free
  sessions : Nat → Session := fun _ => {}

inductive Failure where
  | valueError (message : String)
  | runtimeError (message : String)
  | doesNotExist
  | dataError
  | integrityError
  | databaseError
deriving DecidableEq

inductive Outcome where
  /-- Another transaction holds a lock that the statement needs. -/
  | waits
  | raises (failure : Failure)
  | goesOn (draft : Draft) (phase : Phase)

namespace Registry

/-- What a transaction sees of the counter. -/
def counterSeen (registry : Registry) (draft : Draft) : Option Nat :=
  draft.counter.or registry.counter

/-- What a transaction sees of the companies. -/
def companiesSeen (registry : Registry) (draft : Draft) : List Company :=
  applyAll draft.changes registry.companies

/-- Writes the counter, behind its lock. -/
def writeCounter (registry : Registry) (index number : Nat) (draft : Draft) (next : Phase) :
    Outcome :=
  if registry.locks.Grants index .counter then
    .goesOn { draft with counter := some number, held := .counter :: draft.held } next
  else .waits

/-- `counters.get_or_create(organization_id=self.organization_id)`. -/
def getOrCreate (registry : Registry) (index : Nat) (draft : Draft) (saving : Saving) : Outcome :=
  match registry.counterSeen draft with
  | some _ => .goesOn draft (.number saving)
  | none => registry.writeCounter index 0 draft (.number saving)

/-- The update of the counter for an empty, an explicit, or any other code. -/
def number (registry : Registry) (index : Nat) (draft : Draft) (saving : Saving) : Outcome :=
  if saving.company.customerCode = "" then
    match registry.counterSeen draft with
    | none => .goesOn draft (.refresh saving)
    | some last =>
        if maxBigInteger ≤ last then .raises .dataError
        else registry.writeCounter index (last + 1) draft (.refresh saving)
  else
    match codeDigits saving.company.customerCode with
    | none => .goesOn draft (.store saving)
    | some digits =>
        match digitsInt digits with
        | none => .raises (.valueError (integerStringLimit digits))
        | some number =>
            if maxCodeNumber < number then
              .raises (.valueError "Customer code exceeds the supported counter range.")
            else
              match registry.counterSeen draft with
              | none => .goesOn draft (.store saving)
              | some last =>
                  if last < number then registry.writeCounter index number draft (.store saving)
                  else .goesOn draft (.store saving)

/-- `counter.refresh_from_db` with the code of the number that it reads. -/
def refresh (registry : Registry) (draft : Draft) (saving : Saving) : Outcome :=
  match registry.counterSeen draft with
  | none => .raises .doesNotExist
  | some last =>
      .goesOn { draft with generated := draft.generated ++ [formatCode last] }
        (.store { saving with company := { saving.company with customerCode := formatCode last } })

/-- A row and its entries of the index, with the entry of the stored one. -/
def entries (row : Company) (stored : Option Company) : List Row :=
  [.company row.id, .code row.customerCode] ++
    (stored.map fun company => Row.code company.customerCode).toList

/-- A row is inserted, or written over the stored one, behind the locks on it
and on its entries of the index. -/
def place (registry : Registry) (index : Nat) (draft : Draft) (row : Company)
    (stored : Option Company) : Outcome :=
  if maxCodeLength < row.customerCode.length then .raises .dataError
  else if ∃ needed ∈ entries row stored, ¬ registry.locks.Grants index needed then .waits
  else if ∃ other ∈ registry.companiesSeen draft, other.id = row.id ∧ stored = none ∨
      other.id ≠ row.id ∧ other.customerCode = row.customerCode then .raises .integrityError
  else .goesOn
    { draft with
      changes := draft.changes ++ [.put row]
      held := entries row stored ++ draft.held } .stored

/-- `super().save`: an update of the row with the id of the instance, or else an
insert. -/
def store (registry : Registry) (index : Nat) (draft : Draft) (saving : Saving) : Outcome :=
  if saving.updateFields = some [] then .goesOn draft .stored
  else if saving.adding then registry.place index draft saving.company none
  else
    match (registry.companiesSeen draft).find? (·.id = saving.company.id) with
    | some stored =>
        registry.place index draft (saving.company.onto saving.updateFields stored) (some stored)
    | none =>
        if saving.updateFields.isSome then .raises .databaseError
        else registry.place index draft saving.company none

/-- The next statement of a call. -/
def execute (registry : Registry) (index : Nat) (draft : Draft) : Phase → Outcome
  | .getOrCreate saving => registry.getOrCreate index draft saving
  | .number saving => registry.number index draft saving
  | .refresh saving => registry.refresh draft saving
  | .store saving => registry.store index draft saving
  | .idle => .waits
  | .stored => .waits

def become (index : Nat) (session : Session) (registry : Registry) : Registry :=
  { registry with sessions := Function.update registry.sessions index session }

/-- The innermost block is rolled back, with the locks it has taken. -/
def abort (index : Nat) (blocks : Blocks Draft) (registry : Registry) : Registry :=
  { registry.become index ⟨blocks.abort, .idle⟩ with
    locks := registry.locks.retain index fun row => row ∈ blocks.abort.draft.held }

/-- The innermost block ends. The outermost one commits. -/
def leave (index : Nat) (blocks : Blocks Draft) (registry : Registry) : Registry :=
  match blocks.saved with
  | [] => registry
  | [_] => {
      companies := applyAll blocks.draft.changes registry.companies
      counter := blocks.draft.counter.or registry.counter
      locks := registry.locks.release index
      sessions := Function.update registry.sessions index {} }
  | _ :: _ :: _ => registry.become index ⟨blocks.leave, .idle⟩

/-- The statement of a call has its effect on the transaction. -/
def settle (index : Nat) (blocks : Blocks Draft) (registry : Registry) : Outcome → Registry
  | .waits => registry
  | .raises _ => registry.abort index blocks
  | .goesOn draft phase =>
      { registry.become index ⟨blocks.write draft, phase⟩ with
        locks := registry.locks.acquire index fun row => row ∈ draft.held }

/-- `Company.delete` in a block. -/
def delete (index : Nat) (blocks : Blocks Draft) (id : Nat) (registry : Registry) : Registry :=
  match (registry.companiesSeen blocks.draft).find? (·.id = id) with
  | none => registry
  | some stored =>
      let rows := [.company id, .code stored.customerCode]
      if ∃ needed ∈ rows, ¬ registry.locks.Grants index needed then registry
      else registry.settle index blocks (.goesOn { blocks.draft with
        changes := blocks.draft.changes ++ [.remove id], held := rows ++ blocks.draft.held } .idle)

end Registry

inductive Action where
  /-- A `transaction.atomic` block of a caller begins. -/
  | enter (index : Nat)
  /-- `Company.save` is called and enters its block. -/
  | save (index : Nat) (saving : Saving)
  | execute (index : Nat)
  | delete (index id : Nat)
  | leave (index : Nat)
  /-- The innermost block ends with an exception. -/
  | raise (index : Nat)

/-- An action that does not fit the transaction changes nothing. -/
def Registry.step (registry : Registry) (action : Action) : Registry :=
  match action with
  | .enter index =>
      let session := registry.sessions index
      match session.phase with
      | .idle => registry.become index ⟨session.blocks.enter, .idle⟩
      | _ => registry
  | .save index saving =>
      let session := registry.sessions index
      match session.phase with
      | .idle => registry.become index ⟨session.blocks.enter, .getOrCreate saving⟩
      | _ => registry
  | .execute index =>
      let session := registry.sessions index
      registry.settle index session.blocks
        (registry.execute index session.blocks.draft session.phase)
  | .delete index id =>
      let session := registry.sessions index
      match session.phase, session.blocks.saved with
      | .idle, _ :: _ => registry.delete index session.blocks id
      | _, _ => registry
  | .leave index =>
      let session := registry.sessions index
      match session.phase with
      | .idle => registry.leave index session.blocks
      | .stored => registry.leave index session.blocks
      | _ => registry
  | .raise index => registry.abort index (registry.sessions index).blocks

end BubllioCrm.Companies.Numbering
