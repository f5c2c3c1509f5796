import Mathlib.Data.List.Induction
import Mathlib.Data.Set.Insert

/-!
Owns the replacement of a file by a synchronized temporary file that takes its
name, and what the name can stand for after any run of such replacements with
errors, kills and losses of power between any two operations.

Does not own the content of the files.
-/

namespace BubllioCrm.Foundations.AtomicReplace

variable {Byte : Type}

/-- A file, and whether storage holds all of its content. -/
structure File (Byte : Type) where
  content : List Byte
  synchronized : Bool

/-- What the name stands for, what it stood for since the directory was last
synchronized, and the temporary file of the replacement that runs. -/
structure Directory (Byte : Type) where
  target : Option (File Byte)
  previous : List (Option (File Byte))
  temporary : Option (File Byte)

inductive Operation (Byte : Type) where
  | create
  | write (chunk : List Byte)
  | synchronize
  | replace
  | synchronizeDirectory
  | unlink

def Directory.perform (directory : Directory Byte) : Operation Byte → Directory Byte
  | .create => { directory with temporary := some { content := [], synchronized := false } }
  | .write chunk =>
      { directory with
        temporary := directory.temporary.map fun file =>
          { content := file.content ++ chunk, synchronized := false } }
  | .synchronize =>
      { directory with
        temporary := directory.temporary.map fun file => { file with synchronized := true } }
  | .replace =>
      match directory.temporary with
      | none => directory
      | some file =>
          { target := some file
            previous := directory.target :: directory.previous
            temporary := none }
  | .synchronizeDirectory => { directory with previous := [] }
  | .unlink => { directory with temporary := none }

def Directory.execute (directory : Directory Byte) (operations : List (Operation Byte)) :
    Directory Byte :=
  operations.foldl Directory.perform directory

/-- What makes the temporary file ready. -/
def prepare (chunks : List (List Byte)) : List (Operation Byte) :=
  .create :: (chunks.map .write ++ [.synchronize])

/-- A whole replacement; its content comes in chunks. -/
def replacement (chunks : List (List Byte)) : List (Operation Byte) :=
  prepare chunks ++ [.replace, .synchronizeDirectory]

/-- What a loss of power leaves: the name stands for one of the files it stood
for since the directory was synchronized, and a file that was not synchronized
can have any content. -/
inductive Directory.LosesPower (directory : Directory Byte) : Directory Byte → Prop where
  | absent (before : none ∈ directory.target :: directory.previous) :
      LosesPower directory { target := none, previous := [], temporary := none }
  | present {file : File Byte} {content : List Byte}
      (before : some file ∈ directory.target :: directory.previous)
      (kept : file.synchronized = true → content = file.content) :
      LosesPower directory {
        target := some { content := content, synchronized := true }
        previous := []
        temporary := none }

inductive Event (Byte : Type) where
  | replaced (chunks : List (List Byte))
  | interrupted (chunks : List (List Byte))
  | lostPower

/-- What happens to the directory. A replacement stops after any number of its
operations, with or without the handler that removes the temporary file. -/
inductive Directory.Step (directory : Directory Byte) : Event Byte → Directory Byte → Prop where
  | replaced (chunks : List (List Byte)) :
      Step directory (.replaced chunks) (directory.execute (replacement chunks))
  | raised (chunks : List (List Byte)) (executed : Nat) :
      Step directory (.interrupted chunks)
        ((directory.execute ((replacement chunks).take executed)).perform .unlink)
  | killed (chunks : List (List Byte)) (executed : Nat) :
      Step directory (.interrupted chunks)
        (directory.execute ((replacement chunks).take executed))
  | lostPower {after : Directory Byte} (lost : directory.LosesPower after) :
      Step directory .lostPower after

inductive Directory.Run (start : Directory Byte) : List (Event Byte) → Directory Byte → Prop where
  | start : Run start [] start
  | step {events : List (Event Byte)} {before after : Directory Byte} {event : Event Byte}
      (run : Run start events before) (step : before.Step event after) :
      Run start (events ++ [event]) after

/-! ### What the name can stand for -/

/-- A finished replacement settles the content; one that was interrupted may
have taken the name or not. -/
def afterEvent (possible : Set (Option (List Byte))) : Event Byte → Set (Option (List Byte))
  | .replaced chunks => {some chunks.flatten}
  | .interrupted chunks => insert (some chunks.flatten) possible
  | .lostPower => possible

/-- The contents that are possible after a run. -/
def contents (initial : Option (List Byte)) (events : List (Event Byte)) :
    Set (Option (List Byte)) :=
  events.foldl afterEvent {initial}

/-- Everything a loss of power can bring back is whole and possible. -/
structure Directory.Within (directory : Directory Byte) (possible : Set (Option (List Byte))) :
    Prop where
  whole : ∀ file, some file ∈ directory.target :: directory.previous → file.synchronized = true
  possible : ∀ entry ∈ directory.target :: directory.previous,
    entry.map File.content ∈ possible

namespace Directory

variable {directory after : Directory Byte} {possible : Set (Option (List Byte))}
  {chunks : List (List Byte)}

@[simp]
theorem execute_nil (directory : Directory Byte) : directory.execute [] = directory :=
  rfl

@[simp]
theorem execute_cons (directory : Directory Byte) (operation : Operation Byte)
    (operations : List (Operation Byte)) :
    directory.execute (operation :: operations) =
      (directory.perform operation).execute operations :=
  rfl

theorem execute_append (directory : Directory Byte) (first second : List (Operation Byte)) :
    directory.execute (first ++ second) = (directory.execute first).execute second :=
  List.foldl_append

/-- The directory stands for the same files. -/
def SameNames (directory after : Directory Byte) : Prop :=
  after.target = directory.target ∧ after.previous = directory.previous

/-- Operations on the temporary file alone leave the name as it is. -/
theorem execute_sameNames {operations : List (Operation Byte)}
    (preparing : ∀ operation ∈ operations,
      operation ≠ .replace ∧ operation ≠ .synchronizeDirectory) :
    directory.SameNames (directory.execute operations) := by
  induction operations generalizing directory with
  | nil => exact ⟨rfl, rfl⟩
  | cons operation rest inductionHypothesis =>
      have later := @inductionHypothesis (directory.perform operation) fun other member =>
        preparing other (List.mem_cons_of_mem _ member)
      have first := preparing operation List.mem_cons_self
      rw [execute_cons]
      cases operation with
      | replace => exact absurd rfl first.1
      | synchronizeDirectory => exact absurd rfl first.2
      | create => exact later
      | write => exact later
      | synchronize => exact later
      | unlink => exact later

theorem prepare_preparing (chunks : List (List Byte)) :
    ∀ operation ∈ prepare chunks, operation ≠ .replace ∧ operation ≠ .synchronizeDirectory := by
  intro operation member
  simp only [prepare, List.mem_cons, List.mem_append, List.mem_map, List.not_mem_nil,
    or_false] at member
  rcases member with rfl | ⟨chunk, -, rfl⟩ | rfl
  · exact ⟨nofun, nofun⟩
  · exact ⟨nofun, nofun⟩
  · exact ⟨nofun, nofun⟩

theorem execute_writes {file : File Byte} (opened : directory.temporary = some file) :
    ∃ written, (directory.execute (chunks.map .write)).temporary = some written ∧
      written.content = file.content ++ chunks.flatten := by
  induction chunks generalizing directory file with
  | nil => exact ⟨file, opened, by simp⟩
  | cons chunk rest inductionHypothesis =>
      have next : (directory.perform (.write chunk)).temporary =
          some { content := file.content ++ chunk, synchronized := false } := by
        simp [perform, opened]
      have ⟨written, isWritten, content⟩ := inductionHypothesis next
      exact ⟨written, isWritten, by rw [content]; simp⟩

/-- The temporary file is whole before it takes the name. -/
theorem execute_prepare (directory : Directory Byte) (chunks : List (List Byte)) :
    (directory.execute (prepare chunks)).temporary =
      some { content := chunks.flatten, synchronized := true } := by
  have opened : (directory.perform .create).temporary =
      some { content := [], synchronized := false } := rfl
  have ⟨written, isWritten, content⟩ : ∃ written,
      ((directory.perform .create).execute (chunks.map .write)).temporary = some written ∧
        written.content = [] ++ chunks.flatten := execute_writes opened
  rw [prepare, execute_cons, execute_append, execute_cons, execute_nil]
  simp only [perform] at isWritten ⊢
  rw [isWritten, Option.map_some, content]
  rfl

/-- After any number of its operations a replacement has left the name as it
was, has taken it, or has also made that durable. -/
theorem take_replacement (directory : Directory Byte) (chunks : List (List Byte))
    (executed : Nat) :
    directory.SameNames (directory.execute ((replacement chunks).take executed)) ∨
      (directory.execute ((replacement chunks).take executed)).target =
          some { content := chunks.flatten, synchronized := true } ∧
        ((directory.execute ((replacement chunks).take executed)).previous =
            directory.target :: directory.previous ∨
          (directory.execute ((replacement chunks).take executed)).previous = []) := by
  have prepared := execute_prepare directory chunks
  have names : directory.SameNames (directory.execute (prepare chunks)) :=
    execute_sameNames (prepare_preparing chunks)
  rw [replacement, List.take_append]
  rcases Nat.lt_or_ge (prepare chunks).length executed with enough | early
  · rw [List.take_of_length_le (by omega), execute_append]
    have ⟨more, isMore⟩ : ∃ more, executed - (prepare chunks).length = more + 1 :=
      ⟨executed - (prepare chunks).length - 1, by omega⟩
    have replaced : (directory.execute (prepare chunks)).perform .replace =
        { target := some { content := chunks.flatten, synchronized := true }
          previous := directory.target :: directory.previous
          temporary := none } := by
      simp only [perform, prepared, names.1, names.2]
    right
    rw [isMore, List.take_succ_cons, execute_cons, replaced]
    cases more with
    | zero => exact ⟨rfl, Or.inl rfl⟩
    | succ =>
        rw [List.take_succ_cons, List.take_nil]
        exact ⟨rfl, Or.inr rfl⟩
  · left
    rw [Nat.sub_eq_zero_of_le early, List.take_zero, List.append_nil]
    exact execute_sameNames fun operation member =>
      prepare_preparing chunks operation (List.mem_of_mem_take member)

theorem execute_replacement (directory : Directory Byte) (chunks : List (List Byte)) :
    directory.execute (replacement chunks) =
      { target := some { content := chunks.flatten, synchronized := true }
        previous := []
        temporary := none } := by
  rw [replacement, execute_append, execute_cons, execute_cons, execute_nil]
  simp only [perform, execute_prepare]

/-! ### What one event and a whole run keep -/

theorem Within.mono {wider : Set (Option (List Byte))} (within : directory.Within possible)
    (subset : possible ⊆ wider) : directory.Within wider :=
  { whole := within.whole
    possible := fun entry member => subset (within.possible entry member) }

theorem Within.sameNames (within : directory.Within possible)
    (same : directory.SameNames after) : after.Within possible := by
  have files : after.target :: after.previous = directory.target :: directory.previous := by
    rw [same.1, same.2]
  constructor
  · rw [files]
    exact within.whole
  · rw [files]
    exact within.possible

theorem Within.interrupted (within : directory.Within possible)
    (chunks : List (List Byte)) (executed : Nat) :
    (directory.execute ((replacement chunks).take executed)).Within
      (insert (some chunks.flatten) possible) := by
  have wider := within.mono (Set.subset_insert (some chunks.flatten) possible)
  rcases take_replacement directory chunks executed with same | ⟨target, previous⟩
  · exact wider.sameNames same
  · -- The name has been taken; what it stood for may come back.
    have earlier : ∀ entry ∈ (directory.execute ((replacement chunks).take executed)).previous,
        entry ∈ directory.target :: directory.previous := by
      intro entry member
      rcases previous with kept | durable
      · rwa [kept] at member
      · rw [durable] at member
        exact absurd member List.not_mem_nil
    constructor
    · intro file member
      rw [target] at member
      rcases List.mem_cons.mp member with isNew | isEarlier
      · injection isNew with same
        rw [same]
      · exact within.whole file (earlier _ isEarlier)
    · intro entry member
      rw [target] at member
      rcases List.mem_cons.mp member with isNew | isEarlier
      · rw [isNew]
        exact Set.mem_insert _ _
      · exact wider.possible entry (earlier _ isEarlier)

theorem Within.lostPower (within : directory.Within possible)
    (lost : directory.LosesPower after) : after.Within possible := by
  cases lost with
  | absent before =>
      constructor
      · simp
      · intro entry member
        rw [List.mem_singleton.mp member]
        exact within.possible none before
  | @present file content before kept =>
      have whole := kept (within.whole file before)
      constructor
      · intro other member
        injection List.mem_singleton.mp member with same
        rw [same]
      · intro entry member
        rw [List.mem_singleton.mp member, whole]
        exact within.possible (some file) before

theorem Within.step {event : Event Byte} (within : directory.Within possible)
    (step : directory.Step event after) : after.Within (afterEvent possible event) := by
  cases step with
  | replaced chunks =>
      rw [execute_replacement]
      constructor
      · intro file member
        injection List.mem_singleton.mp member with same
        rw [same]
      · intro entry member
        rw [List.mem_singleton.mp member]
        rfl
  | raised chunks executed =>
      exact (within.interrupted chunks executed).sameNames ⟨rfl, rfl⟩
  | killed chunks executed => exact within.interrupted chunks executed
  | lostPower lost => exact within.lostPower lost

/-- Whatever interrupts the replacements, the name stands for a whole content:
that of the last finished one or of one that was interrupted after it. -/
theorem Run.within {start finish : Directory Byte} {events : List (Event Byte)}
    {initial : Option (List Byte)} (run : start.Run events finish)
    (within : start.Within {initial}) : finish.Within (contents initial events) := by
  induction run with
  | start => exact within
  | step run step inductionHypothesis =>
      rw [contents, List.foldl_append]
      exact inductionHypothesis.step step

end Directory

def Event.chunks : Event Byte → Option (List (List Byte))
  | .replaced chunks => some chunks
  | .interrupted chunks => some chunks
  | .lostPower => none

/-- The replacement is finished. -/
def Event.finishes : Event Byte → Bool
  | .replaced _ => true
  | .interrupted _ => false
  | .lostPower => false

/-- A possible content is the initial one, or that of a replacement after which
none was finished. -/
theorem mem_contents {initial content : Option (List Byte)} {events : List (Event Byte)}
    (possible : content ∈ contents initial events) :
    (content = initial ∧ ∀ event ∈ events, event.finishes = false) ∨
      ∃ earlier event later chunks, events = earlier ++ event :: later ∧
        event.chunks = some chunks ∧ content = some chunks.flatten ∧
        ∀ other ∈ later, other.finishes = false := by
  induction events using List.reverseRecOn with
  | nil => exact Or.inl ⟨possible, by simp⟩
  | append_singleton rest event inductionHypothesis =>
      rw [contents, List.foldl_append] at possible
      -- What was possible before stays so unless the event finishes a replacement.
      have keep (unfinished : event.finishes = false) (before : content ∈ contents initial rest) :
          (content = initial ∧ ∀ other ∈ rest ++ [event], other.finishes = false) ∨
            ∃ earlier first later chunks, rest ++ [event] = earlier ++ first :: later ∧
              first.chunks = some chunks ∧ content = some chunks.flatten ∧
              ∀ other ∈ later, other.finishes = false := by
        rcases inductionHypothesis before with ⟨same, none⟩ | ⟨earlier, first, later, chunks,
          split, isChunks, isContent, after⟩
        · refine Or.inl ⟨same, fun other member => ?_⟩
          rcases List.mem_append.mp member with isRest | isEvent
          · exact none other isRest
          · rw [List.mem_singleton.mp isEvent]
            exact unfinished
        · refine Or.inr ⟨earlier, first, later ++ [event], chunks, by rw [split]; simp,
            isChunks, isContent, fun other member => ?_⟩
          rcases List.mem_append.mp member with isLater | isEvent
          · exact after other isLater
          · rw [List.mem_singleton.mp isEvent]
            exact unfinished
      cases event with
      | replaced chunks => exact Or.inr ⟨rest, _, [], chunks, rfl, rfl, possible, by simp⟩
      | interrupted chunks =>
          rcases possible with isNew | earlier
          · exact Or.inr ⟨rest, _, [], chunks, rfl, rfl, isNew, by simp⟩
          · exact keep rfl earlier
      | lostPower => exact keep rfl possible

/-- A directory that is synchronized, with no replacement running. -/
def Directory.settled (initial : Option (List Byte)) : Directory Byte where
  target := initial.map fun content => { content := content, synchronized := true }
  previous := []
  temporary := none

theorem Directory.settled_within (initial : Option (List Byte)) :
    (settled initial).Within {initial} := by
  constructor
  · intro file member
    have isTarget := List.mem_singleton.mp member
    cases initial with
    | none => cases isTarget
    | some content =>
        injection isTarget with same
        rw [same]
  · intro entry member
    rw [List.mem_singleton.mp member]
    cases initial with
    | none => rfl
    | some content => rfl

end BubllioCrm.Foundations.AtomicReplace
