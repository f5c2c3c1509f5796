import BubllioCrm.Companies.Migrations

/-!
Owns what every transaction on companies knows of the counter, carried through
the statements, blocks and commits of all of them: the counter covers the codes
that are stored, and a generated code has a number that was never committed.
-/

namespace BubllioCrm.Companies.Numbering

open BubllioCrm.Foundations

/-- What a level of a transaction has written. -/
structure Draft.Sound (counter : Option Nat) (draft : Draft) : Prop where
  locked : draft.counter ≠ none → Row.counter ∈ draft.held
  grows : Grows counter (draft.counter.or counter)
  covers : ∀ company, .put company ∈ draft.changes →
    Covers (draft.counter.or counter) company.customerCode
  fresh : ∀ code ∈ draft.generated, draft.counter ≠ none ∧
    ∃ number ∈ codeNumber code, ∀ last ∈ counter, last < number

/-- What a call knows where its next statement comes. -/
def Phase.Sound (counter : Option Nat) (draft : Draft) : Phase → Prop
  | .number _ => draft.counter.or counter ≠ none
  | .refresh _ => ∃ number ∈ draft.counter, ∀ last ∈ counter, last < number
  | .store saving => Covers (draft.counter.or counter) saving.company.customerCode
  | _ => True

structure Session.Sound (counter : Option Nat) (locks : Locks Row) (index : Nat)
    (session : Session) : Prop where
  drafts : session.blocks.All (Draft.Sound counter)
  held : session.blocks.All fun draft => ∀ row ∈ draft.held, locks row = some index
  nested : session.blocks.Nested fun outer inner => outer.held ⊆ inner.held
  phase : session.phase.Sound counter session.blocks.draft

structure Registry.Sound (registry : Registry) : Prop where
  covers : ∀ company ∈ registry.companies, Covers registry.counter company.customerCode
  sessions : ∀ index, (registry.sessions index).Sound registry.counter registry.locks index

variable {registry : Registry} {counter after : Option Nat} {locks later : Locks Row}
  {index other value : Nat} {draft next : Draft} {phase nextPhase : Phase} {saving : Saving}
  {session : Session} {blocks : Blocks Draft} {row : Company} {stored : Option Company}

theorem grows_seen (grows : Grows counter after) :
    Grows (draft.counter.or counter) (draft.counter.or after) := by
  cases draft.counter with
  | none => exact grows
  | some last => exact Grows.refl (some last)

/-! ### Statements -/

theorem Draft.Sound.empty : ({} : Draft).Sound counter where
  locked isWritten := absurd rfl isWritten
  grows := Grows.refl counter
  covers _ member := absurd member List.not_mem_nil
  fresh := List.forall_mem_nil _

theorem Draft.Sound.raise (sound : draft.Sound counter)
    (higher : Grows (draft.counter.or counter) (some value)) :
    ({ draft with counter := some value, held := .counter :: draft.held } : Draft).Sound
      counter where
  locked _ := List.mem_cons_self
  grows := sound.grows.trans higher
  covers company member := (sound.covers company member).grow higher
  fresh code member := ⟨Option.some_ne_none value, (sound.fresh code member).2⟩

theorem Draft.Sound.write (sound : draft.Sound counter) {change : Change} {rows : List Row}
    (covers : ∀ company, change = .put company →
      Covers (draft.counter.or counter) company.customerCode) :
    ({ draft with changes := draft.changes ++ [change], held := rows ++ draft.held } :
      Draft).Sound counter where
  locked isWritten := List.mem_append_right rows (sound.locked isWritten)
  grows := sound.grows
  covers company member := by
    rcases List.mem_append.mp member with old | new
    · exact sound.covers company old
    · exact covers company (List.mem_singleton.mp new).symm
  fresh := sound.fresh

theorem Draft.Sound.generate (sound : draft.Sound counter) {code : String}
    (isWritten : draft.counter ≠ none)
    (fresh : ∃ number ∈ codeNumber code, ∀ last ∈ counter, last < number) :
    ({ draft with generated := draft.generated ++ [code] } : Draft).Sound counter where
  locked := sound.locked
  grows := sound.grows
  covers := sound.covers
  fresh generated member := by
    rcases List.mem_append.mp member with old | new
    · exact sound.fresh generated old
    · rw [List.mem_singleton.mp new]
      exact ⟨isWritten, fresh⟩

/-- A statement has gone on with writes and with locks that it was granted. -/
structure Advance (registry : Registry) (index : Nat) (draft next : Draft) (phase : Phase) :
    Prop where
  sound : next.Sound registry.counter
  held : draft.held ⊆ next.held
  granted : ∀ row ∈ next.held, row ∈ draft.held ∨ registry.locks.Grants index row
  phase : phase.Sound registry.counter next

theorem Draft.Sound.skip (sound : draft.Sound registry.counter)
    (isPhase : phase.Sound registry.counter draft) :
    Advance registry index draft draft phase :=
  ⟨sound, List.Subset.refl _, fun _ member => Or.inl member, isPhase⟩

theorem Draft.Sound.writeCounter (sound : draft.Sound registry.counter)
    (higher : Grows (draft.counter.or registry.counter) (some value))
    (isPhase : ∀ draft : Draft, draft.counter = some value →
      phase.Sound registry.counter draft)
    (goesOn : registry.writeCounter index value draft phase = .goesOn next nextPhase) :
    Advance registry index draft next nextPhase := by
  unfold Registry.writeCounter at goesOn
  split_ifs at goesOn with grants
  cases goesOn
  refine ⟨sound.raise higher, List.subset_cons_self _ _, ?_, isPhase _ rfl⟩
  intro needed member
  rcases List.mem_cons.mp member with isCounter | old
  · rw [isCounter]
    exact Or.inr grants
  · exact Or.inl old

theorem Draft.Sound.getOrCreate (sound : draft.Sound registry.counter)
    (goesOn : registry.getOrCreate index draft saving = .goesOn next nextPhase) :
    Advance registry index draft next nextPhase := by
  unfold Registry.getOrCreate at goesOn
  cases seen : registry.counterSeen draft with
  | none =>
      rw [seen] at goesOn
      apply sound.writeCounter _ _ goesOn
      · have nothing : draft.counter.or registry.counter = none := seen
        rw [nothing]
        exact grows_none _
      · intro written isWritten
        simp [Phase.Sound, isWritten]
  | some last =>
      rw [seen] at goesOn
      cases goesOn
      apply sound.skip
      have isSeen : draft.counter.or registry.counter = some last := seen
      simp [Phase.Sound, isSeen]

theorem Draft.Sound.number (sound : draft.Sound registry.counter)
    (isThere : draft.counter.or registry.counter ≠ none)
    (goesOn : registry.number index draft saving = .goesOn next nextPhase) :
    Advance registry index draft next nextPhase := by
  obtain ⟨last, isLast⟩ := Option.ne_none_iff_exists'.mp isThere
  have seen : registry.counterSeen draft = some last := isLast
  unfold Registry.number at goesOn
  rw [seen] at goesOn
  by_cases isEmpty : saving.company.customerCode = ""
  · -- the increment
    rw [if_pos isEmpty] at goesOn
    dsimp only at goesOn
    split_ifs at goesOn
    apply sound.writeCounter _ _ goesOn
    · rw [isLast]
      exact grows_some (Nat.le_succ last)
    · intro written isWritten
      refine ⟨last + 1, isWritten, fun committed isCommitted => ?_⟩
      obtain ⟨above, isAbove, below⟩ := sound.grows committed isCommitted
      rw [isLast] at isAbove
      rw [← Option.some.inj isAbove] at below
      exact Nat.lt_succ_of_le below
  · rw [if_neg isEmpty] at goesOn
    cases isDigits : codeDigits saving.company.customerCode with
    | none =>
        rw [isDigits] at goesOn
        cases goesOn
        exact sound.skip (covers_of_codeDigits_eq_none isDigits)
    | some digits =>
        rw [isDigits] at goesOn
        dsimp only at goesOn
        cases isNumber : digitsInt digits with
        | none =>
            rw [isNumber] at goesOn
            cases goesOn
        | some number =>
            rw [isNumber] at goesOn
            dsimp only at goesOn
            have carries := codeNumber_eq_of_digitsInt isDigits isNumber
            split_ifs at goesOn with _ behind
            · apply sound.writeCounter _ _ goesOn
              · rw [isLast]
                exact grows_some (Nat.le_of_lt behind)
              · intro written isWritten
                show Covers (written.counter.or registry.counter) saving.company.customerCode
                rw [isWritten]
                exact covers_some carries (Nat.le_refl number)
            · cases goesOn
              apply sound.skip
              show Covers (draft.counter.or registry.counter) saving.company.customerCode
              rw [isLast]
              exact covers_some carries (Nat.le_of_not_lt behind)

theorem Draft.Sound.refresh (sound : draft.Sound registry.counter)
    (isPhase : (Phase.refresh saving).Sound registry.counter draft)
    (goesOn : registry.refresh draft saving = .goesOn next nextPhase) :
    Advance registry index draft next nextPhase := by
  obtain ⟨number, isNumber, above⟩ := isPhase
  have written : draft.counter = some number := isNumber
  have seen : registry.counterSeen draft = some number := by
    rw [Registry.counterSeen, written, Option.some_or]
  unfold Registry.refresh at goesOn
  rw [seen] at goesOn
  cases goesOn
  refine ⟨sound.generate (by simp [written]) ⟨number, codeNumber_formatCode number, above⟩,
    List.Subset.refl _, fun _ member => Or.inl member, ?_⟩
  show Covers (draft.counter.or registry.counter) (formatCode number)
  rw [written]
  exact covers_some (codeNumber_formatCode number) (Nat.le_refl number)

theorem Draft.Sound.place (sound : draft.Sound registry.counter)
    (covers : Covers (draft.counter.or registry.counter) row.customerCode)
    (goesOn : registry.place index draft row stored = .goesOn next nextPhase) :
    Advance registry index draft next nextPhase := by
  unfold Registry.place at goesOn
  split_ifs at goesOn with _ waiting
  cases goesOn
  refine ⟨sound.write fun company isRow => ?_, List.subset_append_right _ _, ?_, trivial⟩
  · rw [← Change.put.inj isRow]
    exact covers
  · intro needed member
    rcases List.mem_append.mp member with new | old
    · right
      by_contra refused
      exact waiting ⟨needed, new, refused⟩
    · exact Or.inl old

/-- The codes that a transaction sees are covered by the counter that it sees. -/
theorem Draft.Sound.seen (sound : draft.Sound registry.counter)
    (covers : ∀ company ∈ registry.companies, Covers registry.counter company.customerCode) :
    ∀ company ∈ registry.companiesSeen draft,
      Covers (draft.counter.or registry.counter) company.customerCode := by
  intro company member
  rcases mem_applyAll member with written | ⟨committed, -⟩
  · exact sound.covers company written
  · exact (covers company committed).grow sound.grows

theorem covers_onto {company original : Company} {updateFields : Option (List Column)}
    (isNew : Covers counter company.customerCode) (isOld : Covers counter original.customerCode) :
    Covers counter (company.onto updateFields original).customerCode := by
  cases updateFields with
  | none => exact isNew
  | some columns =>
      have isCode : (company.onto (some columns) original).customerCode =
          if .customerCode ∈ columns then company.customerCode else original.customerCode := rfl
      rw [isCode]
      split_ifs
      · exact isNew
      · exact isOld

theorem Draft.Sound.store (sound : draft.Sound registry.counter)
    (committed : ∀ company ∈ registry.companies, Covers registry.counter company.customerCode)
    (covers : Covers (draft.counter.or registry.counter) saving.company.customerCode)
    (goesOn : registry.store index draft saving = .goesOn next nextPhase) :
    Advance registry index draft next nextPhase := by
  unfold Registry.store at goesOn
  by_cases noFields : saving.updateFields = some []
  · rw [if_pos noFields] at goesOn
    cases goesOn
    exact sound.skip trivial
  · rw [if_neg noFields] at goesOn
    by_cases adding : saving.adding = true
    · rw [if_pos adding] at goesOn
      exact sound.place covers goesOn
    · rw [if_neg adding] at goesOn
      cases found : (registry.companiesSeen draft).find? (·.id = saving.company.id) with
      | none =>
          rw [found] at goesOn
          dsimp only at goesOn
          split_ifs at goesOn
          exact sound.place covers goesOn
      | some original =>
          rw [found] at goesOn
          have original := sound.seen committed original (List.mem_of_find?_eq_some found)
          exact sound.place (covers_onto covers original) goesOn

theorem Registry.Sound.execute (sound : registry.Sound)
    (goesOn : registry.execute index (registry.sessions index).blocks.draft
      (registry.sessions index).phase = .goesOn next nextPhase) :
    Advance registry index (registry.sessions index).blocks.draft next nextPhase := by
  have draft := (sound.sessions index).drafts.current
  have isPhase := (sound.sessions index).phase
  cases phase : (registry.sessions index).phase with
  | idle =>
      rw [phase] at goesOn
      cases goesOn
  | getOrCreate saving =>
      rw [phase] at goesOn
      exact draft.getOrCreate goesOn
  | number saving =>
      rw [phase] at goesOn isPhase
      exact draft.number isPhase goesOn
  | refresh saving =>
      rw [phase] at goesOn isPhase
      exact draft.refresh isPhase goesOn
  | store saving =>
      rw [phase] at goesOn isPhase
      exact draft.store sound.covers isPhase goesOn
  | stored =>
      rw [phase] at goesOn
      cases goesOn

/-! ### While others commit -/

/-- Only the transaction that holds the counter can have it changed. -/
theorem Draft.Sound.frame (sound : draft.Sound counter) (grows : Grows counter after)
    (kept : draft.counter ≠ none → after = counter) : draft.Sound after where
  locked := sound.locked
  grows := by
    cases isWritten : draft.counter with
    | none => exact Grows.refl after
    | some last =>
        have same : after = counter := kept (by simp [isWritten])
        have below := sound.grows
        rwa [isWritten, ← same] at below
  covers company member := (sound.covers company member).grow (grows_seen grows)
  fresh code member := by
    obtain ⟨isWritten, fresh⟩ := sound.fresh code member
    rw [kept isWritten]
    exact ⟨isWritten, fresh⟩

theorem Phase.Sound.frame (sound : phase.Sound counter draft) (grows : Grows counter after)
    (kept : draft.counter ≠ none → after = counter) : phase.Sound after draft := by
  cases phase with
  | number saving =>
      obtain ⟨last, isLast⟩ := Option.ne_none_iff_exists'.mp sound
      obtain ⟨above, isAbove, -⟩ := grows_seen grows last isLast
      exact Option.ne_none_iff_exists'.mpr ⟨above, isAbove⟩
  | refresh saving =>
      obtain ⟨number, isNumber, above⟩ := sound
      have isWritten : draft.counter = some number := isNumber
      rw [kept (by simp [isWritten])]
      exact ⟨number, isNumber, above⟩
  | store saving =>
      have covers : Covers (draft.counter.or counter) saving.company.customerCode := sound
      exact covers.grow (grows_seen grows)
  | _ => trivial

theorem Session.Sound.frame (sound : session.Sound counter locks other)
    (grows : Grows counter after) (kept : locks .counter = some other → after = counter)
    (keeps : ∀ row, locks row = some other → later row = some other) :
    session.Sound after later other := by
  have unchanged : ∀ draft ∈ session.blocks.draft :: session.blocks.saved,
      draft.counter ≠ none → after = counter := by
    intro draft member isWritten
    exact kept (sound.held draft member _ ((sound.drafts draft member).locked isWritten))
  refine ⟨fun draft member => ?_, fun draft member row isHeld => ?_, sound.nested, ?_⟩
  · exact (sound.drafts draft member).frame grows (unchanged draft member)
  · exact keeps row (sound.held draft member row isHeld)
  · exact sound.phase.frame grows (unchanged _ List.mem_cons_self)

/-- A session goes on, and the others keep their locks. -/
theorem Registry.Sound.become (sound : registry.Sound)
    (isSession : session.Sound registry.counter later index)
    (keeps : ∀ other, other ≠ index → ∀ row, registry.locks row = some other →
      later row = some other) :
    ({ registry.become index session with locks := later } : Registry).Sound where
  covers := sound.covers
  sessions other := by
    show Session.Sound registry.counter later other
      (Function.update registry.sessions index session other)
    by_cases same : other = index
    · rw [same, Function.update_self]
      exact isSession
    · rw [Function.update_of_ne same]
      exact (sound.sessions other).frame (Grows.refl _) (fun _ => rfl) (keeps other same)

/-! ### Blocks -/

theorem Session.Sound.start : ({} : Session).Sound counter locks index where
  drafts draft member := by
    rw [List.mem_singleton.mp member]
    exact Draft.Sound.empty
  held draft member := by
    rw [List.mem_singleton.mp member]
    exact List.forall_mem_nil _
  nested := List.pairwise_singleton _ _
  phase := trivial

theorem Session.Sound.enter (sound : session.Sound counter locks index)
    (isPhase : phase.Sound counter session.blocks.draft) :
    Session.Sound counter locks index ⟨session.blocks.enter, phase⟩ :=
  ⟨sound.drafts.enter, sound.held.enter, sound.nested.enter (List.Subset.refl _), isPhase⟩

theorem Session.Sound.leave (sound : session.Sound counter locks index) :
    Session.Sound counter locks index ⟨session.blocks.leave, .idle⟩ :=
  ⟨sound.drafts.leave, sound.held.leave, sound.nested.leave, trivial⟩

theorem Registry.Sound.abort (sound : registry.Sound) :
    (registry.abort index (registry.sessions index).blocks).Sound := by
  have isSession := sound.sessions index
  have nested := isSession.nested.abort
  refine sound.become ⟨isSession.drafts.abort, ?_, nested, trivial⟩ ?_
  · intro draft member row isHeld
    have current : row ∈ (registry.sessions index).blocks.abort.draft.held := by
      rcases List.mem_cons.mp member with isDraft | older
      · rw [← isDraft]
        exact isHeld
      · exact List.rel_of_pairwise_cons nested older isHeld
    rw [Locks.retain_of_mem current]
    exact isSession.held.abort draft member row isHeld
  · intro other differs row isHeld
    exact Locks.retain_of_held differs isHeld

theorem Registry.Sound.advance (sound : registry.Sound)
    (advance : Advance registry index (registry.sessions index).blocks.draft next phase) :
    (registry.settle index (registry.sessions index).blocks (.goesOn next phase)).Sound := by
  have isSession := sound.sessions index
  refine sound.become ⟨isSession.drafts.write advance.sound, ?_, ?_, advance.phase⟩ ?_
  · intro draft member row isHeld
    apply Locks.acquire_of_mem
    rcases List.mem_cons.mp member with isDraft | older
    · have isNext : draft = next := isDraft
      rwa [isNext] at isHeld
    · exact advance.held (List.rel_of_pairwise_cons isSession.nested older isHeld)
  · exact isSession.nested.write fun _ within => List.Subset.trans within advance.held
  · intro other differs row isHeld
    apply Locks.acquire_of_held _ isHeld
    intro needed member
    rcases advance.granted needed member with old | new
    · exact Or.inr (isSession.held.current needed old)
    · exact new

theorem Registry.Sound.leave (sound : registry.Sound) :
    (registry.leave index (registry.sessions index).blocks).Sound ∧
      Grows registry.counter (registry.leave index (registry.sessions index).blocks).counter := by
  have isSession := sound.sessions index
  have isDraft := isSession.drafts.current
  unfold Registry.leave
  split
  · exact ⟨sound, Grows.refl _⟩
  · -- the commit
    refine ⟨⟨isDraft.seen sound.covers, fun other => ?_⟩, isDraft.grows⟩
    dsimp only
    by_cases same : other = index
    · rw [same, Function.update_self]
      exact Session.Sound.start
    · rw [Function.update_of_ne same]
      apply (sound.sessions other).frame isDraft.grows
      · intro isOther
        by_cases isWritten : (registry.sessions index).blocks.draft.counter = none
        · rw [isWritten, Option.none_or]
        · have isIndex := isSession.held.current _ (isDraft.locked isWritten)
          rw [isOther] at isIndex
          exact absurd (Option.some.inj isIndex) same
      · intro row isHeld
        exact Locks.release_of_held same isHeld
  · exact ⟨sound.become isSession.leave fun _ _ _ isHeld => isHeld, Grows.refl _⟩

theorem Registry.Sound.delete (sound : registry.Sound) (id : Nat) :
    (registry.delete index (registry.sessions index).blocks id).Sound := by
  unfold Registry.delete
  split
  · exact sound
  · dsimp only
    split_ifs with waiting
    · exact sound
    · apply sound.advance
      have isDraft := (sound.sessions index).drafts.current
      refine ⟨isDraft.write ?_, List.subset_append_right _ _, ?_, trivial⟩
      · intro _ isRow
        cases isRow
      · intro needed member
        rcases List.mem_append.mp member with new | old
        · right
          by_contra refused
          exact waiting ⟨needed, new, refused⟩
        · exact Or.inl old

/-! ### Steps -/

theorem Registry.counter_settle (outcome : Outcome) :
    (registry.settle index blocks outcome).counter = registry.counter := by
  cases outcome <;> rfl

theorem Registry.counter_delete (id : Nat) :
    (registry.delete index blocks id).counter = registry.counter := by
  unfold Registry.delete
  split
  · rfl
  · dsimp only
    split_ifs
    · rfl
    · exact Registry.counter_settle _

theorem Registry.Sound.step (sound : registry.Sound) (action : Action) :
    (registry.step action).Sound ∧ Grows registry.counter (registry.step action).counter := by
  cases action with
  | enter index =>
      simp only [Registry.step]
      split
      · exact ⟨sound.become ((sound.sessions index).enter trivial) fun _ _ _ isHeld => isHeld,
          Grows.refl _⟩
      · exact ⟨sound, Grows.refl _⟩
  | save index saving =>
      simp only [Registry.step]
      split
      · exact ⟨sound.become ((sound.sessions index).enter trivial) fun _ _ _ isHeld => isHeld,
          Grows.refl _⟩
      · exact ⟨sound, Grows.refl _⟩
  | execute index =>
      simp only [Registry.step]
      rw [Registry.counter_settle]
      refine ⟨?_, Grows.refl _⟩
      cases outcome : registry.execute index (registry.sessions index).blocks.draft
        (registry.sessions index).phase with
      | waits => exact sound
      | raises failure => exact sound.abort
      | goesOn next phase => exact sound.advance (sound.execute outcome)
  | delete index id =>
      simp only [Registry.step]
      split
      · rw [Registry.counter_delete]
        exact ⟨sound.delete id, Grows.refl _⟩
      · exact ⟨sound, Grows.refl _⟩
  | leave index =>
      simp only [Registry.step]
      split
      · exact sound.leave
      · exact sound.leave
      · exact ⟨sound, Grows.refl _⟩
  | raise index => exact ⟨sound.abort, Grows.refl _⟩

theorem Registry.Sound.run (sound : registry.Sound) (actions : List Action) :
    (run Registry.step registry actions).Sound ∧
      Grows registry.counter (run Registry.step registry actions).counter := by
  induction actions generalizing registry with
  | nil => exact ⟨sound, Grows.refl _⟩
  | cons action rest inductionHypothesis =>
      obtain ⟨next, grows⟩ := sound.step action
      obtain ⟨last, later⟩ := inductionHypothesis next
      exact ⟨last, grows.trans later⟩

theorem sound_afterMigration {rows : List LegacyCompany} {organization : Nat}
    (isLeft : afterMigration rows organization = .ok registry) : registry.Sound := by
  unfold afterMigration at isLeft
  cases seeded : seedCounters rows with
  | error failure =>
      rw [seeded] at isLeft
      cases isLeft
  | ok counters =>
      rw [seeded] at isLeft
      cases isLeft
      refine ⟨fun company member => ?_, fun index => Session.Sound.start⟩
      obtain ⟨row, found, isCompany⟩ := List.mem_map.mp member
      obtain ⟨stored, inside⟩ := List.mem_filter.mp found
      have covers := seedCounters_covers seeded row stored
      rwa [of_decide_eq_true inside, isCompany] at covers

/-- Whatever order transactions save, delete, commit and roll back in, starting
with no company or where the migration has left the workspace, the counter is at
least the number of every stored code, and a code that a transaction has
generated is none of those that were stored at the start or committed since. -/
theorem codes_never_reused {start : Registry}
    (opening : start = {} ∨ ∃ rows organization, afterMigration rows organization = .ok start)
    (earlier later : List Action) :
    let past := run Registry.step start earlier
    let current := run Registry.step past later
    (∀ company ∈ current.companies, ∀ number ∈ codeNumber company.customerCode,
      ∃ last ∈ current.counter, number ≤ last) ∧
    ∀ index, ∀ code ∈ (current.sessions index).blocks.draft.generated,
      ∀ company ∈ past.companies, company.customerCode ≠ code := by
  intro past current
  have isStart : start.Sound := by
    rcases opening with rfl | ⟨rows, organization, isLeft⟩
    · exact ⟨List.forall_mem_nil _, fun index => Session.Sound.start⟩
    · exact sound_afterMigration isLeft
  have isPast : past.Sound := (isStart.run earlier).1
  obtain ⟨isCurrent, grows⟩ := isPast.run later
  refine ⟨isCurrent.covers, fun index code generated company stored same => ?_⟩
  -- the number of the code is above the counter, which was above that of the stored code
  obtain ⟨-, number, carries, above⟩ :=
    (isCurrent.sessions index).drafts.current.fresh code generated
  rw [← same] at carries
  obtain ⟨last, isLast, below⟩ := (isPast.covers company stored).grow grows number carries
  have higher : last < number := above last isLast
  omega

/-- A company that the migration has found is deleted, and the next code goes on
after its code. -/
theorem codes_never_reused_deleted :
    let start : Registry :=
      { companies := [{ id := 7, customerCode := "CUS-00120" }], counter := some 120 }
    let actions : List Action := [
      .enter 0, .delete 0 7, .leave 0,
      .save 1 { company := { id := 8 }, adding := true }, .execute 1, .execute 1, .execute 1]
    let current := run Registry.step start actions
    current.companies = [] ∧ (current.sessions 1).blocks.draft.generated = ["CUS-00121"] ∧
      ∀ company ∈ start.companies, company.customerCode ≠ "CUS-00121" := by
  intro start actions current
  have seeded : seedCounters [⟨1, { id := 7, customerCode := "CUS-00120" }⟩] = .ok [(1, 120)] := by
    decide +kernel
  have opening :
      afterMigration [⟨1, { id := 7, customerCode := "CUS-00120" }⟩] 1 = .ok start := by
    unfold afterMigration
    rw [seeded]
    rfl
  have generated : "CUS-00121" ∈
      ((run Registry.step start actions).sessions 1).blocks.draft.generated := by
    decide +kernel
  have deleted : current.companies = [] := by decide +kernel
  have isGenerated : (current.sessions 1).blocks.draft.generated = ["CUS-00121"] := by
    decide +kernel
  have never := (codes_never_reused (Or.inr ⟨_, 1, opening⟩) [] actions).2
  rw [run_nil] at never
  exact ⟨deleted, isGenerated, never 1 "CUS-00121" generated⟩

end BubllioCrm.Companies.Numbering
