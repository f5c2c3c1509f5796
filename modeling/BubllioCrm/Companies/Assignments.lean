import BubllioCrm.Companies.Services
import BubllioCrm.Foundations.Execution

/-!
Owns what the transactions on companies and memberships know behind their locks,
and that companies are only assigned to members: an assignment pins the
membership of the user until it commits, and a removal has all companies of the
user locked when it deletes the membership.
-/

namespace BubllioCrm.Companies.Services

open BubllioCrm.Foundations
open Access (Membership Role)

/-- Every company is assigned to a member, if to anyone. -/
def Workspace.Assigned (workspace : Workspace) : Prop :=
  ∀ company ∈ workspace.companies, ∀ user ∈ company.assignedTo,
    ∃ membership ∈ workspace.memberships, membership.user = user

instance : DecidablePred Workspace.Assigned :=
  fun workspace => inferInstanceAs (Decidable (∀ company ∈ workspace.companies, _))

/-- The keys of the tables. -/
structure Workspace.Keyed (workspace : Workspace) : Prop where
  companies : (workspace.companies.map Company.id).Nodup
  memberships : (workspace.memberships.map Membership.id).Nodup
  users : (workspace.memberships.map Membership.user).Nodup

/-- The user is a member, and a transaction holds the membership. -/
def Pinned (workspace : Workspace) (index user : Nat) : Prop :=
  ∃ membership ∈ workspace.memberships, membership.user = user ∧
    workspace.locks (.membership membership.id) = some index

/-- A row that a transaction writes is assigned to a user that it has pinned, or
to the one it was assigned to. -/
def Assignable (workspace : Workspace) (index : Nat) (company : Company) : Prop :=
  ∀ user ∈ company.assignedTo, Pinned workspace index user ∨
    ∃ stored ∈ workspace.companies, stored.id = company.id ∧ stored.assignedTo = some user

structure Draft.Sound (workspace : Workspace) (index : Nat) (draft : Draft) : Prop where
  locked : ∀ change ∈ draft.changes, workspace.locks (.company change.id) = some index
  assignable : ∀ company, .put company ∈ draft.changes → Assignable workspace index company

/-- A removal holds its target, and assigns nothing to anyone. -/
structure Removal (workspace : Workspace) (index : Nat) (draft : Draft) (target : Membership) :
    Prop where
  stored : target ∈ workspace.memberships
  locked : workspace.locks (.membership target.id) = some index
  clears : ∀ company, .put company ∈ draft.changes → company.assignedTo = none

/-- The companies of a user are those of `ids` and those that are written. -/
def Covered (workspace : Workspace) (draft : Draft) (user : Nat) (ids : List Nat) : Prop :=
  ∀ row ∈ workspace.companies, row.assignedTo = some user →
    row.id ∈ ids ∨ ∃ change ∈ draft.changes, change.id = row.id

def Held (workspace : Workspace) (index : Nat) (companies : List Company) : Prop :=
  ∀ company ∈ companies, workspace.locks (.company company.id) = some index

/-- What a transaction knows where its next statement comes. -/
def Phase.Sound (workspace : Workspace) (index : Nat) (draft : Draft) : Phase → Prop
  | .idle => True
  | .lockAssignee request user => draft.changes = [] ∧ request.assignee = some user
  | .insert company => ∀ user ∈ company.assignedTo, Pinned workspace index user
  | .lockCompany request _ => ∀ user ∈ request.assignee, Pinned workspace index user
  | .save company _ =>
      workspace.locks (.company company.id) = some index ∧ Assignable workspace index company
  | .drop id => workspace.locks (.company id) = some index
  | .lockTarget _ _ => draft.changes = []
  | .query target => Removal workspace index draft target
  | .lockRows target ids found =>
      Removal workspace index draft target ∧ Held workspace index found ∧
        Covered workspace draft target.user (ids ++ found.map Company.id)
  | .unassign target companies =>
      Removal workspace index draft target ∧ Held workspace index companies ∧
        Covered workspace draft target.user (companies.map Company.id)
  | .deleteTarget target =>
      Removal workspace index draft target ∧ Covered workspace draft target.user []
  | .commit => ∀ target ∈ draft.removed,
      Removal workspace index draft target ∧ Covered workspace draft target.user []

structure Call.Sound (workspace : Workspace) (index : Nat) (call : Call) : Prop where
  draft : call.draft.Sound workspace index
  phase : call.phase.Sound workspace index call.draft
  /-- The membership is deleted last. -/
  removed : call.phase ≠ .commit → call.draft.removed = none

structure Workspace.Sound (workspace : Workspace) : Prop where
  keyed : workspace.Keyed
  assigned : workspace.Assigned
  calls : ∀ index, (workspace.calls index).Sound workspace index

variable {workspace after : Workspace} {index other user id : Nat} {draft next : Draft}
  {phase nextPhase : Phase} {request : Request} {target membership : Membership} {role : Role}
  {company stored : Company} {companies found : List Company} {ids : List Nat} {call : Call}
  {change : Change} {row : Row} {rows : List Row}

/-! ### While others commit -/

/-- What a step leaves of the rows that a transaction has locked. A company that
gets assigned to another user goes to one whom the transaction has not pinned. -/
structure Kept (before after : Workspace) (index : Nat) : Prop where
  memberships : ∀ membership ∈ before.memberships,
    before.locks (.membership membership.id) = some index → membership ∈ after.memberships
  companies : ∀ company ∈ before.companies,
    before.locks (.company company.id) = some index → company ∈ after.companies
  locks : ∀ row, before.locks row = some index → after.locks row = some index
  assigned : ∀ company ∈ after.companies, ∀ user ∈ company.assignedTo,
    (∃ stored ∈ before.companies, stored.id = company.id ∧ stored.assignedTo = some user) ∨
      ¬ Pinned before index user

theorem Pinned.kept (pinned : Pinned workspace index user) (kept : Kept workspace after index) :
    Pinned after index user := by
  obtain ⟨membership, stored, isUser, locked⟩ := pinned
  exact ⟨membership, kept.memberships _ stored locked, isUser, kept.locks _ locked⟩

theorem Assignable.kept (assignable : Assignable workspace index company)
    (locked : workspace.locks (.company company.id) = some index)
    (kept : Kept workspace after index) : Assignable after index company := by
  intro user isAssigned
  rcases assignable user isAssigned with pinned | ⟨stored, member, sameId, isUser⟩
  · exact Or.inl (pinned.kept kept)
  · rw [← sameId] at locked
    exact Or.inr ⟨stored, kept.companies stored member locked, sameId, isUser⟩

theorem Draft.Sound.kept (sound : draft.Sound workspace index)
    (kept : Kept workspace after index) : draft.Sound after index where
  locked change member := kept.locks _ (sound.locked change member)
  assignable company member :=
    (sound.assignable company member).kept (sound.locked (.put company) member) kept

theorem Removal.kept (removal : Removal workspace index draft target)
    (kept : Kept workspace after index) : Removal after index draft target :=
  ⟨kept.memberships _ removal.stored removal.locked, kept.locks _ removal.locked, removal.clears⟩

/-- No company is assigned to the target of a removal by another transaction. -/
theorem Covered.kept (covered : Covered workspace draft target.user ids)
    (removal : Removal workspace index draft target) (kept : Kept workspace after index) :
    Covered after draft target.user ids := by
  intro row member isAssigned
  rcases kept.assigned row member target.user isAssigned with ⟨stored, was, sameId, isUser⟩ | free
  · rw [← sameId]
    exact covered stored was isUser
  · exact absurd ⟨target, removal.stored, rfl, removal.locked⟩ free

theorem Held.kept (held : Held workspace index companies) (kept : Kept workspace after index) :
    Held after index companies :=
  fun company member => kept.locks _ (held company member)

theorem Phase.Sound.kept (sound : phase.Sound workspace index draft)
    (kept : Kept workspace after index) : phase.Sound after index draft := by
  cases phase with
  | idle => trivial
  | lockAssignee request user => exact sound
  | insert company => exact fun user isAssigned => (sound user isAssigned).kept kept
  | lockCompany request id => exact fun user isAssignee => (sound user isAssignee).kept kept
  | save company updateFields =>
      obtain ⟨locked, assignable⟩ := sound
      exact ⟨kept.locks _ locked, assignable.kept locked kept⟩
  | drop id => exact kept.locks _ sound
  | lockTarget membership role => exact sound
  | query target => exact Removal.kept sound kept
  | lockRows target ids found =>
      obtain ⟨removal, held, covered⟩ := sound
      exact ⟨removal.kept kept, held.kept kept, covered.kept removal kept⟩
  | unassign target companies =>
      obtain ⟨removal, held, covered⟩ := sound
      exact ⟨removal.kept kept, held.kept kept, covered.kept removal kept⟩
  | deleteTarget target =>
      obtain ⟨removal, covered⟩ := sound
      exact ⟨removal.kept kept, covered.kept removal kept⟩
  | commit =>
      intro target isTarget
      obtain ⟨removal, covered⟩ := sound target isTarget
      exact ⟨removal.kept kept, covered.kept removal kept⟩

theorem Call.Sound.kept (sound : call.Sound workspace index) (kept : Kept workspace after index) :
    call.Sound after index :=
  ⟨sound.draft.kept kept, sound.phase.kept kept, sound.removed⟩

/-- A step that keeps the companies keeps what others know. -/
theorem kept_of_companies (sameCompanies : after.companies = workspace.companies)
    (memberships : ∀ membership ∈ workspace.memberships, membership ∈ after.memberships)
    (locks : ∀ row, workspace.locks row = some index → after.locks row = some index) :
    Kept workspace after index where
  memberships membership stored _ := memberships membership stored
  companies _ stored _ := sameCompanies ▸ stored
  locks := locks
  assigned company member _ isAssigned :=
    Or.inl ⟨company, sameCompanies ▸ member, rfl, isAssigned⟩

/-! ### Statements -/

theorem Draft.Sound.empty : ({} : Draft).Sound workspace index :=
  ⟨List.forall_mem_nil _, fun _ member => absurd member List.not_mem_nil⟩

theorem Draft.Sound.write (sound : draft.Sound workspace index)
    (locked : workspace.locks (.company change.id) = some index)
    (assignable : ∀ company, change = .put company → Assignable workspace index company) :
    ({ draft with changes := draft.changes ++ [change] } : Draft).Sound workspace index where
  locked written member := by
    rcases List.mem_append.mp member with old | new
    · exact sound.locked written old
    · rw [List.mem_singleton.mp new]
      exact locked
  assignable company member := by
    rcases List.mem_append.mp member with old | new
    · exact sound.assignable company old
    · exact assignable company (List.mem_singleton.mp new).symm

theorem enter_sound (noChanges : draft.changes = [])
    (pinned : ∀ user ∈ request.assignee, Pinned workspace index user) :
    request.enter.Sound workspace index draft := by
  cases request with
  | create id customerCode attrs => exact pinned
  | removeMember membership role => exact noChanges
  | _ => exact pinned

theorem begin_sound (request : Request) :
    Call.Sound workspace index ⟨{}, request.begin⟩ := by
  refine ⟨Draft.Sound.empty, ?_, fun _ => rfl⟩
  unfold Request.begin
  cases isAssignee : request.assignee with
  | some user => exact ⟨rfl, isAssignee⟩
  | none =>
      apply enter_sound rfl
      intro user isUser
      rw [isAssignee] at isUser
      cases isUser

/-- A transaction that removes no member may commit. -/
theorem commit_sound (notRemoved : draft.removed = none) :
    Phase.commit.Sound workspace index draft := by
  intro target isTarget
  rw [notRemoved] at isTarget
  cases isTarget

/-- A service knows the row that it has locked. -/
theorem onto_sound (member : company ∈ workspace.companies)
    (locked : workspace.locks (.company company.id) = some index)
    (pinned : ∀ user ∈ request.assignee, Pinned workspace index user)
    (notRemoved : draft.removed = none) : (request.onto company).Sound workspace index draft := by
  have unchanged : Assignable workspace index company :=
    fun user isAssigned => Or.inr ⟨company, member, rfl, isAssigned⟩
  have done : Phase.commit.Sound workspace index draft := commit_sound notRemoved
  cases request with
  | create id customerCode attrs => exact done
  | update id attrs =>
      refine ⟨locked, fun user isAssigned => ?_⟩
      cases given : attrs.assignedTo with
      | none =>
          have same : (attrs.setOn company).assignedTo = company.assignedTo := by
            simp [CompanyAttrs.setOn, given]
          exact unchanged user (same ▸ isAssigned)
      | some assignee =>
          apply Or.inl (pinned user _)
          have same : (attrs.setOn company).assignedTo = assignee := by
            simp [CompanyAttrs.setOn, given]
          rw [same] at isAssigned
          simpa [Request.assignee, given] using isAssigned
  | archive id now =>
      simp only [Request.onto]
      split
      · exact done
      · exact ⟨locked, unchanged⟩
  | restore id =>
      simp only [Request.onto]
      split
      · exact done
      · exact ⟨locked, unchanged⟩
  | delete id => exact locked
  | removeMember membership role => exact done

theorem id_onto {updateFields : Option (List Column)} (same : stored.id = company.id) :
    (company.onto updateFields stored).id = company.id := by
  cases updateFields with
  | none => rfl
  | some columns => exact same

theorem assignedTo_onto (company stored : Company) (updateFields : Option (List Column)) :
    (company.onto updateFields stored).assignedTo = company.assignedTo ∨
      (company.onto updateFields stored).assignedTo = stored.assignedTo := by
  cases updateFields with
  | none => exact Or.inl rfl
  | some columns =>
      by_cases named : Column.assignedTo ∈ columns
      · exact Or.inl (by simp [Company.onto, named])
      · exact Or.inr (by simp [Company.onto, named])

theorem Draft.Sound.save {updateFields : Option (List Column)}
    (sound : draft.Sound workspace index)
    (found : workspace.companies.find? (·.id = company.id) = some stored)
    (locked : workspace.locks (.company company.id) = some index)
    (assignable : Assignable workspace index company) :
    ({ draft with changes := draft.changes ++ [.put (company.onto updateFields stored)] } :
      Draft).Sound workspace index := by
  have member : stored ∈ workspace.companies := List.mem_of_find?_eq_some found
  have same : stored.id = company.id := by simpa using List.find?_some found
  have sameId : (company.onto updateFields stored).id = company.id := id_onto same
  apply sound.write
  · show workspace.locks (.company (company.onto updateFields stored).id) = some index
    rw [sameId]
    exact locked
  · rintro written isWritten user isAssigned
    rw [← Change.put.inj isWritten] at isAssigned ⊢
    rw [sameId]
    rcases assignedTo_onto company stored updateFields with isNew | isOld
    · rw [isNew] at isAssigned
      exact assignable user isAssigned
    · rw [isOld] at isAssigned
      exact Or.inr ⟨stored, member, same, isAssigned⟩

/-- The row of a removal that is reached next is not assigned to the target any
more. -/
theorem Covered.pass (covered : Covered workspace draft user (id :: ids))
    (free : ∀ row ∈ workspace.companies, row.id = id → row.assignedTo ≠ some user) :
    Covered workspace draft user ids := by
  intro row member isAssigned
  rcases covered row member isAssigned with listed | written
  · rcases List.mem_cons.mp listed with isNext | later
    · exact absurd isAssigned (free row member isNext)
    · exact Or.inl later
  · exact Or.inr written

theorem Covered.reorder {others : List Nat} (covered : Covered workspace draft user ids)
    (among : ∀ id ∈ ids, id ∈ others) : Covered workspace draft user others := by
  intro row member isAssigned
  rcases covered row member isAssigned with listed | written
  · exact Or.inl (among row.id listed)
  · exact Or.inr written

theorem covered_query :
    Covered workspace draft user (workspace.assignedIds user ++ ([] : List Company).map Company.id)
    := by
  intro row member isAssigned
  left
  rw [List.map_nil, List.append_nil, Workspace.assignedIds, List.mem_insertionSort]
  exact List.mem_map_of_mem (List.mem_filter.mpr ⟨member, decide_eq_true isAssigned⟩)

theorem Removal.unassign (removal : Removal workspace index draft target) :
    Removal workspace index { draft with changes := draft.changes ++
      [.put (({ company with assignedTo := none } : Company).onto (some [.assignedTo]) stored)] }
      target := by
  refine ⟨removal.stored, removal.locked, fun written member => ?_⟩
  rcases List.mem_append.mp member with old | new
  · exact removal.clears written old
  · rw [Change.put.inj (List.mem_singleton.mp new)]
    rfl

theorem Covered.unassign (covered : Covered workspace draft user (company.id :: ids))
    (sameId : change.id = company.id) :
    Covered workspace { draft with changes := draft.changes ++ [change] } user ids := by
  intro row member isAssigned
  rcases covered row member isAssigned with listed | ⟨written, old, isRow⟩
  · rcases List.mem_cons.mp listed with isNext | later
    · exact Or.inr ⟨change, List.mem_append_right _ (List.mem_singleton_self _),
        sameId.trans isNext.symm⟩
    · exact Or.inl later
  · exact Or.inr ⟨written, List.mem_append_left _ old, isRow⟩

theorem of_locking
    (goesOn : workspace.locking index row draft phase = .goesOn rows next nextPhase) :
    workspace.locks.Grants index row ∧ rows = [row] ∧ next = draft ∧ nextPhase = phase := by
  unfold Workspace.locking at goesOn
  split at goesOn
  · rename_i grants
    cases goesOn
    exact ⟨grants, rfl, rfl, rfl⟩
  · cases goesOn

/-- A statement asks for no lock that another transaction holds. -/
theorem granted_execute
    (goesOn : workspace.execute index draft phase = .goesOn rows next nextPhase) :
    ∀ row ∈ rows, workspace.locks.Grants index row := by
  have ofLocking : ∀ {row : Row} {draft : Draft} {phase : Phase},
      workspace.locking index row draft phase = .goesOn rows next nextPhase →
        ∀ row ∈ rows, workspace.locks.Grants index row := by
    intro row draft phase isLocking needed member
    obtain ⟨grants, isRows, -, -⟩ := of_locking isLocking
    rw [isRows] at member
    rw [List.mem_singleton.mp member]
    exact grants
  unfold Workspace.execute at goesOn
  split at goesOn
  case h_1 => cases goesOn
  case h_2 =>
      split at goesOn
      · cases goesOn
      · exact ofLocking goesOn
  case h_3 =>
      split at goesOn
      · cases goesOn
      · exact ofLocking goesOn
  case h_4 =>
      split at goesOn
      · cases goesOn
      · exact ofLocking goesOn
  case h_5 =>
      split at goesOn
      · cases goesOn
      · exact ofLocking goesOn
  case h_6 => exact ofLocking goesOn
  case h_7 =>
      split at goesOn
      · cases goesOn
      · exact ofLocking goesOn
  case h_8 =>
      cases goesOn
      exact List.forall_mem_nil _
  case h_9 =>
      cases goesOn
      exact List.forall_mem_nil _
  case h_10 =>
      split at goesOn
      · cases goesOn
        exact List.forall_mem_nil _
      · split_ifs at goesOn with waiting
        · cases goesOn
          exact List.forall_mem_singleton.mpr waiting
        · cases goesOn
          exact List.forall_mem_nil _
  case h_11 =>
      cases goesOn
      exact List.forall_mem_nil _
  case h_12 =>
      split at goesOn
      · cases goesOn
      · exact ofLocking goesOn
  case h_13 => exact ofLocking goesOn
  case h_14 => cases goesOn

/-! #### What a transaction knows after a statement -/

theorem Call.Sound.lockAssignee
    (sound : Call.Sound workspace index ⟨draft, .lockAssignee request user⟩)
    (found : workspace.memberships.find? (·.user = user) = some membership)
    (locked : workspace.locks (.membership membership.id) = some index) :
    Call.Sound workspace index ⟨draft, request.enter⟩ := by
  obtain ⟨isDraft, ⟨noChanges, isAssignee⟩, removed⟩ := sound
  refine ⟨isDraft, enter_sound noChanges fun assignee isUser => ?_, fun _ => removed nofun⟩
  rw [isAssignee] at isUser
  rw [← Option.some.inj isUser]
  exact ⟨membership, List.mem_of_find?_eq_some found, by simpa using List.find?_some found, locked⟩

theorem Call.Sound.insert (sound : Call.Sound workspace index ⟨draft, .insert company⟩)
    (locked : workspace.locks (.company company.id) = some index) :
    Call.Sound workspace index
      ⟨{ draft with changes := draft.changes ++ [.put company] }, .commit⟩ := by
  obtain ⟨isDraft, pinned, removed⟩ := sound
  have notRemoved : draft.removed = none := removed nofun
  refine ⟨isDraft.write locked fun written isWritten => ?_, commit_sound notRemoved,
    fun _ => notRemoved⟩
  rw [← Change.put.inj isWritten]
  exact fun user isAssigned => Or.inl (pinned user isAssigned)

theorem Call.Sound.lockCompany
    (sound : Call.Sound workspace index ⟨draft, .lockCompany request id⟩)
    (found : workspace.companies.find? (·.id = id) = some company)
    (locked : workspace.locks (.company id) = some index) :
    Call.Sound workspace index ⟨draft, request.onto company⟩ := by
  obtain ⟨isDraft, pinned, removed⟩ := sound
  have isId : company.id = id := by simpa using List.find?_some found
  have notRemoved : draft.removed = none := removed nofun
  refine ⟨isDraft, onto_sound (List.mem_of_find?_eq_some found) ?_ pinned notRemoved,
    fun _ => notRemoved⟩
  rw [isId]
  exact locked

theorem Call.Sound.save {updateFields : Option (List Column)}
    (sound : Call.Sound workspace index ⟨draft, .save company updateFields⟩)
    (found : workspace.companies.find? (·.id = company.id) = some stored)
    (locked : workspace.locks (.company company.id) = some index) :
    Call.Sound workspace index
      ⟨{ draft with changes := draft.changes ++ [.put (company.onto updateFields stored)] },
        .commit⟩ := by
  obtain ⟨isDraft, ⟨-, assignable⟩, removed⟩ := sound
  have notRemoved : draft.removed = none := removed nofun
  exact ⟨isDraft.save found locked assignable, commit_sound notRemoved, fun _ => notRemoved⟩

theorem Call.Sound.drop (sound : Call.Sound workspace index ⟨draft, .drop id⟩)
    (locked : workspace.locks (.company id) = some index) :
    Call.Sound workspace index
      ⟨{ draft with changes := draft.changes ++ [.remove id] }, .commit⟩ := by
  obtain ⟨isDraft, -, removed⟩ := sound
  have notRemoved : draft.removed = none := removed nofun
  exact ⟨isDraft.write locked nofun, commit_sound notRemoved, fun _ => notRemoved⟩

theorem Call.Sound.lockTarget
    (sound : Call.Sound workspace index ⟨draft, .lockTarget membership.id role⟩)
    (stored : membership ∈ workspace.memberships)
    (locked : workspace.locks (.membership membership.id) = some index) :
    Call.Sound workspace index ⟨draft, Workspace.decide membership role⟩ := by
  obtain ⟨isDraft, noChanges, removed⟩ := sound
  have notRemoved : draft.removed = none := removed nofun
  refine ⟨isDraft, ?_, fun _ => notRemoved⟩
  unfold Workspace.decide
  split
  · exact commit_sound notRemoved
  · refine ⟨stored, locked, fun company member => ?_⟩
    have isEmpty : draft.changes = [] := noChanges
    rw [isEmpty] at member
    cases member

theorem Call.Sound.query (sound : Call.Sound workspace index ⟨draft, .query target⟩) :
    Call.Sound workspace index
      ⟨draft, .lockRows target (workspace.assignedIds target.user) []⟩ :=
  ⟨sound.draft, ⟨sound.phase, List.forall_mem_nil _, covered_query⟩, fun _ => sound.removed nofun⟩

/-- A removal passes over a row that has been taken away or assigned to another. -/
theorem Call.Sound.pass
    (sound : Call.Sound workspace index ⟨draft, .lockRows target (id :: ids) found⟩)
    (free : ∀ row ∈ workspace.companies, row.id = id → row.assignedTo ≠ some target.user) :
    Call.Sound workspace index ⟨draft, .lockRows target ids found⟩ := by
  obtain ⟨isDraft, ⟨removal, held, covered⟩, removed⟩ := sound
  exact ⟨isDraft, ⟨removal, held, covered.pass free⟩, fun _ => removed nofun⟩

/-- A removal gathers a row that it has locked. -/
theorem Call.Sound.gather
    (sound : Call.Sound workspace index ⟨draft, .lockRows target (company.id :: ids) found⟩)
    (locked : workspace.locks (.company company.id) = some index) :
    Call.Sound workspace index ⟨draft, .lockRows target ids (found ++ [company])⟩ := by
  obtain ⟨isDraft, ⟨removal, held, covered⟩, removed⟩ := sound
  refine ⟨isDraft, ⟨removal, fun gathered member => ?_, covered.reorder ?_⟩,
    fun _ => removed nofun⟩
  · rcases List.mem_append.mp member with old | new
    · exact held gathered old
    · rw [List.mem_singleton.mp new]
      exact locked
  · intro listed member
    simp only [List.cons_append, List.mem_cons, List.mem_append, List.map_append,
      List.map_cons, List.map_nil, List.not_mem_nil, or_false] at member ⊢
    rcases member with isNext | later | gathered
    · exact Or.inr (Or.inr isNext)
    · exact Or.inl later
    · exact Or.inr (Or.inl gathered)

theorem Call.Sound.unassign
    (sound : Call.Sound workspace index ⟨draft, .unassign target (company :: companies)⟩)
    (found : workspace.companies.find? (·.id = company.id) = some stored)
    (locked : workspace.locks (.company company.id) = some index) :
    Call.Sound workspace index
      ⟨{ draft with changes := draft.changes ++
          [.put (({ company with assignedTo := none } : Company).onto (some [.assignedTo])
            stored)] }, .unassign target companies⟩ := by
  obtain ⟨isDraft, ⟨removal, held, covered⟩, removed⟩ := sound
  have sameId : stored.id = company.id := by simpa using List.find?_some found
  refine ⟨isDraft.save found locked nofun, ⟨removal.unassign, fun other member =>
    held other (List.mem_cons_of_mem _ member), covered.unassign ?_⟩, fun _ => removed nofun⟩
  exact sameId

theorem Call.Sound.deleteTarget (sound : Call.Sound workspace index ⟨draft, .deleteTarget target⟩) :
    Call.Sound workspace index ⟨{ draft with removed := some target }, .commit⟩ := by
  obtain ⟨isDraft, ⟨removal, covered⟩, -⟩ := sound
  refine ⟨⟨isDraft.locked, isDraft.assignable⟩, ?_, fun notCommit => absurd rfl notCommit⟩
  intro other isOther
  rw [← Option.some.inj isOther]
  exact ⟨⟨removal.stored, removal.locked, removal.clears⟩, covered⟩

/-- What a transaction knows after a statement, with the locks that it has then. -/
theorem Call.Sound.execute {later : Locks Row} (keyed : workspace.Keyed)
    (sound : Call.Sound { workspace with locks := later } index ⟨draft, phase⟩)
    (goesOn : workspace.execute index draft phase = .goesOn rows next nextPhase)
    (locked : ∀ row ∈ rows, later row = some index) :
    Call.Sound { workspace with locks := later } index ⟨next, nextPhase⟩ := by
  cases phase with
  | idle => cases goesOn
  | lockAssignee request user =>
      simp only [Workspace.execute] at goesOn
      split at goesOn
      · cases goesOn
      · rename_i membership found
        obtain ⟨-, rfl, rfl, rfl⟩ := of_locking goesOn
        exact sound.lockAssignee found (locked _ List.mem_cons_self)
  | insert company =>
      simp only [Workspace.execute] at goesOn
      split at goesOn
      · cases goesOn
      · obtain ⟨-, rfl, rfl, rfl⟩ := of_locking goesOn
        exact sound.insert (locked _ List.mem_cons_self)
  | lockCompany request id =>
      simp only [Workspace.execute] at goesOn
      split at goesOn
      · cases goesOn
      · rename_i company found
        obtain ⟨-, rfl, rfl, rfl⟩ := of_locking goesOn
        exact sound.lockCompany found (locked _ List.mem_cons_self)
  | save company updateFields =>
      simp only [Workspace.execute] at goesOn
      split at goesOn
      · cases goesOn
      · rename_i stored found
        obtain ⟨-, rfl, rfl, rfl⟩ := of_locking goesOn
        exact sound.save found (locked _ List.mem_cons_self)
  | drop id =>
      obtain ⟨-, rfl, rfl, rfl⟩ := of_locking goesOn
      exact sound.drop (locked _ List.mem_cons_self)
  | lockTarget membership role =>
      simp only [Workspace.execute] at goesOn
      split at goesOn
      · cases goesOn
      · rename_i target found
        obtain ⟨-, rfl, rfl, rfl⟩ := of_locking goesOn
        have isId : target.id = membership := by simpa using List.find?_some found
        subst isId
        exact sound.lockTarget (List.mem_of_find?_eq_some found) (locked _ List.mem_cons_self)
  | query target =>
      cases goesOn
      exact sound.query
  | lockRows target ids found =>
      cases ids with
      | nil =>
          cases goesOn
          exact ⟨sound.draft, sound.phase, fun _ => sound.removed nofun⟩
      | cons id rest =>
          simp only [Workspace.execute] at goesOn
          split at goesOn
          · rename_i missing
            cases goesOn
            apply sound.pass
            intro row member isNext
            have none := List.find?_eq_none.mp missing row member
            simp [isNext] at none
          · rename_i company isFound
            have isId : company.id = id := by simpa using List.find?_some isFound
            subst isId
            split_ifs at goesOn with waiting isAssigned
            · cases goesOn
              exact sound.gather (locked _ List.mem_cons_self)
            · cases goesOn
              apply sound.pass
              intro row member isNext
              have same : row = company := List.inj_on_of_nodup_map keyed.companies member
                (List.mem_of_find?_eq_some isFound) isNext
              rw [same]
              exact isAssigned
  | unassign target companies =>
      cases companies with
      | nil =>
          cases goesOn
          obtain ⟨isDraft, ⟨removal, -, covered⟩, removed⟩ := sound
          exact ⟨isDraft, ⟨removal, covered⟩, fun _ => removed nofun⟩
      | cons company rest =>
          simp only [Workspace.execute] at goesOn
          split at goesOn
          · cases goesOn
          · rename_i stored found
            obtain ⟨-, rfl, rfl, rfl⟩ := of_locking goesOn
            exact sound.unassign found (locked _ List.mem_cons_self)
  | deleteTarget target =>
      obtain ⟨-, rfl, rfl, rfl⟩ := of_locking goesOn
      exact sound.deleteTarget
  | commit => cases goesOn

/-! ### Steps -/

theorem idle_sound : Call.Sound workspace index {} :=
  ⟨Draft.Sound.empty, trivial, fun _ => rfl⟩

/-- One call goes on, and the others keep their locks. -/
theorem Workspace.Sound.relock {later : Locks Row} (sound : workspace.Sound)
    (isCall : call.Sound { workspace with locks := later } index)
    (keeps : ∀ other, other ≠ index → ∀ row, workspace.locks row = some other →
      later row = some other) :
    ({ workspace.become index call with locks := later } : Workspace).Sound := by
  refine ⟨⟨sound.keyed.companies, sound.keyed.memberships, sound.keyed.users⟩, sound.assigned,
    fun other => ?_⟩
  show Call.Sound _ other (Function.update workspace.calls index call other)
  by_cases same : other = index
  · rw [same, Function.update_self]
    exact isCall.kept (kept_of_companies rfl (fun _ stored => stored) fun _ held => held)
  · rw [Function.update_of_ne same]
    exact (sound.calls other).kept
      (kept_of_companies rfl (fun _ stored => stored) (keeps other same))

theorem Workspace.Sound.rollBack (sound : workspace.Sound) :
    (workspace.rollBack index).Sound :=
  sound.relock idle_sound fun _ differs _ held => Locks.release_of_held differs held

theorem Workspace.Sound.execute (sound : workspace.Sound) :
    (workspace.settle index (workspace.execute index (workspace.calls index).draft
      (workspace.calls index).phase)).Sound := by
  cases outcome : workspace.execute index (workspace.calls index).draft
    (workspace.calls index).phase with
  | waits => exact sound
  | raises => exact sound.rollBack
  | goesOn rows next phase =>
      have keeps : ∀ other row, workspace.locks row = some other →
          workspace.locks.acquire index (fun row => row ∈ rows) row = some other :=
        fun other row held => Locks.acquire_of_held (granted_execute outcome) held
      have isCall : Call.Sound { workspace with
          locks := workspace.locks.acquire index fun row => row ∈ rows } index
          ⟨(workspace.calls index).draft, (workspace.calls index).phase⟩ :=
        (sound.calls index).kept (kept_of_companies rfl (fun _ stored => stored) (keeps index))
      apply sound.relock _ fun other _ => keeps other
      apply isCall.execute sound.keyed outcome
      intro row member
      exact Locks.acquire_of_mem member

/-- Two transactions do not pin one user. -/
theorem not_pinned (keyed : workspace.Keyed) (pinned : Pinned workspace index user)
    (differs : other ≠ index) : ¬ Pinned workspace other user := by
  obtain ⟨membership, stored, isUser, locked⟩ := pinned
  rintro ⟨second, secondStored, isSecondUser, secondLocked⟩
  have same : second = membership := List.inj_on_of_nodup_map keyed.users secondStored stored
    (isSecondUser.trans isUser.symm)
  rw [same, locked] at secondLocked
  exact differs (Option.some.inj secondLocked).symm

/-- What a commit leaves of the rows of the others. -/
theorem kept_commit (keyed : workspace.Keyed) (isDraft : draft.Sound workspace index)
    (removed : ∀ target ∈ draft.removed, Removal workspace index draft target)
    (differs : other ≠ index) : Kept workspace (workspace.commit index draft) other where
  memberships membership stored locked := by
    unfold Workspace.commit
    dsimp only
    cases isRemoved : draft.removed with
    | none => exact stored
    | some target =>
        rw [List.mem_filter]
        refine ⟨stored, decide_eq_true fun same => differs ?_⟩
        rw [same, (removed target isRemoved).locked] at locked
        exact (Option.some.inj locked).symm
  companies company stored locked := by
    apply mem_applyAll_of_ne stored
    intro change written same
    have held := isDraft.locked change written
    rw [same, locked] at held
    exact differs (Option.some.inj held)
  locks _ locked := Locks.release_of_held differs locked
  assigned company member user isAssigned := by
    rcases mem_applyAll member with written | ⟨stored, -⟩
    · rcases isDraft.assignable company written user isAssigned with pinned | unchanged
      · exact Or.inr (not_pinned keyed pinned differs)
      · exact Or.inl unchanged
    · exact Or.inl ⟨company, stored, rfl, isAssigned⟩

/-- The companies after a commit are assigned to members that it leaves. -/
theorem Workspace.Sound.assigned_commit (sound : workspace.Sound)
    (isDraft : draft.Sound workspace index)
    (removed : ∀ target ∈ draft.removed, Removal workspace index draft target ∧
      Covered workspace draft target.user []) : (workspace.commit index draft).Assigned := by
  intro company member user isAssigned
  have isMember : ∃ membership ∈ workspace.memberships, membership.user = user := by
    rcases mem_applyAll member with written | ⟨stored, -⟩
    · rcases isDraft.assignable company written user isAssigned with
        ⟨membership, stored, isUser, -⟩ | ⟨stored, was, -, isUser⟩
      · exact ⟨membership, stored, isUser⟩
      · exact sound.assigned stored was user isUser
    · exact sound.assigned company stored user isAssigned
  obtain ⟨membership, stored, isUser⟩ := isMember
  refine ⟨membership, ?_, isUser⟩
  unfold Workspace.commit
  dsimp only
  cases isRemoved : draft.removed with
  | none => exact stored
  | some target =>
      obtain ⟨removal, covered⟩ := removed target isRemoved
      rw [List.mem_filter]
      refine ⟨stored, decide_eq_true fun same => ?_⟩
      -- The removal has written every company of its target.
      have isTarget : membership = target :=
        List.inj_on_of_nodup_map sound.keyed.memberships stored removal.stored same
      rw [isTarget] at isUser
      rcases mem_applyAll member with written | ⟨was, untouched⟩
      · rw [Option.mem_def, removal.clears company written] at isAssigned
        cases isAssigned
      · rw [← isUser] at isAssigned
        rcases covered company was isAssigned with none | ⟨change, written, isCompany⟩
        · cases none
        · exact untouched change written isCompany

theorem Workspace.Sound.commit (sound : workspace.Sound)
    (isCommit : (workspace.calls index).phase = .commit) :
    (workspace.commit index (workspace.calls index).draft).Sound := by
  obtain ⟨isDraft, isPhase, -⟩ := sound.calls index
  rw [isCommit] at isPhase
  refine ⟨⟨nodup_applyAll sound.keyed.companies, ?_, ?_⟩, sound.assigned_commit isDraft isPhase,
    fun other => ?_⟩
  · unfold Workspace.commit
    dsimp only
    split
    · exact sound.keyed.memberships
    · exact sound.keyed.memberships.sublist (List.filter_sublist.map _)
  · unfold Workspace.commit
    dsimp only
    split
    · exact sound.keyed.users
    · exact sound.keyed.users.sublist (List.filter_sublist.map _)
  · show Call.Sound _ other (Function.update workspace.calls index {} other)
    by_cases same : other = index
    · rw [same, Function.update_self]
      exact idle_sound
    · rw [Function.update_of_ne same]
      exact (sound.calls other).kept (kept_commit sound.keyed isDraft
        (fun target isTarget => (isPhase target isTarget).1) same)

theorem Workspace.Sound.join (sound : workspace.Sound) (membership : Membership) :
    (workspace.join membership).Sound := by
  unfold Workspace.join
  split_ifs with taken
  · exact sound
  · push Not at taken
    have distinct : ∀ {Value : Type} {key : Membership → Value},
        (workspace.memberships.map key).Nodup →
          (∀ stored ∈ workspace.memberships, key stored ≠ key membership) →
            ((workspace.memberships ++ [membership]).map key).Nodup := by
      intro Value key nodup fresh
      rw [List.map_append, List.map_singleton, List.nodup_append]
      refine ⟨nodup, List.nodup_singleton _, fun first isFirst second isSecond same => ?_⟩
      obtain ⟨stored, member, isKey⟩ := List.mem_map.mp isFirst
      rw [List.mem_singleton] at isSecond
      exact fresh stored member (isKey.trans (same.trans isSecond))
    refine ⟨⟨sound.keyed.companies, distinct sound.keyed.memberships fun stored member =>
      (taken stored member).1, distinct sound.keyed.users fun stored member =>
      (taken stored member).2⟩, ?_, fun index => ?_⟩
    · intro company member user isAssigned
      obtain ⟨stored, isMember, isUser⟩ := sound.assigned company member user isAssigned
      exact ⟨stored, List.mem_append_left _ isMember, isUser⟩
    · exact (sound.calls index).kept (kept_of_companies rfl
        (fun _ stored => List.mem_append_left _ stored) fun _ held => held)

theorem Workspace.Sound.step (sound : workspace.Sound) (action : Action) :
    (workspace.step action).Sound := by
  cases action with
  | call index request =>
      simp only [Workspace.step]
      split
      · exact sound.relock (begin_sound request) fun _ _ _ held => held
      · exact sound
  | execute index => exact sound.execute
  | commit index =>
      simp only [Workspace.step]
      split
      · rename_i isCommit
        exact sound.commit isCommit
      · exact sound
  | fail index => exact sound.rollBack
  | join membership => exact sound.join membership

/-- A workspace in which no request has begun. -/
structure Workspace.Opened (workspace : Workspace) : Prop where
  keyed : workspace.Keyed
  assigned : workspace.Assigned
  idle : ∀ index, workspace.calls index = {}

/-- Whatever order the statements of creations, updates, archiving, deletions and
removals are executed in, every company is assigned to a member in every state
that is committed. -/
theorem assigned_to_members {start : Workspace} (opened : start.Opened) (actions : List Action) :
    Always Workspace.step Workspace.Assigned start actions := by
  have isStart : start.Sound := by
    refine ⟨opened.keyed, opened.assigned, fun index => ?_⟩
    rw [opened.idle index]
    exact idle_sound
  have always := always_invariant Workspace.Sound
    (fun workspace action sound => sound.step action) isStart actions
  exact always.imp fun workspace sound => sound.assigned

/-- A member is removed while a company gets assigned to it. -/
theorem assigned_to_members_removed :
    let start : Workspace := {
      memberships := [⟨1, 1, 10, .owner⟩, ⟨2, 1, 20, .member⟩]
      companies := [{ id := 5 }] }
    let actions : List Action := [
      .call 0 (.update 5 ⟨some (some 20)⟩), .call 1 (.removeMember 2 .owner),
      .execute 0, .execute 1, .execute 0, .execute 0, .commit 0,
      .execute 1, .execute 1, .execute 1, .execute 1, .execute 1, .execute 1, .execute 1, .commit 1]
    Always Workspace.step Workspace.Assigned start actions ∧
      (run Workspace.step start (actions.take 7)).companies =
        [{ id := 5, assignedTo := some 20 }] ∧
      (run Workspace.step start actions).companies = [{ id := 5 }] ∧
      (run Workspace.step start actions).memberships = [⟨1, 1, 10, .owner⟩] := by
  intro start actions
  have opened : start.Opened := ⟨⟨by decide, by decide, by decide⟩, by decide, fun _ => rfl⟩
  exact ⟨assigned_to_members opened actions, by decide, by decide, by decide⟩

end BubllioCrm.Companies.Services
