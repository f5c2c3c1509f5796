import BubllioCrm.Deals.Locking
import BubllioCrm.Foundations.Execution
import Mathlib.Data.List.Permutation

/-!
Owns what concurrent requests on a board amount to: the same as the requests
one after the other, as long as each of them writes what it would write with
the current row. A PATCH request writes back the row it has loaded, and a move
compares places with it, so requests that overlap lose edits.
-/

namespace BubllioCrm.Deals

open BubllioCrm.Companies BubllioCrm.Foundations

/-- The requests that were answered with success. -/
def Board.succeeded (board : Board) : List Request :=
  (board.writes.filter Write.acknowledged).map Write.request

/-- The request puts its deal into the lane. -/
def Request.Touches (stage : Stage) : Request → Prop
  | .move _ destination _ _ => destination = stage
  | .patch _ attrs _ => attrs.stage = some stage

instance (stage : Stage) : DecidablePred (Request.Touches stage)
  | .move _ destination _ _ => inferInstanceAs (Decidable (destination = stage))
  | .patch _ attrs _ => inferInstanceAs (Decidable (attrs.stage = some stage))

def Request.IsMove : Request → Prop
  | .move _ _ _ _ => True
  | .patch _ _ _ => False

/-- The last request that put a deal into the lane is a move. -/
def TouchedByMove (requests : List Request) (stage : Stage) : Prop :=
  ∃ request, (requests.filter (·.Touches stage)).getLast? = some request ∧ request.IsMove

/-- The deals are what the successful requests leave behind in some order in
which each of them succeeds, none is lost without a reason, and lanes touched
last by a move have no duplicates. -/
structure Serialisable (related : Related) (organization : Nat) (table : DealTable)
    (board : Board) : Prop where
  replayed : board.Settled → ∃ order, order.Perm board.succeeded ∧
    EveryStep (Request.alone related organization) (Request.Succeeds related organization)
      table.deals order ∧
    serially related organization order table.deals = board.deals
  reasons : (∀ deal ∈ table.deals, deal.HasReason) → ∀ deal ∈ board.deals, deal.HasReason
  lanes : ∀ stage, TouchedByMove (board.writes.map Write.request) stage →
    (sortOrders stage board.deals).Nodup

/-- A PATCH request saves what it would save of the current row, and passes its
checks on that row. A move renumbers its deal as it would with the current row,
and finds it with a reason where one is needed. No PATCH request ends between
its write and its event. -/
def Fresh (related : Related) (organization : Nat) (board : Board) (action : Action) : Prop :=
  match action with
  | .write index =>
      match board.phases index with
      | .loaded (.patch _ attrs _) copy => board.locks.Grants index copy.id →
          ∀ row ∈ board.deals, row.id = copy.id → attrs.setOn row = attrs.setOn copy ∧
            validate related organization (some row) attrs = .ok attrs
      | .placed (.move _ stage position _) copy others =>
          ∀ row ∈ board.deals, row.id = copy.id →
            SamePlace stage (min position others.length) copy row ∧
            (stage = .lost → ¬ IsBlank row.lostReason)
      | _ => True
  | .fail index => ¬ (board.phases index).IsSaved
  | _ => True

instance (related : Related) (organization : Nat) (board : Board) (action : Action) :
    Decidable (Fresh related organization board action) := by
  cases action with
  | write index =>
      simp only [Fresh]
      split <;> infer_instance
  | fail index => exact inferInstanceAs (Decidable (¬ _))
  | _ => exact isTrue trivial

variable {related : Related} {organization : Nat} {table : DealTable} {board after : Board}
  {index : Nat} {request : Request} {copy : Deal} {phase : Phase} {stage : Stage}
  {requests : List Request} {action : Action}

theorem touchedByMove_append (touched : TouchedByMove (requests ++ [request]) stage) :
    request.Touches stage ∧ request.IsMove ∨
      ¬ request.Touches stage ∧ TouchedByMove requests stage := by
  obtain ⟨last, isLast, isMove⟩ := touched
  rw [List.filter_append] at isLast
  by_cases touches : request.Touches stage
  · rw [List.filter_cons_of_pos (by simpa using touches), List.filter_nil,
      List.getLast?_concat] at isLast
    cases isLast
    exact Or.inl ⟨touches, isMove⟩
  · rw [List.filter_cons_of_neg (by simpa using touches), List.filter_nil,
      List.append_nil] at isLast
    exact Or.inr ⟨touches, last, isLast, isMove⟩

theorem serially_append (requests : List Request) (request : Request) (deals : List Deal) :
    serially related organization (requests ++ [request]) deals =
      request.alone related organization (serially related organization requests deals) := by
  simp [serially, List.foldl_append]

/-! ### The invariant -/

/-- The board is what its writes leave behind one after the other. -/
structure Replayed (related : Related) (organization : Nat) (table : DealTable)
    (board : Board) : Prop where
  held : Held related organization table board
  succeeds : EveryStep (Request.alone related organization)
    (Request.Succeeds related organization) table.deals (board.writes.map Write.request)
  replay : serially related organization (board.writes.map Write.request) table.deals =
    board.deals
  reasons : (∀ deal ∈ table.deals, deal.HasReason) → ∀ deal ∈ board.deals, deal.HasReason
  lanes : ∀ stage, TouchedByMove (board.writes.map Write.request) stage →
    (sortOrders stage board.deals).Nodup
  pending : ∀ number write, board.writes[number]? = some write → write.acknowledged = false →
    ∃ index request previousStage deal,
      board.phases index = .saved request previousStage deal number

theorem Replayed.start (table : DealTable) :
    Replayed related organization table (Board.start table) where
  held := Held.start table
  succeeds := trivial
  replay := rfl
  reasons := id
  lanes := by
    intro stage touched
    obtain ⟨request, isLast, -⟩ := touched
    cases isLast
  pending := by simp [Board.start]

theorem Replayed.serialisable (replayed : Replayed related organization table board) :
    Serialisable related organization table board := by
  refine ⟨fun settled => ⟨board.writes.map Write.request, ?_, replayed.succeeds,
    replayed.replay⟩, replayed.reasons, replayed.lanes⟩
  have all : board.writes.filter Write.acknowledged = board.writes := by
    rw [List.filter_eq_self]
    intro write member
    obtain ⟨number, found⟩ := List.mem_iff_getElem?.mp member
    by_contra notYet
    obtain ⟨index, request, previousStage, deal, saved⟩ :=
      replayed.pending number write found (by simpa using notYet)
    apply settled index
    rw [saved]
    trivial
  rw [Board.succeeded, all]

/-- A request that is not at its event leaves the pending writes to the others. -/
theorem Replayed.stillPending (replayed : Replayed related organization table board)
    (phases : after.phases = Function.update board.phases index phase)
    (unsaved : ¬ (board.phases index).IsSaved) {number : Nat} {write : Write}
    (found : board.writes[number]? = some write) (notYet : write.acknowledged = false) :
    ∃ other request previousStage deal,
      after.phases other = .saved request previousStage deal number := by
  obtain ⟨other, request, previousStage, deal, saved⟩ :=
    replayed.pending number write found notYet
  have differs : other ≠ index := by
    rintro rfl
    rw [saved] at unsaved
    exact unsaved trivial
  refine ⟨other, request, previousStage, deal, ?_⟩
  rw [phases, Function.update_of_ne differs]
  exact saved

/-- A request that has not written takes its next phase. -/
theorem Replayed.moved (replayed : Replayed related organization table board)
    (held : Held related organization table after) (deals : after.deals = board.deals)
    (writes : after.writes = board.writes)
    (phases : after.phases = Function.update board.phases index phase)
    (unsaved : ¬ (board.phases index).IsSaved) :
    Replayed related organization table after := by
  refine ⟨held, ?_, ?_, ?_, ?_, ?_⟩
  · rw [writes]
    exact replayed.succeeds
  · rw [writes, deals]
    exact replayed.replay
  · rw [deals]
    exact replayed.reasons
  · rw [writes, deals]
    exact replayed.lanes
  · intro number write found notYet
    rw [writes] at found
    exact replayed.stillPending phases unsaved found notYet

/-- A request has written, and its write is the last one. -/
theorem Replayed.written (replayed : Replayed related organization table board)
    (held : Held related organization table after) {write : Write}
    (writes : after.writes = board.writes ++ [write])
    (phases : after.phases = Function.update board.phases index phase)
    (succeeds : write.request.Succeeds related organization board.deals)
    (alone : write.request.alone related organization board.deals = after.deals)
    (reasons : (∀ deal ∈ board.deals, deal.HasReason) → ∀ deal ∈ after.deals, deal.HasReason)
    (lanes : ∀ stage, write.request.Touches stage ∧ write.request.IsMove ∨
      ¬ write.request.Touches stage ∧ (sortOrders stage board.deals).Nodup →
        (sortOrders stage after.deals).Nodup)
    (unsaved : ¬ (board.phases index).IsSaved)
    (pending : write.acknowledged = false →
      ∃ request previousStage deal, phase = .saved request previousStage deal board.writes.length) :
    Replayed related organization table after := by
  refine ⟨held, ?_, ?_, ?_, ?_, ?_⟩
  · rw [writes, List.map_append, List.map_singleton, everyStep_append]
    refine ⟨replayed.succeeds, ?_, trivial⟩
    have before : run (Request.alone related organization) table.deals
        (board.writes.map Write.request) = board.deals := replayed.replay
    rw [before]
    exact succeeds
  · rw [writes, List.map_append, List.map_singleton, serially_append, replayed.replay]
    exact alone
  · exact fun initial => reasons (replayed.reasons initial)
  · intro stage touched
    rw [writes, List.map_append, List.map_singleton] at touched
    rcases touchedByMove_append touched with touches | ⟨elsewhere, before⟩
    · exact lanes stage (Or.inl touches)
    · exact lanes stage (Or.inr ⟨elsewhere, replayed.lanes stage before⟩)
  · intro number found isFound notYet
    rw [writes] at isFound
    rcases getElem?_concat isFound with old | ⟨rfl, rfl⟩
    · exact replayed.stillPending phases unsaved old notYet
    · obtain ⟨request, previousStage, deal, isSaved⟩ := pending notYet
      refine ⟨index, request, previousStage, deal, ?_⟩
      rw [phases, Function.update_self]
      exact isSaved

/-! ### Steps -/

theorem Replayed.save (replayed : Replayed related organization table board) {dealId actor : Nat}
    {attrs : DealAttrs} (isLoaded : board.phases index = .loaded (.patch dealId attrs actor) copy)
    (fresh : Fresh related organization board (.write index)) :
    Replayed related organization table
      (board.save index (.patch dealId attrs actor) copy attrs) := by
  have loaded : Loaded related organization board (.patch dealId attrs actor) copy := by
    have inPhase := replayed.held.phases index
    rwa [isLoaded] at inPhase
  obtain ⟨row, stored, sameId, -, found⟩ := replayed.held.row loaded
  have held := replayed.held.save isLoaded
  unfold Board.save at held ⊢
  split_ifs at held ⊢ with grants
  · simp only [Fresh, isLoaded] at fresh
    obtain ⟨sameRow, valid⟩ := fresh grants row stored sameId
    have accepts : Request.Accepts related organization row (.patch dealId attrs actor) := valid
    refine replayed.written held rfl rfl ⟨row, found, accepts⟩ ?_ ?_ ?_ ?_
      fun _ => ⟨_, _, _, rfl⟩
    · simp only [Request.alone, found]
      rw [if_pos accepts]
      show saveDeal (attrs.setOn row) board.deals = saveDeal (attrs.setOn copy) board.deals
      rw [sameRow]
    · intro reasons deal member
      obtain ⟨before, was, ⟨-, rfl⟩ | ⟨-, rfl⟩⟩ := mem_updateWhere.mp member
      · exact hasReason_setOn loaded.accepted
      · exact reasons deal was
    · rintro stage (⟨-, isMove⟩ | ⟨elsewhere, distinct⟩)
      · exact isMove.elim
      · show (sortOrders stage (saveDeal (attrs.setOn copy) board.deals)).Nodup
        rw [← sameRow]
        refine distinct.sublist (sortOrders_saveDeal_sublist elsewhere ?_)
        exact fun other otherStored same =>
          eq_of_id_eq replayed.held.distinct otherStored stored same
    · rw [isLoaded]
      exact id
  · exact replayed

theorem Replayed.move (replayed : Replayed related organization table board)
    {dealId position actor : Nat} {others : List Deal}
    (isPlaced : board.phases index = .placed (.move dealId stage position actor) copy others)
    (fresh : Fresh related organization board (.write index)) :
    Replayed related organization table
      (board.move index (.move dealId stage position actor) copy stage position actor others) := by
  obtain ⟨loaded, active, locking, isLane⟩ :
      InPhase related organization board index
        (.placed (.move dealId stage position actor) copy others) :=
    isPlaced ▸ replayed.held.phases index
  obtain ⟨moved, isMoved⟩ := replayed.held.refreshed isPlaced
  have held := replayed.held.move isPlaced
  obtain rfl := isLane dealId stage position actor rfl
  obtain ⟨row, stored, sameId, sameArchived, found⟩ := replayed.held.row loaded
  simp only [Fresh, isPlaced] at fresh
  obtain ⟨samePlace, reason⟩ := fresh row stored sameId
  have isActive : row.IsActive := sameArchived.trans active
  have accepts : Request.Accepts related organization row (.move dealId stage position actor) :=
    ⟨isActive, fun blank => reason blank.1 blank.2⟩
  simp only [Board.move, isMoved] at held ⊢
  refine replayed.written held rfl rfl ⟨row, found, accepts⟩ ?_ ?_ ?_ ?_ (by simp)
  · simp only [Request.alone, found]
    rw [if_pos accepts]
    simp only [Request.write, sameId]
    rw [moveDeal_congr samePlace]
  · intro reasons deal member
    obtain ⟨before, was, ⟨place, isChange, rfl⟩ | ⟨-, rfl⟩⟩ := mem_bulkUpdate member
    · intro isLost
      rcases of_changed isChange with isMoved | ⟨other, otherStored, otherId, otherStage⟩
      · have isRow : before = row :=
          eq_of_id_eq replayed.held.distinct was stored (isMoved.trans sameId.symm)
        rw [isRow]
        exact reason isLost
      · have isOther : other = before :=
          eq_of_id_eq replayed.held.distinct otherStored was otherId
        exact reasons before was (isOther ▸ otherStage.trans isLost)
    · exact reasons deal was
  · rintro other (⟨rfl, -⟩ | ⟨elsewhere, distinct⟩)
    · apply nodup_sortOrders_moveDeal replayed.held.distinct
      intro other otherStored same
      rw [eq_of_id_eq replayed.held.distinct otherStored stored (same.trans sameId.symm)]
      exact samePlace
    · exact distinct.sublist (sortOrders_moveDeal_sublist elsewhere)
  · rw [isPlaced]
    exact id

theorem Replayed.record (replayed : Replayed related organization table board) {number : Nat}
    {previousStage : Stage} {deal : Deal} {event : Event}
    (isSaved : board.phases index = .saved request previousStage deal number)
    (held : Held related organization table (board.record index number event)) :
    Replayed related organization table (board.record index number event) := by
  have requests : (board.record index number event).writes.map Write.request =
      board.writes.map Write.request :=
    map_acknowledge fun _ => rfl
  refine ⟨held, ?_, ?_, replayed.reasons, ?_, ?_⟩
  · rw [requests]
    exact replayed.succeeds
  · rw [requests]
    exact replayed.replay
  · rw [requests]
    exact replayed.lanes
  · intro place write found notYet
    simp only [Board.record, acknowledge, List.getElem?_modify] at found
    by_cases same : number = place
    · obtain ⟨old, -, isWrite⟩ := Option.map_eq_some_iff.mp found
      rw [if_pos same] at isWrite
      rw [← isWrite] at notYet
      cases notYet
    · have unchanged : board.writes[place]? = some write := by simpa [same] using found
      obtain ⟨other, otherRequest, otherStage, otherDeal, saved⟩ :=
        replayed.pending place write unchanged notYet
      refine ⟨other, otherRequest, otherStage, otherDeal, ?_⟩
      have differs : other ≠ index := by
        rintro rfl
        rw [isSaved] at saved
        cases saved
        exact same rfl
      exact (Function.update_of_ne differs _ _).trans saved

theorem Replayed.step (replayed : Replayed related organization table board)
    (fresh : Fresh related organization board action) :
    Replayed related organization table (board.step related organization action) := by
  have held : Held related organization table (board.step related organization action) :=
    replayed.held.step
  cases action with
  | load index request =>
      simp only [Board.step] at held ⊢
      split at held
      · rename_i idle
        unfold Board.load at held ⊢
        split at held
        · split_ifs at held ⊢
          · exact replayed.moved held rfl rfl rfl (by simp [idle, Phase.IsSaved])
          · exact replayed
        · exact replayed
      · exact replayed
  | lock index =>
      simp only [Board.step] at held ⊢
      split at held
      · rename_i isLoaded
        unfold Board.lock at held ⊢
        split_ifs at held ⊢
        · exact replayed.moved held rfl rfl rfl (by simp [isLoaded, Phase.IsSaved])
        · exact replayed
      · exact replayed
  | read index =>
      simp only [Board.step] at held ⊢
      split at held
      · rename_i isLocked
        exact replayed.moved held rfl rfl rfl (by simp [isLocked, Phase.IsSaved])
      · exact replayed
  | write index =>
      simp only [Board.step]
      split
      · exact replayed.save ‹_› fresh
      · exact replayed.move ‹_› fresh
      · exact replayed
  | record index =>
      simp only [Board.step] at held ⊢
      split at held
      · exact replayed.record ‹_› held
      · exact replayed
  | fail index => exact replayed.moved held rfl rfl rfl fresh

/-- Move and PATCH requests on a board amount to the successful ones one after
the other in every run in which each of them writes with what is current. -/
theorem board_serialisable (related : Related) (organization : Nat) (table : DealTable)
    (actions : List Action)
    (fresh : EveryStep (Board.step related organization) (Fresh related organization)
      (Board.start table) actions) :
    Always (Board.step related organization) (Serialisable related organization table)
      (Board.start table) actions :=
  (always_guarded (Replayed related organization table)
    (fun _ _ replayed fresh => replayed.step fresh) (Replayed.start table) fresh).imp
      fun _ replayed => replayed.serialisable

def twoDeals : DealTable where
  deals := [
    { id := 1, organization := 1, company := 1, title := "Boiler", createdAt := 0 },
    { id := 2, organization := 1, company := 1, title := "Lift", sortOrder := 1, createdAt := 1 }]
  distinct := by decide

/-- A move and an edit of the neighbouring deal overlap. -/
theorem board_serialisable_neighbours :
    Always (Board.step openWorkspace 1) (Serialisable openWorkspace 1 twoDeals)
      (Board.start twoDeals)
      [.load 0 (.move 1 .qualified 0 7), .load 1 (.patch 2 { title := some "Lifts" } 7),
        .lock 0, .write 1, .read 0, .write 0, .write 1, .record 1] :=
  board_serialisable openWorkspace 1 twoDeals _ (by decide +kernel)

/-- Two edits of one deal, of which the second writes back what it has loaded. -/
def overlappingEdits : List Action :=
  [.load 0 (.patch 1 { title := some "Boilers" } 7),
    .load 1 (.patch 1 { notes := some "urgent" } 7),
    .write 0, .record 0, .write 1, .record 1]

theorem board_not_always_serialisable :
    ¬ ∀ related organization table actions, Always (Board.step related organization)
      (Serialisable related organization table) (Board.start table) actions := by
  intro always
  have serialisable := (always openWorkspace 1 twoDeals overlappingEdits).at_end
  obtain ⟨order, permutation, -, replay⟩ := serialisable.replayed (by
    rintro (_ | _ | index) saved
    · exact saved
    · exact saved
    · exact saved)
  have noOrder : ∀ order ∈ (run (Board.step openWorkspace 1) (Board.start twoDeals)
      overlappingEdits).succeeded.permutations', serially openWorkspace 1 order twoDeals.deals ≠
        (run (Board.step openWorkspace 1) (Board.start twoDeals) overlappingEdits).deals := by
    decide +kernel
  exact noOrder order (List.mem_permutations'.mpr permutation) replay

end BubllioCrm.Deals
