import BubllioCrm.Deals.Locking
import BubllioCrm.Foundations.Chains
import BubllioCrm.Foundations.Execution

/-!
Owns the stage history of the deals of a board: what the timeline reports of
each write, and that the reports form a chain as long as every request writes
with the stage that is current. Both writes take the previous stage from the
deal they have loaded.
-/

namespace BubllioCrm.Deals

open BubllioCrm.Companies BubllioCrm.Foundations

/-- The stages between which an event reports a change of a deal. -/
def stageChangeIn (dealId : Nat) (event : Event) : Option (Stage × Stage) :=
  match event.eventType, event.details with
  | .dealStageChanged, .stageChanged _ _ fromStage toStage =>
      if event.sourceId = dealId then some (fromStage, toStage) else none
  | _, _ => none

/-- The stage changes of a deal that the events of a write report. -/
def reported (dealId number : Nat) (timeline : List (Nat × Event)) : List (Stage × Stage) :=
  (timeline.filter (·.1 = number)).filterMap fun entry => stageChangeIn dealId entry.2

/-- The reported stage changes of a deal in the order of the writes. -/
def Board.stageHistory (dealId : Nat) (board : Board) : List (Stage × Stage) :=
  (List.range board.writes.length).flatMap fun number => reported dealId number board.timeline

/-- The change of the stage of a deal that a write has made. -/
def Write.change (dealId : Nat) (write : Write) : List (Stage × Stage) :=
  if write.request.dealId = dealId then changeOf write.fromStage write.toStage else []

/-- The history of every deal leads from its stage at creation to the current
one, and every write is reported by one event if it changed a stage, and by no
other. -/
structure Chained (table : DealTable) (board : Board) : Prop where
  chain : board.Settled → ∀ deal ∈ board.deals,
    Chain (stageIn table.deals deal.id) (board.stageHistory deal.id) deal.stage
  once : board.Settled → ∀ number write, board.writes[number]? = some write →
    ∀ dealId, reported dealId number board.timeline = write.change dealId

/-- A request writes to a deal that has the stage with which it was loaded, and
no PATCH request that has changed a stage ends before its event. -/
def StageFresh (board : Board) (action : Action) : Prop :=
  match action with
  | .write index =>
      match board.phases index with
      | .loaded (.patch _ _ _) copy => board.locks.Grants index copy.id →
          ∀ row ∈ board.deals, row.id = copy.id → row.stage = copy.stage
      | .placed (.move _ _ _ _) copy _ =>
          ∀ row ∈ board.deals, row.id = copy.id → row.stage = copy.stage
      | _ => True
  | .fail index =>
      match board.phases index with
      | .saved _ previousStage deal _ => previousStage = deal.stage
      | _ => True
  | _ => True

instance (board : Board) : (action : Action) → Decidable (StageFresh board action)
  | .write index =>
      match isPhase : board.phases index with
      | .loaded (.patch _ _ _) copy =>
          decidable_of_iff (board.locks.Grants index copy.id →
            ∀ row ∈ board.deals, row.id = copy.id → row.stage = copy.stage)
            (by simp only [StageFresh, isPhase])
      | .placed (.move _ _ _ _) copy _ =>
          decidable_of_iff (∀ row ∈ board.deals, row.id = copy.id → row.stage = copy.stage)
            (by simp only [StageFresh, isPhase])
      | .loaded (.move _ _ _ _) _ | .placed (.patch _ _ _) _ _ | .idle | .locked _ _
      | .saved _ _ _ _ => isTrue (by simp only [StageFresh, isPhase])
  | .fail index =>
      match isPhase : board.phases index with
      | .saved _ previousStage deal _ =>
          decidable_of_iff (previousStage = deal.stage) (by simp only [StageFresh, isPhase])
      | .idle | .loaded _ _ | .locked _ _ | .placed _ _ _ =>
          isTrue (by simp only [StageFresh, isPhase])
  | .load _ _ | .lock _ | .read _ | .record _ => isTrue trivial

variable {related : Related} {organization : Nat} {table : DealTable} {board after : Board}
  {index number dealId actor : Nat} {request : Request} {copy deal : Deal} {phase : Phase}
  {stage previousStage : Stage} {attrs : DealAttrs} {events : List Event}
  {timeline : List (Nat × Event)} {action : Action}

/-! ### Reports -/

theorem reported_report (place : Nat) :
    reported dealId place (report number events timeline) = reported dealId place timeline ++
      if number = place then events.filterMap (stageChangeIn dealId) else [] := by
  unfold reported report
  rw [List.filter_append, List.filterMap_append]
  congr 1
  split_ifs with same
  · rw [List.filter_eq_self.mpr (by simp [same]), List.filterMap_map]
    rfl
  · rw [List.filter_eq_nil_iff.mpr (by simp [same]), List.filterMap_nil]

theorem filterMap_moveEvents : (moveEvents previousStage deal actor).filterMap
    (stageChangeIn dealId) =
      if deal.id = dealId then changeOf previousStage deal.stage else [] := by
  unfold moveEvents changeOf
  split_ifs with same isDeal <;> simp_all [stageChangeIn]

theorem filterMap_patchEvent (unnamed : attrs.stage = none → previousStage = deal.stage) :
    [patchEvent previousStage attrs deal actor].filterMap (stageChangeIn dealId) =
      if deal.id = dealId then changeOf previousStage deal.stage else [] := by
  have named : previousStage ≠ deal.stage → attrs.stage.isSome = true := by
    intro differs
    rw [Option.isSome_iff_ne_none]
    exact fun isNone => differs (unnamed isNone)
  unfold patchEvent changeOf
  by_cases same : previousStage = deal.stage
  · simp [same, stageChangeIn]
  · rw [if_pos ⟨named same, fun isSame => same isSame.symm⟩, if_neg same]
    by_cases isDeal : deal.id = dealId <;> simp [stageChangeIn, isDeal]

/-! ### The invariant -/

/-- What a PATCH request will record is the change that its write has made. -/
structure Awaits (board : Board) (request : Request) (previousStage : Stage) (deal : Deal)
    (number : Nat) : Prop where
  written : ∃ acknowledged, board.writes[number]? =
    some ⟨request, previousStage, deal.stage, acknowledged⟩
  isDeal : request.dealId = deal.id
  unnamed : ∀ dealId attrs actor, request = .patch dealId attrs actor → attrs.stage = none →
    previousStage = deal.stage
  unreported : ∀ dealId, reported dealId number board.timeline = []

structure Recorded (related : Related) (organization : Nat) (table : DealTable)
    (board : Board) : Prop where
  held : Held related organization table board
  chain : ∀ deal ∈ board.deals, Chain (stageIn table.deals deal.id)
    (board.writes.map (Write.change deal.id)).flatten deal.stage
  bounded : ∀ entry ∈ board.timeline, entry.1 < board.writes.length
  awaits : ∀ index request previousStage deal number,
    board.phases index = .saved request previousStage deal number →
      Awaits board request previousStage deal number
  single : ∀ index other request otherRequest previousStage otherStage deal otherDeal number,
    board.phases index = .saved request previousStage deal number →
      board.phases other = .saved otherRequest otherStage otherDeal number → index = other
  reports : ∀ number write, board.writes[number]? = some write →
    (∀ dealId, reported dealId number board.timeline = write.change dealId) ∨
      ∃ index request previousStage deal,
        board.phases index = .saved request previousStage deal number

theorem stageIn_of_mem (distinct : (board.deals.map Deal.id).Nodup) (stored : deal ∈ board.deals) :
    stageIn board.deals deal.id = deal.stage := by
  simp only [stageIn, find_of_mem distinct stored, Option.map_some, Option.getD_some]

theorem Recorded.start (table : DealTable) :
    Recorded related organization table (Board.start table) where
  held := Held.start table
  chain deal stored := by
    exact stageIn_of_mem (show ((Board.start table).deals.map Deal.id).Nodup from table.distinct)
      stored
  bounded := by simp [Board.start]
  awaits := by simp [Board.start]
  single := by simp [Board.start]
  reports := by simp [Board.start]

theorem Recorded.chained (recorded : Recorded related organization table board) :
    Chained table board := by
  have once : board.Settled → ∀ number write, board.writes[number]? = some write →
      ∀ dealId, reported dealId number board.timeline = write.change dealId := by
    intro settled number write found
    rcases recorded.reports number write found with reports | ⟨index, _, _, _, saved⟩
    · exact reports
    · exact absurd (by rw [saved]; trivial) (settled index)
  refine ⟨fun settled deal stored => ?_, once⟩
  have history : board.stageHistory deal.id =
      (board.writes.map (Write.change deal.id)).flatten := by
    rw [← List.flatMap_def]
    exact flatMap_range_length fun number write found => once settled number write found deal.id
  rw [history]
  exact recorded.chain deal stored

theorem reported_of_bounded (bounded : ∀ entry ∈ board.timeline, entry.1 < board.writes.length) :
    reported dealId board.writes.length board.timeline = [] := by
  unfold reported
  rw [List.filter_eq_nil_iff.mpr, List.filterMap_nil]
  intro entry member
  have below := bounded entry member
  simp only [decide_eq_true_eq]
  omega

/-! ### Steps -/

theorem Awaits.kept (awaits : Awaits board request previousStage deal number)
    (writes : ∀ write, board.writes[number]? = some write → after.writes[number]? = some write)
    (timeline : ∀ dealId, reported dealId number after.timeline =
      reported dealId number board.timeline) :
    Awaits after request previousStage deal number := by
  obtain ⟨acknowledged, written⟩ := awaits.written
  refine ⟨⟨acknowledged, writes _ written⟩, awaits.isDeal, awaits.unnamed, fun dealId => ?_⟩
  rw [timeline]
  exact awaits.unreported dealId

/-- A request that has not written takes its next phase, or one whose write has
changed no stage ends. -/
theorem Recorded.moved (recorded : Recorded related organization table board)
    (held : Held related organization table after) (deals : after.deals = board.deals)
    (writes : after.writes = board.writes) (timeline : after.timeline = board.timeline)
    (phases : after.phases = Function.update board.phases index phase) (unsaved : ¬ phase.IsSaved)
    (unchanged : ∀ request previousStage deal number,
      board.phases index = .saved request previousStage deal number →
        previousStage = deal.stage) :
    Recorded related organization table after := by
  have others : ∀ other request previousStage deal number,
      after.phases other = .saved request previousStage deal number →
        board.phases other = .saved request previousStage deal number := by
    intro other request previousStage deal number saved
    rw [phases] at saved
    by_cases same : other = index
    · rw [same, Function.update_self] at saved
      rw [saved] at unsaved
      exact absurd trivial unsaved
    · rwa [Function.update_of_ne same] at saved
  refine ⟨held, ?_, ?_, ?_, ?_, ?_⟩
  · rw [deals, writes]
    exact recorded.chain
  · rw [timeline, writes]
    exact recorded.bounded
  · intro other request previousStage deal number saved
    apply (recorded.awaits other request previousStage deal number
      (others other request previousStage deal number saved)).kept
    · intro write found
      rwa [writes]
    · intro dealId
      rw [timeline]
  · intro first second request otherRequest previousStage otherStage deal otherDeal number one two
    exact recorded.single first second request otherRequest previousStage otherStage deal otherDeal
      number (others _ _ _ _ _ one) (others _ _ _ _ _ two)
  · intro number write found
    rw [writes] at found
    rw [timeline]
    rcases recorded.reports number write found with
      reports | ⟨other, request, previous, deal, saved⟩
    · exact Or.inl reports
    · by_cases same : other = index
      · left
        subst same
        have awaits := recorded.awaits other request previous deal number saved
        obtain ⟨acknowledged, written⟩ := awaits.written
        rw [found] at written
        cases written
        intro dealId
        rw [awaits.unreported, Write.change, changeOf]
        simp [unchanged request previous deal number saved]
      · right
        refine ⟨other, request, previous, deal, ?_⟩
        rw [phases, Function.update_of_ne same]
        exact saved

/-! #### A request writes -/

/-- What a request that writes leaves: the last write, and either the events that
report it or the phase in which they are still to come. -/
structure Writes (board after : Board) (index : Nat) (write : Write) (events : List Event)
    (phase : Phase) : Prop where
  writes : after.writes = board.writes ++ [write]
  timeline : after.timeline = report board.writes.length events board.timeline
  phases : after.phases = Function.update board.phases index phase
  unsaved : ¬ (board.phases index).IsSaved
  stages : ∀ deal ∈ after.deals, ∃ before ∈ board.deals, before.id = deal.id ∧
    if write.request.dealId = deal.id then
      write.fromStage = before.stage ∧ write.toStage = deal.stage
    else before.stage = deal.stage
  outcome : (¬ phase.IsSaved ∧
      ∀ dealId, events.filterMap (stageChangeIn dealId) = write.change dealId) ∨
    events = [] ∧ ∃ previousStage deal,
      phase = .saved write.request previousStage deal board.writes.length ∧
        write.fromStage = previousStage ∧ write.toStage = deal.stage ∧
          write.request.dealId = deal.id ∧
            ∀ dealId attrs actor, write.request = .patch dealId attrs actor →
              attrs.stage = none → previousStage = deal.stage

section Writes

variable {write : Write}

theorem Writes.earlier (writes : Writes board after index write events phase) {old : Write}
    (found : board.writes[number]? = some old) :
    after.writes[number]? = some old ∧ number ≠ board.writes.length := by
  have below := (List.getElem?_eq_some_iff.mp found).1
  rw [writes.writes, List.getElem?_append_left below]
  exact ⟨found, by omega⟩

theorem Writes.reported_earlier (writes : Writes board after index write events phase)
    (differs : number ≠ board.writes.length) :
    reported dealId number after.timeline = reported dealId number board.timeline := by
  rw [writes.timeline, reported_report, if_neg (Ne.symm differs), List.append_nil]

theorem Writes.reported_last (writes : Writes board after index write events phase)
    (recorded : Recorded related organization table board) :
    reported dealId board.writes.length after.timeline =
      events.filterMap (stageChangeIn dealId) := by
  rw [writes.timeline, reported_report, if_pos rfl, reported_of_bounded recorded.bounded,
    List.nil_append]

/-- A request that has saved did so before, or it is the one that has written. -/
theorem Writes.saved_cases (writes : Writes board after index write events phase)
    (recorded : Recorded related organization table board) {other : Nat}
    (saved : after.phases other = .saved request previousStage deal number) :
    (board.phases other = .saved request previousStage deal number ∧
        number ≠ board.writes.length) ∨
      other = index ∧ number = board.writes.length ∧
        phase = .saved request previousStage deal number := by
  rw [writes.phases] at saved
  by_cases same : other = index
  · rw [same, Function.update_self] at saved
    rcases writes.outcome with ⟨notSaved, -⟩ | ⟨-, newStage, newDeal, isSaved, -⟩
    · rw [saved] at notSaved
      exact absurd trivial notSaved
    · rw [isSaved] at saved
      cases saved
      exact Or.inr ⟨same, rfl, isSaved⟩
  · rw [Function.update_of_ne same] at saved
    obtain ⟨acknowledged, written⟩ := (recorded.awaits _ _ _ _ _ saved).written
    exact Or.inl ⟨saved, (writes.earlier written).2⟩

theorem Writes.chain (writes : Writes board after index write events phase)
    (recorded : Recorded related organization table board) (stored : deal ∈ after.deals) :
    Chain (stageIn table.deals deal.id)
      (after.writes.map (Write.change deal.id)).flatten deal.stage := by
  obtain ⟨before, was, sameId, changes⟩ := writes.stages deal stored
  have chain := recorded.chain before was
  rw [sameId] at chain
  rw [writes.writes, List.map_append, List.flatten_append, List.map_singleton,
    List.flatten_singleton, Write.change]
  split_ifs at changes ⊢
  · rw [changes.1, changes.2]
    exact chain.changed deal.stage
  · rw [List.append_nil, ← changes]
    exact chain

theorem Writes.bounded (writes : Writes board after index write events phase)
    (recorded : Recorded related organization table board) :
    ∀ entry ∈ after.timeline, entry.1 < after.writes.length := by
  intro entry member
  rw [writes.timeline] at member
  rw [writes.writes, List.length_append, List.length_singleton]
  rcases List.mem_append.mp member with old | new
  · have below := recorded.bounded entry old
    omega
  · obtain ⟨event, -, rfl⟩ := List.mem_map.mp new
    exact Nat.lt_succ_self _

theorem Writes.awaits (writes : Writes board after index write events phase)
    (recorded : Recorded related organization table board) {other : Nat}
    (saved : after.phases other = .saved request previousStage deal number) :
    Awaits after request previousStage deal number := by
  rcases writes.saved_cases recorded saved with ⟨old, differs⟩ | ⟨-, rfl, new⟩
  · apply (recorded.awaits other request previousStage deal number old).kept
    · exact fun write found => (writes.earlier found).1
    · exact fun dealId => writes.reported_earlier differs
  · rcases writes.outcome with
      ⟨notSaved, -⟩ | ⟨nothing, newStage, newDeal, isSaved, isFrom, isTo, rest⟩
    · rw [new] at notSaved
      exact absurd trivial notSaved
    · rw [new] at isSaved
      cases isSaved
      have last : after.writes[board.writes.length]? = some write := by simp [writes.writes]
      refine ⟨⟨write.acknowledged, ?_⟩, rest.1, rest.2, fun dealId => ?_⟩
      · rw [last, ← isFrom, ← isTo]
      · rw [writes.reported_last recorded, nothing, List.filterMap_nil]

theorem Writes.single (writes : Writes board after index write events phase)
    (recorded : Recorded related organization table board) {first second : Nat}
    {otherRequest : Request} {otherStage : Stage} {otherDeal : Deal}
    (one : after.phases first = .saved request previousStage deal number)
    (two : after.phases second = .saved otherRequest otherStage otherDeal number) :
    first = second := by
  rcases writes.saved_cases recorded one with ⟨oldOne, differsOne⟩ | ⟨isFirst, lastOne, -⟩
  · rcases writes.saved_cases recorded two with ⟨oldTwo, -⟩ | ⟨-, lastTwo, -⟩
    · exact recorded.single first second request otherRequest previousStage otherStage deal
        otherDeal number oldOne oldTwo
    · exact absurd lastTwo differsOne
  · rcases writes.saved_cases recorded two with ⟨-, differsTwo⟩ | ⟨isSecond, -, -⟩
    · exact absurd lastOne differsTwo
    · rw [isFirst, isSecond]

theorem Writes.reports (writes : Writes board after index write events phase)
    (recorded : Recorded related organization table board) {found : Write}
    (isFound : after.writes[number]? = some found) :
    (∀ dealId, reported dealId number after.timeline = found.change dealId) ∨
      ∃ index request previousStage deal,
        after.phases index = .saved request previousStage deal number := by
  rw [writes.writes] at isFound
  rcases getElem?_concat isFound with old | ⟨rfl, rfl⟩
  · have differs := (writes.earlier old).2
    rcases recorded.reports number found old with
      reports | ⟨other, request, previous, deal, saved⟩
    · left
      intro dealId
      rw [writes.reported_earlier differs]
      exact reports dealId
    · right
      refine ⟨other, request, previous, deal, ?_⟩
      rw [writes.phases, Function.update_of_ne]
      · exact saved
      · rintro rfl
        have unsaved := writes.unsaved
        rw [saved] at unsaved
        exact unsaved trivial
  · rcases writes.outcome with ⟨-, reports⟩ | ⟨-, newStage, newDeal, isSaved, -⟩
    · left
      intro dealId
      rw [writes.reported_last recorded]
      exact reports dealId
    · right
      refine ⟨index, write.request, newStage, newDeal, ?_⟩
      rw [writes.phases, Function.update_self]
      exact isSaved

/-- A request has written, and what its events report, or will report, is the
change that it has made. -/
theorem Recorded.written (recorded : Recorded related organization table board)
    (held : Held related organization table after)
    (writes : Writes board after index write events phase) :
    Recorded related organization table after where
  held := held
  chain _ stored := writes.chain recorded stored
  bounded := writes.bounded recorded
  awaits _ _ _ _ _ saved := writes.awaits recorded saved
  single _ _ _ _ _ _ _ _ _ one two := writes.single recorded one two
  reports _ _ found := writes.reports recorded found

end Writes

theorem Recorded.save (recorded : Recorded related organization table board)
    (isLoaded : board.phases index = .loaded (.patch dealId attrs actor) copy)
    (fresh : StageFresh board (.write index)) :
    Recorded related organization table
      (board.save index (.patch dealId attrs actor) copy attrs) := by
  have loaded : Loaded related organization board (.patch dealId attrs actor) copy := by
    have inPhase := recorded.held.phases index
    rwa [isLoaded] at inPhase
  obtain ⟨row, stored, sameId, -⟩ := exists_row loaded.stored
  have held := recorded.held.save isLoaded
  unfold Board.save at held ⊢
  split_ifs at held ⊢ with grants
  · simp only [StageFresh, isLoaded] at fresh
    have isFrom : stageIn board.deals copy.id = row.stage := by
      rw [← sameId]
      exact stageIn_of_mem recorded.held.distinct stored
    refine recorded.written held ⟨rfl, by simp [report, Board.become], rfl,
      by simp [isLoaded, Phase.IsSaved], ?_,
      Or.inr ⟨rfl, copy.stage, attrs.setOn copy, rfl, ?_, rfl, loaded.isDeal, ?_⟩⟩
    · intro deal member
      obtain ⟨before, was, ⟨isDeal, rfl⟩ | ⟨notDeal, rfl⟩⟩ := mem_updateWhere.mp member
      · have isCopy : (Request.patch dealId attrs actor).dealId = (attrs.setOn copy).id :=
          loaded.isDeal
        refine ⟨row, stored, sameId, ?_⟩
        rw [if_pos isCopy]
        exact ⟨isFrom, rfl⟩
      · have notCopy : (Request.patch dealId attrs actor).dealId ≠ deal.id := by
          rw [loaded.isDeal]
          exact fun same => notDeal same.symm
        refine ⟨deal, was, rfl, ?_⟩
        rw [if_neg notCopy]
    · exact isFrom.trans (fresh grants row stored sameId)
    · rintro _ _ _ ⟨⟩ unnamed
      simp [DealAttrs.setOn, unnamed]
  · exact recorded

theorem Recorded.move (recorded : Recorded related organization table board) {position : Nat}
    {others : List Deal}
    (isPlaced : board.phases index = .placed (.move dealId stage position actor) copy others)
    (fresh : StageFresh board (.write index)) :
    Recorded related organization table
      (board.move index (.move dealId stage position actor) copy stage position actor others) := by
  obtain ⟨loaded, active, locking, isLane⟩ :
      InPhase related organization board index
        (.placed (.move dealId stage position actor) copy others) :=
    isPlaced ▸ recorded.held.phases index
  obtain ⟨moved, isMoved⟩ := recorded.held.refreshed isPlaced
  have held := recorded.held.move isPlaced
  obtain rfl := isLane dealId stage position actor rfl
  obtain ⟨row, stored, sameId, -⟩ := exists_row loaded.stored
  have movedId : moved.id = copy.id := by simpa using List.find?_some isMoved
  have isDeal : dealId = moved.id := loaded.isDeal.trans movedId.symm
  simp only [StageFresh, isPlaced] at fresh
  have isFrom : stageIn board.deals copy.id = row.stage := by
    rw [← sameId]
    exact stageIn_of_mem recorded.held.distinct stored
  simp only [Board.move, isMoved] at held ⊢
  refine recorded.written held ⟨rfl, rfl, rfl, by simp [isPlaced, Phase.IsSaved], ?_,
    Or.inl ⟨id, fun other => ?_⟩⟩
  · intro deal member
    by_cases isCopy : dealId = deal.id
    · have isMovedDeal : moved = deal :=
        eq_of_id_eq held.distinct (List.mem_of_find?_eq_some isMoved) member
          (isDeal.symm.trans isCopy)
      refine ⟨row, stored, sameId.trans (movedId.symm.trans (isMovedDeal ▸ rfl)), ?_⟩
      show if dealId = deal.id then _ else _
      rw [if_pos isCopy, isMovedDeal]
      exact ⟨isFrom, rfl⟩
    · obtain ⟨before, was, ⟨place, isChange, rfl⟩ | ⟨-, rfl⟩⟩ := mem_bulkUpdate member
      · refine ⟨before, was, rfl, ?_⟩
        show if dealId = before.id then _ else _
        rw [if_neg isCopy]
        rcases of_changed isChange with isThis | ⟨other, otherStored, otherId, otherStage⟩
        · exact absurd (loaded.isDeal.trans isThis.symm) isCopy
        · rw [← eq_of_id_eq recorded.held.distinct otherStored was otherId]
          exact otherStage
      · refine ⟨deal, was, rfl, ?_⟩
        show if dealId = deal.id then _ else _
        rw [if_neg isCopy]
  · rw [filterMap_moveEvents, Write.change]
    show _ = if dealId = other then changeOf (stageIn board.deals copy.id) moved.stage else []
    rw [isDeal, isFrom, fresh row stored sameId]

theorem Recorded.record (recorded : Recorded related organization table board)
    (isSaved : board.phases index =
      .saved (.patch dealId attrs actor) previousStage deal number)
    (held : Held related organization table
      (board.record index number (patchEvent previousStage attrs deal actor))) :
    Recorded related organization table
      (board.record index number (patchEvent previousStage attrs deal actor)) := by
  have awaits := recorded.awaits _ _ _ _ _ isSaved
  obtain ⟨acknowledged, written⟩ := awaits.written
  have below := (List.getElem?_eq_some_iff.mp written).1
  have length : (acknowledge number board.writes).length = board.writes.length := by
    simp [acknowledge]
  have elsewhere : ∀ place, place ≠ number → ∀ id,
      reported id place (report number [patchEvent previousStage attrs deal actor]
        board.timeline) = reported id place board.timeline := by
    intro place differs id
    rw [reported_report, if_neg (Ne.symm differs), List.append_nil]
  have others : ∀ other otherRequest otherStage otherDeal place,
      (board.record index number (patchEvent previousStage attrs deal actor)).phases other =
          .saved otherRequest otherStage otherDeal place →
        board.phases other = .saved otherRequest otherStage otherDeal place ∧ place ≠ number := by
    intro other otherRequest otherStage otherDeal place saved
    by_cases same : other = index
    · rw [same] at saved
      simp [Board.record, Board.become] at saved
    · have unchanged : board.phases other = .saved otherRequest otherStage otherDeal place :=
        (Function.update_of_ne same _ _).symm.trans saved
      refine ⟨unchanged, ?_⟩
      rintro rfl
      exact same (recorded.single _ _ _ _ _ _ _ _ _ unchanged isSaved)
  refine ⟨held, ?_, ?_, ?_, ?_, ?_⟩
  · intro other member
    have columns : (acknowledge number board.writes).map (Write.change other.id) =
        board.writes.map (Write.change other.id) := map_acknowledge fun _ => rfl
    simp only [Board.record, columns]
    exact recorded.chain other member
  · intro entry member
    simp only [Board.record, length]
    rcases List.mem_append.mp member with old | new
    · exact recorded.bounded entry old
    · rw [List.map_singleton] at new
      rw [List.mem_singleton.mp new]
      exact below
  · intro other otherRequest otherStage otherDeal place saved
    obtain ⟨unchanged, differs⟩ := others _ _ _ _ _ saved
    apply (recorded.awaits _ _ _ _ _ unchanged).kept
    · intro write found
      simpa [Board.record, acknowledge, List.getElem?_modify, Ne.symm differs] using found
    · exact fun id => elsewhere place differs id
  · intro first second firstRequest secondRequest firstStage secondStage firstDeal secondDeal place
      one two
    exact recorded.single _ _ _ _ _ _ _ _ _ (others _ _ _ _ _ one).1 (others _ _ _ _ _ two).1
  · intro place write found
    by_cases same : place = number
    · left
      subst same
      simp only [Board.record, acknowledge, List.getElem?_modify_eq, written] at found
      obtain rfl := Option.some.inj found
      intro id
      show reported id place (report place _ board.timeline) = _
      rw [reported_report, if_pos rfl, awaits.unreported, List.nil_append,
        filterMap_patchEvent (awaits.unnamed _ _ _ rfl), Write.change]
      show _ = if (Request.patch dealId attrs actor).dealId = id then _ else _
      rw [awaits.isDeal]
    · have old : board.writes[place]? = some write := by
        simpa [Board.record, acknowledge, List.getElem?_modify, Ne.symm same] using found
      rcases recorded.reports place write old with reports | ⟨other, request, stage, saved, isOther⟩
      · left
        intro id
        exact (elsewhere place same id).trans (reports id)
      · right
        refine ⟨other, request, stage, saved, ?_⟩
        have differs : other ≠ index := by
          rintro rfl
          rw [isSaved] at isOther
          cases isOther
          exact same rfl
        exact (Function.update_of_ne differs _ _).trans isOther

theorem Recorded.step (recorded : Recorded related organization table board)
    (fresh : StageFresh board action) :
    Recorded related organization table (board.step related organization action) := by
  have held : Held related organization table (board.step related organization action) :=
    recorded.held.step
  cases action with
  | load index request =>
      simp only [Board.step] at held ⊢
      split at held
      · rename_i idle
        unfold Board.load at held ⊢
        split at held
        · split_ifs at held ⊢
          · exact recorded.moved held rfl rfl rfl rfl id (by simp [idle])
          · exact recorded
        · exact recorded
      · exact recorded
  | lock index =>
      simp only [Board.step] at held ⊢
      split at held
      · rename_i isLoaded
        unfold Board.lock at held ⊢
        split_ifs at held ⊢
        · exact recorded.moved held rfl rfl rfl rfl id (by simp [isLoaded])
        · exact recorded
      · exact recorded
  | read index =>
      simp only [Board.step] at held ⊢
      split at held
      · rename_i isLocked
        exact recorded.moved held rfl rfl rfl rfl id (by simp [isLocked])
      · exact recorded
  | write index =>
      simp only [Board.step]
      split
      · exact recorded.save ‹_› fresh
      · exact recorded.move ‹_› fresh
      · exact recorded
  | record index =>
      simp only [Board.step] at held ⊢
      split at held
      · exact recorded.record ‹_› held
      · exact recorded
  | fail index =>
      refine recorded.moved held rfl rfl rfl rfl id ?_
      intro request previousStage deal number saved
      simp only [StageFresh, saved] at fresh
      exact fresh

/-! ### Runs -/

/-- The stage history of every deal is a chain in every run in which each
request writes with the stage that is current. -/
theorem stage_history_chained (related : Related) (organization : Nat) (table : DealTable)
    (actions : List Action)
    (fresh : EveryStep (Board.step related organization) StageFresh (Board.start table) actions) :
    Always (Board.step related organization) (Chained table) (Board.start table) actions :=
  (always_guarded (Recorded related organization table)
    (fun _ _ recorded fresh => recorded.step fresh) (Recorded.start table) fresh).imp
      fun _ recorded => recorded.chained

/-- The table of one deal. -/
def oneDeal : DealTable where
  deals := [{ id := 1, organization := 1, company := 1, title := "Boiler", createdAt := 0 }]
  distinct := by decide

/-- An edit that is loaded after a move wins the deal. -/
theorem stage_history_chained_won :
    Always (Board.step openWorkspace 1) (Chained oneDeal) (Board.start oneDeal)
      [.load 0 (.move 1 .qualified 0 7), .lock 0, .read 0, .write 0,
        .load 0 (.patch 1 { stage := some .won } 7), .write 0, .record 0] :=
  stage_history_chained openWorkspace 1 oneDeal _ (by decide +kernel)

/-- Two moves load the deal before one of them locks it. -/
def overlappingMoves : List Action :=
  [.load 0 (.move 1 .qualified 0 7), .load 1 (.move 1 .proposal 0 7), .lock 0, .read 0, .write 0,
    .lock 1, .read 1, .write 1]

theorem stage_history_not_always_chained :
    ¬ ∀ related organization table actions, Always (Board.step related organization)
      (Chained table) (Board.start table) actions := by
  intro always
  have chained := (always openWorkspace 1 oneDeal overlappingMoves).at_end
  have chain := chained.chain (by
    rintro (_ | _ | index) saved
    · exact saved
    · exact saved
    · exact saved)
  revert chain
  decide +kernel

end BubllioCrm.Deals
