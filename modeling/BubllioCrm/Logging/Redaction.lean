import BubllioCrm.Logging.Pieces
import Mathlib.Tactic.IntervalCases

/-!
Owns what the redaction of log messages hides: which segments of a message are
secrets, the messages that differ from it in these alone, and the messages whose
redaction does not depend on them, keeps all other text and changes nothing
when it is applied again.
-/

namespace BubllioCrm.Logging

open BubllioCrm.Foundations

/-! ### Secrets -/

def Route.all : List Route := [.invitation, .adminInvitation, .passwordReset]

/-- A route with its secrets begins before the cell and ends at it or behind it,
and the cell is not one of its first. -/
def isReached (routes : List Route) (first : Route → Nat) (cells : List Cell) (index : Nat) :
    Bool :=
  routes.any fun route => (List.range (index + 1)).any fun start =>
    route.matches (cells.drop start) && start + first route ≤ index && index < start + route.length

/-- The cell has a token or a uid. -/
def isSecret : List Cell → Nat → Bool :=
  isReached Route.all fun route => route.cells.length

/-- The cell has the token of a password reset. -/
def isResetToken : List Cell → Nat → Bool :=
  isReached [.passwordReset] fun route => route.cells.length + 1

/-- The other cells have other segments as secrets, and are the same otherwise. -/
structure Varies (cells others : List Cell) : Prop where
  length : others.length = cells.length
  cell : ∀ index, others[index]? = cells[index]? ∨
    isSecret cells index = true ∧ ∃ other, others[index]? = some other ∧ other.filled = true

/-- What stays of a cell: one redaction stands for a uid and its token. -/
def keptCell (cells : List Cell) (index : Nat) : Option Cell :=
  if isResetToken cells index then none
  else if isSecret cells index then some redactedToken.cell
  else cells[index]?

/-- The cells with redactions in the place of their secrets. -/
def erased (cells : List Cell) : List Cell :=
  (List.range cells.length).filterMap (keptCell cells)

/-- The redaction of a message does not depend on its secrets, keeps all other
text and is idempotent. -/
structure HidesSecrets (value : String) : Prop where
  independent : ∀ other : String, (lineOf other.toList).head = (lineOf value.toList).head →
    Varies (lineOf value.toList).cells (lineOf other.toList).cells →
      redactSensitivePaths other = redactSensitivePaths value
  kept : (redactSensitivePaths value).toList =
    (Line.mk (lineOf value.toList).head (erased (lineOf value.toList).cells)).text
  idempotent : redactSensitivePaths (redactSensitivePaths value) = redactSensitivePaths value

/-- The cells begin with a route one of whose secrets takes part in another: the
token of an invitation is the `api` of a further route, the path behind a token
of an installation invitation is the end of an invitation route, or a further
segment stands behind a password reset. -/
def entangled (cells : List Cell) : Bool :=
  (Route.invitation.matches cells || Route.adminInvitation.matches cells) &&
      Route.all.any (fun route => route.matches (cells.drop 3)) ||
    Route.adminInvitation.matches cells && invitationFollows (cells.drop 4) ||
    Route.passwordReset.matches cells && filledAt 1 (cells.drop 6)

/-- No route of the cells is entangled. -/
def SecretsApart (cells : List Cell) : Prop :=
  ∀ start, entangled (cells.drop start) = false

/-! ### Messages and cells -/

/-- The same of cells. -/
structure CellsHide (cells : List Cell) : Prop where
  independent : ∀ others, Varies cells others → redactCells others = redactCells cells
  kept : redactCells cells = erased cells
  idempotent : redactCells (redactCells cells) = redactCells cells

theorem text_injective : Function.Injective Line.text := by
  intro first second same
  rw [← lineOf_text first, ← lineOf_text second, same]

theorem redactSensitivePaths_eq_iff {value other : String}
    (head : (lineOf other.toList).head = (lineOf value.toList).head) :
    redactSensitivePaths other = redactSensitivePaths value ↔
      redactCells (lineOf other.toList).cells = redactCells (lineOf value.toList).cells := by
  rw [← String.toList_inj, toList_redactSensitivePaths, toList_redactSensitivePaths,
    text_injective.eq_iff, Line.mk.injEq]
  exact and_iff_right head

theorem lineOf_redactSensitivePaths (value : String) :
    lineOf (redactSensitivePaths value).toList =
      ⟨(lineOf value.toList).head, redactCells (lineOf value.toList).cells⟩ := by
  rw [toList_redactSensitivePaths, lineOf_text]

theorem hidesSecrets_iff_cells (value : String) :
    HidesSecrets value ↔ CellsHide (lineOf value.toList).cells := by
  constructor
  · intro hides
    constructor
    · intro others varies
      have isLine : lineOf (String.ofList (Line.mk (lineOf value.toList).head others).text).toList =
          ⟨(lineOf value.toList).head, others⟩ := by
        rw [String.toList_ofList, lineOf_text]
      have head := congrArg Line.head isLine
      have cells := congrArg Line.cells isLine
      have same := hides.independent _ head (by rw [cells]; exact varies)
      rw [redactSensitivePaths_eq_iff head, cells] at same
      exact same
    · have kept := hides.kept
      rw [toList_redactSensitivePaths, text_injective.eq_iff] at kept
      exact congrArg Line.cells kept
    · have again := hides.idempotent
      rw [redactSensitivePaths_eq_iff (by rw [lineOf_redactSensitivePaths]),
        lineOf_redactSensitivePaths] at again
      exact again
  · intro hides
    constructor
    · intro other head varies
      exact (redactSensitivePaths_eq_iff head).mpr (hides.independent _ varies)
    · rw [toList_redactSensitivePaths, hides.kept]
    · rw [redactSensitivePaths_eq_iff (by rw [lineOf_redactSensitivePaths]),
        lineOf_redactSensitivePaths]
      exact hides.idempotent

/-! ### Reading the cells as pieces -/

/-- A piece that is read: no further route begins with its token. -/
def Piece.Reads (next : List Cell) : Piece → Prop
  | plain _ => True
  | invitation token => ∀ route : Route, route.matches (token.cell :: next) = false
  | adminInvitation token => ∀ route : Route, route.matches (token.cell :: next) = false
  | passwordReset _ _ => True
  | redactedReset => False

def AllRead : List Piece → List Cell → Prop
  | [], _ => True
  | piece :: pieces, tail => piece.Reads (cellsOf pieces ++ tail) ∧ AllRead pieces tail

variable {cell : Cell} {cells others next tail : List Cell} {pieces : List Piece}

theorem exists_token (filled : cell.filled = true) : ∃ token : Token, cell = token.cell := by
  have ⟨isSlash, nonempty⟩ := Cell.filled_iff.mp filled
  exact ⟨⟨cell.segment, nonempty⟩, Cell.eq_slash_iff.mpr ⟨isSlash, rfl⟩⟩

theorem Route.exists_of_matches_one {route : Route} (one : route.secrets = 1)
    (matched : route.matches cells = true) :
    ∃ (token : Token) (rest : List Cell), cells = route.cells ++ token.cell :: rest := by
  obtain ⟨behind, rfl, filled⟩ := (begins_iff _ _ _).mp matched
  rw [one] at filled
  cases behind with
  | nil => exact absurd filled Bool.false_ne_true
  | cons cell rest =>
      obtain ⟨token, rfl⟩ := exists_token (Bool.and_eq_true_iff.mp filled).1
      exact ⟨token, rest, rfl⟩

theorem Route.exists_of_matches_reset (matched : Route.passwordReset.matches cells = true) :
    ∃ (uid token : Token) (rest : List Cell),
      cells = Route.passwordReset.cells ++ uid.cell :: token.cell :: rest := by
  obtain ⟨behind, rfl, filled⟩ := (begins_iff _ _ _).mp matched
  cases behind with
  | nil => exact absurd filled Bool.false_ne_true
  | cons first behind =>
      have ⟨isUid, others⟩ := Bool.and_eq_true_iff.mp filled
      cases behind with
      | nil => exact absurd others Bool.false_ne_true
      | cons second rest =>
          obtain ⟨uid, rfl⟩ := exists_token isUid
          obtain ⟨token, rfl⟩ := exists_token (Bool.and_eq_true_iff.mp others).1
          exact ⟨uid, token, rest, rfl⟩

theorem Route.any_all_eq_false_iff {property : Route → Bool} :
    Route.all.any property = false ↔ ∀ route, property route = false := by
  rw [List.any_eq_false]
  constructor
  · intro none route
    have member : route ∈ Route.all := by cases route <;> decide
    exact eq_false_of_ne_true (none route member)
  · intro none route _
    rw [none route]
    exact Bool.false_ne_true

theorem entangled_eq_false_iff :
    entangled cells = false ↔
      (Route.invitation.matches cells = true ∨ Route.adminInvitation.matches cells = true →
        ∀ route : Route, route.matches (cells.drop 3) = false) ∧
      (Route.adminInvitation.matches cells = true → invitationFollows (cells.drop 4) = false) ∧
      (Route.passwordReset.matches cells = true → filledAt 1 (cells.drop 6) = false) := by
  unfold entangled
  rw [Bool.or_eq_false_iff, Bool.or_eq_false_iff, Bool.and_eq_false_imp, Bool.and_eq_false_imp,
    Bool.and_eq_false_imp, Bool.or_eq_true, Route.any_all_eq_false_iff, and_assoc]

theorem entangled_of_no_match (none : ∀ route : Route, route.matches cells = false) :
    entangled cells = false := by
  rw [entangled_eq_false_iff, none, none, none]
  simp

/-- The pieces are read, and what is behind them is nothing or entangled. -/
def ReadAs (cells : List Cell) (pieces : List Piece) (tail : List Cell) : Prop :=
  cells = cellsOf pieces ++ tail ∧ Settled pieces tail ∧ AllRead pieces tail ∧
    (tail = [] ∨ entangled tail = true)

theorem ReadAs.cons {piece : Piece} (readAs : ReadAs next pieces tail) (fits : piece.Fits next)
    (reads : piece.Reads next) : ReadAs (piece.cells ++ next) (piece :: pieces) tail := by
  obtain ⟨rfl, settled, allRead, last⟩ := readAs
  exact ⟨(cellsOf_cons_append piece pieces tail).symm, ⟨fits, settled⟩, ⟨reads, allRead⟩, last⟩

theorem Piece.length_cells_pos (piece : Piece) : 0 < piece.cells.length := by
  cases piece with
  | plain => exact Nat.one_pos
  | invitation => exact Nat.succ_pos _
  | adminInvitation => exact Nat.succ_pos _
  | passwordReset => exact Nat.succ_pos _
  | redactedReset => exact Nat.succ_pos _

/-- Cells that are not entangled begin with a piece. -/
theorem exists_piece (nonempty : cells ≠ []) (notEntangled : entangled cells = false) :
    ∃ (piece : Piece) (next : List Cell),
      cells = piece.cells ++ next ∧ piece.Fits next ∧ piece.Reads next := by
  have ⟨apart, follows, behind⟩ := entangled_eq_false_iff.mp notEntangled
  rcases Bool.eq_false_or_eq_true (Route.invitation.matches cells) with matched | notInvitation
  · obtain ⟨token, next, rfl⟩ := Route.exists_of_matches_one rfl matched
    exact ⟨.invitation token, next, rfl, trivial, apart (Or.inl matched)⟩
  · rcases Bool.eq_false_or_eq_true (Route.adminInvitation.matches cells) with matched | notAdmin
    · obtain ⟨token, next, rfl⟩ := Route.exists_of_matches_one rfl matched
      exact ⟨.adminInvitation token, next, rfl, follows matched, apart (Or.inr matched)⟩
    · rcases Bool.eq_false_or_eq_true (Route.passwordReset.matches cells) with matched | notReset
      · obtain ⟨uid, token, next, rfl⟩ := Route.exists_of_matches_reset matched
        exact ⟨.passwordReset uid token, next, rfl, behind matched, trivial⟩
      · cases cells with
        | nil => exact absurd rfl nonempty
        | cons cell next =>
            refine ⟨.plain cell, next, rfl, fun route => ?_, trivial⟩
            cases route with
            | invitation => exact notInvitation
            | adminInvitation => exact notAdmin
            | passwordReset => exact notReset

/-- Every line is read as pieces up to the first entangled route. -/
theorem exists_readAs (cells : List Cell) : ∃ pieces tail, ReadAs cells pieces tail := by
  induction size : cells.length using Nat.strongRecOn generalizing cells with
  | _ bound inductionHypothesis =>
      rcases Bool.eq_false_or_eq_true (entangled cells) with isEntangled | notEntangled
      · exact ⟨[], cells, rfl, trivial, trivial, Or.inr isEntangled⟩
      · by_cases nonempty : cells = []
        · exact ⟨[], [], nonempty, trivial, trivial, Or.inl rfl⟩
        · obtain ⟨piece, next, rfl, fits, reads⟩ := exists_piece nonempty notEntangled
          have positive := piece.length_cells_pos
          rw [List.length_append] at size
          obtain ⟨pieces, tail, readAs⟩ := inductionHypothesis next.length (by omega) next rfl
          exact ⟨piece :: pieces, tail, readAs.cons fits reads⟩

/-! ### Routes begin where pieces do -/

theorem Piece.not_matches_inside {piece : Piece} (fits : piece.Fits next) (reads : piece.Reads next)
    {start : Nat} (positive : 0 < start) (inside : start < piece.cells.length) (route : Route) :
    route.matches ((piece.cells ++ next).drop start) = false := by
  cases piece with
  | plain cell =>
      have isOne : start < 1 := inside
      omega
  | invitation token =>
      have bound : start < 4 := inside
      interval_cases start
      · exact route.not_matches_of_ne (by decide)
      · exact route.not_matches_of_ne (by decide)
      · exact reads route
  | adminInvitation token =>
      have bound : start < 4 := inside
      interval_cases start
      · exact route.not_matches_of_ne (by decide)
      · exact route.not_matches_of_ne (by decide)
      · exact reads route
  | passwordReset uid token =>
      have bound : start < 6 := inside
      interval_cases start
      · exact route.not_matches_of_ne (by decide)
      · exact route.not_matches_of_ne (by decide)
      · exact route.not_matches_of_ne (by decide)
      · exact (route.not_matches_of_unfilled fits uid.cell token.cell).2
      · exact (route.not_matches_of_unfilled fits token.cell token.cell).1
  | redactedReset => exact reads.elim

/-- The route that is read as the piece. -/
def Piece.route : Piece → Option Route
  | plain _ => none
  | invitation _ => some .invitation
  | adminInvitation _ => some .adminInvitation
  | passwordReset _ _ => some .passwordReset
  | redactedReset => none

theorem Token.filledAt_one (token : Token) (rest : List Cell) :
    filledAt 1 (token.cell :: rest) = true := by
  rw [filledAt_cons, token.filled]
  rfl

/-- Only the route of a piece begins with it. -/
theorem Piece.matches_iff {piece : Piece} (fits : piece.Fits next) (reads : piece.Reads next)
    {route : Route} : route.matches (piece.cells ++ next) = true ↔ piece.route = some route := by
  have ofRoute (own : Route) (secrets : List Cell) (filled : filledAt own.secrets secrets = true) :
      route.matches (own.cells ++ secrets ++ next) = true ↔ some own = some route := by
    rw [List.append_assoc, Option.some.injEq]
    constructor
    · intro matched
      by_contra different
      rw [Route.not_matches_of_other (Ne.symm different)] at matched
      exact Bool.false_ne_true matched
    · rintro rfl
      exact own.matches_cells (filledAt_append filled next)
  cases piece with
  | plain cell =>
      have noMatch : route.matches ([cell] ++ next) = false := fits route
      exact iff_of_false (by rw [Piece.cells, noMatch]; exact Bool.false_ne_true)
        (Option.some_ne_none route).symm
  | invitation token => exact ofRoute .invitation [token.cell] (token.filledAt_one [])
  | adminInvitation token => exact ofRoute .adminInvitation [token.cell] (token.filledAt_one [])
  | passwordReset uid token =>
      have filled : filledAt 2 [uid.cell, token.cell] = true := by
        rw [filledAt_cons, uid.filled, token.filledAt_one]
        rfl
      exact ofRoute .passwordReset [uid.cell, token.cell] filled
  | redactedReset => exact reads.elim

theorem isReached_iff {routes : List Route} {first : Route → Nat} {index : Nat} :
    isReached routes first cells index = true ↔
      ∃ route ∈ routes, ∃ start, route.matches (cells.drop start) = true ∧
        start + first route ≤ index ∧ index < start + route.length := by
  unfold isReached
  rw [List.any_eq_true]
  refine exists_congr fun route => and_congr_right fun _ => ?_
  rw [List.any_eq_true]
  constructor
  · rintro ⟨start, -, isStart⟩
    simp only [Bool.and_eq_true, decide_eq_true_eq, and_assoc] at isStart
    exact ⟨start, isStart⟩
  · rintro ⟨start, matched, behind, before⟩
    refine ⟨start, ?_, ?_⟩
    · rw [List.mem_range]
      omega
    · simp only [Bool.and_eq_true, decide_eq_true_eq, and_assoc]
      exact ⟨matched, behind, before⟩

theorem Piece.isReached_append {piece : Piece} (fits : piece.Fits next) (reads : piece.Reads next)
    {routes : List Route} {first : Route → Nat} {index : Nat} :
    isReached routes first (piece.cells ++ next) index = true ↔
      (∃ route ∈ routes, piece.route = some route ∧ first route ≤ index ∧ index < route.length) ∨
        piece.cells.length ≤ index ∧
          isReached routes first next (index - piece.cells.length) = true := by
  rw [isReached_iff, isReached_iff]
  constructor
  · rintro ⟨route, isRoute, start, matched, behind, before⟩
    rcases Nat.eq_zero_or_pos start with rfl | positive
    · have own := (Piece.matches_iff fits reads).mp matched
      exact Or.inl ⟨route, isRoute, own, by omega, by omega⟩
    · rcases Nat.lt_or_ge start piece.cells.length with inside | outside
      · rw [Piece.not_matches_inside fits reads positive inside] at matched
        exact absurd matched Bool.false_ne_true
      · obtain ⟨further, rfl⟩ := Nat.exists_eq_add_of_le outside
        rw [List.drop_length_add_append] at matched
        exact Or.inr ⟨by omega, route, isRoute, further, matched, by omega, by omega⟩
  · rintro (⟨route, isRoute, own, behind, before⟩ |
      ⟨outside, route, isRoute, start, matched, behind, before⟩)
    · have matched := (Piece.matches_iff fits reads).mpr own
      exact ⟨route, isRoute, 0, matched, by omega, by omega⟩
    · refine ⟨route, isRoute, piece.cells.length + start, ?_, by omega, by omega⟩
      rwa [List.drop_length_add_append]

/-- The places of the secrets of a piece. -/
def Piece.secretPlaces : Piece → List Nat
  | plain _ => []
  | invitation _ => [3]
  | adminInvitation _ => [3]
  | passwordReset _ _ => [4, 5]
  | redactedReset => []

/-- The place of the token of a password reset. -/
def Piece.resetTokenPlaces : Piece → List Nat
  | passwordReset _ _ => [5]
  | _ => []

theorem Piece.mem_secretPlaces_iff (piece : Piece) {index : Nat} :
    index ∈ piece.secretPlaces ↔ ∃ route ∈ Route.all, piece.route = some route ∧
      route.cells.length ≤ index ∧ index < route.length := by
  have isIn (route : Route) : route ∈ Route.all := by cases route <;> decide
  cases piece with
  | plain => simp [secretPlaces, route]
  | invitation =>
      simp only [secretPlaces, route, isIn, true_and, Option.some.injEq, exists_eq_left',
        List.mem_singleton]
      show index = 3 ↔ 3 ≤ index ∧ index < 4
      omega
  | adminInvitation =>
      simp only [secretPlaces, route, isIn, true_and, Option.some.injEq, exists_eq_left',
        List.mem_singleton]
      show index = 3 ↔ 3 ≤ index ∧ index < 4
      omega
  | passwordReset =>
      simp only [secretPlaces, route, isIn, true_and, Option.some.injEq, exists_eq_left',
        List.mem_cons, List.not_mem_nil, or_false]
      show index = 4 ∨ index = 5 ↔ 4 ≤ index ∧ index < 6
      omega
  | redactedReset => simp [secretPlaces, route]

theorem Piece.mem_resetTokenPlaces_iff (piece : Piece) {index : Nat} :
    index ∈ piece.resetTokenPlaces ↔ ∃ route ∈ [Route.passwordReset], piece.route = some route ∧
      route.cells.length + 1 ≤ index ∧ index < route.length := by
  cases piece with
  | plain => simp [resetTokenPlaces, route]
  | invitation => simp [resetTokenPlaces, route]
  | adminInvitation => simp [resetTokenPlaces, route]
  | passwordReset =>
      simp only [resetTokenPlaces, route, List.mem_singleton, exists_eq_left, true_and]
      show index = 5 ↔ 5 ≤ index ∧ index < 6
      omega
  | redactedReset => simp [resetTokenPlaces, route]

theorem Piece.isSecret_append {piece : Piece} (fits : piece.Fits next) (reads : piece.Reads next)
    {index : Nat} : isSecret (piece.cells ++ next) index = true ↔
      index ∈ piece.secretPlaces ∨
        piece.cells.length ≤ index ∧ isSecret next (index - piece.cells.length) = true := by
  rw [piece.mem_secretPlaces_iff]
  exact Piece.isReached_append fits reads

theorem Piece.isResetToken_append {piece : Piece} (fits : piece.Fits next)
    (reads : piece.Reads next) {index : Nat} : isResetToken (piece.cells ++ next) index = true ↔
      index ∈ piece.resetTokenPlaces ∨
        piece.cells.length ≤ index ∧ isResetToken next (index - piece.cells.length) = true := by
  rw [piece.mem_resetTokenPlaces_iff]
  exact Piece.isReached_append fits reads

theorem Piece.secretPlaces_lt (piece : Piece) {place : Nat} (isPlace : place ∈ piece.secretPlaces) :
    place < piece.cells.length := by
  have isThree (member : place ∈ [3]) : place < 4 := by
    rw [List.mem_singleton.mp member]
    decide
  cases piece with
  | plain => exact absurd isPlace List.not_mem_nil
  | invitation => exact isThree isPlace
  | adminInvitation => exact isThree isPlace
  | passwordReset =>
      have all : ∀ place ∈ [4, 5], place < 6 := by decide
      exact all place isPlace
  | redactedReset => exact absurd isPlace List.not_mem_nil

theorem Piece.resetTokenPlaces_subset (piece : Piece) :
    piece.resetTokenPlaces ⊆ piece.secretPlaces := by
  cases piece with
  | plain => exact List.nil_subset _
  | invitation => exact List.nil_subset _
  | adminInvitation => exact List.nil_subset _
  | passwordReset => exact List.subset_cons_self _ _
  | redactedReset => exact List.nil_subset _

/-! ### What is kept -/

/-- What is kept of a cell of a piece. -/
def Piece.keptAt (piece : Piece) (place : Nat) : Option Cell :=
  if place ∈ piece.resetTokenPlaces then none
  else if place ∈ piece.secretPlaces then some redactedToken.cell
  else piece.cells[place]?

theorem Piece.filterMap_keptAt {piece : Piece} (reads : piece.Reads next) :
    (List.range piece.cells.length).filterMap piece.keptAt = piece.erase.cells := by
  cases piece with
  | plain cell => rfl
  | invitation token => rfl
  | adminInvitation token => rfl
  | passwordReset uid token => rfl
  | redactedReset => exact reads.elim

theorem Piece.keptCell_inside {piece : Piece} (fits : piece.Fits next) (reads : piece.Reads next)
    {index : Nat} (inside : index < piece.cells.length) :
    keptCell (piece.cells ++ next) index = piece.keptAt index := by
  have isToken :
      isResetToken (piece.cells ++ next) index = true ↔ index ∈ piece.resetTokenPlaces := by
    rw [Piece.isResetToken_append fits reads]
    exact or_iff_left fun outside => absurd outside.1 (Nat.not_le.mpr inside)
  have secret : isSecret (piece.cells ++ next) index = true ↔ index ∈ piece.secretPlaces := by
    rw [Piece.isSecret_append fits reads]
    exact or_iff_left fun outside => absurd outside.1 (Nat.not_le.mpr inside)
  unfold keptCell Piece.keptAt
  simp only [isToken, secret, List.getElem?_append_left inside]

theorem Piece.keptCell_outside {piece : Piece} (fits : piece.Fits next) (reads : piece.Reads next)
    (index : Nat) : keptCell (piece.cells ++ next) (piece.cells.length + index) =
      keptCell next index := by
  have outside : piece.cells.length + index ∉ piece.secretPlaces := by
    intro isPlace
    have inside := piece.secretPlaces_lt isPlace
    omega
  have isToken : isResetToken (piece.cells ++ next) (piece.cells.length + index) = true ↔
      isResetToken next index = true := by
    rw [Piece.isResetToken_append fits reads, Nat.add_sub_cancel_left]
    exact (or_iff_right fun isPlace => outside (piece.resetTokenPlaces_subset isPlace)).trans
      (and_iff_right (Nat.le_add_right _ _))
  have secret : isSecret (piece.cells ++ next) (piece.cells.length + index) = true ↔
      isSecret next index = true := by
    rw [Piece.isSecret_append fits reads, Nat.add_sub_cancel_left]
    exact (or_iff_right outside).trans (and_iff_right (Nat.le_add_right _ _))
  have behind : (piece.cells ++ next)[piece.cells.length + index]? = next[index]? := by
    rw [List.getElem?_append_right (Nat.le_add_right _ _), Nat.add_sub_cancel_left]
  unfold keptCell
  simp only [isToken, secret, behind]

theorem erased_append {piece : Piece} (fits : piece.Fits next) (reads : piece.Reads next) :
    erased (piece.cells ++ next) = piece.erase.cells ++ erased next := by
  unfold erased
  rw [List.length_append, List.range_add, List.filterMap_append, List.filterMap_map,
    ← Piece.filterMap_keptAt reads]
  congr 1
  · apply List.filterMap_congr
    intro index member
    exact Piece.keptCell_inside fits reads (List.mem_range.mp member)
  · apply List.filterMap_congr
    intro index _
    exact Piece.keptCell_outside fits reads index

theorem erased_cellsOf (settled : Settled pieces []) (allRead : AllRead pieces []) :
    erased (cellsOf pieces) = cellsOf (pieces.map Piece.erase) := by
  induction pieces with
  | nil => rfl
  | cons piece pieces inductionHypothesis =>
      have ⟨fits, others⟩ := settled
      have ⟨reads, othersRead⟩ := allRead
      rw [List.append_nil] at fits reads
      have parts : cellsOf (piece :: pieces) = piece.cells ++ cellsOf pieces := rfl
      rw [parts, erased_append fits reads, inductionHypothesis others othersRead]
      rfl

/-! ### What varies -/

theorem take_eq_take {front own : List Cell} {count : Nat}
    (same : ∀ index < count, front[index]? = own[index]?) : front.take count = own.take count := by
  apply List.ext_getElem?
  intro index
  rw [List.getElem?_take, List.getElem?_take]
  split
  · rename_i inside
    exact same index inside
  · rfl

/-- Cells in the place of those of a piece, with segments as its secrets. -/
structure Piece.VariesTo (piece : Piece) (front : List Cell) : Prop where
  length : front.length = piece.cells.length
  kept : ∀ index, index ∉ piece.secretPlaces → front[index]? = piece.cells[index]?
  secret : ∀ index ∈ piece.secretPlaces, ∀ cell, front[index]? = some cell →
    ∃ token : Token, cell = token.cell

theorem exists_map_cell {cells : List Cell}
    (tokens : ∀ cell ∈ cells, ∃ token : Token, cell = token.cell) :
    ∃ tokens : List Token, cells = tokens.map Token.cell := by
  induction cells with
  | nil => exact ⟨[], rfl⟩
  | cons cell cells inductionHypothesis =>
      obtain ⟨token, rfl⟩ := tokens cell List.mem_cons_self
      obtain ⟨others, rfl⟩ :=
        inductionHypothesis fun other member => tokens other (List.mem_cons_of_mem _ member)
      exact ⟨token :: others, rfl⟩

/-- The names of a piece stay, and as many tokens are behind them. -/
theorem Piece.VariesTo.exists_tokens {piece : Piece} {front names secrets : List Cell}
    (varies : piece.VariesTo front) (parts : piece.cells = names ++ secrets)
    (places : ∀ index, index ∈ piece.secretPlaces ↔
      names.length ≤ index ∧ index < piece.cells.length) :
    ∃ tokens : List Token, front = names ++ tokens.map Token.cell ∧
      tokens.length = secrets.length := by
  have length := varies.length
  have kept : front.take names.length = names := by
    have same : front.take names.length = piece.cells.take names.length := take_eq_take
      fun index inside => varies.kept index fun isPlace =>
        Nat.not_lt.mpr ((places index).mp isPlace).1 inside
    rw [same, parts, List.take_left]
  have areTokens : ∀ cell ∈ front.drop names.length, ∃ token : Token, cell = token.cell := by
    intro cell member
    obtain ⟨index, isCell⟩ := List.mem_iff_getElem?.mp member
    rw [List.getElem?_drop] at isCell
    have ⟨inside, _⟩ := List.getElem?_eq_some_iff.mp isCell
    exact varies.secret _ ((places _).mpr ⟨Nat.le_add_right _ _, by omega⟩) cell isCell
  obtain ⟨tokens, isTokens⟩ := exists_map_cell areTokens
  refine ⟨tokens, ?_, ?_⟩
  · rw [← isTokens]
    nth_rewrite 1 [← kept]
    exact (List.take_append_drop _ _).symm
  · have drops := congrArg List.length isTokens
    rw [List.length_drop, List.length_map, length, parts, List.length_append,
      Nat.add_sub_cancel_left] at drops
    exact drops.symm

/-- They are a piece of the same kind. -/
theorem Piece.VariesTo.exists_piece {piece : Piece} {front : List Cell}
    (varies : piece.VariesTo front) :
    ∃ other : Piece, front = other.cells ∧ other.erase = piece.erase := by
  have one (index : Nat) : index ∈ [3] ↔ 3 ≤ index ∧ index < 4 := by
    rw [List.mem_singleton]
    omega
  cases piece with
  | plain cell =>
      have none (index : Nat) : index ∈ (plain cell).secretPlaces ↔ 1 ≤ index ∧ index < 1 := by
        refine iff_of_false List.not_mem_nil ?_
        omega
      obtain ⟨tokens, isFront, count⟩ :=
        varies.exists_tokens (List.append_nil [cell]).symm none
      rw [List.length_eq_zero_iff.mp count] at isFront
      exact ⟨plain cell, isFront, rfl⟩
  | invitation token =>
      obtain ⟨tokens, isFront, count⟩ := varies.exists_tokens rfl one
      obtain ⟨other, rfl⟩ := List.length_eq_one_iff.mp count
      exact ⟨invitation other, isFront, rfl⟩
  | adminInvitation token =>
      obtain ⟨tokens, isFront, count⟩ := varies.exists_tokens rfl one
      obtain ⟨other, rfl⟩ := List.length_eq_one_iff.mp count
      exact ⟨adminInvitation other, isFront, rfl⟩
  | passwordReset uid token =>
      have two (index : Nat) : index ∈ [4, 5] ↔ 4 ≤ index ∧ index < 6 := by
        rw [List.mem_cons, List.mem_singleton]
        omega
      obtain ⟨tokens, isFront, count⟩ := varies.exists_tokens rfl two
      obtain ⟨otherUid, other, rfl⟩ := List.length_eq_two.mp count
      exact ⟨passwordReset otherUid other, isFront, rfl⟩
  | redactedReset =>
      have none (index : Nat) : index ∈ redactedReset.secretPlaces ↔ 5 ≤ index ∧ index < 5 := by
        refine iff_of_false List.not_mem_nil ?_
        omega
      obtain ⟨tokens, isFront, count⟩ :=
        varies.exists_tokens (List.append_nil redactedReset.cells).symm none
      rw [List.length_eq_zero_iff.mp count, List.map_nil, List.append_nil] at isFront
      exact ⟨redactedReset, isFront, rfl⟩

theorem Piece.exists_token_of_place {piece : Piece} {index : Nat}
    (isPlace : index ∈ piece.secretPlaces) (isCell : piece.cells[index]? = some cell) :
    ∃ token : Token, cell = token.cell := by
  cases piece with
  | plain => exact absurd isPlace List.not_mem_nil
  | invitation token =>
      obtain rfl := List.mem_singleton.mp isPlace
      exact ⟨token, (Option.some.inj isCell).symm⟩
  | adminInvitation token =>
      obtain rfl := List.mem_singleton.mp isPlace
      exact ⟨token, (Option.some.inj isCell).symm⟩
  | passwordReset uid token =>
      rcases List.mem_cons.mp isPlace with rfl | isToken
      · exact ⟨uid, (Option.some.inj isCell).symm⟩
      · obtain rfl := List.mem_singleton.mp isToken
        exact ⟨token, (Option.some.inj isCell).symm⟩
  | redactedReset => exact absurd isPlace List.not_mem_nil

theorem Varies.variesTo {piece : Piece} (fits : piece.Fits next) (reads : piece.Reads next)
    (varies : Varies (piece.cells ++ next) others) :
    piece.VariesTo (others.take piece.cells.length) := by
  have length := varies.length
  rw [List.length_append] at length
  have inside {index : Nat} (isInside : index < piece.cells.length) :
      (others.take piece.cells.length)[index]? = piece.cells[index]? ∨
        index ∈ piece.secretPlaces ∧
          ∃ other, (others.take piece.cells.length)[index]? = some other ∧
            other.filled = true := by
    rw [List.getElem?_take_of_lt isInside]
    refine (varies.cell index).imp (fun same => ?_) (fun changed => ⟨?_, changed.2⟩)
    · rw [same, List.getElem?_append_left isInside]
    · exact ((Piece.isSecret_append fits reads).mp changed.1).resolve_right fun outside =>
        Nat.not_le.mpr isInside outside.1
  constructor
  · rw [List.length_take, length]
    omega
  · intro index notPlace
    rcases Nat.lt_or_ge index piece.cells.length with isInside | isOutside
    · exact (inside isInside).resolve_right fun changed => notPlace changed.1
    · rw [List.getElem?_eq_none isOutside, List.getElem?_eq_none]
      rw [List.length_take]
      omega
  · intro index isPlace cell isCell
    rcases inside (piece.secretPlaces_lt isPlace) with same | ⟨-, other, isOther, filled⟩
    · exact Piece.exists_token_of_place isPlace (same.symm.trans isCell)
    · obtain rfl := Option.some.inj (isCell.symm.trans isOther)
      exact exists_token filled

theorem Varies.drop {piece : Piece} (fits : piece.Fits next) (reads : piece.Reads next)
    (varies : Varies (piece.cells ++ next) others) :
    Varies next (others.drop piece.cells.length) := by
  have length := varies.length
  rw [List.length_append] at length
  constructor
  · rw [List.length_drop, length, Nat.add_sub_cancel_left]
  · intro index
    rw [List.getElem?_drop]
    refine (varies.cell (piece.cells.length + index)).imp (fun same => ?_) (fun changed => ?_)
    · rw [same, List.getElem?_append_right (Nat.le_add_right _ _), Nat.add_sub_cancel_left]
    · have ⟨isChanged, filled⟩ := changed
      refine ⟨?_, filled⟩
      rw [Piece.isSecret_append fits reads, Nat.add_sub_cancel_left] at isChanged
      rcases isChanged with isPlace | ⟨-, isSecret⟩
      · have isInside := piece.secretPlaces_lt isPlace
        omega
      · exact isSecret

/-- Cells that vary from pieces are pieces of the same kinds. -/
theorem Varies.exists_pieces (settled : Settled pieces []) (allRead : AllRead pieces [])
    (varies : Varies (cellsOf pieces) others) :
    ∃ otherPieces, others = cellsOf otherPieces ∧
      pieces.map Piece.erase = otherPieces.map Piece.erase := by
  induction pieces generalizing others with
  | nil =>
      have isNil : others = [] := List.length_eq_zero_iff.mp varies.length
      exact ⟨[], isNil, rfl⟩
  | cons piece pieces inductionHypothesis =>
      have ⟨fits, rest⟩ := settled
      have ⟨reads, restRead⟩ := allRead
      rw [List.append_nil] at fits reads
      obtain ⟨other, isOther, sameKind⟩ := (Varies.variesTo fits reads varies).exists_piece
      obtain ⟨otherPieces, isRest, sameKinds⟩ :=
        inductionHypothesis rest restRead (Varies.drop fits reads varies)
      refine ⟨other :: otherPieces, ?_, ?_⟩
      · rw [cellsOf, List.flatMap_cons, ← isOther]
        show others = _ ++ cellsOf otherPieces
        rw [← isRest, List.take_append_drop]
      · rw [List.map_cons, List.map_cons, sameKind, sameKinds]

/-! ### Secrets that are apart are hidden -/

theorem cellsHide_of_pieces (settled : Settled pieces []) (allRead : AllRead pieces []) :
    CellsHide (cellsOf pieces) := by
  have redacted {others : List Piece} (isSettled : Settled others []) :
      redactCells (cellsOf others) = cellsOf (others.map Piece.erase) := by
    have parts := redactCells_cellsOf isSettled Front.nil
    rwa [List.append_nil, show redactCells [] = [] from rfl, List.append_nil] at parts
  constructor
  · intro others varies
    obtain ⟨otherPieces, rfl, sameKinds⟩ := varies.exists_pieces settled allRead
    rw [redacted settled, redacted (settled.congr sameKinds Alike.nil), sameKinds]
  · rw [redacted settled, erased_cellsOf settled allRead]
  · have twice : (pieces.map Piece.erase).map Piece.erase = pieces.map Piece.erase := by
      rw [List.map_map]
      exact List.map_congr_left fun piece _ => piece.erase_erase
    rw [redacted settled, redacted (settled.congr twice.symm Alike.nil), twice]

theorem Piece.not_entangled {piece : Piece} (fits : piece.Fits next) (reads : piece.Reads next) :
    entangled (piece.cells ++ next) = false := by
  rw [entangled_eq_false_iff, Piece.matches_iff fits reads, Piece.matches_iff fits reads,
    Piece.matches_iff fits reads]
  cases piece with
  | plain cell => exact ⟨nofun, nofun, nofun⟩
  | invitation token => exact ⟨fun _ => reads, nofun, nofun⟩
  | adminInvitation token => exact ⟨fun _ => reads, fun _ => fits, nofun⟩
  | passwordReset uid token => exact ⟨nofun, nofun, fun _ => fits⟩
  | redactedReset => exact reads.elim

theorem secretsApart_of_pieces (settled : Settled pieces []) (allRead : AllRead pieces []) :
    SecretsApart (cellsOf pieces) := by
  induction pieces with
  | nil =>
      intro start
      rw [show cellsOf [] = [] from rfl, List.drop_nil]
      rfl
  | cons piece pieces inductionHypothesis =>
      have ⟨fits, rest⟩ := settled
      have ⟨reads, restRead⟩ := allRead
      rw [List.append_nil] at fits reads
      intro start
      show entangled ((piece.cells ++ cellsOf pieces).drop start) = false
      rcases Nat.lt_or_ge start piece.cells.length with isInside | isOutside
      · rcases Nat.eq_zero_or_pos start with rfl | positive
        · exact Piece.not_entangled fits reads
        · exact entangled_of_no_match (Piece.not_matches_inside fits reads positive isInside)
      · obtain ⟨further, rfl⟩ := Nat.exists_eq_add_of_le isOutside
        rw [List.drop_length_add_append]
        exact inductionHypothesis rest restRead further

/-! ### Entangled secrets are not hidden -/

def letterX : Token := ⟨⟨['x'], by decide⟩, by decide⟩

def letterY : Token := ⟨⟨['y'], by decide⟩, by decide⟩

def apiToken : Token := ⟨api, by decide⟩

theorem Route.front_cells (route : Route) (rest : List Cell) : Front (route.cells ++ rest) := by
  cases route with
  | invitation => exact Front.route _ (by decide) (by decide)
  | adminInvitation => exact Front.route _ (by decide) (by decide)
  | passwordReset => exact Front.route _ (by decide) (by decide)

theorem getElem?_change (first rest : List Cell) (cell other : Cell) (index : Nat) :
    (first ++ other :: rest)[index]? = (first ++ cell :: rest)[index]? ∨
      index = first.length ∧ (first ++ other :: rest)[index]? = some other := by
  rcases Nat.lt_trichotomy index first.length with before | same | behind
  · left
    rw [List.getElem?_append_left before, List.getElem?_append_left before]
  · right
    rw [same, List.getElem?_append_right le_rfl, Nat.sub_self]
    exact ⟨rfl, rfl⟩
  · left
    obtain ⟨further, rfl⟩ := Nat.exists_eq_add_of_lt behind
    rw [List.getElem?_append_right (by omega), List.getElem?_append_right (by omega),
      show first.length + further + 1 - first.length = further + 1 by omega]
    rfl

/-- A change of one secret. -/
theorem varies_of_one (first rest : List Cell) (cell : Cell) (token : Token)
    (secret : isSecret (first ++ cell :: rest) first.length = true) :
    Varies (first ++ cell :: rest) (first ++ token.cell :: rest) := by
  constructor
  · simp
  · intro index
    refine (getElem?_change first rest cell token.cell index).imp_right ?_
    rintro ⟨rfl, isToken⟩
    exact ⟨secret, token.cell, isToken, token.filled⟩

/-- A change of two secrets. -/
theorem varies_of_two (first middle rest : List Cell) (cell other : Cell) (token otherToken : Token)
    (secret : isSecret (first ++ cell :: (middle ++ other :: rest)) first.length = true)
    (otherSecret : isSecret (first ++ cell :: (middle ++ other :: rest))
      (first.length + 1 + middle.length) = true) :
    Varies (first ++ cell :: (middle ++ other :: rest))
      (first ++ token.cell :: (middle ++ otherToken.cell :: rest)) := by
  constructor
  · simp
  · intro index
    rcases getElem?_change first (middle ++ otherToken.cell :: rest) cell token.cell index with
      same | ⟨rfl, isToken⟩
    · have regroup (last : Cell) : first ++ cell :: (middle ++ last :: rest) =
          (first ++ cell :: middle) ++ last :: rest := by simp
      rw [same, regroup, regroup]
      refine (getElem?_change _ rest other otherToken.cell index).imp_right fun changed => ?_
      have place : index = first.length + 1 + middle.length := by
        rw [changed.1, List.length_append, List.length_cons]
        omega
      rw [← regroup, place]
      rw [place] at changed
      exact ⟨otherSecret, otherToken.cell, changed.2, otherToken.filled⟩
    · exact Or.inr ⟨secret, token.cell, isToken, token.filled⟩

theorem Route.pass_own {route : Route} (one : route.secrets = 1) (token : Token)
    (next : List Cell) :
    route.pass (route.cells ++ token.cell :: next) =
      route.cells ++ redactedToken.cell :: route.pass next := by
  have redacted := route.pass_cells (token.secrets route one) next
  rwa [Route.redacted, List.append_assoc] at redacted

theorem Route.pass_other {route other : Route} (different : route ≠ other) {token : Token}
    (notApi : token.cell ≠ Cell.slash api) (next : List Cell) :
    route.pass (other.cells ++ token.cell :: next) =
      other.cells ++ token.cell :: route.pass next := by
  rw [Route.pass_cells_of_not (Route.not_matches_of_other different _), route.pass_of_ne notApi]

theorem Route.exists_pass_append (route : Route) {front : List Cell}
    (noApi : ∀ cell ∈ front, cell ≠ Cell.slash api) (cell : Cell) (rest : List Cell) :
    ∃ others, route.pass (front ++ cell :: rest) = front ++ cell :: others := by
  obtain ⟨others, isCons⟩ := route.exists_pass_cons cell rest
  exact ⟨others, by rw [route.pass_append_of_ne noApi, isCons]⟩

/-- One substitution of an invitation whose token begins no route, with a cell
behind it. -/
theorem Route.exists_pass_outer (route : Route) {outer : Route} (one : outer.secrets = 1)
    {token : Token} (notApi : token.cell ≠ Cell.slash api) {front : List Cell}
    (noApi : ∀ cell ∈ front, cell ≠ Cell.slash api) (cell : Cell) (rest : List Cell) :
    ∃ others, route.pass (outer.cells ++ token.cell :: (front ++ cell :: rest)) =
      outer.cells ++ (if route = outer then redactedToken else token).cell ::
        (front ++ cell :: others) := by
  obtain ⟨others, kept⟩ := route.exists_pass_append noApi cell rest
  refine ⟨others, ?_⟩
  split
  · rename_i isOuter
    subst isOuter
    rw [Route.pass_own one, kept]
  · rename_i different
    rw [Route.pass_other different notApi, kept]

/-- The redaction of an invitation leaves a segment behind it. -/
theorem exists_redactCells_outer {outer : Route} (one : outer.secrets = 1) {token : Token}
    (notApi : token.cell ≠ Cell.slash api) {front : List Cell}
    (noApi : ∀ cell ∈ front, cell ≠ Cell.slash api) (cell : Cell) (rest : List Cell) :
    ∃ others, redactCells (outer.cells ++ token.cell :: (front ++ cell :: rest)) =
      outer.cells ++ redactedToken.cell :: (front ++ cell :: others) := by
  have notRedacted := redactedToken_cell_ne
  unfold redactCells
  obtain ⟨first, isFirst⟩ := Route.invitation.exists_pass_outer one notApi noApi cell rest
  rw [isFirst]
  cases outer with
  | invitation =>
      rw [if_pos rfl]
      obtain ⟨second, isSecond⟩ :=
        Route.adminInvitation.exists_pass_outer one notRedacted noApi cell first
      obtain ⟨third, isThird⟩ :=
        Route.passwordReset.exists_pass_outer one notRedacted noApi cell second
      rw [isSecond, if_neg (by decide), isThird, if_neg (by decide)]
      exact ⟨third, rfl⟩
  | adminInvitation =>
      rw [if_neg (by decide)]
      obtain ⟨second, isSecond⟩ :=
        Route.adminInvitation.exists_pass_outer one notApi noApi cell first
      obtain ⟨third, isThird⟩ :=
        Route.passwordReset.exists_pass_outer one notRedacted noApi cell second
      rw [isSecond, if_pos rfl, isThird, if_neg (by decide)]
      exact ⟨third, rfl⟩
  | passwordReset => exact absurd one (by decide)

/-- With `api` as its token, the path behind an installation invitation is redacted. -/
theorem exists_redactCells_api (token : Token) (rest : List Cell) :
    ∃ others, redactCells (Route.adminInvitation.cells ++ apiToken.cell ::
        (Route.invitation.names.map Cell.slash ++ token.cell :: rest)) =
      Route.adminInvitation.cells ++ redactedToken.cell ::
        (Route.invitation.names.map Cell.slash ++ redactedToken.cell :: others) := by
  have inner : apiToken.cell :: (Route.invitation.names.map Cell.slash ++ token.cell :: rest) =
      Route.invitation.cells ++ token.cell :: rest := rfl
  have first : Route.invitation.pass (Route.adminInvitation.cells ++ apiToken.cell ::
      (Route.invitation.names.map Cell.slash ++ token.cell :: rest)) =
        Route.adminInvitation.cells ++ apiToken.cell :: (Route.invitation.names.map Cell.slash ++
          redactedToken.cell :: Route.invitation.pass rest) := by
    rw [Route.pass_cells_of_not (Route.not_matches_of_other (by decide) _), inner,
      Route.pass_own rfl]
    rfl
  unfold redactCells
  rw [first]
  obtain ⟨second, isSecond⟩ := Route.adminInvitation.exists_pass_append
    Route.invitation.names_ne redactedToken.cell (Route.invitation.pass rest)
  rw [Route.pass_own rfl, isSecond]
  obtain ⟨third, isThird⟩ := Route.passwordReset.exists_pass_append
    Route.invitation.names_ne redactedToken.cell second
  rw [Route.pass_other (by decide) redactedToken_cell_ne, isThird]
  exact ⟨third, rfl⟩

theorem isSecret_of_matches (before : List Cell) {route : Route}
    (matched : route.matches cells = true) {place : Nat} (behind : route.cells.length ≤ place)
    (inside : place < route.length) :
    isSecret (before ++ cells) (before.length + place) = true := by
  apply isReached_iff.mpr
  refine ⟨route, by cases route <;> decide, before.length, ?_, by omega, by omega⟩
  rwa [List.drop_left]

section Outer

variable {outer : Route} {own first second : List Cell}

/-- Two variations behind the names of a route have one redaction. -/
theorem CellsHide.redactCells_eq (hides : CellsHide (cellsOf pieces ++ (outer.cells ++ own)))
    (settled : Settled pieces (outer.cells ++ own))
    (firstVaries : Varies (cellsOf pieces ++ (outer.cells ++ own))
      (cellsOf pieces ++ (outer.cells ++ first)))
    (secondVaries : Varies (cellsOf pieces ++ (outer.cells ++ own))
      (cellsOf pieces ++ (outer.cells ++ second))) :
    redactCells (outer.cells ++ first) = redactCells (outer.cells ++ second) := by
  have nonempty (rest : List Cell) : outer.cells ++ rest ≠ [] := by simp [Route.cells]
  have settledBefore (rest : List Cell) : Settled pieces (outer.cells ++ rest) :=
    settled.congr rfl ((outer.front_cells own).alike (outer.front_cells rest)
      (iff_of_false (nonempty own) (nonempty rest)))
  have same := (hides.independent _ firstVaries).trans (hides.independent _ secondVaries).symm
  rw [redactCells_cellsOf (settledBefore first) (outer.front_cells first),
    redactCells_cellsOf (settledBefore second) (outer.front_cells second)] at same
  exact List.append_cancel_left same

/-- A token that begins a further route with secrets shows these. -/
theorem CellsHide.not_overlaps (hides : CellsHide (cellsOf pieces ++ tail))
    (settled : Settled pieces tail) {inner : Route} (one : outer.secrets = 1)
    (matched : outer.matches tail = true)
    (further : inner.matches (tail.drop outer.cells.length) = true) : False := by
  obtain ⟨token, rest, rfl⟩ := Route.exists_of_matches_one one matched
  rw [List.drop_left] at further
  obtain ⟨behind, isBehind, filled⟩ := (begins_iff _ _ _).mp further
  obtain ⟨count, isCount⟩ := inner.exists_secrets
  rw [isCount] at filled
  cases behind with
  | nil => exact Bool.false_ne_true filled
  | cons cell behind =>
      obtain ⟨-, rfl⟩ := List.cons.inj isBehind
      have varies (other : Token) : Varies
          (cellsOf pieces ++ (outer.cells ++ token.cell ::
            (inner.names.map Cell.slash ++ cell :: behind)))
          (cellsOf pieces ++ (outer.cells ++ letterX.cell ::
            (inner.names.map Cell.slash ++ other.cell :: behind))) := by
        have secret := isSecret_of_matches (cellsOf pieces) matched le_rfl
          (show outer.cells.length < outer.length by rw [outer.length_cells, Route.length]; omega)
        have innerSecret := isSecret_of_matches (cellsOf pieces ++ outer.cells) further le_rfl
          (show inner.cells.length < inner.length by
            rw [inner.length_cells, Route.length]; omega)
        rw [← List.append_assoc, ← List.length_append] at secret
        rw [inner.length_cells, ← Nat.add_assoc] at innerSecret
        rw [← List.append_assoc, ← List.append_assoc]
        exact varies_of_two _ _ _ _ _ letterX other secret (by rwa [List.length_map])
      have same := hides.redactCells_eq settled (varies letterX) (varies letterY)
      have notApi : letterX.cell ≠ Cell.slash api := by decide
      obtain ⟨rest, isFirst⟩ :=
        exists_redactCells_outer one notApi inner.names_ne letterX.cell behind
      obtain ⟨otherRest, isSecond⟩ :=
        exists_redactCells_outer one notApi inner.names_ne letterY.cell behind
      rw [isFirst, isSecond] at same
      have sameBehind := List.append_cancel_left (List.cons.inj (List.append_cancel_left same)).2
      exact absurd (List.cons.inj sameBehind).1 (by decide)

end Outer

theorem exists_of_invitationFollows (follows : invitationFollows cells = true) :
    ∃ (token : Token) (rest : List Cell), token.cell ≠ redactedToken.cell ∧
      cells = Route.invitation.names.map Cell.slash ++ token.cell :: rest := by
  unfold invitationFollows at follows
  split at follows
  · simp only [Bool.and_eq_true, decide_eq_true_eq] at follows
    obtain ⟨⟨⟨rfl, rfl⟩, filled⟩, different⟩ := follows
    obtain ⟨token, rfl⟩ := exists_token filled
    exact ⟨token, _, different, rfl⟩
  · exact absurd follows Bool.false_ne_true

/-- The path behind the token of an installation invitation shows whether the
token is `api`. -/
theorem CellsHide.not_invitationFollows (hides : CellsHide (cellsOf pieces ++ tail))
    (settled : Settled pieces tail) (matched : Route.adminInvitation.matches tail = true)
    (follows : invitationFollows (tail.drop 4) = true) : False := by
  obtain ⟨token, rest, rfl⟩ := Route.exists_of_matches_one rfl matched
  have behind : (Route.adminInvitation.cells ++ token.cell :: rest).drop 4 = rest := rfl
  rw [behind] at follows
  obtain ⟨other, others, different, rfl⟩ := exists_of_invitationFollows follows
  have varies (further : Token) : Varies
      (cellsOf pieces ++ (Route.adminInvitation.cells ++ token.cell ::
        (Route.invitation.names.map Cell.slash ++ other.cell :: others)))
      (cellsOf pieces ++ (Route.adminInvitation.cells ++ further.cell ::
        (Route.invitation.names.map Cell.slash ++ other.cell :: others))) := by
    have secret := isSecret_of_matches (cellsOf pieces) matched le_rfl (by decide)
    rw [← List.append_assoc, ← List.length_append] at secret
    rw [← List.append_assoc, ← List.append_assoc]
    exact varies_of_one _ _ _ further secret
  have same := hides.redactCells_eq settled (varies letterX) (varies apiToken)
  have notApi : letterX.cell ≠ Cell.slash api := by decide
  have one : Route.adminInvitation.secrets = 1 := rfl
  obtain ⟨kept, isFirst⟩ := exists_redactCells_outer one notApi Route.invitation.names_ne
    other.cell others
  obtain ⟨redacted, isSecond⟩ := exists_redactCells_api other others
  rw [isFirst, isSecond] at same
  have sameBehind := List.append_cancel_left (List.cons.inj (List.append_cancel_left same)).2
  exact different (List.cons.inj sameBehind).1

/-! ### A segment behind a password reset -/

theorem le_length_of_filledAt {count : Nat} (filled : filledAt count cells = true) :
    count ≤ cells.length := by
  induction count generalizing cells with
  | zero => exact Nat.zero_le _
  | succ count inductionHypothesis =>
      cases cells with
      | nil => exact absurd filled Bool.false_ne_true
      | cons cell cells =>
          exact Nat.succ_le_succ (inductionHypothesis (Bool.and_eq_true_iff.mp filled).2)

theorem Route.length_pass_le (route : Route) (cells : List Cell) :
    (route.pass cells).length ≤ cells.length := by
  apply length_substitute_le
  intro items positive
  have matched : route.matches items = true := by
    by_contra noMatch
    rw [Route.matchLength_of_not (eq_false_of_ne_true noMatch)] at positive
    exact Nat.lt_irrefl 0 positive
  obtain ⟨behind, isBehind, filled⟩ := (begins_iff _ _ _).mp matched
  obtain ⟨count, isCount⟩ := route.exists_secrets
  have long := le_length_of_filledAt filled
  have length := congrArg List.length isBehind
  rw [List.length_append, List.length_map, List.length_cons] at length
  rw [Route.matchLength, if_pos matched, Route.redacted, List.length_append, route.length_cells,
    List.length_singleton, Route.length]
  omega

/-- The first three cells are never changed. -/
theorem Route.exists_pass_short (route : Route) {front : List Cell} (short : front.length ≤ 3)
    (rest : List Cell) : ∃ others, route.pass (front ++ rest) = front ++ others := by
  induction front with
  | nil => exact ⟨_, rfl⟩
  | cons cell front inductionHypothesis =>
      rcases Bool.eq_false_or_eq_true (route.matches (cell :: (front ++ rest))) with
        matched | noMatch
      · obtain ⟨behind, isBehind, -⟩ := (begins_iff _ _ _).mp matched
        obtain ⟨others, redacted⟩ := Route.exists_pass_of_matches matched
        have long : 3 ≤ route.cells.length := by cases route <;> decide
        have isPrefix : cell :: front <+: route.cells :=
          List.prefix_of_prefix_length_le ⟨rest, isBehind⟩ ⟨behind, rfl⟩ (short.trans long)
        obtain ⟨middle, isCells⟩ := isPrefix
        rw [List.cons_append, redacted, Route.redacted, ← isCells]
        exact ⟨middle ++ [Cell.slash redactedSegment] ++ others, by simp⟩
      · have shorter : front.length ≤ 3 := (Nat.le_succ _).trans short
        obtain ⟨others, kept⟩ := inductionHypothesis shorter
        rw [List.cons_append, Route.pass_of_not noMatch, kept]
        exact ⟨others, rfl⟩

/-- The substitutions before its own leave a password reset and the cells behind
its names. -/
theorem Route.exists_pass_reset {route : Route} (different : route ≠ .passwordReset)
    {front : List Cell} (short : front.length ≤ 3) (rest : List Cell) :
    ∃ others, route.pass (Route.passwordReset.cells ++ (front ++ rest)) =
      Route.passwordReset.cells ++ (front ++ others) ∧ others.length ≤ rest.length := by
  obtain ⟨others, kept⟩ := route.exists_pass_short short rest
  refine ⟨others, ?_, ?_⟩
  · rw [Route.pass_cells_of_not (Route.not_matches_of_other different _), kept]
  · have shorter := route.length_pass_le (front ++ rest)
    rw [kept, List.length_append, List.length_append] at shorter
    exact Nat.le_of_add_le_add_left shorter

theorem Route.pass_reset (uid token : Token) (rest : List Cell) :
    Route.passwordReset.pass (Route.passwordReset.cells ++ ([uid.cell, token.cell] ++ rest)) =
      Route.passwordReset.cells ++ redactedToken.cell :: Route.passwordReset.pass rest := by
  have filled : filledAt 2 [uid.cell, token.cell] = true := by
    rw [filledAt_cons, uid.filled, token.filledAt_one]
    rfl
  have redacted := Route.passwordReset.pass_cells ⟨[uid.cell, token.cell], rfl, filled⟩ rest
  rwa [Route.redacted, List.append_assoc] at redacted

/-- The redaction of a password reset leaves a segment behind it, -/
theorem exists_redactCells_reset (uid token behind : Token) (rest : List Cell) :
    ∃ others, redactCells (Route.passwordReset.cells ++
        ([uid.cell, token.cell, behind.cell] ++ rest)) =
      Route.passwordReset.cells ++ ([redactedToken.cell, behind.cell] ++ others) := by
  have short : [uid.cell, token.cell, behind.cell].length ≤ 3 := le_rfl
  have notInvitation : Route.invitation ≠ .passwordReset := by decide
  have notAdmin : Route.adminInvitation ≠ .passwordReset := by decide
  obtain ⟨first, isFirst, -⟩ := Route.exists_pass_reset notInvitation short rest
  obtain ⟨second, isSecond, -⟩ := Route.exists_pass_reset notAdmin short first
  obtain ⟨third, isThird⟩ := Route.passwordReset.exists_pass_cons behind.cell second
  have split : [uid.cell, token.cell, behind.cell] ++ second =
      [uid.cell, token.cell] ++ behind.cell :: second := rfl
  unfold redactCells
  rw [isFirst, isSecond, split, Route.pass_reset, isThird]
  exact ⟨third, rfl⟩

/-- and takes a cell away. -/
theorem length_redactCells_reset (uid token : Token) (rest : List Cell) :
    (redactCells (Route.passwordReset.cells ++ ([uid.cell, token.cell] ++ rest))).length <
      (Route.passwordReset.cells ++ ([uid.cell, token.cell] ++ rest)).length := by
  have short : [uid.cell, token.cell].length ≤ 3 := by simp
  have notInvitation : Route.invitation ≠ .passwordReset := by decide
  have notAdmin : Route.adminInvitation ≠ .passwordReset := by decide
  obtain ⟨first, isFirst, firstShorter⟩ := Route.exists_pass_reset notInvitation short rest
  obtain ⟨second, isSecond, secondShorter⟩ := Route.exists_pass_reset notAdmin short first
  have thirdShorter := Route.passwordReset.length_pass_le second
  unfold redactCells
  rw [isFirst, isSecond, Route.pass_reset]
  simp only [List.length_append, List.length_cons, List.length_nil]
  omega

/-- With a segment behind a password reset the redaction is not idempotent. -/
theorem CellsHide.not_filled_behind (hides : CellsHide (cellsOf pieces ++ tail))
    (settled : Settled pieces tail) (matched : Route.passwordReset.matches tail = true)
    (filled : filledAt 1 (tail.drop 6) = true) : False := by
  obtain ⟨uid, token, rest, rfl⟩ := Route.exists_of_matches_reset matched
  have behind : (Route.passwordReset.cells ++ uid.cell :: token.cell :: rest).drop 6 = rest := rfl
  rw [behind] at filled
  cases rest with
  | nil => exact Bool.false_ne_true filled
  | cons cell rest =>
      obtain ⟨further, rfl⟩ := exists_token (Bool.and_eq_true_iff.mp filled).1
      have front := Route.passwordReset.front_cells (uid.cell :: token.cell :: further.cell :: rest)
      obtain ⟨others, redacted⟩ := exists_redactCells_reset uid token further rest
      have once := redactCells_cellsOf settled front
      have isRedacted : redactCells (Route.passwordReset.cells ++
          uid.cell :: token.cell :: further.cell :: rest) = _ := redacted
      rw [isRedacted] at once
      have otherFront := Route.passwordReset.front_cells
        ([redactedToken.cell, further.cell] ++ others)
      have twice : pieces.map Piece.erase = (pieces.map Piece.erase).map Piece.erase := by
        rw [List.map_map]
        exact (List.map_congr_left fun piece _ => piece.erase_erase).symm
      have settledOnce : Settled (pieces.map Piece.erase)
          (Route.passwordReset.cells ++ ([redactedToken.cell, further.cell] ++ others)) :=
        settled.congr twice (front.alike otherFront (iff_of_false (by simp [Route.cells])
          (by simp [Route.cells])))
      have again := hides.idempotent
      rw [once, redactCells_cellsOf settledOnce otherFront, ← twice] at again
      have same := congrArg List.length (List.append_cancel_left again)
      have shorter := length_redactCells_reset redactedToken further others
      omega

theorem CellsHide.not_entangled (hides : CellsHide (cellsOf pieces ++ tail))
    (settled : Settled pieces tail) : entangled tail = false := by
  refine entangled_eq_false_iff.mpr ⟨?_, ?_, ?_⟩
  · intro matched route
    by_contra further
    rw [Bool.not_eq_false] at further
    rcases matched with isInvitation | isAdmin
    · exact hides.not_overlaps settled rfl isInvitation further
    · exact hides.not_overlaps settled rfl isAdmin further
  · intro matched
    by_contra follows
    rw [Bool.not_eq_false] at follows
    exact hides.not_invitationFollows settled matched follows
  · intro matched
    by_contra filled
    rw [Bool.not_eq_false] at filled
    exact hides.not_filled_behind settled matched filled

/-! ### Messages -/

theorem cellsHide_iff (cells : List Cell) : CellsHide cells ↔ SecretsApart cells := by
  obtain ⟨pieces, tail, rfl, settled, allRead, last⟩ := exists_readAs cells
  constructor
  · intro hides
    have isNil : tail = [] := last.resolve_right (by
      rw [hides.not_entangled settled]
      exact Bool.false_ne_true)
    subst isNil
    rw [List.append_nil]
    exact secretsApart_of_pieces settled allRead
  · intro apart
    have notEntangled := apart (cellsOf pieces).length
    rw [List.drop_left] at notEntangled
    have isNil : tail = [] := last.resolve_right (by
      rw [notEntangled]
      exact Bool.false_ne_true)
    subst isNil
    rw [List.append_nil]
    exact cellsHide_of_pieces settled allRead

/-- For every message: its redaction hides its secrets exactly if these are apart. -/
theorem hidesSecrets_iff (value : String) :
    HidesSecrets value ↔ SecretsApart (lineOf value.toList).cells := by
  rw [hidesSecrets_iff_cells, cellsHide_iff]

/-- A path whose first token is the beginning of a second route. -/
def nestedInvitations : String := "/api/v1/invitations/api/v1/invitations/secret"

example : redactSensitivePaths nestedInvitations =
    "/api/v1/invitations/<redacted>/v1/invitations/secret" := by
  decide +kernel

theorem nestedInvitations_not_hidden : ¬ ∀ value : String, HidesSecrets value := by
  intro always
  have hides := (hidesSecrets_iff_cells nestedInvitations).mp (always nestedInvitations)
  have apart := (cellsHide_iff _).mp hides 0
  have isEntangled : entangled ((lineOf nestedInvitations.toList).cells.drop 0) = true := by
    decide +kernel
  rw [apart] at isEntangled
  exact Bool.false_ne_true isEntangled

end BubllioCrm.Logging
