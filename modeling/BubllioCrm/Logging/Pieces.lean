import BubllioCrm.Logging.SensitivePaths

/-!
Owns what the substitutions make of a line that is split into routes with their
secrets and plain cells: each redacts the secrets of its own route, as long as
no secret is itself the beginning of a route.
-/

namespace BubllioCrm.Logging

open BubllioCrm.Foundations

/-! ### Pieces -/

structure Token where
  segment : Segment
  nonempty : segment.chars ≠ []
deriving DecidableEq

def redactedToken : Token := ⟨redactedSegment, by decide⟩

def Token.cell (token : Token) : Cell := Cell.slash token.segment

theorem Token.filled (token : Token) : token.cell.filled = true :=
  Cell.filled_iff.mpr ⟨rfl, token.nonempty⟩

/-- A route with its secrets, a password reset that is redacted, or another cell. -/
inductive Piece where
  | plain (cell : Cell)
  | invitation (token : Token)
  | adminInvitation (token : Token)
  | passwordReset (uid token : Token)
  | redactedReset
deriving DecidableEq

namespace Piece

def cells : Piece → List Cell
  | plain cell => [cell]
  | invitation token => Route.invitation.cells ++ [token.cell]
  | adminInvitation token => Route.adminInvitation.cells ++ [token.cell]
  | passwordReset uid token => Route.passwordReset.cells ++ [uid.cell, token.cell]
  | redactedReset => Route.passwordReset.redacted

/-- What the substitution of a route makes of a piece. -/
def redact : Route → Piece → Piece
  | .invitation, invitation _ => invitation redactedToken
  | .adminInvitation, adminInvitation _ => adminInvitation redactedToken
  | .passwordReset, passwordReset _ _ => redactedReset
  | _, piece => piece

/-- What the three substitutions make of a piece. -/
def erase : Piece → Piece
  | plain cell => plain cell
  | invitation _ => invitation redactedToken
  | adminInvitation _ => adminInvitation redactedToken
  | passwordReset _ _ => redactedReset
  | redactedReset => redactedReset

end Piece

def cellsOf (pieces : List Piece) : List Cell :=
  pieces.flatMap Piece.cells

/-- The end of an invitation route with a token that is not redacted yet. -/
def invitationFollows : List Cell → Bool
  | first :: second :: token :: _ =>
      first = Cell.slash version && second = Cell.slash invitations && token.filled &&
        token ≠ redactedToken.cell
  | _ => false

namespace Piece

/-- A piece is read as such where it stands before other cells, and the secrets of
its route keep the other substitutions out. -/
def Fits (next : List Cell) : Piece → Prop
  | plain cell => ∀ route : Route, route.matches (cell :: next) = false
  | invitation _ => True
  | adminInvitation _ => invitationFollows next = false
  | passwordReset _ _ => filledAt 1 next = false
  | redactedReset => filledAt 1 next = false

/-- The substitutions before that of a route have redacted their secrets. -/
def RedactedBefore (route : Route) : Piece → Prop
  | invitation token => route = .invitation ∨ token = redactedToken
  | adminInvitation token => route = .passwordReset → token = redactedToken
  | _ => True

end Piece

/-- The pieces fit before those behind them and the last cells. -/
def Settled : List Piece → List Cell → Prop
  | [], _ => True
  | piece :: pieces, tail => piece.Fits (cellsOf pieces ++ tail) ∧ Settled pieces tail

variable {route : Route} {cell : Cell} {cells rest next : List Cell}

/-! ### One substitution -/

theorem Route.begins_cons (route : Route) (cell : Cell) (rest : List Cell) :
    route.matches (cell :: rest) =
      (decide (cell = Cell.slash api) && begins route.names route.secrets rest) := rfl

theorem Route.not_matches_of_ne (route : Route) (different : cell ≠ Cell.slash api) :
    route.matches (cell :: rest) = false := by
  rw [route.begins_cons, decide_eq_false different, Bool.false_and]

theorem Route.matchLength_of_not (noMatch : route.matches cells = false) :
    route.matchLength cells = 0 := by
  rw [Route.matchLength, noMatch]
  rfl

theorem Route.pass_of_not (noMatch : route.matches (cell :: rest) = false) :
    route.pass (cell :: rest) = cell :: route.pass rest :=
  substitute_of_noMatch (matchLength_of_not noMatch)

theorem Route.pass_of_ne (route : Route) (different : cell ≠ Cell.slash api) (rest : List Cell) :
    route.pass (cell :: rest) = cell :: route.pass rest :=
  pass_of_not (route.not_matches_of_ne different)

theorem Route.pass_append_of_ne (route : Route) {front : List Cell}
    (different : ∀ cell ∈ front, cell ≠ Cell.slash api) (rest : List Cell) :
    route.pass (front ++ rest) = front ++ route.pass rest :=
  substitute_append_of_noMatch fun cell member _ =>
    matchLength_of_not (route.not_matches_of_ne (different cell member))

/-- Secrets of a route: as many cells with a segment as the pattern has. -/
structure Secrets (route : Route) where
  cells : List Cell
  length : cells.length = route.secrets
  filled : filledAt route.secrets cells = true

theorem filledAt_append {count : Nat} (filled : filledAt count cells = true) (rest : List Cell) :
    filledAt count (cells ++ rest) = true := by
  induction count generalizing cells with
  | zero => rfl
  | succ count inductionHypothesis =>
      cases cells with
      | nil => exact absurd filled Bool.false_ne_true
      | cons cell cells =>
          have ⟨first, others⟩ := Bool.and_eq_true_iff.mp filled
          exact Bool.and_eq_true_iff.mpr ⟨first, inductionHypothesis others⟩

theorem Route.matches_cells (route : Route) (filled : filledAt route.secrets rest = true) :
    route.matches (route.cells ++ rest) = true := by
  rw [Route.matches, Route.cells, begins_append]
  exact filled

theorem Route.length_cells (route : Route) : route.cells.length = 1 + route.names.length := by
  rw [Route.cells, List.length_map, List.length_cons, Nat.add_comm]

/-- The secrets behind a route are redacted. -/
theorem Route.pass_cells (route : Route) (secrets : Secrets route) (next : List Cell) :
    route.pass (route.cells ++ (secrets.cells ++ next)) = route.redacted ++ route.pass next := by
  have matched : route.matches (route.cells ++ (secrets.cells ++ next)) = true :=
    route.matches_cells (filledAt_append secrets.filled next)
  have length : (route.cells ++ secrets.cells).length = route.length := by
    rw [List.length_append, route.length_cells, secrets.length]
    rfl
  have isLength : route.matchLength (route.cells ++ (secrets.cells ++ next)) = route.length := by
    rw [Route.matchLength, if_pos matched]
  have positive : 0 < route.matchLength (route.cells ++ (secrets.cells ++ next)) := by
    rw [isLength, Route.length]
    omega
  have nonempty : route.cells ++ (secrets.cells ++ next) ≠ [] := by simp [Route.cells]
  rw [Route.pass, substitute_of_match nonempty positive, isLength, ← List.append_assoc, ← length,
    List.drop_left]
  rfl

theorem Route.exists_pass_of_matches (matched : route.matches cells = true) :
    ∃ others, route.pass cells = route.redacted ++ others := by
  have positive : 0 < route.matchLength cells := by
    rw [Route.matchLength, if_pos matched, Route.length]
    omega
  have nonempty : cells ≠ [] := by
    rintro rfl
    exact Bool.false_ne_true matched
  exact ⟨_, substitute_of_match nonempty positive⟩

theorem Route.eq_api_of_matches (matched : route.matches (cell :: rest) = true) :
    cell = Cell.slash api := by
  by_contra different
  rw [route.not_matches_of_ne different] at matched
  exact Bool.false_ne_true matched

/-- The first cell is never changed. -/
theorem Route.exists_pass_cons (route : Route) (cell : Cell) (rest : List Cell) :
    ∃ others, route.pass (cell :: rest) = cell :: others := by
  rcases Bool.eq_false_or_eq_true (route.matches (cell :: rest)) with matched | noMatch
  · obtain ⟨others, redacted⟩ := Route.exists_pass_of_matches matched
    rw [redacted, Route.eq_api_of_matches matched]
    exact ⟨_, rfl⟩
  · exact ⟨_, pass_of_not noMatch⟩

/-! ### One substitution of a piece -/

theorem redactedToken_cell_ne : redactedToken.cell ≠ Cell.slash api := by decide

/-- A route is no longer than two cells only if a segment follows these. -/
theorem Route.not_matches_of_unfilled (route : Route) (unfilled : filledAt 1 next = false)
    (first second : Cell) :
    route.matches (first :: next) = false ∧ route.matches (first :: second :: next) = false := by
  have noName (name : Segment) (nonempty : name.chars ≠ []) (names : List Segment) (count : Nat) :
      begins (name :: names) count next = false := by
    cases next with
    | nil => rfl
    | cons cell rest =>
        have notFilled : cell.filled = false := by
          simpa [filledAt] using unfilled
        have different : cell ≠ Cell.slash name := by
          rintro rfl
          rw [Cell.filled_iff.mpr ⟨rfl, nonempty⟩] at notFilled
          cases notFilled
        rw [begins, decide_eq_false different, Bool.false_and]
  rw [route.begins_cons, route.begins_cons]
  cases route with
  | invitation =>
      rw [Route.names, begins, noName version (by decide), noName invitations (by decide)]
      simp
  | adminInvitation =>
      rw [Route.names, begins, noName version (by decide), noName adminInvitations (by decide)]
      simp
  | passwordReset =>
      rw [Route.names, begins, noName version (by decide), noName auth (by decide)]
      simp

/-- Another route has another name. -/
theorem Route.not_matches_of_other {other : Route} (different : route ≠ other) (rest : List Cell) :
    route.matches (other.cells ++ rest) = false := by
  have names : begins route.names route.secrets (other.names.map Cell.slash ++ rest) = false := by
    cases route with
    | invitation =>
        cases other with
        | invitation => exact absurd rfl different
        | adminInvitation =>
            have other : Cell.slash adminInvitations ≠ Cell.slash invitations := by decide
            simp [names, begins, other]
        | passwordReset =>
            have other : Cell.slash auth ≠ Cell.slash invitations := by decide
            simp [names, begins, other]
    | adminInvitation =>
        cases other with
        | invitation =>
            have other : Cell.slash invitations ≠ Cell.slash adminInvitations := by decide
            simp [names, begins, other]
        | adminInvitation => exact absurd rfl different
        | passwordReset =>
            have other : Cell.slash auth ≠ Cell.slash adminInvitations := by decide
            simp [names, begins, other]
    | passwordReset =>
        cases other with
        | invitation =>
            have other : Cell.slash invitations ≠ Cell.slash auth := by decide
            simp [names, begins, other]
        | adminInvitation =>
            have other : Cell.slash adminInvitations ≠ Cell.slash auth := by decide
            simp [names, begins, other]
        | passwordReset => exact absurd rfl different
  show route.matches (Cell.slash api :: (other.names.map Cell.slash ++ rest)) = false
  rw [route.begins_cons, names, Bool.and_false]

theorem Route.names_ne (route : Route) : ∀ cell ∈ route.names.map Cell.slash,
    cell ≠ Cell.slash api := by
  cases route with
  | invitation => decide
  | adminInvitation => decide
  | passwordReset => decide

/-- The names of a route whose secrets are not there stay. -/
theorem Route.pass_cells_of_not {other : Route}
    (noMatch : route.matches (other.cells ++ rest) = false) :
    route.pass (other.cells ++ rest) = other.cells ++ route.pass rest := by
  have isCons : other.cells = Cell.slash api :: other.names.map Cell.slash := rfl
  rw [isCons, List.cons_append] at noMatch ⊢
  rw [Route.pass_of_not noMatch, route.pass_append_of_ne other.names_ne]
  rfl

/-- Where an invitation is already redacted, its substitution changes nothing. -/
theorem Route.pass_invitation_of_not_follows (cell : Cell)
    (notFollows : invitationFollows next = false) :
    Route.invitation.pass (cell :: next) = cell :: Route.invitation.pass next := by
  rcases Bool.eq_false_or_eq_true (Route.invitation.matches (cell :: next)) with matched | noMatch
  · obtain ⟨behind, isBehind, filled⟩ := (begins_iff _ _ _).mp matched
    cases behind with
    | nil => exact absurd filled Bool.false_ne_true
    | cons token rest =>
        obtain ⟨rfl, rfl⟩ := List.cons.inj isBehind
        have isFilled : token.filled = true := (Bool.and_eq_true_iff.mp filled).1
        have isRedacted : token = redactedToken.cell := by
          by_contra notRedacted
          simp [Route.names, invitationFollows, isFilled, notRedacted] at notFollows
        subst isRedacted
        have redacted := Route.invitation.pass_cells ⟨[redactedToken.cell], rfl, filled⟩ rest
        have kept : Route.invitation.pass
            ((Route.invitation.names.map Cell.slash ++ [redactedToken.cell]) ++ rest) =
              (Route.invitation.names.map Cell.slash ++ [redactedToken.cell]) ++
                Route.invitation.pass rest :=
          Route.invitation.pass_append_of_ne (by decide) rest
        exact redacted.trans (congrArg (Cell.slash api :: ·) kept.symm)
  · exact pass_of_not noMatch

def Token.secrets (token : Token) (route : Route) (one : route.secrets = 1) : Secrets route where
  cells := [token.cell]
  length := one.symm
  filled := by rw [one, filledAt_cons, token.filled]; rfl

/-- A route with its secrets stays if these do. -/
theorem Route.pass_kept {other : Route} {secrets : List Cell}
    (noMatch : route.matches (other.cells ++ (secrets ++ next)) = false)
    (kept : route.pass (secrets ++ next) = secrets ++ route.pass next) :
    route.pass (other.cells ++ secrets ++ next) = other.cells ++ secrets ++ route.pass next := by
  rw [List.append_assoc, Route.pass_cells_of_not noMatch, kept, List.append_assoc]

theorem Route.pass_redactedToken (route : Route) (next : List Cell) :
    route.pass ([redactedToken.cell] ++ next) = [redactedToken.cell] ++ route.pass next :=
  route.pass_of_ne redactedToken_cell_ne next

theorem Piece.pass_invitation (route : Route) {token : Token}
    (before : (invitation token).RedactedBefore route) :
    route.pass ((invitation token).cells ++ next) =
      ((invitation token).redact route).cells ++ route.pass next := by
  have kept (other : route ≠ .invitation) :
      route.pass ((invitation token).cells ++ next) =
        (invitation token).cells ++ route.pass next := by
    have isRedacted : token = redactedToken := before.resolve_left other
    rw [isRedacted]
    exact Route.pass_kept (Route.not_matches_of_other other _) (route.pass_redactedToken next)
  cases route with
  | invitation =>
      rw [Piece.cells, List.append_assoc]
      exact Route.invitation.pass_cells (token.secrets .invitation rfl) next
  | adminInvitation => exact kept (by decide)
  | passwordReset => exact kept (by decide)

theorem Piece.pass_adminInvitation (route : Route) {token : Token}
    (notFollows : invitationFollows next = false)
    (before : (adminInvitation token).RedactedBefore route) :
    route.pass ((adminInvitation token).cells ++ next) =
      ((adminInvitation token).redact route).cells ++ route.pass next := by
  cases route with
  | invitation =>
      exact Route.pass_kept (Route.not_matches_of_other (by decide) _)
        (Route.pass_invitation_of_not_follows token.cell notFollows)
  | adminInvitation =>
      rw [Piece.cells, List.append_assoc]
      exact Route.adminInvitation.pass_cells (token.secrets .adminInvitation rfl) next
  | passwordReset =>
      have isRedacted : token = redactedToken := before rfl
      rw [isRedacted]
      exact Route.pass_kept (Route.not_matches_of_other (by decide) _)
        (Route.passwordReset.pass_redactedToken next)

theorem Piece.pass_passwordReset (route : Route) (uid token : Token)
    (unfilled : filledAt 1 next = false) :
    route.pass ((passwordReset uid token).cells ++ next) =
      ((passwordReset uid token).redact route).cells ++ route.pass next := by
  have kept (other : route ≠ .passwordReset) :
      route.pass ((passwordReset uid token).cells ++ next) =
        (passwordReset uid token).cells ++ route.pass next := by
    have first := (route.not_matches_of_unfilled unfilled uid.cell token.cell).2
    have second := (route.not_matches_of_unfilled unfilled token.cell token.cell).1
    apply Route.pass_kept (Route.not_matches_of_other other _)
    show route.pass (uid.cell :: token.cell :: next) = _
    rw [Route.pass_of_not first, Route.pass_of_not second]
    rfl
  cases route with
  | invitation => exact kept (by decide)
  | adminInvitation => exact kept (by decide)
  | passwordReset =>
      rw [Piece.cells, List.append_assoc]
      apply Route.passwordReset.pass_cells ⟨[uid.cell, token.cell], rfl, ?_⟩ next
      simp [Route.secrets, filledAt, uid.filled, token.filled]

/-- A redacted password reset with nothing behind it is none. -/
theorem Piece.pass_redactedReset (route : Route) (unfilled : filledAt 1 next = false) :
    route.pass (redactedReset.cells ++ next) = redactedReset.cells ++ route.pass next := by
  apply Route.pass_kept _ (route.pass_redactedToken next)
  by_cases isReset : route = .passwordReset
  · subst isReset
    have noSecrets : filledAt 2 (redactedToken.cell :: next) = false := by
      rw [filledAt_cons, unfilled, Bool.and_false]
    rw [Route.matches, Route.cells, begins_append]
    exact noSecrets
  · exact Route.not_matches_of_other isReset _

/-- A substitution redacts the pieces of its route and keeps the others. -/
theorem Piece.pass_cells (route : Route) {piece : Piece} (fits : piece.Fits next)
    (before : piece.RedactedBefore route) :
    route.pass (piece.cells ++ next) = (piece.redact route).cells ++ route.pass next := by
  cases piece with
  | plain cell =>
      have kept : route.pass (cell :: next) = cell :: route.pass next :=
        Route.pass_of_not (fits route)
      cases route with
      | invitation => exact kept
      | adminInvitation => exact kept
      | passwordReset => exact kept
  | invitation token => exact pass_invitation route before
  | adminInvitation token => exact pass_adminInvitation route fits before
  | passwordReset uid token => exact pass_passwordReset route uid token fits
  | redactedReset =>
      have kept := pass_redactedReset route fits
      cases route with
      | invitation => exact kept
      | adminInvitation => exact kept
      | passwordReset => exact kept

/-! ### Substitutions of all pieces -/

variable {pieces others : List Piece} {tail otherTail : List Cell}

theorem cellsOf_cons_append (piece : Piece) (pieces : List Piece) (tail : List Cell) :
    cellsOf (piece :: pieces) ++ tail = piece.cells ++ (cellsOf pieces ++ tail) := by
  rw [cellsOf, List.flatMap_cons, List.append_assoc]
  rfl

theorem pass_cellsOf (settled : Settled pieces tail)
    (before : ∀ piece ∈ pieces, piece.RedactedBefore route) :
    route.pass (cellsOf pieces ++ tail) =
      cellsOf (pieces.map (Piece.redact route)) ++ route.pass tail := by
  induction pieces with
  | nil => rfl
  | cons piece pieces inductionHypothesis =>
      rw [cellsOf_cons_append, Piece.pass_cells route settled.1 (before piece List.mem_cons_self),
        inductionHypothesis settled.2 fun other member =>
          before other (List.mem_cons_of_mem _ member),
        List.map_cons, cellsOf_cons_append]

/-! ### What the pieces before depend on -/

/-- Cells that are equal up to the first secret of a route. -/
inductive Alike : List Cell → List Cell → Prop
  | nil : Alike [] []
  | plain (cell : Cell) {cells others : List Cell} (alike : Alike cells others) :
      Alike (cell :: cells) (cell :: others)
  | route {third otherThird : Cell} (cells others : List Cell) (filled : third.filled = true)
      (otherFilled : otherThird.filled = true) :
      Alike (Cell.slash api :: Cell.slash version :: third :: cells)
        (Cell.slash api :: Cell.slash version :: otherThird :: others)

theorem Alike.filledAt_eq {first second : List Cell} (alike : Alike first second) {count : Nat}
    (few : count ≤ 3) : filledAt count first = filledAt count second := by
  induction alike generalizing count with
  | nil => rfl
  | plain cell _ inductionHypothesis =>
      cases count with
      | zero => rfl
      | succ count =>
          rw [filledAt_cons, filledAt_cons, inductionHypothesis (by omega)]
  | route cells others filled otherFilled =>
      match count, few with
      | 0, _ => rfl
      | 1, _ => rfl
      | 2, _ => rfl
      | 3, _ => simp [filledAt, filled, otherFilled]

/-- What begins with names other than `api` is decided before the first secret. -/
theorem Alike.begins_eq {first second : List Cell} (alike : Alike first second)
    {names : List Segment} (noApi : api ∉ names) {count : Nat} (few : count ≤ 3) :
    begins names count first = begins names count second := by
  induction alike generalizing names with
  | nil => rfl
  | plain cell alike inductionHypothesis =>
      cases names with
      | nil => exact (Alike.plain cell alike).filledAt_eq few
      | cons name names =>
          rw [List.mem_cons, not_or] at noApi
          rw [begins, begins, inductionHypothesis noApi.2]
  | route cells others filled otherFilled =>
      cases names with
      | nil => exact (Alike.route cells others filled otherFilled).filledAt_eq few
      | cons name names =>
          rw [List.mem_cons, not_or] at noApi
          have different : Cell.slash api ≠ Cell.slash name := by
            intro same
            exact noApi.1 (Cell.eq_slash_iff.mp same).2.symm
          rw [begins, begins, decide_eq_false different, Bool.false_and, Bool.false_and]

theorem Alike.invitationFollows_eq {first second : List Cell} (alike : Alike first second) :
    invitationFollows first = invitationFollows second := by
  have notVersion : Cell.slash api ≠ Cell.slash version := by decide
  have notInvitations : Cell.slash api ≠ Cell.slash invitations := by decide
  cases alike with
  | nil => rfl
  | route => simp [invitationFollows, notVersion]
  | plain _ behind =>
      cases behind with
      | nil => rfl
      | route => simp [invitationFollows, notInvitations]
      | plain _ last =>
          cases last with
          | nil => rfl
          | plain => rfl
          | route => rfl

theorem Route.api_notMem_names (route : Route) : api ∉ route.names := by
  cases route with
  | invitation => decide
  | adminInvitation => decide
  | passwordReset => decide

theorem Route.secrets_le (route : Route) : route.secrets ≤ 3 := by
  cases route with
  | invitation => decide
  | adminInvitation => decide
  | passwordReset => decide

theorem Alike.fits {first second : List Cell} (alike : Alike first second) {piece other : Piece}
    (same : piece.erase = other.erase) (fits : piece.Fits first) : other.Fits second := by
  cases other with
  | plain cell =>
      cases piece with
      | plain otherCell =>
          cases same
          intro route
          have noMatch := fits route
          rw [route.begins_cons] at noMatch ⊢
          rwa [← alike.begins_eq route.api_notMem_names route.secrets_le]
      | _ => cases same
  | invitation token => trivial
  | adminInvitation token =>
      cases piece with
      | adminInvitation otherToken => exact alike.invitationFollows_eq.symm.trans fits
      | _ => cases same
  | passwordReset uid token =>
      have unfilled := alike.filledAt_eq (show 1 ≤ 3 by decide)
      cases piece with
      | passwordReset otherUid otherToken => exact unfilled.symm.trans fits
      | redactedReset => exact unfilled.symm.trans fits
      | _ => cases same
  | redactedReset =>
      have unfilled := alike.filledAt_eq (show 1 ≤ 3 by decide)
      cases piece with
      | passwordReset otherUid otherToken => exact unfilled.symm.trans fits
      | redactedReset => exact unfilled.symm.trans fits
      | _ => cases same

/-- Two names and a filled cell. -/
theorem Piece.exists_cells (piece : Piece) :
    (∃ cell, piece = plain cell) ∨ ∃ third rest, piece.cells =
      Cell.slash api :: Cell.slash version :: third :: rest ∧ third.filled = true := by
  cases piece with
  | plain cell => exact Or.inl ⟨cell, rfl⟩
  | invitation => exact Or.inr ⟨_, _, rfl, by decide⟩
  | adminInvitation => exact Or.inr ⟨_, _, rfl, by decide⟩
  | passwordReset => exact Or.inr ⟨_, _, rfl, by decide⟩
  | redactedReset => exact Or.inr ⟨_, _, rfl, by decide⟩

theorem Piece.eq_plain_of_erase {piece : Piece} {cell : Cell} (same : piece.erase = plain cell) :
    piece = plain cell := by
  cases piece with
  | plain => exact same
  | _ => cases same

theorem alike_cellsOf (same : pieces.map Piece.erase = others.map Piece.erase)
    (tails : Alike tail otherTail) :
    Alike (cellsOf pieces ++ tail) (cellsOf others ++ otherTail) := by
  induction pieces generalizing others with
  | nil =>
      cases others with
      | nil => exact tails
      | cons other others => cases same
  | cons piece pieces inductionHypothesis =>
      cases others with
      | nil => cases same
      | cons other others =>
          rw [List.map_cons, List.map_cons, List.cons.injEq] at same
          have alike := inductionHypothesis same.2
          rw [cellsOf_cons_append, cellsOf_cons_append]
          rcases piece.exists_cells with ⟨cell, rfl⟩ | ⟨third, rest, isPiece, filled⟩
          · rw [Piece.eq_plain_of_erase same.1.symm]
            exact Alike.plain cell alike
          · rcases other.exists_cells with
              ⟨cell, rfl⟩ | ⟨otherThird, otherRest, isOther, otherFilled⟩
            · rw [Piece.eq_plain_of_erase same.1]
              exact Alike.plain cell alike
            · rw [isPiece, isOther]
              exact Alike.route _ _ filled otherFilled

theorem Settled.congr (settled : Settled pieces tail)
    (same : pieces.map Piece.erase = others.map Piece.erase) (tails : Alike tail otherTail) :
    Settled others otherTail := by
  induction pieces generalizing others with
  | nil =>
      cases others with
      | nil => trivial
      | cons other others => cases same
  | cons piece pieces inductionHypothesis =>
      cases others with
      | nil => cases same
      | cons other others =>
          rw [List.map_cons, List.map_cons, List.cons.injEq] at same
          exact ⟨(alike_cellsOf same.2 tails).fits same.1 settled.1,
            inductionHypothesis settled.2 same.2⟩

/-! ### The three substitutions -/

/-- Nothing, or the names of a route with no route at the third cell. -/
inductive Front : List Cell → Prop
  | nil : Front []
  | route {third : Cell} (cells : List Cell) (filled : third.filled = true)
      (different : third ≠ Cell.slash api) :
      Front (Cell.slash api :: Cell.slash version :: third :: cells)

theorem Front.alike {first second : List Cell} (front : Front first) (other : Front second)
    (same : first = [] ↔ second = []) : Alike first second := by
  cases front with
  | nil =>
      rw [same.mp rfl]
      exact Alike.nil
  | route cells filled =>
      cases other with
      | nil => exact absurd (same.mpr rfl) (List.cons_ne_nil _ _)
      | route others otherFilled => exact Alike.route _ _ filled otherFilled

theorem Route.front_redacted (route : Route) (others : List Cell) :
    Front (route.redacted ++ others) := by
  cases route with
  | invitation => exact Front.route _ (by decide) (by decide)
  | adminInvitation => exact Front.route _ (by decide) (by decide)
  | passwordReset => exact Front.route _ (by decide) (by decide)

theorem Front.pass (front : Front tail) (route : Route) : Front (route.pass tail) := by
  cases front with
  | nil => exact Front.nil
  | @route third cells filled different =>
      rcases Bool.eq_false_or_eq_true
        (route.matches (Cell.slash api :: Cell.slash version :: third :: cells)) with
        matched | noMatch
      · obtain ⟨others, redacted⟩ := Route.exists_pass_of_matches matched
        rw [redacted]
        exact route.front_redacted others
      · rw [Route.pass_of_not noMatch, route.pass_of_ne (by decide), route.pass_of_ne different]
        exact Front.route _ filled different

theorem pass_eq_nil_iff (route : Route) (cells : List Cell) :
    cells = [] ↔ route.pass cells = [] := by
  cases cells with
  | nil => exact iff_of_true rfl rfl
  | cons cell rest =>
      obtain ⟨others, isCons⟩ := route.exists_pass_cons cell rest
      rw [isCons]
      exact iff_of_false (List.cons_ne_nil _ _) (List.cons_ne_nil _ _)

theorem Front.alike_pass (front : Front tail) (route : Route) : Alike tail (route.pass tail) :=
  front.alike (front.pass route) (pass_eq_nil_iff route tail)

theorem Piece.erase_redact (route : Route) (piece : Piece) :
    piece.erase = (piece.redact route).erase := by
  cases piece with
  | plain => cases route <;> rfl
  | invitation => cases route <;> rfl
  | adminInvitation => cases route <;> rfl
  | passwordReset => cases route <;> rfl
  | redactedReset => cases route <;> rfl

theorem map_erase_redact (route : Route) (pieces : List Piece) :
    pieces.map Piece.erase = (pieces.map (Piece.redact route)).map Piece.erase := by
  rw [List.map_map]
  exact List.map_congr_left fun piece _ => piece.erase_redact route

theorem Piece.erase_eq (piece : Piece) :
    piece.erase = ((piece.redact .invitation).redact .adminInvitation).redact .passwordReset := by
  cases piece with
  | plain => rfl
  | invitation => rfl
  | adminInvitation => rfl
  | passwordReset => rfl
  | redactedReset => rfl

theorem Piece.erase_erase (piece : Piece) : piece.erase.erase = piece.erase := by
  cases piece with
  | plain => rfl
  | invitation => rfl
  | adminInvitation => rfl
  | passwordReset => rfl
  | redactedReset => rfl

/-- Before its turn, every substitution finds the secrets of the others redacted. -/
theorem Piece.redactedBefore (piece : Piece) :
    piece.RedactedBefore .invitation ∧
      (piece.redact .invitation).RedactedBefore .adminInvitation ∧
        ((piece.redact .invitation).redact .adminInvitation).RedactedBefore .passwordReset := by
  cases piece with
  | plain => exact ⟨trivial, trivial, trivial⟩
  | invitation => exact ⟨Or.inl rfl, Or.inr rfl, Or.inr rfl⟩
  | adminInvitation => exact ⟨nofun, nofun, fun _ => rfl⟩
  | passwordReset => exact ⟨trivial, trivial, trivial⟩
  | redactedReset => exact ⟨trivial, trivial, trivial⟩

/-- The pieces are redacted one by one. -/
theorem redactCells_cellsOf (settled : Settled pieces tail) (front : Front tail) :
    redactCells (cellsOf pieces ++ tail) =
      cellsOf (pieces.map Piece.erase) ++ redactCells tail := by
  have settledOnce := settled.congr (map_erase_redact .invitation pieces)
    (front.alike_pass .invitation)
  have settledTwice := settledOnce.congr (map_erase_redact .adminInvitation _)
    ((front.pass .invitation).alike_pass .adminInvitation)
  have beforeFirst : ∀ piece ∈ pieces, piece.RedactedBefore .invitation :=
    fun piece _ => piece.redactedBefore.1
  have beforeSecond : ∀ piece ∈ pieces.map (Piece.redact .invitation),
      piece.RedactedBefore .adminInvitation :=
    List.forall_mem_map.mpr fun piece _ => piece.redactedBefore.2.1
  have beforeThird : ∀ piece ∈ (pieces.map (Piece.redact .invitation)).map
      (Piece.redact .adminInvitation), piece.RedactedBefore .passwordReset :=
    List.forall_mem_map.mpr (List.forall_mem_map.mpr fun piece _ => piece.redactedBefore.2.2)
  have erased : pieces.map Piece.erase = ((pieces.map (Piece.redact .invitation)).map
      (Piece.redact .adminInvitation)).map (Piece.redact .passwordReset) := by
    rw [List.map_map, List.map_map]
    exact List.map_congr_left fun piece _ => piece.erase_eq
  unfold redactCells
  rw [pass_cellsOf settled beforeFirst, pass_cellsOf settledOnce beforeSecond,
    pass_cellsOf settledTwice beforeThird, erased]

end BubllioCrm.Logging
