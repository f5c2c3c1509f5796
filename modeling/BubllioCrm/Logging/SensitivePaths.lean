import BubllioCrm.Foundations.Patterns
import BubllioCrm.Foundations.Substitution

/-!
Owns the redaction of request paths in log messages as the filter does it, by
three substitutions of patterns one after the other, and the same redaction of
a message that is read as segments behind delimiters.
-/

namespace BubllioCrm.Logging

open BubllioCrm.Foundations

/-! ### The substitutions -/

/-- `[^/\s?]`. -/
def isSegmentChar (char : Char) : Bool :=
  char ≠ '/' && char ≠ '?' && !isSpace char

/-- The length of `[^/\s?]+` at the front, zero where it does not match. -/
def segmentLength (text : List Char) : Nat :=
  (text.takeWhile isSegmentChar).length

/-- The length of a number of segments with slashes between them. -/
def segmentsLength : Nat → List Char → Nat
  | 0, _ => 0
  | 1, text => segmentLength text
  | count + 2, text =>
      let first := segmentLength text
      let others :=
        if (text.drop first).head? = some '/' then
          segmentsLength (count + 1) (text.drop (first + 1))
        else 0
      if first = 0 ∨ others = 0 then 0 else first + 1 + others

/-- A route, the group of the pattern, with a number of segments behind it. -/
structure PathPattern where
  route : List Char
  segments : Nat

def PathPattern.matchLength (pattern : PathPattern) (text : List Char) : Nat :=
  let length := segmentsLength pattern.segments (text.drop pattern.route.length)
  if pattern.route.isPrefixOf text && length ≠ 0 then pattern.route.length + length else 0

def redactedText : List Char := "<redacted>".toList

/-- `pattern.sub(r"\1<redacted>", text)`. -/
def PathPattern.sub (pattern : PathPattern) (text : List Char) : List Char :=
  substitute pattern.matchLength (pattern.route ++ redactedText) text

def invitationPattern : PathPattern where
  route := "/api/v1/invitations/".toList
  segments := 1

def adminInvitationPattern : PathPattern where
  route := "/api/v1/installation-admin-invitations/".toList
  segments := 1

def passwordResetPattern : PathPattern where
  route := "/api/v1/auth/password-reset/".toList
  segments := 2

/-- `_SENSITIVE_PATHS`. -/
def sensitivePaths : List PathPattern :=
  [invitationPattern, adminInvitationPattern, passwordResetPattern]

/-- `redact_sensitive_paths`. -/
def redactSensitivePaths (value : String) : String :=
  String.ofList (sensitivePaths.foldl (fun redacted pattern => pattern.sub redacted) value.toList)

/-! ### Segments behind delimiters -/

structure Segment where
  chars : List Char
  valid : chars.all isSegmentChar = true
deriving DecidableEq

/-- A delimiter with the segment behind it, which may be empty. -/
structure Cell where
  delimiter : Char
  isDelimiter : isSegmentChar delimiter = false
  segment : Segment
deriving DecidableEq

def Cell.text (cell : Cell) : List Char :=
  cell.delimiter :: cell.segment.chars

/-- A text read as the segment before its first delimiter and the cells. -/
structure Line where
  head : Segment
  cells : List Cell
deriving DecidableEq

def textOf (cells : List Cell) : List Char :=
  cells.flatMap Cell.text

def Line.text (line : Line) : List Char :=
  line.head.chars ++ textOf line.cells

def Segment.empty : Segment := ⟨[], rfl⟩

def Segment.cons (char : Char) (isSegment : isSegmentChar char = true) (segment : Segment) :
    Segment where
  chars := char :: segment.chars
  valid := by rw [List.all_cons, isSegment, segment.valid]; rfl

def lineOf : List Char → Line
  | [] => ⟨Segment.empty, []⟩
  | char :: rest =>
      if isSegment : isSegmentChar char = true then
        ⟨(lineOf rest).head.cons char isSegment, (lineOf rest).cells⟩
      else
        ⟨Segment.empty, ⟨char, eq_false_of_ne_true isSegment, (lineOf rest).head⟩ ::
          (lineOf rest).cells⟩

theorem text_lineOf (text : List Char) : (lineOf text).text = text := by
  induction text with
  | nil => rfl
  | cons char rest inductionHypothesis =>
      rw [lineOf]
      split_ifs with isSegment
      · exact congrArg (char :: ·) inductionHypothesis
      · exact congrArg (char :: ·) inductionHypothesis

theorem lineOf_append (segment : Segment) (rest : List Char) :
    (lineOf (segment.chars ++ rest)).head.chars = segment.chars ++ (lineOf rest).head.chars ∧
      (lineOf (segment.chars ++ rest)).cells = (lineOf rest).cells := by
  obtain ⟨chars, valid⟩ := segment
  induction chars with
  | nil => exact ⟨rfl, rfl⟩
  | cons char chars inductionHypothesis =>
      rw [List.all_cons, Bool.and_eq_true] at valid
      have ⟨head, cells⟩ := inductionHypothesis valid.2
      dsimp only at head cells ⊢
      rw [List.cons_append, lineOf, dif_pos valid.1]
      exact ⟨congrArg (char :: ·) head, cells⟩

theorem Segment.ext_chars {first second : Segment} (same : first.chars = second.chars) :
    first = second := by
  cases first
  cases second
  cases same
  rfl

theorem lineOf_textOf (cells : List Cell) : lineOf (textOf cells) = ⟨Segment.empty, cells⟩ := by
  induction cells with
  | nil => rfl
  | cons cell cells inductionHypothesis =>
      obtain ⟨delimiter, isDelimiter, segment⟩ := cell
      have ⟨head, rest⟩ := lineOf_append segment (textOf cells)
      rw [inductionHypothesis] at head rest
      have isSegment : (lineOf (segment.chars ++ textOf cells)).head = segment :=
        Segment.ext_chars (head.trans (List.append_nil _))
      show lineOf (delimiter :: (segment.chars ++ textOf cells)) = _
      rw [lineOf, dif_neg (by rw [isDelimiter]; exact Bool.false_ne_true), isSegment, rest]

/-- A text is read in one way. -/
theorem lineOf_text (line : Line) : lineOf line.text = line := by
  have ⟨head, cells⟩ := lineOf_append line.head (textOf line.cells)
  rw [lineOf_textOf] at head cells
  have sameHead : (lineOf line.text).head = line.head :=
    Segment.ext_chars (head.trans (List.append_nil _))
  cases line
  cases isLine : lineOf _ with
  | mk other otherCells =>
      rw [isLine] at sameHead
      have sameCells : otherCells = _ := (congrArg Line.cells isLine).symm.trans cells
      rw [sameCells]
      exact congrArg (Line.mk · _) sameHead

/-! ### Routes of cells -/

/-- A path segment behind a slash. -/
def Cell.slash (segment : Segment) : Cell :=
  ⟨'/', by decide, segment⟩

/-- A slash with a segment behind it. -/
def Cell.filled (cell : Cell) : Bool :=
  cell.delimiter = '/' && cell.segment.chars ≠ []

def filledAt : Nat → List Cell → Bool
  | 0, _ => true
  | _ + 1, [] => false
  | count + 1, cell :: rest => cell.filled && filledAt count rest

/-- The cells begin with these names and a number of segments behind them. -/
def begins : List Segment → Nat → List Cell → Bool
  | [], count, cells => filledAt count cells
  | _ :: _, _, [] => false
  | name :: names, count, cell :: rest => cell = Cell.slash name && begins names count rest

def api : Segment := ⟨"api".toList, by decide⟩

def version : Segment := ⟨"v1".toList, by decide⟩

def invitations : Segment := ⟨"invitations".toList, by decide⟩

def adminInvitations : Segment := ⟨"installation-admin-invitations".toList, by decide⟩

def auth : Segment := ⟨"auth".toList, by decide⟩

def passwordReset : Segment := ⟨"password-reset".toList, by decide⟩

def redactedSegment : Segment := ⟨redactedText, by decide⟩

inductive Route where
  | invitation
  | adminInvitation
  | passwordReset
deriving DecidableEq

namespace Route

def pattern : Route → PathPattern
  | .invitation => invitationPattern
  | .adminInvitation => adminInvitationPattern
  | .passwordReset => passwordResetPattern

/-- The names behind `api`. -/
def names : Route → List Segment
  | .invitation => [version, invitations]
  | .adminInvitation => [version, adminInvitations]
  | .passwordReset => [version, auth, Logging.passwordReset]

def secrets : Route → Nat
  | .invitation => 1
  | .adminInvitation => 1
  | .passwordReset => 2

/-- The cells begin with the route and its secrets. -/
def «matches» (route : Route) (cells : List Cell) : Bool :=
  begins (api :: route.names) route.secrets cells

def length (route : Route) : Nat :=
  1 + route.names.length + route.secrets

def matchLength (route : Route) (cells : List Cell) : Nat :=
  if route.matches cells then route.length else 0

/-- The cells of the route without its secrets. -/
def cells (route : Route) : List Cell :=
  (api :: route.names).map Cell.slash

def redacted (route : Route) : List Cell :=
  route.cells ++ [Cell.slash redactedSegment]

/-- The substitution of the pattern in cells. -/
def pass (route : Route) (cells : List Cell) : List Cell :=
  substitute route.matchLength route.redacted cells

end Route

/-- The three substitutions in cells. -/
def redactCells (cells : List Cell) : List Cell :=
  Route.passwordReset.pass (Route.adminInvitation.pass (Route.invitation.pass cells))

/-! ### A pattern matches the texts of the cells it matches -/

/-- The text of names with the slash behind them. -/
def namesText (names : List Segment) : List Char :=
  names.flatMap (fun name => '/' :: name.chars) ++ ['/']

theorem Route.pattern_route (route : Route) :
    route.pattern.route = namesText (api :: route.names) := by
  cases route with
  | invitation => decide
  | adminInvitation => decide
  | passwordReset => decide

theorem Route.pattern_segments (route : Route) : route.pattern.segments = route.secrets := by
  cases route with
  | invitation => rfl
  | adminInvitation => rfl
  | passwordReset => rfl

theorem Route.text_redacted (route : Route) :
    route.pattern.route ++ redactedText = textOf route.redacted := by
  cases route with
  | invitation => decide
  | adminInvitation => decide
  | passwordReset => decide

/-- A text does not begin with a character of a segment. -/
def EndsSegment (text : List Char) : Prop :=
  ∀ char ∈ text.head?, isSegmentChar char = false

theorem endsSegment_textOf (cells : List Cell) : EndsSegment (textOf cells) := by
  cases cells with
  | nil => simp [EndsSegment, textOf]
  | cons cell rest =>
      intro char isHead
      obtain rfl : cell.delimiter = char := Option.some.inj isHead
      exact cell.isDelimiter

theorem segmentLength_append (segment : Segment) {rest : List Char} (ends : EndsSegment rest) :
    segmentLength (segment.chars ++ rest) = segment.chars.length := by
  have valid := List.all_eq_true.mp segment.valid
  unfold segmentLength
  rw [List.takeWhile_append_of_pos valid]
  cases rest with
  | nil => simp
  | cons char rest =>
      have isEnd : isSegmentChar char = false := ends char rfl
      rw [List.takeWhile_cons_of_neg (by rw [isEnd]; exact Bool.false_ne_true), List.append_nil]

/-- A segment that another text begins with is its first segment. -/
theorem append_prefix_append_iff (first second : Segment) {rest other : List Char}
    (nonempty : rest ≠ []) (ends : EndsSegment rest) (otherEnds : EndsSegment other) :
    first.chars ++ rest <+: second.chars ++ other ↔ first = second ∧ rest <+: other := by
  constructor
  · intro isPrefix
    have lengths := segmentLength_append first ends
    have otherLengths := segmentLength_append second otherEnds
    obtain ⟨after, same⟩ := isPrefix
    have endsAfter : EndsSegment (rest ++ after) := by
      cases rest with
      | nil => exact absurd rfl nonempty
      | cons char rest => exact ends
    rw [List.append_assoc] at same
    have sameLength := segmentLength_append first endsAfter
    rw [same, otherLengths] at sameLength
    have ⟨sameChars, sameRest⟩ := List.append_inj same sameLength.symm
    exact ⟨Segment.ext_chars sameChars, ⟨after, sameRest⟩⟩
  · rintro ⟨rfl, isPrefix⟩
    exact (List.prefix_append_right_inj _).mpr isPrefix

theorem endsSegment_namesText (names : List Segment) : EndsSegment (namesText names) := by
  intro char isHead
  have isSlash : char = '/' := by
    cases names with
    | nil => exact (Option.some.inj isHead).symm
    | cons name names => exact (Option.some.inj isHead).symm
  rw [isSlash]
  decide

theorem namesText_ne_nil (names : List Segment) : namesText names ≠ [] := by
  simp [namesText]

theorem Cell.eq_slash_iff {cell : Cell} {segment : Segment} :
    cell = Cell.slash segment ↔ '/' = cell.delimiter ∧ segment = cell.segment := by
  obtain ⟨delimiter, isDelimiter, behind⟩ := cell
  rw [Cell.slash, Cell.mk.injEq]
  exact and_congr eq_comm eq_comm

theorem textOf_cons (cell : Cell) (rest : List Cell) :
    textOf (cell :: rest) = cell.delimiter :: (cell.segment.chars ++ textOf rest) := rfl

theorem namesText_cons (name : Segment) (names : List Segment) :
    namesText (name :: names) = '/' :: (name.chars ++ namesText names) := by
  simp [namesText]

/-- The names stand at the front with a slash behind them. -/
theorem namesText_prefix_iff (names : List Segment) (cells : List Cell) :
    namesText names <+: textOf cells ↔
      ∃ cell rest, cells = names.map Cell.slash ++ cell :: rest ∧ '/' = cell.delimiter := by
  induction names generalizing cells with
  | nil =>
      cases cells with
      | nil => simp [namesText, textOf]
      | cons cell rest =>
          rw [textOf_cons]
          show '/' :: [] <+: _ ↔ _
          rw [List.cons_prefix_cons]
          constructor
          · exact fun isPrefix => ⟨cell, rest, rfl, isPrefix.1⟩
          · rintro ⟨other, others, same, isSlash⟩
            obtain ⟨rfl, rfl⟩ := List.cons.inj same
            exact ⟨isSlash, List.nil_prefix⟩
  | cons name names inductionHypothesis =>
      cases cells with
      | nil => simp [namesText, textOf]
      | cons cell rest =>
          rw [textOf_cons, namesText_cons, List.cons_prefix_cons,
            append_prefix_append_iff name cell.segment (namesText_ne_nil names)
              (endsSegment_namesText names) (endsSegment_textOf rest),
            inductionHypothesis, ← and_assoc, ← Cell.eq_slash_iff]
          constructor
          · rintro ⟨isName, other, others, rfl, isSlash⟩
            exact ⟨other, others, by rw [isName]; rfl, isSlash⟩
          · rintro ⟨other, others, same, isSlash⟩
            have ⟨isName, isRest⟩ := List.cons.inj same
            exact ⟨isName, other, others, isRest, isSlash⟩

theorem begins_iff (names : List Segment) (count : Nat) (cells : List Cell) :
    begins names count cells = true ↔
      ∃ rest, cells = names.map Cell.slash ++ rest ∧ filledAt count rest = true := by
  induction names generalizing cells with
  | nil => simp [begins]
  | cons name names inductionHypothesis =>
      cases cells with
      | nil => simp [begins]
      | cons cell rest =>
          rw [begins, Bool.and_eq_true, decide_eq_true_iff, inductionHypothesis]
          constructor
          · rintro ⟨rfl, others, rfl, filled⟩
            exact ⟨others, rfl, filled⟩
          · rintro ⟨others, same, filled⟩
            have ⟨isName, isRest⟩ := List.cons.inj same
            exact ⟨isName, others, isRest, filled⟩

theorem Cell.filled_iff {cell : Cell} :
    cell.filled = true ↔ '/' = cell.delimiter ∧ cell.segment.chars ≠ [] := by
  unfold Cell.filled
  rw [Bool.and_eq_true, decide_eq_true_iff, decide_eq_true_iff]
  exact and_congr_left' eq_comm

theorem filledAt_cons (count : Nat) (cell : Cell) (rest : List Cell) :
    filledAt (count + 1) (cell :: rest) = (cell.filled && filledAt count rest) := rfl

theorem two_le_length_textOf {cell : Cell} (filled : cell.filled = true) (count : Nat)
    (rest : List Cell) : 2 ≤ (textOf ((cell :: rest).take (count + 1))).length := by
  have positive := List.length_pos_of_ne_nil (Cell.filled_iff.mp filled).2
  rw [List.take_succ_cons, textOf_cons, List.length_cons, List.length_append]
  omega

/-- The length of the segments of the first cells, without the slash in front. -/
theorem segmentsLength_textOf (count : Nat) {cell : Cell} (isSlash : '/' = cell.delimiter)
    (rest : List Cell) :
    segmentsLength (count + 1) (cell.segment.chars ++ textOf rest) =
      if filledAt (count + 1) (cell :: rest) then
        (textOf ((cell :: rest).take (count + 1))).length - 1
      else 0 := by
  have first := segmentLength_append cell.segment (endsSegment_textOf rest)
  have isFilled : cell.filled = true ↔ cell.segment.chars.length ≠ 0 := by
    rw [Cell.filled_iff, List.length_eq_zero_iff.ne]
    exact and_iff_right isSlash
  induction count generalizing cell rest with
  | zero =>
      rw [segmentsLength, first, filledAt_cons, filledAt, Bool.and_true]
      split
      · simp [textOf, Cell.text]
      · rename_i notFilled
        exact not_not.mp (isFilled.not.mp notFilled)
  | succ count inductionHypothesis =>
      rw [segmentsLength, first, List.drop_left, filledAt_cons]
      cases rest with
      | nil => simp [textOf, filledAt]
      | cons next others =>
          rw [textOf_cons, List.head?_cons, ← List.drop_drop, List.drop_left, List.drop_succ_cons,
            List.drop_zero]
          by_cases nextSlash : '/' = next.delimiter
          · have nextLength := segmentLength_append next.segment (endsSegment_textOf others)
            have nextFilled : next.filled = true ↔ next.segment.chars.length ≠ 0 := by
              rw [Cell.filled_iff, List.length_eq_zero_iff.ne]
              exact and_iff_right nextSlash
            rw [if_pos (congrArg some nextSlash.symm),
              inductionHypothesis nextSlash others nextLength nextFilled]
            by_cases filled : filledAt (count + 1) (next :: others) = true
            · have long := two_le_length_textOf (Bool.and_eq_true_iff.mp filled).1 count others
              have parts : (textOf ((cell :: next :: others).take (count + 1 + 1))).length =
                  1 + cell.segment.chars.length +
                    (textOf ((next :: others).take (count + 1))).length := by
                rw [List.take_succ_cons, textOf_cons, List.length_cons, List.length_append]
                omega
              rw [if_pos filled, filled, Bool.and_true, parts]
              by_cases full : cell.filled = true
              · have positive := isFilled.mp full
                rw [if_pos full, if_neg (by omega)]
                omega
              · have empty := not_not.mp (isFilled.not.mp full)
                rw [if_neg full, if_pos (Or.inl empty)]
            · rw [if_neg filled, if_pos (Or.inr rfl), if_neg]
              rw [Bool.and_eq_true]
              exact fun both => filled both.2
          · have notFilled : next.filled ≠ true := fun filled =>
              nextSlash (Cell.filled_iff.mp filled).1
            rw [if_neg fun same => nextSlash (Option.some.inj same).symm, if_pos (Or.inr rfl),
              if_neg]
            rw [filledAt_cons, Bool.and_eq_true, Bool.and_eq_true]
            exact fun all => notFilled all.2.1

theorem begins_append (names : List Segment) (count : Nat) (rest : List Cell) :
    begins names count (names.map Cell.slash ++ rest) = filledAt count rest := by
  induction names with
  | nil => rfl
  | cons name names inductionHypothesis =>
      show (decide (Cell.slash name = Cell.slash name) && _) = _
      rw [decide_eq_true rfl, Bool.true_and]
      exact inductionHypothesis

theorem textOf_append (first second : List Cell) :
    textOf (first ++ second) = textOf first ++ textOf second :=
  List.flatMap_append

theorem namesText_eq (names : List Segment) :
    namesText names = textOf (names.map Cell.slash) ++ ['/'] := by
  rw [namesText, textOf, List.flatMap_map]
  rfl

theorem Route.exists_secrets (route : Route) : ∃ count, route.secrets = count + 1 := by
  cases route with
  | invitation => exact ⟨0, rfl⟩
  | adminInvitation => exact ⟨0, rfl⟩
  | passwordReset => exact ⟨1, rfl⟩

/-- The pattern of a route matches texts as the route matches cells. -/
theorem Route.matchLength_textOf (route : Route) (cells : List Cell) :
    route.pattern.matchLength (textOf cells) =
      (textOf (cells.take (route.matchLength cells))).length := by
  obtain ⟨count, isCount⟩ := route.exists_secrets
  unfold PathPattern.matchLength Route.matchLength Route.matches Route.length
  dsimp only
  rw [route.pattern_route, route.pattern_segments, isCount]
  by_cases isPrefix : namesText (api :: route.names) <+: textOf cells
  · obtain ⟨cell, rest, rfl, isSlash⟩ := (namesText_prefix_iff _ _).mp isPrefix
    have behind : (textOf ((api :: route.names).map Cell.slash ++ cell :: rest)).drop
        (namesText (api :: route.names)).length = cell.segment.chars ++ textOf rest := by
      rw [textOf_append, textOf_cons, ← isSlash, namesText_eq,
        List.append_cons _ '/' (cell.segment.chars ++ textOf rest)]
      exact List.drop_left
    have length : ((api :: route.names).map Cell.slash).length = 1 + route.names.length := by
      rw [List.length_map, List.length_cons, Nat.add_comm]
    rw [behind, segmentsLength_textOf count isSlash rest, begins_append,
      List.isPrefixOf_iff_prefix.mpr isPrefix]
    by_cases filled : filledAt (count + 1) (cell :: rest) = true
    · have long := two_le_length_textOf (Bool.and_eq_true_iff.mp filled).1 count rest
      have positive : (textOf ((cell :: rest).take (count + 1))).length - 1 ≠ 0 := by omega
      rw [if_pos filled, if_pos filled, Bool.true_and, if_pos (decide_eq_true positive), ← length,
        List.take_length_add_append, textOf_append, List.length_append, namesText_eq,
        List.length_append, List.length_singleton]
      omega
    · rw [if_neg filled, if_neg filled]
      simp [textOf]
  · have noMatch : begins (api :: route.names) (count + 1) cells ≠ true := by
      rw [Ne, begins_iff]
      rintro ⟨rest, rfl, filled⟩
      cases rest with
      | nil => exact Bool.false_ne_true filled
      | cons cell rest =>
          have isSlash := (Cell.filled_iff.mp (Bool.and_eq_true_iff.mp filled).1).1
          exact isPrefix ((namesText_prefix_iff _ _).mpr ⟨cell, rest, rfl, isSlash⟩)
    rw [if_neg noMatch, if_neg]
    · simp [textOf]
    · rw [Bool.and_eq_true, List.isPrefixOf_iff_prefix]
      exact fun both => isPrefix both.1

/-! ### The substitutions agree -/

/-- No match begins inside a segment. -/
theorem Route.matchLength_of_segmentChar (route : Route) {char : Char}
    (isSegment : isSegmentChar char = true) (rest : List Char) :
    route.pattern.matchLength (char :: rest) = 0 := by
  unfold PathPattern.matchLength
  rw [if_neg]
  rw [route.pattern_route, namesText_cons, Bool.and_eq_true, List.isPrefixOf_iff_prefix,
    List.cons_prefix_cons]
  rintro ⟨⟨rfl, -⟩, -⟩
  exact absurd isSegment (by decide)

theorem Route.sub_text (route : Route) (line : Line) :
    route.pattern.sub line.text = (Line.mk line.head (route.pass line.cells)).text := by
  have inHead := List.all_eq_true.mp line.head.valid
  unfold PathPattern.sub Line.text
  rw [substitute_append_of_noMatch fun char member rest =>
    route.matchLength_of_segmentChar (inHead char member) rest, route.text_redacted]
  congr 1
  apply substitute_flatMap route.matchLength_textOf
  intro cell
  have inSegment := List.all_eq_true.mp cell.segment.valid
  exact ⟨cell.delimiter, cell.segment.chars, rfl, fun char member rest =>
    route.matchLength_of_segmentChar (inSegment char member) rest⟩

/-- The redaction of a text is that of its cells. -/
theorem toList_redactSensitivePaths (value : String) :
    (redactSensitivePaths value).toList =
      (Line.mk (lineOf value.toList).head (redactCells (lineOf value.toList).cells)).text := by
  have steps : sensitivePaths.foldl (fun redacted pattern => pattern.sub redacted) value.toList =
      Route.passwordReset.pattern.sub (Route.adminInvitation.pattern.sub
        (Route.invitation.pattern.sub value.toList)) := rfl
  rw [redactSensitivePaths, String.toList_ofList, steps]
  nth_rewrite 1 [← text_lineOf value.toList]
  rw [Route.sub_text, Route.sub_text, Route.sub_text]
  rfl

end BubllioCrm.Logging
