import BubllioCrm.Foundations.Documents
import BubllioCrm.Foundations.Fallible

/-!
Owns the reading of JSON, one character after the other: what is open stands on
a stack, so that nothing but the depth the interpreter allows bounds the nesting.

Whitespace around a text does not change what it is read as, and the errors that
are not errors of the syntax come from integers that have too many digits and
from one opening too many.
-/

namespace BubllioCrm.Foundations

inductive ReadError where
  | unicodeDecode
  | jsonDecode
  /-- A `ValueError` that is no `JSONDecodeError`. -/
  | tooManyDigits
  /-- A `RecursionError`. -/
  | tooDeep
deriving DecidableEq

namespace JsonReader

/-! ### Numbers -/

def isDigit (char : CodePoint) : Bool :=
  0x30 ≤ char.val && char.val ≤ 0x39

/-- A number is made of such characters. -/
def isNumberPart (char : CodePoint) : Bool :=
  isDigit char || [ofChar '+', ofChar '-', ofChar '.', ofChar 'e', ofChar 'E'].contains char

/-- The longest start of a text that is a number, and what is left. -/
structure NumberMatch where
  negative : Bool
  whole : Text
  fraction : Text
  exponent : Text
  rest : Text

def signPart : Text → Bool × Text
  | first :: rest => if first = ofChar '-' then (true, rest) else (false, first :: rest)
  | [] => (false, [])

/-- A zero, or digits that do not start with one. -/
def wholePart : Text → Text × Text
  | first :: rest =>
      if first = ofChar '0' then ([first], rest)
      else if isDigit first then (first :: rest.takeWhile isDigit, rest.dropWhile isDigit)
      else ([], first :: rest)
  | [] => ([], [])

def fractionPart : Text → Text × Text
  | point :: digit :: rest =>
      if point = ofChar '.' ∧ isDigit digit then
        (point :: digit :: rest.takeWhile isDigit, rest.dropWhile isDigit)
      else ([], point :: digit :: rest)
  | rest => ([], rest)

def exponentSign : Text → Text × Text
  | first :: rest =>
      if first = ofChar '+' ∨ first = ofChar '-' then ([first], rest) else ([], first :: rest)
  | [] => ([], [])

def exponentPart : Text → Text × Text
  | mark :: rest =>
      let (sign, digits) := exponentSign rest
      if (mark = ofChar 'e' ∨ mark = ofChar 'E') ∧ digits.takeWhile isDigit ≠ [] then
        (mark :: sign ++ digits.takeWhile isDigit, digits.dropWhile isDigit)
      else ([], mark :: rest)
  | [] => ([], [])

def matchNumber (token : Text) : NumberMatch :=
  let (negative, unsigned) := signPart token
  let (whole, rest) := wholePart unsigned
  let (fraction, rest) := fractionPart rest
  let (exponent, rest) := exponentPart rest
  { negative, whole, fraction, exponent, rest }

def NumberMatch.number (parts : NumberMatch) : Int :=
  let magnitude : Int := parts.whole.foldl (fun number digit => 10 * number + (digit.val - 0x30)) 0
  if parts.negative then -magnitude else magnitude

/-- The number is an integer that has too many digits. -/
def NumberMatch.Overlong (parts : NumberMatch) : Prop :=
  parts.whole ≠ [] ∧ parts.fraction = [] ∧ parts.exponent = [] ∧
    10 ^ maxStringDigits ≤ parts.number.natAbs

/-- The number a token starts with. What is left of the token is an error only
after the number has been converted. -/
def readNumber (interpreter : Interpreter) (token : Text) : Except ReadError Document :=
  let parts := matchNumber token
  if parts.whole = [] then .error .jsonDecode
  else if parts.fraction = [] ∧ parts.exponent = [] then
    if short : parts.number.natAbs < 10 ^ maxStringDigits then
      if parts.rest = [] then .ok (.int ⟨parts.number, short⟩) else .error .jsonDecode
    else .error .tooManyDigits
  else if parts.rest = [] then .ok (.float (interpreter.floatRepr token))
  else .error .jsonDecode

/-! ### Words -/

inductive Word where
  | null
  | true
  | false
  | nan
  | infinity
  | negativeInfinity
deriving DecidableEq

def Word.spelling : Word → List Char
  | .null => ['n', 'u', 'l', 'l']
  | .true => ['t', 'r', 'u', 'e']
  | .false => ['f', 'a', 'l', 's', 'e']
  | .nan => ['N', 'a', 'N']
  | .infinity => ['I', 'n', 'f', 'i', 'n', 'i', 't', 'y']
  | .negativeInfinity => ['-', 'I', 'n', 'f', 'i', 'n', 'i', 't', 'y']

def Word.document : Word → Document
  | .null => .null
  | .true => .bool Bool.true
  | .false => .bool Bool.false
  | .nan => .float "NaN"
  | .infinity => .float "Infinity"
  | .negativeInfinity => .float "-Infinity"

/-- The words that a character starts; the one with a sign starts like a number. -/
def wordOf (char : CodePoint) : Option Word :=
  [Word.null, .true, .false, .nan, .infinity].find? fun word =>
    word.spelling.head?.map ofChar = some char

/-! ### The state -/

/-- An array or an object in which a value is being read. -/
inductive Frame where
  | array (items : List Document)
  | object (fields : List (Text × Document)) (key : Text)

inductive Escape where
  | none
  | backslash
  | unicode (digits : List Nat)

/-- What the last character has left to be read. -/
inductive Phase where
  | value
  | arrayStart
  | objectStart
  | key (fields : List (Text × Document))
  | colon (fields : List (Text × Document)) (key : Text)
  | itemEnd (items : List Document)
  | memberEnd (fields : List (Text × Document))
  | done (document : Document)
  /-- A text, which is the key of an object where there are fields. -/
  | string (keyOf : Option (List (Text × Document))) (pieces : List Piece) (escape : Escape)
  | number (token : Text)
  | word (word : Word) (matched : Nat)

structure State where
  stack : List Frame
  phase : Phase

def start : State :=
  { stack := [], phase := .value }

/-- The value goes where the innermost open array or object wants it. -/
def complete (stack : List Frame) (document : Document) : State :=
  match stack with
  | [] => { stack := [], phase := .done document }
  | .array items :: rest => { stack := rest, phase := .itemEnd (items ++ [document]) }
  | .object fields key :: rest =>
      { stack := rest, phase := .memberEnd (setField key document fields) }

/-! ### One character -/

/-- The whitespace of JSON. -/
def isSpace (char : CodePoint) : Bool :=
  [0x20, 0x09, 0x0a, 0x0d].contains char.val

def enter (interpreter : Interpreter) (stack : List Frame) (phase : Phase) :
    Except ReadError State :=
  if stack.length < interpreter.readDepth then .ok { stack, phase } else .error .tooDeep

def startValue (interpreter : Interpreter) (stack : List Frame) (char : CodePoint) :
    Except ReadError State :=
  if char = ofChar '"' then .ok { stack, phase := .string none [] .none }
  else if char = ofChar '[' then enter interpreter stack .arrayStart
  else if char = ofChar '\x7b' then enter interpreter stack .objectStart
  else if isDigit char ∨ char = ofChar '-' then .ok { stack, phase := .number [char] }
  else match wordOf char with
    | some word => .ok { stack, phase := .word word 1 }
    | none => .error .jsonDecode

def startKey (stack : List Frame) (fields : List (Text × Document)) (char : CodePoint) :
    Except ReadError State :=
  if char = ofChar '"' then .ok { stack, phase := .string (some fields) [] .none }
  else .error .jsonDecode

/-- A character that starts something or stands between two values. -/
def mark (interpreter : Interpreter) (state : State) (char : CodePoint) : Except ReadError State :=
  match state.phase with
  | .value => startValue interpreter state.stack char
  | .arrayStart =>
      if char = ofChar ']' then .ok (complete state.stack (.arr []))
      else startValue interpreter (.array [] :: state.stack) char
  | .objectStart =>
      if char = ofChar '\x7d' then .ok (complete state.stack (.obj []))
      else startKey state.stack [] char
  | .key fields => startKey state.stack fields char
  | .colon fields key =>
      if char = ofChar ':' then .ok { stack := .object fields key :: state.stack, phase := .value }
      else .error .jsonDecode
  | .itemEnd items =>
      if char = ofChar ',' then .ok { stack := .array items :: state.stack, phase := .value }
      else if char = ofChar ']' then .ok (complete state.stack (.arr items))
      else .error .jsonDecode
  | .memberEnd fields =>
      if char = ofChar ',' then .ok { state with phase := .key fields }
      else if char = ofChar '\x7d' then .ok (complete state.stack (.obj fields))
      else .error .jsonDecode
  | .done _ => .error .jsonDecode
  | .string _ _ _ => .error .jsonDecode
  | .number _ => .error .jsonDecode
  | .word _ _ => .error .jsonDecode

/-- A character that is in no text, number or word. -/
def between (interpreter : Interpreter) (state : State) (char : CodePoint) :
    Except ReadError State :=
  if isSpace char then .ok state else mark interpreter state char

/-- What stands for a character behind a backslash. -/
def simpleEscape (char : CodePoint) : Option CodePoint :=
  ([('"', '"'), ('\\', '\\'), ('/', '/'), ('b', '\x08'), ('f', '\x0c'), ('n', '\n'), ('r', '\r'),
    ('t', '\t')].find? fun pair => ofChar pair.1 = char).map fun pair => ofChar pair.2

def hexDigit (char : CodePoint) : Option Nat :=
  if isDigit char then some (char.val - 0x30)
  else if 0x41 ≤ char.val ∧ char.val ≤ 0x46 then some (char.val - 0x37)
  else if 0x61 ≤ char.val ∧ char.val ≤ 0x66 then some (char.val - 0x57)
  else none

def closeString (stack : List Frame) (keyOf : Option (List (Text × Document))) (text : Text) :
    State :=
  match keyOf with
  | none => complete stack (.str text)
  | some fields => { stack, phase := .colon fields text }

/-- A character of a text. -/
def stringStep (stack : List Frame) (keyOf : Option (List (Text × Document)))
    (pieces : List Piece) (escape : Escape) (char : CodePoint) : Except ReadError State :=
  match escape with
  | .none =>
      if char = ofChar '"' then .ok (closeString stack keyOf (joinPieces pieces))
      else if char = ofChar '\\' then .ok { stack, phase := .string keyOf pieces .backslash }
      else if char.val < 0x20 then .error .jsonDecode
      else .ok { stack, phase := .string keyOf (pieces ++ [.plain char]) .none }
  | .backslash =>
      if char = ofChar 'u' then .ok { stack, phase := .string keyOf pieces (.unicode []) }
      else match simpleEscape char with
        | some point => .ok { stack, phase := .string keyOf (pieces ++ [.plain point]) .none }
        | none => .error .jsonDecode
  | .unicode digits =>
      match hexDigit char with
      | some digit =>
          if digits.length < 3 then
            .ok { stack, phase := .string keyOf pieces (.unicode (digits ++ [digit])) }
          else
            let code := (digits ++ [digit]).foldl (fun code digit => 16 * code + digit) 0
            .ok { stack, phase := .string keyOf (pieces ++ [.unit code]) .none }
      | none => .error .jsonDecode

/-- The character ends the number that is being read. -/
def endsNumber (token : Text) (char : CodePoint) : Bool :=
  !isNumberPart char && !(token = [ofChar '-'] && char = ofChar 'I')

def step (interpreter : Interpreter) (state : State) (char : CodePoint) : Except ReadError State :=
  match state.phase with
  | .string keyOf pieces escape => stringStep state.stack keyOf pieces escape char
  | .number token =>
      if endsNumber token char then do
        let document ← readNumber interpreter token
        between interpreter (complete state.stack document) char
      else if isNumberPart char then .ok { state with phase := .number (token ++ [char]) }
      else .ok { state with phase := .word .negativeInfinity 2 }
  | .word word matched =>
      if (word.spelling[matched]?).map ofChar = some char then
        if matched + 1 = word.spelling.length then .ok (complete state.stack word.document)
        else .ok { state with phase := .word word (matched + 1) }
      else .error .jsonDecode
  | _ => between interpreter state char

/-- The end of the text. -/
def finish (interpreter : Interpreter) (state : State) : Except ReadError Document :=
  match state.phase with
  | .done document => .ok document
  | .number token => do
      let document ← readNumber interpreter token
      if state.stack.isEmpty then return document else .error .jsonDecode
  | _ => .error .jsonDecode

def run (interpreter : Interpreter) (state : State) (text : Text) : Except ReadError State :=
  text.foldlM (step interpreter) state

/-- `JSONDecoder.decode`. -/
def read (interpreter : Interpreter) (text : Text) : Except ReadError Document := do
  let state ← run interpreter start text
  finish interpreter state

/-- `json.loads` of bytes. -/
def loads (interpreter : Interpreter) (bytes : List UInt8) : Except ReadError Document :=
  match decodeDetected bytes with
  | some text => read interpreter text
  | none => .error .unicodeDecode

section

variable {interpreter : Interpreter} {state next : State} {stack : List Frame} {char : CodePoint}
variable {token text front back : Text} {value document : Document} {error : ReadError}

theorem run_cons : run interpreter state (char :: text) =
    step interpreter state char >>= fun next => run interpreter next text :=
  List.foldlM_cons

theorem run_append : run interpreter state (front ++ back) =
    run interpreter state front >>= fun next => run interpreter next back :=
  List.foldlM_append

/-! ### Whitespace around a text -/

/-- A space or a control character is none of the characters that mean something. -/
theorem ne_ofChar (blank : char.val ≤ 0x20) {visible : Char} (isVisible : 0x20 < visible.toNat) :
    char ≠ ofChar visible := by
  intro same
  have isNat : char.val = visible.toNat := congrArg Fin.val same
  omega

theorem Word.visible (word : Word) : ∀ letter ∈ word.spelling, 0x20 < letter.toNat := by
  have all : (word.spelling.all fun letter => decide (0x20 < letter.toNat)) = Bool.true := by
    cases word <;> rfl
  intro letter member
  exact of_decide_eq_true (List.all_eq_true.mp all letter member)

theorem wordOf_blank (blank : char.val ≤ 0x20) : wordOf char = none := by
  apply List.find?_eq_none.mpr
  intro word _
  rw [decide_eq_true_eq]
  intro same
  obtain ⟨letter, isHead, isChar⟩ := Option.map_eq_some_iff.mp same
  exact ne_ofChar blank (word.visible letter (List.mem_of_mem_head? isHead)) isChar.symm

theorem isDigit_blank (blank : char.val ≤ 0x20) : isDigit char = false := by
  simp only [isDigit, Bool.and_eq_false_iff, decide_eq_false_iff_not]
  omega

theorem startValue_blank (blank : char.val ≤ 0x20) :
    startValue interpreter stack char = .error .jsonDecode := by
  have notNumber : ¬ (isDigit char = true ∨ char = ofChar '-') := by
    rw [isDigit_blank blank]
    exact not_or.mpr ⟨Bool.false_ne_true, ne_ofChar blank (by decide)⟩
  rw [startValue, if_neg (ne_ofChar blank (by decide)), if_neg (ne_ofChar blank (by decide)),
    if_neg (ne_ofChar blank (by decide)), if_neg notNumber, wordOf_blank blank]

theorem startKey_blank (blank : char.val ≤ 0x20) (fields : List (Text × Document)) :
    startKey stack fields char = .error .jsonDecode := by
  rw [startKey, if_neg (ne_ofChar blank (by decide))]

theorem mark_blank (blank : char.val ≤ 0x20) :
    mark interpreter state char = .error .jsonDecode := by
  unfold mark
  cases state.phase with
  | value => exact startValue_blank blank
  | arrayStart => exact (if_neg (ne_ofChar blank (by decide))).trans (startValue_blank blank)
  | objectStart => exact (if_neg (ne_ofChar blank (by decide))).trans (startKey_blank blank _)
  | key fields => exact startKey_blank blank _
  | colon fields key => exact if_neg (ne_ofChar blank (by decide))
  | itemEnd items =>
      exact (if_neg (ne_ofChar blank (by decide))).trans (if_neg (ne_ofChar blank (by decide)))
  | memberEnd fields =>
      exact (if_neg (ne_ofChar blank (by decide))).trans (if_neg (ne_ofChar blank (by decide)))
  | done document => rfl
  | string keyOf pieces escape => rfl
  | number token => rfl
  | word word matched => rfl

/-- Whitespace between the characters that mean something is skipped, or it is an error. -/
theorem between_blank (blank : char.val ≤ 0x20)
    (stepped : between interpreter state char = .ok next) : next = state := by
  unfold between at stepped
  split_ifs at stepped with space
  · exact (Except.ok.inj stepped).symm
  · rw [mark_blank blank] at stepped
    cases stepped

/-- Whitespace does not end a text. -/
theorem stringStep_blank (blank : char.val ≤ 0x20) {keyOf : Option (List (Text × Document))}
    {pieces : List Piece} {escape : Escape}
    (stepped : stringStep stack keyOf pieces escape char = .ok next) :
    finish interpreter next = .error .jsonDecode := by
  cases escape with
  | none =>
      rw [stringStep, if_neg (ne_ofChar blank (by decide)), if_neg (ne_ofChar blank (by decide))]
        at stepped
      split_ifs at stepped with control
      cases stepped
      rfl
  | backslash =>
      rw [stringStep, if_neg (ne_ofChar blank (by decide))] at stepped
      split at stepped
      · cases stepped
        rfl
      · cases stepped
  | unicode digits =>
      rw [stringStep] at stepped
      split at stepped
      · split_ifs at stepped
        · cases stepped
          rfl
        · cases stepped
          rfl
      · cases stepped

theorem word_blank (blank : char.val ≤ 0x20) (word : Word) (matched : Nat) :
    (word.spelling[matched]?).map ofChar ≠ some char := by
  intro same
  obtain ⟨letter, isLetter, isChar⟩ := Option.map_eq_some_iff.mp same
  exact ne_ofChar blank (word.visible letter (List.mem_of_getElem? isLetter)) isChar.symm

theorem endsNumber_blank (blank : char.val ≤ 0x20) : endsNumber token char = true := by
  have notSign : [ofChar '+', ofChar '-', ofChar '.', ofChar 'e', ofChar 'E'].contains char =
      false := by
    simp only [List.contains_cons, List.contains_nil, Bool.or_false, Bool.or_eq_false_iff,
      beq_eq_false_iff_ne]
    exact ⟨ne_ofChar blank (by decide), ne_ofChar blank (by decide), ne_ofChar blank (by decide),
      ne_ofChar blank (by decide), ne_ofChar blank (by decide)⟩
  have notInfinity := ne_ofChar blank (show 0x20 < 'I'.toNat by decide)
  rw [endsNumber, isNumberPart, isDigit_blank blank, notSign, decide_eq_false notInfinity,
    Bool.and_false]
  rfl

/-- Only at the top is a text over behind a value. -/
theorem finish_complete (finished : finish interpreter (complete stack value) = .ok document) :
    stack = [] ∧ value = document := by
  cases stack with
  | nil => exact ⟨rfl, Except.ok.inj finished⟩
  | cons frame rest =>
      cases frame with
      | array items => cases finished
      | object fields key => cases finished

/-- A text that ends after a space could have ended before it. -/
theorem finish_before_blank (blank : char.val ≤ 0x20)
    (stepped : step interpreter state char = .ok next)
    (finished : finish interpreter next = .ok document) :
    finish interpreter state = .ok document := by
  have skipped (isBetween : step interpreter state char = between interpreter state char) :
      finish interpreter state = .ok document :=
    between_blank blank (isBetween ▸ stepped) ▸ finished
  cases isPhase : state.phase with
  | string keyOf pieces escape =>
      simp only [step, isPhase] at stepped
      rw [stringStep_blank blank stepped] at finished
      cases finished
  | number token =>
      simp only [step, isPhase, if_pos (endsNumber_blank blank)] at stepped
      cases isRead : readNumber interpreter token with
      | error error =>
          rw [isRead] at stepped
          cases stepped
      | ok value =>
          rw [isRead] at stepped
          rw [between_blank blank stepped] at finished
          have ⟨isTop, same⟩ := finish_complete finished
          simp only [finish, isPhase, isRead, isTop, same]
          rfl
  | word word matched =>
      simp only [step, isPhase, if_neg (word_blank blank word matched), reduceCtorEq] at stepped
  | value => exact skipped (by simp only [step, isPhase])
  | arrayStart => exact skipped (by simp only [step, isPhase])
  | objectStart => exact skipped (by simp only [step, isPhase])
  | key fields => exact skipped (by simp only [step, isPhase])
  | colon fields key => exact skipped (by simp only [step, isPhase])
  | itemEnd items => exact skipped (by simp only [step, isPhase])
  | memberEnd fields => exact skipped (by simp only [step, isPhase])
  | done document => exact skipped (by simp only [step, isPhase])

theorem run_blank_start (blank : ∀ char ∈ front, char.val ≤ 0x20)
    (ran : run interpreter start front = .ok next) : next = start := by
  induction front with
  | nil => exact (Except.ok.inj ran).symm
  | cons char rest inductionHypothesis =>
      rw [run_cons] at ran
      have ⟨middle, stepped, ranRest⟩ := bind_eq_ok.mp ran
      have same : middle = start := between_blank (blank char List.mem_cons_self) stepped
      rw [same] at ranRest
      exact inductionHypothesis (fun char member => blank char (List.mem_cons_of_mem _ member))
        ranRest

theorem finish_before_blanks (blank : ∀ char ∈ back, char.val ≤ 0x20)
    (ran : run interpreter state back = .ok next)
    (finished : finish interpreter next = .ok document) :
    finish interpreter state = .ok document := by
  induction back generalizing state with
  | nil =>
      rw [Except.ok.inj ran]
      exact finished
  | cons char rest inductionHypothesis =>
      rw [run_cons] at ran
      have ⟨middle, stepped, ranRest⟩ := bind_eq_ok.mp ran
      have finishedRest := inductionHypothesis
        (fun char member => blank char (List.mem_cons_of_mem _ member)) ranRest
      exact finish_before_blank (blank char List.mem_cons_self) stepped finishedRest

/-- What is read from a text is read from the text without the whitespace around it. -/
theorem read_trimmed (frontBlank : ∀ char ∈ front, char.val ≤ 0x20)
    (backBlank : ∀ char ∈ back, char.val ≤ 0x20)
    (isRead : read interpreter (front ++ text ++ back) = .ok document) :
    read interpreter text = .ok document := by
  unfold read at isRead ⊢
  rw [run_append, run_append] at isRead
  have ⟨last, ran, finished⟩ := bind_eq_ok.mp isRead
  have ⟨middle, ranText, ranBack⟩ := bind_eq_ok.mp ran
  have ⟨first, ranFront, ranMiddle⟩ := bind_eq_ok.mp ranText
  rw [run_blank_start frontBlank ranFront] at ranMiddle
  exact bind_eq_ok.mpr ⟨middle, ranMiddle, finish_before_blanks backBlank ranBack finished⟩

theorem asPoint_blank {bytes : List UInt8}
    (blank : ∀ byte ∈ bytes, 0 < byte.toNat ∧ byte.toNat ≤ 0x20) :
    ∀ point ∈ bytes.map asPoint, 0 < point.val ∧ point.val ≤ 0x20 := by
  intro point member
  obtain ⟨byte, isByte, rfl⟩ := List.mem_map.mp member
  rw [asPoint_val]
  exact blank byte isByte

/-- The same for the bytes of a text that is taken for UTF-8. -/
theorem loads_trimmed {front back : List UInt8} {text : Text} (plain : StartsPlain text)
    (frontBlank : ∀ byte ∈ front, 0 < byte.toNat ∧ byte.toNat ≤ 0x20)
    (backBlank : ∀ byte ∈ back, 0 < byte.toNat ∧ byte.toNat ≤ 0x20)
    (loaded : loads interpreter (front ++ text.flatMap encodePoint ++ back) = .ok document) :
    loads interpreter (text.flatMap encodePoint) = .ok document := by
  have frontPoints := asPoint_blank frontBlank
  have backPoints := asPoint_blank backBlank
  have bytes : front ++ text.flatMap encodePoint ++ back =
      (front.map asPoint ++ text ++ back.map asPoint).flatMap encodePoint := by
    rw [List.flatMap_append, List.flatMap_append,
      flatMap_asPoint fun byte member => by have bound := frontBlank byte member; omega,
      flatMap_asPoint fun byte member => by have bound := backBlank byte member; omega]
  have wholePlain : StartsPlain (front.map asPoint ++ text ++ back.map asPoint) := by
    apply (plain.prepend _).append
    intro point member
    have bound := frontPoints point member
    omega
  rw [loads, bytes, decodeDetected_flatMap wholePlain] at loaded
  rw [loads, decodeDetected_flatMap plain]
  exact read_trimmed (fun point member => (frontPoints point member).2)
    (fun point member => (backPoints point member).2) loaded

/-! ### Errors that are no errors of the syntax -/

def Overruns {Value : Type} (result : Except ReadError Value) : Prop :=
  result = .error .tooManyDigits ∨ result = .error .tooDeep

def opens (char : CodePoint) : Bool :=
  char = ofChar '[' || char = ofChar '\x7b'

/-- A value may start here, and it may not be an array or an object. -/
def State.Full (interpreter : Interpreter) (state : State) : Prop :=
  match state.phase with
  | .value => interpreter.readDepth ≤ state.stack.length
  | .arrayStart => interpreter.readDepth ≤ state.stack.length + 1
  | _ => False

/-- The next character, or the end of the text, is one too many: it ends an integer
that has too many digits, or it opens an array or an object. -/
def State.AtLimit (interpreter : Interpreter) (state : State) (next : Option CodePoint) : Prop :=
  match state.phase with
  | .number token =>
      (∀ char ∈ next, endsNumber token char = true) ∧ (matchNumber token).Overlong
  | _ => state.Full interpreter ∧ ∃ char ∈ next, opens char = true

/-- Reading the text comes to a limit of the interpreter. -/
def ExceedsLimits (interpreter : Interpreter) (text : Text) : Prop :=
  ∃ front back state, text = front ++ back ∧ run interpreter start front = .ok state ∧
    state.AtLimit interpreter back.head?

theorem not_overruns_ok {Value : Type} (value : Value) :
    ¬ Overruns (.ok value : Except ReadError Value) := by
  simp [Overruns]

theorem not_overruns_jsonDecode {Value : Type} :
    ¬ Overruns (.error .jsonDecode : Except ReadError Value) := by
  simp [Overruns]

theorem overruns_bind {First Value : Type} {first : Except ReadError First}
    {rest : First → Except ReadError Value} :
    Overruns (first >>= rest) ↔
      Overruns first ∨ ∃ value, first = .ok value ∧ Overruns (rest value) := by
  simp only [Overruns, bind_eq_error]
  constructor
  · rintro ((failed | ⟨value, returned, failed⟩) | (failed | ⟨value, returned, failed⟩))
    · exact .inl (.inl failed)
    · exact .inr ⟨value, returned, .inl failed⟩
    · exact .inl (.inr failed)
    · exact .inr ⟨value, returned, .inr failed⟩
  · rintro ((failed | failed) | ⟨value, returned, failed | failed⟩)
    · exact .inl (.inl failed)
    · exact .inr (.inl failed)
    · exact .inl (.inr ⟨value, returned, failed⟩)
    · exact .inr (.inr ⟨value, returned, failed⟩)

theorem overruns_readNumber :
    Overruns (readNumber interpreter token) ↔ (matchNumber token).Overlong := by
  unfold readNumber NumberMatch.Overlong
  dsimp only
  split_ifs with noWhole integer short ended ended
  · exact iff_of_false not_overruns_jsonDecode fun overlong => overlong.1 noWhole
  · exact iff_of_false (not_overruns_ok _) fun overlong => absurd short overlong.2.2.2.not_gt
  · exact iff_of_false not_overruns_jsonDecode fun overlong =>
      absurd short overlong.2.2.2.not_gt
  · exact iff_of_true (.inl rfl) ⟨noWhole, integer.1, integer.2, not_lt.mp short⟩
  · exact iff_of_false (not_overruns_ok _) fun overlong => integer ⟨overlong.2.1, overlong.2.2.1⟩
  · exact iff_of_false not_overruns_jsonDecode fun overlong =>
      integer ⟨overlong.2.1, overlong.2.2.1⟩

theorem overruns_enter (phase : Phase) :
    Overruns (enter interpreter stack phase) ↔ interpreter.readDepth ≤ stack.length := by
  unfold enter
  split_ifs with room
  · exact iff_of_false (not_overruns_ok _) (not_le.mpr room)
  · exact iff_of_true (.inr rfl) (not_lt.mp room)

theorem overruns_startValue : Overruns (startValue interpreter stack char) ↔
    interpreter.readDepth ≤ stack.length ∧ opens char = true := by
  unfold startValue
  split_ifs with quoted bracket brace number
  · apply iff_of_false (not_overruns_ok _)
    rw [quoted]
    exact fun full => absurd full.2 (by decide)
  · rw [overruns_enter, bracket]
    exact (and_iff_left (by decide)).symm
  · rw [overruns_enter, brace]
    exact (and_iff_left (by decide)).symm
  · apply iff_of_false (not_overruns_ok _)
    simp [opens, bracket, brace]
  · have closed : opens char = false := by simp [opens, bracket, brace]
    rw [closed]
    cases wordOf char with
    | none => exact iff_of_false not_overruns_jsonDecode (by simp)
    | some word => exact iff_of_false (not_overruns_ok _) (by simp)

theorem not_overruns_startKey (fields : List (Text × Document)) :
    ¬ Overruns (startKey stack fields char) := by
  unfold startKey
  split_ifs
  · exact not_overruns_ok _
  · exact not_overruns_jsonDecode

theorem overruns_mark :
    Overruns (mark interpreter state char) ↔ state.Full interpreter ∧ opens char = true := by
  unfold mark State.Full
  cases state.phase with
  | value => exact overruns_startValue
  | arrayStart =>
      dsimp only
      split_ifs with bracket
      · rw [bracket]
        exact iff_of_false (not_overruns_ok _) fun full => absurd full.2 (by decide)
      · exact overruns_startValue
  | objectStart =>
      dsimp only
      split_ifs
      · exact iff_of_false (not_overruns_ok _) (by simp)
      · exact iff_of_false (not_overruns_startKey _) (by simp)
  | key fields => exact iff_of_false (not_overruns_startKey _) (by simp)
  | colon fields key =>
      dsimp only
      split_ifs
      · exact iff_of_false (not_overruns_ok _) (by simp)
      · exact iff_of_false not_overruns_jsonDecode (by simp)
  | itemEnd items =>
      dsimp only
      split_ifs
      · exact iff_of_false (not_overruns_ok _) (by simp)
      · exact iff_of_false (not_overruns_ok _) (by simp)
      · exact iff_of_false not_overruns_jsonDecode (by simp)
  | memberEnd fields =>
      dsimp only
      split_ifs
      · exact iff_of_false (not_overruns_ok _) (by simp)
      · exact iff_of_false (not_overruns_ok _) (by simp)
      · exact iff_of_false not_overruns_jsonDecode (by simp)
  | done document => exact iff_of_false not_overruns_jsonDecode (by simp)
  | string keyOf pieces escape => exact iff_of_false not_overruns_jsonDecode (by simp)
  | number token => exact iff_of_false not_overruns_jsonDecode (by simp)
  | word word matched => exact iff_of_false not_overruns_jsonDecode (by simp)

theorem not_opens_of_isSpace (space : isSpace char = true) : opens char = false := by
  by_contra opening
  rw [Bool.not_eq_false, opens, Bool.or_eq_true, decide_eq_true_eq, decide_eq_true_eq] at opening
  rcases opening with bracket | brace
  · exact absurd (bracket ▸ space) (by decide)
  · exact absurd (brace ▸ space) (by decide)

theorem overruns_between :
    Overruns (between interpreter state char) ↔ state.Full interpreter ∧ opens char = true := by
  unfold between
  split_ifs with space
  · rw [not_opens_of_isSpace space]
    exact iff_of_false (not_overruns_ok _) (by simp)
  · exact overruns_mark

theorem not_full_complete : ¬ (complete stack value).Full interpreter := by
  cases stack with
  | nil => exact id
  | cons frame rest =>
      cases frame with
      | array items => exact id
      | object fields key => exact id

theorem not_overruns_stringStep (keyOf : Option (List (Text × Document))) (pieces : List Piece)
    (escape : Escape) : ¬ Overruns (stringStep stack keyOf pieces escape char) := by
  cases escape with
  | none =>
      unfold stringStep
      dsimp only
      split_ifs <;> simp [Overruns]
  | backslash =>
      unfold stringStep
      dsimp only
      split_ifs
      · exact not_overruns_ok _
      · cases simpleEscape char with
        | none => exact not_overruns_jsonDecode
        | some point => exact not_overruns_ok _
  | unicode digits =>
      unfold stringStep
      cases hexDigit char with
      | none => exact not_overruns_jsonDecode
      | some digit =>
          dsimp only
          split_ifs
          · exact not_overruns_ok _
          · exact not_overruns_ok _

/-- A character overruns exactly when the state before it is at a limit. -/
theorem overruns_step :
    Overruns (step interpreter state char) ↔ state.AtLimit interpreter (some char) := by
  have elsewhere : Overruns (between interpreter state char) ↔
      state.Full interpreter ∧ ∃ other ∈ some char, opens other = true := by
    rw [overruns_between]
    simp
  unfold step State.AtLimit
  cases isPhase : state.phase with
  | value => exact elsewhere
  | arrayStart => exact elsewhere
  | objectStart => exact elsewhere
  | key fields => exact elsewhere
  | colon fields key => exact elsewhere
  | itemEnd items => exact elsewhere
  | memberEnd fields => exact elsewhere
  | done document => exact elsewhere
  | string keyOf pieces escape =>
      apply iff_of_false (not_overruns_stringStep _ _ _)
      simp [State.Full, isPhase]
  | word word matched =>
      have notFull : ¬ state.Full interpreter := by simp [State.Full, isPhase]
      dsimp only
      split_ifs
      · exact iff_of_false (not_overruns_ok _) fun limit => notFull limit.1
      · exact iff_of_false (not_overruns_ok _) fun limit => notFull limit.1
      · exact iff_of_false not_overruns_jsonDecode fun limit => notFull limit.1
  | number token =>
      dsimp only
      split_ifs with ends part
      · rw [overruns_bind, overruns_readNumber]
        simp [overruns_between, not_full_complete, ends]
      · exact iff_of_false (not_overruns_ok _) fun limit => ends (limit.1 char rfl)
      · exact iff_of_false (not_overruns_ok _) fun limit => ends (limit.1 char rfl)

theorem overruns_finish :
    Overruns (finish interpreter state) ↔ state.AtLimit interpreter none := by
  unfold finish State.AtLimit
  cases isPhase : state.phase with
  | done document => exact iff_of_false (not_overruns_ok _) (by simp)
  | number token =>
      have ending (value : Document) : ¬ Overruns (if state.stack.isEmpty then pure value
          else .error .jsonDecode : Except ReadError Document) := by
        split_ifs
        · exact not_overruns_ok _
        · exact not_overruns_jsonDecode
      have noMore : ¬ ∃ value, readNumber interpreter token = .ok value ∧
          Overruns (if state.stack.isEmpty then pure value
            else .error .jsonDecode : Except ReadError Document) :=
        fun ⟨value, _, overruns⟩ => ending value overruns
      dsimp only
      rw [overruns_bind, overruns_readNumber, or_iff_left noMore]
      exact (and_iff_right (by simp)).symm
  | value => exact iff_of_false not_overruns_jsonDecode (by simp)
  | arrayStart => exact iff_of_false not_overruns_jsonDecode (by simp)
  | objectStart => exact iff_of_false not_overruns_jsonDecode (by simp)
  | key fields => exact iff_of_false not_overruns_jsonDecode (by simp)
  | colon fields key => exact iff_of_false not_overruns_jsonDecode (by simp)
  | itemEnd items => exact iff_of_false not_overruns_jsonDecode (by simp)
  | memberEnd fields => exact iff_of_false not_overruns_jsonDecode (by simp)
  | string keyOf pieces escape => exact iff_of_false not_overruns_jsonDecode (by simp)
  | word word matched => exact iff_of_false not_overruns_jsonDecode (by simp)

theorem overruns_run_finish :
    Overruns (run interpreter state text >>= finish interpreter) ↔
      ∃ front back last, text = front ++ back ∧ run interpreter state front = .ok last ∧
        last.AtLimit interpreter back.head? := by
  induction text generalizing state with
  | nil =>
      show Overruns (finish interpreter state) ↔ _
      rw [overruns_finish]
      constructor
      · intro limit
        exact ⟨[], [], state, rfl, rfl, limit⟩
      · rintro ⟨front, back, last, split, ran, limit⟩
        obtain ⟨rfl, rfl⟩ := List.append_eq_nil_iff.mp split.symm
        rw [Except.ok.inj ran]
        exact limit
  | cons char rest inductionHypothesis =>
      rw [run_cons, bind_assoc, overruns_bind, overruns_step]
      simp only [inductionHypothesis]
      constructor
      · rintro (limit | ⟨next, stepped, front, back, last, split, ran, limit⟩)
        · exact ⟨[], char :: rest, state, rfl, rfl, limit⟩
        · refine ⟨char :: front, back, last, by rw [split, List.cons_append], ?_, limit⟩
          rw [run_cons, stepped]
          exact ran
      · rintro ⟨front, back, last, split, ran, limit⟩
        cases front with
        | nil =>
            rw [List.nil_append] at split
            rw [← split, ← Except.ok.inj ran] at limit
            exact .inl limit
        | cons first others =>
            obtain ⟨rfl, isRest⟩ := List.cons.inj split
            rw [run_cons] at ran
            have ⟨next, stepped, ranRest⟩ := bind_eq_ok.mp ran
            exact .inr ⟨next, stepped, others, back, last, isRest, ranRest, limit⟩

/-- The reader fails with an error that is none of the syntax exactly when it comes to
a limit. -/
theorem overruns_read : Overruns (read interpreter text) ↔ ExceedsLimits interpreter text :=
  overruns_run_finish

end

end JsonReader

end BubllioCrm.Foundations
