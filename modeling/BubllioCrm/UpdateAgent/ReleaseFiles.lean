import BubllioCrm.Foundations.JsonRoundTrip
import BubllioCrm.UpdateAgent.ReleaseSource

/-!
Owns the release files on both sides of the signature: `canonicalize-manifest`,
which writes what is signed, `validate-manifest`, which checks it before it is
published, and the agent, which verifies what it downloads.

What a verifier makes of a manifest and a bundle is a parameter.
-/

namespace BubllioCrm.UpdateAgent

open BubllioCrm.Foundations

/-! ### Text files -/

/-- Universal newlines: every line end becomes a line feed. -/
def translateNewlines : Text → Text
  | [] => []
  | [point] => if point = ofChar '\r' then [ofChar '\n'] else [point]
  | point :: next :: rest =>
      if point = ofChar '\r' then
        if next = ofChar '\n' then ofChar '\n' :: translateNewlines rest
        else ofChar '\n' :: translateNewlines (next :: rest)
      else point :: translateNewlines (next :: rest)

/-- `Path.read_text(encoding="utf-8")`, where `none` is a `UnicodeDecodeError`. -/
def readText (file : List UInt8) : Option Text := do
  let text ← decodeUtf8 file
  if text.any isSurrogate then none else return translateNewlines text

/-- `json.loads(path.read_text(encoding="utf-8"))`, whose errors nobody handles. -/
def readManifest (interpreter : Interpreter) (file : List UInt8) : Except Raised Document :=
  match (readText file).map (JsonReader.read interpreter) with
  | some (.ok value) => .ok value
  | _ => .error .otherException

/-! ### The three commands -/

/-- `canonicalize-manifest`, and the file that it writes. -/
def canonicalizeManifest (interpreter : Interpreter) (file : List UInt8) :
    Except Raised (List UInt8) := do
  let value ← readManifest interpreter file
  canonicalManifestBytes interpreter value

mutual

def toJson : Document → Json
  | .null => .null
  | .bool value => .bool value
  | .int number => .int number.val
  | .float shown => .float shown
  | .str text => .str (toText text)
  | .arr items => .arr (itemsToJson items)
  | .obj fields => .obj (fieldsToJson fields)

def itemsToJson : List Document → List Json
  | [] => []
  | item :: rest => toJson item :: itemsToJson rest

def fieldsToJson : List (Text × Document) → List (String × Json)
  | [] => []
  | (key, value) :: rest => (toText key, toJson value) :: fieldsToJson rest

end

/-- `ManifestVerifier.verify`, of a manifest, a bundle and a version. -/
abbrev Verifier := List UInt8 → List UInt8 → StableVersion → Except Raised Unit

/-- `validate-manifest`. A manifest that is not canonical ends the program. -/
def validateManifest (interpreter : Interpreter) (verify : Verifier) (repository : String)
    (target current : StableVersion) (file bundle : List UInt8) : Except Raised Unit := do
  let raw ← readManifest interpreter file
  let canonical ← canonicalManifestBytes interpreter raw
  if strip file ≠ canonical then .error .baseException
  else
    verify canonical bundle target
    let _ ← parseVerifiedManifest (toJson raw) repository target current
    return ()

/-- `_verified_manifest`, of what the two requests come to. -/
def verifiedManifest (interpreter : Interpreter) (verify : Verifier) (repository : String)
    (target current : StableVersion) (manifestResponse bundleResponse : Response) :
    Except Raised (ReleaseManifest × List (Text × Document)) := do
  let material ← load interpreter manifestResponse bundleResponse
  verify material.canonicalBytes material.bundle target
  let manifest ← parseVerifiedManifest (toJson (.obj material.manifest)) repository target current
  return (manifest, material.manifest)

section

variable {interpreter : Interpreter} {file canonical : List UInt8} {document : Document}

/-! ### Line ends -/

theorem translateNewlines_cons {point : CodePoint} (notReturn : point ≠ ofChar '\r')
    (rest : Text) : translateNewlines (point :: rest) = point :: translateNewlines rest := by
  cases rest with
  | nil => exact if_neg notReturn
  | cons next others => exact if_neg notReturn

theorem translateNewlines_pair (rest : Text) :
    translateNewlines (ofChar '\r' :: ofChar '\n' :: rest) =
      ofChar '\n' :: translateNewlines rest :=
  (if_pos rfl).trans (if_pos rfl)

theorem translateNewlines_return {rest : Text}
    (notFeed : ∀ point ∈ rest.head?, point ≠ ofChar '\n') :
    translateNewlines (ofChar '\r' :: rest) = ofChar '\n' :: translateNewlines rest := by
  cases rest with
  | nil => rfl
  | cons next others => exact (if_pos rfl).trans (if_neg (notFeed next rfl))

/-- A text without carriage returns stays, whatever stands behind it. -/
theorem translateNewlines_visible {text : Text} (visible : JsonReader.Visible text) (back : Text) :
    translateNewlines (text ++ back) = text ++ translateNewlines back := by
  induction text with
  | nil => rfl
  | cons point rest inductionHypothesis =>
      have shown := visible point List.mem_cons_self
      have notReturn : point ≠ ofChar '\r' := by
        rintro rfl
        exact absurd shown (by decide)
      rw [List.cons_append, translateNewlines_cons notReturn, inductionHypothesis
        fun other member => visible other (List.mem_cons_of_mem point member), List.cons_append]

theorem starts_of_cons {next : CodePoint} {rest : Text} (notFeed : next ≠ ofChar '\n') :
    ∀ point ∈ (next :: rest).head?, point ≠ ofChar '\n' := by
  intro point isNext
  rw [← Option.some.inj isNext]
  exact notFeed

/-- Line ends in front of a text are translated by themselves. -/
theorem translateNewlines_append {text : Text} (front : Text)
    (starts : ∀ point ∈ text.head?, point ≠ ofChar '\n') :
    translateNewlines (front ++ text) = translateNewlines front ++ translateNewlines text := by
  induction front using translateNewlines.induct with
  | case1 => rfl
  | case2 =>
      rw [List.singleton_append, translateNewlines_return starts]
      rfl
  | case3 point notReturn =>
      rw [List.singleton_append, translateNewlines_cons notReturn, translateNewlines_cons notReturn]
      rfl
  | case4 rest inductionHypothesis =>
      rw [List.cons_append, List.cons_append, translateNewlines_pair, translateNewlines_pair,
        inductionHypothesis, List.cons_append]
  | case5 next rest notFeed inductionHypothesis =>
      have split : ofChar '\r' :: next :: rest ++ text =
          ofChar '\r' :: next :: (rest ++ text) := rfl
      rw [split, translateNewlines_return (starts_of_cons notFeed),
        translateNewlines_return (starts_of_cons notFeed), List.cons_append, ← inductionHypothesis,
        List.cons_append]
  | case6 point next rest notReturn inductionHypothesis =>
      rw [List.cons_append, translateNewlines_cons notReturn, inductionHypothesis,
        translateNewlines_cons notReturn, List.cons_append]

/-- A property of both line ends holds of the translated text as it did before. -/
theorem forall_mem_translateNewlines {holds : CodePoint → Prop} (carriage : holds (ofChar '\r'))
    (feed : holds (ofChar '\n')) (text : Text) :
    (∀ point ∈ translateNewlines text, holds point) ↔ ∀ point ∈ text, holds point := by
  induction text using translateNewlines.induct with
  | case1 => rfl
  | case2 => simp [translateNewlines, carriage, feed]
  | case3 point notReturn => simp [translateNewlines, notReturn]
  | case4 rest inductionHypothesis =>
      rw [translateNewlines_pair, List.forall_mem_cons, inductionHypothesis, List.forall_mem_cons,
        List.forall_mem_cons, and_iff_right feed, and_iff_right carriage]
  | case5 next rest notFeed inductionHypothesis =>
      rw [translateNewlines_return (starts_of_cons notFeed), List.forall_mem_cons,
        inductionHypothesis, List.forall_mem_cons (a := ofChar '\r'), and_iff_right feed,
        and_iff_right carriage]
  | case6 point next rest notReturn inductionHypothesis =>
      rw [translateNewlines_cons notReturn, List.forall_mem_cons, inductionHypothesis,
        List.forall_mem_cons (a := point)]

/-! ### One file for both readers -/

theorem readManifest_eq_ok : readManifest interpreter file = .ok document ↔
    ∃ text, readText file = some text ∧ JsonReader.read interpreter text = .ok document := by
  unfold readManifest
  cases readText file with
  | none => simp
  | some text =>
      cases isRead : JsonReader.read interpreter text with
      | error error => simp [isRead]
      | ok value => simp [isRead]

/-- A file whose stripped bytes are canonical is a written text between blanks. -/
theorem file_of_canonical (isCanonical : canonicalManifestBytes interpreter document =
    .ok (strip file)) : ∃ front back : Text,
      (∀ point ∈ front ++ back, 0 < point.val ∧ point.val ≤ 0x20) ∧
        file = (front ++ document.write ++ back).flatMap encodePoint := by
  obtain ⟨front, back, split, frontBlank, backBlank⟩ := strip_split file
  have written := (canonicalManifestBytes_eq_ok.mp isCanonical).2
  refine ⟨front.map asPoint, back.map asPoint, ?_, ?_⟩
  · exact List.forall_mem_append.mpr
      ⟨JsonReader.asPoint_blank frontBlank, JsonReader.asPoint_blank backBlank⟩
  · rw [List.flatMap_append, List.flatMap_append, written,
      flatMap_asPoint fun byte member => by have bound := frontBlank byte member; omega,
      flatMap_asPoint fun byte member => by have bound := backBlank byte member; omega, ← split]

/-- What can be written and is read back. -/
structure Canonical (interpreter : Interpreter) (document : Document) : Prop where
  starts : StartsPlain document.write
  plain : document.hasSurrogate = false
  visible : JsonReader.Visible document.write

/-- Of a file whose stripped bytes are canonical, the file on disk and the served
bytes are read alike, whatever blanks are around them. -/
theorem readManifest_iff_loads (canonical : Canonical interpreter document)
    (isCanonical : canonicalManifestBytes interpreter document = .ok (strip file)) :
    readManifest interpreter file = .ok document ↔
      JsonReader.loads interpreter file = .ok document := by
  obtain ⟨front, back, blank, isFile⟩ := file_of_canonical isCanonical
  obtain ⟨frontBlank, backBlank⟩ := List.forall_mem_append.mp blank
  have wholePlain : StartsPlain (front ++ document.write ++ back) := by
    apply (canonical.starts.prepend _).append
    intro point member
    have bound := frontBlank point member
    omega
  have noSurrogate : (front ++ document.write ++ back).any isSurrogate = false := by
    have none {text : Text} (blankText : ∀ point ∈ text, 0 < point.val ∧ point.val ≤ 0x20) :
        text.any isSurrogate = false := by
      rw [List.any_eq_false]
      intro point member
      have bound := blankText point member
      simp only [isSurrogate, Bool.and_eq_true, decide_eq_true_eq]
      omega
    rw [List.any_append, List.any_append, none frontBlank, none backBlank,
      Document.write_surrogate, canonical.plain]
    rfl
  have starts : ∀ point ∈ (document.write ++ back).head?, point ≠ ofChar '\n' := by
    obtain ⟨first, second, rest, isText, -⟩ := canonical.starts
    have shown : 0x20 ≤ first.val := canonical.visible first (isText ▸ List.mem_cons_self)
    rw [isText]
    apply starts_of_cons
    rintro rfl
    exact absurd shown (by decide)
  have fromDisk : readText file =
      some (translateNewlines front ++ document.write ++ translateNewlines back) := by
    rw [readText, isFile, decodeUtf8_flatMap]
    show (if _ then _ else _) = _
    rw [noSurrogate, if_neg Bool.false_ne_true, List.append_assoc,
      translateNewlines_append front starts, translateNewlines_visible canonical.visible,
      List.append_assoc]
    rfl
  have served : JsonReader.loads interpreter file =
      JsonReader.read interpreter (front ++ document.write ++ back) := by
    rw [JsonReader.loads, isFile, decodeDetected_flatMap wholePlain]
  have isBlank {text : Text} (blankText : ∀ point ∈ text, 0 < point.val ∧ point.val ≤ 0x20) :
      ∀ point ∈ text, point.val ≤ 0x20 := fun point member => (blankText point member).2
  have translatedBlank {text : Text}
      (blankText : ∀ point ∈ text, 0 < point.val ∧ point.val ≤ 0x20) :
      ∀ point ∈ translateNewlines text, point.val ≤ 0x20 :=
    (forall_mem_translateNewlines (by decide) (by decide) text).mpr (isBlank blankText)
  have spaces : (∀ point ∈ translateNewlines front ++ translateNewlines back,
      JsonReader.isSpace point = true) ↔
        ∀ point ∈ front ++ back, JsonReader.isSpace point = true := by
    have same (text : Text) : (∀ point ∈ translateNewlines text, JsonReader.isSpace point = true) ↔
        ∀ point ∈ text, JsonReader.isSpace point = true :=
      forall_mem_translateNewlines (by decide) (by decide) text
    rw [List.forall_mem_append, List.forall_mem_append, same, same]
  rw [readManifest_eq_ok, fromDisk, served,
    JsonReader.read_surrounded (isBlank frontBlank) (isBlank backBlank), ← spaces,
    ← JsonReader.read_surrounded (translatedBlank frontBlank) (translatedBlank backBlank)]
  simp

variable {fields : List (Text × Document)}

theorem canonical_obj (writable : ¬ (interpreter.writeDepth < (Document.obj fields).depth ∨
      (Document.obj fields).hasSurrogate = true))
    (readable : JsonReader.Readable interpreter (.obj fields)) :
    Canonical interpreter (.obj fields) where
  starts := Document.startsPlain_write_obj fields
  plain := Bool.not_eq_true _ ▸ (not_or.mp writable).2
  visible := JsonReader.visible_write _ readable

/-- Both readers read the same object from a file whose stripped bytes are its
canonical form. -/
theorem readManifest_obj_iff (shows : JsonReader.ShowsFloats interpreter)
    (isCanonical : canonicalManifestBytes interpreter (.obj fields) = .ok (strip file)) :
    readManifest interpreter file = .ok (.obj fields) ↔
      JsonReader.loads interpreter file = .ok (.obj fields) := by
  have writable := (canonicalManifestBytes_eq_ok.mp isCanonical).1
  have agree (readable : JsonReader.Readable interpreter (.obj fields)) :=
    readManifest_iff_loads (canonical_obj writable readable) isCanonical
  constructor
  · intro isRead
    obtain ⟨text, -, fromText⟩ := readManifest_eq_ok.mp isRead
    exact (agree (JsonReader.read_fits shows fromText).readable).mp isRead
  · intro loaded
    obtain ⟨text, decoded, fromText⟩ : ∃ text, decodeDetected file = some text ∧
        JsonReader.read interpreter text = .ok (.obj fields) := by
      unfold JsonReader.loads at loaded
      cases decoded : decodeDetected file with
      | none => simp [decoded] at loaded
      | some text => exact ⟨text, rfl, by simpa [decoded] using loaded⟩
    exact (agree (JsonReader.read_fits shows fromText).readable).mpr loaded

/-- A canonical form is read as its object, with the fields in order. -/
theorem loads_canonicalManifestBytes (shows : JsonReader.ShowsFloats interpreter)
    (isRead : readManifest interpreter file = .ok (.obj fields))
    (isCanonical : canonicalManifestBytes interpreter (.obj fields) = .ok canonical) :
    JsonReader.loads interpreter canonical = .ok (Document.sorted (.obj fields)) := by
  obtain ⟨text, -, fromText⟩ := readManifest_eq_ok.mp isRead
  have written := (canonicalManifestBytes_eq_ok.mp isCanonical).2
  rw [← written, JsonReader.loads,
    decodeDetected_flatMap (Document.startsPlain_write_obj fields)]
  exact JsonReader.read_write_of_read shows fromText

/-! ### The download of what was canonicalized -/

/-- There is nothing to strip around a canonical form. -/
theorem strip_canonical (isCanonical : canonicalManifestBytes interpreter (.obj fields) =
    .ok canonical) : strip canonical = canonical := by
  have braces : ∃ middle, canonical = (0x7b :: middle) ++ [0x7d] := by
    rw [← (canonicalManifestBytes_eq_ok.mp isCanonical).2, Document.write_obj, List.flatMap_append,
      List.flatMap_append]
    exact ⟨_, rfl⟩
  obtain ⟨middle, rfl⟩ := braces
  rw [strip, List.cons_append, List.dropWhile_cons_of_neg (by decide), ← List.cons_append,
    List.rdropWhile_concat_neg _ _ _ (by decide)]

/-- An object whose canonical form is served is downloaded whenever the limits allow it. -/
theorem load_eq_ok_iff (loaded : JsonReader.loads interpreter file = .ok (.obj fields))
    (isCanonical : canonicalManifestBytes interpreter (.obj fields) = .ok (strip file))
    (declared bundleDeclared : Option String) (bundle : List UInt8) :
    load interpreter (.answered declared file) (.answered bundleDeclared bundle) =
        .ok { manifest := fields, canonicalBytes := strip file, bundle } ↔
      Delivers maxManifestBytes declared file ∧ Delivers maxBundleBytes bundleDeclared bundle := by
  unfold load
  constructor
  · intro downloaded
    obtain ⟨served, fetched, downloaded⟩ := bind_eq_ok.mp downloaded
    obtain ⟨manifest, -, downloaded⟩ := bind_eq_ok.mp downloaded
    obtain ⟨object, -, downloaded⟩ := bind_eq_ok.mp downloaded
    obtain ⟨canonical, -, downloaded⟩ := bind_eq_ok.mp downloaded
    obtain ⟨_, -, downloaded⟩ := bind_eq_ok.mp downloaded
    obtain ⟨bundle, fetchedBundle, built⟩ := bind_eq_ok.mp downloaded
    cases built
    exact ⟨(fetch_eq_ok.mp fetched).1, (fetch_eq_ok.mp fetchedBundle).1⟩
  · rintro ⟨delivers, deliversBundle⟩
    rw [fetch_eq_ok.mpr ⟨delivers, rfl⟩, fetch_eq_ok.mpr ⟨deliversBundle, rfl⟩]
    refine bind_eq_ok.mpr ⟨file, rfl, bind_eq_ok.mpr ⟨_, loadManifest_eq_ok.mpr loaded,
      bind_eq_ok.mpr ⟨fields, rfl, bind_eq_ok.mpr ⟨_, isCanonical, ?_⟩⟩⟩⟩
    exact bind_eq_ok.mpr ⟨(), requireManifest_ok.mpr (decide_eq_true rfl), rfl⟩

end

/-- Of every file that `canonicalize-manifest` reads as an object and writes, the agent
downloads that object with its fields in order, and the bytes that were written are what it
has verified, exactly when the limits of the download allow it. -/
theorem load_canonicalized_iff {interpreter : Interpreter} {file canonical : List UInt8}
    {fields : List (Text × Document)} (shows : JsonReader.ShowsFloats interpreter)
    (isRead : readManifest interpreter file = .ok (.obj fields))
    (written : canonicalizeManifest interpreter file = .ok canonical)
    (declared bundleDeclared : Option String) (bundle : List UInt8) :
    load interpreter (.answered declared canonical) (.answered bundleDeclared bundle) =
        .ok {
          manifest := (Document.sortedFields fields).insertionSort Document.byKey
          canonicalBytes := canonical
          bundle } ↔
      Delivers maxManifestBytes declared canonical ∧
        Delivers maxBundleBytes bundleDeclared bundle := by
  have isCanonical : canonicalManifestBytes interpreter (.obj fields) = .ok canonical := by
    rw [canonicalizeManifest, isRead] at written
    exact written
  have loaded := loads_canonicalManifestBytes shows isRead isCanonical
  have same : strip canonical = canonical := strip_canonical isCanonical
  have again : canonicalManifestBytes interpreter (Document.sorted (.obj fields)) =
      .ok (strip canonical) := by
    rw [same, canonicalManifestBytes_eq_ok, Document.depth_sorted, Document.hasSurrogate_sorted,
      Document.write_sorted]
    exact canonicalManifestBytes_eq_ok.mp isCanonical
  rw [Document.sorted] at loaded again
  have download := load_eq_ok_iff loaded again declared bundleDeclared bundle
  rwa [same] at download

theorem isNumberPart_plain {point : CodePoint} (isPart : JsonReader.isNumberPart point = true) :
    isSurrogate point = false := by
  rw [JsonReader.isNumberPart, Bool.or_eq_true] at isPart
  rcases isPart with digit | isMark
  · simp only [JsonReader.isDigit, Bool.and_eq_true, decide_eq_true_eq] at digit
    simp only [isSurrogate, Bool.and_eq_false_iff, decide_eq_false_iff_not]
    omega
  · have plain : ∀ mark ∈ [ofChar '+', ofChar '-', ofChar '.', ofChar 'e', ofChar 'E'],
        isSurrogate mark = false := by simp [ofChar_not_surrogate]
    rw [List.contains_eq_mem, decide_eq_true_eq] at isMark
    exact plain point isMark

/-- The usual interpreter shows floats as they were written, so that they are read back. -/
theorem usualInterpreter_showsFloats : JsonReader.ShowsFloats usualInterpreter := by
  intro token shown isRead
  have parts := (JsonReader.numberToken_of_read isRead).parts
  have isShown : shown = toText token := by
    unfold JsonReader.readNumber at isRead
    dsimp only at isRead
    split_ifs at isRead
    · cases isRead
    · cases isRead
      rfl
  have same : ofString shown = token := by
    rw [isShown]
    apply ofString_toText
    rw [List.any_eq_false]
    intro point member
    rw [isNumberPart_plain (parts point member)]
    exact Bool.false_ne_true
  exact .number (same.symm ▸ isRead)

/-- An object on two lines whose keys are not in order, and its canonical form. -/
def unorderedFile : List UInt8 :=
  [0x7b, 0x22, 0x62, 0x22, 0x3a, 0x0d, 0x0a, 0x22, 0x22, 0x2c, 0x22, 0x61, 0x22, 0x3a, 0x22, 0x5c,
    0x75, 0x30, 0x30, 0x65, 0x39, 0x22, 0x7d]

def orderedFile : List UInt8 :=
  [0x7b, 0x22, 0x61, 0x22, 0x3a, 0x22, 0xc3, 0xa9, 0x22, 0x2c, 0x22, 0x62, 0x22, 0x3a, 0x22, 0x22,
    0x7d]

theorem unorderedFile_downloads :
    load usualInterpreter (.answered none orderedFile) (.answered none []) = .ok {
      manifest := [(ofString "a", .str [0xe9]), (ofString "b", .str [])]
      canonicalBytes := orderedFile
      bundle := [] } := by
  have isRead : readManifest usualInterpreter unorderedFile =
      .ok (.obj [(ofString "b", .str []), (ofString "a", .str [0xe9])]) := rfl
  have written : canonicalizeManifest usualInterpreter unorderedFile = .ok orderedFile := rfl
  exact (load_canonicalized_iff usualInterpreter_showsFloats isRead written none none []).mpr
    ⟨⟨by simp, by decide⟩, ⟨by simp, by decide⟩⟩

/-! ### The check before a release and the agent -/

section

variable {interpreter : Interpreter} {verify : Verifier} {repository : String}
variable {target current : StableVersion} {file bundle : List UInt8}
variable {declared bundleDeclared : Option String}

/-- What either side asks of a file: its stripped bytes are the canonical form of the object
that was read, they are signed, and the object is parsed as a manifest for the target. -/
structure Publishable (interpreter : Interpreter) (verify : Verifier) (repository : String)
    (target current : StableVersion) (file bundle : List UInt8)
    (verified : ReleaseManifest × List (Text × Document)) : Prop where
  canonical : canonicalManifestBytes interpreter (.obj verified.2) = .ok (strip file)
  signed : verify (strip file) bundle target = .ok ()
  parsed : parseVerifiedManifest (toJson (.obj verified.2)) repository target current =
    .ok verified.1

/-- Only an object is parsed. -/
theorem isObject_of_parsed {document : Document} {manifest : ReleaseManifest}
    (parsed : parseVerifiedManifest (toJson document) repository target current = .ok manifest) :
    ∃ fields, document = .obj fields := by
  cases document with
  | obj fields => exact ⟨fields, rfl⟩
  | _ => cases parsed

theorem validateManifest_ok :
    validateManifest interpreter verify repository target current file bundle = .ok () ↔
      ∃ verified, readManifest interpreter file = .ok (.obj verified.2) ∧
        Publishable interpreter verify repository target current file bundle verified := by
  unfold validateManifest
  constructor
  · intro validated
    obtain ⟨raw, isRead, validated⟩ := bind_eq_ok.mp validated
    obtain ⟨canonical, isCanonical, validated⟩ := bind_eq_ok.mp validated
    split_ifs at validated with different
    have same : strip file = canonical := not_not.mp different
    obtain ⟨_, signed, validated⟩ := bind_eq_ok.mp validated
    obtain ⟨manifest, parsed, -⟩ := bind_eq_ok.mp validated
    obtain ⟨fields, rfl⟩ := isObject_of_parsed parsed
    rw [← same] at isCanonical signed
    exact ⟨(manifest, fields), isRead, isCanonical, signed, parsed⟩
  · rintro ⟨verified, isRead, publishable⟩
    refine bind_eq_ok.mpr ⟨_, isRead, bind_eq_ok.mpr ⟨_, publishable.canonical, ?_⟩⟩
    rw [if_neg (not_not.mpr rfl)]
    exact bind_eq_ok.mpr ⟨(), publishable.signed,
      bind_eq_ok.mpr ⟨verified.1, publishable.parsed, rfl⟩⟩

theorem verifiedManifest_eq_ok {verified : ReleaseManifest × List (Text × Document)}
    (delivers : Delivers maxManifestBytes declared file)
    (deliversBundle : Delivers maxBundleBytes bundleDeclared bundle) :
    verifiedManifest interpreter verify repository target current (.answered declared file)
        (.answered bundleDeclared bundle) = .ok verified ↔
      JsonReader.loads interpreter file = .ok (.obj verified.2) ∧
        Publishable interpreter verify repository target current file bundle verified := by
  unfold verifiedManifest
  constructor
  · intro isVerified
    obtain ⟨material, downloaded, behindLoad⟩ := bind_eq_ok.mp isVerified
    obtain ⟨_, signed, behindSignature⟩ := bind_eq_ok.mp behindLoad
    obtain ⟨manifest, parsed, built⟩ := bind_eq_ok.mp behindSignature
    obtain ⟨served, fetched, loaded, isCanonical, same⟩ := load_eq_ok downloaded
    obtain ⟨-, rfl⟩ := fetch_eq_ok.mp fetched
    rw [same] at isCanonical signed
    have again := (load_eq_ok_iff loaded isCanonical declared bundleDeclared bundle).mpr
      ⟨delivers, deliversBundle⟩
    have isBundle : material.bundle = bundle :=
      congrArg ReleaseMaterial.bundle (Except.ok.inj (downloaded.symm.trans again))
    rw [isBundle] at signed
    cases built
    exact ⟨loaded, isCanonical, signed, parsed⟩
  · rintro ⟨loaded, publishable⟩
    have downloaded := (load_eq_ok_iff loaded publishable.canonical declared bundleDeclared
      bundle).mpr ⟨delivers, deliversBundle⟩
    exact bind_eq_ok.mpr ⟨_, downloaded, bind_eq_ok.mpr ⟨(), publishable.signed,
      bind_eq_ok.mpr ⟨verified.1, publishable.parsed, rfl⟩⟩⟩

end

/-- Within the limits of a download, `validate-manifest` passes exactly the files that the
agent accepts for the same target and installed version when they are served. -/
theorem validateManifest_iff_verifiedManifest {interpreter : Interpreter} {file bundle : List UInt8}
    {declared bundleDeclared : Option String} (shows : JsonReader.ShowsFloats interpreter)
    (delivers : Delivers maxManifestBytes declared file)
    (deliversBundle : Delivers maxBundleBytes bundleDeclared bundle)
    (verify : Verifier) (repository : String) (target current : StableVersion) :
    validateManifest interpreter verify repository target current file bundle = .ok () ↔
      ∃ verified, verifiedManifest interpreter verify repository target current
        (.answered declared file) (.answered bundleDeclared bundle) = .ok verified := by
  rw [validateManifest_ok]
  apply exists_congr
  intro verified
  rw [verifiedManifest_eq_ok delivers deliversBundle, and_congr_left_iff]
  intro publishable
  exact readManifest_obj_iff shows publishable.canonical

/-- An object that is no manifest is refused by the agent, since the check before the
release refuses it, whoever signed it. -/
theorem orderedFile_refused :
    ¬ ∃ verified, verifiedManifest usualInterpreter (fun _ _ _ => .ok ()) "apodimi/bubllio-crm"
      ⟨0, 2, 11⟩ ⟨0, 2, 10⟩ (.answered none orderedFile) (.answered none []) = .ok verified := by
  have refused : validateManifest usualInterpreter (fun _ _ _ => .ok ()) "apodimi/bubllio-crm"
      ⟨0, 2, 11⟩ ⟨0, 2, 10⟩ orderedFile [] ≠ .ok () := by
    decide +kernel
  have delivers : Delivers maxManifestBytes none orderedFile := ⟨by simp, by decide⟩
  have deliversBundle : Delivers maxBundleBytes none [] := ⟨by simp, by decide⟩
  exact mt (validateManifest_iff_verifiedManifest usualInterpreter_showsFloats delivers
    deliversBundle _ _ _ _).mpr refused

end BubllioCrm.UpdateAgent
