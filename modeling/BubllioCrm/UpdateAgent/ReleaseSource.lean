import BubllioCrm.Foundations.JsonReader
import BubllioCrm.UpdateAgent.ManifestSchema

/-!
Owns the download of a release: the limits of what is fetched, the manifest that
is read from the served bytes and has to be the canonical form of itself, and
when every served manifest is canonical or refused.

The opener, its redirects and the template of the URL are not owned here. What
they come to is the response.
-/

namespace BubllioCrm.UpdateAgent

open BubllioCrm.Foundations

/-- `_MAX_MANIFEST_BYTES`. -/
def maxManifestBytes : Nat := 128 * 1024

/-- `_MAX_BUNDLE_BYTES`. -/
def maxBundleBytes : Nat := 1024 * 1024

/-- What a request comes to. -/
inductive Response where
  /-- An `OSError` or a `ValueError`. -/
  | unreachable
  /-- An exception of `http.client` that is neither. -/
  | interrupted
  /-- The `Content-Length` header, where there is one, and what can be read. -/
  | answered (declared : Option String) (served : List UInt8)

structure ReleaseMaterial where
  manifest : List (Text × Document)
  canonicalBytes : List UInt8
  bundle : List UInt8

/-- The check of the `Content-Length` header, which may be empty. -/
def checkDeclared (limit : Nat) (declared : Option String) : Except Raised Unit :=
  match declared with
  | none => .ok ()
  | some header =>
      if header = "" then .ok ()
      else match parseInt header with
        | none => invalidManifest "Release artifact could not be downloaded"
        | some length =>
            if (limit : Int) < length then invalidManifest "Release artifact is too large"
            else .ok ()

/-- `_fetch`. -/
def fetch (limit : Nat) (response : Response) : Except Raised (List UInt8) :=
  match response with
  | .unreachable => invalidManifest "Release artifact could not be downloaded"
  | .interrupted => .error .otherException
  | .answered declared served => do
      checkDeclared limit declared
      let payload := served.take (limit + 1)
      if limit < payload.length then invalidManifest "Release artifact is too large"
      else return payload

/-- The bytes that `bytes.strip` removes. -/
def isStripped (byte : UInt8) : Bool :=
  [0x20, 0x09, 0x0a, 0x0d, 0x0b, 0x0c].contains byte

/-- `bytes.strip`. -/
def strip (bytes : List UInt8) : List UInt8 :=
  (bytes.dropWhile isStripped).rdropWhile isStripped

/-- `canonical_manifest_bytes`, which handles neither the `RecursionError` nor the
`UnicodeEncodeError`. -/
def canonicalManifestBytes (interpreter : Interpreter) (value : Document) :
    Except Raised (List UInt8) :=
  match (value.dumps interpreter).bind encode with
  | some bytes => .ok bytes
  | none => .error .otherException

/-- The handler around `json.loads`. -/
def loadManifest (interpreter : Interpreter) (manifestBytes : List UInt8) :
    Except Raised Document :=
  match JsonReader.loads interpreter manifestBytes with
  | .ok manifest => .ok manifest
  | .error .unicodeDecode => invalidManifest "Release manifest is not valid JSON"
  | .error .jsonDecode => invalidManifest "Release manifest is not valid JSON"
  | .error .tooManyDigits => .error .otherException
  | .error .tooDeep => .error .otherException

/-- `isinstance(manifest, dict)`. -/
def requireObject (manifest : Document) : Except Raised (List (Text × Document)) :=
  match manifest with
  | .obj fields => .ok fields
  | _ => invalidManifest "Release manifest must be an object"

/-- `load`, of what the two requests come to. -/
def load (interpreter : Interpreter) (manifestResponse bundleResponse : Response) :
    Except Raised ReleaseMaterial := do
  let manifestBytes ← fetch maxManifestBytes manifestResponse
  let manifest ← loadManifest interpreter manifestBytes
  let fields ← requireObject manifest
  let canonical ← canonicalManifestBytes interpreter (.obj fields)
  requireManifest (strip manifestBytes = canonical) "Release manifest is not canonical JSON"
  let bundle ← fetch maxBundleBytes bundleResponse
  return { manifest := fields, canonicalBytes := canonical, bundle }

/-! ### Manifests that are canonical or refused -/

/-- The response is within the size limit. -/
structure Delivers (limit : Nat) (declared : Option String) (served : List UInt8) : Prop where
  header : ∀ header ∈ declared, header ≠ "" →
    ∃ length, parseInt header = some length ∧ length ≤ limit
  payload : served.length ≤ limit

/-- A failure is a `ManifestVerificationError`, and what is returned is the served
document with its canonical form, which denotes that document. -/
structure CanonicalOrRefused (interpreter : Interpreter) (served : List UInt8)
    (result : Except Raised ReleaseMaterial) : Prop where
  refuses : Refuses result
  served : ∀ material, result = .ok material → material.canonicalBytes = strip served
  canonical : ∀ material, result = .ok material →
    canonicalManifestBytes interpreter (.obj material.manifest) = .ok material.canonicalBytes
  denotes : ∀ material, result = .ok material →
    JsonReader.loads interpreter material.canonicalBytes = .ok (.obj material.manifest)

/-- The served text takes the reader to a limit, or it is an object that is nested deeper
than what can be written, or that has a surrogate which stands alone. -/
def Escapes (interpreter : Interpreter) (served : List UInt8) : Prop :=
  ∃ text, decodeDetected served = some text ∧
    (JsonReader.ExceedsLimits interpreter text ∨
      ∃ fields, JsonReader.read interpreter text = .ok (.obj fields) ∧
        (interpreter.writeDepth < (Document.obj fields).depth ∨
          (Document.obj fields).hasSurrogate = true))

section

variable {interpreter : Interpreter} {limit : Nat} {declared : Option String}
variable {served manifestBytes payload canonical : List UInt8} {fields : List (Text × Document)}
variable {document : Document}

/-! ### Errors -/

theorem refuses_bind_iff {First Value : Type} {first : Except Raised First}
    {next : First → Except Raised Value} :
    Refuses (first >>= next) ↔
      Refuses first ∧ ∀ result, first = .ok result → Refuses (next result) := by
  constructor
  · intro refuses
    constructor
    · intro error failed
      exact refuses error (bind_eq_error.mpr (.inl failed))
    · intro result returned error failed
      exact refuses error (bind_eq_error.mpr (.inr ⟨result, returned, failed⟩))
  · intro refuses
    exact refuses.1.bind refuses.2

theorem not_refuses_other {Value : Type} :
    ¬ Refuses (.error .otherException : Except Raised Value) := by
  intro refuses
  obtain ⟨message, same⟩ := refuses _ rfl
  cases same

/-! ### What is fetched -/

theorem checkDeclared_refuses : Refuses (checkDeclared limit declared) := by
  unfold checkDeclared
  cases declared with
  | none => exact refuses_ok ()
  | some header =>
      dsimp only
      split_ifs with isEmpty
      · exact refuses_ok ()
      · cases parseInt header with
        | none => exact refuses_invalid _
        | some length =>
            dsimp only
            split_ifs
            · exact refuses_invalid _
            · exact refuses_ok ()

theorem checkDeclared_eq_ok : checkDeclared limit declared = .ok () ↔
    ∀ header ∈ declared, header ≠ "" → ∃ length, parseInt header = some length ∧ length ≤ limit := by
  unfold checkDeclared
  cases declared with
  | none => simp
  | some header =>
      dsimp only
      split_ifs with isEmpty
      · simp [isEmpty]
      · cases isNumber : parseInt header with
        | none => simp [isEmpty, isNumber, invalidManifest]
        | some length =>
            dsimp only
            split_ifs with large
            · simp [isEmpty, isNumber, invalidManifest, large]
            · simp [isEmpty, isNumber, not_lt.mp large]

theorem fetch_refuses : Refuses (fetch limit (.answered declared served)) := by
  apply Refuses.bind checkDeclared_refuses
  intro _ _
  dsimp only
  split_ifs
  · exact refuses_invalid _
  · exact refuses_ok _

/-- Within the limit, all that is served is fetched. -/
theorem fetch_eq_ok : fetch limit (.answered declared served) = .ok payload ↔
    Delivers limit declared served ∧ payload = served := by
  unfold fetch
  dsimp only
  rw [bind_eq_ok]
  constructor
  · rintro ⟨_, checked, fetched⟩
    rw [List.length_take] at fetched
    by_cases short : served.length ≤ limit
    · rw [List.take_of_length_le (by omega), if_neg (by omega)] at fetched
      exact ⟨⟨checkDeclared_eq_ok.mp checked, short⟩, (Except.ok.inj fetched).symm⟩
    · rw [if_pos (by omega)] at fetched
      cases fetched
  · rintro ⟨delivers, rfl⟩
    have short := delivers.payload
    refine ⟨(), checkDeclared_eq_ok.mpr delivers.header, ?_⟩
    rw [List.take_of_length_le (by omega), if_neg (by omega)]
    rfl

/-! ### The manifest that is read -/

theorem loadManifest_eq_ok : loadManifest interpreter manifestBytes = .ok document ↔
    JsonReader.loads interpreter manifestBytes = .ok document := by
  unfold loadManifest
  cases JsonReader.loads interpreter manifestBytes with
  | ok manifest => simp
  | error error => cases error <;> simp [invalidManifest]

theorem loadManifest_refuses_iff : Refuses (loadManifest interpreter manifestBytes) ↔
    ¬ JsonReader.Overruns (JsonReader.loads interpreter manifestBytes) := by
  unfold loadManifest
  cases JsonReader.loads interpreter manifestBytes with
  | ok manifest => exact iff_of_true (refuses_ok _) (JsonReader.not_overruns_ok _)
  | error error =>
      cases error with
      | unicodeDecode => exact iff_of_true (refuses_invalid _) (by simp [JsonReader.Overruns])
      | jsonDecode => exact iff_of_true (refuses_invalid _) JsonReader.not_overruns_jsonDecode
      | tooManyDigits => exact iff_of_false not_refuses_other (not_not.mpr (.inl rfl))
      | tooDeep => exact iff_of_false not_refuses_other (not_not.mpr (.inr rfl))

theorem requireObject_refuses (manifest : Document) : Refuses (requireObject manifest) := by
  cases manifest with
  | obj fields => exact refuses_ok fields
  | _ => exact refuses_invalid _

theorem requireObject_eq_ok : requireObject document = .ok fields ↔ document = .obj fields := by
  cases document <;> simp [requireObject, invalidManifest]

theorem loads_of_decoded {text : Text} (decoded : decodeDetected served = some text) :
    JsonReader.loads interpreter served = JsonReader.read interpreter text := by
  rw [JsonReader.loads, decoded]

theorem escapes_iff : Escapes interpreter served ↔
    JsonReader.Overruns (JsonReader.loads interpreter served) ∨
      ∃ fields, JsonReader.loads interpreter served = .ok (.obj fields) ∧
        (interpreter.writeDepth < (Document.obj fields).depth ∨
          (Document.obj fields).hasSurrogate = true) := by
  unfold Escapes
  cases decoded : decodeDetected served with
  | none => simp [JsonReader.loads, decoded, JsonReader.Overruns]
  | some text =>
      rw [loads_of_decoded decoded, JsonReader.overruns_read]
      simp

/-! ### The canonical form -/

theorem canonicalManifestBytes_eq_ok :
    canonicalManifestBytes interpreter document = .ok canonical ↔
      ¬ (interpreter.writeDepth < document.depth ∨ document.hasSurrogate = true) ∧
        document.write.flatMap encodePoint = canonical := by
  unfold canonicalManifestBytes Document.dumps
  split_ifs with deep
  · simp [deep]
  · rw [Option.bind_some, encode, Document.write_surrogate]
    split_ifs with surrogate
    · simp [surrogate]
    · simp [deep, surrogate]

theorem canonicalManifestBytes_refuses_iff :
    Refuses (canonicalManifestBytes interpreter document) ↔
      ¬ (interpreter.writeDepth < document.depth ∨ document.hasSurrogate = true) := by
  cases result : canonicalManifestBytes interpreter document with
  | ok bytes => exact iff_of_true (refuses_ok bytes) (canonicalManifestBytes_eq_ok.mp result).1
  | error error =>
      have unwritable : interpreter.writeDepth < document.depth ∨ document.hasSurrogate = true := by
        by_contra writable
        rw [canonicalManifestBytes_eq_ok.mpr ⟨writable, rfl⟩] at result
        cases result
      have other : error = .otherException := by
        unfold canonicalManifestBytes at result
        split at result
        · cases result
        · exact (Except.error.inj result).symm
      rw [other]
      exact iff_of_false not_refuses_other (not_not.mpr unwritable)

/-- Only whitespace of ASCII is stripped. -/
theorem isStripped_blank {byte : UInt8} (stripped : isStripped byte = true) :
    0 < byte.toNat ∧ byte.toNat ≤ 0x20 := by
  have among : byte ∈ [0x20, 0x09, 0x0a, 0x0d, 0x0b, 0x0c] := List.contains_iff_mem.mp stripped
  have blank : (([0x20, 0x09, 0x0a, 0x0d, 0x0b, 0x0c] : List UInt8).all fun byte =>
      decide (0 < byte.toNat ∧ byte.toNat ≤ 0x20)) = true := rfl
  exact of_decide_eq_true (List.all_eq_true.mp blank byte among)

theorem strip_split (bytes : List UInt8) : ∃ front back, bytes = front ++ strip bytes ++ back ∧
    (∀ byte ∈ front, 0 < byte.toNat ∧ byte.toNat ≤ 0x20) ∧
      ∀ byte ∈ back, 0 < byte.toNat ∧ byte.toNat ≤ 0x20 := by
  refine ⟨bytes.takeWhile isStripped, (bytes.dropWhile isStripped).rtakeWhile isStripped, ?_,
    fun byte member => isStripped_blank (List.mem_takeWhile_imp member),
    fun byte member => isStripped_blank (List.mem_rtakeWhile_imp member)⟩
  rw [List.append_assoc, strip, List.rdropWhile_append_rtakeWhile, List.takeWhile_append_dropWhile]

/-- Canonical bytes denote what the served bytes around them do. -/
theorem loads_canonical (loaded : JsonReader.loads interpreter served = .ok (.obj fields))
    (isCanonical : canonicalManifestBytes interpreter (.obj fields) = .ok (strip served)) :
    JsonReader.loads interpreter (strip served) = .ok (.obj fields) := by
  have ⟨_, written⟩ := canonicalManifestBytes_eq_ok.mp isCanonical
  obtain ⟨front, back, split, frontBlank, backBlank⟩ := strip_split served
  rw [split, ← written] at loaded
  rw [← written]
  exact JsonReader.loads_trimmed (Document.startsPlain_write_obj fields) frontBlank backBlank loaded

/-! ### The download -/

theorem load_eq_ok {manifestResponse bundleResponse : Response} {material : ReleaseMaterial}
    (loaded : load interpreter manifestResponse bundleResponse = .ok material) :
    ∃ served, fetch maxManifestBytes manifestResponse = .ok served ∧
      JsonReader.loads interpreter served = .ok (.obj material.manifest) ∧
      canonicalManifestBytes interpreter (.obj material.manifest) = .ok material.canonicalBytes ∧
      material.canonicalBytes = strip served := by
  unfold load at loaded
  have ⟨served, fetched, loaded⟩ := bind_eq_ok.mp loaded
  have ⟨manifest, isManifest, loaded⟩ := bind_eq_ok.mp loaded
  have ⟨fields, isObject, loaded⟩ := bind_eq_ok.mp loaded
  have ⟨canonical, isCanonical, loaded⟩ := bind_eq_ok.mp loaded
  have ⟨_, checked, loaded⟩ := bind_eq_ok.mp loaded
  have ⟨bundle, _, built⟩ := bind_eq_ok.mp loaded
  have same : strip served = canonical := of_decide_eq_true (requireManifest_ok.mp checked)
  rw [requireObject_eq_ok.mp isObject] at isManifest
  cases built
  exact ⟨served, fetched, loadManifest_eq_ok.mp isManifest, isCanonical, same.symm⟩

/-- Every failure is a refusal exactly when a manifest within the limit does not escape. -/
theorem load_refuses_iff {bundleDeclared : Option String} {bundle : List UInt8} :
    Refuses (load interpreter (.answered declared served) (.answered bundleDeclared bundle)) ↔
      (Delivers maxManifestBytes declared served → ¬ Escapes interpreter served) := by
  unfold load
  constructor
  · intro refuses delivers escapes
    have ⟨_, behindFetch⟩ := refuses_bind_iff.mp refuses
    have ⟨isRead, behindRead⟩ := refuses_bind_iff.mp
      (behindFetch served (fetch_eq_ok.mpr ⟨delivers, rfl⟩))
    rcases escapes_iff.mp escapes with overruns | ⟨fields, loaded, unwritable⟩
    · exact loadManifest_refuses_iff.mp isRead overruns
    · have ⟨_, behindObject⟩ := refuses_bind_iff.mp
        (behindRead _ (loadManifest_eq_ok.mpr loaded))
      have ⟨isWritten, _⟩ := refuses_bind_iff.mp
        (behindObject fields (requireObject_eq_ok.mpr rfl))
      exact canonicalManifestBytes_refuses_iff.mp isWritten unwritable
  · intro stays
    apply fetch_refuses.bind
    intro payload fetched
    obtain ⟨delivers, rfl⟩ := fetch_eq_ok.mp fetched
    have ⟨reads, writes⟩ := not_or.mp (mt escapes_iff.mpr (stays delivers))
    apply (loadManifest_refuses_iff.mpr reads).bind
    intro manifest loaded
    apply (requireObject_refuses manifest).bind
    intro fields isObject
    rw [requireObject_eq_ok.mp isObject, loadManifest_eq_ok] at loaded
    have writable := canonicalManifestBytes_refuses_iff.mpr
      fun unwritable => writes ⟨fields, loaded, unwritable⟩
    apply writable.bind
    intro canonical _
    apply (requireManifest_refuses _ _).bind
    intro _ _
    apply fetch_refuses.bind
    intro bundle _
    exact refuses_ok _

end

/-- For every manifest and every bundle that is served, the download returns the served
document in its canonical form or is refused, unless the manifest takes the reader to a
limit of the interpreter or is an object that cannot be written. -/
theorem load_canonicalOrRefused_iff (interpreter : Interpreter) (declared : Option String)
    (served : List UInt8) (bundleDeclared : Option String) (bundle : List UInt8) :
    CanonicalOrRefused interpreter served
        (load interpreter (.answered declared served) (.answered bundleDeclared bundle)) ↔
      (Delivers maxManifestBytes declared served → ¬ Escapes interpreter served) := by
  rw [← load_refuses_iff]
  constructor
  · intro canonicalOrRefused
    exact canonicalOrRefused.refuses
  · intro refuses
    have accepted (material : ReleaseMaterial) (loaded : load interpreter
        (.answered declared served) (.answered bundleDeclared bundle) = .ok material) :
        JsonReader.loads interpreter served = .ok (.obj material.manifest) ∧
          canonicalManifestBytes interpreter (.obj material.manifest) =
            .ok material.canonicalBytes ∧ material.canonicalBytes = strip served := by
      have ⟨payload, fetched, isLoaded, isCanonical, same⟩ := load_eq_ok loaded
      have ⟨_, isServed⟩ := fetch_eq_ok.mp fetched
      rw [isServed] at isLoaded same
      exact ⟨isLoaded, isCanonical, same⟩
    refine ⟨refuses, fun material loaded => (accepted material loaded).2.2,
      fun material loaded => (accepted material loaded).2.1, fun material loaded => ?_⟩
    have ⟨isLoaded, isCanonical, same⟩ := accepted material loaded
    rw [same] at isCanonical ⊢
    exact loads_canonical isLoaded isCanonical

/-! ### Samples -/

/-- An interpreter with the usual limits, which shows every float as it was written. -/
def usualInterpreter : Interpreter where
  readDepth := 1000
  writeDepth := 1000
  floatRepr token := String.ofList (token.map fun point => Char.ofNat point.val)

/-- An object whose only field is the escape of a high surrogate. -/
def loneSurrogate : List UInt8 :=
  [0x7b, 0x22, 0x61, 0x22, 0x3a, 0x22, 0x5c, 0x75, 0x64, 0x38, 0x30, 0x30, 0x22, 0x7d]

/-- A canonical manifest is returned without the line end behind it. -/
example : (load usualInterpreter
    (.answered none [0x7b, 0x22, 0x61, 0x22, 0x3a, 0x22, 0xc3, 0xa9, 0x22, 0x7d, 0x0a])
    (.answered none [])).toOption.map ReleaseMaterial.canonicalBytes =
      some [0x7b, 0x22, 0x61, 0x22, 0x3a, 0x22, 0xc3, 0xa9, 0x22, 0x7d] := by
  decide +kernel

/-- The manifest is read, and encoding it raises a `UnicodeEncodeError`. -/
theorem loneSurrogate_escapes :
    ¬ CanonicalOrRefused usualInterpreter loneSurrogate
      (load usualInterpreter (.answered none loneSurrogate) (.answered none [])) := by
  intro canonicalOrRefused
  have raised : load usualInterpreter (.answered none loneSurrogate) (.answered none []) =
      .error .otherException := rfl
  rw [raised] at canonicalOrRefused
  exact not_refuses_other canonicalOrRefused.refuses

end BubllioCrm.UpdateAgent
