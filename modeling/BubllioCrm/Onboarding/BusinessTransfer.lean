import BubllioCrm.Foundations.CanonicalJson
import BubllioCrm.Onboarding.BusinessSchema

/-!
Owns the document of a business transfer: the rows of a snapshot as JSON, the
stream that writes them piece by piece with a digest over each list, and the
users that the rows name.

A value of a column is known by its type. A `Decimal`, a date and a time stand
for their text.
-/

namespace BubllioCrm.Onboarding.BusinessTransfer

open BubllioCrm.Foundations
open BubllioCrm.Foundations.Json

/-! ### Values -/

inductive Value where
  | none
  | bool (value : Bool)
  | int (value : Int)
  | float (literal : String)
  | str (text : String)
  /-- A `Decimal`, by its `str`. -/
  | decimal (text : String)
  | uuid (value : Nat)
  /-- A `datetime`, by its `isoformat(timespec="microseconds")`. -/
  | datetime (isoformat : String)
  | date (isoformat : String)
  | time (isoformat : String)
  | dict (items : List (String × Value))
  | list (items : List Value)
  | tuple (items : List Value)

/-- `str` of a UUID: 32 hexadecimal digits in groups of 8, 4, 4, 4 and 12. -/
def uuidText (value : Nat) : String :=
  let digits := Nat.toDigits 16 value
  let hex := List.replicate (32 - digits.length) '0' ++ digits
  "-".intercalate ([hex.take 8, (hex.drop 8).take 4, (hex.drop 12).take 4, (hex.drop 16).take 4,
    hex.drop 20].map String.ofList)

mutual

/-- `_portable`. -/
def portable : Value → Json
  | .none => .null
  | .bool value => .bool value
  | .int value => .int value
  | .float literal => .float literal
  | .str text => .str text
  | .decimal text => .str text
  | .uuid value => .str (uuidText value)
  | .datetime isoformat => .str isoformat
  | .date isoformat => .str isoformat
  | .time isoformat => .str isoformat
  | .dict items => .obj (portableFields items)
  | .list items => .arr (portableItems items)
  | .tuple items => .arr (portableItems items)

def portableItems : List Value → List Json
  | [] => []
  | item :: rest => portable item :: portableItems rest

def portableFields : List (String × Value) → List (String × Json)
  | [] => []
  | (key, item) :: rest => (key, portable item) :: portableFields rest

end

/-! ### Snapshots -/

/-- A row of a model, with what its relations lead to. -/
structure Instance where
  pk : Nat
  foreign : ForeignKey → Option Nat := fun _ => Option.none
  users : String → Option Nat := fun _ => Option.none
  plain : String → Value

structure User where
  pk : Nat
  username : String
  email : String
deriving DecidableEq

/-- The tables that a transaction sees. Primary keys are distinct, and a relation
to a user leads to one. -/
structure Snapshot where
  rows : Dataset → List Instance
  users : List User
  /-- `OrganizationProvisioning.objects.exists()`. -/
  provisioning : Bool
  rowKeys : ∀ dataset, ((rows dataset).map Instance.pk).Nodup
  userKeys : (users.map User.pk).Nodup
  userRelations : ∀ dataset, ∀ row ∈ rows dataset, ∀ field ∈ dataset.userFields,
    ∀ id ∈ row.users field, ∃ user ∈ users, user.pk = id

/-- A primary key of a model, as a value. -/
def Dataset.idValue (dataset : Dataset) (pk : Nat) : Value :=
  match dataset.idType with
  | .uuid => .uuid pk
  | .integer => .int pk

/-- `getattr(instance, field_name)`. -/
def Instance.getattr (dataset : Dataset) (row : Instance) (field : String) : Value :=
  if field = "id" then dataset.idValue row.pk
  else if field ∈ dataset.userFields then ((row.users field).map fun id => Value.int id).getD .none
  else
    match dataset.foreignKeys.find? (·.attname = field) with
    | some key => ((row.foreign key).map key.relatedModel.idValue).getD .none
    | Option.none => row.plain field

/-- The relations of a row. An organization is its own. -/
def Instance.ownedRow (dataset : Dataset) (row : Instance) : OwnedRow ForeignKey where
  id := row.pk
  owner := (row.foreign .organization).getD row.pk
  references := dataset.foreignKeys.map fun key => (key, row.foreign key)

def Snapshot.tables (snapshot : Snapshot) : Tables :=
  fun dataset => (snapshot.rows dataset).map (Instance.ownedRow dataset)

/-! ### Rows -/

/-- `model._base_manager.order_by(model._meta.pk.name)`. -/
def Snapshot.ordered (snapshot : Snapshot) (dataset : Dataset) : List Instance :=
  (snapshot.rows dataset).insertionSort fun first second => first.pk ≤ second.pk

def exportRow (dataset : Dataset) (row : Instance) : Json :=
  .obj (dataset.businessFields.map fun field => (field, portable (row.getattr dataset field)))

/-- `user_ids.add(value)` for a relation to a user. -/
def collectField (dataset : Dataset) (row : Instance) (userIds : List Nat) (field : String) :
    List Nat :=
  if field ∈ dataset.userFields then
    match row.users field with
    | some id => userIds.insert id
    | Option.none => userIds
  else userIds

def collect (dataset : Dataset) (row : Instance) (userIds : List Nat) : List Nat :=
  dataset.businessFields.foldl (collectField dataset row) userIds

/-- `user_model._base_manager.filter(pk__in=user_ids).order_by("pk")`. -/
def Snapshot.orderedUsers (snapshot : Snapshot) (userIds : List Nat) : List User :=
  (snapshot.users.filter fun user => user.pk ∈ userIds).insertionSort fun first second =>
    first.pk ≤ second.pk

def userRow (user : User) : Json :=
  .obj [("id", .int user.pk), ("username", .str user.username), ("email", .str user.email)]

/-! ### The stream -/

def format : String := "bubllio-crm-business-transfer"

/-- `_write`. -/
def write (text : String) (output : ByteArray) : ByteArray :=
  output ++ text.toUTF8

/-- The local state of `_write_rows`, with the users that its generator has seen. -/
structure Progress where
  output : ByteArray
  digest : ByteArray
  count : Nat
  userIds : List Nat

/-- What `_write_rows` returns. -/
structure Summary where
  count : Nat
  sha256 : String
deriving DecidableEq

def Summary.toJson (summary : Summary) : Json :=
  .obj [("count", .int summary.count), ("sha256", .str summary.sha256)]

def comma (progress : Progress) : Progress :=
  if progress.count = 0 then progress
  else
    { progress with
      output := write "," progress.output
      digest := progress.digest ++ ",".toUTF8 }

/-- A turn of the loop over a generator that yields `row item` and collects users
as it goes. -/
def writeRow {Item : Type} (row : Item → Json) (seen : Item → List Nat → List Nat)
    (progress : Progress) (item : Item) : Progress :=
  let progress := { progress with userIds := seen item progress.userIds }
  let progress := comma progress
  let encoded := (canonical (row item)).toUTF8
  { progress with
    output := progress.output ++ encoded
    digest := progress.digest ++ encoded
    count := progress.count + 1 }

/-- The loop of `_write_rows`. -/
def writeRows {Item : Type} (row : Item → Json) (seen : Item → List Nat → List Nat)
    (output : ByteArray) (userIds : List Nat) (items : List Item) : Progress :=
  items.foldl (writeRow row seen)
    { output := output, digest := "[".toUTF8, count := 0, userIds := userIds }

/-- The result of `_write_rows`, with the hexadecimal digest. -/
def Progress.summary (sha256 : ByteArray → String) (progress : Progress) : Summary where
  count := progress.count
  sha256 := sha256 (progress.digest ++ "]".toUTF8)

structure Stream where
  output : ByteArray
  userIds : List Nat := []
  manifest : List (String × Summary) := []

/-- A turn of the loop over `enumerate(BUSINESS_DATASETS)`. -/
def writeDataset (sha256 : ByteArray → String) (snapshot : Snapshot) (stream : Stream)
    (item : Dataset × Nat) : Stream :=
  let (dataset, index) := item
  let output := if index = 0 then stream.output else write "," stream.output
  let output := write (canonical (.str dataset.name) ++ ":[") output
  let progress := writeRows (exportRow dataset) (collect dataset) output stream.userIds
    (snapshot.ordered dataset)
  { output := write "]" progress.output
    userIds := progress.userIds
    manifest := stream.manifest ++ [(dataset.name, progress.summary sha256)] }

def opening (generatedAt : String) : ByteArray :=
  write ",\"datasets\":\x7b"
    (write (",\"format_version\":1,\"generated_at\":" ++
        canonical (portable (.datetime generatedAt)))
      (write ("\x7b\"format\":" ++ canonical (.str format)) ByteArray.empty))

def manifestJson (manifest : List (String × Summary)) : Json :=
  .obj (manifest.map fun entry => (entry.1, entry.2.toJson))

/-- `write_business_transfer`, where `generatedAt` is the `isoformat` of now. -/
def writeBusinessTransfer (sha256 : ByteArray → String) (generatedAt : String)
    (snapshot : Snapshot) : Except String ByteArray :=
  if snapshot.provisioning then
    .error "Resolve pending workspace provisioning before preparing a transfer"
  else
    match validateSchemaAndTenants snapshot.tables with
    | .error message => .error message
    | .ok () =>
        let stream := businessDatasets.zipIdx.foldl (writeDataset sha256 snapshot)
          { output := opening generatedAt }
        let progress := writeRows userRow (fun _ userIds => userIds)
          (write "\x7d,\"users\":[" stream.output) stream.userIds
          (snapshot.orderedUsers stream.userIds)
        let summary := progress.summary sha256
        let manifest := stream.manifest ++ [("users", summary)]
        if summary.count ≠ stream.userIds.length then
          .error "A business record references a missing user"
        else
          .ok (write ("],\"manifest\":" ++ canonical (manifestJson manifest) ++ "\x7d")
            progress.output)

/-! ### A list of rows -/

theorem write_toUTF8 {text before : String} {output : ByteArray}
    (isText : output = before.toUTF8) : write text output = (before ++ text).toUTF8 := by
  rw [isText]
  exact String.toByteArray_append.symm

section Rows

variable {Item : Type} {row : Item → Json} {seen : Item → List Nat → List Nat} {text : String}
  {done : List Json} {progress : Progress}

/-- What has been written and digested when these rows are done. -/
structure Written (text : String) (done : List Json) (progress : Progress) : Prop where
  output : progress.output = (text ++ separated (done.map canonical)).toUTF8
  digest : progress.digest = ("[" ++ separated (done.map canonical)).toUTF8
  count : progress.count = done.length

theorem map_ne_nil {Row : Type} {print : Row → String} {rows : List Row} (count : rows.length ≠ 0) :
    rows.map print ≠ [] := by
  rw [Ne, List.map_eq_nil_iff]
  exact fun isEmpty => count (List.length_eq_zero_iff.mpr isEmpty)

theorem Written.comma (written : Written text done progress) :
    (comma progress).output = (text ++ leading (done.map canonical)).toUTF8 ∧
      (comma progress).digest = ("[" ++ leading (done.map canonical)).toUTF8 := by
  unfold BusinessTransfer.comma
  split_ifs with isFirst
  · rw [written.count, List.length_eq_zero_iff] at isFirst
    have output := written.output
    have digest := written.digest
    rw [isFirst, List.map_nil, separated_nil] at output digest
    rw [isFirst, List.map_nil, leading_nil]
    exact ⟨output, digest⟩
  · rw [written.count] at isFirst
    rw [leading_of_ne_nil (map_ne_nil isFirst), ← String.append_assoc, ← String.append_assoc]
    exact ⟨write_toUTF8 written.output, write_toUTF8 written.digest⟩

theorem Written.concat (written : Written text done progress) (item : Item) :
    Written text (done ++ [row item]) (writeRow row seen progress item) := by
  have seenToo : Written text done { progress with userIds := seen item progress.userIds } :=
    ⟨written.output, written.digest, written.count⟩
  obtain ⟨output, digest⟩ := seenToo.comma
  refine ⟨?_, ?_, ?_⟩
  · rw [List.map_append, List.map_singleton, separated_concat, ← String.append_assoc]
    exact write_toUTF8 output
  · rw [List.map_append, List.map_singleton, separated_concat, ← String.append_assoc]
    exact write_toUTF8 digest
  · have kept : (BusinessTransfer.comma
        { progress with userIds := seen item progress.userIds }).count = progress.count := by
      unfold BusinessTransfer.comma
      split_ifs <;> rfl
    rw [List.length_append, List.length_singleton, ← written.count, ← kept]
    rfl

theorem Written.append (items : List Item) (written : Written text done progress) :
    Written text (done ++ items.map row) (items.foldl (writeRow row seen) progress) := by
  induction items generalizing done progress with
  | nil => simpa using written
  | cons item rest inductionHypothesis =>
      have next : Written text (done ++ [row item]) (writeRow row seen progress item) :=
        written.concat item
      rw [List.map_cons, List.foldl_cons, List.append_cons]
      exact inductionHypothesis next

/-- The rows of a list are written with commas in between, and their number and
the digest are those of the list. -/
theorem written_writeRows {userIds : List Nat} (items : List Item) {output : ByteArray}
    (isText : output = text.toUTF8) :
    Written text (items.map row) (writeRows row seen output userIds items) := by
  have start : Written text [] ⟨output, "[".toUTF8, 0, userIds⟩ :=
    ⟨by rw [isText, List.map_nil, separated_nil, String.append_empty], rfl, rfl⟩
  exact start.append items

theorem userIds_writeRows {userIds : List Nat} {output : ByteArray} (items : List Item) :
    (writeRows row seen output userIds items).userIds =
      items.foldl (fun userIds item => seen item userIds) userIds := by
  unfold writeRows
  generalize isStart : (⟨output, "[".toUTF8, 0, userIds⟩ : Progress) = start
  have same : userIds = start.userIds := by rw [← isStart]
  rw [same]
  clear isStart same
  induction items generalizing start with
  | nil => rfl
  | cons item rest inductionHypothesis =>
      rw [List.foldl_cons, List.foldl_cons, inductionHypothesis]
      unfold writeRow comma
      dsimp only
      split_ifs <;> rfl

/-- What the manifest says of a list, recomputed from the list. -/
def summarize (sha256 : ByteArray → String) (rows : List Json) : Summary where
  count := rows.length
  sha256 := sha256 (canonical (.arr rows)).toUTF8

theorem Written.summary {sha256 : ByteArray → String} (written : Written text done progress) :
    progress.summary sha256 = summarize sha256 done := by
  have closed : progress.digest ++ "]".toUTF8 = (canonical (.arr done)).toUTF8 := by
    rw [canonical_arr]
    exact write_toUTF8 written.digest
  unfold Progress.summary summarize
  rw [written.count, closed]

/-- A list that is read back has its rows with their keys in order. -/
theorem summarize_sortKeys {sha256 : ByteArray → String} (rows : List Json) :
    summarize sha256 (rows.map sortKeys) = summarize sha256 rows := by
  unfold summarize
  rw [List.length_map, ← sortKeys_arr, canonical_sortKeys]

end Rows

/-! ### The datasets -/

section Datasets

variable {sha256 : ByteArray → String} {snapshot : Snapshot} {text : String}
  {done : List Dataset} {stream : Stream}

/-- The rows of a dataset in the order of their primary keys. -/
def Snapshot.exported (snapshot : Snapshot) (dataset : Dataset) : List Json :=
  (snapshot.ordered dataset).map (exportRow dataset)

/-- The field of a dataset, as a reader finds it. -/
def Snapshot.datasetField (snapshot : Snapshot) (dataset : Dataset) : String × Json :=
  (dataset.name, .arr ((snapshot.exported dataset).map sortKeys))

def fieldText (field : String × Json) : String :=
  quote field.1 ++ ":" ++ compact field.2

def Snapshot.manifestEntry (sha256 : ByteArray → String) (snapshot : Snapshot)
    (dataset : Dataset) : String × Summary :=
  (dataset.name, summarize sha256 (snapshot.exported dataset))

/-- The users that a dataset adds. -/
def Snapshot.collected (snapshot : Snapshot) (userIds : List Nat) (dataset : Dataset) : List Nat :=
  (snapshot.ordered dataset).foldl (fun userIds row => collect dataset row userIds) userIds

/-- What has been written when these datasets are done. -/
structure Streamed (sha256 : ByteArray → String) (snapshot : Snapshot) (text : String)
    (done : List Dataset) (stream : Stream) : Prop where
  output : stream.output =
    (text ++ separated (done.map fun dataset => fieldText (snapshot.datasetField dataset))).toUTF8
  userIds : stream.userIds = done.foldl snapshot.collected []
  manifest : stream.manifest = done.map (snapshot.manifestEntry sha256)

theorem fieldText_datasetField (dataset : Dataset) : fieldText (snapshot.datasetField dataset) =
    canonical (.str dataset.name) ++ ":[" ++
      separated ((snapshot.exported dataset).map canonical) ++ "]" := by
  have opened : (":[" : String) = ":" ++ "[" := by decide
  unfold fieldText Snapshot.datasetField
  rw [compact_arr, List.map_map, canonical_str, opened]
  show _ ++ ":" ++ ("[" ++ separated ((snapshot.exported dataset).map canonical) ++ "]") = _
  simp only [String.append_assoc]

theorem Streamed.comma (streamed : Streamed sha256 snapshot text done stream) :
    (if done.length = 0 then stream.output else write "," stream.output) =
      (text ++ leading
        (done.map fun dataset => fieldText (snapshot.datasetField dataset))).toUTF8 := by
  have output := streamed.output
  split_ifs with isFirst
  · rw [List.length_eq_zero_iff] at isFirst
    rw [isFirst, List.map_nil, separated_nil] at output
    rw [isFirst, List.map_nil, leading_nil]
    exact output
  · rw [leading_of_ne_nil (map_ne_nil isFirst), ← String.append_assoc]
    exact write_toUTF8 output

theorem Streamed.concat (streamed : Streamed sha256 snapshot text done stream)
    (dataset : Dataset) : Streamed sha256 snapshot text (done ++ [dataset])
      (writeDataset sha256 snapshot stream (dataset, done.length)) := by
  have opened : write (canonical (.str dataset.name) ++ ":[") _ = String.toUTF8 _ :=
    write_toUTF8 streamed.comma
  have written : Written _ (snapshot.exported dataset)
      (writeRows (exportRow dataset) (collect dataset) _ stream.userIds
        (snapshot.ordered dataset)) :=
    written_writeRows _ opened
  have output := written.output
  refine ⟨?_, ?_, ?_⟩
  · rw [List.map_append, List.map_singleton, separated_concat, fieldText_datasetField]
    simp only [← String.append_assoc] at output ⊢
    exact write_toUTF8 output
  · rw [List.foldl_append, List.foldl_cons, List.foldl_nil, ← streamed.userIds]
    exact userIds_writeRows _
  · rw [List.map_append, List.map_singleton, ← streamed.manifest]
    show stream.manifest ++ [(dataset.name, Progress.summary sha256 _)] = _
    rw [written.summary]
    rfl

theorem Streamed.append (datasets : List Dataset)
    (streamed : Streamed sha256 snapshot text done stream) :
    Streamed sha256 snapshot text (done ++ datasets)
      ((datasets.zipIdx done.length).foldl (writeDataset sha256 snapshot) stream) := by
  induction datasets generalizing done stream with
  | nil => simpa using streamed
  | cons dataset rest inductionHypothesis =>
      have next := inductionHypothesis (streamed.concat dataset)
      rw [List.append_cons, List.zipIdx_cons, List.foldl_cons]
      rwa [List.length_append, List.length_singleton] at next

end Datasets

/-! ### The users -/

section Users

variable {snapshot : Snapshot} {dataset : Dataset} {userIds : List Nat} {id : Nat}

/-- A row of the dataset names the user. -/
def Instance.Names (dataset : Dataset) (id : Nat) (row : Instance) : Prop :=
  ∃ field ∈ dataset.userFields, row.users field = some id

theorem nodup_collectField {row : Instance} {field : String} (distinct : userIds.Nodup) :
    (collectField dataset row userIds field).Nodup := by
  unfold collectField
  split_ifs
  · split
    · exact distinct.insert
    · exact distinct
  · exact distinct

theorem mem_collectField {row : Instance} {field : String} :
    id ∈ collectField dataset row userIds field ↔
      id ∈ userIds ∨ field ∈ dataset.userFields ∧ row.users field = some id := by
  unfold collectField
  split_ifs with isUser
  · cases named : row.users field with
    | none => simp
    | some other => simp [List.mem_insert_iff, isUser, eq_comm, or_comm]
  · simp [isUser]

theorem mem_foldl {Item : Type} {add : List Nat → Item → List Nat} (adds : Item → Prop)
    (isAdded : ∀ userIds item, id ∈ add userIds item ↔ id ∈ userIds ∨ adds item)
    (items : List Item) (userIds : List Nat) :
    id ∈ items.foldl add userIds ↔ id ∈ userIds ∨ ∃ item ∈ items, adds item := by
  induction items generalizing userIds with
  | nil => simp
  | cons item rest inductionHypothesis =>
      rw [List.foldl_cons, inductionHypothesis, isAdded, List.exists_mem_cons_iff, or_assoc]

theorem nodup_foldl {Item : Type} {add : List Nat → Item → List Nat}
    (keeps : ∀ userIds item, userIds.Nodup → (add userIds item).Nodup)
    (items : List Item) (userIds : List Nat) (distinct : userIds.Nodup) :
    (items.foldl add userIds).Nodup := by
  induction items generalizing userIds with
  | nil => exact distinct
  | cons item rest inductionHypothesis =>
      exact inductionHypothesis (add userIds item) (keeps userIds item distinct)

/-- The relations to users are columns of the format. -/
theorem mem_businessFields {field : String} (isUser : field ∈ dataset.userFields) :
    field ∈ dataset.businessFields :=
  (sameFields dataset).1 field (List.mem_append_right _ isUser)

theorem mem_collect {row : Instance} :
    id ∈ collect dataset row userIds ↔ id ∈ userIds ∨ row.Names dataset id := by
  unfold collect
  rw [mem_foldl (fun field => field ∈ dataset.userFields ∧ row.users field = some id)
    (by intro userIds field; exact mem_collectField)]
  refine or_congr_right ⟨?_, ?_⟩
  · rintro ⟨field, -, isUser, named⟩
    exact ⟨field, isUser, named⟩
  · rintro ⟨field, isUser, named⟩
    exact ⟨field, mem_businessFields isUser, isUser, named⟩

theorem mem_collected :
    id ∈ snapshot.collected userIds dataset ↔
      id ∈ userIds ∨ ∃ row ∈ snapshot.rows dataset, row.Names dataset id := by
  unfold Snapshot.collected
  rw [mem_foldl (Instance.Names dataset id) (by intro userIds row; exact mem_collect)]
  simp [Snapshot.ordered]

/-- The users that a row of the snapshot names. -/
def Snapshot.referenced (snapshot : Snapshot) : List Nat :=
  businessDatasets.foldl snapshot.collected []

theorem mem_referenced : id ∈ snapshot.referenced ↔
    ∃ dataset, ∃ row ∈ snapshot.rows dataset, row.Names dataset id := by
  unfold Snapshot.referenced
  rw [mem_foldl (fun dataset => ∃ row ∈ snapshot.rows dataset, row.Names dataset id)
    (by intro userIds dataset; exact mem_collected)]
  simp [mem_businessDatasets]

theorem nodup_referenced : snapshot.referenced.Nodup := by
  apply nodup_foldl _ _ _ List.nodup_nil
  intro userIds dataset distinct
  apply nodup_foldl _ _ _ distinct
  intro userIds row distinct
  exact nodup_foldl (fun _ _ => nodup_collectField) _ _ distinct

/-- The users of the document are those that a row names. -/
theorem perm_orderedUsers :
    ((snapshot.orderedUsers snapshot.referenced).map User.pk).Perm snapshot.referenced := by
  have sorted : (snapshot.orderedUsers snapshot.referenced).Perm
      (snapshot.users.filter fun user => user.pk ∈ snapshot.referenced) :=
    List.perm_insertionSort _ _
  apply (sorted.map User.pk).trans
  apply (List.perm_ext_iff_of_nodup ?_ nodup_referenced).mpr
  · intro id
    simp only [List.mem_map, List.mem_filter, decide_eq_true_eq]
    constructor
    · rintro ⟨user, ⟨-, isReferenced⟩, rfl⟩
      exact isReferenced
    · intro isReferenced
      obtain ⟨dataset, row, stored, field, isUser, named⟩ := mem_referenced.mp isReferenced
      obtain ⟨user, isStored, isId⟩ :=
        snapshot.userRelations dataset row stored field isUser id named
      exact ⟨user, ⟨isStored, isId ▸ isReferenced⟩, isId⟩
  · exact snapshot.userKeys.sublist (List.filter_sublist.map _)

end Users

/-! ### The document -/

section Document

variable {sha256 : ByteArray → String} {generatedAt : String} {snapshot : Snapshot}

def Snapshot.exportedUsers (snapshot : Snapshot) : List Json :=
  (snapshot.orderedUsers snapshot.referenced).map userRow

def Snapshot.manifest (sha256 : ByteArray → String) (snapshot : Snapshot) :
    List (String × Summary) :=
  businessDatasets.map (snapshot.manifestEntry sha256) ++
    [("users", summarize sha256 snapshot.exportedUsers)]

/-- The document that the stream amounts to. -/
def document (sha256 : ByteArray → String) (generatedAt : String) (snapshot : Snapshot) : Json :=
  .obj [("format", .str format), ("format_version", .int 1), ("generated_at", .str generatedAt),
    ("datasets", .obj (businessDatasets.map snapshot.datasetField)),
    ("users", .arr (snapshot.exportedUsers.map sortKeys)),
    ("manifest", sortKeys (manifestJson (snapshot.manifest sha256)))]

/-- The text of the document up to its datasets. -/
def openingText (generatedAt : String) : String :=
  "\x7b" ++ fieldText ("format", .str format) ++ "," ++ fieldText ("format_version", .int 1) ++
    "," ++ fieldText ("generated_at", .str generatedAt) ++ "," ++ quote "datasets" ++ ":\x7b"

theorem opening_eq : opening generatedAt = (openingText generatedAt).toUTF8 := by
  have first : ("\x7b\"format\":" : String) = "\x7b" ++ quote "format" ++ ":" := by decide +kernel
  have second : (",\"format_version\":1,\"generated_at\":" : String) = "," ++
      quote "format_version" ++ ":" ++ compact (.int 1) ++ "," ++ quote "generated_at" ++ ":" := by
    decide +kernel
  have third : (",\"datasets\":\x7b" : String) = "," ++ quote "datasets" ++ ":\x7b" := by
    decide +kernel
  have nothing : ByteArray.empty = ("" : String).toUTF8 := rfl
  have written : opening generatedAt = String.toUTF8 _ :=
    write_toUTF8 (write_toUTF8 (write_toUTF8 nothing))
  rw [written]
  unfold openingText fieldText
  rw [portable, canonical_str, canonical_str, compact_str, compact_str, first, second, third]
  simp only [String.append_assoc, String.empty_append]

/-- The text of the document up to its users. -/
def usersText (generatedAt : String) (snapshot : Snapshot) : String :=
  openingText generatedAt ++
    separated (businessDatasets.map fun dataset => fieldText (snapshot.datasetField dataset)) ++
    "\x7d,\"users\":["

/-- The text of the document, from piece to piece. -/
theorem compact_document : compact (document sha256 generatedAt snapshot) =
    usersText generatedAt snapshot ++ separated (snapshot.exportedUsers.map canonical) ++
      ("],\"manifest\":" ++ canonical (manifestJson (snapshot.manifest sha256)) ++ "\x7d") := by
  have users : ("\x7d,\"users\":[" : String) = "\x7d" ++ "," ++ quote "users" ++ ":" ++ "[" := by
    decide +kernel
  have manifest : ("],\"manifest\":" : String) = "]" ++ "," ++ quote "manifest" ++ ":" := by
    decide +kernel
  have datasets : (":\x7b" : String) = ":" ++ "\x7b" := by decide
  have list : compact (.arr (snapshot.exportedUsers.map sortKeys)) =
      "[" ++ separated (snapshot.exportedUsers.map canonical) ++ "]" := by
    rw [compact_arr, List.map_map]
    rfl
  have object : compact (.obj (businessDatasets.map snapshot.datasetField)) = "\x7b" ++
      separated (businessDatasets.map fun dataset => fieldText (snapshot.datasetField dataset)) ++
      "\x7d" := by
    rw [compact_obj, List.map_map]
    rfl
  unfold document usersText openingText
  rw [compact_obj, users, manifest, datasets]
  simp only [List.map_cons, List.map_nil, separated, String.intercalate_cons_cons,
    String.intercalate_singleton, list, object, fieldText, String.append_assoc]
  rfl

/-- The pieces of the stream are those of the document. -/
theorem writeBusinessTransfer_ok (settled : snapshot.provisioning = false)
    (valid : validateSchemaAndTenants snapshot.tables = .ok ()) :
    writeBusinessTransfer sha256 generatedAt snapshot =
      .ok (compact (document sha256 generatedAt snapshot)).toUTF8 := by
  have start : Streamed sha256 snapshot (openingText generatedAt) []
      { output := opening generatedAt } :=
    ⟨by rw [opening_eq, List.map_nil, separated_nil, String.append_empty], rfl, rfl⟩
  have streamed := start.append businessDatasets
  unfold writeBusinessTransfer
  rw [settled, if_neg Bool.false_ne_true, valid]
  dsimp only
  rw [List.nil_append, List.length_nil] at streamed
  generalize businessDatasets.zipIdx.foldl (writeDataset sha256 snapshot)
    { output := opening generatedAt } = stream at streamed ⊢
  have referenced : stream.userIds = snapshot.referenced := streamed.userIds
  have opened : write "\x7d,\"users\":[" stream.output = (usersText generatedAt snapshot).toUTF8 :=
    write_toUTF8 streamed.output
  have written : Written (usersText generatedAt snapshot) snapshot.exportedUsers
      (writeRows userRow (fun _ userIds => userIds) (write "\x7d,\"users\":[" stream.output)
        stream.userIds (snapshot.orderedUsers stream.userIds)) := by
    rw [referenced]
    exact written_writeRows _ opened
  generalize writeRows userRow (fun _ userIds => userIds)
    (write "\x7d,\"users\":[" stream.output) stream.userIds
      (snapshot.orderedUsers stream.userIds) = progress at written ⊢
  have isCount : (progress.summary sha256).count = stream.userIds.length := by
    have sameLength : ((snapshot.orderedUsers snapshot.referenced).map User.pk).length =
        snapshot.referenced.length := perm_orderedUsers.length_eq
    rw [written.summary, referenced]
    unfold summarize Snapshot.exportedUsers
    rw [List.length_map, ← sameLength, List.length_map]
  rw [if_neg (not_not.mpr isCount), written.summary, streamed.manifest, compact_document]
  exact congrArg Except.ok (write_toUTF8 written.output)

end Document

/-! ### What a reader finds -/

/-- The exported row has every declared field once, with its value. -/
def Exports (dataset : Dataset) (row : Instance) (exported : Json) : Prop :=
  ∃ fields, exported = .obj fields ∧ (fields.map Prod.fst).Nodup ∧
    fields.Perm (dataset.businessFields.map fun field =>
      (field, sortKeys (portable (row.getattr dataset field))))

/-- The list has each row of the dataset once, in the order of the primary keys. -/
def Lists (snapshot : Snapshot) (dataset : Dataset) (exported : List Json) : Prop :=
  ∃ rows : List Instance, rows.Perm (snapshot.rows dataset) ∧
    rows.Pairwise (fun first second => first.pk < second.pk) ∧
    List.Forall₂ (Exports dataset) rows exported

def ExportsUser (user : User) (exported : Json) : Prop :=
  ∃ fields, exported = .obj fields ∧
    fields.Perm [("id", .int user.pk), ("username", .str user.username), ("email", .str user.email)]

/-- The list has each user that a row names once, and nobody else. -/
def ListsUsers (snapshot : Snapshot) (exported : List Json) : Prop :=
  ∃ users : List User, (∀ user ∈ users, user ∈ snapshot.users) ∧
    users.Pairwise (fun first second => first.pk < second.pk) ∧
    (∀ id, id ∈ users.map User.pk ↔
      ∃ dataset, ∃ row ∈ snapshot.rows dataset, row.Names dataset id) ∧
    List.Forall₂ ExportsUser users exported

/-- The document has the datasets and the users, and the manifest says of each
list what is recomputed from it. -/
def Transfers (sha256 : ByteArray → String) (generatedAt : String) (snapshot : Snapshot)
    (parsed : Json) : Prop :=
  ∃ (rows : Dataset → List Json) (users : List Json) (manifest : List (String × Json)),
    parsed = .obj [("format", .str format), ("format_version", .int 1),
      ("generated_at", .str generatedAt),
      ("datasets", .obj (businessDatasets.map fun dataset => (dataset.name, .arr (rows dataset)))),
      ("users", .arr users), ("manifest", .obj manifest)] ∧
    (∀ dataset, Lists snapshot dataset (rows dataset)) ∧ ListsUsers snapshot users ∧
    manifest.Perm ((businessDatasets.map fun dataset =>
        (dataset.name, (summarize sha256 (rows dataset)).toJson)) ++
      [("users", (summarize sha256 users).toJson)])

section Readers

variable {sha256 : ByteArray → String} {generatedAt : String} {snapshot : Snapshot}

theorem pairwise_insertionSort_key {Row : Type} {key : Row → Nat} {rows : List Row}
    (distinct : (rows.map key).Nodup) :
    (rows.insertionSort fun first second => key first ≤ key second).Pairwise
      (fun first second => key first < key second) := by
  have total : Std.Total (fun first second : Row => key first ≤ key second) :=
    ⟨fun _ _ => Nat.le_total _ _⟩
  have isTrans : IsTrans Row (fun first second => key first ≤ key second) :=
    ⟨fun _ _ _ => Nat.le_trans⟩
  have sorted := List.pairwise_insertionSort (fun first second => key first ≤ key second) rows
  have apart : ((rows.insertionSort fun first second => key first ≤ key second).map key).Nodup :=
    ((List.perm_insertionSort _ rows).map key).nodup_iff.mpr distinct
  rw [List.Nodup, List.pairwise_map] at apart
  exact (sorted.and apart).imp fun both => Nat.lt_of_le_of_ne both.1 both.2

theorem nodup_businessFields (dataset : Dataset) : dataset.businessFields.Nodup := by
  cases dataset <;> decide +kernel

theorem exports_exportRow (dataset : Dataset) (row : Instance) :
    Exports dataset row (sortKeys (exportRow dataset row)) := by
  have fields : (sortFields (dataset.businessFields.map fun field =>
      (field, portable (row.getattr dataset field)))) =
      dataset.businessFields.map fun field =>
        (field, sortKeys (portable (row.getattr dataset field))) := by
    rw [sortFields_eq_map, List.map_map]
    rfl
  unfold exportRow
  rw [sortKeys, fields]
  have sorted := List.perm_insertionSort byKey (dataset.businessFields.map fun field =>
    (field, sortKeys (portable (row.getattr dataset field))))
  refine ⟨_, rfl, ?_, sorted⟩
  rw [(sorted.map Prod.fst).nodup_iff, List.map_map]
  exact (nodup_businessFields dataset).map Function.injective_id

theorem lists_exported (dataset : Dataset) :
    Lists snapshot dataset ((snapshot.exported dataset).map sortKeys) := by
  refine ⟨snapshot.ordered dataset, List.perm_insertionSort _ _,
    pairwise_insertionSort_key (snapshot.rowKeys dataset), ?_⟩
  unfold Snapshot.exported
  rw [List.map_map, List.forall₂_map_right_iff, List.forall₂_same]
  intro row _
  exact exports_exportRow dataset row

theorem listsUsers_exportedUsers : ListsUsers snapshot (snapshot.exportedUsers.map sortKeys) := by
  have distinct : ((snapshot.users.filter fun user => user.pk ∈ snapshot.referenced).map
      User.pk).Nodup := snapshot.userKeys.sublist (List.filter_sublist.map _)
  refine ⟨snapshot.orderedUsers snapshot.referenced, ?_, pairwise_insertionSort_key distinct, ?_,
    ?_⟩
  · intro user member
    exact List.mem_of_mem_filter ((List.mem_insertionSort _).mp member)
  · intro id
    rw [perm_orderedUsers.mem_iff, mem_referenced]
  · unfold Snapshot.exportedUsers
    rw [List.map_map, List.forall₂_map_right_iff, List.forall₂_same]
    intro user _
    exact ⟨_, rfl, List.perm_insertionSort _ _⟩

/-- The keys of a summary are in order. -/
theorem sortKeys_toJson (summary : Summary) : sortKeys summary.toJson = summary.toJson := by
  have inOrder : ("count" : String) ≤ "sha256" := by decide
  have sorted : ([("count", .int summary.count), ("sha256", .str summary.sha256)] :
      List (String × Json)).Pairwise byKey :=
    List.pairwise_pair.mpr inOrder
  unfold Summary.toJson
  rw [sortKeys, sortFields_eq_map]
  simp only [List.map_cons, List.map_nil, sortKeys]
  rw [sorted.insertionSort_eq]

theorem perm_manifest :
    ((sortFields ((snapshot.manifest sha256).map fun entry => (entry.1, entry.2.toJson))
        ).insertionSort byKey).Perm
      ((businessDatasets.map fun dataset => (dataset.name,
          (summarize sha256 ((snapshot.exported dataset).map sortKeys)).toJson)) ++
        [("users", (summarize sha256 (snapshot.exportedUsers.map sortKeys)).toJson)]) := by
  have entries : sortFields ((snapshot.manifest sha256).map fun entry =>
      (entry.1, entry.2.toJson)) =
      (snapshot.manifest sha256).map fun entry => (entry.1, entry.2.toJson) := by
    rw [sortFields_eq_map, List.map_map]
    apply List.map_congr_left
    intro entry _
    dsimp only [Function.comp_apply]
    rw [sortKeys_toJson]
  rw [entries]
  simp only [summarize_sortKeys]
  apply (List.perm_insertionSort _ _).trans
  unfold Snapshot.manifest
  rw [List.map_append, List.map_map]
  exact List.Perm.refl _

/-- A transfer of a snapshot that passes the check is written, and a reader that
inverts `json.dumps` finds in it every row and every user that a row names. -/
theorem transfer_faithful (sha256 : ByteArray → String) (generatedAt : String)
    (snapshot : Snapshot) (loads : ByteArray → Option Json)
    (settled : snapshot.provisioning = false)
    (valid : validateSchemaAndTenants snapshot.tables = .ok ())
    (inverts : loads (compact (document sha256 generatedAt snapshot)).toUTF8 =
      some (document sha256 generatedAt snapshot)) :
    ∃ output parsed, writeBusinessTransfer sha256 generatedAt snapshot = .ok output ∧
      loads output = some parsed ∧ Transfers sha256 generatedAt snapshot parsed := by
  refine ⟨_, _, writeBusinessTransfer_ok settled valid, inverts,
    fun dataset => (snapshot.exported dataset).map sortKeys, snapshot.exportedUsers.map sortKeys,
    _, rfl, lists_exported, listsUsers_exportedUsers, perm_manifest⟩

end Readers

/-! ### A sample -/

/-- The plain columns of a row. -/
def columns (values : List (String × Value)) (field : String) : Value :=
  (values.lookup field).getD .none

def morning : Value := .datetime "2026-03-02T09:00:00.000000+00:00"

/-- A relation to the workspace and to nothing else. -/
def withinSales (key : ForeignKey) : Option Nat :=
  if key = .organization then some 1 else Option.none

/-- A workspace with its settings and an owner, and a user who has nothing to do
with it. -/
def sales : Snapshot where
  rows
    | .organizations => [{
        pk := 1
        plain := columns [("name", .str "Sales"), ("slug", .str "sales"),
          ("is_personal", .bool false), ("created_at", morning), ("updated_at", morning)] }]
    | .organizationSettings => [{
        pk := 4
        foreign := withinSales
        plain := columns [("timezone", .str "Europe/Athens"), ("locale", .str "el-gr"),
          ("default_from_name", .str ""), ("legal_name", .str "Sales SA"),
          ("trading_name", .str "Sales"), ("tax_id", .str "094000000"), ("tax_office", .str ""),
          ("registration_number", .str ""), ("business_email", .str "sales@example.test"),
          ("phone", .str ""), ("website", .str ""), ("address_line_1", .str ""),
          ("address_line_2", .str ""), ("city", .str "Athens"), ("postal_code", .str ""),
          ("country", .str "GR"), ("currency", .str "EUR"), ("fiscal_year_start_month", .int 1),
          ("default_tax_rate", .decimal "24.00"), ("default_payment_terms_days", .int 30),
          ("document_prefix", .str ""), ("next_document_number", .int 1),
          ("created_at", morning), ("updated_at", morning)] }]
    | .memberships => [{
        pk := 2
        foreign := withinSales
        users := fun _ => some 7
        plain := columns [("role", .str "owner"), ("created_at", morning),
          ("updated_at", morning)] }]
    | _ => []
  users := [⟨9, "bob", "bob@example.test"⟩, ⟨7, "ada", "ada@example.test"⟩]
  provisioning := false
  rowKeys := by
    intro dataset
    cases dataset <;> decide
  userKeys := by decide
  userRelations := by
    intro dataset row stored field isUser id named
    cases dataset with
    | memberships =>
        cases List.mem_singleton.mp stored
        cases named
        exact ⟨⟨7, "ada", "ada@example.test"⟩, by decide, rfl⟩
    | organizations =>
        cases List.mem_singleton.mp stored
        cases named
    | organizationSettings => cases isUser
    | _ => cases stored

/-- The SHA-256 of the lists of the sample. -/
def salesDigest (bytes : ByteArray) : String :=
  if bytes.data = "[]".toUTF8.data then
    "4f53cda18c2baa0c0354bb5f9a3ecbe5ed12ab4d8e11ba873c2f11161202b945"
  else if bytes.data = (canonical (.arr (sales.exported .organizations))).toUTF8.data then
    "11a855bb7850486a034fb42c352ee32cbce2e0371a1304e0fb6b1ec4f2c3e491"
  else if bytes.data = (canonical (.arr (sales.exported .organizationSettings))).toUTF8.data then
    "c84e814dbb589fad426adcdba84fe25d2c6327a88b0fdc30ed55e333d6b502f8"
  else if bytes.data = (canonical (.arr (sales.exported .memberships))).toUTF8.data then
    "a7d614365df17f6c5eaa54bc04a5043dd2cb841fb23f0f7af4154a42d9bb7771"
  else "2807449eb8ce87a5d4f1761a7d768ffb0dee9cbf4b705703b34acc5881b30d9f"

def salesDocument : Json :=
  document salesDigest "2026-03-02T10:30:00.000000+00:00" sales

/-- A reader, as far as the sample is concerned. -/
def salesLoads (bytes : ByteArray) : Option Json :=
  if bytes.data = (compact salesDocument).toUTF8.data then some salesDocument else Option.none

/-- The transfer of the workspace names its owner and nobody else. -/
theorem transfer_faithful_sales :
    ∃ output parsed, writeBusinessTransfer salesDigest "2026-03-02T10:30:00.000000+00:00" sales =
        .ok output ∧ salesLoads output = some parsed ∧
      Transfers salesDigest "2026-03-02T10:30:00.000000+00:00" sales parsed :=
  transfer_faithful salesDigest _ sales salesLoads rfl (by rfl) (if_pos rfl)

end BubllioCrm.Onboarding.BusinessTransfer
